/-!
# Waveforms

A waveform is a fixed number of samples, most of which may never have been
written.  What is kept is the front up to the last sample that is not zero
(`Waveform.front`), so a long waveform takes no more room than what stands in
it.  Each waveform is kept in one way only, and all that is said of one is said
of its samples (`Waveform.toList`), to which `Waveform.overwrite` does what its
name says (`toList_overwrite`).
-/

namespace ListMode

namespace Waveform

/-- The samples up to the last one that is not zero. -/
def trim : List UInt16 → List UInt16 :=
  List.foldr (fun w ws => if ws = [] ∧ w = 0 then [] else w :: ws) []

@[simp] theorem trim_nil : trim [] = [] := rfl

@[simp] theorem trim_cons (w : UInt16) (ws : List UInt16) :
    trim (w :: ws) = if trim ws = [] ∧ w = 0 then [] else w :: trim ws := rfl

theorem length_trim_le (ws : List UInt16) : (trim ws).length ≤ ws.length := by
  induction ws with
  | nil => exact Nat.le_refl 0
  | cons w ws ih =>
    rw [trim_cons]
    split
    · exact Nat.zero_le _
    · exact Nat.succ_le_succ ih

theorem trim_append_zeros (ws : List UInt16) (n : Nat) :
    trim (ws ++ List.replicate n 0) = trim ws := by
  induction ws with
  | nil =>
    induction n with
    | zero => rfl
    | succ n ih => simpa [List.replicate_succ] using ih
  | cons w ws ih => rw [List.cons_append, trim_cons, trim_cons, ih]

/-- What is cut off is zeros. -/
theorem trim_append_replicate (ws : List UInt16) :
    trim ws ++ List.replicate (ws.length - (trim ws).length) 0 = ws := by
  induction ws with
  | nil => rfl
  | cons w ws ih =>
    rw [trim_cons]
    split
    · next h =>
      rw [h.1] at ih
      rw [h.2]
      simpa [List.replicate_succ] using ih
    · simpa using ih

theorem trim_trim (ws : List UInt16) : trim (trim ws) = trim ws := by
  have h := trim_append_zeros (trim ws) (ws.length - (trim ws).length)
  rwa [trim_append_replicate, eq_comm] at h

end Waveform

/-- The samples of a hit's waveform. -/
structure Waveform where
  /-- The number of samples. -/
  length : Nat
  /-- The samples up to the last one that is not zero. -/
  front : List UInt16
  /-- The front is a part of the waveform. -/
  length_front_le : front.length ≤ length
  /-- The front ends with a sample that is not zero. -/
  trim_front : Waveform.trim front = front
deriving DecidableEq, Repr

namespace Waveform

/-! ## Building waveforms -/

/-- The waveform of the given samples. -/
def ofList (samples : List UInt16) : Waveform :=
  ⟨samples.length, trim samples, length_trim_le samples, trim_trim samples⟩

/-- The waveform of zeros only. -/
def blank (length : Nat) : Waveform := ⟨length, [], Nat.zero_le length, rfl⟩

/-- The samples, first to last. -/
def toList (w : Waveform) : List UInt16 :=
  w.front ++ List.replicate (w.length - w.front.length) 0

/-- The waveform with its first samples overwritten, as many as there is room
for. -/
def overwrite (w : Waveform) (samples : List UInt16) : Waveform where
  length := w.length
  front := trim (samples.take w.length ++ w.front.drop samples.length)
  length_front_le := by
    refine Nat.le_trans (length_trim_le _) ?_
    have := w.length_front_le
    simp only [List.length_append, List.length_take, List.length_drop]
    omega
  trim_front := trim_trim _

/-! ## Waveforms as lists -/

@[simp] theorem length_toList (w : Waveform) : w.toList.length = w.length := by
  have := w.length_front_le
  simp only [toList, List.length_append, List.length_replicate]
  omega

@[simp] theorem toList_ofList (samples : List UInt16) : (ofList samples).toList = samples :=
  trim_append_replicate samples

@[simp] theorem ofList_toList (w : Waveform) : ofList w.toList = w := by
  have hfront : trim w.toList = w.front := by rw [toList, trim_append_zeros, w.trim_front]
  have hlength := w.length_toList
  cases w
  simp only [ofList, mk.injEq]
  exact ⟨hlength, hfront⟩

/-- Waveforms with the same samples are the same. -/
theorem toList_inj {w v : Waveform} : w.toList = v.toList ↔ w = v :=
  ⟨fun h => by rw [← ofList_toList w, h, ofList_toList], fun h => h ▸ rfl⟩

@[simp] theorem length_overwrite (w : Waveform) (samples : List UInt16) :
    (w.overwrite samples).length = w.length := rfl

end Waveform

example : ((Waveform.blank 3).overwrite [7, 0]).toList = [7, 0, 0] := by decide
example : ((Waveform.blank 1).overwrite [7, 8]).toList = [7] := by decide
example : ((Waveform.ofList [1, 2]).overwrite [0]).toList = [0, 2] := by decide

end ListMode
