import ListMode.Hit.Basic
import Mathlib.Data.List.Forall2

/-!
# Hits keep their layout

A hit starts as the zero hit of a model and is then changed, in any of the ways
there are (`Hit.Change`) and in any order (`Hit.built`).  Whatever is asked of it,
be it a field that it does not have, a sample too wide for its field or a waveform
of another length, it keeps the layout of its model (`Hit.LaidOut`,
`Hit.laidOut_built`).
-/

namespace ListMode

/-- A sample that was cut to a width is not cut further. -/
theorem Digitized.ofRaw_raw (raw : UInt16) (bits : Nat) :
    ofRaw (ofRaw raw bits).raw bits = ofRaw raw bits := by
  have hle : raw.toNat % 1 <<< min bits 16 ≤ raw.toNat := Nat.mod_le _ _
  have hlt := raw.toNat_lt
  have hfits : (UInt16.ofNat (raw.toNat % 1 <<< min bits 16)).toNat =
      raw.toNat % 1 <<< min bits 16 := by
    rw [UInt16.toNat_ofNat']
    exact Nat.mod_eq_of_lt (by omega)
  simp only [ofRaw, hfits, Nat.mod_mod]

namespace Hit

/-! ## Changing a hit -/

/-- A way of changing a hit. -/
inductive Change where
  /-- Another tick count. -/
  | ticks (ticks : UInt64)
  /-- Another sample in a field. -/
  | value (i : Nat) (raw : UInt16)
  /-- Other samples at the front of the waveform. -/
  | trace (samples : List UInt16)
  /-- A shift in time. -/
  | delay (ns : Float)

/-- The hit after a change. -/
def change (h : Hit) : Change → Hit
  | .ticks ticks => h.setTicks ticks
  | .value i raw => h.setValue i raw
  | .trace samples => h.setTrace samples
  | .delay ns => h.delay ns

/-- The hit of a model on a source channel after some changes. -/
def built (source : SourceId) (m : HitModel) (changes : List Change) : Hit :=
  changes.foldl change (blank source m)

/-- The hit was built from the model that its source channel has. -/
def BuiltFrom (models : SourceId → Option HitModel) (h : Hit) : Prop :=
  ∃ m changes, models h.source = some m ∧ h = built h.source m changes

/-! ## The layout of a hit -/

/-- The hit is laid out as its model says. -/
structure LaidOut (m : HitModel) (h : Hit) : Prop where
  /-- The hit is timed by the model's clock. -/
  base : h.time.base = m.base
  /-- There is a value for each field, cut to the field's width. -/
  values : List.Forall₂ (fun f v => v = Digitized.ofRaw v.raw f.bits) m.fields h.values
  /-- The waveform has the model's length. -/
  trace : h.trace.length = m.traceLength

variable {m : HitModel} {h : Hit}

theorem laidOut_blank (source : SourceId) (m : HitModel) : (blank source m).LaidOut m where
  base := rfl
  values := by
    rw [blank, HitModel.blank, List.forall₂_map_right_iff, List.forall₂_same]
    exact fun f _ => (Digitized.ofRaw_raw 0 f.bits).symm
  trace := rfl

theorem forall₂_modify {α β : Type} {R : α → β → Prop} {f : β → β}
    (hf : ∀ a b, R a b → R a (f b)) {as : List α} {bs : List β} (h : List.Forall₂ R as bs) :
    ∀ i, List.Forall₂ R as (bs.modify i f) := by
  induction h with
  | nil =>
      intro i
      rw [List.modify_nil]
      exact .nil
  | cons hab hrest ih =>
      intro i
      cases i with
      | zero => exact .cons (hf _ _ hab) hrest
      | succ i => exact .cons hab (ih i)

theorem LaidOut.change (hl : h.LaidOut m) (c : Change) : (h.change c).LaidOut m := by
  cases c with
  | ticks ticks => exact ⟨hl.base, hl.values, hl.trace⟩
  | value i raw =>
      refine ⟨hl.base, forall₂_modify (fun f v hv => ?_) hl.values i, hl.trace⟩
      -- the sample is cut to the width of the value, which is that of the field
      have hbits : v.bits = f.bits := congrArg Digitized.bits hv
      rw [Digitized.set, hbits, Digitized.ofRaw_raw]
  | trace samples => exact ⟨hl.base, hl.values, hl.trace⟩
  | delay ns => exact ⟨hl.base, hl.values, hl.trace⟩

theorem laidOut_built (source : SourceId) (m : HitModel) (changes : List Change) :
    (built source m changes).LaidOut m := by
  have hrun : ∀ (changes : List Change) (h : Hit), h.LaidOut m →
      (changes.foldl Hit.change h).LaidOut m := by
    intro changes
    induction changes with
    | nil => exact fun _ hl => hl
    | cons c changes ih => exact fun h hl => ih _ (hl.change c)
  exact hrun changes _ (laidOut_blank source m)

theorem BuiltFrom.laidOut {models : SourceId → Option HitModel} (hb : h.BuiltFrom models) :
    ∃ m, models h.source = some m ∧ h.LaidOut m := by
  obtain ⟨m, changes, hm, hh⟩ := hb
  have hl := laidOut_built h.source m changes
  rw [← hh] at hl
  exact ⟨m, hm, hl⟩

theorem LaidOut.length_values (hl : h.LaidOut m) : h.values.length = m.fields.length :=
  hl.values.length_eq.symm

/-- The values are those that the samples give in the widths of the fields. -/
theorem LaidOut.zipWith_values (hl : h.LaidOut m) :
    List.zipWith (fun f raw => Digitized.ofRaw raw f.bits) m.fields
      (h.values.map Digitized.raw) = h.values := by
  have hvalues := hl.values
  generalize m.fields = fields, h.values = values at hvalues
  induction hvalues with
  | nil => rfl
  | cons hv hrest ih => rw [List.map_cons, List.zipWith_cons_cons, ih, ← hv]

end Hit

end ListMode
