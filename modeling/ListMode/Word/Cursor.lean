import ListMode.Record.Fault
import ListMode.Word.Basic

/-!
# Cursors

A cursor is a place in a buffer together with the words that may still be read
from there, its *window*.  A window ends where the buffer ends or earlier: a
child cursor taken from another one sees only the words it was given.  Reads
that ask for more than the window holds fail and move nothing.

Readers are cursor programs that may stop with a fault.  Every reader here only
moves forward over the words it consumed (`Cursor.Reaches`), which is what
bounds the loops built on them.
-/

namespace ListMode

/-- A place in a buffer and the words readable from there. -/
structure Cursor where
  /-- The number of words of the buffer before this place. -/
  position : Nat
  /-- The words from this place to the end of the window. -/
  window : List UInt16
deriving DecidableEq, Repr

/-- A cursor program that gives a value or stops with a fault; the cursor is
known in either case. -/
abbrev Reader := EStateM DataFault Cursor

namespace Cursor

/-- The cursor at the start of a list of words. -/
def ofWords (words : List UInt16) : Cursor := ⟨0, words⟩

/-- The cursor over the whole words of a byte string. -/
def ofBytes (bytes : List UInt8) : Cursor := ofWords (Word.ofBytes bytes)

/-- The number of words left in the window. -/
def remaining (c : Cursor) : Nat := c.window.length

/-- The window is used up. -/
def isEmpty (c : Cursor) : Bool := c.window.isEmpty

/-- The fault of asking for more words than the window holds. -/
def shortOf (c : Cursor) (needed : Nat) : DataFault :=
  .truncated c.position needed c.remaining

/-- The cursor moved forward by a number of words. -/
def advance (c : Cursor) (n : Nat) : Cursor := ⟨c.position + n, c.window.drop n⟩

/-! ## Readers -/

/-- Reads the next word. -/
def next : Reader UInt16 := fun c =>
  match c.window with
  | [] => .error (c.shortOf 1) c
  | w :: rest => .ok w ⟨c.position + 1, rest⟩

/-- Gives the next word without moving. -/
def peek : Reader UInt16 := fun c =>
  match c.window with
  | [] => .error (c.shortOf 1) c
  | w :: _ => .ok w c

/-- Reads the next `n` words. -/
def words (n : Nat) : Reader (List UInt16) := fun c =>
  let front := c.window.take n
  if front.length = n then .ok front (c.advance n) else .error (c.shortOf n) c

/-- Passes over the next `n` words. -/
def skip (n : Nat) : Reader Unit := do
  let _ ← words n

/-- Splits off a child cursor over the next `n` words and passes over them. -/
def take (n : Nat) : Reader Cursor := fun c =>
  match words n c with
  | .ok front c' => .ok ⟨c.position, front⟩ c'
  | .error e c' => .error e c'

/-! ## Readers move forward -/

/-- `c'` is `c` after some words of its window were read. -/
def Reaches (c c' : Cursor) : Prop :=
  ∃ used, c.window = used ++ c'.window ∧ c'.position = c.position + used.length

theorem Reaches.refl (c : Cursor) : c.Reaches c := ⟨[], rfl, rfl⟩

theorem Reaches.trans {a b c : Cursor} (hab : a.Reaches b) (hbc : b.Reaches c) : a.Reaches c := by
  obtain ⟨u, hu, hpu⟩ := hab
  obtain ⟨v, hv, hpv⟩ := hbc
  exact ⟨u ++ v, by simp [hu, hv], by simp [hpv, hpu, Nat.add_assoc]⟩

theorem Reaches.length_le {a b : Cursor} (h : a.Reaches b) :
    b.window.length ≤ a.window.length := by
  obtain ⟨u, hu, -⟩ := h
  simp [hu]

end Cursor

/-- The reader only moves forward, whether it gives a value or stops. -/
def Reader.Forward {α : Type} (r : Reader α) : Prop :=
  ∀ c, match r c with
    | .ok _ c' => c.Reaches c'
    | .error _ c' => c.Reaches c'

namespace Reader

open Cursor

theorem Forward.ok {α : Type} {r : Reader α} (h : r.Forward) {c c' : Cursor} {a : α}
    (hr : r c = .ok a c') : c.Reaches c' := by
  have := h c
  rwa [hr] at this

theorem Forward.error {α : Type} {r : Reader α} (h : r.Forward) {c c' : Cursor} {e : DataFault}
    (hr : r c = .error e c') : c.Reaches c' := by
  have := h c
  rwa [hr] at this

theorem forward_pure {α : Type} (a : α) : Forward (pure a : Reader α) := fun c => Reaches.refl c

theorem forward_throw {α : Type} (e : DataFault) : Forward (throw e : Reader α) :=
  fun c => Reaches.refl c

theorem Forward.bind {α β : Type} {r : Reader α} {f : α → Reader β} (hr : r.Forward)
    (hf : ∀ a, (f a).Forward) : Forward (r >>= f) := by
  intro c
  have h := hr c
  simp only [Bind.bind, EStateM.bind]
  cases hrc : r c with
  | error e c' => rw [hrc] at h; simpa using h
  | ok a c' =>
    rw [hrc] at h
    have h' := hf a c'
    cases hfa : f a c' with
    | ok b c'' => rw [hfa] at h'; simpa only [hfa] using h.trans h'
    | error e c'' => rw [hfa] at h'; simpa only [hfa] using h.trans h'

theorem Forward.map {α β : Type} {r : Reader α} (hr : r.Forward) (f : α → β) :
    Forward (f <$> r) :=
  hr.bind fun a => forward_pure (f a)

theorem forward_next : Forward next := by
  intro c
  unfold next
  cases hw : c.window with
  | nil => exact Reaches.refl c
  | cons w rest => exact ⟨[w], by simp [hw], rfl⟩

theorem forward_words (n : Nat) : Forward (words n) := by
  intro c
  unfold words
  by_cases h : (c.window.take n).length = n
  · simp only [h, if_true]
    exact ⟨c.window.take n, by simp [advance], by rw [h]; rfl⟩
  · simp only [h, if_false]
    exact Reaches.refl c

theorem forward_skip (n : Nat) : Forward (skip n) :=
  (forward_words n).bind fun _ => forward_pure _

theorem forward_get : Forward (get : Reader Cursor) := fun c => Reaches.refl c

end Reader

end ListMode
