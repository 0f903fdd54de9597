import ListMode.Proofs.Spectrum.Extent

/-!
# How a spectrum changes

An operation adds to the counts, reads them, replaces them, or leaves them alone
(`Spectrum.effect`).  Only setups, resets, texts and files replace counts, and only
those that are accepted (`Spectrum.Replaces`).

Counts that are added are seen cell by cell.  A cell is stored and remembered as
before (`Counts.Kept`), or it has more counts than before (`Counts.Raised`); from one
tally to a later one the sum of the counts grows by what the total grows by, as long
as there is room for it (`Tally.Grows`).  Raising one cell grows a tally
(`Tally.grows_raise`), growths follow each other (`Tally.Grows.trans`), and so a
tally grows by any events (`Tally.grows_countAll`) and a spectrum by any hits and
entries (`Spectrum.grows_apply`).
-/

namespace ListMode

open Coincidence (Event)
open Coordinate (index)

namespace Cells

variable {κ : Type} [Coordinate κ] [DecidableEq κ]

theorem get?_set (c : Cells κ) (k l : κ) (n : Nat) :
    (c.set k n).get? l = if k = l then some n else c.get? l := by
  simp only [set, get?_alter, index_eq_iff]

theorem get?_bump (c : Cells κ) (k l : κ) (n : Nat) :
    (c.bump k n).get? l = if k = l then some (min (c.count k + n) countLimit) else c.get? l := by
  simp only [bump, get?_alter, index_eq_iff]
  rfl

end Cells

namespace Counts

/-! ## Cells by their numbers -/

/-- The count that a cell is stored with. -/
def stored? : Counts → List Bin → Option Nat
  | .line cells, [j] => cells.get? j
  | .plane cells _, [i, j] => cells.get? ⟨i, j⟩
  | _, _ => none

/-- The count that a touched cell is remembered with. -/
def touched? : Counts → List Bin → Option Nat
  | .plane _ touched, [i, j] => touched.get? ⟨i, j⟩
  | _, _ => none

theorem count_eq (c : Counts) (coords : List Bin) :
    c.count coords = (c.stored? coords).getD 0 := by
  match c, coords with
  | .line _, [] | .line _, [_] | .line _, _ :: _ :: _ => rfl
  | .plane _ _, [] | .plane _ _, [_] | .plane _ _, [_, _] | .plane _ _, _ :: _ :: _ :: _ => rfl

theorem mem_entries {c : Counts} {coords : List Bin} {n : Nat} :
    (coords, n) ∈ c.entries ↔ c.stored? coords = some n := by
  match c, coords with
  | .line cells, [j] => simp [entries, stored?, Cells.get?_eq_some_iff]
  | .line cells, [] | .line cells, _ :: _ :: _ => simp [entries, stored?]
  | .plane cells _, [i, j] =>
      simp only [entries, stored?, Cells.get?_eq_some_iff, List.mem_map, coordinates]
      constructor
      · rintro ⟨⟨⟨i', j'⟩, k⟩, he, heq⟩
        cases heq
        exact he
      · exact fun h => ⟨_, h, rfl⟩
  | .plane cells _, [] | .plane cells _, [_] | .plane cells _, _ :: _ :: _ :: _ =>
      simp [entries, stored?, coordinates]

theorem mem_touchedEntries {c : Counts} {coords : List Bin} {n : Nat} :
    (coords, n) ∈ c.touchedEntries ↔ c.touched? coords = some n := by
  cases c with
  | line cells => simp [touchedEntries, touched?]
  | plane cells touched =>
      -- the touched cells are stored like any others
      have same : (plane touched ∅).stored? coords = (plane cells touched).touched? coords := by
        match coords with
        | [] | [_] | [_, _] | _ :: _ :: _ :: _ => rfl
      rw [← same]
      exact mem_entries (c := .plane touched ∅)

section

variable {c : Counts} {coords : List Bin} (arity : coords.length = c.axes.dimensions)
include arity

theorem stored?_bump (buffered : Bool) (n : Nat) (other : List Bin) :
    (c.bump buffered n coords).stored? other =
      if coords = other then some (min (c.count coords + n) countLimit)
      else c.stored? other := by
  cases c with
  | line cells =>
      obtain ⟨j, rfl⟩ := List.length_eq_one_iff.1 arity
      rcases other with _ | ⟨k, _ | ⟨l, rest⟩⟩
      · simp [bump, stored?]
      · simp [bump, stored?, count, Cells.get?_bump]
      · simp [bump, stored?]
  | plane cells touched =>
      obtain ⟨i, j, rfl⟩ := List.length_eq_two.1 arity
      rcases other with _ | ⟨k, _ | ⟨l, _ | ⟨m, rest⟩⟩⟩
      · simp [bump, stored?]
      · simp [bump, stored?]
      · simp [bump, stored?, count, Cells.get?_bump]
      · simp [bump, stored?]

/-- Only counts on two axes remember cells, and only when reads are buffered. -/
theorem touched?_bump (buffered : Bool) (n : Nat) (other : List Bin) :
    (c.bump buffered n coords).touched? other =
      if coords = other ∧ c.axes = .two ∧ buffered = true then
        (c.bump buffered n coords).stored? other
      else c.touched? other := by
  cases c with
  | line cells =>
      obtain ⟨j, rfl⟩ := List.length_eq_one_iff.1 arity
      exact (if_neg fun h => nomatch h.2.1).symm
  | plane cells touched =>
      obtain ⟨i, j, rfl⟩ := List.length_eq_two.1 arity
      match other with
      | [] | [_] | _ :: _ :: _ :: _ => simp [bump, touched?]
      | [k, l] =>
          cases buffered with
          | false => simp [bump, touched?]
          | true =>
              show (touched.set ⟨i, j⟩ ((cells.bump ⟨i, j⟩ n).count ⟨i, j⟩)).get? ⟨k, l⟩ =
                if [i, j] = [k, l] ∧ Axes.two = .two ∧ true = true then
                  (cells.bump ⟨i, j⟩ n).get? ⟨k, l⟩
                else touched.get? ⟨k, l⟩
              rw [Cells.get?_set]
              by_cases same : i = k ∧ j = l
              · obtain ⟨rfl, rfl⟩ := same
                simp [Cells.count, Cells.get?_bump]
              · simp [same]

end

/-! ## Cells kept and raised -/

/-- A cell is stored and remembered as before. -/
structure Kept (c d : Counts) (coords : List Bin) : Prop where
  stored : d.stored? coords = c.stored? coords
  touched : d.touched? coords = c.touched? coords

/-- A cell has more counts than before, as far as it holds them, and with two axes it is
remembered when reads are buffered. -/
structure Raised (buffered : Bool) (c d : Counts) (coords : List Bin) : Prop where
  stored : ∃ k, d.stored? coords = some (min (c.count coords + (k + 1)) countLimit)
  touched : c.axes = .two →
    d.touched? coords = if buffered = true then d.stored? coords else c.touched? coords

variable {buffered : Bool} {c d e : Counts} {coords : List Bin}

theorem Kept.count (h : Kept c d coords) : d.count coords = c.count coords := by
  rw [count_eq, count_eq, h.stored]

theorem Kept.trans (h : Kept c d coords) (h' : Kept d e coords) : Kept c e coords :=
  ⟨h'.stored.trans h.stored, h'.touched.trans h.touched⟩

theorem Kept.raised (h : Kept c d coords) (axes : d.axes = c.axes)
    (h' : Raised buffered d e coords) : Raised buffered c e coords where
  stored := by
    rw [← h.count]
    exact h'.stored
  touched two := by
    rw [← h.touched]
    exact h'.touched (axes.trans two)

theorem Raised.kept (h : Raised buffered c d coords) (h' : Kept d e coords) :
    Raised buffered c e coords where
  stored := by
    rw [h'.stored]
    exact h.stored
  touched two := by
    rw [h'.stored, h'.touched]
    exact h.touched two

theorem Raised.count (h : Raised buffered c d coords) :
    ∃ k, d.count coords = min (c.count coords + (k + 1)) countLimit := by
  obtain ⟨k, stored⟩ := h.stored
  exact ⟨k, by rw [count_eq d, stored, Option.getD_some]⟩

theorem Raised.trans (h : Raised buffered c d coords) (axes : d.axes = c.axes)
    (h' : Raised buffered d e coords) : Raised buffered c e coords where
  stored := by
    obtain ⟨k, count⟩ := h.count
    obtain ⟨l, stored⟩ := h'.stored
    refine ⟨k + 1 + l, stored.trans ?_⟩
    rw [count]
    congr 1
    omega
  touched two := by
    rw [h'.touched (axes.trans two)]
    split
    · rfl
    · next plain => rw [h.touched two, if_neg plain]

end Counts

/-! ## Growing tallies -/

namespace Tally

/-- Counts were added to a tally, in cells of a kind.  What the sum of the counts grew by
is what the total grew by, as long as there is room for it. -/
structure Grows (buffered : Bool) (P : List Bin → Prop) (t u : Tally) : Prop where
  axes : u.counts.axes = t.counts.axes
  le : t.total ≤ u.total
  sum : t.counts.sum + (u.total - t.total) ≤ countLimit →
    u.counts.sum + t.total = t.counts.sum + u.total
  cells : ∀ coords, Counts.Kept t.counts u.counts coords ∨
    (P coords ∧ t.total < u.total ∧ Counts.Raised buffered t.counts u.counts coords)

variable {buffered : Bool} {P : List Bin → Prop} {t u v : Tally}

theorem Grows.refl (buffered : Bool) (P : List Bin → Prop) (t : Tally) : Grows buffered P t t where
  axes := rfl
  le := Nat.le_refl _
  sum _ := rfl
  cells _ := .inl ⟨rfl, rfl⟩

theorem Grows.trans (h : Grows buffered P t u) (h' : Grows buffered P u v) :
    Grows buffered P t v where
  axes := h'.axes.trans h.axes
  le := Nat.le_trans h.le h'.le
  sum room := by
    have le := h.le
    have le' := h'.le
    have first := h.sum (by omega)
    have second := h'.sum (by omega)
    omega
  cells coords := by
    rcases h.cells coords with kept | ⟨inside, lt, raised⟩
    · rcases h'.cells coords with kept' | ⟨inside', lt', raised'⟩
      · exact .inl (kept.trans kept')
      · exact .inr ⟨inside', Nat.lt_of_le_of_lt h.le lt', kept.raised h.axes raised'⟩
    · have total := Nat.lt_of_lt_of_le lt h'.le
      rcases h'.cells coords with kept' | ⟨-, -, raised'⟩
      · exact .inr ⟨inside, total, raised.kept kept'⟩
      · exact .inr ⟨inside, total, raised.trans h.axes raised'⟩

/-- Raising a cell grows a tally. -/
theorem grows_raise (buffered : Bool) {coords : List Bin}
    (arity : coords.length = t.counts.axes.dimensions) {n : Nat} (some_added : n ≠ 0)
    (inside : P coords) : Grows buffered P t (t.raise buffered coords n) where
  axes := Counts.axes_bump _ _ _ _
  le := Nat.le_add_right _ _
  sum room := by
    have total : (t.raise buffered coords n).total = t.total + n := rfl
    have sum : (t.raise buffered coords n).counts.sum = t.counts.sum + n :=
      Counts.sum_bump (by omega) arity buffered
    omega
  cells other := by
    have stored := Counts.stored?_bump arity buffered n other
    by_cases same : coords = other
    · obtain rfl := same
      obtain ⟨k, rfl⟩ := Nat.exists_eq_succ_of_ne_zero some_added
      refine .inr ⟨inside, Nat.lt_add_of_pos_right (Nat.succ_pos k), ⟨k, ?_⟩, fun two => ?_⟩
      · exact stored.trans (if_pos rfl)
      · refine (Counts.touched?_bump arity buffered _ coords).trans ?_
        simp only [two, true_and]
        rfl
    · refine .inl ⟨stored.trans (if_neg same), ?_⟩
      exact (Counts.touched?_bump arity buffered n other).trans (if_neg fun h => same h.1)

theorem grows_count {m : Metadata} (e : Event)
    (inside : ∀ coords, m.cellFor? t.counts.axes e = some coords → P coords) :
    Grows m.buffered P t (t.count m e) := by
  rw [Tally.count]
  cases hc : m.cellFor? t.counts.axes e with
  | none => exact .refl _ _ _
  | some coords =>
      exact grows_raise m.buffered (Metadata.length_of_cellFor? hc) Nat.one_ne_zero
        (inside coords hc)

/-- Counting events grows a tally in their cells. -/
theorem grows_countAll {m : Metadata} {es : List Event}
    (inside : ∀ e ∈ es, ∀ coords, m.cellFor? t.counts.axes e = some coords → P coords) :
    Grows m.buffered P t (t.countAll m es) := by
  induction es generalizing t with
  | nil => exact .refl _ _ _
  | cons e es ih =>
      rw [List.forall_mem_cons] at inside
      have first := grows_count e inside.1
      exact first.trans (ih (first.axes ▸ inside.2))

end Tally

namespace Spectrum

/-! ## Adding counts -/

/-- The operation adds counts. -/
def Operation.adds : Operation → Bool
  | .feed _ | .append _ _ => true
  | _ => false

variable {s t : Spectrum} {op : Operation} {P : List Bin → Prop}

theorem grows_feed {call : Feed}
    (inside : ∀ e ∈ s.closes call, ∀ coords,
      s.metadata.cellFor? s.axes e = some coords → P coords) :
    Tally.Grows s.metadata.buffered P s.tally (s.feed call).tally := by
  obtain ⟨b, counted⟩ := closes_counted s call
  rw [counted.tally]
  exact Tally.grows_countAll (m := s.metadata.setup) inside

theorem grows_append {coords : List Bin} (n : Nat) (inside : P coords) :
    Tally.Grows s.metadata.buffered P s.tally (s.append coords n).tally := by
  rw [append]
  split
  · next named => exact Tally.grows_raise s.metadata.buffered named.1 named.2 inside
  · exact .refl _ _ _

/-- What is added grows the tally. -/
theorem grows_apply (adds : op.adds = true) :
    Tally.Grows s.metadata.buffered (fun _ => True) s.tally (s.apply op).tally := by
  cases op with
  | feed call => exact grows_feed fun _ _ _ _ => trivial
  | append coords n => exact grows_append n trivial
  | _ => cases adds

/-- A cell is kept, or it is raised and the total with it. -/
theorem cells_apply (adds : op.adds = true) (coords : List Bin) :
    Counts.Kept s.counts (s.apply op).counts coords ∨
      s.metadata.total < (s.apply op).metadata.total ∧
        Counts.Raised s.metadata.buffered s.counts (s.apply op).counts coords :=
  ((grows_apply adds).cells coords).imp_right And.right

/-- Adding does not change the setup. -/
theorem setup_apply (adds : op.adds = true) : (s.apply op).metadata.setup = s.metadata.setup := by
  cases op with
  | feed call =>
      obtain ⟨b, counted⟩ := closes_counted s call
      exact counted.setup
  | append coords n =>
      rw [apply, append]
      split
      · rfl
      · rfl
  | _ => cases adds

theorem bits_of_adds (adds : op.adds = true) : (s.apply op).metadata.bits = s.metadata.bits := by
  have same := congrArg Metadata.bits (setup_apply (s := s) adds)
  exact same

theorem buffered_of_adds (adds : op.adds = true) :
    (s.apply op).metadata.buffered = s.metadata.buffered := by
  have same := congrArg Metadata.buffered (setup_apply (s := s) adds)
  exact same

/-! ## One operation -/

/-- The spectrum that a text is read as. -/
theorem readText_eq_ok {text : List Char} (h : s.readText text = .ok t) :
    ∃ counts maxBin, Counts.ofText s.axes text = .ok (counts, maxBin) ∧
      t = { s with
            counts
            metadata :=
              { s.metadata with
                maxBin
                total := counts.total
                symmetric := none
                changed := true } } := by
  unfold Spectrum.readText at h
  split at h
  · cases h
  · next counts maxBin htext =>
      cases h
      exact ⟨counts, maxBin, htext, rfl⟩

/-- The operation is accepted and puts other counts in place of those of the spectrum. -/
inductive Replaces (s : Spectrum) : Operation → Spectrum → Prop
  | setUp {m : Metadata} {t : Spectrum} (h : Spectrum.setUp s.axes m = .ok t) :
      Replaces s (.setUp m) t
  | reset : Replaces s .reset s.reset
  | readText {text : List Char} {t : Spectrum} (h : s.readText text = .ok t) :
      Replaces s (.readText text) t
  | load {fileName format : String} {contents : Except FolderFault ByteArray} {t : Spectrum}
      (h : s.load fileName format contents = .ok (some t)) :
      Replaces s (.load fileName format contents) t

/-- The operation takes away what a buffered read would give: it reads, or replaces the
counts. -/
def Renews (s : Spectrum) (op : Operation) : Prop :=
  (∃ bounds, op = .readRange bounds) ∨ ∃ t, s.Replaces op t

/-- The spectra differ in nothing but detectors, the result of the check of symmetry and the
mark of a change. -/
structure Alike (s t : Spectrum) : Prop where
  counts : t.counts = s.counts
  builder : t.builder = s.builder
  metadata : t.metadata =
    { s.metadata with
      detectors := t.metadata.detectors
      symmetric := t.metadata.symmetric
      changed := t.metadata.changed }

theorem Alike.refl (s : Spectrum) : Alike s s := ⟨rfl, rfl, rfl⟩

/-- What an operation does. -/
inductive Effect (s : Spectrum) (op : Operation) : Prop
  | adds (h : op.adds = true)
  | reads (bounds : List BinRange) (h : op = .readRange bounds)
  | replaces (h : s.Replaces op (s.apply op))
  | leaves (alike : Alike s (s.apply op)) (adds : op.adds = false) (renews : ¬ s.Renews op)

theorem not_renews (reads : ∀ bounds, op ≠ .readRange bounds) (replaces : ∀ t, ¬ s.Replaces op t) :
    ¬ s.Renews op := by
  rintro (⟨bounds, h⟩ | ⟨t, h⟩)
  · exact reads bounds h
  · exact replaces t h

theorem not_renews_of_adds (adds : op.adds = true) : ¬ s.Renews op := by
  cases op with
  | feed call => exact not_renews (by rintro _ ⟨⟩) (by rintro _ ⟨⟩)
  | append coords n => exact not_renews (by rintro _ ⟨⟩) (by rintro _ ⟨⟩)
  | _ => cases adds

theorem effect (s : Spectrum) (op : Operation) : s.Effect op := by
  cases op with
  | feed call => exact .adds rfl
  | append coords n => exact .adds rfl
  | readRange bounds => exact .reads bounds rfl
  | reset => exact .replaces .reset
  | setUp m =>
      cases hset : setUp s.axes m with
      | ok t => exact .replaces (by rw [apply, hset]; exact .setUp hset)
      | error fault =>
          refine .leaves (by rw [apply, hset]; exact .refl s) rfl (not_renews (by rintro _ ⟨⟩) ?_)
          intro t replaces
          cases replaces with
          | setUp h => cases hset.symm.trans h
  | readText text =>
      cases hread : s.readText text with
      | ok t => exact .replaces (by rw [apply, hread]; exact .readText hread)
      | error fault =>
          refine .leaves (by rw [apply, hread]; exact .refl s) rfl (not_renews (by rintro _ ⟨⟩) ?_)
          intro t replaces
          cases replaces with
          | readText h => cases hread.symm.trans h
  | load fileName format contents =>
      have refused : (∀ t, s.load fileName format contents ≠ .ok (some t)) →
          s.apply (.load fileName format contents) = s →
            s.Effect (.load fileName format contents) := by
        intro none same
        refine .leaves (by rw [same]; exact .refl s) rfl (not_renews (by rintro _ ⟨⟩) ?_)
        intro t replaces
        cases replaces with
        | load h => exact none t h
      rcases hload : s.load fileName format contents with fault | _ | t
      · exact refused (by simp [hload]) (by rw [apply, hload]; rfl)
      · exact refused (by simp [hload]) (by rw [apply, hload]; rfl)
      · exact .replaces (by rw [apply, hload]; exact .load hload)
  | checkSymmetry =>
      refine .leaves ?_ rfl (not_renews (by rintro _ ⟨⟩) (by rintro _ ⟨⟩))
      rw [apply, checkSymmetry]
      split
      · exact ⟨rfl, rfl, rfl⟩
      · exact .refl s
  | setDetectors ds =>
      exact .leaves ⟨rfl, rfl, rfl⟩ rfl (not_renews (by rintro _ ⟨⟩) (by rintro _ ⟨⟩))
  | clearChanged =>
      exact .leaves ⟨rfl, rfl, rfl⟩ rfl (not_renews (by rintro _ ⟨⟩) (by rintro _ ⟨⟩))

/-! ## Runs of operations -/

/-- A property holds of every operation of a run at the spectrum that it is done to. -/
def EachStep (P : Spectrum → Operation → Prop) (s : Spectrum) : List Operation → Prop
  | [] => True
  | op :: ops => P s op ∧ (s.apply op).EachStep P ops

instance decidableEachStep {P : Spectrum → Operation → Prop} [∀ s op, Decidable (P s op)] :
    ∀ (s : Spectrum) (ops : List Operation), Decidable (s.EachStep P ops)
  | _, [] => .isTrue trivial
  | s, op :: ops =>
      have : Decidable ((s.apply op).EachStep P ops) := decidableEachStep (s.apply op) ops
      inferInstanceAs (Decidable (P s op ∧ (s.apply op).EachStep P ops))

theorem applyAll_append (s : Spectrum) (ops later : List Operation) :
    s.applyAll (ops ++ later) = (s.applyAll ops).applyAll later :=
  List.foldl_append

theorem applyAll_concat (s : Spectrum) (ops : List Operation) (op : Operation) :
    s.applyAll (ops ++ [op]) = (s.applyAll ops).apply op :=
  applyAll_append s ops [op]

theorem eachStep_concat {P : Spectrum → Operation → Prop} {s : Spectrum} {ops : List Operation}
    {op : Operation} :
    s.EachStep P (ops ++ [op]) ↔ s.EachStep P ops ∧ P (s.applyAll ops) op := by
  induction ops generalizing s with
  | nil => exact ⟨fun h => ⟨trivial, h.1⟩, fun h => ⟨h.2, trivial⟩⟩
  | cons first ops ih =>
      show P s first ∧ (s.apply first).EachStep P (ops ++ [op]) ↔ _
      rw [ih]
      exact and_assoc.symm

end Spectrum

end ListMode
