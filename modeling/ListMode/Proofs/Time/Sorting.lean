import ListMode.Time

/-!
# The time sort

Over one clock the order of timestamps is the order of their ticks, and
`Timestamp.sortOn` is the stable sort by ticks.  Stability is what fixes the
result: two lists in tick order that hold the same elements of each tick, in
the same order, are equal (`eq_of_ticks`).  Inserting and merge sorting both
keep the elements of a tick as they came, so both give the same list
(`Timestamp.sortOn_eq_mergeSort`).
-/

namespace ListMode.Timestamp

/-- The ticks of an element. -/
abbrev ticksOf {α : Type} (time : α → Timestamp) (a : α) : Nat := (time a).ticks.toNat

variable {α : Type} {time : α → Timestamp} {base : Timebase}

/-! ## One clock -/

theorem compare_of_base_eq {a b : Timestamp} (h : a.base = b.base) :
    a.compare b = Ord.compare a.ticks.toNat b.ticks.toNat := by
  rw [compare, if_pos h]

theorem compare_eq_lt_iff {a b : α} (h : (time a).base = (time b).base) :
    ((time a).compare (time b) == .lt) = decide (ticksOf time a < ticksOf time b) := by
  rw [compare_of_base_eq h, Bool.eq_iff_iff]
  simp [Nat.compare_eq_lt]

/-! ## Lists in tick order -/

/-- A list in tick order is fixed by the elements of each tick. -/
theorem eq_of_ticks {key : α → Nat} : ∀ {as bs : List α}, as.Pairwise (key · ≤ key ·) →
    bs.Pairwise (key · ≤ key ·) → (∀ k, as.filter (key · = k) = bs.filter (key · = k)) → as = bs
  | [], [], _, _, _ => rfl
  | [], b :: bs, _, _, h => by
      have hb := h (key b)
      simp at hb
  | a :: as, [], _, _, h => by
      have ha := h (key a)
      simp at ha
  | a :: as, b :: bs, has, hbs, h => by
      rw [List.pairwise_cons] at has hbs
      have hmem : ∀ x, x ∈ a :: as ↔ x ∈ b :: bs := by
        intro x
        have hx := congrArg (x ∈ ·) (h (key x))
        simpa using hx
      have hab : key a ≤ key b := by
        rcases List.mem_cons.1 ((hmem b).2 (List.mem_cons_self ..)) with heq | hin
        · exact Nat.le_of_eq (congrArg key heq.symm)
        · exact has.1 b hin
      have hba : key b ≤ key a := by
        rcases List.mem_cons.1 ((hmem a).1 (List.mem_cons_self ..)) with heq | hin
        · exact Nat.le_of_eq (congrArg key heq.symm)
        · exact hbs.1 a hin
      have hhead := h (key a)
      rw [List.filter_cons_of_pos (by simp), List.filter_cons_of_pos
        (by simpa using Nat.le_antisymm hba hab)] at hhead
      obtain ⟨rfl, -⟩ := List.cons.inj hhead
      have htail : as = bs := eq_of_ticks has.2 hbs.2 fun k => by
        have hk := h k
        simp only [List.filter_cons] at hk
        split at hk
        · exact (List.cons.inj hk).2
        · exact hk
      rw [htail]

/-! ## Inserting -/

/-- The elements of a tick stay in the order they came: the new one is in
front of those of its own tick. -/
theorem filter_insertLatestFirst {a : α} {as : List α} (ha : (time a).base = base)
    (has : ∀ x ∈ as, (time x).base = base) (k : Nat) :
    (insertLatestFirst time a as).filter (ticksOf time · = k) =
      (a :: as).filter (ticksOf time · = k) := by
  induction as with
  | nil => rfl
  | cons x xs ih =>
      rw [List.forall_mem_cons] at has
      rw [insertLatestFirst, compare_eq_lt_iff (ha.trans has.1.symm)]
      split
      · next hlt =>
          rw [decide_eq_true_eq] at hlt
          rw [List.filter_cons, ih has.2]
          simp only [List.filter_cons, decide_eq_true_eq]
          split
          · next hx =>
              have hne : ticksOf time a ≠ k := by omega
              rw [if_neg hne, if_neg hne]
          · rfl
      · rfl

theorem pairwise_insertLatestFirst {a : α} {as : List α} (ha : (time a).base = base)
    (has : ∀ x ∈ as, (time x).base = base)
    (h : as.Pairwise fun x y => ticksOf time y ≤ ticksOf time x) :
    (insertLatestFirst time a as).Pairwise
      fun x y => ticksOf time y ≤ ticksOf time x := by
  induction as with
  | nil => exact List.pairwise_singleton _ _
  | cons x xs ih =>
      rw [List.forall_mem_cons] at has
      rw [insertLatestFirst, compare_eq_lt_iff (ha.trans has.1.symm)]
      have hcons := List.pairwise_cons.1 h
      split
      · next hlt =>
          rw [decide_eq_true_eq] at hlt
          rw [List.pairwise_cons]
          refine ⟨fun y hy => ?_, ih has.2 hcons.2⟩
          rcases List.mem_cons.1 ((insertLatestFirst_perm time a xs).mem_iff.1 hy) with rfl | hy
          · exact Nat.le_of_lt hlt
          · exact hcons.1 y hy
      · next hle =>
          rw [decide_eq_true_eq, Nat.not_lt] at hle
          rw [List.pairwise_cons]
          refine ⟨fun y hy => ?_, h⟩
          rcases List.mem_cons.1 hy with rfl | hy
          · exact hle
          · exact Nat.le_trans (hcons.1 y hy) hle

/-! ## Sorting -/

/-- What inserting one element after the other does to a list kept latest
first: the elements of a tick come behind each other, last come first. -/
theorem foldl_insertLatestFirst (as : List α) : ∀ sorted : List α,
    (∀ x ∈ as, (time x).base = base) → (∀ x ∈ sorted, (time x).base = base) →
    (sorted.Pairwise fun x y => ticksOf time y ≤ ticksOf time x) →
    let done := as.foldl (fun sorted a => insertLatestFirst time a sorted) sorted
    (done.Pairwise fun x y => ticksOf time y ≤ ticksOf time x) ∧
      ∀ k, done.filter (ticksOf time · = k) =
        (as.filter (ticksOf time · = k)).reverse ++
          sorted.filter (ticksOf time · = k) := by
  induction as with
  | nil =>
      intro sorted _ _ h
      exact ⟨h, fun k => rfl⟩
  | cons a as ih =>
      intro sorted has hsorted h
      rw [List.forall_mem_cons] at has
      have hbase : ∀ x ∈ insertLatestFirst time a sorted, (time x).base = base := by
        intro x hx
        rcases List.mem_cons.1 ((insertLatestFirst_perm time a sorted).mem_iff.1 hx) with rfl | hx
        · exact has.1
        · exact hsorted x hx
      obtain ⟨hdone, hticks⟩ := ih _ has.2 hbase (pairwise_insertLatestFirst has.1 hsorted h)
      refine ⟨hdone, fun k => ?_⟩
      rw [List.foldl_cons, hticks k, filter_insertLatestFirst has.1 hsorted]
      simp only [List.filter_cons]
      split <;> simp

variable {as : List α} (has : ∀ a ∈ as, (time a).base = base)
include has

/-- The sorted elements are in tick order. -/
theorem pairwise_sortOn :
    (sortOn time as).Pairwise fun x y => ticksOf time x ≤ ticksOf time y := by
  rw [sortOn, List.pairwise_reverse]
  exact (foldl_insertLatestFirst as [] has (by simp) List.Pairwise.nil).1

/-- Sorting keeps the elements of a tick in the order they came. -/
theorem filter_sortOn (k : Nat) :
    (sortOn time as).filter (ticksOf time · = k) = as.filter (ticksOf time · = k) := by
  have h := (foldl_insertLatestFirst as [] has (by simp) List.Pairwise.nil).2 k
  rw [sortOn, List.filter_reverse, h]
  simp

omit has in
theorem le_trans_decide (key : α → Nat) (a b c : α) (hab : decide (key a ≤ key b) = true)
    (hbc : decide (key b ≤ key c) = true) : decide (key a ≤ key c) = true := by
  simp only [decide_eq_true_eq] at hab hbc ⊢
  exact Nat.le_trans hab hbc

omit has in
theorem le_total_decide (key : α → Nat) (a b : α) :
    (decide (key a ≤ key b) || decide (key b ≤ key a)) = true := by
  simpa using Nat.le_total (key a) (key b)

omit has in
/-- Merge sorting keeps them too. -/
theorem filter_mergeSort (key : α → Nat) (as : List α) (k : Nat) :
    (as.mergeSort fun a b => decide (key a ≤ key b)).filter (key · = k) =
      as.filter (key · = k) := by
  have htick : (as.filter (key · = k)).Pairwise fun a b => decide (key a ≤ key b) = true := by
    rw [List.pairwise_filter]
    refine List.pairwise_of_forall fun a b ha hb => ?_
    simp only [decide_eq_true_eq] at ha hb ⊢
    omega
  have hsub := (List.sublist_mergeSort (le_trans_decide key) (le_total_decide key) htick
    List.filter_sublist).filter (key · = k)
  rw [List.filter_filter] at hsub
  simp only [Bool.and_self] at hsub
  exact (hsub.eq_of_length (((List.mergeSort_perm as _).filter _).length_eq.symm)).symm

omit has in
theorem pairwise_mergeSort (key : α → Nat) (as : List α) :
    (as.mergeSort fun a b => decide (key a ≤ key b)).Pairwise (key · ≤ key ·) :=
  (List.pairwise_mergeSort (le_trans_decide key) (le_total_decide key) as).imp of_decide_eq_true

omit has in
/-- What is left out may be left out before or after merge sorting. -/
theorem mergeSort_filter (key : α → Nat) (p : α → Bool) (as : List α) :
    (as.filter p).mergeSort (fun a b => decide (key a ≤ key b)) =
      (as.mergeSort fun a b => decide (key a ≤ key b)).filter p := by
  have swap : ∀ (k : Nat) (as : List α),
      (as.filter p).filter (key · = k) = (as.filter (key · = k)).filter p := by
    intro k as
    simp only [List.filter_filter, Bool.and_comm]
  refine eq_of_ticks (pairwise_mergeSort key _) ((pairwise_mergeSort key as).filter p) fun k => ?_
  rw [filter_mergeSort, swap, swap, filter_mergeSort]

/-- The time sort is the stable sort by ticks. -/
theorem sortOn_eq_mergeSort : sortOn time as =
    as.mergeSort fun a b => decide (ticksOf time a ≤ ticksOf time b) := by
  refine eq_of_ticks (pairwise_sortOn has) (pairwise_mergeSort (ticksOf time) as) fun k => ?_
  rw [filter_sortOn has, filter_mergeSort (ticksOf time)]

end ListMode.Timestamp
