import Mathlib.Data.List.Sort

/-!
# Lists ascending in a key

The hits of an event and the blocks of a record are kept in ascending order of
their channels: each is inserted in front of the first that has a greater
channel.  As long as no two elements have one key, the list stays strictly
ascending (`ascending_orderedInsert`), and inserting elements one after the
other sorts them (`foldl_orderedInsert`).
-/

namespace ListMode

variable {α : Type} {key : α → Nat}

theorem ascending_orderedInsert {a : α} {as : List α} (h : as.Pairwise (key · < key ·))
    (absent : ∀ x ∈ as, key x ≠ key a) :
    (as.orderedInsert (key · < key ·) a).Pairwise (key · < key ·) := by
  induction as with
  | nil => exact List.pairwise_singleton _ a
  | cons x xs ih =>
      obtain ⟨hx, hxs⟩ := List.pairwise_cons.1 h
      obtain ⟨hne, absent⟩ := List.forall_mem_cons.1 absent
      rw [List.orderedInsert_cons]
      split
      · next hlt =>
          refine List.pairwise_cons.2 ⟨fun y hy => ?_, h⟩
          rcases List.mem_cons.1 hy with rfl | hy
          · exact hlt
          · exact Nat.lt_trans hlt (hx y hy)
      · next hle =>
          refine List.pairwise_cons.2 ⟨fun y hy => ?_, ih hxs absent⟩
          rcases (List.mem_orderedInsert _).1 hy with rfl | hy
          · exact Nat.lt_of_le_of_ne (Nat.not_lt.1 hle) hne
          · exact hx y hy

theorem nodup_of_ascending {as : List α} (h : as.Pairwise (key · < key ·)) : as.Nodup := by
  refine h.imp fun {a b} hlt heq => ?_
  rw [heq] at hlt
  exact Nat.lt_irrefl _ hlt

/-- Inserting elements one after the other sorts them. -/
theorem foldl_orderedInsert (as : List α) : ∀ sorted : List α,
    ((as ++ sorted).map key).Nodup → sorted.Pairwise (key · < key ·) →
    let done := as.foldl (fun sorted a => sorted.orderedInsert (key · < key ·) a) sorted
    done.Perm (as ++ sorted) ∧ done.Pairwise (key · < key ·) := by
  induction as with
  | nil =>
      intro sorted _ h
      exact ⟨.refl _, h⟩
  | cons a as ih =>
      intro sorted hnodup h
      have hperm : (as ++ sorted.orderedInsert (key · < key ·) a).Perm (a :: (as ++ sorted)) :=
        ((List.perm_orderedInsert _ a sorted).append_left as).trans List.perm_middle
      have hdistinct := (hperm.map key).nodup_iff.2 hnodup
      rw [List.cons_append, List.map_cons, List.nodup_cons, List.map_append, List.mem_append,
        not_or] at hnodup
      have absent : ∀ x ∈ sorted, key x ≠ key a :=
        fun x hx heq => hnodup.1.2 (heq ▸ List.mem_map_of_mem hx)
      obtain ⟨hdone, hsorted⟩ := ih _ hdistinct (ascending_orderedInsert h absent)
      exact ⟨hdone.trans hperm, hsorted⟩

end ListMode
