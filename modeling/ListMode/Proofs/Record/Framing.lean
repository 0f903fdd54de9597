import ListMode.Proofs.Record.Shift

/-!
# Records as frames

A record is a list of words that starts with its own length.  Within the limit
on lengths it is *framed* (`Buffer.Framed`), and then reading a buffer takes it
off the front as a whole: what is read of it does not depend on what follows,
and what follows is read as if it stood there from the start
(`Buffer.readFrom_framed`).  A run of framed records without a fault gives the
events of each of them, wherever the run stands and however it is cut into runs
(`Buffer.readFrom_flatten`); and a run that is read without a fault has none in
any of its records (`Buffer.sound_of_readFrom`).
-/

namespace ListMode.Buffer

/-- The words are one record whose length is in range. -/
structure Framed (limit : Nat) (record : List UInt16) : Prop where
  /-- The first word is the number of words. -/
  counts : record.head?.map UInt16.toNat = some record.length
  /-- The record has room for its header. -/
  covers : recordHeaderWords ≤ record.length
  /-- The record is within the limit. -/
  within : record.length ≤ limit

variable {limit : Nat}

/-- A framed record is read first, and the words behind it after it. -/
theorem readFrom_framed {record : List UInt16} (h : Framed limit record) (rest : List UInt16)
    (offset : Nat) : readFrom limit offset (record ++ rest) =
      let first := readRecord ⟨offset, record⟩
      if first.fault.isSome then first
      else first.append (readFrom limit (offset + record.length) rest) := by
  obtain ⟨hcounts, hcovers, hwithin⟩ := h
  cases record with
  | nil => simp at hcounts
  | cons count body =>
      have hcount : count.toNat = body.length + 1 := by simpa using hcounts
      rw [List.length_cons] at hcovers hwithin
      have hzero : ¬ body.length + 1 = 0 := by omega
      have hrange : ¬ (body.length + 1 < recordHeaderWords ∨ limit < body.length + 1) := by omega
      rw [List.cons_append, readFrom]
      simp only [hcount, hzero, hrange, if_false, Nat.add_sub_cancel, List.take_left,
        List.drop_left, List.length_cons, Nat.lt_irrefl]

/-! ## Runs of framed records -/

/-- The record is read to its end. -/
def Sound (record : List UInt16) : Prop := (readRecord ⟨0, record⟩).fault = none

/-- The events of a record. -/
def eventsOf (record : List UInt16) : List Event := (readRecord ⟨0, record⟩).events

theorem readRecord_eq_shift (record : List UInt16) (offset : Nat) :
    readRecord ⟨offset, record⟩ = (readRecord ⟨0, record⟩).shift offset := by
  have h := readRecord_shift (k := offset) ⟨0, record⟩
  rwa [Cursor.shift, Nat.zero_add] at h

theorem readRecord_of_sound {record : List UInt16} (h : Sound record) (offset : Nat) :
    readRecord ⟨offset, record⟩ = { events := eventsOf record, records := 1 } := by
  rw [readRecord_eq_shift, eventsOf]
  simp only [Sound, readRecord] at h ⊢
  cases hheader : (Cursor.next >>= RecordHeader.read) ⟨0, record⟩ with
  | error e c =>
      rw [hheader] at h
      cases h
  | ok header c =>
      rw [hheader] at h
      simp only at h ⊢
      cases hfault : (Reader.untilEmpty (Event.read header) c).fault with
      | some fault =>
          rw [hfault] at h
          cases h
      | none => rfl

theorem sound_of_fault_eq_none {record : List UInt16} {offset : Nat}
    (h : (readRecord ⟨offset, record⟩).fault = none) : Sound record := by
  rw [readRecord_eq_shift] at h
  exact Option.map_eq_none_iff.1 h

variable {records : List (List UInt16)}

/-- A run of records is read as the events of each, and then what follows. -/
theorem readFrom_flatten_append (hframed : ∀ r ∈ records, Framed limit r)
    (hsound : ∀ r ∈ records, Sound r) (rest : List UInt16) : ∀ offset,
    readFrom limit offset (records.flatten ++ rest) =
      ({ events := records.flatMap eventsOf, records := records.length } : Buffer).append
        (readFrom limit (offset + records.flatten.length) rest) := by
  induction records with
  | nil =>
      intro offset
      simp [append]
  | cons r rs ih =>
      intro offset
      rw [List.forall_mem_cons] at hframed hsound
      have hfirst := readRecord_of_sound hsound.1 offset
      rw [List.flatten_cons, List.append_assoc, readFrom_framed hframed.1]
      simp only [hfirst, Option.isSome_none, Bool.false_eq_true, if_false, ih hframed.2 hsound.2,
        append, List.flatMap_cons, List.append_assoc, List.length_cons, List.length_append,
        Nat.add_assoc, Nat.add_left_comm]

theorem readFrom_flatten (hframed : ∀ r ∈ records, Framed limit r)
    (hsound : ∀ r ∈ records, Sound r) (offset : Nat) :
    readFrom limit offset records.flatten =
      { events := records.flatMap eventsOf, records := records.length } := by
  have h := readFrom_flatten_append hframed hsound [] offset
  rw [List.append_nil] at h
  rw [h, readFrom]
  simp [append]

/-- What is read without a fault has none in any record. -/
theorem sound_of_readFrom (hframed : ∀ r ∈ records, Framed limit r) : ∀ {offset},
    (readFrom limit offset records.flatten).fault = none → ∀ r ∈ records, Sound r := by
  induction records with
  | nil => exact fun _ _ hr => absurd hr List.not_mem_nil
  | cons r rs ih =>
      intro offset h
      rw [List.forall_mem_cons] at hframed
      rw [List.flatten_cons, readFrom_framed hframed.1] at h
      simp only at h
      split at h
      · next hfault =>
          rw [h] at hfault
          cases hfault
      · next hnone =>
          rw [List.forall_mem_cons]
          refine ⟨sound_of_fault_eq_none (Option.not_isSome_iff_eq_none.1 hnone), ?_⟩
          exact ih hframed.2 h

end ListMode.Buffer
