import ListMode.Proofs.Record.Framing

/-!
# Words behind a buffer

What is read of a buffer stands when more words are put behind it
(`Buffer.startOf_readFrom_append`): a record that is there in full is read the
same, and one that is cut off was not read at all.

A reading that no fault stops has either used up the words, as a run of framed
records, or met a zero in place of a record's length (`Buffer.EndsAtZero`), and
never both (`Buffer.not_endsAtZero_flatten`).  In the first case the words behind
the buffer are read as a buffer of their own (`Buffer.readFrom_append`).

Every list of words is some framed records in front of words in which no record
starts (`Buffer.Idle`), and the induction here is over these records
(`Buffer.frame_induction`).
-/

namespace ListMode.Buffer

variable {limit : Nat}

/-! ## The records in front of a buffer -/

/-- No record is read of the words, wherever they stand, and if no fault says why, then
they are used up or start with a zero. -/
def Idle (limit : Nat) (words : List UInt16) : Prop :=
  ∀ offset, ∃ fault, readFrom limit offset words = { fault } ∧
    (fault = none → words = [] ∨ ∃ rest, words = 0 :: rest)

/-- Words are either idle or start with a framed record. -/
theorem idle_or_framed (limit : Nat) (words : List UInt16) :
    Idle limit words ∨ ∃ record rest, words = record ++ rest ∧ Framed limit record := by
  cases words with
  | nil => exact .inl fun _ => ⟨none, by rw [readFrom], fun _ => .inl rfl⟩
  | cons count body =>
      by_cases hzero : count.toNat = 0
      · refine .inl fun offset => ⟨none, ?_, fun _ => .inr ⟨body, ?_⟩⟩
        · rw [readFrom, if_pos hzero]
        · rw [UInt16.toNat_inj.1 (hzero.trans UInt16.toNat_zero.symm)]
      by_cases hrange : count.toNat < recordHeaderWords ∨ limit < count.toNat
      · refine .inl fun offset => ⟨some (.recordLength offset count.toNat limit), ?_, fun h => by cases h⟩
        rw [readFrom, if_neg hzero, if_pos hrange]
      by_cases hshort : (count :: body.take (count.toNat - 1)).length < count.toNat
      · refine .inl fun offset =>
          ⟨some (.recordLength offset count.toNat (body.length + 1)), ?_, fun h => by cases h⟩
        rw [readFrom, if_neg hzero, if_neg hrange]
        exact if_pos hshort
      · obtain ⟨hcovers, hwithin⟩ := not_or.1 hrange
        have hlength : (count :: body.take (count.toNat - 1)).length = count.toNat := by
          simp only [List.length_cons, List.length_take] at hshort ⊢
          omega
        refine .inr ⟨count :: body.take (count.toNat - 1), body.drop (count.toNat - 1), ?_, ?_⟩
        · rw [List.cons_append, List.take_append_drop]
        · constructor
          · rw [hlength]
            rfl
          · rw [hlength]
            exact Nat.not_lt.1 hcovers
          · rw [hlength]
            exact Nat.not_lt.1 hwithin

/-- Induction over the framed records in front of a list of words. -/
theorem frame_induction (limit : Nat) {motive : List UInt16 → Prop}
    (idle : ∀ words, Idle limit words → motive words)
    (record : ∀ r rest, Framed limit r → motive rest → motive (r ++ rest)) :
    ∀ words, motive words := by
  intro words
  induction hn : words.length using Nat.strongRecOn generalizing words with
  | _ n ih =>
      rcases idle_or_framed limit words with hidle | ⟨r, rest, rfl, hframed⟩
      · exact idle words hidle
      · have hcovers := hframed.covers
        refine record r rest hframed (ih rest.length ?_ rest rfl)
        rw [List.length_append] at hn
        simp only [recordHeaderWords] at hcovers
        omega

/-! ## Nothing is taken back -/

/-- One reading gave the start of what another one gave. -/
structure StartOf (b b' : Buffer) : Prop where
  events : b.events <+: b'.events
  records : b.records ≤ b'.records
  /-- An event that stopped the one stops the other. -/
  unfinished : ∀ e, b.unfinished = some e → b'.unfinished = some e

theorem StartOf.append {b b' : Buffer} (h : StartOf b b') (first : Buffer) :
    StartOf (first.append b) (first.append b') where
  events := (List.prefix_append_right_inj _).2 h.events
  records := Nat.add_le_add_left h.records _
  unfinished := h.unfinished

/-- More words behind a buffer leave what is read of it. -/
theorem startOf_readFrom_append (limit : Nat) (more : List UInt16) (words : List UInt16) :
    ∀ offset, StartOf (readFrom limit offset words) (readFrom limit offset (words ++ more)) := by
  induction words using frame_induction limit with
  | idle words hidle =>
      intro offset
      obtain ⟨fault, hread, -⟩ := hidle offset
      rw [hread]
      exact ⟨List.nil_prefix, Nat.zero_le _, nofun⟩
  | record r rest hframed ih =>
      intro offset
      rw [List.append_assoc, readFrom_framed hframed, readFrom_framed hframed]
      simp only
      split
      · exact ⟨List.prefix_rfl, Nat.le_refl _, fun _ => id⟩
      · exact (ih _).append _

/-! ## Buffers that are used up -/

/-- The reading of the words is ended by a zero that stands in place of the length of a
record, at the front or behind records that are read to their ends. -/
inductive EndsAtZero (limit : Nat) : List UInt16 → Prop where
  | marker (rest : List UInt16) : EndsAtZero limit (0 :: rest)
  | behind {record rest : List UInt16} (framed : Framed limit record) (sound : Sound record)
      (ends : EndsAtZero limit rest) : EndsAtZero limit (record ++ rest)

/-- A reading without a fault is ended by a zero or by the end of the words. -/
theorem endsAtZero_or_flatten (words : List UInt16) : ∀ {offset : Nat},
    (readFrom limit offset words).fault = none →
      EndsAtZero limit words ∨ ∃ records : List (List UInt16), words = records.flatten ∧
        (∀ r ∈ records, Framed limit r) ∧ ∀ r ∈ records, Sound r := by
  induction words using frame_induction limit with
  | idle words hidle =>
      intro offset h
      obtain ⟨fault, hread, hends⟩ := hidle offset
      rw [hread] at h
      rcases hends h with rfl | ⟨rest, rfl⟩
      · exact .inr ⟨[], rfl, nofun, nofun⟩
      · exact .inl (.marker rest)
  | record r rest hframed ih =>
      intro offset h
      rw [readFrom_framed hframed] at h
      simp only at h
      split at h
      · next hfault =>
          rw [h] at hfault
          cases hfault
      · next hfault =>
          have hsound : Sound r := sound_of_fault_eq_none (Option.not_isSome_iff_eq_none.1 hfault)
          rcases ih h with hends | ⟨records, rfl, hframeds, hsounds⟩
          · exact .inl (.behind hframed hsound hends)
          · refine .inr ⟨r :: records, rfl, ?_, ?_⟩
            · exact List.forall_mem_cons.2 ⟨hframed, hframeds⟩
            · exact List.forall_mem_cons.2 ⟨hsound, hsounds⟩

/-- The first word of a framed record says where it ends. -/
theorem Framed.head?_append {r : List UInt16} (h : Framed limit r) (rest : List UInt16) :
    (r ++ rest).head?.map UInt16.toNat = some r.length := by
  cases r with
  | nil => cases h.counts
  | cons count body => exact h.counts

/-- Framed records in front of the same words are the same. -/
theorem Framed.append_inj {r r' rest rest' : List UInt16} (h : Framed limit r)
    (h' : Framed limit r') (heq : r ++ rest = r' ++ rest') : r = r' ∧ rest = rest' := by
  have hcounts := h.head?_append rest
  rw [heq, h'.head?_append] at hcounts
  exact List.append_inj heq (Option.some.inj hcounts).symm

/-- Words that are used up are not ended by a zero. -/
theorem not_endsAtZero_flatten {records : List (List UInt16)}
    (hframed : ∀ r ∈ records, Framed limit r) : ¬ EndsAtZero limit records.flatten := by
  intro h
  generalize hwords : records.flatten = words at h
  induction h generalizing records with
  | marker rest =>
      cases records with
      | nil => cases hwords
      | cons r rs =>
          -- the length of the first record would be zero
          have hr := hframed r List.mem_cons_self
          have hcovers := hr.covers
          have hcounts := hr.head?_append rs.flatten
          rw [← List.flatten_cons, hwords] at hcounts
          rw [← Option.some.inj hcounts] at hcovers
          cases hcovers
  | behind framed sound ends ih =>
      cases records with
      | nil =>
          have hcovers := framed.covers
          rw [(List.append_eq_nil_iff.1 hwords.symm).1] at hcovers
          cases hcovers
      | cons r rs =>
          rw [List.forall_mem_cons] at hframed
          obtain ⟨-, hrest⟩ := hframed.1.append_inj framed hwords
          exact ih hframed.2 hrest

/-- Behind words that are used up without a fault more words are read as a buffer of
their own. -/
theorem readFrom_append {words : List UInt16} (hfault : (readFrom limit 0 words).fault = none)
    (hends : ¬ EndsAtZero limit words) (more : List UInt16) :
    readFrom limit 0 (words ++ more) =
        (readFrom limit 0 words).append ((readFrom limit 0 more).shift words.length) ∧
      (readFrom limit 0 words).unfinished = none := by
  rcases endsAtZero_or_flatten words hfault with h | ⟨records, rfl, hframed, hsound⟩
  · exact absurd h hends
  · rw [readFrom_flatten_append hframed hsound, readFrom_flatten hframed hsound, readFrom_shift]
    exact ⟨rfl, rfl⟩

end ListMode.Buffer
