import ListMode.Proofs.Record.Framing
import ListMode.Proofs.Word.Bytes
import ListMode.Scan

/-!
# What a scan finds

The records a scan finds lie one behind the other from the start of the data on,
each as long as its first word says, and the scan consumes them and nothing else
(`Scan.scanFrom_tiles`).  Each of them is a whole number of words, so the words
of a run of them are the words of each (`Scan.ofBytes_flatten`).
-/

namespace ListMode.Scan

/-- The bytes are one record whose length is in range. -/
structure WholeRecord (limit : Nat) (bytes : List UInt8) : Prop where
  /-- No byte is left over. -/
  even : bytes.length % 2 = 0
  /-- The words are a record. -/
  framed : Buffer.Framed limit (Word.ofBytes bytes)

/-- Where parts of a byte string lie that follow one another from an offset on. -/
def boundsFrom (offset : Nat) : List (List UInt8) → List (Nat × Nat)
  | [] => []
  | part :: parts => (offset, offset + part.length) :: boundsFrom (offset + part.length) parts

variable {limit : Nat}

theorem ofBytes_flatten {records : List (List UInt8)} (h : ∀ r ∈ records, WholeRecord limit r) :
    Word.ofBytes records.flatten = (records.map Word.ofBytes).flatten := by
  induction records with
  | nil => rfl
  | cons r rs ih =>
      rw [List.forall_mem_cons] at h
      rw [List.flatten_cons, Word.ofBytes_append _ h.1.even, ih h.2, List.map_cons,
        List.flatten_cons]

theorem framed_of_mem_map {records : List (List UInt8)} (h : ∀ r ∈ records, WholeRecord limit r) :
    ∀ ws ∈ records.map Word.ofBytes, Buffer.Framed limit ws := by
  intro ws hws
  obtain ⟨r, hr, rfl⟩ := List.mem_map.1 hws
  exact (h r hr).framed

theorem wholeRecord_cons {lo hi : UInt8} {body : List UInt8}
    (hcovers : recordHeaderWords ≤ (Word.decode lo hi).toNat)
    (hwithin : (Word.decode lo hi).toNat ≤ limit)
    (hbody : body.length = 2 * (Word.decode lo hi).toNat - 2) :
    WholeRecord limit (lo :: hi :: body) := by
  have hlength : (lo :: hi :: body).length = 2 * (Word.decode lo hi).toNat := by
    simp only [List.length_cons, hbody]
    simp only [recordHeaderWords] at hcovers
    omega
  have hwords : (Word.ofBytes (lo :: hi :: body)).length = (Word.decode lo hi).toNat := by
    rw [Word.length_ofBytes, hlength]
    omega
  exact {
    even := by
      rw [hlength]
      omega
    framed := {
      counts := by
        rw [hwords, Word.ofBytes_cons_cons]
        rfl
      covers := by rwa [hwords]
      within := by rwa [hwords] } }

/-- A scan finds the records at the front of the data, one behind the other, and
consumes them. -/
theorem scanFrom_tiles (limit offset : Nat) (bytes : List UInt8) :
    ∃ records rest, bytes = records.flatten ++ rest ∧ (∀ r ∈ records, WholeRecord limit r) ∧
      ((scanFrom limit offset bytes).records.map fun r => (r.start, r.stop)) =
        boundsFrom offset records ∧
      (scanFrom limit offset bytes).consumed = offset + records.flatten.length := by
  fun_induction scanFrom limit offset bytes with
  | case1 offset lo hi rest words hzero => exact ⟨[], _, rfl, nofun, rfl, rfl⟩
  | case2 offset lo hi rest words hzero hrange => exact ⟨[], _, rfl, nofun, rfl, rfl⟩
  | case3 offset lo hi rest words hzero hrange body hshort => exact ⟨[], _, rfl, nofun, rfl, rfl⟩
  | case4 offset lo hi rest words hzero hrange body hlong module tail ih =>
      obtain ⟨hcovers, hwithin⟩ := not_or.1 hrange
      have hbody : body.length = 2 * words - 2 := by
        have hle : body.length ≤ 2 * words - 2 := List.length_take_le _ _
        omega
      have hwhole : WholeRecord limit (lo :: hi :: body) :=
        wholeRecord_cons (Nat.not_lt.1 hcovers) (Nat.not_lt.1 hwithin) hbody
      have hlength : (lo :: hi :: body).length = 2 * words := by
        simp only [List.length_cons, hbody]
        omega
      obtain ⟨records, left, hrest, hrecords, hbounds, hconsumed⟩ := ih
      refine ⟨(lo :: hi :: body) :: records, left, ?_, ?_, ?_, ?_⟩
      · rw [List.flatten_cons, List.append_assoc, ← hrest]
        simp [body]
      · rw [List.forall_mem_cons]
        exact ⟨hwhole, hrecords⟩
      · rw [boundsFrom, hlength, ← hbounds]
        rfl
      · rw [List.flatten_cons, List.length_append, hlength, ← Nat.add_assoc, ← hconsumed]
  | case5 offset bytes => exact ⟨[], _, rfl, nofun, rfl, rfl⟩

/-- The consumed bytes are the records. -/
theorem take_consumed {bytes : List UInt8} {records : List (List UInt8)} {rest : List UInt8}
    (hbytes : bytes = records.flatten ++ rest)
    (hconsumed : (scan limit bytes).consumed = 0 + records.flatten.length) :
    bytes.take (scan limit bytes).consumed = records.flatten := by
  rw [hconsumed, Nat.zero_add, hbytes, List.take_left]

end ListMode.Scan
