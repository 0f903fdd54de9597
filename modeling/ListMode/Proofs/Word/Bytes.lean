import ListMode.Word.Basic
import Mathlib.Algebra.Group.Nat.Defs

/-!
# Words and their bytes

Reading words from bytes undoes writing them, whatever bytes follow
(`Word.ofBytes_toBytes_append`).  A byte string of even length is read apart
from what comes behind it (`Word.ofBytes_append`).  A number of any width is read
back from its bytes as far as they hold it (`ofLittleEndian_littleEndian`).
-/

namespace ListMode.Word

/-! ## Reading two bytes at a time -/

theorem ofBytes_go (bytes : List UInt8) (read : List UInt16) :
    ofBytes.go read bytes = read.reverse ++ ofBytes.go [] bytes := by
  match bytes with
  | [] => simp [ofBytes.go]
  | [_] => simp [ofBytes.go]
  | lo :: hi :: rest =>
      rw [ofBytes.go, ofBytes.go, ofBytes_go rest (_ :: read), ofBytes_go rest [_]]
      simp

@[simp] theorem ofBytes_nil : ofBytes [] = [] := rfl

@[simp] theorem ofBytes_singleton (b : UInt8) : ofBytes [b] = [] := rfl

@[simp] theorem ofBytes_cons_cons (lo hi : UInt8) (rest : List UInt8) :
    ofBytes (lo :: hi :: rest) = decode lo hi :: ofBytes rest := by
  rw [ofBytes, ofBytes.go, ofBytes_go]
  rfl

theorem length_ofBytes : ∀ bytes : List UInt8, (ofBytes bytes).length = bytes.length / 2
  | [] => rfl
  | [_] => by simp
  | _ :: _ :: rest => by
      have ih := length_ofBytes rest
      simp only [ofBytes_cons_cons, List.length_cons, ih]
      omega

/-! ## Writing and reading -/

/-- A word is read back from its two bytes. -/
theorem decode_encode (w : UInt16) : ∃ lo hi, encode w = [lo, hi] ∧ decode lo hi = w := by
  refine ⟨_, _, rfl, ?_⟩
  have hlt := UInt16.toNat_lt w
  apply UInt16.toNat.inj
  simp only [decode, ofLittleEndian, UInt8.toNat_ofNat', UInt16.toNat_ofNat']
  omega

theorem ofBytes_toBytes_append (ws : List UInt16) (bytes : List UInt8) :
    ofBytes (toBytes ws ++ bytes) = ws ++ ofBytes bytes := by
  induction ws with
  | nil => rfl
  | cons w ws ih =>
      obtain ⟨lo, hi, henc, hdec⟩ := decode_encode w
      have hbytes : toBytes (w :: ws) ++ bytes = lo :: hi :: (toBytes ws ++ bytes) := by
        simp [toBytes, henc]
      rw [hbytes, ofBytes_cons_cons, hdec, ih]
      rfl

/-- Reading undoes writing. -/
theorem ofBytes_toBytes (ws : List UInt16) : ofBytes (toBytes ws) = ws := by
  have h := ofBytes_toBytes_append ws []
  simpa using h

theorem length_toBytes (ws : List UInt16) : (toBytes ws).length = 2 * ws.length := by
  induction ws with
  | nil => rfl
  | cons w ws ih =>
      have hcons : toBytes (w :: ws) = encode w ++ toBytes ws := rfl
      have hword : (encode w).length = 2 := rfl
      rw [hcons, List.length_append, ih, hword, List.length_cons]
      omega

/-! ## Reading a part -/

theorem ofBytes_append : ∀ {bytes : List UInt8} (more : List UInt8), bytes.length % 2 = 0 →
    ofBytes (bytes ++ more) = ofBytes bytes ++ ofBytes more
  | [], _, _ => rfl
  | [_], _, h => by simp at h
  | lo :: hi :: rest, more, h => by
      have hrest : rest.length % 2 = 0 := by
        simp only [List.length_cons] at h
        omega
      simp [ofBytes_append more hrest]

/-- The words of the front of a byte string come first; an odd byte at its end is in the
word after them. -/
theorem ofBytes_prefix_append : ∀ bytes more : List UInt8, ofBytes bytes <+: ofBytes (bytes ++ more)
  | [], _ => List.nil_prefix
  | [_], _ => List.nil_prefix
  | lo :: hi :: rest, more => by
      rw [List.cons_append, List.cons_append, ofBytes_cons_cons, ofBytes_cons_cons,
        List.prefix_cons_inj]
      exact ofBytes_prefix_append rest more

theorem ofBytes_drop (i : Nat) : ∀ bytes : List UInt8,
    ofBytes (bytes.drop (2 * i)) = (ofBytes bytes).drop i := by
  induction i with
  | zero => exact fun _ => rfl
  | succ i ih =>
      intro bytes
      match bytes with
      | [] => rw [List.drop_nil, ofBytes_nil, List.drop_nil]
      | [b] => rw [Nat.mul_succ, List.drop_succ_cons, List.drop_nil, ofBytes_singleton, List.drop_nil,
          ofBytes_nil]
      | lo :: hi :: rest =>
          rw [Nat.mul_succ, List.drop_succ_cons, List.drop_succ_cons, ofBytes_cons_cons,
            List.drop_succ_cons]
          exact ih rest

theorem ofBytes_take (n : Nat) : ∀ bytes : List UInt8,
    ofBytes (bytes.take (2 * n)) = (ofBytes bytes).take n := by
  induction n with
  | zero => exact fun _ => rfl
  | succ n ih =>
      intro bytes
      match bytes with
      | [] => rw [List.take_nil, ofBytes_nil, List.take_nil]
      | [b] => rw [Nat.mul_succ, List.take_succ_cons, List.take_nil, ofBytes_singleton, List.take_nil]
      | lo :: hi :: rest =>
          rw [Nat.mul_succ, List.take_succ_cons, List.take_succ_cons, ofBytes_cons_cons,
            ofBytes_cons_cons, List.take_succ_cons, ih rest]

end ListMode.Word

namespace ListMode

/-! ## Numbers -/

theorem length_littleEndian (width : Nat) : ∀ n, (littleEndian width n).length = width := by
  induction width with
  | zero => exact fun _ => rfl
  | succ width ih =>
      intro n
      rw [littleEndian, List.length_cons, ih]

theorem ofLittleEndian_littleEndian (width : Nat) : ∀ n,
    ofLittleEndian (littleEndian width n) = n % 256 ^ width := by
  induction width with
  | zero =>
      intro n
      rw [Nat.pow_zero, Nat.mod_one]
      rfl
  | succ width ih =>
      intro n
      have hpow : 256 ^ (width + 1) = 256 * 256 ^ width := Nat.pow_succ'
      rw [littleEndian, ofLittleEndian, ih, UInt8.toNat_ofNat', hpow, Nat.mod_mul]

theorem littleEndian_ofLittleEndian (bytes : List UInt8) :
    littleEndian bytes.length (ofLittleEndian bytes) = bytes := by
  induction bytes with
  | nil => rfl
  | cons b bytes ih =>
      have hb := b.toNat_lt
      have hlow : UInt8.ofNat (b.toNat + 256 * ofLittleEndian bytes) = b := by
        apply UInt8.toNat.inj
        rw [UInt8.toNat_ofNat']
        omega
      have hhigh : (b.toNat + 256 * ofLittleEndian bytes) / 256 = ofLittleEndian bytes := by omega
      rw [List.length_cons, ofLittleEndian, littleEndian, hlow, hhigh, ih]

theorem ofLittleEndian_lt (bytes : List UInt8) : ofLittleEndian bytes < 256 ^ bytes.length := by
  have h := ofLittleEndian_littleEndian bytes.length (ofLittleEndian bytes)
  rw [littleEndian_ofLittleEndian] at h
  rw [h]
  exact Nat.mod_lt _ (Nat.pow_pos (by decide))

/-! ## Splitting off bytes -/

/-- A byte string is split into a front of the length asked for and what follows it. -/
theorem splitBytes?_eq_some_iff {n : Nat} {bytes front rest : List UInt8} :
    splitBytes? n bytes = some (front, rest) ↔ front.length = n ∧ front ++ rest = bytes := by
  constructor
  · intro h
    simp only [splitBytes?, Option.ite_none_right_eq_some, Option.some.injEq,
      Prod.mk.injEq] at h
    obtain ⟨hlength, rfl, rfl⟩ := h
    exact ⟨hlength, List.take_append_drop n bytes⟩
  · rintro ⟨rfl, rfl⟩
    simp only [splitBytes?, List.take_left, List.drop_left, if_true]

end ListMode
