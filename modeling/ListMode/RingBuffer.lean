/-!
# Ring buffers

A ring buffer keeps a sequence in a circle of slots.  Items can be taken from the
front and put in anywhere; putting in moves the shorter side of the sequence by a
slot, and a full buffer gets twice as many slots.

The sequence is the view that counts (`RingBuffer.toList`).  Where it lies in the
circle is seen in one place only.  A place is searched by bisection
(`RingBuffer.search`), and when the sequence turns round the end of the slots, the
first item behind the turn tells which side is searched.  As long as the property
searched for holds on an initial part of the sequence, the place is the end of
that part (`RingBuffer.search_eq`).
-/

namespace ListMode

/-! ## Searching a range -/

/-- The first number with a property among the `n` numbers from `i` on. -/
@[specialize] def firstFrom? (p : Nat → Bool) (i : Nat) : (n : Nat) → Option Nat
  | 0 => none
  | n + 1 => if p i then some i else firstFrom? p (i + 1) n

/-- Where a bisection of the `size` numbers from `base` on ends, of which the
front ones have a property.  Half of the numbers are left out at a time; `fuel`
bounds the number of times. -/
def bisectFor (p : Nat → Bool) (base size : Nat) : (fuel : Nat) → Nat
  | 0 => base
  | fuel + 1 =>
    if size = 0 then base
    else if size = 1 then if p base then base + 1 else base
    else
      let half := size / 2
      bisectFor p (if p (base + half) then base + half else base) (size - half) fuel

/-- Where a bisection of the `size` numbers from `base` on ends. -/
def bisect (p : Nat → Bool) (base size : Nat) : Nat := bisectFor p base size (size + 1)

/-- A number has the property if and only if it lies in front of `e`. -/
def EndsAt (p : Nat → Bool) (e base size : Nat) : Prop :=
  ∀ i, base ≤ i → i < base + size → (p i = true ↔ i < e)

theorem bisectFor_eq {p : Nat → Bool} {e : Nat} {fuel base size : Nat} (hp : EndsAt p e base size)
    (hbase : base ≤ e) (hend : e ≤ base + size) (hfuel : size < fuel) :
    bisectFor p base size fuel = e := by
  induction fuel generalizing base size with
  | zero => omega
  | succ fuel ih =>
    unfold bisectFor
    split
    · omega
    · split
      · have := hp base (by omega) (by omega)
        split <;> simp_all <;> omega
      · have hmid := hp (base + size / 2) (by omega) (by omega)
        dsimp only
        split
        · next h =>
          exact ih (fun i hi hi' => hp i (by omega) (by omega)) (Nat.le_of_lt (hmid.1 h)) (by omega)
            (by omega)
        · next h =>
          have hle : e ≤ base + size / 2 := Nat.le_of_not_lt fun hlt => h (hmid.2 hlt)
          exact ih (fun i hi hi' => hp i (by omega) (by omega)) hbase (by omega) (by omega)

/-- A bisection finds the end of the numbers with a property, when these stand in
front. -/
theorem bisect_eq {p : Nat → Bool} {e base size : Nat} (hp : EndsAt p e base size)
    (hbase : base ≤ e) (hend : e ≤ base + size) : bisect p base size = e :=
  bisectFor_eq hp hbase hend (Nat.lt_succ_self size)

/-! ## The circle of slots -/

/-- A sequence in a circle of slots. -/
structure RingBuffer (α : Type) where
  /-- The sequence. -/
  items : Array α := #[]
  /-- The slot of the first item. -/
  start : Nat := 0
  /-- The number of slots. -/
  slots : Nat := 0
deriving DecidableEq, Repr

namespace RingBuffer

variable {α : Type}

/-- The sequence as a list. -/
def toList (r : RingBuffer α) : List α := r.items.toList

/-- The number of items. -/
def size (r : RingBuffer α) : Nat := r.items.size

/-- The item with a number is there and has a property. -/
@[inline] def holds (p : α → Bool) (r : RingBuffer α) (i : Nat) : Bool :=
  if h : i < r.items.size then p r.items[i] else false

/-- The number of items before the sequence turns round the end of the slots. -/
def turn (r : RingBuffer α) : Nat := min r.size (r.slots - r.start)

/-- The place behind the items with a property, when these stand in front. -/
def search (p : α → Bool) (r : RingBuffer α) : Nat :=
  if r.holds p r.turn then bisect (r.holds p) r.turn (r.size - r.turn)
  else bisect (r.holds p) 0 r.turn

/-- The first item with a property, by its number. -/
@[inline] def find? (p : α → Bool) (r : RingBuffer α) : Option Nat := firstFrom? (r.holds p) 0 r.size

/-- The number of items with a property in front of the first without it. -/
@[inline] def countFront (p : α → Bool) (r : RingBuffer α) : Nat :=
  (r.find? fun a => !p a).getD r.size

/-! ## Changing the sequence -/

/-- The start after room was made for another item.  A full buffer gets more
slots, and of the two sides of the turn the shorter one moves. -/
def widened (r : RingBuffer α) : Nat × Nat :=
  if r.size < r.slots then (r.start, r.slots)
  else
    let slots := max (2 * r.slots) 4
    let back := r.slots - r.start
    (if r.start < back ∨ r.start = 0 then r.start else slots - back, slots)

/-- Puts an item into an array, behind the first `i` items. -/
def insertAt (as : Array α) (i : Nat) (a : α) : Array α :=
  if as.size ≤ i then as.push a else (as.extract 0 i).push a ++ as.extract i as.size

/-- Puts an item into the sequence, behind the first `i` items. -/
def insert (r : RingBuffer α) (i : Nat) (a : α) : RingBuffer α :=
  let (start, slots) := r.widened
  let start :=
    if r.size - i < i then start
    else if start = 0 then slots - 1
    else start - 1
  match r with
  | ⟨items, _, _⟩ => ⟨insertAt items i a, start, slots⟩

/-- The first `n` items. -/
def front (r : RingBuffer α) (n : Nat) : List α := (r.items.extract 0 n).toList

/-- Takes `n` items from the front. -/
def drop (r : RingBuffer α) (n : Nat) : RingBuffer α :=
  if n = 0 then r
  else ⟨r.items.extract n r.size, (r.start + min n r.size) % r.slots, r.slots⟩

/-- Takes all items. -/
def clear (r : RingBuffer α) : RingBuffer α := { r with items := #[], start := 0 }

/-- Changes the item with a number. -/
def modify (r : RingBuffer α) (i : Nat) (f : α → α) : RingBuffer α :=
  match r with
  | ⟨items, start, slots⟩ => ⟨items.modify i f, start, slots⟩

/-! ## What was done to the sequence -/

theorem size_eq (r : RingBuffer α) : r.size = r.toList.length := rfl

theorem holds_eq_true {p : α → Bool} {r : RingBuffer α} {i : Nat} :
    r.holds p i = true ↔ ∃ a, r.toList[i]? = some a ∧ p a = true := by
  unfold holds toList
  split
  · next h => simp [Array.getElem?_eq_getElem h]
  · next h => simp [Array.getElem?_eq_none (Nat.le_of_not_lt h)]

@[simp] theorem toList_insert (r : RingBuffer α) (i : Nat) (a : α) :
    (r.insert i a).toList = r.toList.take i ++ a :: r.toList.drop i := by
  simp only [insert, toList, insertAt]
  split
  · next h => simp [List.take_of_length_le, List.drop_eq_nil_of_le, h]
  · simp [List.take_of_length_le]

@[simp] theorem front_eq (r : RingBuffer α) (n : Nat) : r.front n = r.toList.take n := by
  simp [front, toList]

@[simp] theorem toList_drop (r : RingBuffer α) (n : Nat) : (r.drop n).toList = r.toList.drop n := by
  unfold drop
  split
  · next h => simp [h]
  · simp [toList, size, List.take_of_length_le]

@[simp] theorem toList_clear (r : RingBuffer α) : r.clear.toList = [] := rfl

@[simp] theorem toList_modify (r : RingBuffer α) (i : Nat) (f : α → α) :
    (r.modify i f).toList = r.toList.modify i f := by
  simp [modify, toList]

/-! ## What a search finds -/

theorem firstFrom?_holds {p : α → Bool} {r : RingBuffer α} {i : Nat} {as : List α}
    (h : r.toList.drop i = as) :
    firstFrom? (r.holds p) i as.length = (as.findIdx? p).map (i + ·) := by
  induction as generalizing i with
  | nil => rfl
  | cons a as ih =>
    have hi : r.toList[i]? = some a := by
      rw [← List.head?_drop, h, List.head?_cons]
    have hrest : r.toList.drop (i + 1) = as := by
      rw [← List.tail_drop, h, List.tail_cons]
    have hp : r.holds p i = p a := by
      rw [Bool.eq_iff_iff, holds_eq_true, hi]
      simp
    rw [List.length_cons, firstFrom?, hp, ih hrest, List.findIdx?_cons]
    split
    · simp
    · simp [Function.comp_def, Nat.add_assoc, Nat.add_comm 1]

theorem find?_eq (p : α → Bool) (r : RingBuffer α) : r.find? p = r.toList.findIdx? p := by
  rw [find?, size_eq, firstFrom?_holds (List.drop_zero)]
  simp

theorem findIdx?_getD (p : α → Bool) (as : List α) :
    (as.findIdx? fun a => !p a).getD as.length = (as.takeWhile p).length := by
  induction as with
  | nil => rfl
  | cons a as ih =>
    rw [List.findIdx?_cons]
    by_cases hp : p a
    · simp only [hp, Bool.not_true, Bool.false_eq_true, if_false, List.takeWhile_cons, if_true,
        List.length_cons, ← ih]
      cases as.findIdx? fun a => !p a <;> rfl
    · simp [hp]

theorem countFront_eq (p : α → Bool) (r : RingBuffer α) :
    r.countFront p = (r.toList.takeWhile p).length := by
  rw [countFront, find?_eq, size_eq, findIdx?_getD]

/-- The property holds on an initial part of the list. -/
def Initial (p : α → Bool) (as : List α) : Prop :=
  as.Pairwise fun a b => p b = true → p a = true

theorem Initial.getElem {p : α → Bool} {as : List α} (h : Initial p as) {i : Nat} {a : α}
    (ha : as[i]? = some a) : p a = true ↔ i < (as.takeWhile p).length := by
  induction as generalizing i with
  | nil => simp at ha
  | cons b as ih =>
    obtain ⟨hb, hs⟩ := List.pairwise_cons.1 h
    cases i with
    | zero =>
      obtain rfl : b = a := by simpa using ha
      by_cases hp : p b <;> simp [hp]
    | succ i =>
      replace ha : as[i]? = some a := by simpa using ha
      by_cases hp : p b
      · simp [hp, ih hs ha]
      · simpa [hp] using fun hpa => hp (hb a (List.mem_of_getElem? ha) hpa)

/-- Where the sequence lies does not matter to a search for the end of an initial
part. -/
theorem search_eq {p : α → Bool} {r : RingBuffer α} (h : Initial p r.toList) :
    r.search p = (r.toList.takeWhile p).length := by
  have hends : ∀ i, i < r.size → (r.holds p i = true ↔ i < (r.toList.takeWhile p).length) := by
    intro i hi
    have ha := List.getElem?_eq_getElem (l := r.toList) (i := i) hi
    rw [holds_eq_true, ← h.getElem ha, ha]
    simp
  have hle : (r.toList.takeWhile p).length ≤ r.size := (List.takeWhile_sublist p).length_le
  have hturn : r.turn ≤ r.size := Nat.min_le_left _ _
  unfold search
  split
  · next hp =>
    have hlt : r.turn < r.size := Nat.lt_of_not_le fun hge => by
      simp [holds, show ¬ r.turn < r.items.size from Nat.not_lt.2 hge] at hp
    exact bisect_eq (fun i _ hi => hends i (by omega)) (Nat.le_of_lt ((hends _ hlt).1 hp)) (by omega)
  · next hp =>
    refine bisect_eq (fun i _ hi => hends i (by omega)) (Nat.zero_le _) ?_
    rcases Nat.lt_or_ge r.turn r.size with hlt | hge
    · have := mt (hends _ hlt).2 hp
      omega
    · omega

end RingBuffer

/-! ## Where the sequence lies -/

example : ((RingBuffer.mk #[] 0 0).insert 0 5).insert 1 6 = ⟨#[5, 6], 3, 4⟩ := by decide
example : (RingBuffer.mk #[5, 6, 7, 8] 3 4).turn = 1 := by decide
example : (RingBuffer.mk #[5, 6, 7, 8] 3 4).insert 4 9 = ⟨#[5, 6, 7, 8, 9], 7, 8⟩ := by decide
example : (RingBuffer.mk #[5, 6, 7, 8] 3 4).drop 2 = ⟨#[7, 8], 1, 4⟩ := by decide
example : (RingBuffer.mk #[5, 6, 7, 8] 3 4).search (· < 7) = 2 := by decide
example : (RingBuffer.mk #[5, 9, 7, 2] 3 4).search (· < 7) = 1 := by decide

end ListMode
