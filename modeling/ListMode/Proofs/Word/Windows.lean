import ListMode.Proofs.Word.Bytes
import ListMode.Word.Cursor
import ListMode.Word.IndexCursor
import Mathlib.Data.List.Basic

/-!
# No cursor leaves its window

The cursors that are split off from the cursor over a byte string, one from the other and
in any order, all read the words of that byte string and nothing else.

*One operation.*  As long as a cursor's place is not behind the end of its window, and the
window ends with the words of the buffer or before (`Inside`), the check in front of an
operation decides how it ends: with the words asked for (`Inside.run_eq_ok`), or with the
fault of asking for too many, and nothing moved (`Inside.run_eq_error`).  The cursor it
leaves and the child it splits off are inside again.

*Many cursors.*  So every cursor stays inside (`inside_askAll`).  No cursor goes back
(`Onward`), and a child's window ends where its parent goes on, so the parent never comes
to a word of it (`take_apart`).

`cursors_stay_inside` is all of this.  A cursor by index is the cursor that holds the words
that are left (`view_ofBytes`), and the operations on the two agree (`Inside.agrees_next`,
`Inside.agrees_peek`, `Inside.agrees_skip`, `Inside.agrees_words`, `Inside.agrees_take`), so
what is read with one is read with the other.
-/

namespace ListMode.IndexCursor

/-! ## Looking up words -/

theorem wordAt?_toArray (bytes : List UInt8) (i : Nat) :
    wordAt? bytes.toArray i = (Word.ofBytes bytes)[i]? := by
  have hlo : bytes[2 * i]? = (bytes.drop (2 * i))[0]? := by rw [List.getElem?_drop, Nat.add_zero]
  have hhi : bytes[2 * i + 1]? = (bytes.drop (2 * i))[1]? := by rw [List.getElem?_drop]
  have hword : (Word.ofBytes bytes)[i]? = (Word.ofBytes (bytes.drop (2 * i)))[0]? := by
    rw [Word.ofBytes_drop, List.getElem?_drop, Nat.add_zero]
  rw [wordAt?, List.getElem?_toArray, List.getElem?_toArray, hlo, hhi, hword]
  match bytes.drop (2 * i) with
  | [] => rfl
  | [_] => rfl
  | lo :: hi :: rest =>
      rw [Word.ofBytes_cons_cons]
      rfl

theorem wordsAt?_toArray {bytes : List UInt8} {i n : Nat} (room : i + n ≤ bytes.length / 2) :
    wordsAt? bytes.toArray i n = some (((Word.ofBytes bytes).drop i).take n) := by
  have hsize : 2 * (i + n) ≤ bytes.toArray.size := by
    rw [List.size_toArray]
    omega
  have hcut : 2 * (i + n) - 2 * i = 2 * n := by omega
  rw [wordsAt?, if_pos hsize, List.extract_toArray, List.extract_eq_take_drop, hcut,
    Word.ofBytes_take, Word.ofBytes_drop]

/-! ## Running readers -/

section

variable {ε σ α β : Type} {r : EStateM ε σ α} {f : α → EStateM ε σ β} {c c' : σ}

theorem bind_of_ok {a : α} (h : r c = .ok a c') : (r >>= f) c = f a c' := by
  simp only [Bind.bind, EStateM.bind, h]

theorem bind_of_error {e : ε} (h : r c = .error e c') : (r >>= f) c = .error e c' := by
  simp only [Bind.bind, EStateM.bind, h]

end

/-! ## What operations ask for and give -/

/-- The number of words that the window has to hold. -/
def Op.needed : Op → Nat
  | .next | .peek => 1
  | .skip n | .words n | .take n => n

/-- The number of words that the cursor moves forward by. -/
def Op.moved : Op → Nat
  | .peek => 0
  | op => op.needed

theorem Op.moved_le_needed (op : Op) : op.moved ≤ op.needed := by
  cases op with
  | peek => exact Nat.zero_le _
  | next => exact Nat.le_refl _
  | skip n => exact Nat.le_refl _
  | words n => exact Nat.le_refl _
  | take n => exact Nat.le_refl _

/-- The number of words that are given. -/
def Op.yielded : Op → Nat
  | .skip _ | .take _ => 0
  | op => op.needed

/-- The child that is split off. -/
def Op.children (c : IndexCursor) : Op → List IndexCursor
  | .take n => [{ c with stop := c.position + n }]
  | _ => []

/-- The indices of the words that are read, passed over or handed to a child. -/
def Op.touched (c : IndexCursor) (op : Op) : List Nat := List.range' c.position op.needed

/-- The words in an answer. -/
def Answer.given : Answer → List UInt16
  | .word w => [w]
  | .words ws => ws
  | _ => []

/-! ## One operation -/

/-- The cursor reads a byte string, its place is not behind the end of its window, and its
window ends with the words of the byte string or before. -/
structure Inside (bytes : List UInt8) (c : IndexCursor) : Prop where
  buffer_eq : c.buffer = bytes.toArray
  position_le : c.position ≤ c.stop
  stop_le : c.stop ≤ bytes.length / 2

theorem inside_ofBytes (bytes : List UInt8) : Inside bytes (ofBytes bytes) :=
  ⟨rfl, Nat.zero_le _, Nat.le_refl _⟩

/-- The cursor moved forward. -/
def moved (c : IndexCursor) (n : Nat) : IndexCursor := { c with position := c.position + n }

/-- The fault of asking for more words than the window holds. -/
def shortOf (c : IndexCursor) (needed : Nat) : DataFault :=
  .truncated c.position needed c.remaining

namespace Inside

variable {bytes : List UInt8} {c : IndexCursor} {n : Nat}

theorem check_eq_ok (inside : Inside bytes c) (enough : n ≤ c.remaining) :
    check n c = .ok () c := by
  rw [check, if_neg (Nat.not_lt.2 inside.position_le), if_neg (Nat.not_lt.2 enough)]

theorem check_eq_error (inside : Inside bytes c) (short : c.remaining < n) :
    check n c = .error (.short (c.shortOf n)) c := by
  rw [check, if_neg (Nat.not_lt.2 inside.position_le), if_pos short, shortOf]

theorem room (inside : Inside bytes c) (enough : n ≤ c.remaining) :
    c.position + n ≤ bytes.length / 2 := by
  have hplace := inside.position_le
  have hstop := inside.stop_le
  rw [remaining] at enough
  omega

theorem moved (inside : Inside bytes c) (enough : n ≤ c.remaining) :
    Inside bytes (c.moved n) := by
  have hplace := inside.position_le
  rw [remaining] at enough
  exact ⟨inside.buffer_eq, by simp only [IndexCursor.moved]; omega, inside.stop_le⟩

theorem child (inside : Inside bytes c) (enough : n ≤ c.remaining) :
    Inside bytes { c with stop := c.position + n } :=
  ⟨inside.buffer_eq, Nat.le_add_right _ _, inside.room enough⟩

/-- The next word is there. -/
theorem lookUp_word (inside : Inside bytes c) (enough : 1 ≤ c.remaining) :
    ∃ w, ((Word.ofBytes bytes).drop c.position).take 1 = [w] ∧ lookUp wordAt? c = .ok w c := by
  have hlt : c.position < (Word.ofBytes bytes).length := by
    rw [Word.length_ofBytes]
    exact inside.room enough
  refine ⟨(Word.ofBytes bytes)[c.position], ?_, ?_⟩
  · rw [List.drop_eq_getElem_cons hlt]
    rfl
  · rw [lookUp, inside.buffer_eq, wordAt?_toArray, List.getElem?_eq_getElem hlt]

theorem lookUp_words (inside : Inside bytes c) (enough : n ≤ c.remaining) :
    lookUp (fun buffer i => wordsAt? buffer i n) c =
      .ok (((Word.ofBytes bytes).drop c.position).take n) c := by
  rw [lookUp, inside.buffer_eq, wordsAt?_toArray (inside.room enough)]

theorem next_eq_ok (inside : Inside bytes c) (enough : 1 ≤ c.remaining) :
    ∃ w, ((Word.ofBytes bytes).drop c.position).take 1 = [w] ∧ next c = .ok w (c.moved 1) := by
  obtain ⟨w, hw, hlook⟩ := inside.lookUp_word enough
  refine ⟨w, hw, ?_⟩
  rw [next, bind_of_ok (inside.check_eq_ok enough), bind_of_ok hlook]
  rfl

theorem peek_eq_ok (inside : Inside bytes c) (enough : 1 ≤ c.remaining) :
    ∃ w, ((Word.ofBytes bytes).drop c.position).take 1 = [w] ∧ peek c = .ok w c := by
  obtain ⟨w, hw, hlook⟩ := inside.lookUp_word enough
  exact ⟨w, hw, (bind_of_ok (inside.check_eq_ok enough)).trans hlook⟩

theorem skip_eq_ok (inside : Inside bytes c) (enough : n ≤ c.remaining) :
    skip n c = .ok () (c.moved n) :=
  bind_of_ok (inside.check_eq_ok enough)

theorem words_eq_ok (inside : Inside bytes c) (enough : n ≤ c.remaining) :
    words n c = .ok (((Word.ofBytes bytes).drop c.position).take n) (c.moved n) := by
  rw [words, bind_of_ok (inside.check_eq_ok enough), bind_of_ok (inside.lookUp_words enough)]
  rfl

theorem take_eq_ok (inside : Inside bytes c) (enough : n ≤ c.remaining) :
    take n c = .ok { c with stop := c.position + n } (c.moved n) :=
  bind_of_ok (inside.check_eq_ok enough)

/-- An operation that asks for no more than there is gives the words at the cursor, and
moves past them, unless it only looks at them. -/
theorem run_eq_ok (inside : Inside bytes c) {op : Op} (enough : op.needed ≤ c.remaining) :
    ∃ a, op.run c = .ok a (c.moved op.moved) ∧
      a.given = ((Word.ofBytes bytes).drop c.position).take op.yielded ∧
      a.children = op.children c := by
  cases op with
  | next =>
      obtain ⟨w, hw, hnext⟩ := inside.next_eq_ok enough
      exact ⟨.word w, bind_of_ok hnext, hw.symm, rfl⟩
  | peek =>
      obtain ⟨w, hw, hpeek⟩ := inside.peek_eq_ok enough
      exact ⟨.word w, bind_of_ok hpeek, hw.symm, rfl⟩
  | skip n => exact ⟨.passed, bind_of_ok (inside.skip_eq_ok enough), rfl, rfl⟩
  | words n => exact ⟨.words _, bind_of_ok (inside.words_eq_ok enough), rfl, rfl⟩
  | take n => exact ⟨.child _, bind_of_ok (inside.take_eq_ok enough), rfl, rfl⟩

/-- An operation that asks for more than there is says so and moves nothing. -/
theorem run_eq_error (inside : Inside bytes c) {op : Op} (short : c.remaining < op.needed) :
    op.run c = .error (.short (c.shortOf op.needed)) c := by
  have stopped := inside.check_eq_error short
  cases op with
  | next => exact bind_of_error (bind_of_error stopped)
  | peek => exact bind_of_error (bind_of_error stopped)
  | skip n => exact bind_of_error (bind_of_error stopped)
  | words n => exact bind_of_error (bind_of_error stopped)
  | take n => exact bind_of_error (bind_of_error stopped)

theorem moved_by (inside : Inside bytes c) {op : Op} (enough : op.needed ≤ c.remaining) :
    Inside bytes (c.moved op.moved) :=
  inside.moved (Nat.le_trans op.moved_le_needed enough)

theorem forall_children (inside : Inside bytes c) {op : Op} (enough : op.needed ≤ c.remaining) :
    ∀ d ∈ op.children c, Inside bytes d := by
  cases op with
  | take n => exact List.forall_mem_singleton.2 (inside.child enough)
  | next => exact nofun
  | peek => exact nofun
  | skip n => exact nofun
  | words n => exact nofun

end Inside

/-! ## Many cursors -/

section

variable {bytes : List UInt8} {cursors : List IndexCursor}

/-- A request changes nothing, or moves the cursor it is for and puts its children behind
the others. -/
theorem ask_cases (inside : ∀ c ∈ cursors, Inside bytes c) (r : Request) :
    (ask cursors r).1 = cursors ∨
      ∃ c, cursors[r.cursor]? = some c ∧ r.op.needed ≤ c.remaining ∧
        (ask cursors r).1 = cursors.set r.cursor (c.moved r.op.moved) ++ r.op.children c := by
  rw [ask]
  cases hc : cursors[r.cursor]? with
  | none => exact .inl rfl
  | some c =>
      have there := inside c (List.mem_of_getElem? hc)
      by_cases enough : r.op.needed ≤ c.remaining
      · obtain ⟨a, hrun, -, hchildren⟩ := there.run_eq_ok enough
        refine .inr ⟨c, rfl, enough, ?_⟩
        simp only [hrun, hchildren]
      · have unchanged : cursors.set r.cursor c = cursors := by
          obtain ⟨hlt, rfl⟩ := List.getElem?_eq_some_iff.1 hc
          exact List.set_getElem_self hlt
        simp only [there.run_eq_error (Nat.lt_of_not_le enough), unchanged, true_or]

theorem inside_ask (inside : ∀ c ∈ cursors, Inside bytes c) (r : Request) :
    ∀ c ∈ (ask cursors r).1, Inside bytes c := by
  rcases ask_cases inside r with heq | ⟨c, hc, enough, heq⟩
  · rwa [heq]
  · have there := inside c (List.mem_of_getElem? hc)
    rw [heq, List.forall_mem_append]
    refine ⟨fun d hd => ?_, there.forall_children enough⟩
    rcases List.mem_or_eq_of_mem_set hd with hd | rfl
    · exact inside d hd
    · exact there.moved_by enough

theorem inside_askAll (inside : ∀ c ∈ cursors, Inside bytes c) (requests : List Request) :
    ∀ c ∈ askAll cursors requests, Inside bytes c := by
  induction requests generalizing cursors with
  | nil => exact inside
  | cons r requests ih => exact ih (inside_ask inside r)

/-- The cursor after some of its window was read. -/
structure Onward (c c' : IndexCursor) : Prop where
  stop_eq : c'.stop = c.stop
  position_le : c.position ≤ c'.position

theorem Onward.refl (c : IndexCursor) : c.Onward c := ⟨rfl, Nat.le_refl _⟩

theorem Onward.trans {a b c : IndexCursor} (hab : a.Onward b) (hbc : b.Onward c) : a.Onward c :=
  ⟨hbc.stop_eq.trans hab.stop_eq, Nat.le_trans hab.position_le hbc.position_le⟩

theorem onward_ask (inside : ∀ c ∈ cursors, Inside bytes c) (r : Request) {k : Nat}
    {d : IndexCursor} (hd : cursors[k]? = some d) :
    ∃ d', (ask cursors r).1[k]? = some d' ∧ d.Onward d' := by
  rcases ask_cases inside r with heq | ⟨c, hc, -, heq⟩
  · rw [heq]
    exact ⟨d, hd, .refl d⟩
  · have hk : k < cursors.length := (List.getElem?_eq_some_iff.1 hd).1
    rw [heq, List.getElem?_append_left (by rwa [List.length_set]), List.getElem?_set]
    split
    · next same =>
        rw [same, hd] at hc
        obtain rfl := Option.some.inj hc
        exact ⟨_, if_pos (same ▸ hk), rfl, Nat.le_add_right _ _⟩
    · exact ⟨d, hd, .refl d⟩

theorem onward_askAll (inside : ∀ c ∈ cursors, Inside bytes c) {k : Nat} {d : IndexCursor}
    (hd : cursors[k]? = some d) (requests : List Request) :
    ∃ d', (askAll cursors requests)[k]? = some d' ∧ d.Onward d' := by
  induction requests generalizing cursors d with
  | nil => exact ⟨d, hd, .refl d⟩
  | cons r requests ih =>
      obtain ⟨d', hd', step⟩ := onward_ask inside r hd
      obtain ⟨d'', hd'', rest⟩ := ih (inside_ask inside r) hd'
      exact ⟨d'', hd'', step.trans rest⟩

/-- Whatever is asked after a child was split off, its parent has the words of the child's
window behind it. -/
theorem take_apart (inside : ∀ c ∈ cursors, Inside bytes c) {i n : Nat} {parent : IndexCursor}
    (hparent : cursors[i]? = some parent) (enough : n ≤ parent.remaining)
    (later : List Request) :
    ∃ now child, (askAll cursors (⟨i, .take n⟩ :: later))[i]? = some now ∧
      (askAll cursors (⟨i, .take n⟩ :: later))[cursors.length]? = some child ∧
      child.stop = parent.position + n ∧ parent.position ≤ child.position ∧
      child.stop ≤ now.position := by
  have there := inside parent (List.mem_of_getElem? hparent)
  have hi : i < cursors.length := (List.getElem?_eq_some_iff.1 hparent).1
  have hneeded : (Op.take n).needed ≤ parent.remaining := enough
  obtain ⟨a, hrun, -, hchildren⟩ := there.run_eq_ok hneeded
  have hask : (ask cursors ⟨i, .take n⟩).1 =
      cursors.set i (parent.moved n) ++ [{ parent with stop := parent.position + n }] := by
    simp only [ask, hparent, hrun, hchildren]
    rfl
  have hinside := inside_ask inside ⟨i, .take n⟩
  have hnow : (ask cursors ⟨i, .take n⟩).1[i]? = some (parent.moved n) := by
    rw [hask, List.getElem?_append_left (by rwa [List.length_set]), List.getElem?_set_self hi]
  have hchild : (ask cursors ⟨i, .take n⟩).1[cursors.length]? =
      some { parent with stop := parent.position + n } := by
    rw [hask, List.getElem?_append_right (Nat.le_of_eq List.length_set), List.length_set,
      Nat.sub_self]
    rfl
  obtain ⟨now, hnow', onward⟩ := onward_askAll hinside hnow later
  obtain ⟨child, hchild', onward'⟩ := onward_askAll hinside hchild later
  refine ⟨now, child, hnow', hchild', onward'.stop_eq, onward'.position_le, ?_⟩
  rw [onward'.stop_eq]
  exact onward.position_le

end

/-! ## Cursors that hold their words -/

/-- The cursor that holds the words that are left. -/
def view (c : IndexCursor) : Cursor :=
  ⟨c.position, ((Word.ofBytes c.buffer.toList).drop c.position).take c.remaining⟩

/-- The two readers give what corresponds, or stop with one fault, and leave one cursor. -/
def Agrees {α β : Type} (same : α → β → Prop) :
    EStateM.Result Miss IndexCursor α → EStateM.Result DataFault Cursor β → Prop
  | .ok a c, .ok b d => same a b ∧ c.view = d
  | .error (.short f) c, .error g d => f = g ∧ c.view = d
  | _, _ => False

theorem view_ofBytes (bytes : List UInt8) : (ofBytes bytes).view = Cursor.ofBytes bytes := by
  have whole : (Word.ofBytes bytes).length ≤ (ofBytes bytes).remaining :=
    Nat.le_of_eq (Word.length_ofBytes bytes)
  exact congrArg (Cursor.mk 0) (List.take_of_length_le whole)

namespace Inside

variable {bytes : List UInt8} {c : IndexCursor} {n : Nat}

theorem window_view (inside : Inside bytes c) :
    c.view.window = ((Word.ofBytes bytes).drop c.position).take c.remaining := by
  rw [view, inside.buffer_eq]

theorem length_window_view (inside : Inside bytes c) : c.view.window.length = c.remaining := by
  rw [inside.window_view, List.length_take, List.length_drop, Word.length_ofBytes]
  have hroom := inside.room (Nat.le_refl c.remaining)
  omega

theorem take_window_view (inside : Inside bytes c) (enough : n ≤ c.remaining) :
    c.view.window.take n = ((Word.ofBytes bytes).drop c.position).take n := by
  rw [inside.window_view, List.take_take, Nat.min_eq_left enough]

theorem view_moved (n : Nat) : (c.moved n).view = c.view.advance n := by
  have hrest : (c.moved n).remaining = c.remaining - n := Nat.sub_add_eq _ _ _
  rw [view, hrest]
  simp only [view, Cursor.advance, IndexCursor.moved, List.drop_take, List.drop_drop]

theorem shortOf_view (inside : Inside bytes c) (n : Nat) : c.view.shortOf n = c.shortOf n := by
  rw [Cursor.shortOf, Cursor.remaining, inside.length_window_view]
  rfl

/-- A look at the next word of the window, when there is one. -/
theorem window_view_cons (inside : Inside bytes c) (enough : 1 ≤ c.remaining) {w : UInt16}
    (hw : ((Word.ofBytes bytes).drop c.position).take 1 = [w]) :
    ∃ rest, c.view.window = w :: rest := by
  rw [← inside.take_window_view enough] at hw
  cases hwindow : c.view.window with
  | nil =>
      rw [hwindow] at hw
      cases hw
  | cons v rest =>
      rw [hwindow] at hw
      exact ⟨rest, congrArg (· :: rest) (List.singleton_inj.1 hw)⟩

theorem window_view_nil (inside : Inside bytes c) (short : c.remaining < 1) :
    c.view.window = [] := by
  have hlength := inside.length_window_view
  exact List.length_eq_zero_iff.1 (by omega)

theorem agrees_next (inside : Inside bytes c) : Agrees (· = ·) (next c) (Cursor.next c.view) := by
  rcases Nat.lt_or_ge c.remaining 1 with short | enough
  · rw [show next c = _ from bind_of_error (inside.check_eq_error short), Cursor.next,
      inside.window_view_nil short]
    exact ⟨(inside.shortOf_view 1).symm, rfl⟩
  · obtain ⟨w, hw, hnext⟩ := inside.next_eq_ok enough
    obtain ⟨rest, hrest⟩ := inside.window_view_cons enough hw
    rw [hnext, Cursor.next, hrest]
    refine ⟨rfl, ?_⟩
    rw [view_moved, Cursor.advance, hrest]
    rfl

theorem agrees_peek (inside : Inside bytes c) : Agrees (· = ·) (peek c) (Cursor.peek c.view) := by
  rcases Nat.lt_or_ge c.remaining 1 with short | enough
  · rw [show peek c = _ from bind_of_error (inside.check_eq_error short), Cursor.peek,
      inside.window_view_nil short]
    exact ⟨(inside.shortOf_view 1).symm, rfl⟩
  · obtain ⟨w, hw, hpeek⟩ := inside.peek_eq_ok enough
    obtain ⟨rest, hrest⟩ := inside.window_view_cons enough hw
    rw [hpeek, Cursor.peek, hrest]
    exact ⟨rfl, rfl⟩

theorem words_view_eq_ok (inside : Inside bytes c) (enough : n ≤ c.remaining) :
    Cursor.words n c.view =
      .ok (((Word.ofBytes bytes).drop c.position).take n) (c.moved n).view := by
  have hlength : (c.view.window.take n).length = n := by
    rw [List.length_take, inside.length_window_view, Nat.min_eq_left enough]
  rw [Cursor.words, if_pos hlength, inside.take_window_view enough, view_moved]

theorem words_view_eq_error (inside : Inside bytes c) (short : c.remaining < n) :
    Cursor.words n c.view = .error (c.shortOf n) c.view := by
  have hlength : (c.view.window.take n).length ≠ n := by
    rw [List.length_take, inside.length_window_view, Nat.min_eq_right (Nat.le_of_lt short)]
    exact Nat.ne_of_lt short
  rw [Cursor.words, if_neg hlength, inside.shortOf_view]

theorem agrees_words (inside : Inside bytes c) (n : Nat) :
    Agrees (· = ·) (words n c) (Cursor.words n c.view) := by
  rcases Nat.lt_or_ge c.remaining n with short | enough
  · rw [show words n c = _ from bind_of_error (inside.check_eq_error short),
      inside.words_view_eq_error short]
    exact ⟨rfl, rfl⟩
  · rw [inside.words_eq_ok enough, inside.words_view_eq_ok enough]
    exact ⟨rfl, rfl⟩

theorem agrees_skip (inside : Inside bytes c) (n : Nat) :
    Agrees (· = ·) (skip n c) (Cursor.skip n c.view) := by
  rcases Nat.lt_or_ge c.remaining n with short | enough
  · rw [show skip n c = _ from bind_of_error (inside.check_eq_error short),
      show Cursor.skip n c.view = _ from bind_of_error (inside.words_view_eq_error short)]
    exact ⟨rfl, rfl⟩
  · rw [inside.skip_eq_ok enough,
      show Cursor.skip n c.view = _ from bind_of_ok (inside.words_view_eq_ok enough)]
    exact ⟨rfl, rfl⟩

theorem agrees_take (inside : Inside bytes c) (n : Nat) :
    Agrees (fun child window => child.view = window) (take n c) (Cursor.take n c.view) := by
  rcases Nat.lt_or_ge c.remaining n with short | enough
  · rw [show take n c = _ from bind_of_error (inside.check_eq_error short), Cursor.take,
      inside.words_view_eq_error short]
    exact ⟨rfl, rfl⟩
  · have hchild : remaining { c with stop := c.position + n } = n := Nat.add_sub_cancel_left _ _
    have hview : view { c with stop := c.position + n } =
        ⟨c.position, ((Word.ofBytes bytes).drop c.position).take n⟩ := by
      rw [view, hchild, inside.buffer_eq]
    rw [inside.take_eq_ok enough, Cursor.take, inside.words_view_eq_ok enough]
    exact ⟨hview, rfl⟩

end Inside

/-- Every cursor split off from the cursor over a byte string stays inside the words of
the byte string, whatever is asked of the cursors before.  An operation on it gives the
words at its place and moves past them, or says that there are too few and moves nothing.
Of the words that were handed to a child its parent touches none afterwards. -/
theorem cursors_stay_inside (bytes : List UInt8) (requests : List Request) :
    let cursors := askAll [ofBytes bytes] requests
    (∀ c ∈ cursors, Inside bytes c ∧ ∀ op : Op,
      (op.needed ≤ c.remaining → ∃ a, op.run c = .ok a (c.moved op.moved) ∧
        a.given = ((Word.ofBytes bytes).drop c.position).take op.yielded ∧
        a.children = op.children c) ∧
      (c.remaining < op.needed → op.run c = .error (.short (c.shortOf op.needed)) c)) ∧
    ∀ before i n later, requests = before ++ ⟨i, .take n⟩ :: later →
      ∀ parent, (askAll [ofBytes bytes] before)[i]? = some parent → n ≤ parent.remaining →
        ∃ now child, cursors[i]? = some now ∧
          cursors[(askAll [ofBytes bytes] before).length]? = some child ∧
          child.stop = parent.position + n ∧ parent.position ≤ child.position ∧
          ∀ op : Op, (List.range' parent.position n).Disjoint (op.touched now) := by
  intro cursors
  have start : ∀ c ∈ [ofBytes bytes], Inside bytes c :=
    List.forall_mem_singleton.2 (inside_ofBytes bytes)
  refine ⟨fun c hc => ?_, ?_⟩
  · have inside := inside_askAll start requests c hc
    exact ⟨inside, fun op => ⟨inside.run_eq_ok, inside.run_eq_error⟩⟩
  · rintro before i n later rfl parent hparent enough
    obtain ⟨now, child, hnow, hchild, hstop, hplace, apart⟩ :=
      take_apart (inside_askAll start before) hparent enough later
    have split : cursors = askAll (askAll [ofBytes bytes] before) (⟨i, .take n⟩ :: later) :=
      List.foldl_append
    rw [split]
    refine ⟨now, child, hnow, hchild, hstop, hplace, fun op k hk hk' => ?_⟩
    have below := (List.mem_range'_1.1 hk).2
    have above := (List.mem_range'_1.1 hk').1
    omega

/-- Five words and a byte. -/
def oddBytes : List UInt8 := [1, 0, 2, 0, 3, 0, 4, 0, 5, 1, 0xFF]

/-- A child of three words, of which a child of its own takes the first two. -/
def nestedTakes : List Request :=
  [⟨0, .take 3⟩, ⟨1, .take 2⟩, ⟨2, .next⟩, ⟨0, .peek⟩, ⟨2, .words 2⟩]

theorem cursors_stay_inside_nestedTakes :
    let cursors := askAll [ofBytes oddBytes] nestedTakes
    cursors.map (fun c => (c.position, c.stop)) = [(3, 5), (2, 3), (1, 2)] ∧
      (∀ c ∈ cursors, Inside oddBytes c) ∧
      (∃ c ∈ cursors, ∃ a, (Op.words 2).run c = .ok a (c.moved 2) ∧ a.given = [4, 0x105]) ∧
      (∃ c ∈ cursors,
        (Op.words 2).run c = .error (.short (.truncated 1 2 1)) c) ∧
      ∃ now child, cursors[0]? = some now ∧ cursors[1]? = some child ∧ child.stop = 3 ∧
        ∀ op : Op, (List.range' 0 3).Disjoint (op.touched now) := by
  intro cursors
  obtain ⟨each, apart⟩ := cursors_stay_inside oddBytes nestedTakes
  have hroot : ⟨oddBytes.toArray, 3, 5⟩ ∈ cursors := by decide
  have hinner : ⟨oddBytes.toArray, 1, 2⟩ ∈ cursors := by decide
  obtain ⟨a, hrun, hgiven, -⟩ := ((each _ hroot).2 (.words 2)).1 (by decide)
  obtain ⟨now, child, hnow, hchild, hstop, -, hdisjoint⟩ :=
    apart [] 0 3 _ rfl (ofBytes oddBytes) rfl (by decide)
  refine ⟨by decide, fun c hc => (each c hc).1, ⟨_, hroot, a, hrun, ?_⟩, ⟨_, hinner, ?_⟩,
    now, child, hnow, hchild, hstop, hdisjoint⟩
  · rw [hgiven]
    decide
  · exact ((each _ hinner).2 (.words 2)).2 (by decide)

end ListMode.IndexCursor
