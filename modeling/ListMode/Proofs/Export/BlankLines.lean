import ListMode.Proofs.Export.Listing
import ListMode.Proofs.Text.LineTokens

/-!
# Blank lines in a listing

A reader of a listing passes over blank lines, but it counts them.  What it makes of a text
depends on no more than its *sheet* (`Sheet`): what the first line says, what the second
line says, and what the other lines say that are not blank.  `read_eq_ok_iff` is this, with
the listing that a sheet says (`Sheet.listing?`).

Blank lines that are put into a text (`Spaced`) change neither the lines that are not
blank nor their order.  They can push lines out of the first two, and what is pushed out
becomes the first of the counts (`Padded.sheet`).  So blank lines are passed over as long
as the first two lines say what they said before, which is so for all blank lines behind
them.  Otherwise times are taken for counts (`blank_lines_passed`,
`times_taken_for_counts`).
-/

namespace ListMode.Listing

open Text (token? BlankLine blankLine_nil natural?)

/-! ## Sheets -/

/-- A line of a listing is filled when its token is not empty. -/
def filled (tokens : List (List Char)) : List (List Char) := tokens.filter (!·.isEmpty)

theorem filled_append (ts us : List (List Char)) : filled (ts ++ us) = filled ts ++ filled us :=
  List.filter_append ts us

theorem filled_cons (t : List Char) (ts : List (List Char)) :
    filled (t :: ts) = filled [t] ++ filled ts :=
  filled_append [t] ts

theorem filled_cons_of_blank {t : List Char} (h : t.isEmpty = true) (ts : List (List Char)) :
    filled (t :: ts) = filled ts :=
  List.filter_cons_of_neg (by simp [h])

theorem filled_cons_of_not_blank {t : List Char} (h : ¬ t.isEmpty = true) (ts : List (List Char)) :
    filled (t :: ts) = t :: filled ts :=
  List.filter_cons_of_pos (by simp [h])

/-- What the lines of a listing say. -/
@[ext]
structure Sheet where
  /-- The token of the first line, which is empty when there is none. -/
  live : List Char
  /-- The token of the second line. -/
  real : List Char
  /-- The tokens of the lines behind, without the blank ones. -/
  counts : List (List Char)
deriving DecidableEq

/-- The sheet of lines with these tokens. -/
def Sheet.ofTokens (tokens : List (List Char)) : Sheet where
  live := tokens.headD []
  real := tokens.tail.headD []
  counts := filled (tokens.drop 2)

/-- The sheet of lines, when all of them are valid text. -/
def sheetOf? (ls : List (List UInt8)) : Option Sheet := (ls.mapM token?).map Sheet.ofTokens

/-- The sheet of a text. -/
def sheet? (text : List UInt8) : Option Sheet := sheetOf? (Text.lines text)

/-- The time that a token says; a blank line leaves it at zero. -/
def time? (token : List Char) : Option Float :=
  if token.isEmpty then some 0.0 else Decimal.read? token

/-- The listing of two times and the counts of the bins. -/
def ofCounts (liveTime realTime : Float) (counts : List Nat) : Listing where
  liveTime := liveTime
  realTime := realTime
  cells := Cells.ofEntries (listed 0 counts)
  lastBin := UInt16.ofNat (counts.length - 1)

namespace Sheet

/-- The listing that a sheet says, if it says numbers, and no more of them than there are
bins. -/
def listing? (s : Sheet) : Option Listing := do
  let liveTime ← time? s.live
  let realTime ← time? s.real
  let counts ← s.counts.mapM (natural? 64)
  if counts.length ≤ UInt16.size then some (ofCounts liveTime realTime counts) else none

/-- The tokens in the place of the times. -/
def times (s : Sheet) : List (List Char) := filled [s.live, s.real]

theorem times_ofTokens (tokens : List (List Char)) :
    (ofTokens tokens).times = filled (tokens.take 2) := by
  match tokens with
  | [] => rfl
  | [t] =>
      rw [times, filled_cons]
      exact List.append_nil _
  | t :: u :: ts => rfl

end Sheet

/-! ## Reading sheets -/

theorem mapM_cons_eq_some_iff {α β : Type} {f : α → Option β} {a : α} {as : List α} {cs : List β} :
    (a :: as).mapM f = some cs ↔ ∃ b bs, f a = some b ∧ as.mapM f = some bs ∧ cs = b :: bs := by
  rw [List.mapM_cons]
  cases f a with
  | none => simp
  | some b =>
      cases as.mapM f with
      | none => simp
      | some bs => simp [eq_comm]

theorem readLine_eq_ok_iff {p q : Progress} {n : Nat} {line : List UInt8} :
    readLine p n line = .ok q ↔
      ∃ t, token? line = some t ∧ if t.isEmpty then q = p else readToken p n t = .ok q := by
  rw [readLine, token?]
  cases Text.ofUtf8? line with
  | none => simp
  | some text =>
      simp only [Option.map_some, Option.some.injEq, exists_eq_left']
      split
      · simp [eq_comm]
      · split
        · next r hr => simp [hr]
        · next e he => simp [he]

theorem readLines_cons_eq_ok_iff {p q : Progress} {n : Nat} {line : List UInt8}
    {ls : List (List UInt8)} :
    readLines p n (line :: ls) = .ok q ↔
      ∃ r, readLine p n line = .ok r ∧ readLines r (n + 1) ls = .ok q := by
  rw [readLines]
  split
  · next r hr => simp [hr]
  · next e he => simp [he]

/-- A listing as far as it was read, when counts come next. -/
def Progress.counted (p : Progress) (counts : List Nat) : Progress :=
  { p with entries := (listed p.bins counts).reverse ++ p.entries, bins := p.bins + counts.length }

theorem Progress.counted_cons (p : Progress) (n : Nat) (counts : List Nat) :
    p.counted (n :: counts) = (p.counted [n]).counted counts := by
  simp [counted, listed, Nat.add_assoc, Nat.add_comm 1]

theorem readToken_count {p q : Progress} {n : Nat} (hn : 2 ≤ n) {t : List Char} :
    readToken p n t = .ok q ↔
      ∃ count, natural? 64 t = some count ∧ p.bins + 1 ≤ UInt16.size ∧ q = p.counted [count] := by
  rw [readToken, if_neg (by omega), if_neg (by omega), Nat.succ_le_iff]
  cases natural? 64 t with
  | none => simp
  | some count =>
      by_cases room : p.bins < UInt16.size
      · by_cases hcount : count = 0
        · simp [room, hcount, Progress.counted, listed, eq_comm]
        · simp [room, hcount, Progress.counted, listed, eq_comm]
      · simp [room]

/-- The lines behind the times list the counts of the bins. -/
theorem readLines_counts {ls : List (List UInt8)} : ∀ {p q : Progress} {n : Nat}, 2 ≤ n →
    p.bins ≤ UInt16.size →
    (readLines p n ls = .ok q ↔ ∃ tokens counts, ls.mapM token? = some tokens ∧
      (filled tokens).mapM (natural? 64) = some counts ∧
      p.bins + counts.length ≤ UInt16.size ∧ q = p.counted counts) := by
  induction ls with
  | nil =>
      intro p q n hn hroom
      constructor
      · intro h
        cases h
        exact ⟨[], [], rfl, rfl, hroom, rfl⟩
      · rintro ⟨tokens, counts, htokens, hcounts, -, rfl⟩
        cases htokens
        cases hcounts
        rfl
  | cons line ls ih =>
      intro p q n hn hroom
      have hn' : 2 ≤ n + 1 := Nat.le_succ_of_le hn
      rw [readLines_cons_eq_ok_iff]
      constructor
      · rintro ⟨r, hline, hrest⟩
        obtain ⟨t, ht, hr⟩ := readLine_eq_ok_iff.1 hline
        split at hr
        · next blank =>
            subst hr
            obtain ⟨tokens, counts, htokens, hcounts, hbins, rfl⟩ := (ih hn' hroom).1 hrest
            refine ⟨t :: tokens, counts, mapM_cons_eq_some_iff.2 ⟨t, tokens, ht, htokens, rfl⟩, ?_,
              hbins, rfl⟩
            rwa [filled_cons_of_blank blank]
        · next text =>
            obtain ⟨count, hcount, hone, rfl⟩ := (readToken_count hn).1 hr
            obtain ⟨tokens, counts, htokens, hcounts, hbins, rfl⟩ := (ih hn' hone).1 hrest
            refine ⟨t :: tokens, count :: counts,
              mapM_cons_eq_some_iff.2 ⟨t, tokens, ht, htokens, rfl⟩, ?_, ?_,
              (p.counted_cons count counts).symm⟩
            · rw [filled_cons_of_not_blank text]
              exact mapM_cons_eq_some_iff.2 ⟨count, counts, hcount, hcounts, rfl⟩
            · rwa [List.length_cons, Nat.add_comm counts.length, ← Nat.add_assoc]
      · rintro ⟨all, counts, hall, hcounts, hbins, rfl⟩
        obtain ⟨t, tokens, ht, htokens, rfl⟩ := mapM_cons_eq_some_iff.1 hall
        by_cases blank : t.isEmpty
        · rw [filled_cons_of_blank blank] at hcounts
          refine ⟨p, readLine_eq_ok_iff.2 ⟨t, ht, by rw [if_pos blank]⟩, ?_⟩
          exact (ih hn' hroom).2 ⟨tokens, counts, htokens, hcounts, hbins, rfl⟩
        · rw [filled_cons_of_not_blank blank] at hcounts
          obtain ⟨count, rest, hcount, hrest, rfl⟩ := mapM_cons_eq_some_iff.1 hcounts
          rw [List.length_cons, Nat.add_comm rest.length, ← Nat.add_assoc] at hbins
          have hone : p.bins + 1 ≤ UInt16.size := (Nat.le_add_right _ _).trans hbins
          have hline := (readToken_count hn).2 ⟨count, hcount, hone, rfl⟩
          refine ⟨_, readLine_eq_ok_iff.2 ⟨t, ht, by rw [if_neg blank]; exact hline⟩, ?_⟩
          exact (ih hn' hone).2 ⟨tokens, rest, htokens, hrest, hbins, p.counted_cons count rest⟩

theorem readLine_live {r : Progress} {line : List UInt8} :
    readLine {} 0 line = .ok r ↔
      ∃ t live, token? line = some t ∧ time? t = some live ∧ r = { liveTime := live } := by
  rw [readLine_eq_ok_iff]
  refine exists_congr fun t => ?_
  rw [exists_and_left, time?]
  refine and_congr_right fun _ => ?_
  split
  · simp
  · rw [readToken, if_pos rfl]
    cases Decimal.read? t with
    | none => simp
    | some live => simp [eq_comm]

theorem readLine_real {live : Float} {r : Progress} {line : List UInt8} :
    readLine { liveTime := live } 1 line = .ok r ↔
      ∃ t real, token? line = some t ∧ time? t = some real ∧
        r = { liveTime := live, realTime := real } := by
  rw [readLine_eq_ok_iff]
  refine exists_congr fun t => ?_
  rw [exists_and_left, time?]
  refine and_congr_right fun _ => ?_
  split
  · simp
  · rw [readToken, if_neg Nat.one_ne_zero, if_pos rfl]
    cases Decimal.read? t with
    | none => simp
    | some real => simp [eq_comm]

/-- The first two lines say the times, and the others list counts. -/
theorem readLines_eq_ok_iff {ls : List (List UInt8)} {q : Progress} :
    readLines {} 0 ls = .ok q ↔ ∃ tokens live real counts, ls.mapM token? = some tokens ∧
      time? (tokens.headD []) = some live ∧ time? (tokens.tail.headD []) = some real ∧
      (filled (tokens.drop 2)).mapM (natural? 64) = some counts ∧
      counts.length ≤ UInt16.size ∧
      q = Progress.counted { liveTime := live, realTime := real } counts := by
  match ls with
  | [] =>
      constructor
      · intro h
        cases h
        exact ⟨[], 0.0, 0.0, [], rfl, rfl, rfl, rfl, Nat.zero_le _, rfl⟩
      · rintro ⟨tokens, live, real, counts, htokens, hlive, hreal, hcounts, -, rfl⟩
        cases htokens
        cases hlive
        cases hreal
        cases hcounts
        rfl
  | [first] =>
      rw [readLines_cons_eq_ok_iff]
      constructor
      · rintro ⟨r, hfirst, hrest⟩
        obtain ⟨t, live, ht, hlive, rfl⟩ := readLine_live.1 hfirst
        cases hrest
        exact ⟨[t], live, 0.0, [], mapM_cons_eq_some_iff.2 ⟨t, [], ht, rfl, rfl⟩, hlive, rfl, rfl,
          Nat.zero_le _, rfl⟩
      · rintro ⟨tokens, live, real, counts, htokens, hlive, hreal, hcounts, -, rfl⟩
        obtain ⟨t, rest, ht, hrest, rfl⟩ := mapM_cons_eq_some_iff.1 htokens
        cases hrest
        cases hreal
        cases hcounts
        exact ⟨_, readLine_live.2 ⟨t, live, ht, hlive, rfl⟩, rfl⟩
  | first :: second :: ls =>
      rw [readLines_cons_eq_ok_iff]
      constructor
      · rintro ⟨r, hfirst, hothers⟩
        obtain ⟨r', hsecond, hrest⟩ := readLines_cons_eq_ok_iff.1 hothers
        obtain ⟨t, live, ht, hlive, rfl⟩ := readLine_live.1 hfirst
        obtain ⟨u, real, hu, hreal, rfl⟩ := readLine_real.1 hsecond
        obtain ⟨tokens, counts, htokens, hcounts, hbins, rfl⟩ :=
          (readLines_counts le_rfl (Nat.zero_le _)).1 hrest
        have hall : (first :: second :: ls).mapM token? = some (t :: u :: tokens) :=
          mapM_cons_eq_some_iff.2 ⟨t, u :: tokens, ht,
            mapM_cons_eq_some_iff.2 ⟨u, tokens, hu, htokens, rfl⟩, rfl⟩
        rw [Nat.zero_add] at hbins
        exact ⟨t :: u :: tokens, live, real, counts, hall, hlive, hreal, hcounts, hbins, rfl⟩
      · rintro ⟨all, live, real, counts, hall, hlive, hreal, hcounts, hbins, rfl⟩
        obtain ⟨t, rest, ht, hrest, rfl⟩ := mapM_cons_eq_some_iff.1 hall
        obtain ⟨u, tokens, hu, htokens, rfl⟩ := mapM_cons_eq_some_iff.1 hrest
        refine ⟨_, readLine_live.2 ⟨t, live, ht, hlive, rfl⟩, readLines_cons_eq_ok_iff.2
          ⟨_, readLine_real.2 ⟨u, real, hu, hreal, rfl⟩, ?_⟩⟩
        refine (readLines_counts le_rfl (Nat.zero_le _)).2
          ⟨tokens, counts, htokens, hcounts, ?_, rfl⟩
        rwa [Nat.zero_add]

theorem listing_counted (live real : Float) (counts : List Nat) :
    (Progress.counted { liveTime := live, realTime := real } counts).listing =
      ofCounts live real counts := by
  simp [Progress.counted, Progress.listing, ofCounts]

theorem Sheet.listing?_eq_some_iff {s : Sheet} {l : Listing} :
    s.listing? = some l ↔ ∃ live real counts, time? s.live = some live ∧
      time? s.real = some real ∧ s.counts.mapM (natural? 64) = some counts ∧
      counts.length ≤ UInt16.size ∧ ofCounts live real counts = l := by
  simp only [listing?, Option.bind_eq_bind, Option.bind_eq_some_iff,
    Option.ite_none_right_eq_some, Option.some.injEq]
  constructor
  · rintro ⟨live, hlive, real, hreal, counts, hcounts, hbins, rfl⟩
    exact ⟨live, real, counts, hlive, hreal, hcounts, hbins, rfl⟩
  · rintro ⟨live, real, counts, hlive, hreal, hcounts, hbins, rfl⟩
    exact ⟨live, hlive, real, hreal, counts, hcounts, hbins, rfl⟩

/-- A text is read as the listing that its sheet says. -/
theorem read_eq_ok_iff {text : List UInt8} {l : Listing} :
    read text = .ok l ↔ ∃ s, sheet? text = some s ∧ s.listing? = some l := by
  have hread : read text = .ok l ↔
      ∃ q, readLines {} 0 (Text.lines text) = .ok q ∧ q.listing = l := by
    rw [read]
    cases readLines {} 0 (Text.lines text) with
    | error e => simp [Except.map]
    | ok q => simp [Except.map]
  rw [hread]
  constructor
  · rintro ⟨q, hq, rfl⟩
    obtain ⟨tokens, live, real, counts, htokens, hlive, hreal, hcounts, hbins, rfl⟩ :=
      readLines_eq_ok_iff.1 hq
    refine ⟨.ofTokens tokens, by rw [sheet?, sheetOf?, htokens, Option.map_some], ?_⟩
    exact Sheet.listing?_eq_some_iff.2
      ⟨live, real, counts, hlive, hreal, hcounts, hbins, (listing_counted live real counts).symm⟩
  · rintro ⟨s, hs, hl⟩
    obtain ⟨tokens, htokens, rfl⟩ := Option.map_eq_some_iff.1 hs
    obtain ⟨live, real, counts, hlive, hreal, hcounts, hbins, rfl⟩ :=
      Sheet.listing?_eq_some_iff.1 hl
    exact ⟨_, readLines_eq_ok_iff.2
      ⟨tokens, live, real, counts, htokens, hlive, hreal, hcounts, hbins, rfl⟩,
      listing_counted live real counts⟩

/-! ## Blank lines put in -/

/-- Lines with blank lines put in front of them, between them and behind them. -/
inductive Padded : List (List UInt8) → List (List UInt8) → Prop where
  /-- Nothing is put in. -/
  | nil : Padded [] []
  /-- A line stays. -/
  | keep {l : List UInt8} {ls ls' : List (List UInt8)} :
    Padded ls ls' → Padded (l :: ls) (l :: ls')
  /-- A blank line is put in. -/
  | blank {l : List UInt8} {ls ls' : List (List UInt8)} :
    BlankLine l → Padded ls ls' → Padded ls (l :: ls')

/-- The second text is the first with blank lines put in. -/
def Spaced (text text' : List UInt8) : Prop := Padded (text.splitOn 0x0A) (text'.splitOn 0x0A)

section

variable {ls ls' : List (List UInt8)}

/-- Blank lines are no filled ones, and push filled lines only further back. -/
theorem Padded.tokens (padded : Padded ls ls') {tokens : List (List Char)}
    (h : ls.mapM token? = some tokens) : ∃ tokens', ls'.mapM token? = some tokens' ∧
      filled tokens' = filled tokens ∧
      ∀ n, filled (tokens'.take n) <+: filled (tokens.take n) := by
  induction padded generalizing tokens with
  | nil =>
      cases h
      exact ⟨[], rfl, rfl, fun n => List.prefix_refl _⟩
  | @keep l _ _ _ ih =>
      obtain ⟨t, rest, ht, hrest, rfl⟩ := mapM_cons_eq_some_iff.1 h
      obtain ⟨rest', hrest', hfilled, hfront⟩ := ih hrest
      refine ⟨t :: rest', mapM_cons_eq_some_iff.2 ⟨t, rest', ht, hrest', rfl⟩, ?_, fun n => ?_⟩
      · rw [filled_cons t rest', hfilled, ← filled_cons]
      · cases n with
        | zero => exact List.nil_prefix
        | succ n =>
            rw [List.take_succ_cons, List.take_succ_cons, filled_cons, filled_cons t (rest.take n)]
            exact (List.prefix_append_right_inj _).2 (hfront n)
  | @blank l _ _ hblank _ ih =>
      obtain ⟨rest', hrest', hfilled, hfront⟩ := ih h
      have hblank' : filled ([] :: rest') = filled rest' := filled_cons_of_blank rfl rest'
      refine ⟨[] :: rest', mapM_cons_eq_some_iff.2 ⟨[], rest', hblank.token?_eq, hrest', rfl⟩,
        hblank'.trans hfilled, fun n => ?_⟩
      cases n with
      | zero => exact List.nil_prefix
      | succ n =>
          rw [List.take_succ_cons, filled_cons_of_blank rfl]
          exact (hfront n).trans ((List.take_prefix_take_left (Nat.le_succ n)).filter _)

/-- What is pushed out of the first two lines is put in front of the counts. -/
theorem Padded.sheet (padded : Padded ls ls') {s : Sheet} (h : sheetOf? ls = some s) :
    ∃ s', sheetOf? ls' = some s' ∧
      ∃ pushed, s.times = s'.times ++ pushed ∧ s'.counts = pushed ++ s.counts := by
  obtain ⟨tokens, htokens, rfl⟩ := Option.map_eq_some_iff.1 h
  obtain ⟨tokens', htokens', hfilled, hfront⟩ := padded.tokens htokens
  refine ⟨.ofTokens tokens', by rw [sheetOf?, htokens', Option.map_some], ?_⟩
  obtain ⟨pushed, hpushed⟩ := hfront 2
  refine ⟨pushed, ?_, ?_⟩
  · rw [Sheet.times_ofTokens, Sheet.times_ofTokens, hpushed]
  · have split : ∀ ts : List (List Char), filled ts = filled (ts.take 2) ++ filled (ts.drop 2) := by
      intro ts
      rw [← filled_append, List.take_append_drop]
    rw [split tokens, split tokens', ← hpushed, List.append_assoc] at hfilled
    exact List.append_cancel_left hfilled

end

/-- A blank line more at the end of the lines does not change the sheet. -/
theorem Sheet.ofTokens_concat_nil (tokens : List (List Char)) :
    ofTokens (tokens ++ [[]]) = ofTokens tokens := by
  match tokens with
  | [] => rfl
  | [t] => rfl
  | t :: u :: ts =>
      have hlast : filled (ts ++ [[]]) = filled ts := by
        rw [filled_append]
        exact List.append_nil _
      simp [ofTokens, hlast]

/-- The sheet of a text is that of the pieces between its line feeds. -/
theorem sheet?_eq_sheetOf?_splitOn (text : List UInt8) :
    sheet? text = sheetOf? (text.splitOn 0x0A) := by
  have tokens : ∀ ls : List (List UInt8), ls.mapM token? = (ls.map token?).mapM id := by
    intro ls
    rw [List.mapM_map]
    rfl
  rw [sheet?, sheetOf?, sheetOf?, tokens, tokens]
  rcases Text.token?_lines text with heq | hlast
  · rw [heq]
  · rw [← hlast, List.mapM_append]
    cases ((Text.lines text).map token?).mapM id with
    | none => rfl
    | some tokens => exact congrArg some (Sheet.ofTokens_concat_nil tokens).symm

/-! ## What blank lines change -/

/-- Blank lines that leave the first two lines of a text with what they said are passed over.
Otherwise the filled lines that are pushed out of the first two are counts in front of the
others. -/
theorem blank_lines_passed {text text' : List UInt8} (spaced : Spaced text text') {l : Listing}
    (accepted : read text = .ok l) :
    ∃ s s', sheet? text = some s ∧ sheet? text' = some s' ∧
      (s'.live = s.live → s'.real = s.real → read text' = .ok l) ∧
      (∃ pushed, s.times = s'.times ++ pushed ∧ s'.counts = pushed ++ s.counts) ∧
      ∀ l', read text' = .ok l' ↔ s'.listing? = some l' := by
  obtain ⟨s, hs, hl⟩ := read_eq_ok_iff.1 accepted
  obtain ⟨s', hs', pushed, htimes, hcounts⟩ :=
    Padded.sheet spaced ((sheet?_eq_sheetOf?_splitOn text).symm.trans hs)
  rw [← sheet?_eq_sheetOf?_splitOn] at hs'
  refine ⟨s, s', hs, hs', fun hlive hreal => ?_, ⟨pushed, htimes, hcounts⟩, fun l' => ?_⟩
  · have none : pushed = [] := by
      rw [Sheet.times, Sheet.times, hlive, hreal] at htimes
      exact List.self_eq_append_right.1 htimes
    rw [none, List.nil_append] at hcounts
    have same : s' = s := Sheet.ext hlive hreal hcounts
    exact read_eq_ok_iff.2 ⟨s', hs', same ▸ hl⟩
  · rw [read_eq_ok_iff, hs']
    simp

/-- A listing of two bins, the last line of which is not ended. -/
def plainText : List UInt8 := Text.utf8 "12\n13\n0\n5".toList

/-- The listing with blank lines behind the times and at the end. -/
def looseText : List UInt8 := Text.utf8 "12\n13\n\t\u00A0\n0\n\n5\n ".toList

theorem blank_lines_passed_looseText :
    Spaced plainText looseText ∧
      ∃ l, read plainText = .ok l ∧ l.realTime = 13.0 ∧ l.cells.entries = [(1, 5)] ∧
        read looseText = .ok l := by
  have plainPieces : plainText.splitOn 0x0A =
      ["12", "13", "0", "5"].map fun l => Text.utf8 l.toList := by decide +kernel
  have loosePieces : looseText.splitOn 0x0A =
      ["12", "13", "\t\u00A0", "0", "", "5", " "].map fun l => Text.utf8 l.toList := by
    decide +kernel
  have blank : ∀ text : List Char, text.all Text.isBlank = true → BlankLine (Text.utf8 text) :=
    fun text h => ⟨text, rfl, List.all_eq_true.1 h⟩
  have narrow : BlankLine (Text.utf8 "\t\u00A0".toList) := blank _ (by decide +kernel)
  have space : BlankLine (Text.utf8 " ".toList) := blank _ (by decide +kernel)
  have spaced : Spaced plainText looseText := by
    rw [Spaced, plainPieces, loosePieces]
    exact .keep (.keep (.blank narrow (.keep (.blank blankLine_nil (.keep (.blank space .nil))))))
  have plain : sheet? plainText = some ⟨['1', '2'], ['1', '3'], [['0'], ['5']]⟩ := by
    decide +kernel
  have loose : sheet? looseText = some ⟨['1', '2'], ['1', '3'], [['0'], ['5']]⟩ := by
    decide +kernel
  obtain ⟨l, hl, hreal, hcells⟩ : ∃ l, read plainText = .ok l ∧ l.realTime = 13.0 ∧
      l.cells.entries = [(1, 5)] :=
    ⟨_, rfl, by decide +kernel, by decide +kernel⟩
  obtain ⟨s, s', hs, hs', same, -⟩ := blank_lines_passed spaced hl
  obtain rfl := Option.some.inj (plain.symm.trans hs)
  obtain rfl := Option.some.inj (loose.symm.trans hs')
  exact ⟨spaced, l, hl, hreal, hcells, same rfl rfl⟩

/-- A blank line in front of a listing makes the live time the real time, and the real time
the count of a bin. -/
theorem times_taken_for_counts :
    Spaced plainText (0x0A :: plainText) ∧
      ∃ l l', read plainText = .ok l ∧ read (0x0A :: plainText) = .ok l' ∧
        (l.liveTime = 12.0 ∧ l.realTime = 13.0 ∧ l.cells.entries = [(1, 5)] ∧ l.lastBin = 1) ∧
        l'.liveTime = 0.0 ∧ l'.realTime = 12.0 ∧ l'.cells.entries = [(0, 13), (2, 5)] ∧
          l'.lastBin = 2 := by
  have pieces : plainText.splitOn 0x0A =
      ["12", "13", "0", "5"].map fun l => Text.utf8 l.toList := by decide +kernel
  have spaced : Spaced plainText (0x0A :: plainText) := by
    rw [Spaced, ← List.nil_append (0x0A :: plainText),
      List.splitOn_append_cons_self_of_not_mem List.not_mem_nil, pieces]
    exact .blank blankLine_nil (.keep (.keep (.keep (.keep .nil))))
  refine ⟨spaced, _, _, rfl, rfl, ?_, ?_⟩
  · decide +kernel
  · decide +kernel

end ListMode.Listing
