/-!
# Channel gates

A gate list says of every source channel below its length whether it is open;
channels past the end are closed.  Spectra use three of them: the channels they
are built from, the channels an event must hold and the channels it must not
hold.

A gate list is kept as its length and its open channels in ascending order, so
a high channel number costs nothing.  The gates one by one are a view of it
(`Gates.gates`), which every other operation is explained by: what is open
(`getElem?_gates`), how gates are counted (`count_eq`), and what is left when
the list is cut or lengthened (`gates_resize`).  Gate lists with the same gates
are the same (`gates_inj`).
-/

namespace ListMode

/-- Open and closed gates by channel number. -/
structure Gates where
  /-- The number of gates. -/
  length : Nat
  /-- The open channels, in ascending order. -/
  selected : List Nat
  /-- Each open channel stands once, behind the lower ones. -/
  ascending : selected.Pairwise (· < ·)
  /-- The open channels have gates. -/
  selected_lt : ∀ c ∈ selected, c < length
deriving DecidableEq, Repr

namespace Gates

/-! ## Reading a gate list -/

/-- The channel's gate is open. -/
def opens (g : Gates) (channel : Nat) : Bool := g.selected.contains channel

/-- The number of open gates. -/
def count (g : Gates) : Nat := g.selected.length

/-- Every open channel is present. -/
def allPresent (g : Gates) (present : Nat → Bool) : Bool := g.selected.all present

/-- No open channel is present. -/
def nonePresent (g : Gates) (present : Nat → Bool) : Bool := !g.selected.any present

/-- The gates from channel `i` on, of which the listed ones are open. -/
def gatesFrom (length : Nat) : (i : Nat) → (channels : List Nat) → List Bool
  | i, [] => List.replicate (length - i) false
  | i, c :: cs => List.replicate (c - i) false ++ true :: gatesFrom length (c + 1) cs

/-- The gates, channel zero first. -/
def gates (g : Gates) : List Bool := gatesFrom g.length 0 g.selected

/-! ## Building gate lists -/

/-- The gate list of a given length with every gate closed. -/
def closed (length : Nat) : Gates := ⟨length, [], .nil, nofun⟩

instance : Inhabited Gates := ⟨closed 0⟩

/-- Puts a channel among ascending channels, unless it is there. -/
def insertChannel (c : Nat) : List Nat → List Nat
  | [] => [c]
  | d :: ds => if c < d then c :: d :: ds else if c = d then d :: ds else d :: insertChannel c ds

@[simp] theorem mem_insertChannel {c d : Nat} {ds : List Nat} :
    d ∈ insertChannel c ds ↔ d = c ∨ d ∈ ds := by
  induction ds with
  | nil => simp [insertChannel]
  | cons e es ih =>
    simp only [insertChannel]
    split
    · simp
    · split
      · next h => simp [h]
      · simp [ih, or_left_comm]

theorem ascending_insertChannel {c : Nat} {ds : List Nat} (h : ds.Pairwise (· < ·)) :
    (insertChannel c ds).Pairwise (· < ·) := by
  induction ds with
  | nil => simp [insertChannel]
  | cons e es ih =>
    obtain ⟨he, hes⟩ := List.pairwise_cons.1 h
    simp only [insertChannel]
    split
    · next hc =>
      refine List.pairwise_cons.2 ⟨fun d hd => ?_, h⟩
      rcases List.mem_cons.1 hd with rfl | hd
      · exact hc
      · exact Nat.lt_trans hc (he d hd)
    · split
      · exact h
      · refine List.pairwise_cons.2 ⟨fun d hd => ?_, ih hes⟩
        rcases mem_insertChannel.1 hd with rfl | hd
        · omega
        · exact he d hd

/-- The channels in ascending order, each once. -/
def arrange (channels : List Nat) : List Nat := channels.foldr insertChannel []

@[simp] theorem mem_arrange {c : Nat} {channels : List Nat} :
    c ∈ arrange channels ↔ c ∈ channels := by
  induction channels with
  | nil => rfl
  | cons d ds ih => rw [arrange, List.foldr_cons, mem_insertChannel, ← arrange, ih, List.mem_cons]

theorem ascending_arrange (channels : List Nat) : (arrange channels).Pairwise (· < ·) := by
  induction channels with
  | nil => exact .nil
  | cons d ds ih => exact ascending_insertChannel ih

/-- The number behind the highest of the channels. -/
def bound (channels : List Nat) : Nat := channels.foldr (fun c n => max (c + 1) n) 0

theorem lt_bound {c : Nat} {channels : List Nat} (h : c ∈ channels) : c < bound channels := by
  induction channels with
  | nil => cases h
  | cons d ds ih =>
    rw [bound, List.foldr_cons, ← bound]
    rcases List.mem_cons.1 h with rfl | h
    · omega
    · have := ih h
      omega

/-- The shortest gate list that opens exactly the listed channels. -/
def ofChannels (channels : List Nat) : Gates where
  length := bound channels
  selected := arrange channels
  ascending := ascending_arrange channels
  selected_lt _ hc := lt_bound (mem_arrange.1 hc)

/-- The channels that are open in a list of gates whose first is that of channel
`i`. -/
def openFrom : (i : Nat) → List Bool → List Nat
  | _, [] => []
  | i, true :: gs => i :: openFrom (i + 1) gs
  | i, false :: gs => openFrom (i + 1) gs

theorem mem_openFrom {c i : Nat} {gs : List Bool} :
    c ∈ openFrom i gs ↔ i ≤ c ∧ gs[c - i]? = some true := by
  induction gs generalizing i with
  | nil => simp [openFrom]
  | cons b gs ih =>
    rcases Nat.lt_trichotomy c i with h | rfl | h
    · cases b <;> simp only [openFrom, List.mem_cons, ih] <;> omega
    · cases b with
      | true => simp [openFrom]
      | false =>
        rw [openFrom, ih, Nat.sub_self, List.getElem?_cons_zero]
        exact iff_of_false (fun h => Nat.not_succ_le_self c h.1) fun h => by cases h.2
    · obtain ⟨k, rfl⟩ := Nat.exists_eq_add_of_lt h
      have hk : i + k + 1 - i = k + 1 := by omega
      have hk' : i + k + 1 - (i + 1) = k := by omega
      have hne : i + k + 1 ≠ i := by omega
      cases b <;> simp [openFrom, ih, hk, hk', hne] <;> omega

theorem ascending_openFrom (i : Nat) (gs : List Bool) : (openFrom i gs).Pairwise (· < ·) := by
  induction gs generalizing i with
  | nil => exact .nil
  | cons b gs ih =>
    cases b with
    | true => exact List.pairwise_cons.2 ⟨fun _ hc => (mem_openFrom.1 hc).1, ih (i + 1)⟩
    | false => exact ih (i + 1)

/-- The gate list of the given gates. -/
def ofList (gs : List Bool) : Gates where
  length := gs.length
  selected := openFrom 0 gs
  ascending := ascending_openFrom 0 gs
  selected_lt c hc := by
    have := (mem_openFrom.1 hc).2
    exact (List.getElem?_eq_some_iff.1 this).1

/-- The gate list cut or lengthened to `length`, new gates being closed. -/
def resize (g : Gates) (length : Nat) : Gates where
  length
  selected := g.selected.filter (· < length)
  ascending := g.ascending.filter _
  selected_lt c hc := by simpa using (List.mem_filter.1 hc).2

/-! ## Open channels -/

theorem mem_selected {g : Gates} {c : Nat} : c ∈ g.selected ↔ g.opens c = true := by
  simp [opens]

theorem allPresent_iff {g : Gates} {present : Nat → Bool} :
    g.allPresent present = true ↔ ∀ c, g.opens c = true → present c = true := by
  simp [allPresent, opens]

theorem nonePresent_iff {g : Gates} {present : Nat → Bool} :
    g.nonePresent present = true ↔ ∀ c, g.opens c = true → present c = false := by
  simp [nonePresent, opens]

/-- Exactly the listed channels are open. -/
theorem opens_ofChannels (channels : List Nat) (c : Nat) :
    (ofChannels channels).opens c = channels.contains c := by
  rw [Bool.eq_iff_iff]
  simp [opens, ofChannels]

theorem opens_ofList (gs : List Bool) (c : Nat) : (ofList gs).opens c = gs[c]?.getD false := by
  rw [Bool.eq_iff_iff]
  simp only [opens, ofList, List.contains_iff_mem, mem_openFrom, Nat.zero_le, true_and,
    Nat.sub_zero]
  cases gs[c]? <;> simp

theorem opens_resize (g : Gates) (n c : Nat) :
    (g.resize n).opens c = (decide (c < n) && g.opens c) := by
  rw [Bool.eq_iff_iff]
  simp [opens, resize, and_comm]

theorem lt_length_of_opens {g : Gates} {c : Nat} (h : g.opens c = true) : c < g.length :=
  g.selected_lt c (mem_selected.2 h)

/-! ## The gates one by one -/

theorem getElem?_gatesFrom {length k : Nat} : ∀ {i : Nat} {channels : List Nat},
    channels.Pairwise (· < ·) → (∀ c ∈ channels, i ≤ c ∧ c < length) →
      (gatesFrom length i channels)[k]? =
        if i + k < length then some (decide (i + k ∈ channels)) else none
  | i, [], _, _ => by
    rw [gatesFrom, List.getElem?_replicate]
    by_cases h : i + k < length
    · simp [h, show k < length - i by omega]
    · simp [h, show ¬ k < length - i by omega]
  | i, c :: cs, h, hb => by
    obtain ⟨hc, hcs⟩ := List.pairwise_cons.1 h
    obtain ⟨hic, hcl⟩ := hb c (List.mem_cons_self ..)
    have hnext : ∀ d ∈ cs, c + 1 ≤ d ∧ d < length := fun d hd =>
      ⟨hc d hd, (hb d (List.mem_cons_of_mem _ hd)).2⟩
    rw [gatesFrom, List.getElem?_append, List.length_replicate]
    by_cases hk : k < c - i
    · have hnot : i + k ∉ cs := fun hd => by
        have := hc _ hd
        omega
      have hne : i + k ≠ c := by omega
      simp [hk, hnot, hne, show i + k < length by omega]
    · obtain ⟨j, rfl⟩ : ∃ j, k = c - i + j := ⟨k - (c - i), by omega⟩
      have hsum : i + (c - i + j) = c + j := by omega
      have hsub : c - i + j - (c - i) = j := by omega
      rw [if_neg hk, hsum, hsub]
      cases j with
      | zero => simp [hcl]
      | succ j =>
        have hshift : c + 1 + j = c + (j + 1) := by omega
        rw [List.getElem?_cons_succ, getElem?_gatesFrom hcs hnext, hshift]
        simp

/-- The gates are as the open channels say. -/
theorem getElem?_gates (g : Gates) (c : Nat) :
    g.gates[c]? = if c < g.length then some (g.opens c) else none := by
  rw [gates, getElem?_gatesFrom g.ascending fun d hd => ⟨Nat.zero_le d, g.selected_lt d hd⟩]
  simp [opens]

@[simp] theorem length_gates (g : Gates) : g.gates.length = g.length := by
  rcases Nat.lt_trichotomy g.gates.length g.length with h | h | h
  · have := g.getElem?_gates g.gates.length
    rw [List.getElem?_eq_none (Nat.le_refl _), if_pos h] at this
    cases this
  · exact h
  · have := g.getElem?_gates g.length
    rw [List.getElem?_eq_getElem h, if_neg (Nat.lt_irrefl _)] at this
    cases this

theorem count_gatesFrom (length i : Nat) (channels : List Nat) :
    (gatesFrom length i channels).count true = channels.length := by
  induction channels generalizing i with
  | nil => simp [gatesFrom, List.count_replicate]
  | cons c cs ih => simp [gatesFrom, List.count_replicate, ih]

theorem count_eq (g : Gates) : g.count = g.gates.count true :=
  (count_gatesFrom g.length 0 g.selected).symm

/-- Gate lists with the same gates are the same. -/
theorem gates_inj {g h : Gates} : g.gates = h.gates ↔ g = h := by
  refine ⟨fun hgates => ?_, fun h => h ▸ rfl⟩
  have hlength : g.length = h.length := by rw [← length_gates, hgates, length_gates]
  have hmem : ∀ c, c ∈ g.selected ↔ c ∈ h.selected := fun c => by
    have hc : g.gates[c]? = h.gates[c]? := by rw [hgates]
    rw [getElem?_gates, getElem?_gates, hlength] at hc
    rw [mem_selected, mem_selected]
    by_cases hlt : c < h.length
    · rw [if_pos hlt, if_pos hlt, Option.some.injEq] at hc
      rw [hc]
    · exact iff_of_false (fun hg => hlt (hlength ▸ lt_length_of_opens hg))
        fun hh => hlt (lt_length_of_opens hh)
  have nodup : ∀ k : Gates, k.selected.Nodup := fun k => k.ascending.imp Nat.ne_of_lt
  have hselected : g.selected = h.selected :=
    List.Perm.eq_of_pairwise (fun a b _ _ hab hba => absurd (Nat.lt_trans hab hba) (Nat.lt_irrefl a))
      g.ascending h.ascending ((List.perm_ext_iff_of_nodup (nodup g) (nodup h)).2 hmem)
  cases g
  cases h
  simp only [mk.injEq]
  exact ⟨hlength, hselected⟩

@[simp] theorem gates_ofList (gs : List Bool) : (ofList gs).gates = gs := by
  refine List.ext_getElem? fun c => ?_
  rw [getElem?_gates, opens_ofList]
  by_cases h : c < gs.length
  · simp [ofList, h]
  · simp [ofList, h]

@[simp] theorem gates_closed (n : Nat) : (closed n).gates = List.replicate n false := rfl

theorem gates_resize (g : Gates) (n : Nat) :
    (g.resize n).gates = g.gates.take n ++ List.replicate (n - g.length) false := by
  refine List.ext_getElem? fun c => ?_
  have hr : (g.resize n).length = n := rfl
  rw [getElem?_gates, hr, opens_resize, List.getElem?_append, List.getElem?_replicate,
    List.length_take, length_gates, List.getElem?_take, getElem?_gates]
  by_cases hn : c < n
  · by_cases hg : c < g.length
    · simp [hn, hg, show c < min n g.length by omega]
    · have hopen : g.opens c = false := by
        rw [← Bool.not_eq_true]
        exact fun h => hg (lt_length_of_opens h)
      simp [hn, hopen, show ¬ c < min n g.length by omega,
        show c - min n g.length < n - g.length by omega]
  · simp [hn, show ¬ c < min n g.length by omega,
      show ¬ c - min n g.length < n - g.length by omega]

end Gates

example : (Gates.ofChannels [3, 0]).gates = [true, false, false, true] := by decide
example : (Gates.ofChannels [3, 0]).selected = [0, 3] := by decide
example : ((Gates.ofChannels [1]).resize 1).gates = [false] := by decide
example : Gates.ofList [false, true] = Gates.ofChannels [1] := by decide

end ListMode
