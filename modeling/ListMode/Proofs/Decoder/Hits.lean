import ListMode.Decoder.Basic
import ListMode.Proofs.Time.Sorting
import Mathlib.Data.List.Basic

/-!
# The hits of an event

What a hit is made of, field by field (`Settings.hit_eq`).  A sample goes to
the first field of its name, cut to that field's width; a field that is not the
first of its name, or has a name no sample has, stays zero.  The hits of an
event share the model's clock, so their time order is the stable sort by ticks
(`Settings.group_eq_mergeSort`), and an event gives no hit exactly when it has
no routed channel (`Settings.group_eq_nil_iff`).
-/

namespace ListMode.Settings

/-! ## Setting the fields of a hit -/

theorem setField_eq (m : HitModel) (h : Hit) (sample : String × UInt16) :
    setField m h sample = { h with values := (setField m h sample).values } := by
  rw [setField]
  split <;> rfl

/-- Setting fields changes the values of a hit and nothing else. -/
theorem foldl_setField_eq (m : HitModel) (samples : List (String × UInt16)) : ∀ h : Hit,
    samples.foldl (setField m) h = { h with values := (samples.foldl (setField m) h).values } := by
  induction samples with
  | nil => exact fun _ => rfl
  | cons sample samples ih =>
      intro h
      rw [List.foldl_cons, ih, setField_eq]

theorem length_values_foldl (m : HitModel) (samples : List (String × UInt16)) : ∀ h : Hit,
    (samples.foldl (setField m) h).values.length = h.values.length := by
  induction samples with
  | nil => exact fun _ => rfl
  | cons sample samples ih =>
      intro h
      rw [List.foldl_cons, ih, setField]
      split
      · exact Hit.length_values_setValue ..
      · rfl

theorem name_of_indexOf? {m : HitModel} {name : String} {i : Nat} {f : Field}
    (h : m.indexOf? name = some i) (hf : m.fields[i]? = some f) : f.name = name := by
  obtain ⟨hi, hname, -⟩ := List.findIdx?_eq_some_iff_getElem.1 h
  obtain ⟨hi', rfl⟩ := List.getElem?_eq_some_iff.1 hf
  simpa using hname

theorem getElem?_values_setField {m : HitModel} (h : Hit) (name : String) (raw : UInt16)
    (i : Nat) : (setField m h (name, raw)).values[i]? =
      h.values[i]?.map fun v => if m.indexOf? name = some i then v.set raw else v := by
  rw [setField]
  cases hindex : m.indexOf? name with
  | none => simp
  | some j => simp [Hit.setValue, List.getElem?_modify]

/-- Of samples with different names, a field takes the one of its own name, if
it is the first field of that name. -/
theorem getElem?_values_foldl {m : HitModel} {i : Nat} {f : Field} (hf : m.fields[i]? = some f) :
    ∀ (samples : List (String × UInt16)) (h : Hit), (samples.map Prod.fst).Nodup →
    (samples.foldl (setField m) h).values[i]? = h.values[i]?.map fun v =>
      if m.indexOf? f.name = some i then
        match samples.lookup f.name with
        | some raw => v.set raw
        | none => v
      else v := by
  intro samples
  induction samples with
  | nil => simp
  | cons sample samples ih =>
      intro h hnodup
      obtain ⟨name, raw⟩ := sample
      rw [List.map_cons, List.nodup_cons] at hnodup
      rw [List.foldl_cons, ih _ hnodup.2, getElem?_values_setField, Option.map_map]
      congr 1
      funext v
      by_cases hfirst : m.indexOf? f.name = some i
      · by_cases hname : f.name = name
        · have hrest : samples.lookup name = none := by
            rw [List.lookup_eq_none_iff]
            intro x hx
            rw [bne_iff_ne]
            rintro rfl
            exact hnodup.1 (List.mem_map.2 ⟨x, hx, rfl⟩)
          subst hname
          simp [hfirst, hrest]
        · have hother : m.indexOf? name ≠ some i := fun h => hname (name_of_indexOf? h hf)
          have hbeq : (f.name == name) = false := beq_eq_false_iff_ne.2 hname
          simp [hfirst, hother, hbeq, List.lookup_cons]
      · have hother : m.indexOf? name ≠ some i := by
          intro h
          rw [← name_of_indexOf? h hf] at h
          exact hfirst h
        simp [hfirst, hother]

/-- A hit, field by field. -/
theorem hit_eq (s : Settings) (event : Event) (channel : Nat) (block : Block) (source : SourceId) :
    s.hit event channel block source =
      { source
        time := ⟨UInt64.ofNat (Clock.ticks event.record event.header block), s.model.base⟩
        values := s.model.fields.mapIdx fun i f =>
          .ofRaw (if s.model.indexOf? f.name = some i then
            ((samples event.header channel block).lookup f.name).getD 0 else 0) f.bits
        trace := (Waveform.blank s.model.traceLength).overwrite block.trace } := by
  rw [hit, foldl_setField_eq, Hit.setTrace]
  simp only [Hit.setTicks, Hit.blank, Hit.mk.injEq, true_and, and_true]
  refine List.ext_getElem? fun i => ?_
  rw [List.getElem?_mapIdx]
  cases hf : s.model.fields[i]? with
  | none =>
      have hlength : s.model.fields.length ≤ i := List.getElem?_eq_none_iff.1 hf
      refine (List.getElem?_eq_none_iff.2 ?_).trans rfl
      rw [length_values_foldl]
      simpa [HitModel.blank] using hlength
  | some f =>
      have hnames : ((samples event.header channel block).map Prod.fst).Nodup := by
        simp [samples]
        decide
      rw [getElem?_values_foldl hf _ _ hnames]
      simp only [HitModel.blank, List.getElem?_map, hf, Option.map_some]
      split
      · cases (samples event.header channel block).lookup f.name with
        | none => rfl
        | some raw => rfl
      · rfl

/-! ## The hits of an event -/

theorem time_hit (s : Settings) (event : Event) (channel : Nat) (block : Block)
    (source : SourceId) : (s.hit event channel block source).time =
      ⟨UInt64.ofNat (Clock.ticks event.record event.header block), s.model.base⟩ := by
  rw [hit_eq]

/-- The hits of an event as its channels come. -/
def unsorted (s : Settings) (event : Event) : List Hit :=
  event.blocks.filterMap fun b => s.hit? event b.1 b.2

theorem base_of_mem_unsorted {s : Settings} {event : Event} {h : Hit} (hh : h ∈ s.unsorted event) :
    h.time.base = s.model.base := by
  obtain ⟨b, -, hb⟩ := List.mem_filterMap.1 hh
  simp only [hit?] at hb
  split at hb
  · cases hb
  · obtain rfl := Option.some.inj hb
    rw [time_hit]

theorem group_perm (s : Settings) (event : Event) : (s.group event).Perm (s.unsorted event) :=
  Timestamp.sortOn_perm _ _

theorem group_eq_mergeSort (s : Settings) (event : Event) : s.group event =
    (event.blocks.filterMap fun b => s.hit? event b.1 b.2).mergeSort
      fun a b => decide (a.time.ticks.toNat ≤ b.time.ticks.toNat) :=
  Timestamp.sortOn_eq_mergeSort fun _ => base_of_mem_unsorted

/-- A byte string is decoded exactly if there is room for its hits. -/
theorem decode?_eq_some_iff {s : Settings} {bytes : List UInt8} {d : Decoded} :
    s.decode? bytes = some d ↔
      s.hasRoom (Buffer.read s.maxRecordWords bytes) = true ∧ s.decode bytes = d := by
  rw [decode?, Option.ite_none_right_eq_some, Option.some_inj]
  rfl

theorem decode_of_decode? {s : Settings} {bytes : List UInt8} {d : Decoded}
    (h : s.decode? bytes = some d) : s.decode bytes = d :=
  (decode?_eq_some_iff.1 h).2

/-- There is room for the hits of a part of the events. -/
theorem hasRoom_of_subset {s : Settings} {b b' : Buffer} (h : s.hasRoom b = true)
    (hsub : ∀ e ∈ b'.events ++ b'.unfinished.toList, e ∈ b.events ++ b.unfinished.toList) :
    s.hasRoom b' = true := by
  rw [hasRoom, Bool.or_eq_true, Bool.not_eq_true', List.any_eq_false] at h ⊢
  rcases h with hfits | hnone
  · exact .inl hfits
  · exact .inr fun e he => hnone e (hsub e he)

theorem decodeSpill_of_decodeSpill? {s : Settings} {spill after : Spill}
    (h : s.decodeSpill? spill = some after) : s.decodeSpill spill = after := by
  obtain ⟨d, hd, rfl⟩ := Option.map_eq_some_iff.1 h
  rw [decodeSpill, decode_of_decode? hd]

end ListMode.Settings
