import ListMode.Proofs.Decoder.Hits
import ListMode.Proofs.Hit.Layout
import ListMode.Proofs.Record.Continuation
import Mathlib.Algebra.Group.Nat.Defs

/-!
# Decoded hits are well formed

Whatever the bytes are, the hits that are decoded from them come in one group for each
event (`Settings.decode_wellFormed`).  A group is in time order and has its hits on
different channels of one module (`Topology.Grouped`), and each hit is laid out as the
model says (`Hit.WellFormed`).

That the channels differ comes from two sides.  An event that was read has one block for
each channel of its hit pattern and no others (`Event.Whole`), which every way of reading
keeps, up to a whole buffer (`Buffer.whole_of_read`).  And the sources of its hits are
among those that one row of the topology routes (`Settings.sources_sublist`), which usable
settings route only once.
-/

namespace ListMode

/-! ## Whole events -/

namespace Event

/-- The event has one block for each channel that took part. -/
def Whole (e : Event) : Prop := e.blocks.map Prod.fst = e.header.channels

theorem map_fst_of_readBlocks {l : Layout} : ∀ {channels : List Nat} {c c' : Cursor}
    {blocks : List (Nat × Block)}, readBlocks l channels c = .ok blocks c' →
      blocks.map Prod.fst = channels
  | [], c, c', blocks, h => by
      cases h
      rfl
  | channel :: channels, c, c', blocks, h => by
      simp only [readBlocks, bind, EStateM.bind] at h
      split at h
      · split at h
        · next rest _ hrest =>
          cases h
          rw [List.map_cons, map_fst_of_readBlocks hrest]
        · cases h
      · cases h

theorem Whole.lt_of_mem {e : Event} (whole : e.Whole) {b : Nat × Block} (hb : b ∈ e.blocks) :
    b.1 < channelsPerModule := by
  have member : b.1 ∈ e.header.channels := whole ▸ List.mem_map_of_mem hb
  exact List.mem_range.1 (List.mem_filter.1 member).1

theorem whole_of_read {record : RecordHeader} {c c' : Cursor} {e : Event}
    (h : read record c = .ok e c') : e.Whole := by
  simp only [read, bind, EStateM.bind] at h
  split at h
  · split at h
    · next blocks _ hblocks =>
      cases h
      exact map_fst_of_readBlocks hblocks
    · cases h
  · cases h

end Event

/-- What holds of everything a reader gives holds of everything it gives when repeated. -/
theorem Reader.forall_items_untilEmpty {α : Type} {r : Reader α} {P : α → Prop}
    (hr : ∀ {c a c'}, r c = .ok a c' → P a) (c : Cursor) : ∀ a ∈ (r.untilEmpty c).items, P a := by
  fun_induction Reader.untilEmpty r c with
  | case1 c hempty => exact fun _ h => absurd h List.not_mem_nil
  | case2 c hempty e c' hread => exact fun _ h => absurd h List.not_mem_nil
  | case3 c hempty a c' hread hless rest ih => exact List.forall_mem_cons.2 ⟨hr hread, ih⟩
  | case4 c hempty a c' hread hless => exact List.forall_mem_singleton.2 (hr hread)

namespace Buffer

theorem whole_of_readRecord (c : Cursor) : ∀ e ∈ (readRecord c).events, e.Whole := by
  simp only [readRecord]
  split
  · exact fun _ h => absurd h List.not_mem_nil
  · split
    · exact Reader.forall_items_untilEmpty Event.whole_of_read _
    · exact Reader.forall_items_untilEmpty Event.whole_of_read _

theorem whole_of_readFrom (limit : Nat) (words : List UInt16) :
    ∀ offset, ∀ e ∈ (readFrom limit offset words).events, e.Whole := by
  induction words using frame_induction limit with
  | idle words hidle =>
      intro offset
      obtain ⟨fault, hread, -⟩ := hidle offset
      rw [hread]
      exact fun _ h => absurd h List.not_mem_nil
  | record r rest hframed ih =>
      intro offset
      rw [readFrom_framed hframed]
      simp only
      split
      · exact whole_of_readRecord _
      · exact List.forall_mem_append.2 ⟨whole_of_readRecord _, ih _⟩

/-- Every event of a buffer is whole; the one in which the reading stopped is not among them. -/
theorem whole_of_read (limit : Nat) (bytes : List UInt8) : ∀ e ∈ (read limit bytes).events, e.Whole :=
  whole_of_readFrom limit _ 0

end Buffer

/-! ## The rows of a topology -/

namespace Topology

variable {t : Topology} {module : Nat}

theorem map_source_range {row : ModuleRow} (h : t.rows[module]? = some row) :
    (List.range channelsPerModule).map (t.source module) = row.toList := by
  refine List.ext_getElem (by simp) fun channel hchannel hrow => ?_
  have hlt : channel < channelsPerModule := by simpa using hchannel
  simp [source, h, hlt]

/-- The routed ids of a module's row. -/
def routedRow (t : Topology) (module : Nat) : List SourceId :=
  ((List.range channelsPerModule).map (t.source module)).filter (0 ≤ ·)

theorem routedRow_eq_nil (h : t.rows[module]? = none) : t.routedRow module = [] := by
  simp [routedRow, source, h, unrouted]

theorem length_routedRow_le (t : Topology) (module : Nat) :
    (t.routedRow module).length ≤ channelsPerModule := by
  have all := List.length_filter_le (0 ≤ ·) ((List.range channelsPerModule).map (t.source module))
  rwa [List.length_map, List.length_range] at all

theorem routedRow_sublist (t : Topology) (module : Nat) : (t.routedRow module).Sublist t.routedIds := by
  cases h : t.rows[module]? with
  | none =>
      rw [routedRow_eq_nil h]
      exact List.nil_sublist _
  | some row =>
      rw [routedRow, map_source_range h, routedIds, List.flatMap_def]
      refine List.Sublist.filter _ (List.sublist_flatten_of_mem ?_)
      exact List.mem_map_of_mem (List.mem_of_getElem? h)

theorem exists_row_of_mem_routedRow {id : SourceId} (h : id ∈ t.routedRow module) :
    ∃ row : ModuleRow, t.rows[module]? = some row ∧ id ∈ row.toList := by
  cases hrow : t.rows[module]? with
  | none =>
      rw [routedRow_eq_nil hrow] at h
      cases h
  | some row =>
      rw [routedRow, map_source_range hrow] at h
      exact ⟨row, rfl, (List.mem_filter.1 h).1⟩

end Topology

/-! ## Groups -/

/-- The hits are as the hits of one event should be. -/
structure Topology.Grouped (t : Topology) (hits : List Hit) : Prop where
  /-- There are no more hits than a module has channels. -/
  size : hits.length ≤ channelsPerModule
  /-- No hit comes after a later one. -/
  inOrder : hits.Pairwise fun a b => a.time.atMost b.time = true
  /-- No two hits are on one channel. -/
  apart : (hits.map Hit.source).Nodup
  /-- All hits are on channels of one module. -/
  oneModule : ∃ module : Nat, ∀ h ∈ hits, ∃ row : ModuleRow, t.rows[module]? = some row ∧
    h.source ∈ row.toList

namespace Settings

theorem nodup_routedIds {s : Settings} (valid : s.fault? = none) : s.topology.routedIds.Nodup := by
  refine Topology.routesApart_iff.1 ?_
  rw [fault?] at valid
  split at valid
  · cases valid
  · split at valid
    · cases valid
    · split at valid
      · assumption
      · cases valid

variable (s : Settings) (e : Event)

theorem source_hit (channel : Nat) (block : Block) (source : SourceId) :
    (s.hit e channel block source).source = source := by
  rw [hit_eq]

theorem map_source_unsorted : (s.unsorted e).map Hit.source =
    ((e.blocks.map Prod.fst).map (s.topology.source e.record.module.toNat)).filter (0 ≤ ·) := by
  rw [unsorted]
  induction e.blocks with
  | nil => rfl
  | cons b bs ih =>
      rw [List.filterMap_cons, List.map_cons, List.map_cons, List.filter_cons, ← ih, hit?]
      by_cases routed : s.topology.source e.record.module.toNat b.1 < 0
      · simp [routed, Int16.not_le.2 routed]
      · simp [routed, Int16.not_lt.1 routed, source_hit]

/-- The hits of a whole event are on channels that its module routes, on each at most once. -/
theorem sources_sublist (whole : e.Whole) :
    ((s.unsorted e).map Hit.source).Sublist (s.topology.routedRow e.record.module.toNat) := by
  rw [map_source_unsorted, whole, EventHeader.channels, Topology.routedRow]
  exact (List.filter_sublist.map _).filter _

theorem inOrder_group : (s.group e).Pairwise fun a b => a.time.atMost b.time = true := by
  have ticks : (s.group e).Pairwise fun a b => a.time.ticks.toNat ≤ b.time.ticks.toNat :=
    Timestamp.pairwise_sortOn fun h (hh : h ∈ s.unsorted e) => base_of_mem_unsorted hh
  refine ticks.imp_of_mem fun {a b} ha hb hab => ?_
  have base : a.time.base = b.time.base :=
    (base_of_mem_unsorted ((s.group_perm e).mem_iff.1 ha)).trans
      (base_of_mem_unsorted ((s.group_perm e).mem_iff.1 hb)).symm
  rw [Timestamp.atMost, Timestamp.compare_of_base_eq base]
  exact Nat.isLE_compare.2 hab

variable {s e}

/-- A whole event gives a group. -/
theorem grouped_group (valid : s.fault? = none) (whole : e.Whole) :
    s.topology.Grouped (s.group e) := by
  have perm : ((s.group e).map Hit.source).Perm ((s.unsorted e).map Hit.source) :=
    (s.group_perm e).map _
  have sublist := s.sources_sublist e whole
  have apart : (s.topology.routedRow e.record.module.toNat).Nodup :=
    (nodup_routedIds valid).sublist (s.topology.routedRow_sublist _)
  refine ⟨?_, s.inOrder_group e, perm.nodup_iff.2 (apart.sublist sublist),
    e.record.module.toNat, fun h hh => ?_⟩
  · rw [← List.length_map Hit.source, perm.length_eq]
    exact Nat.le_trans sublist.length_le (s.topology.length_routedRow_le _)
  · have routed := sublist.subset (perm.mem_iff.1 (List.mem_map_of_mem hh))
    exact Topology.exists_row_of_mem_routedRow routed

/-! ## The layout of a decoded hit -/

theorem laidOut_hit (s : Settings) (e : Event) (channel : Nat) (block : Block) (source : SourceId) :
    (s.hit e channel block source).LaidOut s.model := by
  have fields : ∀ (samples : List (String × UInt16)) {h : Hit}, h.LaidOut s.model →
      (samples.foldl (setField s.model) h).LaidOut s.model := by
    intro samples
    induction samples with
    | nil => exact id
    | cons sample samples ih =>
        intro h hl
        refine ih ?_
        rw [setField]
        split
        · exact hl.change (.value _ _)
        · exact hl
  have blank := (Hit.laidOut_blank source s.model).change
    (.ticks (UInt64.ofNat (Clock.ticks e.record e.header block)))
  exact (fields _ blank).change (.trace block.trace)

end Settings

/-- The hit is on a channel and has the values and the waveform that its model says. -/
structure Hit.WellFormed (m : HitModel) (h : Hit) : Prop where
  /-- The hit is on a channel. -/
  routed : 0 ≤ h.source
  /-- There is a value for each field, of the field's width. -/
  widths : h.values.map Digitized.bits = m.fields.map Field.bits
  /-- Every sample fits its width. -/
  samples : ∀ v ∈ h.values, v.raw.toNat < 2 ^ v.bits
  /-- The waveform has the model's length. -/
  trace : h.trace.toList.length = m.traceLength

theorem Digitized.toNat_ofRaw_lt (raw : UInt16) (bits : Nat) :
    (ofRaw raw bits).raw.toNat < 2 ^ bits := by
  have cut : (ofRaw raw bits).raw.toNat ≤ raw.toNat % 1 <<< min bits 16 := by
    rw [ofRaw, UInt16.toNat_ofNat']
    exact Nat.mod_le _ _
  have lt : raw.toNat % 1 <<< min bits 16 < 2 ^ min bits 16 := by
    rw [Nat.one_shiftLeft]
    exact Nat.mod_lt _ (Nat.two_pow_pos _)
  have le : 2 ^ min bits 16 ≤ 2 ^ bits := Nat.pow_le_pow_right Nat.two_pos (Nat.min_le_left _ _)
  omega

theorem Hit.LaidOut.wellFormed {m : HitModel} {h : Hit} (laid : h.LaidOut m)
    (routed : 0 ≤ h.source) : h.WellFormed m := by
  have values : h.values.map Digitized.bits = m.fields.map Field.bits ∧
      ∀ v ∈ h.values, v.raw.toNat < 2 ^ v.bits := by
    have hvalues := laid.values
    generalize m.fields = fields, h.values = values at hvalues
    induction hvalues with
    | nil => exact ⟨rfl, nofun⟩
    | @cons f v fields values hv _ ih =>
        have width : v.bits = f.bits := congrArg Digitized.bits hv
        have sample := Digitized.toNat_ofRaw_lt v.raw f.bits
        rw [← hv, ← width] at sample
        refine ⟨?_, List.forall_mem_cons.2 ⟨sample, ih.2⟩⟩
        rw [List.map_cons, List.map_cons, width, ih.1]
  exact ⟨routed, values.1, values.2, by rw [Waveform.length_toList, laid.trace]⟩

namespace Settings

variable {s : Settings} {bytes : List UInt8}

theorem wellFormed_of_mem_group {e : Event} {h : Hit} (hh : h ∈ s.group e) :
    h.WellFormed s.model := by
  obtain ⟨b, -, hb⟩ := List.mem_filterMap.1 ((s.group_perm e).mem_iff.1 hh)
  simp only [hit?] at hb
  split at hb
  · cases hb
  · next routed =>
    obtain rfl := Option.some.inj hb
    refine (laidOut_hit s e b.1 b.2 _).wellFormed ?_
    rw [source_hit]
    exact Int16.not_lt.1 routed

/-! ## Any bytes -/

/-- With usable settings, whatever the bytes are, the hits are one group for each event, and
well formed.  There is a result for all bytes when there is room for the waveforms. -/
theorem decode_wellFormed (valid : s.fault? = none) (bytes : List UInt8) :
    (s.model.fits = true → ∃ d, s.decode? bytes = some d) ∧
      ∀ d, s.decode? bytes = some d →
        (∃ groups : List (List Hit), groups.length = d.events ∧ d.hits = groups.flatten ∧
          ∀ g ∈ groups, s.topology.Grouped g) ∧
        ∀ h ∈ d.hits, h.WellFormed s.model := by
  refine ⟨fun room => ⟨_, decode?_of_fits room bytes⟩, fun d hd => ?_⟩
  obtain rfl := decode_of_decode? hd
  have whole := Buffer.whole_of_read s.maxRecordWords bytes
  refine ⟨⟨(Buffer.read s.maxRecordWords bytes).events.map s.group, List.length_map _,
    List.flatMap_def .., fun g hg => ?_⟩, fun h hh => ?_⟩
  · obtain ⟨e, he, rfl⟩ := List.mem_map.1 hg
    exact grouped_group valid (whole e he)
  · obtain ⟨e, -, hhe⟩ := List.mem_flatMap.1 hh
    exact wellFormed_of_mem_group hhe

/-- A record with an event of two channels, the later one first, and with an event that is cut
off. -/
def cutRecord : List UInt16 :=
  [15, 0, 0x0103, 0, 7, 0, 0x0A0A, 7, 0x40, 0x30, 1200, 0x10, 800, 0x0101, 7]

theorem decode_wellFormed_cutRecord :
    fault? {} = none ∧ (Settings.model {}).fits = true ∧
      ∃ d, decode? {} (Word.toBytes cutRecord) = some d ∧ d.events = 1 ∧
        d.hits.map Hit.source = [3, 1] ∧
        (∃ groups : List (List Hit), groups.length = d.events ∧ d.hits = groups.flatten ∧
          ∀ g ∈ groups, (Settings.topology {}).Grouped g) ∧
        ∀ h ∈ d.hits, h.WellFormed (Settings.model {}) := by
  have valid : fault? {} = none := by decide
  have room : (Settings.model {}).fits = true := by decide
  obtain ⟨result, formed⟩ := decode_wellFormed valid (Word.toBytes cutRecord)
  obtain ⟨d, hd⟩ := result room
  obtain ⟨groups, hits⟩ := formed d hd
  refine ⟨valid, room, d, hd, ?_, ?_, groups, hits⟩
  · rw [← decode_of_decode? hd]
    decide +kernel
  · rw [← decode_of_decode? hd]
    decide +kernel

end Settings

end ListMode
