import ListMode.Proofs.Decoder.WellFormed

/-!
# Routing only filters

How the channels are routed has no part in how a buffer is read: with another topology the
records, the events and the fault are the same.  When a topology is another one with some
channels unrouted (`Topology.Silenced`), its hits are those of the other one without the hits
on these channels, in the same order (`Settings.decode_routing`).

For one event this is a matter of its hits as the channels come, where a channel that is
unrouted gives none (`Settings.unsorted_silenced`); the time sort is stable, so it does not
matter whether hits are left out before it or after (`Timestamp.mergeSort_filter`).  That a
source id tells whether its channel was unrouted takes ids that are routed only once
(`Topology.mem_routedIds_silenced`).
-/

namespace ListMode

namespace Topology

variable {t t' : Topology} {module channel : Nat}

/-! ## Ids and where they stand -/

/-- All ids, module by module. -/
def ids (t : Topology) : List SourceId := t.rows.flatMap (·.toList)

theorem source_eq_ids (hc : channel < channelsPerModule) :
    t.source module channel = (t.ids[module * channelsPerModule + channel]?).getD unrouted := by
  obtain ⟨rows⟩ := t
  rw [ids]
  induction rows generalizing module with
  | nil => rfl
  | cons row rows ih =>
      rw [List.flatMap_cons]
      cases module with
      | zero =>
          rw [Nat.zero_mul, Nat.zero_add, List.getElem?_append_left (by simpa using hc)]
          simp [source]
      | succ module =>
          have index : (module + 1) * channelsPerModule + channel =
              row.toList.length + (module * channelsPerModule + channel) := by
            rw [Vector.length_toList, Nat.succ_mul]
            omega
          rw [index, List.getElem?_append_right (Nat.le_add_right ..), Nat.add_sub_cancel_left]
          exact ih

theorem mem_routedIds {id : SourceId} :
    id ∈ t.routedIds ↔
      0 ≤ id ∧ ∃ module channel, channel < channelsPerModule ∧ t.source module channel = id := by
  constructor
  · intro h
    obtain ⟨member, routed⟩ := List.mem_filter.1 h
    obtain ⟨row, hrow, hid⟩ := List.mem_flatMap.1 member
    obtain ⟨module, hmodule⟩ := List.getElem?_of_mem hrow
    rw [← map_source_range hmodule] at hid
    obtain ⟨channel, hchannel, source⟩ := List.mem_map.1 hid
    exact ⟨of_decide_eq_true routed, module, channel, List.mem_range.1 hchannel, source⟩
  · rintro ⟨routed, module, channel, hc, rfl⟩
    refine (t.routedRow_sublist module).subset (List.mem_filter.2 ⟨?_, decide_eq_true routed⟩)
    exact List.mem_map_of_mem (List.mem_range.2 hc)

/-- An id that is routed once stands in one place. -/
theorem eq_of_getElem?_ids (apart : t.routedIds.Nodup) {id : SourceId} (routed : 0 ≤ id) {i j : Nat}
    (hi : t.ids[i]? = some id) (hj : t.ids[j]? = some id) : i = j := by
  have pairs : t.ids.Pairwise fun a b => decide (0 ≤ a) = true → decide (0 ≤ b) = true → a ≠ b :=
    List.pairwise_filter.1 apart
  rw [List.pairwise_iff_getElem] at pairs
  obtain ⟨hi', rfl⟩ := List.getElem?_eq_some_iff.1 hi
  obtain ⟨hj', same⟩ := List.getElem?_eq_some_iff.1 hj
  have routed' := routed
  rw [← same] at routed'
  rcases Nat.lt_trichotomy i j with lt | eq | lt
  · exact absurd same.symm (pairs i j hi' hj' lt (decide_eq_true routed) (decide_eq_true routed'))
  · exact eq
  · exact absurd same (pairs j i hj' hi' lt (decide_eq_true routed') (decide_eq_true routed))

/-- An id that is routed once is that of one channel. -/
theorem eq_of_source_eq (apart : t.routedIds.Nodup) {module' channel' : Nat}
    (hc : channel < channelsPerModule) (hc' : channel' < channelsPerModule)
    (routed : 0 ≤ t.source module channel)
    (same : t.source module' channel' = t.source module channel) :
    module' = module ∧ channel' = channel := by
  have found : ∀ {i : Nat} {id : SourceId}, 0 ≤ id → t.ids[i]?.getD unrouted = id →
      t.ids[i]? = some id := by
    intro i id routed h
    cases hi : t.ids[i]? with
    | none =>
        rw [hi] at h
        subst h
        exact absurd routed (by decide)
    | some other =>
        rw [hi] at h
        exact congrArg some h
  rw [source_eq_ids hc'] at same
  have index : module' * channelsPerModule + channel' = module * channelsPerModule + channel :=
    eq_of_getElem?_ids apart routed (found routed same) (found routed (source_eq_ids hc).symm)
  rw [channelsPerModule] at index hc hc'
  omega

/-! ## Unrouting channels -/

/-- The second topology is the first with some of the routed ids replaced by negative ones. -/
def Silenced (t t' : Topology) : Prop :=
  List.Forall₂ (fun row row' : ModuleRow => ∀ channel : Fin channelsPerModule,
    row'[channel] = row[channel] ∨ 0 ≤ row[channel] ∧ row'[channel] < 0) t.rows t'.rows

/-- The ids that the first topology routes and the second one does not. -/
def removed (t t' : Topology) : List SourceId := t.routedIds.filter (· ∉ t'.routedIds)

theorem source_of_silenced (h : t.Silenced t') (module channel : Nat) :
    t'.source module channel = t.source module channel ∨
      0 ≤ t.source module channel ∧ t'.source module channel < 0 := by
  obtain ⟨rows⟩ := t
  obtain ⟨rows'⟩ := t'
  replace h : List.Forall₂ _ rows rows' := h
  induction h generalizing module with
  | nil => exact .inl rfl
  | cons row _ ih =>
      cases module with
      | zero =>
          by_cases hc : channel < channelsPerModule
          · simpa [source, hc] using row ⟨channel, hc⟩
          · simp [source, hc]
      | succ module => exact ih module

/-- Of ids that are routed once, those are removed whose channels are unrouted. -/
theorem mem_removed_iff (apart : t.routedIds.Nodup) (h : t.Silenced t') (module : Nat)
    (hc : channel < channelsPerModule) (routed : 0 ≤ t.source module channel) :
    t.source module channel ∈ t.removed t' ↔ t'.source module channel < 0 := by
  have present : t.source module channel ∈ t.routedIds :=
    mem_routedIds.2 ⟨routed, module, channel, hc, rfl⟩
  rw [removed, List.mem_filter, decide_eq_true_iff]
  constructor
  · rintro ⟨-, missing⟩
    rcases source_of_silenced h module channel with kept | ⟨-, gone⟩
    · exact absurd (mem_routedIds.2 ⟨routed, module, channel, hc, kept⟩) missing
    · exact gone
  · intro gone
    refine ⟨present, fun remains => ?_⟩
    -- another channel would have the same id
    obtain ⟨-, module', channel', hc', source⟩ := mem_routedIds.1 remains
    have same : t.source module' channel' = t.source module channel := by
      rcases source_of_silenced h module' channel' with kept | ⟨-, gone'⟩
      · exact kept.symm.trans source
      · rw [source] at gone'
        exact absurd routed (Int16.not_le.2 gone')
    obtain ⟨rfl, rfl⟩ := eq_of_source_eq apart hc hc' routed same
    rw [source] at gone
    exact absurd routed (Int16.not_le.2 gone)

end Topology

namespace Settings

variable {s : Settings} {t : Topology} {e : Event}

theorem unsorted_silenced (apart : s.topology.routedIds.Nodup) (h : s.topology.Silenced t)
    (whole : e.Whole) : unsorted { s with topology := t } e =
      (s.unsorted e).filter fun h => h.source ∉ s.topology.removed t := by
  rw [unsorted, unsorted, List.filter_filterMap]
  refine List.filterMap_congr fun b hb => ?_
  have hc : b.1 < channelsPerModule := whole.lt_of_mem hb
  have member := Topology.mem_removed_iff apart h e.record.module.toNat hc
  have before := Topology.source_of_silenced h e.record.module.toNat b.1
  simp only [hit?]
  by_cases routed : s.topology.source e.record.module.toNat b.1 < 0
  · rcases before with same | ⟨nonneg, -⟩
    · rw [same, if_pos routed, if_pos routed]
      rfl
    · exact absurd nonneg (Int16.not_le.2 routed)
  · have member := member (Int16.not_lt.1 routed)
    rw [if_neg routed, Option.filter_some, source_hit]
    rcases before with same | ⟨-, gone⟩
    · rw [same] at member ⊢
      rw [if_neg routed, if_pos (decide_eq_true (mt member.1 routed))]
      rfl
    · have removed := member.2 gone
      rw [if_pos gone, if_neg (by simpa using removed)]

theorem group_silenced (apart : s.topology.routedIds.Nodup) (h : s.topology.Silenced t)
    (whole : e.Whole) : group { s with topology := t } e =
      (s.group e).filter fun h => h.source ∉ s.topology.removed t := by
  rw [group_eq_mergeSort, group_eq_mergeSort]
  have hits := unsorted_silenced apart h whole
  rw [unsorted, unsorted] at hits
  rw [hits, Timestamp.mergeSort_filter]

/-- There is room for the hits of fewer channels. -/
theorem hasRoom_silenced (h : s.topology.Silenced t) {b : Buffer} (room : s.hasRoom b = true) :
    hasRoom { s with topology := t } b = true := by
  rw [hasRoom, Bool.or_eq_true, Bool.not_eq_true', List.any_eq_false] at room ⊢
  refine room.imp_right fun none e he routes => none e he ?_
  obtain ⟨⟨channel, block⟩, hb, routed⟩ := List.any_eq_true.1 routes
  refine List.any_eq_true.2 ⟨⟨channel, block⟩, hb, ?_⟩
  show decide (0 ≤ s.topology.source e.record.module.toNat channel) = true
  rcases Topology.source_of_silenced h e.record.module.toNat channel with same | ⟨nonneg, -⟩
  · rw [← same]
    exact routed
  · exact decide_eq_true nonneg

/-! ## Two topologies -/

/-- Routing only filters.  Decoders that differ in their topologies read the same records and
events and stop for the same reason.  If a decoder whose ids are routed once has a result, then
with some of its channels unrouted there is one, too, which has its hits without those on the
removed ids, in the same order. -/
theorem decode_routing (s : Settings) (t : Topology) (bytes : List UInt8) :
    (s.model.fits = true → ∃ d d', s.decode? bytes = some d ∧
      decode? { s with topology := t } bytes = some d') ∧
    (∀ d d', s.decode? bytes = some d → decode? { s with topology := t } bytes = some d' →
      d'.records = d.records ∧ d'.events = d.events ∧ d'.fault = d.fault) ∧
    (s.topology.routedIds.Nodup → s.topology.Silenced t → ∀ d, s.decode? bytes = some d →
      ∃ d', decode? { s with topology := t } bytes = some d' ∧
        d'.hits = d.hits.filter fun h => h.source ∉ s.topology.removed t) := by
  refine ⟨fun room => ⟨_, _, decode?_of_fits room bytes,
    decode?_of_fits (s := { s with topology := t }) room bytes⟩, ?_, ?_⟩
  · intro d d' hd hd'
    obtain rfl := decode_of_decode? hd
    obtain rfl := decode_of_decode? hd'
    exact ⟨rfl, rfl, rfl⟩
  · intro apart silenced d hd
    obtain ⟨room, rfl⟩ := decode?_eq_some_iff.1 hd
    refine ⟨_, decode?_eq_some_iff.2 ⟨hasRoom_silenced silenced room, rfl⟩, ?_⟩
    show (Buffer.read s.maxRecordWords bytes).events.flatMap (group { s with topology := t }) =
      ((Buffer.read s.maxRecordWords bytes).events.flatMap s.group).filter _
    rw [List.filter_flatMap]
    exact List.flatMap_congr fun e he =>
      group_silenced apart silenced (Buffer.whole_of_read _ bytes e he)

/-- A record with an event of four channels, three of which triggered at the same time, and with
an event that is cut off. -/
def simultaneousRecord : List UInt16 :=
  [19, 0, 0x0103, 0, 7, 0, 0x0F0F, 7, 0x40, 0x30, 1, 0x30, 2, 0x10, 3, 0x30, 4, 0x0101, 7]

/-- Four channels, the second one unrouted. -/
def secondUnrouted : Topology := ⟨[#v[0, -5, 2, 3]]⟩

theorem decode_routing_simultaneous :
    (Settings.topology {}).routedIds.Nodup ∧ (Settings.topology {}).Silenced secondUnrouted ∧
      ∃ d d', decode? {} (Word.toBytes simultaneousRecord) = some d ∧
        decode? { topology := secondUnrouted } (Word.toBytes simultaneousRecord) = some d' ∧
        d'.fault = d.fault ∧ d.fault ≠ none ∧ d.hits.map Hit.source = [2, 0, 1, 3] ∧
        d'.hits.map Hit.source = [2, 0, 3] := by
  have apart : (Settings.topology {}).routedIds.Nodup := by decide
  have silenced : (Settings.topology {}).Silenced secondUnrouted := .cons (by decide) .nil
  obtain ⟨result, reading, hits⟩ :=
    decode_routing {} secondUnrouted (Word.toBytes simultaneousRecord)
  obtain ⟨d, -, hd, -⟩ := result rfl
  obtain ⟨d', hd', kept⟩ := hits apart silenced d hd
  obtain ⟨-, -, fault⟩ := reading d d' hd hd'
  obtain rfl := decode_of_decode? hd
  refine ⟨apart, silenced, _, d', hd, hd', fault, ?_, ?_, ?_⟩
  · decide +kernel
  · decide +kernel
  · rw [kept]
    decide +kernel

end Settings

end ListMode
