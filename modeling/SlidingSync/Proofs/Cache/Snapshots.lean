import SlidingSync.Proofs.Cache.Batches
import SlidingSync.Proofs.Cache.Filling

/-! # Snapshots and live events

A snapshot is read twice over when a cache is populated from it: for the latest events, and for the
state events of the types that name rooms. A live cache that is sent the same events, all the state
of a room and then its latest event, sees the other types too. They leave names alone, and what else
an event does is undone by the next, so both come to the same rooms.
-/

namespace SlidingSync

/-! ## Raw events -/

namespace Payload

/-- Whether the raw event is of a type that names rooms. -/
def IsNameTyped (json : Payload) : Prop :=
  (json.get? "type").bind string? = some roomNameType ∨
    (json.get? "type").bind string? = some canonicalAliasType

/-- Whether the raw event is of such a type and is state of the whole room. -/
def NamesRoom (json : Payload) : Prop :=
  json.IsNameTyped ∧ (json.get? "state_key").bind string? = some ""

instance (json : Payload) : Decidable json.NamesRoom :=
  inferInstanceAs (Decidable ((_ ∨ _) ∧ _))

/-- A missing type reads as the empty one, which names nothing. -/
theorem textAt_type_mem_iff {json : Payload} :
    json.textAt "type" ∈ nameTypes ↔ json.IsNameTyped := by
  unfold textAt IsNameTyped
  cases (json.get? "type").bind string? with
  | none => simp [nameTypes, roomNameType, canonicalAliasType]
  | some text => simp [nameTypes]

end Payload

namespace Event

theorem names_parse_iff {room : RoomId} {json : Payload} {position : Int64} :
    (parse room json position).Names ↔ json.NamesRoom :=
  and_congr_left' Payload.textAt_type_mem_iff

theorem renameAll_parse (room : RoomId) (jsons : List Payload) (position position' : Int64)
    (name : String) :
    renameAll (jsons.map fun json => parse room json position) name =
      renameAll (jsons.map fun json => parse room json position') name := by
  unfold renameAll
  rw [List.foldl_map, List.foldl_map]
  rfl

end Event

/-! ## Rooms of a snapshot -/

namespace Snapshot

/-- No room stands twice in the snapshot. -/
def Distinct (s : Snapshot) : Prop :=
  (s.rooms.map (·.room)).Nodup

instance (s : Snapshot) : Decidable s.Distinct :=
  inferInstanceAs (Decidable (s.rooms.map (·.room)).Nodup)

def room? (s : Snapshot) (id : RoomId) : Option SnapshotRoom :=
  s.rooms.find? fun room => room.room = id

variable {s : Snapshot}

theorem room?_eq_some_iff (distinct : s.Distinct) {id : RoomId} {room : SnapshotRoom} :
    s.room? id = some room ↔ room ∈ s.rooms ∧ room.room = id := by
  unfold room?
  constructor
  · intro hfind
    exact ⟨List.mem_of_find?_eq_some hfind, by simpa using List.find?_some hfind⟩
  · rintro ⟨hroom, rfl⟩
    obtain ⟨found, hfound⟩ : ∃ found, s.rooms.find? (fun r => r.room = room.room) = some found :=
      Option.isSome_iff_exists.mp (List.find?_isSome.mpr ⟨room, hroom, decide_eq_true rfl⟩)
    have hid : found.room = room.room := by simpa using List.find?_some hfound
    rw [hfound, List.inj_on_of_nodup_map distinct (List.mem_of_find?_eq_some hfound) hroom hid]

theorem filter_room (distinct : s.Distinct) (id : RoomId) :
    (s.rooms.filter fun room => room.room = id) = (s.room? id).toList := by
  refine eq_toList_of_mem_iff ((List.Nodup.of_map _ distinct).filter _) fun room => ?_
  rw [room?_eq_some_iff distinct, List.mem_filter, decide_eq_true_iff]

theorem lastRow_latestEvents (distinct : s.Distinct) (id : RoomId) :
    Cache.lastRow s.latestEvents id =
      (s.room? id).bind fun room => room.latestEvent.map (.ofRaw id) := by
  have hrows : (s.latestEvents.filter fun row => row.room = id) =
      (s.rooms.filter fun room => room.room = id).filterMap
        fun room => room.latestEvent.map (.ofRaw id) := by
    unfold latestEvents
    rw [List.filter_filterMap, List.filterMap_filter]
    refine List.filterMap_congr fun room _ => ?_
    by_cases hid : room.room = id
    · subst hid
      cases room.latestEvent <;> simp [StoredEvent.ofRaw]
    · cases room.latestEvent <;> simp [StoredEvent.ofRaw, hid]
  unfold Cache.lastRow
  rw [hrows, filter_room distinct]
  cases s.room? id with
  | none => rfl
  | some room =>
      cases hlatest : room.latestEvent <;> simp [hlatest]

/-- Of the entries of a room that have events the last counts. -/
theorem get?_currentState_eq_getLast? (s : Snapshot) (types : List String) (id : RoomId) :
    (s.currentState types).get? id =
      (((s.rooms.filter fun room => room.room = id).map (stateOf types)).filter
        (!·.isEmpty)).getLast? := by
  obtain ⟨rooms⟩ := s
  unfold currentState
  dsimp only
  induction rooms using List.reverseRecOn with
  | nil => rfl
  | append_singleton before room ih =>
      rw [List.foldl_append, List.foldl_cons, List.foldl_nil, List.filter_append]
      by_cases hid : room.room = id
      · rw [List.filter_cons_of_pos (by simpa using hid), List.filter_nil, List.map_append,
          List.filter_append, List.map_singleton]
        by_cases hnone : (stateOf types room).isEmpty
        · rw [if_pos hnone, List.filter_cons_of_neg (by simpa using hnone), List.filter_nil,
            List.append_nil]
          exact ih
        · rw [if_neg hnone, List.filter_cons_of_pos (by simpa using hnone), List.filter_nil,
            List.getLast?_concat, ← hid, SortedMap.get?_insert_self]
      · rw [List.filter_cons_of_neg (by simpa using hid), List.filter_nil, List.append_nil, ← ih]
        split
        · rfl
        · exact SortedMap.get?_insert_of_ne (Ne.symm hid)

theorem get?_currentState (distinct : s.Distinct) (types : List String) (id : RoomId) :
    (s.currentState types).get? id =
      ((s.room? id).map (stateOf types)).filter (!·.isEmpty) := by
  rw [get?_currentState_eq_getLast?, filter_room distinct]
  cases s.room? id with
  | none => rfl
  | some room =>
      cases hnone : (stateOf types room).isEmpty <;> simp [Option.filter, hnone]

/-! ## What a snapshot says of a room -/

theorem isEmpty_stateOf_nameTypes {room : SnapshotRoom} :
    (stateOf nameTypes room).isEmpty = false ↔ ∃ json ∈ room.state, json.IsNameTyped := by
  unfold stateOf
  rw [List.isEmpty_eq_false_iff, ne_eq, List.filter_eq_nil_iff]
  simp [StoredEvent.ofRaw, Payload.textAt_type_mem_iff]

/-- Every room with state of the types that name rooms has a latest event. -/
def LatestKnown (s : Snapshot) : Prop :=
  ∀ room ∈ s.rooms, (∃ json ∈ room.state, json.IsNameTyped) → room.latestEvent.isSome = true

theorem contains_currentState_iff (distinct : s.Distinct) {id : RoomId} :
    (s.currentState nameTypes).contains id = true ↔
      ∃ room, s.room? id = some room ∧ ∃ json ∈ room.state, json.IsNameTyped := by
  rw [SortedMap.contains, get?_currentState distinct, Option.isSome_iff_exists]
  constructor
  · rintro ⟨rows, hrows⟩
    obtain ⟨hmap, hsome⟩ := Option.filter_eq_some_iff.mp hrows
    obtain ⟨room, hroom, rfl⟩ := Option.map_eq_some_iff.mp hmap
    exact ⟨room, hroom, isEmpty_stateOf_nameTypes.mp (by simpa using hsome)⟩
  · rintro ⟨room, hroom, hstate⟩
    refine ⟨stateOf nameTypes room, Option.filter_eq_some_iff.mpr ⟨by rw [hroom]; rfl, ?_⟩⟩
    rw [isEmpty_stateOf_nameTypes.mpr hstate]
    rfl

theorem latestKnown_iff (distinct : s.Distinct) :
    s.LatestKnown ↔
      ∀ id, (s.currentState nameTypes).contains id = true →
        ∃ row ∈ s.latestEvents, row.room = id := by
  have hlatest : ∀ {id room}, s.room? id = some room →
      ((∃ row ∈ s.latestEvents, row.room = id) ↔ room.latestEvent.isSome = true) := by
    intro id room hroom
    rw [← Cache.lastRow_isSome_iff, lastRow_latestEvents distinct, hroom, Option.bind_some,
      Option.isSome_map]
  constructor
  · intro known id hcontains
    obtain ⟨room, hroom, hstate⟩ := (contains_currentState_iff distinct).mp hcontains
    exact (hlatest hroom).mpr (known room ((room?_eq_some_iff distinct).mp hroom).1 hstate)
  · intro known room hmem hstate
    have hroom := (room?_eq_some_iff distinct).mpr ⟨hmem, rfl⟩
    exact (hlatest hroom).mp
      (known room.room ((contains_currentState_iff distinct).mpr ⟨room, hroom, hstate⟩))

/-- The summary that state and latest event of a room make up, for rooms that have one. -/
def summary? (s : Snapshot) (id : RoomId) : Option RoomSummary :=
  (s.room? id).bind fun room => room.latestEvent.map fun latest =>
    ⟨Event.renameAll (room.state.map fun json => Event.parse id json 0) "",
      Event.timestampOf latest, latest⟩

theorem filled_stateOf (room : SnapshotRoom) (latest : Payload) :
    Cache.filled (.ofRaw room.room latest) (stateOf nameTypes room) =
      ⟨Event.renameAll (room.state.map fun json => Event.parse room.room json 0) "",
        Event.timestampOf latest, latest⟩ := by
  have hevents : (stateOf nameTypes room).map Event.ofStored =
      (room.state.map fun json => Event.parse room.room json 0).filter
        fun event => nameTypes.contains event.eventType := by
    unfold stateOf
    rw [List.filter_map, List.filter_map, List.map_map]
    -- What storage keeps of a raw event is read as the event itself.
    rfl
  unfold Cache.filled
  rw [hevents, Event.renameAll_filter]
  rfl

theorem summary?_eq_filled (distinct : s.Distinct) (id : RoomId) :
    s.summary? id = (Cache.lastRow s.latestEvents id).map fun row =>
      Cache.filled row (((s.currentState nameTypes).get? id).getD []) := by
  rw [lastRow_latestEvents distinct, get?_currentState distinct]
  unfold summary?
  cases hroom : s.room? id with
  | none => rfl
  | some room =>
      obtain ⟨-, rfl⟩ := (room?_eq_some_iff distinct).mp hroom
      have hrows : (((some room).map (stateOf nameTypes)).filter (!·.isEmpty)).getD [] =
          stateOf nameTypes room := by
        cases hnone : (stateOf nameTypes room).isEmpty with
        | true => simp [Option.filter, List.isEmpty_iff.mp hnone]
        | false => simp [Option.filter, hnone]
      rw [hrows, Option.bind_some, Option.bind_some, Option.map_map]
      exact congrArg (fun f => room.latestEvent.map f) (funext fun latest =>
        (filled_stateOf room latest).symm)

/-! ## Populating from a snapshot -/

variable {α : Type} (subscriptions : SortedMap Nat (Subscription α)) (nextHandle : Nat)

theorem populate_storage_eq (s : Snapshot) (c : Cache α) :
    c.populate s.storage = c.populate (.answering (.ok s.latestEvents)
      fun _ => .ok (s.currentState nameTypes).walk.entries) :=
  c.populate_answering_congr _ rfl

theorem populate_of_latestKnown (distinct : s.Distinct) (known : s.LatestKnown) :
    ∃ rooms,
      (Cache.fresh subscriptions nextHandle).populate s.storage =
        ⟨.ok (), ⟨.live, rooms, subscriptions, nextHandle⟩, some nameTypes⟩ ∧
      ∀ id, rooms.get? id = s.summary? id := by
  obtain ⟨rooms, hpopulation, hrooms⟩ := Cache.populate_fresh_of_known subscriptions nextHandle
    s.latestEvents _ (s.currentState nameTypes).walk ((latestKnown_iff distinct).mp known)
  refine ⟨rooms, (populate_storage_eq s _).trans hpopulation, fun id => ?_⟩
  rw [hrooms, summary?_eq_filled distinct]

theorem populate_of_not_latestKnown (distinct : s.Distinct) (unknown : ¬ s.LatestKnown) :
    ((Cache.fresh subscriptions nextHandle).populate s.storage).outcome ≠ .ok () := by
  obtain ⟨id, -, -, hpopulation⟩ := Cache.populate_fresh_of_unknown subscriptions nextHandle
    s.latestEvents _ (s.currentState nameTypes).walk
    fun known => unknown ((latestKnown_iff distinct).mpr known)
  rw [populate_storage_eq, hpopulation]
  simp

/-! ## Sending a live cache the same events -/

/-- All state of every room that has a latest event, each followed by it, as a batch of the room. -/
def batches (s : Snapshot) (positions : RoomId → Int64) : List EventBatch :=
  s.rooms.filterMap fun room => room.latestEvent.map fun latest =>
    ⟨room.room, positions room.room, room.state ++ [latest]⟩

variable {positions : RoomId → Int64} {batches : List EventBatch}

theorem nodup_batches (distinct : s.Distinct) (perm : batches.Perm (s.batches positions)) :
    (batches.map (·.room)).Nodup := by
  have hsublist : ((s.batches positions).map (·.room)).Sublist (s.rooms.map (·.room)) := by
    unfold Snapshot.batches
    induction s.rooms with
    | nil => exact List.Sublist.refl []
    | cons room rest ih =>
        cases hlatest : room.latestEvent with
        | none =>
            rw [List.filterMap_cons_none (by rw [hlatest]; rfl)]
            exact ih.cons room.room
        | some latest =>
            rw [List.filterMap_cons_some (by rw [hlatest]; rfl)]
            exact ih.cons_cons room.room
  exact (perm.map _).nodup_iff.mpr (distinct.sublist hsublist)

theorem mem_batches_iff {batch : EventBatch} :
    batch ∈ s.batches positions ↔
      ∃ room ∈ s.rooms, ∃ latest, room.latestEvent = some latest ∧
        batch = ⟨room.room, positions room.room, room.state ++ [latest]⟩ := by
  unfold Snapshot.batches
  rw [List.mem_filterMap]
  constructor
  · rintro ⟨room, hroom, hmap⟩
    obtain ⟨latest, hlatest, rfl⟩ := Option.map_eq_some_iff.mp hmap
    exact ⟨room, hroom, latest, hlatest, rfl⟩
  · rintro ⟨room, hroom, latest, hlatest, rfl⟩
    exact ⟨room, hroom, by rw [hlatest]; rfl⟩

/-- No latest event is itself one that can name its room. -/
def LatestUnnaming (s : Snapshot) : Prop :=
  ∀ room ∈ s.rooms, ∀ latest, room.latestEvent = some latest → ¬ latest.NamesRoom

theorem get?_ingestAll_batches [Listener α] {c : Cache α} (live : c.phase = .live)
    (noRooms : c.rooms = .empty) (distinct : s.Distinct) (unnaming : s.LatestUnnaming)
    (perm : batches.Perm (s.batches positions)) (id : RoomId) :
    (c.ingestAll batches).rooms.get? id = s.summary? id := by
  have hunnamed : c.nameOf id = "" := by
    unfold Cache.nameOf
    rw [noRooms]
    rfl
  unfold summary?
  by_cases hbatch : ∃ room latest, s.room? id = some room ∧ room.latestEvent = some latest
  · obtain ⟨room, latest, hroom, hlatest⟩ := hbatch
    obtain ⟨hmem, rfl⟩ := (room?_eq_some_iff distinct).mp hroom
    have hin : ⟨room.room, positions room.room, room.state ++ [latest]⟩ ∈ batches :=
      perm.mem_iff.mpr (mem_batches_iff.mpr ⟨room, hmem, latest, hlatest, rfl⟩)
    have hname : Event.renameAll ((room.state ++ [latest]).map fun json =>
          Event.parse room.room json (positions room.room)) "" =
        Event.renameAll (room.state.map fun json => Event.parse room.room json 0) "" := by
      rw [Event.renameAll_parse _ _ _ 0, List.map_append, List.map_singleton,
        Event.renameAll_concat]
      refine Event.rename_of_not_names (fun hnames => ?_) _
      exact unnaming room hmem latest hlatest (Event.names_parse_iff.mp hnames)
    rw [Cache.ingestAll_get?_of_mem live (nodup_batches distinct perm) hin, hunnamed, hname,
      hroom, Option.bind_some, hlatest, Option.map_some]
  · have hothers : ∀ batch ∈ batches, id ≠ batch.room := by
      rintro batch hin rfl
      obtain ⟨room, hmem, latest, hlatest, rfl⟩ := mem_batches_iff.mp (perm.mem_iff.mp hin)
      exact hbatch ⟨room, latest, (room?_eq_some_iff distinct).mpr ⟨hmem, rfl⟩, hlatest⟩
    rw [Cache.ingestAll_get?_of_ne hothers, noRooms]
    cases hroom : s.room? id with
    | none => rfl
    | some room =>
        cases hlatest : room.latestEvent with
        | none => rw [Option.bind_some, hlatest]; rfl
        | some latest => exact absurd ⟨room, latest, hroom, hlatest⟩ hbatch

/--
A snapshot populates a cache exactly when every room with state of the types that
name rooms has a latest event. The rooms are then those that a live cache without
rooms comes to by the batches of the snapshot, whatever their order and positions,
unless a latest event can itself name its room.
-/
theorem snapshot_populates_as_ingested {β : Type} [Listener β] {s : Snapshot}
    (distinct : s.Distinct) (subscriptions : SortedMap Nat (Subscription α)) (nextHandle : Nat)
    (heard : SortedMap Nat (Subscription β)) (nextHeard : Nat) (positions : RoomId → Int64) :
    let population := (Cache.fresh subscriptions nextHandle).populate s.storage
    (population.outcome = .ok () ↔
        ∀ room ∈ s.rooms, (∃ json ∈ room.state, json.IsNameTyped) →
          room.latestEvent.isSome = true) ∧
      (population.outcome = .ok () →
        (∀ room ∈ s.rooms, ∀ latest, room.latestEvent = some latest → ¬ latest.NamesRoom) →
          ∀ batches : List EventBatch, batches.Perm (s.batches positions) →
            population.cache.rooms =
              (Cache.ingestAll { Cache.fresh heard nextHeard with phase := .live }
                batches).rooms) := by
  dsimp only
  by_cases known : s.LatestKnown
  · obtain ⟨rooms, hpopulation, hrooms⟩ :=
      populate_of_latestKnown subscriptions nextHandle distinct known
    rw [hpopulation]
    refine ⟨iff_of_true rfl known, fun _ unnaming batches perm => ?_⟩
    refine SortedMap.ext_get? fun id => ?_
    rw [get?_ingestAll_batches rfl rfl distinct unnaming perm]
    exact hrooms id
  · have hfailed := populate_of_not_latestKnown subscriptions nextHandle distinct known
    exact ⟨iff_of_false hfailed known, fun h => absurd h hfailed⟩

/-- A room with an alias and a name that is no text, and one of whose events nothing can be read. -/
def hotel : Snapshot where
  rooms :=
    [{ room := ⟨"!hall:s", by decide +kernel⟩
       latestEvent := some
        ⟨.object [("origin_server_ts", .ofNat 5), ("type", .string "m.room.message")],
          by decide +kernel⟩
       state :=
        [⟨.object [("content", .object [("name", .ofNat 7)]), ("state_key", .string ""),
            ("type", .string roomNameType)], by decide +kernel⟩,
          .null,
          ⟨.object [("content", .object [("alias", .string "#hall:s")]),
            ("state_key", .string ""), ("type", .string canonicalAliasType)],
            by decide +kernel⟩] },
      { room := ⟨"!cellar:s", by decide +kernel⟩
        latestEvent := some .null }]

theorem populated_as_ingested_in_reverse :
    hotel.Distinct ∧
      ((Cache.fresh .empty 0 : Cache Channel).populate hotel.storage).outcome = .ok () ∧
      (∀ room ∈ hotel.rooms, ∀ latest, room.latestEvent = some latest → ¬ latest.NamesRoom) ∧
      ((Cache.fresh .empty 0 : Cache Channel).populate hotel.storage).cache.rooms =
        (Cache.ingestAll { (Cache.fresh .empty 0 : Cache Channel) with phase := .live }
          (hotel.batches fun _ => 3).reverse).rooms := by
  have distinct : hotel.Distinct := by decide +kernel
  have matching := snapshot_populates_as_ingested (α := Channel) (β := Channel) distinct .empty 0
    .empty 0 fun _ => 3
  have known : ∀ room ∈ hotel.rooms, room.latestEvent.isSome = true := by decide +kernel
  have unnaming : ∀ room ∈ hotel.rooms, ∀ latest, room.latestEvent = some latest →
      ¬ latest.NamesRoom := by
    decide +kernel
  have populated := matching.1.mpr fun room hroom _ => known room hroom
  exact ⟨distinct, populated, unnaming,
    matching.2 populated unnaming _ (List.reverse_perm _)⟩

end Snapshot

end SlidingSync
