import SlidingSync.Proofs.Cache.Calls
import SlidingSync.Proofs.Cache.Naming
import Mathlib.Data.List.Induction

/-! # What a population fills the cache with

A population reads two answers of storage. Every room is filled by its last row, so rows of other
rooms make no difference to it; the state rows of a room are met together, in one entry of a map,
and change nothing but its name. So the order in which the entries of the map are met makes no
difference either, except to which room is named when several have state and no latest event.
-/

namespace SlidingSync

/-- A list without repeats that holds at most one value is the list of that value. -/
theorem eq_toList_of_mem_iff {α : Type} {l : List α} {o : Option α} (nodup : l.Nodup)
    (h : ∀ x, x ∈ l ↔ o = some x) : l = o.toList := by
  cases o with
  | none => exact List.eq_nil_iff_forall_not_mem.mpr fun x hx => by simpa using (h x).mp hx
  | some a =>
      refine List.perm_singleton.mp ?_
      refine (List.perm_ext_iff_of_nodup nodup (List.nodup_singleton a)).mpr fun x => ?_
      rw [h, List.mem_singleton, Option.some.injEq, eq_comm]

/-! ## Walks over maps -/

namespace SortedMap

variable {κ β : Type} [Ord κ]

/-- An order in which the entries of a map can be met. -/
structure Walk (m : SortedMap κ β) where
  entries : List (κ × β)
  perm : entries.Perm m.entries

def walk (m : SortedMap κ β) : m.Walk where
  entries := m.entries
  perm := List.Perm.refl m.entries

variable {m : SortedMap κ β} [Std.LawfulEqOrd κ]

theorem Walk.mem_iff (walk : m.Walk) {key : κ} {value : β} :
    (key, value) ∈ walk.entries ↔ m.get? key = some value :=
  walk.perm.mem_iff.trans mem_entries_iff

theorem Walk.nodup (walk : m.Walk) : walk.entries.Nodup := by
  have hkeys : m.keys.Nodup := by
    refine m.pairwise_keys.imp ?_
    rintro a b hlt rfl
    simp at hlt
  exact walk.perm.nodup_iff.mpr (List.Nodup.of_map _ hkeys)

theorem Walk.filter_key [DecidableEq κ] (walk : m.Walk) (key : κ) :
    (walk.entries.filter fun entry => entry.1 = key) =
      ((m.get? key).map fun value => (key, value)).toList := by
  refine eq_toList_of_mem_iff (walk.nodup.filter _) ?_
  rintro ⟨k, value⟩
  rw [List.mem_filter, walk.mem_iff]
  constructor
  · rintro ⟨hget, hkey⟩
    obtain rfl := of_decide_eq_true hkey
    rw [hget, Option.map_some]
  · intro hget
    obtain ⟨_, hvalue, hpair⟩ := Option.map_eq_some_iff.mp hget
    cases hpair
    exact ⟨hvalue, decide_eq_true rfl⟩

end SortedMap

namespace Cache

variable {α : Type}

/-! ## The two answers -/

def lastRow (latest : List StoredEvent) (id : RoomId) : Option StoredEvent :=
  (latest.filter fun row => row.room = id).getLast?

/-- The state rows of a room, in the order in which the entries are met. -/
def rowsOf (entries : List (RoomId × List StoredEvent)) (id : RoomId) : List StoredEvent :=
  (entries.filter fun entry => entry.1 = id).flatMap (·.2)

/-- The summary of a room that a latest event and some state rows make up. -/
def filled (row : StoredEvent) (state : List StoredEvent) : RoomSummary where
  name := Event.renameAll (state.map .ofStored) ""
  lastTimestamp := Event.timestampOf row.json
  lastEvent := row.json

theorem lastRow_isSome_iff {latest : List StoredEvent} {id : RoomId} :
    (lastRow latest id).isSome = true ↔ ∃ row ∈ latest, row.room = id := by
  unfold lastRow
  rw [List.getLast?_isSome, ne_eq, List.filter_eq_nil_iff]
  simp

theorem lastRow_concat (latest : List StoredEvent) (row : StoredEvent) (id : RoomId) :
    lastRow (latest ++ [row]) id = if row.room = id then some row else lastRow latest id := by
  unfold lastRow
  rw [List.filter_append]
  split
  · next hid => rw [List.filter_cons_of_pos (by simpa using hid), List.filter_nil,
      List.getLast?_concat]
  · next hid => rw [List.filter_cons_of_neg (by simpa using hid), List.filter_nil,
      List.append_nil]

theorem rowsOf_cons (entry : RoomId × List StoredEvent)
    (rest : List (RoomId × List StoredEvent)) (id : RoomId) :
    rowsOf (entry :: rest) id =
      if entry.1 = id then entry.2 ++ rowsOf rest id else rowsOf rest id := by
  unfold rowsOf
  split
  · next hid => rw [List.filter_cons_of_pos (by simpa using hid), List.flatMap_cons]
  · next hid => rw [List.filter_cons_of_neg (by simpa using hid)]

theorem rowsOf_walk {state : SortedMap RoomId (List StoredEvent)} (walk : state.Walk)
    (id : RoomId) : rowsOf walk.entries id = (state.get? id).getD [] := by
  unfold rowsOf
  rw [walk.filter_key]
  cases state.get? id with
  | none => rfl
  | some rows => simp

/-! ## Loading -/

theorem get?_foldl_loadLatest (latest : List StoredEvent) (c : Cache α) (id : RoomId) :
    (latest.foldl loadLatest c).rooms.get? id =
      ((lastRow latest id).map fun row => filled row []).or (c.rooms.get? id) := by
  induction latest using List.reverseRecOn with
  | nil => rfl
  | append_singleton before row ih =>
      have hloaded : ((before ++ [row]).foldl loadLatest c).rooms.get? id =
          if id = row.room then some (filled row [])
          else (before.foldl loadLatest c).rooms.get? id := by
        rw [List.foldl_append]
        exact SortedMap.get?_insert _ row.room id (filled row [])
      rw [hloaded, lastRow_concat]
      by_cases hid : id = row.room
      · rw [if_pos hid, if_pos hid.symm]
        rfl
      · rw [if_neg hid, if_neg (Ne.symm hid)]
        exact ih

theorem foldl_loadLatest_eq (latest : List StoredEvent) (c : Cache α) :
    latest.foldl loadLatest c = { c with rooms := (latest.foldl loadLatest c).rooms } := by
  induction latest generalizing c with
  | nil => rfl
  | cons row rest ih => exact ih (c.loadLatest row)

theorem loadState_eq (entries : List (RoomId × List StoredEvent)) (c : Cache α) :
    (c.loadState entries).2 = { c with rooms := (c.loadState entries).2.rooms } := by
  induction entries generalizing c with
  | nil => rfl
  | cons entry rest ih =>
      unfold loadState
      split
      · exact ih _
      · rfl

theorem loadState_cons {c : Cache α} {id : RoomId} {summary : RoomSummary}
    (known : c.rooms.get? id = some summary) (rows : List StoredEvent)
    (rest : List (RoomId × List StoredEvent)) :
    c.loadState ((id, rows) :: rest) = (c.assign ⟨id, summary.named rows⟩).loadState rest := by
  rw [loadState, known, ← RoomSummary.foldl_applyName]

theorem contains_assign_of_known {c : Cache α} {room : Room}
    (known : c.rooms.contains room.id = true) (id : RoomId) :
    (c.assign room).rooms.contains id = c.rooms.contains id := by
  rw [Bool.eq_iff_iff]
  refine SortedMap.contains_insert.trans ⟨?_, .inr⟩
  rintro (rfl | hid)
  · exact known
  · exact hid

/-- When every room with state is known, all of them are named by their rows. -/
theorem loadState_of_known {entries : List (RoomId × List StoredEvent)} {c : Cache α}
    (known : ∀ entry ∈ entries, c.rooms.contains entry.1 = true) :
    (c.loadState entries).1 = .ok () ∧
      ∀ id, (c.loadState entries).2.rooms.get? id =
        (c.rooms.get? id).map fun summary => summary.named (rowsOf entries id) := by
  induction entries generalizing c with
  | nil => exact ⟨rfl, fun id => Option.map_id'.symm⟩
  | cons entry rest ih =>
      obtain ⟨room, rows⟩ := entry
      have hroom := known _ List.mem_cons_self
      obtain ⟨summary, hsummary⟩ := SortedMap.contains_iff.mp hroom
      have hrest : ∀ entry ∈ rest,
          (c.assign ⟨room, summary.named rows⟩).rooms.contains entry.1 = true := by
        intro entry hentry
        rw [contains_assign_of_known hroom]
        exact known entry (List.mem_cons_of_mem _ hentry)
      rw [loadState_cons hsummary]
      refine ⟨(ih hrest).1, fun id => ?_⟩
      rw [(ih hrest).2, rowsOf_cons]
      change ((c.rooms.insert room _).get? id).map _ = _
      rw [SortedMap.get?_insert]
      by_cases hid : id = room
      · subst hid
        rw [if_pos rfl, if_pos rfl, hsummary, Option.map_some, Option.map_some,
          RoomSummary.named_append]
      · rw [if_neg hid, if_neg (Ne.symm hid)]

/-- A room with state that is not known is what loading fails by. -/
theorem loadState_of_unknown {entries : List (RoomId × List StoredEvent)} {c : Cache α}
    (unknown : ∃ entry ∈ entries, ¬ c.rooms.contains entry.1 = true) :
    ∃ entry ∈ entries, ¬ c.rooms.contains entry.1 = true ∧
      (c.loadState entries).1 = .error (.stateWithoutLatest entry.1) := by
  induction entries generalizing c with
  | nil => simp at unknown
  | cons entry rest ih =>
      obtain ⟨room, rows⟩ := entry
      by_cases hroom : c.rooms.contains room = true
      · obtain ⟨summary, hsummary⟩ := SortedMap.contains_iff.mp hroom
        have hsame : ∀ id, (c.assign ⟨room, summary.named rows⟩).rooms.contains id =
            c.rooms.contains id :=
          contains_assign_of_known hroom
        obtain ⟨entry, hentry, hunknown⟩ := unknown
        rcases List.mem_cons.mp hentry with rfl | hentry
        · exact absurd hroom hunknown
        · rw [loadState_cons hsummary]
          obtain ⟨found, hfound, hnot, herror⟩ :=
            ih ⟨entry, hentry, by rw [hsame]; exact hunknown⟩
          rw [hsame] at hnot
          exact ⟨found, List.mem_cons_of_mem _ hfound, hnot, herror⟩
      · have hnone : c.rooms.get? room = none := by
          unfold SortedMap.contains at hroom
          simpa using hroom
        refine ⟨_, List.mem_cons_self, hroom, ?_⟩
        rw [loadState, hnone]

/-! ## Populations -/

/-- Storage is asked for the state events that name rooms and for no others. -/
theorem populate_answering_congr (c : Cache α) (latest : Except SyncError (List StoredEvent))
    {state state' : List String → Except SyncError (List (RoomId × List StoredEvent))}
    (h : state nameTypes = state' nameTypes) :
    c.populate (.answering latest state) = c.populate (.answering latest state') := by
  unfold populate loadRooms Storage.answering
  dsimp only
  rw [h]

def withLatest (c : Cache α) (latest : List StoredEvent) : Cache α :=
  latest.foldl loadLatest { c with phase := .populating }

theorem get?_withLatest (c : Cache α) (latest : List StoredEvent) (id : RoomId) :
    (c.withLatest latest).rooms.get? id =
      ((lastRow latest id).map fun row => filled row []).or (c.rooms.get? id) :=
  get?_foldl_loadLatest latest { c with phase := .populating } id

theorem contains_withLatest {c : Cache α} {latest : List StoredEvent} {id : RoomId} :
    (c.withLatest latest).rooms.contains id = true ↔
      (∃ row ∈ latest, row.room = id) ∨ c.rooms.contains id = true := by
  unfold SortedMap.contains
  rw [get?_withLatest, Option.isSome_or, Option.isSome_map, Bool.or_eq_true, lastRow_isSome_iff]

section

variable {c : Cache α} (new : c.phase = .uninitialized) (latest : List StoredEvent)

include new

/-- A population leaves the listeners as they are, and no rooms when it fails. -/
theorem populate_answering (entries : List (RoomId × List StoredEvent)) :
    let loaded := (c.withLatest latest).loadState entries
    c.populate (.answering (.ok latest) fun _ => .ok entries) =
      ⟨loaded.1,
        match loaded.1 with
        | .ok () => { c with phase := .live, rooms := loaded.2.rooms }
        | .error _ => { c with phase := .uninitialized, rooms := .empty },
        some nameTypes⟩ := by
  have hloaded : loadRooms { c with phase := .populating }
        (.answering (.ok latest) fun _ => .ok entries) =
      ⟨((c.withLatest latest).loadState entries).1, ((c.withLatest latest).loadState entries).2,
        some nameTypes⟩ := rfl
  have hframe : ((c.withLatest latest).loadState entries).2 =
      { c with
        phase := .populating
        rooms := ((c.withLatest latest).loadState entries).2.rooms } := by
    rw [loadState_eq]
    unfold withLatest
    rw [foldl_loadLatest_eq]
  unfold populate
  rw [beginPopulation_of_new new]
  dsimp only
  rw [hloaded]
  dsimp only
  generalize (c.withLatest latest).loadState entries = loaded at hframe ⊢
  obtain ⟨outcome, cache⟩ := loaded
  dsimp only at hframe ⊢
  rw [hframe]
  cases outcome <;> rfl

variable {state : SortedMap RoomId (List StoredEvent)} (walk : state.Walk)

/--
When every room with state has a latest event or is known already, a cache that can be
populated is. The rooms of the latest events replace what was known of them.
-/
theorem populate_of_known
    (known : ∀ id, state.contains id = true → (c.withLatest latest).rooms.contains id = true) :
    ∃ rooms,
      c.populate (.answering (.ok latest) fun _ => .ok walk.entries) =
        ⟨.ok (), { c with phase := .live, rooms := rooms }, some nameTypes⟩ ∧
      ∀ id, rooms.get? id =
        (((lastRow latest id).map fun row => filled row []).or (c.rooms.get? id)).map
          fun summary => summary.named ((state.get? id).getD []) := by
  have hentries : ∀ entry ∈ walk.entries,
      (c.withLatest latest).rooms.contains entry.1 = true := by
    intro entry hentry
    exact known entry.1 (SortedMap.contains_iff.mpr ⟨entry.2, walk.mem_iff.mp hentry⟩)
  obtain ⟨houtcome, hrooms⟩ := loadState_of_known hentries
  refine ⟨((c.withLatest latest).loadState walk.entries).2.rooms, ?_, fun id => ?_⟩
  · rw [populate_answering new, houtcome]
  · rw [hrooms, get?_withLatest, rowsOf_walk]

theorem populate_of_unknown
    (unknown : ¬ ∀ id, state.contains id = true →
      (c.withLatest latest).rooms.contains id = true) :
    ∃ id, state.contains id = true ∧ ¬ (c.withLatest latest).rooms.contains id = true ∧
      c.populate (.answering (.ok latest) fun _ => .ok walk.entries) =
        ⟨.error (.stateWithoutLatest id), { c with phase := .uninitialized, rooms := .empty },
          some nameTypes⟩ := by
  obtain ⟨id, hid⟩ := not_forall.mp unknown
  obtain ⟨hstate, hnot⟩ := Classical.not_imp.mp hid
  obtain ⟨rows, hrows⟩ := SortedMap.contains_iff.mp hstate
  obtain ⟨entry, hentry, hunknown, herror⟩ :=
    loadState_of_unknown ⟨(id, rows), walk.mem_iff.mpr hrows, hnot⟩
  refine ⟨entry.1, SortedMap.contains_iff.mpr ⟨entry.2, walk.mem_iff.mp hentry⟩, hunknown, ?_⟩
  rw [populate_answering new, herror]

theorem populate_eq_ok_iff :
    (c.populate (.answering (.ok latest) fun _ => .ok walk.entries)).outcome = .ok () ↔
      ∀ id, state.contains id = true → (c.withLatest latest).rooms.contains id = true := by
  by_cases known : ∀ id, state.contains id = true →
      (c.withLatest latest).rooms.contains id = true
  · obtain ⟨rooms, hpopulation, -⟩ := populate_of_known new latest walk known
    rw [hpopulation]
    exact iff_of_true rfl known
  · obtain ⟨id, -, -, hpopulation⟩ := populate_of_unknown new latest walk known
    rw [hpopulation]
    exact iff_of_false (by simp) known

end

/-! ## Caches without rooms -/

/-- A cache that knows no room and can be populated, with any listeners. -/
def fresh (subscriptions : SortedMap Nat (Subscription α)) (nextHandle : Nat) : Cache α where
  subscriptions := subscriptions
  nextHandle := nextHandle

section Fresh

variable (subscriptions : SortedMap Nat (Subscription α)) (nextHandle : Nat)
  (latest : List StoredEvent) (state : SortedMap RoomId (List StoredEvent)) (walk : state.Walk)

theorem contains_withLatest_fresh {id : RoomId} :
    ((fresh subscriptions nextHandle).withLatest latest).rooms.contains id = true ↔
      ∃ row ∈ latest, row.room = id :=
  contains_withLatest.trans (or_iff_left Bool.false_ne_true)

theorem populate_fresh_of_known
    (known : ∀ id, state.contains id = true → ∃ row ∈ latest, row.room = id) :
    ∃ rooms,
      (fresh subscriptions nextHandle).populate
          (.answering (.ok latest) fun _ => .ok walk.entries) =
        ⟨.ok (), ⟨.live, rooms, subscriptions, nextHandle⟩, some nameTypes⟩ ∧
      ∀ id, rooms.get? id =
        (lastRow latest id).map fun row => filled row ((state.get? id).getD []) := by
  obtain ⟨rooms, hpopulation, hrooms⟩ :=
    populate_of_known (c := fresh subscriptions nextHandle) rfl latest walk fun id hid =>
      contains_withLatest.mpr (.inl (known id hid))
  refine ⟨rooms, hpopulation, fun id => ?_⟩
  have hnone : (fresh subscriptions nextHandle).rooms.get? id = none := rfl
  rw [hrooms, hnone, Option.or_none, Option.map_map]
  rfl

theorem populate_fresh_of_unknown
    (unknown : ¬ ∀ id, state.contains id = true → ∃ row ∈ latest, row.room = id) :
    ∃ id, state.contains id = true ∧ (∀ row ∈ latest, row.room ≠ id) ∧
      (fresh subscriptions nextHandle).populate
          (.answering (.ok latest) fun _ => .ok walk.entries) =
        ⟨.error (.stateWithoutLatest id), fresh subscriptions nextHandle, some nameTypes⟩ := by
  have hunknown : ¬ ∀ id, state.contains id = true →
      ((fresh subscriptions nextHandle).withLatest latest).rooms.contains id = true :=
    fun h => unknown fun id hid =>
      (contains_withLatest_fresh subscriptions nextHandle latest).mp (h id hid)
  obtain ⟨id, hstate, hnot, hpopulation⟩ := populate_of_unknown rfl latest walk hunknown
  refine ⟨id, hstate, fun row hrow hid => hnot ?_, hpopulation⟩
  exact (contains_withLatest_fresh subscriptions nextHandle latest).mpr ⟨row, hrow, hid⟩

end Fresh

/--
Storage that answers fills a cache without rooms exactly when every room with state
has a latest event: with the rooms of the latest events, each as its last row and
its state rows make it up. Otherwise the population fails for a room that has no
latest event. In which order the rooms with state are met makes no difference to the
kind of the outcome, nor to the cache.
-/
theorem population_holds_latest_rows (subscriptions : SortedMap Nat (Subscription α))
    (nextHandle : Nat) (latest : List StoredEvent) (state : SortedMap RoomId (List StoredEvent))
    (walk : state.Walk) :
    let population := (fresh subscriptions nextHandle).populate
      (.answering (.ok latest) fun _ => .ok walk.entries)
    (population.outcome = .ok () ↔
        ∀ id, state.contains id = true → ∃ row ∈ latest, row.room = id) ∧
      (population.outcome ≠ .ok () →
        population.outcome.mapError SyncError.kind = .error .invariant ∧
          ∃ id, state.contains id = true ∧ (∀ row ∈ latest, row.room ≠ id) ∧
            population.outcome = .error (.stateWithoutLatest id)) ∧
      (population.outcome = .ok () →
        population.cache.phase = .live ∧
          ∀ id, population.cache.rooms.get? id =
            (lastRow latest id).map fun row => filled row ((state.get? id).getD [])) ∧
      ∀ other : state.Walk,
        let again := (fresh subscriptions nextHandle).populate
          (.answering (.ok latest) fun _ => .ok other.entries)
        again.outcome.mapError SyncError.kind = population.outcome.mapError SyncError.kind ∧
          again.cache = population.cache := by
  dsimp only
  by_cases known : ∀ id, state.contains id = true → ∃ row ∈ latest, row.room = id
  · obtain ⟨rooms, hpopulation, hrooms⟩ :=
      populate_fresh_of_known subscriptions nextHandle latest state walk known
    rw [hpopulation]
    refine ⟨iff_of_true rfl known, fun h => absurd rfl h, fun _ => ⟨rfl, hrooms⟩, fun other => ?_⟩
    obtain ⟨rooms', hagain, hrooms'⟩ :=
      populate_fresh_of_known subscriptions nextHandle latest state other known
    have hsame : rooms' = rooms :=
      SortedMap.ext_get? fun id => (hrooms' id).trans (hrooms id).symm
    rw [hagain, hsame]
    exact ⟨rfl, rfl⟩
  · obtain ⟨id, hstate, hlatest, hpopulation⟩ :=
      populate_fresh_of_unknown subscriptions nextHandle latest state walk known
    rw [hpopulation]
    refine ⟨iff_of_false (by simp) known, fun _ => ⟨rfl, id, hstate, hlatest, rfl⟩, by simp,
      fun other => ?_⟩
    obtain ⟨id', -, -, hagain⟩ :=
      populate_fresh_of_unknown subscriptions nextHandle latest state other known
    rw [hagain]
    exact ⟨rfl, rfl⟩

end Cache

end SlidingSync
