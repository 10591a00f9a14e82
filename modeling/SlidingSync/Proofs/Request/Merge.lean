import SlidingSync.Request
import Mathlib.Tactic.Tauto

/-! # Merging, one name and one room at a time

A merge walks over the lists and the rooms of a body while it changes the maps it reads. Names and
rooms are met at most once on a walk over ascending entries, so what becomes of a list depends only
on what stood under its own name, and what becomes of a subscription only on its own room. The
statements here are the look-ups of a merged request and of its delta.
-/

namespace SlidingSync

/-- What becomes of a list that a body names. -/
def RoomList.after (existing : Option RoomList) (next : RoomList) : Option RoomList :=
  if next.deleted then none else some (RoomList.merge existing next)

/-- The delta of a list across a merge, none when the merge left it alone. -/
def ListDelta.between (prev curr : Option RoomList) : Option ListDelta :=
  if prev = curr then none else some ⟨prev, curr⟩

@[simp] theorem ListDelta.between_self (list : Option RoomList) : between list list = none := by
  simp [between]

theorem ListDelta.between_eq_none_iff {prev curr : Option RoomList} :
    between prev curr = none ↔ prev = curr := by
  unfold between
  split <;> simp [*]

theorem ListDelta.eq_of_between {prev curr : Option RoomList} {delta : ListDelta}
    (h : between prev curr = some delta) : delta = ⟨prev, curr⟩ := by
  unfold between at h
  split at h
  · contradiction
  · exact (Option.some.inj h).symm

namespace Request

/-! ## Lists -/

theorem mergeList_inForce (l : Listing) (name : String) (next : RoomList) :
    (mergeList l (name, next)).inForce.get? name = RoomList.after (l.inForce.get? name) next := by
  unfold mergeList RoomList.after
  by_cases hd : next.deleted = true
  · cases he : l.inForce.get? name with
    | none => simp [hd, he]
    | some existing => simp [hd, SortedMap.get?_erase]
  · simp [hd]

theorem mergeList_changed (l : Listing) (name : String) (next : RoomList) :
    (mergeList l (name, next)).changed.get? name =
      (ListDelta.between (l.inForce.get? name)
        (RoomList.after (l.inForce.get? name) next)).or (l.changed.get? name) := by
  unfold mergeList RoomList.after ListDelta.between
  by_cases hd : next.deleted = true
  · cases he : l.inForce.get? name with
    | none => simp [hd]
    | some existing => simp [hd]
  · simp only [hd, Bool.false_eq_true, ↓reduceIte]
    split <;> simp

theorem mergeList_of_ne (l : Listing) {entry : String × RoomList} {name : String}
    (h : entry.1 ≠ name) :
    (mergeList l entry).inForce.get? name = l.inForce.get? name ∧
      (mergeList l entry).changed.get? name = l.changed.get? name := by
  have hne : name ≠ entry.1 := Ne.symm h
  unfold mergeList
  by_cases hd : entry.2.deleted = true
  · cases he : l.inForce.get? entry.1 with
    | none => simp [hd]
    | some existing => simp [hd, SortedMap.get?_erase, SortedMap.get?_insert, hne]
  · simp only [hd, Bool.false_eq_true, ↓reduceIte]
    split <;> simp [SortedMap.get?_insert, hne]

/-- A list in force after a merge is decided by what stood under its name. -/
theorem mergeLists_inForce (prev : SortedMap String RoomList) (body : Request) (name : String) :
    (mergeLists prev body).inForce.get? name =
      (body.lists.get? name).elim (prev.get? name) (RoomList.after (prev.get? name)) :=
  SortedMap.view_foldl (fun l : Listing => l.inForce.get? name) RoomList.after
    (fun l next => mergeList_inForce l name next)
    (fun l _ h => (mergeList_of_ne l h).1) body.lists ⟨prev, .empty⟩

/-- What stands under a name, in force and as changed, after the body's list of that name. -/
def listStep (seen : Option RoomList × Option ListDelta) (next : RoomList) :
    Option RoomList × Option ListDelta :=
  (RoomList.after seen.1 next,
    (ListDelta.between seen.1 (RoomList.after seen.1 next)).or seen.2)

/-- The walk reports a list exactly when the merge changed what stands under its name. -/
theorem mergeLists_changed (prev : SortedMap String RoomList) (body : Request) (name : String) :
    (mergeLists prev body).changed.get? name =
      ListDelta.between (prev.get? name) ((mergeLists prev body).inForce.get? name) := by
  have walk : ((mergeLists prev body).inForce.get? name, (mergeLists prev body).changed.get? name) =
      (body.lists.get? name).elim (prev.get? name, none) (listStep (prev.get? name, none)) :=
    SortedMap.view_foldl (fun l : Listing => (l.inForce.get? name, l.changed.get? name)) listStep
      (fun l next => by rw [mergeList_inForce, mergeList_changed]; rfl)
      (fun l _ h => by rw [(mergeList_of_ne l h).1, (mergeList_of_ne l h).2])
      body.lists ⟨prev, .empty⟩
  obtain ⟨hin, hchanged⟩ := Prod.mk.inj walk
  cases h : body.lists.get? name <;> simp_all [listStep]

/-! ## Rooms that leave -/

theorem unsubscribeRoom_inForce (body : Request) (s : Subscribing) (room r : RoomId) :
    (unsubscribeRoom body s room).inForce.get? r =
      if r = room ∧ body.subscriptions.contains r = false then none else s.inForce.get? r := by
  unfold unsubscribeRoom
  by_cases hkept : body.subscriptions.contains room = true
  · rw [if_pos hkept, if_neg]
    rintro ⟨rfl, hr⟩
    rw [hkept] at hr
    contradiction
  · have hleft : body.subscriptions.contains room = false := by simpa using hkept
    rw [if_neg hkept]
    by_cases hin : s.inForce.contains room = true
    · rw [if_pos hin]
      by_cases hr : r = room <;> simp [SortedMap.get?_erase, hr, hleft]
    · rw [if_neg hin]
      by_cases hr : r = room
      · subst hr
        have hnone : s.inForce.get? r = none := by simpa [SortedMap.contains] using hin
        rw [hnone, ite_self]
      · simp [hr]

theorem departures_inForce (body : Request) (rooms : List RoomId) (s : Subscribing) (r : RoomId) :
    (rooms.foldl (unsubscribeRoom body) s).inForce.get? r =
      if r ∈ rooms ∧ body.subscriptions.contains r = false then none else s.inForce.get? r := by
  induction rooms generalizing s with
  | nil => simp
  | cons room rest ih =>
      rw [List.foldl_cons, ih, unsubscribeRoom_inForce]
      by_cases hkept : body.subscriptions.contains r = false
      · by_cases hr : r = room
        · subst hr
          simp [hkept]
        · simp [hkept, hr]
      · simp [hkept]

theorem departures_subs (body : Request) (rooms : List RoomId) (s : Subscribing) :
    (rooms.foldl (unsubscribeRoom body) s).subs = s.subs := by
  induction rooms generalizing s with
  | nil => rfl
  | cons room rest ih =>
      rw [List.foldl_cons, ih]
      unfold unsubscribeRoom
      split
      · rfl
      · split <;> rfl

theorem mem_unsubscribeRoom_unsubs (body : Request) (s : Subscribing) (room r : RoomId) :
    r ∈ (unsubscribeRoom body s room).unsubs ↔
      r ∈ s.unsubs ∨
        (r = room ∧ body.subscriptions.contains r = false ∧ s.inForce.contains r = true) := by
  unfold unsubscribeRoom
  by_cases hkept : body.subscriptions.contains room = true
  · rw [if_pos hkept]
    constructor
    · exact .inl
    · rintro (h | ⟨rfl, hr, -⟩)
      · exact h
      · rw [hkept] at hr
        contradiction
  · rw [if_neg hkept]
    by_cases hin : s.inForce.contains room = true
    · rw [if_pos hin]
      by_cases hr : r = room
      · subst hr
        by_cases hseen : r ∈ s.unsubs <;> simp_all
      · by_cases hseen : room ∈ s.unsubs <;> simp [hr, hseen]
    · rw [if_neg hin]
      constructor
      · exact .inl
      · rintro (h | ⟨rfl, -, hr⟩)
        · exact h
        · exact absurd hr hin

/-- A room that left is no longer in force, so it is not reported when it is named again. -/
theorem mem_departures_unsubs (body : Request) (rooms : List RoomId) (s : Subscribing)
    (r : RoomId) :
    r ∈ (rooms.foldl (unsubscribeRoom body) s).unsubs ↔
      r ∈ s.unsubs ∨
        (r ∈ rooms ∧ body.subscriptions.contains r = false ∧ s.inForce.contains r = true) := by
  induction rooms generalizing s with
  | nil => simp
  | cons room rest ih =>
      have hstill : (unsubscribeRoom body s room).inForce.contains r = true ↔
          ¬ (r = room ∧ body.subscriptions.contains r = false) ∧ s.inForce.contains r = true := by
        change ((unsubscribeRoom body s room).inForce.get? r).isSome = true ↔ _
        rw [unsubscribeRoom_inForce]
        split
        · next hgone => exact ⟨fun hin => by simp at hin, fun hin => absurd hgone hin.1⟩
        · next hstays => exact ⟨fun hin => ⟨hstays, hin⟩, fun hin => hin.2⟩
      rw [List.foldl_cons, ih, mem_unsubscribeRoom_unsubs, hstill, List.mem_cons]
      tauto

theorem nodup_departures_unsubs (body : Request) (rooms : List RoomId) (s : Subscribing)
    (h : s.unsubs.Nodup) : (rooms.foldl (unsubscribeRoom body) s).unsubs.Nodup := by
  induction rooms generalizing s with
  | nil => exact h
  | cons room rest ih =>
      rw [List.foldl_cons]
      apply ih
      unfold unsubscribeRoom
      split
      · exact h
      · split
        · dsimp only
          split
          · exact h
          · next hnew =>
            have hnotin : room ∉ s.unsubs := by simpa using hnew
            exact List.nodup_append.mpr
              ⟨h, by simp, fun a ha b hb => by
                rw [List.mem_singleton.mp hb]
                exact fun heq => hnotin (heq ▸ ha)⟩
        · exact h

/-! ## Rooms that arrive -/

/-- What becomes of a room that a body subscribes. -/
def arrival (body : Request) (room : RoomId) (existing : Option RoomSubscription)
    (sub : RoomSubscription) : Option RoomSubscription :=
  if existing = none ∧ room ∈ body.unsubscribe then none else some sub

theorem subscribeRoom_inForce (body : Request) (s : Subscribing) (room : RoomId)
    (sub : RoomSubscription) :
    (subscribeRoom body s (room, sub)).inForce.get? room =
      arrival body room (s.inForce.get? room) sub := by
  unfold subscribeRoom SortedMap.contains arrival
  dsimp only
  cases hin : s.inForce.get? room with
  | some old => simp
  | none => by_cases hleaves : room ∈ body.unsubscribe <;> simp [hleaves, hin]

theorem subscribeRoom_of_ne (body : Request) (s : Subscribing) {entry : RoomId × RoomSubscription}
    {r : RoomId} (h : entry.1 ≠ r) :
    (subscribeRoom body s entry).inForce.get? r = s.inForce.get? r := by
  have hne : r ≠ entry.1 := Ne.symm h
  unfold subscribeRoom
  split
  · exact SortedMap.get?_insert_of_ne hne
  · split
    · rfl
    · exact SortedMap.get?_insert_of_ne hne

theorem subscribeRoom_unsubs (body : Request) (s : Subscribing) (entry : RoomId × RoomSubscription) :
    (subscribeRoom body s entry).unsubs = s.unsubs := by
  unfold subscribeRoom
  split
  · rfl
  · split <;> rfl

theorem arrivals_unsubs (body : Request) (entries : List (RoomId × RoomSubscription))
    (s : Subscribing) : (entries.foldl (subscribeRoom body) s).unsubs = s.unsubs := by
  induction entries generalizing s with
  | nil => rfl
  | cons entry rest ih => rw [List.foldl_cons, ih, subscribeRoom_unsubs]

/-- Whether a room that the body subscribes is new: not in force, and not to leave either. -/
def isNew (body : Request) (s : Subscribing) (room : RoomId) : Bool :=
  !s.inForce.contains room && !body.unsubscribe.contains room

theorem subscribeRoom_subs (body : Request) (s : Subscribing) (entry : RoomId × RoomSubscription) :
    (subscribeRoom body s entry).subs = s.subs ++ [entry.1].filter (isNew body s) := by
  unfold subscribeRoom isNew
  by_cases hin : s.inForce.contains entry.1 = true
  · simp [hin]
  · by_cases hleaves : entry.1 ∈ body.unsubscribe <;> simp [hin, hleaves]

/-- Later rooms of the walk are other rooms, so the start of the walk decides which are new. -/
theorem arrivals_subs (body : Request) {entries : List (RoomId × RoomSubscription)}
    (h : SortedMap.Ascending entries) (s : Subscribing) :
    (entries.foldl (subscribeRoom body) s).subs =
      s.subs ++ (entries.map (·.1)).filter (isNew body s) := by
  induction entries generalizing s with
  | nil => simp
  | cons entry rest ih =>
      have hhead := List.pairwise_cons.mp h
      have hrest : (rest.map (·.1)).filter (isNew body (subscribeRoom body s entry)) =
          (rest.map (·.1)).filter (isNew body s) := by
        apply List.filter_congr
        intro room hroom
        obtain ⟨e, he, rfl⟩ := List.mem_map.mp hroom
        have hne : entry.1 ≠ e.1 := fun heq => by
          have hlt := hhead.1 e he
          simp [heq] at hlt
        unfold isNew SortedMap.contains
        rw [subscribeRoom_of_ne body s hne]
      rw [List.foldl_cons, ih hhead.2, subscribeRoom_subs, hrest, List.append_assoc,
        ← List.filter_append]
      rfl

/-! ## Subscriptions after a body -/

/-- The subscription of a room after a merge is decided by what the room had before. -/
theorem mergeSubscriptions_inForce (prev : SortedMap RoomId RoomSubscription) (body : Request)
    (r : RoomId) :
    (mergeSubscriptions prev body).inForce.get? r =
      (body.subscriptions.get? r).elim (if r ∈ body.unsubscribe then none else prev.get? r)
        (arrival body r (prev.get? r)) := by
  have walk := SortedMap.view_foldl (fun s : Subscribing => s.inForce.get? r) (arrival body r)
    (fun s sub => subscribeRoom_inForce body s r sub) (fun s _ h => subscribeRoom_of_ne body s h)
    body.subscriptions (body.unsubscribe.foldl (unsubscribeRoom body) ⟨prev, [], []⟩)
  change (mergeSubscriptions prev body).inForce.get? r = _ at walk
  rw [walk, departures_inForce]
  cases hnext : body.subscriptions.get? r <;> simp [SortedMap.contains, hnext]

theorem mergeSubscriptions_subs (prev : SortedMap RoomId RoomSubscription) (body : Request) :
    (mergeSubscriptions prev body).subs =
      body.subscriptions.keys.filter fun r =>
        !prev.contains r && !body.unsubscribe.contains r := by
  unfold mergeSubscriptions
  dsimp only
  rw [arrivals_subs body body.subscriptions.ascending, departures_subs, List.nil_append]
  apply List.filter_congr
  intro r hr
  have hkept : body.subscriptions.contains r = true := SortedMap.mem_keys_iff.mp hr
  unfold isNew SortedMap.contains
  rw [departures_inForce]
  simp [hkept]

theorem mem_mergeSubscriptions_unsubs (prev : SortedMap RoomId RoomSubscription) (body : Request)
    (r : RoomId) :
    r ∈ (mergeSubscriptions prev body).unsubs ↔
      r ∈ body.unsubscribe ∧ body.subscriptions.contains r = false ∧ prev.contains r = true := by
  unfold mergeSubscriptions
  dsimp only
  rw [arrivals_unsubs, mem_departures_unsubs]
  simp

theorem nodup_mergeSubscriptions_unsubs (prev : SortedMap RoomId RoomSubscription)
    (body : Request) : (mergeSubscriptions prev body).unsubs.Nodup := by
  unfold mergeSubscriptions
  dsimp only
  rw [arrivals_unsubs]
  exact nodup_departures_unsubs body _ _ List.nodup_nil

end Request

end SlidingSync
