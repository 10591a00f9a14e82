import SlidingSync.Proofs.Request.Delta
import Mathlib.Data.List.DropRight

/-! # Requests read off their history

The request in force is the result of merging body after body, but each of its parts can be read
off the bodies at once. A list is what the bodies gave for it since one of them last dropped it,
every field from the last body that supplied it. A room is subscribed since a body subscribed it
and none unsubscribed it, and the last body that has it says how.
-/

namespace SlidingSync

/-- The last value that the elements supply is that of the new one, or that of before. -/
theorem getLast?_filterMap_concat {α β : Type} (f : α → Option β) (l : List α) (a : α) :
    ((l ++ [a]).filterMap f).getLast? = (f a).or (l.filterMap f).getLast? := by
  rw [List.filterMap_append, List.getLast?_append]
  cases h : f a <;> simp [h]

namespace RoomList

/-! ## Fields from the last body that supplied them -/

/-- The field of a list unless it is missing. -/
def supplied {β : Type} (field : RoomList → β) (missing : β → Bool) (list : RoomList) : Option β :=
  if missing (field list) then none else some (field list)

/-- The list whose fields are the last that were supplied, the defaults where none was. -/
def gathered (given : List RoomList) : RoomList where
  ranges := (given.filterMap (supplied ranges Ranges.isEmpty)).getLast?.getD .empty
  sort := (given.filterMap (supplied sort List.isEmpty)).getLast?.getD ["by_recency"]
  filters := (given.filterMap filters).getLast?
  subscription :=
    (given.filterMap (supplied subscription RoomSubscription.isEmpty)).getLast?.getD {}
  deleted := false

theorem getLast?_supplied_concat {β : Type} (field : RoomList → β) (missing : β → Bool)
    (default : β) (given : List RoomList) (next : RoomList) :
    ((given ++ [next]).filterMap (supplied field missing)).getLast?.getD default =
      if missing (field next) then (given.filterMap (supplied field missing)).getLast?.getD default
      else field next := by
  rw [getLast?_filterMap_concat]
  unfold supplied
  split <;> rfl

theorem isEmpty_sort_gathered (given : List RoomList) : (gathered given).sort.isEmpty = false := by
  unfold gathered
  dsimp only
  cases h : (given.filterMap (supplied sort List.isEmpty)).getLast? with
  | none => rfl
  | some last =>
      obtain ⟨list, -, hlast⟩ := List.mem_filterMap.mp (List.mem_of_getLast? h)
      unfold supplied at hlast
      split at hlast
      · contradiction
      · next hne =>
        cases hlast
        simpa using hne

/-- A body goes into what was gathered as one more list that was given. -/
theorem merge_gathered (given : List RoomList) (next : RoomList) :
    merge (some (gathered given)) next = gathered (given ++ [next]) := by
  have hsort : (if next.sort.isEmpty then (gathered given).sort else next.sort).isEmpty = false := by
    split
    · exact isEmpty_sort_gathered given
    · next hne => simpa using hne
  have hfilters : (if next.filters.isSome then next.filters else (gathered given).filters) =
      next.filters.or (gathered given).filters := by
    cases next.filters <;> rfl
  unfold merge
  dsimp only [Option.getD_some]
  rw [hsort, hfilters]
  unfold gathered
  rw [getLast?_supplied_concat, getLast?_supplied_concat, getLast?_supplied_concat,
    getLast?_filterMap_concat]
  rfl

theorem merge_none (next : RoomList) : merge none next = gathered [next] := by
  -- The first list under a name is merged into the defaults, which is what nothing gathers to.
  rw [← List.nil_append [next], ← merge_gathered]
  unfold merge
  cases hsort : next.sort with
  | nil => rfl
  | cons identifier rest => rfl

/-- The list that stands when these were given since the last time it was dropped. -/
def standing (given : List RoomList) : Option RoomList :=
  if given.isEmpty then none else some (gathered given)

theorem after_standing (named : List RoomList) (next : RoomList) :
    after (standing (named.rtakeWhile (!·.deleted))) next =
      standing ((named ++ [next]).rtakeWhile (!·.deleted)) := by
  unfold after
  -- A list that is dropped starts the suffix anew, any other makes it one longer.
  by_cases hd : next.deleted = true
  · rw [if_pos hd, List.rtakeWhile_concat_neg _ _ _ (by simp [hd])]
    rfl
  · rw [if_neg hd, List.rtakeWhile_concat_pos _ _ _ (by simpa using hd)]
    cases hgiven : named.rtakeWhile (!·.deleted) with
    | nil => exact congrArg some (merge_none next)
    | cons first rest => exact congrArg some (merge_gathered (first :: rest) next)

end RoomList

namespace Request

/-! ## What stands since a body brought it -/

/-- Some body is of the first kind, and no later body is of the second. -/
def Stands (brings ends : Request → Prop) (bodies : List Request) : Prop :=
  ∃ before body after, bodies = before ++ body :: after ∧ brings body ∧
    ∀ later ∈ after, ¬ ends later

theorem not_stands_nil {brings ends : Request → Prop} : ¬ Stands brings ends [] := by
  rintro ⟨before, body, after, hsplit, -⟩
  simp at hsplit

theorem stands_concat {brings ends : Request → Prop} {bodies : List Request} {body : Request} :
    Stands brings ends (bodies ++ [body]) ↔
      brings body ∨ (Stands brings ends bodies ∧ ¬ ends body) := by
  constructor
  · rintro ⟨before, first, after, hsplit, hbrings, hlater⟩
    rcases List.eq_nil_or_concat after with rfl | ⟨rest, last, rfl⟩
    · obtain ⟨-, hlast⟩ := List.append_inj' hsplit rfl
      cases hlast
      exact .inl hbrings
    · rw [List.concat_eq_append] at hsplit hlater
      rw [← List.cons_append, ← List.append_assoc] at hsplit
      obtain ⟨hbefore, hlast⟩ := List.append_inj' hsplit rfl
      cases hlast
      refine .inr ⟨⟨before, first, rest, hbefore, hbrings, fun later h => ?_⟩, ?_⟩
      · exact hlater later (List.mem_append_left _ h)
      · exact hlater body (List.mem_append_right _ List.mem_cons_self)
  · rintro (hbrings | ⟨⟨before, first, after, rfl, hbrings, hlater⟩, hends⟩)
    · exact ⟨bodies, body, [], rfl, hbrings, by simp⟩
    · refine ⟨before, first, after ++ [body], by simp, hbrings, fun later h => ?_⟩
      rcases List.mem_append.mp h with h | h
      · exact hlater later h
      · rw [List.mem_singleton.mp h]
        exact hends

theorem mergeAll_concat (bodies : List Request) (body : Request) :
    (mergeAll none (bodies ++ [body])).getD {} = (merge (mergeAll none bodies) body).1 := by
  unfold mergeAll
  rw [List.foldl_concat]
  rfl

/-! ## Lists -/

/-- The body names the list and does not drop it. -/
def Gives (name : String) (body : Request) : Prop :=
  ∃ list, body.lists.get? name = some list ∧ list.deleted = false

def Drops (name : String) (body : Request) : Prop :=
  ∃ list, body.lists.get? name = some list ∧ list.deleted = true

/-- What the bodies give under a name after the last body that drops it. -/
def givenSince (name : String) (bodies : List Request) : List RoomList :=
  (bodies.filterMap (·.lists.get? name)).rtakeWhile (!·.deleted)

theorem givenSince_concat_unnamed {name : String} {body : Request}
    (h : body.lists.get? name = none) (bodies : List Request) :
    givenSince name (bodies ++ [body]) = givenSince name bodies := by
  unfold givenSince
  rw [List.filterMap_append]
  simp [h]

theorem givenSince_concat_named {name : String} {body : Request} {list : RoomList}
    (h : body.lists.get? name = some list) (bodies : List Request) :
    givenSince name (bodies ++ [body]) =
      (bodies.filterMap (·.lists.get? name) ++ [list]).rtakeWhile (!·.deleted) := by
  unfold givenSince
  rw [List.filterMap_append]
  simp [h]

theorem mergeAll_lists (bodies : List Request) (name : String) :
    ((mergeAll none bodies).getD {}).lists.get? name =
      RoomList.standing (givenSince name bodies) := by
  -- From the last body back: it is merged into what all bodies before it led to.
  induction bodies using List.reverseRecOn with
  | nil => rfl
  | append_singleton bodies body ih =>
      rw [mergeAll_concat]
      change (mergeLists _ body).inForce.get? name = _
      rw [mergeLists_inForce, ih]
      cases h : body.lists.get? name with
      | none => rw [givenSince_concat_unnamed h]; rfl
      | some next =>
          rw [givenSince_concat_named h]
          exact RoomList.after_standing _ next

theorem givenSince_ne_nil_iff (name : String) (bodies : List Request) :
    givenSince name bodies ≠ [] ↔ Stands (Gives name) (Drops name) bodies := by
  induction bodies using List.reverseRecOn with
  | nil => exact iff_of_false (fun h => h rfl) not_stands_nil
  | append_singleton bodies body ih =>
      rw [stands_concat, ← ih]
      unfold Gives Drops
      cases h : body.lists.get? name with
      | none => simp [givenSince_concat_unnamed h]
      | some list =>
          rw [givenSince_concat_named h, List.rtakeWhile_concat]
          cases hd : list.deleted <;> simp [hd]

/-! ## Rooms -/

/-- The body subscribes the room and does not unsubscribe it. -/
def Joins (room : RoomId) (body : Request) : Prop :=
  body.subscriptions.contains room = true ∧ room ∉ body.unsubscribe

/-- The body unsubscribes the room and does not subscribe it. -/
def Leaves (room : RoomId) (body : Request) : Prop :=
  room ∈ body.unsubscribe ∧ body.subscriptions.contains room = false

theorem mergeAll_contains_room (bodies : List Request) (room : RoomId) :
    ((mergeAll none bodies).getD {}).subscriptions.contains room = true ↔
      Stands (Joins room) (Leaves room) bodies := by
  induction bodies using List.reverseRecOn with
  | nil => exact iff_of_false (by simp [mergeAll, SortedMap.contains]) not_stands_nil
  | append_singleton bodies body ih =>
      rw [mergeAll_concat]
      change (mergeSubscriptions _ body).inForce.contains room = true ↔ _
      rw [contains_mergeSubscriptions, ih, stands_concat]
      unfold Joins Leaves
      cases body.subscriptions.contains room <;> simp
      tauto

theorem mergeSubscriptions_of_joins {body : Request} {room : RoomId} (joins : Joins room body)
    (prev : SortedMap RoomId RoomSubscription) :
    (mergeSubscriptions prev body).inForce.get? room = body.subscriptions.get? room := by
  obtain ⟨sub, hsub⟩ := SortedMap.contains_iff.mp joins.1
  rw [mergeSubscriptions_inForce, hsub]
  exact if_neg fun h => joins.2 h.2

theorem mergeSubscriptions_of_stays {body : Request} {room : RoomId}
    {prev : SortedMap RoomId RoomSubscription} (inForce : prev.contains room = true)
    (stays : ¬ Leaves room body) :
    (mergeSubscriptions prev body).inForce.get? room =
      (body.subscriptions.get? room).or (prev.get? room) := by
  obtain ⟨old, hold⟩ := SortedMap.contains_iff.mp inForce
  rw [mergeSubscriptions_inForce, hold]
  cases hsub : body.subscriptions.get? room with
  | some sub => simp [arrival]
  | none => exact if_neg fun h => stays ⟨h, by simp [SortedMap.contains, hsub]⟩

theorem mergeAll_room {room : RoomId} {body : Request} (joins : Joins room body)
    (before : List Request) {after : List Request} (stays : ∀ later ∈ after, ¬ Leaves room later) :
    ((mergeAll none (before ++ body :: after)).getD {}).subscriptions.get? room =
      ((body :: after).filterMap (·.subscriptions.get? room)).getLast? := by
  induction after using List.reverseRecOn with
  | nil =>
      obtain ⟨sub, hsub⟩ := SortedMap.contains_iff.mp joins.1
      rw [mergeAll_concat]
      change (mergeSubscriptions _ body).inForce.get? room = _
      rw [mergeSubscriptions_of_joins joins]
      simp [hsub]
  | append_singleton after last ih =>
      -- The room is in force before the last body, so that one cannot be its first.
      have hearlier : ∀ later ∈ after, ¬ Leaves room later := fun later h =>
        stays later (List.mem_append_left _ h)
      have hin : ((mergeAll none (before ++ body :: after)).getD {}).subscriptions.contains room =
          true := (mergeAll_contains_room _ room).mpr ⟨before, body, after, rfl, joins, hearlier⟩
      rw [← List.cons_append, ← List.append_assoc, mergeAll_concat, getLast?_filterMap_concat,
        ← ih hearlier]
      exact mergeSubscriptions_of_stays hin (stays last (by simp))

theorem mergeAll_unsubscribe (bodies : List Request) :
    ((mergeAll none bodies).getD {}).unsubscribe = [] := by
  induction bodies using List.reverseRecOn with
  | nil => rfl
  | append_singleton bodies body _ => rw [mergeAll_concat]; rfl

/-! ## The whole request -/

/-- What a request is when merging the bodies one after the other led to it. -/
structure ReadOff (bodies : List Request) (r : Request) : Prop where
  lists_contains : ∀ name,
    r.lists.contains name = true ↔ Stands (Gives name) (Drops name) bodies
  lists_get? : ∀ name list,
    r.lists.get? name = some list → list = RoomList.gathered (givenSince name bodies)
  subscriptions_contains : ∀ room,
    r.subscriptions.contains room = true ↔ Stands (Joins room) (Leaves room) bodies
  subscriptions_get? : ∀ room before body after, bodies = before ++ body :: after →
    Joins room body → (∀ later ∈ after, ¬ Leaves room later) →
      r.subscriptions.get? room =
        ((body :: after).filterMap (·.subscriptions.get? room)).getLast?
  unsubscribe : r.unsubscribe = []

/--
Whatever bodies came, each list and each subscription of the request in force is read
off those bodies that speak of it.
-/
theorem in_force_read_off_bodies (bodies : List Request) :
    ReadOff bodies ((mergeAll none bodies).getD {}) where
  lists_contains := by
    intro name
    rw [← givenSince_ne_nil_iff]
    unfold SortedMap.contains
    rw [mergeAll_lists]
    unfold RoomList.standing
    cases givenSince name bodies <;> simp
  lists_get? := by
    intro name list hlist
    rw [mergeAll_lists] at hlist
    unfold RoomList.standing at hlist
    split at hlist
    · contradiction
    · exact (Option.some.inj hlist).symm
  subscriptions_contains := mergeAll_contains_room bodies
  subscriptions_get? := by
    rintro room before body after rfl joins stays
    exact mergeAll_room joins before stays
  unsubscribe := mergeAll_unsubscribe bodies

end Request

end SlidingSync
