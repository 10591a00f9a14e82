import SlidingSync.Proofs.Request.Merge
import Mathlib.Data.Finset.Dedup
import Mathlib.Data.Finset.Lattice.Basic
import Mathlib.Data.Finset.SDiff

/-! # Deltas say exactly what changed

A delta lists the rooms that a merge subscribed and unsubscribed and pairs the values of every list
it touched. Whoever reads only the deltas therefore knows, after any number of bodies, which rooms
are subscribed and what every list of the request in force is.
-/

namespace SlidingSync

/-- The delta names what differs between two requests, and nothing else. -/
structure RequestDelta.Exact (delta : RequestDelta) (old new : Request) : Prop where
  ascending : delta.subs.Pairwise fun a b => compare a b = .lt
  mem_subs : ∀ room, room ∈ delta.subs ↔
    new.subscriptions.contains room = true ∧ old.subscriptions.contains room = false
  nodup : delta.unsubs.Nodup
  mem_unsubs : ∀ room, room ∈ delta.unsubs ↔
    old.subscriptions.contains room = true ∧ new.subscriptions.contains room = false
  lists : ∀ name, delta.lists.get? name =
    if old.lists.get? name = new.lists.get? name then none
    else some ⟨old.lists.get? name, new.lists.get? name⟩

namespace Request

/-! ## One merge -/

theorem contains_mergeSubscriptions (prev : SortedMap RoomId RoomSubscription) (body : Request)
    (room : RoomId) :
    (mergeSubscriptions prev body).inForce.contains room = true ↔
      (body.subscriptions.contains room = true ∧
          (prev.contains room = true ∨ room ∉ body.unsubscribe)) ∨
        (body.subscriptions.contains room = false ∧
          prev.contains room = true ∧ room ∉ body.unsubscribe) := by
  unfold SortedMap.contains
  rw [mergeSubscriptions_inForce]
  unfold arrival
  cases body.subscriptions.get? room <;> cases prev.get? room <;>
    by_cases hleaves : room ∈ body.unsubscribe <;> simp [hleaves]

theorem exact_merge (prev : Option Request) (body : Request) :
    (merge prev body).2.Exact (prev.getD {}) (merge prev body).1 where
  ascending := by
    change (mergeSubscriptions _ body).subs.Pairwise _
    rw [mergeSubscriptions_subs]
    exact body.subscriptions.pairwise_keys.filter _
  mem_subs := by
    intro room
    change room ∈ (mergeSubscriptions _ body).subs ↔
      (mergeSubscriptions _ body).inForce.contains room = true ∧ _
    rw [mergeSubscriptions_subs, contains_mergeSubscriptions, List.mem_filter,
      SortedMap.mem_keys_iff]
    cases (prev.getD {}).subscriptions.contains room <;> simp
  nodup := nodup_mergeSubscriptions_unsubs _ body
  mem_unsubs := by
    intro room
    change room ∈ (mergeSubscriptions _ body).unsubs ↔
      _ ∧ (mergeSubscriptions _ body).inForce.contains room = false
    rw [mem_mergeSubscriptions_unsubs, ← Bool.not_eq_true ((mergeSubscriptions _ body).inForce.contains room),
      contains_mergeSubscriptions]
    cases (prev.getD {}).subscriptions.contains room <;>
      cases body.subscriptions.contains room <;> simp
  lists := mergeLists_changed _ body

end Request

/-! ## Following deltas -/

/-- What deltas alone tell: the subscribed rooms, and every list. -/
@[ext]
structure Mirror where
  rooms : Finset RoomId := ∅
  lists : SortedMap String RoomList := .empty

namespace Mirror

/-- What the deltas up to a request should have told. -/
def of (r : Request) : Mirror :=
  ⟨r.subscriptions.keys.toFinset, r.lists⟩

/-- A list set to its new value, or dropped. -/
def followList (lists : SortedMap String RoomList) (entry : String × ListDelta) :
    SortedMap String RoomList :=
  match entry.2.curr with
  | some list => lists.insert entry.1 list
  | none => lists.erase entry.1

/-- One more delta: rooms leave, rooms arrive, lists are set or dropped. -/
def follow (m : Mirror) (delta : RequestDelta) : Mirror where
  rooms := (m.rooms \ delta.unsubs.toFinset) ∪ delta.subs.toFinset
  lists := delta.lists.entries.foldl followList m.lists

theorem followList_get? (lists : SortedMap String RoomList) (entry : String × ListDelta)
    (name : String) :
    (followList lists entry).get? name =
      if name = entry.1 then entry.2.curr else lists.get? name := by
  unfold followList
  split
  · next list h => rw [SortedMap.get?_insert, h]
  · next h => rw [SortedMap.get?_erase, h]

theorem follow_lists_get? (m : Mirror) (delta : RequestDelta) (name : String) :
    (m.follow delta).lists.get? name =
      (delta.lists.get? name).elim (m.lists.get? name) ListDelta.curr :=
  SortedMap.view_foldl (fun lists => lists.get? name) (fun _ d => d.curr)
    (fun lists d => by rw [followList_get?, if_pos rfl])
    (fun lists e h => by rw [followList_get?, if_neg (Ne.symm h)]) delta.lists m.lists

/-- Following an exact delta leads from the one request to the other. -/
theorem follow_exact {delta : RequestDelta} {old new : Request} (h : delta.Exact old new) :
    (of old).follow delta = of new := by
  have hrooms : ((of old).follow delta).rooms = (of new).rooms := by
    ext room
    simp only [follow, of, Finset.mem_union, Finset.mem_sdiff, List.mem_toFinset,
      SortedMap.mem_keys_iff, h.mem_subs, h.mem_unsubs]
    cases old.subscriptions.contains room <;> cases new.subscriptions.contains room <;> simp
  have hlists : ((of old).follow delta).lists = (of new).lists := by
    apply SortedMap.ext_get?
    intro name
    rw [follow_lists_get?, h.lists]
    change _ = new.lists.get? name
    split
    · next hsame => exact hsame
    · rfl
  exact Mirror.ext hrooms hlists

end Mirror

namespace Request

/-! ## Runs of bodies -/

/-- The request in force after some bodies, absent when there was none at all. -/
def mergeAll (prev : Option Request) (bodies : List Request) : Option Request :=
  bodies.foldl (fun inForce body => some (merge inForce body).1) prev

/-- The deltas that the bodies give, in order. -/
def deltas (prev : Option Request) : List Request → List RequestDelta
  | [] => []
  | body :: rest => (merge prev body).2 :: deltas (some (merge prev body).1) rest

theorem foldl_follow_deltas (prev : Option Request) (bodies : List Request) :
    (deltas prev bodies).foldl Mirror.follow (Mirror.of (prev.getD {})) =
      Mirror.of ((mergeAll prev bodies).getD {}) := by
  induction bodies generalizing prev with
  | nil => rfl
  | cons body rest ih =>
      have hstep := Mirror.follow_exact (exact_merge prev body)
      change (deltas (some (merge prev body).1) rest).foldl Mirror.follow
        ((Mirror.of (prev.getD {})).follow (merge prev body).2) = _
      rw [hstep]
      exact ih (some (merge prev body).1)

/--
Every merge reports exactly what it changed, so a reader who starts from nothing and
follows the deltas of a run knows the subscribed rooms and all lists at its end.
-/
theorem deltas_tell_changes :
    (∀ (prev : Option Request) (body : Request),
        (merge prev body).2.Exact (prev.getD {}) (merge prev body).1) ∧
      ∀ bodies : List Request,
        (deltas none bodies).foldl Mirror.follow {} = Mirror.of ((mergeAll none bodies).getD {}) :=
  ⟨exact_merge, foldl_follow_deltas none⟩

end Request

end SlidingSync
