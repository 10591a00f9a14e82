import SlidingSync.Cache.Basic
import SlidingSync.Session
import SlidingSync.Proofs.Request.Delta

/-! # Sending a body again

A body sets what it gives and leaves the rest, so what it made of a list or of a subscription is
what it makes of the outcome once more. Where it both subscribes and unsubscribes a room, the room
is in force after the body exactly when it was before, and the same case is met the second time.
Nothing changes then, the delta is empty, and a session has no list to show.
-/

namespace SlidingSync

/-! ## One list, one room -/

namespace RoomList

theorem isEmpty_sort_merge (existing : Option RoomList) (next : RoomList) :
    (merge existing next).sort.isEmpty = false := by
  unfold merge
  dsimp only
  generalize (if next.sort.isEmpty = true then (existing.getD {}).sort else next.sort) = given
  split
  · rfl
  · next hgiven => exact Bool.eq_false_iff.mpr hgiven

theorem merge_merge (existing : Option RoomList) (next : RoomList) :
    merge (some (merge existing next)) next = merge existing next := by
  generalize hmerged : merge existing next = merged
  have hranges : (if next.ranges.isEmpty then merged.ranges else next.ranges) = merged.ranges := by
    rw [← hmerged]
    split
    · rfl
    · next hgiven => exact (if_neg hgiven).symm
  have hsort : (if next.sort.isEmpty then merged.sort else next.sort) = merged.sort := by
    rw [← hmerged]
    split
    · rfl
    · next hgiven =>
      unfold merge
      dsimp only
      rw [if_neg hgiven, if_neg hgiven]
  have hfilters :
      (if next.filters.isSome then next.filters else merged.filters) = merged.filters := by
    rw [← hmerged]
    split
    · next hgiven => exact (if_pos hgiven).symm
    · rfl
  have hsubscription :
      (if next.subscription.isEmpty then merged.subscription else next.subscription) =
        merged.subscription := by
    rw [← hmerged]
    split
    · rfl
    · next hgiven => exact (if_neg hgiven).symm
  have hnonempty : merged.sort.isEmpty = false := hmerged ▸ isEmpty_sort_merge existing next
  have hdeleted : merged.deleted = false := by
    rw [← hmerged]
    rfl
  unfold merge
  dsimp only [Option.getD_some]
  rw [hranges, hsort, hfilters, hsubscription, if_neg (by simp [hnonempty]), ← hdeleted]

theorem after_after (existing : Option RoomList) (next : RoomList) :
    after (after existing next) next = after existing next := by
  unfold after
  by_cases hdeleted : next.deleted = true
  · rw [if_pos hdeleted, if_pos hdeleted]
  · rw [if_neg hdeleted, if_neg hdeleted, merge_merge]

end RoomList

/-- A delta between a request and itself is empty. -/
theorem RequestDelta.Exact.eq_empty {delta : RequestDelta} {r : Request} (h : delta.Exact r r) :
    delta = {} := by
  have hsubs : delta.subs = [] := by
    refine List.eq_nil_iff_forall_not_mem.mpr fun room hroom => ?_
    have hboth := (h.mem_subs room).mp hroom
    rw [hboth.1] at hboth
    exact absurd hboth.2 (by decide)
  have hunsubs : delta.unsubs = [] := by
    refine List.eq_nil_iff_forall_not_mem.mpr fun room hroom => ?_
    have hboth := (h.mem_unsubs room).mp hroom
    rw [hboth.1] at hboth
    exact absurd hboth.2 (by decide)
  have hlists : delta.lists = .empty := by
    apply SortedMap.ext_get?
    intro name
    rw [h.lists, if_pos rfl, SortedMap.get?_empty]
  cases delta
  simp_all

namespace Request

theorem arrival_arrival (body : Request) (room : RoomId) (existing : Option RoomSubscription)
    (sub : RoomSubscription) :
    arrival body room (arrival body room existing sub) sub = arrival body room existing sub := by
  unfold arrival
  by_cases hcancelled : existing = none ∧ room ∈ body.unsubscribe
  · rw [if_pos hcancelled, if_pos ⟨rfl, hcancelled.2⟩]
  · rw [if_neg hcancelled, if_neg (by simp)]

/-! ## The whole request -/

theorem mergeLists_again (prev : SortedMap String RoomList) (body : Request) :
    (mergeLists (mergeLists prev body).inForce body).inForce = (mergeLists prev body).inForce := by
  apply SortedMap.ext_get?
  intro name
  rw [mergeLists_inForce, mergeLists_inForce prev]
  cases body.lists.get? name with
  | none => rfl
  | some next => exact RoomList.after_after _ next

theorem mergeSubscriptions_again (prev : SortedMap RoomId RoomSubscription) (body : Request) :
    (mergeSubscriptions (mergeSubscriptions prev body).inForce body).inForce =
      (mergeSubscriptions prev body).inForce := by
  apply SortedMap.ext_get?
  intro room
  rw [mergeSubscriptions_inForce, mergeSubscriptions_inForce prev]
  cases body.subscriptions.get? room with
  | none =>
      dsimp only [Option.elim_none]
      split <;> rfl
  | some sub => exact arrival_arrival body room _ sub

theorem merge_again (prev : Option Request) (body : Request) :
    merge (some (merge prev body).1) body = ((merge prev body).1, {}) := by
  have hrequest : (merge (some (merge prev body).1) body).1 = (merge prev body).1 := by
    have hlists := mergeLists_again (prev.getD {}).lists body
    have hsubscriptions := mergeSubscriptions_again (prev.getD {}).subscriptions body
    unfold merge
    dsimp only [Option.getD_some]
    rw [hlists, hsubscriptions]
  have hdelta : (merge (some (merge prev body).1) body).2 = {} := by
    have hexact := exact_merge (some (merge prev body).1) body
    rw [hrequest] at hexact
    exact hexact.eq_empty
  exact Prod.ext hrequest hdelta

end Request

namespace Session

/-! ## The session -/

theorem accepted_of_ok {s : Session} {rooms : List Room} {body : Request}
    {update : SessionUpdate} (h : (s.handleRequest rooms body).1 = .ok update) :
    body.validate s.maxTimelineLimit = .ok () ∧
      ∃ orders, (s.handleRequest rooms body).2 =
        { s with request := some (Request.merge s.request body).1, orders := orders } := by
  unfold handleRequest at h ⊢
  cases hvalid : body.validate s.maxTimelineLimit with
  | error fault =>
      rw [hvalid] at h
      contradiction
  | ok _ =>
      rw [hvalid] at h
      dsimp only at h ⊢
      refine ⟨rfl, ?_⟩
      split at h
      · contradiction
      · next shown _ => exact ⟨shown.orders, rfl⟩

theorem handleRequest_again {s : Session} {rooms : List Room} {body : Request}
    {update : SessionUpdate} (h : (s.handleRequest rooms body).1 = .ok update)
    (later : List Room) :
    (s.handleRequest rooms body).2.handleRequest later body =
      (.ok {}, (s.handleRequest rooms body).2) := by
  obtain ⟨hvalid, orders, hnext⟩ := accepted_of_ok h
  rw [hnext]
  unfold handleRequest
  dsimp only
  rw [hvalid, Request.merge_again]
  rfl

/--
Merging a body into the request that it led to changes nothing and gives an empty
delta, so a session that has accepted a body has nothing to tell when the body comes
again, and stays as it is, whatever has become of the rooms in between.
-/
theorem resending_changes_nothing {α : Type} :
    (∀ (prev : Option Request) (body : Request),
        Request.merge (some (Request.merge prev body).1) body =
          ((Request.merge prev body).1, { subs := [], unsubs := [], lists := .empty })) ∧
      ∀ (s : Session) (cache later : Cache α) (body : Request) (update : SessionUpdate),
        (s.handleRequest cache.snapshot body).1 = .ok update →
          (s.handleRequest cache.snapshot body).2.handleRequest later.snapshot body =
            (.ok { lists := .empty, subscribed := [], unsubscribed := [] },
              (s.handleRequest cache.snapshot body).2) :=
  ⟨Request.merge_again, fun _ _ later _ _ h => handleRequest_again h later.snapshot⟩

/-! ### A body that takes back some of what it gives -/

def lodge : RoomId :=
  ⟨"!lodge:s", by decide +kernel⟩

def scullery : RoomId :=
  ⟨"!scullery:s", by decide +kernel⟩

def porter : Session where
  user := ⟨"@porter:s", by decide +kernel⟩
  defaultTimelineLimit := 20
  maxTimelineLimit := 50
  request := some
    { lists := .ofList [("rooms", { sort := ["by_name"] }), ("spare", {})]
      subscriptions := .ofList [(lodge, { timelineLimit := 5 })] }

/-- One list is new, one is dropped, one is dropped that was never there; both rooms come and go. -/
def errands : Request where
  lists := .ofList
    [("lofts", {}), ("spare", { deleted := true }), ("vaults", { deleted := true }),
      ("rooms", { filters := some { roomNameLike := some "a" } })]
  subscriptions := .ofList [(lodge, { timelineLimit := 9 }), (scullery, {})]
  unsubscribe := [scullery, lodge, scullery]

theorem second_answer_empty_over_changed_rooms :
    let cache : Cache Channel := {}
    let later := cache.assign ⟨lodge, { name := "Lodge" }⟩
    (∃ update, (porter.handleRequest cache.snapshot errands).1 = .ok update) ∧
      (porter.handleRequest cache.snapshot errands).2.handleRequest later.snapshot errands =
        (.ok { lists := .empty, subscribed := [], unsubscribed := [] },
          (porter.handleRequest cache.snapshot errands).2) := by
  intro cache later
  have haccepted : (porter.handleRequest cache.snapshot errands).1.isOk = true := by
    decide +kernel
  cases hanswer : (porter.handleRequest cache.snapshot errands).1 with
  | error fault =>
      rw [hanswer] at haccepted
      contradiction
  | ok update =>
      exact ⟨⟨update, rfl⟩, resending_changes_nothing.2 porter cache later errands update hanswer⟩

end Session

end SlidingSync
