import SlidingSync.Proofs.Order.Canonical
import SlidingSync.Proofs.Session.Resending
import SlidingSync.Proofs.Session.View

/-! # What a session stores

The request in force and the stored orders are two maps that are changed apart: the request by
merging, the orders by a walk over the lists that the merge reports. A merge reports a list unless
it left it as it was, and a merged list that is deleted is not in force, so after each call there is
an order under a name exactly when there is a list. Followed through a run, the order is that of the
list over the cache of the last call that stored it.
-/

namespace SlidingSync

/-! ## Merged requests -/

namespace Request

/-- Every list has a sort, none is marked as deleted, and no room is about to leave. -/
structure Settled (r : Request) : Prop where
  sorted : ∀ name list, r.lists.get? name = some list → list.sort ≠ []
  standing : ∀ name list, r.lists.get? name = some list → list.deleted = false
  departed : r.unsubscribe = []

theorem settled_default : ({} : Request).Settled where
  sorted := by simp
  standing := by simp
  departed := rfl

theorem Settled.merge {prev : Option Request} (h : (prev.getD {}).Settled) (body : Request) :
    (merge prev body).1.Settled where
  sorted := by
    intro name list hlist
    rcases mergeLists_origin hlist with hold | ⟨next, -, rfl⟩
    · exact h.sorted name list hold
    · exact List.isEmpty_eq_false_iff.mp (RoomList.isEmpty_sort_merge _ next)
  standing := by
    intro name list hlist
    rcases mergeLists_origin hlist with hold | ⟨next, -, rfl⟩
    · exact h.standing name list hold
    · rfl
  departed := rfl

end Request

theorem RoomList.SortKnown.identifier {list : RoomList} (h : list.SortKnown) {text : String}
    (given : text ∈ list.sort) : ∃ key : SortKey, key.identifier = text := by
  have hread : SortKey.ofIdentifier? text ≠ none := by
    simpa using List.find?_eq_none.mp h text given
  simpa using mt SortKey.ofIdentifier?_eq_none_iff.mpr hread

namespace Session

variable {α : Type} {user : UserId} {config : Config} {s : Session} {name : String}

def list? (s : Session) (name : String) : Option RoomList :=
  (s.request.getD {}).lists.get? name

def Call.cache : Call α → Cache α
  | .request cache _ => cache
  | .event cache _ => cache

/--
The call stores an order under the name: a body whose answer has the list, or an
event while the list is in force.
-/
inductive Stores (s : Session) (name : String) : Call α → Prop
  | answered {cache : Cache α} {body : Request} {update : SessionUpdate}
      (accepted : (s.handleRequest cache.snapshot body).1 = .ok update)
      (told : update.lists.contains name = true) : Stores s name (.request cache body)
  | noticed {cache : Cache α} {event : Event} {list : RoomList}
      (named : s.list? name = some list) : Stores s name (.event cache event)

/-- What a call does to a list and to its order. -/
inductive ListStep (s : Session) (name : String) (c : Call α) (next : Session) : Prop
  | stored {list : RoomList} (stores : s.Stores name c) (named : next.list? name = some list)
      (order : next.orders.get? name = some (list.sorted c.cache.snapshot))
  | dropped (keeps : ¬ s.Stores name c) (gone : next.list? name = none)
      (order : next.orders.get? name = none)
  | kept (keeps : ¬ s.Stores name c) (same : next.list? name = s.list? name)
      (order : next.orders.get? name = s.orders.get? name)

/-! ## One call -/

theorem listStep_refused {cache : Cache α} {body : Request} {fault : RequestFault}
    (refused : body.validate s.maxTimelineLimit = .error fault) :
    s.ListStep name (.request cache body) (s.call (.request cache body)) := by
  have hanswer := handleRequest_refused refused cache.snapshot
  have hcall : s.call (.request cache body) = s := congrArg Prod.snd hanswer
  refine .kept ?_ (by rw [hcall]) (by rw [hcall])
  rintro ⟨accepted, -⟩
  rw [hanswer] at accepted
  contradiction

theorem listStep_accepted (known : s.SortsKnown) {cache : Cache α} {body : Request}
    (accepted : body.validate s.maxTimelineLimit = .ok ()) :
    s.ListStep name (.request cache body) (s.call (.request cache body)) := by
  have hanswer := handleRequest_accepted known accepted cache.snapshot
  have hcall := congrArg Prod.snd hanswer
  change s.call (.request cache body) = _ at hcall
  have hstores : s.Stores name (.request cache body) ↔
      (s.shown cache.snapshot body).lists.contains name = true := by
    constructor
    · rintro ⟨accepted, told⟩
      rw [hanswer] at accepted
      cases accepted
      exact told
    · exact .answered (congrArg Prod.fst hanswer)
  have hseen := shown_get? s cache.snapshot body name
  change _ = (ListDelta.between (s.list? name) _).elim _ _ at hseen
  rw [hcall]
  -- What the walk leaves under the name is read off the change that the merge reports there.
  cases hdelta : ListDelta.between (s.list? name)
      ((Request.merge s.request body).1.lists.get? name) with
  | none =>
      rw [hdelta, Option.elim_none] at hseen
      obtain ⟨htold, horder⟩ := Prod.mk.inj hseen
      exact .kept (by simp [hstores, SortedMap.contains, htold])
        (ListDelta.between_eq_none_iff.mp hdelta).symm horder
  | some delta =>
      rw [hdelta, Option.elim_some, ListDelta.eq_of_between hdelta] at hseen
      cases hnow : (Request.merge s.request body).1.lists.get? name with
      | none =>
          rw [hnow] at hseen
          obtain ⟨htold, horder⟩ := Prod.mk.inj hseen
          exact .dropped (by simp [hstores, SortedMap.contains, htold]) hnow horder
      | some list =>
          rw [hnow] at hseen
          obtain ⟨htold, horder⟩ := Prod.mk.inj hseen
          exact .stored (by simp [hstores, SortedMap.contains, htold]) hnow horder

theorem listStep_event (known : s.SortsKnown) (cache : Cache α) (event : Event) :
    s.ListStep name (.event cache event) (s.call (.event cache event)) := by
  have hcall := congrArg Prod.snd (handleEvent_eq known cache.snapshot event.room)
  change s.call (.event cache event) = _ at hcall
  have hseen := noticed_get? s cache.snapshot event.room name
  change _ = (s.list? name).elim _ _ at hseen
  rw [hcall]
  cases hlist : s.list? name with
  | none =>
      rw [hlist] at hseen
      refine .kept ?_ rfl (congrArg Prod.snd hseen)
      rintro (_ | named)
      rw [hlist] at named
      contradiction
  | some list =>
      rw [hlist] at hseen
      exact .stored (.noticed hlist) hlist (congrArg Prod.snd hseen)

theorem listStep_call (known : s.SortsKnown) (name : String) (c : Call α) :
    s.ListStep name c (s.call c) := by
  cases c with
  | request cache body =>
      cases hv : body.validate s.maxTimelineLimit with
      | error fault => exact listStep_refused hv
      | ok _ => exact listStep_accepted known hv
  | event cache event => exact listStep_event known cache event

theorem request_handleRequest (s : Session) (rooms : List Room) (body : Request) :
    (∃ update, (s.handleRequest rooms body).1 = .ok update ∧
        (s.handleRequest rooms body).2.request = some (Request.merge s.request body).1) ∨
      (∃ error, (s.handleRequest rooms body).1 = .error error ∧
        (s.handleRequest rooms body).2.request = s.request) := by
  unfold handleRequest
  split
  · exact .inr ⟨_, rfl, rfl⟩
  · dsimp only
    split
    · exact .inr ⟨_, rfl, rfl⟩
    · exact .inl ⟨_, rfl, rfl⟩

/-- The call is a body that the session accepts. -/
inductive Accepts (s : Session) : Call α → Prop
  | ok {cache : Cache α} {body : Request} {update : SessionUpdate}
      (answer : (s.handleRequest cache.snapshot body).1 = .ok update) :
      Accepts s (.request cache body)

theorem request_call (s : Session) (c : Call α) :
    (s.Accepts c ∧ ∃ body, (s.call c).request = some (Request.merge s.request body).1) ∨
      (¬ s.Accepts c ∧ (s.call c).request = s.request) := by
  cases c with
  | request cache body =>
      rcases request_handleRequest s cache.snapshot body with
        ⟨update, hok, hmerged⟩ | ⟨error, herror, hsame⟩
      · exact .inl ⟨.ok hok, body, hmerged⟩
      · refine .inr ⟨?_, hsame⟩
        rintro ⟨answer⟩
        rw [herror] at answer
        contradiction
  | event cache event =>
      obtain ⟨_, hframe⟩ := handleEvent_frame s cache.snapshot event.room
      change (s.call (.event cache event)) = _ at hframe
      exact .inr ⟨nofun, by rw [hframe]⟩

theorem settled_call (h : (s.request.getD {}).Settled) (c : Call α) :
    ((s.call c).request.getD {}).Settled := by
  rcases request_call s c with ⟨-, body, hmerged⟩ | ⟨-, hsame⟩
  · rw [hmerged]
    exact h.merge body
  · rw [hsame]
    exact h

/-! ## All calls -/

theorem after_concat (calls : List (Call α)) (c : Call α) :
    after user config (calls ++ [c]) = (after user config calls).call c :=
  List.foldl_concat call (new user config) c calls

/-- Some call of the run is a body that was accepted. -/
def Begun (user : UserId) (config : Config) (calls : List (Call α)) : Prop :=
  ∃ before c, before ++ [c] <+: calls ∧ (after user config before).Accepts c

theorem begun_concat {calls : List (Call α)} {c : Call α} :
    Begun user config (calls ++ [c]) ↔
      Begun user config calls ∨ (after user config calls).Accepts c := by
  unfold Begun
  constructor
  · rintro ⟨before, first, hprefix, haccepts⟩
    rcases List.prefix_concat_iff.mp hprefix with heq | hearlier
    · obtain ⟨rfl, hlast⟩ := List.append_inj' heq rfl
      cases hlast
      exact .inr haccepts
    · exact .inl ⟨before, first, hearlier, haccepts⟩
  · rintro (⟨before, first, hprefix, haccepts⟩ | haccepts)
    · exact ⟨before, first, hprefix.trans (List.prefix_append calls [c]), haccepts⟩
    · exact ⟨calls, c, List.prefix_refl _, haccepts⟩

/-- A session has a request in force from its first accepted body on. -/
theorem request_eq_none_iff (calls : List (Call α)) :
    (after user config calls).request = none ↔ ¬ Begun user config calls := by
  induction calls using List.reverseRecOn with
  | nil => exact iff_of_true rfl fun ⟨_, _, hprefix, _⟩ => by simp at hprefix
  | append_singleton calls c ih =>
      rw [after_concat, begun_concat]
      rcases request_call (after user config calls) c with
        ⟨haccepts, body, hmerged⟩ | ⟨hnot, hsame⟩
      · simp [hmerged, haccepts]
      · rw [hsame, ih]
        simp [hnot]

/-- The cache of the last call that stored an order under the name. -/
inductive LastStored (user : UserId) (config : Config) (name : String) :
    List (Call α) → Cache α → Prop
  | now {calls : List (Call α)} {c : Call α} (stores : (after user config calls).Stores name c) :
      LastStored user config name (calls ++ [c]) c.cache
  | before {calls : List (Call α)} {c : Call α} {cache : Cache α}
      (keeps : ¬ (after user config calls).Stores name c)
      (last : LastStored user config name calls cache) :
      LastStored user config name (calls ++ [c]) cache

/-- Under a name there is nothing, or a list with the order in which it was last stored. -/
inductive Stands (user : UserId) (config : Config) (calls : List (Call α)) (name : String) : Prop
  | absent (gone : (after user config calls).list? name = none)
      (order : (after user config calls).orders.get? name = none)
  | present {list : RoomList} {cache : Cache α}
      (named : (after user config calls).list? name = some list)
      (last : LastStored user config name calls cache)
      (order : (after user config calls).orders.get? name = some (list.sorted cache.snapshot))

theorem stands_after (user : UserId) (config : Config) (calls : List (Call α)) (name : String) :
    Stands user config calls name := by
  induction calls using List.reverseRecOn with
  | nil => exact .absent rfl rfl
  | append_singleton calls c ih =>
      have hknown := (sound_after user config calls).sortsKnown
      have hstep := listStep_call hknown name c
      rw [← after_concat] at hstep
      cases hstep with
      | stored stores named order => exact .present named (.now stores) order
      | dropped keeps gone order => exact .absent gone order
      | kept keeps same unmoved =>
          cases ih with
          | absent gone order => exact .absent (same.trans gone) (unmoved.trans order)
          | present named last order =>
              exact .present (same.trans named) (.before keeps last) (unmoved.trans order)

theorem settled_after (user : UserId) (config : Config) (calls : List (Call α)) :
    ((after user config calls).request.getD {}).Settled :=
  @after_of_call α (fun s => (s.request.getD {}).Settled) user config Request.settled_default
    (fun _ c h => settled_call h c) calls

/-- What a session holds after some calls, once there is a request in force. -/
structure Represents (user : UserId) (config : Config) (calls : List (Call α)) (request : Request)
    (orders : ListOrders) : Prop where
  keys : orders.keys = request.lists.keys
  found : ∀ name list, request.lists.get? name = some list → ∃ order, orders.get? name = some order
  stored : ∀ name order, orders.get? name = some order →
    order.Nodup ∧ ∃ list cache, request.lists.get? name = some list ∧
      LastStored user config name calls cache ∧ list.order cache.snapshot = .ok order
  checked : request.validate config.maxTimelineLimit = .ok ()
  sorted : ∀ name list, request.lists.get? name = some list →
    list.sort ≠ [] ∧ ∀ text ∈ list.sort, ∃ key : SortKey, key.identifier = text
  standing : ∀ name list, request.lists.get? name = some list → list.deleted = false
  departed : request.unsubscribe = []

theorem list?_of_request {request : Request} (h : s.request = some request) (name : String) :
    s.list? name = request.lists.get? name := by
  rw [list?, h, Option.getD_some]

theorem represents_after {calls : List (Call α)} {request : Request}
    (h : (after user config calls).request = some request) :
    Represents user config calls request (after user config calls).orders := by
  have hkept := kept_after user config calls
  have hsettled := settled_after user config calls
  have hchecked := hkept.checked
  rw [h, Option.getD_some] at hsettled hchecked
  have hlists (name : String) :
      (after user config calls).list? name = request.lists.get? name :=
    list?_of_request h name
  exact
    { keys := by
        apply SortedMap.keys_eq_of_contains
        intro name
        unfold SortedMap.contains
        rw [← hlists]
        cases stands_after user config calls name with
        | absent gone order => simp [gone, order]
        | present named last order => simp [named, order]
      found := by
        intro name list hlist
        cases stands_after user config calls name with
        | absent gone order =>
            rw [hlists, hlist] at gone
            contradiction
        | present named last order => exact ⟨_, order⟩
      stored := by
        intro name order horder
        refine ⟨hkept.distinct name order horder, ?_⟩
        cases stands_after user config calls name with
        | absent gone hnone =>
            rw [hnone] at horder
            contradiction
        | @present list cache named last hstored =>
            rw [hlists] at named
            rw [hstored] at horder
            cases horder
            refine ⟨list, cache, named, last, ?_⟩
            exact RoomList.order_eq_sorted (hkept.sortsKnown request h name list named) _
      checked := hchecked
      sorted := by
        intro name list hlist
        exact ⟨hsettled.sorted name list hlist, fun text hgiven =>
          (hkept.sortsKnown request h name list hlist).identifier hgiven⟩
      standing := hsettled.standing
      departed := hsettled.departed }

/--
A session that has accepted no body holds no order. From the first accepted body on,
the orders are those of the lists in force.
-/
theorem stored_orders_represent_lists (user : UserId) (config : Config) (calls : List (Call α)) :
    (¬ Begun user config calls → (after user config calls).request = none ∧
        (after user config calls).orders = .empty) ∧
      (Begun user config calls → ∃ request, (after user config calls).request = some request ∧
        Represents user config calls request (after user config calls).orders) := by
  constructor
  · intro hnot
    have hnone := (request_eq_none_iff calls).mpr hnot
    refine ⟨hnone, SortedMap.ext_get? fun name => ?_⟩
    cases stands_after user config calls name with
    | absent gone order => exact order
    | present named last order =>
        rw [list?, hnone] at named
        contradiction
  · intro hbegun
    cases hrequest : (after user config calls).request with
    | none => exact absurd hbegun ((request_eq_none_iff calls).mp hrequest)
    | some request => exact ⟨request, rfl, represents_after hrequest⟩

end Session

end SlidingSync
