import SlidingSync.Proofs.Request.Merge

/-! # Requests that pass their check

Only bodies are checked, never the request that they are merged into. That is enough: a merge takes
limits and sort identifiers over whole, each from the body or from before, so what is in force
passes the check that all its bodies passed.
-/

namespace SlidingSync

/-! ## Lists -/

namespace RoomList

/-- Every sort identifier of the list is known. -/
def SortKnown (list : RoomList) : Prop :=
  firstUnknownSort list.sort = none

theorem fault?_eq_none_iff {list : RoomList} {maximum : UInt64} :
    list.fault? maximum = none ↔
      list.subscription.timelineLimit ≤ maximum ∧ list.SortKnown := by
  unfold fault? SortKnown
  split
  · next habove => simp [UInt64.not_le.mpr habove]
  · next hwithin => simp [UInt64.not_lt.mp hwithin]

theorem sortKnown_merge {existing : Option RoomList} {next : RoomList}
    (hold : ∀ list, existing = some list → list.SortKnown) (hnext : next.SortKnown) :
    (merge existing next).SortKnown := by
  have hsort : firstUnknownSort (existing.getD {}).sort = none := by
    cases existing with
    | none => rfl
    | some list => exact hold list rfl
  have hdefault : firstUnknownSort [SortKey.recency.identifier] = none := rfl
  unfold SortKnown merge
  by_cases hgiven : next.sort.isEmpty = true
  · simp only [hgiven, ↓reduceIte]
    split
    · exact hdefault
    · exact hsort
  · simp only [hgiven, Bool.false_eq_true, ↓reduceIte]
    exact hnext

theorem limit_merge {existing : Option RoomList} {next : RoomList} {maximum : UInt64}
    (hold : ∀ list, existing = some list → list.subscription.timelineLimit ≤ maximum)
    (hnext : next.subscription.timelineLimit ≤ maximum) :
    (merge existing next).subscription.timelineLimit ≤ maximum := by
  unfold merge
  dsimp only
  split
  · cases existing with
    | none => exact UInt64.zero_le
    | some list => exact hold list rfl
  · exact hnext

theorem fault?_merge {existing : Option RoomList} {next : RoomList} {maximum : UInt64}
    (hold : ∀ list, existing = some list → list.fault? maximum = none)
    (hnext : next.fault? maximum = none) : (merge existing next).fault? maximum = none := by
  have hnext := fault?_eq_none_iff.mp hnext
  have hold := fun list h => fault?_eq_none_iff.mp (hold list h)
  exact fault?_eq_none_iff.mpr
    ⟨limit_merge (fun list h => (hold list h).1) hnext.1,
      sortKnown_merge (fun list h => (hold list h).2) hnext.2⟩

end RoomList

namespace Request

/-! ## Whole requests -/

theorem validate_eq_ok_iff {r : Request} {maximum : UInt64} :
    r.validate maximum = .ok () ↔
      (∀ name list, r.lists.get? name = some list → list.fault? maximum = none) ∧
        ∀ room sub, r.subscriptions.get? room = some sub → sub.timelineLimit ≤ maximum := by
  have hlists : r.listFault? maximum = none ↔
      ∀ name list, r.lists.get? name = some list → list.fault? maximum = none := by
    unfold listFault?
    simp only [List.findSome?_eq_none_iff, Option.map_eq_none_iff, Prod.forall,
      SortedMap.mem_entries_iff]
  have hsubs : r.subscriptionFault? maximum = none ↔
      ∀ room sub, r.subscriptions.get? room = some sub → sub.timelineLimit ≤ maximum := by
    unfold subscriptionFault?
    simp only [List.findSome?_eq_none_iff, Prod.forall, SortedMap.mem_entries_iff,
      ite_eq_right_iff, reduceCtorEq, imp_false, UInt64.not_lt]
  rw [← hlists, ← hsubs, ← Option.or_eq_none_iff]
  unfold validate
  cases (r.listFault? maximum).or (r.subscriptionFault? maximum) <;> simp

theorem validate_default (maximum : UInt64) : ({} : Request).validate maximum = .ok () :=
  rfl

/-- A list in force is one of before or one that the body was merged into. -/
theorem mergeLists_origin {prev : SortedMap String RoomList} {body : Request} {name : String}
    {list : RoomList} (h : (mergeLists prev body).inForce.get? name = some list) :
    prev.get? name = some list ∨
      ∃ next, body.lists.get? name = some next ∧ list = RoomList.merge (prev.get? name) next := by
  rw [mergeLists_inForce] at h
  cases hnext : body.lists.get? name with
  | none =>
      rw [hnext] at h
      exact .inl h
  | some next =>
      rw [hnext, Option.elim_some] at h
      unfold RoomList.after at h
      split at h
      · contradiction
      · exact .inr ⟨next, rfl, (Option.some.inj h).symm⟩

/-- A subscription in force is one of the body or one of before. -/
theorem mergeSubscriptions_origin {prev : SortedMap RoomId RoomSubscription} {body : Request}
    {room : RoomId} {sub : RoomSubscription}
    (h : (mergeSubscriptions prev body).inForce.get? room = some sub) :
    body.subscriptions.get? room = some sub ∨ prev.get? room = some sub := by
  rw [mergeSubscriptions_inForce] at h
  cases hnext : body.subscriptions.get? room with
  | none =>
      rw [hnext, Option.elim_none] at h
      split at h
      · contradiction
      · exact .inr h
  | some next =>
      rw [hnext, Option.elim_some] at h
      unfold arrival at h
      split at h
      · contradiction
      · exact .inl h

theorem validate_merge {prev : Option Request} {body : Request} {maximum : UInt64}
    (hprev : (prev.getD {}).validate maximum = .ok ()) (hbody : body.validate maximum = .ok ()) :
    (merge prev body).1.validate maximum = .ok () := by
  -- A fault of the merged request would be one of before or one of the body.
  have hprev := validate_eq_ok_iff.mp hprev
  have hbody := validate_eq_ok_iff.mp hbody
  refine validate_eq_ok_iff.mpr ⟨?_, ?_⟩
  · intro name list hlist
    rcases mergeLists_origin hlist with h | ⟨next, hnext, rfl⟩
    · exact hprev.1 name list h
    · exact RoomList.fault?_merge (hprev.1 name) (hbody.1 name next hnext)
  · intro room sub hsub
    rcases mergeSubscriptions_origin hsub with h | h
    · exact hbody.2 room sub h
    · exact hprev.2 room sub h

/-- No list of the request has an unknown sort identifier. -/
def SortsKnown (r : Request) : Prop :=
  ∀ name list, r.lists.get? name = some list → list.SortKnown

theorem sortsKnown_of_validate {r : Request} {maximum : UInt64}
    (h : r.validate maximum = .ok ()) : r.SortsKnown := by
  intro name list hlist
  exact (RoomList.fault?_eq_none_iff.mp ((validate_eq_ok_iff.mp h).1 name list hlist)).2

theorem sortsKnown_merge {prev : Option Request} {body : Request}
    (hprev : (prev.getD {}).SortsKnown) (hbody : body.SortsKnown) :
    (merge prev body).1.SortsKnown := by
  intro name list hlist
  rcases mergeLists_origin hlist with h | ⟨next, hnext, rfl⟩
  · exact hprev name list h
  · exact RoomList.sortKnown_merge (fun old => hprev name old) (hbody name next hnext)

end Request

end SlidingSync
