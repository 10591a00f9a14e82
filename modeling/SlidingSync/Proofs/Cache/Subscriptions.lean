import SlidingSync.Proofs.Cache.Rooms

/-! # Subscriptions

A call that concerns one handle says nothing about the subscriptions under others. So what a cache
knows of a handle, its listener and whether it is registered, is told call by call.
-/

namespace SlidingSync.Cache

variable {α : Type}

/-! ## Registered handles -/

theorem mem_registeredHandles {c : Cache α} {handle : Nat} :
    handle ∈ c.registeredHandles ↔
      ∃ s, c.subscriptions.get? handle = some s ∧ s.registered = true := by
  unfold registeredHandles
  simp only [List.mem_map, List.mem_filter, Prod.exists, SortedMap.mem_entries_iff]
  constructor
  · rintro ⟨_, s, hs, rfl⟩
    exact ⟨s, hs⟩
  · rintro ⟨s, hs⟩
    exact ⟨handle, s, hs, rfl⟩

theorem pairwise_registeredHandles (c : Cache α) : c.registeredHandles.Pairwise (· < ·) := by
  have hkeys : c.subscriptions.keys.Pairwise (· < ·) :=
    c.subscriptions.pairwise_keys.imp fun h => Nat.compare_eq_lt.mp h
  exact hkeys.sublist (List.filter_sublist.map _)

theorem nodup_registeredHandles (c : Cache α) : c.registeredHandles.Nodup :=
  c.pairwise_registeredHandles.imp Nat.ne_of_lt

/-! ## Calls that concern one handle -/

/-- The cache after the subscription under the handle, if there is one, was changed. -/
def changeAt (c : Cache α) (handle : Nat) (change : Subscription α → Subscription α) : Cache α :=
  match c.subscriptions.get? handle with
  | some s => { c with subscriptions := c.subscriptions.insert handle (change s) }
  | none => c

theorem modifyListener_eq_changeAt (c : Cache α) (handle : Nat) (change : α → α) :
    c.modifyListener handle change =
      c.changeAt handle fun s => { s with listener := change s.listener } :=
  rfl

theorem unsubscribe_eq_changeAt (c : Cache α) (handle : Nat) :
    (c.unsubscribe handle).2 = c.changeAt handle fun s => { s with registered := false } := by
  unfold unsubscribe changeAt
  cases c.subscriptions.get? handle <;> rfl

theorem get?_changeAt (c : Cache α) (handle : Nat) (change : Subscription α → Subscription α)
    (other : Nat) :
    (c.changeAt handle change).subscriptions.get? other =
      if other = handle then (c.subscriptions.get? other).map change
      else c.subscriptions.get? other := by
  unfold changeAt
  cases hget : c.subscriptions.get? handle with
  | some s =>
      dsimp only
      rw [SortedMap.get?_insert]
      by_cases hother : other = handle
      · rw [if_pos hother, if_pos hother, hother, hget, Option.map_some]
      · rw [if_neg hother, if_neg hother]
  | none =>
      dsimp only
      by_cases hother : other = handle
      · rw [if_pos hother, hother, hget, Option.map_none]
      · rw [if_neg hother]

theorem changeAt_eq (c : Cache α) (handle : Nat) (change : Subscription α → Subscription α) :
    c.changeAt handle change =
      { c with subscriptions := (c.changeAt handle change).subscriptions } := by
  unfold changeAt
  split <;> rfl

theorem get?_modifyListener (c : Cache α) (handle : Nat) (change : α → α) (other : Nat) :
    (c.modifyListener handle change).subscriptions.get? other =
      if other = handle then
        (c.subscriptions.get? other).map fun s => { s with listener := change s.listener }
      else c.subscriptions.get? other := by
  rw [modifyListener_eq_changeAt, get?_changeAt]

theorem modifyListener_eq (c : Cache α) (handle : Nat) (change : α → α) :
    c.modifyListener handle change =
      { c with subscriptions := (c.modifyListener handle change).subscriptions } := by
  rw [modifyListener_eq_changeAt]
  exact c.changeAt_eq handle _

theorem rooms_modifyListener (c : Cache α) (handle : Nat) (change : α → α) :
    (c.modifyListener handle change).rooms = c.rooms := by
  rw [modifyListener_eq]

theorem phase_modifyListener (c : Cache α) (handle : Nat) (change : α → α) :
    (c.modifyListener handle change).phase = c.phase := by
  rw [modifyListener_eq]

theorem get?_unsubscribe (c : Cache α) (handle other : Nat) :
    (c.unsubscribe handle).2.subscriptions.get? other =
      if other = handle then
        (c.subscriptions.get? other).map fun s => { s with registered := false }
      else c.subscriptions.get? other := by
  rw [unsubscribe_eq_changeAt, get?_changeAt]

theorem unsubscribe_eq (c : Cache α) (handle : Nat) :
    (c.unsubscribe handle).2 =
      { c with subscriptions := (c.unsubscribe handle).2.subscriptions } := by
  rw [unsubscribe_eq_changeAt]
  exact c.changeAt_eq handle _

theorem get?_subscribe (c : Cache α) (listener : α) (other : Nat) :
    (c.subscribe listener).2.subscriptions.get? other =
      if other = c.nextHandle then some ⟨listener, true⟩ else c.subscriptions.get? other :=
  SortedMap.get?_insert _ _ _ _

theorem listener?_subscribe (c : Cache α) (listener : α) (other : Nat) :
    (c.subscribe listener).2.listener? other =
      if other = c.nextHandle then some listener else c.listener? other := by
  unfold listener?
  rw [get?_subscribe]
  exact apply_ite (Option.map Subscription.listener) _ _ _

theorem listener?_unsubscribe (c : Cache α) (handle other : Nat) :
    (c.unsubscribe handle).2.listener? other = c.listener? other := by
  unfold listener?
  rw [get?_unsubscribe]
  split
  · rw [Option.map_map]
    rfl
  · rfl

theorem listener?_modifyListener (c : Cache α) (handle : Nat) (change : α → α) (other : Nat) :
    (c.modifyListener handle change).listener? other =
      if other = handle then (c.listener? other).map change else c.listener? other := by
  unfold listener?
  rw [get?_modifyListener]
  split
  · rw [Option.map_map, Option.map_map]
    rfl
  · rfl

theorem mem_registeredHandles_subscribe {c : Cache α} {listener : α} {handle : Nat} :
    handle ∈ (c.subscribe listener).2.registeredHandles ↔
      handle = c.nextHandle ∨ handle ∈ c.registeredHandles := by
  rw [mem_registeredHandles, mem_registeredHandles, get?_subscribe]
  by_cases hhandle : handle = c.nextHandle
  · simp [hhandle]
  · simp [hhandle]

theorem mem_registeredHandles_unsubscribe {c : Cache α} {handle other : Nat} :
    other ∈ (c.unsubscribe handle).2.registeredHandles ↔
      other ∈ c.registeredHandles ∧ other ≠ handle := by
  rw [mem_registeredHandles, mem_registeredHandles, get?_unsubscribe]
  by_cases hother : other = handle
  · cases c.subscriptions.get? other <;> simp [hother]
  · simp [hother]

theorem mem_registeredHandles_modifyListener {c : Cache α} {handle : Nat} {change : α → α}
    {other : Nat} :
    other ∈ (c.modifyListener handle change).registeredHandles ↔
      other ∈ c.registeredHandles := by
  rw [mem_registeredHandles, mem_registeredHandles, get?_modifyListener]
  by_cases hother : other = handle
  · simp [hother]
  · simp [hother]

/-! ## Several listeners removed -/

/-- The cache without the listeners under these handles. -/
def prune (c : Cache α) (handles : List Nat) : Cache α :=
  handles.foldl (fun c handle => (c.unsubscribe handle).2) c

theorem get?_prune (handles : List Nat) (c : Cache α) (other : Nat) :
    (c.prune handles).subscriptions.get? other =
      if other ∈ handles then
        (c.subscriptions.get? other).map fun s => { s with registered := false }
      else c.subscriptions.get? other := by
  induction handles generalizing c with
  | nil => rfl
  | cons handle rest ih =>
      change ((c.unsubscribe handle).2.prune rest).subscriptions.get? other = _
      rw [ih, get?_unsubscribe]
      by_cases hother : other = handle
      · rw [if_pos hother, if_pos (List.mem_cons.mpr (.inl hother)), Option.map_map]
        split <;> rfl
      · rw [if_neg hother]
        simp only [List.mem_cons, hother, false_or]

theorem mem_registeredHandles_prune {handles : List Nat} {c : Cache α} {handle : Nat} :
    handle ∈ (c.prune handles).registeredHandles ↔
      handle ∈ c.registeredHandles ∧ handle ∉ handles := by
  rw [mem_registeredHandles, mem_registeredHandles, get?_prune]
  by_cases hhandle : handle ∈ handles
  · cases c.subscriptions.get? handle <;> simp [hhandle]
  · simp [hhandle]

theorem listener?_prune (handles : List Nat) (c : Cache α) (handle : Nat) :
    (c.prune handles).listener? handle = c.listener? handle := by
  unfold listener?
  rw [get?_prune]
  split
  · rw [Option.map_map]
    rfl
  · rfl

theorem prune_eq (handles : List Nat) (c : Cache α) :
    c.prune handles = { c with subscriptions := (c.prune handles).subscriptions } := by
  induction handles generalizing c with
  | nil => rfl
  | cons handle rest ih =>
      change (c.unsubscribe handle).2.prune rest =
        { c with subscriptions := ((c.unsubscribe handle).2.prune rest).subscriptions }
      rw [ih, unsubscribe_eq]

end SlidingSync.Cache
