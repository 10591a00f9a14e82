import SlidingSync.Proofs.Cache.Subscriptions

/-! # One listener after the other

`Cache.notify` changes all registered listeners in one go. Looked at closely, the handles registered
at the start are gone through in ascending order: each listener is given the event and then asked
whether it is closed, and when all have been asked those that said so are removed by their handles.
`notifyInTurn` goes these steps and keeps the cache that every delivery finds; `acceptInTurn` has
the event change its room first. They come to the same cache and the same deliveries.
-/

namespace SlidingSync

/-- A delivery as it happens. -/
structure Handover (α : Type) where
  handle : Nat
  event : Event
  /-- The cache before the listener gets the event. -/
  found : Cache α
  /-- Whether the listener reports itself closed right after. -/
  closed : Bool

namespace Cache

variable {α : Type}

def closedHandles (handovers : List (Handover α)) : List Nat :=
  (handovers.filter (·.closed)).map (·.handle)

variable [Listener α]

/-! ## Giving one event -/

def give (c : Cache α) (handle : Nat) (event : Event) : Cache α :=
  c.modifyListener handle fun listener => Listener.receive listener event

def reportsClosed (c : Cache α) (handle : Nat) : Bool :=
  (c.listener? handle).any Listener.isClosed

def giveAll (event : Event) : List Nat → Cache α → List (Handover α) × Cache α
  | [], c => ([], c)
  | handle :: rest, c =>
      let given := c.give handle event
      let later := giveAll event rest given
      (⟨handle, event, c, given.reportsClosed handle⟩ :: later.1, later.2)

theorem giveAll_cons (event : Event) (handle : Nat) (rest : List Nat) (c : Cache α) :
    giveAll event (handle :: rest) c =
      let given := c.give handle event
      (⟨handle, event, c, given.reportsClosed handle⟩ :: (giveAll event rest given).1,
        (giveAll event rest given).2) :=
  rfl

/-- The registered listeners are given the event in turn; then those that are closed are removed. -/
def notifyInTurn (c : Cache α) (event : Event) : List (Handover α) × Cache α :=
  let given := giveAll event c.registeredHandles c
  (given.1, given.2.prune (closedHandles given.1))

/-- The subscription when the listener has been given the event and not been asked yet. -/
def received (event : Event) (s : Subscription α) : Subscription α :=
  { s with listener := Listener.receive s.listener event }

/-- The event changes its room and is then given to the listeners in turn. -/
def acceptInTurn (c : Cache α) (event : Event) : List (Handover α) × Cache α :=
  let taken := c.takeIn event
  let given := giveAll event taken.2 taken.1
  (given.1, given.2.prune (closedHandles given.1))

theorem get?_give (c : Cache α) (handle : Nat) (event : Event) (other : Nat) :
    (c.give handle event).subscriptions.get? other =
      if other = handle then (c.subscriptions.get? other).map (received event)
      else c.subscriptions.get? other :=
  c.get?_modifyListener handle _ other

theorem get?_giveAll (event : Event) {handles : List Nat} (nodup : handles.Nodup) (c : Cache α)
    (other : Nat) :
    (giveAll event handles c).2.subscriptions.get? other =
      if other ∈ handles then (c.subscriptions.get? other).map (received event)
      else c.subscriptions.get? other := by
  induction handles generalizing c with
  | nil => rfl
  | cons handle rest ih =>
      obtain ⟨hfirst, hrest⟩ := List.nodup_cons.mp nodup
      change (giveAll event rest (c.give handle event)).2.subscriptions.get? other = _
      rw [ih hrest, get?_give]
      by_cases hother : other = handle
      · subst hother
        rw [if_neg hfirst, if_pos rfl, if_pos List.mem_cons_self]
      · rw [if_neg hother]
        simp only [List.mem_cons, hother, false_or]

theorem handles_giveAll (event : Event) (handles : List Nat) (c : Cache α) :
    (giveAll event handles c).1.map (·.handle) = handles := by
  induction handles generalizing c with
  | nil => rfl
  | cons handle rest ih => exact congrArg (handle :: ·) (ih (c.give handle event))

theorem listener?_give (c : Cache α) (handle : Nat) (event : Event) (other : Nat) :
    (c.give handle event).listener? other =
      if other = handle then
        (c.listener? other).map fun listener => Listener.receive listener event
      else c.listener? other :=
  c.listener?_modifyListener handle _ other

/-- Whether the listener under the handle is closed once it has the event. -/
def closedBy (c : Cache α) (event : Event) (handle : Nat) : Bool :=
  (c.listener? handle).any fun listener => Listener.isClosed (Listener.receive listener event)

/-- A delivery finds the rooms, and the listener that gets it, as they were at the start. -/
theorem mem_giveAll {event : Event} {handles : List Nat} (nodup : handles.Nodup) {c : Cache α}
    {d : Handover α} (h : d ∈ (giveAll event handles c).1) :
    d.event = event ∧ d.found.rooms = c.rooms ∧
      d.found.listener? d.handle = c.listener? d.handle ∧ d.closed = c.closedBy event d.handle := by
  induction handles generalizing c with
  | nil => simp [giveAll] at h
  | cons handle rest ih =>
      obtain ⟨hfirst, hrest⟩ := List.nodup_cons.mp nodup
      rw [giveAll_cons] at h
      rcases List.mem_cons.mp h with rfl | hlater
      · refine ⟨rfl, rfl, rfl, ?_⟩
        dsimp only
        unfold reportsClosed closedBy
        rw [listener?_give, if_pos rfl, Option.any_map]
      · obtain ⟨hevent, hrooms, hlistener, hclosed⟩ := ih hrest hlater
        have hhandle : d.handle ∈ rest := by
          rw [← handles_giveAll event rest (c.give handle event)]
          exact List.mem_map_of_mem hlater
        -- The listener gets the event only once, so those before it are others.
        have hother : d.handle ≠ handle := fun heq => hfirst (heq ▸ hhandle)
        have hsame : (c.give handle event).listener? d.handle = c.listener? d.handle := by
          rw [listener?_give, if_neg hother]
        have hframe : (c.give handle event).rooms = c.rooms := by
          unfold give
          rw [modifyListener_eq]
        refine ⟨hevent, hrooms.trans hframe, hlistener.trans hsame, ?_⟩
        unfold closedBy at hclosed ⊢
        rw [hclosed, hsame]

theorem mem_closedHandles_giveAll {event : Event} {handles : List Nat} (nodup : handles.Nodup)
    {c : Cache α} {handle : Nat} :
    handle ∈ closedHandles (giveAll event handles c).1 ↔
      handle ∈ handles ∧ c.closedBy event handle = true := by
  unfold closedHandles
  rw [List.mem_map]
  constructor
  · rintro ⟨d, hd, rfl⟩
    obtain ⟨hmem, hclosed⟩ := List.mem_filter.mp hd
    refine ⟨?_, (mem_giveAll nodup hmem).2.2.2 ▸ hclosed⟩
    rw [← handles_giveAll event handles c]
    exact List.mem_map_of_mem hmem
  · rintro ⟨hmem, hclosed⟩
    rw [← handles_giveAll event handles c] at hmem
    obtain ⟨d, hd, rfl⟩ := List.mem_map.mp hmem
    exact ⟨d, List.mem_filter.mpr ⟨hd, (mem_giveAll nodup hd).2.2.2 ▸ hclosed⟩, rfl⟩

/-- Nothing but the listeners is changed by what they are given. -/
theorem giveAll_eq (event : Event) (handles : List Nat) (c : Cache α) :
    (giveAll event handles c).2 =
      { c with subscriptions := (giveAll event handles c).2.subscriptions } := by
  induction handles generalizing c with
  | nil => rfl
  | cons handle rest ih =>
      have hgiven : c.give handle event =
          { c with subscriptions := (c.give handle event).subscriptions } :=
        c.modifyListener_eq handle _
      change (giveAll event rest (c.give handle event)).2 =
        { c with
          subscriptions := (giveAll event rest (c.give handle event)).2.subscriptions }
      rw [ih, hgiven]

/-! ## The same as all at once -/

theorem notifyInTurn_eq_notify (c : Cache α) (event : Event) :
    (c.notifyInTurn event).2 = c.notify event := by
  have hsubscriptions :
      (c.notifyInTurn event).2.subscriptions = (c.notify event).subscriptions := by
    apply SortedMap.ext_get?
    intro handle
    have hnodup := c.nodup_registeredHandles
    unfold notifyInTurn notify
    dsimp only
    rw [get?_prune, get?_giveAll event hnodup, SortedMap.get?_map]
    simp only [mem_closedHandles_giveAll hnodup, mem_registeredHandles]
    unfold closedBy listener?
    cases hget : c.subscriptions.get? handle with
    | none => simp
    | some s =>
        unfold Subscription.deliver received
        cases hregistered : s.registered <;>
          cases hclosed : Listener.isClosed (Listener.receive s.listener event) <;>
            simp [hregistered, hclosed]
  have hframe : (c.notifyInTurn event).2 =
      { c with subscriptions := (c.notifyInTurn event).2.subscriptions } := by
    unfold notifyInTurn
    dsimp only
    rw [prune_eq, giveAll_eq]
  rw [hframe, hsubscriptions]
  rfl

theorem mem_registeredHandles_notify {c : Cache α} {event : Event} {handle : Nat} :
    handle ∈ (c.notify event).registeredHandles ↔
      handle ∈ c.registeredHandles ∧ c.closedBy event handle = false := by
  rw [mem_registeredHandles, mem_registeredHandles]
  unfold notify closedBy listener?
  dsimp only
  rw [SortedMap.get?_map]
  cases c.subscriptions.get? handle with
  | none => simp
  | some s =>
      unfold Subscription.deliver
      cases hregistered : s.registered <;> simp [hregistered]

theorem listener?_notify (c : Cache α) (event : Event) (handle : Nat) :
    (c.notify event).listener? handle =
      if handle ∈ c.registeredHandles then
        (c.listener? handle).map fun listener => Listener.receive listener event
      else c.listener? handle := by
  simp only [mem_registeredHandles]
  unfold notify listener?
  dsimp only
  rw [SortedMap.get?_map]
  cases c.subscriptions.get? handle with
  | none => simp
  | some s =>
      unfold Subscription.deliver
      cases hregistered : s.registered <;> simp [hregistered]

theorem acceptInTurn_eq (c : Cache α) (event : Event) :
    c.acceptInTurn event = (c.applyEvent event).notifyInTurn event :=
  rfl

/-- The cache is the same as when all are given the event at once. -/
theorem acceptInTurn_cache (c : Cache α) (event : Event) :
    (c.acceptInTurn event).2 = (c.accept event).1 := by
  rw [acceptInTurn_eq, notifyInTurn_eq_notify]
  rfl

/-- The deliveries are the same, in the same order. -/
theorem acceptInTurn_deliveries (c : Cache α) (event : Event) :
    (c.acceptInTurn event).1.map (fun d => (⟨d.handle, d.event⟩ : Delivery)) =
      (c.accept event).2 := by
  have hhandles : (c.acceptInTurn event).1.map (·.handle) = (c.takeIn event).2 :=
    handles_giveAll event (c.takeIn event).2 (c.takeIn event).1
  unfold accept
  dsimp only
  rw [← hhandles, List.map_map]
  refine List.map_congr_left fun d hd => ?_
  have hevent : d.event = event :=
    (mem_giveAll (c.applyEvent event).nodup_registeredHandles hd).1
  rw [hevent]
  rfl

end Cache

end SlidingSync
