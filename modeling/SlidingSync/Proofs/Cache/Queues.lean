import SlidingSync.Proofs.Cache.Subscriptions

/-! # What a channel keeps of a batch

A cache takes all events of a batch before anyone looks at their channel. So a channel that was
empty before holds the first events of the batch after it, as many as it has room for.
-/

namespace SlidingSync

/-! ## Channels -/

/-- A channel for `kept` events, with its receiver still there, that has this queue. -/
structure Channel.Holds (c : Channel) (kept : Nat) (queue : List Event) : Prop where
  capacity : c.capacity = kept
  queue : c.queue = queue
  served : c.receiverGone = false

namespace Channel

variable {c : Channel} {kept : Nat}

theorem take_concat_take {α : Type} (past : List α) (a : α) (n : Nat) :
    (past.take n ++ [a]).take n = (past ++ [a]).take n := by
  rw [List.take_append, List.take_append, List.take_take, Nat.min_self, List.length_take]
  by_cases hshort : past.length ≤ n
  · rw [Nat.min_eq_right hshort]
  · have hnone : n - min n past.length = 0 := by omega
    have hnone' : n - past.length = 0 := by omega
    rw [hnone, hnone']

/-- A full channel keeps what came first. -/
theorem Holds.send {past : List Event} (h : c.Holds kept (past.take kept)) (event : Event) :
    (c.send event).Holds kept ((past ++ [event]).take kept) := by
  have hlength : c.queue.length ≤ kept := by
    rw [h.queue, List.length_take]
    exact Nat.min_le_left _ _
  rw [← take_concat_take, ← h.queue]
  unfold Channel.send
  rw [h.served, h.capacity]
  by_cases hroom : c.queue.length < kept
  · rw [if_neg Bool.false_ne_true, if_pos hroom]
    refine ⟨rfl, ?_, rfl⟩
    rw [List.take_of_length_le]
    rw [List.length_append, List.length_singleton]
    omega
  · have hfull : c.queue.length = kept := by omega
    rw [if_neg Bool.false_ne_true, if_neg hroom, List.take_append_of_le_length (by omega),
      List.take_of_length_le hlength]
    exact ⟨rfl, rfl, rfl⟩

theorem Holds.emptied {queue : List Event} (h : c.Holds kept queue) :
    (c.take c.queue.length).2.Holds kept [] where
  capacity := h.capacity
  queue := List.drop_length
  served := h.served

end Channel

/-! ## Channels of a cache -/

namespace Cache

/-- The channel under the handle gets events, has room for `kept` of them and this queue. -/
def Keeps (c : Cache Channel) (handle kept : Nat) (queue : List Event) : Prop :=
  ∃ channel, c.subscriptions.get? handle = some ⟨channel, true⟩ ∧ channel.Holds kept queue

variable {c : Cache Channel} {handle kept : Nat}

theorem keeps_subscribe (c : Cache Channel) (capacity : Nat) :
    (c.subscribe (.new capacity)).2.Keeps (c.subscribe (.new capacity)).1 (max capacity 1) [] := by
  refine ⟨.new capacity, ?_, rfl, rfl, rfl⟩
  rw [get?_subscribe]
  exact if_pos rfl

theorem Keeps.accept {past : List Event} (h : c.Keeps handle kept (past.take kept))
    (event : Event) : (c.accept event).1.Keeps handle kept ((past ++ [event]).take kept) := by
  obtain ⟨channel, hget, hholds⟩ := h
  have hsent := hholds.send event
  refine ⟨channel.send event, ?_, hsent⟩
  change (c.subscriptions.map fun _ s => s.deliver event).get? handle = _
  rw [SortedMap.get?_map, hget]
  change some (Subscription.mk (channel.send event) !(channel.send event).receiverGone) = _
  rw [hsent.served]
  rfl

theorem Keeps.acceptAll {past : List Event} (h : c.Keeps handle kept (past.take kept))
    (events : List Event) :
    (c.acceptAll events).1.Keeps handle kept ((past ++ events).take kept) := by
  induction events generalizing c past with
  | nil => rwa [List.append_nil]
  | cons event rest ih =>
      have hrest := ih (h.accept event)
      rw [List.append_assoc, List.singleton_append] at hrest
      exact hrest

theorem Keeps.emptied {queue : List Event} (h : c.Keeps handle kept queue) :
    (c.modifyListener handle fun channel => (channel.take channel.queue.length).2).Keeps handle
      kept [] := by
  obtain ⟨channel, hget, hholds⟩ := h
  refine ⟨(channel.take channel.queue.length).2, ?_, hholds.emptied⟩
  rw [get?_modifyListener, if_pos rfl, hget]
  rfl

theorem Keeps.listener? {queue : List Event} (h : c.Keeps handle kept queue) :
    ∃ channel, c.listener? handle = some channel ∧ channel.queue = queue := by
  obtain ⟨channel, hget, hholds⟩ := h
  refine ⟨channel, ?_, hholds.queue⟩
  unfold Cache.listener?
  rw [hget]
  rfl

end Cache

end SlidingSync
