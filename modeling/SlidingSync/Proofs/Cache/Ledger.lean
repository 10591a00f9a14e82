import SlidingSync.Channel
import Mathlib.Data.List.Induction

/-! # The books of a channel

The ledger of a channel keeps what its receiver has got, and every event that was offered with the
number of events that it found in the queue. Offers that found the queue full were left out, one by
one counted; all others were received or are queued, in order, for as long as there is a receiver.
-/

namespace SlidingSync.Channel

inductive Act
  | offer (event : Event)
  | receive (count : Nat)
  | close

/-- An event offered, and how many the queue held. -/
structure Offer where
  event : Event
  held : Nat

structure Ledger where
  channel : Channel
  received : List Event := []
  offers : List Offer := []

namespace Ledger

def opened (capacity : Nat) : Ledger where
  channel := Channel.new capacity

def act (l : Ledger) : Act → Ledger
  | .offer event =>
      { l with
        channel := l.channel.send event
        offers := l.offers ++ [⟨event, l.channel.queue.length⟩] }
  | .receive count =>
      { l with
        channel := (l.channel.take count).2
        received := l.received ++ (l.channel.take count).1 }
  | .close => { l with channel := l.channel.close }

def run (l : Ledger) (acts : List Act) : Ledger :=
  acts.foldl act l

/-- The books are in order, for a queue of at most `limit` events. -/
structure Balanced (limit : Nat) (l : Ledger) : Prop where
  capacity : l.channel.capacity = limit
  queued : l.channel.queue.length ≤ limit
  held : ∀ offer ∈ l.offers, offer.held ≤ limit
  dropped : l.channel.dropped = (l.offers.filter fun offer => offer.held = limit).length
  kept : l.channel.receiverGone = false →
    l.received ++ l.channel.queue =
      (l.offers.filter fun offer => offer.held ≠ limit).map (·.event)
  /-- What is not received when the receiver goes is lost. -/
  lost : l.channel.receiverGone = true → l.channel.queue = []

theorem balanced_opened (capacity : Nat) : (opened capacity).Balanced (max 1 capacity) where
  capacity := Nat.max_comm capacity 1
  queued := Nat.zero_le _
  held := by simp [opened]
  dropped := rfl
  kept _ := rfl
  lost _ := rfl

/-! ## Offers -/

variable {limit : Nat} {l : Ledger}

theorem act_offer (l : Ledger) (event : Event) :
    l.act (.offer event) =
      ⟨l.channel.send event, l.received, l.offers ++ [⟨event, l.channel.queue.length⟩]⟩ :=
  rfl

theorem Balanced.held_concat (h : l.Balanced limit) (event : Event) :
    ∀ offer ∈ l.offers ++ [⟨event, l.channel.queue.length⟩], offer.held ≤ limit := by
  intro offer hmem
  rcases List.mem_append.mp hmem with hmem | hmem
  · exact h.held offer hmem
  · rw [List.mem_singleton.mp hmem]
    exact h.queued

theorem Balanced.offer_of_gone (h : l.Balanced limit) (positive : 0 < limit)
    (gone : l.channel.receiverGone = true) (event : Event) :
    (l.act (.offer event)).Balanced limit := by
  -- The queue of a channel without receiver is empty, so it is not taken for a full one.
  have hroom : l.channel.queue.length ≠ limit := by
    rw [h.lost gone]
    exact Nat.ne_of_lt positive
  have hsend : l.channel.send event = l.channel := if_pos gone
  rw [act_offer, hsend]
  refine ⟨h.capacity, h.queued, h.held_concat event, ?_, fun halive => ?_, h.lost⟩
  · simp [hroom, h.dropped]
  · rw [gone] at halive
    contradiction

theorem Balanced.offer_of_room (h : l.Balanced limit) (alive : l.channel.receiverGone = false)
    (room : l.channel.queue.length < limit) (event : Event) :
    (l.act (.offer event)).Balanced limit := by
  have hsend : l.channel.send event =
      { l.channel with queue := l.channel.queue ++ [event] } := by
    unfold send
    rw [if_neg (by simp [alive]), if_pos (h.capacity.symm ▸ room)]
  have hroom : l.channel.queue.length ≠ limit := Nat.ne_of_lt room
  rw [act_offer, hsend]
  refine ⟨h.capacity, ?_, h.held_concat event, ?_, fun _ => ?_, fun hgone => ?_⟩
  · rw [List.length_append]
    exact room
  · simp [hroom, h.dropped]
  · have hkept : ∀ offer : Offer, offer.held ≠ limit →
        ((l.offers ++ [offer]).filter fun o => o.held ≠ limit).map (·.event) =
          (l.offers.filter fun o => o.held ≠ limit).map (·.event) ++ [offer.event] :=
      fun offer hoffer => by simp [hoffer]
    rw [hkept _ hroom, ← h.kept alive, List.append_assoc]
  · rw [alive] at hgone
    contradiction

theorem Balanced.offer_of_full (h : l.Balanced limit) (alive : l.channel.receiverGone = false)
    (full : l.channel.queue.length = limit) (event : Event) :
    (l.act (.offer event)).Balanced limit := by
  have hfull : ¬ l.channel.queue.length < l.channel.capacity := by
    rw [h.capacity, full]
    exact Nat.lt_irrefl limit
  have hsend : l.channel.send event = { l.channel with dropped := l.channel.dropped + 1 } := by
    unfold send
    rw [if_neg (by simp [alive]), if_neg hfull]
  rw [act_offer, hsend]
  refine ⟨h.capacity, h.queued, h.held_concat event, ?_, fun _ => ?_, h.lost⟩
  · simp [full, h.dropped]
  · simpa [full] using h.kept alive

theorem Balanced.offer (h : l.Balanced limit) (positive : 0 < limit) (event : Event) :
    (l.act (.offer event)).Balanced limit := by
  cases hgone : l.channel.receiverGone with
  | true => exact h.offer_of_gone positive hgone event
  | false =>
      rcases Nat.lt_or_eq_of_le h.queued with hroom | hfull
      · exact h.offer_of_room hgone hroom event
      · exact h.offer_of_full hgone hfull event

/-! ## Runs -/

theorem Balanced.act (h : l.Balanced limit) (positive : 0 < limit) :
    ∀ act : Act, (l.act act).Balanced limit
  | .offer event => h.offer positive event
  | .receive count =>
      { capacity := h.capacity
        queued := by
          have hdrop : (l.channel.queue.drop count).length ≤ l.channel.queue.length := by
            rw [List.length_drop]
            exact Nat.sub_le _ _
          exact Nat.le_trans hdrop h.queued
        held := h.held
        dropped := h.dropped
        kept := fun halive => by
          change (l.received ++ l.channel.queue.take count) ++ l.channel.queue.drop count = _
          rw [List.append_assoc, List.take_append_drop]
          exact h.kept halive
        lost := fun hgone => by
          change l.channel.queue.drop count = []
          rw [h.lost hgone, List.drop_nil] }
  | .close =>
      { capacity := h.capacity
        queued := Nat.zero_le _
        held := h.held
        dropped := h.dropped
        kept := fun halive => by contradiction
        lost := fun _ => rfl }

theorem balanced_run (capacity : Nat) (acts : List Act) :
    ((opened capacity).run acts).Balanced (max 1 capacity) := by
  have hpositive : 0 < max 1 capacity := Nat.lt_of_lt_of_le Nat.one_pos (Nat.le_max_left _ _)
  unfold run
  induction acts using List.reverseRecOn with
  | nil => exact balanced_opened capacity
  | append_singleton before act ih =>
      rw [List.foldl_append]
      exact ih.act hpositive act

/-! ## The receiver -/

theorem run_append (l : Ledger) (first second : List Act) :
    l.run (first ++ second) = (l.run first).run second :=
  List.foldl_append

/-- Nobody counts for a receiver that has gone, and it does not come back. -/
theorem run_of_gone {l : Ledger} (gone : l.channel.receiverGone = true) (acts : List Act) :
    (l.run acts).channel.receiverGone = true ∧
      (l.run acts).channel.dropped = l.channel.dropped := by
  induction acts generalizing l with
  | nil => exact ⟨gone, rfl⟩
  | cons act rest ih =>
      have hact : (l.act act).channel.receiverGone = true ∧
          (l.act act).channel.dropped = l.channel.dropped := by
        cases act with
        | offer event =>
            have hsend : l.channel.send event = l.channel := if_pos gone
            exact ⟨(congrArg receiverGone hsend).trans gone, congrArg dropped hsend⟩
        | receive count => exact ⟨gone, rfl⟩
        | close => exact ⟨rfl, rfl⟩
      obtain ⟨hgone, hdropped⟩ := ih hact.1
      exact ⟨hgone, hdropped.trans hact.2⟩

theorem alive_run {acts : List Act} (served : .close ∉ acts) {l : Ledger}
    (alive : l.channel.receiverGone = false) : (l.run acts).channel.receiverGone = false := by
  induction acts generalizing l with
  | nil => exact alive
  | cons act rest ih =>
      rw [List.mem_cons, not_or] at served
      refine ih served.2 ?_
      cases act with
      | offer event =>
          change (l.channel.send event).receiverGone = false
          unfold send
          split
          · exact alive
          · split <;> exact alive
      | receive count => exact alive
      | close => exact absurd rfl served.1

end Ledger

end SlidingSync.Channel
