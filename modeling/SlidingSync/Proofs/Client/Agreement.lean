import SlidingSync.Proofs.Client.Exchange
import SlidingSync.Proofs.Request.Delta

/-! # Clients that keep up

When a session hears of every batch before the next one is ingested, its client has in every
window what the cache has. Not every event of a batch need be heard: a batch is about one room,
and any of its events has the session look at that room. The lists whose windows these are come
from the bodies that passed the check, merged one after the other.
-/

namespace SlidingSync

/-- Events of one room that are ingested together, and those that reach the session. -/
structure Batch where
  room : RoomId
  events : List Payload
  position : Int64
  heard : List Event
  inOrder : heard.Sublist (events.map fun json => Event.parse room json position)
  some : events ≠ [] → heard ≠ []

namespace Batch

def parsed (b : Batch) : List Event :=
  b.events.map fun json => Event.parse b.room json b.position

theorem room_of_parsed (b : Batch) {event : Event} (h : event ∈ b.parsed) :
    event.room = b.room := by
  obtain ⟨json, -, rfl⟩ := List.mem_map.mp h
  rfl

theorem room_of_heard (b : Batch) {event : Event} (h : event ∈ b.heard) :
    event.room = b.room :=
  b.room_of_parsed (b.inOrder.subset h)

end Batch

namespace Exchange

variable {α : Type} [Listener α]

inductive Turn
  | request (body : Request)
  | batch (b : Batch)

/-- A batch is ingested and the session takes note of what it heard; only a live cache takes one. -/
def batch (x : Exchange α) (b : Batch) : Exchange α :=
  let ingestion := x.cache.ingest b.room b.events b.position
  match ingestion.outcome with
  | .ok () => b.heard.foldl notice { x with cache := ingestion.cache }
  | .error _ => x

def turn (x : Exchange α) : Turn → Exchange α
  | .request body => x.request body
  | .batch b => x.batch b

def after (cache : Cache α) (user : UserId) (config : Config) (turns : List Turn) : Exchange α :=
  turns.foldl turn (start cache user config)

/-! ## One turn -/

omit [Listener α] in
/-- The cache stays as it is, so after one event the session has caught up. -/
theorem Agrees.notices {x : Exchange α} (h : x.Agrees) (heard : List Event) :
    (heard.foldl Exchange.notice x).Agrees := by
  induction heard generalizing x with
  | nil => exact h
  | cons event rest ih => exact ih (h.notice x.cache event fun _ _ => rfl)

theorem batch_of_live {x : Exchange α} (live : x.cache.phase = .live) (b : Batch) :
    x.batch b = b.heard.foldl notice { x with cache := (x.cache.acceptAll b.parsed).1 } := by
  unfold batch
  rw [Cache.ingest_of_live live]
  rfl

theorem batch_of_not_live {x : Exchange α} (h : x.cache.phase ≠ .live) (b : Batch) :
    x.batch b = x := by
  unfold batch
  rw [Cache.ingest_of_not_live h]

theorem Agrees.batch {x : Exchange α} (h : x.Agrees) (b : Batch) : (x.batch b).Agrees := by
  by_cases hlive : x.cache.phase = .live
  · rw [batch_of_live hlive]
    cases hheard : b.heard with
    | nil =>
        have hnone : b.events = [] := by
          by_contra hsome
          exact b.some hsome hheard
        have hparsed : b.parsed = [] := by
          unfold Batch.parsed
          rw [hnone, List.map_nil]
        rw [hparsed]
        exact h
    | cons event rest =>
        have hevent : event.room = b.room := b.room_of_heard (by simp [hheard])
        have hothers : ∀ id, id ≠ event.room →
            x.cache.rooms.get? id = (x.cache.acceptAll b.parsed).1.rooms.get? id := by
          intro id hid
          refine (Cache.acceptAll_get?_of_ne ?_ x.cache).symm
          intro e he
          rwa [b.room_of_parsed he, ← hevent]
        exact (h.notice _ event hothers).notices rest
  · rw [batch_of_not_live hlive]
    exact h

theorem Agrees.turn {x : Exchange α} (h : x.Agrees) (t : Turn) : (x.turn t).Agrees := by
  cases t with
  | request body => exact h.request body
  | batch b => exact h.batch b

/-! ## All turns -/

theorem agrees_after (cache : Cache α) (user : UserId) (config : Config) (turns : List Turn) :
    (after cache user config turns).Agrees := by
  have hrun : ∀ x : Exchange α, x.Agrees → (turns.foldl Exchange.turn x).Agrees := by
    induction turns with
    | nil => exact fun x h => h
    | cons t rest ih => exact fun x h => ih (x.turn t) (h.turn t)
  exact hrun _ (agrees_start cache user config)

/-! ## The request that is in force -/

/-- The body that the session takes over in a turn, when it is one that passes the check. -/
def Turn.accepted? (limit : UInt64) : Turn → Option Request
  | .request body =>
      match body.validate limit with
      | .ok () => some body
      | .error _ => none
  | .batch _ => none

/-- The session has these bodies merged and checks others against this limit. -/
structure Merges (x : Exchange α) (limit : UInt64) (bodies : List Request) : Prop where
  request : x.session.request = Request.mergeAll none bodies
  limit : x.session.maxTimelineLimit = limit

variable {x : Exchange α} {limit : UInt64} {bodies : List Request}

omit [Listener α] in
theorem Merges.notice (h : x.Merges limit bodies) (event : Event) :
    (x.notice event).Merges limit bodies := by
  obtain ⟨_, hframe⟩ := x.session.handleEvent_frame x.cache.snapshot event.room
  exact ⟨(congrArg Session.request hframe).trans h.request,
    (congrArg Session.maxTimelineLimit hframe).trans h.limit⟩

omit [Listener α] in
theorem Merges.notices (h : x.Merges limit bodies) (heard : List Event) :
    (heard.foldl Exchange.notice x).Merges limit bodies := by
  induction heard generalizing x with
  | nil => exact h
  | cons event rest ih => exact ih (h.notice event)

theorem Merges.batch (h : x.Merges limit bodies) (b : Batch) :
    (x.batch b).Merges limit bodies := by
  by_cases hlive : x.cache.phase = .live
  · have hfed : Merges { x with cache := (x.cache.acceptAll b.parsed).1 } limit bodies :=
      ⟨h.request, h.limit⟩
    rw [batch_of_live hlive]
    exact hfed.notices b.heard
  · rw [batch_of_not_live hlive]
    exact h

omit [Listener α] in
theorem Merges.answer (h : x.Merges limit bodies) (known : x.session.SortsKnown)
    (body : Request) :
    (x.request body).Merges limit (bodies ++ ((Turn.request body).accepted? limit).toList) := by
  have hlimit := h.limit
  subst hlimit
  unfold Turn.accepted?
  dsimp only
  cases hv : body.validate x.session.maxTimelineLimit with
  | error fault =>
      have hanswer : (x.request body).session = x.session :=
        congrArg Prod.snd (Session.handleRequest_refused hv x.cache.snapshot)
      rw [Option.toList_none, List.append_nil]
      exact ⟨hanswer ▸ h.request, hanswer ▸ rfl⟩
  | ok _ =>
      have hanswer := congrArg Prod.snd (Session.handleRequest_accepted known hv x.cache.snapshot)
      change (x.request body).session = _ at hanswer
      constructor
      · rw [hanswer, h.request, Option.toList_some]
        unfold Request.mergeAll
        rw [List.foldl_concat]
      · rw [hanswer]

theorem Merges.turn (h : x.Merges limit bodies) (known : x.session.SortsKnown) (t : Turn) :
    (x.turn t).Merges limit (bodies ++ (t.accepted? limit).toList) := by
  cases t with
  | request body => exact h.answer known body
  | batch b =>
      change (x.batch b).Merges limit (bodies ++ [])
      rw [List.append_nil]
      exact h.batch b

theorem merges_after (cache : Cache α) (user : UserId) (config : Config) (turns : List Turn) :
    (after cache user config turns).Merges config.maxTimelineLimit
      (turns.filterMap (Turn.accepted? config.maxTimelineLimit)) := by
  induction turns using List.reverseRecOn with
  | nil => exact ⟨rfl, rfl⟩
  | append_singleton before last ih =>
      have hafter : after cache user config (before ++ [last]) =
          (after cache user config before).turn last :=
        List.foldl_concat Exchange.turn (start cache user config) last before
      have hlast : [last].filterMap (Turn.accepted? config.maxTimelineLimit) =
          (last.accepted? config.maxTimelineLimit).toList := by
        rw [List.filterMap_cons]
        cases last.accepted? config.maxTimelineLimit <;> rfl
      rw [hafter, List.filterMap_append, hlast]
      exact ih.turn (agrees_after cache user config before).sortsKnown last

/--
After any turns the client has every window as it is over the cache, for the lists of
the bodies that passed the check, merged in their order.
-/
theorem every_window_is_kept (cache : Cache α) (user : UserId) (config : Config)
    (turns : List Turn) :
    (after cache user config turns).Kept ∧
      (after cache user config turns).session.request =
        Request.mergeAll none (turns.filterMap (Turn.accepted? config.maxTimelineLimit)) :=
  ⟨(agrees_after cache user config turns).kept, (merges_after cache user config turns).request⟩

end Exchange

end SlidingSync
