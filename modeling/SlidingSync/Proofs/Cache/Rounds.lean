import SlidingSync.Proofs.Cache.Delivery
import SlidingSync.Proofs.Cache.Ledger
import Mathlib.Logic.Function.Iterate

/-! # Channels while events are given out

An event goes round the listeners one step at a time: a listener gets it, then is asked whether it
is closed, and in the end those that are closed are removed. Between any two steps receivers may
take events from their channels or go, and listeners may come and leave. Whatever the order, a
channel sees offers, receipts and at some time its end, so its books are in order; and once its
receiver has gone, the next round that reaches it takes it out of the cache.
-/

namespace SlidingSync

instance {α β : Type} [Listener α] [Listener β] : Listener (α ⊕ β) where
  receive listener event :=
    listener.map (fun listener => Listener.receive listener event)
      fun listener => Listener.receive listener event
  isClosed := Sum.elim Listener.isClosed Listener.isClosed

structure Round where
  event : Event
  /-- Who has the event and is still to be asked. -/
  unasked : Option Nat := none
  /-- Who is still to get it. -/
  waiting : List Nat
  /-- Who has said to be closed. -/
  closed : List Nat := []

structure Dispatch (α : Type) where
  cache : Cache α
  round : Option Round := none

namespace Dispatch

variable {α β : Type}

section Steps

variable [Listener α]

/-- The event changes its room, and its round begins. -/
def begin (c : Cache α) (event : Event) : Dispatch α :=
  let taken := c.takeIn event
  ⟨taken.1, some { event, waiting := taken.2 }⟩

def proceed (s : Dispatch α) : Dispatch α :=
  match s.round with
  | none => s
  | some ⟨event, some handle, waiting, closed⟩ =>
      ⟨s.cache,
        some ⟨event, none, waiting,
          if s.cache.reportsClosed handle then closed ++ [handle] else closed⟩⟩
  | some ⟨event, none, handle :: waiting, closed⟩ =>
      ⟨s.cache.give handle event, some ⟨event, some handle, waiting, closed⟩⟩
  | some ⟨_, none, [], closed⟩ => ⟨s.cache.prune closed, none⟩

/-- A round that nobody interferes with. -/
theorem iterate_proceed (event : Event) (handles closed : List Nat) (c : Cache α) :
    proceed^[2 * handles.length + 1] ⟨c, some ⟨event, none, handles, closed⟩⟩ =
      ⟨(Cache.giveAll event handles c).2.prune
        (closed ++ Cache.closedHandles (Cache.giveAll event handles c).1), none⟩ := by
  induction handles generalizing closed c with
  | nil => simp [proceed, Cache.giveAll, Cache.closedHandles]
  | cons handle rest ih =>
      have hsteps : 2 * (handle :: rest).length + 1 = (2 * rest.length + 1) + 1 + 1 := by
        rw [List.length_cons]
        omega
      rw [hsteps, Function.iterate_succ_apply, Function.iterate_succ_apply, Cache.giveAll_cons]
      have htwo : proceed (proceed ⟨c, some ⟨event, none, handle :: rest, closed⟩⟩) =
          ⟨c.give handle event,
            some ⟨event, none, rest,
              if (c.give handle event).reportsClosed handle then closed ++ [handle]
              else closed⟩⟩ :=
        rfl
      rw [htwo, ih]
      unfold Cache.closedHandles
      cases hclosed : (c.give handle event).reportsClosed handle <;> simp [hclosed]

/-- Left alone, the round of an event comes to what the cache does all at once. -/
theorem iterate_begin (c : Cache α) (event : Event) :
    proceed^[2 * c.registeredHandles.length + 1] (begin c event) = ⟨(c.accept event).1, none⟩ := by
  have hround := iterate_proceed event (c.takeIn event).2 [] (c.takeIn event).1
  rw [List.nil_append] at hround
  rw [← c.acceptInTurn_cache event]
  exact hround

end Steps

/-! ## Acts -/

/-- What can be done at any time, also in the middle of a round. -/
inductive Act (β : Type)
  /-- An event comes in; it is taken when the cache is live and no round is going on. -/
  | ingest (room : RoomId) (json : Payload) (position : Int64)
  | proceed
  | subscribe (listener : Channel ⊕ β)
  | unsubscribe (handle : Nat)
  | receive (handle count : Nat)
  | close (handle : Nat)
  /-- Something that does not concern listeners, as populations do. -/
  | replace (phase : Phase) (rooms : SortedMap RoomId RoomSummary)

variable [Listener β]

def step (s : Dispatch (Channel ⊕ β)) : Act β → Dispatch (Channel ⊕ β)
  | .ingest room json position =>
      if s.cache.phase = .live ∧ s.round.isNone then
        begin s.cache (Event.parse room json position)
      else s
  | .proceed => s.proceed
  | .subscribe listener => { s with cache := (s.cache.subscribe listener).2 }
  | .unsubscribe handle => { s with cache := (s.cache.unsubscribe handle).2 }
  | .receive handle count =>
      { s with cache := s.cache.modifyListener handle (Sum.map (fun c => (c.take count).2) id) }
  | .close handle => { s with cache := s.cache.modifyListener handle (Sum.map Channel.close id) }
  | .replace phase rooms => { s with cache := { s.cache with phase, rooms } }

def run (s : Dispatch (Channel ⊕ β)) (acts : List (Act β)) : Dispatch (Channel ⊕ β) :=
  acts.foldl step s

/-- What an act is to the channel under the handle. -/
def seen (s : Dispatch (Channel ⊕ β)) (handle : Nat) : Act β → List Channel.Act
  | .proceed =>
      match s.round with
      | some ⟨event, none, first :: _, _⟩ => if handle = first then [.offer event] else []
      | _ => []
  | .receive other count => if handle = other then [.receive count] else []
  | .close other => if handle = other then [.close] else []
  | _ => []

omit [Listener β] in
/-- Only a delivery, and what the receiver does, is seen by a channel. -/
theorem seen_cases {s : Dispatch (Channel ⊕ β)} {handle : Nat} {act : Act β} {x : Channel.Act}
    (h : x ∈ s.seen handle act) :
    (∃ event waiting closed, act = .proceed ∧
        s.round = some ⟨event, none, handle :: waiting, closed⟩ ∧ x = .offer event) ∨
      (∃ count, act = .receive handle count ∧ x = .receive count) ∨
      (act = .close handle ∧ x = .close) := by
  unfold seen at h
  split at h
  · split at h
    · next event first waiting closed hround =>
      split at h
      · next hfirst =>
        subst hfirst
        exact .inl ⟨event, waiting, closed, rfl, hround, List.mem_singleton.mp h⟩
      · contradiction
    · contradiction
  · next other count =>
    split at h
    · next hother =>
      subst hother
      exact .inr (.inl ⟨count, rfl, List.mem_singleton.mp h⟩)
    · contradiction
  · next other =>
    split at h
    · next hother =>
      subst hother
      exact .inr (.inr ⟨rfl, List.mem_singleton.mp h⟩)
    · contradiction
  · contradiction

/-- What the channel under the handle sees of a run. -/
def log (s : Dispatch (Channel ⊕ β)) (handle : Nat) : List (Act β) → List Channel.Act
  | [] => []
  | act :: rest => s.seen handle act ++ (s.step act).log handle rest

/-! ## The channel of a handle -/

/-- The channel of the ledger is the one under the handle, and that is not given out again. -/
structure Serves (s : Dispatch (Channel ⊕ β)) (handle : Nat) (l : Channel.Ledger) : Prop where
  listener : s.cache.listener? handle = some (.inl l.channel)
  issued : handle < s.cache.nextHandle

variable {s : Dispatch (Channel ⊕ β)} {handle : Nat} {l l' : Channel.Ledger}

omit [Listener β] in
theorem Serves.modifyListener (h : s.Serves handle l) {other : Nat}
    {change : Channel ⊕ β → Channel ⊕ β} (round : Option Round)
    (changed : .inl l'.channel =
      if handle = other then change (.inl l.channel) else .inl l.channel) :
    Serves ⟨s.cache.modifyListener other change, round⟩ handle l' where
  listener := by
    rw [Cache.listener?_modifyListener, h.listener, changed]
    split <;> rfl
  issued := by
    rw [Cache.modifyListener_eq]
    exact h.issued

theorem Serves.proceed (h : s.Serves handle l) :
    s.proceed.Serves handle (l.run (s.seen handle .proceed)) := by
  obtain ⟨c, round⟩ := s
  rcases round with _ | ⟨event, _ | asked, _ | ⟨first, waiting⟩, closed⟩
  · exact h
  · refine ⟨?_, ?_⟩
    · change (c.prune closed).listener? handle = _
      rw [Cache.listener?_prune]
      exact h.listener
    · change handle < (c.prune closed).nextHandle
      rw [Cache.prune_eq]
      exact h.issued
  · refine h.modifyListener _ ?_
    unfold seen
    dsimp only
    split <;> rfl
  · exact ⟨h.listener, h.issued⟩
  · exact ⟨h.listener, h.issued⟩

theorem Serves.step (h : s.Serves handle l) (act : Act β) :
    (s.step act).Serves handle (l.run (s.seen handle act)) := by
  cases act with
  | ingest room json position =>
      unfold Dispatch.step
      dsimp only
      split
      · exact ⟨h.listener, h.issued⟩
      · exact h
  | proceed => exact h.proceed
  | subscribe listener =>
      refine ⟨?_, Nat.lt_succ_of_lt h.issued⟩
      change (s.cache.subscribe listener).2.listener? handle = _
      rw [Cache.listener?_subscribe, if_neg (Nat.ne_of_lt h.issued)]
      exact h.listener
  | unsubscribe other =>
      refine ⟨?_, ?_⟩
      · change (s.cache.unsubscribe other).2.listener? handle = _
        rw [Cache.listener?_unsubscribe]
        exact h.listener
      · change handle < (s.cache.unsubscribe other).2.nextHandle
        rw [Cache.unsubscribe_eq]
        exact h.issued
  | receive other count =>
      refine h.modifyListener _ ?_
      unfold seen
      dsimp only
      split <;> rfl
  | close other =>
      refine h.modifyListener _ ?_
      unfold seen
      dsimp only
      split <;> rfl
  | replace phase rooms => exact ⟨h.listener, h.issued⟩

theorem Serves.run (h : s.Serves handle l) (acts : List (Act β)) :
    (s.run acts).Serves handle (l.run (s.log handle acts)) := by
  induction acts generalizing s l with
  | nil => exact h
  | cons act rest ih =>
      unfold log
      rw [Channel.Ledger.run_append]
      exact ih (h.step act)

/-! ## When the receiver has gone -/

/-- Under the handle nobody is registered, or nobody will be when the round is over. -/
def Leaving (s : Dispatch (Channel ⊕ β)) (handle : Nat) : Prop :=
  handle ∈ s.cache.registeredHandles →
    ∃ round, s.round = some round ∧ (round.unasked = some handle ∨ handle ∈ round.closed)

/-- Whoever has been given an event is asked next. -/
theorem leaving_of_offer {act : Act β} {event : Event}
    (offered : .offer event ∈ s.seen handle act) : (s.step act).Leaving handle := by
  obtain ⟨c, round⟩ := s
  rcases seen_cases offered with ⟨_, waiting, closed, rfl, rfl, -⟩ | ⟨_, -, hact⟩ | ⟨-, hact⟩
  · exact fun _ => ⟨_, rfl, .inl rfl⟩
  · contradiction
  · contradiction

omit [Listener β] in
theorem leaving_during {c : Cache (Channel ⊕ β)} {round : Round} :
    Leaving ⟨c, some round⟩ handle ↔
      (handle ∈ c.registeredHandles → round.unasked = some handle ∨ handle ∈ round.closed) := by
  simp [Leaving]

omit [Listener β] in
theorem leaving_between {c : Cache (Channel ⊕ β)} :
    Leaving ⟨c, none⟩ handle ↔ handle ∉ c.registeredHandles := by
  simp [Leaving]

theorem Leaving.proceed (h : s.Leaving handle) (serves : s.Serves handle l)
    (gone : l.channel.receiverGone = true) : s.proceed.Leaving handle := by
  obtain ⟨c, round⟩ := s
  rcases round with _ | ⟨event, _ | asked, waiting, closed⟩
  · exact h
  · rw [leaving_during] at h
    have hclosed : handle ∈ c.registeredHandles → handle ∈ closed :=
      fun hregistered => (h hregistered).resolve_left (by simp)
    cases waiting with
    -- At its end the round removes all those who have said to be closed.
    | nil =>
        refine leaving_between.mpr fun hregistered => ?_
        obtain ⟨hbefore, hkept⟩ := Cache.mem_registeredHandles_prune.mp hregistered
        exact hkept (hclosed hbefore)
    | cons first waiting =>
        refine leaving_during.mpr fun hregistered => .inr ?_
        exact hclosed (Cache.mem_registeredHandles_modifyListener.mp hregistered)
  · rw [leaving_during] at h
    refine leaving_during.mpr fun hregistered => .inr ?_
    dsimp only
    rcases h hregistered with hunasked | hclosed
    · obtain rfl : asked = handle := Option.some.inj hunasked
      have hreport : c.reportsClosed asked = true := by
        unfold Cache.reportsClosed
        rw [serves.listener]
        exact gone
      rw [if_pos hreport]
      exact List.mem_append_right _ List.mem_cons_self
    · split
      · exact List.mem_append_left _ hclosed
      · exact hclosed

theorem Leaving.step (h : s.Leaving handle) (serves : s.Serves handle l)
    (gone : l.channel.receiverGone = true) (act : Act β) : (s.step act).Leaving handle := by
  cases act with
  | ingest room json position =>
      unfold Dispatch.step
      dsimp only
      split
      · next hstart =>
        intro hregistered
        obtain ⟨round, hround, -⟩ := h hregistered
        rw [hround] at hstart
        simp at hstart
      · exact h
  | proceed => exact h.proceed serves gone
  | subscribe listener =>
      intro hregistered
      rcases Cache.mem_registeredHandles_subscribe.mp hregistered with hnew | hbefore
      · exact absurd hnew (Nat.ne_of_lt serves.issued)
      · exact h hbefore
  | unsubscribe other =>
      exact fun hregistered => h (Cache.mem_registeredHandles_unsubscribe.mp hregistered).1
  | receive other count =>
      exact fun hregistered => h (Cache.mem_registeredHandles_modifyListener.mp hregistered)
  | close other =>
      exact fun hregistered => h (Cache.mem_registeredHandles_modifyListener.mp hregistered)
  | replace phase rooms => exact h

theorem Leaving.run (h : s.Leaving handle) (serves : s.Serves handle l)
    (gone : l.channel.receiverGone = true) (acts : List (Act β)) :
    (s.run acts).Leaving handle := by
  induction acts generalizing s l with
  | nil => exact h
  | cons act rest ih =>
      have hgone := (Channel.Ledger.run_of_gone gone (s.seen handle act)).1
      exact ih (h.step serves gone act) (serves.step act) hgone

/-- One more offer, and the channel of a receiver that has gone leaves with the round. -/
theorem leaving_run (serves : s.Serves handle l) (gone : l.channel.receiverGone = true)
    {acts : List (Act β)} {event : Event} (offered : .offer event ∈ s.log handle acts) :
    (s.run acts).Leaving handle := by
  induction acts generalizing s l with
  | nil => simp [log] at offered
  | cons act rest ih =>
      have hgone := (Channel.Ledger.run_of_gone gone (s.seen handle act)).1
      rcases List.mem_append.mp offered with hnow | hlater
      · exact (leaving_of_offer hnow).run (serves.step act) hgone rest
      · exact ih (serves.step act) hgone hlater

/-! ## What every run keeps to -/

theorem log_append (s : Dispatch (Channel ⊕ β)) (handle : Nat) (first second : List (Act β)) :
    s.log handle (first ++ second) = s.log handle first ++ (s.run first).log handle second := by
  induction first generalizing s with
  | nil => rfl
  | cons act rest ih =>
      change s.seen handle act ++ (s.step act).log handle (rest ++ second) = _
      rw [ih, ← List.append_assoc]
      rfl

theorem close_mem_log {acts : List (Act β)} (h : .close ∈ s.log handle acts) :
    .close handle ∈ acts := by
  induction acts generalizing s with
  | nil => simp [log] at h
  | cons act rest ih =>
      rcases List.mem_append.mp h with hnow | hlater
      · rcases seen_cases hnow with ⟨_, _, _, -, -, hact⟩ | ⟨_, -, hact⟩ | ⟨rfl, -⟩
        · contradiction
        · contradiction
        · exact List.mem_cons_self
      · exact List.mem_cons_of_mem _ (ih hlater)

def opened (s : Dispatch (Channel ⊕ β)) (capacity : Nat) : Dispatch (Channel ⊕ β) :=
  s.step (.subscribe (.inl (Channel.new capacity)))

/-- The books of a channel that subscribes, after the acts that follow. -/
def ledger (s : Dispatch (Channel ⊕ β)) (capacity : Nat) (acts : List (Act β)) : Channel.Ledger :=
  (Channel.Ledger.opened capacity).run ((s.opened capacity).log s.cache.nextHandle acts)

theorem serves_opened (s : Dispatch (Channel ⊕ β)) (capacity : Nat) :
    (s.opened capacity).Serves s.cache.nextHandle (Channel.Ledger.opened capacity) where
  listener := by
    change (s.cache.subscribe _).2.listener? s.cache.nextHandle = _
    rw [Cache.listener?_subscribe, if_pos rfl]
    rfl
  issued := Nat.lt_succ_self _

theorem ledger_append (s : Dispatch (Channel ⊕ β)) (capacity : Nat) (before after : List (Act β)) :
    s.ledger capacity (before ++ after) =
      (s.ledger capacity before).run
        (((s.opened capacity).run before).log s.cache.nextHandle after) := by
  unfold ledger
  rw [log_append, Channel.Ledger.run_append]

/-- Once its receiver has gone a channel counts nothing more, and one more offer makes it leave. -/
theorem gone_channel_leaves (s : Dispatch (Channel ⊕ β)) (capacity : Nat)
    (before after : List (Act β)) :
    let handle := s.cache.nextHandle
    let closing := (s.opened capacity).run (before ++ [.close handle])
    (s.ledger capacity (before ++ .close handle :: after)).channel.dropped =
        (s.ledger capacity before).channel.dropped ∧
      ∀ event, .offer event ∈ closing.log handle after →
        (closing.run after).Leaving handle := by
  intro handle closing
  let l := s.ledger capacity (before ++ [.close handle])
  have hclose : l = (s.ledger capacity before).act .close := by
    have hseen : ∀ t : Dispatch (Channel ⊕ β), t.log handle [.close handle] = [.close] := by
      intro t
      simp [log, seen]
    change s.ledger capacity (before ++ [.close handle]) = _
    rw [ledger_append, hseen]
    rfl
  have hgone : l.channel.receiverGone = true := by
    rw [hclose]
    rfl
  have hserves : closing.Serves handle l := (serves_opened s capacity).run _
  have hsplit : before ++ .close handle :: after = (before ++ [.close handle]) ++ after := by
    rw [List.append_assoc, List.singleton_append]
  refine ⟨?_, fun event hoffer => leaving_run hserves hgone hoffer⟩
  rw [hsplit, ledger_append]
  refine (Channel.Ledger.run_of_gone hgone _).2.trans ?_
  rw [hclose]
  rfl

/--
A round that is left alone gives the event to the listeners as the cache does all at once.
Whatever is done between its steps, the channel that was opened is as its books say: its
queue never holds more than its capacity, of which there is one at least; it counts the
offers that found the queue full, and no others; and for as long as it has a receiver, the
events received and those queued are all others offered, in order. Once the receiver has
gone, the count stays, and with one more offer the handle is out of the cache when the
round is over.
-/
theorem channel_books_balance (s : Dispatch (Channel ⊕ β)) (capacity : Nat)
    (acts : List (Act β)) :
    let handle := s.cache.nextHandle
    let final := (s.opened capacity).run acts
    let books := s.ledger capacity acts
    (∀ (c : Cache (Channel ⊕ β)) (event : Event),
        proceed^[2 * c.registeredHandles.length + 1] (begin c event) =
          ⟨(c.accept event).1, none⟩) ∧
      final.cache.listener? handle = some (.inl books.channel) ∧
      books.channel.queue.length ≤ max 1 capacity ∧
      (∀ offer ∈ books.offers, offer.held ≤ max 1 capacity) ∧
      books.channel.dropped =
        (books.offers.filter fun offer => offer.held = max 1 capacity).length ∧
      (.close handle ∉ acts →
        books.received ++ books.channel.queue =
          (books.offers.filter fun offer => offer.held ≠ max 1 capacity).map (·.event)) ∧
      ∀ before after, acts = before ++ .close handle :: after →
        books.channel.dropped = (s.ledger capacity before).channel.dropped ∧
          ∀ event,
            .offer event ∈
                ((s.opened capacity).run (before ++ [.close handle])).log handle after →
              final.round = none → handle ∉ final.cache.registeredHandles := by
  intro handle final books
  have hbalanced : books.Balanced (max 1 capacity) :=
    Channel.Ledger.balanced_run capacity _
  refine ⟨iterate_begin, ((serves_opened s capacity).run acts).listener, hbalanced.queued,
    hbalanced.held, hbalanced.dropped, fun hserved => hbalanced.kept ?_, ?_⟩
  · exact Channel.Ledger.alive_run (fun hclose => hserved (close_mem_log hclose)) rfl
  · rintro before after rfl
    obtain ⟨hdropped, hleaving⟩ := gone_channel_leaves s capacity before after
    refine ⟨hdropped, fun event hoffer hidle hregistered => ?_⟩
    have hrun : final =
        ((s.opened capacity).run (before ++ [.close handle])).run after := by
      change (s.opened capacity).run (before ++ .close handle :: after) = _
      unfold run
      rw [← List.foldl_append, List.append_assoc, List.singleton_append]
    obtain ⟨round, hround, -⟩ := (hrun ▸ hleaving event hoffer : final.Leaving handle) hregistered
    rw [hidle] at hround
    contradiction

end Dispatch

end SlidingSync
