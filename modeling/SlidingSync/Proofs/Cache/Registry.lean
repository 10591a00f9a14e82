import SlidingSync.Proofs.Cache.Happenings
import SlidingSync.Proofs.Cache.Lifecycle

/-! # Who is registered, over whole runs

Every run has a history, put together from what its calls do to the listeners, also those calls that
storage makes while a population asks it. The cache agrees with the history on who is registered and
on what has become of the listeners, call after call; so the deliveries are those the history calls
for, and nobody who stays is passed over.
-/

namespace SlidingSync

variable {α : Type} [Listener α]

namespace Cache

/-- The events ingested one after the other, each with its deliveries. -/
def ingestions (c : Cache α) : List Event → List (Happening α)
  | [] => []
  | event :: rest =>
      let taken := c.acceptInTurn event
      .ingested event taken.1 :: taken.2.ingestions rest

/-- What a call does to listeners by itself. -/
def Moment.happenings (m : Moment α) : List (Happening α) :=
  match m.call with
  | .ingest room events position =>
      if m.cache.phase = .live then
        m.cache.ingestions (events.map fun json => Event.parse room json position)
      else []
  | .subscribe listener => [.subscribed (m.cache.subscribe listener).1 listener]
  | .unsubscribe handle => [.unsubscribed handle (m.cache.unsubscribe handle).1]
  | .modify handle change => [.changed handle change]
  | .assign _ | .populate .. => []

def history (calls : List (Call α)) (c : Cache α) : List (Happening α) :=
  (momentsAll calls c).flatMap Moment.happenings

/-! ## Deliveries of a call -/

theorem acceptAll_deliveries (c : Cache α) (events : List Event) :
    (c.acceptAll events).2 = (c.ingestions events).flatMap Happening.deliveries := by
  induction events generalizing c with
  | nil => rfl
  | cons event rest ih =>
      have hfirst : Happening.deliveries (.ingested event (c.acceptInTurn event).1) =
          (c.accept event).2 :=
        c.acceptInTurn_deliveries event
      unfold ingestions
      dsimp only
      rw [List.flatMap_cons, hfirst, ← ih, acceptInTurn_cache]
      rfl

theorem ingested_ingestions (c : Cache α) (events : List Event) :
    History.ingested (c.ingestions events) = events := by
  induction events generalizing c with
  | nil => rfl
  | cons event rest ih =>
      unfold ingestions
      rw [History.ingested_cons, ih]
      rfl

theorem ingested_ingest (c : Cache α) (room : RoomId) (events : List Payload)
    (position : Int64) :
    History.ingested (Moment.happenings ⟨c, .ingest room events position⟩) =
      if c.phase = .live then events.map fun json => Event.parse room json position else [] := by
  unfold Moment.happenings
  dsimp only
  split
  · exact ingested_ingestions c _
  · rfl

theorem ingest_deliveries (c : Cache α) (room : RoomId) (events : List Payload)
    (position : Int64) :
    (c.ingest room events position).deliveries =
      (Moment.happenings ⟨c, .ingest room events position⟩).flatMap Happening.deliveries := by
  unfold Moment.happenings
  dsimp only
  by_cases hlive : c.phase = .live
  · rw [ingest_of_live hlive, if_pos hlive]
    exact acceptAll_deliveries c _
  · rw [ingest_of_not_live hlive, if_neg hlive]
    rfl

/-! ## The cache and its history -/

/-- What the cache holds of its listeners is what the past has left. -/
structure Reflects (c : Cache α) (past : List (Happening α)) : Prop where
  accorded : History.Accorded past
  registered : ∀ handle, handle ∈ c.registeredHandles ↔ History.Registered handle past
  listener : ∀ handle, c.listener? handle = History.listener? handle past
  issued : ∀ handle ∈ History.issued past, handle < c.nextHandle

structure SameListeners (c c' : Cache α) : Prop where
  subscriptions : c.subscriptions = c'.subscriptions
  nextHandle : c.nextHandle = c'.nextHandle

variable {c c' : Cache α} {past : List (Happening α)}

omit [Listener α] in
theorem sameListeners_loadLatest (rows : List StoredEvent) (c : Cache α) :
    c.SameListeners (rows.foldl loadLatest c) := by
  rw [foldl_loadLatest_eq]
  exact ⟨rfl, rfl⟩

theorem reflects_new : Reflects ({} : Cache α) [] where
  accorded := by simp [History.Accorded]
  registered := by simp [mem_registeredHandles, History.Registered]
  listener _ := rfl
  issued := by simp [History.issued]

theorem Reflects.of_same (h : c.Reflects past) (same : c.SameListeners c') :
    c'.Reflects past := by
  obtain ⟨phase, rooms, subscriptions, nextHandle⟩ := c
  obtain ⟨phase', rooms', subscriptions', nextHandle'⟩ := c'
  obtain ⟨rfl, rfl⟩ : subscriptions = subscriptions' ∧ nextHandle = nextHandle' :=
    ⟨same.subscriptions, same.nextHandle⟩
  exact ⟨h.accorded, h.registered, h.listener, h.issued⟩

/-- It is enough to know what one happening does. -/
theorem Reflects.concat (h : c.Reflects past) {x : Happening α} (accords : x.Accords past)
    (registered : ∀ handle, handle ∈ c'.registeredHandles ↔
      x.issued? = some handle ∨ (handle ∈ c.registeredHandles ∧ x.ends handle = false))
    (listener : ∀ handle, c'.listener? handle = x.effect handle (c.listener? handle))
    (issued : ∀ handle, x.issued? = some handle → handle < c'.nextHandle)
    (grown : c.nextHandle ≤ c'.nextHandle) : c'.Reflects (past ++ [x]) where
  accorded := h.accorded.concat accords
  registered handle := by rw [registered, History.registered_concat, h.registered]
  listener handle := by rw [listener, History.listener?_concat, h.listener]
  issued handle hmem := by
    rw [History.issued_concat, List.mem_append, Option.mem_toList] at hmem
    rcases hmem with hpast | hnew
    · exact Nat.lt_of_lt_of_le (h.issued handle hpast) grown
    · exact issued handle hnew

theorem Reflects.subscribe (h : c.Reflects past) (listener : α) :
    (c.subscribe listener).2.Reflects
      (past ++ [.subscribed (c.subscribe listener).1 listener]) := by
  refine h.concat h.issued (fun handle => ?_) (fun handle => ?_) (fun handle hissued => ?_)
    (Nat.le_succ _)
  · rw [mem_registeredHandles_subscribe]
    simp [Happening.issued?, Happening.ends, Cache.subscribe, eq_comm]
  · rw [listener?_subscribe]
    rfl
  · obtain rfl : (c.subscribe listener).1 = handle := Option.some.inj hissued
    exact Nat.lt_succ_self _

theorem Reflects.unsubscribe (h : c.Reflects past) (handle : Nat) :
    (c.unsubscribe handle).2.Reflects
      (past ++ [.unsubscribed handle (c.unsubscribe handle).1]) := by
  have hanswer : (c.unsubscribe handle).1 = true ↔ handle ∈ c.registeredHandles := by
    rw [mem_registeredHandles]
    unfold Cache.unsubscribe
    cases c.subscriptions.get? handle <;> simp
  refine h.concat (hanswer.trans (h.registered handle)) (fun other => ?_) (fun other => ?_)
    (fun _ hissued => ?_) (Nat.le_of_eq ?_)
  · rw [mem_registeredHandles_unsubscribe]
    simp [Happening.issued?, Happening.ends]
  · rw [listener?_unsubscribe]
    rfl
  · simp [Happening.issued?] at hissued
  · rw [unsubscribe_eq]

theorem Reflects.modifyListener (h : c.Reflects past) (handle : Nat) (change : α → α) :
    (c.modifyListener handle change).Reflects (past ++ [.changed handle change]) := by
  refine h.concat trivial (fun other => ?_) (fun other => ?_) (fun _ hissued => ?_)
    (Nat.le_of_eq ?_)
  · rw [mem_registeredHandles_modifyListener]
    simp [Happening.issued?, Happening.ends]
  · rw [listener?_modifyListener]
    rfl
  · simp [Happening.issued?] at hissued
  · rw [modifyListener_eq]

theorem accords_notifyInTurn {changed : Cache α} (h : changed.Reflects past) {event : Event}
    {summary : RoomSummary} (stored : changed.rooms.get? event.room = some summary)
    (time : summary.lastTimestamp = event.timestamp) (json : summary.lastEvent = event.json) :
    (Happening.ingested event (changed.notifyInTurn event).1).Accords past := by
  have hhandles : (changed.notifyInTurn event).1.map (·.handle) = changed.registeredHandles :=
    handles_giveAll event changed.registeredHandles changed
  refine ⟨hhandles ▸ changed.pairwise_registeredHandles, fun handle => ?_, fun d hd => ?_⟩
  · rw [hhandles, h.registered]
  · obtain ⟨hevent, hrooms, hlistener, hclosed⟩ := mem_giveAll changed.nodup_registeredHandles hd
    have hregistered : d.handle ∈ changed.registeredHandles := hhandles ▸ List.mem_map_of_mem hd
    obtain ⟨s, hs, -⟩ := mem_registeredHandles.mp hregistered
    have hfound : changed.listener? d.handle = some s.listener := congrArg (Option.map _) hs
    refine ⟨s.listener, h.listener d.handle ▸ hfound, hevent, ?_, hlistener.trans hfound, ?_⟩
    · exact ⟨summary, hrooms ▸ stored, time, json⟩
    · rw [hclosed]
      unfold closedBy
      rw [hfound]
      rfl

/-- One event: each registered listener gets it, and those closed after it leave. -/
theorem Reflects.accept (h : c.Reflects past) (event : Event) :
    (c.accept event).1.Reflects
      (past ++ [.ingested event (c.acceptInTurn event).1]) := by
  rw [acceptInTurn_eq]
  let changed := c.applyEvent event
  have hchanged : changed.Reflects past := h.of_same ⟨rfl, rfl⟩
  have hstored : changed.rooms.get? event.room =
      some (((c.rooms.get? event.room).getD {}).apply event) :=
    SortedMap.get?_insert_self _ _ _
  have hhandles : (changed.notifyInTurn event).1.map (·.handle) = changed.registeredHandles :=
    handles_giveAll event changed.registeredHandles changed
  have hends : ∀ handle, Happening.ends handle (.ingested event (changed.notifyInTurn event).1) =
        false ↔ ¬ (handle ∈ changed.registeredHandles ∧ changed.closedBy event handle = true) :=
    fun handle => decide_eq_false_iff_not.trans
      (not_congr (mem_closedHandles_giveAll changed.nodup_registeredHandles))
  refine hchanged.concat (accords_notifyInTurn hchanged hstored rfl rfl) (fun handle => ?_)
    (fun handle => ?_) (fun _ hissued => ?_) (Nat.le_refl _)
  · change handle ∈ (changed.notify event).registeredHandles ↔ _
    rw [mem_registeredHandles_notify, hends]
    cases changed.closedBy event handle <;> simp [Happening.issued?]
  · change (changed.notify event).listener? handle = _
    rw [listener?_notify, ← hhandles]
    rfl
  · simp [Happening.issued?] at hissued

theorem Reflects.ingestions (h : c.Reflects past) (events : List Event) :
    (c.acceptAll events).1.Reflects (past ++ c.ingestions events) := by
  induction events generalizing c past with
  | nil =>
      unfold Cache.ingestions
      rwa [List.append_nil]
  | cons event rest ih =>
      have hrest := ih (h.accept event)
      rw [List.append_assoc, ← acceptInTurn_cache] at hrest
      rwa [acceptAll_cons, ← acceptInTurn_cache]

/-! ## Runs -/

/-- What a population does to listeners is what storage does while it is asked. -/
theorem sameListeners_populate {c : Cache α} (new : c.phase = .uninitialized)
    (first : List (Call α)) (latest : Except SyncError (List StoredEvent))
    (second : List (Call α)) (state : Except SyncError (List (RoomId × List StoredEvent))) :
    let answered := performAll first { c with phase := .populating }
    SameListeners
      (match latest with
        | .error _ => answered
        | .ok rows => performAll second (rows.foldl loadLatest answered))
      ((Call.populate first latest second state).perform c) := by
  intro answered
  have hpopulate : SameListeners
      (Cache.loadRooms { c with phase := .populating } (scripted first latest second state)).cache
      (c.populate (scripted first latest second state)).cache := by
    unfold populate
    rw [beginPopulation_of_new new]
    dsimp only
    split <;> exact ⟨rfl, rfl⟩
  have hloaded : SameListeners
      (match latest with
        | .error _ => answered
        | .ok rows => performAll second (rows.foldl loadLatest answered))
      (Cache.loadRooms { c with phase := .populating }
        (scripted first latest second state)).cache := by
    rw [loadRooms_scripted]
    cases latest with
    | error _ => exact ⟨rfl, rfl⟩
    | ok rows =>
        cases state with
        | error _ => exact ⟨rfl, rfl⟩
        | ok named =>
            dsimp only
            rw [loadState_eq]
            exact ⟨rfl, rfl⟩
  rw [perform_populate]
  exact ⟨hloaded.subscriptions.trans hpopulate.subscriptions,
    hloaded.nextHandle.trans hpopulate.nextHandle⟩

theorem Reflects.performOne (h : c.Reflects past) {call : Call α}
    (plain : call.isPopulation = false) :
    (call.perform c).Reflects (past ++ (call.moments c).flatMap Moment.happenings) := by
  have hmoments : call.moments c = [⟨c, call⟩] := by
    cases call with
    | populate => simp [Call.isPopulation] at plain
    | _ => rw [Call.moments]; simp
  rw [hmoments, List.flatMap_singleton]
  cases call with
  | ingest room events position =>
      rw [Call.perform]
      unfold Moment.happenings
      dsimp only
      by_cases hlive : c.phase = .live
      · rw [ingest_of_live hlive, if_pos hlive]
        exact h.ingestions _
      · rw [ingest_of_not_live hlive, if_neg hlive, List.append_nil]
        exact h
  | assign room =>
      rw [Call.perform]
      unfold Moment.happenings
      rw [List.append_nil]
      exact h.of_same ⟨rfl, rfl⟩
  | subscribe listener =>
      rw [Call.perform]
      exact h.subscribe listener
  | unsubscribe handle =>
      rw [Call.perform]
      exact h.unsubscribe handle
  | modify handle change =>
      rw [Call.perform]
      exact h.modifyListener handle change
  | populate => simp [Call.isPopulation] at plain

mutual

/-- Whatever a call does, the cache goes on agreeing with its history. -/
theorem Reflects.perform {c : Cache α} {past : List (Happening α)} (h : c.Reflects past) :
    ∀ call : Call α,
      (call.perform c).Reflects (past ++ (call.moments c).flatMap Moment.happenings)
  | .ingest _ _ _ => h.performOne rfl
  | .assign _ => h.performOne rfl
  | .subscribe _ => h.performOne rfl
  | .unsubscribe _ => h.performOne rfl
  | .modify _ _ => h.performOne rfl
  | .populate first latest second state => by
      by_cases hnew : c.phase = .uninitialized
      -- The script runs on the cache that is being filled.
      · have hanswered := (h.of_same ⟨rfl, rfl⟩ :
          Reflects { c with phase := .populating } past).performAll first
        refine Reflects.of_same ?_ (sameListeners_populate hnew first latest second state)
        rw [Call.moments, beginPopulation_of_new hnew, List.flatMap_cons]
        cases latest with
        | error _ =>
            dsimp only
            rw [List.append_nil]
            exact hanswered
        | ok rows =>
            have hfilled :=
              (hanswered.of_same (sameListeners_loadLatest rows _)).performAll second
            dsimp only
            rw [List.flatMap_append]
            rw [List.append_assoc] at hfilled
            exact hfilled
      · rw [moments_of_not_new hnew, perform_populate, populate_of_not_new hnew]
        change c.Reflects (past ++ [])
        rwa [List.append_nil]

theorem Reflects.performAll {c : Cache α} {past : List (Happening α)} (h : c.Reflects past) :
    ∀ calls : List (Call α), (Cache.performAll calls c).Reflects (past ++ history calls c)
  | [] => by
      unfold history
      rw [Cache.performAll, momentsAll, List.flatMap_nil, List.append_nil]
      exact h
  | call :: rest => by
      unfold history
      rw [Cache.performAll, momentsAll, List.flatMap_append, ← List.append_assoc]
      exact (h.perform call).performAll rest

end

/-! ## What every run keeps to -/

/--
A run from a new cache has a history that its calls make: giving an event out listener
by listener comes to what `notify` does, and to what `accept` does once the event has
changed its room; an ingestion has its events and deliveries among its happenings, event
after event. Every happening accords with those before it. So handles ascend and none is
given out twice; an event finds its room's summary up to date and goes to exactly the
registered listeners, in the order of their handles, all of them before the next event;
nobody is removed who was neither asked for nor found closed; and whoever subscribes hears
what is ingested, event by event, up to the end of the registration. The cache that the
run leaves has these listeners registered, each as its deliveries left it.
-/
theorem runs_deliver_while_registered (calls : List (Call α)) :
    let past := history calls ({} : Cache α)
    let final := performAll calls ({} : Cache α)
    (∀ (c : Cache α) (event : Event), (c.notifyInTurn event).2 = c.notify event ∧
        (c.acceptInTurn event).2 = (c.accept event).1) ∧
      (∀ (c : Cache α) (room : RoomId) (events : List Payload) (position : Int64),
        let happenings := Moment.happenings ⟨c, .ingest room events position⟩
        History.ingested happenings =
            (if c.phase = .live then events.map fun json => Event.parse room json position
              else []) ∧
          (c.ingest room events position).deliveries =
            happenings.flatMap Happening.deliveries) ∧
      History.Accorded past ∧
      (∀ handle, (handle ∈ final.registeredHandles ↔ History.Registered handle past) ∧
        final.listener? handle = History.listener? handle past) ∧
      ∀ before handle listener future,
        past = before ++ .subscribed handle listener :: future →
          History.heard handle past = History.ingested (History.stay handle future) := by
  have hreflects : (performAll calls ({} : Cache α)).Reflects (history calls ({} : Cache α)) :=
    reflects_new.performAll calls
  refine ⟨fun c event => ⟨c.notifyInTurn_eq_notify event, c.acceptInTurn_cache event⟩,
    fun c room events position =>
      ⟨ingested_ingest c room events position, ingest_deliveries c room events position⟩,
    hreflects.accorded,
    fun handle => ⟨hreflects.registered handle, hreflects.listener handle⟩, ?_⟩
  intro before handle listener future hsplit
  have haccorded := hreflects.accorded
  rw [hsplit] at haccorded ⊢
  exact haccorded.heard_eq

end Cache

end SlidingSync
