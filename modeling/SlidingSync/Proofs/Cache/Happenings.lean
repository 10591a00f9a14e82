import SlidingSync.Proofs.Cache.Delivery
import SlidingSync.Proofs.Cache.Filling

/-! # What happens to listeners

A history lists what happened to the listeners of a cache. It tells by itself who is registered: who
has subscribed and has since neither been removed nor reported itself closed after an event. A
history accords with this when every event went to the registered listeners, in the order of their
handles; then what a listener was given is what was ingested while it stayed.
-/

namespace SlidingSync

inductive Happening (α : Type)
  | subscribed (handle : Nat) (listener : α)
  /-- Someone asked for a listener to be removed and was answered whether it was registered. -/
  | unsubscribed (handle : Nat) (answer : Bool)
  /-- Whoever subscribed a listener changed it. -/
  | changed (handle : Nat) (change : α → α)
  | ingested (event : Event) (handovers : List (Handover α))

variable {α : Type}

namespace Happening

def issued? : Happening α → Option Nat
  | .subscribed handle _ => some handle
  | _ => none

def event? : Happening α → Option Event
  | .ingested event _ => some event
  | _ => none

def deliveries : Happening α → List Delivery
  | .ingested _ handovers => handovers.map fun d => ⟨d.handle, d.event⟩
  | _ => []

/-- Whether the listener under the handle is registered no longer. -/
def ends (handle : Nat) : Happening α → Bool
  | .unsubscribed other _ => handle = other
  | .ingested _ handovers => handle ∈ Cache.closedHandles handovers
  | _ => false

def heard (handle : Nat) (x : Happening α) : List Event :=
  (x.deliveries.filter fun d => d.handle = handle).map (·.event)

/-- What becomes of the listener under the handle. -/
def effect [Listener α] (handle : Nat) : Happening α → Option α → Option α
  | .subscribed other new, listener => if handle = other then some new else listener
  | .unsubscribed _ _, listener => listener
  | .changed other change, listener => if handle = other then listener.map change else listener
  | .ingested event handovers, listener =>
      if handle ∈ handovers.map (·.handle) then
        listener.map fun listener => Listener.receive listener event
      else listener

end Happening

/-! ## Histories -/

namespace History

def issued (past : List (Happening α)) : List Nat :=
  past.filterMap Happening.issued?

def ingested (past : List (Happening α)) : List Event :=
  past.filterMap Happening.event?

def heard (handle : Nat) (past : List (Happening α)) : List Event :=
  past.flatMap (Happening.heard handle)

/-- The listener under the handle, registered or not. -/
def listener? [Listener α] (handle : Nat) (past : List (Happening α)) : Option α :=
  past.foldl (fun listener x => x.effect handle listener) none

/-- The listener under the handle has subscribed, and nothing has ended that. -/
def Registered (handle : Nat) (past : List (Happening α)) : Prop :=
  ∃ before listener after, past = before ++ .subscribed handle listener :: after ∧
    ∀ x ∈ after, x.ends handle = false

/-- The happenings up to the first that ends a registration, and that one. -/
def stay (handle : Nat) : List (Happening α) → List (Happening α)
  | [] => []
  | x :: rest => if x.ends handle then [x] else x :: stay handle rest

end History

/-- A delivery of the event to a listener, when the room's summary already knows of the event. -/
structure Handover.Delivers [Listener α] (d : Handover α) (event : Event)
    (listener : α) : Prop where
  carried : d.event = event
  upToDate : ∃ summary, d.found.rooms.get? event.room = some summary ∧
    summary.lastTimestamp = event.timestamp ∧ summary.lastEvent = event.json
  found : d.found.listener? d.handle = some listener
  asked : d.closed = Listener.isClosed (Listener.receive listener event)

/--
What holds of a happening after those of the past. Handles ascend; an answer tells
whether the handle is registered; an event goes to each registered listener once, in the
order of the handles.
-/
def Happening.Accords [Listener α] (past : List (Happening α)) : Happening α → Prop
  | .subscribed handle _ => ∀ earlier ∈ History.issued past, earlier < handle
  | .unsubscribed handle answer => answer = true ↔ History.Registered handle past
  | .changed _ _ => True
  | .ingested event handovers =>
      (handovers.map (·.handle)).Pairwise (· < ·) ∧
        (∀ handle, handle ∈ handovers.map (·.handle) ↔ History.Registered handle past) ∧
        ∀ d ∈ handovers, ∃ listener, History.listener? d.handle past = some listener ∧
          d.Delivers event listener

namespace History

/-- Every happening accords with those before it. -/
def Accorded [Listener α] (history : List (Happening α)) : Prop :=
  ∀ past x future, history = past ++ x :: future → x.Accords past

/-! ## One more happening -/

theorem issued_concat (past : List (Happening α)) (x : Happening α) :
    issued (past ++ [x]) = issued past ++ x.issued?.toList := by
  unfold issued
  rw [List.filterMap_append, List.filterMap_cons, List.filterMap_nil]
  cases x.issued? <;> rfl

theorem registered_concat {handle : Nat} {past : List (Happening α)} {x : Happening α} :
    Registered handle (past ++ [x]) ↔
      x.issued? = some handle ∨ (Registered handle past ∧ x.ends handle = false) := by
  constructor
  · rintro ⟨before, listener, after, heq, hafter⟩
    rcases List.eq_nil_or_concat after with rfl | ⟨after, last, rfl⟩
    · obtain ⟨-, rfl⟩ := List.append_singleton_inj.mp heq
      exact .inl rfl
    · have hsplit : past ++ [x] = (before ++ .subscribed handle listener :: after) ++ [last] := by
        rw [heq, List.append_assoc, List.cons_append, List.concat_eq_append]
      obtain ⟨rfl, rfl⟩ := List.append_singleton_inj.mp hsplit
      refine .inr ⟨⟨before, listener, after, rfl, fun y hy => hafter y ?_⟩, hafter x ?_⟩
      · simp [hy]
      · simp
  · rintro (hissued | ⟨⟨before, listener, after, rfl, hafter⟩, hx⟩)
    · cases x with
      | subscribed other listener =>
          obtain rfl : other = handle := Option.some.inj hissued
          exact ⟨past, listener, [], rfl, by simp⟩
      | _ => simp [Happening.issued?] at hissued
    · refine ⟨before, listener, after ++ [x], by simp, fun y hy => ?_⟩
      rcases List.mem_append.mp hy with hy | hy
      · exact hafter y hy
      · rw [List.mem_singleton.mp hy]
        exact hx

theorem mem_issued_cons {handle : Nat} {x : Happening α} {rest : List (Happening α)} :
    handle ∈ issued (x :: rest) ↔ x.issued? = some handle ∨ handle ∈ issued rest := by
  unfold issued
  rw [List.filterMap_cons]
  cases x.issued? with
  | none => simp
  | some other => simp [eq_comm]

theorem ingested_cons (x : Happening α) (rest : List (Happening α)) :
    ingested (x :: rest) = x.event?.toList ++ ingested rest := by
  unfold ingested
  rw [List.filterMap_cons]
  cases x.event? <;> rfl

theorem heard_cons (handle : Nat) (x : Happening α) (rest : List (Happening α)) :
    heard handle (x :: rest) = x.heard handle ++ heard handle rest :=
  rfl

variable [Listener α]

theorem listener?_concat (handle : Nat) (past : List (Happening α)) (x : Happening α) :
    listener? handle (past ++ [x]) = x.effect handle (listener? handle past) := by
  unfold listener?
  rw [List.foldl_append]
  rfl

theorem Accorded.concat {past : List (Happening α)} {x : Happening α} (h : Accorded past)
    (accords : x.Accords past) : Accorded (past ++ [x]) := by
  intro before y after heq
  rcases List.eq_nil_or_concat after with rfl | ⟨after, last, rfl⟩
  · obtain ⟨rfl, rfl⟩ := List.append_singleton_inj.mp heq
    exact accords
  · have hsplit : past ++ [x] = (before ++ y :: after) ++ [last] := by
      rw [heq, List.append_assoc, List.cons_append, List.concat_eq_append]
    exact h before y after (List.append_singleton_inj.mp hsplit).1

/-! ## What a listener hears -/

theorem heard_of_not_registered {past : List (Happening α)} {x : Happening α}
    (h : x.Accords past) {handle : Nat} (others : ¬ Registered handle past) :
    x.heard handle = [] := by
  cases x with
  | ingested event handovers =>
      have hnone : ∀ d ∈ handovers, d.handle ≠ handle := by
        rintro d hd rfl
        exact others ((h.2.1 d.handle).mp (List.mem_map_of_mem hd))
      unfold Happening.heard Happening.deliveries
      rw [List.filter_eq_nil_iff.mpr, List.map_nil]
      intro delivery hdelivery
      obtain ⟨d, hd, rfl⟩ := List.mem_map.mp hdelivery
      simpa using hnone d hd
  | _ => rfl

/-- A registered listener is given every event once. -/
theorem heard_of_registered {past : List (Happening α)} {x : Happening α} (h : x.Accords past)
    {handle : Nat} (registered : Registered handle past) : x.heard handle = x.event?.toList := by
  cases x with
  | ingested event handovers =>
      obtain ⟨hascending, hregistered, hdelivers⟩ := h
      obtain ⟨d, hd, rfl⟩ := List.mem_map.mp ((hregistered handle).mpr registered)
      have hnodup : (handovers.map (·.handle)).Nodup := hascending.imp Nat.ne_of_lt
      have hone : (handovers.filter fun e => e.handle = d.handle) = [d] := by
        have hfilter := (List.Nodup.of_map _ hnodup).filter fun e => e.handle = d.handle
        refine eq_toList_of_mem_iff (o := some d) hfilter fun e => ?_
        rw [List.mem_filter, decide_eq_true_iff, Option.some.injEq]
        constructor
        · rintro ⟨he, heq⟩
          exact (List.inj_on_of_nodup_map hnodup he hd heq).symm
        · rintro rfl
          exact ⟨hd, rfl⟩
      obtain ⟨_, -, hcarried⟩ := hdelivers d hd
      unfold Happening.heard Happening.deliveries Happening.event?
      rw [List.filter_map, List.map_map]
      change (handovers.filter fun e => e.handle = d.handle).map (·.event) = [event]
      rw [hone, List.map_singleton, hcarried.carried]
  | _ => rfl

/-- Who is not registered hears nothing more, unless the handle is given out. -/
theorem heard_of_gone {past future : List (Happening α)} (h : Accorded (past ++ future))
    {handle : Nat} (gone : ¬ Registered handle past) (unissued : handle ∉ issued future) :
    heard handle future = [] := by
  induction future generalizing past with
  | nil => rfl
  | cons x rest ih =>
      rw [mem_issued_cons, not_or] at unissued
      have hgone : ¬ Registered handle (past ++ [x]) := by
        rw [registered_concat]
        rintro (hissued | ⟨hregistered, -⟩)
        · exact unissued.1 hissued
        · exact gone hregistered
      have hrest : heard handle rest = [] :=
        ih (by rwa [List.append_assoc]) hgone unissued.2
      rw [heard_cons, heard_of_not_registered (h past x rest rfl) gone, hrest, List.append_nil]

/-- Who is registered hears all that is ingested up to what ends the registration. -/
theorem heard_of_staying {past future : List (Happening α)} (h : Accorded (past ++ future))
    {handle : Nat} (registered : Registered handle past) (unissued : handle ∉ issued future) :
    heard handle future = ingested (stay handle future) := by
  induction future generalizing past with
  | nil => rfl
  | cons x rest ih =>
      rw [mem_issued_cons, not_or] at unissued
      have hrest : Accorded ((past ++ [x]) ++ rest) := by rwa [List.append_assoc]
      have hheard : x.heard handle = x.event?.toList :=
        heard_of_registered (h past x rest rfl) registered
      rw [heard_cons, hheard, stay]
      cases hends : x.ends handle with
      | true =>
          have hgone : ¬ Registered handle (past ++ [x]) := by
            rw [registered_concat, hends]
            simp [unissued.1]
          rw [heard_of_gone hrest hgone unissued.2, if_pos rfl, ingested_cons]
          rfl
      | false =>
          have hstays : Registered handle (past ++ [x]) :=
            registered_concat.mpr (.inr ⟨registered, hends⟩)
          rw [ih hrest hstays unissued.2, if_neg (by simp), ingested_cons]

/-- No handle is given out twice. -/
theorem Accorded.issued_once {past future : List (Happening α)} {handle : Nat} {listener : α}
    (h : Accorded (past ++ .subscribed handle listener :: future)) :
    handle ∉ issued past ∧ handle ∉ issued future := by
  refine ⟨fun hmem => Nat.lt_irrefl _ (h past _ future rfl handle hmem), fun hmem => ?_⟩
  obtain ⟨x, hx, hissued⟩ := List.mem_filterMap.mp hmem
  obtain ⟨between, after, rfl⟩ := List.append_of_mem hx
  cases x with
  | subscribed other later =>
      obtain rfl : other = handle := Option.some.inj hissued
      have hlater : ∀ earlier ∈ issued (past ++ .subscribed other listener :: between),
          earlier < other :=
        h _ (.subscribed other later) after (by simp)
      refine Nat.lt_irrefl _ (hlater other (List.mem_filterMap.mpr ?_))
      exact ⟨.subscribed other listener, by simp, rfl⟩
  | _ => simp [Happening.issued?] at hissued

/-- From its subscription on a listener hears what is ingested while it stays. -/
theorem Accorded.heard_eq {past future : List (Happening α)} {handle : Nat} {listener : α}
    (h : Accorded (past ++ .subscribed handle listener :: future)) :
    heard handle (past ++ .subscribed handle listener :: future) =
      ingested (stay handle future) := by
  obtain ⟨hpast, hfuture⟩ := h.issued_once
  have hunheard : heard handle past = [] := by
    have hbefore : Accorded ([] ++ past) := by
      rintro before x after rfl
      exact h before x (after ++ .subscribed handle listener :: future) (by simp)
    refine heard_of_gone hbefore ?_ hpast
    rintro ⟨before, _, after, heq, -⟩
    simp at heq
  have hregistered : Registered handle (past ++ [.subscribed handle listener]) :=
    registered_concat.mpr (.inl rfl)
  have hafter : Accorded ((past ++ [.subscribed handle listener]) ++ future) := by
    rwa [List.append_assoc]
  have happend : heard handle (past ++ .subscribed handle listener :: future) =
      heard handle past ++ heard handle future := by
    unfold heard
    rw [List.flatMap_append]
    rfl
  rw [happend, hunheard, List.nil_append]
  exact heard_of_staying hafter hregistered hfuture

end History

end SlidingSync
