import SlidingSync.Cache.Basic
import SlidingSync.Proofs.Session.Steps

/-! # Runs of a session

A session is driven by bodies and by events, each over the cache as it is at that moment. Whatever
reached it before, it refuses a body only when the body itself does not pass its check, and then it
is as it was; the walk over changed lists that follows an accepted body never stops half way, and
an event is never refused.
-/

namespace SlidingSync.Session

inductive Call (α : Type)
  | request (cache : Cache α) (body : Request)
  | event (cache : Cache α) (event : Event)

variable {α : Type}

def call (s : Session) : Call α → Session
  | .request cache body => (s.handleRequest cache.snapshot body).2
  | .event cache event => (s.handleEvent cache.snapshot event.room).2

def after (user : UserId) (config : Config) (calls : List (Call α)) : Session :=
  calls.foldl call (new user config)

/-- What holds between the calls of every run under a configuration. -/
structure Sound (config : Config) (s : Session) : Prop where
  sortsKnown : s.SortsKnown
  limit : s.maxTimelineLimit = config.maxTimelineLimit

/-! ## One call -/

theorem sound_new (user : UserId) (config : Config) : (new user config).Sound config where
  sortsKnown := fun _ h => by simp [new] at h
  limit := rfl

theorem Sound.handleRequest {config : Config} {s : Session} (h : s.Sound config)
    (rooms : List Room) (body : Request) : (s.handleRequest rooms body).2.Sound config := by
  cases hv : body.validate s.maxTimelineLimit with
  | error fault =>
      rw [handleRequest_refused hv]
      exact h
  | ok _ =>
      rw [handleRequest_accepted h.sortsKnown hv]
      constructor
      · intro request hrequest
        cases hrequest
        exact Request.sortsKnown_merge h.sortsKnown.inForce (Request.sortsKnown_of_validate hv)
      · exact h.limit

theorem Sound.handleEvent {config : Config} {s : Session} (h : s.Sound config)
    (rooms : List Room) (room : RoomId) : (s.handleEvent rooms room).2.Sound config := by
  rw [handleEvent_eq h.sortsKnown]
  exact ⟨h.sortsKnown, h.limit⟩

theorem Sound.call {config : Config} {s : Session} (h : s.Sound config) (c : Call α) :
    (s.call c).Sound config := by
  cases c with
  | request cache body => exact h.handleRequest cache.snapshot body
  | event cache event => exact h.handleEvent cache.snapshot event.room

/-! ## All calls -/

theorem after_of_call {holds : Session → Prop} {user : UserId} {config : Config}
    (start : holds (new user config)) (step : ∀ s (c : Call α), holds s → holds (s.call c))
    (calls : List (Call α)) : holds (after user config calls) :=
  List.foldlRecOn calls call start fun s h c _ => step s c h

theorem sound_after (user : UserId) (config : Config) (calls : List (Call α)) :
    (after user config calls).Sound config :=
  after_of_call (sound_new user config) (fun _ c h => h.call c) calls

/-- An accepted body names or keeps lists of known sort identifiers only, so all are shown. -/
theorem Sound.showChanges_ok {config : Config} {s : Session} (h : s.Sound config)
    {body : Request} (hv : body.validate config.maxTimelineLimit = .ok ()) (rooms : List Room) :
    (showChanges rooms ⟨.empty, s.orders⟩
      (Request.merge s.request body).2.lists.entries).1 = .ok () := by
  have hbody := Request.sortsKnown_of_validate hv
  rw [showChanges_eq_foldl rooms _ fun e he curr hcurr =>
    sortKnown_of_delta h.sortsKnown hbody (SortedMap.mem_entries_iff.mp he) hcurr]

theorem Sound.handleRequest_error_iff {config : Config} {s : Session} (h : s.Sound config)
    (rooms : List Room) (body : Request) (error : SyncError) :
    (s.handleRequest rooms body).1 = .error error ↔
      ∃ fault, body.validate config.maxTimelineLimit = .error fault ∧ error = .badRequest fault := by
  rw [← h.limit]
  cases hv : body.validate s.maxTimelineLimit with
  | error fault =>
      rw [handleRequest_refused hv]
      constructor
      · intro heq
        exact ⟨fault, rfl, (Except.error.inj heq).symm⟩
      · rintro ⟨_, hfault, rfl⟩
        rw [Except.error.inj hfault]
  | ok _ =>
      rw [handleRequest_accepted h.sortsKnown hv]
      simp

theorem Sound.handleRequest_atomic {config : Config} {s : Session} (h : s.Sound config)
    {rooms : List Room} {body : Request} {error : SyncError}
    (herror : (s.handleRequest rooms body).1 = .error error) :
    (s.handleRequest rooms body).2 = s := by
  obtain ⟨fault, hv, -⟩ := (h.handleRequest_error_iff rooms body error).mp herror
  rw [← h.limit] at hv
  rw [handleRequest_refused hv]

/--
After any run, a body is refused exactly when it does not pass its check, with the
fault of the check, and leaves the session as it was; the walk after an accepted
body reaches its end; and events are not refused at all.
-/
theorem only_the_check_refuses (user : UserId) (config : Config) (calls : List (Call α))
    (cache : Cache α) :
    (∀ body error,
        ((after user config calls).handleRequest cache.snapshot body).1 = .error error ↔
          ∃ fault, body.validate config.maxTimelineLimit = .error fault ∧
            error = .badRequest fault) ∧
      (∀ body error,
        ((after user config calls).handleRequest cache.snapshot body).1 = .error error →
          ((after user config calls).handleRequest cache.snapshot body).2 =
            after user config calls) ∧
      (∀ body, body.validate config.maxTimelineLimit = .ok () →
        (showChanges cache.snapshot ⟨.empty, (after user config calls).orders⟩
          (Request.merge (after user config calls).request body).2.lists.entries).1 = .ok ()) ∧
      ∀ event : Event, ∃ update,
        ((after user config calls).handleEvent cache.snapshot event.room).1 = .ok update := by
  have h := sound_after user config calls
  refine ⟨h.handleRequest_error_iff cache.snapshot, ?_, ?_, ?_⟩
  · intro body error herror
    exact h.handleRequest_atomic herror
  · intro body hv
    exact h.showChanges_ok hv cache.snapshot
  · intro event
    rw [handleEvent_eq h.sortsKnown]
    exact ⟨_, rfl⟩

end SlidingSync.Session
