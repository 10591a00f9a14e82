import SlidingSync.Proofs.Cache.Calls
import Mathlib.Data.List.Pairwise

/-! # The life of a cache

A run is a list of calls, among them calls that storage makes while a population asks it. Looked at
moment by moment, one population at most succeeds in a run, and from then on the cache is live and
keeps its rooms. A population that fails leaves nothing but the listeners behind, so whatever is
done next comes to the same as on a new cache.
-/

namespace SlidingSync.Cache

variable {α : Type}

/-- A call and the cache that it finds. -/
structure Moment (α : Type) where
  cache : Cache α
  call : Call α

variable [Listener α]

mutual

/-- The call itself and those made while it runs, each with the cache that it finds. -/
def Call.moments : Call α → Cache α → List (Moment α)
  | .populate first latest second state, c =>
      ⟨c, .populate first latest second state⟩ ::
        match c.beginPopulation with
        | .error _ => []
        | .ok begun =>
            momentsAll first begun ++
              match latest with
              | .error _ => []
              | .ok rows => momentsAll second (rows.foldl loadLatest (performAll first begun))
  | call, c => [⟨c, call⟩]

/-- All calls of a run in the order in which they begin. -/
def momentsAll : List (Call α) → Cache α → List (Moment α)
  | [], _ => []
  | call :: rest, c => call.moments c ++ momentsAll rest (call.perform c)

end

/-! ## The moments of a run -/

def Moment.Populates (m : Moment α) : Prop :=
  match m.call with
  | .populate first latest second state =>
      (m.cache.populate (scripted first latest second state)).outcome = .ok ()
  | _ => False

theorem Moment.Populates.new {m : Moment α} (h : m.Populates) :
    m.cache.phase = .uninitialized := by
  unfold Populates at h
  split at h
  · exact new_of_populate_eq_ok h
  · contradiction

theorem Moment.Populates.live {m : Moment α} (h : m.Populates) :
    (m.call.perform m.cache).phase = .live := by
  have hnew := h.new
  unfold Populates at h
  split at h
  · next first latest second state hcall =>
    rw [hcall, perform_populate]
    rcases populate_of_new hnew (scripted first latest second state) with ⟨-, hlive⟩ | ⟨_, herror, -⟩
    · exact hlive
    · rw [h] at herror
      contradiction
  · contradiction

theorem moments_of_not_new {c : Cache α} (h : c.phase ≠ .uninitialized) (call : Call α) :
    call.moments c = [⟨c, call⟩] := by
  cases call with
  | populate first latest second state =>
      rw [Call.moments]
      unfold beginPopulation
      rw [if_neg h]
  | _ => rw [Call.moments]; simp

theorem mem_momentsAll_of_not_new {c : Cache α} (h : c.phase ≠ .uninitialized)
    {calls : List (Call α)} {m : Moment α} (hm : m ∈ momentsAll calls c) :
    m.cache.phase = c.phase ∧ c.Grows m.cache := by
  induction calls generalizing c with
  | nil => simp [momentsAll] at hm
  | cons call rest ih =>
      rw [momentsAll, moments_of_not_new h, List.singleton_append] at hm
      rcases List.mem_cons.mp hm with rfl | hrest
      · exact ⟨rfl, Grows.refl c⟩
      · have hphase := phase_perform h call
        obtain ⟨hsame, hgrows⟩ := ih (hphase ▸ h) hrest
        exact ⟨hsame.trans hphase, (grows_perform call c).trans hgrows⟩

theorem grows_of_mem_momentsAll {calls : List (Call α)} {c : Cache α} {m : Moment α}
    (hm : m ∈ momentsAll calls c) : c.Grows m.cache :=
  fun hlive => (mem_momentsAll_of_not_new (by simp [hlive]) hm).2 hlive

/-- Calls within a call are there only while a new cache is populated. -/
theorem moments_eq_cons (call : Call α) (c : Cache α) :
    ∃ inner, call.moments c = ⟨c, call⟩ :: inner ∧
      ∀ m ∈ inner, c.phase = .uninitialized ∧ m.cache.phase = .populating := by
  by_cases hnew : c.phase = .uninitialized
  · cases call with
    | populate first latest second state =>
        let begun : Cache α := { c with phase := .populating }
        have hbegun : begun.phase ≠ .uninitialized := by simp [begun]
        rw [Call.moments, beginPopulation_of_new hnew]
        refine ⟨_, rfl, fun m hm => ⟨hnew, ?_⟩⟩
        -- No call ends a population that is going on, so all find the phase it began with.
        rcases List.mem_append.mp hm with hfirst | hsecond
        · exact (mem_momentsAll_of_not_new hbegun hfirst).1
        · cases latest with
          | error _ => simp at hsecond
          | ok rows =>
              have hasked : (rows.foldl loadLatest (performAll first begun)).phase =
                  .populating := by
                rw [phase_foldl_loadLatest, phase_performAll hbegun]
              have hphase := (mem_momentsAll_of_not_new (by rw [hasked]; simp) hsecond).1
              exact hphase.trans hasked
    | _ => exact ⟨[], by rw [Call.moments]; simp, by simp⟩
  · exact ⟨[], moments_of_not_new hnew call, by simp⟩

/-- The later cache has grown, and not both calls are populations that succeed. -/
def Moment.Precedes (earlier later : Moment α) : Prop :=
  earlier.cache.Grows later.cache ∧ ¬ (earlier.Populates ∧ later.Populates)

theorem Moment.precedes_of_populating {earlier later : Moment α}
    (live : earlier.cache.phase ≠ .live) (populating : later.cache.phase = .populating) :
    earlier.Precedes later := by
  refine ⟨fun h => absurd h live, ?_⟩
  rintro ⟨-, hlater⟩
  rw [hlater.new] at populating
  contradiction

theorem pairwise_momentsAll (calls : List (Call α)) (c : Cache α) :
    (momentsAll calls c).Pairwise Moment.Precedes := by
  induction calls generalizing c with
  | nil => rw [momentsAll]; exact List.Pairwise.nil
  | cons call rest ih =>
      obtain ⟨inner, hmoments, hinner⟩ := moments_eq_cons call c
      -- A call that has calls within it populates a new cache, and none of these can do so.
      have hwithin : (call.moments c).Pairwise Moment.Precedes := by
        rw [hmoments]
        refine List.pairwise_cons.mpr ⟨fun m hm => ?_, ?_⟩
        · obtain ⟨hnew, hphase⟩ := hinner m hm
          exact Moment.precedes_of_populating (by simp [hnew]) hphase
        · refine List.pairwise_of_forall_mem_list fun m hm m' hm' => ?_
          exact Moment.precedes_of_populating (by simp [(hinner m hm).2]) (hinner m' hm').2
      rw [momentsAll]
      refine List.pairwise_append.mpr ⟨hwithin, ih _, fun m hm later hlater => ?_⟩
      rw [hmoments] at hm
      rcases List.mem_cons.mp hm with rfl | hm
      -- Once the call has succeeded as a population, no later one finds a new cache.
      · refine ⟨(grows_perform call c).trans (grows_of_mem_momentsAll hlater), ?_⟩
        rintro ⟨hfirst, hsecond⟩
        have hlive : (call.perform c).phase = .live := hfirst.live
        have hphase := (mem_momentsAll_of_not_new (by simp [hlive]) hlater).1
        rw [hsecond.new, hlive] at hphase
        contradiction
      · have hphase := (hinner m hm).2
        refine ⟨fun hlive => by simp [hphase] at hlive, ?_⟩
        rintro ⟨hfirst, -⟩
        rw [hfirst.new] at hphase
        contradiction

theorem grows_of_moment {calls : List (Call α)} {c : Cache α} {m : Moment α}
    (hm : m ∈ momentsAll calls c) : m.cache.Grows (performAll calls c) := by
  induction calls generalizing c with
  | nil => simp [momentsAll] at hm
  | cons call rest ih =>
      obtain ⟨inner, hmoments, hinner⟩ := moments_eq_cons call c
      rw [momentsAll, hmoments] at hm
      rcases List.mem_append.mp hm with hm | hm
      · rcases List.mem_cons.mp hm with rfl | hm
        · exact grows_performAll (call :: rest) c
        · exact fun hlive => by simp [(hinner m hm).2] at hlive
      · rw [performAll]
        exact ih hm

/-! ## Populations that are refused -/

def Call.isPopulation : Call α → Bool
  | .populate .. => true
  | _ => false

theorem performAll_filter {c : Cache α} (h : c.phase ≠ .uninitialized) (calls : List (Call α)) :
    performAll (calls.filter (!·.isPopulation)) c = performAll calls c := by
  induction calls generalizing c with
  | nil => rfl
  | cons call rest ih =>
      have hnext := ih (phase_perform h call ▸ h : (call.perform c).phase ≠ .uninitialized)
      cases call with
      | populate first latest second state =>
          rw [perform_populate, populate_of_not_new h] at hnext
          rw [List.filter_cons_of_neg (by simp [Call.isPopulation]), performAll, perform_populate,
            populate_of_not_new h, hnext]
      | _ =>
          rw [List.filter_cons_of_pos (by simp [Call.isPopulation]), performAll, performAll, hnext]

theorem loadRooms_scripted (begun : Cache α) (first : List (Call α))
    (latest : Except SyncError (List StoredEvent)) (second : List (Call α))
    (state : Except SyncError (List (RoomId × List StoredEvent))) :
    begun.loadRooms (scripted first latest second state) =
      match latest with
      | .error error => ⟨.error error, performAll first begun, none⟩
      | .ok rows =>
          let asked := performAll second (rows.foldl loadLatest (performAll first begun))
          match state with
          | .error error => ⟨.error error, asked, some nameTypes⟩
          | .ok named =>
              ⟨(asked.loadState named).1, (asked.loadState named).2, some nameTypes⟩ := by
  unfold loadRooms scripted
  cases latest with
  | error _ => rfl
  | ok rows => cases state <;> rfl

/-- Attempts to populate a cache that is being populated make no difference to it. -/
theorem populate_filter (c : Cache α) (first : List (Call α))
    (latest : Except SyncError (List StoredEvent)) (second : List (Call α))
    (state : Except SyncError (List (RoomId × List StoredEvent))) :
    c.populate (scripted (first.filter (!·.isPopulation)) latest
        (second.filter (!·.isPopulation)) state) =
      c.populate (scripted first latest second state) := by
  by_cases hnew : c.phase = .uninitialized
  · let begun : Cache α := { c with phase := .populating }
    have hbegun : begun.phase ≠ .uninitialized := by simp [begun]
    -- Either query is asked while the phase is populating.
    have hasked : ∀ rows : List StoredEvent,
        (rows.foldl loadLatest (performAll first begun)).phase ≠ .uninitialized := by
      intro rows
      rw [phase_foldl_loadLatest, phase_performAll hbegun]
      exact hbegun
    have hloaded : begun.loadRooms (scripted (first.filter (!·.isPopulation)) latest
          (second.filter (!·.isPopulation)) state) =
        begun.loadRooms (scripted first latest second state) := by
      rw [loadRooms_scripted, loadRooms_scripted, performAll_filter hbegun]
      cases latest with
      | error _ => rfl
      | ok rows =>
          dsimp only
          rw [performAll_filter (hasked rows)]
    unfold populate
    rw [beginPopulation_of_new hnew]
    dsimp only
    rw [hloaded]
  · rw [populate_of_not_new hnew, populate_of_not_new hnew]

/-! ## What every run keeps to -/

/-- Whatever is done before it, a population of alike caches comes to the same. -/
theorem sameResult_of_alike {c c' : Cache α} (h : c.Alike c') (later first : List (Call α))
    (latest : Except SyncError (List StoredEvent)) (second : List (Call α))
    (state : Except SyncError (List (RoomId × List StoredEvent))) :
    SameResult ((performAll later c).populate (scripted first latest second state))
      ((performAll later c').populate (scripted first latest second state)) := by
  have hscript := indifferent_scripted latest state (fun h => h.performAll first)
    fun h => h.performAll second
  exact (h.performAll later).populate hscript

/--
Only a live cache takes events, and only a new one is populated: anything else is
refused and changes nothing, not even for a population that is going on. A population
of a new cache fails by the error of a query that fails, or of answers that do not fit
together, and by no other; it leaves a cache without rooms that is as good as new. Over
a run, one population at most succeeds, and a live cache stays live and keeps its rooms.
-/
theorem runs_follow_lifecycle :
    (∀ (c : Cache α) (room : RoomId) (events : List Payload) (position : Int64),
        ((c.ingest room events position).outcome = .ok () ↔ c.phase = .live) ∧
          (c.phase ≠ .live → (c.ingest room events position).cache = c ∧
            (c.ingest room events position).deliveries = [])) ∧
      (∀ (c : Cache α) (storage : Storage α), c.phase ≠ .uninitialized →
        (c.populate storage).outcome = .error (.alreadyPopulated c.phase) ∧
          (SyncError.alreadyPopulated c.phase).kind = .invalidState ∧
          (c.populate storage).cache = c) ∧
      (∀ (c : Cache α) (first : List (Call α)) (latest : Except SyncError (List StoredEvent))
        (second : List (Call α)) (state : Except SyncError (List (RoomId × List StoredEvent))),
        c.populate (scripted (first.filter (!·.isPopulation)) latest
            (second.filter (!·.isPopulation)) state) =
          c.populate (scripted first latest second state)) ∧
      (∀ (c : Cache α) (storage : Storage α) (error : SyncError), c.phase = .uninitialized →
        ((c.populate storage).outcome = .error error ↔
          LoadFails { c with phase := .populating } storage error)) ∧
      (∀ (c : Cache α) (storage : Storage α) (error : SyncError), c.phase = .uninitialized →
        (c.populate storage).outcome = .error error →
          (c.populate storage).cache.phase = .uninitialized ∧
            (c.populate storage).cache.rooms = .empty ∧
            ∀ (later first : List (Call α)) (latest : Except SyncError (List StoredEvent))
              (second : List (Call α))
              (state : Except SyncError (List (RoomId × List StoredEvent))),
              SameResult
                ((performAll later (c.populate storage).cache).populate
                  (scripted first latest second state))
                ((performAll later {}).populate (scripted first latest second state))) ∧
      ∀ (calls : List (Call α)) (c : Cache α),
        (momentsAll calls c).Pairwise Moment.Precedes ∧
          ∀ m ∈ momentsAll calls c, m.cache.Grows (performAll calls c) := by
  refine ⟨fun c room events position => ?_, fun c storage hphase => ?_, populate_filter,
    fun c storage error hnew => populate_eq_error_iff hnew, fun c storage error hnew failed => ?_,
    fun calls c => ⟨pairwise_momentsAll calls c, fun _ hm => grows_of_moment hm⟩⟩
  · by_cases hlive : c.phase = .live
    · rw [ingest_of_live hlive]
      exact ⟨iff_of_true rfl hlive, fun h => absurd hlive h⟩
    · rw [ingest_of_not_live hlive]
      exact ⟨iff_of_false (by simp) hlive, fun _ => ⟨rfl, rfl⟩⟩
  · rw [populate_of_not_new hphase]
    exact ⟨rfl, rfl, rfl⟩
  · have hfresh := alike_new_of_failed hnew failed
    exact ⟨hfresh.phase, hfresh.rooms, sameResult_of_alike hfresh⟩

end SlidingSync.Cache
