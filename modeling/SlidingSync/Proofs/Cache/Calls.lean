import SlidingSync.Cache.Population
import SlidingSync.Proofs.Cache.Rooms

/-! # Calls of a cache

Storage may call the cache while it is asked, even to populate it. A cache that is not new refuses
that and stays as it is, so apart from populations of a new cache a call never changes the phase,
and a live cache never loses a room. A new cache fails to be populated by the error of a query, or
of answers that do not fit together. What a call does to phase and rooms does not depend on the
listeners.
-/

namespace SlidingSync.Cache

variable {α : Type}

/-! ## Populations -/

theorem populate_of_not_new {c : Cache α} (h : c.phase ≠ .uninitialized) (storage : Storage α) :
    c.populate storage = ⟨.error (.alreadyPopulated c.phase), c, none⟩ := by
  unfold populate beginPopulation
  rw [if_neg h]

theorem new_of_populate_eq_ok {c : Cache α} {storage : Storage α}
    (succeeds : (c.populate storage).outcome = .ok ()) : c.phase = .uninitialized := by
  by_contra hphase
  rw [populate_of_not_new hphase] at succeeds
  contradiction

theorem beginPopulation_of_new {c : Cache α} (h : c.phase = .uninitialized) :
    c.beginPopulation = .ok { c with phase := .populating } :=
  if_pos h

/-- A new cache that is populated becomes live, or it is emptied and new again. -/
theorem populate_of_new {c : Cache α} (h : c.phase = .uninitialized) (storage : Storage α) :
    ((c.populate storage).outcome = .ok () ∧ (c.populate storage).cache.phase = .live) ∨
      ∃ error, (c.populate storage).outcome = .error error ∧
        (c.populate storage).cache.phase = .uninitialized ∧
          (c.populate storage).cache.rooms = .empty := by
  unfold populate
  rw [beginPopulation_of_new h]
  dsimp only
  split
  · next houtcome => exact .inl ⟨houtcome, rfl⟩
  · next error houtcome => exact .inr ⟨error, houtcome, rfl, rfl⟩

/--
What makes loading fail: the first query, the second, which is asked only when the first
has answered, or answers that do not fit together.
-/
inductive LoadFails (c : Cache α) (storage : Storage α) (error : SyncError) : Prop
  | latest {asked : Cache α} (first : storage.latestEvents c = (.error error, asked))
  | state {rows : List StoredEvent} {asked filled : Cache α}
      (first : storage.latestEvents c = (.ok rows, asked))
      (second : storage.currentState nameTypes (rows.foldl loadLatest asked) =
        (.error error, filled))
  | answers {rows : List StoredEvent} {named : List (RoomId × List StoredEvent)}
      {asked filled : Cache α} (first : storage.latestEvents c = (.ok rows, asked))
      (second : storage.currentState nameTypes (rows.foldl loadLatest asked) = (.ok named, filled))
      (loaded : (filled.loadState named).1 = .error error)

theorem loadRooms_eq_error_iff {c : Cache α} {storage : Storage α} {error : SyncError} :
    (c.loadRooms storage).outcome = .error error ↔ c.LoadFails storage error := by
  unfold loadRooms
  constructor
  · intro h
    split at h
    · next first =>
      cases h
      exact .latest first
    · next first =>
      split at h
      · next second =>
        cases h
        exact .state first second
      · next second => exact .answers first second h
  · rintro (first | ⟨first, second⟩ | ⟨first, second, loaded⟩)
    · rw [first]
    · rw [first]
      dsimp only
      rw [second]
    · rw [first]
      dsimp only
      rw [second]
      exact loaded

/-- A new cache is populated unless loading fails, and then it fails by the same error. -/
theorem populate_eq_error_iff {c : Cache α} (h : c.phase = .uninitialized) {storage : Storage α}
    {error : SyncError} :
    (c.populate storage).outcome = .error error ↔
      LoadFails { c with phase := .populating } storage error := by
  have houtcome : (c.populate storage).outcome =
      (loadRooms { c with phase := .populating } storage).outcome := by
    unfold populate
    rw [beginPopulation_of_new h]
    dsimp only
    split <;> rfl
  rw [houtcome, loadRooms_eq_error_iff]

theorem phase_foldl_loadLatest (rows : List StoredEvent) (c : Cache α) :
    (rows.foldl loadLatest c).phase = c.phase := by
  induction rows generalizing c with
  | nil => rfl
  | cons row rest ih => exact ih (c.loadLatest row)

/-! ## Caches that differ in their listeners at most -/

structure Alike (c c' : Cache α) : Prop where
  phase : c.phase = c'.phase
  rooms : c.rooms = c'.rooms

/-- Populations that come to the same, listeners apart. -/
structure SameResult (p p' : Population α) : Prop where
  outcome : p.outcome = p'.outcome
  cache : p.cache.Alike p'.cache
  queriedTypes : p.queriedTypes = p'.queriedTypes

/-- Storage that neither answers nor acts by the listeners of the cache. -/
structure Indifferent (storage : Storage α) : Prop where
  latest : ∀ c c', Alike c c' →
    (storage.latestEvents c).1 = (storage.latestEvents c').1 ∧
      Alike (storage.latestEvents c).2 (storage.latestEvents c').2
  state : ∀ types c c', Alike c c' →
    (storage.currentState types c).1 = (storage.currentState types c').1 ∧
      Alike (storage.currentState types c).2 (storage.currentState types c').2

theorem Alike.trans {c₁ c₂ c₃ : Cache α} (h : c₁.Alike c₂) (h' : c₂.Alike c₃) : c₁.Alike c₃ :=
  ⟨h.phase.trans h'.phase, h.rooms.trans h'.rooms⟩

theorem Alike.symm {c c' : Cache α} (h : c.Alike c') : c'.Alike c :=
  ⟨h.phase.symm, h.rooms.symm⟩

/-- A population that fails leaves nothing but the listeners behind. -/
theorem alike_new_of_failed {c : Cache α} (h : c.phase = .uninitialized) {storage : Storage α}
    {error : SyncError} (failed : (c.populate storage).outcome = .error error) :
    (c.populate storage).cache.Alike {} := by
  rcases populate_of_new h storage with ⟨houtcome, -⟩ | ⟨_, -, hphase, hrooms⟩
  · rw [houtcome] at failed
    contradiction
  · exact ⟨hphase, hrooms⟩

theorem alike_unsubscribe (c : Cache α) (handle : Nat) : c.Alike (c.unsubscribe handle).2 := by
  unfold unsubscribe
  split <;> exact ⟨rfl, rfl⟩

theorem alike_modifyListener (c : Cache α) (handle : Nat) (change : α → α) :
    c.Alike (c.modifyListener handle change) := by
  unfold modifyListener
  split <;> exact ⟨rfl, rfl⟩

variable {c c' : Cache α}

theorem Alike.assign (h : c.Alike c') (room : Room) : (c.assign room).Alike (c'.assign room) := by
  refine ⟨h.phase, ?_⟩
  unfold Cache.assign
  rw [h.rooms]

theorem Alike.loadLatest (h : c.Alike c') (rows : List StoredEvent) :
    (rows.foldl Cache.loadLatest c).Alike (rows.foldl Cache.loadLatest c') := by
  induction rows generalizing c c' with
  | nil => exact h
  | cons row rest ih => exact ih (h.assign _)

theorem Alike.loadState (h : c.Alike c') (named : List (RoomId × List StoredEvent)) :
    (c.loadState named).1 = (c'.loadState named).1 ∧
      (c.loadState named).2.Alike (c'.loadState named).2 := by
  induction named generalizing c c' with
  | nil => exact ⟨rfl, h⟩
  | cons entry rest ih =>
      obtain ⟨id, events⟩ := entry
      unfold Cache.loadState
      rw [h.rooms]
      cases c'.rooms.get? id with
      | none => exact ⟨rfl, h⟩
      | some summary => exact ih (h.assign _)

theorem Alike.loadRooms (h : c.Alike c') {storage : Storage α} (blind : Indifferent storage) :
    SameResult (c.loadRooms storage) (c'.loadRooms storage) := by
  have hfirst := blind.latest c c' h
  unfold Cache.loadRooms
  generalize storage.latestEvents c = asked, storage.latestEvents c' = asked' at hfirst ⊢
  obtain ⟨answer, first⟩ := asked
  obtain ⟨answer', first'⟩ := asked'
  obtain ⟨rfl, hfirst⟩ : answer = answer' ∧ first.Alike first' := hfirst
  cases answer with
  | error error => exact ⟨rfl, hfirst, rfl⟩
  | ok rows =>
      have hsecond := blind.state nameTypes _ _ (hfirst.loadLatest rows)
      dsimp only
      generalize storage.currentState nameTypes (rows.foldl Cache.loadLatest first) = asked,
        storage.currentState nameTypes (rows.foldl Cache.loadLatest first') = asked'
        at hsecond ⊢
      obtain ⟨answer, second⟩ := asked
      obtain ⟨answer', second'⟩ := asked'
      obtain ⟨rfl, hsecond⟩ : answer = answer' ∧ second.Alike second' := hsecond
      cases answer with
      | error error => exact ⟨rfl, hsecond, rfl⟩
      | ok named =>
          obtain ⟨houtcome, hcache⟩ := hsecond.loadState named
          exact ⟨houtcome, hcache, rfl⟩

/-- Storage that does not look at listeners populates alike caches alike. -/
theorem Alike.populate (h : c.Alike c') {storage : Storage α} (blind : Indifferent storage) :
    SameResult (c.populate storage) (c'.populate storage) := by
  by_cases hnew : c.phase = .uninitialized
  -- Whatever storage did to it, the cache gets its phase from the outcome.
  · have hbegun : Alike { c with phase := .populating } { c' with phase := .populating } :=
      ⟨rfl, h.rooms⟩
    obtain ⟨houtcome, hcache, htypes⟩ := hbegun.loadRooms blind
    unfold Cache.populate
    rw [beginPopulation_of_new hnew, beginPopulation_of_new (h.phase ▸ hnew)]
    dsimp only
    rw [← houtcome]
    split
    · exact ⟨rfl, ⟨rfl, hcache.rooms⟩, htypes⟩
    · exact ⟨rfl, ⟨rfl, rfl⟩, htypes⟩
  · rw [populate_of_not_new hnew, populate_of_not_new (h.phase ▸ hnew), h.phase]
    exact ⟨rfl, h, rfl⟩

/-! ## Live caches -/

/-- What is live stays live, with all its rooms. -/
def Grows (before after : Cache α) : Prop :=
  before.phase = .live →
    after.phase = .live ∧ ∀ id, before.rooms.contains id = true → after.rooms.contains id = true

theorem Grows.refl (c : Cache α) : c.Grows c :=
  fun h => ⟨h, fun _ hin => hin⟩

theorem Grows.trans {c₁ c₂ c₃ : Cache α} (h : c₁.Grows c₂) (h' : c₂.Grows c₃) : c₁.Grows c₃ :=
  fun hlive => ⟨(h' (h hlive).1).1, fun id hin => (h' (h hlive).1).2 id ((h hlive).2 id hin)⟩

/-! ## Calls -/

/--
A call of the cache. A population comes with what storage answers to either query, and
with the calls that storage makes itself before it answers: a population asks each query
once, so both can be written down beforehand.
-/
inductive Call (α : Type)
  | ingest (room : RoomId) (events : List Payload) (position : Int64)
  | assign (room : Room)
  | subscribe (listener : α)
  | unsubscribe (handle : Nat)
  | modify (handle : Nat) (change : α → α)
  | populate (first : List (Call α)) (latest : Except SyncError (List StoredEvent))
      (second : List (Call α)) (state : Except SyncError (List (RoomId × List StoredEvent)))

variable [Listener α]

mutual

def Call.perform : Call α → Cache α → Cache α
  | .ingest room events position, c => (c.ingest room events position).cache
  | .assign room, c => c.assign room
  | .subscribe listener, c => (c.subscribe listener).2
  | .unsubscribe handle, c => (c.unsubscribe handle).2
  | .modify handle change, c => c.modifyListener handle change
  | .populate first latest second state, c =>
      (c.populate
        ⟨fun c => (latest, performAll first c), fun _ c => (state, performAll second c)⟩).cache

def performAll : List (Call α) → Cache α → Cache α
  | [], c => c
  | call :: rest, c => performAll rest (call.perform c)

end

/-- Storage that makes these calls before it gives these answers. -/
def scripted (first : List (Call α)) (latest : Except SyncError (List StoredEvent))
    (second : List (Call α)) (state : Except SyncError (List (RoomId × List StoredEvent))) :
    Storage α where
  latestEvents c := (latest, performAll first c)
  currentState _ c := (state, performAll second c)

theorem perform_populate (first : List (Call α)) (latest : Except SyncError (List StoredEvent))
    (second : List (Call α)) (state : Except SyncError (List (RoomId × List StoredEvent)))
    (c : Cache α) :
    (Call.populate first latest second state).perform c =
      (c.populate (scripted first latest second state)).cache := by
  rw [Call.perform]
  rfl

/-! ## One call -/

theorem phase_perform {c : Cache α} (h : c.phase ≠ .uninitialized) (call : Call α) :
    (call.perform c).phase = c.phase := by
  cases call with
  | ingest room events position =>
      rw [Call.perform]
      by_cases hlive : c.phase = .live
      · rw [ingest_of_live hlive]
        exact acceptAll_phase c _
      · rw [ingest_of_not_live hlive]
  | assign room => rw [Call.perform]; rfl
  | subscribe listener => rw [Call.perform]; rfl
  | unsubscribe handle =>
      rw [Call.perform]
      exact (alike_unsubscribe c handle).phase.symm
  | modify handle change =>
      rw [Call.perform]
      exact (alike_modifyListener c handle change).phase.symm
  | populate first latest second state => rw [perform_populate, populate_of_not_new h]

theorem contains_acceptAll (events : List Event) (c : Cache α) {id : RoomId}
    (h : c.rooms.contains id = true) : (c.acceptAll events).1.rooms.contains id = true := by
  induction events generalizing c with
  | nil => exact h
  | cons event rest ih =>
      rw [acceptAll_cons]
      exact ih _ (SortedMap.contains_insert.mpr (.inr h))

theorem grows_perform (call : Call α) (c : Cache α) : c.Grows (call.perform c) := by
  intro hlive
  have hphase : c.phase ≠ .uninitialized := by simp [hlive]
  refine ⟨(phase_perform hphase call).trans hlive, fun id hin => ?_⟩
  cases call with
  | ingest room events position =>
      rw [Call.perform, ingest_of_live hlive]
      exact contains_acceptAll _ c hin
  | assign room =>
      rw [Call.perform]
      exact SortedMap.contains_insert.mpr (.inr hin)
  | subscribe listener =>
      rw [Call.perform]
      exact hin
  | unsubscribe handle =>
      rw [Call.perform, ← (alike_unsubscribe c handle).rooms]
      exact hin
  | modify handle change =>
      rw [Call.perform, ← (alike_modifyListener c handle change).rooms]
      exact hin
  | populate first latest second state =>
      rw [perform_populate, populate_of_not_new hphase]
      exact hin

theorem Alike.acceptAll (h : c.Alike c') (events : List Event) :
    (c.acceptAll events).1.Alike (c'.acceptAll events).1 := by
  induction events generalizing c c' with
  | nil => exact h
  | cons event rest ih =>
      rw [acceptAll_cons, acceptAll_cons]
      refine ih ⟨h.phase, ?_⟩
      rw [accept_rooms, accept_rooms, h.rooms]

theorem Alike.ingest (h : c.Alike c') (room : RoomId) (events : List Payload) (position : Int64) :
    (c.ingest room events position).cache.Alike (c'.ingest room events position).cache := by
  by_cases hlive : c.phase = .live
  · rw [ingest_of_live hlive, ingest_of_live (h.phase ▸ hlive)]
    exact h.acceptAll _
  · rw [ingest_of_not_live hlive, ingest_of_not_live (h.phase ▸ hlive)]
    exact h

theorem indifferent_scripted {first second : List (Call α)}
    (latest : Except SyncError (List StoredEvent))
    (state : Except SyncError (List (RoomId × List StoredEvent)))
    (hfirst : ∀ {c c' : Cache α}, c.Alike c' → (performAll first c).Alike (performAll first c'))
    (hsecond : ∀ {c c' : Cache α}, c.Alike c' →
      (performAll second c).Alike (performAll second c')) :
    Indifferent (scripted first latest second state) where
  latest := fun _ _ h => ⟨rfl, hfirst h⟩
  state := fun _ _ _ h => ⟨rfl, hsecond h⟩

mutual

/-- What a call does to phase and rooms does not depend on the listeners. -/
theorem Alike.perform {c c' : Cache α} (h : c.Alike c') :
    ∀ call : Call α, (call.perform c).Alike (call.perform c')
  | .ingest room events position => by
      rw [Call.perform, Call.perform]
      exact h.ingest room events position
  | .assign room => by
      rw [Call.perform, Call.perform]
      exact h.assign room
  | .subscribe listener => by
      rw [Call.perform, Call.perform]
      exact ⟨h.phase, h.rooms⟩
  | .unsubscribe handle => by
      rw [Call.perform, Call.perform]
      exact ((alike_unsubscribe c handle).symm.trans h).trans (alike_unsubscribe c' handle)
  | .modify handle change => by
      rw [Call.perform, Call.perform]
      exact ((alike_modifyListener c handle change).symm.trans h).trans
        (alike_modifyListener c' handle change)
  | .populate first latest second state => by
      rw [perform_populate, perform_populate]
      -- The calls of a script are smaller than the population that runs it.
      have hscript := indifferent_scripted latest state (fun h => h.performAll first)
        fun h => h.performAll second
      exact (h.populate hscript).cache

theorem Alike.performAll {c c' : Cache α} (h : c.Alike c') :
    ∀ calls : List (Call α), (Cache.performAll calls c).Alike (Cache.performAll calls c')
  | [] => by
      rw [Cache.performAll, Cache.performAll]
      exact h
  | call :: rest => by
      rw [Cache.performAll, Cache.performAll]
      exact (h.perform call).performAll rest

end

/-! ## Some calls -/

theorem phase_performAll {c : Cache α} (h : c.phase ≠ .uninitialized) (calls : List (Call α)) :
    (performAll calls c).phase = c.phase := by
  induction calls generalizing c with
  | nil => rw [performAll]
  | cons call rest ih =>
      have hcall := phase_perform h call
      rw [performAll, ih (hcall ▸ h), hcall]

theorem grows_performAll (calls : List (Call α)) (c : Cache α) :
    c.Grows (performAll calls c) := by
  induction calls generalizing c with
  | nil => rw [performAll]; exact Grows.refl c
  | cons call rest ih => rw [performAll]; exact (grows_perform call c).trans (ih _)

end SlidingSync.Cache
