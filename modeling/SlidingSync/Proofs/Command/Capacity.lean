import SlidingSync.Command.Replay
import SlidingSync.Proofs.Cache.Queues
import SlidingSync.Proofs.Session.Runs

/-! # Replays and the capacity of the queue

The cache takes a whole batch before the client looks at its channel. So the first event that the
client takes is answered from rooms that have all of the batch, and those behind it find nothing
left to tell of the lists. A queue that is too short costs the client lines of state events, never
an operation on a list: a replay is its transcript, what a client would be told whose queue has room
for everything, with every batch cut to the capacity.
-/

namespace SlidingSync

/-- A length of queue that a channel can be made for. -/
structure Channel.Capacity where
  events : UInt64
  supported : events.toNat < UInt64.size / 8

/-- How many events a channel made for a capacity keeps. -/
def Channel.kept (capacity : UInt64) : Nat :=
  max capacity.toNat 1

structure BatchReport where
  operations : List String
  /-- For every event of the batch its line, if it is a state event that the client gets. -/
  deliveries : List (List String)

namespace BatchReport

def lines (kept : Nat) (r : BatchReport) : List String :=
  r.operations ++ (r.deliveries.take kept).flatten

/-- The lines that a queue for `more` events has and one for `fewer` has not. -/
def surplus (fewer more : Nat) (r : BatchReport) : List String :=
  ((r.deliveries.take more).drop fewer).flatten

end BatchReport

structure Transcript where
  opening : List String
  reports : List BatchReport

def Transcript.lines (kept : Nat) (t : Transcript) : List String :=
  t.opening ++ t.reports.flatMap (·.lines kept)

/-- The events of a batch as listeners get them. -/
def EventBatch.parsed (batch : EventBatch) : List Event :=
  batch.events.map fun json => Event.parse batch.room json batch.position

/-- The session and its report after a batch that the rooms have in them already. -/
def Session.report (s : Session) (rooms : List Room) (batch : EventBatch) :
    Except SyncError (BatchReport × Session) :=
  if batch.events.isEmpty then .ok (⟨[], []⟩, s)
  else
    match s.handleEvent rooms batch.room with
    | (.error e, _) => .error e
    | (.ok update, next) =>
        .ok (⟨update.lines, batch.parsed.map (Replay.deliveredLines next)⟩, next)

namespace Transcript

def reportAll (cache : Cache Channel) (s : Session) :
    List EventBatch → Except SyncError (List BatchReport)
  | [] => .ok []
  | batch :: rest => do
      let ingestion := cache.ingest batch.room batch.events batch.position
      ingestion.outcome
      let (report, next) ← s.report ingestion.cache.snapshot batch
      let later ← reportAll ingestion.cache next rest
      return report :: later

theorem reportAll_of_live {cache : Cache Channel} (live : cache.phase = .live) {s next : Session}
    {batch : EventBatch} {report : BatchReport}
    (reports : s.report (cache.acceptAll batch.parsed).1.snapshot batch = .ok (report, next))
    (rest : List EventBatch) :
    reportAll cache s (batch :: rest) =
      (reportAll (cache.acceptAll batch.parsed).1 next rest).map (report :: ·) := by
  have hingest : cache.ingest batch.room batch.events batch.position =
      ⟨.ok (), (cache.acceptAll batch.parsed).1, (cache.acceptAll batch.parsed).2⟩ :=
    Cache.ingest_of_live live batch.room batch.events batch.position
  rw [reportAll, hingest]
  dsimp only
  rw [reports]
  cases hlater : reportAll (cache.acceptAll batch.parsed).1 next rest with
  | error e => simp [hlater, bind, Except.bind, Except.map]
  | ok later => simp [hlater, bind, Except.bind, Except.map, pure, Except.pure]

theorem reportAll_of_not_live {cache : Cache Channel} (dead : cache.phase ≠ .live) (s : Session)
    (batch : EventBatch) (rest : List EventBatch) :
    reportAll cache s (batch :: rest) = .error (.notLive cache.phase) := by
  unfold reportAll
  rw [Cache.ingest_of_not_live dead]
  rfl

def record (config : Config) (cache : Cache Channel) (user : UserId) (request : Request)
    (batches : List EventBatch) : Except SyncError Transcript :=
  match (Session.new user config).handleRequest cache.snapshot request with
  | (.error e, _) => .error e
  | (.ok update, s) => (reportAll cache s batches).map fun reports => ⟨update.lines, reports⟩

end Transcript

namespace Replay

variable {r : Replay} {room : RoomId} {kept : Nat} {cache : Cache Channel}

/-! ## Taking the events of a batch -/

theorem follow_quiet {event : Event}
    (quiet : r.session.handleEvent r.cache.snapshot event.room = (.ok {}, r.session)) :
    r.follow event = .ok { r with lines := r.lines ++ deliveredLines r.session event } := by
  have hnothing : ({} : SessionUpdate).lines = [] := rfl
  unfold follow
  rw [quiet]
  dsimp only
  rw [hnothing, List.append_nil]

theorem foldlM_follow_quiet
    (quiet : r.session.handleEvent r.cache.snapshot room = (.ok {}, r.session))
    {events : List Event} (ofRoom : ∀ event ∈ events, event.room = room) :
    events.foldlM follow r =
      .ok { r with lines := r.lines ++ (events.map (deliveredLines r.session)).flatten } := by
  induction events generalizing r with
  | nil => simp [pure, Except.pure]
  | cons event rest ih =>
      have hroom := ofRoom event List.mem_cons_self
      have hrest := @ih { r with lines := r.lines ++ deliveredLines r.session event } quiet
        fun e he => ofRoom e (List.mem_cons_of_mem _ he)
      rw [List.foldlM_cons, follow_quiet (by rw [hroom]; exact quiet)]
      refine hrest.trans ?_
      rw [List.map_cons, List.flatten_cons, List.append_assoc]

/-- The first event tells what there is to tell of the lists. -/
theorem foldlM_follow {update : SessionUpdate} {next : Session}
    (tells : r.session.handleEvent r.cache.snapshot room = (.ok update, next))
    (quiet : next.handleEvent r.cache.snapshot room = (.ok {}, next)) {first : Event}
    {rest : List Event} (ofRoom : ∀ event ∈ first :: rest, event.room = room) :
    (first :: rest).foldlM follow r =
      .ok
        { r with
          session := next
          lines := r.lines ++ update.lines ++
            ((first :: rest).map (deliveredLines next)).flatten } := by
  have hroom := ofRoom first List.mem_cons_self
  have hfirst : r.follow first = .ok
      { r with
        session := next
        lines := r.lines ++ update.lines ++ deliveredLines next first } := by
    unfold follow
    rw [hroom, tells]
  rw [List.foldlM_cons, hfirst]
  refine (foldlM_follow_quiet quiet fun e he => ofRoom e (List.mem_cons_of_mem _ he)).trans ?_
  rw [List.map_cons, List.flatten_cons]
  simp only [List.append_assoc]

/-! ## One batch -/

/-- A replay between two batches, over a cache that knows the rooms of `cache`. -/
structure Between (kept : Nat) (cache : Cache Channel) (r : Replay) : Prop where
  rooms : r.cache.rooms = cache.rooms
  phase : r.cache.phase = cache.phase
  keeps : r.cache.Keeps r.handle kept []
  sortsKnown : r.session.SortsKnown

theorem Between.step_of_not_live (h : r.Between kept cache) (dead : cache.phase ≠ .live)
    (batch : EventBatch) : r.step batch = .error (.notLive cache.phase) := by
  unfold step
  rw [Cache.ingest_of_not_live (by rwa [h.phase]), h.phase]

theorem parsed_room {batch : EventBatch} {event : Event} (h : event ∈ batch.parsed) :
    event.room = batch.room := by
  obtain ⟨json, -, rfl⟩ := List.mem_map.mp h
  rfl

/-- The replay when the cache has the batch and the client has emptied its channel. -/
def emptied (r : Replay) (batch : EventBatch) : Replay :=
  { r with
    cache := (r.cache.acceptAll batch.parsed).1.modifyListener r.handle fun channel =>
      (channel.take channel.queue.length).2 }

theorem Between.keeps_fed (h : r.Between kept cache) (batch : EventBatch) :
    (r.cache.acceptAll batch.parsed).1.Keeps r.handle kept (batch.parsed.take kept) := by
  have hkeeps : r.cache.Keeps r.handle kept (([] : List Event).take kept) := by
    rw [List.take_nil]
    exact h.keeps
  exact hkeeps.acceptAll batch.parsed

theorem Between.emptied (h : r.Between kept cache) (batch : EventBatch) :
    (r.emptied batch).Between kept (cache.acceptAll batch.parsed).1 where
  rooms := (Cache.rooms_modifyListener _ _ _).trans
    (Cache.acceptAll_rooms_congr h.rooms batch.parsed)
  phase := by
    have hphase := Cache.phase_modifyListener (r.cache.acceptAll batch.parsed).1 r.handle
      fun channel => (channel.take channel.queue.length).2
    rw [Cache.acceptAll_phase, h.phase] at hphase
    rw [Cache.acceptAll_phase]
    exact hphase
  keeps := (h.keeps_fed batch).emptied
  sortsKnown := h.sortsKnown

theorem Between.drain_eq (h : r.Between kept cache) (batch : EventBatch) :
    drain { r with cache := (r.cache.acceptAll batch.parsed).1 } =
      (batch.parsed.take kept).foldlM follow (r.emptied batch) := by
  obtain ⟨channel, hlistener, hqueue⟩ := (h.keeps_fed batch).listener?
  unfold drain
  dsimp only
  rw [hlistener, ← hqueue]
  rfl

/-- The client hears of the events that its queue has kept, over rooms that have all of them. -/
theorem Between.drain_fed (h : r.Between kept cache) (positive : 0 < kept) (batch : EventBatch) :
    let after := (cache.acceptAll batch.parsed).1
    ∃ report next r', r.session.report after.snapshot batch = .ok (report, next) ∧
      drain { r with cache := (r.cache.acceptAll batch.parsed).1 } = .ok r' ∧
      r'.lines = r.lines ++ report.lines kept ∧ r'.session = next ∧ r'.Between kept after := by
  intro after
  have hemptied := h.emptied batch
  rw [h.drain_eq batch]
  cases hevents : batch.events with
  | nil =>
      have hparsed : batch.parsed = [] := by
        unfold EventBatch.parsed
        rw [hevents, List.map_nil]
      have hreport : r.session.report after.snapshot batch = .ok (⟨[], []⟩, r.session) := by
        unfold Session.report
        rw [hevents]
        rfl
      have hlines : (r.emptied batch).lines = r.lines ++ BatchReport.lines kept ⟨[], []⟩ := by
        change r.lines = _
        simp [BatchReport.lines]
      rw [hparsed, List.take_nil]
      exact ⟨⟨[], []⟩, r.session, r.emptied batch, hreport, rfl, hlines, rfl, hemptied⟩
  | cons json rest =>
      obtain ⟨update, next, htells, hquiet, hknown⟩ :=
        Session.handleEvent_settles h.sortsKnown after.snapshot batch.room
      have hreport : r.session.report after.snapshot batch =
          .ok (⟨update.lines, batch.parsed.map (deliveredLines next)⟩, next) := by
        have hsome : batch.events.isEmpty = false := by
          rw [hevents]
          rfl
        unfold Session.report
        rw [hsome, htells]
        rfl
      obtain ⟨first, later, hkept⟩ : ∃ first later, batch.parsed.take kept = first :: later := by
        unfold EventBatch.parsed
        rw [hevents, List.map_cons]
        cases kept with
        | zero => contradiction
        | succ count => exact ⟨_, _, rfl⟩
      have hofRoom : ∀ event ∈ first :: later, event.room = batch.room := by
        intro event hevent
        rw [← hkept] at hevent
        exact parsed_room (List.mem_of_mem_take hevent)
      have hsnapshot : (r.emptied batch).cache.snapshot = after.snapshot :=
        Cache.snapshot_congr hemptied.rooms
      rw [← hsnapshot] at htells hquiet
      rw [hkept, foldlM_follow htells hquiet hofRoom]
      refine ⟨_, next, _, hreport, rfl, ?_, rfl, hemptied.rooms, hemptied.phase, hemptied.keeps,
        hknown⟩
      rw [← hkept, List.map_take, List.append_assoc]
      rfl

theorem step_of_live (live : r.cache.phase = .live) (batch : EventBatch) :
    r.step batch = drain { r with cache := (r.cache.acceptAll batch.parsed).1 } := by
  have hingest : r.cache.ingest batch.room batch.events batch.position =
      ⟨.ok (), (r.cache.acceptAll batch.parsed).1, (r.cache.acceptAll batch.parsed).2⟩ :=
    Cache.ingest_of_live live batch.room batch.events batch.position
  unfold step
  rw [hingest]

/-! ## All batches -/

/-- The reports on the batches, cut to what the queue keeps, are what is added to the lines. -/
theorem Between.foldlM_step (h : r.Between kept cache) (positive : 0 < kept)
    (batches : List EventBatch) :
    (batches.foldlM Replay.step r).map (·.lines) =
      (Transcript.reportAll cache r.session batches).map fun reports =>
        r.lines ++ reports.flatMap (·.lines kept) := by
  induction batches generalizing r cache with
  | nil =>
      have hnone : r.lines ++ ([] : List BatchReport).flatMap (·.lines kept) = r.lines := by simp
      exact congrArg Except.ok hnone.symm
  | cons batch rest ih =>
      rw [List.foldlM_cons]
      by_cases live : cache.phase = .live
      · obtain ⟨report, next, r', hreport, hdrain, hlines, hnext, hbetween⟩ :=
          h.drain_fed positive batch
        have hrest := ih hbetween
        rw [Transcript.reportAll_of_live live hreport, step_of_live (h.phase.trans live), hdrain]
        refine hrest.trans ?_
        rw [hnext, hlines]
        cases Transcript.reportAll (cache.acceptAll batch.parsed).1 next rest with
        | error e => rfl
        | ok reports => simp [Except.map]
      · rw [h.step_of_not_live live, Transcript.reportAll_of_not_live live]
        rfl

theorem start_eq (config : Config) (cache : Cache Channel) (user : UserId) (request : Request) :
    start config cache user request =
      match (Session.new user config).handleRequest cache.snapshot request with
      | (.error e, _) => .error e
      | (.ok update, s) =>
          .ok ⟨(cache.subscribe (.new config.listenerQueueCapacity.toNat)).2, cache.nextHandle, s,
            update.lines⟩ :=
  rfl

theorem between_start {config : Config} {cache : Cache Channel} {user : UserId} {request : Request}
    {update : SessionUpdate} {s : Session}
    (h : (Session.new user config).handleRequest cache.snapshot request = (.ok update, s)) :
    ∃ r, start config cache user request = .ok r ∧ r.lines = update.lines ∧ r.session = s ∧
      r.Between (Channel.kept config.listenerQueueCapacity) cache := by
  have hsound := (Session.sound_new user config).handleRequest cache.snapshot request
  rw [h] at hsound
  rw [start_eq, h]
  exact ⟨_, rfl, rfl, rfl, rfl, rfl, Cache.keeps_subscribe _ _, hsound.sortsKnown⟩

/-- A replay is its transcript, cut to the capacity of the queue. -/
theorem run_eq_record (config : Config) (cache : Cache Channel) (user : UserId) (request : Request)
    (batches : List EventBatch) :
    run config cache user request batches =
      (Transcript.record config cache user request batches).map
        (·.lines (Channel.kept config.listenerQueueCapacity)) := by
  have hpositive : 0 < Channel.kept config.listenerQueueCapacity :=
    Nat.lt_of_lt_of_le Nat.zero_lt_one (Nat.le_max_right _ _)
  unfold run Transcript.record
  cases hanswer : (Session.new user config).handleRequest cache.snapshot request with
  | mk answer s =>
      cases answer with
      | error e =>
          rw [start_eq, hanswer]
          rfl
      | ok update =>
          obtain ⟨r, hstart, hlines, hsession, hbetween⟩ := between_start hanswer
          have hrun := hbetween.foldlM_step hpositive batches
          rw [hlines, hsession] at hrun
          rw [hstart]
          change (batches.foldlM step r).map (·.lines) = _
          rw [hrun]
          dsimp only
          cases Transcript.reportAll cache s batches <;> rfl

/-! ## What has to be read first -/

structure Input where
  user : UserId
  request : Request
  batches : List EventBatch
  cache : Cache Channel

/-- The input of a replay from its files, or what is at fault with it. -/
def readInput (files : Files) (config : Config) (eventsPath requestPath user : String) :
    Except CommandError Input := do
  let userId ← (UserId.parse user).mapError fun fault =>
    ⟨some (.acceptingUser user), .identifier fault⟩
  let text ←
    match files.text? requestPath with
    | some text => .ok text
    | none => .error (.during (.readingRequest requestPath) (.fileUnreadable requestPath))
  let request ← (Request.record.codec.decodeText text).mapError fun fault =>
    .during .parsingRequest (.undecodable fault)
  let batches ← (files.decode eventsPath (.list EventBatch.record.codec)).mapError
    (.during (.readingBatches eventsPath))
  let cache ← Cache.ofConfig files config
  return ⟨userId, request, batches, cache⟩

theorem replay_eq (files : Files) (config : Config) (eventsPath requestPath user : String) :
    replay files config eventsPath requestPath user =
      (readInput files config eventsPath requestPath user).bind fun input =>
        (run config input.cache input.user input.request input.batches).mapError .ofSync := by
  change _ = readInput files config eventsPath requestPath user >>= _
  unfold replay readInput
  cases files.text? requestPath <;> simp only [bind_assoc, pure_bind]

end Replay

/-! ## Two capacities -/

namespace BatchReport

variable {fewer more : Nat}

theorem lines_of_le (hle : fewer ≤ more) (r : BatchReport) :
    r.lines more = r.lines fewer ++ r.surplus fewer more := by
  have hfirst : (r.deliveries.take more).take fewer = r.deliveries.take fewer := by
    rw [List.take_take, Nat.min_eq_left hle]
  have hsplit : r.deliveries.take more =
      r.deliveries.take fewer ++ (r.deliveries.take more).drop fewer := by
    rw [← hfirst, List.take_append_drop]
  unfold lines surplus
  rw [List.append_assoc, ← List.flatten_append, ← hsplit]

/-- Longer queues have more lines of every batch, so none can make up for another. -/
theorem length_flatMap_lines (hle : fewer ≤ more) (reports : List BatchReport) :
    (reports.flatMap (·.lines more)).length =
      (reports.flatMap (·.lines fewer)).length +
        (reports.flatMap (·.surplus fewer more)).length := by
  induction reports with
  | nil => rfl
  | cons r rest ih =>
      simp only [List.flatMap_cons, List.length_append, ih, lines_of_le hle r]
      omega

end BatchReport

namespace Transcript

theorem lines_eq_iff_of_le {fewer more : Nat} (hle : fewer ≤ more) (t : Transcript) :
    t.lines fewer = t.lines more ↔ ∀ report ∈ t.reports, report.surplus fewer more = [] := by
  unfold lines
  rw [List.append_cancel_left_eq]
  constructor
  · intro hsame
    have hlength := BatchReport.length_flatMap_lines hle t.reports
    rw [hsame] at hlength
    have hnone : (t.reports.flatMap (·.surplus fewer more)).length = 0 := by omega
    exact List.flatMap_eq_nil_iff.mp (List.length_eq_zero_iff.mp hnone)
  · intro hnone
    refine List.flatMap_congr ?_
    intro report hreport
    rw [BatchReport.lines_of_le hle, hnone report hreport, List.append_nil]

theorem lines_eq_iff (kept kept' : Nat) (t : Transcript) :
    t.lines kept = t.lines kept' ↔
      ∀ report ∈ t.reports, report.surplus (min kept kept') (max kept kept') = [] := by
  by_cases hle : kept ≤ kept'
  · rw [Nat.min_eq_left hle, Nat.max_eq_right hle]
    exact t.lines_eq_iff_of_le hle
  · have hle' : kept' ≤ kept := by omega
    rw [Nat.min_eq_right hle', Nat.max_eq_left hle', eq_comm]
    exact t.lines_eq_iff_of_le hle'

/-- The transcript of recorded batches for a user; the capacity of the queue is not looked at. -/
def ofFiles (files : Files) (config : Config) (eventsPath requestPath user : String) :
    Except CommandError Transcript :=
  (Replay.readInput files config eventsPath requestPath user).bind fun input =>
    (record config input.cache input.user input.request input.batches).mapError .ofSync

end Transcript

theorem replay_eq_ofFiles (files : Files) (config : Config) (capacity : UInt64)
    (eventsPath requestPath user : String) :
    replay files { config with listenerQueueCapacity := capacity } eventsPath requestPath user =
      (Transcript.ofFiles files config eventsPath requestPath user).map
        (·.lines (Channel.kept capacity)) := by
  have hinput : Replay.readInput files { config with listenerQueueCapacity := capacity } eventsPath
      requestPath user = Replay.readInput files config eventsPath requestPath user := rfl
  have hrecord : ∀ input : Replay.Input,
      Transcript.record { config with listenerQueueCapacity := capacity } input.cache input.user
        input.request input.batches =
      Transcript.record config input.cache input.user input.request input.batches := fun _ => rfl
  unfold Transcript.ofFiles
  rw [Replay.replay_eq, hinput]
  cases Replay.readInput files config eventsPath requestPath user with
  | error e => rfl
  | ok input =>
      change (Replay.run _ input.cache input.user input.request input.batches).mapError _ = _
      rw [Replay.run_eq_record, hrecord]
      change _ = ((Transcript.record config input.cache input.user input.request
        input.batches).mapError CommandError.ofSync).map _
      cases Transcript.record config input.cache input.user input.request input.batches <;> rfl

/--
The capacity of the queue has one effect on a replay: it is the transcript, which does not
depend on it, with the lines of all but the first events of every batch left out. So two
capacities give the same replay unless a batch has a line of a state event between the two.
-/
theorem replay_cut_to_capacity (files : Files) (config : Config)
    (eventsPath requestPath user : String) :
    (∀ capacity : Channel.Capacity,
      replay files { config with listenerQueueCapacity := capacity.events } eventsPath requestPath
          user =
        (Transcript.ofFiles files config eventsPath requestPath user).map
          (·.lines (Channel.kept capacity.events))) ∧
    ∀ capacity capacity' : Channel.Capacity,
      replay files { config with listenerQueueCapacity := capacity.events } eventsPath requestPath
            user =
          replay files { config with listenerQueueCapacity := capacity'.events } eventsPath
            requestPath user ↔
        ∀ t, Transcript.ofFiles files config eventsPath requestPath user = .ok t →
          ∀ report ∈ t.reports,
            report.surplus (min (Channel.kept capacity.events) (Channel.kept capacity'.events))
              (max (Channel.kept capacity.events) (Channel.kept capacity'.events)) = [] := by
  have hreplay := fun capacity =>
    replay_eq_ofFiles files config capacity eventsPath requestPath user
  refine ⟨fun capacity => hreplay capacity.events, ?_⟩
  intro capacity capacity'
  rw [hreplay, hreplay]
  cases Transcript.ofFiles files config eventsPath requestPath user with
  | error e => simp [Except.map]
  | ok t =>
      have hlines := t.lines_eq_iff (Channel.kept capacity.events) (Channel.kept capacity'.events)
      simpa [Except.map] using hlines

/-! ### A queue for one event -/

namespace Replay

def snapshotText : String :=
  "\x7b\"rooms\":[]\x7d"

/-- A request for all state of the garden. -/
def requestText : String :=
  "\x7b\"room_subscriptions\":\x7b\"!garden:s\":\x7b\"required_state\":[[\"*\",\"*\"]]\x7d\x7d\x7d"

def eventsText : String :=
  "[\x7b\"room_id\":\"!garden:s\",\"events\":[\x7b\"state_key\":\"\",\"type\":\"topic\"\x7d," ++
    "\x7b\"state_key\":\"\",\"type\":\"avatar\"\x7d]\x7d]"

def gardenFiles : Files := fun path =>
  if path = "snapshot.json" then .file (some snapshotText)
  else if path = "request.json" then .file (some requestText)
  else if path = "events.json" then .file (some eventsText)
  else .nothing

def gardenConfig (capacity : UInt64) : Config :=
  { Config.ofServer ⟨"garden", by decide +kernel⟩ with
    listenerQueueCapacity := capacity
    snapshotPath := some "snapshot.json" }

/-- A batch brings two state events that the client gets, and a queue for one loses the second. -/
theorem second_delivery_lost :
    (gardenConfig 1).validate = .ok () ∧ (gardenConfig 2).validate = .ok () ∧
      replay gardenFiles (gardenConfig 1) "events.json" "request.json" "@visitor:s" =
        .ok ["SUBSCRIBE !garden:s", "!garden:s: state topic () delivered"] ∧
      replay gardenFiles (gardenConfig 2) "events.json" "request.json" "@visitor:s" =
        .ok ["SUBSCRIBE !garden:s", "!garden:s: state topic () delivered",
          "!garden:s: state avatar () delivered"] ∧
      replay gardenFiles (gardenConfig 1) "events.json" "request.json" "@visitor:s" ≠
        replay gardenFiles (gardenConfig 2) "events.json" "request.json" "@visitor:s" := by
  have hone : replay gardenFiles (gardenConfig 1) "events.json" "request.json" "@visitor:s" =
      .ok ["SUBSCRIBE !garden:s", "!garden:s: state topic () delivered"] := by
    decide +kernel
  have htwo : replay gardenFiles (gardenConfig 2) "events.json" "request.json" "@visitor:s" =
      .ok ["SUBSCRIBE !garden:s", "!garden:s: state topic () delivered",
        "!garden:s: state avatar () delivered"] := by
    decide +kernel
  refine ⟨rfl, rfl, hone, htwo, ?_⟩
  rw [hone, htwo]
  simp

end Replay

end SlidingSync
