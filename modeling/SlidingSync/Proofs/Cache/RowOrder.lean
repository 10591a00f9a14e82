import SlidingSync.Channel
import SlidingSync.Proofs.Cache.Filling

/-! # The order of state rows

Storage gives the current state of a room in no particular order, and the cache reads the name off
it row by row. A name event replaces whatever stood there, an alias too, so for a room with an alias
and an empty name it matters which row comes first. For all other rooms it does not: the name is
the one that the name event gives, else the alias. A room that has no latest event, and is known
only because the cache was told of it before, keeps the name that it has when no event names it.
-/

namespace SlidingSync

/-- A list with at most one element has one arrangement only. -/
theorem eq_of_perm_of_length_le_one {α : Type} {l l' : List α} (same : l'.Perm l)
    (short : l.length ≤ 1) : l' = l := by
  match l, short with
  | [], _ => exact List.perm_nil.mp same
  | [a], _ => exact List.perm_singleton.mp same

theorem getLast?_eq_head? {α : Type} {l : List α} (short : l.length ≤ 1) :
    l.getLast? = l.head? := by
  match l, short with
  | [], _ => rfl
  | [a], _ => rfl

theorem eq_singleton_of_mem {α : Type} {l : List α} {a : α} (short : l.length ≤ 1) (h : a ∈ l) :
    l = [a] := by
  cases l with
  | nil => simp at h
  | cons b rest =>
      have hrest : rest = [] := by simpa using short
      subst hrest
      rw [List.mem_singleton.mp h]

namespace Event

/-- At most one of the events names the room, and at most one gives it an alias. -/
structure Single (events : List Event) : Prop where
  names : (events.filter fun event => event.isRoomState roomNameType).length ≤ 1
  aliases : (events.filter fun event => event.isRoomState canonicalAliasType).length ≤ 1

/-- The text of the first event of a type, or the one that was held before. -/
def textOf (eventType field held : String) (events : List Event) : String :=
  ((events.filter fun event => event.isRoomState eventType).head?.map
    fun event => event.contentText field).getD held

/-- The name that the name event gives or that was held, or in place of an empty one the alias. -/
def displayName (held : String) (events : List Event) : String :=
  if textOf roomNameType "name" held events = "" then textOf canonicalAliasType "alias" "" events
  else textOf roomNameType "name" held events

/-- Whether an empty name can replace an alias. -/
def Overwrites (events : List Event) : Prop :=
  (∃ event ∈ events, event.isRoomState roomNameType = true ∧ event.contentText "name" = "") ∧
    ∃ event ∈ events,
      event.isRoomState canonicalAliasType = true ∧ event.contentText "alias" ≠ ""

instance (events : List Event) : Decidable (Overwrites events) :=
  inferInstanceAs (Decidable (_ ∧ _))

variable {events order : List Event} {held : String}

theorem textOf_of_mem {eventType : String}
    (short : (events.filter fun event => event.isRoomState eventType).length ≤ 1) {event : Event}
    (hevent : event ∈ events) (hstate : event.isRoomState eventType = true) (field : String) :
    textOf eventType field held events = event.contentText field := by
  have hmem : event ∈ events.filter fun event => event.isRoomState eventType :=
    List.mem_filter.mpr ⟨hevent, hstate⟩
  unfold textOf
  rw [eq_singleton_of_mem short hmem]
  rfl

/-! ## Other orders -/

theorem Single.of_perm (single : Single events) (same : order.Perm events) : Single order where
  names := (same.filter _).length_eq ▸ single.names
  aliases := (same.filter _).length_eq ▸ single.aliases

theorem displayName_of_perm (single : Single events) (same : order.Perm events) :
    displayName held order = displayName held events := by
  unfold displayName textOf
  rw [eq_of_perm_of_length_le_one (same.filter _) single.names,
    eq_of_perm_of_length_le_one (same.filter _) single.aliases]

theorem Overwrites.of_perm (h : Overwrites order) (same : order.Perm events) :
    Overwrites events := by
  obtain ⟨⟨name, hname, hblank⟩, other, hother, htext⟩ := h
  exact ⟨⟨name, same.mem_iff.mp hname, hblank⟩, other, same.mem_iff.mp hother, htext⟩

/-! ## The name that settles -/

theorem firstNonempty_of_length_le_one {texts : List String} (short : texts.length ≤ 1) :
    firstNonempty texts = texts.head?.getD "" := by
  match texts, short with
  | [], _ => rfl
  | [text], _ => exact (firstNonempty_concat [] text).trans (if_pos rfl)

theorem firstNonempty_of_all_empty {texts : List String} (h : ∀ text ∈ texts, text = "") :
    firstNonempty texts = "" := by
  have hnone : (texts.find? fun text => text != "") = none := by
    rw [List.find?_eq_none]
    simpa using h
  unfold firstNonempty
  rw [hnone]
  rfl

theorem lastGiven_of_single (single : Single events) :
    lastGiven held events = textOf roomNameType "name" held events := by
  unfold lastGiven textOf
  rw [getLast?_eq_head? single.names]

theorem aliasesSince_of_no_name
    (h : ∀ event ∈ events, event.isRoomState roomNameType = false) :
    aliasesSince events = (events.filter fun event =>
      event.isRoomState canonicalAliasType).map fun event => event.contentText "alias" := by
  have hall : (events.rtakeWhile fun event => !event.isRoomState roomNameType) = events :=
    List.rtakeWhile_eq_self_iff.mpr fun event hevent => by simp [h event hevent]
  unfold aliasesSince
  rw [hall]

theorem mem_aliasesSince {text : String} (h : text ∈ aliasesSince events) :
    ∃ event ∈ events,
      event.isRoomState canonicalAliasType = true ∧ event.contentText "alias" = text := by
  obtain ⟨event, hevent, rfl⟩ := List.mem_map.mp h
  obtain ⟨hsince, halias⟩ := List.mem_filter.mp hevent
  exact ⟨event, (List.rtakeWhile_suffix _ _).mem hsince, halias, rfl⟩

theorem textOf_alias_of_all_empty (h : ∀ event ∈ events,
    event.isRoomState canonicalAliasType = true → event.contentText "alias" = "") :
    textOf canonicalAliasType "alias" "" events = "" := by
  unfold textOf
  cases hhead : (events.filter fun event => event.isRoomState canonicalAliasType).head? with
  | none => rfl
  | some event =>
      obtain ⟨hevent, halias⟩ := List.mem_filter.mp (List.mem_of_head? hhead)
      exact h event hevent halias

/-- Where no empty name replaces an alias, the name and else the alias settles. -/
theorem settledName_of_not_overwrites (single : Single events) (h : ¬ Overwrites events) :
    settledName held events = displayName held events := by
  unfold settledName displayName
  rw [lastGiven_of_single single]
  by_cases hgiven : textOf roomNameType "name" held events = ""
  · rw [if_pos hgiven, if_pos hgiven]
    by_cases hname : ∃ event ∈ events, event.isRoomState roomNameType = true
    -- The name event gives an empty name, so there is no alias that it could replace.
    · obtain ⟨event, hevent, hstate⟩ := hname
      have hblank : event.contentText "name" = "" :=
        (textOf_of_mem single.names hevent hstate "name").symm.trans hgiven
      have hempty : ∀ other ∈ events, other.isRoomState canonicalAliasType = true →
          other.contentText "alias" = "" := by
        intro other hother hkind
        by_contra htext
        exact h ⟨⟨event, hevent, hstate, hblank⟩, other, hother, hkind, htext⟩
      rw [textOf_alias_of_all_empty hempty]
      apply firstNonempty_of_all_empty
      intro text htext
      obtain ⟨other, hother, hkind, rfl⟩ := mem_aliasesSince htext
      exact hempty other hother hkind
    · have hnone : ∀ event ∈ events, event.isRoomState roomNameType = false := by
        simpa using hname
      rw [aliasesSince_of_no_name hnone,
        firstNonempty_of_length_le_one (by simpa using single.aliases), List.head?_map]
      rfl
  · rw [if_neg hgiven, if_neg hgiven]

/-! ## Rows that overwrite -/

theorem displayName_of_overwrites (single : Single events) (h : Overwrites events) :
    displayName held events ≠ "" := by
  obtain ⟨⟨name, hname, hnamed, hblank⟩, other, hother, hkind, htext⟩ := h
  unfold displayName
  rw [textOf_of_mem single.names hname hnamed, textOf_of_mem single.aliases hother hkind,
    if_pos hblank]
  exact htext

/-- With the name row at the end an empty name is what remains. -/
theorem exists_order_of_overwrites {rows : List StoredEvent}
    (single : Single (rows.map .ofStored)) (h : Overwrites (rows.map .ofStored)) :
    ∃ order : List StoredEvent, order.Perm rows ∧
      settledName held (order.map .ofStored) = "" := by
  obtain ⟨⟨event, hevent, hstate, hblank⟩, -⟩ := h
  obtain ⟨row, hrow, rfl⟩ := List.mem_map.mp hevent
  have hnames : (rows.filter fun row => (ofStored row).isRoomState roomNameType) = [row] := by
    refine eq_singleton_of_mem ?_ (List.mem_filter.mpr ⟨hrow, hstate⟩)
    have hshort := single.names
    rw [List.filter_map, List.length_map] at hshort
    exact hshort
  refine ⟨(rows.filter fun row => !(ofStored row).isRoomState roomNameType) ++ [row], ?_, ?_⟩
  · rw [← hnames]
    exact List.perm_append_comm.trans (List.filter_append_perm _ rows)
  · rw [List.map_append, List.map_singleton, settledName_concat_name hstate, hblank]

end Event

namespace Cache

variable {α : Type} {c : Cache α} {latest : List StoredEvent}
  {state : SortedMap RoomId (List StoredEvent)} {id : RoomId}

/--
The name that the state rows of a room find. A latest event of the room has left it
without a name; otherwise it has the one that it had before.
-/
def heldName (c : Cache α) (latest : List StoredEvent) (id : RoomId) : String :=
  if ∃ row ∈ latest, row.room = id then "" else c.nameOf id

theorem nameOf_withLatest (c : Cache α) (latest : List StoredEvent) (id : RoomId) :
    (c.withLatest latest).nameOf id = c.heldName latest id := by
  unfold nameOf heldName
  rw [get?_withLatest]
  cases hrow : lastRow latest id with
  | some row =>
      rw [if_pos (lastRow_isSome_iff.mp (by rw [hrow]; rfl))]
      rfl
  | none =>
      rw [if_neg (mt lastRow_isSome_iff.mpr (by rw [hrow]; simp))]
      rfl

/-- Whether a population succeeds has nothing to do with the rows of a room that has some. -/
theorem populate_eq_ok_of_walk {rows order : List StoredEvent}
    {first : (state.insert id rows).Walk}
    (succeeds : (c.populate (.answering (.ok latest) fun _ => .ok first.entries)).outcome = .ok ())
    (walk : (state.insert id order).Walk) :
    (c.populate (.answering (.ok latest) fun _ => .ok walk.entries)).outcome = .ok () := by
  have new := new_of_populate_eq_ok succeeds
  rw [populate_eq_ok_iff new] at succeeds ⊢
  intro room hroom
  exact succeeds room (SortedMap.contains_insert.mpr (SortedMap.contains_insert.mp hroom))

/-- A population names a room by its state rows in the order in which storage gives them. -/
theorem populate_name {order : List StoredEvent} {walk : (state.insert id order).Walk}
    (succeeds : (c.populate (.answering (.ok latest) fun _ => .ok walk.entries)).outcome = .ok ()) :
    let population := c.populate (.answering (.ok latest) fun _ => .ok walk.entries)
    ∃ summary, population.cache.rooms.get? id = some summary ∧
      summary.name = Event.settledName (c.heldName latest id) (order.map .ofStored) := by
  have new := new_of_populate_eq_ok succeeds
  have hknown := (populate_eq_ok_iff new latest walk).mp succeeds
  obtain ⟨rooms, hpopulation, hrooms⟩ := populate_of_known new latest walk hknown
  obtain ⟨summary, hsummary⟩ :=
    SortedMap.contains_iff.mp (hknown id (SortedMap.contains_insert.mpr (.inl rfl)))
  have hheld : summary.name = c.heldName latest id := by
    rw [← nameOf_withLatest, nameOf, hsummary]
    rfl
  have hnamed := hrooms id
  rw [← get?_withLatest, hsummary, SortedMap.get?_insert_self] at hnamed
  dsimp only
  rw [hpopulation, ← hheld]
  exact ⟨_, hnamed, Event.renameAll_eq_settledName _ _⟩

/--
The rows of a room, at most one of which names it and at most one of which gives it
an alias, name it alike in every order exactly when they do not have an alias beside
an empty name: by the name, or in place of an empty one by the alias.
-/
theorem row_order_immaterial_iff {rows : List StoredEvent}
    (single : Event.Single (rows.map .ofStored)) (first : (state.insert id rows).Walk)
    (succeeds : (c.populate (.answering (.ok latest) fun _ => .ok first.entries)).outcome =
      .ok ()) :
    (∀ order : List StoredEvent, order.Perm rows → ∀ walk : (state.insert id order).Walk,
        let population := c.populate (.answering (.ok latest) fun _ => .ok walk.entries)
        population.outcome = .ok () ∧
          ∃ summary, population.cache.rooms.get? id = some summary ∧
            summary.name = Event.displayName (c.heldName latest id) (rows.map .ofStored)) ↔
      ¬ Event.Overwrites (rows.map .ofStored) := by
  constructor
  · intro hall hoverwrites
    obtain ⟨order, hperm, hblank⟩ := Event.exists_order_of_overwrites single hoverwrites
    obtain ⟨houtcome, summary, hsummary, hname⟩ := hall order hperm (SortedMap.walk _)
    obtain ⟨summary', hsummary', hname'⟩ := populate_name houtcome
    have hsame : summary' = summary := Option.some.inj (hsummary'.symm.trans hsummary)
    rw [hsame, hname, hblank] at hname'
    exact Event.displayName_of_overwrites single hoverwrites hname'
  · intro hnot order hperm walk
    have hsame := hperm.map Event.ofStored
    have houtcome := populate_eq_ok_of_walk succeeds walk
    obtain ⟨summary, hsummary, hname⟩ := populate_name houtcome
    refine ⟨houtcome, summary, hsummary, hname.trans ?_⟩
    rw [Event.settledName_of_not_overwrites (single.of_perm hsame) (mt (·.of_perm hsame) hnot),
      Event.displayName_of_perm single hsame]

/-! ### A den -/

def den : RoomId :=
  ⟨"!den:s", by decide +kernel⟩

def nursery : RoomId :=
  ⟨"!nursery:s", by decide +kernel⟩

/-- A row of the den's state. -/
def denRow (eventType : String) (content : Json) (h : content.isCanonical = true) : StoredEvent where
  room := den
  eventType := eventType
  stateKey := some ""
  json := ⟨.object [("content", content)], by
    simp [Json.isCanonical, Json.canonicalMembers, h]⟩

def denAlias : StoredEvent :=
  denRow canonicalAliasType (.object [("alias", .string "#den:s")]) (by decide +kernel)

def denName : StoredEvent :=
  denRow roomNameType (.object [("name", .string "Den")]) (by decide +kernel)

def denUnnamed : StoredEvent :=
  denRow roomNameType (.object [("name", .string "")]) (by decide +kernel)

/-- The den's latest event, no state. -/
def denMessage : StoredEvent where
  room := den
  eventType := "m.room.message"
  json := .null

/-- A cache that can be populated and has been told of two rooms before. -/
def twoRooms : Cache Channel :=
  (Cache.assign {} ⟨den, {}⟩).assign ⟨nursery, { name := "Crib" }⟩

theorem named_alike_in_every_order :
    let rows := [denAlias, denRow "m.room.topic" .null rfl, denName]
    let state : SortedMap RoomId (List StoredEvent) := SortedMap.empty.insert nursery []
    Event.Single (rows.map .ofStored) ∧
      (twoRooms.populate (.answering (.ok [denMessage]) fun _ =>
        .ok (state.insert den rows).entries)).outcome = .ok () ∧
      ∀ order : List StoredEvent, order.Perm rows → ∀ walk : (state.insert den order).Walk,
        let population := twoRooms.populate
          (.answering (.ok [denMessage]) fun _ => .ok walk.entries)
        population.outcome = .ok () ∧
          ∃ summary, population.cache.rooms.get? den = some summary ∧ summary.name = "Den" := by
  intro rows state
  have single : Event.Single (rows.map .ofStored) := ⟨by decide +kernel, by decide +kernel⟩
  have succeeds : (twoRooms.populate (.answering (.ok [denMessage]) fun _ =>
      .ok (state.insert den rows).walk.entries)).outcome = .ok () := by
    decide +kernel
  have hname : Event.displayName (twoRooms.heldName [denMessage] den) (rows.map .ofStored) =
      "Den" := by
    decide +kernel
  have hkept := (row_order_immaterial_iff single _ succeeds).mpr (by decide +kernel)
  rw [hname] at hkept
  exact ⟨single, succeeds, hkept⟩

/-- The alias names the den when it comes behind the empty name, and is lost when it comes before. -/
theorem alias_is_overwritten :
    let population (order : List StoredEvent) : Population Channel :=
      Cache.populate {} (.answering (.ok [denMessage]) fun _ => .ok [(den, order)])
    Event.Single ([denAlias, denUnnamed].map .ofStored) ∧
      [denUnnamed, denAlias].Perm [denAlias, denUnnamed] ∧
      Event.displayName "" ([denAlias, denUnnamed].map .ofStored) = "#den:s" ∧
      (population [denUnnamed, denAlias]).cache.nameOf den = "#den:s" ∧
      (population [denAlias, denUnnamed]).cache.nameOf den = "" :=
  ⟨⟨by decide +kernel, by decide +kernel⟩, List.Perm.swap _ _ _, by decide +kernel,
    by decide +kernel, by decide +kernel⟩

end Cache

end SlidingSync
