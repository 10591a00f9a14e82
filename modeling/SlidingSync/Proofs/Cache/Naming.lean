import SlidingSync.Cache.Population
import SlidingSync.Proofs.Cache.Rooms
import Mathlib.Data.List.DropRight

/-! # Names of rooms

What events do to the name of a room depends on its name alone, and what they leave of the rest of
its summary is the last event's. So a run of events is a fold over the name with a last event, and
events that are no names and no aliases can be left out of the fold.
-/

namespace SlidingSync

namespace Event

/-- The name of a room after an event: a name always wins, an alias only fills an empty name. -/
def rename (event : Event) (name : String) : String :=
  if event.isRoomState roomNameType then event.contentText "name"
  else if event.isRoomState canonicalAliasType && name.isEmpty then event.contentText "alias"
  else name

def renameAll (events : List Event) (name : String) : String :=
  events.foldl (fun name event => event.rename name) name

/-- Whether the event is state of the whole room that can name it. -/
def Names (event : Event) : Prop :=
  event.eventType ∈ nameTypes ∧ event.stateKey = some ""

instance (event : Event) : Decidable event.Names :=
  inferInstanceAs (Decidable (_ ∧ _))

theorem renameAll_concat (events : List Event) (last : Event) (name : String) :
    renameAll (events ++ [last]) name = last.rename (renameAll events name) := by
  unfold renameAll
  rw [List.foldl_append]
  rfl

theorem isRoomState_iff {event : Event} {eventType : String} :
    event.isRoomState eventType = true ↔
      event.eventType = eventType ∧ event.stateKey = some "" := by
  unfold isRoomState
  simp

theorem rename_of_not_names {event : Event} (h : ¬ event.Names) (name : String) :
    event.rename name = name := by
  have hother : ∀ eventType ∈ nameTypes, ¬ event.isRoomState eventType = true := by
    intro eventType htype hstate
    obtain ⟨rfl, hkey⟩ := isRoomState_iff.mp hstate
    exact h ⟨htype, hkey⟩
  unfold rename
  rw [if_neg (hother roomNameType (by simp [nameTypes])),
    if_neg (by simp [hother canonicalAliasType (by simp [nameTypes])])]

/-- Events that are left out have no say about the name when those that name rooms are kept. -/
theorem renameAll_filter_of_names {kept : Event → Bool}
    (hkept : ∀ event : Event, event.Names → kept event = true) (events : List Event)
    (name : String) : renameAll (events.filter kept) name = renameAll events name := by
  induction events generalizing name with
  | nil => rfl
  | cons event rest ih =>
      cases h : kept event with
      | true =>
          rw [List.filter_cons_of_pos h]
          exact ih (event.rename name)
      | false =>
          have hsame : event.rename name = name :=
            rename_of_not_names (fun hnames => by simp [hkept event hnames] at h) name
          rw [List.filter_cons_of_neg (by simp [h]), ih]
          exact congrArg (renameAll rest) hsame.symm

theorem renameAll_filter (events : List Event) (name : String) :
    renameAll (events.filter fun event => nameTypes.contains event.eventType) name =
      renameAll events name :=
  renameAll_filter_of_names (fun event h => by simpa using h.1) events name

/-! ## The name that remains -/

/-- What the last name event says, else the name that was held before. -/
def lastGiven (held : String) (events : List Event) : String :=
  ((events.filter fun event => event.isRoomState roomNameType).getLast?.map
    fun event => event.contentText "name").getD held

/-- The aliases since the last name event, all of them when there was none. -/
def aliasesSince (events : List Event) : List String :=
  ((events.rtakeWhile fun event => !event.isRoomState roomNameType).filter
    fun event => event.isRoomState canonicalAliasType).map fun event => event.contentText "alias"

/-- The first text that is not empty, or the empty one. -/
def firstNonempty (texts : List String) : String :=
  (texts.find? fun text => text != "").getD ""

/-- The name last given, or for an empty one the first alias since that is not empty. -/
def settledName (held : String) (events : List Event) : String :=
  if lastGiven held events = "" then firstNonempty (aliasesSince events)
  else lastGiven held events

theorem firstNonempty_concat (texts : List String) (last : String) :
    firstNonempty (texts ++ [last]) =
      if firstNonempty texts = "" then last else firstNonempty texts := by
  unfold firstNonempty
  rw [List.find?_append]
  cases hfound : texts.find? fun text => text != "" with
  | none => by_cases hlast : last = "" <;> simp [hlast]
  | some text =>
      have htext : text ≠ "" := by simpa using List.find?_some hfound
      simp [htext]

theorem settledName_concat_name {last : Event} (h : last.isRoomState roomNameType = true)
    (held : String) (events : List Event) :
    settledName held (events ++ [last]) = last.contentText "name" := by
  have hgiven : lastGiven held (events ++ [last]) = last.contentText "name" := by
    simp [lastGiven, h]
  have haliases : aliasesSince (events ++ [last]) = [] := by
    simp [aliasesSince, h]
  unfold settledName
  rw [hgiven, haliases]
  split
  · next hempty => exact hempty.symm
  · rfl

theorem lastGiven_concat {last : Event} (h : last.isRoomState roomNameType = false)
    (held : String) (events : List Event) :
    lastGiven held (events ++ [last]) = lastGiven held events := by
  simp [lastGiven, h]

theorem aliasesSince_concat {last : Event} (h : last.isRoomState roomNameType = false)
    (events : List Event) :
    aliasesSince (events ++ [last]) = aliasesSince events ++
      if last.isRoomState canonicalAliasType then [last.contentText "alias"] else [] := by
  unfold aliasesSince
  rw [List.rtakeWhile_concat_pos _ _ _ (by simp [h]), List.filter_append, List.map_append]
  congr 1
  split
  · next halias => simp [halias]
  · next halias => simp [halias]

theorem settledName_concat (held : String) (events : List Event) (last : Event) :
    settledName held (events ++ [last]) = last.rename (settledName held events) := by
  unfold rename
  cases hname : last.isRoomState roomNameType with
  | true => exact settledName_concat_name hname held events
  | false =>
      unfold settledName
      rw [lastGiven_concat hname, aliasesSince_concat hname]
      by_cases hgiven : lastGiven held events = ""
      · simp only [hgiven, ↓reduceIte, Bool.false_eq_true, Bool.and_eq_true, String.isEmpty_iff]
        cases last.isRoomState canonicalAliasType with
        | true => simp [firstNonempty_concat]
        | false => simp
      -- A name that is not empty keeps every alias out.
      · simp [hgiven]

/-- A run of events leaves a room with the name that settles. -/
theorem renameAll_eq_settledName (events : List Event) (held : String) :
    renameAll events held = settledName held events := by
  induction events using List.reverseRecOn with
  | nil =>
      by_cases h : held = ""
      · subst h
        rfl
      · exact (if_neg h).symm
  | append_singleton before last ih => rw [renameAll_concat, settledName_concat, ih]

end Event

namespace RoomSummary

theorem applyName_eq (summary : RoomSummary) (event : Event) :
    summary.applyName event = { summary with name := event.rename summary.name } := by
  unfold applyName Event.rename
  split
  · rfl
  · split <;> rfl

/-- The summary with the name that it comes to by some rows of state. -/
def named (summary : RoomSummary) (rows : List StoredEvent) : RoomSummary :=
  { summary with name := Event.renameAll (rows.map .ofStored) summary.name }

theorem named_append (summary : RoomSummary) (rows more : List StoredEvent) :
    summary.named (rows ++ more) = (summary.named rows).named more := by
  unfold named Event.renameAll
  rw [List.map_append, List.foldl_append]

theorem foldl_applyName (rows : List StoredEvent) (summary : RoomSummary) :
    rows.foldl (fun s row => s.applyName (.ofStored row)) summary = summary.named rows := by
  induction rows generalizing summary with
  | nil => rfl
  | cons row rest ih =>
      rw [List.foldl_cons, ih, applyName_eq]
      rfl

theorem apply_eq (summary : RoomSummary) (event : Event) :
    summary.apply event = ⟨event.rename summary.name, event.timestamp, event.json⟩ := by
  unfold apply
  rw [applyName_eq]

/-- Events leave a room with the name they come to and the last of them. -/
theorem learn_concat (known : Option RoomSummary) (events : List Event) (last : Event) :
    learn known (events ++ [last]) =
      some ⟨Event.renameAll (events ++ [last]) (known.getD {}).name, last.timestamp,
        last.json⟩ := by
  induction events generalizing known with
  | nil =>
      change some ((known.getD {}).apply last) = _
      rw [apply_eq]
      rfl
  | cons event rest ih =>
      have hname : ((known.getD {}).apply event).name = event.rename (known.getD {}).name := by
        rw [apply_eq]
      change learn (some ((known.getD {}).apply event)) (rest ++ [last]) = _
      rw [ih, Option.getD_some, hname]
      rfl

end RoomSummary

end SlidingSync
