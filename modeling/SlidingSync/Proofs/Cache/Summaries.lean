import SlidingSync.Proofs.Cache.Snapshots

/-! # Summaries of rooms

What a live cache knows of a room after some batches can be told without running them: the room has
the last of its events, and the name that settles among those of them that can name it. Events of
other types, with another state key or none, and of other rooms have no part in the name.
-/

namespace SlidingSync

theorem RoomSummary.name_learn (known : Option RoomSummary) (events : List Event) :
    ((learn known events).getD {}).name = Event.renameAll events (known.getD {}).name := by
  induction events using List.reverseRecOn with
  | nil => rfl
  | append_singleton before last _ =>
      rw [learn_concat]
      rfl

/-- Raw events that cannot name a room can be left out. -/
theorem Event.renameAll_namesRoom (room : RoomId) (jsons : List Payload) (name : String) :
    renameAll ((jsons.filter fun json => json.NamesRoom).map fun json => parse room json 0) name =
      renameAll (jsons.map fun json => parse room json 0) name := by
  have hkept : (jsons.map fun json => parse room json 0).filter (fun event => event.Names) =
      (jsons.filter fun json => json.NamesRoom).map fun json => parse room json 0 := by
    rw [List.filter_map]
    congr 1
    exact List.filter_congr fun json _ => decide_eq_decide.mpr names_parse_iff
  rw [← hkept]
  exact renameAll_filter_of_names (fun event h => decide_eq_true h) _ name

namespace Cache

variable {α : Type} [Listener α] {c : Cache α}

theorem nameOf_ingestAll (live : c.phase = .live) (batches : List EventBatch) (id : RoomId) :
    (c.ingestAll batches).nameOf id =
      Event.renameAll ((EventBatch.eventsOf batches id).map fun json => Event.parse id json 0)
        (c.nameOf id) := by
  unfold nameOf
  rw [ingestAll_get? live, RoomSummary.name_learn]

/--
A live cache knows every room of which an event came in some batches, by the last such
event and by the name that settles. Batches with the same events that can name the room
leave it with the same name, whatever else is in them.
-/
theorem summary_settles (live : c.phase = .live) (id : RoomId) :
    (∀ batches : List EventBatch, EventBatch.eventsOf batches id ≠ [] →
        ∃ last, (EventBatch.eventsOf batches id).getLast? = some last ∧
          (c.ingestAll batches).rooms.get? id = some {
            name := Event.settledName (c.nameOf id)
              ((EventBatch.eventsOf batches id).map fun json => Event.parse id json 0)
            lastTimestamp := Event.timestampOf last
            lastEvent := last }) ∧
      ∀ batches batches' : List EventBatch,
        ((EventBatch.eventsOf batches id).filter fun json => json.NamesRoom) =
            ((EventBatch.eventsOf batches' id).filter fun json => json.NamesRoom) →
          (c.ingestAll batches).nameOf id = (c.ingestAll batches').nameOf id := by
  constructor
  · intro batches hsome
    obtain ⟨before, last, hevents⟩ :=
      (List.eq_nil_or_concat (EventBatch.eventsOf batches id)).resolve_left hsome
    rw [List.concat_eq_append] at hevents
    refine ⟨last, by simp [hevents], ?_⟩
    rw [ingestAll_get? live, hevents, List.map_append, List.map_singleton,
      RoomSummary.learn_concat, Event.renameAll_eq_settledName]
    rfl
  · intro batches batches' same
    rw [nameOf_ingestAll live, nameOf_ingestAll live, ← Event.renameAll_namesRoom, same,
      Event.renameAll_namesRoom]

def aliasing (text : String) : Payload :=
  ⟨.object [("content", .object [("alias", .string text)]), ("state_key", .string ""),
    ("type", .string canonicalAliasType)], by
      have hnames : ["content", "state_key", "type"].Pairwise fun a b => compare a b = .lt := by
        decide +kernel
      simpa [Json.isCanonical, Json.canonicalMembers] using hnames⟩

/-- A raw name event whose name is no text. -/
def untitled : Payload :=
  ⟨.object [("content", .object [("name", .number (.integer 7))]), ("state_key", .string ""),
    ("type", .string roomNameType)], by decide +kernel⟩

theorem first_alias_since_empty_name :
    let batches : List EventBatch :=
      [⟨porch, 1, [aliasing "#front:s", title]⟩, ⟨pantry, 2, [title]⟩,
        ⟨porch, 3, [untitled, aliasing "", aliasing "#back:s", aliasing "#side:s", .null]⟩]
    oneListener.phase = .live ∧ EventBatch.eventsOf batches porch ≠ [] ∧
      (oneListener.ingestAll batches).rooms.get? porch = some { name := "#back:s" } := by
  intro batches
  have hlive : oneListener.phase = .live := rfl
  have hevents : EventBatch.eventsOf batches porch =
      [aliasing "#front:s", title, untitled, aliasing "", aliasing "#back:s",
        aliasing "#side:s", .null] := by
    have hother : pantry ≠ porch := by decide +kernel
    simp [batches, EventBatch.eventsOf, hother]
  have hsome : EventBatch.eventsOf batches porch ≠ [] := by simp [hevents]
  obtain ⟨last, hlast, hsummary⟩ := (summary_settles hlive porch).1 batches hsome
  rw [hevents] at hlast hsummary
  obtain rfl : Payload.null = last := by simpa using hlast
  have hname : Event.settledName (oneListener.nameOf porch)
      ([aliasing "#front:s", title, untitled, aliasing "", aliasing "#back:s", aliasing "#side:s",
        .null].map fun json => Event.parse porch json 0) = "#back:s" := by
    decide +kernel
  rw [hname] at hsummary
  exact ⟨hlive, hsome, hsummary⟩

end Cache

end SlidingSync
