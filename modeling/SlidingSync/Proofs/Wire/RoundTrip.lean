import SlidingSync.Proofs.Request.WindowSets
import SlidingSync.Proofs.Wire.Records
import SlidingSync.Wire.ListOp
import SlidingSync.Wire.Stored

/-! # Round trips

Requests, their differences, list operations, rooms and events are read back as they were written.
Two of them are no plain records. A list has one object with its subscription and an operation has
one with its name: each part is read past the members of the other, as no name belongs to both.
-/

namespace SlidingSync

open Codec hiding members
open SlidingSync.Field

/-! ## Requests -/

theorem RoomId.codec_faithful : RoomId.codec.Faithful :=
  checked_faithful RoomId.parse_text

theorem RoomId.parseKey_text (room : RoomId) : RoomId.parseKey room.text = .ok room := by
  rw [parseKey, parse_text]
  rfl

theorem Ranges.codec_faithful : Ranges.codec.Faithful where
  sound r := Window.codec_faithful.list.sound r.windows
  decode_encode r form :=
    Ranges.decode_eq_ok_iff.mpr ⟨r.windows, Window.codec_faithful.list.decode_encode r.windows form,
      Ranges.ofWindows_of_perm (List.Perm.refl _)⟩

theorem StatePattern.codec_faithful : StatePattern.codec.Faithful :=
  string_faithful.pair fun _ => rfl

theorem RoomSubscription.layout : Layout RoomSubscription.record.fields {}
    [fun a (s : RoomSubscription) => { s with timelineLimit := a.timelineLimit },
      fun a s => { s with requiredState := a.requiredState }] where
  carries :=
    .cons (sparse_carries natural_faithful (by simp))
    (.cons (sparse_carries StatePattern.codec_faithful.list (by simp)) .nil)
  names := by decide
  apart := by simp [Apart]

theorem RoomSubscription.record_faithful : RoomSubscription.record.codec.Faithful :=
  Record.faithful RoomSubscription.layout fun _ => rfl

theorem RoomFilters.record_faithful : RoomFilters.record.codec.Faithful := by
  have hrooms := RoomId.codec_faithful.list
  have htexts := string_faithful.list
  have hbool : ∀ b, Codec.bool.encode b ≠ .null := by simp [Codec.bool]
  have hlist : ∀ {α} (c : Codec α) items, (Codec.list c).encode items ≠ .null := by
    simp [Codec.list]
  refine Record.faithful ⟨
    .cons (optional_carries bool_faithful hbool rfl)
    (.cons (optional_carries hrooms (hlist _) rfl)
    (.cons (optional_carries bool_faithful hbool rfl)
    (.cons (optional_carries bool_faithful hbool rfl)
    (.cons (optional_carries htexts (hlist _) rfl)
    (.cons (optional_carries htexts (hlist _) rfl)
    (.cons (optional_carries string_faithful (by simp [Codec.string]) rfl)
    (.cons (optional_carries htexts (hlist _) rfl)
    (.cons (optional_carries htexts (hlist _) rfl) .nil)))))))), ?_, ?_⟩ ?_
  · decide
  · simp [Apart]
  · exact fun _ => rfl

namespace RoomList

theorem layout : Layout (leadingFields ++ trailingFields) ({} : RoomList)
    [fun a l => { l with ranges := a.ranges }, fun a l => { l with sort := a.sort },
      fun a l => { l with filters := a.filters }, fun a l => { l with deleted := a.deleted }] where
  carries := by
    have hempty : ∀ r : Ranges, r.isEmpty = true → r = .empty := by
      rintro ⟨windows, _, _⟩ h
      obtain rfl := List.isEmpty_iff.mp h
      rfl
    exact
      .cons (sparse_carries Ranges.codec_faithful fun r h => by rw [hempty r h])
      (.cons (sparse_carries string_faithful.list (by simp))
      (.cons (optional_carries RoomFilters.record_faithful Record.encode_ne_null rfl)
      (.cons (sparse_carries bool_faithful (by simp)) .nil)))
  names := by decide
  apart := by simp [Apart]

/-- The members of a list are those of its subscription and its own. -/
theorem members_perm (l : RoomList) :
    (members leadingFields l ++ members RoomSubscription.record.fields l.subscription ++
        members trailingFields l).Perm
      (members RoomSubscription.record.fields l.subscription ++
        members (leadingFields ++ trailingFields) l) := by
  have hown : members (leadingFields ++ trailingFields) l =
      members leadingFields l ++ members trailingFields l := List.filterMap_append
  rw [hown, ← List.append_assoc]
  exact List.perm_append_comm.append_right _

theorem nodup_names (l : RoomList) :
    ((members leadingFields l ++ members RoomSubscription.record.fields l.subscription ++
      members trailingFields l).map (·.1)).Nodup := by
  rw [((members_perm l).map _).nodup_iff, List.map_append, List.nodup_append]
  refine ⟨nodup_names_members RoomSubscription.layout.names _,
    nodup_names_members layout.names _, ?_⟩
  have hapart : ∀ name ∈ RoomSubscription.record.fields.map (·.name),
      ∀ name' ∈ (leadingFields ++ trailingFields).map (·.name), name ≠ name' := by decide
  intro name hname name' hname'
  obtain ⟨m, hm, rfl⟩ := List.mem_map.mp hname
  obtain ⟨m', hm', rfl⟩ := List.mem_map.mp hname'
  exact hapart _ (name_of_mem_members hm) _ (name_of_mem_members hm')

/-- The list is read past the members of its subscription, and the subscription past the list's. -/
theorem ofMembers_eq {l : RoomList} {form : Json.Form} {found : List (String × Json)}
    (hfound : found.Perm (Json.membersIn form (members leadingFields l ++
      members RoomSubscription.record.fields l.subscription ++ members trailingFields l)))
    (hnames : (found.map (·.1)).Nodup) : ofMembers found = .ok l := by
  have hsplit := hfound.trans ((members_perm l).map _)
  rw [List.map_append] at hsplit
  have hown : scan (leadingFields ++ trailingFields) Json.isSound [] {} found =
      .ok { l with subscription := {} } :=
    layout.scan_eq hsplit hnames
      (RoomSubscription.layout.extras _ (by decide) l.subscription form)
  have hsubscription : scan RoomSubscription.record.fields Json.isSound [] {} found =
      .ok l.subscription :=
    RoomSubscription.layout.scan_eq (hsplit.trans List.perm_append_comm) hnames
      (layout.extras _ (by decide) l form)
  rw [ofMembers, hown, hsubscription]
  rfl

theorem codec_faithful : codec.Faithful := by
  refine .of_members (fun l => rfl) ?_ nodup_names fun _ _ _ => ofMembers_eq
  intro l m hm
  rcases List.mem_append.mp ((members_perm l).subset hm) with hm | hm
  · exact RoomSubscription.layout.sound hm
  · exact layout.sound hm

end RoomList

theorem Request.record_faithful : Request.record.codec.Faithful := by
  have hlists : (mapping .ok id RoomList.codec).Faithful :=
    RoomList.codec_faithful.mapping fun _ => rfl
  have hsubscriptions := RoomSubscription.record_faithful.mapping RoomId.parseKey_text
  refine Record.faithful ⟨
    .cons (always_carries hlists)
    (.cons (always_carries hsubscriptions)
    (.cons (sparse_carries RoomId.codec_faithful.list (by simp [Request.record])) .nil)), ?_, ?_⟩ ?_
  · decide
  · simp [Apart]
  · exact fun _ => rfl

theorem ListDelta.record_faithful : ListDelta.record.codec.Faithful := by
  have hlist := RoomList.codec_faithful.nullable (by simp [RoomList.codec])
  refine Record.faithful ⟨
    .cons (always_carries hlist)
    (.cons (always_carries hlist) .nil), ?_, ?_⟩ ?_
  · decide
  · simp [Apart]
  · exact fun _ => rfl

theorem RequestDelta.record_faithful : RequestDelta.record.codec.Faithful := by
  have hrooms := RoomId.codec_faithful.list
  refine Record.faithful ⟨
    .cons (sparse_carries hrooms (by simp [RequestDelta.record]))
    (.cons (sparse_carries hrooms (by simp [RequestDelta.record]))
    (.cons (always_carries (ListDelta.record_faithful.mapping fun _ => rfl)) .nil)), ?_, ?_⟩ ?_
  · decide
  · simp [Apart]
  · exact fun _ => rfl

/-! ## Rooms and events -/

theorem StoredEvent.record_faithful : StoredEvent.record.codec.Faithful := by
  refine Record.faithful ⟨
    .cons (always_carries RoomId.codec_faithful)
    (.cons (always_carries string_faithful)
    (.cons (optional_carries string_faithful (by simp [Codec.string]) rfl)
    (.cons (always_carries payload_faithful) .nil))), ?_, ?_⟩ ?_
  · decide
  · simp [Apart]
  · exact fun _ => rfl

theorem Room.record_faithful : Room.record.codec.Faithful := by
  refine Record.faithful ⟨
    .cons (always_carries RoomId.codec_faithful)
    (.cons (always_carries string_faithful)
    (.cons (always_carries natural_faithful)
    (.cons (always_carries payload_faithful) .nil))), ?_, ?_⟩ ?_
  · decide
  · simp [Apart]
  · exact fun _ => rfl

/-! ## List operations -/

namespace ListOp

theorem tag_layout : Layout [tagField] none [fun op _ => record? op.tag] where
  carries := by
    refine .cons ⟨?_, ?_, ?_⟩ .nil
    · rintro op j h
      obtain rfl := Option.some.inj h
      rfl
    · rintro op j h form draft
      obtain rfl := Option.some.inj h
      rw [Json.inForm_string]
      cases op <;> rfl
    · rintro op h
      contradiction
  names := by decide
  apart := List.pairwise_singleton _ _

theorem windowField_carries (blank : Draft) : windowField.Carries blank fun op draft =>
    op.parts.window.elim draft fun window => { draft with window := some window } :=
  present_carries Window.codec_faithful

theorem indexField_carries (blank : Draft) : indexField.Carries blank fun op draft =>
    op.parts.index.elim draft fun index => { draft with index := some index } :=
  present_carries natural_faithful

/-- The parts that are written of an operation are those that the record of its name asks for. -/
theorem record_of_tag (op : ListOp) : ∃ record writes, record? op.tag = some record ∧
    Layout record.fields record.blank writes ∧ tagName ∉ record.fields.map (·.name) ∧
    record.finish (writes.foldl (fun draft write => write op draft) record.blank) = some op ∧
    members [windowField, roomsField, indexField, roomField] op = members record.fields op := by
  cases op with
  | sync window rooms =>
      exact ⟨_, _, rfl, ⟨.cons (windowField_carries _)
        (.cons (present_carries RoomId.codec_faithful.list) .nil), by decide,
        List.pairwise_pair.mpr (apart_elim fun _ _ _ => rfl)⟩, by decide, rfl, rfl⟩
  | insert index room =>
      exact ⟨_, _, rfl, ⟨.cons (indexField_carries _)
        (.cons (present_carries RoomId.codec_faithful) .nil), by decide,
        List.pairwise_pair.mpr (apart_elim fun _ _ _ => rfl)⟩, by decide, rfl, rfl⟩
  | delete index =>
      exact ⟨_, _, rfl, ⟨.cons (indexField_carries _) .nil, by decide,
        List.pairwise_singleton _ _⟩, by decide, rfl, rfl⟩
  | invalidate window =>
      exact ⟨_, _, rfl, ⟨.cons (windowField_carries _) .nil, by decide,
        List.pairwise_singleton _ _⟩, by decide, rfl, rfl⟩

theorem nodup_names (op : ListOp) :
    ((members [tagField] op ++
      members [windowField, roomsField, indexField, roomField] op).map (·.1)).Nodup := by
  obtain ⟨record, writes, -, layout, htag, -, hparts⟩ := record_of_tag op
  rw [hparts]
  refine List.nodup_cons.mpr ⟨fun hin => ?_, nodup_names_members layout.names op⟩
  obtain ⟨m, hm, hname⟩ := List.mem_map.mp hin
  have htagged : m.1 = tagName := hname
  exact htag (htagged ▸ name_of_mem_members hm)

/-- The name is read past the parts, and the parts past the name. -/
theorem ofMembers_eq {op : ListOp} {form : Json.Form} {found : List (String × Json)}
    (hfound : found.Perm (Json.membersIn form (members [tagField] op ++
      members [windowField, roomsField, indexField, roomField] op)))
    (hnames : (found.map (·.1)).Nodup) : ofMembers found = .ok op := by
  obtain ⟨record, writes, hrecord, layout, htag, hfinish, hparts⟩ := record_of_tag op
  rw [hparts, Json.membersIn, List.map_append] at hfound
  have hname : scan [tagField] Json.isSound [] none found = .ok (some record) := by
    rw [← hrecord]
    refine tag_layout.scan_eq (hfound.trans List.perm_append_comm) hnames
      (layout.extras _ ?_ op form)
    rintro name hname htagged
    obtain rfl := List.mem_singleton.mp htagged
    exact htag hname
  have hwhole : ∀ m ∈ Json.membersIn form (members [tagField] op),
      m.1 ∉ record.fields.map (·.name) ∧ m.2.isWhole = true := by
    intro m hm
    obtain rfl : m = (tagName, (Json.string op.tag).inForm form) := List.mem_singleton.mp hm
    rw [Json.inForm_string]
    exact ⟨htag, rfl⟩
  rw [ofMembers, hname]
  exact Record.ofMembers_eq layout hfinish hfound hnames hwhole

theorem codec_faithful : codec.Faithful := by
  refine .of_members (fun op => rfl) ?_ nodup_names fun _ _ _ => ofMembers_eq
  intro op m hm
  obtain ⟨record, writes, -, layout, -, -, hparts⟩ := record_of_tag op
  rw [hparts] at hm
  rcases List.mem_append.mp hm with hm | hm
  · exact tag_layout.sound hm
  · exact layout.sound hm

end ListOp

/-! ## All types -/

/--
Every value is read back from what is written of it: from the document itself, and
from the value that the document denotes.
-/
def Codec.RoundTrips {α : Type} (c : Codec α) : Prop :=
  ∀ a, c.decode (c.encode a) = .ok a ∧
    ∃ value, Payload.ofJson? (c.encode a) = some value ∧ c.decode value.json = .ok a

theorem Codec.Faithful.roundTrips {α : Type} {c : Codec α} (h : c.Faithful) : c.RoundTrips := by
  intro a
  obtain ⟨value, hvalue, hjson⟩ := Payload.ofJson?_of_isSound (h.sound a)
  refine ⟨h.decode_written a, value, hvalue, ?_⟩
  rw [hjson]
  exact h.decode_encode a .value

/-- Nothing is lost or changed on the wire. -/
theorem every_type_round_trips :
    RoomSubscription.record.codec.RoundTrips ∧ Ranges.codec.RoundTrips ∧
    RoomFilters.record.codec.RoundTrips ∧ RoomList.codec.RoundTrips ∧
    Request.record.codec.RoundTrips ∧ ListOp.codec.RoundTrips ∧
    ListDelta.record.codec.RoundTrips ∧ RequestDelta.record.codec.RoundTrips ∧
    StoredEvent.record.codec.RoundTrips ∧ Room.record.codec.RoundTrips :=
  ⟨RoomSubscription.record_faithful.roundTrips, Ranges.codec_faithful.roundTrips,
    RoomFilters.record_faithful.roundTrips, RoomList.codec_faithful.roundTrips,
    Request.record_faithful.roundTrips, ListOp.codec_faithful.roundTrips,
    ListDelta.record_faithful.roundTrips, RequestDelta.record_faithful.roundTrips,
    StoredEvent.record_faithful.roundTrips, Room.record_faithful.roundTrips⟩

end SlidingSync
