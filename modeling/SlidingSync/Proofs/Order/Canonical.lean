import SlidingSync.Proofs.Order.Sorting

/-! # Sorting is canonical

The sort keys of a list and the room ID together make a strict order of rooms with different IDs,
and sorting puts rooms in that order. Only one arrangement of the rooms ascends, so neither how they
were handed over nor what they were sorted by before can be seen in it, and filtering commutes with
sorting. An identifier that is not known fails the sort before any room is moved.
-/

namespace SlidingSync

namespace SortKey

/-- Whether the key by itself puts the first room before the second. -/
def Before : SortKey → Room → Room → Prop
  | .recency, a, b => b.summary.lastTimestamp < a.summary.lastTimestamp
  | .name, a, b => Text.lowercase a.summary.name < Text.lowercase b.summary.name
  | .highlightCount, _, _ => False
  | .notificationCount, _, _ => False

/-- Whether the key does not tell the rooms apart. -/
def Ties (key : SortKey) (a b : Room) : Prop :=
  ¬ key.Before a b ∧ ¬ key.Before b a

theorem compareRooms_eq_lt_iff {key : SortKey} {a b : Room} :
    key.compareRooms a b = .lt ↔ key.Before a b := by
  cases key with
  | recency => exact Std.compare_eq_lt
  | name => exact compareOfLessAndEq_eq_lt
  | highlightCount => simp [compareRooms, Before]
  | notificationCount => simp [compareRooms, Before]

theorem compareRooms_eq_eq_iff {key : SortKey} {a b : Room} :
    key.compareRooms a b = .eq ↔ key.Ties a b := by
  have hswap : key.compareRooms b a = (key.compareRooms a b).swap := Std.OrientedCmp.eq_swap
  unfold Ties
  rw [← compareRooms_eq_lt_iff, ← compareRooms_eq_lt_iff, hswap]
  cases key.compareRooms a b <;> simp

/-! ## Identifiers -/

theorem ofIdentifier?_identifier (key : SortKey) : ofIdentifier? key.identifier = some key := by
  cases key <;> rfl

theorem ofIdentifier?_eq_none_iff {text : String} :
    ofIdentifier? text = none ↔ ∀ key : SortKey, key.identifier ≠ text := by
  unfold ofIdentifier?
  rw [List.find?_eq_none]
  constructor
  · intro h key
    have hkey : key ∈ [recency, highlightCount, notificationCount, name] := by cases key <;> simp
    simpa using h key hkey
  · intro h key _
    simpa using h key

theorem filterMap_identifier (keys : List SortKey) :
    (keys.map identifier).filterMap ofIdentifier? = keys := by
  rw [List.filterMap_map]
  have hread : ofIdentifier? ∘ identifier = some := funext ofIdentifier?_identifier
  rw [hread, List.filterMap_some]

end SortKey

theorem firstUnknownSort_known (keys : List SortKey) :
    firstUnknownSort (keys.map SortKey.identifier) = none := by
  unfold firstUnknownSort
  rw [List.find?_eq_none]
  intro text htext
  obtain ⟨key, -, rfl⟩ := List.mem_map.mp htext
  simp [SortKey.ofIdentifier?_identifier]

theorem firstUnknownSort_append (keys : List SortKey) {text : String}
    (unknown : ∀ key : SortKey, key.identifier ≠ text) (rest : List String) :
    firstUnknownSort (keys.map SortKey.identifier ++ text :: rest) = some text := by
  have hknown := firstUnknownSort_known keys
  have htext := SortKey.ofIdentifier?_eq_none_iff.mpr unknown
  unfold firstUnknownSort at hknown ⊢
  rw [List.find?_append, hknown]
  simp [htext]

/-- Identifiers, one of which is not known, up to the first such. -/
theorem exists_first_unknown {identifiers : List String}
    (h : ∃ text ∈ identifiers, ∀ key : SortKey, key.identifier ≠ text) :
    ∃ (keys : List SortKey) (text : String) (rest : List String),
      identifiers = keys.map SortKey.identifier ++ text :: rest ∧
        ∀ key : SortKey, key.identifier ≠ text := by
  induction identifiers with
  | nil => simp at h
  | cons first rest ih =>
      by_cases hfirst : ∃ key : SortKey, key.identifier = first
      · obtain ⟨key, rfl⟩ := hfirst
        have hrest : ∃ text ∈ rest, ∀ key : SortKey, key.identifier ≠ text := by
          obtain ⟨text, htext, hunknown⟩ := h
          rcases List.mem_cons.mp htext with rfl | hin
          · exact absurd rfl (hunknown key)
          · exact ⟨text, hin, hunknown⟩
        obtain ⟨keys, text, after, rfl, hunknown⟩ := ih hrest
        exact ⟨key :: keys, text, after, rfl, hunknown⟩
      · exact ⟨[], first, rest, rfl, not_exists.mp hfirst⟩

namespace Room

/-! ## The order of rooms -/

/-- Whether the first key that tells the rooms apart, else the ID, puts `a` before `b`. -/
def Precedes : List SortKey → Room → Room → Prop
  | [], a, b => a.id.text < b.id.text
  | key :: rest, a, b => key.Before a b ∨ key.Ties a b ∧ Precedes rest a b

theorem compareBy_eq_lt_iff {keys : List SortKey} {a b : Room} :
    compareBy keys a b = .lt ↔ Precedes keys a b := by
  induction keys with
  | nil => exact compareOfLessAndEq_eq_lt
  | cons key rest ih =>
      show (key.compareRooms a b).then (compareBy rest a b) = .lt ↔ _
      rw [Ordering.then_eq_lt, SortKey.compareRooms_eq_lt_iff, SortKey.compareRooms_eq_eq_iff, ih]
      rfl

instance (keys : List SortKey) (a b : Room) : Decidable (Precedes keys a b) :=
  decidable_of_iff (compareBy keys a b = .lt) compareBy_eq_lt_iff

theorem sorted_iff {keys : List SortKey} {rooms : List Room} :
    Sorted keys rooms ↔ rooms.Pairwise (Precedes keys) := by
  unfold Sorted
  simp only [compareBy_eq_lt_iff]

/-! ## Sorting in place -/

theorem sortInPlace_known (keys : List SortKey) (rooms : List Room) :
    sortInPlace (keys.map SortKey.identifier) rooms = ⟨.ok (), sortBy keys rooms⟩ := by
  unfold sortInPlace sortKeys
  rw [firstUnknownSort_known, SortKey.filterMap_identifier]

theorem sortInPlace_unknown (keys : List SortKey) {text : String}
    (unknown : ∀ key : SortKey, key.identifier ≠ text) (rest : List String) (rooms : List Room) :
    sortInPlace (keys.map SortKey.identifier ++ text :: rest) rooms =
      ⟨.error (.unknownSort text), rooms⟩ := by
  unfold sortInPlace sortKeys
  rw [firstUnknownSort_append keys unknown]

/-- Sorting moves rooms about and neither loses nor repeats any, whether it fails or not. -/
theorem sortInPlace_perm (identifiers : List String) (rooms : List Room) :
    (sortInPlace identifiers rooms).rooms.Perm rooms := by
  unfold sortInPlace
  split
  · exact List.mergeSort_perm rooms _
  · exact List.Perm.refl rooms

/--
Rooms with different IDs have one arrangement that ascends by the keys and then by
ID, and sorting by known identifiers yields it: for every order in which they are
handed over, after any other sort, and before or after a filter. The first
identifier that is not known is what a sort fails by, with every room in its place.
-/
theorem sort_is_canonical {rooms : List Room} (distinct : (rooms.map (·.id)).Nodup) :
    (∀ keys : List SortKey, ∃ order : List Room,
      let identifiers := keys.map SortKey.identifier
      sortInPlace identifiers rooms = ⟨.ok (), order⟩ ∧
        (∀ other : List Room,
          other.Perm rooms ∧ other.Pairwise (Precedes keys) ↔ other = order) ∧
        (∀ handed : List Room, handed.Perm rooms →
          sortInPlace identifiers handed = ⟨.ok (), order⟩) ∧
        (∀ earlier : List String,
          sortInPlace identifiers (sortInPlace earlier rooms).rooms = ⟨.ok (), order⟩) ∧
        ∀ filters : Option RoomFilters,
          sortInPlace identifiers (filter filters rooms) = ⟨.ok (), filter filters order⟩) ∧
      ∀ identifiers : List String,
        (∃ text ∈ identifiers, ∀ key : SortKey, key.identifier ≠ text) →
          ∃ (keys : List SortKey) (text : String) (rest : List String),
            identifiers = keys.map SortKey.identifier ++ text :: rest ∧
              (∀ key : SortKey, key.identifier ≠ text) ∧
                sortInPlace identifiers rooms = ⟨.error (.unknownSort text), rooms⟩ := by
  constructor
  · intro keys
    have hhanded : ∀ handed : List Room, handed.Perm rooms →
        sortInPlace (keys.map SortKey.identifier) handed = ⟨.ok (), sortBy keys rooms⟩ := by
      intro handed same
      rw [sortInPlace_known, ← sortBy_congr keys distinct same.symm]
    refine ⟨sortBy keys rooms, sortInPlace_known keys rooms, ?_, hhanded, ?_, ?_⟩
    · intro other
      have hsorted : Sorted keys (sortBy keys rooms) := sorted_sortBy keys distinct
      have hperm : (sortBy keys rooms).Perm rooms := List.mergeSort_perm rooms _
      rw [← sorted_iff]
      constructor
      · intro h
        exact h.2.unique hsorted (h.1.trans hperm.symm)
      · intro h
        rw [h]
        exact ⟨hperm, hsorted⟩
    · intro earlier
      exact hhanded _ (sortInPlace_perm earlier rooms)
    · intro filters
      rw [sortInPlace_known]
      cases filters with
      | none => rfl
      | some filters =>
          have hcomm := filter_sortBy keys filters.accepts distinct
          simp only [filter, hcomm]
  · intro identifiers h
    obtain ⟨keys, text, rest, rfl, hunknown⟩ := exists_first_unknown h
    exact ⟨keys, text, rest, rfl, hunknown, sortInPlace_unknown keys hunknown rest rooms⟩

/-- Three names that differ in case only, two of them with events at one time. -/
def cottages : List Room :=
  [⟨⟨"!a:s", by decide +kernel⟩, { name := "Loft", lastTimestamp := 1 }⟩,
    ⟨⟨"!c:s", by decide +kernel⟩, { name := "LOFT", lastTimestamp := 5 }⟩,
    ⟨⟨"!b:s", by decide +kernel⟩, { name := "loft", lastTimestamp := 5 }⟩,
    ⟨⟨"!d:s", by decide +kernel⟩, { name := "Attic", lastTimestamp := 3 }⟩]

theorem reversed_by_keys_kept_by_unknown :
    (cottages.map (·.id)).Nodup ∧
      sortInPlace ["by_highlight_count", "by_name", "by_recency"] cottages =
        ⟨.ok (), cottages.reverse⟩ ∧
      ∃ fault, sortInPlace ["by_name", "by_size", "by_age"] cottages =
        ⟨.error fault, cottages⟩ := by
  have distinct : (cottages.map (·.id)).Nodup := by decide +kernel
  have hcanonical := sort_is_canonical distinct
  have hascends : cottages.reverse.Pairwise (Precedes [.highlightCount, .name, .recency]) := by
    decide +kernel
  obtain ⟨order, hsort, hunique, -⟩ := hcanonical.1 [.highlightCount, .name, .recency]
  have horder : cottages.reverse = order :=
    (hunique cottages.reverse).mp ⟨List.reverse_perm cottages, hascends⟩
  have hunknown : ∀ key : SortKey, key.identifier ≠ "by_size" := by
    intro key
    cases key <;> decide
  obtain ⟨_, text, _, -, -, hfails⟩ :=
    hcanonical.2 ["by_name", "by_size", "by_age"] ⟨"by_size", by simp, hunknown⟩
  have hturned : sortInPlace ["by_highlight_count", "by_name", "by_recency"] cottages =
      ⟨.ok (), order⟩ := hsort
  rw [horder]
  exact ⟨distinct, hturned, _, hfails⟩

end Room

end SlidingSync
