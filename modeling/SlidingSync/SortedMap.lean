/-!
# Finite maps in key order

A map is its list of entries in strictly ascending key order, so two maps with the same look-ups
are equal (`SortedMap.ext_get?`), and a walk over the entries meets the keys in order. `get?_insert`
and `get?_erase` say what the updates do to a look-up; `mem_entries_iff` ties look-ups to the entry
list.
-/

namespace SlidingSync

universe u v w

variable {κ : Type u} {α : Type v} {β : Type w}

namespace SortedMap

def Ascending [Ord κ] (entries : List (κ × α)) : Prop :=
  entries.Pairwise fun a b => compare a.1 b.1 = .lt

/-- The entry list with `value` under `key`, in place of what stood there. -/
def insertEntry [Ord κ] (key : κ) (value : α) : List (κ × α) → List (κ × α)
  | [] => [(key, value)]
  | entry :: rest =>
      match compare key entry.1 with
      | .lt => (key, value) :: entry :: rest
      | .eq => (key, value) :: rest
      | .gt => entry :: insertEntry key value rest

def findEntry [Ord κ] (key : κ) : List (κ × α) → Option α
  | [] => none
  | entry :: rest =>
      match compare key entry.1 with
      | .eq => some entry.2
      | _ => findEntry key rest

variable [Ord κ]

theorem mem_insertEntry {key : κ} {value : α} {entries : List (κ × α)} {e : κ × α}
    (h : e ∈ insertEntry key value entries) : e = (key, value) ∨ e ∈ entries := by
  induction entries with
  | nil => simpa [insertEntry] using h
  | cons entry rest ih =>
      unfold insertEntry at h
      split at h
      · simpa using h
      · rcases List.mem_cons.mp h with rfl | h
        · exact .inl rfl
        · exact .inr (List.mem_cons_of_mem _ h)
      · rcases List.mem_cons.mp h with rfl | h
        · exact .inr List.mem_cons_self
        · exact (ih h).imp_right (List.mem_cons_of_mem _)

theorem ascending_insertEntry [Std.TransOrd κ] [Std.LawfulEqOrd κ] {key : κ} {value : α}
    {entries : List (κ × α)} (h : Ascending entries) :
    Ascending (insertEntry key value entries) := by
  induction entries with
  | nil => simp [insertEntry, Ascending]
  | cons entry rest ih =>
      have hhead := List.pairwise_cons.mp h
      unfold insertEntry
      split
      · next hlt =>
        refine List.pairwise_cons.mpr ⟨fun e he => ?_, h⟩
        rcases List.mem_cons.mp he with rfl | he
        · exact hlt
        · exact Std.TransCmp.lt_trans hlt (hhead.1 e he)
      · next heq =>
        have hkey : key = entry.1 := Std.LawfulEqOrd.eq_of_compare heq
        exact List.pairwise_cons.mpr ⟨fun e he => hkey ▸ hhead.1 e he, hhead.2⟩
      · next hgt =>
        refine List.pairwise_cons.mpr ⟨fun e he => ?_, ih hhead.2⟩
        rcases mem_insertEntry he with rfl | he
        · exact Std.OrientedCmp.lt_of_gt hgt
        · exact hhead.1 e he

theorem findEntry_insertEntry [Std.TransOrd κ] [Std.LawfulEqOrd κ] {key k : κ}
    {value : α} {entries : List (κ × α)} :
    findEntry k (insertEntry key value entries) =
      if compare k key = .eq then some value else findEntry k entries := by
  induction entries with
  | nil => simp only [insertEntry, findEntry]; split <;> simp_all
  | cons entry rest ih =>
      unfold insertEntry
      split
      · simp only [findEntry]; split <;> simp_all
      · next heq =>
        have hkey : key = entry.1 := Std.LawfulEqOrd.eq_of_compare heq
        simp only [findEntry, ← hkey]
        split <;> simp_all
      · next hgt =>
        simp only [findEntry, ih]
        split
        · next hk =>
          have hkey : k = entry.1 := Std.LawfulEqOrd.eq_of_compare hk
          have : compare k key = .lt := hkey ▸ Std.OrientedCmp.lt_of_gt hgt
          simp [this]
        · rfl

theorem findEntry_eq_none {k : κ} {entries : List (κ × α)}
    (h : ∀ e ∈ entries, compare k e.1 ≠ .eq) : findEntry k entries = none := by
  induction entries with
  | nil => rfl
  | cons entry rest ih =>
      unfold findEntry
      split
      · next heq => exact absurd heq (h entry List.mem_cons_self)
      · exact ih fun e he => h e (List.mem_cons_of_mem _ he)

theorem findEntry_eq_some_iff [Std.LawfulEqOrd κ] {k : κ} {value : α} {entries : List (κ × α)}
    (h : Ascending entries) : findEntry k entries = some value ↔ (k, value) ∈ entries := by
  induction entries with
  | nil => simp [findEntry]
  | cons entry rest ih =>
      have hhead := List.pairwise_cons.mp h
      unfold findEntry
      split
      · next heq =>
        have hkey : k = entry.1 := Std.LawfulEqOrd.eq_of_compare heq
        subst hkey
        simp only [Option.some.injEq, List.mem_cons]
        constructor
        · rintro rfl; exact .inl rfl
        · rintro (hmem | hmem)
          · rw [← hmem]
          · have := hhead.1 _ hmem
            simp at this
      · next hne =>
        rw [ih hhead.2, List.mem_cons]
        constructor
        · exact .inr
        · rintro (rfl | hmem)
          · exact absurd (Std.ReflCmp.compare_self) hne
          · exact hmem

theorem findEntry_filter [Std.LawfulEqOrd κ] {key k : κ} {entries : List (κ × α)} :
    findEntry k (entries.filter fun e => compare key e.1 != .eq) =
      if compare k key = .eq then none else findEntry k entries := by
  induction entries with
  | nil => simp [findEntry]
  | cons entry rest ih =>
      rw [List.filter_cons]
      by_cases hentry : compare key entry.1 = .eq
      · have hkey : key = entry.1 := Std.LawfulEqOrd.eq_of_compare hentry
        simp only [findEntry, ← hkey]
        split <;> split <;> simp_all
      · simp only [bne_iff_ne, ne_eq, hentry, not_false_eq_true, ↓reduceIte, findEntry, ih]
        split
        · next hk =>
          have hkey : k = entry.1 := Std.LawfulEqOrd.eq_of_compare hk
          have : compare k key ≠ .eq := fun h =>
            hentry (by rw [← hkey, Std.LawfulEqOrd.eq_of_compare h]; exact Std.ReflCmp.compare_self)
          simp [this]
        · rfl

/-- Ascending entry lists with the same look-ups are equal. -/
theorem eq_of_findEntry_eq [Std.TransOrd κ] [Std.LawfulEqOrd κ] {l₁ l₂ : List (κ × α)}
    (h₁ : Ascending l₁) (h₂ : Ascending l₂) (h : ∀ k, findEntry k l₁ = findEntry k l₂) :
    l₁ = l₂ := by
  induction l₁ generalizing l₂ with
  | nil =>
      cases l₂ with
      | nil => rfl
      | cons e rest =>
          have : findEntry e.1 (e :: rest) = some e.2 :=
            (findEntry_eq_some_iff h₂).mpr List.mem_cons_self
          rw [← h] at this
          simp [findEntry] at this
  | cons a rest₁ ih =>
      have ha : findEntry a.1 (a :: rest₁) = some a.2 :=
        (findEntry_eq_some_iff h₁).mpr List.mem_cons_self
      cases l₂ with
      | nil => rw [h] at ha; simp [findEntry] at ha
      | cons b rest₂ =>
          have hb : findEntry b.1 (b :: rest₂) = some b.2 :=
            (findEntry_eq_some_iff h₂).mpr List.mem_cons_self
          have hmem₂ := (findEntry_eq_some_iff h₂).mp (h a.1 ▸ ha)
          have hmem₁ := (findEntry_eq_some_iff h₁).mp ((h b.1).symm ▸ hb)
          have hp₁ := List.pairwise_cons.mp h₁
          have hp₂ := List.pairwise_cons.mp h₂
          have hab : a = b := by
            rcases List.mem_cons.mp hmem₂ with heq | hin
            · exact heq
            · rcases List.mem_cons.mp hmem₁ with heq | hin'
              · exact heq.symm
              · have hlt := hp₁.1 _ hin'
                have hgt := hp₂.1 _ hin
                have := Std.TransCmp.lt_trans hlt hgt
                simp at this
          subst hab
          congr 1
          refine ih hp₁.2 hp₂.2 fun k => ?_
          have hk := h k
          simp only [findEntry] at hk
          split at hk
          · next heq =>
            have hkey : k = a.1 := Std.LawfulEqOrd.eq_of_compare heq
            subst hkey
            rw [findEntry_eq_none fun e he => by simp [hp₁.1 e he],
              findEntry_eq_none fun e he => by simp [hp₂.1 e he]]
          · exact hk

end SortedMap

/-- A finite map whose entries stand in strictly ascending key order. -/
structure SortedMap (κ : Type u) (α : Type v) [Ord κ] where
  entries : List (κ × α)
  ascending : SortedMap.Ascending entries

namespace SortedMap

variable [Ord κ]

def empty : SortedMap κ α :=
  ⟨[], List.Pairwise.nil⟩

instance : EmptyCollection (SortedMap κ α) :=
  ⟨empty⟩

instance : Inhabited (SortedMap κ α) :=
  ⟨empty⟩

instance [DecidableEq κ] [DecidableEq α] : DecidableEq (SortedMap κ α) := fun a b =>
  if h : a.entries = b.entries then .isTrue (by cases a; cases b; simp_all)
  else .isFalse fun heq => h (heq ▸ rfl)

def get? (m : SortedMap κ α) (key : κ) : Option α :=
  findEntry key m.entries

def contains (m : SortedMap κ α) (key : κ) : Bool :=
  (m.get? key).isSome

def size (m : SortedMap κ α) : Nat :=
  m.entries.length

def isEmpty (m : SortedMap κ α) : Bool :=
  m.entries.isEmpty

def keys (m : SortedMap κ α) : List κ :=
  m.entries.map (·.1)

def map (f : κ → α → β) (m : SortedMap κ α) : SortedMap κ β :=
  ⟨m.entries.map fun e => (e.1, f e.1 e.2), by
    have h := m.ascending
    unfold Ascending at *
    rwa [List.pairwise_map]⟩

def erase (m : SortedMap κ α) (key : κ) : SortedMap κ α :=
  ⟨m.entries.filter fun e => compare key e.1 != .eq, m.ascending.filter _⟩

@[simp] theorem get?_empty (k : κ) : (empty : SortedMap κ α).get? k = none :=
  rfl

theorem contains_iff {m : SortedMap κ α} {k : κ} :
    m.contains k = true ↔ ∃ v, m.get? k = some v := by
  simp [contains, Option.isSome_iff_exists]

variable [Std.LawfulEqOrd κ]

theorem get?_map (f : κ → α → β) (m : SortedMap κ α) (k : κ) :
    (m.map f).get? k = (m.get? k).map (f k) := by
  simp only [get?, map]
  induction m.entries with
  | nil => rfl
  | cons e rest ih =>
      simp only [List.map_cons, findEntry, ih]
      split
      · next heq => rw [Std.LawfulEqOrd.eq_of_compare heq]; rfl
      · rfl

theorem get?_erase [DecidableEq κ] (m : SortedMap κ α) (key k : κ) :
    (m.erase key).get? k = if k = key then none else m.get? k := by
  simp only [get?, erase, findEntry_filter, Std.compare_eq_iff_eq]

theorem mem_entries_iff {m : SortedMap κ α} {k : κ} {v : α} :
    (k, v) ∈ m.entries ↔ m.get? k = some v :=
  (findEntry_eq_some_iff m.ascending).symm

theorem isEmpty_eq_false_iff {m : SortedMap κ α} :
    m.isEmpty = false ↔ ∃ k v, m.get? k = some v := by
  unfold isEmpty
  rw [List.isEmpty_eq_false_iff_exists_mem]
  simp only [Prod.exists, mem_entries_iff]

theorem mem_keys_iff {m : SortedMap κ α} {k : κ} : k ∈ m.keys ↔ m.contains k = true := by
  rw [contains_iff]
  simp only [keys, List.mem_map, Prod.exists, mem_entries_iff]
  constructor
  · rintro ⟨key, v, h, rfl⟩
    exact ⟨v, h⟩
  · rintro ⟨v, h⟩
    exact ⟨k, v, h, rfl⟩

omit [Std.LawfulEqOrd κ] in
theorem pairwise_keys (m : SortedMap κ α) : m.keys.Pairwise fun a b => compare a b = .lt :=
  List.pairwise_map.mpr m.ascending

theorem findEntry_cons_self {k : κ} {v : α} {rest : List (κ × α)} :
    findEntry k ((k, v) :: rest) = some v := by
  simp [findEntry]

theorem findEntry_cons_of_ne {k : κ} {entry : κ × α} {rest : List (κ × α)} (h : k ≠ entry.1) :
    findEntry k (entry :: rest) = findEntry k rest := by
  have hne : compare k entry.1 ≠ .eq := fun heq => h (Std.LawfulEqOrd.eq_of_compare heq)
  rw [findEntry]
  split
  · contradiction
  · rfl

/--
A walk over a map meets each key at most once, so what it does to the part of the
state that belongs to `k` is what its one step at `k` does.
-/
theorem view_foldl {σ β : Type} {step : σ → κ × α → σ} {k : κ} (view : σ → β) (act : β → α → β)
    (hit : ∀ s v, view (step s (k, v)) = act (view s) v)
    (miss : ∀ s e, e.1 ≠ k → view (step s e) = view s) (m : SortedMap κ α) (s : σ) :
    view (m.entries.foldl step s) = (m.get? k).elim (view s) (act (view s)) := by
  obtain ⟨entries, h⟩ := m
  unfold get?
  dsimp only
  induction entries generalizing s with
  | nil => rfl
  | cons entry rest ih =>
      have hhead := List.pairwise_cons.mp h
      rw [List.foldl_cons, ih _ hhead.2]
      obtain ⟨key, v⟩ := entry
      by_cases hk : k = key
      · subst hk
        have hrest : findEntry k rest = none :=
          findEntry_eq_none fun e he => by simp [hhead.1 e he]
        rw [hrest, findEntry_cons_self]
        exact hit s v
      · rw [findEntry_cons_of_ne hk, miss s (key, v) (Ne.symm hk)]

variable [Std.TransOrd κ]

def insert (m : SortedMap κ α) (key : κ) (value : α) : SortedMap κ α :=
  ⟨insertEntry key value m.entries, ascending_insertEntry m.ascending⟩

/-- The map of the listed entries; of two entries with one key the later one stays. -/
def ofList (entries : List (κ × α)) : SortedMap κ α :=
  entries.foldl (fun m e => m.insert e.1 e.2) empty

theorem get?_insert [DecidableEq κ] (m : SortedMap κ α) (key k : κ) (value : α) :
    (m.insert key value).get? k = if k = key then some value else m.get? k := by
  simp only [get?, insert, findEntry_insertEntry, Std.compare_eq_iff_eq]

@[simp] theorem get?_insert_self (m : SortedMap κ α) (key : κ) (value : α) :
    (m.insert key value).get? key = some value := by
  simp [get?, insert, findEntry_insertEntry]

theorem get?_insert_of_ne {m : SortedMap κ α} {key k : κ} {value : α} (h : k ≠ key) :
    (m.insert key value).get? k = m.get? k := by
  simp [get?, insert, findEntry_insertEntry, h]

theorem contains_insert [DecidableEq κ] {m : SortedMap κ α} {key k : κ} {value : α} :
    (m.insert key value).contains k = true ↔ k = key ∨ m.contains k = true := by
  unfold contains
  rw [get?_insert]
  split <;> simp [*]

theorem ext_get? {m₁ m₂ : SortedMap κ α} (h : ∀ k, m₁.get? k = m₂.get? k) : m₁ = m₂ := by
  cases m₁; cases m₂
  simp only [SortedMap.mk.injEq]
  exact eq_of_findEntry_eq ‹_› ‹_› h

theorem keys_eq_of_contains {m₁ : SortedMap κ α} {m₂ : SortedMap κ β}
    (h : ∀ k, m₁.contains k = true ↔ m₂.contains k = true) : m₁.keys = m₂.keys := by
  have hunits : (m₁.map fun _ _ => ()) = m₂.map fun _ _ => () := by
    apply ext_get?
    intro k
    have hk := h k
    rw [get?_map, get?_map]
    unfold contains at hk
    cases h₁ : m₁.get? k <;> cases h₂ : m₂.get? k <;> simp_all
  simpa [keys, map, Function.comp_def] using congrArg keys hunits

end SortedMap

end SlidingSync
