import SlidingSync.Json.Basic
import Mathlib.Data.List.Nodup
import Mathlib.Data.List.Perm.Basic

/-! # Documents and the values they denote

A document that is written lists the members of an object as their writer chose; as a value it has
them in name order. Where names are not repeated the value of an object has the members of the
document, each as a value, in another order. A canonical document is its own value, so a payload is
read from either.
-/

namespace SlidingSync

theorem SortedMap.insertEntry_perm {κ : Type} {α : Type} [Ord κ] [Std.LawfulEqOrd κ] {key : κ}
    {value : α} {entries : List (κ × α)} (h : key ∉ entries.map (·.1)) :
    (insertEntry key value entries).Perm ((key, value) :: entries) := by
  induction entries with
  | nil => exact List.Perm.refl _
  | cons entry rest ih =>
      rw [List.map_cons, List.mem_cons, not_or] at h
      unfold insertEntry
      split
      · exact List.Perm.refl _
      · next heq => exact absurd (Std.LawfulEqOrd.eq_of_compare heq) h.1
      · exact ((ih h.2).cons entry).trans (List.Perm.swap _ _ _)

theorem SortedMap.insertEntry_eq_concat {κ : Type} {α : Type} [Ord κ] [Std.OrientedOrd κ] {key : κ}
    {value : α} {entries : List (κ × α)} (h : ∀ e ∈ entries, compare e.1 key = .lt) :
    insertEntry key value entries = entries ++ [(key, value)] := by
  induction entries with
  | nil => rfl
  | cons entry rest ih =>
      have hgt : compare key entry.1 = .gt :=
        Std.OrientedCmp.gt_of_lt (h entry List.mem_cons_self)
      rw [insertEntry, hgt]
      dsimp only
      rw [ih fun e he => h e (List.mem_cons_of_mem _ he), List.cons_append]

namespace Json

/-! ## Flaws -/

theorem soundItems_iff {items : List Json} :
    soundItems items = true ↔ ∀ item ∈ items, item.isSound = true := by
  induction items with
  | nil => simp [soundItems]
  | cons item rest ih => simp [soundItems, ih]

theorem soundMembers_iff {members : List (String × Json)} :
    soundMembers members = true ↔ ∀ m ∈ members, m.2.isSound = true := by
  induction members with
  | nil => simp [soundMembers]
  | cons member rest ih => simp [soundMembers, ih]

/-! ## Two forms of a document -/

/-- As it was written, or as the value that it denotes. -/
inductive Form
  | written
  | value

def inForm (form : Form) (j : Json) : Json :=
  match form with
  | .written => j
  | .value => j.normalize

/-- Members with their values in the form. -/
def membersIn (form : Form) (members : List (String × Json)) : List (String × Json) :=
  members.map fun m => (m.1, m.2.inForm form)

theorem normalizeItems_eq (items : List Json) : normalizeItems items = items.map normalize := by
  induction items with
  | nil => rfl
  | cons item rest ih => rw [normalizeItems, ih, List.map_cons]

theorem inForm_array (form : Form) (items : List Json) :
    (Json.array items).inForm form = .array (items.map (inForm form)) := by
  cases form with
  | written => exact congrArg Json.array (List.map_id items).symm
  | value => exact congrArg Json.array (normalizeItems_eq items)

theorem normalizeMembers_perm {done members : List (String × Json)}
    (h : ((done ++ members).map (·.1)).Nodup) :
    (normalizeMembers done members).Perm (done ++ membersIn .value members) := by
  induction members generalizing done with
  | nil => simp [normalizeMembers, membersIn]
  | cons member rest ih =>
      obtain ⟨name, value⟩ := member
      have hmoved : ((done ++ (name, value) :: rest).map (·.1)).Perm
          (((name, value.normalize) :: (done ++ rest)).map (·.1)) :=
        (List.perm_middle.map _).trans (by simp)
      have hnew := List.nodup_cons.mp (hmoved.nodup_iff.mp h)
      have hnotin : name ∉ done.map (·.1) := fun hin =>
        hnew.1 (by
          rw [List.map_append]
          exact List.mem_append_left _ hin)
      have hinsert : (SortedMap.insertEntry name value.normalize done).Perm
          ((name, value.normalize) :: done) := SortedMap.insertEntry_perm hnotin
      have hnames : ((SortedMap.insertEntry name value.normalize done ++ rest).map (·.1)).Nodup :=
        ((hinsert.append_right rest).map _).nodup_iff.mpr (hmoved.nodup_iff.mp h)
      rw [normalizeMembers]
      exact (ih hnames).trans ((hinsert.append_right _).trans List.perm_middle.symm)

/-- In either form an object without repeated names has the members that were written. -/
theorem inForm_object (form : Form) {members : List (String × Json)}
    (h : (members.map (·.1)).Nodup) :
    ∃ members', (Json.object members).inForm form = .object members' ∧
      members'.Perm (membersIn form members) := by
  cases form with
  | written => exact ⟨members, rfl, by simp [membersIn, inForm]⟩
  | value => exact ⟨_, rfl, normalizeMembers_perm h⟩

theorem inForm_ne_null {j : Json} (h : j ≠ .null) (form : Form) : j.inForm form ≠ .null := by
  cases form with
  | written => exact h
  | value => cases j <;> simp_all [inForm, normalize]

/-! ## Canonical documents -/

mutual

theorem settled_of_isCanonical :
    (j : Json) → j.isCanonical = true → j.isSound = true ∧ j.normalize = j
  | .null, _ => ⟨rfl, rfl⟩
  | .bool _, _ => ⟨rfl, rfl⟩
  | .number _, _ => ⟨rfl, rfl⟩
  | .string _, _ => ⟨rfl, rfl⟩
  | .array items, h => by
      simp only [isCanonical] at h
      have hitems := settledItems_of_canonical items h
      exact ⟨hitems.1, congrArg Json.array hitems.2⟩
  | .object members, h => by
      simp only [isCanonical, Bool.and_eq_true, decide_eq_true_eq, List.pairwise_map] at h
      have hmembers := settledMembers_of_canonical members [] h.1 h.2
      exact ⟨hmembers.1, congrArg Json.object hmembers.2⟩
  | .flawed _ _, h => by simp [isCanonical] at h
termination_by structural j => j

theorem settledItems_of_canonical :
    (items : List Json) → canonicalItems items = true →
      soundItems items = true ∧ normalizeItems items = items
  | [], _ => ⟨rfl, rfl⟩
  | item :: rest, h => by
      simp only [canonicalItems, Bool.and_eq_true] at h
      have hitem := settled_of_isCanonical item h.1
      have hrest := settledItems_of_canonical rest h.2
      simp only [soundItems, normalizeItems, hitem.1, hitem.2, hrest.1, hrest.2, Bool.and_self,
        and_self]
termination_by structural items => items

/-- Members behind those already done are put at the end one by one. -/
theorem settledMembers_of_canonical :
    (members done : List (String × Json)) → SortedMap.Ascending (done ++ members) →
      canonicalMembers members = true →
        soundMembers members = true ∧ normalizeMembers done members = done ++ members
  | [], done, _, _ => ⟨rfl, (List.append_nil done).symm⟩
  | (name, value) :: rest, done, hasc, h => by
      simp only [canonicalMembers, Bool.and_eq_true] at h
      have hvalue := settled_of_isCanonical value h.1
      have hconcat : SortedMap.insertEntry name value done = done ++ [(name, value)] :=
        SortedMap.insertEntry_eq_concat fun e he =>
          (List.pairwise_append.mp hasc).2.2 e he (name, value) List.mem_cons_self
      have hrest := settledMembers_of_canonical rest (done ++ [(name, value)])
        (by rwa [List.append_assoc]) h.2
      simp only [soundMembers, normalizeMembers, hvalue.1, hvalue.2, hconcat, hrest.1, hrest.2,
        List.append_assoc, List.singleton_append, Bool.and_self, and_self]
termination_by structural members => members

end

end Json

namespace Payload

theorem isSound_json (p : Payload) : p.json.isSound = true :=
  (p.json.settled_of_isCanonical p.canonical).1

theorem inForm_json (p : Payload) (form : Json.Form) : p.json.inForm form = p.json := by
  cases form with
  | written => rfl
  | value => exact (p.json.settled_of_isCanonical p.canonical).2

theorem ofJson?_of_isSound {j : Json} (h : j.isSound = true) :
    ∃ p, ofJson? j = some p ∧ p.json = j.inForm .value := by
  unfold ofJson?
  rw [dif_pos h]
  exact ⟨_, rfl, rfl⟩

theorem ofJson?_json (p : Payload) : ofJson? p.json = some p := by
  obtain ⟨p', hread, hjson⟩ := ofJson?_of_isSound p.isSound_json
  rw [inForm_json] at hjson
  rw [hread]
  cases p
  cases p'
  simp_all

end Payload

end SlidingSync
