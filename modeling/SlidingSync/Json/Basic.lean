import SlidingSync.Json.Binary64
import SlidingSync.SortedMap

/-!
# JSON values

A `Json` is a document as it stands in a text: members in the order they were written, names
repeated where they were repeated, and flawed places kept as such, so that whoever decodes it
meets its faults in reading order. `Json.normalize` gives the value a document denotes, with
members in name order and the last of two members of one name. A `Payload` is such a value: JSON
that is carried along as it came.
-/

namespace SlidingSync

/-- A JSON number. Integers keep all their digits. -/
inductive Json.Number
  | integer (value : Int)
  | real (value : Binary64)
  deriving DecidableEq, Repr

/--
What is wrong with a place of a document. An `unkept` place is well formed but
has no value: an unpaired surrogate, a number too large, nesting too deep. At
a `cut` the text stops being JSON.
-/
inductive Json.Flaw
  | unkept
  | cut
  deriving DecidableEq, Repr

/-- A JSON document. A flawed object still has the members before its flaw. -/
inductive Json
  | null
  | bool (value : Bool)
  | number (value : Json.Number)
  | string (value : String)
  | array (items : List Json)
  | object (members : List (String × Json))
  | flawed (flaw : Json.Flaw) (before : List (String × Json))
  deriving Repr, Inhabited

namespace Json

def ofNat (n : Nat) : Json :=
  .number (.integer n)

mutual

/-- Whether the text of the document is JSON to its end. -/
def isWhole : Json → Bool
  | .array items => wholeItems items
  | .object members => wholeMembers members
  | .flawed .unkept _ => true
  | .flawed .cut _ => false
  | _ => true
termination_by structural j => j

def wholeItems : List Json → Bool
  | [] => true
  | item :: rest => item.isWhole && wholeItems rest
termination_by structural items => items

def wholeMembers : List (String × Json) → Bool
  | [] => true
  | (_, value) :: rest => value.isWhole && wholeMembers rest
termination_by structural members => members

end

mutual

/-- Whether no place of the document is flawed. -/
def isSound : Json → Bool
  | .array items => soundItems items
  | .object members => soundMembers members
  | .flawed _ _ => false
  | _ => true
termination_by structural j => j

def soundItems : List Json → Bool
  | [] => true
  | item :: rest => item.isSound && soundItems rest
termination_by structural items => items

def soundMembers : List (String × Json) → Bool
  | [] => true
  | (_, value) :: rest => value.isSound && soundMembers rest
termination_by structural members => members

end

mutual

/-- Whether names ascend strictly in every object and no place is flawed. -/
def isCanonical : Json → Bool
  | .array items => canonicalItems items
  | .object members => decide ((members.map (·.1)).Pairwise fun a b => compare a b = .lt) &&
      canonicalMembers members
  | .flawed _ _ => false
  | _ => true
termination_by structural j => j

def canonicalItems : List Json → Bool
  | [] => true
  | item :: rest => item.isCanonical && canonicalItems rest
termination_by structural items => items

def canonicalMembers : List (String × Json) → Bool
  | [] => true
  | (_, value) :: rest => value.isCanonical && canonicalMembers rest
termination_by structural members => members

end

mutual

/-- The value that the document denotes: names in order, the last member of a name. -/
def normalize : Json → Json
  | .array items => .array (normalizeItems items)
  | .object members => .object (normalizeMembers [] members)
  | j => j
termination_by structural j => j

def normalizeItems : List Json → List Json
  | [] => []
  | item :: rest => item.normalize :: normalizeItems rest
termination_by structural items => items

/-- The members in name order, added to those already `done`. -/
def normalizeMembers (done : List (String × Json)) : List (String × Json) → List (String × Json)
  | [] => done
  | (name, value) :: rest =>
      normalizeMembers (SortedMap.insertEntry name value.normalize done) rest
termination_by structural members => members

end

theorem canonicalMembers_insertEntry {name : String} {value : Json}
    {members : List (String × Json)} (hvalue : value.isCanonical = true)
    (h : canonicalMembers members = true) :
    canonicalMembers (SortedMap.insertEntry name value members) = true := by
  induction members with
  | nil => simp [SortedMap.insertEntry, canonicalMembers, hvalue]
  | cons member rest ih =>
      obtain ⟨first, firstValue⟩ := member
      simp only [canonicalMembers, Bool.and_eq_true] at h
      unfold SortedMap.insertEntry
      split <;> simp [canonicalMembers, hvalue, h.1, h.2, ih h.2]

mutual

/-- A sound document denotes a canonical value. -/
theorem isCanonical_normalize : (j : Json) → j.isSound = true → j.normalize.isCanonical = true
  | .null, _ => rfl
  | .bool _, _ => rfl
  | .number _, _ => rfl
  | .string _, _ => rfl
  | .array items, h => by
      simp only [isSound] at h
      simpa only [normalize, isCanonical] using canonicalItems_normalizeItems items h
  | .object members, h => by
      simp only [isSound] at h
      have hnil : SortedMap.Ascending ([] : List (String × Json)) := .nil
      have hdone := canonical_normalizeMembers members [] hnil rfl h
      simp only [normalize, isCanonical, Bool.and_eq_true, decide_eq_true_eq,
        List.pairwise_map]
      exact hdone
  | .flawed _ _, h => by simp [isSound] at h
termination_by structural j => j

theorem canonicalItems_normalizeItems :
    (items : List Json) → soundItems items = true → canonicalItems (normalizeItems items) = true
  | [], _ => rfl
  | item :: rest, h => by
      simp only [soundItems, Bool.and_eq_true] at h
      simp only [normalizeItems, canonicalItems, Bool.and_eq_true]
      exact ⟨isCanonical_normalize item h.1, canonicalItems_normalizeItems rest h.2⟩
termination_by structural items => items

theorem canonical_normalizeMembers :
    (members done : List (String × Json)) → SortedMap.Ascending done →
      canonicalMembers done = true → soundMembers members = true →
      SortedMap.Ascending (normalizeMembers done members) ∧
        canonicalMembers (normalizeMembers done members) = true
  | [], _, hasc, hdone, _ => ⟨hasc, hdone⟩
  | (name, value) :: rest, done, hasc, hdone, h => by
      simp only [soundMembers, Bool.and_eq_true] at h
      have hvalue := isCanonical_normalize value h.1
      simp only [normalizeMembers]
      exact canonical_normalizeMembers rest _ (SortedMap.ascending_insertEntry hasc)
        (canonicalMembers_insertEntry hvalue hdone) h.2
termination_by structural members => members

end

theorem isCanonical_of_findEntry {name : String} {members : List (String × Json)} {value : Json}
    (h : canonicalMembers members = true)
    (hfind : SortedMap.findEntry name members = some value) : value.isCanonical = true := by
  induction members with
  | nil => simp [SortedMap.findEntry] at hfind
  | cons member rest ih =>
      obtain ⟨first, firstValue⟩ := member
      simp only [canonicalMembers, Bool.and_eq_true] at h
      unfold SortedMap.findEntry at hfind
      split at hfind
      · simp only [Option.some.injEq] at hfind
        exact hfind ▸ h.1
      · exact ih h.2 hfind

end Json

/-- JSON that is carried along as it came, without flaws and with names in order. -/
structure Payload where
  json : Json
  canonical : json.isCanonical = true

namespace Payload

def null : Payload :=
  ⟨.null, rfl⟩

instance : Inhabited Payload :=
  ⟨null⟩

/-- The value that a document denotes, when none of its places is flawed. -/
def ofJson? (j : Json) : Option Payload :=
  if h : j.isSound = true then some ⟨j.normalize, j.isCanonical_normalize h⟩ else none

/-- The member of that name, when the payload is an object that has it. -/
def get? (p : Payload) (name : String) : Option Payload :=
  match p with
  | ⟨.object members, h⟩ =>
      match hfind : SortedMap.findEntry name members with
      | some value =>
          some ⟨value, Json.isCanonical_of_findEntry
            (by simp only [Json.isCanonical, Bool.and_eq_true] at h; exact h.2) hfind⟩
      | none => none
  | _ => none

def string? (p : Payload) : Option String :=
  match p.json with
  | .string s => some s
  | _ => none

/-- The value of an integer from nought to `2 ^ 64 - 1`. -/
def natural? (p : Payload) : Option UInt64 :=
  match p.json with
  | .number (.integer n) =>
      if 0 ≤ n ∧ n < UInt64.size then some (UInt64.ofNat n.toNat) else none
  | _ => none

/-- The text of the string under a name, empty when there is none. -/
def textAt (p : Payload) (name : String) : String :=
  ((p.get? name).bind string?).getD ""

end Payload

end SlidingSync
