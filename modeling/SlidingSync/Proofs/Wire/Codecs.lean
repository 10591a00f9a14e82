import SlidingSync.Proofs.Wire.Values
import SlidingSync.Wire.Codec

/-! # Faithful codecs

A codec is faithful when what it writes of a value is read back as that value, both as the document
that was written and as the value the document denotes. The two list the members of an object in
different orders, so what reads an object must not depend on their order: entries of a map have
different keys and may be added in any order.
-/

namespace SlidingSync

namespace Json

@[simp] theorem inForm_bool (form : Form) (b : Bool) : (Json.bool b).inForm form = .bool b := by
  cases form <;> rfl

@[simp] theorem inForm_number (form : Form) (n : Number) :
    (Json.number n).inForm form = .number n := by
  cases form <;> rfl

@[simp] theorem inForm_string (form : Form) (s : String) :
    (Json.string s).inForm form = .string s := by
  cases form <;> rfl

@[simp] theorem inForm_null (form : Form) : Json.null.inForm form = .null := by
  cases form <;> rfl

theorem isSound_inForm {j : Json} (h : j.isSound = true) (form : Form) :
    (j.inForm form).isSound = true := by
  cases form with
  | written => exact h
  | value => exact (settled_of_isCanonical _ (isCanonical_normalize j h)).1

@[simp] theorem map_fst_membersIn (form : Form) (members : List (String × Json)) :
    (membersIn form members).map (·.1) = members.map (·.1) := by
  simp [membersIn]

theorem nodup_names_of_perm {form : Form} {members found : List (String × Json)}
    (hfound : found.Perm (membersIn form members)) (h : (members.map (·.1)).Nodup) :
    (found.map (·.1)).Nodup := by
  rw [(hfound.map _).nodup_iff, map_fst_membersIn]
  exact h

end Json

/-! ## Values of a single kind -/

namespace Codec

variable {α β : Type}

/-- What is written is without flaws and is read back in either form. -/
structure Faithful (c : Codec α) : Prop where
  sound : ∀ a, (c.encode a).isSound = true
  decode_encode : ∀ a form, c.decode ((c.encode a).inForm form) = .ok a

theorem Faithful.decode_written {c : Codec α} (h : c.Faithful) (a : α) :
    c.decode (c.encode a) = .ok a :=
  h.decode_encode a .written

theorem bool_faithful : bool.Faithful where
  sound _ := rfl
  decode_encode b form := by
    simp [bool]

theorem natural_faithful : natural.Faithful where
  sound _ := rfl
  decode_encode n form := by
    have hsize : (n.toNat : Int) < UInt64.size := by
      have := n.toNat_lt
      simp only [UInt64.size]
      omega
    simpa [natural, Json.ofNat] using hsize

theorem string_faithful : string.Faithful where
  sound _ := rfl
  decode_encode s form := by
    simp [string]

theorem payload_faithful : payload.Faithful where
  sound p := p.isSound_json
  decode_encode p form := by
    simp only [payload, p.inForm_json, p.ofJson?_json]

theorem checked_faithful {parse : String → Except IdentifierFault α} {text : α → String}
    (h : ∀ a, parse (text a) = .ok a) : (checked parse text).Faithful where
  sound _ := rfl
  decode_encode a form := by
    simp [checked, h, Except.mapError]

/-! ## Values of several parts -/

theorem Faithful.list {c : Codec α} (hc : c.Faithful) : (list c).Faithful where
  sound items := by
    simp only [Codec.list, Json.isSound, Json.soundItems_iff, List.forall_mem_map]
    exact fun a _ => hc.sound a
  decode_encode items form := by
    simp only [Codec.list, Json.inForm_array, List.map_map]
    induction items with
    | nil => rfl
    | cons a rest ih =>
        rw [List.map_cons, List.mapM_cons, ih, Function.comp, hc.decode_encode]
        rfl

theorem Faithful.pair {part : Codec α} (hpart : part.Faithful) {make : α → α → β}
    {first second : β → α} (h : ∀ b, make (first b) (second b) = b) :
    (pair part make first second).Faithful where
  sound b := by
    simp [Codec.pair, Json.isSound, Json.soundItems, hpart.sound]
  decode_encode b form := by
    simp only [Codec.pair, Json.inForm_array, List.map_cons, List.map_nil, hpart.decode_encode]
    exact congrArg Except.ok (h b)

theorem decode_nullable {c : Codec α} {j : Json} (h : j ≠ .null) :
    c.nullable.decode j = (c.decode j).map some := by
  cases j <;> first | rfl | exact absurd rfl h

theorem Faithful.decode_some {c : Codec α} (hc : c.Faithful) (h : ∀ a, c.encode a ≠ .null) (a : α)
    (form : Json.Form) : c.nullable.decode ((c.encode a).inForm form) = .ok (some a) := by
  rw [decode_nullable (Json.inForm_ne_null (h a) form), hc.decode_encode]
  rfl

theorem Faithful.nullable {c : Codec α} (hc : c.Faithful) (h : ∀ a, c.encode a ≠ .null) :
    c.nullable.Faithful where
  sound
    | none => rfl
    | some a => hc.sound a
  decode_encode
    | none, form => by
        simp [Codec.nullable]
    | some a, form => hc.decode_some h a form

/-- An object is read back if its members are, in every order. -/
theorem Faithful.of_members {c : Codec α} {members : α → List (String × Json)}
    (hencode : ∀ a, c.encode a = .object (members a))
    (hsound : ∀ a, ∀ m ∈ members a, m.2.isSound = true)
    (hnames : ∀ a, ((members a).map (·.1)).Nodup)
    (hdecode : ∀ a form found, found.Perm (Json.membersIn form (members a)) →
      (found.map (·.1)).Nodup → c.decode (.object found) = .ok a) : c.Faithful where
  sound a := by
    rw [hencode, Json.isSound]
    exact Json.soundMembers_iff.mpr (hsound a)
  decode_encode a form := by
    obtain ⟨found, hobject, hfound⟩ := Json.inForm_object form (hnames a)
    rw [hencode, hobject]
    exact hdecode a form found hfound (Json.nodup_names_of_perm hfound (hnames a))

end Codec

/-! ## Maps -/

namespace SortedMap

variable {κ α : Type} [Ord κ] [Std.TransOrd κ] [Std.LawfulEqOrd κ]

theorem insert_right_comm [DecidableEq κ] {m source : SortedMap κ α} {a b : κ × α}
    (ha : a ∈ source.entries) (hb : b ∈ source.entries) :
    (m.insert a.1 a.2).insert b.1 b.2 = (m.insert b.1 b.2).insert a.1 a.2 := by
  by_cases hkey : a.1 = b.1
  · have hget := mem_entries_iff.mp ha
    rw [hkey, mem_entries_iff.mp hb, Option.some.injEq] at hget
    rw [hkey, hget]
  · refine ext_get? fun k => ?_
    simp only [get?_insert]
    split <;> split <;> simp_all

/-- A map is rebuilt from its entries in any order. -/
theorem foldl_insert_of_perm [DecidableEq κ] {m : SortedMap κ α} {entries : List (κ × α)}
    (h : entries.Perm m.entries) :
    entries.foldl (fun built e => built.insert e.1 e.2) empty = m := by
  have hcomm : ∀ a ∈ entries, ∀ b ∈ entries, ∀ built : SortedMap κ α,
      (built.insert a.1 a.2).insert b.1 b.2 = (built.insert b.1 b.2).insert a.1 a.2 :=
    fun a ha b hb _ => insert_right_comm (h.subset ha) (h.subset hb)
  rw [h.foldl_eq' hcomm]
  refine ext_get? fun k => ?_
  have hview : (m.entries.foldl (fun built e => built.insert e.1 e.2) empty).get? k =
      (m.get? k).elim none some :=
    view_foldl (fun built => built.get? k) (fun _ v => some v)
      (fun built v => get?_insert_self built k v) (fun built e hne => get?_insert_of_ne hne.symm)
      m empty
  rw [hview]
  cases m.get? k <;> rfl

end SortedMap

namespace Codec

variable {κ α : Type} [Ord κ] [Std.TransOrd κ] [Std.LawfulEqOrd κ]

theorem addEntries_eq {key : String → Except DecodeFault κ} {text : κ → String} {value : Codec α}
    (hvalue : value.Faithful) (hkey : ∀ k, key (text k) = .ok k) (form : Json.Form)
    (m : SortedMap κ α) (entries : List (κ × α)) :
    addEntries key value m
        (entries.map fun e => (text e.1, (value.encode e.2).inForm form)) =
      .ok (entries.foldl (fun built e => built.insert e.1 e.2) m) := by
  induction entries generalizing m with
  | nil => rfl
  | cons entry rest ih =>
      simp only [List.map_cons, addEntries, hkey, hvalue.decode_encode]
      exact ih _

theorem Faithful.mapping [DecidableEq κ] {key : String → Except DecodeFault κ} {text : κ → String}
    {value : Codec α} (hvalue : value.Faithful) (hkey : ∀ k, key (text k) = .ok k) :
    (mapping key text value).Faithful := by
  have hinj : Function.Injective text := fun a b hab => by
    have hok := hkey a
    rw [hab, hkey b, Except.ok.injEq] at hok
    exact hok.symm
  refine .of_members (fun m => rfl) ?_ ?_ ?_
  · intro m
    rw [List.forall_mem_map]
    exact fun e _ => hvalue.sound e.2
  · intro m
    have hkeys : m.keys.Nodup := m.pairwise_keys.imp fun {a b} hlt (heq : a = b) => by
      simp [heq] at hlt
    have htexts : ((m.entries.map (·.1)).map text).Nodup := hkeys.map hinj
    rw [List.map_map] at htexts
    rw [List.map_map]
    exact htexts
  · intro m form found hfound _
    rw [Json.membersIn, List.map_map] at hfound
    -- The members are the entries in another order.
    obtain ⟨entries, rfl, hentries⟩ :=
      (congrFun (congrFun (List.eq_map_comp_perm _) found) m.entries).mpr hfound
    have hread := addEntries_eq hvalue hkey form .empty entries
    rw [SortedMap.foldl_insert_of_perm hentries] at hread
    exact hread

end Codec

end SlidingSync
