import SlidingSync.Proofs.Wire.Codecs
import SlidingSync.Wire.Record
import Mathlib.Data.List.Pairwise

/-! # Faithful records

Fields of a record are put into different places of the draft, so the members of an object may come
in any order, with members of other names among them. A field that is not written has to stand in
the blank draft already.
-/

namespace SlidingSync

/-! ## Fields -/

namespace Field

variable {α β γ : Type}

/--
The field puts into a draft what was written of a record. Of a field that is not
written the blank draft has the value already.
-/
structure Carries (field : Field β α) (blank : β) (write : α → β → β) : Prop where
  sound : ∀ {a j}, field.shown a = some j → j.isSound = true
  put : ∀ {a j}, field.shown a = some j → ∀ form draft,
    field.put draft (j.inForm form) = .ok (write a draft)
  hidden : ∀ {a}, field.shown a = none → write a blank = blank

theorem always_carries {codec : Codec γ} (hcodec : codec.Faithful) {name : String} {get : α → γ}
    {set : β → γ → β} {blank : β} :
    (always name codec get set).Carries blank fun a draft => set draft (get a) where
  sound h := by
    obtain rfl := Option.some.inj h
    exact hcodec.sound _
  put h form draft := by
    obtain rfl := Option.some.inj h
    simp [always, hcodec.decode_encode, Except.map]
  hidden h := by
    simp [always] at h

theorem sparse_carries {codec : Codec γ} (hcodec : codec.Faithful) {name : String}
    {nothing : γ → Bool} {get : α → γ} {set : β → γ → β} {blank : β}
    (hblank : ∀ c, nothing c = true → set blank c = blank) :
    (sparse name codec nothing get set).Carries blank fun a draft => set draft (get a) where
  sound h := by
    simp only [sparse, Option.ite_none_left_eq_some, Option.some.injEq] at h
    exact h.2 ▸ hcodec.sound _
  put h form draft := by
    simp only [sparse, Option.ite_none_left_eq_some, Option.some.injEq] at h
    simp [sparse, ← h.2, hcodec.decode_encode, Except.map]
  hidden h := by
    simp only [sparse, ite_eq_left_iff, reduceCtorEq, imp_false, Bool.not_eq_true] at h
    exact hblank _ (by simpa using h)

theorem present_carries {codec : Codec γ} (hcodec : codec.Faithful) {name : String}
    {get : α → Option γ} {set : β → γ → β} {blank : β} :
    (present name codec get set).Carries blank fun a draft => (get a).elim draft (set draft) where
  sound h := by
    obtain ⟨c, -, rfl⟩ := Option.map_eq_some_iff.mp h
    exact hcodec.sound c
  put h form draft := by
    obtain ⟨c, hget, rfl⟩ := Option.map_eq_some_iff.mp h
    simp [present, hget, hcodec.decode_encode, Except.map]
  hidden h := by
    simp [Option.map_eq_none_iff.mp h]

theorem optional_carries {codec : Codec γ} (hcodec : codec.Faithful)
    (hnull : ∀ c, codec.encode c ≠ .null) {name : String} {get : α → Option γ}
    {set : β → Option γ → β} {blank : β} (hblank : set blank none = blank) :
    (optional name codec get set).Carries blank fun a draft => set draft (get a) where
  sound h := by
    obtain ⟨c, -, rfl⟩ := Option.map_eq_some_iff.mp h
    exact hcodec.sound c
  put h form draft := by
    obtain ⟨c, hget, rfl⟩ := Option.map_eq_some_iff.mp h
    simp [optional, hget, hcodec.decode_some hnull, Except.map]
  hidden h := by
    rw [Option.map_eq_none_iff.mp h, hblank]

/-! ## Fields of one record -/

/-- The two are put into different places of a draft. -/
def Apart (v w : α → β → β) : Prop :=
  ∀ a draft, v a (w a draft) = w a (v a draft)

instance : Std.Symm (Apart (α := α) (β := β)) :=
  ⟨fun _ _ h a draft => (h a draft).symm⟩

theorem apart_elim {δ : Type} {get : α → Option γ} {get' : α → Option δ} {set : β → γ → β}
    {set' : β → δ → β} (h : ∀ draft c d, set (set' draft d) c = set' (set draft c) d) :
    Apart (fun a draft => (get a).elim draft (set draft))
      fun a draft => (get' a).elim draft (set' draft) := by
  intro a draft
  cases hget : get a <;> cases hget' : get' a <;> simp [hget, hget', h]

/-- Fields with what each of them writes into a draft; no two have one name or one place. -/
structure Layout (fields : List (Field β α)) (blank : β) (writes : List (α → β → β)) : Prop where
  carries : List.Forall₂ (fun field write => field.Carries blank write) fields writes
  names : (fields.map (·.name)).Nodup
  apart : writes.Pairwise Apart

theorem mem_members {fields : List (Field β α)} {a : α} {m : String × Json}
    (h : m ∈ members fields a) : ∃ field ∈ fields, m.1 = field.name ∧ field.shown a = some m.2 := by
  obtain ⟨field, hfield, hm⟩ := List.mem_filterMap.mp h
  obtain ⟨j, hj, rfl⟩ := Option.map_eq_some_iff.mp hm
  exact ⟨field, hfield, rfl, hj⟩

theorem name_of_mem_members {fields : List (Field β α)} {a : α} {m : String × Json}
    (h : m ∈ members fields a) : m.1 ∈ fields.map (·.name) := by
  obtain ⟨field, hfield, hname, -⟩ := mem_members h
  exact List.mem_map.mpr ⟨field, hfield, hname.symm⟩

theorem nodup_names_members {fields : List (Field β α)} (h : (fields.map (·.name)).Nodup) (a : α) :
    ((members fields a).map (·.1)).Nodup := by
  refine h.sublist ?_
  induction fields with
  | nil => exact List.Sublist.refl _
  | cons field rest ih =>
      have hrest := ih (List.nodup_cons.mp h).2
      cases hshown : field.shown a with
      | none => simpa [members, hshown] using hrest.cons field.name
      | some j => simpa [members, hshown] using hrest.cons_cons field.name

/-- Whatever the draft is, its field puts the member in, or the scan passes it over. -/
def Takes (fields : List (Field β α)) (skip : Json → Bool) (act : β → String × Json → β)
    (m : String × Json) : Prop :=
  (∃ field, (fields.find? fun field => field.name == m.1) = some field ∧
    ∀ draft, field.put draft m.2 = .ok (act draft m)) ∨
  ((fields.find? fun field => field.name == m.1) = none ∧ skip m.2 = true ∧
    ∀ draft, act draft m = draft)

theorem scan_eq_foldl {fields : List (Field β α)} {skip : Json → Bool}
    {act : β → String × Json → β} {members : List (String × Json)}
    (hnames : (members.map (·.1)).Nodup) (htakes : ∀ m ∈ members, Takes fields skip act m)
    {seen : List String} (hseen : ∀ m ∈ members, m.1 ∉ seen) (draft : β) :
    scan fields skip seen draft members = .ok (members.foldl act draft) := by
  induction members generalizing seen draft with
  | nil => rfl
  | cons m rest ih =>
      obtain ⟨hnew, hrest⟩ := List.nodup_cons.mp hnames
      have hlater := fun m' hm' => htakes m' (List.mem_cons_of_mem _ hm')
      rw [scan, List.foldl_cons]
      obtain ⟨field, hfind, hput⟩ | ⟨hfind, hskip, hsame⟩ := htakes m List.mem_cons_self
      · have hfresh : ∀ m' ∈ rest, m'.1 ∉ m.1 :: seen := by
          intro m' hm' hin
          rcases List.mem_cons.mp hin with heq | hin
          · exact hnew (List.mem_map.mpr ⟨m', hm', heq⟩)
          · exact hseen m' (List.mem_cons_of_mem _ hm') hin
        have hunseen : seen.contains m.1 = false := by
          simpa using hseen m List.mem_cons_self
        simp only [hfind, hunseen, Bool.false_eq_true, if_false, hput]
        exact ih hrest hlater hfresh _
      · simp only [hfind, hskip, if_true, hsame]
        exact ih hrest hlater (fun m' hm' => hseen m' (List.mem_cons_of_mem _ hm')) _

/-! ## Reading back what was written -/

/-- What a member of a written record does to a draft: the field of its name is put in. -/
def writeMember (parts : List (Field β α × (α → β → β))) (a : α) (draft : β)
    (m : String × Json) : β :=
  match parts.find? fun part => part.1.name == m.1 with
  | some part => part.2 a draft
  | none => draft

section Parts

variable {parts : List (Field β α × (α → β → β))} {blank : β}

theorem find?_name (h : (parts.map fun part => part.1.name).Nodup)
    {part : Field β α × (α → β → β)} (hpart : part ∈ parts) :
    (parts.find? fun other => other.1.name == part.1.name) = some part := by
  induction parts with
  | nil => contradiction
  | cons first rest ih =>
      obtain ⟨hnew, hrest⟩ := List.nodup_cons.mp h
      rcases List.mem_cons.mp hpart with rfl | hin
      · exact List.find?_cons_of_pos (by simp)
      · have hne : first.1.name ≠ part.1.name := fun heq =>
          hnew (List.mem_map.mpr ⟨part, hin, heq.symm⟩)
        rw [List.find?_cons_of_neg (by simpa using hne)]
        exact ih hrest hin

theorem find?_other {name : String} (h : name ∉ parts.map fun part => part.1.name) :
    (parts.find? fun part => part.1.name == name) = none := by
  refine List.find?_eq_none.mpr fun part hpart hname => h ?_
  exact List.mem_map.mpr ⟨part, hpart, by simpa using hname⟩

theorem find?_fields (name : String) :
    ((parts.map (·.1)).find? fun field => field.name == name) =
      (parts.find? fun part => part.1.name == name).map (·.1) := by
  rw [List.find?_map]
  rfl

theorem writeMember_own (h : (parts.map fun part => part.1.name).Nodup)
    {part : Field β α × (α → β → β)} (hpart : part ∈ parts) (a : α) (draft : β) (j : Json) :
    writeMember parts a draft (part.1.name, j) = part.2 a draft := by
  simp only [writeMember, find?_name h hpart]

theorem writeMember_other {m : String × Json} (h : m.1 ∉ parts.map fun part => part.1.name)
    (a : α) (draft : β) : writeMember parts a draft m = draft := by
  rw [writeMember, find?_other h]

theorem takes_own (h : (parts.map fun part => part.1.name).Nodup) {skip : Json → Bool} {a : α}
    {part : Field β α × (α → β → β)} (hpart : part ∈ parts) {j : Json}
    (hput : ∀ draft, part.1.put draft j = .ok (part.2 a draft)) :
    Takes (parts.map (·.1)) skip (writeMember parts a) (part.1.name, j) := by
  left
  refine ⟨part.1, ?_, fun draft => ?_⟩
  · rw [find?_fields, find?_name h hpart]
    rfl
  · rw [writeMember_own h hpart]
    exact hput draft

theorem takes_other {skip : Json → Bool} {a : α} {m : String × Json}
    (h : m.1 ∉ parts.map fun part => part.1.name) (hskip : skip m.2 = true) :
    Takes (parts.map (·.1)) skip (writeMember parts a) m := by
  right
  refine ⟨?_, hskip, writeMember_other h a⟩
  rw [find?_fields, find?_other h]
  rfl

theorem writeMember_right_comm (hapart : (parts.map (·.2)).Pairwise Apart) (a : α) (draft : β)
    (m n : String × Json) :
    writeMember parts a (writeMember parts a draft m) n =
      writeMember parts a (writeMember parts a draft n) m := by
  have hcomm : ∀ v ∈ parts.map (·.2), ∀ w ∈ parts.map (·.2), Apart v w :=
    fun _ hv _ hw => hapart.forall_of_forall (fun _ _ _ _ => rfl) hv hw
  unfold writeMember
  cases hm : parts.find? fun part => part.1.name == m.1 with
  | none => rfl
  | some p =>
      cases hn : parts.find? fun part => part.1.name == n.1 with
      | none => rfl
      | some q =>
          exact hcomm q.2 (List.mem_map_of_mem (List.mem_of_find?_eq_some hn)) p.2
            (List.mem_map_of_mem (List.mem_of_find?_eq_some hm)) a draft

/-- Fields that were not written change nothing, before and after the others. -/
theorem foldl_written {a : α} {act : β → String × Json → β} (form : Json.Form)
    (hact : ∀ part ∈ parts, ∀ j draft, act draft (part.1.name, j) = part.2 a draft)
    (hapart : (parts.map (·.2)).Pairwise Apart)
    {draft : β} (hhidden : ∀ part ∈ parts, part.1.shown a = none → part.2 a draft = draft) :
    (Json.membersIn form (members (parts.map (·.1)) a)).foldl act draft =
      parts.foldl (fun draft part => part.2 a draft) draft := by
  induction parts generalizing draft with
  | nil => rfl
  | cons part rest ih =>
      obtain ⟨hhead, hrest⟩ := List.pairwise_cons.mp hapart
      have hstep := fun {draft} => @ih (fun p hp => hact p (List.mem_cons_of_mem _ hp)) hrest draft
      cases hshown : part.1.shown a with
      | none =>
          have hsame := hhidden part List.mem_cons_self hshown
          have hwritten : members ((part :: rest).map (·.1)) a = members (rest.map (·.1)) a := by
            simp [members, hshown]
          rw [hwritten, List.foldl_cons, hsame]
          exact hstep fun p hp => hhidden p (List.mem_cons_of_mem _ hp)
      | some j =>
          have hwritten : members ((part :: rest).map (·.1)) a =
              (part.1.name, j) :: members (rest.map (·.1)) a := by
            simp [members, hshown]
          rw [hwritten, Json.membersIn, List.map_cons, List.foldl_cons, List.foldl_cons,
            hact part List.mem_cons_self]
          refine hstep fun p hp hnone => ?_
          rw [← hhead p.2 (List.mem_map_of_mem hp), hhidden p (List.mem_cons_of_mem _ hp) hnone]

end Parts

theorem foldl_of_fixed {γ : Type} {act : β → γ → β} {draft : β} {l : List γ}
    (h : ∀ c ∈ l, act draft c = draft) : l.foldl act draft = draft := by
  induction l with
  | nil => rfl
  | cons c rest ih =>
      rw [List.foldl_cons, h c List.mem_cons_self]
      exact ih fun c' hc' => h c' (List.mem_cons_of_mem _ hc')

namespace Layout

variable {fields : List (Field β α)} {blank : β} {writes : List (α → β → β)}

theorem exists_parts (layout : Layout fields blank writes) :
    ∃ parts : List (Field β α × (α → β → β)), fields = parts.map (·.1) ∧
      writes = parts.map (·.2) ∧ ∀ part ∈ parts, part.1.Carries blank part.2 := by
  obtain ⟨hlength, hzip⟩ := List.forall₂_iff_zip.mp layout.carries
  exact ⟨fields.zip writes, (List.map_fst_zip (Nat.le_of_eq hlength)).symm,
    (List.map_snd_zip (Nat.le_of_eq hlength.symm)).symm,
    fun part hpart => hzip hpart⟩

theorem sound (layout : Layout fields blank writes) {a : α} {m : String × Json}
    (h : m ∈ members fields a) : m.2.isSound = true := by
  obtain ⟨parts, rfl, -, hparts⟩ := layout.exists_parts
  obtain ⟨field, hfield, -, hshown⟩ := mem_members h
  obtain ⟨part, hpart, rfl⟩ := List.mem_map.mp hfield
  exact (hparts part hpart).sound hshown

/-- For a scan of other names the members that were written are extras. -/
theorem extras (layout : Layout fields blank writes) (names : List String)
    (h : ∀ name ∈ fields.map (·.name), name ∉ names) (a : α) (form : Json.Form) :
    ∀ m ∈ Json.membersIn form (members fields a), m.1 ∉ names ∧ m.2.isSound = true := by
  intro m hm
  obtain ⟨written, hwritten, rfl⟩ := List.mem_map.mp hm
  exact ⟨h written.1 (name_of_mem_members hwritten),
    Json.isSound_inForm (layout.sound hwritten) form⟩

/--
A scan for the fields of a record finds what was written of it, in any order and
among members of other names.
-/
theorem scan_eq (layout : Layout fields blank writes) {skip : Json → Bool} {a : α}
    {form : Json.Form} {extras found : List (String × Json)}
    (hfound : found.Perm (extras ++ Json.membersIn form (members fields a)))
    (hnames : (found.map (·.1)).Nodup)
    (hextras : ∀ m ∈ extras, m.1 ∉ fields.map (·.name) ∧ skip m.2 = true) :
    scan fields skip [] blank found =
      .ok (writes.foldl (fun draft write => write a draft) blank) := by
  have hdistinct := layout.names
  have happart := layout.apart
  obtain ⟨parts, rfl, rfl, hparts⟩ := layout.exists_parts
  rw [List.map_map] at hdistinct
  have hother : ∀ m ∈ extras, m.1 ∉ parts.map fun part => part.1.name := by
    intro m hm
    have hnot := (hextras m hm).1
    rwa [List.map_map] at hnot
  have htakes : ∀ m ∈ found, Takes (parts.map (·.1)) skip (writeMember parts a) m := by
    intro m hm
    rcases List.mem_append.mp (hfound.subset hm) with hm | hm
    · exact takes_other (hother m hm) (hextras m hm).2
    · obtain ⟨⟨name, j⟩, hwritten, rfl⟩ := List.mem_map.mp hm
      obtain ⟨field, hfield, rfl, hshown⟩ := mem_members hwritten
      obtain ⟨part, hpart, rfl⟩ := List.mem_map.mp hfield
      exact takes_own hdistinct hpart ((hparts part hpart).put hshown form)
  have hpassed : extras.foldl (writeMember parts a) blank = blank :=
    foldl_of_fixed fun m hm => writeMember_other (hother m hm) a blank
  have hown : ∀ part ∈ parts, ∀ j draft,
      writeMember parts a draft (part.1.name, j) = part.2 a draft :=
    fun _ hpart j draft => writeMember_own hdistinct hpart a draft j
  rw [scan_eq_foldl hnames htakes (fun _ _ => List.not_mem_nil) blank,
    hfound.foldl_eq' fun m _ n _ draft => writeMember_right_comm happart a draft m n,
    List.foldl_append, hpassed,
    foldl_written form hown happart fun part hpart => (hparts part hpart).hidden, List.foldl_map]

end Layout

end Field

/-! ## Records -/

namespace Record

variable {α β : Type} {r : Record β α} {writes : List (α → β → β)}

theorem ofMembers_eq (layout : Field.Layout r.fields r.blank writes) {a : α}
    (hfinish : r.finish (writes.foldl (fun draft write => write a draft) r.blank) = some a)
    {form : Json.Form} {extras found : List (String × Json)}
    (hfound : found.Perm (extras ++ Json.membersIn form (Field.members r.fields a)))
    (hnames : (found.map (·.1)).Nodup)
    (hextras : ∀ m ∈ extras, m.1 ∉ r.fields.map (·.name) ∧ m.2.isWhole = true) :
    r.ofMembers found = .ok a := by
  rw [ofMembers, layout.scan_eq hfound hnames hextras]
  change r.complete (writes.foldl (fun draft write => write a draft) r.blank) = .ok a
  rw [complete, hfinish]

theorem faithful (layout : Field.Layout r.fields r.blank writes)
    (hfinish : ∀ a, r.finish (writes.foldl (fun draft write => write a draft) r.blank) = some a) :
    r.codec.Faithful :=
  .of_members (fun _ => rfl) (fun _ _ => layout.sound)
    (fun a => Field.nodup_names_members layout.names a)
    fun a _ _ hfound hnames =>
      ofMembers_eq layout (hfinish a) hfound hnames fun _ hm => absurd hm List.not_mem_nil

theorem encode_ne_null (a : α) : r.codec.encode a ≠ .null := by
  simp [codec]

end Record

end SlidingSync
