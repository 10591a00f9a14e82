import SlidingSync.Room
import Mathlib.Data.List.Infix

/-! # Names that contain what is looked for

A name is looked through in lower case for a text in lower case. Every character but the capital
sigma has its lower-case form to itself, so only a sigma can look different inside a name than it
does alone. It is final when the nearest character before it that counts is cased and the nearest
one behind it is not. A part of a name may leave either question to the rest of the name: then the
filter does not find the part in some name that contains it, and otherwise it finds it in all.
-/

namespace SlidingSync

namespace Text

/-! ## Lower case of a part -/

/-- Whether the first character that is not passed over is cased; `beyond` when there is none. -/
def nearestCased (beyond : Bool) : List Char → Bool
  | [] => beyond
  | c :: rest => if isCaseIgnorable c then nearestCased beyond rest else isCased c

/--
Lower-case form of a part of a text, where the nearest characters that count before
the part and behind it are cased or not.
-/
def lowerWithin (before behind : Bool) : List Char → List Char
  | [] => []
  | c :: rest =>
      (if c = 'Σ' then
          if before && !nearestCased behind rest then ['ς'] else ['σ']
        else lowerChar c)
        ++ lowerWithin (if isCaseIgnorable c then before else isCased c) behind rest

theorem startsCased_eq (cs : List Char) : startsCased cs = nearestCased false cs := by
  induction cs with
  | nil => rfl
  | cons c rest ih => rw [startsCased, nearestCased, ih]

theorem lowerFrom_eq (before : Bool) (cs : List Char) :
    lowerFrom before cs = lowerWithin before false cs := by
  induction cs generalizing before with
  | nil => rfl
  | cons c rest ih => simp only [lowerFrom, lowerWithin, ih, startsCased_eq]

theorem nearestCased_append (beyond : Bool) (u v : List Char) :
    nearestCased beyond (u ++ v) = nearestCased (nearestCased beyond v) u := by
  induction u with
  | nil => rfl
  | cons c rest ih => rw [List.cons_append, nearestCased, nearestCased, ih]

theorem nearestCased_of_ignorable {u : List Char} (h : u.all isCaseIgnorable = true)
    (beyond : Bool) : nearestCased beyond u = beyond := by
  induction u with
  | nil => rfl
  | cons c rest ih =>
      rw [List.all_cons, Bool.and_eq_true] at h
      rw [nearestCased, if_pos h.1, ih h.2]

theorem nearestCased_of_not_ignorable {u : List Char} (h : u.all isCaseIgnorable = false)
    (beyond : Bool) : nearestCased beyond u = startsCased u := by
  induction u with
  | nil => contradiction
  | cons c rest ih =>
      rw [nearestCased, startsCased]
      by_cases hc : isCaseIgnorable c = true
      · rw [List.all_cons, hc, Bool.true_and] at h
        rw [if_pos hc, if_pos hc, ih h]
      · rw [if_neg hc, if_neg hc]

/-- Either part is lowered in sight of the other. -/
theorem lowerWithin_append (before behind : Bool) (u v : List Char) :
    lowerWithin before behind (u ++ v) =
      lowerWithin before (nearestCased behind v) u
        ++ lowerWithin (nearestCased before u.reverse) behind v := by
  induction u generalizing before with
  | nil => rfl
  | cons c rest ih =>
      have hreverse : nearestCased before (c :: rest).reverse =
          nearestCased (if isCaseIgnorable c then before else isCased c) rest.reverse := by
        rw [List.reverse_cons, nearestCased_append]
        rfl
      rw [List.cons_append, lowerWithin, lowerWithin, ih, hreverse, nearestCased_append,
        List.append_assoc]

theorem infix_lowerFrom (u part v : List Char) :
    ∃ before behind, lowerWithin before behind part <:+: lowerFrom false (u ++ part ++ v) := by
  refine ⟨nearestCased false u.reverse, nearestCased false v, ?_⟩
  rw [lowerFrom_eq, List.append_assoc, lowerWithin_append, lowerWithin_append]
  exact ⟨_, _, List.append_assoc _ _ _⟩

/-! ## The capital sigma -/

/--
The part has a capital sigma that takes the final form or not with what stands around
the part. Either nothing before it in the part counts, so that it may be final as soon
as no cased character of the part follows, or it follows a cased character and nothing
behind it in the part counts.
-/
def Wavers (part : List Char) : Prop :=
  ∃ u v, part = u ++ 'Σ' :: v ∧
    ((u.all isCaseIgnorable = true ∧ startsCased v = false) ∨
      (startsCased u.reverse = true ∧ v.all isCaseIgnorable = true))

/-- A sigma that does not waver takes the form that it has in the part alone. -/
theorem final_congr {u v : List Char}
    (h : ¬((u.all isCaseIgnorable = true ∧ startsCased v = false) ∨
      (startsCased u.reverse = true ∧ v.all isCaseIgnorable = true)))
    (before behind : Bool) :
    (nearestCased before u.reverse && !nearestCased behind v) =
      (nearestCased false u.reverse && !nearestCased false v) := by
  cases hu : u.all isCaseIgnorable with
  | true =>
      have hreverse : u.reverse.all isCaseIgnorable = true := by rwa [List.all_reverse]
      rw [nearestCased_of_ignorable hreverse, nearestCased_of_ignorable hreverse]
      cases hv : v.all isCaseIgnorable with
      | true =>
          refine absurd (.inl ⟨hu, ?_⟩) h
          rw [startsCased_eq, nearestCased_of_ignorable hv]
      | false =>
          have hcased : startsCased v = true := by
            by_contra hnot
            exact h (.inl ⟨hu, Bool.eq_false_iff.mpr hnot⟩)
          rw [nearestCased_of_not_ignorable hv, hcased, Bool.not_true, Bool.and_false,
            Bool.false_and]
  | false =>
      have hreverse : u.reverse.all isCaseIgnorable = false := by rwa [List.all_reverse]
      rw [nearestCased_of_not_ignorable hreverse, nearestCased_of_not_ignorable hreverse]
      cases hv : v.all isCaseIgnorable with
      | true =>
          have huncased : startsCased u.reverse = false := by
            by_contra hnot
            exact h (.inr ⟨by simpa using hnot, hv⟩)
          rw [huncased, Bool.false_and, Bool.false_and]
      | false => rw [nearestCased_of_not_ignorable hv, nearestCased_of_not_ignorable hv]

theorem lowerWithin_of_not_wavers {part : List Char} (h : ¬Wavers part) (before behind : Bool) :
    lowerWithin before behind part = lowerFrom false part := by
  -- Behind every beginning of the part the two lowerings go on alike.
  have hrest : ∀ v u, part = u ++ v →
      lowerWithin (nearestCased before u.reverse) behind v =
        lowerWithin (nearestCased false u.reverse) false v := by
    intro v
    induction v with
    | nil => exact fun _ _ => rfl
    | cons c rest ih =>
        intro u hpart
        have hnext := ih (u ++ [c]) (by rw [hpart, List.append_assoc]; rfl)
        rw [List.reverse_append] at hnext
        change lowerWithin (if isCaseIgnorable c then nearestCased before u.reverse else isCased c)
            behind rest = lowerWithin (if isCaseIgnorable c then nearestCased false u.reverse
              else isCased c) false rest at hnext
        rw [lowerWithin, lowerWithin, hnext]
        by_cases hc : c = 'Σ'
        · subst hc
          have hsettled := fun hform => h ⟨u, rest, hpart, hform⟩
          rw [final_congr hsettled before behind]
        · rw [if_neg hc, if_neg hc]
  rw [lowerFrom_eq]
  exact hrest part [] rfl

/-! ## Names in which a part is not found -/

theorem isCased_sigma : isCased 'Σ' = true := by
  decide +kernel

theorem not_isCaseIgnorable_sigma : isCaseIgnorable 'Σ' = false := by
  decide +kernel

theorem lowerWithin_sigma (before behind : Bool) (u v : List Char) :
    lowerWithin before behind (u ++ 'Σ' :: v) =
      lowerWithin before true u
        ++ (if nearestCased before u.reverse && !nearestCased behind v then 'ς' else 'σ')
          :: lowerWithin true behind v := by
  have hsigma : nearestCased behind ('Σ' :: v) = true := by
    rw [nearestCased, not_isCaseIgnorable_sigma]
    exact isCased_sigma
  have hform : ∀ first, lowerWithin first behind ('Σ' :: v) =
      (if first && !nearestCased behind v then 'ς' else 'σ') :: lowerWithin true behind v := by
    intro first
    rw [lowerWithin, if_pos (Eq.refl 'Σ'), not_isCaseIgnorable_sigma, isCased_sigma]
    split <;> rfl
  rw [lowerWithin_append, hsigma, hform]

/-- Nothing in the part asks for what stands around it. -/
theorem lowerWithin_of_ignorable {u : List Char} (h : u.all isCaseIgnorable = true)
    (before behind : Bool) : lowerWithin before behind u = u.flatMap lowerChar := by
  induction u generalizing before with
  | nil => rfl
  | cons c rest ih =>
      rw [List.all_cons, Bool.and_eq_true] at h
      have hc : c ≠ 'Σ' := by
        rintro rfl
        rw [not_isCaseIgnorable_sigma] at h
        exact absurd h.1 (by decide)
      rw [lowerWithin, if_neg hc, ih h.2, List.flatMap_cons]

theorem not_infix_of_count_lt {c : Char} {part whole : List Char}
    (h : whole.count c < part.count c) : ¬ part <:+: whole := by
  intro hin
  have hle := hin.sublist.count_le c
  omega

/-- A letter before or behind the part gives a wavering sigma its other form. -/
theorem exists_not_infix {part : List Char} (h : Wavers part) :
    ∃ u v, ¬ lowerFrom false part <:+: lowerFrom false (u ++ part ++ v) := by
  have hletter : ∀ before behind, lowerWithin before behind ['a'] = ['a'] := by decide +kernel
  have hcased : ∀ beyond, nearestCased beyond ['a'] = true := by decide +kernel
  obtain ⟨u, v, rfl, ⟨hu, hv⟩ | ⟨hu, hv⟩⟩ := h
  · refine ⟨['a'], [], not_infix_of_count_lt (c := 'σ') ?_⟩
    have hreverse : u.reverse.all isCaseIgnorable = true := by rwa [List.all_reverse]
    have halone : lowerFrom false (u ++ 'Σ' :: v) =
        u.flatMap lowerChar ++ 'σ' :: lowerWithin true false v := by
      rw [lowerFrom_eq, lowerWithin_sigma, nearestCased_of_ignorable hreverse,
        lowerWithin_of_ignorable hu]
      rfl
    have hname : lowerFrom false (['a'] ++ (u ++ 'Σ' :: v) ++ []) =
        'a' :: (u.flatMap lowerChar ++ 'ς' :: lowerWithin true false v) := by
      rw [lowerFrom_eq, List.append_nil, lowerWithin_append, hletter, List.reverse_singleton,
        hcased, lowerWithin_sigma, nearestCased_of_ignorable hreverse,
        lowerWithin_of_ignorable hu, ← startsCased_eq, hv]
      rfl
    rw [halone, hname]
    simp
  · refine ⟨[], ['a'], not_infix_of_count_lt (c := 'ς') ?_⟩
    rw [startsCased_eq] at hu
    have halone : lowerFrom false (u ++ 'Σ' :: v) =
        lowerWithin false true u ++ 'ς' :: v.flatMap lowerChar := by
      rw [lowerFrom_eq, lowerWithin_sigma, hu, nearestCased_of_ignorable hv,
        lowerWithin_of_ignorable hv]
      rfl
    have hname : lowerFrom false ([] ++ (u ++ 'Σ' :: v) ++ ['a']) =
        lowerWithin false true u ++ 'σ' :: v.flatMap lowerChar ++ ['a'] := by
      rw [lowerFrom_eq, List.nil_append, lowerWithin_append, hletter, hcased, lowerWithin_sigma, hu,
        nearestCased_of_ignorable hv, lowerWithin_of_ignorable hv]
      rfl
    rw [halone, hname]
    simp

theorem infix_lowercase_iff (part : String) :
    (∀ whole : String, part.toList <:+: whole.toList →
        occursIn (lowercase part) (lowercase whole) = true) ↔ ¬Wavers part.toList := by
  simp only [occursIn_iff, lowercase, String.toList_ofList]
  constructor
  · intro hall hwavers
    obtain ⟨u, v, hmissed⟩ := exists_not_infix hwavers
    have hfound := hall (.ofList (u ++ part.toList ++ v)) (by
      rw [String.toList_ofList]
      exact ⟨u, v, rfl⟩)
    rw [String.toList_ofList] at hfound
    exact hmissed hfound
  · rintro hsettled whole ⟨u, v, hwhole⟩
    obtain ⟨before, behind, hin⟩ := infix_lowerFrom u part.toList v
    rw [lowerWithin_of_not_wavers hsettled, hwhole] at hin
    exact hin

end Text

namespace RoomFilters

/--
A text that is looked for in the names of rooms is found in every name that contains
it, so that the filter keeps all rooms with such a name, exactly when it has no
capital sigma whose lower-case form depends on what stands around the text.
-/
theorem keeps_names_containing_iff (like : String) :
    (∀ room : Room, like.toList <:+: room.summary.name.toList →
        accepts { roomNameLike := some like } room = true ∧
          ∀ rooms, room ∈ rooms → room ∈ Room.filter (some { roomNameLike := some like }) rooms) ↔
      ¬Text.Wavers like.toList := by
  rw [← Text.infix_lowercase_iff]
  constructor
  · intro hkeeps whole hin
    have hname : RoomId.fault? "!" = none := by decide +kernel
    exact (hkeeps ⟨⟨"!", hname⟩, { name := whole }⟩ hin).1
  · intro hfinds room hin
    have haccepts : accepts { roomNameLike := some like } room = true := hfinds _ hin
    exact ⟨haccepts, fun rooms hroom => List.mem_filter.mpr ⟨hroom, haccepts⟩⟩

/-! ### A reading room -/

def readingRoom : Room :=
  ⟨⟨"!reading:s", by decide +kernel⟩, { name := "ΦΙΛΟΣΟΦΙΑ" }⟩

/-- The first five letters of the name end in a final sigma when they are lowered by themselves. -/
theorem final_sigma_missed :
    "ΦΙΛΟΣ".toList <:+: readingRoom.summary.name.toList ∧
      accepts { roomNameLike := some "ΦΙΛΟΣ" } readingRoom = false ∧
        readingRoom ∉ Room.filter (some { roomNameLike := some "ΦΙΛΟΣ" }) [readingRoom] := by
  have hrefused : accepts { roomNameLike := some "ΦΙΛΟΣ" } readingRoom = false := by
    decide +kernel
  refine ⟨⟨[], "ΟΦΙΑ".toList, by decide +kernel⟩, hrefused, ?_⟩
  intro hkept
  have haccepted := (List.mem_filter.mp hkept).2
  exact Bool.false_ne_true (hrefused.symm.trans haccepted)

end RoomFilters

end SlidingSync
