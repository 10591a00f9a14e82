import SlidingSync.CommandLine.WindowText
import Mathlib.Data.List.TakeWhile

/-! # Texts that are windows

Which texts are read as a window, said without the reader: the first dash divides two numerals, each
between blanks, whose values ascend and fit a word. A numeral that is too large is noticed on the
way, at the first digit with which it has grown past the bound, and since digits never make a number
smaller this happens exactly when its value is past the bound.
-/

namespace SlidingSync

namespace Text

/-! ## Numerals -/

/-- Characters that are a numeral of the number: digits, perhaps behind a plus sign. -/
inductive Numeral : List Char → Nat → Prop
  | plain {digits : List Char} (given : digits ≠ []) (ascii : ∀ c ∈ digits, c.isDigit = true) :
      Numeral digits (Nat.ofDigitChars 10 digits 0)
  | signed {digits : List Char} (given : digits ≠ []) (ascii : ∀ c ∈ digits, c.isDigit = true) :
      Numeral ('+' :: digits) (Nat.ofDigitChars 10 digits 0)

theorem digitValue?_eq (c : Char) :
    digitValue? c = if c.isDigit then some (c.toNat - '0'.toNat) else none := by
  unfold digitValue?
  simp [Char.isDigit, Char.le_def]

theorem le_ofDigitChars (cs : List Char) (read : Nat) : read ≤ Nat.ofDigitChars 10 cs read := by
  rw [Nat.ofDigitChars_eq_ofDigitChars_zero]
  have hpow : 0 < 10 ^ cs.length := Nat.pow_pos (by omega)
  have hmul := Nat.le_mul_of_pos_left read hpow
  omega

theorem readDigits_eq_ok_iff {bound read n : Nat} {cs : List Char} (hread : read < bound) :
    readDigits bound read cs = .ok n ↔
      (∀ c ∈ cs, c.isDigit = true) ∧ Nat.ofDigitChars 10 cs read = n ∧ n < bound := by
  induction cs generalizing read with
  | nil =>
      simp only [readDigits, Except.ok.injEq, Nat.ofDigitChars_nil]
      constructor
      · rintro rfl
        exact ⟨by simp, rfl, hread⟩
      · exact fun h => h.2.1
  | cons c rest ih =>
      unfold readDigits
      rw [digitValue?_eq, Nat.ofDigitChars_cons, List.forall_mem_cons]
      by_cases hdigit : c.isDigit = true
      · simp only [hdigit, if_true, true_and]
        rw [Nat.mul_comm 10 read]
        by_cases hfits : read * 10 + (c.toNat - '0'.toNat) < bound
        · rw [if_pos hfits, ih hfits]
        · -- The value of all digits is no less than that of the first ones.
          have hgrows := le_ofDigitChars rest (read * 10 + (c.toNat - '0'.toNat))
          rw [if_neg hfits]
          refine iff_of_false (by simp) ?_
          rintro ⟨-, rfl, hn⟩
          omega
      · simp [hdigit]

theorem Numeral.ne_nil {cs : List Char} {n : Nat} (h : Numeral cs n) : cs ≠ [] := by
  cases h with
  | plain given => exact given
  | signed => exact List.cons_ne_nil _ _

theorem Numeral.of_ne_plus {c : Char} {rest : List Char} {n : Nat} (h : Numeral (c :: rest) n)
    (hplus : c ≠ '+') :
    (∀ d ∈ c :: rest, d.isDigit = true) ∧ Nat.ofDigitChars 10 (c :: rest) 0 = n := by
  cases h with
  | plain _ ascii => exact ⟨ascii, rfl⟩
  | signed => exact absurd rfl hplus

theorem numeral_plus_iff {rest : List Char} {n : Nat} :
    Numeral ('+' :: rest) n ↔
      rest ≠ [] ∧ (∀ c ∈ rest, c.isDigit = true) ∧ Nat.ofDigitChars 10 rest 0 = n := by
  constructor
  · intro h
    cases h with
    | plain _ ascii => exact absurd (ascii '+' List.mem_cons_self) (by decide)
    | signed given ascii => exact ⟨given, ascii, rfl⟩
  · rintro ⟨given, ascii, rfl⟩
    exact .signed given ascii

/-- Numerals below the bound are read, and nothing else. -/
theorem readNumeral_eq_ok_iff {bound n : Nat} {cs : List Char} (hbound : 0 < bound) :
    readNumeral bound cs = .ok n ↔ Numeral cs n ∧ n < bound := by
  unfold readNumeral
  split
  · exact iff_of_false (by simp) fun h => h.1.ne_nil rfl
  · exact iff_of_false (by simp) fun h => (numeral_plus_iff.mp h.1).1 rfl
  · next rest hrest =>
    have hgiven : rest ≠ [] := fun hnil => hrest (by rw [hnil])
    rw [readDigits_eq_ok_iff hbound, numeral_plus_iff, and_assoc, and_assoc]
    exact (and_iff_right hgiven).symm
  · next hempty _ hplus =>
    rw [readDigits_eq_ok_iff hbound, ← and_assoc]
    refine and_congr_left fun _ => ?_
    cases cs with
    | nil => exact absurd rfl hempty
    | cons c rest =>
        constructor
        · rintro ⟨ascii, rfl⟩
          exact .plain (List.cons_ne_nil c rest) ascii
        · intro h
          exact h.of_ne_plus fun hc => hplus rest (by rw [hc])

theorem numeral_toString (n : Nat) : Numeral (toString n).toList n := by
  have hdigits : (toString n).toList = Nat.toDigits 10 n := Nat.toList_repr
  have hvalue : Nat.ofDigitChars 10 (Nat.toDigits 10 n) 0 = n := Nat.ofDigitChars_ten_toDigits
  have hnumeral : Numeral (Nat.toDigits 10 n) (Nat.ofDigitChars 10 (Nat.toDigits 10 n) 0) :=
    .plain Nat.toDigits_ne_nil fun c hc => Nat.isDigit_of_mem_toDigits (by decide) (by decide) hc
  rw [hdigits]
  rwa [hvalue] at hnumeral

/-! ## Trimming -/

/-- The piece is the core with blanks on either side. -/
def Padded (piece core : List Char) : Prop :=
  ∃ left right, piece = left ++ core ++ right ∧
    (∀ c ∈ left, isBlank c = true) ∧ ∀ c ∈ right, isBlank c = true

theorem padded_trimLeft (cs : List Char) :
    ∃ left, cs = left ++ trimLeft cs ∧ ∀ c ∈ left, isBlank c = true :=
  ⟨cs.takeWhile isBlank, List.takeWhile_append_dropWhile.symm, fun _ => List.mem_takeWhile_imp⟩

theorem padded_trim (cs : List Char) : Padded cs (trim cs) := by
  obtain ⟨left, hleft, hblank⟩ := padded_trimLeft cs
  obtain ⟨right, hright, hblank'⟩ := padded_trimLeft (trimLeft cs).reverse
  refine ⟨left, right.reverse, ?_, hblank, fun c hc => hblank' c (List.mem_reverse.mp hc)⟩
  have hcore : trimLeft cs = trim cs ++ right.reverse := by
    rw [← List.reverse_reverse (trimLeft cs), hright, List.reverse_append]
    rfl
  rw [List.append_assoc, ← hcore]
  exact hleft

theorem trimLeft_append {left rest : List Char} (blank : ∀ c ∈ left, isBlank c = true) :
    trimLeft (left ++ rest) = trimLeft rest :=
  List.dropWhile_append_of_pos blank

theorem trimLeft_of_not_blank {core rest : List Char} (given : core ≠ [])
    (solid : ∀ c ∈ core, isBlank c = false) : trimLeft (core ++ rest) = core ++ rest := by
  cases core with
  | nil => exact absurd rfl given
  | cons c core => exact List.dropWhile_cons_of_neg (by simp [solid c List.mem_cons_self])

theorem trim_padded {piece core : List Char} (h : Padded piece core) (given : core ≠ [])
    (solid : ∀ c ∈ core, isBlank c = false) : trim piece = core := by
  obtain ⟨left, right, rfl, hleft, hright⟩ := h
  have hright : ∀ c ∈ right.reverse, isBlank c = true := fun c hc =>
    hright c (List.mem_reverse.mp hc)
  have hsolid : ∀ c ∈ core.reverse, isBlank c = false := fun c hc =>
    solid c (List.mem_reverse.mp hc)
  have hgiven : core.reverse ≠ [] := fun h => given (List.reverse_eq_nil_iff.mp h)
  have hkept : trimLeft (core.reverse ++ []) = core.reverse ++ [] :=
    trimLeft_of_not_blank hgiven hsolid
  rw [List.append_nil] at hkept
  unfold trim
  rw [List.append_assoc, trimLeft_append hleft, trimLeft_of_not_blank given solid,
    List.reverse_append, trimLeft_append hright, hkept, List.reverse_reverse]

theorem not_isBlank_of_isDigit {c : Char} (h : c.isDigit = true) : isBlank c = false := by
  have hrange : 48 ≤ c.toNat ∧ c.toNat ≤ 57 := by
    simpa [Char.isDigit, UInt32.le_iff_toNat_le] using h
  unfold isBlank
  simp
  omega

theorem Numeral.not_blank {cs : List Char} {n : Nat} (h : Numeral cs n) :
    ∀ c ∈ cs, isBlank c = false := by
  cases h with
  | plain _ ascii => exact fun c hc => not_isBlank_of_isDigit (ascii c hc)
  | signed _ ascii =>
      refine List.forall_mem_cons.mpr ⟨by decide, fun c hc => ?_⟩
      exact not_isBlank_of_isDigit (ascii c hc)

theorem Numeral.dash_not_mem {cs : List Char} {n : Nat} (h : Numeral cs n) : '-' ∉ cs := by
  cases h with
  | plain _ ascii => exact fun hdash => absurd (ascii '-' hdash) (by decide)
  | signed _ ascii =>
      rw [List.mem_cons, not_or]
      exact ⟨by decide, fun hdash => absurd (ascii '-' hdash) (by decide)⟩

end Text

namespace Window

/-! ## Pieces and windows -/

/-- The piece is a numeral of the position between blanks. -/
def PieceOf (piece : List Char) (position : Nat) : Prop :=
  ∃ numeral, Text.Padded piece numeral ∧ Text.Numeral numeral position

/-- The first dash of the text stands between pieces of the two positions. -/
def Spelled (text : String) (first last : Nat) : Prop :=
  ∃ before after, text.toList = before ++ '-' :: after ∧ '-' ∉ before ∧
    PieceOf before first ∧ PieceOf after last

theorem parsePosition_eq_ok_iff {piece : List Char} {n : Nat} :
    parsePosition piece = .ok n ↔ PieceOf piece n ∧ n < UInt64.size := by
  have hbound : 0 < positionBound := by decide
  unfold parsePosition
  rw [Text.readNumeral_eq_ok_iff hbound]
  refine and_congr_left fun _ => ?_
  constructor
  · intro h
    exact ⟨_, Text.padded_trim piece, h⟩
  · rintro ⟨numeral, hpadded, h⟩
    rwa [Text.trim_padded hpadded h.ne_nil h.not_blank]

/-- What is read when the first dash stands between the pieces. -/
theorem parse_divided {text : String} {before after : List Char}
    (divided : text.toList = before ++ '-' :: after) (firstDash : '-' ∉ before) :
    parse text = do
      let first ← (parsePosition before).mapError (.badFirst (String.ofList before))
      let last ← (parsePosition after).mapError (.badLast (String.ofList after))
      if last < first then .error (.inverted first last)
      else return ⟨UInt64.ofNat first, UInt64.ofNat last⟩ := by
  have hpass : ∀ c ∈ before, (c != '-') = true := by
    intro c hc
    simpa using fun heq : c = '-' => firstDash (heq ▸ hc)
  have htake : (before ++ '-' :: after).takeWhile (· != '-') = before := by
    rw [List.takeWhile_append_of_pos hpass, List.takeWhile_cons_of_neg (by simp), List.append_nil]
  have hdrop : (before ++ '-' :: after).dropWhile (· != '-') = '-' :: after := by
    rw [List.dropWhile_append_of_pos hpass, List.dropWhile_cons_of_neg (by simp)]
  unfold parse
  rw [divided]
  dsimp only
  rw [htake, hdrop]

theorem parse_undivided {text : String} (h : '-' ∉ text.toList) :
    parse text = .error (.noDash text) := by
  have hdrop : text.toList.dropWhile (· != '-') = [] := by
    refine List.dropWhile_eq_nil_iff.mpr fun c hc => ?_
    simpa using fun heq : c = '-' => h (heq ▸ hc)
  unfold parse
  dsimp only
  rw [hdrop]

theorem parse_eq_ok_iff {text : String} {w : Window} :
    parse text = .ok w ↔ Spelled text w.first.toNat w.last.toNat ∧ w.first ≤ w.last := by
  constructor
  · intro h
    by_cases hdash : '-' ∈ text.toList
    · obtain ⟨before, after, hdivided, hfirst⟩ := List.eq_append_cons_of_mem hdash
      rw [parse_divided hdivided hfirst] at h
      cases hbefore : parsePosition before with
      | error fault => simp [hbefore, Except.mapError, bind, Except.bind] at h
      | ok first =>
          cases hafter : parsePosition after with
          | error fault => simp [hbefore, hafter, Except.mapError, bind, Except.bind] at h
          | ok last =>
              simp only [hbefore, hafter, Except.mapError, bind, Except.bind] at h
              obtain ⟨hpiece, hsmall⟩ := parsePosition_eq_ok_iff.mp hbefore
              obtain ⟨hpiece', hsmall'⟩ := parsePosition_eq_ok_iff.mp hafter
              split at h
              · contradiction
              · next hle =>
                cases h
                rw [UInt64.le_iff_toNat_le, UInt64.toNat_ofNat_of_lt' hsmall,
                  UInt64.toNat_ofNat_of_lt' hsmall']
                exact ⟨⟨before, after, hdivided, hfirst, hpiece, hpiece'⟩, Nat.not_lt.mp hle⟩
    · rw [parse_undivided hdash] at h
      contradiction
  · rintro ⟨⟨before, after, hdivided, hfirst, hpiece, hpiece'⟩, hle⟩
    have hbefore := parsePosition_eq_ok_iff.mpr ⟨hpiece, w.first.toNat_lt⟩
    have hafter := parsePosition_eq_ok_iff.mpr ⟨hpiece', w.last.toNat_lt⟩
    have hupright : ¬w.last.toNat < w.first.toNat :=
      Nat.not_lt.mpr (UInt64.le_iff_toNat_le.mp hle)
    rw [parse_divided hdivided hfirst, hbefore, hafter]
    simp only [Except.mapError, bind, Except.bind, if_neg hupright, UInt64.ofNat_toNat]
    rfl

theorem exists_parse_iff {text : String} {first last : Nat} :
    (∃ w, parse text = .ok w ∧ w.first.toNat = first ∧ w.last.toNat = last) ↔
      Spelled text first last ∧ first < UInt64.size ∧ last < UInt64.size ∧ first ≤ last := by
  constructor
  · rintro ⟨w, hw, rfl, rfl⟩
    obtain ⟨hspelled, hle⟩ := parse_eq_ok_iff.mp hw
    exact ⟨hspelled, w.first.toNat_lt, w.last.toNat_lt, UInt64.le_iff_toNat_le.mp hle⟩
  · rintro ⟨hspelled, hfirst, hlast, hle⟩
    have htoNat := UInt64.toNat_ofNat_of_lt' hfirst
    have htoNat' := UInt64.toNat_ofNat_of_lt' hlast
    refine ⟨⟨UInt64.ofNat first, UInt64.ofNat last⟩, parse_eq_ok_iff.mpr ?_, htoNat, htoNat'⟩
    rw [UInt64.le_iff_toNat_le, htoNat, htoNat']
    exact ⟨hspelled, hle⟩

theorem exists_error_iff {text : String} :
    (∃ fault, parse text = .error fault) ↔
      ∀ first last, Spelled text first last →
        ¬(first < UInt64.size ∧ last < UInt64.size ∧ first ≤ last) := by
  constructor
  · rintro ⟨fault, hfault⟩ first last hspelled hfits
    obtain ⟨w, hw, -⟩ := exists_parse_iff.mpr ⟨hspelled, hfits⟩
    rw [hfault] at hw
    contradiction
  · intro hnone
    cases hparse : parse text with
    | error fault => exact ⟨fault, rfl⟩
    | ok w =>
        obtain ⟨hspelled, hfits⟩ := exists_parse_iff.mp ⟨w, hparse, rfl, rfl⟩
        exact absurd hfits (hnone _ _ hspelled)

/-! ## Windows that are written -/

/-- The decimal texts of both ends, each between blanks. -/
def spelling (w : Window) (outer inner inner' outer' : List Char) : String :=
  String.ofList (outer ++ (toString w.first.toNat).toList ++ inner ++
    '-' :: (inner' ++ (toString w.last.toNat).toList ++ outer'))

theorem spelled_spelling (w : Window) {outer inner inner' outer' : List Char}
    (blank : ∀ c ∈ outer ++ inner ++ inner' ++ outer', Text.isBlank c = true) :
    Spelled (w.spelling outer inner inner' outer') w.first.toNat w.last.toNat := by
  simp only [List.mem_append, or_imp, forall_and] at blank
  obtain ⟨⟨⟨houter, hinner⟩, hinner'⟩, houter'⟩ := blank
  have hfirst := Text.numeral_toString w.first.toNat
  have hlast := Text.numeral_toString w.last.toNat
  have hdash : Text.isBlank '-' = false := by decide
  refine ⟨outer ++ (toString w.first.toNat).toList ++ inner,
    inner' ++ (toString w.last.toNat).toList ++ outer', String.toList_ofList, ?_,
    ⟨_, ⟨outer, inner, rfl, houter, hinner⟩, hfirst⟩,
    ⟨_, ⟨inner', outer', rfl, hinner', houter'⟩, hlast⟩⟩
  rw [List.mem_append, List.mem_append]
  rintro ((h | h) | h)
  · simp [houter _ h] at hdash
  · exact hfirst.dash_not_mem h
  · simp [hinner _ h] at hdash

/--
A text is read as a window exactly when its first dash stands between two numerals, each between
blanks, whose values fit a word and do not descend, and it is read as the window of these values;
every other text is refused. So a window that is written in decimal, with any blanks about its
numbers, is read back.
-/
theorem parse_accepts_exactly_windows :
    (∀ (text : String) (first last : Nat),
      (∃ w, parse text = .ok w ∧ w.first.toNat = first ∧ w.last.toNat = last) ↔
        Spelled text first last ∧ first < UInt64.size ∧ last < UInt64.size ∧ first ≤ last) ∧
      (∀ text : String, (∃ fault, parse text = .error fault) ↔
        ∀ first last, Spelled text first last →
          ¬(first < UInt64.size ∧ last < UInt64.size ∧ first ≤ last)) ∧
      ∀ w : Window, w.first ≤ w.last → ∀ outer inner inner' outer' : List Char,
        (∀ c ∈ outer ++ inner ++ inner' ++ outer', Text.isBlank c = true) →
          parse (w.spelling outer inner inner' outer') = .ok w := by
  refine ⟨fun _ _ _ => exists_parse_iff, fun _ => exists_error_iff, ?_⟩
  intro w hle outer inner inner' outer' blank
  exact parse_eq_ok_iff.mpr ⟨w.spelled_spelling blank, hle⟩

example : parse " +007\t- 9" = .ok ⟨7, 9⟩ := by decide +kernel

end Window

end SlidingSync
