import SlidingSync.Text.CaseTable

/-!
# Lower case

Full lower-casing of a text. A character goes to its lower-case form on its own, with one
exception: a capital sigma that ends a word takes the final form. Which form it takes depends on
the cased characters around it, so lower-casing does not commute with cutting a text.
-/

namespace SlidingSync.Text

/-- Whether the character has upper, lower or title case and counts as a neighbour. -/
def isCased (c : Char) : Bool :=
  inIntervals casedIntervals c.toNat

/-- Whether the character is passed over when a neighbour is looked for. -/
def isCaseIgnorable (c : Char) : Bool :=
  inIntervals caseIgnorableIntervals c.toNat

/-- Lower-case form of one character without regard to its neighbours. -/
def lowerChar (c : Char) : List Char :=
  if c.toNat < 128 then [c.toLower]
  else if c = 'İ' then ['i', '\u0307']
  else
    match lowerRuns.find? (·.covers c.toNat) with
    | some run => [Char.ofNat ((c.toNat : Int) + run.shift).toNat]
    | none => [c]

/-- Whether the next character that is not passed over is cased. -/
def startsCased : List Char → Bool
  | [] => false
  | c :: rest => if isCaseIgnorable c then startsCased rest else isCased c

/--
Lower-case form of a text whose last character before it that is not passed over
was cased (`afterCased`) or not.
-/
def lowerFrom (afterCased : Bool) : List Char → List Char
  | [] => []
  | c :: rest =>
      let lowered :=
        if c = 'Σ' then
          if afterCased && !startsCased rest then ['ς'] else ['σ']
        else lowerChar c
      let nowCased := if isCaseIgnorable c then afterCased else isCased c
      lowered ++ lowerFrom nowCased rest

def lowercase (s : String) : String :=
  String.ofList (lowerFrom false s.toList)

def hasRun (part : List Char) : List Char → Bool
  | [] => part.isEmpty
  | c :: rest => part.isPrefixOf (c :: rest) || hasRun part rest

/-- Whether `part` occurs in `whole` as a run of neighbouring characters. -/
def occursIn (part whole : String) : Bool :=
  hasRun part.toList whole.toList

theorem hasRun_iff {part whole : List Char} : hasRun part whole = true ↔ part <:+: whole := by
  induction whole with
  | nil => simp [hasRun]
  | cons c rest ih => rw [hasRun, Bool.or_eq_true, List.isPrefixOf_iff_prefix, ih, List.infix_cons_iff]

theorem occursIn_iff {part whole : String} :
    occursIn part whole = true ↔ part.toList <:+: whole.toList :=
  hasRun_iff

end SlidingSync.Text
