/-!
# Binary floating point numbers in documents

Numbers with a fraction or an exponent are carried as 64-bit binary floating point numbers. This
module reads them from a significand and a decimal exponent and writes them with the fewest digits
that read back, all in exact integer arithmetic. Nothing else is computed with them.
-/

namespace SlidingSync

/--
A finite binary floating point number, `mantissa * 2 ^ exponent` with a sign.
The mantissa has 53 bits, or fewer at the least exponent.
-/
structure Binary64 where
  negative : Bool
  mantissa : Nat
  exponent : Int
  deriving DecidableEq, Repr

namespace Binary64

def minExponent : Int :=
  -1074

def maxExponent : Int :=
  971

def leastMantissa : Nat :=
  Nat.pow 2 52

structure Magnitude where
  mantissa : Nat
  exponent : Int
  deriving DecidableEq, Repr

def Magnitude.zero : Magnitude :=
  ⟨0, minExponent⟩

/-- `num / den * 2 ^ e` as a fraction of naturals. -/
def scale (num den : Nat) (e : Int) : Nat × Nat :=
  if 0 ≤ e then (num * Nat.pow 2 e.toNat, den) else (num, den * Nat.pow 2 (-e).toNat)

/-- The quotient rounded to the nearest integer, a half to the even neighbour. -/
def roundDiv (num den : Nat) : Nat :=
  let q := num / den
  let r := num % den
  if 2 * r < den then q
  else if den < 2 * r then q + 1
  else if q % 2 = 0 then q else q + 1

/-- The nearest magnitude to `num / den * 2 ^ e`; none when it is too large to be finite. -/
def nearest (num den : Nat) (e : Int) : Option Magnitude :=
  if num = 0 then some .zero
  else
    let frac := scale num den e
    let guess : Int := (Nat.log2 frac.1 : Int) - Nat.log2 frac.2 - 52
    let first := scale frac.1 frac.2 (-guess)
    let fitted := if first.1 / first.2 < leastMantissa then guess - 1 else guess
    let shift := max fitted minExponent
    let final := scale frac.1 frac.2 (-shift)
    let m := roundDiv final.1 final.2
    let result : Magnitude :=
      if m = 2 * leastMantissa then ⟨leastMantissa, shift + 1⟩ else ⟨m, shift⟩
    if result.exponent ≤ maxExponent then some result else none

def Magnitude.mul (a b : Magnitude) : Option Magnitude :=
  nearest (a.mantissa * b.mantissa) 1 (a.exponent + b.exponent)

def Magnitude.div (a b : Magnitude) : Option Magnitude :=
  nearest a.mantissa b.mantissa (a.exponent - b.exponent)

/-- The power of ten nearest to which a significand is scaled in one step. -/
def powerOfTen (k : Nat) : Magnitude :=
  (nearest (Nat.pow 10 k) 1 0).getD .zero

/--
`f * 10 ^ exponent`, scaled by one power of ten up to `10 ^ 308` after as many
divisions by `10 ^ 308` as bring the exponent into reach. None is too large.
-/
def scaleDecimal (f : Magnitude) (exponent : Int) : Nat → Option Magnitude
  | 0 => some .zero
  | steps + 1 =>
      if exponent.natAbs ≤ 308 then
        if 0 ≤ exponent then f.mul (powerOfTen exponent.natAbs)
        else f.div (powerOfTen exponent.natAbs)
      else if f.mantissa = 0 then some f
      else if 0 ≤ exponent then none
      else
        match f.div (powerOfTen 308) with
        | some smaller => scaleDecimal smaller (exponent + 308) steps
        | none => none

/--
The number with this sign, significand and decimal exponent. A significand
below `2 ^ 64` is nought after two divisions by `10 ^ 308`, so four steps are
enough.
-/
def ofDecimal (negative : Bool) (significand : Nat) (exponent : Int) : Option Binary64 := do
  let f ← nearest significand 1 0
  let scaled ← scaleDecimal f exponent 4
  return ⟨negative, scaled.mantissa, scaled.exponent⟩

/-- `num / den * 10 ^ e` as a fraction of naturals. -/
def scaleTen (num den : Nat) (e : Int) : Nat × Nat :=
  if 0 ≤ e then (num * Nat.pow 10 e.toNat, den) else (num, den * Nat.pow 10 (-e).toNat)

/-- First `p` from `start` on with `num / den < 10 ^ p`, looked for in `steps` steps. -/
def digitsBefore (num den : Nat) (start : Int) : Nat → Int
  | 0 => start
  | steps + 1 =>
      let bound := scaleTen 1 1 start
      if num * bound.2 < bound.1 * den then start
      else digitsBefore num den (start + 1) steps

/--
The point of the decimal grid with spacing `10 ^ place` that is nearest to the
number among those that read back as it, when there is one. The numbers that
read back are those between half the gaps to the two neighbours, ends
included for an even mantissa.
-/
def gridPoint? (mantissa : Nat) (exponent : Int) (place : Int) : Option Nat :=
  let below := if mantissa = leastMantissa && minExponent < exponent then 1 else 2
  let unit := scale 1 1 (exponent - 2)
  let grid := scaleTen 1 1 place
  let value := 4 * mantissa * unit.1 * grid.2
  let low := (4 * mantissa - below) * unit.1 * grid.2
  let high := (4 * mantissa + 2) * unit.1 * grid.2
  let spacing := grid.1 * unit.2
  let even := mantissa % 2 = 0
  let reads (point : Nat) : Bool :=
    let p := point * spacing
    if even then low ≤ p && p ≤ high else low < p && p < high
  let down := value / spacing
  let up := down + 1
  match reads down, reads up with
  | true, true =>
      let toDown := value - down * spacing
      let toUp := up * spacing - value
      if toDown < toUp then some down
      else if toUp < toDown then some up
      else if down % 2 = 0 then some down else some up
  | true, false => some down
  | false, true => some up
  | false, false => none

/-- The first grid with a point that reads back, from coarse to fine. -/
def shortestFrom (mantissa : Nat) (exponent : Int) (place : Int) : Nat → Nat × Int
  | 0 => (0, place)
  | steps + 1 =>
      match gridPoint? mantissa exponent place with
      | some point => (point, place)
      | none => shortestFrom mantissa exponent (place - 1) steps

/-- The digits of a nonzero number and the power of ten they are multiplied by. -/
def shortest (mantissa : Nat) (exponent : Int) : Nat × Int :=
  let value := scale mantissa 1 exponent
  let log : Int := (Nat.log2 mantissa : Int) + exponent
  let before := digitsBefore value.1 value.2 (log * 30103 / 100000 - 1) 4
  shortestFrom mantissa exponent (before - 1) 18

def dropZeros (digits : Nat) (place : Int) : Nat → Nat × Int
  | 0 => (digits, place)
  | steps + 1 =>
      if digits % 10 = 0 then dropZeros (digits / 10) (place + 1) steps else (digits, place)

/-- Text of the digits, positional from `10 ^ -5` up to `10 ^ 16`, else with an exponent. -/
def layOut (digits : Nat) (place : Int) : String :=
  let ds := (toString digits).toList
  let n : Int := ds.length
  let point := n + place
  let zeros (k : Int) : List Char := List.replicate k.toNat '0'
  let text :=
    if 0 ≤ place && point ≤ 16 then ds ++ zeros place ++ ['.', '0']
    else if 0 < point && point ≤ 16 then ds.take point.toNat ++ '.' :: ds.drop point.toNat
    else if -5 < point && point ≤ 0 then '0' :: '.' :: zeros (-point) ++ ds
    else
      let fraction := if ds.length = 1 then [] else '.' :: ds.drop 1
      ds.take 1 ++ fraction ++ 'e' :: (toString (point - 1)).toList
  String.ofList text

/-- The number with the fewest digits that read back, never without a point or an exponent. -/
def text (x : Binary64) : String :=
  let sign := if x.negative then "-" else ""
  if x.mantissa = 0 then sign ++ "0.0"
  else
    let raw := shortest x.mantissa x.exponent
    let kept := dropZeros raw.1 raw.2 20
    sign ++ layOut kept.1 kept.2

end Binary64

end SlidingSync
