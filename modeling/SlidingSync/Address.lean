import SlidingSync.Json.Reader

/-!
# Internet addresses in server names

The textual form of IPv6 addresses: up to eight groups of at most four hexadecimal digits, one run
of zero groups written as two colons, and an IPv4 address in place of the last two groups. Only
the form matters, so nothing is computed.
-/

namespace SlidingSync.Address

/-- The text after one decimal part of an IPv4 address: at most 255, no leading zero. -/
def afterOctet (cs : List Char) : Option (List Char) :=
  let (digits, rest) := Json.digitsOf cs
  let value := Json.exponentValue digits
  if digits.isEmpty || 3 < digits.length || 255 < value
      || (digits.head? == some '0' && digits.length != 1) then none
  else some rest

/-- The text after `parts` octets, each but the first behind a dot. -/
def afterOctets : Nat → Bool → List Char → Option (List Char)
  | 0, _, cs => some cs
  | parts + 1, first, cs =>
      match first, cs with
      | true, cs => (afterOctet cs).bind (afterOctets parts false)
      | false, '.' :: cs => (afterOctet cs).bind (afterOctets parts false)
      | false, _ => none

def afterGroup (cs : List Char) : Option (List Char) :=
  let isHex (c : Char) := (Json.hexValue? c).isSome
  let digits := cs.takeWhile isHex
  if digits.isEmpty || 4 < digits.length then none else some (cs.dropWhile isHex)

/-- Groups read from a text, whether the last two were an IPv4 address, and the text after them. -/
structure Groups where
  count : Nat
  endsInIPv4 : Bool
  rest : List Char

/-- As many groups as the text has, at most `room`, each but the `first` behind a colon. -/
def readGroups : Nat → Bool → List Char → Groups
  | 0, _, cs => ⟨0, false, cs⟩
  | room + 1, first, cs =>
      let body :=
        match first, cs with
        | true, cs => some cs
        | false, ':' :: cs => some cs
        | false, _ => none
      match body with
      | none => ⟨0, false, cs⟩
      | some body =>
          match if 1 ≤ room then afterOctets 4 true body else none with
          | some rest => ⟨2, true, rest⟩
          | none =>
              match afterGroup body with
              | none => ⟨0, false, cs⟩
              | some rest =>
                  let more := readGroups room false rest
                  ⟨more.count + 1, more.endsInIPv4, more.rest⟩

def isIPv6 (cs : List Char) : Bool :=
  let head := readGroups 8 true cs
  if head.count = 8 then head.rest.isEmpty
  else if head.endsInIPv4 then false
  else
    match head.rest with
    | ':' :: ':' :: cs => (readGroups (7 - head.count) true cs).rest.isEmpty
    | _ => false

end SlidingSync.Address
