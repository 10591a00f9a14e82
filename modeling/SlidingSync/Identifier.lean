import SlidingSync.Address
import SlidingSync.Text.Decimal

/-!
# Identifiers

Room IDs, user IDs and server names are texts that have passed a check. The check is part of each
type, so a room ID that was accepted once is accepted again unchanged (`RoomId.parse_text`).
Identifiers compare by their text.
-/

namespace SlidingSync

inductive IdentifierFault
  | tooLong
  | missingSigil
  | missingColon
  | badServerName
  deriving DecidableEq, Repr

def IdentifierFault.message : IdentifierFault → String
  | .tooLong => "ID exceeds 255 bytes"
  | .missingSigil => "leading sigil is incorrect or missing"
  | .missingColon => "required colon is missing"
  | .badServerName => "server name is not a valid IP address or domain name"

namespace ServerName

def isHostChar (c : Char) : Bool :=
  c.isAlphanum || c == '-' || c == '.'

/-- Whether a text is a port behind its colon, or nothing. -/
def isPort : List Char → Bool
  | [] => true
  | ':' :: digits => (Text.readNumeral 65536 digits).isOk
  | _ => false

/-- Whether the text is a host, with or without a port. -/
def isValid : List Char → Bool
  | [] => false
  | '[' :: rest =>
      let inner := rest.takeWhile (· != ']')
      match rest.dropWhile (· != ']') with
      | ']' :: port => Address.isIPv6 inner && isPort port
      | _ => false
  | cs => (cs.takeWhile (· != ':')).all isHostChar && isPort (cs.dropWhile (· != ':'))

def fault? (cs : List Char) : Option IdentifierFault :=
  if isValid cs then none else some .badServerName

end ServerName

/-- The fault that every identifier with this sigil can have. -/
def sigilFault? (sigil : Char) (text : String) : Option IdentifierFault :=
  if 255 < text.utf8ByteSize then some .tooLong
  else if text.toList.head? = some sigil then none
  else some .missingSigil

def RoomId.fault? (text : String) : Option IdentifierFault :=
  sigilFault? '!' text

def UserId.fault? (text : String) : Option IdentifierFault :=
  match sigilFault? '@' text with
  | some fault => some fault
  | none =>
      match text.toList.dropWhile (· != ':') with
      | ':' :: server => ServerName.fault? server
      | _ => some .missingColon

/-- A room: its sigil and at most 255 bytes in all. -/
structure RoomId where
  text : String
  accepted : RoomId.fault? text = none
  deriving DecidableEq

/-- A user: a sigil, a free local part, a colon and a server name. -/
structure UserId where
  text : String
  accepted : UserId.fault? text = none
  deriving DecidableEq

/-- A server: a host name, an address in brackets, either with a port. -/
structure ServerName where
  text : String
  accepted : ServerName.fault? text.toList = none
  deriving DecidableEq

namespace RoomId

def parse (text : String) : Except IdentifierFault RoomId :=
  match h : fault? text with
  | none => .ok ⟨text, h⟩
  | some fault => .error fault

theorem parse_text (room : RoomId) : parse room.text = .ok room := by
  unfold parse
  split
  · rfl
  · next h => simp [room.accepted] at h

theorem text_injective {a b : RoomId} (h : a.text = b.text) : a = b := by
  cases a; cases b; simp_all

instance : Ord RoomId :=
  ⟨fun a b => compare a.text b.text⟩

instance : Std.TransOrd RoomId where
  eq_swap {a b} := @Std.OrientedCmp.eq_swap String compare _ a.text b.text
  isLE_trans {a b c} := @Std.TransCmp.isLE_trans String compare _ a.text b.text c.text

instance : Std.LawfulEqOrd RoomId where
  eq_of_compare h := text_injective (Std.LawfulEqOrd.eq_of_compare (α := String) h)
  compare_self {a} := @Std.ReflCmp.compare_self String compare _ a.text

end RoomId

namespace UserId

def parse (text : String) : Except IdentifierFault UserId :=
  match h : fault? text with
  | none => .ok ⟨text, h⟩
  | some fault => .error fault

end UserId

namespace ServerName

def parse (text : String) : Except IdentifierFault ServerName :=
  match h : fault? text.toList with
  | none => .ok ⟨text, h⟩
  | some fault => .error fault

end ServerName

end SlidingSync
