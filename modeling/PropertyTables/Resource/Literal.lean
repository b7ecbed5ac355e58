import PropertyTables.Resource.Basic

/-!
# Resource literals

A resource is written `TYPE_HEX` or as a hexadecimal number, with or without `0x`. Its number
has to fit a width between 8 and 64 bits.
-/

namespace PropertyTables

open Text

/-- Whether a number width is one that resource numbers can be held to. -/
def isResourceWidth (bits : Nat) : Bool := 8 ≤ bits && bits ≤ 64

/-- Why a text is not a resource. -/
inductive LiteralFault
  | width (bits : Nat)
  | unknownType (name : String)
  | malformed
  | overflow (bits : Nat)
deriving DecidableEq, Repr

/-- A literal taken apart: the name of the type, if it has one, and the digits. -/
structure Literal where
  typeName : Option String
  digits : List Char
deriving DecidableEq, Repr

namespace Literal

def typed? (cs : List Char) : Option Literal :=
  match cs.takeWhile Char.isUpper, cs.dropWhile Char.isUpper with
  | c :: name, '_' :: digits =>
    if Hex.isNumber digits then some ⟨some (String.ofList (c :: name)), digits⟩ else none
  | _, _ => none

def untyped? (cs : List Char) : Option Literal :=
  let digits := match cs with
    | '0' :: 'x' :: digits => digits
    | '0' :: 'X' :: digits => digits
    | digits => digits
  if Hex.isNumber digits then some ⟨none, digits⟩ else none

def ofChars? (cs : List Char) : Option Literal := typed? cs <|> untyped? cs

/-- The type of a given name, if there is a name. -/
def resolveType : Option String → Except LiteralFault (Option ResourceType)
  | none => .ok none
  | some name =>
    match ResourceType.ofName? name with
    | some type => .ok (some type)
    | none => .error (.unknownType name)

/-- The resource a literal denotes, when its number has no digit past `bits`. -/
def toResource (l : Literal) (bits : Nat) : Except LiteralFault ResourceId := do
  let type ← resolveType l.typeName
  if Hex.value l.digits >>> bits = 0 then .ok ⟨type, UInt64.ofNat (Hex.value l.digits)⟩
  else .error (.overflow bits)

end Literal

/-- Reads a resource whose number has at most `bits` bits. -/
def ResourceId.parse (value : String) (bits : Nat) : Except LiteralFault ResourceId :=
  if isResourceWidth bits then
    match Literal.ofChars? value.toList with
    | some literal => literal.toResource bits
    | none => .error .malformed
  else .error (.width bits)

end PropertyTables
