import PropertyTables.Text.Hex

/-!
# Resource identifiers

A resource is a 64-bit number with or without a type. It has a byte form, big-endian with the
type in front, and two texts: the number as a literal, and the number under its type's name.
-/

namespace PropertyTables

open Text

inductive ResourceType
  | device
  | user
  | account
  | area
  | fixture
  | group
  | note
  | site
  | guest
deriving DecidableEq, Repr

namespace ResourceType

def all : List ResourceType :=
  [.device, .user, .account, .area, .fixture, .group, .note, .site, .guest]

def name : ResourceType → String
  | .device => "DEVICE"
  | .user => "USER"
  | .account => "ACCOUNT"
  | .area => "AREA"
  | .fixture => "FIXTURE"
  | .group => "GROUP"
  | .note => "ANNOTATION"
  | .site => "STRUCTURE"
  | .guest => "GUEST"

def code : ResourceType → UInt16
  | .device => 1
  | .user => 2
  | .account => 3
  | .area => 4
  | .fixture => 5
  | .group => 6
  | .note => 7
  | .site => 8
  | .guest => 9

def ofName? (name : String) : Option ResourceType := all.find? (·.name = name)

def ofCode? (code : UInt16) : Option ResourceType := all.find? (·.code = code)

theorem mem_all (t : ResourceType) : t ∈ all := by cases t <;> decide

@[simp] theorem ofName?_name (t : ResourceType) : ofName? t.name = some t := by
  cases t <;> decide

@[simp] theorem ofCode?_code (t : ResourceType) : ofCode? t.code = some t := by
  cases t <;> decide

end ResourceType

/-! ## Big-endian numbers -/

/-- The last `width` bytes of `n`, the highest first. -/
def bigEndian : Nat → Nat → List UInt8
  | 0, _ => []
  | width + 1, n => bigEndian width (n / 256) ++ [UInt8.ofNat n]

def ofBigEndian (bytes : List UInt8) : Nat := bytes.foldl (fun n b => n * 256 + b.toNat) 0

@[simp] theorem length_bigEndian (width n : Nat) : (bigEndian width n).length = width := by
  induction width generalizing n with
  | zero => rfl
  | succ width ih => simp [bigEndian, ih]

/-! ## Identifiers -/

structure ResourceId where
  type : Option ResourceType
  number : UInt64
deriving DecidableEq, Repr

namespace ResourceId

def numberBytes (id : ResourceId) : List UInt8 := bigEndian 8 id.number.toNat

def typeBytes (t : ResourceType) : List UInt8 := bigEndian 2 t.code.toNat

def toBytes (id : ResourceId) : List UInt8 :=
  (id.type.map typeBytes).getD [] ++ id.numberBytes

/-- Reads the byte form: eight bytes of number, after two bytes of type or none. -/
def ofBytes? (bytes : List UInt8) : Option ResourceId :=
  if bytes.length = 8 then
    some ⟨none, UInt64.ofNat (ofBigEndian bytes)⟩
  else if bytes.length = 10 then
    (ResourceType.ofCode? (UInt16.ofNat (ofBigEndian (bytes.take 2)))).map fun t =>
      ⟨some t, UInt64.ofNat (ofBigEndian (bytes.drop 2))⟩
  else none

/-- The number as a literal of sixteen digits. -/
def literal (id : ResourceId) : String :=
  "0x" ++ String.ofList (Hex.fixed .small 16 id.number.toNat)

/-- The number in capitals under the type's name, or as a literal when there is no type. -/
def display (id : ResourceId) : String :=
  (match id.type with
    | some t => t.name ++ "_"
    | none => "0x") ++ String.ofList (Hex.fixed .capital 16 id.number.toNat)

end ResourceId

end PropertyTables
