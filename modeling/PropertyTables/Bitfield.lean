import PropertyTables.Total

/-!
# Bitfields

One bit per property, eight to a byte, the first bit in the lowest place. The bits after the last
property are zero, so the bytes and the count of bits determine each other's meaning.
-/

namespace PropertyTables

/-- The number whose binary digits are `bits`, lowest first. -/
def Bits.value : List Bool → Nat
  | [] => 0
  | bit :: bits => bit.toNat + 2 * value bits

structure Bitfield where
  bytes : List UInt8
  length : Nat
deriving DecidableEq, Repr

namespace Bitfield

/-- How many bytes hold `length` bits. -/
def byteLength (length : Nat) : Nat := (length + 7) / 8

/-- The bytes of a list of bits. -/
def packBytes : List Bool → List UInt8
  | [] => []
  | bit :: bits =>
    UInt8.ofNat (Bits.value (bit :: bits.take 7)) :: packBytes (bits.drop 7)
termination_by bits => bits.length
decreasing_by
  simp only [List.length_drop, List.length_cons]
  omega

def pack (bits : List Bool) : Bitfield := ⟨packBytes bits, bits.length⟩

/-- Whether no bit is set in `last` from place `length % 8` on, when that place is inside it. -/
def paddingClear (length : Nat) (last : UInt8) : Bool :=
  length % 8 = 0 || last.toNat >>> (length % 8) = 0

/-- Reads a bitfield back: the bytes are as many as `length` needs and the padding is clear. -/
def ofBytes? (bytes : List UInt8) (length : Nat) : Option Bitfield :=
  if bytes.length = byteLength length ∧ bytes.getLast?.all (paddingClear length) then
    some ⟨bytes, length⟩
  else none

/-- The bit of one property; false past the end. -/
def get (b : Bitfield) (i : Nat) : Bool :=
  i < b.length && (b.bytes[i / 8]?.getD 0).toNat.testBit (i % 8)

def unpack (b : Bitfield) : List Bool := (List.range b.length).map b.get

def isEmpty (b : Bitfield) : Bool := b.length = 0

/-- Whether some bit is set. -/
def any (b : Bitfield) : Bool := b.bytes.any (· ≠ 0)

/-- How many bits of a byte are set. -/
def onesOfByte (byte : UInt8) : Nat := (List.range 8).countP byte.toNat.testBit

def countOnes (b : Bitfield) : Nat := total onesOfByte b.bytes

end Bitfield

end PropertyTables
