/-!
# Hexadecimal numbers

Digits of either case are read; the writer is told which case to use. `value` is the number a
list of digits denotes, `fixed` writes a number with a given count of digits.
-/

namespace PropertyTables.Text.Hex

/-- The letters that stand for ten to fifteen. -/
inductive Letters
  | small
  | capital
deriving DecidableEq, Repr

def Letters.first : Letters → Nat
  | .small => 97
  | .capital => 65

def digit (letters : Letters) (n : Nat) : Char :=
  Char.ofNat (if n < 10 then 48 + n else letters.first + (n - 10))

def digit? (c : Char) : Option Nat :=
  let n := c.toNat
  if 48 ≤ n ∧ n ≤ 57 then some (n - 48)
  else if 97 ≤ n ∧ n ≤ 102 then some (n - 97 + 10)
  else if 65 ≤ n ∧ n ≤ 70 then some (n - 65 + 10)
  else none

def isDigit (c : Char) : Bool := (digit? c).isSome

/-- A number is written with at least one digit. -/
def isNumber (cs : List Char) : Bool := !cs.isEmpty && cs.all isDigit

def value (cs : List Char) : Nat := cs.foldl (fun n c => n * 16 + (digit? c).getD 0) 0

/-- The last `width` digits of `n`, leading zeros included. -/
def fixed (letters : Letters) : Nat → Nat → List Char
  | 0, _ => []
  | width + 1, n => fixed letters width (n / 16) ++ [digit letters (n % 16)]

/-- As many digits of `n` as it needs. -/
def shortest (n : Nat) : List Char := Nat.toDigits 16 n

@[simp] theorem length_fixed (letters : Letters) (width n : Nat) :
    (fixed letters width n).length = width := by
  induction width generalizing n with
  | zero => rfl
  | succ width ih => simp [fixed, ih]

end PropertyTables.Text.Hex
