import Mathlib.Algebra.Ring.Nat
import Mathlib.Data.List.Induction
import PropertyTables.Text.Hex

/-!
# Hexadecimal numerals

What a text of digits denotes, apart from how it is read: the last digit adds to sixteen times what
the digits before it denote. Reading agrees with this on every text, and what is written with a
fixed count of digits denotes the number that was written.

## Main definitions

* `Hex.StandsFor`: a character is the digit of a number.
* `Hex.Numeral`: a text denotes a number.
-/

namespace PropertyTables

/-- The last digit of a number, apart from those before it. -/
theorem mod_pow_succ_eq (base width n : Nat) :
    n % base ^ (width + 1) = base * (n / base % base ^ width) + n % base := by
  rw [Nat.pow_succ', Nat.mod_mul, Nat.add_comm]

namespace Text.Hex

/-- The sixteen digits in order. -/
def Letters.digits : Letters → List Char
  | .small => ['0', '1', '2', '3', '4', '5', '6', '7', '8', '9', 'a', 'b', 'c', 'd', 'e', 'f']
  | .capital => ['0', '1', '2', '3', '4', '5', '6', '7', '8', '9', 'A', 'B', 'C', 'D', 'E', 'F']

/-- A character is the digit of a number, in one of the two cases. -/
def StandsFor (c : Char) (d : Nat) : Prop := ∃ letters : Letters, letters.digits[d]? = some c

/-- A text of one digit or more denotes a number. -/
inductive Numeral : List Char → Nat → Prop
  | single {c : Char} {d : Nat} (digit : StandsFor c d) : Numeral [c] d
  | snoc {cs : List Char} {n : Nat} {c : Char} {d : Nat} (front : Numeral cs n)
    (last : StandsFor c d) : Numeral (cs ++ [c]) (16 * n + d)

variable {cs : List Char} {c : Char} {d n : Nat}

/-! ## Digits -/

theorem digit?_digit (letters : Letters) (small : d < 16) : digit? (digit letters d) = some d := by
  have all : ∀ d < 16, digit? (digit letters d) = some d := by
    cases letters <;> decide
  exact all d small

theorem getElem?_digits (letters : Letters) (small : d < 16) :
    letters.digits[d]? = some (digit letters d) := by
  have all : ∀ d < 16, letters.digits[d]? = some (digit letters d) := by
    cases letters <;> decide
  exact all d small

theorem length_digits (letters : Letters) : letters.digits.length = 16 := by
  cases letters <;> rfl

/-- Only the digits in the two cases are read. -/
theorem eq_digit_of_digit? (h : digit? c = some d) : d < 16 ∧ ∃ letters, c = digit letters d := by
  have code (k : Nat) (same : c.toNat = k) : c = Char.ofNat k := by
    rw [← same, Char.ofNat_toNat]
  simp only [digit?] at h
  split at h
  · cases h
    refine ⟨by omega, .small, code _ ?_⟩
    rw [if_pos (by omega)]
    omega
  · split at h
    · cases h
      refine ⟨by omega, .small, code _ ?_⟩
      rw [if_neg (by omega), Letters.first]
      omega
    · split at h
      · cases h
        refine ⟨by omega, .capital, code _ ?_⟩
        rw [if_neg (by omega), Letters.first]
        omega
      · cases h

theorem digit?_eq_some : digit? c = some d ↔ StandsFor c d := by
  constructor
  · intro h
    obtain ⟨small, letters, rfl⟩ := eq_digit_of_digit? h
    exact ⟨letters, getElem?_digits letters small⟩
  · rintro ⟨letters, place⟩
    obtain ⟨inside, -⟩ := List.getElem?_eq_some_iff.1 place
    rw [length_digits] at inside
    rw [getElem?_digits letters inside] at place
    cases place
    exact digit?_digit letters inside

theorem standsFor_digit (letters : Letters) (small : d < 16) : StandsFor (digit letters d) d :=
  digit?_eq_some.1 (digit?_digit letters small)

/-! ## Numerals -/

theorem value_concat (cs : List Char) (c : Char) :
    value (cs ++ [c]) = 16 * value cs + (digit? c).getD 0 := by
  simp [value, Nat.mul_comm]

theorem isNumber_concat : isNumber (cs ++ [c]) ↔ (cs = [] ∨ isNumber cs) ∧ isDigit c := by
  by_cases empty : cs = []
  · simp [isNumber, empty]
  · simp [isNumber, empty]

/-- A text denotes a number exactly when it is read as that number. -/
theorem numeral_iff : Numeral cs n ↔ isNumber cs ∧ value cs = n := by
  constructor
  · intro h
    induction h with
    | single digit =>
      have read := digit?_eq_some.2 digit
      simp [isNumber, isDigit, value, read]
    | snoc front last ih =>
      have read := digit?_eq_some.2 last
      rw [isNumber_concat, value_concat, ih.2, read, isDigit, read]
      exact ⟨⟨.inr ih.1, rfl⟩, rfl⟩
  · rintro ⟨number, rfl⟩
    induction cs using List.reverseRecOn with
    | nil => simp [isNumber] at number
    | append_singleton cs c ih =>
      obtain ⟨front, last⟩ := isNumber_concat.1 number
      obtain ⟨d, read⟩ := Option.isSome_iff_exists.1 last
      have digit := digit?_eq_some.1 read
      rw [value_concat, read, Option.getD_some]
      rcases front with rfl | front
      · simpa [value] using Numeral.single digit
      · exact (ih front).snoc digit

/-- The last digits of a number, leading zeros included, denote what is left of it. -/
theorem numeral_fixed (letters : Letters) (width n : Nat) :
    Numeral (fixed letters (width + 1) n) (n % 16 ^ (width + 1)) := by
  induction width generalizing n with
  | zero => simpa [fixed] using Numeral.single (standsFor_digit letters (Nat.mod_lt n (by decide)))
  | succ width ih =>
    have last : StandsFor (digit letters (n % 16)) (n % 16) :=
      standsFor_digit letters (Nat.mod_lt n (by decide))
    rw [mod_pow_succ_eq, fixed]
    exact (ih (n / 16)).snoc last

end Text.Hex

end PropertyTables
