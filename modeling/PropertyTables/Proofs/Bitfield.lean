import PropertyTables.Bitfield

/-!
# Bits by position

The bit of a position can be read back from the packed bytes, and the places after the last bit
are clear.
-/

namespace PropertyTables

theorem Bits.testBit_value (bits : List Bool) (i : Nat) :
    (Bits.value bits).testBit i = bits[i]?.getD false := by
  induction bits generalizing i with
  | nil => simp [value]
  | cons bit bits ih =>
    rw [value]
    cases i with
    | zero => cases bit <;> simp [Nat.add_mod]
    | succ i =>
      have half : (bit.toNat + 2 * value bits) / 2 = value bits := by
        cases bit <;> simp only [Bool.toNat_false, Bool.toNat_true] <;> omega
      rw [Nat.testBit_add_one, half, ih, List.getElem?_cons_succ]

namespace Bitfield

@[simp] theorem length_packBytes (bits : List Bool) :
    (packBytes bits).length = byteLength bits.length := by
  fun_induction packBytes bits with
  | case1 => rfl
  | case2 bit bits ih =>
    rw [List.length_cons, ih]
    simp only [byteLength, List.length_drop, List.length_cons]
    omega

/-- The place of position `i` holds bit `i`, and nothing when there is no such bit. The induction
takes eight bits at a time, as packing does. -/
theorem testBit_packBytes (bits : List Bool) (i : Nat) :
    ((packBytes bits)[i / 8]?.getD 0).toNat.testBit (i % 8) = bits[i]?.getD false := by
  fun_induction packBytes bits generalizing i with
  | case1 => simp
  | case2 bit bits ih =>
    by_cases first : i < 8
    · rw [Nat.div_eq_of_lt first, Nat.mod_eq_of_lt first, List.getElem?_cons_zero,
        Option.getD_some, UInt8.toNat_ofNat', Nat.testBit_mod_two_pow, Bits.testBit_value,
        ← List.take_succ_cons, List.getElem?_take_of_lt first]
      simp [first]
    · obtain ⟨k, rfl⟩ : ∃ k, i = k + 7 + 1 := ⟨i - 8, by omega⟩
      rw [show (k + 7 + 1) / 8 = k / 8 + 1 by omega, show (k + 7 + 1) % 8 = k % 8 by omega,
        List.getElem?_cons_succ, ih, List.getElem?_drop, List.getElem?_cons_succ, Nat.add_comm]

theorem testBit_of_getElem? {bits : List Bool} {i : Nat} {byte : UInt8}
    (h : (packBytes bits)[i / 8]? = some byte) :
    byte.toNat.testBit (i % 8) = bits[i]?.getD false := by
  rw [← testBit_packBytes, h, Option.getD_some]

theorem exists_getElem?_packBytes {bits : List Bool} {i : Nat} (h : i < bits.length) :
    ∃ byte, (packBytes bits)[i / 8]? = some byte := by
  refine ⟨_, List.getElem?_eq_getElem ?_⟩
  rw [length_packBytes, byteLength]
  omega

/-- A byte has eight bits. -/
theorem testBit_of_eight_le (byte : UInt8) {i : Nat} (h : 8 ≤ i) :
    byte.toNat.testBit i = false := by
  apply Nat.testBit_lt_two_pow
  exact Nat.lt_of_lt_of_le byte.toNat_lt (Nat.pow_le_pow_right (by decide) h)

theorem exists_testBit_of_ne_zero {byte : UInt8} (h : byte ≠ 0) :
    ∃ i < 8, byte.toNat.testBit i = true := by
  have : byte.toNat ≠ 0 := fun hzero => h (UInt8.toNat_inj.1 hzero)
  obtain ⟨i, hi⟩ := Nat.exists_testBit_of_ne_zero this
  refine ⟨i, Nat.lt_of_not_le fun large => ?_, hi⟩
  rw [testBit_of_eight_le byte large] at hi
  cases hi

/-- Some byte is not zero exactly when some bit is set. -/
theorem any_pack (bits : List Bool) : (pack bits).any = true ↔ true ∈ bits := by
  simp only [any, pack, List.any_eq_true, decide_eq_true_eq, List.mem_iff_getElem?]
  constructor
  · rintro ⟨byte, ⟨k, hk⟩, nonzero⟩
    obtain ⟨i, hi, set⟩ := exists_testBit_of_ne_zero nonzero
    refine ⟨8 * k + i, ?_⟩
    rw [show k = (8 * k + i) / 8 by omega] at hk
    have := testBit_of_getElem? hk
    rw [show (8 * k + i) % 8 = i by omega, set] at this
    grind
  · rintro ⟨i, hi⟩
    obtain ⟨byte, hbyte⟩ := exists_getElem?_packBytes (List.getElem?_eq_some_iff.1 hi).1
    refine ⟨byte, ⟨i / 8, hbyte⟩, ?_⟩
    rintro rfl
    simpa [hi] using testBit_of_getElem? hbyte

end Bitfield

end PropertyTables
