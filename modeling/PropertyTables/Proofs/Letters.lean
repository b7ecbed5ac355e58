import PropertyTables.Text.Casing

/-!
# Letters and digits of ASCII

The character classes as ranges of code points, and what changing the case of a character does to
them. In a text of ASCII characters case is changed character by character.

## Main definitions

* `Text.IsAscii`: a text of ASCII characters.
-/

namespace PropertyTables.Text

variable {c d : Char} {cs : List Char}

/-! ## Classes -/

theorem isLower_iff : d.isLower ↔ 97 ≤ d.toNat ∧ d.toNat ≤ 122 := by
  unfold Char.isLower
  simp [UInt32.le_iff_toNat_le, ← Char.toNat_val]

theorem isUpper_iff : d.isUpper ↔ 65 ≤ d.toNat ∧ d.toNat ≤ 90 := by
  unfold Char.isUpper
  simp [UInt32.le_iff_toNat_le, ← Char.toNat_val]

theorem isDigit_iff : d.isDigit ↔ 48 ≤ d.toNat ∧ d.toNat ≤ 57 := by
  unfold Char.isDigit
  simp [UInt32.le_iff_toNat_le, ← Char.toNat_val]

theorem isAlpha_iff : d.isAlpha ↔ 65 ≤ d.toNat ∧ d.toNat ≤ 90 ∨ 97 ≤ d.toNat ∧ d.toNat ≤ 122 := by
  unfold Char.isAlpha Char.isUpper
  simp [UInt32.le_iff_toNat_le, ← Char.toNat_val, isLower_iff]

theorem not_isUpper (h : c.isLower || c.isDigit) : ¬ c.isUpper := by
  simp only [Bool.or_eq_true, isLower_iff, isDigit_iff, isUpper_iff] at h ⊢
  omega

/-- The digits of other scripts are above ASCII. -/
theorem decimalDigits_start : decimalDigits.toList.all fun range => 0x80 ≤ range.1 := by
  decide +kernel

theorem isDecimalDigit_of_ascii (h : c.toNat < 0x80) : isDecimalDigit c = c.isDigit := by
  have outside : decimalDigits.contains c = false := by
    rw [CodePoints.contains, Array.any_eq_false']
    intro range listed
    have start := List.all_eq_true.1 decimalDigits_start range (Array.mem_def.1 listed)
    grind
  rw [isDecimalDigit, outside, Bool.or_false]

theorem isDecimalDigit_underscore : isDecimalDigit '_' = false := by
  rw [isDecimalDigit_of_ascii (by decide)]
  decide

/-! ## Case -/

theorem toNat_toUpper (c : Char) :
    c.toUpper.toNat = if c.isLower then c.toNat - 32 else c.toNat := by
  unfold Char.toUpper Char.isLower
  split <;> rename_i h
  · rw [if_pos (by simpa using h), ← Char.toNat_val, ← Char.toNat_val]
    simp [UInt32.le_iff_toNat_le] at h ⊢
    omega
  · rw [if_neg (by simpa using h)]

theorem toNat_toLower (c : Char) :
    c.toLower.toNat = if c.isUpper then c.toNat + 32 else c.toNat := by
  unfold Char.toLower Char.isUpper
  split <;> rename_i h
  · rw [if_pos (by simpa using h), ← Char.toNat_val, ← Char.toNat_val]
    simp [UInt32.le_iff_toNat_le] at h ⊢
    omega
  · rw [if_neg (by simpa using h)]

theorem not_isLower_toUpper (c : Char) : ¬ c.toUpper.isLower := by
  have image := toNat_toUpper c
  grind [isLower_iff]

theorem not_isUpper_toLower (c : Char) : ¬ c.toLower.isUpper := by
  have image := toNat_toLower c
  grind [isUpper_iff]

theorem isUpper_toUpper_iff : c.toUpper.isUpper ↔ c.isUpper ∨ c.isLower := by
  have image := toNat_toUpper c
  grind [isUpper_iff, isLower_iff]

theorem isUpper_toUpper (h : c.isLower) : c.toUpper.isUpper := isUpper_toUpper_iff.2 (.inr h)

theorem isDigit_toUpper (c : Char) : c.toUpper.isDigit = c.isDigit := by
  have image := toNat_toUpper c
  grind [isDigit_iff, isLower_iff]

theorem toUpper_eq_self (h : ¬ c.isLower) : c.toUpper = c := by
  rw [← Char.toNat_inj, toNat_toUpper, if_neg h]

theorem toLower_eq_self (h : ¬ c.isUpper) : c.toLower = c := by
  rw [← Char.toNat_inj, toNat_toLower, if_neg h]

theorem toLower_toUpper (h : c.isLower) : c.toUpper.toLower = c := by
  have range := isLower_iff.1 h
  rw [← Char.toNat_inj, toNat_toLower, if_pos (isUpper_toUpper h), toNat_toUpper, if_pos h]
  omega

theorem toUpper_toLower (c : Char) : c.toLower.toUpper = c.toUpper := by
  have image := toNat_toLower c
  rw [← Char.toNat_inj, toNat_toUpper, toNat_toUpper]
  grind [isUpper_iff, isLower_iff]

/-- What is no letter is its own form, and that of nothing else. -/
theorem toLower_eq_iff (h : ¬ d.isAlpha) : c.toLower = d ↔ c = d := by
  have image := toNat_toLower c
  rw [← Char.toNat_inj, ← Char.toNat_inj]
  grind [isAlpha_iff, isUpper_iff]

theorem toUpper_eq_iff (h : ¬ d.isAlpha) : c.toUpper = d ↔ c = d := by
  have image := toNat_toUpper c
  rw [← Char.toNat_inj, ← Char.toNat_inj]
  grind [isAlpha_iff, isLower_iff]

theorem toNat_toLower_lt (h : c.toNat < 0x80) : c.toLower.toNat < 0x80 := by
  have image := toNat_toLower c
  grind [isUpper_iff]

theorem toNat_toUpper_lt (h : c.toNat < 0x80) : c.toUpper.toNat < 0x80 := by
  have image := toNat_toUpper c
  grind [isLower_iff]

/-! ## Texts -/

def IsAscii (cs : List Char) : Prop := ∀ c ∈ cs, c.toNat < 0x80

instance (cs : List Char) : Decidable (IsAscii cs) :=
  List.decidableBAll (fun c : Char => c.toNat < 0x80) cs

theorem upperAll_of_ascii (ascii : IsAscii cs) : upperAll cs = cs.map Char.toUpper := by
  induction cs with
  | nil => rfl
  | cons c cs ih =>
    obtain ⟨first, rest⟩ := List.forall_mem_cons.1 ascii
    have ih : cs.flatMap upper = _ := ih rest
    rw [upperAll, List.flatMap_cons, upper_of_ascii first, ih]
    rfl

/-- The one letter whose lower case form depends on its place is not in ASCII. -/
theorem lowerAfter_of_ascii (ascii : IsAscii cs) (inWord : Bool) :
    lowerAfter inWord cs = cs.map Char.toLower := by
  induction cs generalizing inWord with
  | nil => rfl
  | cons c cs ih =>
    obtain ⟨first, rest⟩ := List.forall_mem_cons.1 ascii
    have notSigma : c ≠ 'Σ' := by
      rintro rfl
      exact absurd first (by decide)
    rw [lowerAfter, if_neg notSigma, lower_of_ascii first, ih rest]
    rfl

theorem lowerAll_of_ascii (ascii : IsAscii cs) : lowerAll cs = cs.map Char.toLower :=
  lowerAfter_of_ascii ascii false

end PropertyTables.Text
