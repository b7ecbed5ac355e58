import PropertyTables.Error.Report
import PropertyTables.Proofs.ResourceText

/-!
# Reading and writing resources

Every text and every width have one of three outcomes: the resource that the text denotes, an
overflow, or an invalid literal. The two texts that are written for a resource denote it, so they
are read back.
-/

namespace PropertyTables

open Text

variable {value : String} {bits number : Nat}

theorem isResourceWidth_iff : isResourceWidth bits ↔ 8 ≤ bits ∧ bits ≤ 64 := by
  simp [isResourceWidth]

/-! ## Reading -/

/-- A fault other than an overflow is an invalid literal. -/
theorem variant_eq_invalidLiteral {fault : LiteralFault} (unit constant value : String) :
    (ConstantError.literal unit constant value fault).variant = "InvalidLiteral" ↔
      ∀ bits, fault ≠ .overflow bits := by
  cases fault <;> simp [ConstantError.variant]

theorem variant_eq_encodingOverflow {fault : LiteralFault} (unit constant value : String) :
    (ConstantError.literal unit constant value fault).variant = "EncodingOverflow" ↔
      ∃ bits, fault = .overflow bits := by
  cases fault <;> simp [ConstantError.variant]

/-- A text that denotes nothing, or any text at a width that is out of range, is invalid. -/
theorem parse_invalid
    (h : ¬ (isResourceWidth bits ∧ ∃ type number, DenotesResource value.toList type number)) :
    ∃ fault, ResourceId.parse value bits = .error fault ∧ ∀ bits, fault ≠ .overflow bits := by
  by_cases valid : isResourceWidth bits
  · have nothing (type number) : ¬ DenotesResource value.toList type number := by
      intro denotes
      exact h ⟨valid, type, number, denotes⟩
    rcases parse_of_not_denotes valid nothing with malformed | ⟨name, unknown⟩
    · exact ⟨_, malformed, by simp⟩
    · exact ⟨_, unknown, by simp⟩
  · exact ⟨_, if_neg valid, by simp⟩

/-- What is read or does not fit denotes a resource. -/
theorem exists_denotes
    (h : ∀ fault, ResourceId.parse value bits = .error fault → ∃ b, fault = .overflow b) :
    isResourceWidth bits ∧ ∃ type number, DenotesResource value.toList type number := by
  by_contra unknown
  obtain ⟨fault, refused, other⟩ := parse_invalid unknown
  obtain ⟨b, rfl⟩ := h fault refused
  exact other b rfl

/-- A number that fits a width in order is kept as it is. -/
theorem toNat_ofNat_of_fits (valid : isResourceWidth bits) (fits : number < 2 ^ bits) :
    (UInt64.ofNat number).toNat = number := by
  have wide : 2 ^ bits ≤ 2 ^ 64 :=
    Nat.pow_le_pow_right (by decide) (isResourceWidth_iff.1 valid).2
  exact UInt64.toNat_ofNat_of_lt' (Nat.lt_of_lt_of_le fits wide)

theorem parse_eq_ok {id : ResourceId} : ResourceId.parse value bits = .ok id ↔
    isResourceWidth bits ∧ DenotesResource value.toList id.type id.number.toNat ∧
      id.number.toNat < 2 ^ bits := by
  constructor
  · intro accepted
    have known : isResourceWidth bits ∧
        ∃ type number, DenotesResource value.toList type number := by
      apply exists_denotes
      simp [accepted]
    obtain ⟨valid, type, number, denotes⟩ := known
    rw [denotes.parse_eq valid] at accepted
    split at accepted
    · rename_i fits
      cases accepted
      rw [toNat_ofNat_of_fits valid fits]
      exact ⟨valid, denotes, fits⟩
    · cases accepted
  · rintro ⟨valid, denotes, fits⟩
    rw [denotes.parse_eq valid, if_pos fits, UInt64.ofNat_toNat]

theorem exists_parse_eq_overflow : (∃ b, ResourceId.parse value bits = .error (.overflow b)) ↔
    isResourceWidth bits ∧
      ∃ type number, DenotesResource value.toList type number ∧ 2 ^ bits ≤ number := by
  constructor
  · rintro ⟨b, failed⟩
    have known : isResourceWidth bits ∧
        ∃ type number, DenotesResource value.toList type number := by
      apply exists_denotes
      intro fault failed'
      exact ⟨b, by simpa [failed] using failed'.symm⟩
    obtain ⟨valid, type, number, denotes⟩ := known
    rw [denotes.parse_eq valid] at failed
    split at failed
    · cases failed
    · rename_i large
      exact ⟨valid, type, number, denotes, Nat.le_of_not_lt large⟩
  · rintro ⟨valid, type, number, denotes, large⟩
    exact ⟨bits, by rw [denotes.parse_eq valid, if_neg (Nat.not_lt.2 large)]⟩

/-- A text denotes one resource at most. Reading it has three outcomes, each with its exact
condition. -/
theorem parse_exact (value : String) (bits : Nat) :
    (∀ type number type' number', DenotesResource value.toList type number →
      DenotesResource value.toList type' number' → type = type' ∧ number = number') ∧
    (∀ id : ResourceId, ResourceId.parse value bits = .ok id ↔
      (8 ≤ bits ∧ bits ≤ 64) ∧ DenotesResource value.toList id.type id.number.toNat ∧
        id.number.toNat < 2 ^ bits) ∧
    ((∃ id, ResourceId.parse value bits = .ok id) ↔
      (8 ≤ bits ∧ bits ≤ 64) ∧
        ∃ type number, DenotesResource value.toList type number ∧ number < 2 ^ bits) ∧
    ∀ unit constant : String,
      ((∃ fault, ResourceId.parse value bits = .error fault ∧
          (ConstantError.literal unit constant value fault).variant = "EncodingOverflow") ↔
        (8 ≤ bits ∧ bits ≤ 64) ∧
          ∃ type number, DenotesResource value.toList type number ∧ 2 ^ bits ≤ number) ∧
      ((∃ fault, ResourceId.parse value bits = .error fault ∧
          (ConstantError.literal unit constant value fault).variant = "InvalidLiteral") ↔
        ¬ ((8 ≤ bits ∧ bits ≤ 64) ∧
          ∃ type number, DenotesResource value.toList type number)) := by
  rw [← isResourceWidth_iff]
  refine ⟨fun _ _ _ _ => DenotesResource.unique, fun id => parse_eq_ok, ⟨?_, ?_⟩,
    fun unit constant => ⟨?_, ?_⟩⟩
  · rintro ⟨id, accepted⟩
    obtain ⟨valid, denotes, fits⟩ := parse_eq_ok.1 accepted
    exact ⟨valid, id.type, id.number.toNat, denotes, fits⟩
  · rintro ⟨valid, type, number, denotes, fits⟩
    exact ⟨_, by rw [denotes.parse_eq valid, if_pos fits]⟩
  · simp only [variant_eq_encodingOverflow, ← exists_parse_eq_overflow]
    constructor
    · rintro ⟨fault, failed, b, rfl⟩
      exact ⟨b, failed⟩
    · rintro ⟨b, failed⟩
      exact ⟨_, failed, b, rfl⟩
  · simp only [variant_eq_invalidLiteral]
    refine ⟨?_, parse_invalid⟩
    rintro ⟨fault, failed, other⟩ ⟨valid, type, number, denotes⟩
    rw [denotes.parse_eq valid] at failed
    split at failed
    · cases failed
    · cases failed
      exact other bits rfl

/-! ## Writing -/

namespace ResourceId

/-- Sixteen digits are enough for the number of a resource. -/
theorem numeral_number (letters : Hex.Letters) (id : ResourceId) :
    Hex.Numeral (Hex.fixed letters 16 id.number.toNat) id.number.toNat := by
  have small : id.number.toNat < 16 ^ 16 := id.number.toNat_lt
  have written := Hex.numeral_fixed letters 15 id.number.toNat
  rwa [Nat.mod_eq_of_lt small] at written

theorem denotes_display (id : ResourceId) :
    DenotesResource id.display.toList id.type id.number.toNat := by
  have numeral := id.numeral_number .capital
  obtain ⟨type, number⟩ := id
  cases type with
  | none => simpa [display] using DenotesResource.marked (.inl rfl) numeral
  | some type => simpa [display] using DenotesResource.typed type numeral

theorem denotes_literal (id : ResourceId) :
    DenotesResource id.literal.toList none id.number.toNat := by
  simpa [literal] using DenotesResource.marked (.inl rfl) (id.numeral_number .small)

/-- At every width in order, the text of a resource is read back as that resource unless its number
does not fit. The literal keeps the number and forgets the type. -/
theorem parse_display_literal (id : ResourceId) (valid : 8 ≤ bits ∧ bits ≤ 64) :
    (id.number.toNat < 2 ^ bits → parse id.display bits = .ok id) ∧
    (2 ^ bits ≤ id.number.toNat → parse id.display bits = .error (.overflow bits)) ∧
    parse id.literal 64 = .ok ⟨none, id.number⟩ := by
  have shown := id.denotes_display.parse_eq (isResourceWidth_iff.2 valid)
  have wide : isResourceWidth 64 := by decide
  have written := id.denotes_literal.parse_eq wide
  rw [UInt64.ofNat_toNat] at shown written
  refine ⟨fun fits => ?_, fun large => ?_, ?_⟩
  · rw [shown, if_pos fits]
  · rw [shown, if_neg (Nat.not_lt.2 large)]
  · rw [written, if_pos id.number.toNat_lt]

/-- A guest whose number has 33 bits. -/
theorem parse_guest_display :
    (8 ≤ 32 ∧ 32 ≤ 64) ∧ (8 ≤ 33 ∧ 33 ≤ 64) ∧
      parse "GUEST_00000001FFFFFFFF" 33 = .ok ⟨some .guest, 0x1ffffffff⟩ ∧
      parse "GUEST_00000001FFFFFFFF" 32 = .error (.overflow 32) ∧
      parse "0x00000001ffffffff" 64 = .ok ⟨none, 0x1ffffffff⟩ := by
  have narrow : 8 ≤ 32 ∧ 32 ≤ 64 := by decide
  have wide : 8 ≤ 33 ∧ 33 ≤ 64 := by decide
  obtain ⟨-, overflows, written⟩ := parse_display_literal ⟨some .guest, 0x1ffffffff⟩ narrow
  obtain ⟨shown, -, -⟩ := parse_display_literal ⟨some .guest, 0x1ffffffff⟩ wide
  exact ⟨narrow, wide, shown (by decide), overflows (by decide), written⟩

end ResourceId

end PropertyTables
