import Mathlib.Algebra.Ring.Nat
import Mathlib.Data.List.TakeWhile
import PropertyTables.Proofs.Numerals
import PropertyTables.Proofs.Outcome
import PropertyTables.Resource.Literal

/-!
# Texts that denote resources

The grammar of resource texts, apart from how they are read: a hexadecimal numeral, with `0x` or
`0X` in front or not, or behind the name of a type and an underscore. The reader accepts these texts
exactly, up to the width of the number.

## Main definitions

* `DenotesResource`: a text denotes a resource of a type, or of none, and a number.
-/

namespace PropertyTables

open Text

/-- A text denotes a resource of a type, or of none, and a number. -/
inductive DenotesResource : List Char → Option ResourceType → Nat → Prop
  | typed (type : ResourceType) {digits : List Char} {number : Nat}
    (numeral : Hex.Numeral digits number) :
    DenotesResource (type.name.toList ++ '_' :: digits) (some type) number
  | plain {digits : List Char} {number : Nat} (numeral : Hex.Numeral digits number) :
    DenotesResource digits none number
  | marked {x : Char} {digits : List Char} {number : Nat} (mark : x = 'x' ∨ x = 'X')
    (numeral : Hex.Numeral digits number) : DenotesResource ('0' :: x :: digits) none number

variable {cs : List Char} {l : Literal} {value : String} {bits number number' : Nat}
  {type type' : Option ResourceType}

theorem Text.Hex.isDigit_of_mem (number : Hex.isNumber cs) {c : Char} (h : c ∈ cs) :
    Hex.isDigit c := by
  simp only [Hex.isNumber, Bool.and_eq_true, List.all_eq_true] at number
  exact number.2 c h

theorem Text.Hex.shiftRight_eq_zero {n : Nat} : n >>> bits = 0 ↔ n < 2 ^ bits := by
  rw [Nat.shiftRight_eq_div_pow, Nat.div_eq_zero_iff_lt (Nat.two_pow_pos bits)]

theorem ResourceType.name_upper (type : ResourceType) :
    type.name.toList ≠ [] ∧ ∀ c ∈ type.name.toList, c.isUpper := by
  rw [← List.all_eq_true]
  cases type <;> decide

theorem ResourceType.ofName?_eq_some {name : String} {type : ResourceType} :
    ResourceType.ofName? name = some type ↔ type.name = name := by
  constructor
  · intro h
    simpa using List.find?_some h
  · rintro rfl
    exact ofName?_name type

namespace Literal

theorem typed?_eq_some : typed? cs = some l ↔
    ∃ name digits, name ≠ [] ∧ (∀ c ∈ name, c.isUpper) ∧ Hex.isNumber digits ∧
      cs = name ++ '_' :: digits ∧ l = ⟨some (String.ofList name), digits⟩ := by
  unfold typed?
  constructor
  · intro h
    split at h
    · rename_i c name digits hname hdigits
      split at h
      · rename_i number
        cases h
        refine ⟨c :: name, digits, by simp, ?_, number, ?_, rfl⟩
        · intro d hd
          exact List.mem_takeWhile_imp (hname ▸ hd)
        · rw [← hname, ← hdigits, List.takeWhile_append_dropWhile]
      · cases h
    · cases h
  · rintro ⟨name, digits, nonempty, upper, number, rfl, rfl⟩
    obtain ⟨c, name, rfl⟩ := List.exists_cons_of_ne_nil nonempty
    rw [List.takeWhile_append_of_pos upper, List.dropWhile_append_of_pos upper]
    simp [number, List.takeWhile, List.dropWhile]

theorem untyped?_eq_some : untyped? cs = some l ↔
    ∃ digits, Hex.isNumber digits ∧
      (cs = digits ∨ cs = '0' :: 'x' :: digits ∨ cs = '0' :: 'X' :: digits) ∧
      l = ⟨none, digits⟩ := by
  unfold untyped?
  constructor
  · intro h
    simp only [Option.ite_none_right_eq_some, Option.some.injEq] at h
    obtain ⟨number, rfl⟩ := h
    refine ⟨_, number, ?_, rfl⟩
    split <;> simp
  · rintro ⟨digits, number, rfl | rfl | rfl, rfl⟩
    · -- Neither mark is a digit.
      split
      · exact absurd (Hex.isDigit_of_mem number (c := 'x') (by simp)) (by decide)
      · exact absurd (Hex.isDigit_of_mem number (c := 'X') (by simp)) (by decide)
      · simp [number]
    · simp [number]
    · simp [number]

/-- Digits of a number without a type have no underscore among them. -/
theorem typed?_eq_none_of_untyped? (h : untyped? cs = some l) : typed? cs = none := by
  obtain ⟨digits, number, hcs, -⟩ := untyped?_eq_some.1 h
  rw [Option.eq_none_iff_forall_ne_some]
  intro other typed
  obtain ⟨name, rest, -, -, -, hcs', -⟩ := typed?_eq_some.1 typed
  have underscore : '_' ∈ cs := by simp [hcs']
  have inDigits : '_' ∈ digits := by
    rcases hcs with rfl | rfl | rfl
    · exact underscore
    · simpa using underscore
    · simpa using underscore
  exact absurd (Hex.isDigit_of_mem number inDigits) (by decide)

theorem ofChars?_eq_some : ofChars? cs = some l ↔ typed? cs = some l ∨ untyped? cs = some l := by
  unfold ofChars?
  cases typed : typed? cs with
  | none => simp
  | some other =>
    have notUntyped : untyped? cs ≠ some l := by
      intro h
      simp [typed?_eq_none_of_untyped? h] at typed
    simp [notUntyped]

theorem resolveType_some {name : String} :
    resolveType (some name) = .ok type ↔ ∃ t : ResourceType, t.name = name ∧ some t = type := by
  constructor
  · intro h
    simp only [resolveType] at h
    split at h
    · rename_i t found
      cases h
      exact ⟨t, ResourceType.ofName?_eq_some.1 found, rfl⟩
    · cases h
  · rintro ⟨t, named, rfl⟩
    simp [resolveType, ResourceType.ofName?_eq_some.2 named]

theorem resolveType_eq_error {name : Option String} {fault : LiteralFault}
    (h : resolveType name = .error fault) : ∃ name, fault = .unknownType name := by
  unfold resolveType at h
  split at h
  · cases h
  · split at h
    · cases h
    · cases h
      exact ⟨_, rfl⟩

end Literal

namespace DenotesResource

/-- A text that denotes a resource is taken apart into a known type and digits of its number. -/
theorem ofChars? (denotes : DenotesResource cs type number) :
    ∃ l, Literal.ofChars? cs = some l ∧ Hex.value l.digits = number ∧
      Literal.resolveType l.typeName = .ok type := by
  cases denotes with
  | @typed type digits _ numeral =>
    obtain ⟨isNumber, read⟩ := Hex.numeral_iff.1 numeral
    obtain ⟨nonempty, upper⟩ := type.name_upper
    refine ⟨⟨some type.name, digits⟩, Literal.ofChars?_eq_some.2 (.inl ?_), read, ?_⟩
    · exact Literal.typed?_eq_some.2 ⟨_, _, nonempty, upper, isNumber, rfl, by simp⟩
    · simp [Literal.resolveType]
  | plain numeral =>
    obtain ⟨isNumber, read⟩ := Hex.numeral_iff.1 numeral
    refine ⟨⟨none, cs⟩, Literal.ofChars?_eq_some.2 (.inr ?_), read, rfl⟩
    exact Literal.untyped?_eq_some.2 ⟨_, isNumber, .inl rfl, rfl⟩
  | @marked x digits _ mark numeral =>
    obtain ⟨isNumber, read⟩ := Hex.numeral_iff.1 numeral
    refine ⟨⟨none, digits⟩, Literal.ofChars?_eq_some.2 (.inr ?_), read, rfl⟩
    refine Literal.untyped?_eq_some.2 ⟨_, isNumber, ?_, rfl⟩
    rcases mark with rfl | rfl <;> simp

theorem unique (denotes : DenotesResource cs type number)
    (denotes' : DenotesResource cs type' number') : type = type' ∧ number = number' := by
  obtain ⟨l, split, rfl, known⟩ := denotes.ofChars?
  obtain ⟨l', split', rfl, known'⟩ := denotes'.ofChars?
  cases split.symm.trans split'
  cases known.symm.trans known'
  exact ⟨rfl, rfl⟩

theorem of_ofChars? (h : Literal.ofChars? cs = some l)
    (known : Literal.resolveType l.typeName = .ok type) :
    DenotesResource cs type (Hex.value l.digits) := by
  rcases Literal.ofChars?_eq_some.1 h with typed | untyped
  · obtain ⟨name, digits, -, -, isNumber, rfl, rfl⟩ := Literal.typed?_eq_some.1 typed
    obtain ⟨t, named, rfl⟩ := Literal.resolveType_some.1 known
    obtain rfl : t.name.toList = name := by simpa using congrArg String.toList named
    exact .typed t (Hex.numeral_iff.2 ⟨isNumber, rfl⟩)
  · obtain ⟨digits, isNumber, hcs, rfl⟩ := Literal.untyped?_eq_some.1 untyped
    have numeral := Hex.numeral_iff.2 ⟨isNumber, rfl⟩
    cases known
    rcases hcs with rfl | rfl | rfl
    · exact .plain numeral
    · exact .marked (.inl rfl) numeral
    · exact .marked (.inr rfl) numeral

/-! ## Reading -/

/-- A text is read as what it denotes, unless the number is too large. -/
theorem parse_eq (denotes : DenotesResource value.toList type number)
    (valid : isResourceWidth bits) :
    ResourceId.parse value bits =
      if number < 2 ^ bits then .ok ⟨type, UInt64.ofNat number⟩ else .error (.overflow bits) := by
  obtain ⟨l, split, rfl, known⟩ := denotes.ofChars?
  rw [ResourceId.parse, if_pos valid, split]
  simp only [Literal.toResource, known, Hex.shiftRight_eq_zero]
  rfl

end DenotesResource

/-- A text that denotes nothing is malformed or names a type that is not known. -/
theorem parse_of_not_denotes (valid : isResourceWidth bits)
    (h : ∀ type number, ¬ DenotesResource value.toList type number) :
    ResourceId.parse value bits = .error .malformed ∨
      ∃ name, ResourceId.parse value bits = .error (.unknownType name) := by
  rw [ResourceId.parse, if_pos valid]
  cases split : Literal.ofChars? value.toList with
  | none => exact .inl rfl
  | some l =>
    right
    cases known : Literal.resolveType l.typeName with
    | ok type => exact absurd (.of_ofChars? split known) (h type (Hex.value l.digits))
    | error fault =>
      obtain ⟨name, rfl⟩ := Literal.resolveType_eq_error known
      exact ⟨name, by simp [Literal.toResource, known, bind, Except.bind]⟩

/-- Why a text is not read, the width being in order. -/
inductive ResourceFault (value : String) (bits : Nat) : LiteralFault → Prop
  | malformed (h : ∀ type number, ¬ DenotesResource value.toList type number) :
    ResourceFault value bits .malformed
  | unknownType (name : String) (h : ∀ type number, ¬ DenotesResource value.toList type number) :
    ResourceFault value bits (.unknownType name)
  | overflow {type : Option ResourceType} {number : Nat}
    (denotes : DenotesResource value.toList type number) (large : 2 ^ bits ≤ number) :
    ResourceFault value bits (.overflow bits)

/-- With a width in order, a text is read exactly when it denotes a resource that fits. -/
theorem parse_outcome (valid : isResourceWidth bits) (value : String) :
    (∃ type number, DenotesResource value.toList type number ∧ number < 2 ^ bits ∧
      ResourceId.parse value bits = .ok ⟨type, UInt64.ofNat number⟩) ∨
    ∃ fault, ResourceFault value bits fault ∧ ResourceId.parse value bits = .error fault := by
  by_cases denotes : ∃ type number, DenotesResource value.toList type number
  · obtain ⟨type, number, denotes⟩ := denotes
    rw [denotes.parse_eq valid]
    by_cases fits : number < 2 ^ bits
    · exact .inl ⟨type, number, denotes, fits, if_pos fits⟩
    · exact .inr ⟨_, .overflow denotes (by omega), if_neg fits⟩
  · right
    have nothing : ∀ type number, ¬ DenotesResource value.toList type number := by
      intro type number h
      exact denotes ⟨type, number, h⟩
    rcases parse_of_not_denotes valid nothing with malformed | ⟨name, unknown⟩
    · exact ⟨_, .malformed nothing, malformed⟩
    · exact ⟨_, .unknownType name nothing, unknown⟩

end PropertyTables
