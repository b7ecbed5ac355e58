import PropertyTables.Proofs.ConstantGroups
import PropertyTables.Proofs.ResourceLiterals

/-!
# The bytes of resources

A resource and its bytes determine each other: what is written is read back, and nothing else is
read. The last eight bytes of an encoded constant and its literal are the same number.
-/

namespace PropertyTables

open Text

variable {bytes : List UInt8}

/-! ## Big-endian numbers -/

theorem ofBigEndian_concat (bytes : List UInt8) (b : UInt8) :
    ofBigEndian (bytes ++ [b]) = 256 * ofBigEndian bytes + b.toNat := by
  simp [ofBigEndian, Nat.mul_comm]

theorem ofBigEndian_lt (bytes : List UInt8) : ofBigEndian bytes < 256 ^ bytes.length := by
  induction bytes using List.reverseRecOn with
  | nil => simp [ofBigEndian]
  | append_singleton bytes b ih =>
    have last : b.toNat < 256 := b.toNat_lt
    rw [ofBigEndian_concat, List.length_append, List.length_singleton, Nat.pow_succ]
    omega

theorem ofBigEndian_bigEndian (width n : Nat) :
    ofBigEndian (bigEndian width n) = n % 256 ^ width := by
  induction width generalizing n with
  | zero => simp [bigEndian, ofBigEndian, Nat.mod_one]
  | succ width ih =>
    rw [bigEndian, ofBigEndian_concat, ih, UInt8.toNat_ofNat', mod_pow_succ_eq 256]

theorem bigEndian_ofBigEndian (bytes : List UInt8) :
    bigEndian bytes.length (ofBigEndian bytes) = bytes := by
  induction bytes using List.reverseRecOn with
  | nil => rfl
  | append_singleton bytes b ih =>
    have last : b.toNat < 256 := b.toNat_lt
    have front : (256 * ofBigEndian bytes + b.toNat) / 256 = ofBigEndian bytes := by omega
    have low : UInt8.ofNat (256 * ofBigEndian bytes + b.toNat) = b := by
      apply UInt8.toNat_inj.1
      rw [UInt8.toNat_ofNat']
      omega
    rw [ofBigEndian_concat, List.length_append, List.length_singleton, bigEndian, front, low, ih]

/-! ## The codec -/

namespace ResourceType

theorem code_of_ofCode? {type : ResourceType} {code : UInt16} (h : ofCode? code = some type) :
    type.code = code := by
  simpa using List.find?_some h

theorem ofCode?_eq_none {code : UInt16} :
    ofCode? code = none ↔ ∀ type : ResourceType, type.code ≠ code := by
  simp [ofCode?, List.find?_eq_none, mem_all]

end ResourceType

namespace ResourceId

variable {id : ResourceId}

theorem toNat_ofNat_ofBigEndian (length : bytes.length = 8) :
    (UInt64.ofNat (ofBigEndian bytes)).toNat = ofBigEndian bytes := by
  have small := ofBigEndian_lt bytes
  rw [length] at small
  exact UInt64.toNat_ofNat_of_lt' small

/-- The code in front of a typed resource. -/
theorem toNat_ofNat_take_two (bytes : List UInt8) :
    (UInt16.ofNat (ofBigEndian (bytes.take 2))).toNat = ofBigEndian (bytes.take 2) := by
  have small : ofBigEndian (bytes.take 2) < 256 ^ 2 :=
    Nat.lt_of_lt_of_le (ofBigEndian_lt _)
      (Nat.pow_le_pow_right (by decide) (List.length_take_le 2 bytes))
  exact UInt16.toNat_ofNat_of_lt' small

theorem ofBigEndian_number (number : UInt64) :
    ofBigEndian (bigEndian 8 number.toNat) = number.toNat := by
  rw [ofBigEndian_bigEndian]
  exact Nat.mod_eq_of_lt number.toNat_lt

theorem ofBigEndian_typeBytes (type : ResourceType) :
    ofBigEndian (typeBytes type) = type.code.toNat := by
  rw [typeBytes, ofBigEndian_bigEndian]
  exact Nat.mod_eq_of_lt type.code.toNat_lt

theorem length_typeBytes (type : ResourceType) : (typeBytes type).length = 2 := length_bigEndian 2 _

theorem toBytes_untyped (number : UInt64) : toBytes ⟨none, number⟩ = bigEndian 8 number.toNat := rfl

theorem toBytes_typed (type : ResourceType) (number : UInt64) :
    toBytes ⟨some type, number⟩ = typeBytes type ++ bigEndian 8 number.toNat := rfl

theorem ofBytes?_untyped (length : bytes.length = 8) :
    ofBytes? bytes = some ⟨none, UInt64.ofNat (ofBigEndian bytes)⟩ := if_pos length

theorem ofBytes?_typed (length : bytes.length = 10) :
    ofBytes? bytes = (ResourceType.ofCode? (UInt16.ofNat (ofBigEndian (bytes.take 2)))).map
      fun type => ⟨some type, UInt64.ofNat (ofBigEndian (bytes.drop 2))⟩ := by
  rw [ofBytes?, if_neg (by omega), if_pos length]

theorem ofBytes?_of_length_ne (untyped : bytes.length ≠ 8) (typed : bytes.length ≠ 10) :
    ofBytes? bytes = none := by
  rw [ofBytes?, if_neg untyped, if_neg typed]

theorem ofBytes?_toBytes (id : ResourceId) : ofBytes? id.toBytes = some id := by
  obtain ⟨type, number⟩ := id
  cases type with
  | none =>
    rw [toBytes_untyped, ofBytes?_untyped (length_bigEndian 8 _), ofBigEndian_number,
      UInt64.ofNat_toNat]
  | some type =>
    have front : (toBytes ⟨some type, number⟩).take 2 = typeBytes type :=
      List.take_left' (length_typeBytes type)
    have back : (toBytes ⟨some type, number⟩).drop 2 = bigEndian 8 number.toNat :=
      List.drop_left' (length_typeBytes type)
    have length : (toBytes ⟨some type, number⟩).length = 10 := by
      rw [toBytes_typed, List.length_append, length_typeBytes, length_bigEndian]
    rw [ofBytes?_typed length, front, back, ofBigEndian_typeBytes, ofBigEndian_number,
      UInt16.ofNat_toNat, UInt64.ofNat_toNat, ResourceType.ofCode?_code, Option.map_some]

theorem toBytes_of_ofBytes? (h : ofBytes? bytes = some id) : id.toBytes = bytes := by
  by_cases untyped : bytes.length = 8
  · rw [ofBytes?_untyped untyped] at h
    cases h
    rw [toBytes_untyped, toNat_ofNat_ofBigEndian untyped, ← untyped, bigEndian_ofBigEndian]
  · by_cases typed : bytes.length = 10
    · rw [ofBytes?_typed typed] at h
      obtain ⟨type, known, rfl⟩ := Option.map_eq_some_iff.1 h
      -- The type was found by the code in front, so its bytes are those in front.
      have front : typeBytes type = bytes.take 2 := by
        have length : (bytes.take 2).length = 2 := by simp [typed]
        rw [typeBytes, ResourceType.code_of_ofCode? known, toNat_ofNat_take_two]
        nth_rewrite 1 [← length]
        exact bigEndian_ofBigEndian _
      have back : (bytes.drop 2).length = 8 := by simp [typed]
      rw [toBytes_typed, toNat_ofNat_ofBigEndian back, front, ← back, bigEndian_ofBigEndian,
        List.take_append_drop]
    · rw [ofBytes?_of_length_ne untyped typed] at h
      cases h

theorem ofBytes?_eq_none : ofBytes? bytes = none ↔
    (bytes.length ≠ 8 ∧ bytes.length ≠ 10) ∨
      (bytes.length = 10 ∧
        ∀ type : ResourceType, ofBigEndian (bytes.take 2) ≠ type.code.toNat) := by
  by_cases untyped : bytes.length = 8
  · simp [ofBytes?_untyped untyped, untyped]
  · by_cases typed : bytes.length = 10
    · have unknown (type : ResourceType) :
          type.code = UInt16.ofNat (ofBigEndian (bytes.take 2)) ↔
            ofBigEndian (bytes.take 2) = type.code.toNat := by
        rw [← UInt16.toNat_inj, toNat_ofNat_take_two, eq_comm]
      simp [ofBytes?_typed typed, ResourceType.ofCode?_eq_none, typed, unknown]
    · simp [ofBytes?_of_length_ne untyped typed, untyped, typed]

/-- The number is in the last eight bytes, with or without a type in front. -/
theorem drop_toBytes (id : ResourceId) :
    id.toBytes.drop (id.toBytes.length - 8) = bigEndian 8 id.number.toNat := by
  obtain ⟨type, number⟩ := id
  cases type with
  | none =>
    rw [toBytes_untyped, length_bigEndian]
    rfl
  | some type =>
    rw [toBytes_typed, List.length_append, length_typeBytes, length_bigEndian]
    exact List.drop_left' (length_typeBytes type)

theorem eight_le_length_toBytes (id : ResourceId) : 8 ≤ id.toBytes.length := by
  simp [toBytes, numberBytes]

end ResourceId

/-- The bytes of resources are a code: every resource is read back from its bytes, nothing but the
bytes of a resource is read, and reading fails on the lengths and the types that no resource has.
The number in the bytes of a constant is the number of its literal. -/
theorem bytes_exact :
    (∀ id : ResourceId, ResourceId.ofBytes? id.toBytes = some id) ∧
    (∀ (bytes : List UInt8) (id : ResourceId),
      ResourceId.ofBytes? bytes = some id → id.toBytes = bytes) ∧
    (∀ bytes : List UInt8, ResourceId.ofBytes? bytes = none ↔
      (bytes.length ≠ 8 ∧ bytes.length ≠ 10) ∨
        (bytes.length = 10 ∧
          ∀ type : ResourceType, ofBigEndian (bytes.take 2) ≠ type.code.toNat)) ∧
    ∀ (s : Schema) (unit : String) (group constant : NodeId) (bits : Nat) (e : EncodedConstant),
      s.encodeConstant unit group constant bits = .ok e →
        8 ≤ e.bytes.length ∧ ∃ digits, e.literal = "0x" ++ String.ofList digits ∧
          Hex.Numeral digits (ofBigEndian (e.bytes.drop (e.bytes.length - 8))) := by
  refine ⟨ResourceId.ofBytes?_toBytes, fun bytes id => ResourceId.toBytes_of_ofBytes?,
    fun bytes => ResourceId.ofBytes?_eq_none, ?_⟩
  intro s unit group constant bits e accepted
  obtain ⟨node, -, encoded⟩ := Schema.exists_encode accepted
  obtain ⟨value, id, -, -, rfl⟩ := Listed.exists_resource encoded
  refine ⟨id.eight_le_length_toBytes, _, rfl, ?_⟩
  rw [id.drop_toBytes, ResourceId.ofBigEndian_number]
  exact id.numeral_number .small

/-- The bytes of a device, and a constant that denotes it. -/
theorem hub_bytes :
    ResourceId.ofBytes? [0, 1, 0, 0, 0, 0, 0, 0, 0, 1] = some ⟨some .device, 1⟩ ∧
      ResourceId.toBytes ⟨some .device, 1⟩ = [0, 1, 0, 0, 0, 0, 0, 0, 0, 1] ∧
      ResourceId.ofBytes? [0, 10, 0, 0, 0, 0, 0, 0, 0, 1] = none ∧
      ∃ e, Schema.plugSchema.encodeConstant "Plug" 1 2 64 = .ok e ∧
        e.literal = "0x0000000000000001" ∧ ∃ digits, e.literal = "0x" ++ String.ofList digits ∧
          Hex.Numeral digits (ofBigEndian (e.bytes.drop (e.bytes.length - 8))) := by
  obtain ⟨written, read, failing, agrees⟩ := bytes_exact
  have device : ResourceId.ofBytes? [0, 1, 0, 0, 0, 0, 0, 0, 0, 1] = some ⟨some .device, 1⟩ :=
    written ⟨some .device, 1⟩
  have encoded : (Schema.plugSchema.encodeConstant "Plug" 1 2 64).toOption =
      some ⟨"RESOURCE_ID_HUB", "HUB", [0, 1, 0, 0, 0, 0, 0, 0, 0, 1], "0x0000000000000001",
        "DEVICE_1"⟩ := by decide +kernel
  rw [toOption_eq_some] at encoded
  refine ⟨device, read _ _ device, (failing _).2 (.inr ?_), _, encoded, rfl, ?_⟩
  · exact ⟨rfl, fun type => by cases type <;> decide⟩
  · exact (agrees _ _ _ _ _ _ encoded).2

end PropertyTables
