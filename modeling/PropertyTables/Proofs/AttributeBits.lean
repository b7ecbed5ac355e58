import PropertyTables.Proofs.Bitfield
import PropertyTables.Proofs.LayeredOrder
import PropertyTables.Proofs.UnitTables

/-!
# Bitfields tell the attributes of fields

For every accepted unit with properties, the bit of a handle in the bitfield of an attribute is the
flag of the field that the handle addresses.

## Main definitions

* `BitfieldTable.Represents`: a bitfield, as it is emitted, for a list of flags.
-/

namespace PropertyTables

/-- A bitfield that stands for a list of flags. It may be left out when no flag is set, unless it
is forced. -/
structure BitfieldTable.Represents (table : BitfieldTable) (force : Bool) (flags : List Bool) :
    Prop where
  present_iff : table.present = true ↔ force = true ∨ true ∈ flags
  bytes_of_absent : table.present = false → table.bytes = []
  length_bytes : table.present = true → table.bytes.length = (flags.length + 7) / 8
  /-- The bit of a position, the first in the lowest place of a byte, is the flag there. -/
  bit : table.present = true → ∀ (i : Nat) (flag : Bool), flags[i]? = some flag →
    ∃ byte, table.bytes[i / 8]? = some byte ∧ byte.toNat.testBit (i % 8) = flag
  /-- The places after the last flag are clear. -/
  padding : table.present = true → ∀ (i : Nat) (byte : UInt8), flags.length ≤ i →
    table.bytes[i / 8]? = some byte → byte.toNat.testBit (i % 8) = false

namespace Attribute

variable {a : Attribute} {s : Schema} {force : Bool} {ps : List Path}

theorem represents_bitfield? :
    (BitfieldTable.ofBitfield? (a.bitfield? s force ps)).Represents force (a.select s ps) := by
  have held : (a.packed s ps).any = true ↔ true ∈ a.select s ps := Bitfield.any_pack _
  unfold bitfield?
  by_cases needed : (force || (a.packed s ps).any) = true
  · rw [if_pos needed]
    rw [Bool.or_eq_true, held] at needed
    exact
      { present_iff := iff_of_true rfl needed
        bytes_of_absent := fun h => nomatch h
        length_bytes := fun _ => Bitfield.length_packBytes _
        bit := fun _ i flag hflag => by
          obtain ⟨byte, hbyte⟩ :=
            Bitfield.exists_getElem?_packBytes (List.getElem?_eq_some_iff.1 hflag).1
          refine ⟨byte, hbyte, ?_⟩
          rw [Bitfield.testBit_of_getElem? hbyte, hflag, Option.getD_some]
        padding := fun _ i byte past hbyte => by
          rw [Bitfield.testBit_of_getElem? hbyte, List.getElem?_eq_none past, Option.getD_none] }
  · rw [if_neg needed]
    rw [Bool.or_eq_true, held] at needed
    exact
      { present_iff := iff_of_false (by simp [BitfieldTable.ofBitfield?]) needed
        bytes_of_absent := fun _ => rfl
        length_bytes := fun h => nomatch h
        bit := fun h => nomatch h
        padding := fun h => nomatch h }

theorem select_eq_map {fields : List Field}
    (addressed : ps.map (fun p => s.field? p.last) = fields.map some) :
    a.select s ps = fields.map a.holds := by
  have : a.select s ps = (ps.map fun p => s.field? p.last).map (Option.any a.holds) := by
    simp [select, Function.comp_def]
  rw [this, addressed]
  simp [Function.comp_def]

end Attribute

namespace Schema

variable {s : Schema} {options : Options} {unit : NodeId} {tables : Tables} {ps : List Path}

theorem exists_addressed_fields (h : s.paths unit = .ok ps) :
    ∃ fields : List Field, ps.map (fun p => s.field? p.last) = fields.map some := by
  refine ⟨ps.map fun p => (s.field? p.last).getD {}, ?_⟩
  rw [List.map_map]
  refine List.map_congr_left fun p hp => ?_
  obtain ⟨f, found⟩ := field_of_mem_paths h hp
  simp [found]

/-- In the tables of an accepted unit with properties, each of the four bitfields stands for one
flag of the fields that the rows address, row by row. -/
theorem compileUnit_bitfields (accepted : s.compileUnit options unit = .ok tables)
    (kind : tables.kind ≠ .enum) :
    ∃ (ps : List Path) (fields : List Field), s.paths unit = .ok ps ∧
      ps.map (fun p => s.field? p.last) = fields.map some ∧
      tables.rows.map Row.handle = (List.range fields.length).map Handle.ofIndex ∧
      tables.handleCount = UInt32.ofNat fields.length ∧
      tables.dictionary.Represents options.forceBitfields (fields.map fun f => f.isMap) ∧
      tables.optional.Represents options.forceBitfields (fields.map fun f => f.isOptional) ∧
      tables.nullable.Represents options.forceBitfields (fields.map fun f => f.isNullable) ∧
      tables.ephemeral.Represents options.forceBitfields (fields.map fun f => f.isEphemeral) := by
  obtain ⟨node, unitKind, table, info, declarations, -, -, -, -, handles, -, -, rfl⟩ :=
    compileUnit_eq_ok.1 accepted
  have made : s.handleTable unit = .ok table := by
    cases unitKind <;> simp_all [unitHandles]
  have enumerated := (handleTable_eq_ok made).1
  obtain ⟨fields, addressed⟩ := exists_addressed_fields enumerated
  have count : table.length = fields.length := by
    simpa using congrArg List.length addressed
  have represents (a : Attribute) :
      (s.unitBitfield unitKind options.forceBitfields table.paths a).Represents
        options.forceBitfields (fields.map a.holds) := by
    have bits : s.unitBitfield unitKind options.forceBitfields table.paths a =
        .ofBitfield? (a.bitfield? s options.forceBitfields table.paths) := by
      cases unitKind <;> simp_all [unitBitfield]
    rw [bits, ← Attribute.select_eq_map addressed]
    exact Attribute.represents_bitfield?
  refine ⟨table.paths, fields, enumerated, addressed, ?_, by rw [count], represents .dictionary,
    represents .optional, represents .nullable, represents .ephemeral⟩
  rw [HandleTable.map_handle_rows, count]

/-- The fields `slots` and `overrides` are maps, `label` is optional, `mode` and the value of a slot
are nullable, and an override is ephemeral. -/
theorem scheduleSchema_bitfields :
    ∃ (tables : Tables) (fields : List Field),
      scheduleSchema.compileUnit {} 0 = .ok tables ∧ tables.kind ≠ .enum ∧
      tables.handleCount = UInt32.ofNat fields.length ∧
      tables.dictionary = ⟨true, [0b10000010, 0]⟩ ∧ tables.optional = ⟨true, [0b00010000, 0]⟩ ∧
      tables.nullable = ⟨true, [0b00100100, 0]⟩ ∧ tables.ephemeral = ⟨true, [0, 1]⟩ ∧
      tables.dictionary.Represents false (fields.map fun f => f.isMap) ∧
      tables.optional.Represents false (fields.map fun f => f.isOptional) ∧
      tables.nullable.Represents false (fields.map fun f => f.isNullable) ∧
      tables.ephemeral.Represents false (fields.map fun f => f.isEphemeral) := by
  have emitted : (scheduleSchema.compileUnit {} 0).toOption.map (fun tables =>
      (tables.kind, tables.dictionary, tables.optional, tables.nullable, tables.ephemeral)) =
        some (.trait, ⟨true, [0b10000010, 0]⟩, ⟨true, [0b00010000, 0]⟩, ⟨true, [0b00100100, 0]⟩,
          ⟨true, [0, 1]⟩) := by decide +kernel
  obtain ⟨tables, accepted, hemitted⟩ := Option.map_eq_some_iff.1 emitted
  rw [toOption_eq_some] at accepted
  simp only [Prod.mk.injEq] at hemitted
  obtain ⟨kind, dictionary, optional, nullable, ephemeral⟩ := hemitted
  have properties : tables.kind ≠ .enum := by simp [kind]
  obtain ⟨ps, fields, -, -, -, count, represents⟩ := compileUnit_bitfields accepted properties
  exact ⟨tables, fields, accepted, properties, count, dictionary, optional, nullable, ephemeral,
    represents⟩

end Schema

end PropertyTables
