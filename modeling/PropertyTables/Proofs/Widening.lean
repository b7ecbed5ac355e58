import PropertyTables.Proofs.AttributeBits
import PropertyTables.Proofs.ConstantGroups
import PropertyTables.Proofs.ResourceLiterals

/-!
# What the options change

A unit is compiled under a width for the numbers of its constants, with or without bitfields that
nothing needs. The width decides which constants are accepted and nothing else: a constant that fits
is encoded in the same way at every width. So a unit that is accepted under some options is accepted
under all options that are at least as wide. Its tables are the same, but that a bitfield may be
left out on one side.

## Main definitions

* `Tables.withoutBitfields`: all of the tables of a unit but its bitfields.
-/

namespace PropertyTables

variable {unit group : String} {bits bits' : Nat}

/-! ## Constants -/

/-- What is read at some width is read at every larger one, as the same resource. -/
theorem parse_of_le {value : String} {id : ResourceId} (wider : bits ≤ bits') (valid : bits' ≤ 64)
    (read : ResourceId.parse value bits = .ok id) : ResourceId.parse value bits' = .ok id := by
  obtain ⟨inRange, denotes, fits⟩ := parse_eq_ok.1 read
  have larger : 2 ^ bits ≤ 2 ^ bits' := Nat.pow_le_pow_right (by decide) wider
  refine parse_eq_ok.2 ⟨?_, denotes, Nat.lt_of_lt_of_le fits larger⟩
  grind [isResourceWidth_iff]

theorem Listed.encode_of_le {c : Listed} {e : EncodedConstant} (wider : bits ≤ bits')
    (valid : bits' ≤ 64) (encoded : c.encode unit bits = .ok e) : c.encode unit bits' = .ok e := by
  obtain ⟨constant, id, found, read, rfl⟩ := exists_resource encoded
  simp only [encode, found, encodeValue, parse_of_le wider valid read]
  rfl

namespace Schema

variable {s : Schema} {id unitId : NodeId} {groups : List NodeId} {options options' : Options}

/-- A step after which no constant has failed is the same at a larger width, and none had failed
before it. -/
theorem encodeNext_of_le (wider : bits ≤ bits') (valid : bits' ≤ 64)
    (before : Encoding × List EncodedConstant) (id : NodeId)
    (after : Encoding × List EncodedConstant) (clean : after.1.errors = [])
    (taken : s.encodeNext unit group bits before id = .ok after) :
    before.1.errors = [] ∧ s.encodeNext unit group bits' before id = .ok after := by
  obtain ⟨node, found, taken⟩ := bind_eq_ok.1 taken
  simp only [encodeNext, found, ok_bind]
  dsimp only at taken
  split at taken
  · cases taken
  · split at taken
    · rename_i e encoded
      cases taken
      exact ⟨clean, by simp only [Listed.encode_of_le wider valid encoded]⟩
    · cases taken
      simp at clean

theorem encodeGroup_of_le (wider : bits ≤ bits') (valid : bits' ≤ 64)
    (before : Encoding × List GroupTable) (id : NodeId) (after : Encoding × List GroupTable)
    (clean : after.1.errors = []) (taken : s.encodeGroup unit bits before id = .ok after) :
    before.1.errors = [] ∧ s.encodeGroup unit bits' before id = .ok after := by
  obtain ⟨node, found, taken⟩ := bind_eq_ok.1 taken
  simp only [encodeGroup, found, ok_bind]
  split at taken
  · obtain ⟨state, folded, taken⟩ := bind_eq_ok.1 taken
    cases taken
    obtain ⟨before, folded'⟩ := foldlM_transfer (encodeNext_of_le wider valid) clean folded
    exact ⟨before, by rw [folded', ok_bind]⟩
  · cases taken

/-- Groups whose constants all fit a width have the same tables at every larger one. -/
theorem encodeGroups_of_le {tables : List GroupTable} (wider : bits ≤ bits') (valid : bits' ≤ 64)
    (encoded : s.encodeGroups unit groups bits = .ok tables) :
    s.encodeGroups unit groups bits' = .ok tables := by
  obtain ⟨⟨encoding, made⟩, folded, encoded⟩ := bind_eq_ok.1 encoded
  dsimp only at encoded
  split at encoded
  · rename_i clean
    obtain ⟨-, folded'⟩ :=
      foldlM_transfer (encodeGroup_of_le wider valid) (List.isEmpty_iff.1 clean) folded
    simp only [encodeGroups, folded', ok_bind, clean, if_true, encoded]
  · cases encoded

theorem declarations_of_le {kind : Kind} {declared : Declarations} (wider : bits ≤ bits')
    (valid : bits' ≤ 64) (made : s.declarations unitId kind bits = .ok declared) :
    s.declarations unitId kind bits' = .ok declared := by
  cases kind with
  | trait t =>
    obtain ⟨profile, profiled, made⟩ := bind_eq_ok.1 made
    obtain ⟨groups, encoded, made⟩ := bind_eq_ok.1 made
    simp only [declarations, profiled, encodeGroups_of_le wider valid encoded, ok_bind, made]
  | typespace t =>
    obtain ⟨groups, encoded, made⟩ := bind_eq_ok.1 made
    simp only [declarations, encodeGroups_of_le wider valid encoded, ok_bind, made]
  | _ => exact made

end Schema

/-! ## Units -/

/-- The bitfield of an attribute in the tables of a unit. -/
def Tables.bitfield (tables : Tables) : Attribute → BitfieldTable
  | .dictionary => tables.dictionary
  | .optional => tables.optional
  | .nullable => tables.nullable
  | .ephemeral => tables.ephemeral

/-- The tables of a unit, its bitfields left out. -/
def Tables.withoutBitfields (tables : Tables) : Tables :=
  { tables with dictionary := {}, optional := {}, nullable := {}, ephemeral := {} }

namespace Schema

variable {s : Schema} {unit : NodeId} {options options' : Options} {tables : Tables}

/-- A bitfield that is there has the bits of its attribute, forced or not. -/
theorem bytes_unitBitfield {kind : UnitKind} {force : Bool} {paths : List Path} {a : Attribute}
    (present : (s.unitBitfield kind force paths a).present) :
    (s.unitBitfield kind force paths a).bytes = (a.packed s paths).bytes := by
  cases kind with
  | enum => cases present
  | _ =>
    simp only [unitBitfield, Attribute.bitfield?] at present ⊢
    by_cases needed : (force || (a.packed s paths).any) = true
    · rw [if_pos needed]
      rfl
    · rw [if_neg needed] at present
      cases present

/-- A unit that is accepted under some options is accepted under all options that are at least as
wide, whether bitfields are forced or not. The tables agree in all but the bitfields, and a bitfield
that both have is the same. -/
theorem compileUnit_of_width_le (wider : options.width ≤ options'.width)
    (valid : options'.width ≤ 64) (accepted : s.compileUnit options unit = .ok tables) :
    ∃ tables', s.compileUnit options' unit = .ok tables' ∧
      tables'.withoutBitfields = tables.withoutBitfields ∧
      ∀ a : Attribute, (tables.bitfield a).present → (tables'.bitfield a).present →
        (tables'.bitfield a).bytes = (tables.bitfield a).bytes := by
  obtain ⟨node, kind, table, info, declared, inRange, found, classified, verified, handles, versions,
    made, rfl⟩ := compileUnit_eq_ok.1 accepted
  have inRange' : options'.validate = .ok () := by
    grind [Options.validate, isResourceWidth_iff]
  have made' := declarations_of_le wider valid made
  refine ⟨_, compileUnit_eq_ok.2 ⟨node, kind, table, info, declared, inRange', found, classified,
    verified, handles, versions, made', rfl⟩, rfl, ?_⟩
  intro a present present'
  cases a <;> exact (bytes_unitBitfield present').trans (bytes_unitBitfield present).symm

/-- A trait with an optional field and a constant of nine bits. -/
def doorSchema : Schema := Schema.empty.run [
  .declare "weave.trait.example" "DoorTrait" (.trait 2584),
  .attach 0 "bolt" (.field 1 { isOptional := true }),
  .attach 0 "DoorId" (.group 1),
  .attach 2 "DOOR_ID_FRONT" (.constant 1 "DEVICE_1FF")]

/-- From nine bits on the constant is accepted, and forcing adds the bitfields that are not there. -/
theorem doorSchema_wider :
    (doorSchema.compileUnit { width := 8 } 0).toOption = none ∧
    ∃ tables tables', doorSchema.compileUnit { width := 9 } 0 = .ok tables ∧
      doorSchema.compileUnit { width := 64, forceBitfields := true } 0 = .ok tables' ∧
      tables'.withoutBitfields = tables.withoutBitfields ∧
      tables'.optional.bytes = tables.optional.bytes ∧ tables.optional.bytes = [1] ∧
      tables.ephemeral.present = false ∧ tables'.ephemeral = ⟨true, [0]⟩ := by
  have narrow : (doorSchema.compileUnit { width := 9 } 0).toOption.map
      (fun tables => (tables.optional, tables.ephemeral)) = some (⟨true, [1]⟩, {}) := by
    decide +kernel
  have wide : (doorSchema.compileUnit { width := 64, forceBitfields := true } 0).toOption.map
      (fun tables => (tables.optional, tables.ephemeral)) = some (⟨true, [1]⟩, ⟨true, [0]⟩) := by
    decide +kernel
  obtain ⟨tables, accepted, emitted⟩ := Option.map_eq_some_iff.1 narrow
  obtain ⟨tables', accepted', emitted'⟩ := Option.map_eq_some_iff.1 wide
  rw [toOption_eq_some] at accepted accepted'
  obtain ⟨optional, ephemeral⟩ := Prod.mk.inj emitted
  obtain ⟨optional', ephemeral'⟩ := Prod.mk.inj emitted'
  have widths : (9 : Nat) ≤ 64 := by decide
  obtain ⟨other, again, same, bytes⟩ := @compileUnit_of_width_le doorSchema 0 { width := 9 }
    { width := 64, forceBitfields := true } tables widths (by decide) accepted
  obtain rfl := Except.ok.inj (accepted'.symm.trans again)
  have optionals : tables'.optional.bytes = tables.optional.bytes :=
    bytes .optional (by simp [Tables.bitfield, optional]) (by simp [Tables.bitfield, optional'])
  exact ⟨by decide +kernel, tables, tables', accepted, accepted', same, optionals,
    by simp [optional], by simp [ephemeral], ephemeral'⟩

end Schema

end PropertyTables
