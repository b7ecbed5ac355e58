import Mathlib.Data.Set.Function
import PropertyTables.Proofs.ConstantPrefix
import PropertyTables.Proofs.NestedTables
import PropertyTables.Proofs.SnakeCase

/-!
# Symbols in nested tables

The names of values, fields and parameters are distinct in each list of a verified unit. Their
tables have symbols that are made of the names, and different names may be spelled alike there. The
symbols of paths and constants are compared, those of nested tables are not. So a nested table has a
symbol twice exactly when two of its names are spelled alike. Names in plain snake case, and values
in plain capitals, never are.

## Main definitions

* `Text.ConstantCase`: words of capitals, joined by underscores.
* `Declarations.Unambiguous`: no nested table has a symbol twice.
* `Declarations.ToldApart`: no two names of a nested table are spelled alike.
* `Declarations.Plain`: names in plain snake case, values in plain capitals.
-/

namespace PropertyTables

namespace Text

variable {cs : List Char} {a b : String}

/-! ## Plain capitals -/

/-- Words of capitals, each perhaps with digits at its end, joined by underscores. A digit before a
capital is left out, since `A1B` and `A1_B` are the same in snake case. -/
def ConstantCase (cs : List Char) : Prop :=
  SnakeCase (cs.map Char.toLower) ∧ InCapitals cs ∧ cs.IsChain fun x y => x.isDigit → ¬ y.isUpper

instance (cs : List Char) : Decidable (ConstantCase cs) := inferInstanceAs (Decidable (_ ∧ _ ∧ _))

theorem isAscii_of_snakeRest (h : snakeRest cs) : IsAscii cs := by
  fun_induction snakeRest cs with
  | case1 c cs ih =>
    obtain ⟨lower, h⟩ := Bool.and_eq_true_iff.1 h
    have range := isLower_iff.1 lower
    simpa [IsAscii] using ⟨by omega, ih h⟩
  | case2 c cs _ ih =>
    obtain ⟨inWord, h⟩ := Bool.and_eq_true_iff.1 h
    have range : c.toNat < 0x80 := by grind [isLower_iff, isDigit_iff]
    simpa [IsAscii] using ⟨range, ih h⟩
  | case3 => simp [IsAscii]

theorem ConstantCase.isAscii (h : ConstantCase cs) : IsAscii cs := by
  have small := isAscii_of_snakeRest h.1.camelized.1
  intro c hc
  have below : c.toLower.toNat < 0x80 :=
    small c.toLower (List.mem_cons_of_mem _ (List.mem_map_of_mem hc))
  rw [toNat_toLower] at below
  split at below <;> omega

/-- In snake case, plain capitals are only made small. -/
theorem ConstantCase.underscoreChars_eq (h : ConstantCase cs) :
    underscoreChars cs = cs.map Char.toLower := by
  have ⟨_, capitals, digits⟩ := h
  have whole := (capitals.separateWords_eq_iff h.isAscii).2 digits
  rw [underscoreChars_of_ascii h.isAscii, whole]
  refine List.map_congr_left fun c hc => ?_
  rw [underscoreChar, if_neg (capitals c hc).2]

theorem ConstantCase.toUpper_toLower (h : ConstantCase cs) :
    (cs.map Char.toLower).map Char.toUpper = cs := by
  rw [List.map_map, List.map_congr_left (g := id), List.map_id]
  intro c hc
  rw [Function.comp_apply, Text.toUpper_toLower, toUpper_eq_self (h.2.1 c hc).1, id]

/-- Plain capitals can be told apart in camel case, since they can in small letters. -/
theorem eq_of_camelize_underscore_eq (ha : ConstantCase a.toList) (hb : ConstantCase b.toList)
    (same : camelize (underscore a) = camelize (underscore b)) : a = b := by
  have small {n : String} (h : ConstantCase n.toList) :
      (underscore n).toList = n.toList.map Char.toLower := by
    rw [underscore, String.toList_ofList, h.underscoreChars_eq]
  have snake {n : String} (h : ConstantCase n.toList) : SnakeCase (underscore n).toList := by
    rw [small h]
    exact h.1
  have same := congrArg String.toList (eq_of_camelize_eq (snake ha) (snake hb) same)
  rw [small ha, small hb] at same
  rw [← String.toList_inj, ← ha.toUpper_toLower, same, hb.toUpper_toLower]

end Text

open Text

/-! ## Tables with names and symbols -/

namespace Declarations

/-- No nested table has a symbol twice. -/
structure Unambiguous (d : Declarations) : Prop where
  values : ∀ table ∈ d.enums, (table.values.map NamedNumber.symbol).Nodup
  fields : ∀ table ∈ d.structs, (table.fields.map StructField.symbol).Nodup
  parameters : ∀ table ∈ d.commands, (table.parameters.map NamedNumber.symbol).Nodup

/-- No two names of a nested table are spelled alike. -/
structure ToldApart (d : Declarations) : Prop where
  values : ∀ table ∈ d.enums,
    Set.InjOn (camelize ∘ underscore) {name | name ∈ table.values.map NamedNumber.name}
  fields : ∀ table ∈ d.structs, Set.InjOn camelize {name | name ∈ table.fields.map StructField.name}
  parameters : ∀ table ∈ d.commands,
    Set.InjOn camelize {name | name ∈ table.parameters.map NamedNumber.name}

/-- Values are in plain capitals, fields and parameters in plain snake case. -/
structure Plain (d : Declarations) : Prop where
  values : ∀ table ∈ d.enums, ∀ value ∈ table.values, ConstantCase value.name.toList
  fields : ∀ table ∈ d.structs, ∀ field ∈ table.fields, SnakeCase field.name.toList
  parameters : ∀ table ∈ d.commands, ∀ field ∈ table.parameters, SnakeCase field.name.toList

/-- Names that all have a form in which names are told apart. -/
theorem injOn_of_form {α : Type} {spell : String → String} {name : α → String}
    {form : List Char → Prop} {entries : List α}
    (apart : ∀ {a b : String}, form a.toList → form b.toList → spell a = spell b → a = b)
    (all : ∀ entry ∈ entries, form (name entry).toList) :
    Set.InjOn spell {n | n ∈ entries.map name} := by
  intro a ha b hb same
  obtain ⟨v, hv, rfl⟩ := List.mem_map.1 ha
  obtain ⟨w, hw, rfl⟩ := List.mem_map.1 hb
  exact apart (all v hv) (all w hw) same

theorem Plain.toldApart {d : Declarations} (plain : d.Plain) : d.ToldApart where
  values table htable := injOn_of_form eq_of_camelize_underscore_eq (plain.values table htable)
  fields table htable := injOn_of_form eq_of_camelize_eq (plain.fields table htable)
  parameters table htable := injOn_of_form eq_of_camelize_eq (plain.parameters table htable)

end Declarations

/-- Entries with distinct names, whose symbols are the names as they are spelled. -/
structure Spelled {α : Type} (spell : String → String) (name symbol : α → String)
    (entries : List α) : Prop where
  distinct : (entries.map name).Nodup
  symbol_eq : ∀ entry ∈ entries, symbol entry = spell (name entry)

theorem Spelled.nodup_iff {α : Type} {spell : String → String} {name symbol : α → String}
    {entries : List α} (h : Spelled spell name symbol entries) :
    (entries.map symbol).Nodup ↔ Set.InjOn spell {n | n ∈ entries.map name} := by
  have symbols : entries.map symbol = (entries.map name).map spell := by
    rw [List.map_map]
    exact List.map_congr_left h.symbol_eq
  rw [symbols, List.nodup_map_iff_inj_on h.distinct]
  rfl

namespace Schema

variable {s : Schema} {unit id : NodeId} {name : String} {ids : List NodeId} {kind : Kind}
  {options : Options} {tables : Tables}

/-! ## Names in verified lists -/

theorem spelled_enumValues {values : List EnumValue}
    (distinct : (values.map EnumValue.name).Nodup) :
    Spelled (camelize ∘ underscore) NamedNumber.name NamedNumber.symbol (enumValues values) where
  distinct := by simpa [enumValues, Function.comp_def] using distinct
  symbol_eq := by simp [enumValues]

theorem spelled_namedFields (distinct : (ids.map s.name).Nodup) :
    Spelled camelize NamedNumber.name NamedNumber.symbol (s.namedFields ids) where
  distinct := by simpa [namedFields, Function.comp_def] using distinct
  symbol_eq := by simp [namedFields]

theorem names_structFields_sublist (s : Schema) (ids : List NodeId) :
    ((s.structFields ids).map StructField.name).Sublist (ids.map s.name) := by
  induction ids with
  | nil => exact .slnil
  | cons id ids ih =>
    cases found : s.field? id with
    | none => simpa [structFields, found] using ih.cons (s.name id)
    | some f => simpa [structFields, found] using ih

theorem spelled_structFields (distinct : (ids.map s.name).Nodup) :
    Spelled camelize StructField.name StructField.symbol (s.structFields ids) where
  distinct := distinct.sublist (names_structFields_sublist s ids)
  symbol_eq entry hentry := by
    obtain ⟨id, -, made⟩ := List.mem_filterMap.1 hentry
    obtain ⟨f, -, rfl⟩ := Option.map_eq_some_iff.1 made
    rfl

theorem nodup_names_of_verifySiblings {list : ChildList}
    (checked : s.verifySiblings name id = .ok ()) (found : s.kind? id = some kind)
    (listed : list ∈ kind.childLists) : (list.ids.map s.name).Nodup := by
  rw [← childLists_of_kind? found] at listed
  exact (wellListed_of_verifySiblings checked).names listed

theorem spelled_enumTables (checked : ∀ id ∈ ids, s.verifySiblings name id = .ok ())
    {table : EnumTable} (h : table ∈ s.enumTables ids) :
    Spelled (camelize ∘ underscore) NamedNumber.name NamedNumber.symbol table.values := by
  obtain ⟨id, hid, made⟩ := List.mem_filterMap.1 h
  split at made
  · rename_i e found
    cases made
    exact spelled_enumValues ((wellListed_of_verifySiblings (checked id hid)).valueNames found)
  · cases made

theorem spelled_structTables (checked : ∀ id ∈ ids, s.verifySiblings name id = .ok ())
    {table : StructTable} (h : table ∈ s.structTables ids) :
    Spelled camelize StructField.name StructField.symbol table.fields := by
  obtain ⟨id, hid, made⟩ := List.mem_filterMap.1 h
  split at made
  · rename_i t found
    split at made
    · cases made
    · cases made
      have listed : ⟨"field_list", t.fields⟩ ∈ (Kind.struct t).childLists := by
        simp [Kind.childLists]
      exact spelled_structFields (nodup_names_of_verifySiblings (checked id hid) found listed)
  · cases made

theorem spelled_commandTables (checked : ∀ id ∈ ids, s.verifySiblings name id = .ok ())
    {table : CommandTable} (h : table ∈ s.commandTables ids) :
    Spelled camelize NamedNumber.name NamedNumber.symbol table.parameters := by
  obtain ⟨id, hid, made⟩ := List.mem_filterMap.1 h
  split at made
  · rename_i c found
    cases made
    have listed : ⟨"parameter_list", c.parameters⟩ ∈ (Kind.command c).childLists := by
      simp [Kind.childLists]
    exact spelled_namedFields (nodup_names_of_verifySiblings (checked id hid) found listed)
  · cases made

/-! ## Units -/

theorem verifySiblings_of_listed (checked : s.verifySiblings name unit = .ok ())
    (found : s.kind? unit = some kind) (label : String) :
    ∀ id ∈ kind.listed label, s.verifySiblings name id = .ok () := by
  rcases kind.listed_eq_nil_or_mem label with empty | listed
  · simp [empty]
  · rw [← childLists_of_kind? found] at listed
    exact fun id hid => (((verifySiblings_eq_ok.1 checked).2 _ listed).1 id hid).2

/-- The nested tables of a unit are made of lists of nodes that were checked with it. An enum is the
only unit that has a table of itself. -/
theorem exists_checked_of_declarations {width : Nat} {declared : Declarations}
    (checked : s.verifySiblings name unit = .ok ()) (found : s.kind? unit = some kind)
    (made : s.declarations unit kind width = .ok declared) :
    ∃ enums structs commands : List NodeId,
      (∀ id ∈ enums, s.verifySiblings name id = .ok ()) ∧
      (∀ id ∈ structs, s.verifySiblings name id = .ok ()) ∧
      (∀ id ∈ commands, s.verifySiblings name id = .ok ()) ∧
      declared.enums = s.enumTables enums ∧
      (∀ table ∈ declared.structs, table ∈ s.structTables structs) ∧
      declared.commands = s.commandTables commands := by
  by_cases isEnum : ∃ e, kind = .enum e
  · obtain ⟨e, rfl⟩ := isEnum
    cases made
    exact ⟨[unit], [], [], by simpa using checked, by simp, by simp, rfl, by simp, rfl⟩
  · obtain ⟨commands, enums, -, structs⟩ :=
      declarations_eq_ok made fun e same => isEnum ⟨e, same⟩
    obtain ⟨sameCommands, sameEnums, -, -, sameStructs⟩ := kind.listed_eq
    rw [← sameCommands] at commands
    rw [← sameEnums] at enums
    rw [← sameStructs] at structs
    have lists := verifySiblings_of_listed checked found
    refine ⟨_, _, _, lists "enum_list", lists "struct_list", lists "command_list", enums, ?_,
      commands⟩
    intro table htable
    rw [structs] at htable
    exact (List.mem_filter.1 htable).1

/-- The nested tables of a unit that compiles are unambiguous exactly when the names in each of them
are told apart. Plain names always are. -/
theorem compileUnit_unambiguous_iff (accepted : s.compileUnit options unit = .ok tables) :
    (tables.declarations.Unambiguous ↔ tables.declarations.ToldApart) ∧
      (tables.declarations.Plain → tables.declarations.Unambiguous) := by
  obtain ⟨node, -, -, -, declared, -, hnode, -, verified, -, -, made, rfl⟩ :=
    compileUnit_eq_ok.1 accepted
  obtain ⟨-, -, -, checked⟩ := verifyUnit_eq_ok.1 verified
  have found : s.kind? unit = some node.kind := by simp [kind?, hnode]
  obtain ⟨enums, structs, commands, checkedEnums, checkedStructs, checkedCommands, hvalues,
    hfields, hparameters⟩ := exists_checked_of_declarations checked found made
  have values {table : EnumTable} (h : table ∈ declared.enums) :=
    (spelled_enumTables checkedEnums (hvalues ▸ h)).nodup_iff
  have fields {table : StructTable} (h : table ∈ declared.structs) :=
    (spelled_structTables checkedStructs (hfields table h)).nodup_iff
  have parameters {table : CommandTable} (h : table ∈ declared.commands) :=
    (spelled_commandTables checkedCommands (hparameters ▸ h)).nodup_iff
  have exact_iff : declared.Unambiguous ↔ declared.ToldApart := by
    constructor
    · intro h
      exact ⟨fun t ht => (values ht).1 (h.values t ht), fun t ht => (fields ht).1 (h.fields t ht),
        fun t ht => (parameters ht).1 (h.parameters t ht)⟩
    · intro h
      exact ⟨fun t ht => (values ht).2 (h.values t ht), fun t ht => (fields ht).2 (h.fields t ht),
        fun t ht => (parameters ht).2 (h.parameters t ht)⟩
  exact ⟨exact_iff, fun plain => exact_iff.2 plain.toldApart⟩

/-- A trait with plain names in nested tables, some of which differ in an underscore only. -/
def lockerSchema : Schema := Schema.empty.run [
  .declare "weave.trait.example" "LockerTrait" (.trait 2587),
  .attach 0 "DoorState" (.enum "" 1 [⟨"DOOR_STATE_OPEN", 1⟩, ⟨"DOOR_STATEOPEN", 2⟩, ⟨"ZONE2", 3⟩]),
  .attach 0 "Shelf" (.struct "" 1),
  .attach 2 "device_id" (.field 1 {}),
  .attach 2 "deviceid" (.field 2 {}),
  .attach 0 "OpenRequest" (.command 1),
  .attach 5 "zone2" (.field 1 {}),
  .attach 5 "zone2_code" (.field 2 {})]

theorem lockerSchema_unambiguous :
    ∃ tables, lockerSchema.compileUnit {} 0 = .ok tables ∧ tables.declarations.Plain ∧
      tables.declarations.Unambiguous ∧
      tables.declarations.enums.map (fun table => table.values.map NamedNumber.symbol) =
        [["DoorStateOpen", "DoorStateopen", "Zone2"]] ∧
      tables.declarations.structs.map (fun table => table.fields.map StructField.symbol) =
        [["DeviceId", "Deviceid"]] ∧
      tables.declarations.commands.map (fun table => table.parameters.map NamedNumber.symbol) =
        [["Zone2", "Zone2Code"]] := by
  have compiled : (lockerSchema.compileUnit {} 0).toOption.map Tables.declarations = some {
      profileId := some 2587
      commands := [⟨"OpenRequest", 1, [⟨"zone2", "Zone2", 1⟩, ⟨"zone2_code", "Zone2Code", 2⟩], none⟩]
      enums := [⟨"DoorState", false, [⟨"DOOR_STATE_OPEN", "DoorStateOpen", 1⟩,
        ⟨"DOOR_STATEOPEN", "DoorStateopen", 2⟩, ⟨"ZONE2", "Zone2", 3⟩]⟩]
      structs := [⟨"Shelf", 1, [⟨"device_id", "DeviceId", 1, false, false⟩,
        ⟨"deviceid", "Deviceid", 2, false, false⟩]⟩] } := by
    decide +kernel
  obtain ⟨tables, compiled, declared⟩ := Option.map_eq_some_iff.1 compiled
  have accepted := toOption_eq_some.1 compiled
  have plain : tables.declarations.Plain := by
    rw [declared]
    exact ⟨by decide, by decide, by decide⟩
  have unambiguous := (compileUnit_unambiguous_iff accepted).2 plain
  refine ⟨tables, accepted, plain, unambiguous, ?_⟩
  rw [declared]
  exact ⟨rfl, rfl, rfl⟩

/-- A trait where two values, two fields and two parameters have different names that are spelled
alike. -/
def cabinetSchema : Schema := Schema.empty.run [
  .declare "weave.trait.example" "CabinetTrait" (.trait 2586),
  .attach 0 "DoorState" (.enum "" 1 [⟨"FULLY_OPEN", 1⟩, ⟨"FullyOpen", 2⟩]),
  .attach 0 "Shelf" (.struct "" 1),
  .attach 2 "device_id" (.field 1 {}),
  .attach 2 "deviceId" (.field 2 {}),
  .attach 0 "OpenRequest" (.command 1),
  .attach 5 "lock_time" (.field 1 {}),
  .attach 5 "lockTime" (.field 2 {})]

/-- Names that are spelled alike are accepted in each kind of nested table. -/
theorem cabinetSchema_ambiguous :
    ∃ tables, cabinetSchema.compileUnit {} 0 = .ok tables ∧ ¬ tables.declarations.Unambiguous ∧
      tables.declarations.enums.map (fun table => table.values.map NamedNumber.symbol) =
        [["FullyOpen", "FullyOpen"]] ∧
      tables.declarations.structs.map (fun table => table.fields.map StructField.symbol) =
        [["DeviceId", "DeviceId"]] ∧
      tables.declarations.commands.map (fun table => table.parameters.map NamedNumber.symbol) =
        [["LockTime", "LockTime"]] := by
  have compiled : (cabinetSchema.compileUnit {} 0).toOption.map Tables.declarations = some {
      profileId := some 2586
      commands := [⟨"OpenRequest", 1,
        [⟨"lock_time", "LockTime", 1⟩, ⟨"lockTime", "LockTime", 2⟩], none⟩]
      enums := [⟨"DoorState", false,
        [⟨"FULLY_OPEN", "FullyOpen", 1⟩, ⟨"FullyOpen", "FullyOpen", 2⟩]⟩]
      structs := [⟨"Shelf", 1, [⟨"device_id", "DeviceId", 1, false, false⟩,
        ⟨"deviceId", "DeviceId", 2, false, false⟩]⟩] } := by
    decide +kernel
  obtain ⟨tables, compiled, declared⟩ := Option.map_eq_some_iff.1 compiled
  refine ⟨tables, toOption_eq_some.1 compiled, ?_, ?_⟩
  · rw [declared]
    exact fun unambiguous => absurd (unambiguous.fields _ List.mem_cons_self) (by decide)
  · rw [declared]
    exact ⟨rfl, rfl, rfl⟩

end Schema

end PropertyTables
