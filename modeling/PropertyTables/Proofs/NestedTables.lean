import PropertyTables.Proofs.WellFormedUnits

/-!
# Tables of nested declarations

Tables are made for those listed nodes that are of the right kind, and the others are passed over.
In a verified unit of a schema made by edits there are no others: a listed node belongs to the node
that lists it, and was listed there for what it is. So nothing is lost. There is a table for every
command, enum and event, in order, and for every struct but those that have none by rule.

## Main definitions

* `Schema.MirrorsCommand`, `Schema.MirrorsEnum`, `Schema.MirrorsStruct`, `Schema.MirrorsEvent`: what
  the table of a declaration has to say.
* `Schema.Mirrors`: the tables of a unit have all its declarations, in order and with distinct
  numbers.
-/

namespace PropertyTables

namespace Kind

def struct? : Kind → Option Struct
  | struct t => some t
  | _ => none

/-- Whether a struct below a node has a table: well-known structs have none, and in a trait those
without fields have none either. -/
def emits (kind : Kind) (t : Struct) : Bool :=
  !t.isStandard && (kind.trait?.isNone || !t.fields.isEmpty)

end Kind

namespace Schema

/-! ## What tables have to say -/

/-- The name and number of a declaration. -/
def MirrorsName (s : Schema) (id : NodeId) (entry : NamedNumber) : Prop :=
  entry = ⟨s.name id, Text.camelize (s.name id), s.number id⟩

/-- The name, number and attributes of a field. -/
def MirrorsField (s : Schema) (id : NodeId) (entry : StructField) : Prop :=
  ∃ f, s.field? id = some f ∧
    entry = ⟨s.name id, Text.camelize (s.name id), s.number id, f.isOptional, f.isNullable⟩

/-- A response with all its fields. -/
inductive MirrorsResponse (s : Schema) : NodeId → ResponseTable → Prop
  | struct {id : NodeId} {t : Struct} {fields : List NamedNumber}
    (found : s.kind? id = some (.struct t))
    (all : List.Forall₂ s.MirrorsName t.fields fields)
    (distinct : (fields.map NamedNumber.number).Nodup) : MirrorsResponse s id ⟨s.name id, fields⟩

/-- A command with all its parameters, and with a response exactly when it has one. -/
inductive MirrorsCommand (s : Schema) : NodeId → CommandTable → Prop
  | command {id : NodeId} {c : Command} {parameters : List NamedNumber}
    {response : Option ResponseTable} (found : s.kind? id = some (.command c))
    (all : List.Forall₂ s.MirrorsName c.parameters parameters)
    (distinct : (parameters.map NamedNumber.number).Nodup)
    (answer : Option.Rel s.MirrorsResponse c.response response) :
    MirrorsCommand s id ⟨s.name id, s.number id, parameters, response⟩

/-- An enum with all its values. -/
inductive MirrorsEnum (s : Schema) : NodeId → EnumTable → Prop
  | enum {id : NodeId} {e : Enum} {values : List NamedNumber} (found : s.kind? id = some (.enum e))
    (all : values.map (fun v => (v.name, v.number)) = e.values.map fun v => (v.name, v.number))
    (distinct : (values.map NamedNumber.number).Nodup) :
    MirrorsEnum s id ⟨s.name id, e.isBitmask, values⟩

/-- A struct with all its fields. -/
inductive MirrorsStruct (s : Schema) : NodeId → StructTable → Prop
  | struct {id : NodeId} {t : Struct} {fields : List StructField}
    (found : s.kind? id = some (.struct t))
    (all : List.Forall₂ s.MirrorsField t.fields fields)
    (distinct : (fields.map StructField.number).Nodup) :
    MirrorsStruct s id ⟨s.name id, s.number id, fields⟩

/-- An event with its importance. -/
def MirrorsEvent (s : Schema) (id : NodeId) (table : EventTable) : Prop :=
  ∃ t, s.kind? id = some (.struct t) ∧ table.name = s.name id ∧ table.number = s.number id ∧
    table.importance = t.importance.getD .debug

/-- The structs of a node that have a table. -/
def emittedStructs (s : Schema) (kind : Kind) : List NodeId :=
  kind.structs.filter fun id => ((s.kind? id).bind Kind.struct?).any kind.emits

/-- The tables have the declarations of a node, each list in order and with distinct numbers. Tables
of enums have no number, so those of the enums are meant. -/
structure Mirrors (s : Schema) (kind : Kind) (tables : Declarations) : Prop where
  commands : List.Forall₂ s.MirrorsCommand kind.commands tables.commands
  enums : List.Forall₂ s.MirrorsEnum kind.enums tables.enums
  events : List.Forall₂ s.MirrorsEvent kind.events tables.events
  isStruct {id : NodeId} : id ∈ kind.structs → ∃ t, s.kind? id = some (.struct t)
  structs : List.Forall₂ s.MirrorsStruct (s.emittedStructs kind) tables.structs
  commandNumbers : (tables.commands.map CommandTable.number).Nodup
  enumNumbers : (kind.enums.map s.number).Nodup
  eventNumbers : (tables.events.map EventTable.number).Nodup
  structNumbers : (tables.structs.map StructTable.number).Nodup

variable {s : Schema} {unit id : NodeId} {name : String} {list : ChildList} {ids : List NodeId}
  {options : Options} {tables : Tables} {kind : Kind}

theorem MirrorsField.number_eq {entry : StructField} (h : s.MirrorsField id entry) :
    s.number id = entry.number := by
  obtain ⟨f, -, rfl⟩ := h
  rfl

theorem MirrorsCommand.number_eq {table : CommandTable} (h : s.MirrorsCommand id table) :
    s.number id = table.number := by
  cases h
  rfl

theorem MirrorsStruct.number_eq {table : StructTable} (h : s.MirrorsStruct id table) :
    s.number id = table.number := by
  cases h
  rfl

theorem MirrorsEvent.number_eq {table : EventTable} (h : s.MirrorsEvent id table) :
    s.number id = table.number := by
  obtain ⟨t, -, -, same, -⟩ := h
  exact same.symm

/-! ## Listed nodes are what they are listed for -/

/-- What the check of a node says of the list under a label. -/
structure CheckedList (s : Schema) (name label : String) (ids : List NodeId) : Prop where
  kindLabel? {child : NodeId} : child ∈ ids → s.kindLabel? child = ChildList.kindLabel label
  checked {child : NodeId} : child ∈ ids → s.verifySiblings name child = .ok ()
  numbers : (ids.map s.number).Nodup

theorem Orderly.checkedList (orderly : s.Orderly) (checked : s.verifySiblings name id = .ok ())
    (listed : list ∈ s.childLists id) : s.CheckedList name list.label list.ids := by
  obtain ⟨owned, -, numbers⟩ := (verifySiblings_eq_ok.1 checked).2 list listed
  exact ⟨fun hchild => orderly.kind listed hchild (owned _ hchild).1,
    fun hchild => (owned _ hchild).2, numbers⟩

/-- The fields of a struct that was checked. -/
theorem Orderly.checkedFields (orderly : s.Orderly) (checked : s.verifySiblings name id = .ok ())
    {t : Struct} (found : s.kind? id = some (.struct t)) :
    s.CheckedList name "field_list" t.fields := by
  have listed : ⟨"field_list", t.fields⟩ ∈ s.childLists id := by
    simp [childLists_of_kind? found, Kind.childLists]
  exact orderly.checkedList checked listed

/-! ## Commands, enums and events -/

theorem mirrorsName_namedFields (s : Schema) (ids : List NodeId) :
    List.Forall₂ s.MirrorsName ids (s.namedFields ids) := by
  rw [namedFields, List.forall₂_map_right_iff, List.forall₂_same]
  exact fun _ _ => rfl

@[simp] theorem numbers_namedFields (s : Schema) (ids : List NodeId) :
    (s.namedFields ids).map NamedNumber.number = ids.map s.number := by
  simp [namedFields, Function.comp_def]

theorem exists_responseTable (orderly : s.Orderly) (checked : s.verifySiblings name id = .ok ())
    (isStruct : s.kindLabel? id = some "struct") :
    ∃ table, s.responseTable id = some table ∧ s.MirrorsResponse id table := by
  obtain ⟨_, found, t, rfl⟩ := exists_of_kindLabel? isStruct
  have fields := orderly.checkedFields checked found
  refine ⟨⟨s.name id, s.namedFields t.fields⟩, by simp only [responseTable, found], ?_⟩
  exact .struct found (mirrorsName_namedFields ..) (by simpa using fields.numbers)

theorem CheckedList.commands (commands : s.CheckedList name "command_list" ids)
    (orderly : s.Orderly) : List.Forall₂ s.MirrorsCommand ids (s.commandTables ids) := by
  refine forall₂_filterMap fun id hid => ?_
  obtain ⟨_, found, c, rfl⟩ := exists_of_kindLabel? (commands.kindLabel? hid)
  have lists := childLists_of_kind? found
  have listed : ⟨"parameter_list", c.parameters⟩ ∈ s.childLists id := by
    simp [lists, Kind.childLists]
  have parameters := orderly.checkedList (commands.checked hid) listed
  simp only [found]
  refine ⟨_, rfl, .command found (mirrorsName_namedFields ..) ?_ ?_⟩
  · simpa using parameters.numbers
  cases response : c.response with
  | none => exact .none
  | some answer =>
    have listed : ⟨"response", [answer]⟩ ∈ s.childLists id := by
      simp [lists, Kind.childLists, response]
    have answers := orderly.checkedList (commands.checked hid) listed
    obtain ⟨table, made, mirrors⟩ := exists_responseTable orderly
      (answers.checked List.mem_cons_self) (answers.kindLabel? List.mem_cons_self)
    rw [Option.bind_some, made]
    exact .some mirrors

theorem CheckedList.enums (enums : s.CheckedList name "enum_list" ids) :
    List.Forall₂ s.MirrorsEnum ids (s.enumTables ids) := by
  refine forall₂_filterMap fun id hid => ?_
  obtain ⟨_, found, e, rfl⟩ := exists_of_kindLabel? (enums.kindLabel? hid)
  have values := verifyValues_eq_ok.1 (verifySiblings_eq_ok.1 (enums.checked hid)).1 e found
  simp only [found]
  refine ⟨_, rfl, .enum found ?_ ?_⟩
  · simp [enumValues, Function.comp_def]
  · simpa [enumValues, Function.comp_def] using values.2

theorem CheckedList.events (events : s.CheckedList name "event_list" ids) (version : UInt32) :
    List.Forall₂ s.MirrorsEvent ids (s.eventTables version ids) := by
  refine forall₂_filterMap fun id hid => ?_
  obtain ⟨_, found, t, rfl⟩ := exists_of_kindLabel? (events.kindLabel? hid)
  simp only [found]
  exact ⟨_, rfl, t, found, rfl, rfl, rfl⟩

/-! ## Structs -/

theorem CheckedList.fields (fields : s.CheckedList name "field_list" ids) :
    List.Forall₂ s.MirrorsField ids (s.structFields ids) := by
  refine forall₂_filterMap fun id hid => ?_
  obtain ⟨f, found⟩ := kindLabel?_eq_field.1 (fields.kindLabel? hid)
  simp only [found, Option.map_some]
  exact ⟨_, rfl, f, found, rfl⟩

/-- The table that a struct has unless it has none by rule. -/
def structTable (s : Schema) (id : NodeId) (t : Struct) : StructTable :=
  ⟨s.name id, s.number id, s.structFields t.fields⟩

theorem mirrorsStruct_structTable (orderly : s.Orderly)
    (checked : s.verifySiblings name id = .ok ()) {t : Struct}
    (found : s.kind? id = some (.struct t)) : s.MirrorsStruct id (s.structTable id t) := by
  have fields := orderly.checkedFields checked found
  have numbers : t.fields.map s.number = (s.structFields t.fields).map StructField.number :=
    map_eq_of_forall₂ fields.fields fun _ _ => (·.number_eq)
  exact .struct found fields.fields (numbers ▸ fields.numbers)

/-- Tables that are made by a rule are there for the structs that the rule keeps. -/
theorem CheckedList.structs (structs : s.CheckedList name "struct_list" ids) (orderly : s.Orderly)
    {keeps : Struct → Bool} {make : NodeId → Option StructTable}
    (rule : ∀ id t, s.kind? id = some (.struct t) → s.verifySiblings name id = .ok () →
      make id = if keeps t then some (s.structTable id t) else none) :
    List.Forall₂ s.MirrorsStruct (ids.filter fun id => ((s.kind? id).bind Kind.struct?).any keeps)
      (ids.filterMap make) := by
  refine forall₂_filter_filterMap (fun id hid kept => ?_) fun id hid dropped => ?_
  · obtain ⟨_, found, t, rfl⟩ := exists_of_kindLabel? (structs.kindLabel? hid)
    have checked := structs.checked hid
    have kept : keeps t := by simpa [found, Kind.struct?] using kept
    exact ⟨_, by rw [rule id t found checked, if_pos kept],
      mirrorsStruct_structTable orderly checked found⟩
  · obtain ⟨_, found, t, rfl⟩ := exists_of_kindLabel? (structs.kindLabel? hid)
    have dropped : ¬ keeps t := by simpa [found, Kind.struct?] using dropped
    rw [rule id t found (structs.checked hid), if_neg dropped]

/-! ## Units -/

/-- The declarations of a unit are lists of children, or there are none. -/
theorem Orderly.checkedList_of_kind (orderly : s.Orderly)
    (checked : s.verifySiblings name unit = .ok ()) (found : s.kind? unit = some kind)
    (label : String) : s.CheckedList name label (kind.listed label) := by
  rcases kind.listed_eq_nil_or_mem label with empty | listed
  · rw [empty]
    exact ⟨by simp, by simp, by simp⟩
  · rw [← childLists_of_kind? found] at listed
    exact orderly.checkedList checked listed

theorem declarations_eq_ok {width : Nat} {declared : Declarations}
    (made : s.declarations unit kind width = .ok declared) (notEnum : ∀ e, kind ≠ .enum e) :
    declared.commands = s.commandTables kind.commands ∧
      declared.enums = s.enumTables kind.enums ∧
      (∃ version, declared.events = s.eventTables version kind.events) ∧
      declared.structs = (s.structTables kind.structs).filter fun table =>
        kind.trait?.isNone || !table.fields.isEmpty := by
  cases kind with
  | trait t =>
    obtain ⟨profile, -, groups, -, made⟩ : ∃ profile, _ ∧ ∃ groups, _ := by
      simpa [declarations] using made
    cases made
    exact ⟨rfl, rfl, ⟨_, rfl⟩, by simp [Kind.trait?, Kind.structs]⟩
  | typespace t =>
    obtain ⟨groups, -, made⟩ : ∃ groups, _ := by simpa [declarations] using made
    cases made
    exact ⟨rfl, rfl, ⟨0, rfl⟩, by simp [Kind.trait?, Kind.structs]⟩
  | enum e => exact absurd rfl (notEnum e)
  | _ =>
    cases made
    exact ⟨rfl, rfl, ⟨0, rfl⟩, rfl⟩

theorem CheckedList.emitted (structs : s.CheckedList name "struct_list" kind.structs)
    (orderly : s.Orderly) :
    List.Forall₂ s.MirrorsStruct (s.emittedStructs kind)
      ((s.structTables kind.structs).filter fun table =>
        kind.trait?.isNone || !table.fields.isEmpty) := by
  rw [structTables, List.filter_filterMap]
  refine structs.structs orderly fun id t found checked => ?_
  have fields := (orderly.checkedFields checked found).fields.length_eq
  have empty : (s.structFields t.fields).isEmpty = t.fields.isEmpty := by
    rw [Bool.eq_iff_iff, List.isEmpty_iff_length_eq_zero, List.isEmpty_iff_length_eq_zero, fields]
  simp only [found, Kind.emits]
  by_cases standard : t.isStandard <;> simp [standard, Option.filter, structTable, empty]

/-- The tables of a trait or typespace that is compiled have all that it declares: a table for every
command, enum and event, in order, and for every struct but those that have none by rule. -/
theorem compileUnit_mirrors (reachable : s.Reachable)
    (accepted : s.compileUnit options unit = .ok tables) (found : s.kind? unit = some kind)
    (sort : tables.kind = .trait ∨ tables.kind = .typespace) :
    s.Mirrors kind tables.declarations := by
  obtain ⟨node, unitKind, table, info, declared, -, hnode, classified, verified, -, -, made, rfl⟩ :=
    compileUnit_eq_ok.1 accepted
  obtain ⟨-, -, -, checked⟩ := verifyUnit_eq_ok.1 verified
  obtain rfl : node.kind = kind := by simpa [kind?, hnode] using found
  have orderly := reachable.orderly
  have notEnum : ∀ e, node.kind ≠ .enum e := by
    intro e isEnum
    rcases sort with rfl | rfl <;> simp [classify, hnode, isEnum] at classified
  obtain ⟨commands, enums, ⟨version, events⟩, structs⟩ := declarations_eq_ok made notEnum
  have lists := orderly.checkedList_of_kind checked found
  have commandList := lists "command_list"
  have enumList := lists "enum_list"
  have eventList := lists "event_list"
  have structList := lists "struct_list"
  obtain ⟨sameCommands, sameEnums, sameEvents, -, sameStructs⟩ := node.kind.listed_eq
  rw [sameCommands] at commandList
  rw [sameEnums] at enumList
  rw [sameEvents] at eventList
  rw [sameStructs] at structList
  constructor
  case commands => exact commands ▸ commandList.commands orderly
  case enums => exact enums ▸ enumList.enums
  case events => exact events ▸ eventList.events version
  case isStruct =>
    intro id hid
    obtain ⟨_, found, t, rfl⟩ := exists_of_kindLabel? (structList.kindLabel? hid)
    exact ⟨t, found⟩
  case structs => exact structs ▸ structList.emitted orderly
  case commandNumbers =>
    rw [commands, ← map_eq_of_forall₂ (commandList.commands orderly) fun _ _ => (·.number_eq)]
    exact commandList.numbers
  case enumNumbers => exact enumList.numbers
  case eventNumbers =>
    rw [events, ← map_eq_of_forall₂ (eventList.events version) fun _ _ => (·.number_eq)]
    exact eventList.numbers
  case structNumbers =>
    rw [structs, ← map_eq_of_forall₂ (structList.emitted orderly) fun _ _ => (·.number_eq)]
    exact structList.numbers.sublist (List.filter_sublist.map s.number)

/-- A trait with a command that has a response, an event, and three structs, of which one is empty
and one well known. -/
def bellSchema : Schema := Schema.empty.run [
  .declare "weave.trait" "BellTrait" (.trait 2583),
  .attach 0 "RingRequest" (.command 1),
  .attach 1 "tone" (.field 1 {}),
  .attach 1 "RingResponse" (.response 2),
  .attach 3 "rang" (.field 1 {}),
  .attach 0 "RangEvent" (.event 1 .info),
  .attach 0 "Chord" (.struct "" 1),
  .attach 6 "root" (.field 1 {}),
  .attach 0 "Silence" (.struct "" 2),
  .attach 0 "Timestamp" (.struct "" 3),
  .attach 9 "seconds" (.field 1 {}),
  .set 9 (.standard true)]

theorem bellSchema_mirrors :
    ∃ kind tables, bellSchema.kind? 0 = some kind ∧ bellSchema.compileUnit {} 0 = .ok tables ∧
      bellSchema.Mirrors kind tables.declarations ∧ kind.structs = [6, 8, 9] ∧
      bellSchema.emittedStructs kind = [6] := by
  have reachable : bellSchema.Reachable := .run .empty _
  have compiles : (bellSchema.compileUnit {} 0).toOption.isSome := by decide +kernel
  obtain ⟨tables, compiled⟩ := Option.isSome_iff_exists.1 compiles
  have accepted := toOption_eq_some.1 compiled
  have found : bellSchema.kind? 0 = some (.trait
      { qualifier := "weave.trait", commands := [1], structs := [6, 8, 9], events := [5] }) := by
    decide +kernel
  have classified : bellSchema.classify 0 = some .trait := by decide +kernel
  have isTrait : tables.kind = .trait :=
    Option.some.inj ((unit_of_compileUnit accepted).2.symm.trans classified)
  have mirrors := compileUnit_mirrors reachable accepted found (.inl isTrait)
  exact ⟨_, tables, found, accepted, mirrors, rfl, by decide +kernel⟩

end Schema

end PropertyTables
