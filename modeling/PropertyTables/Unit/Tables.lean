import PropertyTables.Attribute
import PropertyTables.Constant
import PropertyTables.HandleTable
import PropertyTables.Version

/-!
# Unit tables

What is known of a compiled unit: its property rows and bitfields, its versions, and the tables
of the constants, commands, enums, structs and events it declares.
-/

namespace PropertyTables

/-- What can be compiled. -/
inductive UnitKind
  | trait
  | typespace
  | struct
  | enum
deriving DecidableEq, Repr

def UnitKind.name : UnitKind → String
  | .trait => "trait"
  | .typespace => "typespace"
  | .struct => "struct"
  | .enum => "enum"

/-- A bitfield as it is emitted; one that is not present has no bytes. -/
structure BitfieldTable where
  present : Bool := false
  bytes : List UInt8 := []
deriving DecidableEq, Repr

def BitfieldTable.ofBitfield? : Option Bitfield → BitfieldTable
  | some b => ⟨true, b.bytes⟩
  | none => {}

structure NamedNumber where
  name : String
  symbol : String
  number : UInt32
deriving DecidableEq, Repr

structure ResponseTable where
  name : String
  fields : List NamedNumber
deriving DecidableEq, Repr

structure CommandTable where
  name : String
  number : UInt32
  parameters : List NamedNumber
  response : Option ResponseTable
deriving DecidableEq, Repr

structure EnumTable where
  name : String
  isBitmask : Bool
  values : List NamedNumber
deriving DecidableEq, Repr

structure StructField where
  name : String
  symbol : String
  number : UInt32
  isOptional : Bool
  isNullable : Bool
deriving DecidableEq, Repr

structure StructTable where
  name : String
  number : UInt32
  fields : List StructField
deriving DecidableEq, Repr

structure EventTable where
  name : String
  number : UInt32
  importance : Importance
  version : UInt32
  /-- The oldest version that can still be read. -/
  minVersion : UInt32
deriving DecidableEq, Repr

/-- The tables of what a unit declares besides its properties. -/
structure Declarations where
  /-- The vendor and number of a trait in one word. -/
  profileId : Option UInt32 := none
  groups : List GroupTable := []
  commands : List CommandTable := []
  enums : List EnumTable := []
  structs : List StructTable := []
  events : List EventTable := []
deriving DecidableEq, Repr

structure Tables where
  unit : String
  kind : UnitKind
  rows : List Row
  handleCount : UInt32
  lastHandle : Handle
  treeDepth : UInt32
  extensionOffset : Handle
  base : Option String
  versions : Option VersionRange
  dictionary : BitfieldTable
  optional : BitfieldTable
  nullable : BitfieldTable
  ephemeral : BitfieldTable
  declarations : Declarations
deriving DecidableEq, Repr

namespace Schema

open Text

def namedFields (s : Schema) (ids : List NodeId) : List NamedNumber :=
  ids.map fun id => ⟨s.name id, camelize (s.name id), s.number id⟩

def responseTable (s : Schema) (id : NodeId) : Option ResponseTable :=
  match s.kind? id with
  | some (.struct r) => some ⟨s.name id, s.namedFields r.fields⟩
  | _ => none

def commandTables (s : Schema) (ids : List NodeId) : List CommandTable :=
  ids.filterMap fun id =>
    match s.kind? id with
    | some (.command c) =>
      some ⟨s.name id, s.number id, s.namedFields c.parameters, c.response.bind s.responseTable⟩
    | _ => none

def enumValues (values : List EnumValue) : List NamedNumber :=
  values.map fun v => ⟨v.name, camelize (underscore v.name), v.number⟩

def enumTables (s : Schema) (ids : List NodeId) : List EnumTable :=
  ids.filterMap fun id =>
    match s.kind? id with
    | some (.enum e) => some ⟨s.name id, e.isBitmask, enumValues e.values⟩
    | _ => none

def structFields (s : Schema) (ids : List NodeId) : List StructField :=
  ids.filterMap fun id =>
    (s.field? id).map fun f =>
      ⟨s.name id, camelize (s.name id), s.number id, f.isOptional, f.isNullable⟩

/-- Well-known structs are not emitted. -/
def structTables (s : Schema) (ids : List NodeId) : List StructTable :=
  ids.filterMap fun id =>
    match s.kind? id with
    | some (.struct t) =>
      if t.isStandard then none else some ⟨s.name id, s.number id, s.structFields t.fields⟩
    | _ => none

def eventTables (s : Schema) (version : UInt32) (ids : List NodeId) : List EventTable :=
  ids.filterMap fun id =>
    match s.kind? id with
    | some (.struct e) => some ⟨s.name id, s.number id, e.importance.getD .debug, version, 1⟩
    | _ => none

end Schema

end PropertyTables
