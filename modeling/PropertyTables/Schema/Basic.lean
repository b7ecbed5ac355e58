import PropertyTables.Error

/-!
# Schemas

A schema is an array of nodes. Every node is a declaration: a typespace or trait, a struct or
enum, a command, a field, a group of constants or a constant. Nodes refer to each other by
position, and a node always comes after the one it stands below.
-/

namespace PropertyTables

/-! ## Kinds of declarations -/

inductive Importance
  | productionCritical
  | productionStandard
  | info
  | debug
deriving DecidableEq, Repr

def Importance.all : List Importance := [.productionCritical, .productionStandard, .info, .debug]

def Importance.name : Importance → String
  | .productionCritical => "production_critical"
  | .productionStandard => "production_standard"
  | .info => "info"
  | .debug => "debug"

inductive DataType
  | float
  | double
  | int64
  | uint64
  | int32
  | uint32
  | bool
  | string
  | bytes
  | enum
  | struct
deriving DecidableEq, Repr

def DataType.all : List DataType :=
  [.float, .double, .int64, .uint64, .int32, .uint32, .bool, .string, .bytes, .enum, .struct]

def DataType.name : DataType → String
  | .float => "float"
  | .double => "double"
  | .int64 => "int64"
  | .uint64 => "uint64"
  | .int32 => "int32"
  | .uint32 => "uint32"
  | .bool => "bool"
  | .string => "string"
  | .bytes => "bytes"
  | .enum => "enum"
  | .struct => "struct"

structure Typespace where
  qualifier : String
  version : UInt32 := 1
  enums : List NodeId := []
  structs : List NodeId := []
  groups : List NodeId := []
deriving DecidableEq, Repr

structure Trait where
  qualifier : String
  version : UInt32 := 1
  vendor : UInt16 := 0
  /-- The trait this one extends. -/
  base : Option NodeId := none
  state : List NodeId := []
  enums : List NodeId := []
  commands : List NodeId := []
  groups : List NodeId := []
  structs : List NodeId := []
  events : List NodeId := []
deriving DecidableEq, Repr

/-- A struct, an event (which has an importance) or the response of a command. -/
structure Struct where
  qualifier : String := ""
  isStandard : Bool := false
  fields : List NodeId := []
  importance : Option Importance := none
deriving DecidableEq, Repr

structure EnumValue where
  name : String
  number : UInt32
deriving DecidableEq, Repr

structure Enum where
  qualifier : String := ""
  isBitmask : Bool := false
  values : List EnumValue := []
deriving DecidableEq, Repr

structure Command where
  parameters : List NodeId := []
  response : Option NodeId := none
deriving DecidableEq, Repr

/-- What a field says of its values. -/
structure FieldShape where
  dataType : DataType := .uint32
  isOptional : Bool := false
  isNullable : Bool := false
  isMap : Bool := false
  isEphemeral : Bool := false
  isArray : Bool := false
  /-- A well-known type, which is one property whatever its members. -/
  isStandard : Bool := false
deriving DecidableEq, Repr

structure Field extends FieldShape where
  members : List NodeId := []
  /-- The value side of a map. -/
  value : Option NodeId := none
deriving DecidableEq, Repr

def Field.isStruct (f : Field) : Bool := f.dataType = .struct || !f.members.isEmpty

structure Group where
  constants : List NodeId := []
deriving DecidableEq, Repr

structure Constant where
  value : String
deriving DecidableEq, Repr

inductive Kind
  | typespace (t : Typespace)
  | trait (t : Trait)
  | struct (s : Struct)
  | enum (e : Enum)
  | command (c : Command)
  | field (f : Field)
  | group (g : Group)
  | constant (c : Constant)
deriving DecidableEq, Repr

/-- The children of a node that are listed under one name. -/
structure ChildList where
  label : String
  ids : List NodeId
deriving DecidableEq, Repr

namespace Kind

def label : Kind → String
  | typespace _ => "typespace"
  | trait _ => "trait"
  | struct _ => "struct"
  | enum _ => "enum"
  | command _ => "command"
  | field _ => "field"
  | group _ => "constant group"
  | constant _ => "constant"

/-- The qualifier a declaration has of its own. -/
def qualifier : Kind → String
  | typespace t => t.qualifier
  | trait t => t.qualifier
  | struct s => s.qualifier
  | enum e => e.qualifier
  | _ => ""

def trait? : Kind → Option Trait
  | trait t => some t
  | _ => none

def field? : Kind → Option Field
  | field f => some f
  | _ => none

def constant? : Kind → Option Constant
  | constant c => some c
  | _ => none

/-- The lists of children. A response or a map value is a list only when there is one. -/
def childLists : Kind → List ChildList
  | typespace t =>
    [⟨"enum_list", t.enums⟩, ⟨"struct_list", t.structs⟩, ⟨"constant_group_list", t.groups⟩]
  | trait t =>
    [⟨"state_list", t.state⟩, ⟨"enum_list", t.enums⟩, ⟨"command_list", t.commands⟩,
      ⟨"constant_group_list", t.groups⟩, ⟨"struct_list", t.structs⟩, ⟨"event_list", t.events⟩]
  | struct s => [⟨"field_list", s.fields⟩]
  | command c => ⟨"parameter_list", c.parameters⟩ :: c.response.toList.map (⟨"response", [·]⟩)
  | field f => ⟨"field_list", f.members⟩ :: f.value.toList.map (⟨"map_value", [·]⟩)
  | group g => [⟨"constant_list", g.constants⟩]
  | enum _ => []
  | constant _ => []

end Kind

/-! ## Nodes -/

structure Node where
  name : String
  number : UInt32
  parent : Option NodeId
  kind : Kind
deriving DecidableEq, Repr

structure Schema where
  nodes : Array Node
  /-- The nodes that stand below no other, in order. -/
  roots : List NodeId
  /-- A node stands below one that was there before it. -/
  parent_lt : ∀ {id : Nat} {node : Node} {parent : Nat},
    nodes[id]? = some node → node.parent = some parent → parent < id

namespace Schema

def empty : Schema where
  nodes := #[]
  roots := []
  parent_lt := by
    intro _ _ _ found
    rw [Array.getElem?_empty] at found
    cases found

def size (s : Schema) : Nat := s.nodes.size

def node? (s : Schema) (id : NodeId) : Option Node := s.nodes[id]?

def node (s : Schema) (id : NodeId) : Except Error Node :=
  match s.node? id with
  | some node => .ok node
  | none => .error (.absent id)

def kind? (s : Schema) (id : NodeId) : Option Kind := (s.node? id).map Node.kind

def trait? (s : Schema) (id : NodeId) : Option Trait := (s.kind? id).bind Kind.trait?

def field? (s : Schema) (id : NodeId) : Option Field := (s.kind? id).bind Kind.field?

def parent? (s : Schema) (id : NodeId) : Option NodeId := (s.node? id).bind Node.parent

/-- The name of a node without what is above it; empty for an absent one. -/
def name (s : Schema) (id : NodeId) : String := ((s.node? id).map Node.name).getD ""

def number (s : Schema) (id : NodeId) : UInt32 := ((s.node? id).map Node.number).getD 0

theorem node?_lt {s : Schema} {id : Nat} {node : Node} (h : s.node? id = some node) :
    id < s.size :=
  (Array.getElem?_eq_some_iff.1 h).1

theorem parent?_lt {s : Schema} {id parent : Nat} (h : s.parent? id = some parent) :
    parent < id := by
  obtain ⟨node, found, below⟩ := Option.bind_eq_some_iff.1 h
  exact s.parent_lt found below

theorem lt_size_of_parent? {s : Schema} {id parent : Nat} (h : s.parent? id = some parent) :
    id < s.size := by
  obtain ⟨node, found, _⟩ := Option.bind_eq_some_iff.1 h
  exact node?_lt found

end Schema

end PropertyTables
