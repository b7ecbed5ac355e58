import PropertyTables.Schema.Basic

/-!
# Schema documents

A document declares the typespaces, traits, structs and enums of a schema, each with everything
below it. Top-level names are written with their qualifiers, and traits name their bases.
-/

namespace PropertyTables

structure FieldDecl where
  name : String
  number : UInt32
  shape : FieldShape := {}
  fields : List FieldDecl := []
  value : Option FieldDecl := none

structure StructDecl where
  name : String
  number : UInt32 := 0
  isStandard : Bool := false
  fields : List FieldDecl := []

structure EventDecl where
  name : String
  number : UInt32
  importance : Importance := .debug
  fields : List FieldDecl := []

structure EnumDecl where
  name : String
  number : UInt32 := 0
  isBitmask : Bool := false
  values : List EnumValue := []

structure CommandDecl where
  name : String
  number : UInt32
  parameters : List FieldDecl := []
  response : Option StructDecl := none

structure ConstantDecl where
  name : String
  number : UInt32
  value : String

structure GroupDecl where
  name : String
  number : UInt32 := 0
  constants : List ConstantDecl := []

structure TypespaceDecl where
  name : String
  version : UInt32 := 1
  enums : List EnumDecl := []
  structs : List StructDecl := []
  groups : List GroupDecl := []

structure TraitDecl where
  name : String
  number : UInt32
  vendor : UInt16 := 0
  version : UInt32 := 1
  /-- The name of the trait this one extends. -/
  base : Option String := none
  state : List FieldDecl := []
  enums : List EnumDecl := []
  commands : List CommandDecl := []
  groups : List GroupDecl := []
  structs : List StructDecl := []
  events : List EventDecl := []

structure Document where
  typespaces : List TypespaceDecl := []
  traits : List TraitDecl := []
  structs : List StructDecl := []
  enums : List EnumDecl := []

end PropertyTables
