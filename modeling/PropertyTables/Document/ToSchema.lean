import PropertyTables.Document.Decode
import PropertyTables.Schema.Edit

/-!
# From documents to schemas

The declarations are added in order: typespaces, traits, structs, enums, each with what is below
it. The bases of traits are set once all traits are there. When two traits share a name, the
later one bears it.
-/

namespace PropertyTables

/-- The qualifier and the name: what is before the last point, and what is after it. -/
def splitName (s : String) : String × String :=
  let cs := s.toList.reverse
  match cs.dropWhile (· ≠ '.') with
  | [] => ("", s)
  | _ :: qualifier =>
    (String.ofList qualifier.reverse, String.ofList (cs.takeWhile (· ≠ '.')).reverse)

namespace Schema

/-- The value of a map is a field without a number; a value of its own is not declared. -/
def addFields (s : Schema) (parent : NodeId) : List FieldDecl → Except Error Schema
  | [] => .ok s
  | ⟨name, number, shape, fields, value⟩ :: rest => do
    let id := s.size
    let s ← s.attach parent name (.field number { toFieldShape := shape })
    let s ← s.addFields id fields
    let s ← match value with
      | none => pure s
      | some ⟨valueName, _, valueShape, valueFields, _⟩ => do
        let valueId := s.size
        let s ← s.attach id valueName (.mapValue { toFieldShape := valueShape })
        s.addFields valueId valueFields
    s.addFields parent rest

def addStructs (s : Schema) (parent : NodeId) (decls : List StructDecl) : Except Error Schema :=
  decls.foldlM (fun s d => do
    let id := s.size
    let s ← s.attach parent d.name (.struct "" d.number)
    let s ← s.set id (.standard d.isStandard)
    s.addFields id d.fields) s

def addEnums (s : Schema) (parent : NodeId) (decls : List EnumDecl) : Except Error Schema :=
  decls.foldlM (fun s d => do
    let id := s.size
    let s ← s.attach parent d.name (.enum "" d.number d.values)
    s.set id (.bitmask d.isBitmask)) s

def addResponse (s : Schema) (command : NodeId) (decl : StructDecl) : Except Error Schema := do
  let id := s.size
  let s ← s.attach command decl.name (.response decl.number)
  s.addFields id decl.fields

def addCommands (s : Schema) (parent : NodeId) (decls : List CommandDecl) : Except Error Schema :=
  decls.foldlM (fun s d => do
    let id := s.size
    let s ← s.attach parent d.name (.command d.number)
    let s ← s.addFields id d.parameters
    match d.response with
    | none => return s
    | some response => s.addResponse id response) s

def addGroups (s : Schema) (parent : NodeId) (decls : List GroupDecl) : Except Error Schema :=
  decls.foldlM (fun s d => do
    let id := s.size
    let s ← s.attach parent d.name (.group d.number)
    d.constants.foldlM (fun s c => s.attach id c.name (.constant c.number c.value)) s) s

def addEvents (s : Schema) (parent : NodeId) (decls : List EventDecl) : Except Error Schema :=
  decls.foldlM (fun s d => do
    let id := s.size
    let s ← s.attach parent d.name (.event d.number d.importance)
    s.addFields id d.fields) s

def addTypespace (s : Schema) (d : TypespaceDecl) : Except Error Schema := do
  let id := s.size
  let (qualifier, name) := splitName d.name
  let s ← (s.declare qualifier name .typespace).set id (.version d.version)
  let s ← s.addEnums id d.enums
  let s ← s.addStructs id d.structs
  s.addGroups id d.groups

def addTrait (s : Schema) (d : TraitDecl) : Except Error Schema := do
  let id := s.size
  let (qualifier, name) := splitName d.name
  let s ← (s.declare qualifier name (.trait d.number)).set id (.version d.version)
  let s ← s.set id (.vendor d.vendor)
  let s ← s.addFields id d.state
  let s ← s.addEnums id d.enums
  let s ← s.addCommands id d.commands
  let s ← s.addGroups id d.groups
  let s ← s.addStructs id d.structs
  s.addEvents id d.events

/-- Adds traits and records the node of each, last first. -/
def addTraits (s : Schema) (decls : List TraitDecl) :
    Except Error (Schema × List (String × NodeId)) :=
  decls.foldlM (fun (s, named) d => do
    return (← s.addTrait d, (d.name, s.size) :: named)) (s, [])

/-- Lets the trait that bears a declaration's name extend the one it names. -/
def addBase (named : List (String × NodeId)) (s : Schema) (d : TraitDecl) :
    Except Error Schema :=
  match d.base, named.lookup d.name with
  | some base, some id =>
    match named.lookup base with
    | some baseId => s.set id (.base baseId)
    | none => .error (.integrity d.name "extends" (.unknownBase base))
  | _, _ => .ok s

def addTopStruct (s : Schema) (d : StructDecl) : Except Error Schema := do
  let id := s.size
  let (qualifier, name) := splitName d.name
  let s ← (s.declare qualifier name (.struct d.number)).set id (.standard d.isStandard)
  s.addFields id d.fields

def addTopEnum (s : Schema) (d : EnumDecl) : Except Error Schema :=
  let id := s.size
  let (qualifier, name) := splitName d.name
  (s.declare qualifier name (.enum d.number d.values)).set id (.bitmask d.isBitmask)

end Schema

namespace Document

def toSchema (d : Document) : Except Error Schema := do
  let s ← d.typespaces.foldlM Schema.addTypespace .empty
  let (s, named) ← s.addTraits d.traits
  let s ← d.traits.foldlM (Schema.addBase named) s
  let s ← d.structs.foldlM Schema.addTopStruct s
  d.enums.foldlM Schema.addTopEnum s

end Document

/-- Reads the schema that a text declares. -/
def Schema.load (text : String) : Except Error Schema :=
  match Document.parse? text with
  | some document => document.toSchema
  | none => .error .document

end PropertyTables
