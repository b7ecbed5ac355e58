import PropertyTables.Schema.Names
import PropertyTables.Text.Casing

/-!
# Constants

A constant names a resource. It is encoded as bytes and as a literal, under a symbol that is
unique over all groups of its unit. The constants that fail are reported together.
-/

namespace PropertyTables

open Text

structure EncodedConstant where
  name : String
  symbol : String
  bytes : List UInt8
  literal : String
  /-- The value as it was written. -/
  source : String
deriving DecidableEq, Repr

structure GroupTable where
  name : String
  number : UInt32
  constants : List EncodedConstant
deriving DecidableEq, Repr

/-- What is left of a text after another in front of it. -/
def stripFront? (front cs : List Char) : Option (List Char) :=
  if front.isPrefixOf cs then some (cs.drop front.length) else none

def constantSymbolChars (group constant : List Char) : List Char :=
  let name := screamingChars constant
  match stripFront? (screamingChars group ++ ['_']) name with
  | some (c :: rest) => c :: rest
  | _ => name

/-- The constant's name in capitals, without its group's name in front: `RESOURCE_ID_HUB` in the
group `ResourceId` is `HUB`. -/
def constantSymbol (group constant : String) : String :=
  String.ofList (constantSymbolChars group.toList constant.toList)

/-- Encodes a constant of a given group, name and value. -/
def encodeValue (unit group name value : String) (bits : Nat) :
    Except ConstantError EncodedConstant :=
  match ResourceId.parse value bits with
  | .ok id => .ok ⟨name, constantSymbol group name, id.toBytes, id.literal, value⟩
  | .error fault => .error (.literal unit name value fault)

/-- A constant as its group lists it. -/
structure Listed where
  group : String
  node : Node
deriving DecidableEq, Repr

namespace Listed

def symbol (c : Listed) : String := constantSymbol c.group c.node.name

/-- The name under which a clash is reported. -/
def qualified (c : Listed) : String := c.group ++ "." ++ c.node.name

def encode (c : Listed) (unit : String) (bits : Nat) : Except ConstantError EncodedConstant :=
  match c.node.kind.constant? with
  | some constant => encodeValue unit c.group c.node.name constant.value bits
  | none => .error (.notConstant unit c.node.name)

end Listed

/-- What is known after some constants of a unit: those listed, and those that failed. -/
structure Encoding where
  seen : List Listed := []
  errors : List ConstantError := []
deriving DecidableEq, Repr

namespace Schema

def encodeConstant (s : Schema) (unit : String) (group constant : NodeId) (bits : Nat) :
    Except Error EncodedConstant := do
  let node ← s.node constant
  match (Listed.mk (s.name group) node).encode unit bits with
  | .error error => .error (.constant error)
  | .ok encoded =>
    let _ ← s.node group
    .ok encoded

/-- Adds one constant to those of its group; it fails only on a clash of symbols. -/
def encodeNext (s : Schema) (unit group : String) (bits : Nat)
    (state : Encoding × List EncodedConstant) (id : NodeId) :
    Except Error (Encoding × List EncodedConstant) := do
  let (encoding, encoded) := state
  let node ← s.node id
  let constant : Listed := ⟨group, node⟩
  match encoding.seen.find? (·.symbol = constant.symbol) with
  | some first =>
    .error (.ambiguous unit constant.symbol first.qualified constant.qualified)
  | none =>
    let seen := encoding.seen ++ [constant]
    match constant.encode unit bits with
    | .ok e => .ok (⟨seen, encoding.errors⟩, encoded ++ [e])
    | .error error => .ok (⟨seen, encoding.errors ++ [error]⟩, encoded)

def encodeGroup (s : Schema) (unit : String) (bits : Nat)
    (state : Encoding × List GroupTable) (id : NodeId) :
    Except Error (Encoding × List GroupTable) := do
  let (encoding, tables) := state
  let node ← s.node id
  match node.kind with
  | .group g =>
    let (encoding, constants) ← g.constants.foldlM (s.encodeNext unit node.name bits) (encoding, [])
    .ok (encoding, tables ++ [⟨node.name, node.number, constants⟩])
  | _ => .error (.integrity unit node.name .notGroup)

/-- Encodes all constants of the groups of a unit. -/
def encodeGroups (s : Schema) (unit : String) (groups : List NodeId) (bits : Nat) :
    Except Error (List GroupTable) := do
  let (encoding, tables) ← groups.foldlM (s.encodeGroup unit bits) ({}, [])
  if encoding.errors.isEmpty then .ok tables else .error (.constants unit encoding.errors)

end Schema

end PropertyTables
