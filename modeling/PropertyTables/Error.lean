import PropertyTables.Resource.Literal
import PropertyTables.Text.Quoted

/-!
# Errors

Every failure is a cause with the names it concerns. The wording is in one place, `message`.
-/

namespace PropertyTables

open Text

/-- Position of a node in its schema. -/
abbrev NodeId := Nat

/-- What is wrong with a schema. -/
inductive Cause
  /-- A node of one kind has no place for a node of another. -/
  | misplaced (parent child : String)
  /-- A node of this kind has no such setting. -/
  | unsupported (kind setting : String)
  | noPaths (kind : String)
  | notField (kind : String)
  | cyclicFields
  | outsideUnit (field : String)
  | undefinedParent (symbol : String)
  | baseNotTrait
  | cyclicChain (names : List String)
  | recursiveExtends (name : String)
  | extendsNonTrait (name base : String)
  | versionZero
  | missingField (base field : String)
  | numberMismatch (base field : String)
  | valueNameTwice (name : String)
  | valueNumberTwice (number : UInt32)
  | ownedElsewhere (list parent : String)
  | nameTwice (name list other : String)
  | numberTwice (number : UInt32) (list other : String)
  | nestedUnit (kind : String)
  | numberTooWide (number : UInt32)
  | notGroup
  | unknownBase (name : String)
  | noSuchUnit
deriving DecidableEq, Repr

def Cause.message : Cause → String
  | .misplaced parent child => s!"a {parent} cannot hold a {child}"
  | .unsupported kind setting => s!"a {kind} cannot carry {setting}"
  | .noPaths kind => s!"a {kind} has no property paths"
  | .notField kind => s!"path ends at a {kind}, not a field"
  | .cyclicFields => "field lists form a cycle"
  | .outsideUnit field => s!"field {field} is outside the compiled unit"
  | .undefinedParent symbol => s!"parent handle {symbol} is not defined before this property"
  | .baseNotTrait => "extends target is not a trait"
  | .cyclicChain names => "cyclic extends chain " ++ " -> ".intercalate names
  | .recursiveExtends name => s!"Recursive extends of {quote name} is not allowed"
  | .extendsNonTrait name base => s!"{quote name} extends {quote base}, which is not a trait"
  | .versionZero => "trait version must be at least 1"
  | .missingField base field => s!"extends {base}, but is missing field {quote field}"
  | .numberMismatch base field =>
    s!"extends {base}, but the numbers for field {quote field} do not match"
  | .valueNameTwice name => s!"The name {quote name} is used twice"
  | .valueNumberTwice number => s!"The number {number} is used twice"
  | .ownedElsewhere list parent => s!"listed in {list} of {parent} but owned elsewhere"
  | .nameTwice name list other => s!"The name {quote name} is used twice in {list} (also {other})"
  | .numberTwice number list other =>
    s!"The number {number} is used twice in {list} (also {other})"
  | .nestedUnit kind => s!"a nested {kind} is not a compilation unit"
  | .numberTooWide number =>
    s!"trait number 0x{String.ofList (Hex.shortest number.toNat)} does not fit in 16 bits"
  | .notGroup => "not a constant group"
  | .unknownBase name => s!"extends unknown trait {quote name}"
  | .noSuchUnit => "no top-level unit with this name"

def LiteralFault.message : LiteralFault → String
  | .width bits => s!"target width {bits} is outside 8..=64 bits"
  | .unknownType name => s!"unknown resource type {quote name}"
  | .malformed => "expected TYPE_HEX or a hexadecimal number"
  | .overflow bits => s!"does not fit in {bits} bits"

/-- Why one constant has no encoding. -/
inductive ConstantError
  | notConstant (unit name : String)
  | literal (unit constant value : String) (fault : LiteralFault)
deriving DecidableEq, Repr

inductive Error
  | width (bits : Nat)
  | integrity (unit element : String) (cause : Cause)
  | constant (error : ConstantError)
  /-- Two declarations share a symbol. -/
  | ambiguous (unit symbol first second : String)
  /-- The constants of a unit that have no encoding. -/
  | constants (unit : String) (errors : List ConstantError)
  /-- The text is not a schema document. -/
  | document
  /-- A file cannot be read or written. -/
  | file
  /-- The schema has no node at this position. -/
  | absent (id : NodeId)
deriving DecidableEq, Repr

def integrityMessage (unit element cause : String) : String :=
  s!"Schema integrity error in {unit} at {element}: {cause}"

def ConstantError.message : ConstantError → String
  | .notConstant unit name => integrityMessage unit name "not a constant"
  | .literal unit constant value (.overflow bits) =>
    s!"Resource id {quote value} for constant {constant} in {unit} does not fit in {bits} bits"
  | .literal unit constant value fault =>
    s!"Invalid resource id literal {quote value} for constant {constant} in {unit}: "
      ++ fault.message

def widthMessage (bits : Nat) : String := s!"resource id width {bits} is outside 8..=64 bits"

def Error.message : Error → String
  | .width bits => s!"Invalid compile options: {widthMessage bits}"
  | .integrity unit element cause => integrityMessage unit element cause.message
  | .constant error => error.message
  | .ambiguous unit symbol first second =>
    s!"Ambiguous symbol {symbol} in {unit}: both {first} and {second} produce it"
  | .constants unit errors =>
    s!"{errors.length} constant(s) in {unit} failed to encode: "
      ++ "; ".intercalate (errors.map ConstantError.message)
  | .document => "Schema document error"
  | .file => "I/O error"
  | .absent id => s!"No node {id} in the schema"

end PropertyTables
