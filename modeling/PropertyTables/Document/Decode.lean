import PropertyTables.Document.Basic
import PropertyTables.Json.Term

/-!
# Reading documents

A declaration is an object, whose unknown members are passed over, or an array of its members in
their order. Members with a default may be left out. What is read may nest 127 deep; what is
passed over may nest deeper.
-/

namespace PropertyTables

open Json (Term)

/-- Reads a term that stands within so many more levels. -/
abbrev Decoder (α : Type) := Nat → Term → Option α

namespace Decoder

/-! ## Values -/

def text : Decoder String
  | _, .text s => s
  | _, _ => none

def bool : Decoder Bool
  | _, .bool b => some b
  | _, _ => none

/-- A natural number below a bound. -/
def below (bound : Nat) : Decoder Nat
  | _, .number (some n) => if n < bound then some n else none
  | _, _ => none

def word : Decoder UInt32 := fun depth t => (below 0x100000000 depth t).map UInt32.ofNat

def halfWord : Decoder UInt16 := fun depth t => (below 0x10000 depth t).map UInt16.ofNat

def nullable {α : Type} (decode : Decoder α) : Decoder (Option α)
  | _, .null => some none
  | depth, t => (decode depth t).map some

def list {α : Type} (decode : Decoder α) : Decoder (List α)
  | depth + 1, .array items => items.mapM (decode depth)
  | _, _ => none

/-- One of several names: a string, or an object with that one key and nothing under it. -/
def choice {α : Type} (all : List α) (name : α → String) : Decoder α
  | _, .text (some s) => all.find? (name · = s)
  | _ + 1, .object [(some key, .null)] => all.find? (name · = key)
  | _, _ => none

/-! ## Records -/

/-- The members of a declaration by name. A known member stands once at most; in an array there
are no more items than names. -/
def members? (names : List String) : Term → Option (String → Option Term)
  | .object members => do
    let members ← members.mapM fun (key, value) => key.map fun key => (key, value)
    if names.all fun name => members.countP (·.1 = name) ≤ 1 then
      some fun name => members.lookup name
    else none
  | .array items =>
    if items.length ≤ names.length then some fun name => items[names.idxOf name]? else none
  | _ => none

/-- A member that must be there. -/
def required {α : Type} (member : Option Term) (decode : Term → Option α) : Option α :=
  member.bind decode

/-- A member that may be left out. -/
def defaulted {α : Type} (default : α) (member : Option Term) (decode : Term → Option α) :
    Option α :=
  match member with
  | none => some default
  | some t => decode t

/-- A declaration with the given members, one level further in. -/
def record {α : Type} (names : List String) (decode : Nat → (String → Option Term) → Option α) :
    Decoder α
  | depth + 1, t => (members? names t).bind (decode depth)
  | 0, _ => none

/-! ## Declarations -/

def shape (depth : Nat) (m : String → Option Term) : Option FieldShape := do
  return {
    dataType := ← defaulted .uint32 (m "type") (choice DataType.all DataType.name depth)
    isOptional := ← defaulted false (m "optional") (bool depth)
    isNullable := ← defaulted false (m "nullable") (bool depth)
    isMap := ← defaulted false (m "map") (bool depth)
    isEphemeral := ← defaulted false (m "ephemeral") (bool depth)
    isArray := ← defaulted false (m "array") (bool depth)
    isStandard := ← defaulted false (m "standard") (bool depth) }

def fieldNames : List String :=
  ["name", "number", "type", "optional", "nullable", "map", "ephemeral", "array", "standard",
    "fields", "map_value"]

/-- A field, with its members an array further in and its value right inside it. -/
def field : Decoder FieldDecl
  | 0, _ => none
  | depth + 1, t => do
    let m ← members? fieldNames t
    return {
      name := ← required (m "name") (text depth)
      number := ← required (m "number") (word depth)
      shape := ← shape depth m
      fields := ← defaulted [] (m "fields") fun t =>
        match depth, t with
        | depth + 1, .array items => items.mapM (field depth)
        | _, _ => none
      value := ← defaulted none (m "map_value") fun t =>
        match t with
        | .null => some none
        | t => (field depth t).map some }

def struct : Decoder StructDecl :=
  record ["name", "number", "standard", "fields"] fun depth m => do
    return {
      name := ← required (m "name") (text depth)
      number := ← defaulted 0 (m "number") (word depth)
      isStandard := ← defaulted false (m "standard") (bool depth)
      fields := ← defaulted [] (m "fields") (list field depth) }

def event : Decoder EventDecl :=
  record ["name", "number", "importance", "fields"] fun depth m => do
    return {
      name := ← required (m "name") (text depth)
      number := ← required (m "number") (word depth)
      importance :=
        ← defaulted .debug (m "importance") (choice Importance.all Importance.name depth)
      fields := ← defaulted [] (m "fields") (list field depth) }

def enumValue : Decoder EnumValue :=
  record ["name", "number"] fun depth m => do
    return ⟨← required (m "name") (text depth), ← required (m "number") (word depth)⟩

def enum : Decoder EnumDecl :=
  record ["name", "number", "bitmask", "values"] fun depth m => do
    return {
      name := ← required (m "name") (text depth)
      number := ← defaulted 0 (m "number") (word depth)
      isBitmask := ← defaulted false (m "bitmask") (bool depth)
      values := ← defaulted [] (m "values") (list enumValue depth) }

def command : Decoder CommandDecl :=
  record ["name", "number", "parameters", "response"] fun depth m => do
    return {
      name := ← required (m "name") (text depth)
      number := ← required (m "number") (word depth)
      parameters := ← defaulted [] (m "parameters") (list field depth)
      response := ← defaulted none (m "response") (nullable struct depth) }

def constant : Decoder ConstantDecl :=
  record ["name", "number", "value"] fun depth m => do
    return {
      name := ← required (m "name") (text depth)
      number := ← required (m "number") (word depth)
      value := ← required (m "value") (text depth) }

def group : Decoder GroupDecl :=
  record ["name", "number", "constants"] fun depth m => do
    return {
      name := ← required (m "name") (text depth)
      number := ← defaulted 0 (m "number") (word depth)
      constants := ← defaulted [] (m "constants") (list constant depth) }

def typespace : Decoder TypespaceDecl :=
  record ["name", "version", "enums", "structs", "constant_groups"] fun depth m => do
    return {
      name := ← required (m "name") (text depth)
      version := ← defaulted 1 (m "version") (word depth)
      enums := ← defaulted [] (m "enums") (list enum depth)
      structs := ← defaulted [] (m "structs") (list struct depth)
      groups := ← defaulted [] (m "constant_groups") (list group depth) }

def trait : Decoder TraitDecl :=
  record ["name", "number", "vendor", "version", "extends", "state", "enums", "commands",
      "constant_groups", "structs", "events"] fun depth m => do
    return {
      name := ← required (m "name") (text depth)
      number := ← required (m "number") (word depth)
      vendor := ← defaulted 0 (m "vendor") (halfWord depth)
      version := ← defaulted 1 (m "version") (word depth)
      base := ← defaulted none (m "extends") (nullable text depth)
      state := ← defaulted [] (m "state") (list field depth)
      enums := ← defaulted [] (m "enums") (list enum depth)
      commands := ← defaulted [] (m "commands") (list command depth)
      groups := ← defaulted [] (m "constant_groups") (list group depth)
      structs := ← defaulted [] (m "structs") (list struct depth)
      events := ← defaulted [] (m "events") (list event depth) }

def document : Decoder Document :=
  record ["typespaces", "traits", "structs", "enums"] fun depth m => do
    return {
      typespaces := ← defaulted [] (m "typespaces") (list typespace depth)
      traits := ← defaulted [] (m "traits") (list trait depth)
      structs := ← defaulted [] (m "structs") (list struct depth)
      enums := ← defaulted [] (m "enums") (list enum depth) }

end Decoder

namespace Document

/-- How deep the part of a document that is read may nest. -/
def maxDepth : Nat := 127

def parse? (text : String) : Option Document :=
  (Term.parse? text).bind (Decoder.document maxDepth)

end Document

end PropertyTables
