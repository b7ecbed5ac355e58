import PropertyTables.CommandLine.Request
import PropertyTables.Document.ToSchema
import PropertyTables.Unit.Json

/-!
# Responses

What a request comes to, given the text of its input file: a text to print or a file to write.
-/

namespace PropertyTables

def Tables.pretty (t : Tables) : String := t.toJson.pretty 0

/-- The tables of all units that a document declares, as JSON. -/
def compileToJson (text : String) (options : Options) : Except Error String := do
  let s ← Schema.load text
  return (Json.ofList Tables.toJson (← s.compile options)).pretty 0

namespace CommandLine

inductive Response
  | print (text : String)
  | write (path text : String)
deriving DecidableEq, Repr

/-- The root with a full name, in the schema of a file. -/
def findUnit (s : Schema) (input name : String) : Except Error NodeId :=
  match s.roots.find? (s.fullName · = name) with
  | some id => .ok id
  | none => .error (.integrity input name .noSuchUnit)

def blanks (n : Nat) : String := String.ofList (List.replicate n ' ')

/-- At least `width` characters, with blanks behind. -/
def padRight (width : Nat) (s : String) : String := s ++ blanks (width - s.length)

/-- At least `width` characters, with blanks in front. -/
def padLeft (width : Nat) (s : String) : String := blanks (width - s.length) ++ s

def rowLine (r : Row) : String :=
  padLeft 4 (toString r.handle) ++ "  kPropertyHandle_" ++ padRight 40 r.symbol ++ " parent "
    ++ padRight 32 r.parentSymbol ++ s!" tag {r.number}\n"

def listing (s : Schema) (t : HandleTable) : String :=
  String.join ((t.rows s).map rowLine)
    ++ s!"last handle {Handle.last t.length}, tree depth {t.treeDepth}\n"

def resourceLines (id : ResourceId) (value : String) : String :=
  let bytes := id.toBytes.map fun b => "0x" ++ String.ofList (Text.Hex.fixed .small 2 b.toNat)
  "bytes   \x7b" ++ ", ".intercalate bytes ++ "\x7d\n"
    ++ "integer " ++ id.literal ++ "ULL // " ++ value ++ "\n"

namespace Request

/-- The file that a request reads. -/
def inputPath? : Request → Option String
  | compile input .. => some input
  | paths input _ => some input
  | resource .. => none

def compiled (text input : String) (options : Options) : Option String → Except Error String
  | none => compileToJson text options
  | some name => do
    let s ← Schema.load text
    let id ← findUnit s input name
    return (← s.compileUnit options id).pretty

/-- What a request comes to. A printed table ends its line; a file holds the table alone. -/
def respond (text : String) : Request → Except Error Response
  | compile input output unit options => do
    let json ← compiled text input options unit
    return match output with
      | some path => .write path json
      | none => .print (json ++ "\n")
  | paths input unit => do
    let s ← Schema.load text
    let table ← s.handleTable (← findUnit s input unit)
    return .print (listing s table)
  | resource value width =>
    match ResourceId.parse value width with
    | .ok id => .ok (.print (resourceLines id value))
    | .error fault => .error (.constant (.literal "<command line>" "value" value fault))

end Request

end CommandLine

end PropertyTables
