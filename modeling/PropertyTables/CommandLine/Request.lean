import PropertyTables.CommandLine.Arguments
import PropertyTables.Unit.Compile

/-!
# Requests

What can be asked on the command line: to compile a schema, to list the property paths of a unit,
or to encode a resource.
-/

namespace PropertyTables.CommandLine

inductive Request
  | compile (input : String) (output unit : Option String) (options : Options)
  | paths (input unit : String)
  | resource (value : String) (width : Nat)
deriving DecidableEq, Repr

namespace Request

/-! ## Values of options -/

/-- A whole number with or without a sign. -/
def integer? (text : String) : Option Int :=
  let digits? (cs : List Char) : Option Nat :=
    if !cs.isEmpty && cs.all Char.isDigit then
      some (cs.foldl (fun n c => n * 10 + (c.toNat - 48)) 0)
    else none
  match text.toList with
  | '-' :: cs => (digits? cs).map fun n => -(n : Int)
  | '+' :: cs => (digits? cs).map fun n => (n : Int)
  | cs => (digits? cs).map fun n => (n : Int)

/-- A width is a whole number of 32 bits. -/
def width? (text : String) : Option Nat :=
  match integer? text with
  | some n => if 0 ≤ n ∧ n < 0x100000000 then some n.toNat else none
  | none => none

/-- Whether every value given so far is one that its option takes. -/
def acceptable (given : Given) : Bool :=
  given.values.all fun (name, value) =>
    match name with
    | "input" | "output" => value ≠ ""
    | "resource-id-width" | "width" => (width? value).isSome
    | _ => true

/-! ## Commands -/

def verbose : Switch := ⟨"verbose", some 'v', false⟩

def input : Switch := ⟨"input", some 'i', true⟩

def unit : Switch := ⟨"unit", some 'u', true⟩

def compileGrammar : Grammar where
  switches := [verbose, input, ⟨"output", some 'o', true⟩, unit, ⟨"resource-id-width", none, true⟩,
    ⟨"force-bitfields", none, false⟩]
  operands := 0

def pathsGrammar : Grammar where
  switches := [verbose, input, unit]
  operands := 0

def resourceGrammar : Grammar where
  switches := [verbose, ⟨"width", none, true⟩]
  operands := 1

def widthOf (given : Given) (name : String) : Option Nat :=
  match given.value? name with
  | none => some 64
  | some text => width? text

def compileOf (given : Given) : Option Request := do
  let width ← widthOf given "resource-id-width"
  return .compile (← given.value? "input") (given.value? "output") (given.value? "unit")
    ⟨width, given.has "force-bitfields"⟩

def pathsOf (given : Given) : Option Request := do
  return .paths (← given.value? "input") (← given.value? "unit")

def resourceOf (given : Given) : Option Request := do
  match given.operands with
  | [value] => return .resource value (← widthOf given "width")
  | _ => none

/-- The command of a name: what it accepts, and the request it makes. -/
def command? (name : String) : Option (Grammar × (Given → Option Request)) :=
  match name with
  | "compile" => some (compileGrammar, compileOf)
  | "paths" => some (pathsGrammar, pathsOf)
  | "resource-id" => some (resourceGrammar, resourceOf)
  | _ => none

def runCommand (name : String) (arguments : List String) : Reading Request :=
  match command? name with
  | none => .misused
  | some (grammar, request) =>
    (grammar.read acceptable {} none arguments).bind fun given => .ofOption (request given)

/-- The word `help`, alone or before the name of a command. -/
def helpOn : List String → Reading Request
  | [] => .help
  | [name] => if name = "help" ∨ (command? name).isSome then .help else .misused
  | _ => .misused

/-- Reads the whole command line. Switches may come before the command. -/
def parse (given : Given) : List String → Reading Request
  | [] => .misused
  | argument :: rest =>
    let g : Grammar := ⟨[verbose], 0⟩
    match Grammar.Argument.ofString argument with
    | .operand "help" => helpOn rest
    | .operand name => runCommand name rest
    | .separator => .misused
    | .long name value => (g.long given name value).bind fun (given, _) => parse given rest
    | .short cs => (g.letters given cs).bind fun (given, _) => parse given rest

end Request

end PropertyTables.CommandLine
