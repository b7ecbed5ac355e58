import PropertyTables.CommandLine.Respond
import PropertyTables.Error.Report

/-!
# The program

Reads the arguments and the input file, and prints or writes the response.
-/

namespace PropertyTables.CommandLine

def usage : String :=
  "Compile schema documents into property handle tables

Usage: [-v] compile -i FILE [-o FILE] [-u UNIT] [--resource-id-width BITS] [--force-bitfields]
       [-v] paths -i FILE -u UNIT
       [-v] resource-id VALUE [--width BITS]
"

/-- The text of the file that a request reads; empty when it reads none. -/
def inputText (request : Request) : IO (Except Error String) := do
  match request.inputPath? with
  | none => return .ok ""
  | some path =>
    try
      return .ok (← IO.FS.readFile path)
    catch _ => return .error .file

def perform (response : Response) : IO (Except Error Unit) := do
  match response with
  | .print text =>
    IO.print text
    return .ok ()
  | .write path text =>
    try
      IO.FS.writeFile path text
      return .ok ()
    catch _ => return .error .file

def run (request : Request) : IO (Except Error Unit) := do
  match (← inputText request).bind request.respond with
  | .ok response => perform response
  | .error error => return .error error

end PropertyTables.CommandLine

def main (arguments : List String) : IO UInt32 := do
  match PropertyTables.CommandLine.Request.parse {} arguments with
  | .help =>
    IO.print PropertyTables.CommandLine.usage
    return 0
  | .misused =>
    IO.eprint PropertyTables.CommandLine.usage
    return 2
  | .done request =>
    match ← PropertyTables.CommandLine.run request with
    | .ok () => return 0
    | .error error =>
      IO.eprintln ("Error: " ++ error.report)
      return 1
