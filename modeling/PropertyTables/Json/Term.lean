import PropertyTables.Json.Token

/-!
# JSON terms

A term is a JSON text taken apart. The containers that are open are kept in a list, innermost
first, so a text may nest as deep as it likes.
-/

namespace PropertyTables.Json

/-- A JSON text taken apart. A number that is not natural and a string with half a surrogate pair
have no value. -/
inductive Term
  | null
  | bool (b : Bool)
  | number (n : Option Nat)
  | text (s : Option String)
  | array (items : List Term)
  | object (members : List (Option String × Term))

namespace Term

/-- An open container up to the value that is being read; what it holds comes last first. -/
inductive Frame
  | item (items : List Term)
  | member (members : List (Option String × Term)) (key : Option String)

/-- What has been read and what may follow. -/
inductive Reading
  /-- A value follows. -/
  | value (frames : List Frame)
  /-- An array was opened. -/
  | firstItem (frames : List Frame)
  /-- An object was opened. -/
  | firstKey (frames : List Frame)
  /-- Another key follows. -/
  | nextKey (members : List (Option String × Term)) (frames : List Frame)
  /-- A key was read. -/
  | afterKey (members : List (Option String × Term)) (key : Option String) (frames : List Frame)
  /-- A value was read. -/
  | afterValue (value : Term) (frames : List Frame)

namespace Reading

/-- Reads the first token of a value. -/
def begin (frames : List Frame) : Token → Option Reading
  | .null => some (afterValue .null frames)
  | .bool b => some (afterValue (.bool b) frames)
  | .number n => some (afterValue (.number n) frames)
  | .text s => some (afterValue (.text s) frames)
  | .arrayStart => some (firstItem frames)
  | .objectStart => some (firstKey frames)
  | _ => none

def step : Reading → Token → Option Reading
  | value frames, token => begin frames token
  | firstItem frames, .arrayEnd => some (afterValue (.array []) frames)
  | firstItem frames, token => begin (.item [] :: frames) token
  | firstKey frames, .objectEnd => some (afterValue (.object []) frames)
  | firstKey frames, .text key => some (afterKey [] key frames)
  | nextKey members frames, .text key => some (afterKey members key frames)
  | afterKey members key frames, .colon => some (value (.member members key :: frames))
  | afterValue v (.item items :: frames), .comma => some (value (.item (v :: items) :: frames))
  | afterValue v (.item items :: frames), .arrayEnd =>
    some (afterValue (.array (v :: items).reverse) frames)
  | afterValue v (.member members key :: frames), .comma =>
    some (nextKey ((key, v) :: members) frames)
  | afterValue v (.member members key :: frames), .objectEnd =>
    some (afterValue (.object ((key, v) :: members).reverse) frames)
  | _, _ => none

def finish : Reading → Option Term
  | afterValue v [] => some v
  | _ => none

end Reading

def ofTokens? (tokens : List Token) : Option Term :=
  (tokens.foldlM Reading.step (.value [])).bind Reading.finish

/-- Reads a JSON text; there is nothing but blanks around its value. -/
def parse? (text : String) : Option Term := (Token.scan? text.toList).bind ofTokens?

end Term

end PropertyTables.Json
