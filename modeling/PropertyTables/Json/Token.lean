import PropertyTables.Text.Hex

/-!
# JSON tokens

A text is cut into tokens character by character. Strings are decoded on the way, and numbers
are kept when they are natural. A string with half a surrogate pair and a number with a sign, a
fraction or an exponent are tokens too, without a value.
-/

namespace PropertyTables.Json

inductive Token
  | arrayStart
  | arrayEnd
  | objectStart
  | objectEnd
  | comma
  | colon
  | null
  | bool (b : Bool)
  | number (n : Option Nat)
  | text (s : Option String)
deriving DecidableEq, Repr

namespace Token

/-! ## Words and numbers -/

def isExponent : List Char → Bool
  | [] => true
  | e :: cs =>
    let digits := match cs with
      | '+' :: digits | '-' :: digits => digits
      | digits => digits
    (e = 'e' || e = 'E') && !digits.isEmpty && digits.all Char.isDigit

def isFraction : List Char → Bool
  | '.' :: c :: cs => c.isDigit && isExponent (cs.dropWhile Char.isDigit)
  | cs => isExponent cs

/-- A number without its sign: no zeros in front, and digits on both sides of a point. -/
def isUnsigned : List Char → Bool
  | '0' :: cs => isFraction cs
  | c :: cs => c.isDigit && isFraction (cs.dropWhile Char.isDigit)
  | [] => false

def isNumber : List Char → Bool
  | '-' :: cs => isUnsigned cs
  | cs => isUnsigned cs

def decimal (cs : List Char) : Nat := cs.foldl (fun n c => n * 10 + (c.toNat - 48)) 0

/-- The token of a run of letters, digits, signs and points. -/
def ofBare? (cs : List Char) : Option Token :=
  if cs = ['n', 'u', 'l', 'l'] then some null
  else if cs = ['t', 'r', 'u', 'e'] then some (bool true)
  else if cs = ['f', 'a', 'l', 's', 'e'] then some (bool false)
  else if isNumber cs then
    some (number (if cs.all Char.isDigit then some (decimal cs) else none))
  else none

def isBare (c : Char) : Bool := c.isAlphanum || c = '+' || c = '-' || c = '.'

/-! ## Strings -/

/-- A string up to some place: its characters, last first, the first half of a surrogate pair
that waits for the second, and whether a half has been left alone. -/
structure Fragment where
  chars : List Char := []
  half : Option Nat := none
  broken : Bool := false
deriving DecidableEq, Repr

namespace Fragment

def push (f : Fragment) (c : Char) : Fragment :=
  ⟨c :: f.chars, none, f.broken || f.half.isSome⟩

/-- Adds the character or the half of a pair that an escape stands for. -/
def pushUnit (f : Fragment) (unit : Nat) : Fragment :=
  if 0xD800 ≤ unit ∧ unit < 0xDC00 then
    { f with half := some unit, broken := f.broken || f.half.isSome }
  else if 0xDC00 ≤ unit ∧ unit < 0xE000 then
    match f.half with
    | some high =>
      { f with
        chars := Char.ofNat (0x10000 + (high - 0xD800) * 0x400 + (unit - 0xDC00)) :: f.chars
        half := none }
    | none => { f with broken := true }
  else f.push (Char.ofNat unit)

def toText (f : Fragment) : Option String :=
  if f.broken || f.half.isSome then none else some (String.ofList f.chars.reverse)

end Fragment

/-- The character an escape of one letter stands for. -/
def escaped? : Char → Option Char
  | '"' => some '"'
  | '\\' => some '\\'
  | '/' => some '/'
  | 'b' => some '\x08'
  | 'f' => some '\x0c'
  | 'n' => some '\n'
  | 'r' => some '\r'
  | 't' => some '\t'
  | _ => none

/-! ## The scanner -/

/-- Where the scanner is. -/
inductive Mode
  | between
  | bare (chars : List Char)
  | text (f : Fragment)
  /-- After a backslash. -/
  | escape (f : Fragment)
  /-- In an escape by number, with so many digits to come and the value so far. -/
  | unit (f : Fragment) (left value : Nat)
deriving DecidableEq, Repr

/-- The place of the scanner, and the tokens so far, last first. -/
structure Scan where
  mode : Mode := .between
  tokens : List Token := []
deriving DecidableEq, Repr

namespace Scan

/-- Takes a character outside strings and bare runs. -/
def start (tokens : List Token) (c : Char) : Option Scan :=
  match c with
  | ' ' | '\t' | '\n' | '\r' => some ⟨.between, tokens⟩
  | '[' => some ⟨.between, arrayStart :: tokens⟩
  | ']' => some ⟨.between, arrayEnd :: tokens⟩
  | '\x7b' => some ⟨.between, objectStart :: tokens⟩
  | '\x7d' => some ⟨.between, objectEnd :: tokens⟩
  | ',' => some ⟨.between, comma :: tokens⟩
  | ':' => some ⟨.between, colon :: tokens⟩
  | '"' => some ⟨.text {}, tokens⟩
  | c => if isBare c then some ⟨.bare [c], tokens⟩ else none

def step (scan : Scan) (c : Char) : Option Scan :=
  match scan.mode with
  | .between => start scan.tokens c
  | .bare chars =>
    if isBare c then some ⟨.bare (c :: chars), scan.tokens⟩
    else (ofBare? chars.reverse).bind fun token => start (token :: scan.tokens) c
  | .text f =>
    if c = '"' then some ⟨.between, .text f.toText :: scan.tokens⟩
    else if c = '\\' then some ⟨.escape f, scan.tokens⟩
    else if c.toNat < 0x20 then none
    else some ⟨.text (f.push c), scan.tokens⟩
  | .escape f =>
    if c = 'u' then some ⟨.unit f 4 0, scan.tokens⟩
    else (escaped? c).map fun d => ⟨.text (f.push d), scan.tokens⟩
  | .unit f left value =>
    (Text.Hex.digit? c).map fun d =>
      let value := value * 16 + d
      if left ≤ 1 then ⟨.text (f.pushUnit value), scan.tokens⟩
      else ⟨.unit f (left - 1) value, scan.tokens⟩

def finish (scan : Scan) : Option (List Token) :=
  match scan.mode with
  | .between => some scan.tokens.reverse
  | .bare chars => (ofBare? chars.reverse).map fun token => (token :: scan.tokens).reverse
  | _ => none

end Scan

/-- The tokens of a text. -/
def scan? (cs : List Char) : Option (List Token) := (cs.foldlM Scan.step {}).bind Scan.finish

end Token

end PropertyTables.Json
