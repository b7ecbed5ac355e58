import PropertyTables.Text.CaseMap
import PropertyTables.Text.CharClass

/-!
# Word casing

Names are spelled in three ways: `UpperCamel` for symbols, `lower_snake` in between, and
`UPPER_SNAKE` for constants. All three work on lists of characters; the functions on `String`
wrap them.
-/

namespace PropertyTables.Text

/-! ## Whole texts -/

def upperAll (cs : List Char) : List Char := cs.flatMap upper

/-- Whether the first character that casing does not look through is cased. -/
def startsCased (cs : List Char) : Bool :=
  (cs.dropWhile isCaseIgnorable).head?.any isCased

/-- Lower case of a text that follows a word (`inWord`) or not. A capital sigma that ends a
word becomes the final form. -/
def lowerAfter (inWord : Bool) : List Char → List Char
  | [] => []
  | c :: cs =>
    let image := if c = 'Σ' then [if inWord && !startsCased cs then 'ς' else 'σ'] else lower c
    image ++ lowerAfter (if isCaseIgnorable c then inWord else isCased c) cs

def lowerAll (cs : List Char) : List Char := lowerAfter false cs

/-! ## Upper camel case -/

/-- Every underscore gives way to the upper case form of the character after it. One at the end
of a line stays. -/
def camelizeRest : List Char → List Char
  | '_' :: c :: cs => if c = '\n' then '_' :: c :: camelizeRest cs else upper c ++ camelizeRest cs
  | c :: cs => c :: camelizeRest cs
  | [] => []

/-- The first character in upper case, whatever it is, and the rest word by word. -/
def camelizeChars : List Char → List Char
  | [] => []
  | c :: cs => if c = '\n' then c :: camelizeRest cs else upper c ++ camelizeRest cs

/-- `device_id` and `deviceId` become `DeviceId`. -/
def camelize (s : String) : String := String.ofList (camelizeChars s.toList)

/-! ## Snake case -/

/-- Whether a word starts at `y` after `x`: at a capital after a small letter or a digit, and at
the last capital of an acronym when a small letter follows. -/
def startsWord (x y : Char) (next : Option Char) : Bool :=
  y.isUpper && (x.isLower || isDecimalDigit x || (x.isUpper && next.any Char.isLower))

/-- Puts an underscore before every word but the first. -/
def separateWords : List Char → List Char
  | x :: y :: rest =>
    if startsWord x y rest.head? then x :: '_' :: separateWords (y :: rest)
    else x :: separateWords (y :: rest)
  | cs => cs

def underscoreChars (cs : List Char) : List Char :=
  lowerAll ((separateWords cs).map fun c => if c = '-' then '_' else c)

/-- `HTTPServer` becomes `http_server`. -/
def underscore (s : String) : String := String.ofList (underscoreChars s.toList)

def screamingChars (cs : List Char) : List Char := upperAll (underscoreChars cs)

/-- `kitchenHub` becomes `KITCHEN_HUB`. -/
def screaming (s : String) : String := String.ofList (screamingChars s.toList)

end PropertyTables.Text
