/-!
# Command-line arguments

Arguments are options with a value, flags, and operands. An option is written `-o VALUE`,
`-oVALUE`, `-o=VALUE`, `--option VALUE` or `--option=VALUE`, flags of one letter can be joined,
and after `--` everything is an operand. No option or flag is given twice.
-/

namespace PropertyTables.CommandLine

/-- An option or flag: its name, its letter if it has one, and whether a value follows. -/
structure Switch where
  name : String
  letter : Option Char
  takesValue : Bool
deriving DecidableEq, Repr

/-- What a command accepts. -/
structure Grammar where
  switches : List Switch
  /-- The most operands there can be. -/
  operands : Nat
deriving DecidableEq, Repr

/-- What was given: values of options (flags have an empty one), and operands. -/
structure Given where
  values : List (String × String) := []
  operands : List String := []
deriving DecidableEq, Repr

/-- How reading arguments ends. -/
inductive Reading (α : Type)
  | done (result : α)
  /-- Help was asked for. -/
  | help
  | misused
deriving Repr

namespace Reading

def bind {α β : Type} (r : Reading α) (f : α → Reading β) : Reading β :=
  match r with
  | done result => f result
  | help => help
  | misused => misused

instance : Monad Reading where
  pure := done
  bind := bind

def ofOption {α : Type} : Option α → Reading α
  | some a => done a
  | none => misused

end Reading

namespace Given

def value? (given : Given) (name : String) : Option String := given.values.lookup name

def has (given : Given) (name : String) : Bool := (given.value? name).isSome

/-- Adds a switch that was not given before. -/
def add (given : Given) (switch : Switch) (value : String) : Reading Given :=
  if given.has switch.name then .misused
  else .done { given with values := (switch.name, value) :: given.values }

end Given

namespace Grammar

def help : Switch := ⟨"help", some 'h', false⟩

def byName? (g : Grammar) (name : String) : Option Switch :=
  (help :: g.switches).find? (·.name = name)

def byLetter? (g : Grammar) (letter : Char) : Option Switch :=
  (help :: g.switches).find? (·.letter = some letter)

/-- Whether an argument cannot be the value of the option before it. -/
def looksLikeSwitch (argument : String) : Bool :=
  match argument.toList with
  | '-' :: _ :: _ => true
  | _ => false

/-- An argument taken apart. -/
inductive Argument
  | operand (text : String)
  /-- All that follows are operands. -/
  | separator
  /-- A name after two hyphens, and what is after its equals sign. -/
  | long (name : String) (value : Option String)
  /-- Letters after one hyphen. -/
  | short (letters : List Char)
deriving DecidableEq, Repr

def Argument.ofString (argument : String) : Argument :=
  match argument.toList with
  | ['-', '-'] => .separator
  | '-' :: '-' :: cs =>
    let name := String.ofList (cs.takeWhile (· ≠ '='))
    match cs.dropWhile (· ≠ '=') with
    | [] => .long name none
    | _ :: value => .long name (some (String.ofList value))
  | '-' :: c :: cs => .short (c :: cs)
  | _ => .operand argument

/-- What joined letters come to: the switches, the last of which may have its value attached or
still wait for it. -/
def letters (g : Grammar) (given : Given) : List Char → Reading (Given × Option Switch)
  | [] => .done (given, none)
  | c :: cs =>
    match g.byLetter? c with
    | none => .misused
    | some switch =>
      if switch = help then .help
      else if switch.takesValue then
        match cs with
        | [] => .done (given, some switch)
        | '=' :: value => (given.add switch (String.ofList value)).bind fun given =>
            .done (given, none)
        | value => (given.add switch (String.ofList value)).bind fun given => .done (given, none)
      else (given.add switch "").bind fun given => g.letters given cs

/-- A long switch: what is given after it, or the option that waits for its value. -/
def long (g : Grammar) (given : Given) (name : String) (value : Option String) :
    Reading (Given × Option Switch) :=
  match g.byName? name, value with
  | none, _ => .misused
  | some switch, none =>
    if switch = help then .help
    else if switch.takesValue then .done (given, some switch)
    else (given.add switch "").bind fun given => .done (given, none)
  | some switch, some value =>
    if switch.takesValue then (given.add switch value).bind fun given => .done (given, none)
    else .misused

def operand (g : Grammar) (given : Given) (text : String) : Reading Given :=
  if given.operands.length < g.operands then
    .done { given with operands := given.operands ++ [text] }
  else .misused

/-- Reads arguments one after the other; `waiting` is the option that takes the next one. A
`check` refuses values as they are given. -/
def read (g : Grammar) (check : Given → Bool) (given : Given) (waiting : Option Switch) :
    List String → Reading Given
  | [] => if waiting.isNone && check given then .done given else .misused
  | argument :: rest =>
    if !check given then .misused
    else
      match waiting with
      | some switch =>
        if looksLikeSwitch argument then .misused
        else (given.add switch argument).bind fun given => g.read check given none rest
      | none =>
        match Argument.ofString argument with
        | .separator =>
          (rest.foldlM g.operand given).bind fun given =>
            if check given then .done given else .misused
        | .operand text => (g.operand given text).bind fun given => g.read check given none rest
        | .long name value => (g.long given name value).bind fun (given, waiting) =>
            g.read check given waiting rest
        | .short cs => (g.letters given cs).bind fun (given, waiting) =>
            g.read check given waiting rest

end Grammar

end PropertyTables.CommandLine
