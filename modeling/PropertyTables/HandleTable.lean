import PropertyTables.Path.Enumeration

/-!
# Handle tables

The paths of a unit with the symbol of each and the position of its enclosing path, which is
looked up by symbol. Two paths of one symbol make the table ambiguous.
-/

namespace PropertyTables

/-- A path in its table. -/
structure Entry where
  path : Path
  symbol : String
  /-- The position of the enclosing path; none at the top. -/
  parent : Option Nat
deriving DecidableEq, Repr

/-- What is read of a property at run time. -/
structure Row where
  handle : Handle
  symbol : String
  parentSymbol : String
  parentHandle : Handle
  number : UInt32
  name : String
deriving DecidableEq, Repr

structure HandleTable where
  entries : List Entry
deriving DecidableEq, Repr

namespace Schema

/-- The entry of a path that comes after `done`. -/
def entry (s : Schema) (unit : NodeId) (done : List Entry) (path : Path) : Except Error Entry :=
  match path.fields.find? fun field => !s.isWithin field unit with
  | some field =>
    .error (.integrity (s.fullName unit) (s.dotted path.fields) (.outsideUnit (s.fullName field)))
  | none =>
    let symbol := s.symbol path.fields
    match done.find? (·.symbol = symbol) with
    | some earlier =>
      .error (.ambiguous (s.fullName unit) symbol (s.dotted earlier.path.fields)
        (s.dotted path.fields))
    | none =>
      if path.enclosing.isEmpty then .ok ⟨path, symbol, none⟩
      else
        let parentSymbol := s.symbol path.enclosing
        match done.findIdx? (·.symbol = parentSymbol) with
        | some parent => .ok ⟨path, symbol, some parent⟩
        | none =>
          .error (.integrity (s.fullName unit) (s.dotted path.fields)
            (.undefinedParent parentSymbol))

def entries (s : Schema) (unit : NodeId) (done : List Entry) :
    List Path → Except Error (List Entry)
  | [] => return done
  | path :: paths => do s.entries unit (done ++ [← s.entry unit done path]) paths

def handleTable (s : Schema) (unit : NodeId) : Except Error HandleTable := do
  return ⟨← s.entries unit [] (← s.paths unit)⟩

end Schema

namespace HandleTable

def length (t : HandleTable) : Nat := t.entries.length

def paths (t : HandleTable) : List Path := t.entries.map Entry.path

def symbolAt (t : HandleTable) (i : Nat) : String := ((t.entries[i]?).map Entry.symbol).getD ""

/-- The length of the longest path, and one for an empty table. -/
def treeDepth (t : HandleTable) : UInt32 :=
  UInt32.ofNat (((t.paths.map Path.length).max?).getD 1)

/-- The row of the entry at position `i`. -/
def row (t : HandleTable) (s : Schema) (i : Nat) (entry : Entry) : Row where
  handle := Handle.ofIndex i
  symbol := entry.symbol
  parentSymbol := match entry.parent with
    | some p => t.symbolAt p
    | none => Handle.rootSymbol
  parentHandle := match entry.parent with
    | some p => Handle.ofIndex p
    | none => Handle.root
  number := s.number entry.path.last
  name := s.name entry.path.last

/-- The rows in the order of their handles. -/
def rows (t : HandleTable) (s : Schema) : List Row := t.entries.mapIdx (t.row s)

end HandleTable

end PropertyTables
