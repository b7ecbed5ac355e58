import PropertyTables.Handle
import PropertyTables.Schema.Names
import PropertyTables.Text.Casing

/-!
# Property paths

A path leads from a top-level field of a unit down to the field it addresses. It has two texts:
the dotted names, and the symbol of its handle.
-/

namespace PropertyTables

/-- The fields passed through, and the field addressed. -/
structure Path where
  enclosing : List NodeId
  last : NodeId
deriving DecidableEq, Repr

namespace Path

def single (id : NodeId) : Path := ⟨[], id⟩

def fields (p : Path) : List NodeId := p.enclosing ++ [p.last]

/-- The path one field further down. -/
def child (p : Path) (id : NodeId) : Path := ⟨p.fields, id⟩

def length (p : Path) : Nat := p.fields.length

@[simp] theorem length_single (id : NodeId) : (single id).length = 1 := rfl

@[simp] theorem length_child (p : Path) (id : NodeId) : (p.child id).length = p.length + 1 := by
  simp [length, child, fields]

@[simp] theorem last_child (p : Path) (id : NodeId) : (p.child id).last = id := rfl

end Path

namespace Schema

/-- The names of the fields, dotted. -/
def dotted (s : Schema) (fields : List NodeId) : String := ".".intercalate (fields.map s.name)

/-- The names of the fields in camel case, joined by underscores. No fields lead to the root. -/
def symbol (s : Schema) (fields : List NodeId) : String :=
  if fields.isEmpty then Handle.rootSymbol
  else "_".intercalate (fields.map fun id => Text.camelize (s.name id))

end Schema

end PropertyTables
