import PropertyTables.Schema.Basic

/-!
# Names in a schema

What is above a node, and the names that follow from it: the full name, dotted from the root
down, and the qualifier in force.
-/

namespace PropertyTables.Schema

/-- A node and what is above it, nearest first. -/
def lineage (s : Schema) (id : NodeId) : List NodeId :=
  match _h : s.parent? id with
  | some parent => id :: s.lineage parent
  | none => [id]
termination_by id
decreasing_by exact parent?_lt _h

/-- Whether a node is `ancestor` or below it. -/
def isWithin (s : Schema) (id ancestor : NodeId) : Bool := (s.lineage id).contains ancestor

/-- The qualifier a node has of its own; empty when it has none. -/
def ownQualifier (s : Schema) (id : NodeId) : String := ((s.kind? id).map Kind.qualifier).getD ""

/-- The nearest qualifier at or above a node. -/
def qualifier (s : Schema) (id : NodeId) : String :=
  (((s.lineage id).map s.ownQualifier).find? (· ≠ "")).getD ""

/-- The part of a full name that one node gives: roots bring their qualifier along. -/
def namePart (s : Schema) (id : NodeId) : String :=
  if s.parent? id = none ∧ s.ownQualifier id ≠ "" then s.ownQualifier id ++ "." ++ s.name id
  else s.name id

/-- `qualifier.Name` for a root and `Parent.name` below one. -/
def fullName (s : Schema) (id : NodeId) : String :=
  ".".intercalate ((s.lineage id).reverse.map s.namePart)

theorem lineage_of_parent {s : Schema} {id parent : NodeId} (h : s.parent? id = some parent) :
    s.lineage id = id :: s.lineage parent := by
  rw [lineage]
  split <;> simp_all

theorem lineage_of_root {s : Schema} {id : NodeId} (h : s.parent? id = none) :
    s.lineage id = [id] := by
  rw [lineage]
  split <;> simp_all

end PropertyTables.Schema
