import PropertyTables.Path.Basic
import PropertyTables.Total

/-!
# The order of property paths

Handles number the paths of a unit in a fixed order. A field is followed by its members before
its next sibling; arrays, maps and well-known types have no members of their own. The value of a
map comes behind every path that is still waiting when the map is reached.
-/

namespace PropertyTables

namespace Field

/-- The members that are properties of their own, right after the field. -/
def direct (f : Field) : List NodeId :=
  if f.isMap then []
  else if f.isStruct && !f.isStandard && !f.isArray then f.members
  else []

/-- The value of a map, whose turn comes last. -/
def deferred (f : Field) : List NodeId := if f.isMap then f.value.toList else []

def successors (f : Field) : List NodeId := f.direct ++ f.deferred

end Field

namespace Schema

def successors (s : Schema) (id : NodeId) : List NodeId :=
  ((s.field? id).map Field.successors).getD []

/-- The number of steps it takes to go through `id` and what follows below it, down to a
given depth. -/
def weight (s : Schema) : Nat → NodeId → Nat
  | 0, _ => 1
  | depth + 1, id => 1 + total (s.weight depth) (s.successors id)

/-- The length to which paths are followed. A path that repeats no field is no longer than the
schema has nodes, and neither is one between two map values that comes to an end. A field that
can be reached at all is reached through fewer map values than there are nodes. So past this
length a path goes round for ever. -/
def pathBound (s : Schema) : Nat := (s.size + 1) * (s.size + 1)

/-- The weight of the paths that wait. -/
def pendingWeight (s : Schema) (waiting : List Path) : Nat :=
  total (fun p => s.weight (s.pathBound + 1 - p.length) p.last) waiting

theorem pendingWeight_append (s : Schema) (ps qs : List Path) :
    s.pendingWeight (ps ++ qs) = s.pendingWeight ps + s.pendingWeight qs :=
  total_append _ ps qs

theorem pendingWeight_children (s : Schema) (path : Path) (ids : List NodeId) :
    s.pendingWeight (ids.map path.child) =
      total (s.weight (s.pathBound + 1 - (path.length + 1))) ids := by
  simp only [pendingWeight, total_map, Path.length_child, Path.last_child]

theorem pendingWeight_step {s : Schema} {path : Path} {f : Field} (waiting : List Path)
    (bound : path.length ≤ s.pathBound) (found : s.field? path.last = some f) :
    s.pendingWeight (f.direct.map path.child ++ waiting ++ f.deferred.map path.child) <
      s.pendingWeight (path :: waiting) := by
  have depth : s.pathBound + 1 - path.length = s.pathBound + 1 - (path.length + 1) + 1 := by
    omega
  have head : s.pendingWeight (path :: waiting) =
      1 + s.pendingWeight (f.successors.map path.child) + s.pendingWeight waiting := by
    rw [pendingWeight_children]
    simp [pendingWeight, depth, weight, successors, found]
  rw [head, Field.successors, List.map_append]
  simp only [pendingWeight_append]
  omega

/-- Takes the first waiting path, then what follows it. -/
def explore (s : Schema) (unit : NodeId) : List Path → Except Error (List Path)
  | [] => .ok []
  | path :: waiting =>
    match s.node? path.last, _found : s.field? path.last with
    | none, _ => .error (.absent path.last)
    | some node, none =>
      .error (.integrity (s.fullName unit) (s.dotted path.fields) (.notField node.kind.label))
    | some _, some f =>
      if _bound : path.length ≤ s.pathBound then do
        let rest ← s.explore unit (f.direct.map path.child ++ waiting ++ f.deferred.map path.child)
        return path :: rest
      else .error (.integrity (s.fullName unit) (s.dotted path.fields) .cyclicFields)
termination_by waiting => s.pendingWeight waiting
decreasing_by exact pendingWeight_step waiting _bound _found

/-- The fields that the paths of a unit start from. -/
def topFields (s : Schema) (unit : NodeId) : Except Error (List NodeId) := do
  let node ← s.node unit
  match node.kind with
  | .trait t => .ok t.state
  | .struct t => .ok t.fields
  | .typespace _ => .ok []
  | kind => .error (.integrity (s.fullName unit) node.name (.noPaths kind.label))

/-- The property paths of a unit, in the order of their handles. -/
def paths (s : Schema) (unit : NodeId) : Except Error (List Path) := do
  s.explore unit ((← s.topFields unit).map Path.single)

end Schema

end PropertyTables
