import PropertyTables.Schema.Names

/-!
# Verification of siblings

The children of one list belong to the node that lists them, and no two have the same name or
number. This is checked place by place, going down into a child before its next sibling. The
values of an enum are held to the same rule.
-/

namespace PropertyTables

/-- Every element of a list with those before it. -/
def withEarlier {α : Type} : List α → List (List α × α)
  | [] => []
  | x :: xs => ([], x) :: (withEarlier xs).map fun (earlier, y) => (x :: earlier, y)

namespace Schema

def childLists (s : Schema) (id : NodeId) : List ChildList :=
  ((s.kind? id).map Kind.childLists).getD []

/-- A value of an enum, after others. -/
def verifyValue (s : Schema) (unit : String) (id : NodeId) (earlier : List EnumValue)
    (value : EnumValue) : Except Error Unit :=
  let element := s.name id ++ "." ++ value.name
  if earlier.any (·.name = value.name) then
    .error (.integrity unit element (.valueNameTwice value.name))
  else if earlier.any (·.number = value.number) then
    .error (.integrity unit element (.valueNumberTwice value.number))
  else .ok ()

def verifyChild (s : Schema) (unit : String) (parent : NodeId) (list : String)
    (earlier : List NodeId) (child : NodeId) : Except Error Unit := do
  let node ← s.node child
  if node.parent ≠ some parent then
    .error (.integrity unit (s.fullName child) (.ownedElsewhere list (s.name parent)))
  else
    match earlier.find? (s.name · = node.name) with
    | some other =>
      .error (.integrity unit (s.fullName child) (.nameTwice node.name list (s.fullName other)))
    | none =>
      match earlier.find? (s.number · = node.number) with
      | some other =>
        .error (.integrity unit (s.fullName child)
          (.numberTwice node.number list (s.fullName other)))
      | none => .ok ()

/-- The values of an enum; other nodes have none. -/
def verifyValues (s : Schema) (unit : String) (id : NodeId) : Except Error Unit :=
  match s.kind? id with
  | some (.enum e) =>
    (withEarlier e.values).forM fun (earlier, value) => s.verifyValue unit id earlier value
  | _ => .ok ()

/-- Checks all places at and below a node of the unit, up to the first that fails. A child that
belongs elsewhere is not entered. -/
def verifySiblings (s : Schema) (unit : String) (id : NodeId) : Except Error Unit := do
  s.verifyValues unit id
  (s.childLists id).forM fun list =>
    (withEarlier list.ids).forM fun (earlier, child) => do
      s.verifyChild unit id list.label earlier child
      if _h : s.parent? child = some id then s.verifySiblings unit child
termination_by s.size - id
decreasing_by
  have := parent?_lt _h
  have := lt_size_of_parent? _h
  omega

end Schema

end PropertyTables
