import PropertyTables.Schema.Names

/-!
# Building a schema

A schema grows by edits: a declaration at the top, a declaration below an existing node, or a
setting of an existing node. A refused edit changes nothing. A new node is always the last one.
-/

namespace PropertyTables

/-! ## What can be declared and set -/

/-- What can stand at the top of a schema. -/
inductive TopLevel
  | typespace
  | trait (number : UInt32)
  | struct (number : UInt32)
  | enum (number : UInt32) (values : List EnumValue)
deriving DecidableEq, Repr

/-- What can stand below another node. -/
inductive Member
  | struct (qualifier : String) (number : UInt32)
  | enum (qualifier : String) (number : UInt32) (values : List EnumValue)
  | event (number : UInt32) (importance : Importance)
  | command (number : UInt32)
  | response (number : UInt32)
  | field (number : UInt32) (field : Field)
  | mapValue (field : Field)
  | group (number : UInt32)
  | constant (number : UInt32) (value : String)
deriving DecidableEq, Repr

inductive Setting
  | version (version : UInt32)
  | vendor (vendor : UInt16)
  | base (id : NodeId)
  | standard (isStandard : Bool)
  | bitmask (isBitmask : Bool)
deriving DecidableEq, Repr

inductive Edit
  | declare (qualifier name : String) (top : TopLevel)
  | attach (parent : NodeId) (name : String) (member : Member)
  | set (id : NodeId) (setting : Setting)
deriving DecidableEq, Repr

namespace TopLevel

def number : TopLevel → UInt32
  | typespace => 0
  | trait number | struct number | enum number _ => number

def kind (qualifier : String) : TopLevel → Kind
  | typespace => .typespace ⟨qualifier, 1, [], [], []⟩
  | trait _ => .trait { qualifier }
  | struct _ => .struct { qualifier }
  | enum _ values => .enum { qualifier, values }

end TopLevel

namespace Member

/-- The value of a map is numbered zero. -/
def number : Member → UInt32
  | struct _ number | enum _ number _ | event number _ | command number | response number
  | field number _ | group number | constant number _ => number
  | mapValue _ => 0

def kind : Member → Kind
  | struct qualifier _ => .struct { qualifier }
  | enum qualifier _ values => .enum { qualifier, values }
  | event _ importance => .struct { importance := some importance }
  | command _ => .command {}
  | response _ => .struct {}
  | field _ f | mapValue f => .field f
  | group _ => .group {}
  | constant _ value => .constant ⟨value⟩

end Member

namespace Setting

/-- The setting with its article. -/
def label : Setting → String
  | version _ => "a version"
  | vendor _ => "a vendor"
  | base _ => "an extends target"
  | standard _ => "a standard flag"
  | bitmask _ => "a bitmask flag"

end Setting

namespace Kind

/-- Lists the node `id` as a new member; `none` when there is no place for it. A field that gets
a member is a struct, one that gets a value is a map. -/
def adopt (id : NodeId) : Kind → Member → Option Kind
  | trait t, .struct .. => some (trait { t with structs := t.structs ++ [id] })
  | typespace t, .struct .. => some (typespace { t with structs := t.structs ++ [id] })
  | trait t, .enum .. => some (trait { t with enums := t.enums ++ [id] })
  | typespace t, .enum .. => some (typespace { t with enums := t.enums ++ [id] })
  | trait t, .event .. => some (trait { t with events := t.events ++ [id] })
  | trait t, .command _ => some (trait { t with commands := t.commands ++ [id] })
  | command ⟨parameters, none⟩, .response _ => some (command ⟨parameters, some id⟩)
  | trait t, .field .. => some (trait { t with state := t.state ++ [id] })
  | struct s, .field .. => some (struct { s with fields := s.fields ++ [id] })
  | command c, .field .. => some (command { c with parameters := c.parameters ++ [id] })
  | field f, .field .. => some (field { f with dataType := .struct, members := f.members ++ [id] })
  | field f, .mapValue _ =>
    match f.value with
    | none => some (field { f with isMap := true, value := some id })
    | some _ => none
  | trait t, .group _ => some (trait { t with groups := t.groups ++ [id] })
  | typespace t, .group _ => some (typespace { t with groups := t.groups ++ [id] })
  | group g, .constant .. => some (group ⟨g.constants ++ [id]⟩)
  | _, _ => none

def configure : Kind → Setting → Option Kind
  | trait t, .version version => some (trait { t with version })
  | typespace t, .version version => some (typespace { t with version })
  | trait t, .vendor vendor => some (trait { t with vendor })
  | trait t, .base id => some (trait { t with base := some id })
  | struct s, .standard isStandard => some (struct { s with isStandard })
  | field f, .standard isStandard => some (field { f with isStandard })
  | enum e, .bitmask isBitmask => some (enum { e with isBitmask })
  | _, _ => none

end Kind

/-! ## Edits -/

namespace Schema

/-- Gives a node another kind; its name, number and place stay. -/
def setKind (s : Schema) (id : NodeId) (kind : Kind) : Schema where
  nodes := s.nodes.modify id fun node => { node with kind }
  roots := s.roots
  parent_lt := by
    intro i node parent found below
    rw [Array.getElem?_modify] at found
    split at found
    · obtain ⟨old, oldFound, rfl⟩ := Option.map_eq_some_iff.1 found
      exact s.parent_lt oldFound below
    · exact s.parent_lt found below

@[simp] theorem size_setKind (s : Schema) (id : NodeId) (kind : Kind) :
    (s.setKind id kind).size = s.size := by
  simp [size, setKind]

@[simp] theorem roots_setKind (s : Schema) (id : NodeId) (kind : Kind) :
    (s.setKind id kind).roots = s.roots := rfl

theorem node?_setKind (s : Schema) (id i : NodeId) (kind : Kind) :
    (s.setKind id kind).node? i =
      if id = i then (s.node? i).map ({ · with kind }) else s.node? i :=
  Array.getElem?_modify

/-- Adds a node at the end, below one that is there. -/
def push (s : Schema) (node : Node)
    (below : ∀ parent, node.parent = some parent → parent < s.size) : Schema where
  nodes := s.nodes.push node
  roots := if node.parent = none then s.roots ++ [s.size] else s.roots
  parent_lt := by
    intro i other parent found above
    rw [Array.getElem?_push] at found
    split at found
    · cases found
      subst i
      exact below parent above
    · exact s.parent_lt found above

@[simp] theorem size_push (s : Schema) (node : Node)
    (below : ∀ parent, node.parent = some parent → parent < s.size) :
    (s.push node below).size = s.size + 1 := by
  simp [size, push]

theorem node?_push (s : Schema) (node : Node) (i : NodeId)
    (below : ∀ parent, node.parent = some parent → parent < s.size) :
    (s.push node below).node? i = if i = s.size then some node else s.node? i :=
  Array.getElem?_push

def declare (s : Schema) (qualifier name : String) (top : TopLevel) : Schema :=
  s.push ⟨name, top.number, none, top.kind qualifier⟩ fun _ below => nomatch below

/-- Adds a member below a node that has a place for it. A parent is a node that an earlier edit
made. Any other id is outside the model, also the one that the member itself is about to get:
`absent` only makes the function total. -/
def attach (s : Schema) (parent : NodeId) (name : String) (member : Member) :
    Except Error Schema :=
  match h : s.node? parent with
  | none => .error (.absent parent)
  | some node =>
    match node.kind.adopt s.size member with
    | none => .error <| .integrity (s.fullName parent) node.name
        (.misplaced node.kind.label member.kind.label)
    | some kind => .ok <| (s.setKind parent kind).push
        ⟨name, member.number, some parent, member.kind⟩ fun _ below => by
          cases below
          rw [size_setKind]
          exact node?_lt h

/-- Sets what nodes of a kind have. As in `attach`, the node is one that an earlier edit made. -/
def set (s : Schema) (id : NodeId) (setting : Setting) : Except Error Schema :=
  match s.node? id with
  | none => .error (.absent id)
  | some node =>
    match node.kind.configure setting with
    | none => .error <| .integrity (s.fullName id) node.name
        (.unsupported node.kind.label setting.label)
    | some kind => .ok (s.setKind id kind)

def apply (s : Schema) : Edit → Except Error Schema
  | .declare qualifier name top => .ok (s.declare qualifier name top)
  | .attach parent name member => s.attach parent name member
  | .set id setting => s.set id setting

/-- The schema after a sequence of edits, the refused ones skipped. -/
def run (s : Schema) (edits : List Edit) : Schema :=
  edits.foldl (fun s edit => (s.apply edit).toOption.getD s) s

end Schema

end PropertyTables
