import PropertyTables.Document.ToSchema

/-!
# The entries of a document

The entries of a document form a forest: each has the entries that are written inside it below it.
Numbered in the order of the forest, an entry before those below it, they make an outline, which
tells of each what it declares, its name and the number of the entry around it.

## Main definitions

* `DeclTree`: an entry with the entries below it, `Document.trees` those of a document.
* `DeclTree.outlineAll`: the outline of a forest.
* `DeclTree.prune`, `DeclTree.dropped`: an entry without the map values of map values, and those.
-/

namespace PropertyTables

/-! ## Entries -/

/-- An entry of a document: what it declares, its name, whether it is the value of a map, and the
entries directly below it. -/
inductive DeclTree
  | mk (label name : String) (isValue : Bool) (below : List DeclTree)

/-- What a node or an entry is, and the node it stands below. -/
structure Heading where
  parent : Option NodeId
  label : String
  name : String
deriving DecidableEq, Repr

namespace DeclTree

def isValue : DeclTree → Bool
  | mk _ _ isValue _ => isValue

mutual

/-- The number of entries from this one down. -/
def size : DeclTree → Nat
  | mk _ _ _ below => sizeAll below + 1

def sizeAll : List DeclTree → Nat
  | [] => 0
  | e :: es => e.size + sizeAll es

end

mutual

/-- The headings of an entry and of those below it when their nodes are numbered from `id` on. -/
def outline (parent : Option NodeId) (id : NodeId) : DeclTree → List Heading
  | mk label name _ below => ⟨parent, label, name⟩ :: outlineAll (some id) (id + 1) below

def outlineAll (parent : Option NodeId) (id : NodeId) : List DeclTree → List Heading
  | [] => []
  | e :: es => e.outline parent id ++ outlineAll parent (id + e.size) es

end

mutual

/-- The entry without the values of values. -/
def prune : DeclTree → DeclTree
  | mk label name isValue below => mk label name isValue (pruneAll isValue below)

def pruneAll (belowValue : Bool) : List DeclTree → List DeclTree
  | [] => []
  | e :: es =>
    if belowValue && e.isValue then pruneAll belowValue es
    else e.prune :: pruneAll belowValue es

end

mutual

/-- The values of values, each with what is below it. -/
def dropped : DeclTree → List DeclTree
  | mk _ _ isValue below => droppedAll isValue below

def droppedAll (belowValue : Bool) : List DeclTree → List DeclTree
  | [] => []
  | e :: es =>
    (if belowValue && e.isValue then [e] else e.dropped) ++ droppedAll belowValue es

end

variable {parent : Option NodeId} {id : NodeId} {belowValue : Bool} {es fs : List DeclTree}

theorem size_pos (e : DeclTree) : 0 < e.size := by
  cases e
  rw [size]
  exact Nat.succ_pos _

@[simp] theorem sizeAll_append : sizeAll (es ++ fs) = sizeAll es + sizeAll fs := by
  induction es with
  | nil => simp [sizeAll]
  | cons e es ih => simp only [List.cons_append, sizeAll, ih, Nat.add_assoc]

theorem sizeAll_eq_zero : sizeAll es = 0 ↔ es = [] := by
  cases es with
  | nil => simp [sizeAll]
  | cons e es =>
    have := e.size_pos
    simp only [sizeAll, reduceCtorEq, iff_false]
    omega

theorem outlineAll_append :
    outlineAll parent id (es ++ fs) =
      outlineAll parent id es ++ outlineAll parent (id + sizeAll es) fs := by
  induction es generalizing id with
  | nil => simp [outlineAll, sizeAll]
  | cons e es ih =>
    simp only [List.cons_append, outlineAll, sizeAll, ih, List.append_assoc, Nat.add_assoc]

theorem pruneAll_append :
    pruneAll belowValue (es ++ fs) = pruneAll belowValue es ++ pruneAll belowValue fs := by
  induction es with
  | nil => simp [pruneAll]
  | cons e es ih =>
    simp only [List.cons_append, pruneAll, ih]
    split <;> rfl

mutual

/-- An outline has one heading for each entry, so the numbers in it are positions. -/
theorem length_outline (parent : Option NodeId) (id : NodeId) :
    (e : DeclTree) → (e.outline parent id).length = e.size
  | mk _ _ _ below => by rw [outline, List.length_cons, length_outlineAll, size]

theorem length_outlineAll (parent : Option NodeId) (id : NodeId) :
    (es : List DeclTree) → (outlineAll parent id es).length = sizeAll es
  | [] => by rw [outlineAll, sizeAll, List.length_nil]
  | e :: es => by
    rw [outlineAll, List.length_append, length_outline, length_outlineAll, sizeAll]

end

mutual

theorem size_prune : (e : DeclTree) → e.prune.size + sizeAll e.dropped = e.size
  | mk _ _ isValue below => by
    have := sizeAll_pruneAll isValue below
    rw [prune, size, dropped, size]
    omega

/-- Every entry is kept or dropped. -/
theorem sizeAll_pruneAll (belowValue : Bool) : (es : List DeclTree) →
    sizeAll (pruneAll belowValue es) + sizeAll (droppedAll belowValue es) = sizeAll es
  | [] => by simp [pruneAll, droppedAll, sizeAll]
  | e :: es => by
    have first := size_prune e
    have rest := sizeAll_pruneAll belowValue es
    rw [pruneAll, droppedAll, sizeAll_append]
    split <;> simp only [sizeAll] <;> omega

end

mutual

theorem prune_of_dropped : (e : DeclTree) → e.dropped = [] → e.prune = e
  | mk _ _ isValue below, nothing => by
    rw [dropped] at nothing
    rw [prune, pruneAll_of_droppedAll isValue below nothing]

theorem pruneAll_of_droppedAll (belowValue : Bool) : (es : List DeclTree) →
    droppedAll belowValue es = [] → pruneAll belowValue es = es
  | [], _ => by rw [pruneAll]
  | e :: es, nothing => by
    rw [droppedAll, List.append_eq_nil_iff] at nothing
    obtain ⟨first, rest⟩ := nothing
    rw [pruneAll, pruneAll_of_droppedAll belowValue es rest]
    split at first
    · cases first
    · rename_i kept
      rw [if_neg kept, prune_of_dropped e first]

end

end DeclTree

/-! ## The entries of a document -/

mutual

def FieldDecl.tree (isValue : Bool) : FieldDecl → DeclTree
  | ⟨name, _, _, fields, value⟩ =>
    .mk "field" name isValue (FieldDecl.trees fields ++ FieldDecl.valueTrees value)

def FieldDecl.trees : List FieldDecl → List DeclTree
  | [] => []
  | field :: fields => field.tree false :: FieldDecl.trees fields

def FieldDecl.valueTrees : Option FieldDecl → List DeclTree
  | none => []
  | some value => [value.tree true]

end

namespace FieldDecl

@[simp] theorem isValue_tree (isValue : Bool) (field : FieldDecl) :
    (field.tree isValue).isValue = isValue := by
  cases field
  rw [tree, DeclTree.isValue]

/-- Below a value, the members are kept and a value is not. -/
theorem pruneAll_trees (fields : List FieldDecl) (value : Option FieldDecl) :
    DeclTree.pruneAll true (trees fields ++ valueTrees value) =
      DeclTree.pruneAll false (trees fields) := by
  have members : DeclTree.pruneAll true (trees fields) =
      DeclTree.pruneAll false (trees fields) := by
    induction fields with
    | nil => simp [trees, DeclTree.pruneAll]
    | cons field fields ih => simp [trees, DeclTree.pruneAll, ih]
  have nested : DeclTree.pruneAll true (valueTrees value) = [] := by
    cases value <;> simp [valueTrees, DeclTree.pruneAll]
  rw [DeclTree.pruneAll_append, members, nested, List.append_nil]

end FieldDecl

/-- A response is a struct like others. -/
def StructDecl.tree (d : StructDecl) : DeclTree :=
  .mk "struct" d.name false (FieldDecl.trees d.fields)

/-- An event is a struct too. -/
def EventDecl.tree (d : EventDecl) : DeclTree :=
  .mk "struct" d.name false (FieldDecl.trees d.fields)

def EnumDecl.tree (d : EnumDecl) : DeclTree := .mk "enum" d.name false []

def CommandDecl.tree (d : CommandDecl) : DeclTree :=
  .mk "command" d.name false
    (FieldDecl.trees d.parameters ++ d.response.toList.map StructDecl.tree)

def ConstantDecl.tree (d : ConstantDecl) : DeclTree := .mk "constant" d.name false []

def GroupDecl.tree (d : GroupDecl) : DeclTree :=
  .mk "constant group" d.name false (d.constants.map ConstantDecl.tree)

def TypespaceDecl.tree (d : TypespaceDecl) : DeclTree :=
  .mk "typespace" (splitName d.name).2 false
    (d.enums.map EnumDecl.tree ++ d.structs.map StructDecl.tree ++ d.groups.map GroupDecl.tree)

def TraitDecl.tree (d : TraitDecl) : DeclTree :=
  .mk "trait" (splitName d.name).2 false
    (FieldDecl.trees d.state ++ d.enums.map EnumDecl.tree ++
      d.commands.map CommandDecl.tree ++ d.groups.map GroupDecl.tree ++
      d.structs.map StructDecl.tree ++ d.events.map EventDecl.tree)

/-- At the top, the name comes with a qualifier that is not part of it. -/
def StructDecl.topTree (d : StructDecl) : DeclTree :=
  StructDecl.tree { d with name := (splitName d.name).2 }

def EnumDecl.topTree (d : EnumDecl) : DeclTree :=
  EnumDecl.tree { d with name := (splitName d.name).2 }

namespace Document

/-- The entries at the top of a document, in the order in which they are loaded. -/
def trees (d : Document) : List DeclTree :=
  d.typespaces.map TypespaceDecl.tree ++ d.traits.map TraitDecl.tree ++
    d.structs.map StructDecl.topTree ++ d.enums.map EnumDecl.topTree

/-- The map values of map values that a document declares. -/
def dropped (d : Document) : List DeclTree := DeclTree.droppedAll false d.trees

end Document

end PropertyTables
