import PropertyTables.Proofs.Outcome
import PropertyTables.Schema.Edit
import PropertyTables.Verify.Siblings

/-!
# What edits do to a schema

An accepted edit adds one node at the end, which is listed with its parent, or changes a setting of
one node. Invariants of schemas only need to know this: who is the parent of whom, which lists a
node has, and of what kind it is.

## Main definitions

* `Gains`: one list of children gets a new last member.
* `Schema.Attached`, `Schema.Declared`, `Schema.Configured`: the outcome of each sort of edit.
* `Schema.GrownBy`: the schemas that edits of some sort make.
-/

namespace PropertyTables

/-! ## Lists of children -/

/-- The kind of node that the list under a label is for. -/
def ChildList.kindLabel : String → Option String
  | "state_list" | "field_list" | "parameter_list" | "map_value" => some "field"
  | "enum_list" => some "enum"
  | "struct_list" | "event_list" | "response" => some "struct"
  | "command_list" => some "command"
  | "constant_group_list" => some "constant group"
  | "constant_list" => some "constant"
  | _ => none

/-- The list under `label` gets `id` as its last member, or is new and has no other. -/
inductive Gains (label : String) (id : NodeId) : List ChildList → List ChildList → Prop
  | here {ids : List NodeId} {lists : List ChildList} :
    Gains label id (⟨label, ids⟩ :: lists) (⟨label, ids ++ [id]⟩ :: lists)
  | start : Gains label id [] [⟨label, [id]⟩]
  | there {list : ChildList} {lists lists' : List ChildList} (later : Gains label id lists lists') :
    Gains label id (list :: lists) (list :: lists')

namespace Gains

variable {label : String} {id : NodeId} {list : ChildList} {lists lists' : List ChildList}

/-- A list is as it was before, or has the new member behind those it had. -/
theorem mem (gains : Gains label id lists lists') (h : list ∈ lists') :
    list ∈ lists ∨
      ∃ ids, list = ⟨label, ids ++ [id]⟩ ∧ (ids = [] ∨ ⟨label, ids⟩ ∈ lists) := by
  induction gains with
  | here => grind
  | start => grind
  | there later ih => grind

theorem exists_mem (gains : Gains label id lists lists') : ∃ ids, ⟨label, ids⟩ ∈ lists' := by
  induction gains with
  | here => exact ⟨_, List.mem_cons_self⟩
  | start => exact ⟨_, List.mem_cons_self⟩
  | there later ih =>
    obtain ⟨ids, hids⟩ := ih
    exact ⟨ids, List.mem_cons_of_mem _ hids⟩

theorem perm (gains : Gains label id lists lists') :
    (lists'.flatMap ChildList.ids).Perm (id :: lists.flatMap ChildList.ids) := by
  induction gains with
  | @here ids lists =>
    rw [List.flatMap_cons, List.flatMap_cons, List.append_assoc]
    exact List.perm_middle
  | start => exact .refl _
  | @there list _ _ later ih =>
    rw [List.flatMap_cons, List.flatMap_cons]
    exact (ih.append_left list.ids).trans List.perm_middle

end Gains

/-- The members of the list under a label, if there is one. -/
def ChildList.under (label : String) (lists : List ChildList) : List NodeId :=
  ((lists.find? (·.label = label)).map ChildList.ids).getD []

/-- The label of the list in which a node of a kind has a member. -/
def Member.list (kind : Kind) : Member → String
  | struct .. => "struct_list"
  | enum .. => "enum_list"
  | event .. => "event_list"
  | command _ => "command_list"
  | response _ => "response"
  | field .. =>
    match kind with
    | .trait _ => "state_list"
    | .command _ => "parameter_list"
    | _ => "field_list"
  | mapValue _ => "map_value"
  | group _ => "constant_group_list"
  | constant .. => "constant_list"

namespace Kind

variable {kind kind' : Kind} {id : NodeId} {member : Member}

/-- The children under a label. A response or a map value is the only one under its label. -/
def listed (kind : Kind) (label : String) : List NodeId := ChildList.under label kind.childLists

/-- The children under a label are a list of the node, or there are none. -/
theorem listed_eq_nil_or_mem (kind : Kind) (label : String) :
    kind.listed label = [] ∨ ⟨label, kind.listed label⟩ ∈ kind.childLists := by
  cases found : kind.childLists.find? (·.label = label) with
  | none => exact .inl (by simp [listed, ChildList.under, found])
  | some list =>
    have same : list.label = label := by simpa using List.find?_some found
    have members : kind.listed label = list.ids := by simp [listed, ChildList.under, found]
    right
    rw [members, ← same]
    exact List.mem_of_find?_eq_some found

def commands : Kind → List NodeId
  | trait t => t.commands
  | _ => []

def events : Kind → List NodeId
  | trait t => t.events
  | _ => []

def enums : Kind → List NodeId
  | trait t => t.enums
  | typespace t => t.enums
  | _ => []

def structs : Kind → List NodeId
  | trait t => t.structs
  | typespace t => t.structs
  | _ => []

/-- The groups of constants of a unit. -/
def groups : Kind → List NodeId
  | trait t => t.groups
  | typespace t => t.groups
  | _ => []

/-- The lists of a unit under their labels. -/
theorem listed_eq (kind : Kind) :
    kind.listed "command_list" = kind.commands ∧ kind.listed "enum_list" = kind.enums ∧
      kind.listed "event_list" = kind.events ∧ kind.listed "constant_group_list" = kind.groups ∧
      kind.listed "struct_list" = kind.structs := by
  cases kind with
  | command c => obtain ⟨parameters, _ | response⟩ := c <;> exact ⟨rfl, rfl, rfl, rfl, rfl⟩
  | field f => obtain ⟨shape, members, _ | value⟩ := f <;> exact ⟨rfl, rfl, rfl, rfl, rfl⟩
  | _ => exact ⟨rfl, rfl, rfl, rfl, rfl⟩

/-- A node is what its label says. -/
def IsA (kind : Kind) : String → Prop
  | "typespace" => ∃ t, kind = typespace t
  | "trait" => ∃ t, kind = trait t
  | "struct" => ∃ t, kind = struct t
  | "enum" => ∃ e, kind = enum e
  | "command" => ∃ c, kind = command c
  | "field" => ∃ f, kind = field f
  | "constant group" => ∃ g, kind = group g
  | "constant" => ∃ c, kind = constant c
  | _ => False

theorem isA_label (kind : Kind) : kind.IsA kind.label := by
  cases kind <;> exact ⟨_, rfl⟩

/-- A node that takes a member lists it last in a list for nodes of this kind, and stays of its own
kind. -/
theorem gains_of_adopt (h : kind.adopt id member = some kind') :
    kind'.label = kind.label ∧ ChildList.kindLabel (member.list kind) = some member.kind.label ∧
      Gains (member.list kind) id kind.childLists kind'.childLists := by
  unfold adopt at h
  split at h
  case h_12 =>
    split at h
    · rename_i empty
      cases h
      refine ⟨rfl, rfl, ?_⟩
      simp only [childLists, empty]
      exact .there .start
    · cases h
  all_goals cases h
  · exact ⟨rfl, rfl, .there (.there (.there (.there .here)))⟩
  · exact ⟨rfl, rfl, .there .here⟩
  · exact ⟨rfl, rfl, .there .here⟩
  · exact ⟨rfl, rfl, .here⟩
  · exact ⟨rfl, rfl, .there (.there (.there (.there (.there .here))))⟩
  · exact ⟨rfl, rfl, .there (.there .here)⟩
  · exact ⟨rfl, rfl, .there .start⟩
  · exact ⟨rfl, rfl, .here⟩
  · exact ⟨rfl, rfl, .here⟩
  · exact ⟨rfl, rfl, .here⟩
  · exact ⟨rfl, rfl, .here⟩
  · exact ⟨rfl, rfl, .there (.there (.there .here))⟩
  · exact ⟨rfl, rfl, .there (.there .here)⟩
  · exact ⟨rfl, rfl, .here⟩

theorem childLists_of_configure {setting : Setting} (h : kind.configure setting = some kind') :
    kind'.label = kind.label ∧ kind'.childLists = kind.childLists := by
  unfold configure at h
  split at h <;> cases h <;> exact ⟨rfl, rfl⟩

theorem kindLabel_of_field {list : ChildList} (isField : kind.label = "field")
    (h : list ∈ kind.childLists) : ChildList.kindLabel list.label = some "field" := by
  cases kind with
  | field f =>
    rcases List.mem_cons.1 h with rfl | h
    · rfl
    · obtain ⟨id, -, rfl⟩ := List.mem_map.1 h
      rfl
  | _ => simp [label] at isField

end Kind

theorem TopLevel.ids_of_kind {top : TopLevel} {qualifier : String} {list : ChildList}
    (h : list ∈ (top.kind qualifier).childLists) : list.ids = [] := by
  cases top <;> simp [kind, Kind.childLists] at h <;> grind

namespace Member

/-- Whether a new node comes without children. Only a field can bring some along. -/
def isPlain : Member → Bool
  | field _ f | mapValue f => f.members.isEmpty && f.value.isNone
  | _ => true

theorem ids_of_isPlain {member : Member} {list : ChildList} (plain : member.isPlain)
    (h : list ∈ member.kind.childLists) : list.ids = [] := by
  cases member <;> simp [kind, Kind.childLists, isPlain] at h plain <;> grind

theorem not_unit (member : Member) :
    member.kind.label ≠ "trait" ∧ member.kind.label ≠ "typespace" := by
  cases member <;> simp [kind, Kind.label]

end Member

/-! ## The outcome of an edit -/

namespace Schema

def kindLabel? (s : Schema) (id : NodeId) : Option String := (s.kind? id).map Kind.label

theorem exists_of_kindLabel? {s : Schema} {id : NodeId} {label : String}
    (h : s.kindLabel? id = some label) : ∃ kind, s.kind? id = some kind ∧ kind.IsA label := by
  obtain ⟨kind, found, rfl⟩ := Option.map_eq_some_iff.1 h
  exact ⟨kind, found, kind.isA_label⟩

/-- All children that a node lists. -/
def childIds (s : Schema) (id : NodeId) : List NodeId := (s.childLists id).flatMap ChildList.ids

/-- `t` is `s` with a new root. -/
structure Declared (s t : Schema) (label : String) : Prop where
  size : t.size = s.size + 1
  roots : t.roots = s.roots ++ [s.size]
  parent? (id : NodeId) : t.parent? id = if id = s.size then none else s.parent? id
  kindLabel? (id : NodeId) : t.kindLabel? id = if id = s.size then some label else s.kindLabel? id
  childLists_new {list : ChildList} : list ∈ t.childLists s.size → list.ids = []
  childLists_old {id : NodeId} : id ≠ s.size → t.childLists id = s.childLists id

/-- `t` is `s` with a new node below `parent`, which lists it. -/
structure Attached (s t : Schema) (parent : NodeId) (member : Member) : Prop where
  parent_lt : parent < s.size
  size : t.size = s.size + 1
  roots : t.roots = s.roots
  parent? (id : NodeId) : t.parent? id = if id = s.size then some parent else s.parent? id
  kindLabel? (id : NodeId) :
    t.kindLabel? id = if id = s.size then some member.kind.label else s.kindLabel? id
  childLists_new : t.childLists s.size = member.kind.childLists
  childLists_old {id : NodeId} : id ≠ s.size → id ≠ parent → t.childLists id = s.childLists id
  gains : ∃ label, ChildList.kindLabel label = some member.kind.label ∧
    Gains label s.size (s.childLists parent) (t.childLists parent)

/-- `t` has the nodes of `s`, up to settings. -/
structure Configured (s t : Schema) : Prop where
  size : t.size = s.size
  roots : t.roots = s.roots
  parent? (id : NodeId) : t.parent? id = s.parent? id
  kindLabel? (id : NodeId) : t.kindLabel? id = s.kindLabel? id
  childLists (id : NodeId) : t.childLists id = s.childLists id

variable {s t : Schema} {parent id : NodeId} {name qualifier : String} {member : Member}

theorem kindLabel_of_field {list : ChildList} (isField : s.kindLabel? parent = some "field")
    (h : list ∈ s.childLists parent) : ChildList.kindLabel list.label = some "field" := by
  obtain ⟨kind, found, isField⟩ := Option.map_eq_some_iff.1 isField
  exact Kind.kindLabel_of_field isField (by simpa [childLists, found] using h)

theorem declared_declare (s : Schema) (qualifier name : String) (top : TopLevel) :
    Declared s (s.declare qualifier name top) (top.kind qualifier).label := by
  have nodes (id : NodeId) : (s.declare qualifier name top).node? id =
      if id = s.size then some ⟨name, top.number, none, top.kind qualifier⟩ else s.node? id :=
    node?_push ..
  constructor
  case size => exact size_push ..
  case roots => rfl
  case parent? => intro id; rw [parent?, nodes]; split <;> rfl
  case kindLabel? => intro id; rw [kindLabel?, kind?, nodes]; split <;> rfl
  case childLists_new =>
    intro list h
    rw [childLists, kind?, nodes, if_pos rfl] at h
    exact TopLevel.ids_of_kind h
  case childLists_old => intro id old; rw [childLists, kind?, nodes, if_neg old]; rfl

/-- An accepted member goes below a node that has a place for it. The new node is the last one, the
parent lists it, and nothing else changes. -/
theorem attach_eq_ok : s.attach parent name member = .ok t →
    ∃ node kind, s.node? parent = some node ∧ node.kind.adopt s.size member = some kind ∧
      t.size = s.size + 1 ∧ t.roots = s.roots ∧
      ∀ id, t.node? id =
        if id = s.size then some ⟨name, member.number, some parent, member.kind⟩
        else if id = parent then some { node with kind } else s.node? id := by
  intro h
  unfold attach at h
  split at h
  · cases h
  · rename_i node found
    split at h
    · cases h
    · rename_i kind adopted
      cases h
      refine ⟨node, kind, found, adopted, by simp, by simp [push], fun id => ?_⟩
      rw [node?_push, node?_setKind, size_setKind]
      grind

/-- A member that its parent has a place for is accepted. -/
theorem attach_of_adopt {node : Node} {kind : Kind} (name : String)
    (found : s.node? parent = some node) (adopted : node.kind.adopt s.size member = some kind) :
    ∃ t, s.attach parent name member = .ok t := by
  unfold attach
  split
  · simp_all
  · rename_i other hother
    obtain rfl : node = other := by simpa [found] using hother
    simp [adopted]

theorem attached_of_attach (h : s.attach parent name member = .ok t) :
    Attached s t parent member := by
  obtain ⟨node, kind, found, adopted, size, roots, nodes⟩ := attach_eq_ok h
  obtain ⟨sameLabel, forKind, gains⟩ := Kind.gains_of_adopt adopted
  have inside := node?_lt found
  constructor
  case parent_lt => exact inside
  case size => exact size
  case roots => exact roots
  case parent? => intro id; simp only [parent?, nodes]; grind
  case kindLabel? => intro id; simp only [kindLabel?, kind?, nodes]; grind
  case childLists_new => simp [childLists, kind?, nodes]
  case childLists_old => intro id new other; simp [childLists, kind?, nodes, new, other]
  case gains =>
    refine ⟨_, forKind, ?_⟩
    simpa [childLists, kind?, nodes, found, Nat.ne_of_lt inside] using gains

/-- An accepted setting is one that the kind of its node has, and only this kind changes. -/
theorem set_eq_ok {setting : Setting} (h : s.set id setting = .ok t) :
    ∃ node kind, s.node? id = some node ∧ node.kind.configure setting = some kind ∧
      t = s.setKind id kind := by
  unfold set at h
  split at h
  · cases h
  · rename_i node found
    split at h
    · cases h
    · rename_i kind configured
      cases h
      exact ⟨node, kind, found, configured, rfl⟩

theorem set_of_configure {node : Node} {kind : Kind} {setting : Setting}
    (found : s.node? id = some node) (configured : node.kind.configure setting = some kind) :
    ∃ t, s.set id setting = .ok t := by
  simp [set, found, configured]

theorem configured_of_set {setting : Setting} (h : s.set id setting = .ok t) :
    Configured s t := by
  obtain ⟨node, kind, found, configured, rfl⟩ := set_eq_ok h
  obtain ⟨sameLabel, sameLists⟩ := Kind.childLists_of_configure configured
  constructor
  case size => exact size_setKind ..
  case roots => rfl
  case parent? => intro i; simp only [parent?, node?_setKind]; grind
  case kindLabel? => intro i; simp only [kindLabel?, kind?, node?_setKind]; grind
  case childLists => intro i; simp only [childLists, kind?, node?_setKind]; grind

/-! ## Runs of edits -/

/-- The schemas that accepted edits of some sort make from the empty one. -/
inductive GrownBy (allowed : Edit → Prop) : Schema → Prop
  | empty : GrownBy allowed .empty
  | edit {s t : Schema} {edit : Edit} (before : GrownBy allowed s) (sort : allowed edit)
    (accepted : s.apply edit = .ok t) : GrownBy allowed t

namespace GrownBy

variable {allowed : Edit → Prop}

theorem mono {other : Edit → Prop} (grown : GrownBy allowed s)
    (weaker : ∀ edit, allowed edit → other edit) : GrownBy other s := by
  induction grown with
  | empty => exact .empty
  | edit before sort accepted ih => exact ih.edit (weaker _ sort) accepted

/-- Refused edits do not count. -/
theorem run {edits : List Edit} (grown : GrownBy allowed s) (sort : ∀ edit ∈ edits, allowed edit) :
    GrownBy allowed (s.run edits) := by
  induction edits generalizing s with
  | nil => exact grown
  | cons edit edits ih =>
    rw [List.forall_mem_cons] at sort
    have next : GrownBy allowed ((s.apply edit).toOption.getD s) := by
      cases applied : s.apply edit with
      | error e => exact grown
      | ok t => exact grown.edit sort.1 applied
    exact ih next sort.2

/-- What an edit of each sort keeps, every run of edits keeps. -/
theorem invariant {P : Schema → Prop} (grown : GrownBy allowed s) (empty : P .empty)
    (declared : ∀ {s t : Schema} {label : String}, P s → Declared s t label → P t)
    (attached : ∀ {s t : Schema} {parent : NodeId} {name : String} {member : Member}, P s →
      allowed (.attach parent name member) → Attached s t parent member → P t)
    (configured : ∀ {s t : Schema}, P s → Configured s t → P t) : P s := by
  induction grown with
  | empty => exact empty
  | @edit s t edit before sort accepted ih =>
    cases edit with
    | declare qualifier name top =>
      cases accepted
      exact declared ih (declared_declare s qualifier name top)
    | attach parent name member => exact attached ih sort (attached_of_attach accepted)
    | set id setting => exact configured ih (configured_of_set accepted)

end GrownBy

end Schema

/-- Whether an edit adds no node with children. -/
def Edit.isPlain : Edit → Bool
  | attach _ _ member => member.isPlain
  | _ => true

namespace Schema

/-- The schemas that edits make when no node brings children along. -/
abbrev GrownPlain : Schema → Prop := GrownBy (·.isPlain)

namespace GrownPlain

variable {s t : Schema} {parent id : NodeId} {name qualifier : String}

theorem declare (grown : GrownPlain s) (top : TopLevel) :
    GrownPlain (s.declare qualifier name top) :=
  @GrownBy.edit _ _ _ (.declare qualifier name top) grown rfl rfl

theorem attach {member : Member} (grown : GrownPlain s) (plain : member.isPlain)
    (h : s.attach parent name member = .ok t) : GrownPlain t :=
  @GrownBy.edit _ _ _ (.attach parent name member) grown plain h

theorem set {setting : Setting} (grown : GrownPlain s) (h : s.set id setting = .ok t) :
    GrownPlain t :=
  @GrownBy.edit _ _ _ (.set id setting) grown rfl h

end GrownPlain

end Schema

end PropertyTables
