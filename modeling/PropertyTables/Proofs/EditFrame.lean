import PropertyTables.Proofs.Growth
import PropertyTables.Proofs.Siblings

/-!
# What an edit leaves as it is

A schema is edited in place: a new node is added at the end before its parent is asked for a place,
and is taken away again if there is none. So a refused edit has to put back what it has changed. It
leaves the schema as it was. An accepted edit changes what it says and nothing else: the parent has
the new node at the end of one list, or one setting of one node has another value.

## Main definitions

* `Schema.applyInPlace`: an edit in place, with the schema that it leaves in either case.
* `Kind.childless`: what a node says besides its children.
* `Kind.settings`, `Kind.unset`: what settings can change of a node, and what else it says.
* `Schema.Effect`: all that an accepted edit changes.
-/

namespace PropertyTables

/-! ## Nodes and their lists -/

/-- Where labels are distinct, one list gains the new member at its end and the others stay. -/
theorem Gains.under {label : String} {id : NodeId} {lists lists' : List ChildList}
    (gains : Gains label id lists lists') (distinct : (lists'.map ChildList.label).Nodup)
    (other : String) :
    ChildList.under other lists' =
      if other = label then ChildList.under other lists ++ [id]
      else ChildList.under other lists := by
  induction gains with
  | here => grind [ChildList.under]
  | start => grind [ChildList.under]
  | @there list lists lists' later ih =>
    obtain ⟨ids, listed⟩ := later.exists_mem
    rw [List.map_cons, List.nodup_cons] at distinct
    have fresh : list.label ≠ label := fun same =>
      distinct.1 (List.mem_map.2 ⟨_, listed, same.symm⟩)
    have ih := ih distinct.2
    unfold ChildList.under at ih ⊢
    by_cases same : list.label = other
    · grind
    · rwa [List.find?_cons_of_neg (by simpa using same),
        List.find?_cons_of_neg (by simpa using same)]

namespace Kind

variable {kind kind' : Kind} {id : NodeId} {member : Member} {setting : Setting}

/-- What a node says besides its children. -/
def childless : Kind → Kind
  | typespace t => typespace { t with enums := [], structs := [], groups := [] }
  | trait t => trait { t with
      state := [], enums := [], commands := [], groups := [], structs := [], events := [] }
  | struct s => struct { s with fields := [] }
  | command _ => command {}
  | field f => field { f with members := [], value := none }
  | group _ => group {}
  | kind => kind

/-- A field with members is a struct, and one with a value is a map. -/
def marked : Kind → Member → Kind
  | field f, .field .. => field { f with dataType := .struct }
  | field f, .mapValue _ => field { f with isMap := true }
  | kind, _ => kind

theorem nodup_labels (kind : Kind) : (kind.childLists.map ChildList.label).Nodup := by
  cases kind with
  | command c => cases h : c.response <;> simp [childLists, h]
  | field f => cases h : f.value <;> simp [childLists, h]
  | _ => simp [childLists]

theorem childless_of_adopt (h : kind.adopt id member = some kind') :
    kind'.childless = kind.childless.marked member := by
  unfold adopt at h
  split at h
  case h_12 => split at h <;> cases h; rfl
  all_goals cases h <;> rfl

theorem head?_response (c : Command) : ((command c).listed "response").head? = c.response := by
  cases h : c.response <;> simp [listed, childLists, ChildList.under, h]

theorem head?_mapValue (f : Field) : ((field f).listed "map_value").head? = f.value := by
  cases h : f.value <;> simp [listed, childLists, ChildList.under, h]

/-- A node is what it says besides its children, and its children. -/
theorem eq_of_childless_eq (rest : kind.childless = kind'.childless)
    (lists : ∀ label, kind.listed label = kind'.listed label) : kind = kind' := by
  cases kind <;> cases kind' <;> simp [childless] at rest
  case typespace t t' =>
    have enums := lists "enum_list"
    have structs := lists "struct_list"
    have groups := lists "constant_group_list"
    simp [listed, childLists, ChildList.under] at enums structs groups
    cases t; cases t'; simp_all
  case trait t t' =>
    have state := lists "state_list"
    have enums := lists "enum_list"
    have commands := lists "command_list"
    have groups := lists "constant_group_list"
    have structs := lists "struct_list"
    have events := lists "event_list"
    simp [listed, childLists, ChildList.under] at state enums commands groups structs events
    cases t; cases t'; simp_all
  case struct t t' =>
    have fields := lists "field_list"
    simp [listed, childLists, ChildList.under] at fields
    cases t; cases t'; simp_all
  case command c c' =>
    have response := congrArg List.head? (lists "response")
    have parameters := lists "parameter_list"
    rw [head?_response, head?_response] at response
    simp [listed, childLists, ChildList.under] at parameters
    cases c; cases c'; simp_all
  case field f f' =>
    have value := congrArg List.head? (lists "map_value")
    have members := lists "field_list"
    rw [head?_mapValue, head?_mapValue] at value
    simp [listed, childLists, ChildList.under] at members
    cases f; cases f'; simp_all
  case group g g' =>
    have constants := lists "constant_list"
    simp [listed, childLists, ChildList.under] at constants
    cases g; cases g'; simp_all
  all_goals rw [rest]

end Kind

/-! ## Nodes and their settings -/

/-- The settings of a node, as far as it has them. -/
structure Settings where
  version : Option UInt32 := none
  vendor : Option UInt16 := none
  base : Option (Option NodeId) := none
  standard : Option Bool := none
  bitmask : Option Bool := none

/-- Gives one setting another value. -/
def Settings.put (settings : Settings) : Setting → Settings
  | .version version => { settings with version := some version }
  | .vendor vendor => { settings with vendor := some vendor }
  | .base id => { settings with base := some (some id) }
  | .standard isStandard => { settings with standard := some isStandard }
  | .bitmask isBitmask => { settings with bitmask := some isBitmask }

namespace Kind

variable {kind kind' : Kind} {setting : Setting}

def settings : Kind → Settings
  | typespace t => { version := some t.version }
  | trait t => { version := some t.version, vendor := some t.vendor, base := some t.base }
  | struct s => { standard := some s.isStandard }
  | field f => { standard := some f.isStandard }
  | enum e => { bitmask := some e.isBitmask }
  | _ => {}

/-- What a node says besides its settings. -/
def unset : Kind → Kind
  | typespace t => typespace { t with version := 1 }
  | trait t => trait { t with version := 1, vendor := 0, base := none }
  | struct s => struct { s with isStandard := false }
  | field f => field { f with isStandard := false }
  | enum e => enum { e with isBitmask := false }
  | kind => kind

theorem settings_of_configure (h : kind.configure setting = some kind') :
    kind'.unset = kind.unset ∧ kind'.settings = kind.settings.put setting := by
  unfold configure at h
  split at h <;> cases h <;> exact ⟨rfl, rfl⟩

/-- A node is what it says besides its settings, and its settings. -/
theorem eq_of_unset_eq (rest : kind.unset = kind'.unset)
    (settings : kind.settings = kind'.settings) : kind = kind' := by
  cases kind <;> cases kind' <;> simp [unset, Kind.settings] at rest settings
  case typespace t t' => cases t; cases t'; simp_all
  case trait t t' => cases t; cases t'; simp_all
  case struct t t' => cases t; cases t'; simp_all
  case enum e e' => cases e; cases e'; simp_all
  case field f f' => rcases f with ⟨⟨⟩⟩; rcases f' with ⟨⟨⟩⟩; simp_all
  all_goals rw [rest]

end Kind

/-! ## Edits in place -/

namespace Schema

variable {s t : Schema} {parent : NodeId} {name : String} {member : Member} {edit : Edit}
  {made : Option NodeId}

/-- Takes the last node away. -/
def pop (s : Schema) : Schema where
  nodes := s.nodes.pop
  roots := s.roots
  parent_lt := by
    intro id node parent found below
    rw [Array.getElem?_pop] at found
    split at found
    · exact s.parent_lt found below
    · cases found

/-- Adds a member before its parent is asked for a place, and takes it away if there is none. As in
`attach`, a parent that is not there before the member is outside the model. So the parent that is
asked is never the member itself. -/
def attachInPlace (s : Schema) (parent : NodeId) (name : String) (member : Member) :
    Except Error NodeId × Schema :=
  if h : parent < s.size then
    let pushed := s.push ⟨name, member.number, some parent, member.kind⟩ fun _ below => by
      cases below
      exact h
    match pushed.node? parent with
    | none => (.error (.absent parent), pushed)
    | some node =>
      match node.kind.adopt s.size member with
      | some kind => (.ok s.size, pushed.setKind parent kind)
      | none =>
        let popped := pushed.pop
        (.error (.integrity (popped.fullName parent) (popped.name parent)
          (.misplaced node.kind.label member.kind.label)), popped)
  else (.error (.absent parent), s)

def setInPlace (s : Schema) (id : NodeId) (setting : Setting) : Except Error Unit × Schema :=
  match s.node? id with
  | none => (.error (.absent id), s)
  | some node =>
    match node.kind.configure setting with
    | some kind => (.ok (), s.setKind id kind)
    | none =>
      (.error (.integrity (s.fullName id) (s.name id)
        (.unsupported node.kind.label setting.label)), s)

/-- Performs an edit in place. The result is the new node, if there is one, and the schema as it is
left, whether the edit was accepted or not. -/
def applyInPlace (s : Schema) : Edit → Except Error (Option NodeId) × Schema
  | .declare qualifier name top => (.ok (some s.size), s.declare qualifier name top)
  | .attach parent name member =>
    let (result, left) := s.attachInPlace parent name member
    (result.map some, left)
  | .set id setting =>
    let (result, left) := s.setInPlace id setting
    (result.map fun _ => none, left)

theorem eq_of_nodes_eq (nodes : s.nodes = t.nodes) (roots : s.roots = t.roots) : s = t := by
  cases s
  cases t
  simp_all

theorem eq_of_node?_eq (nodes : ∀ id, s.node? id = t.node? id) (roots : s.roots = t.roots) :
    s = t :=
  eq_of_nodes_eq (Array.ext_getElem? nodes) roots

theorem pop_push {node : Node} (below : ∀ parent, node.parent = some parent → parent < s.size)
    (notRoot : node.parent ≠ none) : (s.push node below).pop = s :=
  eq_of_nodes_eq Array.pop_push (if_neg notRoot)

theorem setKind_push {node : Node} {kind : Kind}
    (below : ∀ parent, node.parent = some parent → parent < s.size) (inside : parent < s.size) :
    (s.push node below).setKind parent kind =
      (s.setKind parent kind).push node (by simpa using below) := by
  refine eq_of_node?_eq (fun id => ?_) (by simp [push])
  rw [node?_setKind, node?_push, node?_push, node?_setKind, size_setKind]
  grind

/-- In place or not, the outcome is the same, and a refused member leaves nothing behind. -/
theorem attachInPlace_eq (s : Schema) (parent : NodeId) (name : String) (member : Member) :
    s.attachInPlace parent name member =
      match s.attach parent name member with
      | .ok t => (.ok s.size, t)
      | .error error => (.error error, s) := by
  by_cases inside : parent < s.size
  · obtain ⟨node, found⟩ : ∃ node, s.node? parent = some node :=
      ⟨_, Array.getElem?_eq_getElem inside⟩
    have below : ∀ above, some parent = some above → above < s.size := by
      rintro _ ⟨⟩
      exact inside
    have asked : (s.push ⟨name, member.number, some parent, member.kind⟩ below).node? parent =
        some node := by
      rw [node?_push, if_neg (Nat.ne_of_lt inside), found]
    cases adopted : node.kind.adopt s.size member with
    | some kind =>
      have accepted : s.attach parent name member =
          .ok ((s.setKind parent kind).push ⟨name, member.number, some parent, member.kind⟩
            (by simpa using below)) := by
        unfold attach
        split <;> simp_all
      simp only [attachInPlace, inside, dif_pos, asked, adopted, accepted, setKind_push]
    | none =>
      have refused : s.attach parent name member = .error (.integrity (s.fullName parent) node.name
          (.misplaced node.kind.label member.kind.label)) := by
        unfold attach
        split <;> simp_all
      have popped : (s.push ⟨name, member.number, some parent, member.kind⟩ below).pop = s :=
        pop_push below (by simp)
      simp only [attachInPlace, inside, dif_pos, asked, adopted, refused, popped,
        name_of_node? found]
  · have missing : s.node? parent = none := Array.getElem?_eq_none (Nat.not_lt.1 inside)
    have refused : s.attach parent name member = .error (.absent parent) := by
      unfold attach
      split <;> simp_all
    simp only [attachInPlace, inside, dif_neg, not_false_eq_true, refused]

theorem setInPlace_eq (s : Schema) (id : NodeId) (setting : Setting) :
    s.setInPlace id setting =
      match s.set id setting with
      | .ok t => (.ok (), t)
      | .error error => (.error error, s) := by
  cases found : s.node? id with
  | none => simp only [setInPlace, set, found]
  | some node =>
    cases configured : node.kind.configure setting <;>
      simp only [setInPlace, set, found, configured, name_of_node? found]

/-! ## All that an edit changes -/

/-- An accepted edit gives `t`. The nodes that are not named here are as before. -/
inductive Effect (s : Schema) : Edit → Option NodeId → Schema → Prop
  | declared {qualifier name : String} {top : TopLevel} {t : Schema}
    (size : t.size = s.size + 1) (roots : t.roots = s.roots ++ [s.size])
    (new : t.node? s.size = some ⟨name, top.number, none, top.kind qualifier⟩)
    (old : ∀ id < s.size, t.node? id = s.node? id) :
    Effect s (.declare qualifier name top) (some s.size) t
  /-- The parent keeps its name, number and place. One of its lists has the new node at the end. -/
  | attached {parent : NodeId} {name : String} {member : Member} {node : Node} {kind : Kind}
    {t : Schema} (size : t.size = s.size + 1) (roots : t.roots = s.roots)
    (new : t.node? s.size = some ⟨name, member.number, some parent, member.kind⟩)
    (old : ∀ id < s.size, id ≠ parent → t.node? id = s.node? id)
    (before : s.node? parent = some node) (after : t.node? parent = some { node with kind })
    (rest : kind.childless = node.kind.childless.marked member)
    (lists : ∀ label, kind.listed label =
      if label = member.list node.kind then node.kind.listed label ++ [s.size]
      else node.kind.listed label) :
    Effect s (.attach parent name member) (some s.size) t
  /-- The node keeps its name, number and place, and all but one setting. -/
  | configured {id : NodeId} {setting : Setting} {node : Node} {kind : Kind} {t : Schema}
    (size : t.size = s.size) (roots : t.roots = s.roots)
    (old : ∀ other ≠ id, t.node? other = s.node? other)
    (before : s.node? id = some node) (after : t.node? id = some { node with kind })
    (rest : kind.unset = node.kind.unset)
    (settings : kind.settings = node.kind.settings.put setting) :
    Effect s (.set id setting) none t

theorem node?_eq_none {id : NodeId} : s.node? id = none ↔ s.size ≤ id := Array.getElem?_eq_none_iff

/-- Schemas with one node more are the same if they agree on that node and those before it. -/
theorem eq_of_grown {t' : Schema} (size : t.size = s.size + 1) (size' : t'.size = s.size + 1)
    (roots : t.roots = t'.roots) (new : t.node? s.size = t'.node? s.size)
    (old : ∀ id < s.size, t.node? id = t'.node? id) : t = t' := by
  refine eq_of_node?_eq (fun id => ?_) roots
  rcases Nat.lt_trichotomy id s.size with small | rfl | large
  · exact old id small
  · exact new
  · rw [node?_eq_none.2 (by omega), node?_eq_none.2 (by omega)]

/-- The effect of an edit is described in full: no other schema has it. -/
theorem Effect.unique {t' : Schema} (effect : s.Effect edit made t)
    (effect' : s.Effect edit made t') : t = t' := by
  cases effect with
  | declared size roots new old =>
    obtain ⟨size', roots', new', old'⟩ := effect'
    exact eq_of_grown size size' (roots.trans roots'.symm) (new.trans new'.symm) fun id small =>
      (old id small).trans (old' id small).symm
  | @attached parent _ _ _ _ _ size roots new old before after rest lists =>
    obtain _ | ⟨size', roots', new', old', before', after', rest', lists'⟩ := effect'
    cases before.symm.trans before'
    have kinds := Kind.eq_of_childless_eq (rest.trans rest'.symm)
      fun label => (lists label).trans (lists' label).symm
    refine eq_of_grown size size' (roots.trans roots'.symm) (new.trans new'.symm) fun id small => ?_
    by_cases same : id = parent
    · rw [same, after, after', kinds]
    · rw [old id small same, old' id small same]
  | @configured id _ _ _ _ size roots old before after rest settings =>
    obtain _ | _ | ⟨size', roots', old', before', after', rest', settings'⟩ := effect'
    cases before.symm.trans before'
    have kinds := Kind.eq_of_unset_eq (rest.trans rest'.symm) (settings.trans settings'.symm)
    refine eq_of_node?_eq (fun other => ?_) (roots.trans roots'.symm)
    by_cases same : other = id
    · rw [same, after, after', kinds]
    · rw [old other same, old' other same]

theorem effect_declare (s : Schema) (qualifier name : String) (top : TopLevel) :
    s.Effect (.declare qualifier name top) (some s.size) (s.declare qualifier name top) := by
  have nodes (id : NodeId) : (s.declare qualifier name top).node? id =
      if id = s.size then some ⟨name, top.number, none, top.kind qualifier⟩ else s.node? id :=
    node?_push ..
  refine .declared (size_push ..) rfl (by rw [nodes, if_pos rfl]) fun id small => ?_
  rw [nodes, if_neg (Nat.ne_of_lt small)]

theorem effect_attach (h : s.attach parent name member = .ok t) :
    s.Effect (.attach parent name member) (some s.size) t := by
  obtain ⟨node, kind, found, adopted, size, roots, nodes⟩ := attach_eq_ok h
  obtain ⟨-, -, gains⟩ := Kind.gains_of_adopt adopted
  have inside := node?_lt found
  refine .attached size roots (by rw [nodes, if_pos rfl]) (fun id small other => ?_) found ?_
    (Kind.childless_of_adopt adopted) (gains.under kind.nodup_labels)
  · rw [nodes, if_neg (Nat.ne_of_lt small), if_neg other]
  · rw [nodes, if_neg (Nat.ne_of_lt inside), if_pos rfl]

theorem effect_set {id : NodeId} {setting : Setting} (h : s.set id setting = .ok t) :
    s.Effect (.set id setting) none t := by
  obtain ⟨node, kind, found, configured, rfl⟩ := set_eq_ok h
  obtain ⟨rest, settings⟩ := Kind.settings_of_configure configured
  refine .configured (size_setKind ..) rfl (fun other different => ?_) found ?_ rest settings
  · rw [node?_setKind, if_neg different.symm]
  · rw [node?_setKind, if_pos rfl, found]
    rfl

/-- An edit in place is refused and leaves the schema exactly as it was, or it is accepted and
changes what it says and nothing else. -/
theorem applyInPlace_exact (s : Schema) (edit : Edit) :
    (∃ error, s.apply edit = .error error ∧ s.applyInPlace edit = (.error error, s)) ∨
    ∃ made t, s.apply edit = .ok t ∧ s.applyInPlace edit = (.ok made, t) ∧ s.Effect edit made t ∧
      ∀ t', s.Effect edit made t' → t' = t := by
  have accepted {made : Option NodeId} {t : Schema} (applied : s.apply edit = .ok t)
      (performed : s.applyInPlace edit = (.ok made, t)) (effect : s.Effect edit made t) :
      ∃ made t, s.apply edit = .ok t ∧ s.applyInPlace edit = (.ok made, t) ∧
        s.Effect edit made t ∧ ∀ t', s.Effect edit made t' → t' = t :=
    ⟨made, t, applied, performed, effect, fun _ other => other.unique effect⟩
  cases edit with
  | declare qualifier name top =>
    exact .inr (accepted rfl rfl (effect_declare s qualifier name top))
  | attach parent name member =>
    have performed := attachInPlace_eq s parent name member
    cases applied : s.attach parent name member with
    | error error =>
      rw [applied] at performed
      exact .inl ⟨error, applied, by simp [applyInPlace, performed, Except.map]⟩
    | ok t =>
      rw [applied] at performed
      exact .inr (accepted applied (by simp [applyInPlace, performed, Except.map])
        (effect_attach applied))
  | set id setting =>
    have performed := setInPlace_eq s id setting
    cases applied : s.set id setting with
    | error error =>
      rw [applied] at performed
      exact .inl ⟨error, applied, by simp [applyInPlace, performed, Except.map]⟩
    | ok t =>
      rw [applied] at performed
      exact .inr (accepted applied (by simp [applyInPlace, performed, Except.map])
        (effect_set applied))

/-- A trait takes a field, which is the next node. -/
example :
    let s := Schema.empty.run [.declare "" "A" (.trait 1)]
    let (result, left) := s.applyInPlace (.attach 0 "power" (.field 1 {}))
    result.toOption = some (some 1) ∧ left.size = 2 ∧ left.childIds 0 = [1] := by
  decide +kernel

/-- An enum takes none, and the schema is left as it was. -/
example :
    let s := Schema.empty.run [.declare "" "E" (.enum 1 [])]
    let (result, left) := s.applyInPlace (.attach 0 "power" (.field 1 {}))
    result.toOption = none ∧ left.nodes = s.nodes ∧ left.roots = s.roots := by
  decide +kernel

end Schema

end PropertyTables
