import Mathlib.Data.List.Find
import PropertyTables.Proofs.OwnedFields

/-!
# What a unit reads of a schema

A unit reads the nodes at and below it and at and below every trait that it reaches through bases.
Edits that are about none of these nodes keep them as they are. Of all other nodes that were there
they keep the name, number, place and qualifier.

## Main definitions

* `Schema.Extends`, `Schema.footprint`: the traits that a unit reaches, and the nodes that it reads.
* `Schema.Region`: a set of nodes that is closed under what nodes refer to.
* `Schema.Keeps`: what edits leave of a schema.
* `Edit.target?`: the node that an edit is about.
-/

namespace PropertyTables

/-- The node that an edit is about: the parent of a new node, or the node that is set. -/
def Edit.target? : Edit → Option NodeId
  | declare .. => none
  | attach parent _ _ => some parent
  | set id _ => some id

namespace Kind

variable {kind kind' : Kind}

theorem qualifier_of_adopt {id : NodeId} {member : Member}
    (h : kind.adopt id member = some kind') : kind'.qualifier = kind.qualifier := by
  unfold adopt at h
  split at h
  case h_12 =>
    split at h
    · cases h
      rfl
    · cases h
  all_goals cases h
  all_goals rfl

theorem qualifier_of_configure {setting : Setting} (h : kind.configure setting = some kind') :
    kind'.qualifier = kind.qualifier := by
  unfold configure at h
  split at h <;> cases h <;> rfl

end Kind

namespace Schema

variable {s t u : Schema} {P : NodeId → Prop} {id unit parent child base : NodeId}

/-! ## Regions -/

/-- `base` is the unit or one that it reaches through bases. -/
def Extends (s : Schema) : NodeId → NodeId → Prop :=
  Relation.ReflTransGen fun derived base => s.base? derived = some base

/-- The nodes at or below a unit, or at or below one that it reaches through bases. -/
def footprint (s : Schema) (unit id : NodeId) : Prop :=
  ∃ base, s.Extends unit base ∧ s.isWithin id base

/-- A set of nodes with all that they list and the bases that they have. -/
structure Region (s : Schema) (P : NodeId → Prop) : Prop where
  lt_size {id : NodeId} : P id → id < s.size
  child {id child : NodeId} : P id → child ∈ s.childIds id → P child
  base {id base : NodeId} : P id → s.base? id = some base → P base

theorem le_of_mem_lineage (h : parent ∈ s.lineage id) : parent ≤ id := by
  fun_induction Schema.lineage s id with
  | case1 id above below ih =>
    rcases List.mem_cons.1 h with rfl | h
    · exact Nat.le_refl _
    · exact (ih h).trans (parent?_lt below).le
  | case2 id => exact (List.mem_singleton.1 h).le

theorem eq_of_isWithin (within : s.isWithin id unit) (top : s.parent? id = none) : id = unit := by
  simpa [isWithin, lineage_of_root top, eq_comm] using within

/-- A footprint is a region when all bases are there. Only roots have bases, so those that are met
in it are met along the chain. -/
theorem region_footprint (grown : s.GrownPlain)
    (present : ∀ base, s.Extends unit base → base < s.size) : s.Region (s.footprint unit) where
  lt_size {id} := by
    rintro ⟨base, reached, within⟩
    cases h : s.parent? id with
    | none => exact eq_of_isWithin within h ▸ present base reached
    | some parent => exact lt_size_of_parent? h
  child {id child} := by
    rintro ⟨base, reached, within⟩ listed
    exact ⟨base, reached, isWithin_of_parent? (grown.tidy.owned listed) within⟩
  base {id next} := by
    rintro ⟨base, reached, within⟩ extended
    obtain ⟨derived, found, -⟩ := Option.bind_eq_some_iff.1 extended
    have isTrait : s.kindLabel? id = some "trait" := by
      simp [kindLabel?, kind?_of_trait? found, Kind.label]
    obtain rfl := eq_of_isWithin within (grown.orderly.top_of_unit (.inl isTrait))
    exact ⟨next, reached.tail extended, isWithin_self s next⟩

theorem Region.of_listed (region : s.Region P) (inside : P id) {kind : Kind}
    (found : s.kind? id = some kind) (label : String) {ids : List NodeId}
    (listed : ⟨label, ids⟩ ∈ kind.childLists) : ∀ child ∈ ids, P child := by
  intro child h
  rw [← childLists_of_kind? found] at listed
  exact region.child inside (mem_childIds.2 ⟨_, listed, h⟩)

/-! ## What edits keep -/

/-- `t` has the nodes of `s`, those of `P` as they were and the others with another kind at most,
which has the same qualifier. -/
structure Keeps (P : NodeId → Prop) (s t : Schema) : Prop where
  size_le : s.size ≤ t.size
  node? {id : NodeId} : P id → t.node? id = s.node? id
  exists_kind {id : NodeId} {node : Node} : s.node? id = some node →
    ∃ kind, t.node? id = some { node with kind } ∧ kind.qualifier = node.kind.qualifier

namespace Keeps

theorem refl (P : NodeId → Prop) (s : Schema) : Keeps P s s :=
  ⟨Nat.le_refl _, fun _ => rfl, fun found => ⟨_, found, rfl⟩⟩

theorem trans (first : Keeps P s t) (second : Keeps P t u) : Keeps P s u where
  size_le := first.size_le.trans second.size_le
  node? h := (second.node? h).trans (first.node? h)
  exists_kind found := by
    obtain ⟨kind, found, same⟩ := first.exists_kind found
    obtain ⟨kind', found, same'⟩ := second.exists_kind found
    exact ⟨kind', found, same'.trans same⟩

theorem apply {edit : Edit} (inside : ∀ id, P id → id < s.size)
    (apart : ∀ id, edit.target? = some id → ¬ P id) (accepted : s.apply edit = .ok t) :
    Keeps P s t := by
  cases edit with
  | declare qualifier name top =>
    cases accepted
    have old (id : NodeId) (h : id < s.size) :
        (s.declare qualifier name top).node? id = s.node? id := by
      rw [declare, node?_push, if_neg h.ne]
    refine ⟨by simp [declare], fun h => old _ (inside _ h), fun {id node} found => ?_⟩
    exact ⟨node.kind, by rw [old id (node?_lt found), found], rfl⟩
  | attach parent name member =>
    obtain ⟨above, kind, found, adopted, size, -, nodes⟩ := attach_eq_ok accepted
    refine ⟨by omega, fun {id} h => ?_, fun {id node} found' => ?_⟩
    · have other : id ≠ parent := by
        rintro rfl
        exact apart id rfl h
      rw [nodes, if_neg (inside id h).ne, if_neg other]
    · rw [nodes, if_neg (node?_lt found').ne]
      by_cases same : id = parent
      · subst same
        obtain rfl : above = node := by simpa [found] using found'
        exact ⟨kind, if_pos rfl, Kind.qualifier_of_adopt adopted⟩
      · exact ⟨node.kind, by rw [if_neg same, found'], rfl⟩
  | set target setting =>
    obtain ⟨above, kind, found, configured, rfl⟩ := set_eq_ok accepted
    refine ⟨by simp, fun {id} h => ?_, fun {id node} found' => ?_⟩
    · have other : target ≠ id := by
        rintro rfl
        exact apart target rfl h
      rw [node?_setKind, if_neg other]
    · rw [node?_setKind]
      by_cases same : target = id
      · subst same
        obtain rfl : above = node := by simpa [found] using found'
        exact ⟨kind, by rw [if_pos rfl, found]; rfl, Kind.qualifier_of_configure configured⟩
      · exact ⟨node.kind, by rw [if_neg same, found'], rfl⟩

theorem run {edits : List Edit} (inside : ∀ id, P id → id < s.size)
    (apart : ∀ edit ∈ edits, ∀ id, edit.target? = some id → ¬ P id) : Keeps P s (s.run edits) := by
  induction edits generalizing s with
  | nil => exact refl P s
  | cons edit edits ih =>
    rw [List.forall_mem_cons] at apart
    have first : Keeps P s ((s.apply edit).toOption.getD s) := by
      cases applied : s.apply edit with
      | error e => exact refl P s
      | ok t => exact apply inside apart.1 applied
    exact first.trans (ih (fun id h => (inside id h).trans_le first.size_le) apart.2)

/-! ## Names -/

variable (keeps : Keeps P s t)

include keeps

theorem exists_node (old : id < s.size) :
    ∃ node kind, s.node? id = some node ∧ t.node? id = some { node with kind } ∧
      kind.qualifier = node.kind.qualifier := by
  have found : s.node? id = some s.nodes[id] := Array.getElem?_eq_getElem old
  obtain ⟨kind, kept, same⟩ := keeps.exists_kind found
  exact ⟨_, kind, found, kept, same⟩

theorem name (old : id < s.size) : t.name id = s.name id := by
  obtain ⟨node, kind, found, kept, -⟩ := keeps.exists_node old
  simp [Schema.name, found, kept]

theorem number (old : id < s.size) : t.number id = s.number id := by
  obtain ⟨node, kind, found, kept, -⟩ := keeps.exists_node old
  simp [Schema.number, found, kept]

theorem parent? (old : id < s.size) : t.parent? id = s.parent? id := by
  obtain ⟨node, kind, found, kept, -⟩ := keeps.exists_node old
  simp [Schema.parent?, found, kept]

theorem ownQualifier (old : id < s.size) : t.ownQualifier id = s.ownQualifier id := by
  obtain ⟨node, kind, found, kept, same⟩ := keeps.exists_node old
  simp [Schema.ownQualifier, kind?, found, kept, same]

theorem lineage (old : id < s.size) : t.lineage id = s.lineage id := by
  fun_induction Schema.lineage s id with
  | case1 id parent above ih =>
    rw [lineage_of_parent ((keeps.parent? old).trans above), ih ((parent?_lt above).trans old)]
  | case2 id top => rw [lineage_of_root ((keeps.parent? old).trans top)]

theorem isWithin (old : id < s.size) : t.isWithin id unit = s.isWithin id unit := by
  rw [Schema.isWithin, Schema.isWithin, keeps.lineage old]

theorem fullName (old : id < s.size) : t.fullName id = s.fullName id := by
  have parts : ∀ above ∈ (s.lineage id).reverse, t.namePart above = s.namePart above := by
    intro above h
    have old : above < s.size := (le_of_mem_lineage (List.mem_reverse.1 h)).trans_lt old
    rw [namePart, namePart, keeps.parent? old, keeps.ownQualifier old, keeps.name old]
  rw [Schema.fullName, Schema.fullName, keeps.lineage old, List.map_congr_left parts]

theorem dotted {ids : List NodeId} (old : ∀ id ∈ ids, id < s.size) :
    t.dotted ids = s.dotted ids := by
  rw [Schema.dotted, Schema.dotted, List.map_congr_left fun id h => keeps.name (old id h)]

theorem symbol {ids : List NodeId} (old : ∀ id ∈ ids, id < s.size) :
    t.symbol ids = s.symbol ids := by
  have words := List.map_congr_left fun id h => congrArg Text.camelize (keeps.name (old id h))
  rw [Schema.symbol, Schema.symbol, words]

/-! ## Nodes of the region -/

theorem node (inside : P id) : t.node id = s.node id := by
  rw [Schema.node, Schema.node, keeps.node? inside]

theorem kind? (inside : P id) : t.kind? id = s.kind? id := by
  rw [Schema.kind?, Schema.kind?, keeps.node? inside]

theorem trait? (inside : P id) : t.trait? id = s.trait? id := by
  rw [Schema.trait?, Schema.trait?, keeps.kind? inside]

theorem field? (inside : P id) : t.field? id = s.field? id := by
  rw [Schema.field?, Schema.field?, keeps.kind? inside]

theorem base? (inside : P id) : t.base? id = s.base? id := by
  rw [Schema.base?, Schema.base?, keeps.trait? inside]

theorem childLists (inside : P id) : t.childLists id = s.childLists id := by
  rw [Schema.childLists, Schema.childLists, keeps.kind? inside]

end Keeps

end Schema

end PropertyTables
