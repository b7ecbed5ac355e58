import Mathlib.Data.Fintype.Pigeonhole
import Mathlib.Data.List.Nodup
import Mathlib.Logic.Relation
import Mathlib.Order.WellFounded
import PropertyTables.Path.Enumeration
import PropertyTables.Proofs.Outcome

/-!
# The graph of fields

Which fields are properties below another field: the members of a plain struct, and the value of a
map. Paths lead along this graph, so they are finite in number when it has no cycle.

## Main definitions

* `Schema.children`, `Schema.mapValue?`: what is below a field.
* `Schema.Leads`: the paths that start at given fields and go down the graph.
* `Schema.Acyclic`: no field is below itself.
-/

namespace PropertyTables

/-! ## What is below a field -/

namespace Schema

/-- The members that are properties of their own. Only a struct that is neither a map nor an array
nor a well-known type has any. -/
def children (s : Schema) (id : NodeId) : List NodeId :=
  match s.field? id with
  | none => []
  | some f =>
    if f.isMap = false ∧ f.isStruct = true ∧ f.isStandard = false ∧ f.isArray = false then f.members
    else []

/-- The value of a map. A field that is no map has none, whatever value is recorded for it. -/
def mapValue? (s : Schema) (id : NodeId) : Option NodeId :=
  match s.field? id with
  | none => none
  | some f => if f.isMap = true then f.value else none

theorem direct_eq_children {s : Schema} {id : NodeId} {f : Field} (found : s.field? id = some f) :
    f.direct = s.children id := by
  simp only [Field.direct, children, found]
  grind

theorem deferred_eq_mapValue {s : Schema} {id : NodeId} {f : Field}
    (found : s.field? id = some f) : f.deferred = (s.mapValue? id).toList := by
  simp only [Field.deferred, mapValue?, found]
  split <;> rfl

/-- `child` is a property directly below `parent`. -/
def Follows (s : Schema) (child parent : NodeId) : Prop :=
  child ∈ s.children parent ∨ s.mapValue? parent = some child

/-- Only a map has its value below it, and only a plain struct its members. -/
theorem follows_iff {s : Schema} {child parent : NodeId} {f : Field}
    (found : s.field? parent = some f) : s.Follows child parent ↔
      f.isMap = true ∧ f.value = some child ∨
      (f.isMap = false ∧ f.isStruct = true ∧ f.isStandard = false ∧ f.isArray = false) ∧
        child ∈ f.members := by
  simp only [Follows, children, mapValue?, found]
  grind

theorem Follows.exists_field {s : Schema} {child parent : NodeId} (h : s.Follows child parent) :
    ∃ f, s.field? parent = some f := by
  cases found : s.field? parent with
  | none => simp [Follows, children, mapValue?, found] at h
  | some f => exact ⟨f, rfl⟩

theorem mem_successors {s : Schema} {child parent : NodeId} :
    child ∈ s.successors parent ↔ s.Follows child parent := by
  cases found : s.field? parent with
  | none => simp [successors, Follows, children, mapValue?, found]
  | some f =>
    simp [successors, Field.successors, found, Follows, direct_eq_children found,
      deferred_eq_mapValue found]

theorem kind?_of_field? {s : Schema} {id : NodeId} {f : Field} (h : s.field? id = some f) :
    s.kind? id = some (.field f) := by
  obtain ⟨kind, hkind, hfield⟩ := Option.bind_eq_some_iff.1 h
  cases kind with
  | field g =>
    cases hfield
    exact hkind
  | _ => simp [Kind.field?] at hfield

theorem field?_lt {s : Schema} {id : NodeId} {f : Field} (h : s.field? id = some f) :
    id < s.size := by
  obtain ⟨node, hnode, -⟩ := Option.map_eq_some_iff.1 (kind?_of_field? h)
  exact node?_lt hnode

end Schema

/-! ## Paths -/

namespace Path

@[simp] theorem fields_single (id : NodeId) : (single id).fields = [id] := rfl

@[simp] theorem fields_child (p : Path) (id : NodeId) : (p.child id).fields = p.fields ++ [id] :=
  rfl

@[simp] theorem enclosing_single (id : NodeId) : (single id).enclosing = [] := rfl

@[simp] theorem enclosing_child (p : Path) (id : NodeId) : (p.child id).enclosing = p.fields := rfl

@[simp] theorem last_single (id : NodeId) : (single id).last = id := rfl

theorem fields_injective : Function.Injective fields := by
  rintro ⟨xs, x⟩ ⟨ys, y⟩ h
  obtain ⟨rfl, h⟩ := List.append_inj' h rfl
  simpa using h

@[simp] theorem fields_ne_nil (p : Path) : p.fields ≠ [] := by simp [fields]

theorem length_pos (p : Path) : 0 < p.length := by simp [length, fields]

end Path

namespace Schema

/-- A path that starts at one of the fields `top` and goes down the graph. -/
inductive Leads (s : Schema) (top : List NodeId) : Path → Prop
  | start {id : NodeId} (listed : id ∈ top) : Leads s top (.single id)
  | step {p : Path} {id : NodeId} (above : Leads s top p) (below : s.Follows id p.last) :
    Leads s top (p.child id)

/-- No field is below itself. Lists that are not followed, like those of arrays, may hold
anything. -/
def Acyclic (s : Schema) : Prop := ∀ id, ¬ Relation.TransGen s.Follows id id

/-- In a schema without cycles going down comes to an end: fields with something below them are
nodes, and an endless descent would meet one of these twice. -/
theorem Acyclic.wellFounded {s : Schema} (acyclic : s.Acyclic) : WellFounded s.Follows := by
  rw [wellFounded_iff_isEmpty_descending_chain]
  refine ⟨fun ⟨descent, down⟩ => ?_⟩
  have inside : ∀ n, descent n < s.size := fun n => by
    obtain ⟨f, found⟩ := (down n).exists_field
    exact field?_lt found
  have below : ∀ n k, Relation.TransGen s.Follows (descent (n + k + 1)) (descent n) := by
    intro n k
    induction k with
    | zero => exact .single (down n)
    | succ k ih => exact .head (down (n + k + 1)) ih
  obtain ⟨i, j, hne, heq⟩ :=
    Finite.exists_ne_map_eq_of_infinite fun n => (⟨descent n, inside n⟩ : Fin s.size)
  have same : descent i = descent j := congrArg Fin.val heq
  rcases Nat.lt_or_gt_of_ne hne with h | h
  · have := below i (j - i - 1)
    rw [show i + (j - i - 1) + 1 = j by omega, ← same] at this
    exact acyclic _ this
  · have := below j (i - j - 1)
    rw [show j + (i - j - 1) + 1 = i by omega, same] at this
    exact acyclic _ this

theorem Acyclic.of_lt {s : Schema}
    (down : ∀ child parent, s.Follows child parent → parent < child) : s.Acyclic := by
  intro id cycle
  have : ∀ a b, Relation.TransGen s.Follows a b → b < a := by
    intro a b h
    induction h with
    | single h => exact down _ _ h
    | tail _ h ih => exact (down _ _ h).trans ih
  exact (this id id cycle).false

/-- Everything that a path from `top` can meet is a field. -/
def ListsFields (s : Schema) (top : List NodeId) : Prop :=
  ∀ p, s.Leads top p → ∃ f, s.field? p.last = some f

theorem ListsFields.of_forall {s : Schema} {top : List NodeId}
    (listed : ∀ id ∈ top, ∃ f, s.field? id = some f)
    (below : ∀ child parent, s.Follows child parent → ∃ f, s.field? child = some f) :
    s.ListsFields top := by
  intro p leads
  cases leads with
  | start h => exact listed _ h
  | step _ h => exact below _ _ h

theorem size_le_pathBound (s : Schema) : s.size ≤ s.pathBound := by
  have : s.size ≤ s.size * s.size := Nat.le_mul_self _
  unfold pathBound
  rw [Nat.add_mul, Nat.mul_add]
  omega

namespace Leads

variable {s : Schema} {top : List NodeId} {p : Path}

theorem exists_single (h : s.Leads top p) (outermost : p.enclosing = []) :
    ∃ id ∈ top, p = .single id := by
  cases h with
  | start listed => exact ⟨_, listed, rfl⟩
  | step => simp at outermost

theorem last_below (h : s.Leads top p) :
    ∀ id ∈ p.enclosing, Relation.TransGen s.Follows p.last id := by
  induction h with
  | start => simp
  | step above below ih =>
    intro id hid
    rcases List.mem_append.1 hid with hid | hid
    · exact .head below (ih id hid)
    · rw [List.mem_singleton] at hid
      exact hid ▸ .single below

theorem nodup_fields (acyclic : s.Acyclic) (h : s.Leads top p) : p.fields.Nodup := by
  induction h with
  | start => simp
  | @step p id above below ih =>
    have fresh : id ∉ p.fields := fun hid => acyclic id ((above.step below).last_below id hid)
    rw [Path.fields_child]
    exact ih.append (List.nodup_singleton id) (by simpa using fresh)

theorem forall_field (fields : s.ListsFields top) (h : s.Leads top p) :
    ∀ id ∈ p.fields, ∃ f, s.field? id = some f := by
  induction h with
  | start listed => simpa using fields _ (.start listed)
  | step above below ih =>
    intro id hid
    rcases List.mem_append.1 hid with hid | hid
    · exact ih id hid
    · rw [List.mem_singleton] at hid
      exact hid ▸ fields _ (above.step below)

theorem length_le_size_of_nodup (nodup : p.fields.Nodup) (fields : s.ListsFields top)
    (h : s.Leads top p) : p.length ≤ s.size := by
  have inside : p.fields ⊆ List.range s.size := fun id hid => by
    obtain ⟨f, found⟩ := h.forall_field fields id hid
    exact List.mem_range.2 (field?_lt found)
  have := (nodup.subperm inside).length_le
  rwa [List.length_range] at this

theorem length_le_size (acyclic : s.Acyclic) (fields : s.ListsFields top) (h : s.Leads top p) :
    p.length ≤ s.size :=
  h.length_le_size_of_nodup (h.nodup_fields acyclic) fields

theorem length_le_pathBound (acyclic : s.Acyclic) (fields : s.ListsFields top)
    (h : s.Leads top p) : p.length ≤ s.pathBound :=
  (h.length_le_size acyclic fields).trans s.size_le_pathBound

end Leads

/-! ## One step of the work list -/

/-- The map value at the end of a path, as a path of its own. -/
def values (s : Schema) (path : Path) : List Path := (s.mapValue? path.last).toList.map path.child

/-- A path is taken when it ends at a field and is short enough. Its members go to the front of
the work list and its map value goes to the back. -/
theorem explore_cons_eq_ok {s : Schema} {unit : NodeId} {path : Path} {waiting ps : List Path} :
    s.explore unit (path :: waiting) = .ok ps ↔
      ∃ f rest, s.field? path.last = some f ∧ path.length ≤ s.pathBound ∧
        s.explore unit ((s.children path.last).map path.child ++ waiting ++ s.values path) =
          .ok rest ∧ path :: rest = ps := by
  rw [explore]
  cases found : s.field? path.last with
  | none => split <;> simp_all
  | some f =>
    obtain ⟨node, hnode, -⟩ := Option.map_eq_some_iff.1 (kind?_of_field? found)
    rw [← direct_eq_children found, values, ← deferred_eq_mapValue found, hnode]
    by_cases short : path.length ≤ s.pathBound <;> simp [short]

end Schema

end PropertyTables
