import PropertyTables.Proofs.FieldGraph
import PropertyTables.Schema.Edit

/-!
# Paths in layers

The work list of `Schema.explore` takes members in front and map values at the back. What it
returns can be said without a work list: the paths of a unit come in layers. The first layer is
the pre-order of its top-level fields, and the next one goes on from the map values met in the
one before, until a layer is empty.

## Main definitions

* `Schema.preorder`: a path and everything below it, map values left out.
* `Schema.layer`: the paths through a given number of map values.
-/

namespace PropertyTables.Schema

/-! ## Layers -/

/-- A path, followed by what its last field has below it, member by member. -/
def preorder (s : Schema) (acyclic : s.Acyclic) (path : Path) : List Path :=
  path :: (s.children path.last).attach.flatMap
    fun (id : { id // id ∈ s.children path.last }) => s.preorder acyclic (path.child id.1)
termination_by acyclic.wellFounded.wrap path.last
decreasing_by exact .inl id.2

theorem preorder_eq (s : Schema) (acyclic : s.Acyclic) (path : Path) :
    s.preorder acyclic path =
      path :: (s.children path.last).flatMap fun id => s.preorder acyclic (path.child id) := by
  rw [preorder, List.flatMap_subtype (g := fun id => s.preorder acyclic (path.child id))
    fun _ _ => rfl, List.unattach_attach]

/-- The pre-order of the map value at the end of a path, if there is one. -/
def valuePreorder (s : Schema) (acyclic : s.Acyclic) (path : Path) : List Path :=
  match s.mapValue? path.last with
  | none => []
  | some value => s.preorder acyclic (path.child value)

/-- The paths that pass through `k` map values, below the fields `top`. -/
def layer (s : Schema) (acyclic : s.Acyclic) (top : List NodeId) : Nat → List Path
  | 0 => top.flatMap fun id => s.preorder acyclic (.single id)
  | k + 1 => (s.layer acyclic top k).flatMap (s.valuePreorder acyclic)

/-- The fields that the paths of a unit start from: the state of a trait, the fields of a struct,
and none for a typespace. -/
inductive StartsFrom (s : Schema) (unit : NodeId) : List NodeId → Prop
  | trait {t : Trait} (found : s.kind? unit = some (.trait t)) : StartsFrom s unit t.state
  | struct {t : Struct} (found : s.kind? unit = some (.struct t)) : StartsFrom s unit t.fields
  | typespace {t : Typespace} (found : s.kind? unit = some (.typespace t)) : StartsFrom s unit []

theorem StartsFrom.topFields_eq {s : Schema} {unit : NodeId} {top : List NodeId}
    (starts : s.StartsFrom unit top) : s.topFields unit = .ok top := by
  cases starts with
  | trait found | struct found | typespace found =>
    obtain ⟨node, hnode, hkind⟩ := Option.map_eq_some_iff.1 found
    simp [topFields, node_eq_ok.2 hnode, hkind]

theorem startsFrom_of_topFields {s : Schema} {unit : NodeId} {top : List NodeId}
    (h : s.topFields unit = .ok top) : s.StartsFrom unit top := by
  obtain ⟨node, hnode, h⟩ := bind_eq_ok.1 h
  have found : s.kind? unit = some node.kind := by simp [kind?, node_eq_ok.1 hnode]
  cases hkind : node.kind with
  | trait t =>
    obtain rfl : t.state = top := by simpa [hkind] using h
    exact .trait (hkind ▸ found)
  | struct t =>
    obtain rfl : t.fields = top := by simpa [hkind] using h
    exact .struct (hkind ▸ found)
  | typespace t =>
    obtain rfl : [] = top := by simpa [hkind] using h
    exact .typespace (hkind ▸ found)
  | _ => simp [hkind] at h

/-! ## The work list goes through the layers -/

theorem flatMap_preorder_values (s : Schema) (acyclic : s.Acyclic) (path : Path) :
    (s.values path).flatMap (s.preorder acyclic) = s.valuePreorder acyclic path := by
  unfold values valuePreorder
  cases s.mapValue? path.last <;> simp

section

variable {s : Schema} {unit : NodeId} {top : List NodeId}

/-- If the work list takes each of the paths `ps` with all that is below it, it takes them one
after the other, and their map values wait behind what waited before. -/
theorem explore_append_of_forall {acyclic : s.Acyclic} {ps : List Path}
    (each : ∀ p ∈ ps, ∀ waiting rest,
      s.explore unit (waiting ++ (s.preorder acyclic p).flatMap s.values) = .ok rest →
      s.explore unit (p :: waiting) = .ok (s.preorder acyclic p ++ rest))
    {waiting rest : List Path}
    (h : s.explore unit (waiting ++ (ps.flatMap (s.preorder acyclic)).flatMap s.values) =
      .ok rest) :
    s.explore unit (ps ++ waiting) = .ok (ps.flatMap (s.preorder acyclic) ++ rest) := by
  induction ps generalizing waiting with
  | nil => simpa using h
  | cons p ps ih =>
    rw [List.forall_mem_cons] at each
    rw [List.cons_append, List.flatMap_cons, List.append_assoc]
    apply each.1
    rw [List.append_assoc]
    apply ih each.2
    rw [List.append_assoc, ← List.flatMap_append, ← List.flatMap_cons]
    exact h

/-- The work list takes a path with all that is below it before what waits, and leaves the map
values behind what waits. The induction goes down the graph of fields. -/
theorem explore_preorder (acyclic : s.Acyclic) (fields : s.ListsFields top) {p : Path}
    (leads : s.Leads top p) {waiting rest : List Path}
    (h : s.explore unit (waiting ++ (s.preorder acyclic p).flatMap s.values) = .ok rest) :
    s.explore unit (p :: waiting) = .ok (s.preorder acyclic p ++ rest) := by
  induction hlast : p.last using acyclic.wellFounded.induction generalizing p waiting rest with
  | _ id ih =>
    subst hlast
    obtain ⟨f, found⟩ := fields p leads
    have short := leads.length_le_pathBound acyclic fields
    let members := (s.children p.last).map p.child
    have split : s.preorder acyclic p = p :: members.flatMap (s.preorder acyclic) := by
      rw [preorder_eq, List.flatMap_map]
    rw [split, List.flatMap_cons, ← List.append_assoc] at h
    rw [split, List.cons_append, explore_cons_eq_ok]
    refine ⟨f, _, found, short, ?_, rfl⟩
    rw [List.append_assoc]
    refine explore_append_of_forall (fun q hq waiting rest hrest => ?_) h
    obtain ⟨child, hchild, rfl⟩ := List.mem_map.1 hq
    exact ih child (.inl hchild) (leads.step (.inl hchild)) hrest rfl

/-- The paths with which a layer begins. -/
def layerStarts (s : Schema) (acyclic : s.Acyclic) (top : List NodeId) : Nat → List Path
  | 0 => top.map .single
  | k + 1 => (s.layer acyclic top k).flatMap s.values

theorem layer_eq_flatMap (acyclic : s.Acyclic) (k : Nat) :
    s.layer acyclic top k = (s.layerStarts acyclic top k).flatMap (s.preorder acyclic) := by
  cases k with
  | zero => simp [layer, layerStarts, List.flatMap_map]
  | succ k => simp [layer, layerStarts, List.flatMap_assoc, flatMap_preorder_values]

theorem leads_of_mem_preorder (acyclic : s.Acyclic) {p q : Path} (leads : s.Leads top p)
    (h : q ∈ s.preorder acyclic p) : s.Leads top q ∧ p.length ≤ q.length := by
  induction hlast : p.last using acyclic.wellFounded.induction generalizing p with
  | _ id ih =>
    subst hlast
    rw [preorder_eq, List.mem_cons, List.mem_flatMap] at h
    rcases h with rfl | ⟨child, hchild, hq⟩
    · exact ⟨leads, le_rfl⟩
    · obtain ⟨hleads, hlength⟩ := ih child (.inl hchild) (leads.step (.inl hchild)) hq rfl
      rw [Path.length_child] at hlength
      exact ⟨hleads, by omega⟩

theorem leads_of_mem_layer (acyclic : s.Acyclic) {k : Nat} {q : Path}
    (h : q ∈ s.layer acyclic top k) : s.Leads top q ∧ k < q.length := by
  induction k generalizing q with
  | zero =>
    obtain ⟨id, listed, hq⟩ := List.mem_flatMap.1 h
    obtain ⟨hleads, -⟩ := leads_of_mem_preorder acyclic (.start listed) hq
    exact ⟨hleads, q.length_pos⟩
  | succ k ih =>
    obtain ⟨p, hp, hq⟩ := List.mem_flatMap.1 h
    obtain ⟨hleads, hlength⟩ := ih hp
    unfold valuePreorder at hq
    split at hq
    · simp at hq
    · rename_i value hvalue
      obtain ⟨hqleads, hqlength⟩ := leads_of_mem_preorder acyclic (hleads.step (.inr hvalue)) hq
      rw [Path.length_child] at hqlength
      exact ⟨hqleads, by omega⟩

theorem layer_size_eq_nil (acyclic : s.Acyclic) (fields : s.ListsFields top) :
    s.layer acyclic top s.size = [] := by
  refine List.eq_nil_iff_forall_not_mem.2 fun p hp => ?_
  obtain ⟨hleads, hlength⟩ := leads_of_mem_layer acyclic hp
  have := hleads.length_le_size acyclic fields
  omega

theorem leads_of_mem_layerStarts (acyclic : s.Acyclic) {k : Nat} {p : Path}
    (h : p ∈ s.layerStarts acyclic top k) : s.Leads top p := by
  cases k with
  | zero =>
    obtain ⟨id, listed, rfl⟩ := List.mem_map.1 h
    exact .start listed
  | succ k =>
    obtain ⟨q, hq, hp⟩ := List.mem_flatMap.1 h
    obtain ⟨value, hvalue, rfl⟩ := List.mem_map.1 hp
    exact (leads_of_mem_layer acyclic hq).1.step (.inr (Option.mem_toList.1 hvalue))

/-- From the start of a layer on, the work list goes through that layer and those after it. -/
theorem explore_layers (acyclic : s.Acyclic) (fields : s.ListsFields top) (n k : Nat)
    (empty : s.layer acyclic top (k + n) = []) :
    s.explore unit (s.layerStarts acyclic top k) =
      .ok ((List.range n).flatMap fun i => s.layer acyclic top (k + i)) := by
  induction n generalizing k with
  | zero =>
    have : s.layerStarts acyclic top k = [] := by
      rw [Nat.add_zero, layer_eq_flatMap, List.flatMap_eq_nil_iff] at empty
      refine List.eq_nil_iff_forall_not_mem.2 fun p hp => ?_
      have := empty p hp
      rw [preorder_eq] at this
      simp at this
    rw [this]
    simp [explore]
  | succ n ih =>
    have next := ih (k + 1) (by rwa [Nat.add_right_comm, Nat.add_assoc])
    rw [layerStarts, layer_eq_flatMap, ← List.nil_append (List.flatMap _ _)] at next
    have this := explore_append_of_forall
      (fun p hp _ _ => explore_preorder acyclic fields (leads_of_mem_layerStarts acyclic hp)) next
    rw [List.append_nil, ← layer_eq_flatMap] at this
    rw [this, List.range_succ_eq_map, List.flatMap_cons, List.flatMap_map]
    simp [Nat.add_assoc, Nat.add_comm 1]

/-- The paths of a unit are its layers one after the other, up to the first that is empty; where
no map with a value is met, they are the pre-order of its top-level fields. -/
theorem paths_eq_layers (acyclic : s.Acyclic) (starts : s.StartsFrom unit top)
    (fields : s.ListsFields top) :
    ∃ ps, s.paths unit = .ok ps ∧
      (∃ depth, ps = (List.range depth).flatMap (s.layer acyclic top) ∧
        s.layer acyclic top depth = [] ∧ ∀ k < depth, s.layer acyclic top k ≠ []) ∧
      ((∀ p ∈ ps, s.mapValue? p.last = none) →
        ps = top.flatMap fun id => s.preorder acyclic (.single id)) := by
  have ends : ∃ k, s.layer acyclic top k = [] := ⟨s.size, layer_size_eq_nil acyclic fields⟩
  have last : s.layer acyclic top (0 + Nat.find ends) = [] := by
    rw [Nat.zero_add]
    exact Nat.find_spec ends
  have run : s.paths unit = .ok ((List.range (Nat.find ends)).flatMap (s.layer acyclic top)) := by
    simpa [paths, starts.topFields_eq, layerStarts] using explore_layers acyclic fields _ 0 last
  refine ⟨_, run, ⟨_, rfl, Nat.find_spec ends, fun k => Nat.find_min ends⟩, ?_⟩
  intro plain
  match hdepth : Nat.find ends with
  | 0 => simpa [layer] using (Nat.find_eq_zero ends).1 hdepth
  | 1 => simp [layer]
  | depth + 2 =>
    -- A second layer would start from a map value in the first.
    refine absurd ?_ (Nat.find_min ends (m := 1) (by omega))
    simp only [layer, List.flatMap_eq_nil_iff]
    intro p hp
    have : p ∈ (List.range (Nat.find ends)).flatMap (s.layer acyclic top) :=
      List.mem_flatMap.2 ⟨0, by simp [hdepth], hp⟩
    simp [valuePreorder, plain p this]

end

/-! ## A schema with maps inside a map -/

/-- A trait whose slots are a map to structs that hold a map, between plain fields; its history is
an array, whose members are no properties. -/
def scheduleSchema : Schema := Schema.empty.run [
  .declare "weave.trait.example" "ScheduleTrait" (.trait 2562),
  .attach 0 "power" (.field 1 {}),
  .attach 0 "slots" (.field 2 {}),
  .attach 2 "value" (.mapValue { isNullable := true }),
  .attach 3 "start" (.field 1 {}),
  .attach 3 "overrides" (.field 2 {}),
  .attach 5 "override" (.mapValue { isEphemeral := true }),
  .attach 0 "mode" (.field 3 { isNullable := true }),
  .attach 0 "history" (.field 4 { isArray := true }),
  .attach 8 "entry" (.field 1 {}),
  .attach 0 "label" (.field 5 { isOptional := true })]

theorem scheduleSchema_follows {child parent : NodeId}
    (h : scheduleSchema.Follows child parent) :
    parent < child ∧ ∃ f, scheduleSchema.field? child = some f := by
  have small : ∀ parent < scheduleSchema.size, ∀ child ∈ scheduleSchema.successors parent,
      parent < child ∧ (scheduleSchema.field? child).isSome := by decide +kernel
  obtain ⟨f, found⟩ := h.exists_field
  obtain ⟨hlt, hfield⟩ := small parent (field?_lt found) child (mem_successors.2 h)
  exact ⟨hlt, Option.isSome_iff_exists.1 hfield⟩

theorem scheduleSchema_acyclic : scheduleSchema.Acyclic :=
  .of_lt fun _ _ h => (scheduleSchema_follows h).1

theorem scheduleSchema_paths :
    scheduleSchema.StartsFrom 0 [1, 2, 7, 8, 10] ∧ scheduleSchema.ListsFields [1, 2, 7, 8, 10] ∧
      ∃ ps, scheduleSchema.paths 0 = .ok ps ∧
        ∃ depth, ps = (List.range depth).flatMap
          (scheduleSchema.layer scheduleSchema_acyclic [1, 2, 7, 8, 10]) := by
  have unit : scheduleSchema.kind? 0 = some (.trait
      { qualifier := "weave.trait.example", state := [1, 2, 7, 8, 10] }) := by decide +kernel
  have starts : scheduleSchema.StartsFrom 0 [1, 2, 7, 8, 10] := .trait unit
  have fields : scheduleSchema.ListsFields [1, 2, 7, 8, 10] := by
    refine .of_forall (fun id hid => ?_) fun _ _ h => (scheduleSchema_follows h).2
    have : ∀ id ∈ [1, 2, 7, 8, 10], (scheduleSchema.field? id).isSome := by decide +kernel
    exact Option.isSome_iff_exists.1 (this id hid)
  obtain ⟨ps, run, ⟨depth, layers, -⟩, -⟩ := paths_eq_layers scheduleSchema_acyclic starts fields
  exact ⟨starts, fields, ps, run, depth, layers⟩

example : (scheduleSchema.paths 0).toOption.map (List.map Path.fields) =
    some [[1], [2], [7], [8], [10], [2, 3], [2, 3, 4], [2, 3, 5], [2, 3, 5, 6]] := by
  decide +kernel

end PropertyTables.Schema
