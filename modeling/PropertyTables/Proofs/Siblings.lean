import Mathlib.Data.List.Nodup
import PropertyTables.Proofs.Outcome
import PropertyTables.Verify

/-!
# What the check of siblings means

The check goes through every list of children, place by place, and down into each child. It passes
exactly when every child belongs to the node that lists it, names and numbers are distinct in each
list, and the same holds below each child.
-/

namespace PropertyTables

variable {α β : Type}

@[simp] theorem map_snd_withEarlier (xs : List α) : (withEarlier xs).map Prod.snd = xs := by
  induction xs with
  | nil => rfl
  | cons x xs ih => simpa [withEarlier, Function.comp_def] using ih

theorem forall_mem_withEarlier {xs : List α} {P : α → Prop} :
    (∀ place ∈ withEarlier xs, P place.2) ↔ ∀ x ∈ xs, P x := by
  rw [← List.forall_mem_map (P := P), map_snd_withEarlier]

/-- Values are distinct when none is taken earlier. -/
theorem nodup_map_iff_withEarlier (f : α → β) (xs : List α) :
    (xs.map f).Nodup ↔ ∀ place ∈ withEarlier xs, ∀ y ∈ place.1, f y ≠ f place.2 := by
  induction xs with
  | nil => simp [withEarlier]
  | cons x xs ih =>
    have fresh : f x ∉ xs.map f ↔ ∀ place ∈ withEarlier xs, f x ≠ f place.2 := by
      rw [forall_mem_withEarlier (P := fun y => f x ≠ f y)]
      simp [eq_comm]
    rw [List.map_cons, List.nodup_cons, fresh, ih]
    simp only [withEarlier, List.forall_mem_cons, List.not_mem_nil, List.forall_mem_map]
    grind

namespace Schema

variable {s : Schema} {unit label : String} {id parent child : NodeId} {earlier : List NodeId}

theorem name_of_node? {node : Node} (h : s.node? id = some node) : s.name id = node.name := by
  simp [name, h]

theorem number_of_node? {node : Node} (h : s.node? id = some node) : s.number id = node.number := by
  simp [number, h]

theorem parent?_of_node? {node : Node} (h : s.node? id = some node) :
    s.parent? id = node.parent := by
  simp [parent?, h]

/-- A child in its place belongs to the parent and shares neither name nor number with an earlier
child. -/
theorem verifyChild_eq_ok : s.verifyChild unit parent label earlier child = .ok () ↔
    s.parent? child = some parent ∧ (∀ other ∈ earlier, s.name other ≠ s.name child) ∧
      ∀ other ∈ earlier, s.number other ≠ s.number child := by
  unfold verifyChild
  cases found : s.node? child with
  | none => simp [node, found, parent?]
  | some node =>
    rw [bind_eq_ok, name_of_node? found, number_of_node? found, parent?_of_node? found]
    simp only [node_eq_ok, found, Option.some.injEq, exists_eq_left']
    by_cases owned : node.parent = some parent
    · cases sameName : earlier.find? (s.name · = node.name) with
      | some other =>
        have := List.find?_some sameName
        have := List.mem_of_find?_eq_some sameName
        grind
      | none =>
        rw [List.find?_eq_none] at sameName
        cases sameNumber : earlier.find? (s.number · = node.number) with
        | some other =>
          have := List.find?_some sameNumber
          have := List.mem_of_find?_eq_some sameNumber
          grind
        | none =>
          rw [List.find?_eq_none] at sameNumber
          grind
    · simp [owned]

/-- The check passes at a node when it passes for the values of the node itself, and every list
holds children of this node with distinct names and numbers, at which the check passes too. -/
theorem verifySiblings_eq_ok : s.verifySiblings unit id = .ok () ↔
    s.verifyValues unit id = .ok () ∧ ∀ list ∈ s.childLists id,
      (∀ child ∈ list.ids, s.parent? child = some id ∧ s.verifySiblings unit child = .ok ()) ∧
      (list.ids.map s.name).Nodup ∧ (list.ids.map s.number).Nodup := by
  rw [verifySiblings, check_bind_eq_ok, forM_eq_ok]
  refine and_congr_right fun _ => forall₂_congr fun list _ => ?_
  let Sound child := s.parent? child = some id ∧ s.verifySiblings unit child = .ok ()
  rw [forM_eq_ok, nodup_map_iff_withEarlier, nodup_map_iff_withEarlier,
    ← forall_mem_withEarlier (P := Sound), ← forall₂_and, ← forall₂_and]
  refine forall₂_congr fun place _ => ?_
  rw [check_bind_eq_ok, verifyChild_eq_ok]
  by_cases owned : s.parent? place.2 = some id
  · simp only [Sound, owned, dif_pos, true_and]
    tauto
  · simp [Sound, owned]

end Schema

end PropertyTables
