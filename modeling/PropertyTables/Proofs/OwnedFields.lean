import PropertyTables.Proofs.Forest
import PropertyTables.Proofs.LayeredOrder
import PropertyTables.Proofs.VerifiedPaths

/-!
# Fields that belong to what lists them

Where every listed child belongs to the node that lists it, a field is later than the field above
it, so the graph of fields has no cycles. In a schema made by edits the lists of fields hold fields
only. Then the paths of a unit can always be listed, and each stays inside the unit.

## Main definitions

* `Schema.Rooted`: the paths of one unit go from parent to child, whatever is listed elsewhere.
-/

namespace PropertyTables.Schema

variable {s : Schema} {unit id parent : NodeId} {top : List NodeId} {p : Path}

theorem isWithin_self (s : Schema) (id : NodeId) : s.isWithin id id := by
  rw [isWithin, lineage]
  split <;> simp

theorem isWithin_of_parent? (h : s.parent? id = some parent) (above : s.isWithin parent unit) :
    s.isWithin id unit := by
  rw [isWithin, lineage_of_parent h]
  simpa [isWithin] using Or.inr above

theorem kindLabel?_eq_field : s.kindLabel? id = some "field" ↔ ∃ f, s.field? id = some f := by
  rw [kindLabel?, field?]
  cases s.kind? id with
  | none => simp
  | some kind => cases kind <;> simp [Kind.label, Kind.field?]

/-- The top-level fields of a unit are a list for fields. -/
theorem StartsFrom.exists_list (starts : s.StartsFrom unit top) (h : id ∈ top) :
    ∃ list ∈ s.childLists unit, id ∈ list.ids ∧
      ChildList.kindLabel list.label = some "field" := by
  cases starts with
  | @trait t found =>
    refine ⟨⟨"state_list", t.state⟩, ?_, h, rfl⟩
    simp [childLists_of_kind? found, Kind.childLists]
  | @struct t found =>
    refine ⟨⟨"field_list", t.fields⟩, ?_, h, rfl⟩
    simp [childLists_of_kind? found, Kind.childLists]
  | typespace => simp at h

theorem StartsFrom.parent?_of_mem (starts : s.StartsFrom unit top) (owned : s.Owned)
    (h : id ∈ top) : s.parent? id = some unit := by
  obtain ⟨list, hlist, hid, -⟩ := starts.exists_list h
  exact owned (mem_childIds.2 ⟨list, hlist, hid⟩)

/-- The paths from `top` down go from parent to child: a top-level field belongs to the unit, and any
other field to the one before it on the path. -/
structure Rooted (s : Schema) (unit : NodeId) (top : List NodeId) : Prop where
  start {id : NodeId} : id ∈ top → s.parent? id = some unit
  step {p : Path} {id : NodeId} : s.Leads top p → s.Follows id p.last →
    s.parent? id = some p.last

namespace Rooted

/-- What a path can meet are fields: the lists of fields, and those of units that paths start from,
are for fields. -/
theorem listsFields (rooted : s.Rooted unit top) (orderly : s.Orderly)
    (starts : s.StartsFrom unit top) : s.ListsFields top := by
  intro p leads
  rw [← kindLabel?_eq_field]
  cases leads with
  | start listed =>
    obtain ⟨list, hlist, hid, forFields⟩ := starts.exists_list listed
    rw [← forFields]
    exact orderly.kind hlist hid (rooted.start listed)
  | step above below =>
    obtain ⟨list, hlist, covers⟩ := followers_listed below
    have isField := kindLabel?_eq_field.2 below.exists_field
    rw [← kindLabel_of_field isField hlist]
    exact orderly.kind hlist (covers _ below) (rooted.step above below)

theorem isWithin (rooted : s.Rooted unit top) (leads : s.Leads top p) :
    ∀ id ∈ p.fields, s.isWithin id unit := by
  induction leads with
  | start listed =>
    simpa using isWithin_of_parent? (rooted.start listed) (isWithin_self s unit)
  | @step p id above below ih =>
    intro other h
    rcases List.mem_append.1 h with h | h
    · exact ih other h
    · rw [List.mem_singleton.1 h]
      exact isWithin_of_parent? (rooted.step above below) (ih p.last (by simp [Path.fields]))

end Rooted

/-- The check of a unit asks of every field on a path whether it belongs there. -/
theorem rooted_of_verifySiblings {name : String} (starts : s.StartsFrom unit top)
    (checked : s.verifySiblings name unit = .ok ()) : s.Rooted unit top where
  start listed := by
    obtain ⟨list, hlist, hid, -⟩ := starts.exists_list listed
    exact (((verifySiblings_eq_ok.1 checked).2 list hlist).1 _ hid).1
  step leads below := by
    obtain ⟨list, hlist, covers⟩ := followers_listed below
    have checked := leads.verified starts.topFields_eq checked
    exact (((verifySiblings_eq_ok.1 checked).2 list hlist).1 _ (covers _ below)).1

namespace Owned

theorem parent?_of_follows (owned : s.Owned) (h : s.Follows id parent) :
    s.parent? id = some parent := by
  obtain ⟨list, hlist, covers⟩ := followers_listed h
  exact owned (mem_childIds.2 ⟨list, hlist, covers id h⟩)

theorem acyclic (owned : s.Owned) : s.Acyclic :=
  .of_lt fun _ _ h => parent?_lt (owned.parent?_of_follows h)

theorem rooted (owned : s.Owned) (starts : s.StartsFrom unit top) : s.Rooted unit top where
  start := starts.parent?_of_mem owned
  step _ := owned.parent?_of_follows

/-- The paths of a unit are its layers, as many as there are nodes or more. -/
theorem paths_eq (owned : s.Owned) (orderly : s.Orderly) (starts : s.StartsFrom unit top) {n : Nat}
    (h : s.size ≤ n) :
    s.paths unit = .ok ((List.range n).flatMap (s.layer owned.acyclic top)) := by
  have fields := (owned.rooted starts).listsFields orderly starts
  have last : s.layer owned.acyclic top (0 + n) = [] := by
    rw [Nat.zero_add]
    refine List.eq_nil_iff_forall_not_mem.2 fun p hp => ?_
    obtain ⟨leads, deep⟩ := leads_of_mem_layer owned.acyclic hp
    have := leads.length_le_size owned.acyclic fields
    omega
  simpa [paths, starts.topFields_eq, layerStarts] using
    explore_layers owned.acyclic fields n 0 last

end Owned

end PropertyTables.Schema
