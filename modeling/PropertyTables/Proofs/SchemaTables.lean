import PropertyTables.Proofs.UnitTables

/-!
# The tables of a schema

A schema is accepted only if each of its units is. Its tables are those of its units, one by one in
the order of the roots, whatever the order in which they were compiled.
-/

namespace PropertyTables.Schema

variable {s : Schema} {options : Options} {units : List Scheduled} {unit : Scheduled}
  {compiled : List (Nat × Tables)} {ts : List Tables}

/-- The units are the roots that can be compiled, each with its position. -/
theorem map_schedule (h : s.schedule = .ok units) :
    units.map (fun unit => (unit.id, unit.position)) =
      s.roots.zipIdx.filter fun root => (s.classify root.1).isSome := by
  rw [schedule, mapM_eq_ok] at h
  rw [← List.forall₂_eq_eq_eq, List.forall₂_map_left_iff]
  refine h.flip.imp fun unit root made => ?_
  obtain ⟨chain, -, rfl⟩ : ∃ chain, s.extendsChain root.1 = .ok chain ∧
      ⟨root.2, chain.length, root.1⟩ = unit := by simpa using made
  rfl

theorem map_id_schedule (h : s.schedule = .ok units) :
    units.map Scheduled.id = s.roots.filter fun id => (s.classify id).isSome := by
  have := congrArg (List.map Prod.fst) (map_schedule h)
  rw [List.map_map] at this
  rw [← List.zipIdx_map_fst 0 s.roots, List.filter_map]
  exact this

theorem id_of_position_eq (h : s.schedule = .ok units) {other : Scheduled} (hunit : unit ∈ units)
    (hother : other ∈ units) (same : other.position = unit.position) : other.id = unit.id := by
  have root : ∀ unit ∈ units, s.roots[unit.position]? = some unit.id := by
    intro unit hunit
    have listed := List.mem_map_of_mem (f := fun unit => (unit.id, unit.position)) hunit
    rw [map_schedule h] at listed
    exact List.mem_zipIdx_iff_getElem?.1 (List.mem_of_mem_filter listed)
  have := root other hother
  rw [same, root unit hunit] at this
  exact (Option.some.inj this).symm

theorem le_foldl_max (depths : List Nat) (least : Nat) :
    least ≤ depths.foldl Nat.max least ∧ ∀ depth ∈ depths, depth ≤ depths.foldl Nat.max least := by
  induction depths generalizing least with
  | nil => simp
  | cons depth depths ih =>
    obtain ⟨above, greatest⟩ := ih (Nat.max least depth)
    refine ⟨(Nat.le_max_left _ _).trans above, ?_⟩
    intro d hd
    rcases List.mem_cons.1 hd with rfl | hd
    · exact (Nat.le_max_right _ _).trans above
    · exact greatest d hd

theorem mem_byDepth : unit ∈ byDepth units ↔ unit ∈ units := by
  simp only [byDepth, List.mem_flatMap, List.mem_range, List.mem_filter, decide_eq_true_eq]
  constructor
  · rintro ⟨-, -, hunit, -⟩
    exact hunit
  · intro hunit
    have bound := (le_foldl_max (units.map Scheduled.depth) 0).2 _ (List.mem_map_of_mem hunit)
    exact ⟨unit.depth, by omega, hunit, rfl⟩

/-- A unit finds its own tables by its position. -/
theorem lookup_compiled (h : s.schedule = .ok units)
    (each : (byDepth units).mapM (fun unit => do
      let tables ← s.compileUnit options unit.id
      return (unit.position, tables)) = .ok compiled)
    (hunit : unit ∈ units) :
    ∃ tables, compiled.lookup unit.position = some tables ∧
      s.compileUnit options unit.id = .ok tables := by
  rw [mapM_eq_ok] at each
  cases found : compiled.lookup unit.position with
  | none =>
    obtain ⟨pair, hpair, made⟩ := exists_of_forall₂ each (mem_byDepth.2 hunit)
    obtain ⟨tables, -, rfl⟩ : ∃ tables, s.compileUnit options unit.id = .ok tables ∧
        (unit.position, tables) = pair := by simpa using made
    simpa using List.lookup_eq_none_iff.1 found _ hpair
  | some tables =>
    obtain ⟨before, after, rfl, -⟩ := List.lookup_eq_some_iff.1 found
    obtain ⟨other, hother, made⟩ :=
      exists_of_forall₂ each.flip (List.mem_append_right _ List.mem_cons_self)
    obtain ⟨accepted, same⟩ : s.compileUnit options other.id = .ok tables ∧
        other.position = unit.position := by simpa using made
    exact ⟨tables, rfl, id_of_position_eq h hunit (mem_byDepth.1 hother) same ▸ accepted⟩

/-- An accepted schema gives the tables of each unit among its roots, in their order. -/
theorem compile_eq_ok (h : s.compile options = .ok ts) :
    s.verify = .ok () ∧
      List.Forall₂ (fun id tables => s.compileUnit options id = .ok tables)
        (s.roots.filter fun id => (s.classify id).isSome) ts := by
  rw [compile, check_bind_eq_ok, check_bind_eq_ok] at h
  obtain ⟨-, verified, h⟩ := h
  obtain ⟨units, scheduled, h⟩ := bind_eq_ok.1 h
  obtain ⟨compiled, each, h⟩ := bind_eq_ok.1 h
  rw [pure_eq_ok] at h
  subst h
  refine ⟨verified, ?_⟩
  rw [← map_id_schedule scheduled, List.forall₂_map_left_iff]
  exact forall₂_filterMap fun unit hunit => lookup_compiled scheduled each hunit

/-- The tables of a unit among the roots. -/
theorem tables_of_root (h : s.compile options = .ok ts) {id : NodeId} (root : id ∈ s.roots)
    (unit : (s.classify id).isSome) : ∃ tables ∈ ts, s.compileUnit options id = .ok tables :=
  exists_of_forall₂ (compile_eq_ok h).2 (List.mem_filter.2 ⟨root, unit⟩)

end PropertyTables.Schema
