import PropertyTables.Proofs.SchemaTables
import PropertyTables.Proofs.VerifiedSchema

/-!
# Compilation of a schema, unit by unit

Units are compiled level by level, by the number of their bases. The outcome is that of a plain
compilation of one unit after the other: the tables are those of the units in the order of the
roots. Only which error is reported depends on the levels: it is that of the failing unit with the
fewest bases, and of the first among those.

## Main definitions

* `Schema.FailsAt`: a unit of a schema, with its place, that cannot be compiled.
-/

namespace PropertyTables.Schema

variable {s : Schema} {options : Options} {units : List Scheduled} {unit : Scheduled}
  {ts : List Tables} {error : Error} {depth position : Nat}

/-! ## The schedule -/

/-- The units are the roots that can be compiled, each with its position and the number of its
bases. -/
theorem mem_schedule (h : s.schedule = .ok units) : unit ∈ units ↔
    s.roots[unit.position]? = some unit.id ∧ (s.classify unit.id).isSome ∧
      ∃ chain, s.extendsChain unit.id = .ok chain ∧ chain.length = unit.depth := by
  rw [schedule, mapM_eq_ok] at h
  constructor
  · intro hunit
    obtain ⟨⟨id, position⟩, hroot, made⟩ := exists_of_forall₂ h.flip hunit
    obtain ⟨chain, ends, rfl⟩ : ∃ chain, s.extendsChain id = .ok chain ∧
        ⟨position, chain.length, id⟩ = unit := by simpa using made
    obtain ⟨hroot, isUnit⟩ := List.mem_filter.1 hroot
    exact ⟨List.mem_zipIdx_iff_getElem?.1 hroot, isUnit, chain, ends, rfl⟩
  · rintro ⟨hroot, isUnit, chain, ends, counted⟩
    have hroot : (unit.id, unit.position) ∈
        s.roots.zipIdx.filter fun root => (s.classify root.1).isSome :=
      List.mem_filter.2 ⟨List.mem_zipIdx_iff_getElem?.2 hroot, isUnit⟩
    obtain ⟨other, hother, made⟩ := exists_of_forall₂ h hroot
    have same : unit = other := by simpa [ends, counted] using made
    exact same ▸ hother

theorem pairwise_schedule (h : s.schedule = .ok units) :
    units.Pairwise fun a b => a.position < b.position := by
  have ascending : (s.roots.zipIdx.map Prod.snd).Pairwise (· < ·) := by
    rw [List.zipIdx_map_snd]
    exact List.pairwise_lt_range'
  have kept := (List.pairwise_map.1 ascending).filter fun root => (s.classify root.1).isSome
  rw [← map_schedule h, List.pairwise_map] at kept
  exact kept

/-- A unit is compiled before another that has more bases, or as many and a later position. -/
def Scheduled.Before (a b : Scheduled) : Prop :=
  a.depth < b.depth ∨ a.depth = b.depth ∧ a.position < b.position

theorem pairwise_byDepth (h : units.Pairwise fun a b => a.position < b.position) :
    (byDepth units).Pairwise Scheduled.Before := by
  rw [byDepth, List.pairwise_flatMap]
  constructor
  · intro depth _
    refine (h.filter _).imp_of_mem fun ha hb earlier => .inr ⟨?_, earlier⟩
    simp only [List.mem_filter, decide_eq_true_eq] at ha hb
    rw [ha.2, hb.2]
  · refine List.pairwise_lt_range.imp fun {i j} lower a ha b hb => .inl ?_
    simp only [List.mem_filter, decide_eq_true_eq] at ha hb
    omega

theorem exists_schedule (verified : s.verify = .ok ()) : ∃ units, s.schedule = .ok units := by
  cases scheduled : s.schedule with
  | ok units => exact ⟨units, rfl⟩
  | error error =>
    obtain ⟨before, ⟨id, position⟩, after, roots, -, failed⟩ := mapM_eq_error.1 scheduled
    have hroot : (id, position) ∈
        s.roots.zipIdx.filter fun root => (s.classify root.1).isSome := by
      rw [roots]
      simp
    obtain ⟨hroot, isUnit⟩ := List.mem_filter.1 hroot
    obtain ⟨kind, hkind⟩ := Option.isSome_iff_exists.1 isUnit
    have listed := List.mem_of_getElem? (List.mem_zipIdx_iff_getElem?.1 hroot)
    obtain ⟨chain, ends⟩ := exists_extendsChain ((verify_eq_ok.1 verified).2 id listed) hkind
    simp [ends, bind, Except.bind, pure, Except.pure] at failed

/-! ## The outcome -/

/-- The root at `position` is a unit with `depth` bases that cannot be compiled. -/
def FailsAt (s : Schema) (options : Options) (depth position : Nat) (error : Error) : Prop :=
  ∃ id chain, s.roots[position]? = some id ∧ (s.classify id).isSome ∧
    s.extendsChain id = .ok chain ∧ chain.length = depth ∧ s.compileUnit options id = .error error

theorem failsAt_iff (h : s.schedule = .ok units) : s.FailsAt options depth position error ↔
    ∃ unit ∈ units, unit.depth = depth ∧ unit.position = position ∧
      s.compileUnit options unit.id = .error error := by
  constructor
  · rintro ⟨id, chain, root, isUnit, ends, counted, failed⟩
    exact ⟨⟨position, depth, id⟩, (mem_schedule h).2 ⟨root, isUnit, chain, ends, counted⟩, rfl, rfl,
      failed⟩
  · rintro ⟨unit, hunit, rfl, rfl, failed⟩
    obtain ⟨root, isUnit, chain, ends, counted⟩ := (mem_schedule h).1 hunit
    exact ⟨unit.id, chain, root, isUnit, ends, counted, failed⟩

theorem compile_eq_of_schedule (valid : options.validate = .ok ()) (verified : s.verify = .ok ())
    (scheduled : s.schedule = .ok units) :
    s.compile options = (do
      let compiled ← (byDepth units).mapM fun unit => do
        let tables ← s.compileUnit options unit.id
        return (unit.position, tables)
      return units.filterMap fun unit => compiled.lookup unit.position) := by
  rw [compile, valid, verified, scheduled]
  rfl

/-- Compilation of a verified schema fails only at a unit that fails, and at the first of these in
the order of compilation. -/
theorem failsAt_of_compile (valid : options.validate = .ok ()) (verified : s.verify = .ok ())
    (h : s.compile options = .error error) :
    ∃ depth position, s.FailsAt options depth position error ∧
      ∀ depth' position' error', s.FailsAt options depth' position' error' →
        depth < depth' ∨ depth = depth' ∧ position ≤ position' := by
  obtain ⟨units, scheduled⟩ := exists_schedule verified
  rw [compile_eq_of_schedule valid verified scheduled, bind_eq_error] at h
  obtain h | ⟨compiled, -, ⟨⟩⟩ := h
  obtain ⟨before, unit, after, order, passed, failed⟩ := mapM_eq_error.1 h
  have failed : s.compileUnit options unit.id = .error error := by
    simpa [bind_eq_error, pure, Except.pure] using failed
  have listed : unit ∈ units := mem_byDepth.1 (order ▸ by simp)
  refine ⟨unit.depth, unit.position, (failsAt_iff scheduled).2 ⟨unit, listed, rfl, rfl, failed⟩, ?_⟩
  intro depth' position' error' fails
  obtain ⟨other, hother, rfl, rfl, failed'⟩ := (failsAt_iff scheduled).1 fails
  have hother := mem_byDepth.2 hother
  have sorted := pairwise_byDepth (pairwise_schedule scheduled)
  rw [order] at hother sorted
  rcases List.mem_append.1 hother with hother | hother
  · obtain ⟨result, compiled⟩ := passed other hother
    simp [failed'] at compiled
  · rcases List.mem_cons.1 hother with rfl | hother
    · exact .inr ⟨rfl, le_rfl⟩
    · have first := (List.pairwise_cons.1 (List.pairwise_append.1 sorted).2.1).1 other hother
      exact first.imp_right fun same => ⟨same.1, same.2.le⟩

theorem not_failsAt_of_compile (h : s.compile options = .ok ts) :
    ¬ s.FailsAt options depth position error := by
  rintro ⟨id, chain, root, isUnit, -, -, failed⟩
  obtain ⟨tables, -, compiled⟩ := tables_of_root h (List.mem_of_getElem? root) isUnit
  simp [failed] at compiled

theorem compile_of_units (valid : options.validate = .ok ()) (verified : s.verify = .ok ())
    (each : List.Forall₂ (fun id tables => s.compileUnit options id = .ok tables)
      (s.roots.filter fun id => (s.classify id).isSome) ts) : s.compile options = .ok ts := by
  cases compiled : s.compile options with
  | ok ts' =>
    have run := mapM_eq_ok.2 (compile_eq_ok compiled).2
    exact run.symm.trans (mapM_eq_ok.2 each)
  | error error =>
    obtain ⟨depth, position, ⟨id, chain, root, isUnit, -, -, failed⟩, -⟩ :=
      failsAt_of_compile valid verified compiled
    obtain ⟨tables, -, made⟩ := exists_of_forall₂ each
      (List.mem_filter.2 ⟨List.mem_of_getElem? root, isUnit⟩)
    simp [failed] at made

theorem compile_of_failsAt (valid : options.validate = .ok ()) (verified : s.verify = .ok ())
    (fails : s.FailsAt options depth position error)
    (least : ∀ depth' position' error', s.FailsAt options depth' position' error' →
      depth < depth' ∨ depth = depth' ∧ position ≤ position') :
    s.compile options = .error error := by
  cases compiled : s.compile options with
  | ok ts => exact absurd fails (not_failsAt_of_compile compiled)
  | error error' =>
    -- Each of the two failing units is least, so they are one.
    obtain ⟨depth', position', fails', least'⟩ := failsAt_of_compile valid verified compiled
    have := least _ _ _ fails'
    have := least' _ _ _ fails
    obtain rfl : position = position' := by omega
    obtain ⟨id, -, root, -, -, -, failed⟩ := fails
    obtain ⟨id', -, root', -, -, -, failed'⟩ := fails'
    rw [root] at root'
    cases root'
    rw [failed] at failed'
    cases failed'
    rfl

/-- Compilation of a schema agrees with a plain compilation of its units. It succeeds exactly when
the options are valid, the schema is verified and every unit can be compiled, and gives the tables
of the units in the order of the roots. When the schema is verified and it fails, the error is that
of the unit that fails with the fewest bases, the first among those. -/
theorem compile_agrees (s : Schema) (options : Options) :
    (∀ ts, s.compile options = .ok ts ↔
      options.validate = .ok () ∧ s.verify = .ok () ∧
        List.Forall₂ (fun id tables => s.compileUnit options id = .ok tables)
          (s.roots.filter fun id => (s.classify id).isSome) ts) ∧
    (options.validate = .ok () → s.verify = .ok () → ∀ error, s.compile options = .error error ↔
      ∃ depth position, s.FailsAt options depth position error ∧
        ∀ depth' position' error', s.FailsAt options depth' position' error' →
          depth < depth' ∨ depth = depth' ∧ position ≤ position') := by
  constructor
  · intro ts
    constructor
    · intro h
      have valid := h
      rw [compile, check_bind_eq_ok] at valid
      exact ⟨valid.1, compile_eq_ok h⟩
    · rintro ⟨valid, verified, each⟩
      exact compile_of_units valid verified each
  · intro valid verified error
    refine ⟨failsAt_of_compile valid verified, ?_⟩
    rintro ⟨depth, position, fails, least⟩
    exact compile_of_failsAt valid verified fails least

/-- Two traits with numbers that are too wide, of which the first extends the second. -/
def dimmerSchema : Schema := Schema.empty.run [
  .declare "weave.trait.example" "DimmerTrait" (.trait 70000),
  .declare "weave.trait.example" "LightTrait" (.trait 70001),
  .set 0 (.base 1)]

/-- The error of the base comes first, though it is the later root. -/
theorem dimmerSchema_error :
    ({} : Options).validate = .ok () ∧ dimmerSchema.verify = .ok () ∧
      dimmerSchema.compile {} = .error
        (.integrity "weave.trait.example.LightTrait" "LightTrait" (.numberTooWide 70001)) := by
  have valid : ({} : Options).validate = .ok () := rfl
  have verified : dimmerSchema.verify = .ok () := toOption_eq_some.1 (by decide +kernel)
  have roots : dimmerSchema.roots = [0, 1] := by decide +kernel
  have derivedChain : dimmerSchema.extendsChain 0 = .ok [1] := toOption_eq_some.1 (by decide +kernel)
  have baseChain : dimmerSchema.extendsChain 1 = .ok [] := toOption_eq_some.1 (by decide +kernel)
  refine ⟨valid, verified, ((compile_agrees dimmerSchema {}).2 valid verified _).2 ⟨0, 1, ?_, ?_⟩⟩
  · refine ⟨1, [], by simp [roots], by decide +kernel, baseChain, rfl, by decide +kernel⟩
  · rintro depth position error ⟨id, chain, root, -, ends, rfl, -⟩
    rw [roots] at root
    match position with
    | 0 =>
      cases root
      cases derivedChain.symm.trans ends
      exact .inl Nat.zero_lt_one
    | 1 =>
      cases root
      cases baseChain.symm.trans ends
      exact .inr ⟨rfl, le_rfl⟩

end PropertyTables.Schema
