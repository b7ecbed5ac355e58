import PropertyTables.Proofs.Ambiguity

/-!
# The parents in a handle table

A handle table finds the enclosing path of an entry by its symbol, which other paths may share.
Whatever the schema, the search does not fail: the enclosing path comes before those inside it, and
the table is given up as soon as a symbol is taken twice. So an entry that is made has the entry of
the path that encloses it as its parent.

## Main definitions

* `Schema.TableFault`: why a handle table cannot be made.
-/

namespace PropertyTables

theorem Path.length_eq_one {p : Path} : p.length = 1 ↔ p.enclosing = [] := by
  simp [Path.length, Path.fields]

namespace Schema

variable {s : Schema} {unit : NodeId} {done : List Entry} {ps qs : List Path} {path : Path}
  {error : Error}

/-- The error about a path that leaves the unit at a field. -/
def outsideUnit (s : Schema) (unit : NodeId) (path : Path) (field : NodeId) : Error :=
  .integrity (s.fullName unit) (s.dotted path.fields) (.outsideUnit (s.fullName field))

/-- Why a handle table cannot be made: a path leaves the unit, or two paths share a symbol. -/
inductive TableFault (s : Schema) (unit : NodeId) (ps : List Path) : Error → Prop
  | outside {p : Path} {field : NodeId} (listed : p ∈ ps) (passed : field ∈ p.fields)
    (leaves : s.isWithin field unit = false) : TableFault s unit ps (s.outsideUnit unit p field)
  | ambiguous {first second : Path} (clash : Clash s.pathSymbol ps first second) :
    TableFault s unit ps (s.ambiguousPaths unit first second)

theorem TableFault.not_undefinedParent (fault : s.TableFault unit ps error)
    (name element symbol : String) : error ≠ .integrity name element (.undefinedParent symbol) := by
  cases fault <;> simp [outsideUnit, ambiguousPaths]

theorem TableFault.not_sound (fault : s.TableFault unit ps error) :
    ¬ ((∀ p ∈ ps, ∀ id ∈ p.fields, s.isWithin id unit) ∧ (ps.map s.pathSymbol).Nodup) := by
  rintro ⟨inside, distinct⟩
  cases fault with
  | outside listed passed leaves => simp [inside _ listed _ passed] at leaves
  | ambiguous clash => exact clash.not_nodup distinct

/-! ## Filling the table -/

/-- A path that leaves the unit has no entry, whatever entries there are. -/
theorem exists_entry_error (leaves : ∃ id ∈ path.fields, s.isWithin id unit = false) :
    ∃ field ∈ path.fields, s.isWithin field unit = false ∧
      ∀ done, s.entry unit done path = .error (s.outsideUnit unit path field) := by
  have found : (path.fields.find? fun field => !s.isWithin field unit).isSome := by
    simpa using leaves
  obtain ⟨field, found⟩ := Option.isSome_iff_exists.1 found
  refine ⟨field, List.mem_of_find?_eq_some found, by simpa using List.find?_some found, ?_⟩
  intro done
  simp only [entry, found]
  rfl

theorem entries_append : s.entries unit done (ps ++ qs) =
    s.entries unit done ps >>= fun es => s.entries unit es qs := by
  induction ps generalizing done with
  | nil => rfl
  | cons path ps ih =>
    rw [List.cons_append, entries, entries, bind_assoc]
    exact bind_congr fun e => ih

/-- The entries of the paths of a unit are all made, or there is a reason for the error. -/
theorem entries_cases (enclosed : ∀ i p, ps[i]? = some p → p.enclosing = [] ∨
      ∃ q ∈ ps.take i, q.fields = p.enclosing) :
    (∃ es, s.entries unit [] ps = .ok es ∧ (∀ p ∈ ps, ∀ id ∈ p.fields, s.isWithin id unit) ∧
      (ps.map s.pathSymbol).Nodup) ∨
    ∃ error, s.entries unit [] ps = .error error ∧ s.TableFault unit ps error := by
  cases found : ps.find? fun p => p.fields.any fun id => !s.isWithin id unit with
  | none =>
    have inside : ∀ p ∈ ps, ∀ id ∈ p.fields, s.isWithin id unit := by
      simpa using List.find?_eq_none.1 found
    rcases entries_nil_outcome inside enclosed with ⟨es, made, distinct⟩ | ⟨p, q, clash, failed⟩
    · exact .inl ⟨es, made, inside, distinct⟩
    · exact .inr ⟨_, failed, .ambiguous clash⟩
  | some path =>
    -- Up to the first path that leaves the unit the table is filled like any other.
    obtain ⟨leaves, before, after, rfl, inside⟩ := List.find?_eq_some_iff_append.1 found
    have enclosedBefore : ∀ i p, before[i]? = some p → p.enclosing = [] ∨
        ∃ q ∈ before.take i, q.fields = p.enclosing := by
      intro i p hp
      have hi : i < before.length := (List.getElem?_eq_some_iff.1 hp).1
      have listed : (before ++ path :: after)[i]? = some p := by
        rw [List.getElem?_append_left hi, hp]
      simpa [List.take_append_of_le_length hi.le] using enclosed i p listed
    right
    rw [entries_append]
    rcases entries_nil_outcome (by simpa using inside) enclosedBefore with
      ⟨es, made, -⟩ | ⟨p, q, clash, failed⟩
    · obtain ⟨field, passed, outside, failed⟩ := exists_entry_error (by simpa using leaves)
      refine ⟨_, ?_, .outside (by simp) passed outside⟩
      rw [made, ok_bind, entries, failed, error_bind]
    · refine ⟨_, ?_, .ambiguous (clash.append _)⟩
      rw [failed, error_bind]

theorem handleTable_cases (enumerated : s.paths unit = .ok ps) :
    (∃ table, s.handleTable unit = .ok table ∧ (∀ p ∈ ps, ∀ id ∈ p.fields, s.isWithin id unit) ∧
      (ps.map s.pathSymbol).Nodup) ∨
    ∃ error, s.handleTable unit = .error error ∧ s.TableFault unit ps error := by
  rw [handleTable, enumerated, ok_bind]
  rcases entries_cases (enclosed_take enumerated) with ⟨es, made, sound⟩ | ⟨error, failed, fault⟩
  · exact .inl ⟨⟨es⟩, by rw [made, ok_bind]; rfl, sound⟩
  · exact .inr ⟨error, by rw [failed, error_bind], fault⟩

/-- Whatever the schema, once the paths of a unit are listed the parent of a path is always found.
The table is made exactly when the paths stay in the unit and have distinct symbols, and then an
entry has no parent if its path has one field, and otherwise the earlier entry whose path is the one
without the last field. -/
theorem handleTable_parents (enumerated : s.paths unit = .ok ps) :
    (∀ name element symbol,
      s.handleTable unit ≠ .error (.integrity name element (.undefinedParent symbol))) ∧
    ((∃ table, s.handleTable unit = .ok table) ↔
      (∀ p ∈ ps, ∀ id ∈ p.fields, s.isWithin id unit) ∧ (ps.map s.pathSymbol).Nodup) ∧
    ∀ table, s.handleTable unit = .ok table → table.paths = ps ∧
      ∀ (i : Nat) (e : Entry), table.entries[i]? = some e → (e.parent = none ↔ e.path.length = 1) ∧
        (e.path.length ≠ 1 → ∃ (j : Nat) (q : Path), e.parent = some j ∧ j < i ∧ ps[j]? = some q ∧
          q.fields = e.path.enclosing) := by
  refine ⟨?_, ?_, fun table made => ?_⟩
  · intro name element symbol
    rcases handleTable_cases enumerated with ⟨table, made, -⟩ | ⟨error, failed, fault⟩
    · simp [made]
    · simpa [failed] using fault.not_undefinedParent name element symbol
  · rcases handleTable_cases enumerated with ⟨table, made, sound⟩ | ⟨error, failed, fault⟩
    · exact ⟨fun _ => sound, fun _ => ⟨table, made⟩⟩
    · refine ⟨fun ⟨table, made⟩ => ?_, fun sound => absurd sound fault.not_sound⟩
      cases failed.symm.trans made
  · obtain ⟨listed, -⟩ := handleTable_eq_ok made
    obtain rfl : table.paths = ps := Except.ok.inj (listed.symm.trans enumerated)
    refine ⟨rfl, fun i e he => ?_⟩
    rw [ne_eq, Path.length_eq_one]
    rcases parent_of_handleTable made he with ⟨top, hparent⟩ | ⟨j, d, hj, hd, isEnclosing, hparent⟩
    · exact ⟨iff_of_true hparent top, fun nested => absurd top nested⟩
    · have nested : e.path.enclosing ≠ [] := isEnclosing ▸ d.path.fields_ne_nil
      refine ⟨by simp [hparent, nested], fun _ => ⟨j, d.path, hparent, hj, ?_, isEnclosing⟩⟩
      simp [HandleTable.paths, hd]

/-- A trait with underscores in the names of its fields, two of which have the same number, so that
it does not pass the verifier. -/
def latchSchema : Schema := Schema.empty.run [
  .declare "weave.trait.example" "LatchTrait" (.trait 2579),
  .attach 0 "a" (.field 1 {}),
  .attach 1 "b" (.field 1 {}),
  .attach 0 "a_" (.field 1 {}),
  .attach 3 "b" (.field 1 {}),
  .attach 0 "device__id" (.field 3 {})]

theorem latchSchema_parents :
    (latchSchema.verifyUnit 0).toOption = none ∧
      ∃ table, latchSchema.handleTable 0 = .ok table ∧
        ∃ e, table.entries[3]? = some e ∧ e.path = ⟨[3], 4⟩ ∧ e.parent = some 2 := by
  have enumerated : latchSchema.paths 0 =
      .ok [⟨[], 1⟩, ⟨[1], 2⟩, ⟨[], 3⟩, ⟨[3], 4⟩, ⟨[], 5⟩] := toOption_eq_some.1 (by decide +kernel)
  obtain ⟨-, made, sound⟩ := handleTable_parents enumerated
  obtain ⟨table, built⟩ := made.2 (by decide +kernel)
  obtain ⟨listed, parents⟩ := sound table built
  have place : (table.entries[3]?).map Entry.path = some ⟨[3], 4⟩ := by
    rw [← List.getElem?_map]
    exact congrArg (·[3]?) listed
  obtain ⟨e, he, hpath⟩ := Option.map_eq_some_iff.1 place
  have nested : e.path.length ≠ 1 := by rw [hpath]; decide
  obtain ⟨j, q, hparent, hj, hq, isEnclosing⟩ := (parents 3 e he).2 nested
  have only : ∀ j < 3, ([⟨[], 1⟩, ⟨[1], 2⟩, ⟨[], 3⟩, ⟨[3], 4⟩, ⟨[], 5⟩] : List Path)[j]?.map
      Path.fields = some [3] → j = 2 := by decide
  obtain rfl := only j hj (by rw [hq, Option.map_some, isEnclosing, hpath])
  exact ⟨by decide +kernel, table, built, e, he, hpath, hparent⟩

end Schema

end PropertyTables
