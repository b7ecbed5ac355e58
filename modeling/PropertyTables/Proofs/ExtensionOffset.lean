import PropertyTables.Proofs.CompileFaults

/-!
# Where the handles of an extension start

The extension offset of a trait is computed from a fresh list of the paths of its base, while the
base counts its own handles in its tables. Both count the same paths. In an accepted schema the base
of a trait is a trait among the roots, so it has such tables.
-/

namespace PropertyTables.Schema

variable {s : Schema} {options : Options} {unit derived base : NodeId} {tables : Tables}
  {ts : List Tables} {t : Trait}

/-- A trait without a base starts right after the root. -/
theorem extensionOffset_of_base?_eq_none (accepted : s.compileUnit options unit = .ok tables)
    (isTrait : s.trait? unit = some t) (alone : t.base = none) : tables.extensionOffset = 2 := by
  obtain ⟨chain, -, hoffset⟩ := bind_eq_ok.1 (versions_of_trait? accepted isTrait).1
  have alone : s.base? unit = none := by simp [base?, isTrait, alone]
  simp only [alone, pure_eq_ok] at hoffset
  exact hoffset.symm

/-- The count of handles that a trait has in its tables is that of its paths. -/
theorem counts_of_trait? (accepted : s.compileUnit options unit = .ok tables)
    (isTrait : s.trait? unit = some t) (few : tables.rows.length < 2 ^ 32 - 2) :
    ∃ ps, s.paths unit = .ok ps ∧ tables.rows.length = ps.length ∧
      tables.handleCount.toNat = ps.length ∧ tables.lastHandle.toNat = ps.length + 1 := by
  obtain ⟨table, sound, enumerated, rows, count, last, depth⟩ := exists_sound_table accepted
  rw [kind_of_trait? accepted isTrait, if_neg (by simp)] at enumerated
  rw [rows, HandleTable.length_rows] at few
  have addresses := sound.addresses few rows count last depth
  exact ⟨table.paths, enumerated, addresses.rows_length, addresses.handleCount,
    addresses.lastHandle⟩

/-- The extension offset of a trait is the first handle past those that its base has in its own
tables. -/
theorem extensionOffset_eq_handleCount {own inherited : Tables}
    (compiled : s.compileUnit options derived = .ok own)
    (compiledBase : s.compileUnit options base = .ok inherited)
    (extended : s.base? derived = some base) (few : inherited.rows.length < 2 ^ 32 - 2) :
    own.extensionOffset.toNat = inherited.handleCount.toNat + 2 ∧
      inherited.lastHandle.toNat = inherited.handleCount.toNat + 1 := by
  obtain ⟨b, qs, isTrait, counted, offset⟩ := extensionOffset_of_base? compiled extended
  obtain ⟨ps, enumerated, rows, count, last⟩ := counts_of_trait? compiledBase isTrait few
  obtain rfl : ps = qs := Except.ok.inj (enumerated.symm.trans counted)
  rw [count, last, offset, Handle.toNat_offset (by omega)]
  exact ⟨rfl, rfl⟩

/-- In an accepted schema a trait without a base has the offset 2 and names no base. The base of
any other trait is among the compiled units, the offset of the trait is the first handle past those
of the base, and the trait names the base as the tables of the base do. -/
theorem compile_extensionOffset (reachable : s.Reachable) (accepted : s.compile options = .ok ts)
    (few : ∀ tables ∈ ts, tables.rows.length < 2 ^ 32 - 2) (isTrait : s.trait? derived = some t) :
    ∃ own ∈ ts, s.compileUnit options derived = .ok own ∧
      (t.base = none → own.extensionOffset = 2 ∧ own.base = none) ∧
      ∀ base, t.base = some base →
        ∃ inherited ∈ ts, base ∈ s.roots ∧ s.compileUnit options base = .ok inherited ∧
          own.extensionOffset.toNat = inherited.handleCount.toNat + 2 ∧
          inherited.handleCount.toNat + 2 = inherited.lastHandle.toNat + 1 ∧
          inherited.handleCount.toNat = inherited.rows.length ∧
          own.base = some inherited.unit := by
  have orderly := reachable.orderly
  obtain ⟨own, hown, compiled⟩ := orderly.tables_of_trait? accepted isTrait
  have named := (versions_of_trait? compiled isTrait).2
  refine ⟨own, hown, compiled, fun alone => ?_, fun base hbase => ?_⟩
  · exact ⟨extensionOffset_of_base?_eq_none compiled isTrait alone, by simp [named, alone]⟩
  · have extended : s.base? derived = some base := by simp [base?, isTrait, hbase]
    obtain ⟨b, -, isBase, -⟩ := extensionOffset_of_base? compiled extended
    obtain ⟨inherited, hinherited, compiledBase⟩ := orderly.tables_of_trait? accepted isBase
    have fewBase := few inherited hinherited
    obtain ⟨offset, last⟩ := extensionOffset_eq_handleCount compiled compiledBase extended fewBase
    obtain ⟨ps, -, rows, count, -⟩ := counts_of_trait? compiledBase isBase fewBase
    refine ⟨inherited, hinherited, orderly.mem_roots_of_trait? isBase, compiledBase, offset,
      by omega, by omega, ?_⟩
    simp [named, hbase, unit_of_compileUnit compiledBase]

/-- A trait that extends one declared after it, whose map has a value. -/
def valveSchema : Schema := Schema.empty.run [
  .declare "weave.trait.example" "TimedValveTrait" (.trait 2574),
  .declare "weave.trait.example" "ValveTrait" (.trait 2575),
  .attach 1 "position" (.field 1 {}),
  .attach 1 "zones" (.field 2 {}),
  .attach 3 "zone" (.mapValue {}),
  .attach 0 "position" (.field 1 {}),
  .attach 0 "zones" (.field 2 {}),
  .attach 6 "zone" (.mapValue {}),
  .attach 0 "seconds" (.field 3 {}),
  .set 0 (.base 1)]

theorem valveSchema_extensionOffset :
    ∃ ts t, valveSchema.Reachable ∧ valveSchema.compile {} = .ok ts ∧
      (∀ tables ∈ ts, tables.rows.length < 2 ^ 32 - 2) ∧ valveSchema.trait? 0 = some t ∧
      t.base = some 1 ∧ ∃ own ∈ ts, ∃ inherited ∈ ts, inherited.rows.length = 3 ∧
        own.extensionOffset.toNat = inherited.handleCount.toNat + 2 ∧
        own.base = some inherited.unit := by
  have reachable : valveSchema.Reachable := .run .empty _
  have counts : (valveSchema.compile {}).toOption.map
      (List.map fun tables => tables.rows.length) = some [4, 3] := by decide +kernel
  obtain ⟨ts, accepted, counted⟩ := Option.map_eq_some_iff.1 counts
  rw [toOption_eq_some] at accepted
  have few : ∀ tables ∈ ts, tables.rows.length < 2 ^ 32 - 2 :=
    rows_length_lt_of_counts counted (by decide)
  have bases : (valveSchema.trait? 0).map Trait.base = some (some 1) := by decide +kernel
  obtain ⟨t, isTrait, extended⟩ := Option.map_eq_some_iff.1 bases
  obtain ⟨own, hown, -, -, each⟩ := compile_extensionOffset reachable accepted few isTrait
  obtain ⟨inherited, hinherited, -, compiledBase, offset, -, -, named⟩ := each 1 extended
  have count : (valveSchema.compileUnit {} 1).toOption.map (·.rows.length) = some 3 := by
    decide +kernel
  rw [toOption_eq_some.2 compiledBase, Option.map_some, Option.some.injEq] at count
  exact ⟨ts, t, reachable, accepted, few, isTrait, extended, own, hown, inherited, hinherited,
    count, offset, named⟩

end PropertyTables.Schema
