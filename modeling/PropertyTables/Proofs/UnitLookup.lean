import PropertyTables.CommandLine.Respond
import PropertyTables.Proofs.Forest
import PropertyTables.Proofs.SchemaTables

/-!
# Units by name

One unit of a schema is asked for by its full name, and the first root of that name is taken. Roots
may share a full name: among siblings inside a unit names are kept apart, but not among roots. Where
units share one, the tables of the first stand for all of them. Well-known structs, which are passed
over when a schema is compiled as a whole, are not passed over in the search and hide the units of
their name that come later.

## Main definitions

* `Schema.FirstNamed`: the root that a full name stands for.
* `Schema.Hidden`: a full name for which a well-known struct is found.
-/

namespace PropertyTables

theorem TopLevel.label_of_kind (top : TopLevel) (qualifier : String) :
    (top.kind qualifier).label ∈ ["trait", "typespace", "struct", "enum"] := by
  cases top <;> simp [kind, Kind.label]

namespace Schema

open CommandLine (findUnit)

variable {s : Schema} {options : Options} {ts : List Tables} {t : Tables} {id : NodeId}
  {name : String} {allowed : Edit → Prop}

/-- The earliest root with a full name. -/
structure FirstNamed (s : Schema) (name : String) (id : NodeId) : Prop where
  place : ∃ before after, s.roots = before ++ id :: after ∧
    ∀ other ∈ before, s.fullName other ≠ name
  fullName : s.fullName id = name

def IsStandard (s : Schema) (id : NodeId) : Prop :=
  ∃ t, s.kind? id = some (.struct t) ∧ t.isStandard

/-- A full name for which a well-known struct is found. -/
def Hidden (s : Schema) (name : String) : Prop := ∃ id, s.FirstNamed name id ∧ s.IsStandard id

/-! ## The search -/

theorem firstNamed_iff :
    s.FirstNamed name id ↔ s.roots.find? (s.fullName · = name) = some id := by
  rw [List.find?_eq_some_iff_append]
  constructor
  · rintro ⟨⟨before, after, split, others⟩, named⟩
    exact ⟨by simpa using named, before, after, split, by simpa using others⟩
  · rintro ⟨named, before, after, split, others⟩
    exact ⟨⟨before, after, split, by simpa using others⟩, by simpa using named⟩

theorem findUnit_of_firstNamed (first : s.FirstNamed name id) (input : String) :
    findUnit s input name = .ok id := by
  rw [findUnit, firstNamed_iff.1 first]

namespace FirstNamed

theorem mem_roots (first : s.FirstNamed name id) : id ∈ s.roots := by
  obtain ⟨before, after, split, -⟩ := first.place
  simp [split]

/-- The first of the roots is also the first of those that are kept. -/
theorem find?_filter {p : NodeId → Bool} (first : s.FirstNamed name id) (kept : p id) :
    (s.roots.filter p).find? (s.fullName · = name) = some id := by
  obtain ⟨before, after, split, others⟩ := first.place
  rw [List.find?_eq_some_iff_append]
  refine ⟨by simpa using first.fullName, before.filter p, after.filter p, ?_, ?_⟩
  · rw [split, List.filter_append, List.filter_cons_of_pos kept]
  · intro other listed
    simpa using others other (List.mem_of_mem_filter listed)

theorem unique {other : NodeId} (first : s.FirstNamed name id) (again : s.FirstNamed name other) :
    id = other :=
  Option.some.inj ((firstNamed_iff.1 first).symm.trans (firstNamed_iff.1 again))

end FirstNamed

theorem exists_firstNamed (root : id ∈ s.roots) : ∃ first, s.FirstNamed (s.fullName id) first := by
  have found : (s.roots.find? (s.fullName · = s.fullName id)).isSome :=
    List.find?_isSome.2 ⟨id, root, by simp⟩
  obtain ⟨first, found⟩ := Option.isSome_iff_exists.1 found
  exact ⟨first, firstNamed_iff.2 found⟩

/-! ## Roots that are no units -/

/-- Every edit keeps that what is at the top is of a sort that can be declared there. -/
theorem GrownBy.label_of_top (grown : GrownBy allowed s) {label : String}
    (found : s.kindLabel? id = some label) (top : s.parent? id = none) :
    label ∈ ["trait", "typespace", "struct", "enum"] := by
  induction grown generalizing id label with
  | empty => cases found
  | @edit s t edit before sort accepted ih =>
    cases edit with
    | declare qualifier name new =>
      cases accepted
      have declared := declared_declare s qualifier name new
      rw [declared.kindLabel?] at found
      rw [declared.parent?] at top
      split at found
      · exact Option.some.inj found ▸ TopLevel.label_of_kind new qualifier
      · exact ih found (by simpa [*] using top)
    | attach parent name member =>
      have attached := attached_of_attach accepted
      rw [attached.kindLabel?] at found
      rw [attached.parent?] at top
      split at found
      · simp [*] at top
      · exact ih found (by simpa [*] using top)
    | set target setting =>
      have configured := configured_of_set accepted
      exact ih (configured.kindLabel? id ▸ found) (configured.parent? id ▸ top)

/-- The roots that are no units are the well-known structs. -/
theorem GrownBy.classify_eq_none (grown : GrownBy allowed s) (root : id ∈ s.roots) :
    s.classify id = none ↔ s.IsStandard id := by
  obtain ⟨inside, top⟩ := (mem_roots grown.orderly).1 root
  obtain ⟨node, found⟩ : ∃ node, s.node? id = some node :=
    ⟨_, Array.getElem?_eq_getElem inside⟩
  have labelled : s.kindLabel? id = some node.kind.label := by simp [kindLabel?, kind?, found]
  have label := grown.label_of_top labelled top
  have noParent : node.parent = none := by simpa [parent?, found] using top
  simp only [classify, IsStandard, kind?, found, noParent]
  cases hkind : node.kind <;> simp_all [Kind.label]

theorem compileUnit_of_isStandard (standard : s.IsStandard id)
    (valid : options.validate = .ok ()) :
    s.compileUnit options id =
      .error (.integrity (s.fullName id) (s.name id) (.nestedUnit "struct")) := by
  obtain ⟨t, isStruct, isStandard⟩ := standard
  obtain ⟨node, found, hkind⟩ := Option.map_eq_some_iff.1 isStruct
  have notUnit : s.classify id = none := by simp [classify, found, hkind, isStandard]
  rw [compileUnit, valid, ok_bind, node_eq_ok.2 found, ok_bind, notUnit]
  simp [name, found, hkind, Kind.label]

/-! ## Units -/

/-- Every table comes from a unit of its name. -/
theorem exists_root_of_mem_tables (compiled : s.compile options = .ok ts) (h : t ∈ ts) :
    ∃ id ∈ s.roots, s.fullName id = t.unit ∧ s.compileUnit options id = .ok t := by
  obtain ⟨id, listed, made⟩ := exists_of_forall₂ (compile_eq_ok compiled).2.flip h
  exact ⟨id, List.mem_of_mem_filter listed, (unit_of_compileUnit made).1.symm, made⟩

/-- The first root of a name, if it is a unit, gives the first table of that name. -/
theorem FirstNamed.exists_tables (first : s.FirstNamed name id) (unit : (s.classify id).isSome)
    (compiled : s.compile options = .ok ts) :
    ∃ t, ts.find? (·.unit = name) = some t ∧ s.compileUnit options id = .ok t :=
  exists_find?_of_forall₂ (compile_eq_ok compiled).2
    (fun id t made => by simp [(unit_of_compileUnit made).1]) (first.find?_filter unit)

section

variable (grown : GrownBy allowed s) (compiled : s.compile options = .ok ts)

include grown compiled

/-- What the name of a table leads to. -/
theorem GrownBy.findUnit_outcome (h : t ∈ ts) (input : String) :
    (¬ s.Hidden t.unit ∧ ∃ t', ts.find? (·.unit = t.unit) = some t' ∧
      (findUnit s input t.unit >>= s.compileUnit options) = .ok t') ∨
    ∃ id, s.FirstNamed t.unit id ∧ s.IsStandard id ∧
      (findUnit s input t.unit >>= s.compileUnit options) =
        .error (.integrity t.unit (s.name id) (.nestedUnit "struct")) := by
  obtain ⟨root, listed, named, made⟩ := exists_root_of_mem_tables compiled h
  -- The root that is found may be another one than the table comes from.
  obtain ⟨id, first⟩ := exists_firstNamed listed
  rw [named] at first
  rw [findUnit_of_firstNamed first, ok_bind]
  have sort := grown.classify_eq_none first.mem_roots
  cases unit : s.classify id with
  | none =>
    obtain ⟨-, -, -, -, -, valid, -⟩ := compileUnit_eq_ok.1 made
    have refused := compileUnit_of_isStandard (sort.1 unit) valid
    rw [first.fullName] at refused
    exact .inr ⟨id, first, sort.1 unit, refused⟩
  | some kind =>
    refine .inl ⟨?_, first.exists_tables (by simp [unit]) compiled⟩
    rintro ⟨other, firstOther, standard⟩
    obtain rfl := first.unique firstOther
    simp [sort.2 standard] at unit

theorem GrownBy.findUnit_iff (input : String) :
    (∀ t ∈ ts, (findUnit s input t.unit >>= s.compileUnit options) = .ok t) ↔
      (∀ t ∈ ts, ¬ s.Hidden t.unit) ∧ ∀ t ∈ ts, ∀ t' ∈ ts, t'.unit = t.unit → t' = t := by
  constructor
  · refine fun found => ⟨fun t h => ?_, fun t h t' h' same => ?_⟩
    · rcases grown.findUnit_outcome compiled h input with ⟨clear, -⟩ | ⟨id, -, -, refused⟩
      · exact clear
      · cases (found t h).symm.trans refused
    · have foundAgain := found t' h'
      rw [same, found t h] at foundAgain
      exact (Except.ok.inj foundAgain).symm
  · rintro ⟨clear, alike⟩ t h
    rcases grown.findUnit_outcome compiled h input with
      ⟨-, t', first, found⟩ | ⟨id, first, standard, -⟩
    · have same : t'.unit = t.unit := by simpa using List.find?_some first
      rw [found, alike t h t' (List.mem_of_find?_eq_some first) same]
    · exact absurd ⟨id, first, standard⟩ (clear t h)

/-- Roots with names of their own hide nothing, and no two of them give tables of one name. -/
theorem GrownBy.tables_of_nodup (distinct : (s.roots.map s.fullName).Nodup) :
    (∀ t ∈ ts, ¬ s.Hidden t.unit) ∧ ∀ t ∈ ts, ∀ t' ∈ ts, t'.unit = t.unit → t' = t := by
  refine ⟨fun t h => ?_, fun t h t' h' same => ?_⟩
  · rintro ⟨other, first, standard⟩
    obtain ⟨id, root, named, made⟩ := exists_root_of_mem_tables compiled h
    obtain rfl : other = id := List.inj_on_of_nodup_map distinct first.mem_roots root
      (first.fullName.trans named.symm)
    have noUnit := (grown.classify_eq_none root).2 standard
    simp [(unit_of_compileUnit made).2] at noUnit
  · obtain ⟨id, root, named, made⟩ := exists_root_of_mem_tables compiled h
    obtain ⟨id', root', named', made'⟩ := exists_root_of_mem_tables compiled h'
    obtain rfl : id' = id := List.inj_on_of_nodup_map distinct root' root
      (named'.trans (same.trans named.symm))
    exact Except.ok.inj (made'.symm.trans made)

end

/-- When a document is accepted, the name of a table leads to the first table of that name, unless
it is hidden, when it leads to an error. So every table is found by its name if and only if no name
is hidden and the units of one name have the same tables. It is enough that roots have distinct full
names. -/
theorem findUnit_agrees {d : Document} (loaded : d.toSchema = .ok s)
    (compiled : s.compile options = .ok ts) (input : String) :
    (∀ t ∈ ts,
      (¬ s.Hidden t.unit ∧ ∃ t', ts.find? (·.unit = t.unit) = some t' ∧
        (findUnit s input t.unit >>= s.compileUnit options) = .ok t') ∨
      ∃ id, s.FirstNamed t.unit id ∧ s.IsStandard id ∧
        (findUnit s input t.unit >>= s.compileUnit options) =
          .error (.integrity t.unit (s.name id) (.nestedUnit "struct"))) ∧
    ((∀ t ∈ ts, (findUnit s input t.unit >>= s.compileUnit options) = .ok t) ↔
      (∀ t ∈ ts, ¬ s.Hidden t.unit) ∧ ∀ t ∈ ts, ∀ t' ∈ ts, t'.unit = t.unit → t' = t) ∧
    ((s.roots.map s.fullName).Nodup →
      ∀ t ∈ ts, (findUnit s input t.unit >>= s.compileUnit options) = .ok t) := by
  have grown : GrownPlain s := .toSchema loaded
  have agree := grown.findUnit_iff compiled input
  exact ⟨fun t h => grown.findUnit_outcome compiled h input, agree,
    fun distinct => agree.2 (grown.tables_of_nodup compiled distinct)⟩

/-- Two structs, of which one is well-known, and an enum. -/
def meterDocument : Document where
  structs := [
    { name := "weave.common.Unit", number := 1, isStandard := true },
    { name := "weave.common.Meter", number := 2, fields := [{ name := "total", number := 1 }] }]
  enums := [{ name := "weave.common.Phase", number := 1 }]

theorem meterDocument_agrees :
    ∃ s ts, meterDocument.toSchema = .ok s ∧ s.compile {} = .ok ts ∧
      ts.map Tables.unit = ["weave.common.Meter", "weave.common.Phase"] ∧
      ∀ t ∈ ts, (findUnit s "meter.json" t.unit >>= s.compileUnit {}) = .ok t := by
  have made : meterDocument.toSchema.toOption.map (fun s =>
      ((s.compile {}).toOption.map (List.map Tables.unit), s.roots.map s.fullName)) =
      some (some ["weave.common.Meter", "weave.common.Phase"],
        ["weave.common.Unit", "weave.common.Meter", "weave.common.Phase"]) := by
    simp only [Document.toSchema, meterDocument, addTraits, addTopStruct, addTopEnum,
      List.foldlM_cons, List.foldlM_nil, addFields]
    decide +kernel
  obtain ⟨s, loaded, facts⟩ := Option.map_eq_some_iff.1 made
  obtain ⟨units, names⟩ := Prod.mk.inj facts
  obtain ⟨ts, compiled, units⟩ := Option.map_eq_some_iff.1 units
  rw [toOption_eq_some] at loaded compiled
  obtain ⟨-, -, agree⟩ := findUnit_agrees loaded compiled "meter.json"
  exact ⟨s, ts, loaded, compiled, units, agree (by rw [names]; decide +kernel)⟩

/-- A well-known struct in front of a struct of the same name. -/
def levelDocument : Document where
  structs := [
    { name := "weave.common.Level", number := 1, isStandard := true,
      fields := [{ name := "raw", number := 1 }] },
    { name := "weave.common.Level", number := 2, fields := [{ name := "percent", number := 1 }] }]

/-- The struct is compiled with its schema, and by its name it is refused. -/
theorem levelDocument_hidden :
    ∃ s ts, levelDocument.toSchema = .ok s ∧ s.compile {} = .ok ts ∧
      ts.map Tables.unit = ["weave.common.Level"] ∧
      (findUnit s "s.json" "weave.common.Level" >>= s.compileUnit {}) =
        .error (.integrity "weave.common.Level" "Level" (.nestedUnit "struct")) := by
  have made : levelDocument.toSchema.toOption.map (fun s =>
      ((s.compile {}).toOption.map (List.map Tables.unit),
        findUnit s "s.json" "weave.common.Level" >>= s.compileUnit {})) =
      some (some ["weave.common.Level"],
        .error (.integrity "weave.common.Level" "Level" (.nestedUnit "struct"))) := by
    simp only [Document.toSchema, levelDocument, addTraits, addTopStruct, List.foldlM_cons,
      List.foldlM_nil, addFields]
    decide +kernel
  obtain ⟨s, loaded, facts⟩ := Option.map_eq_some_iff.1 made
  obtain ⟨units, refused⟩ := Prod.mk.inj facts
  obtain ⟨ts, compiled, units⟩ := Option.map_eq_some_iff.1 units
  exact ⟨s, ts, toOption_eq_some.1 loaded, toOption_eq_some.1 compiled, units, refused⟩

end Schema

end PropertyTables
