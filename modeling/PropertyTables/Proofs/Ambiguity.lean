import PropertyTables.Proofs.HandleTable
import PropertyTables.Proofs.OwnedFields

/-!
# Symbols that are taken twice

A table is filled from a list, one member after the other, and stops at the first member whose
symbol is taken. The handle table of a unit has no other way to fail where listed children belong to
what lists them: all fields of a path are inside the unit then, and the enclosing path is found.

## Main definitions

* `Clash`: the members of a list that an ambiguity is about.
-/

namespace PropertyTables

section

variable {α : Type} {symbol : α → String} {xs : List α} {first second : α}

/-- `second` is the earliest member of a list whose symbol was taken before it, by `first`. -/
structure Clash (symbol : α → String) (xs : List α) (first second : α) : Prop where
  place : ∃ before after, xs = before ++ second :: after ∧ (before.map symbol).Nodup ∧
    first ∈ before
  same : symbol first = symbol second

theorem Clash.append (clash : Clash symbol xs first second) (ys : List α) :
    Clash symbol (xs ++ ys) first second := by
  obtain ⟨⟨before, after, rfl, distinct, earlier⟩, same⟩ := clash
  exact ⟨⟨before, after ++ ys, by simp, distinct, earlier⟩, same⟩

theorem Clash.not_nodup (clash : Clash symbol xs first second) : ¬ (xs.map symbol).Nodup := by
  obtain ⟨⟨before, after, rfl, -, earlier⟩, same⟩ := clash
  intro distinct
  rw [List.map_append, List.nodup_append] at distinct
  exact distinct.2.2 _ (List.mem_map_of_mem earlier) _ List.mem_cons_self same

/-- No beginning with distinct symbols reaches past the second member of a clash. -/
theorem length_le_of_clash {before after start rest : List α} (earlier : first ∈ before)
    (same : symbol first = symbol second) (split : before ++ second :: after = start ++ rest)
    (distinct : (start.map symbol).Nodup) : start.length ≤ before.length := by
  by_contra longer
  have inside : before ++ [second] <+: start :=
    List.prefix_of_prefix_length_le ⟨after, by simp⟩ ⟨rest, split.symm⟩ (by simp; omega)
  have distinct := distinct.sublist (inside.sublist.map symbol)
  rw [List.map_append, List.nodup_append] at distinct
  exact distinct.2.2 _ (List.mem_map_of_mem earlier) _ List.mem_cons_self same

/-- There is one earliest member whose symbol was taken, and one member that took it. -/
theorem Clash.unique {first' second' : α} (clash : Clash symbol xs first second)
    (clash' : Clash symbol xs first' second') : first = first' ∧ second = second' := by
  obtain ⟨⟨before, after, rfl, distinct, earlier⟩, same⟩ := clash
  obtain ⟨⟨before', after', split, distinct', earlier'⟩, same'⟩ := clash'
  have length : before.length = before'.length :=
    Nat.le_antisymm (length_le_of_clash earlier' same' split.symm distinct)
      (length_le_of_clash earlier same split distinct')
  obtain ⟨rfl, rest⟩ := List.append_inj split length
  obtain ⟨rfl, -⟩ := List.cons_eq_cons.1 rest
  exact ⟨List.inj_on_of_nodup_map distinct earlier earlier' (same.trans same'.symm), rfl⟩

/-- A clash in one of two lists that correspond is one in the other. -/
theorem Clash.of_forall₂ {β : Type} {R : β → α → Prop} {symbol' : β → String} {ys : List β}
    (clash : Clash symbol xs first second) (related : List.Forall₂ R ys xs)
    (agree : ∀ y x, R y x → symbol' y = symbol x) :
    ∃ first' second', Clash symbol' ys first' second' ∧ R first' first ∧ R second' second := by
  obtain ⟨⟨before, after, rfl, distinct, earlier⟩, same⟩ := clash
  have relatedBefore := List.forall₂_take_append ys before (second :: after) related
  obtain ⟨second', after', relatedSecond, -, rest⟩ :=
    List.forall₂_cons_right_iff.1 (List.forall₂_drop_append ys before (second :: after) related)
  obtain ⟨first', earlier', relatedFirst⟩ := exists_of_forall₂ relatedBefore.flip earlier
  refine ⟨first', second', ⟨⟨_, after', ?_, ?_, earlier'⟩, ?_⟩, relatedFirst, relatedSecond⟩
  · rw [← rest, List.take_append_drop]
  · rwa [map_eq_of_forall₂ relatedBefore agree]
  · rw [agree _ _ relatedFirst, agree _ _ relatedSecond, same]

/-- Behind members with distinct symbols, a member is new or clashes with one of them. -/
theorem nodup_concat_iff (distinct : (xs.map symbol).Nodup) :
    ((xs ++ [second]).map symbol).Nodup ↔ ∀ x ∈ xs, symbol x ≠ symbol second := by
  rw [List.map_append, List.nodup_append]
  simp [distinct]

end

namespace Schema

variable {s : Schema} {unit : NodeId} {top : List NodeId} {done : List Entry} {ps : List Path}
  {path : Path}

def pathSymbol (s : Schema) (p : Path) : String := s.symbol p.fields

/-- The error about two paths of a unit with the same symbol. -/
def ambiguousPaths (s : Schema) (unit : NodeId) (first second : Path) : Error :=
  .ambiguous (s.fullName unit) (s.pathSymbol second) (s.dotted first.fields)
    (s.dotted second.fields)

/-- Inside its unit, and with its enclosing path done, a path only fails on a symbol that is
taken. -/
theorem entry_outcome (inside : ∀ id ∈ path.fields, s.isWithin id unit)
    (sound : ∀ d ∈ done, d.symbol = s.pathSymbol d.path)
    (enclosed : path.enclosing = [] ∨ ∃ d ∈ done, d.path.fields = path.enclosing) :
    (∃ e, s.entry unit done path = .ok e) ∨
      ∃ d ∈ done, s.pathSymbol d.path = s.pathSymbol path ∧
        s.entry unit done path = .error (s.ambiguousPaths unit d.path path) := by
  cases taken : done.find? (·.symbol = s.symbol path.fields) with
  | some d =>
    right
    have listed := List.mem_of_find?_eq_some taken
    have same : d.symbol = s.symbol path.fields := by simpa using List.find?_some taken
    have within : path.fields.find? (fun field => !s.isWithin field unit) = none := by
      simpa using inside
    refine ⟨d, listed, (sound d listed).symm.trans same, ?_⟩
    simp only [entry, within, taken]
    rfl
  | none =>
    left
    have fresh : ∀ d ∈ done, d.symbol ≠ s.symbol path.fields := by
      simpa using List.find?_eq_none.1 taken
    by_cases atTop : path.enclosing = []
    · exact ⟨_, entry_eq_ok.2 ⟨inside, fresh, .inl ⟨atTop, rfl⟩⟩⟩
    · obtain ⟨d, listed, isEnclosing⟩ := enclosed.resolve_left atTop
      have found : (done.findIdx? (·.symbol = s.symbol path.enclosing)).isSome := by
        rw [List.findIdx?_isSome, List.any_eq_true]
        exact ⟨d, listed, by simp [sound d listed, pathSymbol, isEnclosing]⟩
      obtain ⟨j, hj⟩ := Option.isSome_iff_exists.1 found
      exact ⟨_, entry_eq_ok.2 ⟨inside, fresh, .inr ⟨atTop, j, hj, rfl⟩⟩⟩

/-- The entries of a list of paths are made one after the other, up to a first clash. -/
theorem entries_outcome (inside : ∀ p ∈ ps, ∀ id ∈ p.fields, s.isWithin id unit)
    (sound : ∀ d ∈ done, d.symbol = s.pathSymbol d.path)
    (enclosed : ∀ i p, ps[i]? = some p → p.enclosing = [] ∨
      ∃ q ∈ done.map Entry.path ++ ps.take i, q.fields = p.enclosing)
    (distinct : ((done.map Entry.path).map s.pathSymbol).Nodup) :
    (∃ es, s.entries unit done ps = .ok es ∧
      ((done.map Entry.path ++ ps).map s.pathSymbol).Nodup) ∨
    ∃ p q, Clash s.pathSymbol (done.map Entry.path ++ ps) p q ∧
      s.entries unit done ps = .error (s.ambiguousPaths unit p q) := by
  induction ps generalizing done with
  | nil => exact .inl ⟨done, rfl, by simpa using distinct⟩
  | cons path ps ih =>
    rw [List.forall_mem_cons] at inside
    have enclosing : path.enclosing = [] ∨ ∃ d ∈ done, d.path.fields = path.enclosing := by
      simpa using enclosed 0 path rfl
    rcases entry_outcome inside.1 sound enclosing with ⟨e, made⟩ | ⟨d, listed, same, failed⟩
    · have hpath := path_of_entry made
      have hsymbol : e.symbol = s.pathSymbol e.path := by
        rw [symbol_of_entry made, hpath, pathSymbol]
      have fresh := (entry_eq_ok.1 made).2.1
      have soundNext : ∀ d ∈ done ++ [e], d.symbol = s.pathSymbol d.path := by
        intro d hd
        rcases List.mem_append.1 hd with hd | hd
        · exact sound d hd
        · rw [List.mem_singleton.1 hd, hsymbol]
      have enclosedNext : ∀ i p, ps[i]? = some p → p.enclosing = [] ∨
          ∃ q ∈ (done ++ [e]).map Entry.path ++ ps.take i, q.fields = p.enclosing := by
        intro i p hp
        simpa [hpath] using enclosed (i + 1) p hp
      have distinctNext : (((done ++ [e]).map Entry.path).map s.pathSymbol).Nodup := by
        rw [List.map_append, List.map_singleton, nodup_concat_iff distinct]
        intro q hq
        obtain ⟨d, hd, rfl⟩ := List.mem_map.1 hq
        rw [← sound d hd, hpath]
        exact fresh d hd
      have step : s.entries unit done (path :: ps) = s.entries unit (done ++ [e]) ps := by
        rw [entries, made]
        rfl
      rw [step]
      simpa [hpath] using ih inside.2 soundNext enclosedNext distinctNext
    · refine .inr ⟨d.path, path, ⟨⟨_, ps, rfl, distinct, List.mem_map_of_mem listed⟩, same⟩, ?_⟩
      rw [entries, failed]
      rfl

theorem entries_nil_outcome (inside : ∀ p ∈ ps, ∀ id ∈ p.fields, s.isWithin id unit)
    (enclosed : ∀ i p, ps[i]? = some p → p.enclosing = [] ∨
      ∃ q ∈ ps.take i, q.fields = p.enclosing) :
    (∃ es, s.entries unit [] ps = .ok es ∧ (ps.map s.pathSymbol).Nodup) ∨
      ∃ p q, Clash s.pathSymbol ps p q ∧
        s.entries unit [] ps = .error (s.ambiguousPaths unit p q) :=
  @entries_outcome s unit [] ps inside (by simp) enclosed (by simp)

/-- Among the paths of a unit the enclosing path of each is before it, or it has none. -/
theorem enclosed_take (enumerated : s.paths unit = .ok ps) (i : Nat) (p : Path)
    (hp : ps[i]? = some p) : p.enclosing = [] ∨ ∃ q ∈ ps.take i, q.fields = p.enclosing := by
  by_cases nested : p.enclosing = []
  · exact .inl nested
  · obtain ⟨j, q, hj, hq, henclosing⟩ := enclosing_before enumerated hp nested
    refine .inr ⟨q, List.mem_iff_getElem?.2 ⟨j, ?_⟩, henclosing⟩
    rw [List.getElem?_take_of_lt hj, hq]

/-- The handle table of a unit can be made exactly when the symbols of its paths are distinct. -/
theorem handleTable_outcome (rooted : s.Rooted unit top) (starts : s.StartsFrom unit top)
    (enumerated : s.paths unit = .ok ps) :
    (∃ table, s.handleTable unit = .ok table ∧ (ps.map s.pathSymbol).Nodup) ∨
      ∃ p q, Clash s.pathSymbol ps p q ∧
        s.handleTable unit = .error (s.ambiguousPaths unit p q) := by
  have inside : ∀ p ∈ ps, ∀ id ∈ p.fields, s.isWithin id unit := by
    intro p hp
    exact rooted.isWithin (leads_of_mem_paths enumerated starts.topFields_eq hp)
  rw [handleTable, enumerated]
  rcases entries_nil_outcome inside (enclosed_take enumerated) with
    ⟨es, made, distinct⟩ | ⟨p, q, clash, failed⟩
  · exact .inl ⟨⟨es⟩, by simp [made], distinct⟩
  · exact .inr ⟨p, q, clash, by simp [failed, bind, Except.bind]⟩

end Schema

end PropertyTables
