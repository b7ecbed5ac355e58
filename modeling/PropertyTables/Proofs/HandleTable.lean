import PropertyTables.HandleTable
import PropertyTables.Proofs.PathOrder

/-!
# Lookup of the enclosing path

A handle table finds the entry of the enclosing path by its symbol. Since the symbols of a table
are distinct and an enclosing path comes before those inside it, the lookup finds the true
enclosing path.
-/

namespace PropertyTables

namespace Schema

variable {s : Schema} {unit : NodeId} {done es : List Entry} {ps : List Path} {path : Path}
  {e d : Entry} {t : HandleTable} {i j : Nat}

/-- An entry is made of a path inside the unit whose symbol is new. Its parent is the first earlier
entry with the symbol of the enclosing path. -/
theorem entry_eq_ok : s.entry unit done path = .ok e ↔
    (∀ id ∈ path.fields, s.isWithin id unit) ∧
    (∀ d ∈ done, d.symbol ≠ s.symbol path.fields) ∧
    ((path.enclosing = [] ∧ ⟨path, s.symbol path.fields, none⟩ = e) ∨
      (path.enclosing ≠ [] ∧ ∃ j, done.findIdx? (·.symbol = s.symbol path.enclosing) = some j ∧
        ⟨path, s.symbol path.fields, some j⟩ = e)) := by
  unfold entry
  cases outside : path.fields.find? fun field => !s.isWithin field unit with
  | some field =>
    simp only [reduceCtorEq, false_iff]
    rintro ⟨inside, -⟩
    simpa [inside field (List.mem_of_find?_eq_some outside)] using List.find?_some outside
  | none =>
    simp only [List.find?_eq_none, Bool.not_eq_true', Bool.not_eq_false] at outside
    cases clash : done.find? (·.symbol = s.symbol path.fields) with
    | some earlier =>
      simp only [clash, reduceCtorEq, false_iff]
      rintro ⟨-, fresh, -⟩
      exact fresh earlier (List.mem_of_find?_eq_some clash) (by simpa using List.find?_some clash)
    | none =>
      simp only [clash]
      simp only [List.find?_eq_none, decide_eq_true_eq] at clash
      rw [and_iff_right outside, and_iff_right clash]
      cases lookup : done.findIdx? (·.symbol = s.symbol path.enclosing) <;>
        by_cases top : path.enclosing = [] <;> simp [top]

theorem path_of_entry (h : s.entry unit done path = .ok e) : e.path = path := by
  obtain ⟨-, -, ⟨-, rfl⟩ | ⟨-, j, -, rfl⟩⟩ := entry_eq_ok.1 h <;> rfl

theorem symbol_of_entry (h : s.entry unit done path = .ok e) : e.symbol = s.symbol path.fields := by
  obtain ⟨-, -, ⟨-, rfl⟩ | ⟨-, j, -, rfl⟩⟩ := entry_eq_ok.1 h <;> rfl

/-- Every entry that is added is made from the entries before it. -/
theorem entries_eq_ok (h : s.entries unit done ps = .ok es) :
    ∃ added, es = done ++ added ∧ added.map Entry.path = ps ∧
      ∀ i e, added[i]? = some e → s.entry unit (done ++ added.take i) e.path = .ok e := by
  induction ps generalizing done with
  | nil =>
    obtain rfl : done = es := by simpa [entries] using h
    exact ⟨[], by simp, rfl, by simp⟩
  | cons path ps ih =>
    obtain ⟨first, made, rest⟩ := bind_eq_ok.1 h
    obtain ⟨added, rfl, rfl, each⟩ := ih rest
    have same := path_of_entry made
    refine ⟨first :: added, by simp, by simp [same], ?_⟩
    intro i e he
    cases i with
    | zero =>
      obtain rfl : first = e := by simpa using he
      simpa [same] using made
    | succ i => simpa using each i e (by simpa using he)

theorem handleTable_eq_ok (h : s.handleTable unit = .ok t) :
    s.paths unit = .ok t.paths ∧
      ∀ i e, t.entries[i]? = some e → s.entry unit (t.entries.take i) e.path = .ok e := by
  obtain ⟨ps, enumerated, h⟩ := bind_eq_ok.1 h
  obtain ⟨es, made, h⟩ := bind_eq_ok.1 h
  rw [pure_eq_ok] at h
  subst h
  obtain ⟨added, rfl, rfl, each⟩ := entries_eq_ok made
  exact ⟨enumerated, by simpa using each⟩

theorem symbol_of_handleTable (h : s.handleTable unit = .ok t) (he : t.entries[i]? = some e) :
    e.symbol = s.symbol e.path.fields :=
  symbol_of_entry ((handleTable_eq_ok h).2 i e he)

/-- The symbols of a table are distinct. -/
theorem eq_of_symbol_eq (h : s.handleTable unit = .ok t) (he : t.entries[i]? = some e)
    (hd : t.entries[j]? = some d) (same : e.symbol = d.symbol) : i = j := by
  have earlier : ∀ {i j : Nat} {e d : Entry}, i < j → t.entries[i]? = some e →
      t.entries[j]? = some d → e.symbol ≠ d.symbol := by
    intro i j e d hij he hd
    have made := (handleTable_eq_ok h).2 j d hd
    rw [symbol_of_entry made]
    refine (entry_eq_ok.1 made).2.1 e (List.mem_of_getElem? (i := i) ?_)
    rw [List.getElem?_take_of_lt hij, he]
  rcases Nat.lt_trichotomy i j with hij | hij | hij
  · exact absurd same (earlier hij he hd)
  · exact hij
  · exact absurd same.symm (earlier hij hd he)

theorem eq_of_path_eq (h : s.handleTable unit = .ok t) (he : t.entries[i]? = some e)
    (hd : t.entries[j]? = some d) (same : e.path = d.path) : i = j := by
  refine eq_of_symbol_eq h he hd ?_
  rw [symbol_of_handleTable h he, symbol_of_handleTable h hd, same]

/-- An entry has no parent exactly at the top; otherwise its parent is the earlier entry of the
path that encloses it. -/
theorem parent_of_handleTable (h : s.handleTable unit = .ok t) (he : t.entries[i]? = some e) :
    (e.path.enclosing = [] ∧ e.parent = none) ∨
      ∃ j d, j < i ∧ t.entries[j]? = some d ∧ d.path.fields = e.path.enclosing ∧
        e.parent = some j := by
  obtain ⟨enumerated, made⟩ := handleTable_eq_ok h
  obtain ⟨-, -, ⟨top, heq⟩ | ⟨nested, k, found, heq⟩⟩ := entry_eq_ok.1 (made i e he)
  · exact .inl ⟨top, congrArg Entry.parent heq.symm⟩
  · have listed : t.paths[i]? = some e.path := by simp [HandleTable.paths, he]
    obtain ⟨j, q, hj, hq, henclosing⟩ := enclosing_before enumerated listed nested
    obtain ⟨d, hd, rfl⟩ : ∃ d, t.entries[j]? = some d ∧ d.path = q := by
      simpa [HandleTable.paths] using hq
    -- The first entry with the symbol of the enclosing path is the only one.
    obtain ⟨hk, hsymbol, -⟩ := List.findIdx?_eq_some_iff_getElem.1 found
    have hk' : t.entries[k]? = some (t.entries.take i)[k] := by
      rw [← List.getElem?_take_of_lt (by simp at hk; omega : k < i), List.getElem?_eq_getElem hk]
    have same : j = k := by
      refine eq_of_symbol_eq h hd hk' ?_
      rw [symbol_of_handleTable h hd, henclosing]
      simpa using Eq.symm (of_decide_eq_true hsymbol)
    exact .inr ⟨j, d, hj, hd, henclosing, same ▸ congrArg Entry.parent heq.symm⟩

end Schema

/-! ## Rows -/

namespace HandleTable

variable {s : Schema} {t : HandleTable} {e : Entry} {i j : Nat} {r : Row}

@[simp] theorem length_paths (t : HandleTable) : t.paths.length = t.length := by
  simp [paths, length]

theorem rows_getElem? (s : Schema) (t : HandleTable) (i : Nat) :
    (t.rows s)[i]? = (t.entries[i]?).map (t.row s i) := by
  simp [rows]

@[simp] theorem length_rows (s : Schema) (t : HandleTable) : (t.rows s).length = t.length := by
  simp [rows, length]

theorem map_handle_rows (s : Schema) (t : HandleTable) :
    (t.rows s).map Row.handle = (List.range t.length).map Handle.ofIndex := by
  refine List.ext_getElem (by simp) fun i _ _ => ?_
  simp [rows, row]

theorem mem_rows : r ∈ t.rows s ↔ ∃ i e, t.entries[i]? = some e ∧ t.row s i e = r := by
  simp [List.mem_iff_getElem?, rows_getElem?]

theorem parentHandle_row_of_none (h : e.parent = none) : (t.row s i e).parentHandle = 1 := by
  simp [row, h, Handle.root]

theorem parentHandle_row_of_some (h : e.parent = some j) :
    (t.row s i e).parentHandle = Handle.ofIndex j := by
  simp [row, h]

end HandleTable

end PropertyTables
