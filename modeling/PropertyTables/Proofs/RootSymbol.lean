import PropertyTables.Proofs.Addressing
import PropertyTables.Proofs.Letters

/-!
# The symbol of the root

A row names its parent by a symbol, and the root has a symbol too. The symbols of paths are kept
apart, but nothing keeps them apart from that of the root. So a top-level field with the symbol of
the root makes the symbols ambiguous, and nothing else does. Only the names `root` and `Root` have
this symbol.

## Main definitions

* `Unambiguous`: symbols tell handles apart, the root included.
-/

namespace PropertyTables

/-! ## Names in camel case -/

namespace Text

variable {c d : Char} {cs rest word : List Char}

theorem not_isAlpha_ofNat {n : Nat} (h : 0x80 ≤ n) : ¬ (Char.ofNat n).isAlpha := by
  by_cases valid : n.isValidChar
  · have same : (Char.ofNat n).toNat = n := by
      rw [Char.ofNat, dif_pos valid]
      rfl
    rw [isAlpha_iff, same]
    omega
  · rw [Char.ofNat, dif_neg valid]
    decide

theorem eq_of_toUpper_eq_R (h : c.toUpper = 'R') : c = 'r' ∨ c = 'R' := by
  have image := toNat_toUpper c
  rw [h] at image
  rw [← Char.toNat_inj, ← Char.toNat_inj]
  simp at image ⊢
  grind [isLower_iff]

/-- The ASCII letters with which the upper case forms of other characters start. -/
def foreignCapitals : List Char := ['A', 'F', 'H', 'I', 'J', 'S', 'T', 'W', 'Y']

theorem upperExpansions_start : upperExpansions.toList.all fun (_, images) =>
    (images.map Char.ofNat).head?.any fun d => !d.isAlpha || d ∈ foreignCapitals := by
  decide +kernel

theorem upperRuns_target : upperRuns.toList.all fun run => 0x80 ≤ run.target ||
    run.first = run.last && Char.ofNat run.target ∈ foreignCapitals := by
  decide +kernel

theorem mapCase_upper_start (large : 0x80 ≤ c.toNat) :
    ∃ d rest, mapCase upperRuns upperExpansions c = d :: rest ∧
      (d.isAlpha → d ∈ foreignCapitals) := by
  unfold mapCase
  split
  · rename_i point images found
    have listed := List.all_eq_true.1 upperExpansions_start _
      (Array.mem_def.1 (Array.mem_of_find?_eq_some found))
    obtain ⟨d, start, letter⟩ := (Option.any_eq_true _ _).1 listed
    obtain ⟨rest, expanded⟩ := List.head?_eq_some_iff.1 start
    exact ⟨d, rest, expanded, by grind⟩
  · refine ⟨_, [], rfl, ?_⟩
    cases shifted : upperRuns.findSome? (·.image? c.toNat) with
    | none =>
      simp [isAlpha_iff]
      omega
    | some point =>
      obtain ⟨run, listed, image⟩ := Array.exists_of_findSome?_eq_some shifted
      have target := List.all_eq_true.1 upperRuns_target run (Array.mem_def.1 listed)
      simp only [Bool.or_eq_true, Bool.and_eq_true, decide_eq_true_eq] at target
      obtain ⟨⟨above, below, -⟩, image⟩ := Option.ite_none_right_eq_some.1 image
      obtain rfl := Option.some.inj image
      intro letter
      rcases target with large | ⟨single, capital⟩
      · exact absurd letter (not_isAlpha_ofNat (by omega))
      · rw [show c.toNat - run.first = 0 by omega]
        exact capital

theorem upper_cases (c : Char) :
    upper c = [c.toUpper] ∨ ∃ d rest, upper c = d :: rest ∧ (d.isAlpha → d ∈ foreignCapitals) := by
  unfold upper
  split
  · exact .inl rfl
  · exact .inr (mapCase_upper_start (by omega))

/-- Upper case forms do not start with a small letter. -/
theorem upper_start (c : Char) : ∃ d rest, upper c = d :: rest ∧ ¬ d.isLower := by
  rcases upper_cases c with ascii | ⟨d, rest, image, capital⟩
  · exact ⟨_, _, ascii, not_isLower_toUpper c⟩
  · refine ⟨d, rest, image, fun small => ?_⟩
    have capital := capital (isAlpha_iff.2 (.inr (isLower_iff.1 small)))
    have large : foreignCapitals.all (!·.isLower) := by decide
    simpa [small] using List.all_eq_true.1 large d capital

theorem eq_of_upper_eq_R (h : upper c = 'R' :: rest) : (c = 'r' ∨ c = 'R') ∧ rest = [] := by
  rcases upper_cases c with ascii | ⟨d, rest', image, capital⟩
  · obtain ⟨same, rfl⟩ := List.cons_eq_cons.1 (ascii.symm.trans h)
    exact ⟨eq_of_toUpper_eq_R same, rfl⟩
  · obtain ⟨rfl, -⟩ := List.cons_eq_cons.1 (image.symm.trans h)
    exact absurd (capital rfl) (by decide)

/-- A run of small letters comes from itself: whatever follows an underscore is in upper case. -/
theorem eq_of_camelizeRest_eq (h : camelizeRest cs = word) (small : ∀ d ∈ word, d.isLower) :
    cs = word := by
  fun_induction camelizeRest cs generalizing word with
  | case1 cs ih =>
    subst h
    exact absurd (small '_' List.mem_cons_self) (by decide)
  | case2 c cs _ ih =>
    subst h
    obtain ⟨d, rest, image, large⟩ := upper_start c
    exact absurd (small d (by simp [image])) large
  | case3 c cs _ ih =>
    subst h
    rw [List.forall_mem_cons] at small
    rw [← ih rfl small.2]
  | case4 => exact h

theorem camelize_eq_rootSymbol {name : String} :
    camelize name = Handle.rootSymbol ↔ name = "root" ∨ name = "Root" := by
  constructor
  · intro h
    have h : camelizeChars name.toList = ['R', 'o', 'o', 't'] := by
      simpa [camelize, Handle.rootSymbol] using congrArg String.toList h
    rw [← String.toList_inj, ← String.toList_inj]
    cases hname : name.toList with
    | nil => simp [hname, camelizeChars] at h
    | cons c cs =>
      rw [hname, camelizeChars] at h
      split at h
      · simp_all
      · obtain ⟨d, rest, image, -⟩ := upper_start c
        rw [image, List.cons_append] at h
        obtain ⟨rfl, tail⟩ := List.cons_eq_cons.1 h
        obtain ⟨first, rfl⟩ := eq_of_upper_eq_R image
        have others : cs = ['o', 'o', 't'] := eq_of_camelizeRest_eq tail (by simp)
        simpa [others] using first
  · rintro (rfl | rfl) <;> decide +kernel

end Text

/-! ## Rows and the symbols of their parents -/

/-- The symbols of rows tell handles apart, the root included. -/
structure Unambiguous (rows : List Row) : Prop where
  parents {r q : Row} : r ∈ rows → q ∈ rows →
    (r.parentSymbol = q.parentSymbol ↔ r.parentHandle = q.parentHandle)
  notRoot {r : Row} : r ∈ rows → r.symbol ≠ Handle.rootSymbol

namespace Schema

variable {s : Schema} {unit : NodeId} {top : List NodeId} {p : Path} {t : HandleTable} {e d : Entry}
  {i j : Nat} {r q : Row}

/-- Only a top-level path can have the symbol of the root, since others have an underscore. -/
theorem symbol_eq_rootSymbol : s.symbol p.fields = Handle.rootSymbol ↔
    p.enclosing = [] ∧ (s.name p.last = "root" ∨ s.name p.last = "Root") := by
  rw [← Text.camelize_eq_rootSymbol]
  cases above : p.enclosing with
  | nil => simp [symbol, Path.fields, above]
  | cons id ids =>
    simp only [reduceCtorEq, false_and, iff_false]
    intro same
    have separated : '_' ∈ (s.symbol p.fields).toList := by
      cases ids <;> simp [symbol, Path.fields, above]
    rw [same] at separated
    exact absurd separated (by decide)

/-- A row names the root at the top, and otherwise the earlier row of the enclosing path. -/
theorem parent_of_row (made : s.handleTable unit = .ok t) (he : t.entries[i]? = some e) :
    (e.path.enclosing = [] ∧ (t.row s i e).parentSymbol = Handle.rootSymbol ∧
        (t.row s i e).parentHandle = 1) ∨
      ∃ j d, j < i ∧ t.entries[j]? = some d ∧ d.path.fields = e.path.enclosing ∧
        (t.row s i e).parentSymbol = d.symbol ∧ (t.row s i e).parentHandle = Handle.ofIndex j := by
  rcases parent_of_handleTable made he with ⟨atTop, hparent⟩ | ⟨j, d, hj, hd, enclosing, hparent⟩
  · exact .inl ⟨atTop, by simp [HandleTable.row, hparent],
      HandleTable.parentHandle_row_of_none hparent⟩
  · exact .inr ⟨j, d, hj, hd, enclosing,
      by simp [HandleTable.row, HandleTable.symbolAt, hparent, hd],
      HandleTable.parentHandle_row_of_some hparent⟩

/-- Rows with the same parent name it by the same symbol. -/
theorem parentSymbol_eq_of_parentHandle_eq (made : s.handleTable unit = .ok t)
    (few : t.length < 2 ^ 32 - 2) (hr : r ∈ t.rows s) (hq : q ∈ t.rows s)
    (same : r.parentHandle = q.parentHandle) : r.parentSymbol = q.parentSymbol := by
  obtain ⟨i, e, he, rfl⟩ := HandleTable.mem_rows.1 hr
  obtain ⟨j, d, hd, rfl⟩ := HandleTable.mem_rows.1 hq
  rcases parent_of_row made he with ⟨-, hsymbol, hparent⟩ | ⟨k, c, -, hc, -, hsymbol, hparent⟩ <;>
  rcases parent_of_row made hd with
    ⟨-, hsymbol', hparent'⟩ | ⟨k', c', -, hc', -, hsymbol', hparent'⟩ <;>
  rw [hparent, hparent'] at same
  · rw [hsymbol, hsymbol']
  · exact absurd same.symm (Handle.ofIndex_ne_root (HandleTable.add_two_lt few hc'))
  · exact absurd same (Handle.ofIndex_ne_root (HandleTable.add_two_lt few hc))
  · rw [Handle.ofIndex_inj (HandleTable.add_two_lt few hc) (HandleTable.add_two_lt few hc')] at same
    subst same
    rw [hc] at hc'
    cases hc'
    rw [hsymbol, hsymbol']

/-- Rows that name their parents by the same symbol have the same parent, unless the symbol is that
of the root and one of the two parents is the root. -/
theorem parentHandle_eq_of_parentSymbol_eq (made : s.handleTable unit = .ok t) (hr : r ∈ t.rows s)
    (hq : q ∈ t.rows s) (same : r.parentSymbol = q.parentSymbol) :
    r.parentHandle = q.parentHandle ∨
      ∃ row ∈ t.rows s, row.symbol = Handle.rootSymbol ∧ r.parentSymbol = Handle.rootSymbol ∧
        (r.parentHandle = 1 ∧ q.parentHandle = row.handle ∨
          r.parentHandle = row.handle ∧ q.parentHandle = 1) := by
  obtain ⟨i, e, he, rfl⟩ := HandleTable.mem_rows.1 hr
  obtain ⟨j, d, hd, rfl⟩ := HandleTable.mem_rows.1 hq
  rcases parent_of_row made he with ⟨-, hsymbol, hparent⟩ | ⟨k, c, -, hc, -, hsymbol, hparent⟩ <;>
  rcases parent_of_row made hd with
    ⟨-, hsymbol', hparent'⟩ | ⟨k', c', -, hc', -, hsymbol', hparent'⟩ <;>
  rw [hsymbol, hsymbol'] at same
  · exact .inl (hparent.trans hparent'.symm)
  · exact .inr ⟨_, HandleTable.mem_rows.2 ⟨k', c', hc', rfl⟩, same.symm, hsymbol,
      .inl ⟨hparent, hparent'⟩⟩
  · exact .inr ⟨_, HandleTable.mem_rows.2 ⟨k, c, hc, rfl⟩, same, hsymbol.trans same,
      .inr ⟨hparent, hparent'⟩⟩
  · rw [hparent, hparent', eq_of_symbol_eq made hc hc' same]
    exact .inl rfl

/-- The rows with the symbol of the root are those of top-level fields with one of two names. -/
theorem exists_row_rootSymbol_iff (made : s.handleTable unit = .ok t)
    (starts : s.topFields unit = .ok top) :
    (∃ r ∈ t.rows s, r.symbol = Handle.rootSymbol) ↔
      ∃ id ∈ top, s.name id = "root" ∨ s.name id = "Root" := by
  have enumerated := (handleTable_eq_ok made).1
  constructor
  · rintro ⟨r, hr, hsymbol⟩
    obtain ⟨i, e, he, rfl⟩ := HandleTable.mem_rows.1 hr
    have hsymbol : s.symbol e.path.fields = Handle.rootSymbol :=
      (symbol_of_handleTable made he).symm.trans hsymbol
    obtain ⟨atTop, hname⟩ := symbol_eq_rootSymbol.1 hsymbol
    have leads := leads_of_mem_paths enumerated starts
      (List.mem_map_of_mem (List.mem_of_getElem? he))
    obtain ⟨id, listed, hpath⟩ := leads.exists_single atTop
    rw [hpath] at hname
    exact ⟨id, listed, hname⟩
  · rintro ⟨id, listed, hname⟩
    obtain ⟨e, hmem, hpath⟩ := List.mem_map.1 (single_mem_paths enumerated starts listed)
    obtain ⟨i, he⟩ := List.mem_iff_getElem?.1 hmem
    refine ⟨t.row s i e, HandleTable.mem_rows.2 ⟨i, e, he, rfl⟩, ?_⟩
    change e.symbol = _
    rw [symbol_of_handleTable made he, hpath]
    exact symbol_eq_rootSymbol.2 ⟨rfl, hname⟩

/-- Symbols tell the handles of a unit apart exactly when no top-level field is called `root` or
`Root`. Rows with one parent always name it alike. Rows that name different parents alike do so by
the symbol of the root, and one of the parents is the root, the other a row with this symbol. -/
theorem unambiguous_iff (made : s.handleTable unit = .ok t) (few : t.length < 2 ^ 32 - 2) :
    ∃ top, s.topFields unit = .ok top ∧
      (Unambiguous (t.rows s) ↔ ∀ id ∈ top, s.name id ≠ "root" ∧ s.name id ≠ "Root") ∧
      ∀ r ∈ t.rows s, ∀ q ∈ t.rows s,
        (r.parentHandle = q.parentHandle → r.parentSymbol = q.parentSymbol) ∧
        (r.parentSymbol = q.parentSymbol → r.parentHandle = q.parentHandle ∨
          ∃ row ∈ t.rows s, row.symbol = Handle.rootSymbol ∧ r.parentSymbol = Handle.rootSymbol ∧
            (r.parentHandle = 1 ∧ q.parentHandle = row.handle ∨
              r.parentHandle = row.handle ∧ q.parentHandle = 1)) := by
  obtain ⟨top, starts, -⟩ := paths_eq_ok.1 (handleTable_eq_ok made).1
  have taken := exists_row_rootSymbol_iff made starts
  refine ⟨top, starts, ?_, fun r hr q hq => ⟨parentSymbol_eq_of_parentHandle_eq made few hr hq,
    parentHandle_eq_of_parentSymbol_eq made hr hq⟩⟩
  constructor
  · intro unambiguous id listed
    rw [← not_or]
    intro hname
    obtain ⟨r, hr, hsymbol⟩ := taken.2 ⟨id, listed, hname⟩
    exact unambiguous.notRoot hr hsymbol
  · intro others
    have notRoot {r : Row} (hr : r ∈ t.rows s) : r.symbol ≠ Handle.rootSymbol := by
      intro hsymbol
      obtain ⟨id, listed, hname⟩ := taken.1 ⟨r, hr, hsymbol⟩
      exact not_or.2 (others id listed) hname
    refine ⟨fun {r q} hr hq => ⟨fun same => ?_, ?_⟩, notRoot⟩
    · rcases parentHandle_eq_of_parentSymbol_eq made hr hq same with
        parent | ⟨row, hrow, hsymbol, -⟩
      · exact parent
      · exact absurd hsymbol (notRoot hrow)
    · exact parentSymbol_eq_of_parentHandle_eq made few hr hq

/-- A trait in which the name `root` is that of a member only, and a top-level name is close to
it. -/
def menuSchema : Schema := Schema.empty.run [
  .declare "weave.trait.example" "MenuTrait" (.trait 2571),
  .attach 0 "menu" (.field 1 {}),
  .attach 1 "root" (.field 1 {}),
  .attach 2 "label" (.field 1 {}),
  .attach 0 "ROOT" (.field 2 {}),
  .attach 4 "label" (.field 1 {})]

theorem menuSchema_unambiguous :
    ∃ t, menuSchema.handleTable 0 = .ok t ∧ t.length < 2 ^ 32 - 2 ∧ t.length = 5 ∧
      Unambiguous (t.rows menuSchema) := by
  have counted : (menuSchema.handleTable 0).toOption.map HandleTable.length = some 5 := by
    decide +kernel
  obtain ⟨t, made, count⟩ := Option.map_eq_some_iff.1 counted
  rw [toOption_eq_some] at made
  have few : t.length < 2 ^ 32 - 2 := by omega
  obtain ⟨top, starts, unambiguous, -⟩ := unambiguous_iff made few
  refine ⟨t, made, few, count, unambiguous.2 fun id listed => ?_⟩
  have names : (menuSchema.topFields 0).toOption.map (List.map menuSchema.name) =
      some ["menu", "ROOT"] := by decide +kernel
  rw [toOption_eq_some.2 starts, Option.map_some, Option.some.injEq] at names
  have hname := List.mem_map_of_mem (f := menuSchema.name) listed
  rw [names] at hname
  grind

/-- A trait whose field `root` has a member. -/
def treeSchema : Schema := Schema.empty.run [
  .declare "weave.trait.example" "TreeTrait" (.trait 2572),
  .attach 0 "root" (.field 1 {}),
  .attach 1 "depth" (.field 1 {})]

/-- The field has the symbol of the root, and its member names it as if it were the root. -/
theorem treeSchema_ambiguous :
    ∃ t, treeSchema.handleTable 0 = .ok t ∧ ¬ Unambiguous (t.rows treeSchema) ∧
      (∃ r ∈ t.rows treeSchema, r.symbol = Handle.rootSymbol) ∧
      ∃ r ∈ t.rows treeSchema, ∃ q ∈ t.rows treeSchema,
        r.parentSymbol = q.parentSymbol ∧ r.parentHandle ≠ q.parentHandle := by
  have emitted : (treeSchema.handleTable 0).toOption.map (·.rows treeSchema) =
      some [⟨2, "Root", "Root", 1, 1, "root"⟩, ⟨3, "Root_Depth", "Root", 2, 1, "depth"⟩] := by
    decide +kernel
  obtain ⟨t, made, rows⟩ := Option.map_eq_some_iff.1 emitted
  refine ⟨t, toOption_eq_some.1 made, ?_⟩
  rw [rows]
  refine ⟨fun unambiguous => unambiguous.notRoot List.mem_cons_self rfl,
    by simp [Handle.rootSymbol], ?_⟩
  exact ⟨_, List.mem_cons_self, _, List.mem_cons_of_mem _ List.mem_cons_self, rfl, by decide⟩

end Schema

end PropertyTables
