import PropertyTables.Proofs.Addressing
import PropertyTables.Proofs.Forest
import PropertyTables.Proofs.LayeredOrder
import PropertyTables.Proofs.SchemaTables

/-!
# Handles that a trait shares with its base

The extension offset of a trait is the first handle past those of its base. The handles below it
mean the same in both traits exactly when the paths of the base come first in the trait too, under
the same labels. The check of a trait asks for less: that each top-level field of the base is among
the fields of the trait, at any place.

## Main definitions

* `Schema.labels`: what the row of a property and the rows above it tell of its path.
* `Tables.Inherits`: the rows below the extension offset are those of the base.
-/

namespace PropertyTables

/-! ## What the check of a trait means -/

namespace Schema

variable {s : Schema} {unit base : NodeId} {t inherited : Trait} {chain : List NodeId}

theorem trait?_of_extendsChain (h : s.extendsChain unit = .ok chain)
    (extended : s.base? unit = some base) : ∃ t, s.trait? base = some t := by
  obtain ⟨-, -, run⟩ := bind_eq_ok.1 h
  rw [chainFrom] at run
  simp only [extended] at run
  split at run
  · simp at run
  · rename_i isTrait
    exact Option.ne_none_iff_exists'.1 (by simpa using isTrait)

theorem verifyInheritedField_eq_ok {field : NodeId} :
    s.verifyInheritedField unit base t field = .ok () →
      ∃ own ∈ t.state, s.name own = s.name field ∧ s.number own = s.number field := by
  unfold verifyInheritedField
  cases found : t.state.find? (s.name · = s.name field) with
  | none => simp
  | some own =>
    intro h
    refine ⟨own, List.mem_of_find?_eq_some found, by simpa using List.find?_some found, ?_⟩
    by_contra differ
    simp [differ] at h

/-- Every top-level field of the base is in a verified trait, under the same name and number. -/
theorem exists_inherited_field (verified : s.verifyUnit unit = .ok ())
    (derived : s.trait? unit = some t) (extended : t.base = some base)
    (hbase : s.trait? base = some inherited) {field : NodeId} (listed : field ∈ inherited.state) :
    ∃ own ∈ t.state, s.name own = s.name field ∧ s.number own = s.number field := by
  obtain ⟨node, found, checked, -⟩ := verifyUnit_eq_ok.1 verified
  have passed := checked t (by simpa [trait?, kind?, found] using derived)
  unfold verifyTrait at passed
  split at passed
  · simp at passed
  · obtain ⟨-, -, passed⟩ := bind_eq_ok.1 passed
    simp only [verifyInherited, extended, hbase] at passed
    exact verifyInheritedField_eq_ok ((forM_eq_ok _).1 passed field listed)

/-! ## Labels -/

/-- What tells a field from its siblings in the rows. -/
def label (s : Schema) (id : NodeId) : String × UInt32 := (Text.camelize (s.name id), s.number id)

/-- The labels from a top-level field down to the field that a path addresses. -/
def labels (s : Schema) (p : Path) : List (String × UInt32) := p.fields.map s.label

variable {fields fields' : List NodeId} {id id' : NodeId}

theorem labels_eq_append (s : Schema) (p : Path) :
    s.labels p = p.enclosing.map s.label ++ [s.label p.last] := by
  simp [labels, Path.fields]

theorem labels_eq_iff {p q : Path} : s.labels p = s.labels q ↔
    p.enclosing.map s.label = q.enclosing.map s.label ∧ s.label p.last = s.label q.last := by
  rw [labels_eq_append, labels_eq_append]
  constructor
  · intro same
    obtain ⟨above, last⟩ := List.append_inj' same rfl
    exact ⟨above, by simpa using last⟩
  · rintro ⟨above, last⟩
    rw [above, last]

theorem numbers_eq_of_labels_eq (same : fields.map s.label = fields'.map s.label) :
    fields.map s.number = fields'.map s.number := by
  simpa [label, Function.comp_def] using congrArg (List.map Prod.snd) same

theorem camelized_eq_of_labels_eq (same : fields.map s.label = fields'.map s.label) :
    (fields.map fun id => Text.camelize (s.name id)) =
      fields'.map fun id => Text.camelize (s.name id) := by
  simpa [label, Function.comp_def] using congrArg (List.map Prod.fst) same

theorem symbol_eq_of_labels_eq (same : fields.map s.label = fields'.map s.label) :
    s.symbol fields = s.symbol fields' := by
  have empty : fields.isEmpty = fields'.isEmpty := by
    have := congrArg List.isEmpty same
    simpa using this
  rw [symbol, symbol, empty, camelized_eq_of_labels_eq same]

theorem intercalate_concat_inj (separator : String) (parts : List String) {a b : String} :
    separator.intercalate (parts ++ [a]) = separator.intercalate (parts ++ [b]) ↔ a = b := by
  induction parts with
  | nil => simp
  | cons part parts ih =>
    cases parts with
    | nil => simp [String.intercalate_cons_cons]
    | cons next parts => simpa [String.intercalate_cons_cons] using ih

/-- Below alike fields the symbol tells the name in camel case. -/
theorem camelize_eq_of_symbol_eq (same : fields.map s.label = fields'.map s.label)
    (symbol : s.symbol (fields ++ [id]) = s.symbol (fields' ++ [id'])) :
    Text.camelize (s.name id) = Text.camelize (s.name id') := by
  have joined : "_".intercalate ((fields ++ [id]).map fun id => Text.camelize (s.name id)) =
      "_".intercalate ((fields' ++ [id']).map fun id => Text.camelize (s.name id)) := by
    simpa [Schema.symbol] using symbol
  rw [List.map_append, List.map_append, camelized_eq_of_labels_eq same] at joined
  exact (intercalate_concat_inj _ _).1 joined

end Schema

/-! ## Tables with a common beginning -/

/-- Two rows tell the same of a property. -/
structure Row.Agrees (r q : Row) : Prop where
  symbol : r.symbol = q.symbol
  parentHandle : r.parentHandle = q.parentHandle
  number : r.number = q.number

/-- The rows of a trait below its extension offset are there and agree with those of its base. -/
def Tables.Inherits (own base : Tables) : Prop :=
  ∀ h : Handle, 2 ≤ h → h < own.extensionOffset →
    ∃ r ∈ own.rows, ∃ q ∈ base.rows, r.handle = h ∧ q.handle = h ∧ r.Agrees q

namespace HandleTable

variable {s : Schema} {t u : HandleTable} {e d : Entry} {i : Nat}

/-- Rows that agree down to a place have alike paths there: their parents are at one place, where
the paths are alike, and then the symbols and numbers tell that the last fields are. -/
theorem Sound.labels_eq_of_agrees (ht : t.Sound s) (hu : u.Sound s)
    (fewt : t.length < 2 ^ 32 - 2) (fewu : u.length < 2 ^ 32 - 2)
    (agree : ∀ {j : Nat} {e d : Entry}, j ≤ i → t.entries[j]? = some e → u.entries[j]? = some d →
      (t.row s j e).Agrees (u.row s j d))
    (he : t.entries[i]? = some e) (hd : u.entries[i]? = some d) :
    s.labels e.path = s.labels d.path := by
  induction i using Nat.strong_induction_on generalizing e d with
  | _ i ih =>
    have here := agree le_rfl he hd
    -- Equal parent handles are both the root, or stand for the same earlier place.
    have above : e.path.enclosing.map s.label = d.path.enclosing.map s.label := by
      have same := here.parentHandle
      rcases ht.parentHandle he with ⟨top, hparent⟩ | ⟨j, c, hj, hc, henclosing, hparent⟩ <;>
      rcases hu.parentHandle hd with ⟨top', hparent'⟩ | ⟨j', c', -, hc', henclosing', hparent'⟩ <;>
      rw [hparent, hparent'] at same
      · rw [top, top']
      · exact absurd same.symm (Handle.ofIndex_ne_root (add_two_lt fewu hc'))
      · exact absurd same (Handle.ofIndex_ne_root (add_two_lt fewt hc))
      · rw [Handle.ofIndex_inj (add_two_lt fewt hc) (add_two_lt fewu hc')] at same
        subst same
        rw [← henclosing, ← henclosing']
        exact ih j hj (fun hk => agree (by omega)) hc hc'
    refine Schema.labels_eq_iff.2 ⟨above, Prod.ext ?_ here.number⟩
    refine Schema.camelize_eq_of_symbol_eq above ?_
    have symbols : e.symbol = d.symbol := here.symbol
    rwa [ht.symbol he, hu.symbol hd] at symbols

theorem labels_isPrefix_iff : u.paths.map s.labels <+: t.paths.map s.labels ↔
    ∀ (i : Nat) (d : Entry), u.entries[i]? = some d →
      ∃ e : Entry, t.entries[i]? = some e ∧ s.labels e.path = s.labels d.path := by
  rw [List.prefix_iff_getElem?]
  constructor
  · intro start i d hd
    have := start i (by simpa using lt_length hd)
    simpa [paths, (List.getElem?_eq_some_iff.1 hd).2] using this
  · intro alike i hi
    have inside : i < u.entries.length := by simpa [length] using hi
    obtain ⟨e, he, same⟩ := alike i _ (List.getElem?_eq_getElem inside)
    simp [paths, he, same]

/-- Where the first paths of a table are alike to the paths of another, rows at one place agree:
the numbers on a path tell at which place its enclosing path is. -/
theorem Sound.agrees_of_isPrefix (ht : t.Sound s) (hu : u.Sound s)
    (start : u.paths.map s.labels <+: t.paths.map s.labels) (he : t.entries[i]? = some e)
    (hd : u.entries[i]? = some d) : (t.row s i e).Agrees (u.row s i d) := by
  rw [labels_isPrefix_iff] at start
  have same : s.labels e.path = s.labels d.path := by
    obtain ⟨e', he', same⟩ := start i d hd
    rw [he] at he'
    cases he'
    exact same
  obtain ⟨above, last⟩ := Schema.labels_eq_iff.1 same
  refine ⟨?_, ?_, congrArg Prod.snd last⟩
  · change e.symbol = d.symbol
    rw [ht.symbol he, hu.symbol hd]
    exact Schema.symbol_eq_of_labels_eq same
  · rcases ht.parentHandle he with ⟨top, hparent⟩ | ⟨j, c, -, hc, henclosing, hparent⟩ <;>
    rcases hu.parentHandle hd with ⟨top', hparent'⟩ | ⟨j', c', -, hc', henclosing', hparent'⟩
    · rw [hparent, hparent']
    · rw [top, ← henclosing'] at above
      simp [Path.fields] at above
    · rw [top', ← henclosing] at above
      simp [Path.fields] at above
    -- The trait has a path alike to the enclosing one at the same place, and no other like it.
    · obtain ⟨c'', hc'', same'⟩ := start j' c' hc'
      rw [← henclosing, ← henclosing'] at above
      have := ht.eq_of_numbers_eq hc hc''
        (Schema.numbers_eq_of_labels_eq (above.trans same'.symm))
      rw [hparent, hparent', this]

/-- The rows of one table are there and agree in another exactly when the paths are alike. -/
theorem Sound.agrees_iff_isPrefix (ht : t.Sound s) (hu : u.Sound s)
    (fewt : t.length < 2 ^ 32 - 2) (fewu : u.length < 2 ^ 32 - 2) :
    (∀ (i : Nat) (d : Entry), u.entries[i]? = some d →
      ∃ e, t.entries[i]? = some e ∧ (t.row s i e).Agrees (u.row s i d)) ↔
      u.paths.map s.labels <+: t.paths.map s.labels := by
  constructor
  · intro agree
    refine labels_isPrefix_iff.2 fun i d hd => ?_
    obtain ⟨e, he, -⟩ := agree i d hd
    refine ⟨e, he, ht.labels_eq_of_agrees hu fewt fewu ?_ he hd⟩
    intro j e d _ he hd
    obtain ⟨e', he', agrees⟩ := agree j d hd
    rw [he] at he'
    cases he'
    exact agrees
  · intro start i d hd
    obtain ⟨e, he, -⟩ := labels_isPrefix_iff.1 start i d hd
    exact ⟨e, he, ht.agrees_of_isPrefix hu start he hd⟩

theorem Sound.enclosing_eq_nil (ht : t.Sound s) (few : t.length < 2 ^ 32 - 2)
    (he : t.entries[i]? = some e) (root : (t.row s i e).parentHandle = 1) :
    e.path.enclosing = [] := by
  rcases ht.parentHandle he with ⟨top, -⟩ | ⟨j, c, -, hc, -, hparent⟩
  · exact top
  · rw [hparent] at root
    exact absurd root (Handle.ofIndex_ne_root (add_two_lt few hc))

theorem Sound.parentHandle_of_single (ht : t.Sound s) {id : NodeId} (he : t.entries[i]? = some e)
    (single : e.path = .single id) : (t.row s i e).parentHandle = 1 := by
  rcases ht.parentHandle he with ⟨-, hparent⟩ | ⟨j, c, -, -, henclosing, -⟩
  · exact hparent
  · simp [single, Path.fields] at henclosing

/-- Top-level fields of one name and number have rows that agree, wherever they are. -/
theorem Sound.agrees_of_single (ht : t.Sound s) (hu : u.Sound s) {own field : NodeId} {j : Nat}
    (he : t.entries[i]? = some e) (hd : u.entries[j]? = some d) (hown : e.path = .single own)
    (hfield : d.path = .single field) (name : s.name own = s.name field)
    (number : s.number own = s.number field) : (t.row s i e).Agrees (u.row s j d) := by
  refine ⟨?_, ?_, ?_⟩
  · change e.symbol = d.symbol
    rw [ht.symbol he, hu.symbol hd, hown, hfield]
    exact Schema.symbol_eq_of_labels_eq (by simp [Schema.label, name, number])
  · rw [ht.parentHandle_of_single he hown, hu.parentHandle_of_single hd hfield]
  · change s.number e.path.last = s.number d.path.last
    rw [hown, hfield]
    exact number

/-- Handles below the offset are those of the rows of the base. -/
theorem inherits_iff {own base : Tables} (rows : own.rows = t.rows s)
    (baseRows : base.rows = u.rows s) (offset : own.extensionOffset = UInt32.ofNat u.length + 2)
    (fewt : t.length < 2 ^ 32 - 2) (fewu : u.length < 2 ^ 32 - 2) :
    own.Inherits base ↔ ∀ (i : Nat) (d : Entry), u.entries[i]? = some d →
      ∃ e, t.entries[i]? = some e ∧ (t.row s i e).Agrees (u.row s i d) := by
  have bound : own.extensionOffset.toNat = u.length + 2 := by
    rw [offset, Handle.toNat_offset (by omega)]
  constructor
  · intro inherits i d hd
    have hi := lt_length hd
    have toNat := Handle.toNat_ofIndex (add_two_lt fewu hd)
    obtain ⟨r, hr, q, hq, hrh, hqh, agrees⟩ := inherits (Handle.ofIndex i)
      (by rw [UInt32.le_iff_toNat_le, toNat]; simp) (by rw [UInt32.lt_iff_toNat_lt, toNat]; omega)
    rw [rows] at hr
    rw [baseRows] at hq
    obtain ⟨j, e, he, rfl⟩ := mem_rows.1 hr
    obtain ⟨k, d', hd', rfl⟩ := mem_rows.1 hq
    obtain rfl : j = i := (Handle.ofIndex_inj (add_two_lt fewt he) (add_two_lt fewu hd)).1 hrh
    obtain rfl : k = j := (Handle.ofIndex_inj (add_two_lt fewu hd') (add_two_lt fewu hd)).1 hqh
    rw [hd] at hd'
    cases hd'
    exact ⟨e, he, agrees⟩
  · intro agree h above below
    have above : 2 ≤ h.toNat := UInt32.le_iff_toNat_le.1 above
    rw [UInt32.lt_iff_toNat_lt, bound] at below
    have inside : h.toNat - 2 < u.length := by omega
    have hd := List.getElem?_eq_getElem inside
    obtain ⟨e, he, agrees⟩ := agree _ _ hd
    have handle : Handle.ofIndex (h.toNat - 2) = h := by
      rw [← UInt32.toNat_inj, Handle.toNat_ofIndex (add_two_lt fewu hd)]
      omega
    rw [rows, baseRows]
    exact ⟨_, mem_rows.2 ⟨_, e, he, rfl⟩, _, mem_rows.2 ⟨_, _, hd, rfl⟩, handle, handle, agrees⟩

end HandleTable

/-! ## Accepted schemas -/

namespace Schema

variable {s : Schema} {options : Options} {unit derived base : NodeId} {tables : Tables}
  {ts : List Tables} {t : Trait}

theorem classify_of_trait? (h : s.trait? unit = some t) : s.classify unit = some .trait := by
  obtain ⟨node, found, hkind⟩ := Option.map_eq_some_iff.1 (kind?_of_trait? h)
  simp [classify, found, hkind]

theorem topFields_of_trait? (h : s.trait? unit = some t) : s.topFields unit = .ok t.state :=
  (StartsFrom.trait (kind?_of_trait? h)).topFields_eq

/-- The version information of an accepted trait is its range of versions, its extension offset and
the full name of its base. -/
theorem versions_of_trait? (accepted : s.compileUnit options unit = .ok tables)
    (htrait : s.trait? unit = some t) :
    s.extensionOffset unit = .ok tables.extensionOffset ∧ tables.base = t.base.map s.fullName := by
  obtain ⟨-, -, -, info, -, -, -, -, -, -, versions, -, rfl⟩ := compileUnit_eq_ok.1 accepted
  obtain ⟨node, found, versions⟩ := bind_eq_ok.1 versions
  have hkind : node.kind.trait? = some t := by
    simpa [trait?, kind?, node_eq_ok.1 found] using htrait
  simp only [hkind] at versions
  split at versions
  · simp at versions
  · obtain ⟨offset, hoffset, versions⟩ := bind_eq_ok.1 versions
    cases versions
    exact ⟨hoffset, rfl⟩

/-- The extension offset counts the paths of the base. -/
theorem extensionOffset_of_base? (accepted : s.compileUnit options unit = .ok tables)
    (extended : s.base? unit = some base) :
    ∃ t qs, s.trait? base = some t ∧ s.paths base = .ok qs ∧
      tables.extensionOffset = UInt32.ofNat qs.length + 2 := by
  obtain ⟨t, htrait, -⟩ := Option.bind_eq_some_iff.1 extended
  obtain ⟨chain, hchain, hoffset⟩ := bind_eq_ok.1 (versions_of_trait? accepted htrait).1
  simp only [extended] at hoffset
  obtain ⟨qs, enumerated, hoffset⟩ := bind_eq_ok.1 hoffset
  rw [pure_eq_ok] at hoffset
  obtain ⟨t, hbase⟩ := trait?_of_extendsChain hchain extended
  exact ⟨t, qs, hbase, enumerated, hoffset.symm⟩

theorem kind_of_trait? (accepted : s.compileUnit options unit = .ok tables)
    (htrait : s.trait? unit = some t) : tables.kind = .trait := by
  have hkind := (unit_of_compileUnit accepted).2
  rw [classify_of_trait? htrait] at hkind
  exact (Option.some.inj hkind).symm

theorem exists_trait_table (accepted : s.compileUnit options unit = .ok tables)
    (htrait : s.trait? unit = some t) :
    ∃ table : HandleTable, table.Sound s ∧ s.paths unit = .ok table.paths ∧
      tables.rows = table.rows s := by
  obtain ⟨table, sound, enumerated, rows, -⟩ := exists_sound_table accepted
  rw [kind_of_trait? accepted htrait, if_neg (by simp)] at enumerated
  exact ⟨table, sound, enumerated, rows⟩

/-- The top-level rows of the base are among the rows of a trait, under any handles. -/
theorem exists_agrees_of_root {own inherited : Tables} {q : Row}
    (compiled : s.compileUnit options derived = .ok own)
    (compiledBase : s.compileUnit options base = .ok inherited)
    (extended : s.base? derived = some base) (few : inherited.rows.length < 2 ^ 32 - 2)
    (hq : q ∈ inherited.rows) (root : q.parentHandle = 1) : ∃ r ∈ own.rows, r.Agrees q := by
  obtain ⟨t, htrait, hextends⟩ := Option.bind_eq_some_iff.1 extended
  obtain ⟨b, -, hbase, -⟩ := extensionOffset_of_base? compiled extended
  obtain ⟨table, sound, enumerated, rows⟩ := exists_trait_table compiled htrait
  obtain ⟨baseTable, baseSound, baseEnumerated, baseRows⟩ := exists_trait_table compiledBase hbase
  rw [baseRows] at hq few
  rw [HandleTable.length_rows] at few
  obtain ⟨j, d, hd, rfl⟩ := HandleTable.mem_rows.1 hq
  obtain ⟨field, listed, hfield⟩ : ∃ field ∈ b.state, d.path = .single field := by
    have leads := leads_of_mem_paths baseEnumerated (topFields_of_trait? hbase)
      (List.mem_map_of_mem (List.mem_of_getElem? hd))
    exact leads.exists_single (baseSound.enclosing_eq_nil few hd root)
  obtain ⟨-, -, -, -, -, -, -, -, verified, -⟩ := compileUnit_eq_ok.1 compiled
  obtain ⟨f, hf, name, number⟩ := exists_inherited_field verified htrait hextends hbase listed
  obtain ⟨e, hmem, hown⟩ : ∃ e ∈ table.entries, e.path = .single f :=
    List.mem_map.1 (single_mem_paths enumerated (topFields_of_trait? htrait) hf)
  obtain ⟨i, he⟩ := List.mem_iff_getElem?.1 hmem
  rw [rows]
  exact ⟨_, HandleTable.mem_rows.2 ⟨i, e, he, rfl⟩,
    sound.agrees_of_single baseSound he hd hown hfield name number⟩

theorem Orderly.mem_roots_of_trait? (orderly : s.Orderly) (isTrait : s.trait? unit = some t) :
    unit ∈ s.roots := by
  have label : s.kindLabel? unit = some "trait" := by
    simp [kindLabel?, kind?_of_trait? isTrait, Kind.label]
  exact (mem_roots orderly).2 ⟨lt_size_of_kindLabel? label, orderly.top_of_unit (.inl label)⟩

/-- The tables of a trait are among those of its schema. -/
theorem Orderly.tables_of_trait? (orderly : s.Orderly) (accepted : s.compile options = .ok ts)
    (isTrait : s.trait? unit = some t) :
    ∃ tables ∈ ts, s.compileUnit options unit = .ok tables :=
  tables_of_root accepted (orderly.mem_roots_of_trait? isTrait)
    (by simp [classify_of_trait? isTrait])

/-- In an accepted schema, the extension offset of a trait is the first handle past the rows of its
base, and the top-level rows of the base are among those of the trait. But the handles below the
offset mean the same in both exactly when the paths of the base are alike to the first paths of the
trait. -/
theorem compile_inherits_iff (reachable : s.Reachable) (accepted : s.compile options = .ok ts)
    (few : ∀ tables ∈ ts, tables.rows.length < 2 ^ 32 - 2)
    (extended : s.base? derived = some base) :
    ∃ own ∈ ts, ∃ inherited ∈ ts, ∃ ps qs,
      s.compileUnit options derived = .ok own ∧ s.compileUnit options base = .ok inherited ∧
      s.paths derived = .ok ps ∧ s.paths base = .ok qs ∧
      own.extensionOffset.toNat = inherited.rows.length + 2 ∧
      (∀ q ∈ inherited.rows, q.parentHandle = 1 → ∃ r ∈ own.rows, r.Agrees q) ∧
      (own.Inherits inherited ↔ qs.map s.labels <+: ps.map s.labels) := by
  have orderly := reachable.orderly
  obtain ⟨t, htrait, -⟩ := Option.bind_eq_some_iff.1 extended
  obtain ⟨own, hown, compiled⟩ := orderly.tables_of_trait? accepted htrait
  obtain ⟨b, qs, hb, counted, offset⟩ := extensionOffset_of_base? compiled extended
  obtain ⟨inherited, hinherited, compiledBase⟩ := orderly.tables_of_trait? accepted hb
  obtain ⟨table, sound, enumerated, rows⟩ := exists_trait_table compiled htrait
  obtain ⟨baseTable, baseSound, baseEnumerated, baseRows⟩ := exists_trait_table compiledBase hb
  obtain rfl : baseTable.paths = qs := by simpa [baseEnumerated] using counted
  rw [HandleTable.length_paths] at offset
  have fewOwn : table.length < 2 ^ 32 - 2 := by simpa [rows] using few own hown
  have fewBase : baseTable.length < 2 ^ 32 - 2 := by simpa [baseRows] using few inherited hinherited
  refine ⟨own, hown, inherited, hinherited, table.paths, baseTable.paths, compiled, compiledBase,
    enumerated, baseEnumerated, ?_, ?_, ?_⟩
  · simp only [offset, baseRows, HandleTable.length_rows, UInt32.toNat_add, UInt32.toNat_ofNat',
      UInt32.reduceToNat]
    omega
  · intro q hq root
    exact exists_agrees_of_root compiled compiledBase extended (few inherited hinherited) hq root
  · rw [HandleTable.inherits_iff rows baseRows offset fewOwn fewBase]
    exact sound.agrees_iff_isPrefix baseSound fewOwn fewBase

/-- Tables that are counted row by row have few rows when the counts are small. -/
theorem rows_length_lt_of_counts {counts : List Nat} {bound : Nat}
    (counted : ts.map (fun tables => tables.rows.length) = counts)
    (small : ∀ count ∈ counts, count < bound) : ∀ tables ∈ ts, tables.rows.length < bound := by
  intro tables listed
  refine small _ ?_
  rw [← counted]
  exact List.mem_map_of_mem (f := fun tables : Tables => tables.rows.length) listed

/-- A trait that repeats the fields of its base, which has no maps, and adds one at the end. -/
def timerSchema : Schema := Schema.empty.run [
  .declare "weave.trait.example" "TimerTrait" (.trait 2563),
  .attach 0 "power" (.field 1 {}),
  .attach 0 "window" (.field 2 {}),
  .attach 2 "start" (.field 1 {}),
  .declare "weave.trait.example" "RepeatingTimerTrait" (.trait 2564),
  .attach 4 "power" (.field 1 {}),
  .attach 4 "window" (.field 2 {}),
  .attach 6 "start" (.field 1 {}),
  .attach 4 "interval" (.field 3 {}),
  .set 4 (.base 0)]

theorem timerSchema_inherits :
    ∃ ts, timerSchema.Reachable ∧ timerSchema.compile {} = .ok ts ∧
      (∀ tables ∈ ts, tables.rows.length < 2 ^ 32 - 2) ∧ timerSchema.base? 4 = some 0 ∧
      4 ∈ timerSchema.roots ∧ 0 ∈ timerSchema.roots ∧
      ∃ own ∈ ts, ∃ inherited ∈ ts, timerSchema.compileUnit {} 4 = .ok own ∧
        timerSchema.compileUnit {} 0 = .ok inherited ∧ own.Inherits inherited := by
  have reachable : timerSchema.Reachable := .run .empty _
  have counts : (timerSchema.compile {}).toOption.map
      (List.map fun tables => tables.rows.length) = some [3, 4] := by decide +kernel
  obtain ⟨ts, accepted, counted⟩ := Option.map_eq_some_iff.1 counts
  rw [toOption_eq_some] at accepted
  have few : ∀ tables ∈ ts, tables.rows.length < 2 ^ 32 - 2 :=
    rows_length_lt_of_counts counted (by decide)
  have extended : timerSchema.base? 4 = some 0 := by decide +kernel
  obtain ⟨own, hown, inherited, hinherited, ps, qs, compiled, compiledBase, enumerated,
    baseEnumerated, -, -, inherits⟩ := compile_inherits_iff reachable accepted few extended
  refine ⟨ts, reachable, accepted, few, extended, by decide +kernel, by decide +kernel, own, hown,
    inherited, hinherited, compiled, compiledBase, inherits.2 ?_⟩
  have run : timerSchema.paths 4 = .ok [.single 5, .single 6, ⟨[6], 7⟩, .single 8] :=
    toOption_eq_some.1 (by decide +kernel)
  have baseRun : timerSchema.paths 0 = .ok [.single 1, .single 2, ⟨[2], 3⟩] :=
    toOption_eq_some.1 (by decide +kernel)
  obtain rfl := Except.ok.inj (enumerated.symm.trans run)
  obtain rfl := Except.ok.inj (baseEnumerated.symm.trans baseRun)
  decide +kernel

/-- A trait that repeats the fields of its base, a map with its value, and adds one at the end. -/
def levelsSchema : Schema := Schema.empty.run [
  .declare "weave.trait.example" "LevelsTrait" (.trait 2565),
  .attach 0 "levels" (.field 1 {}),
  .attach 1 "value" (.mapValue {}),
  .declare "weave.trait.example" "NamedLevelsTrait" (.trait 2566),
  .attach 3 "levels" (.field 1 {}),
  .attach 4 "value" (.mapValue {}),
  .attach 3 "label" (.field 2 {}),
  .set 3 (.base 0)]

/-- The value of a map comes after the field that a trait adds, so the handle that the value has in
the base is taken by that field. -/
theorem levelsSchema_not_inherits :
    ∃ ts, levelsSchema.Reachable ∧ levelsSchema.compile {} = .ok ts ∧ 3 ∈ levelsSchema.roots ∧
      0 ∈ levelsSchema.roots ∧ levelsSchema.base? 3 = some 0 ∧
      ∃ own ∈ ts, ∃ inherited ∈ ts, levelsSchema.compileUnit {} 3 = .ok own ∧
        levelsSchema.compileUnit {} 0 = .ok inherited ∧ ¬ own.Inherits inherited := by
  let symbols (tables : Tables) : List (Handle × String) :=
    tables.rows.map fun r => (r.handle, r.symbol)
  obtain ⟨ts, accepted⟩ : ∃ ts, (levelsSchema.compile {}).toOption = some ts :=
    Option.isSome_iff_exists.1 (by decide +kernel)
  rw [toOption_eq_some] at accepted
  have hderived : 3 ∈ levelsSchema.roots := by decide +kernel
  have hbase : 0 ∈ levelsSchema.roots := by decide +kernel
  obtain ⟨own, hown, compiled⟩ := tables_of_root accepted hderived (by decide +kernel)
  obtain ⟨inherited, hinherited, compiledBase⟩ := tables_of_root accepted hbase (by decide +kernel)
  refine ⟨ts, .run .empty _, accepted, hderived, hbase, by decide +kernel, own, hown, inherited,
    hinherited, compiled, compiledBase, fun inherits => ?_⟩
  have emitted : (levelsSchema.compileUnit {} 3).toOption.map
      (fun tables => (tables.extensionOffset, symbols tables)) =
        some (4, [(2, "Levels"), (3, "Label"), (4, "Levels_Value")]) := by decide +kernel
  have baseEmitted : (levelsSchema.compileUnit {} 0).toOption.map symbols =
      some [(2, "Levels"), (3, "Levels_Value")] := by decide +kernel
  rw [toOption_eq_some.2 compiled, Option.map_some, Option.some.injEq, Prod.mk.injEq] at emitted
  rw [toOption_eq_some.2 compiledBase, Option.map_some, Option.some.injEq] at baseEmitted
  obtain ⟨offset, ownSymbols⟩ := emitted
  obtain ⟨r, hr, q, hq, handle, handle', agrees⟩ :=
    inherits 3 (by decide) (by rw [offset]; decide)
  have hr : (r.handle, r.symbol) ∈ symbols own := List.mem_map_of_mem hr
  have hq : (q.handle, q.symbol) ∈ symbols inherited := List.mem_map_of_mem hq
  rw [ownSymbols, handle, agrees.symbol] at hr
  rw [baseEmitted, handle'] at hq
  simp at hr hq
  simp [hr] at hq

end Schema

end PropertyTables
