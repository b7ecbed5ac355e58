import PropertyTables.Proofs.LayeredOrder
import PropertyTables.Proofs.UnitTables
import PropertyTables.Proofs.VerifiedPaths

/-!
# Properties are addressed uniquely

A reader of the tables knows a property by its handle, and finds where it stands by going from row
to row along the parent handles. For an accepted unit this leads from every row to the root, the
numbers met on the way are those of the fields on the property's path, and no two rows have the
same parent and number.

## Main definitions

* `Ascends`: the numbers met from a handle up to the root.
* `Addresses`: what holds of the rows of a unit with given paths.
-/

namespace PropertyTables

/-! ## Handles -/

namespace Handle

theorem toNat_ofIndex {i : Nat} (small : i + 2 < 2 ^ 32) : (ofIndex i).toNat = i + 2 := by
  simp only [ofIndex, first, UInt32.toNat_add, UInt32.toNat_ofNat', UInt32.reduceToNat]
  omega

/-- The first handle past `count` properties. -/
theorem toNat_offset {count : Nat} (small : count + 2 < 2 ^ 32) :
    (UInt32.ofNat count + 2).toNat = count + 2 := by
  simp only [UInt32.toNat_add, UInt32.toNat_ofNat', UInt32.reduceToNat]
  omega

theorem toNat_last {count : Nat} (small : count + 1 < 2 ^ 32) :
    (last count).toNat = count + 1 := by
  simp only [last, root, UInt32.toNat_add, UInt32.toNat_ofNat', UInt32.reduceToNat]
  omega

theorem ofIndex_inj {i j : Nat} (hi : i + 2 < 2 ^ 32) (hj : j + 2 < 2 ^ 32) :
    ofIndex i = ofIndex j ↔ i = j := by
  rw [← UInt32.toNat_inj, toNat_ofIndex hi, toNat_ofIndex hj]
  omega

theorem ofIndex_ne_root {i : Nat} (hi : i + 2 < 2 ^ 32) : ofIndex i ≠ root := by
  intro h
  have := congrArg UInt32.toNat h
  rw [toNat_ofIndex hi] at this
  simp [root] at this

end Handle

/-! ## Rows and their parents -/

/-- Going from a handle to the root by way of the parents meets these numbers, listed from the root
down. There are as many as there are steps. -/
inductive Ascends (rows : List Row) : Handle → List UInt32 → Prop
  | root : Ascends rows 1 []
  | row {r : Row} {numbers : List UInt32} (listed : r ∈ rows)
    (above : Ascends rows r.parentHandle numbers) : Ascends rows r.handle (numbers ++ [r.number])

/-- The rows of a unit address its paths `ps`, one row for each path in order. -/
structure Addresses (s : Schema) (ps : List Path) (tables : Tables) : Prop where
  rows_length : tables.rows.length = ps.length
  handleCount : tables.handleCount.toNat = ps.length
  lastHandle : tables.lastHandle.toNat = ps.length + 1
  handle {i : Nat} {r : Row} : tables.rows[i]? = some r → r.handle.toNat = i + 2
  /-- A parent is the root or the handle of an earlier row. -/
  parent {i : Nat} {r : Row} : tables.rows[i]? = some r →
    r.parentHandle = 1 ∨ ∃ j q, j < i ∧ tables.rows[j]? = some q ∧ r.parentHandle = q.handle
  /-- The way up from a row meets the numbers on its path, and there is no other way up. -/
  ascends {i : Nat} {r : Row} {p : Path} : tables.rows[i]? = some r → ps[i]? = some p →
    ∀ numbers, Ascends tables.rows r.handle numbers ↔ numbers = p.fields.map s.number
  treeDepth_nil : ps = [] → tables.treeDepth = 1
  /-- The depth of the tree is the greatest number of steps up from a row. -/
  treeDepth_max : ps ≠ [] →
    (∃ r ∈ tables.rows, ∃ numbers, Ascends tables.rows r.handle numbers ∧
      numbers.length = tables.treeDepth.toNat) ∧
    ∀ r ∈ tables.rows, ∀ numbers, Ascends tables.rows r.handle numbers →
      numbers.length ≤ tables.treeDepth.toNat
  distinct : (tables.rows.map fun r => (r.parentHandle, r.number)).Nodup
  /-- Different handles have different numbers on their ways up. -/
  separate {r q : Row} {numbers : List UInt32} : r ∈ tables.rows → q ∈ tables.rows →
    Ascends tables.rows r.handle numbers → Ascends tables.rows q.handle numbers →
    r.handle = q.handle

namespace HandleTable

variable {s : Schema} {t : HandleTable} {e d : Entry} {i j : Nat} {h : Handle} {r : Row}
  {numbers : List UInt32}

/-- The entries know their symbols and enclosing paths, and siblings differ in their numbers. -/
structure Sound (s : Schema) (t : HandleTable) : Prop where
  symbol {i : Nat} {e : Entry} : t.entries[i]? = some e → e.symbol = s.symbol e.path.fields
  parent {i : Nat} {e : Entry} : t.entries[i]? = some e →
    (e.path.enclosing = [] ∧ e.parent = none) ∨
      ∃ j d, j < i ∧ t.entries[j]? = some d ∧ d.path.fields = e.path.enclosing ∧
        e.parent = some j
  distinct {i j : Nat} {e d : Entry} : t.entries[i]? = some e → t.entries[j]? = some d →
    e.path.enclosing = d.path.enclosing → s.number e.path.last = s.number d.path.last → i = j

theorem sound_nil (s : Schema) : Sound s ⟨[]⟩ where
  symbol h := by simp at h
  parent h := by simp at h
  distinct h := by simp at h

theorem sound_of_verified {unit : NodeId} {name : String} (made : s.handleTable unit = .ok t)
    (verified : s.verifySiblings name unit = .ok ()) : t.Sound s where
  symbol he := Schema.symbol_of_handleTable made he
  parent he := Schema.parent_of_handleTable made he
  distinct {i j e d} he hd enclosing number := by
    have enumerated := (Schema.handleTable_eq_ok made).1
    obtain ⟨top, starts, -⟩ := Schema.paths_eq_ok.1 enumerated
    have leads : ∀ {k : Nat} {c : Entry}, t.entries[k]? = some c → s.Leads top c.path :=
      fun hc => Schema.leads_of_mem_paths enumerated starts
        (List.mem_map_of_mem (List.mem_of_getElem? hc))
    exact Schema.eq_of_path_eq made he hd
      ((leads he).eq_of_number_eq (leads hd) starts verified enclosing number)

theorem lt_length (he : t.entries[i]? = some e) : i < t.length :=
  (List.getElem?_eq_some_iff.1 he).1

theorem add_two_lt (few : t.length < 2 ^ 32 - 2) (he : t.entries[i]? = some e) :
    i + 2 < 2 ^ 32 := by
  have := lt_length he
  omega

namespace Sound

/-- The parent of a row is the root at the top, and otherwise the earlier row of the enclosing
path. -/
theorem parentHandle (sound : t.Sound s) (he : t.entries[i]? = some e) :
    (e.path.enclosing = [] ∧ (t.row s i e).parentHandle = 1) ∨
      ∃ j d, j < i ∧ t.entries[j]? = some d ∧ d.path.fields = e.path.enclosing ∧
        (t.row s i e).parentHandle = Handle.ofIndex j := by
  rcases sound.parent he with ⟨top, hparent⟩ | ⟨j, d, hj, hd, henclosing, hparent⟩
  · exact .inl ⟨top, parentHandle_row_of_none hparent⟩
  · exact .inr ⟨j, d, hj, hd, henclosing, parentHandle_row_of_some hparent⟩

/-- From the row of an entry the parents lead up along its path. -/
theorem ascends (sound : t.Sound s) (he : t.entries[i]? = some e) :
    Ascends (t.rows s) (Handle.ofIndex i) (e.path.fields.map s.number) := by
  induction i using Nat.strong_induction_on generalizing e with
  | _ i ih =>
    have listed : t.row s i e ∈ t.rows s := mem_rows.2 ⟨i, e, he, rfl⟩
    rw [Path.fields, List.map_append]
    refine .row listed ?_
    rcases sound.parentHandle he with ⟨top, hparent⟩ | ⟨j, d, hj, hd, henclosing, hparent⟩
    · rw [hparent, top]
      exact .root
    · rw [hparent, ← henclosing]
      exact ih j hj hd

/-- Every way up starts at the root or at the row of an entry, and follows its path. -/
theorem eq_of_ascends (sound : t.Sound s) (few : t.length < 2 ^ 32 - 2)
    (way : Ascends (t.rows s) h numbers) :
    (h = 1 ∧ numbers = []) ∨
      ∃ i e, t.entries[i]? = some e ∧ h = Handle.ofIndex i ∧
        numbers = e.path.fields.map s.number := by
  induction way with
  | root => exact .inl ⟨rfl, rfl⟩
  | @row r numbers listed above ih =>
    obtain ⟨i, e, he, rfl⟩ := mem_rows.1 listed
    refine .inr ⟨i, e, he, rfl, ?_⟩
    suffices numbers = e.path.enclosing.map s.number by
      rw [this, Path.fields, List.map_append]
      rfl
    rcases sound.parentHandle he with ⟨top, hparent⟩ | ⟨j, d, hj, hd, henclosing, hparent⟩
    · rw [hparent] at ih
      rcases ih with ⟨-, rfl⟩ | ⟨k, c, hc, hk, -⟩
      · rw [top, List.map_nil]
      · exact absurd hk.symm (Handle.ofIndex_ne_root (add_two_lt few hc))
    · rw [hparent] at ih
      rcases ih with ⟨hroot, -⟩ | ⟨k, c, hc, hk, rfl⟩
      · exact absurd hroot (Handle.ofIndex_ne_root (add_two_lt few hd))
      · rw [Handle.ofIndex_inj (add_two_lt few hd) (add_two_lt few hc)] at hk
        subst hk
        rw [hd] at hc
        cases hc
        rw [henclosing]

theorem ascends_iff (sound : t.Sound s) (few : t.length < 2 ^ 32 - 2)
    (he : t.entries[i]? = some e) :
    Ascends (t.rows s) (Handle.ofIndex i) numbers ↔ numbers = e.path.fields.map s.number := by
  refine ⟨fun way => ?_, fun h => h ▸ sound.ascends he⟩
  rcases sound.eq_of_ascends few way with ⟨hroot, -⟩ | ⟨j, d, hd, hj, rfl⟩
  · exact absurd hroot (Handle.ofIndex_ne_root (add_two_lt few he))
  · rw [Handle.ofIndex_inj (add_two_lt few he) (add_two_lt few hd)] at hj
    subst hj
    rw [he] at hd
    cases hd
    rfl

theorem length_path_le (sound : t.Sound s) (he : t.entries[i]? = some e) :
    e.path.length ≤ i + 1 := by
  induction i using Nat.strong_induction_on generalizing e with
  | _ i ih =>
    rw [Path.length, Path.fields, List.length_append, List.length_singleton]
    rcases sound.parent he with ⟨top, -⟩ | ⟨j, d, hj, hd, henclosing, -⟩
    · simp [top]
    · have := ih j hj hd
      rw [Path.length, henclosing] at this
      omega

/-- Rows with the same parent have the same enclosing path. -/
theorem enclosing_eq_of_parentHandle_eq (sound : t.Sound s) (few : t.length < 2 ^ 32 - 2)
    (he : t.entries[i]? = some e) (hd : t.entries[j]? = some d)
    (same : (t.row s i e).parentHandle = (t.row s j d).parentHandle) :
    e.path.enclosing = d.path.enclosing := by
  rcases sound.parentHandle he with ⟨top, hparent⟩ | ⟨k, c, -, hc, henclosing, hparent⟩ <;>
  rcases sound.parentHandle hd with ⟨top', hparent'⟩ | ⟨k', c', -, hc', henclosing', hparent'⟩ <;>
  rw [hparent, hparent'] at same
  · rw [top, top']
  · exact absurd same.symm (Handle.ofIndex_ne_root (add_two_lt few hc'))
  · exact absurd same (Handle.ofIndex_ne_root (add_two_lt few hc))
  · rw [Handle.ofIndex_inj (add_two_lt few hc) (add_two_lt few hc')] at same
    subst same
    rw [hc] at hc'
    cases hc'
    rw [← henclosing, ← henclosing']

theorem nodup_rows (sound : t.Sound s) (few : t.length < 2 ^ 32 - 2) :
    ((t.rows s).map fun r => (r.parentHandle, r.number)).Nodup := by
  rw [List.nodup_iff_getElem?_ne_getElem?]
  intro i j hij hj same
  obtain ⟨d, hd⟩ : ∃ d, t.entries[j]? = some d := by
    rw [List.length_map, length_rows] at hj
    exact ⟨_, List.getElem?_eq_getElem hj⟩
  obtain ⟨e, he⟩ : ∃ e, t.entries[i]? = some e :=
    ⟨_, List.getElem?_eq_getElem (hij.trans (lt_length hd))⟩
  simp only [List.getElem?_map, rows_getElem?, he, hd, Option.map_some, Option.some.injEq,
    Prod.mk.injEq] at same
  have enclosing := sound.enclosing_eq_of_parentHandle_eq few he hd same.1
  exact hij.ne (sound.distinct he hd enclosing same.2)

/-- The numbers on a path tell the entries apart: they tell the enclosing paths apart, and then
siblings. -/
theorem eq_of_numbers_eq (sound : t.Sound s) (he : t.entries[i]? = some e)
    (hd : t.entries[j]? = some d)
    (same : e.path.fields.map s.number = d.path.fields.map s.number) : i = j := by
  induction i using Nat.strong_induction_on generalizing j e d with
  | _ i ih =>
    simp only [Path.fields, List.map_append] at same
    obtain ⟨above, last⟩ := List.append_inj' same rfl
    refine sound.distinct he hd ?_ (by simpa using last)
    rcases sound.parent he with ⟨top, -⟩ | ⟨k, c, hk, hc, henclosing, -⟩
    · rw [top, List.map_nil, eq_comm, List.map_eq_nil_iff] at above
      rw [top, above]
    · rcases sound.parent hd with ⟨top, -⟩ | ⟨k', c', -, hc', henclosing', -⟩
      · rw [top, List.map_nil, List.map_eq_nil_iff] at above
        rw [top, above]
      · rw [← henclosing, ← henclosing'] at above ⊢
        have := ih k hk hc hc' above
        subst this
        rw [hc] at hc'
        cases hc'
        rfl

/-- The depth of the tree is the length of the longest path. -/
theorem toNat_treeDepth (sound : t.Sound s) (few : t.length < 2 ^ 32 - 2) :
    t.treeDepth.toNat = ((t.paths.map Path.length).max?).getD 1 := by
  rw [treeDepth, UInt32.toNat_ofNat']
  apply Nat.mod_eq_of_lt
  cases longest : (t.paths.map Path.length).max? with
  | none => simp
  | some depth =>
    obtain ⟨hmem, -⟩ := List.max?_eq_some_iff.1 longest
    obtain ⟨p, hp, rfl⟩ := List.mem_map.1 hmem
    obtain ⟨e, hentry, rfl⟩ := List.mem_map.1 hp
    obtain ⟨i, hi⟩ := List.mem_iff_getElem?.1 hentry
    have := sound.length_path_le hi
    have := lt_length hi
    simp only [Option.getD_some]
    omega

/-- The longest path has as many fields as the tree is deep. -/
theorem treeDepth_longest (sound : t.Sound s) (few : t.length < 2 ^ 32 - 2)
    (nonempty : t.paths ≠ []) :
    (∃ e ∈ t.entries, e.path.length = t.treeDepth.toNat) ∧
      ∀ e ∈ t.entries, e.path.length ≤ t.treeDepth.toNat := by
  rw [sound.toNat_treeDepth few]
  cases longest : (t.paths.map Path.length).max? with
  | none => simp [nonempty] at longest
  | some depth =>
    obtain ⟨attained, greatest⟩ := List.max?_eq_some_iff.1 longest
    constructor
    · obtain ⟨p, hp, rfl⟩ := List.mem_map.1 attained
      obtain ⟨e, he, rfl⟩ := List.mem_map.1 hp
      exact ⟨e, he, rfl⟩
    · intro e he
      exact greatest _ (List.mem_map_of_mem (List.mem_map_of_mem he))

/-- Tables made of a sound handle table address its paths. -/
theorem addresses (sound : t.Sound s) (few : t.length < 2 ^ 32 - 2) {tables : Tables}
    (rows : tables.rows = t.rows s) (count : tables.handleCount = UInt32.ofNat t.length)
    (last : tables.lastHandle = Handle.last t.length) (depth : tables.treeDepth = t.treeDepth) :
    Addresses s t.paths tables := by
  have entry_of_row : ∀ {i r}, tables.rows[i]? = some r →
      ∃ e, t.entries[i]? = some e ∧ t.row s i e = r :=
    fun hr => by simpa [rows, rows_getElem?] using hr
  constructor
  case rows_length => rw [rows, length_paths, length_rows]
  case handleCount =>
    rw [count, UInt32.toNat_ofNat', length_paths]
    omega
  case lastHandle => rw [last, length_paths, Handle.toNat_last (by omega)]
  case handle =>
    intro i r hr
    obtain ⟨e, he, rfl⟩ := entry_of_row hr
    exact Handle.toNat_ofIndex (add_two_lt few he)
  case parent =>
    intro i r hr
    obtain ⟨e, he, rfl⟩ := entry_of_row hr
    rcases sound.parentHandle he with ⟨-, hparent⟩ | ⟨j, d, hj, hd, -, hparent⟩
    · exact .inl hparent
    · exact .inr ⟨j, t.row s j d, hj, by simp [rows, rows_getElem?, hd], hparent⟩
  case ascends =>
    intro i r p hr hp numbers
    obtain ⟨e, he, rfl⟩ := entry_of_row hr
    obtain rfl : e.path = p := by simpa [paths, he] using hp
    rw [rows]
    exact sound.ascends_iff few he
  case treeDepth_nil =>
    intro empty
    rw [depth, ← UInt32.toNat_inj, sound.toNat_treeDepth few, empty]
    rfl
  case treeDepth_max =>
    intro nonempty
    rw [rows, depth]
    obtain ⟨⟨e, hmem, attained⟩, greatest⟩ := sound.treeDepth_longest few nonempty
    obtain ⟨i, he⟩ := List.mem_iff_getElem?.1 hmem
    constructor
    · refine ⟨t.row s i e, mem_rows.2 ⟨i, e, he, rfl⟩, _, sound.ascends he, ?_⟩
      rw [← attained, List.length_map, Path.length]
    · intro r hr numbers way
      obtain ⟨i, e, he, rfl⟩ := mem_rows.1 hr
      rw [(sound.ascends_iff few he).1 way, List.length_map]
      exact greatest e (List.mem_of_getElem? he)
  case distinct => exact rows ▸ sound.nodup_rows few
  case separate =>
    intro r q numbers hr hq way way'
    rw [rows] at hr hq way way'
    obtain ⟨i, e, he, rfl⟩ := mem_rows.1 hr
    obtain ⟨j, d, hd, rfl⟩ := mem_rows.1 hq
    have same := (sound.ascends_iff few he).1 way ▸ (sound.ascends_iff few hd).1 way'
    exact congrArg Handle.ofIndex (sound.eq_of_numbers_eq he hd same)

end Sound

end HandleTable

/-! ## Accepted units -/

namespace Schema

variable {s : Schema} {options : Options} {unit : NodeId} {tables : Tables}

/-- The property tables of an accepted unit are made of a sound handle table. -/
theorem exists_sound_table (accepted : s.compileUnit options unit = .ok tables) :
    ∃ table : HandleTable, table.Sound s ∧
      (if tables.kind = .enum then table.paths = [] else s.paths unit = .ok table.paths) ∧
      tables.rows = table.rows s ∧ tables.handleCount = UInt32.ofNat table.length ∧
      tables.lastHandle = Handle.last table.length ∧ tables.treeDepth = table.treeDepth := by
  obtain ⟨node, kind, table, info, declarations, -, -, -, verified, handles, -, -, rfl⟩ :=
    compileUnit_eq_ok.1 accepted
  obtain ⟨-, -, -, siblings⟩ := verifyUnit_eq_ok.1 verified
  refine ⟨table, ?_, ?_, rfl, rfl, rfl, rfl⟩
  · cases kind <;> simp only [unitHandles, Except.ok.injEq] at handles
    case enum => exact handles ▸ HandleTable.sound_nil s
    all_goals exact HandleTable.sound_of_verified handles siblings
  · cases kind <;> simp only [unitHandles, Except.ok.injEq] at handles <;>
      simp only [reduceCtorEq, if_true, if_false]
    case enum => simp [← handles, HandleTable.paths]
    all_goals exact (handleTable_eq_ok handles).1

/-- The rows of an accepted unit address its paths. An enum has none. -/
theorem compileUnit_addresses (accepted : s.compileUnit options unit = .ok tables)
    (few : tables.rows.length < 2 ^ 32 - 2) :
    ∃ ps, (if tables.kind = .enum then ps = [] else s.paths unit = .ok ps) ∧
      Addresses s ps tables := by
  obtain ⟨table, sound, enumerated, rows, count, last, depth⟩ := exists_sound_table accepted
  rw [rows, HandleTable.length_rows] at few
  exact ⟨table.paths, enumerated, sound.addresses few rows count last depth⟩

theorem scheduleSchema_addresses :
    ∃ tables, scheduleSchema.compileUnit {} 0 = .ok tables ∧ tables.rows.length < 2 ^ 32 - 2 ∧
      ∃ ps, scheduleSchema.paths 0 = .ok ps ∧ ps.length = 9 ∧
        Addresses scheduleSchema ps tables := by
  have counted : (scheduleSchema.compileUnit {} 0).toOption.map
      (fun tables => (tables.kind, tables.rows.length)) = some (.trait, 9) := by decide +kernel
  obtain ⟨tables, accepted, hcounted⟩ := Option.map_eq_some_iff.1 counted
  rw [toOption_eq_some] at accepted
  obtain ⟨kind, count⟩ := Prod.mk.inj hcounted
  have few : tables.rows.length < 2 ^ 32 - 2 := by omega
  obtain ⟨ps, enumerated, addresses⟩ := compileUnit_addresses accepted few
  rw [kind, if_neg (by decide)] at enumerated
  exact ⟨tables, accepted, few, ps, enumerated, addresses.rows_length ▸ count, addresses⟩

end Schema

end PropertyTables
