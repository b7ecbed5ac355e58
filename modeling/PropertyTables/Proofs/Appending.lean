import PropertyTables.Proofs.Footprint
import PropertyTables.Proofs.HandleTable
import PropertyTables.Proofs.MapValues

/-!
# Appending a field to a unit

A new last field of a unit, with all that is added below it, adds paths at the end of every layer.
So an old path moves by the number of new paths in the layers before its own, and a path through no
map value stays where it is.

## Main definitions

* `Edit.spares`: the edits that leave the first nodes alone.
* `Schema.Appended`: a schema with one more field at the end of a unit.
* `Schema.newPathsBelow`: how far an old path moves.
-/

namespace PropertyTables

/-! ## Lists that come in layers -/

section

variable {α : Type} {f g : Nat → List α} {n k i : Nat} {a : α}

/-- A position in a list of layers is a position in one of the layers. -/
theorem getElem?_flatMap_range : ((List.range n).flatMap f)[i]? = some a ↔
    ∃ k < n, ∃ j, i = ((List.range k).flatMap f).length + j ∧ (f k)[j]? = some a := by
  induction n with
  | zero => simp
  | succ n ih =>
    rw [List.range_succ, List.flatMap_append, List.flatMap_singleton, List.getElem?_append]
    constructor
    · intro h
      split at h
      · obtain ⟨k, hk, j, rest⟩ := ih.1 h
        exact ⟨k, by omega, j, rest⟩
      · exact ⟨n, by omega, _, by omega, h⟩
    · rintro ⟨k, hk, j, rfl, h⟩
      by_cases last : k = n
      · subst last
        simpa using h
      · have earlier := ih.2 ⟨k, by omega, j, rfl, h⟩
        rw [if_pos (List.getElem?_eq_some_iff.1 earlier).1, earlier]

theorem length_flatMap_range_append :
    ((List.range n).flatMap fun k => f k ++ g k).length =
      ((List.range n).flatMap f).length + ((List.range n).flatMap g).length := by
  induction n with
  | zero => rfl
  | succ n ih =>
    simp only [List.range_succ, List.flatMap_append, List.flatMap_singleton, List.length_append, ih]
    omega

theorem sublist_flatMap_range_append :
    ((List.range n).flatMap f).Sublist ((List.range n).flatMap fun k => f k ++ g k) := by
  induction n with
  | zero => exact .slnil
  | succ n ih =>
    simp only [List.range_succ, List.flatMap_append, List.flatMap_singleton]
    exact ih.append (List.sublist_append_left _ _)

/-- Among the members of two families of layers, a property that holds of the second family up to
layer `k` and of nothing else counts its members there. -/
theorem countP_flatMap_range_append {P : α → Bool} (first : ∀ i < n, ∀ a ∈ f i, ¬ P a)
    (second : ∀ i < n, ∀ a ∈ g i, P a ↔ i < k) :
    ((List.range n).flatMap fun i => f i ++ g i).countP P =
      ((List.range (min n k)).flatMap g).length := by
  induction n with
  | zero => simp
  | succ n ih =>
    have before := ih (fun i hi => first i (by omega)) (fun i hi => second i (by omega))
    have none : (f n).countP P = 0 := List.countP_eq_zero.2 (first n (by omega))
    rw [List.range_succ, List.flatMap_append, List.flatMap_singleton, List.countP_append,
      List.countP_append, before, none, Nat.zero_add]
    by_cases inside : n < k
    · have all : (g n).countP P = (g n).length :=
        List.countP_eq_length.2 fun a ha => (second n (by omega) a ha).2 inside
      rw [all, Nat.min_eq_left (by omega : n ≤ k), Nat.min_eq_left (by omega : n + 1 ≤ k),
        List.range_succ, List.flatMap_append, List.flatMap_singleton, List.length_append]
    · have nothing : (g n).countP P = 0 :=
        List.countP_eq_zero.2 fun a ha h => inside ((second n (by omega) a ha).1 h)
      rw [nothing, Nat.min_eq_right (by omega : k ≤ n), Nat.min_eq_right (by omega : k ≤ n + 1),
        Nat.add_zero]

end

theorem Handle.ofIndex_add (i d : Nat) : ofIndex (i + d) = ofIndex i + UInt32.ofNat d := by
  rw [ofIndex, ofIndex, UInt32.ofNat_add, UInt32.add_assoc]

/-! ## Edits that leave the first nodes alone -/

/-- Whether an edit makes a root or is about none of the first `n` nodes. -/
def Edit.spares (n : Nat) : Edit → Bool
  | declare .. => true
  | attach parent _ _ => n ≤ parent
  | set id _ => n ≤ id

theorem Edit.not_lt_of_spares {edit : Edit} {n : Nat} {id : NodeId} (spares : edit.spares n)
    (target : edit.target? = some id) : ¬ id < n := by
  cases edit <;> simp_all [Edit.spares, Edit.target?]

namespace Schema

variable {s t : Schema} {unit id : NodeId} {top : List NodeId} {p : Path} {name : String}
  {number : UInt32} {f : Field} {edits : List Edit} {n : Nat}

theorem node?_run (spares : ∀ edit ∈ edits, edit.spares n) (inside : n ≤ s.size) :
    s.size ≤ (s.run edits).size ∧ ∀ id < n, (s.run edits).node? id = s.node? id := by
  have keeps : Keeps (· < n) s (s.run edits) :=
    .run (fun id h => h.trans_le inside) fun edit h id target =>
      Edit.not_lt_of_spares (spares edit h) target
  exact ⟨keeps.size_le, fun id h => keeps.node? h⟩

/-- `t` is `s` with one more field at the end of the top-level fields of `unit`, and more below it;
the other nodes of `s` are as they were. -/
structure Appended (s t : Schema) (unit : NodeId) (top : List NodeId) : Prop where
  before : s.GrownPlain
  after : t.GrownPlain
  starts : s.StartsFrom unit top
  startsAfter : t.StartsFrom unit (top ++ [s.size])
  size_le : s.size ≤ t.size
  node? {id : NodeId} : id < s.size → id ≠ unit → t.node? id = s.node? id

/-- A trait or a struct lists a new field behind those it has. -/
theorem exists_adopt_field {node : Node} (found : s.node? unit = some node)
    (isUnit : node.kind.label = "trait" ∨ node.kind.label = "struct") (new : NodeId) :
    ∃ top kind, node.kind.adopt new (.field number f) = some kind ∧ s.StartsFrom unit top ∧
      ∀ t : Schema, t.kind? unit = some kind → t.StartsFrom unit (top ++ [new]) := by
  have foundKind : s.kind? unit = some node.kind := by simp [kind?, found]
  cases hkind : node.kind with
  | trait r => exact ⟨_, _, rfl, .trait (hkind ▸ foundKind), fun t => .trait⟩
  | struct r => exact ⟨_, _, rfl, .struct (hkind ▸ foundKind), fun t => .struct⟩
  | _ => simp [hkind, Kind.label] at isUnit

/-- A trait or a struct takes a new field, and what is then added below it leaves the older nodes
alone. -/
theorem exists_appended (grown : s.GrownPlain)
    (isUnit : s.kindLabel? unit = some "trait" ∨ s.kindLabel? unit = some "struct")
    (plain : (Edit.attach unit name (.field number f)).isPlain)
    (below : ∀ edit ∈ edits, edit.isPlain ∧ edit.spares s.size) :
    ∃ top, Appended s (s.run (.attach unit name (.field number f) :: edits)) unit top := by
  obtain ⟨node, found, isUnit⟩ : ∃ node, s.node? unit = some node ∧
      (node.kind.label = "trait" ∨ node.kind.label = "struct") := by
    simp only [kindLabel?, kind?, Option.map_eq_some_iff] at isUnit
    grind
  have inside := node?_lt found
  obtain ⟨top, kind, adopted, starts, startsAfter⟩ := exists_adopt_field found isUnit s.size
  obtain ⟨u, accepted⟩ := attach_of_adopt name found adopted
  have first : s.run (.attach unit name (.field number f) :: edits) = u.run edits := by
    rw [run, List.foldl_cons, apply, accepted]
    rfl
  obtain ⟨node', kind', found', adopted', size, -, nodes⟩ := attach_eq_ok accepted
  obtain rfl : node = node' := by simpa [found] using found'
  obtain rfl : kind = kind' := by simpa [adopted] using adopted'
  obtain ⟨larger, same⟩ := node?_run (s := u) (fun edit h => (below edit h).2) (by omega)
  refine ⟨top, ?_⟩
  constructor
  case before => exact grown
  case after =>
    refine GrownBy.run grown fun edit h => ?_
    rcases List.mem_cons.1 h with rfl | h
    · exact plain
    · exact (below edit h).1
  case starts => exact starts
  case startsAfter =>
    refine startsAfter _ ?_
    rw [first, kind?, same unit inside, nodes, if_neg inside.ne, if_pos rfl]
    rfl
  case size_le =>
    rw [first]
    omega
  case node? =>
    intro id hid other
    rw [first, same id hid, nodes, if_neg hid.ne, if_neg other]

/-! ## Layers before and after -/

theorem layer_append (acyclic : s.Acyclic) (top top' : List NodeId) (k : Nat) :
    s.layer acyclic (top ++ top') k = s.layer acyclic top k ++ s.layer acyclic top' k := by
  induction k with
  | zero => rw [layer, layer, layer, List.flatMap_append]
  | succ k ih => rw [layer, layer, layer, ih, List.flatMap_append]

theorem Leads.exists_mem_top (leads : s.Leads top p) : ∃ id ∈ top, id ∈ p.fields := by
  induction leads with
  | @start id listed => exact ⟨id, listed, by simp [Path.single, Path.fields]⟩
  | @step p id above below ih =>
    obtain ⟨first, listed, h⟩ := ih
    exact ⟨first, listed, List.mem_append_left _ h⟩

theorem Owned.lt_size_of_leads (owned : s.Owned) (starts : s.StartsFrom unit top)
    (leads : s.Leads top p) : ∀ id ∈ p.fields, id < s.size := by
  induction leads with
  | @start id listed =>
    intro other h
    obtain rfl : other = id := by simpa [Path.single, Path.fields] using h
    exact lt_size_of_parent? (starts.parent?_of_mem owned listed)
  | @step p id above below ih =>
    intro other h
    rcases List.mem_append.1 h with h | h
    · exact ih other h
    · rw [List.mem_singleton.1 h]
      exact lt_size_of_parent? (owned.parent?_of_follows below)

namespace Appended

theorem field?_eq (appended : Appended s t unit top) (h : id < s.size) :
    t.field? id = s.field? id := by
  by_cases same : id = unit
  · rw [same, appended.starts.field?_eq_none, appended.startsAfter.field?_eq_none]
  · rw [field?, field?, kind?, kind?, appended.node? h same]

theorem preorder_eq (appended : Appended s t unit top) (h : p.last < s.size) :
    t.preorder appended.after.tidy.owned.acyclic p =
      s.preorder appended.before.tidy.owned.acyclic p := by
  have owned := appended.before.tidy.owned
  induction hlast : p.last using owned.acyclic.wellFounded.induction generalizing p with
  | _ id ih =>
    subst hlast
    have children : t.children p.last = s.children p.last := by
      simp only [Schema.children, appended.field?_eq h]
    rw [Schema.preorder_eq, Schema.preorder_eq, children]
    congr 1
    refine List.flatMap_congr fun child hchild => ?_
    exact ih child (.inl hchild) (lt_size_of_parent? (owned.parent?_of_follows (.inl hchild))) rfl

theorem layer_eq (appended : Appended s t unit top) (k : Nat) :
    t.layer appended.after.tidy.owned.acyclic top k =
      s.layer appended.before.tidy.owned.acyclic top k := by
  have owned := appended.before.tidy.owned
  induction k with
  | zero =>
    refine List.flatMap_congr fun id listed => appended.preorder_eq ?_
    exact lt_size_of_parent? (appended.starts.parent?_of_mem owned listed)
  | succ k ih =>
    rw [layer, layer, ih]
    refine List.flatMap_congr fun p hp => ?_
    have inside : p.last < s.size :=
      owned.lt_size_of_leads appended.starts (leads_of_mem_layer _ hp).1 p.last
        (by simp [Path.fields])
    have value : t.mapValue? p.last = s.mapValue? p.last := by
      simp only [mapValue?, appended.field?_eq inside]
    rw [valuePreorder, valuePreorder, value]
    split
    · rfl
    · rename_i value hvalue
      exact appended.preorder_eq (lt_size_of_parent? (owned.parent?_of_follows (.inr hvalue)))

/-- Every layer gets its new paths behind the old ones. -/
theorem layer_after (appended : Appended s t unit top) (k : Nat) :
    t.layer appended.after.tidy.owned.acyclic (top ++ [s.size]) k =
      s.layer appended.before.tidy.owned.acyclic top k ++
        t.layer appended.after.tidy.owned.acyclic [s.size] k := by
  rw [layer_append, appended.layer_eq]

/-- The new paths start from the new field, which no old path meets. -/
theorem not_mem_of_new (appended : Appended s t unit top) {i k : Nat}
    (new : p ∈ t.layer appended.after.tidy.owned.acyclic [s.size] i) :
    p ∉ s.layer appended.before.tidy.owned.acyclic top k := by
  intro old
  obtain ⟨first, listed, h⟩ := (leads_of_mem_layer _ new).1.exists_mem_top
  rw [List.mem_singleton.1 listed] at h
  exact absurd (appended.before.tidy.owned.lt_size_of_leads appended.starts
    (leads_of_mem_layer _ old).1 _ h) (Nat.lt_irrefl _)

end Appended

/-! ## Positions and handles -/

/-- The number of paths of `qs` that are not among `ps` and pass through fewer than `k` map
values. -/
def newPathsBelow (s : Schema) (ps qs : List Path) (k : Nat) : Nat :=
  qs.countP fun q => q ∉ ps ∧ s.mapValueCount q < k

theorem newPathsBelow_zero (s : Schema) (ps qs : List Path) : s.newPathsBelow ps qs 0 = 0 := by
  simp [newPathsBelow]

/-- The old paths are still listed, in their order, each behind as many more paths as are new in
the layers before its own. -/
theorem Appended.paths (appended : Appended s t unit top) :
    ∃ ps qs, s.paths unit = .ok ps ∧ t.paths unit = .ok qs ∧ qs.Nodup ∧ ps.Sublist qs ∧
      ∀ i p, ps[i]? = some p → qs[i + t.newPathsBelow ps qs (s.mapValueCount p)]? = some p := by
  have owned := appended.before.tidy.owned
  have tidy := appended.after.tidy
  let old := s.layer owned.acyclic top
  let new := t.layer tidy.owned.acyclic [s.size]
  have after : t.layer tidy.owned.acyclic (top ++ [s.size]) = fun k => old k ++ new k :=
    funext appended.layer_after
  have nodup := tidy.nodup_layers appended.startsAfter t.size
  have enumerated := owned.paths_eq appended.before.orderly appended.starts appended.size_le
  have enumerated' :=
    tidy.owned.paths_eq appended.after.orderly appended.startsAfter (Nat.le_refl _)
  rw [after] at enumerated' nodup
  refine ⟨_, _, enumerated, enumerated', nodup, sublist_flatMap_range_append, ?_⟩
  intro i p place
  obtain ⟨k, hk, j, rfl, hp⟩ := getElem?_flatMap_range.1 place
  have inLayer : s.mapValueCount p = k :=
    owned.mapValueCount_of_mem_layer appended.starts (List.mem_of_getElem? hp)
  -- The layers before that of `p` are longer by their new paths.
  have moved : t.newPathsBelow ((List.range t.size).flatMap old)
      ((List.range t.size).flatMap fun k => old k ++ new k) k =
      ((List.range k).flatMap new).length := by
    rw [newPathsBelow, countP_flatMap_range_append (k := k) (f := old) (g := new),
      Nat.min_eq_right hk.le]
    · intro i hi q hq
      have : q ∈ (List.range t.size).flatMap old :=
        List.mem_flatMap.2 ⟨i, List.mem_range.2 hi, hq⟩
      simp [this]
    · intro i hi q hq
      have : q ∉ (List.range t.size).flatMap old := by
        intro h
        obtain ⟨j, -, hj⟩ := List.mem_flatMap.1 h
        exact appended.not_mem_of_new hq hj
      have count : t.mapValueCount q = i := by
        refine tidy.owned.mapValueCount_of_mem_layer appended.startsAfter ?_
        rw [after]
        exact List.mem_append_right _ hq
      simp [this, count]
  refine getElem?_flatMap_range.2 ⟨k, hk, j, ?_, ?_⟩
  · rw [inLayer, moved, length_flatMap_range_append, Nat.add_right_comm]
  · rw [List.getElem?_append_left (List.getElem?_eq_some_iff.1 hp).1]
    exact hp

/-- After a field is appended to a trait or a struct, with any number of members and map values
below it, an old path through `k` map values moves by the number of new paths through fewer than
`k` of them, and so does its handle. Paths through no map value keep their handles, and the old
paths keep their order. -/
theorem paths_of_append (built : s.Built)
    (isUnit : s.kindLabel? unit = some "trait" ∨ s.kindLabel? unit = some "struct")
    (plain : (Edit.attach unit name (.field number f)).isPlain)
    (below : ∀ edit ∈ edits, edit.isPlain ∧ edit.spares s.size)
    (extended : s.run (.attach unit name (.field number f) :: edits) = t) :
    (∃ top, s.topFields unit = .ok top ∧ t.topFields unit = .ok (top ++ [s.size])) ∧
    (∃ ps qs, s.paths unit = .ok ps ∧ t.paths unit = .ok qs ∧ qs.Nodup ∧ ps.Sublist qs ∧
      ∀ i p, ps[i]? = some p →
        qs[i + t.newPathsBelow ps qs (s.mapValueCount p)]? = some p ∧
        (s.mapValueCount p = 0 → qs[i]? = some p)) ∧
    ∀ old new, s.handleTable unit = .ok old → t.handleTable unit = .ok new →
      ∀ i e, old.entries[i]? = some e →
        let moved := t.newPathsBelow old.paths new.paths (s.mapValueCount e.path)
        ∃ e', new.entries[i + moved]? = some e' ∧ e'.path = e.path ∧
          (new.row t (i + moved) e').handle = (old.row s i e).handle + UInt32.ofNat moved ∧
          (s.mapValueCount e.path = 0 →
            (new.row t (i + moved) e').handle = (old.row s i e).handle) := by
  subst extended
  obtain ⟨top, appended⟩ := exists_appended built.grownPlain isUnit plain below
  obtain ⟨ps, qs, enumerated, enumerated', nodup, order, position⟩ := appended.paths
  refine ⟨⟨top, appended.starts.topFields_eq, appended.startsAfter.topFields_eq⟩,
    ⟨ps, qs, enumerated, enumerated', nodup, order, fun i p hp => ⟨position i p hp, ?_⟩⟩, ?_⟩
  · intro direct
    simpa [direct, newPathsBelow_zero] using position i p hp
  · intro old new made made' i e he moved
    obtain rfl : old.paths = ps := by simpa [enumerated] using (handleTable_eq_ok made).1.symm
    obtain rfl : new.paths = qs := by simpa [enumerated'] using (handleTable_eq_ok made').1.symm
    have listed : new.paths[i + moved]? = some e.path :=
      position i e.path (by simp [HandleTable.paths, he])
    rw [HandleTable.paths, List.getElem?_map, Option.map_eq_some_iff] at listed
    obtain ⟨e', he', same⟩ := listed
    refine ⟨e', he', same, Handle.ofIndex_add i moved, fun direct => ?_⟩
    have stays : moved = 0 := by simp only [moved, direct, newPathsBelow_zero]
    rw [stays]
    rfl

/-- The schedule with a map of alarms as its last field. A second value of the map is refused. -/
def alarmSchema : Schema := scheduleSchema.run [
  .attach 0 "alarms" (.field 6 {}),
  .attach 11 "value" (.mapValue {}),
  .attach 12 "tone" (.field 1 {}),
  .attach 11 "other" (.mapValue {})]

/-- The field within the value of a slot was at position 8. It is reached through two map values,
and the alarms have three paths through fewer, so it is at position 11 now. -/
theorem alarmSchema_paths :
    scheduleSchema.Built ∧ scheduleSchema.kindLabel? 0 = some "trait" ∧
    ∃ ps qs, scheduleSchema.paths 0 = .ok ps ∧ alarmSchema.paths 0 = .ok qs ∧
      qs.Nodup ∧ ps.Sublist qs ∧
      (∀ i p, ps[i]? = some p →
        qs[i + alarmSchema.newPathsBelow ps qs (scheduleSchema.mapValueCount p)]? = some p) ∧
      ps[8]? = some ⟨[2, 3, 5], 6⟩ ∧ scheduleSchema.mapValueCount ⟨[2, 3, 5], 6⟩ = 2 ∧
      alarmSchema.newPathsBelow ps qs 2 = 3 ∧ qs[11]? = some ⟨[2, 3, 5], 6⟩ := by
  have built : scheduleSchema.Built := .run _ (by decide)
  have isUnit : scheduleSchema.kindLabel? 0 = some "trait" := by decide +kernel
  obtain ⟨-, ⟨ps, qs, enumerated, enumerated', nodup, order, position⟩, -⟩ :=
    paths_of_append (t := alarmSchema) built (.inl isUnit) (by decide) (by decide +kernel) rfl
  have old : (scheduleSchema.paths 0).toOption.map (·[8]?) = some (some ⟨[2, 3, 5], 6⟩) := by
    decide +kernel
  have moved : (scheduleSchema.paths 0).toOption.bind (fun ps =>
      (alarmSchema.paths 0).toOption.map fun qs => alarmSchema.newPathsBelow ps qs 2) = some 3 := by
    decide +kernel
  have through : scheduleSchema.mapValueCount ⟨[2, 3, 5], 6⟩ = 2 := by decide +kernel
  rw [toOption_eq_some.2 enumerated, Option.map_some, Option.some.injEq] at old
  rw [toOption_eq_some.2 enumerated, Option.bind_some, toOption_eq_some.2 enumerated',
    Option.map_some, Option.some.injEq] at moved
  have new := (position 8 _ old).1
  rw [through, moved] at new
  exact ⟨built, isUnit, ps, qs, enumerated, enumerated', nodup, order,
    fun i p h => (position i p h).1, old, through, moved, new⟩

-- The slots keep their place, their values move behind the alarms.
example : (alarmSchema.paths 0).toOption.map (List.map Path.fields) =
    some [[1], [2], [7], [8], [10], [11], [2, 3], [2, 3, 4], [2, 3, 5], [11, 12], [11, 12, 13],
      [2, 3, 5, 6]] := by
  decide +kernel

end Schema

end PropertyTables
