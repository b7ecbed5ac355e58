import PropertyTables.Proofs.OwnedFields

/-!
# Map values on a path

The layer of a path is the number of map values that it passes through. Paths are distinct: two
paths part at the first field in which they differ, and the lists of children have no repetition.

## Main definitions

* `Schema.mapValueCount`: the number of map values on a path.
-/

namespace PropertyTables.Schema

variable {s : Schema} {unit id parent : NodeId} {top : List NodeId} {p q : Path} {k : Nat}

/-- Whether a field is the value of the map it belongs to. -/
def isMapValue (s : Schema) (id : NodeId) : Bool :=
  (s.parent? id).any fun parent => s.mapValue? parent = some id

/-- The number of map values that a path passes through, the field it addresses included. -/
def mapValueCount (s : Schema) (p : Path) : Nat := p.fields.countP s.isMapValue

theorem mapValueCount_child (s : Schema) (p : Path) (id : NodeId) :
    s.mapValueCount (p.child id) = s.mapValueCount p + if s.isMapValue id then 1 else 0 := by
  simp [mapValueCount, List.countP_append, List.countP_singleton]

theorem mapValueCount_le_of_prefix (h : p.fields <+: q.fields) :
    s.mapValueCount p ≤ s.mapValueCount q :=
  h.sublist.countP_le

theorem mapValue?_eq_none_of_mem_children (h : id ∈ s.children parent) :
    s.mapValue? parent = none := by
  unfold children at h
  unfold mapValue?
  split at h
  · simp at h
  · split at h <;> simp_all

theorem StartsFrom.field?_eq_none (starts : s.StartsFrom unit top) : s.field? unit = none := by
  cases starts with
  | trait found | struct found | typespace found => simp [field?, found, Kind.field?]

theorem StartsFrom.mapValue?_eq_none (starts : s.StartsFrom unit top) :
    s.mapValue? unit = none := by
  simp [mapValue?, starts.field?_eq_none]

theorem mem_valuePreorder {acyclic : s.Acyclic} : q ∈ s.valuePreorder acyclic p ↔
    ∃ value, s.mapValue? p.last = some value ∧ q ∈ s.preorder acyclic (p.child value) := by
  unfold valuePreorder
  split <;> simp_all

namespace Owned

theorem isMapValue_of_mem_children (owned : s.Owned) (h : id ∈ s.children parent) :
    s.isMapValue id = false := by
  simp [isMapValue, owned.parent?_of_follows (.inl h), mapValue?_eq_none_of_mem_children h]

theorem isMapValue_of_mapValue? (owned : s.Owned) (h : s.mapValue? parent = some id) :
    s.isMapValue id = true := by
  simp [isMapValue, owned.parent?_of_follows (.inr h), h]

theorem isMapValue_of_mem_top (owned : s.Owned) (starts : s.StartsFrom unit top) (h : id ∈ top) :
    s.isMapValue id = false := by
  simp [isMapValue, starts.parent?_of_mem owned h, starts.mapValue?_eq_none]

/-- Members are reached without a map value. -/
theorem of_mem_preorder (owned : s.Owned) (h : q ∈ s.preorder owned.acyclic p) :
    p.fields <+: q.fields ∧ s.mapValueCount q = s.mapValueCount p := by
  induction hlast : p.last using owned.acyclic.wellFounded.induction generalizing p with
  | _ id ih =>
    subst hlast
    rw [preorder_eq, List.mem_cons, List.mem_flatMap] at h
    rcases h with rfl | ⟨child, hchild, hq⟩
    · exact ⟨List.prefix_rfl, rfl⟩
    · obtain ⟨below, count⟩ := ih child (.inl hchild) hq rfl
      rw [mapValueCount_child, owned.isMapValue_of_mem_children hchild] at count
      exact ⟨(List.prefix_append _ _).trans below, count⟩

theorem mapValueCount_of_mem_layer (owned : s.Owned) (starts : s.StartsFrom unit top)
    (h : q ∈ s.layer owned.acyclic top k) : s.mapValueCount q = k := by
  induction k generalizing q with
  | zero =>
    obtain ⟨id, listed, hq⟩ := List.mem_flatMap.1 h
    rw [(owned.of_mem_preorder hq).2]
    simp [mapValueCount, owned.isMapValue_of_mem_top starts listed]
  | succ k ih =>
    obtain ⟨p, hp, hq⟩ := List.mem_flatMap.1 h
    obtain ⟨value, hvalue, hq⟩ := mem_valuePreorder.1 hq
    rw [(owned.of_mem_preorder hq).2, mapValueCount_child, ih hp,
      owned.isMapValue_of_mapValue? hvalue, if_pos rfl]

end Owned

/-! ## Paths are distinct -/

theorem concat_prefix_inj {xs ys : List NodeId} {a b : NodeId} (ha : xs ++ [a] <+: ys)
    (hb : xs ++ [b] <+: ys) : a = b := by
  have := List.prefix_of_prefix_length_le ha hb (by simp)
  simpa using this.eq_of_length (by simp)

namespace Tidy

theorem nodup_children (tidy : s.Tidy) (id : NodeId) : (s.children id).Nodup := by
  unfold children
  split
  · exact .nil
  · rename_i f found
    split
    · have listed : ⟨"field_list", f.members⟩ ∈ s.childLists id := by
        simp [childLists_of_kind? (kind?_of_field? found), Kind.childLists]
      exact (tidy.ascending listed).imp Nat.ne_of_lt
    · exact .nil

theorem nodup_top (tidy : s.Tidy) (starts : s.StartsFrom unit top) : top.Nodup := by
  rcases topFields_listed starts.topFields_eq with rfl | ⟨label, listed⟩
  · exact .nil
  · exact (tidy.ascending listed).imp Nat.ne_of_lt

/-- What is below one of several fields in the same place is not below another. -/
theorem pairwise_disjoint_preorder (tidy : s.Tidy) (front : List NodeId) {ids : List NodeId}
    (nodup : ids.Nodup) : ids.Pairwise
      (Function.onFun List.Disjoint fun id => s.preorder tidy.owned.acyclic ⟨front, id⟩) := by
  refine nodup.imp fun {a b} differ => List.disjoint_left.2 ?_
  intro q ha hb
  exact differ (concat_prefix_inj (tidy.owned.of_mem_preorder ha).1
    (tidy.owned.of_mem_preorder hb).1)

theorem nodup_preorder (tidy : s.Tidy) (p : Path) :
    (s.preorder tidy.owned.acyclic p).Nodup := by
  induction hlast : p.last using tidy.owned.acyclic.wellFounded.induction generalizing p with
  | _ id ih =>
    subst hlast
    rw [preorder_eq, List.nodup_cons, List.nodup_flatMap]
    refine ⟨fun h => ?_, fun child hchild => ih child (.inl hchild) _ rfl,
      tidy.pairwise_disjoint_preorder p.fields (tidy.nodup_children p.last)⟩
    obtain ⟨child, -, h⟩ := List.mem_flatMap.1 h
    have : (p.child child).length ≤ p.length := (tidy.owned.of_mem_preorder h).1.length_le
    rw [Path.length_child] at this
    omega

/-- Below two paths of one layer the map values lead to different paths: one of the two would
otherwise enclose the other and its value, and so be in an earlier layer. -/
theorem disjoint_valuePreorder (tidy : s.Tidy) (same : s.mapValueCount p = s.mapValueCount q)
    (differ : p ≠ q) : List.Disjoint (s.valuePreorder tidy.owned.acyclic p)
      (s.valuePreorder tidy.owned.acyclic q) := by
  -- The shorter of the two paths is a beginning of the other, with its value if it is shorter.
  have shorter : ∀ {p q r : Path} {v : NodeId}, s.mapValue? p.last = some v →
      (p.child v).fields <+: r.fields → q.fields <+: r.fields → p.length ≤ q.length →
      s.mapValueCount p = s.mapValueCount q → p = q := by
    intro p q r v value hp hq shorter same
    have hp' : p.fields <+: r.fields := (List.prefix_append _ _).trans hp
    by_cases equal : p.length = q.length
    · have := List.prefix_of_prefix_length_le hp' hq shorter
      exact Path.fields_injective (this.eq_of_length equal)
    · have longer : (p.child v).length ≤ q.length := by
        rw [Path.length_child]
        omega
      have inside := List.prefix_of_prefix_length_le hp hq longer
      have := mapValueCount_le_of_prefix (s := s) inside
      rw [mapValueCount_child, tidy.owned.isMapValue_of_mapValue? value, if_pos rfl] at this
      omega
  rw [List.disjoint_left]
  intro r hp hq
  obtain ⟨v, hv, hp⟩ := mem_valuePreorder.1 hp
  obtain ⟨w, hw, hq⟩ := mem_valuePreorder.1 hq
  have hp := (tidy.owned.of_mem_preorder hp).1
  have hq := (tidy.owned.of_mem_preorder hq).1
  rcases Nat.le_total p.length q.length with h | h
  · exact differ (shorter hv hp ((List.prefix_append _ _).trans hq) h same)
  · exact differ (shorter hw hq ((List.prefix_append _ _).trans hp) h same.symm).symm

theorem nodup_layer (tidy : s.Tidy) (starts : s.StartsFrom unit top) (k : Nat) :
    (s.layer tidy.owned.acyclic top k).Nodup := by
  induction k with
  | zero =>
    rw [layer, List.nodup_flatMap]
    exact ⟨fun id _ => tidy.nodup_preorder _,
      tidy.pairwise_disjoint_preorder [] (tidy.nodup_top starts)⟩
  | succ k ih =>
    rw [layer, List.nodup_flatMap]
    constructor
    · intro p _
      unfold valuePreorder
      split
      · exact .nil
      · exact tidy.nodup_preorder _
    · refine ih.imp_of_mem fun {p q} hp hq differ => tidy.disjoint_valuePreorder ?_ differ
      rw [tidy.owned.mapValueCount_of_mem_layer starts hp,
        tidy.owned.mapValueCount_of_mem_layer starts hq]

theorem nodup_layers (tidy : s.Tidy) (starts : s.StartsFrom unit top) (n : Nat) :
    ((List.range n).flatMap (s.layer tidy.owned.acyclic top)).Nodup := by
  rw [List.nodup_flatMap]
  refine ⟨fun k _ => tidy.nodup_layer starts k,
    List.nodup_range.imp fun {i j} differ => List.disjoint_left.2 ?_⟩
  intro p hi hj
  exact differ ((tidy.owned.mapValueCount_of_mem_layer starts hi).symm.trans
    (tidy.owned.mapValueCount_of_mem_layer starts hj))

end Tidy

end PropertyTables.Schema
