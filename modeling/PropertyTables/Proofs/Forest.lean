import Mathlib.Order.Nat
import PropertyTables.Proofs.Loading

/-!
# Schemas are ordered forests

Every run of edits keeps the nodes of a schema in order: a node belongs to an earlier one, which
lists it, and the nodes that belong to none are the roots. When no field brings lists of its own
along, the lists hold nothing else, so that parents and lists describe one forest.

## Main definitions

* `Schema.Orderly`: what every edit keeps.
* `Schema.Owned`: nothing is listed with a node that does not belong to it.
* `Schema.Forest`: parents, roots and lists agree.
* `Schema.Reachable`: the schemas that edits and texts make.
-/

namespace PropertyTables.Schema

variable {s t : Schema} {id parent : NodeId} {list : ChildList} {label name : String}
  {member : Member}

theorem mem_childIds : id ∈ s.childIds parent ↔ ∃ list ∈ s.childLists parent, id ∈ list.ids :=
  List.mem_flatMap

theorem parent_ne_size (h : s.parent? id = some parent) : parent ≠ s.size :=
  ((parent?_lt h).trans (lt_size_of_parent? h)).ne

theorem range_filter_succ {p q : NodeId → Bool} (n : Nat) (same : ∀ id < n, q id = p id) :
    (List.range (n + 1)).filter q = (List.range n).filter p ++ if q n then [n] else [] := by
  rw [List.range_succ, List.filter_append]
  congr 1
  · exact List.filter_congr fun id hid => same id (List.mem_range.1 hid)
  · cases h : q n <;> simp [h]

/-! ## What every edit keeps -/

/-- What holds of every schema that edits make. A field may list nodes that belong elsewhere or are
not there, if it was made with such lists. But what belongs to a node is listed with it, and every
list of the node has only such members of its own that it is for. -/
structure Orderly (s : Schema) : Prop where
  roots_eq : s.roots = (List.range s.size).filter fun id => (s.parent? id).isNone
  top_of_unit {id : NodeId} : s.kindLabel? id = some "trait" ∨ s.kindLabel? id = some "typespace" →
    s.parent? id = none
  listed {id parent : NodeId} : s.parent? id = some parent → id ∈ s.childIds parent
  lt_of_listed {id parent : NodeId} : s.kindLabel? parent ≠ some "field" → id ∈ s.childIds parent →
    id < s.size
  kind {id parent : NodeId} {list : ChildList} : list ∈ s.childLists parent → id ∈ list.ids →
    s.parent? id = some parent → s.kindLabel? id = ChildList.kindLabel list.label

theorem Declared.mem_childIds (declared : Declared s t label) (h : id ∈ t.childIds parent) :
    parent ≠ s.size ∧ id ∈ s.childIds parent := by
  obtain ⟨list, hlist, hid⟩ := Schema.mem_childIds.1 h
  have old : parent ≠ s.size := by
    rintro rfl
    simp [declared.childLists_new hlist] at hid
  rw [declared.childLists_old old] at hlist
  exact ⟨old, Schema.mem_childIds.2 ⟨list, hlist, hid⟩⟩

theorem Orderly.declared (orderly : s.Orderly) (declared : Declared s t label) : t.Orderly where
  roots_eq := by
    have same : ∀ id < s.size, (t.parent? id).isNone = (s.parent? id).isNone := by
      intro id hid
      rw [declared.parent?, if_neg (Nat.ne_of_lt hid)]
    rw [declared.roots, declared.size, orderly.roots_eq, range_filter_succ s.size same]
    simp [declared.parent?]
  top_of_unit {id} h := by
    rw [declared.kindLabel?] at h
    rw [declared.parent?]
    split
    · rfl
    · exact orderly.top_of_unit (by grind)
  listed {id parent} h := by
    rw [declared.parent?] at h
    split at h
    · cases h
    · have old : parent ≠ s.size := parent_ne_size h
      rw [childIds, declared.childLists_old old]
      exact orderly.listed h
  lt_of_listed {id parent} plain h := by
    obtain ⟨old, h⟩ := declared.mem_childIds h
    rw [declared.kindLabel?, if_neg old] at plain
    rw [declared.size]
    exact Nat.lt_succ_of_lt (orderly.lt_of_listed plain h)
  kind {id parent list} hlist hid h := by
    obtain ⟨old, -⟩ := declared.mem_childIds (Schema.mem_childIds.2 ⟨list, hlist, hid⟩)
    rw [declared.childLists_old old] at hlist
    rw [declared.parent?] at h
    rw [declared.kindLabel?]
    split at h
    · cases h
    · rename_i new
      rw [if_neg new]
      exact orderly.kind hlist hid h

/-- The parent lists one more child. -/
theorem Attached.childIds_perm (attached : Attached s t parent member) :
    (t.childIds parent).Perm (s.size :: s.childIds parent) := by
  obtain ⟨label, -, gains⟩ := attached.gains
  exact gains.perm

theorem Attached.mem_childIds (attached : Attached s t parent member) {other : NodeId}
    (old : other ≠ s.size) (h : id ∈ t.childIds other) :
    id ∈ s.childIds other ∨ (id = s.size ∧ other = parent) := by
  by_cases same : other = parent
  · subst same
    have := attached.childIds_perm.mem_iff.1 h
    grind
  · rw [childIds, attached.childLists_old old same] at h
    exact .inl h

/-- The lists in which a new node stands are for nodes of its kind. A field may have expected it in
another list too, but then in one for fields. -/
theorem Attached.kindLabel_of_new (attached : Attached s t parent member) (orderly : s.Orderly)
    (hlist : list ∈ t.childLists parent) (new : s.size ∈ list.ids) :
    ChildList.kindLabel list.label = some member.kind.label := by
  obtain ⟨label, forKind, gains⟩ := attached.gains
  by_cases isField : s.kindLabel? parent = some "field"
  · have isField : t.kindLabel? parent = some "field" := by
      rw [attached.kindLabel?, if_neg attached.parent_lt.ne, isField]
    obtain ⟨ids, hids⟩ := gains.exists_mem
    rw [kindLabel_of_field isField hlist, ← forKind]
    exact (kindLabel_of_field isField hids).symm
  · rcases gains.mem hlist with hlist | ⟨ids, rfl, -⟩
    · have := orderly.lt_of_listed isField (Schema.mem_childIds.2 ⟨list, hlist, new⟩)
      exact absurd this (Nat.lt_irrefl _)
    · exact forKind

theorem Orderly.attached (orderly : s.Orderly) (attached : Attached s t parent member) :
    t.Orderly := by
  have inside : parent ≠ s.size := attached.parent_lt.ne
  obtain ⟨label, forKind, gains⟩ := attached.gains
  constructor
  case roots_eq =>
    have same : ∀ id < s.size, (t.parent? id).isNone = (s.parent? id).isNone := by
      intro id hid
      rw [attached.parent?, if_neg (Nat.ne_of_lt hid)]
    rw [attached.roots, attached.size, orderly.roots_eq, range_filter_succ s.size same]
    simp [attached.parent?]
  case top_of_unit =>
    intro id h
    rw [attached.kindLabel?] at h
    rw [attached.parent?]
    split
    · have := member.not_unit
      grind
    · exact orderly.top_of_unit (by grind)
  case listed =>
    intro id other h
    rw [attached.parent?] at h
    split at h
    · cases h
      rename_i new
      exact attached.childIds_perm.mem_iff.2 (new ▸ List.mem_cons_self)
    · have old : other ≠ s.size := parent_ne_size h
      by_cases same : other = parent
      · subst same
        exact attached.childIds_perm.mem_iff.2 (List.mem_cons_of_mem _ (orderly.listed h))
      · rw [childIds, attached.childLists_old old same]
        exact orderly.listed h
  case lt_of_listed =>
    intro id other plain h
    rw [attached.size]
    rw [attached.kindLabel?] at plain
    split at plain
    · -- A new node that is not a field has no children yet.
      rename_i new
      obtain ⟨list, hlist, hid⟩ := Schema.mem_childIds.1 h
      rw [new, attached.childLists_new] at hlist
      have : member.isPlain := by cases member <;> simp_all [Member.isPlain, Member.kind, Kind.label]
      simp [Member.ids_of_isPlain this hlist] at hid
    · rename_i old
      rcases attached.mem_childIds old h with h | ⟨rfl, -⟩
      · exact Nat.lt_succ_of_lt (orderly.lt_of_listed plain h)
      · exact Nat.lt_succ_self _
  case kind =>
    intro id other list hlist hid h
    rw [attached.parent?] at h
    rw [attached.kindLabel?]
    split at h
    · cases h
      rename_i new
      rw [if_pos new]
      exact (attached.kindLabel_of_new orderly hlist (new ▸ hid)).symm
    · rename_i old
      rw [if_neg old]
      have : other ≠ s.size := parent_ne_size h
      by_cases same : other = parent
      · subst same
        rcases gains.mem hlist with hlist | ⟨ids, rfl, rfl | hlist⟩
        · exact orderly.kind hlist hid h
        · simp at hid
          exact absurd hid old
        · have hid : id ∈ ids := by simpa [old] using hid
          have := orderly.kind hlist hid h
          exact this
      · rw [attached.childLists_old this same] at hlist
        exact orderly.kind hlist hid h

theorem Orderly.configured (orderly : s.Orderly) (configured : Configured s t) : t.Orderly where
  roots_eq := by simp only [configured.roots, configured.size, configured.parent?, orderly.roots_eq]
  top_of_unit h := by
    simp only [configured.kindLabel?] at h
    rw [configured.parent?, orderly.top_of_unit h]
  listed h := by
    rw [configured.parent?] at h
    rw [childIds, configured.childLists]
    exact orderly.listed h
  lt_of_listed plain h := by
    rw [configured.kindLabel?] at plain
    rw [childIds, configured.childLists] at h
    rw [configured.size]
    exact orderly.lt_of_listed plain h
  kind hlist hid h := by
    rw [configured.childLists] at hlist
    rw [configured.parent?] at h
    rw [configured.kindLabel?]
    exact orderly.kind hlist hid h

theorem orderly_empty : Schema.empty.Orderly where
  roots_eq := rfl
  top_of_unit := by simp [kindLabel?, kind?, node?, empty]
  listed := by simp [parent?, node?, empty]
  lt_of_listed := by simp [childIds, childLists, kind?, node?, empty]
  kind := by simp [childLists, kind?, node?, empty]

theorem GrownBy.orderly {allowed : Edit → Prop} (grown : GrownBy allowed s) : s.Orderly :=
  grown.invariant orderly_empty .declared (fun orderly _ => orderly.attached) .configured

/-! ## What edits keep when no field brings lists along -/

/-- Every child that is listed belongs to the node that lists it. -/
def Owned (s : Schema) : Prop :=
  ∀ ⦃parent id : NodeId⦄, id ∈ s.childIds parent → s.parent? id = some parent

/-- The lists hold what belongs to their node, once and in the order of creation. -/
structure Tidy (s : Schema) : Prop where
  owned : s.Owned
  ascending {parent : NodeId} {list : ChildList} : list ∈ s.childLists parent →
    list.ids.Pairwise (· < ·)
  once {id parent : NodeId} : s.parent? id = some parent → (s.childIds parent).count id = 1

theorem Owned.lt_size (owned : s.Owned) (h : id ∈ s.childIds parent) : id < s.size :=
  lt_size_of_parent? (owned h)

theorem Tidy.declared (tidy : s.Tidy) (declared : Declared s t label) : t.Tidy where
  owned {parent id} h := by
    obtain ⟨old, h⟩ := declared.mem_childIds h
    rw [declared.parent?, if_neg (tidy.owned.lt_size h).ne]
    exact tidy.owned h
  ascending {parent list} hlist := by
    by_cases new : parent = s.size
    · rw [declared.childLists_new (new ▸ hlist)]
      exact .nil
    · rw [declared.childLists_old new] at hlist
      exact tidy.ascending hlist
  once {id parent} h := by
    rw [declared.parent?] at h
    split at h
    · cases h
    · have old : parent ≠ s.size := parent_ne_size h
      rw [childIds, declared.childLists_old old]
      exact tidy.once h

theorem Attached.childIds_new (attached : Attached s t parent member) (plain : member.isPlain) :
    t.childIds s.size = [] := by
  rw [childIds, attached.childLists_new, List.flatMap_eq_nil_iff]
  exact fun list hlist => Member.ids_of_isPlain plain hlist

theorem Tidy.attached (tidy : s.Tidy) (plain : member.isPlain)
    (attached : Attached s t parent member) : t.Tidy := by
  have inside : parent ≠ s.size := attached.parent_lt.ne
  obtain ⟨label, -, gains⟩ := attached.gains
  constructor
  case owned =>
    intro other id h
    have old : other ≠ s.size := by
      rintro rfl
      simp [attached.childIds_new plain] at h
    rw [attached.parent?]
    rcases attached.mem_childIds old h with h | ⟨rfl, rfl⟩
    · rw [if_neg (tidy.owned.lt_size h).ne]
      exact tidy.owned h
    · rw [if_pos rfl]
  case ascending =>
    intro other list hlist
    by_cases new : other = s.size
    · rw [new, attached.childLists_new] at hlist
      rw [Member.ids_of_isPlain plain hlist]
      exact .nil
    · by_cases same : other = parent
      · -- The new member is later than all nodes that were there.
        subst same
        have sorted : ∀ {ids}, (ids = [] ∨ ⟨label, ids⟩ ∈ s.childLists other) →
            (ids ++ [s.size]).Pairwise (· < ·) := by
          rintro ids (rfl | hids)
          · exact List.pairwise_singleton _ _
          · rw [List.pairwise_append]
            refine ⟨tidy.ascending hids, List.pairwise_singleton _ _, fun id hid new hnew => ?_⟩
            rw [List.mem_singleton.1 hnew]
            exact tidy.owned.lt_size (Schema.mem_childIds.2 ⟨_, hids, hid⟩)
        rcases gains.mem hlist with hlist | ⟨ids, rfl, hids⟩
        · exact tidy.ascending hlist
        · exact sorted hids
      · rw [attached.childLists_old new same] at hlist
        exact tidy.ascending hlist
  case once =>
    intro id other h
    rw [attached.parent?] at h
    split at h
    · rename_i new
      cases h
      have fresh : s.size ∉ s.childIds parent := fun h =>
        absurd (tidy.owned.lt_size h) (Nat.lt_irrefl _)
      rw [new, attached.childIds_perm.count_eq, List.count_cons_self, List.count_eq_zero.2 fresh]
    · rename_i old
      have : other ≠ s.size := parent_ne_size h
      by_cases same : other = parent
      · subst same
        rw [attached.childIds_perm.count_eq, List.count_cons_of_ne (Ne.symm old)]
        exact tidy.once h
      · rw [childIds, attached.childLists_old this same]
        exact tidy.once h

theorem Tidy.configured (tidy : s.Tidy) (configured : Configured s t) : t.Tidy where
  owned {parent id} h := by
    rw [childIds, configured.childLists] at h
    rw [configured.parent?]
    exact tidy.owned h
  ascending h := tidy.ascending (configured.childLists _ ▸ h)
  once h := by
    rw [configured.parent?] at h
    rw [childIds, configured.childLists]
    exact tidy.once h

theorem tidy_empty : Schema.empty.Tidy where
  owned := by simp [Owned, childIds, childLists, kind?, node?, empty]
  ascending := by simp [childLists, kind?, node?, empty]
  once := by simp [parent?, node?, empty]

theorem GrownPlain.tidy (grown : s.GrownPlain) : s.Tidy :=
  grown.invariant tidy_empty .declared .attached .configured

/-! ## Forests -/

/-- Parents, roots and lists of children describe one forest, in which nodes are in the order of
their creation and every list has the nodes it is for. -/
structure Forest (s : Schema) : Prop where
  parent_lt {id parent : NodeId} : s.parent? id = some parent → parent < id
  /-- The roots are the nodes without a parent, in ascending order. -/
  roots_eq : s.roots = (List.range s.size).filter fun id => (s.parent? id).isNone
  root_of_unit {id : NodeId} :
    s.kindLabel? id = some "trait" ∨ s.kindLabel? id = some "typespace" → id ∈ s.roots
  /-- A node stands in one list of its parent, at one place. -/
  listed_once {id parent : NodeId} : s.parent? id = some parent →
    (s.childIds parent).count id = 1
  owned {id parent : NodeId} {list : ChildList} : list ∈ s.childLists parent → id ∈ list.ids →
    s.parent? id = some parent
  ascending {parent : NodeId} {list : ChildList} : list ∈ s.childLists parent →
    list.ids.Pairwise (· < ·)
  kind {id parent : NodeId} {list : ChildList} : list ∈ s.childLists parent → id ∈ list.ids →
    s.kindLabel? id = ChildList.kindLabel list.label

theorem mem_roots (orderly : s.Orderly) : id ∈ s.roots ↔ id < s.size ∧ s.parent? id = none := by
  simp [orderly.roots_eq]

theorem lt_size_of_kindLabel? (h : s.kindLabel? id = some label) : id < s.size := by
  obtain ⟨kind, found, -⟩ := Option.map_eq_some_iff.1 h
  obtain ⟨node, found, -⟩ := Option.map_eq_some_iff.1 found
  exact node?_lt found

theorem GrownPlain.forest (grown : s.GrownPlain) : s.Forest where
  parent_lt := parent?_lt
  roots_eq := grown.orderly.roots_eq
  root_of_unit unit :=
    (mem_roots grown.orderly).2 ⟨unit.elim lt_size_of_kindLabel? lt_size_of_kindLabel?,
      grown.orderly.top_of_unit unit⟩
  listed_once := grown.tidy.once
  owned hlist hid := grown.tidy.owned (Schema.mem_childIds.2 ⟨_, hlist, hid⟩)
  ascending := grown.tidy.ascending
  kind hlist hid :=
    grown.orderly.kind hlist hid (grown.tidy.owned (Schema.mem_childIds.2 ⟨_, hlist, hid⟩))

/-- The schemas that edits and texts make. Fields may come with lists of any nodes. -/
inductive Reachable : Schema → Prop
  | empty : Reachable .empty
  | load {s : Schema} (text : String) (loaded : Schema.load text = .ok s) : Reachable s
  | run {s : Schema} (before : Reachable s) (edits : List Edit) : Reachable (s.run edits)

theorem Reachable.orderly (reachable : s.Reachable) : s.Orderly := by
  have grown : GrownBy (fun _ => True) s := by
    induction reachable with
    | empty => exact .empty
    | load text loaded => exact (GrownPlain.load loaded).mono fun _ _ => trivial
    | run before edits ih => exact ih.run fun _ _ => trivial
  exact grown.orderly

/-- The schemas that are built by edits, refused ones among them, whose fields bring no lists
along, or loaded from a text. -/
inductive Built : Schema → Prop
  | run (edits : List Edit) (plain : ∀ edit ∈ edits, edit.isPlain) : Built (Schema.empty.run edits)
  | load {s : Schema} (text : String) (loaded : Schema.load text = .ok s) : Built s

theorem Built.grownPlain (built : s.Built) : s.GrownPlain := by
  cases built with
  | run edits plain => exact GrownBy.empty.run plain
  | load text loaded => exact .load loaded

/-- However a schema is built, it is a forest. -/
theorem forest_of_built (built : s.Built) : s.Forest :=
  built.grownPlain.forest

/-- A trait and a typespace with members of every sort. The field below an enum and the second
response are refused, and what comes next takes their place. -/
def boilerSchema : Schema := Schema.empty.run [
  .declare "weave.trait.example" "BoilerTrait" (.trait 2571),
  .attach 0 "Mode" (.enum "" 1 []),
  .attach 1 "misplaced" (.field 1 {}),
  .attach 0 "Drain" (.command 2),
  .attach 2 "seconds" (.field 1 {}),
  .attach 2 "DrainResponse" (.response 3),
  .attach 2 "SecondResponse" (.response 4),
  .attach 4 "isDone" (.field 1 {}),
  .attach 0 "levels" (.field 1 {}),
  .attach 6 "value" (.mapValue {}),
  .attach 7 "unit" (.field 1 {}),
  .attach 0 "Drained" (.event 5 .info),
  .attach 0 "Range" (.struct "" 6),
  .declare "weave.common" "Common" .typespace,
  .attach 11 "ResourceId" (.group 1),
  .attach 12 "RESOURCE_ID_HUB" (.constant 1 "DEVICE_1")]

theorem boilerSchema_forest :
    boilerSchema.Built ∧ boilerSchema.roots = [0, 11] ∧ boilerSchema.Forest := by
  have built : boilerSchema.Built := .run _ (by decide)
  exact ⟨built, by decide +kernel, forest_of_built built⟩

end PropertyTables.Schema
