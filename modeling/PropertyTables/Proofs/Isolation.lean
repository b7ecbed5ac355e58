import PropertyTables.Proofs.Footprint
import PropertyTables.Proofs.HandleTable
import PropertyTables.Unit.Compile

/-!
# Units do not see edits elsewhere

Compilation of a unit reads its footprint and the names of what is above it. So edits that are
about nodes outside the footprint do not change the outcome, be it tables or an error. Each check
and each table is shown to read no more than that, for any region that has the unit in it.
-/

namespace PropertyTables

theorem mem_of_mem_withEarlier {α : Type} {xs : List α} {place : List α × α}
    (h : place ∈ withEarlier xs) : place.2 ∈ xs ∧ ∀ x ∈ place.1, x ∈ xs := by
  induction xs generalizing place with
  | nil => simp [withEarlier] at h
  | cons x xs ih =>
    rcases List.mem_cons.1 h with rfl | h
    · simp
    · obtain ⟨later, hlater, rfl⟩ := List.mem_map.1 h
      have := ih hlater
      grind

namespace Schema

variable {s : Schema} {P : NodeId → Prop} {unit id parent : NodeId} {top : List NodeId}

/-! ## Paths stay in a region -/

theorem Region.of_follows (region : s.Region P) (inside : P parent) (h : s.Follows id parent) :
    P id := by
  obtain ⟨list, hlist, covers⟩ := followers_listed h
  exact region.child inside (mem_childIds.2 ⟨list, hlist, covers id h⟩)

theorem Region.of_startsFrom (region : s.Region P) (inside : P unit)
    (starts : s.StartsFrom unit top) : ∀ id ∈ top, P id := by
  intro id h
  obtain ⟨list, hlist, hid, -⟩ := starts.exists_list h
  exact region.child inside (mem_childIds.2 ⟨list, hlist, hid⟩)

theorem Region.of_mem_paths (region : s.Region P) (inside : P unit) {ps : List Path}
    (listed : s.paths unit = .ok ps) : ∀ p ∈ ps, ∀ id ∈ p.fields, P id := by
  intro p hp
  obtain ⟨top, starts, -⟩ := paths_eq_ok.1 listed
  have leads := leads_of_mem_paths listed starts hp
  clear hp
  induction leads with
  | @start id h =>
    simpa using region.of_startsFrom inside (startsFrom_of_topFields starts) id h
  | @step p id above below ih =>
    intro other h
    rcases List.mem_append.1 h with h | h
    · exact ih other h
    · rw [List.mem_singleton.1 h]
      exact region.of_follows (ih p.last (by simp [Path.fields])) below

theorem Region.of_unitHandles (region : s.Region P) (inside : P unit) {kind : UnitKind}
    {table : HandleTable} (made : s.unitHandles unit kind = .ok table) :
    ∀ p ∈ table.paths, ∀ id ∈ p.fields, P id := by
  cases kind with
  | enum =>
    cases made
    simp [HandleTable.paths]
  | _ => exact region.of_mem_paths inside (handleTable_eq_ok made).1

end Schema

namespace Schema.Keeps

variable {s t : Schema} {P : NodeId → Prop} {id unit parent child : NodeId} {ids : List NodeId}

theorem classify (keeps : Keeps P s t) (inside : P unit) : t.classify unit = s.classify unit := by
  rw [Schema.classify, Schema.classify, keeps.node? inside]

theorem unitBitfield (keeps : Keeps P s t) {ps : List Path}
    (inside : ∀ p ∈ ps, ∀ id ∈ p.fields, P id) (kind : UnitKind) (force : Bool) (a : Attribute) :
    t.unitBitfield kind force ps a = s.unitBitfield kind force ps a := by
  have selected : a.select t ps = a.select s ps :=
    List.map_congr_left fun p hp => by
      rw [keeps.field? (inside p hp p.last (by simp [Path.fields]))]
  unfold Schema.unitBitfield Attribute.bitfield? Attribute.packed
  rw [selected]

variable (keeps : Keeps P s t) (region : s.Region P)

include keeps region

/-! ## Verification -/

theorem verifyValues (inside : P id) (name : String) :
    t.verifyValues name id = s.verifyValues name id := by
  simp only [Schema.verifyValues, verifyValue, keeps.kind? inside,
    keeps.name (region.lt_size inside)]

theorem find?_name (inside : ∀ id ∈ ids, P id) (name : String) :
    ids.find? (t.name · = name) = ids.find? (s.name · = name) :=
  List.find?_congr fun id h => by rw [keeps.name (region.lt_size (inside id h))]

theorem verifyChild (inside : P parent) (insideChild : P child) (insideEarlier : ∀ id ∈ ids, P id)
    (name list : String) :
    t.verifyChild name parent list ids child = s.verifyChild name parent list ids child := by
  unfold Schema.verifyChild
  rw [keeps.node insideChild]
  refine bind_congr fun node => ?_
  have numbers : ids.find? (t.number · = node.number) = ids.find? (s.number · = node.number) :=
    List.find?_congr fun id h => by rw [keeps.number (region.lt_size (insideEarlier id h))]
  have full : ∀ other ∈ ids, t.fullName other = s.fullName other := fun other h =>
    keeps.fullName (region.lt_size (insideEarlier other h))
  rw [keeps.find?_name region insideEarlier, numbers, keeps.name (region.lt_size inside),
    keeps.fullName (region.lt_size insideChild)]
  split
  · rfl
  · cases sameName : ids.find? (s.name · = node.name) with
    | some other => simp only [full other (List.mem_of_find?_eq_some sameName)]
    | none =>
      cases sameNumber : ids.find? (s.number · = node.number) with
      | some other => simp only [full other (List.mem_of_find?_eq_some sameNumber)]
      | none => rfl

/-- The check of siblings stays below the node that it starts at. -/
theorem verifySiblings (inside : P id) (name : String) :
    t.verifySiblings name id = s.verifySiblings name id := by
  induction h : s.size - id using Nat.strong_induction_on generalizing id with
  | _ n ih =>
    subst h
    rw [Schema.verifySiblings, Schema.verifySiblings, keeps.verifyValues region inside,
      keeps.childLists inside]
    refine bind_congr fun _ => forM_congr fun list hlist => forM_congr fun place hplace => ?_
    obtain ⟨hchild, hearlier⟩ := mem_of_mem_withEarlier hplace
    have listed : ∀ child ∈ list.ids, P child := fun child h =>
      region.child inside (mem_childIds.2 ⟨list, hlist, h⟩)
    have insideChild := listed place.2 hchild
    simp only [keeps.verifyChild region inside insideChild fun id h => listed id (hearlier id h),
      keeps.parent? (region.lt_size insideChild)]
    refine bind_congr fun _ => ?_
    by_cases owned : s.parent? place.2 = some id
    · have := parent?_lt owned
      have := lt_size_of_parent? owned
      simp only [owned, ↓reduceDIte]
      exact ih _ (by omega) insideChild rfl
    · simp [owned]

/-! ## Extension -/

/-- The nodes that a chain has not met may differ outside the region, where it does not go. -/
theorem chainFrom {start current : NodeId} {found unseen unseen' : List NodeId}
    (insideStart : P start) (inside : P current) (insideFound : ∀ id ∈ found, P id)
    (nodup : unseen.Nodup) (nodup' : unseen'.Nodup)
    (same : ∀ id, P id → (id ∈ unseen' ↔ id ∈ unseen)) :
    t.chainFrom start found unseen' current = s.chainFrom start found unseen current := by
  fun_induction Schema.chainFrom s start found unseen current generalizing unseen' with
  | case1 found unseen current last =>
    rw [Schema.chainFrom, keeps.base? inside, last]
  | case2 found unseen current base next noTrait =>
    have insideBase := region.base inside next
    rw [Schema.chainFrom, keeps.base? inside, next]
    simp only [keeps.trait? insideBase, noTrait, if_true, keeps.fullName (region.lt_size inside),
      keeps.fullName (region.lt_size insideStart)]
  | case3 found unseen current base next isTrait unmet ih =>
    have insideBase := region.base inside next
    rw [Schema.chainFrom, keeps.base? inside, next]
    simp only [keeps.trait? insideBase, isTrait, if_false, (same base insideBase).2 unmet,
      ↓reduceDIte, Bool.false_eq_true]
    refine ih insideBase ?_ (nodup.erase _) (nodup'.erase _) fun id h => ?_
    · simpa [or_imp, forall_and] using ⟨insideFound, insideBase⟩
    · rw [nodup.mem_erase_iff, nodup'.mem_erase_iff, same id h]
  | case4 found unseen current base next isTrait met =>
    have insideBase := region.base inside next
    have names : (start :: found ++ [base]).map t.fullName =
        (start :: found ++ [base]).map s.fullName := by
      refine List.map_congr_left fun id h => keeps.fullName (region.lt_size ?_)
      simp only [List.cons_append, List.mem_cons, List.mem_append, List.not_mem_nil, or_false] at h
      rcases h with rfl | h | rfl
      · exact insideStart
      · exact insideFound id h
      · exact insideBase
    rw [Schema.chainFrom, keeps.base? inside, next]
    simp only [keeps.trait? insideBase, isTrait, if_false, mt (same base insideBase).1 met,
      ↓reduceDIte, Bool.false_eq_true, names, keeps.fullName (region.lt_size inside),
      keeps.fullName (region.lt_size insideStart)]

theorem extendsChain (inside : P id) : t.extendsChain id = s.extendsChain id := by
  unfold Schema.extendsChain
  rw [keeps.node inside]
  refine bind_congr fun _ => ?_
  refine keeps.chainFrom region inside inside (by simp) (List.nodup_range.erase _)
    (List.nodup_range.erase _) fun other h => ?_
  have old := region.lt_size h
  rw [List.nodup_range.mem_erase_iff, List.nodup_range.mem_erase_iff, List.mem_range,
    List.mem_range, iff_true_intro old, iff_true_intro (old.trans_le keeps.size_le)]

theorem verifyInherited (inside : P unit) {derived : Trait}
    (isTrait : s.trait? unit = some derived) :
    t.verifyInherited unit derived = s.verifyInherited unit derived := by
  unfold Schema.verifyInherited
  cases next : derived.base with
  | none => rfl
  | some base =>
    have insideBase : P base := region.base inside (by simp [Schema.base?, isTrait, next])
    simp only [keeps.trait? insideBase]
    cases isBase : s.trait? base with
    | none => rfl
    | some inherited =>
      have own : ∀ id ∈ derived.state, P id :=
        region.of_listed inside (kind?_of_trait? isTrait) "state_list" (by simp [Kind.childLists])
      have listed : ∀ id ∈ inherited.state, P id :=
        region.of_listed insideBase (kind?_of_trait? isBase) "state_list"
          (by simp [Kind.childLists])
      refine forM_congr fun field h => ?_
      have old := region.lt_size (listed field h)
      unfold verifyInheritedField
      rw [keeps.name old, keeps.find?_name region own, keeps.number old,
        keeps.fullName (region.lt_size inside), keeps.fullName (region.lt_size insideBase)]
      cases sameName : derived.state.find? (s.name · = s.name field) with
      | none => rfl
      | some other =>
        simp only [keeps.number (region.lt_size (own other (List.mem_of_find?_eq_some sameName)))]

theorem verifyTrait (inside : P unit) {derived : Trait} (isTrait : s.trait? unit = some derived) :
    t.verifyTrait unit derived = s.verifyTrait unit derived := by
  unfold Schema.verifyTrait
  rw [keeps.fullName (region.lt_size inside), keeps.name (region.lt_size inside),
    keeps.extendsChain region inside, keeps.verifyInherited region inside isTrait]

theorem verifyUnit (inside : P unit) : t.verifyUnit unit = s.verifyUnit unit := by
  unfold Schema.verifyUnit
  rw [keeps.node inside, keeps.fullName (region.lt_size inside), keeps.verifySiblings region inside]
  cases found : s.node unit with
  | error e => rfl
  | ok node =>
    simp only [ok_bind]
    cases isTrait : node.kind.trait? with
    | none => rfl
    | some derived =>
      have : s.trait? unit = some derived := by
        simp [Schema.trait?, Schema.kind?, node_eq_ok.1 found, isTrait]
      simp only [keeps.verifyTrait region inside this]

/-! ## Paths and handles -/

theorem topFields (inside : P unit) : t.topFields unit = s.topFields unit := by
  rw [Schema.topFields, Schema.topFields, keeps.node inside,
    keeps.fullName (region.lt_size inside)]

/-- What an enumeration lists, it also lists where more nodes are, since paths may be longer
there. -/
theorem explore {queue ps : List Path} (inside : ∀ p ∈ queue, P p.last)
    (h : s.explore unit queue = .ok ps) : t.explore unit queue = .ok ps := by
  induction ps generalizing queue with
  | nil =>
    cases queue with
    | nil => rw [Schema.explore]
    | cons path waiting =>
      obtain ⟨f, rest, -, -, -, heq⟩ := explore_cons_eq_ok.1 h
      cases heq
  | cons p rest ih =>
    cases queue with
    | nil => simp [Schema.explore] at h
    | cons path waiting =>
      obtain ⟨f, rest', found, short, next, heq⟩ := explore_cons_eq_ok.1 h
      obtain ⟨rfl, rfl⟩ := List.cons_eq_cons.1 heq
      rw [List.forall_mem_cons] at inside
      have sameField := keeps.field? inside.1
      have longer : s.pathBound ≤ t.pathBound := by
        have := keeps.size_le
        exact Nat.mul_le_mul (by omega) (by omega)
      refine explore_cons_eq_ok.2 ⟨f, rest', by rw [sameField, found], short.trans longer, ?_, rfl⟩
      have sameChildren : t.children path.last = s.children path.last := by
        rw [children, children, sameField]
      have sameValues : t.values path = s.values path := by
        rw [values, values, mapValue?, mapValue?, sameField]
      rw [sameChildren, sameValues]
      refine ih (fun q hq => ?_) next
      rcases mem_next_queue hq with hq | ⟨id, below, rfl⟩
      · exact inside.2 q hq
      · exact region.of_follows inside.1 below

theorem paths (grown : s.GrownPlain) (inside : P unit) : t.paths unit = s.paths unit := by
  cases starts : s.topFields unit with
  | error e =>
    rw [Schema.paths, Schema.paths, keeps.topFields region inside, starts, error_bind, error_bind]
  | ok top =>
    have startsFrom := startsFrom_of_topFields starts
    have listed := grown.tidy.owned.paths_eq grown.orderly startsFrom (Nat.le_refl _)
    obtain ⟨top', starts', explored⟩ := paths_eq_ok.1 listed
    obtain rfl : top = top' := by simpa [starts] using starts'
    rw [listed]
    refine paths_eq_ok.2 ⟨top, (keeps.topFields region inside).trans starts,
      keeps.explore region (fun p hp => ?_) explored⟩
    obtain ⟨id, hid, rfl⟩ := List.mem_map.1 hp
    exact region.of_startsFrom inside startsFrom id hid

theorem entry (inside : P unit) {done : List Entry} {path : Path}
    (insidePath : ∀ id ∈ path.fields, P id)
    (insideDone : ∀ e ∈ done, ∀ id ∈ e.path.fields, P id) :
    t.entry unit done path = s.entry unit done path := by
  have old : ∀ id ∈ path.fields, id < s.size := fun id h => region.lt_size (insidePath id h)
  have oldEnclosing : ∀ id ∈ path.enclosing, id < s.size := fun id h =>
    old id (List.mem_append_left _ h)
  have within : path.fields.find? (fun field => !t.isWithin field unit) =
      path.fields.find? (fun field => !s.isWithin field unit) :=
    List.find?_congr fun id h => by rw [keeps.isWithin (old id h)]
  unfold Schema.entry
  rw [within, keeps.symbol old, keeps.symbol oldEnclosing, keeps.dotted old,
    keeps.fullName (region.lt_size inside)]
  cases outside : path.fields.find? fun field => !s.isWithin field unit with
  | some field => simp only [keeps.fullName (old field (List.mem_of_find?_eq_some outside))]
  | none =>
    cases clash : done.find? (·.symbol = s.symbol path.fields) with
    | some earlier =>
      have insideEarlier := insideDone earlier (List.mem_of_find?_eq_some clash)
      simp only [clash, keeps.dotted fun id h => region.lt_size (insideEarlier id h)]
    | none => simp only [clash]

theorem entries (inside : P unit) {done : List Entry} {ps : List Path}
    (insidePaths : ∀ p ∈ ps, ∀ id ∈ p.fields, P id)
    (insideDone : ∀ e ∈ done, ∀ id ∈ e.path.fields, P id) :
    t.entries unit done ps = s.entries unit done ps := by
  induction ps generalizing done with
  | nil => rfl
  | cons path ps ih =>
    rw [List.forall_mem_cons] at insidePaths
    rw [Schema.entries, Schema.entries, keeps.entry region inside insidePaths.1 insideDone]
    cases made : s.entry unit done path with
    | error e => rfl
    | ok e =>
      refine ih insidePaths.2 fun d hd => ?_
      rcases List.mem_append.1 hd with hd | hd
      · exact insideDone d hd
      · rw [List.mem_singleton.1 hd, path_of_entry made]
        exact insidePaths.1

theorem handleTable (grown : s.GrownPlain) (inside : P unit) :
    t.handleTable unit = s.handleTable unit := by
  rw [Schema.handleTable, Schema.handleTable, keeps.paths region grown inside]
  cases listed : s.paths unit with
  | error e => rfl
  | ok ps =>
    have insidePaths := region.of_mem_paths inside listed
    rw [ok_bind, ok_bind, keeps.entries region inside insidePaths (List.forall_mem_nil _)]

theorem rows {table : HandleTable} (inside : ∀ p ∈ table.paths, ∀ id ∈ p.fields, P id) :
    table.rows t = table.rows s := by
  refine List.ext_getElem? fun i => ?_
  rw [HandleTable.rows_getElem?, HandleTable.rows_getElem?]
  cases found : table.entries[i]? with
  | none => rfl
  | some e =>
    have old : e.path.last < s.size := region.lt_size <|
      inside e.path (List.mem_map_of_mem (List.mem_of_getElem? found)) _ (by simp [Path.fields])
    simp only [Option.map_some, HandleTable.row, keeps.number old, keeps.name old]

/-! ## Versions -/

theorem extensionOffset (grown : s.GrownPlain) (inside : P unit) :
    t.extensionOffset unit = s.extensionOffset unit := by
  unfold Schema.extensionOffset
  rw [keeps.extendsChain region inside, keeps.base? inside]
  refine bind_congr fun _ => ?_
  cases next : s.base? unit with
  | none => rfl
  | some base => simp only [keeps.paths region grown (region.base inside next)]

theorem versionInfo (grown : s.GrownPlain) (inside : P unit) :
    t.versionInfo unit = s.versionInfo unit := by
  unfold Schema.versionInfo
  rw [keeps.node inside, keeps.fullName (region.lt_size inside),
    keeps.extensionOffset region grown inside]
  cases found : s.node unit with
  | error e => rfl
  | ok node =>
    simp only [ok_bind]
    cases isTrait : node.kind.trait? with
    | none => rfl
    | some derived =>
      have extended : s.base? unit = derived.base := by
        simp [Schema.base?, Schema.trait?, Schema.kind?, node_eq_ok.1 found, isTrait]
      have names : derived.base.map t.fullName = derived.base.map s.fullName := by
        cases next : derived.base with
        | none => rfl
        | some base =>
          have insideBase : P base := region.base inside (extended.trans next)
          rw [Option.map_some, Option.map_some, keeps.fullName (region.lt_size insideBase)]
      simp only [names]

/-! ## Declarations -/

theorem namedFields (inside : ∀ id ∈ ids, P id) : t.namedFields ids = s.namedFields ids :=
  List.map_congr_left fun id h => by
    have old := region.lt_size (inside id h)
    rw [keeps.name old, keeps.number old]

theorem structFields (inside : ∀ id ∈ ids, P id) : t.structFields ids = s.structFields ids :=
  List.filterMap_congr fun id h => by
    have old := region.lt_size (inside id h)
    rw [keeps.field? (inside id h), keeps.name old, keeps.number old]

theorem enumTables (inside : ∀ id ∈ ids, P id) : t.enumTables ids = s.enumTables ids :=
  List.filterMap_congr fun id h => by
    rw [keeps.kind? (inside id h), keeps.name (region.lt_size (inside id h))]

theorem eventTables (inside : ∀ id ∈ ids, P id) (version : UInt32) :
    t.eventTables version ids = s.eventTables version ids :=
  List.filterMap_congr fun id h => by
    have old := region.lt_size (inside id h)
    rw [keeps.kind? (inside id h), keeps.name old, keeps.number old]

theorem structTables (inside : ∀ id ∈ ids, P id) : t.structTables ids = s.structTables ids :=
  List.filterMap_congr fun id h => by
    have old := region.lt_size (inside id h)
    rw [keeps.kind? (inside id h), keeps.name old, keeps.number old]
    split
    · rename_i record found
      have fields : ∀ id ∈ record.fields, P id :=
        region.of_listed (inside id h) found "field_list" (by simp [Kind.childLists])
      rw [keeps.structFields region fields]
    · rfl

theorem responseTable (inside : P id) : t.responseTable id = s.responseTable id := by
  unfold Schema.responseTable
  rw [keeps.kind? inside, keeps.name (region.lt_size inside)]
  split
  · rename_i record found
    have fields : ∀ id ∈ record.fields, P id :=
      region.of_listed inside found "field_list" (by simp [Kind.childLists])
    rw [keeps.namedFields region fields]
  · rfl

theorem commandTables (inside : ∀ id ∈ ids, P id) : t.commandTables ids = s.commandTables ids :=
  List.filterMap_congr fun id h => by
    have old := region.lt_size (inside id h)
    rw [keeps.kind? (inside id h), keeps.name old, keeps.number old]
    split
    · rename_i command found
      have parameters : ∀ id ∈ command.parameters, P id :=
        region.of_listed (inside id h) found "parameter_list" (by simp [Kind.childLists])
      have responses : command.response.bind t.responseTable =
          command.response.bind s.responseTable := by
        cases response : command.response with
        | none => rfl
        | some answer =>
          have insideAnswer : ∀ id ∈ [answer], P id :=
            region.of_listed (inside id h) found "response" (by simp [Kind.childLists, response])
          exact keeps.responseTable region (insideAnswer answer List.mem_cons_self)
      rw [keeps.namedFields region parameters, responses]
    · rfl

theorem encodeGroup (inside : P id) (name : String) (bits : Nat)
    (state : Encoding × List GroupTable) :
    t.encodeGroup name bits state id = s.encodeGroup name bits state id := by
  unfold Schema.encodeGroup
  rw [keeps.node inside]
  cases found : s.node id with
  | error e => rfl
  | ok node =>
    simp only [ok_bind]
    cases isGroup : node.kind with
    | group g =>
      have foundGroup : s.kind? id = some (.group g) := by
        simp [Schema.kind?, node_eq_ok.1 found, isGroup]
      have constants : ∀ id ∈ g.constants, P id :=
        region.of_listed inside foundGroup "constant_list" (by simp [Kind.childLists])
      have steps (next : Encoding × List EncodedConstant) (id : NodeId) (h : id ∈ g.constants) :
          t.encodeNext name node.name bits next id = s.encodeNext name node.name bits next id := by
        rw [encodeNext, encodeNext, keeps.node (constants id h)]
      simp only [foldlM_congr steps]
    | _ => rfl

theorem encodeGroups (inside : ∀ id ∈ ids, P id) (name : String) (bits : Nat) :
    t.encodeGroups name ids bits = s.encodeGroups name ids bits := by
  unfold Schema.encodeGroups
  rw [foldlM_congr fun state id h => keeps.encodeGroup region (inside id h) name bits state]

theorem declarations (inside : P unit) {kind : Kind} (found : s.kind? unit = some kind)
    (width : Nat) : t.declarations unit kind width = s.declarations unit kind width := by
  have old := region.lt_size inside
  have listed {ids : List NodeId} (label : String) (h : ⟨label, ids⟩ ∈ kind.childLists) :
      ∀ child ∈ ids, P child := region.of_listed inside found label h
  cases kind with
  | trait d =>
    simp only [Kind.childLists] at listed
    have groups : ∀ id ∈ d.groups, P id := listed "constant_group_list" (by simp)
    have commands : ∀ id ∈ d.commands, P id := listed "command_list" (by simp)
    have enums : ∀ id ∈ d.enums, P id := listed "enum_list" (by simp)
    have structs : ∀ id ∈ d.structs, P id := listed "struct_list" (by simp)
    have events : ∀ id ∈ d.events, P id := listed "event_list" (by simp)
    simp only [Schema.declarations, profileId, keeps.number old, keeps.fullName old,
      keeps.name old, keeps.encodeGroups region groups, keeps.commandTables region commands,
      keeps.enumTables region enums, keeps.structTables region structs,
      keeps.eventTables region events]
  | typespace d =>
    simp only [Kind.childLists] at listed
    have groups : ∀ id ∈ d.groups, P id := listed "constant_group_list" (by simp)
    have enums : ∀ id ∈ d.enums, P id := listed "enum_list" (by simp)
    have structs : ∀ id ∈ d.structs, P id := listed "struct_list" (by simp)
    simp only [Schema.declarations, keeps.fullName old, keeps.encodeGroups region groups,
      keeps.enumTables region enums, keeps.structTables region structs]
  | enum e =>
    have self : ∀ id ∈ [unit], P id := by simpa using inside
    simp only [Schema.declarations, keeps.enumTables region self]
  | _ => rfl

/-! ## Units -/

theorem unitHandles (grown : s.GrownPlain) (inside : P unit) (kind : UnitKind) :
    t.unitHandles unit kind = s.unitHandles unit kind := by
  cases kind with
  | enum => rfl
  | _ => exact keeps.handleTable region grown inside

/-- The checks and tables of a unit read the region and nothing else. -/
theorem compileUnit (grown : s.GrownPlain) (inside : P unit) (options : Options) :
    t.compileUnit options unit = s.compileUnit options unit := by
  unfold Schema.compileUnit
  rw [keeps.node inside, keeps.classify inside, keeps.fullName (region.lt_size inside),
    keeps.verifyUnit region inside, keeps.versionInfo region grown inside]
  refine bind_congr fun _ => ?_
  cases found : s.node unit with
  | error e => rfl
  | ok node =>
    have foundKind : s.kind? unit = some node.kind := by
      simp [Schema.kind?, node_eq_ok.1 found]
    simp only [ok_bind, keeps.declarations region inside foundKind]
    cases s.classify unit with
    | none => rfl
    | some kind =>
      refine bind_congr fun _ => ?_
      rw [keeps.unitHandles region grown inside]
      cases made : s.unitHandles unit kind with
      | error e => rfl
      | ok table =>
        have insidePaths := region.of_unitHandles inside made
        simp only [ok_bind, keeps.rows region insidePaths, keeps.unitBitfield insidePaths]

end Schema.Keeps

namespace Schema

/-- Edits that are about no node in the footprint of a unit do not change what becomes of it, be
they accepted or refused. The footprint is that before the edits: what they add is never part of it.
They may add fields that list whatever nodes, and let other traits extend the unit. -/
theorem compileUnit_run {s : Schema} {unit : NodeId} {edits : List Edit} (grown : s.GrownPlain)
    (present : ∀ base, s.Extends unit base → base < s.size)
    (apart : ∀ edit ∈ edits, ∀ id, edit.target? = some id → ¬ s.footprint unit id)
    (options : Options) : (s.run edits).compileUnit options unit = s.compileUnit options unit := by
  have region := region_footprint grown present
  have keeps := Keeps.run (fun id => region.lt_size) apart
  exact keeps.compileUnit region grown ⟨unit, .refl, isWithin_self s unit⟩ options

/-- A trait that extends another, and a third one beside them. -/
def garageSchema : Schema := Schema.empty.run [
  .declare "weave.trait.example" "DoorTrait" (.trait 2576),
  .attach 0 "position" (.field 1 {}),
  .declare "weave.trait.example" "GarageTrait" (.trait 2577),
  .attach 2 "position" (.field 1 {}),
  .attach 2 "light" (.field 2 {}),
  .set 2 (.base 0),
  .declare "weave.trait.example" "LampTrait" (.trait 2578)]

/-- The third trait gets a field that claims nodes of the others, and extends them. The version of
the field is refused. -/
def lampEdits : List Edit := [
  .attach 5 "level" (.field 1 { members := [3, 4, 99] }),
  .set 6 (.version 2),
  .set 5 (.base 2),
  .attach 6 "step" (.field 1 {})]

theorem garageSchema_compileUnit :
    garageSchema.GrownPlain ∧ (∀ base, garageSchema.Extends 2 base → base < garageSchema.size) ∧
      (∀ edit ∈ lampEdits, ∀ id, edit.target? = some id → ¬ garageSchema.footprint 2 id) ∧
      (garageSchema.run lampEdits).size = 8 ∧
      ((garageSchema.run lampEdits).compileUnit {} 2).toOption.map (·.rows.length) = some 2 ∧
      ∀ options, (garageSchema.run lampEdits).compileUnit options 2 =
        garageSchema.compileUnit options 2 := by
  have grown : garageSchema.GrownPlain := GrownBy.empty.run (by decide)
  have reached (base : NodeId) (h : garageSchema.Extends 2 base) : base = 2 ∨ base = 0 := by
    induction h with
    | refl => exact .inl rfl
    | tail _ next ih =>
      rcases ih with rfl | rfl
      · have : garageSchema.base? 2 = some 0 := by decide +kernel
        grind
      · have : garageSchema.base? 0 = none := by decide +kernel
        grind
  have present (base : NodeId) (h : garageSchema.Extends 2 base) : base < garageSchema.size := by
    rcases reached base h with rfl | rfl <;> decide +kernel
  have apart : ∀ edit ∈ lampEdits, ∀ id, edit.target? = some id →
      ¬ garageSchema.footprint 2 id := by
    rintro edit listed id target ⟨base, extended, within⟩
    have outside : id = 5 ∨ id = 6 := by
      simp only [lampEdits, List.mem_cons, List.not_mem_nil, or_false] at listed
      rcases listed with rfl | rfl | rfl | rfl <;> simp [Edit.target?] at target <;> grind
    have top : garageSchema.parent? id = none := by
      rcases outside with rfl | rfl <;> decide +kernel
    obtain rfl := eq_of_isWithin within top
    have := reached id extended
    grind
  have compiled : (garageSchema.compileUnit {} 2).toOption.map (·.rows.length) = some 2 := by
    decide +kernel
  have same := compileUnit_run grown present apart
  exact ⟨grown, present, apart, by decide +kernel, by rw [same, compiled], same⟩

end Schema

end PropertyTables
