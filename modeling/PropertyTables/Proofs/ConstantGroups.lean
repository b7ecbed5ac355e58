import PropertyTables.Constant
import PropertyTables.Proofs.Ambiguity

/-!
# The constants of a unit

All groups of a unit are gone through with one record of the constants met. A clash of symbols ends
this at once. A constant that has no encoding does not: its error is kept, and all errors are
reported when every constant has been met.

## Main definitions

* `Schema.listedConstants`: the constants of some groups, in order.
* `Encoding.of`: the record after some constants.
* `Schema.constantPlaces`, `Schema.failures`: the constants by position, and the errors of those
  that have no encoding.
* `Schema.TableOf`: what the table of a group holds.
-/

namespace PropertyTables

variable {unit group : String} {bits : Nat}

namespace Listed

def error? (c : Listed) (unit : String) (bits : Nat) : Option ConstantError :=
  match c.encode unit bits with
  | .ok _ => none
  | .error error => some error

def encoded? (c : Listed) (unit : String) (bits : Nat) : Option EncodedConstant :=
  (c.encode unit bits).toOption

/-- The encoding of a constant is made from the resource that its value denotes. -/
theorem exists_resource {c : Listed} {e : EncodedConstant} (h : c.encode unit bits = .ok e) :
    ∃ (constant : Constant) (id : ResourceId), c.node.kind.constant? = some constant ∧
      ResourceId.parse constant.value bits = .ok id ∧
      e = ⟨c.node.name, c.symbol, id.toBytes, id.literal, constant.value⟩ := by
  unfold encode encodeValue at h
  split at h
  · rename_i constant found
    split at h
    · rename_i id read
      cases h
      exact ⟨constant, id, found, read, rfl⟩
    · cases h
  · cases h

theorem symbol_of_encode {c : Listed} {e : EncodedConstant} (h : c.encode unit bits = .ok e) :
    e.symbol = c.symbol := by
  obtain ⟨constant, id, -, -, rfl⟩ := exists_resource h
  rfl

/-- The error about two constants of a unit with the same symbol. -/
def ambiguity (unit : String) (first second : Listed) : Error :=
  .ambiguous unit second.symbol first.qualified second.qualified

end Listed

/-- What is known after some constants of a unit. -/
def Encoding.of (unit : String) (bits : Nat) (cs : List Listed) : Encoding where
  seen := cs
  errors := cs.filterMap (·.error? unit bits)

theorem Encoding.of_nil (unit : String) (bits : Nat) : Encoding.of unit bits [] = {} := rfl

namespace Schema

variable {s : Schema} {id : NodeId} {ids groups : List NodeId} {cs : List Listed}

/-- The constants that a group of some name lists. -/
def listed (s : Schema) (group : String) (ids : List NodeId) : List Listed :=
  ids.filterMap fun id => (s.node? id).map (Listed.mk group)

def groupConstants (s : Schema) (id : NodeId) : List Listed :=
  match s.kind? id with
  | some (.group g) => s.listed (s.name id) g.constants
  | _ => []

/-- The constants of some groups, group by group. -/
def listedConstants (s : Schema) (groups : List NodeId) : List Listed :=
  groups.flatMap s.groupConstants

/-- The table of a group, without the constants that have no encoding. -/
def groupTable (s : Schema) (unit : String) (bits : Nat) (id : NodeId) : GroupTable where
  name := s.name id
  number := s.number id
  constants := (s.groupConstants id).filterMap (·.encoded? unit bits)

/-- A group whose constants are all there. -/
def IsGroup (s : Schema) (id : NodeId) : Prop :=
  ∃ g, s.kind? id = some (.group g) ∧ ∀ constant ∈ g.constants, ∃ node, s.node? constant = some node

/-! ## One constant, one group, all groups -/

theorem encodeNext_outcome (c : Listed) (found : s.node? id = some c.node)
    (distinct : (cs.map Listed.symbol).Nodup) (encoded : List EncodedConstant) :
    (∃ first ∈ cs, first.symbol = c.symbol ∧
      s.encodeNext unit c.group bits (.of unit bits cs, encoded) id =
        .error (Listed.ambiguity unit first c)) ∨
    (((cs ++ [c]).map Listed.symbol).Nodup ∧
      s.encodeNext unit c.group bits (.of unit bits cs, encoded) id =
        .ok (.of unit bits (cs ++ [c]), encoded ++ (c.encoded? unit bits).toList)) := by
  rw [nodup_concat_iff distinct, encodeNext, node_eq_ok.2 found]
  cases taken : cs.find? (·.symbol = c.symbol) with
  | some first =>
    left
    refine ⟨first, List.mem_of_find?_eq_some taken, by simpa using List.find?_some taken, ?_⟩
    simp only [bind, Except.bind, Encoding.of, taken]
    rfl
  | none =>
    right
    refine ⟨by simpa using List.find?_eq_none.1 taken, ?_⟩
    simp only [bind, Except.bind, Encoding.of, taken]
    cases outcome : c.encode unit bits with
    | ok e => simp [Listed.error?, Listed.encoded?, outcome, Except.toOption]
    | error error => simp [Listed.error?, Listed.encoded?, outcome, Except.toOption]

theorem encodeNext_foldlM_outcome (present : ∀ id ∈ ids, ∃ node, s.node? id = some node)
    (distinct : (cs.map Listed.symbol).Nodup) (encoded : List EncodedConstant) :
    (∃ first second, Clash Listed.symbol (cs ++ s.listed group ids) first second ∧
      ids.foldlM (s.encodeNext unit group bits) (.of unit bits cs, encoded) =
        .error (Listed.ambiguity unit first second)) ∨
    (((cs ++ s.listed group ids).map Listed.symbol).Nodup ∧
      ids.foldlM (s.encodeNext unit group bits) (.of unit bits cs, encoded) =
        .ok (.of unit bits (cs ++ s.listed group ids),
          encoded ++ (s.listed group ids).filterMap (·.encoded? unit bits))) := by
  induction ids generalizing cs encoded with
  | nil => exact .inr ⟨by simpa [listed] using distinct, by simp [listed, pure, Except.pure]⟩
  | cons id ids ih =>
    obtain ⟨⟨node, found⟩, present⟩ := List.forall_mem_cons.1 present
    have first : s.listed group (id :: ids) = ⟨group, node⟩ :: s.listed group ids := by
      simp [listed, found]
    rw [List.foldlM_cons, first]
    rcases encodeNext_outcome ⟨group, node⟩ found distinct encoded with
      ⟨earlier, listed, same, failed⟩ | ⟨distinct', taken⟩
    · refine .inl ⟨earlier, ⟨group, node⟩, ⟨⟨cs, _, rfl, distinct, listed⟩, same⟩, ?_⟩
      rw [failed, error_bind]
    · have split : (Listed.mk group node :: s.listed group ids).filterMap (·.encoded? unit bits) =
          ((Listed.mk group node).encoded? unit bits).toList ++
            (s.listed group ids).filterMap (·.encoded? unit bits) := by
        rw [List.filterMap_cons]
        split <;> simp [*]
      rw [taken, ok_bind, split, List.append_cons, ← List.append_assoc encoded]
      exact ih present distinct' _

/-- A group adds its constants to those of the groups before it, and its table. -/
theorem encodeGroup_outcome (isGroup : s.IsGroup id) (distinct : (cs.map Listed.symbol).Nodup)
    (tables : List GroupTable) :
    (∃ first second, Clash Listed.symbol (cs ++ s.groupConstants id) first second ∧
      s.encodeGroup unit bits (.of unit bits cs, tables) id =
        .error (Listed.ambiguity unit first second)) ∨
    (((cs ++ s.groupConstants id).map Listed.symbol).Nodup ∧
      s.encodeGroup unit bits (.of unit bits cs, tables) id =
        .ok (.of unit bits (cs ++ s.groupConstants id), tables ++ [s.groupTable unit bits id])) := by
  obtain ⟨g, kind, present⟩ := isGroup
  obtain ⟨node, found, hkind⟩ := Option.map_eq_some_iff.1 kind
  have constants : s.groupConstants id = s.listed node.name g.constants := by
    simp [groupConstants, kind, name_of_node? found]
  simp only [encodeGroup, node_eq_ok.2 found, ok_bind, hkind, groupTable, constants,
    name_of_node? found, number_of_node? found]
  rcases encodeNext_foldlM_outcome present distinct [] with
    ⟨first, second, clash, failed⟩ | ⟨distinct', taken⟩
  · refine .inl ⟨first, second, clash, ?_⟩
    rw [failed, error_bind]
  · refine .inr ⟨distinct', ?_⟩
    rw [taken, ok_bind, List.nil_append]

theorem encodeGroup_foldlM_outcome (areGroups : ∀ id ∈ groups, s.IsGroup id)
    (distinct : (cs.map Listed.symbol).Nodup) (tables : List GroupTable) :
    (∃ first second, Clash Listed.symbol (cs ++ s.listedConstants groups) first second ∧
      groups.foldlM (s.encodeGroup unit bits) (.of unit bits cs, tables) =
        .error (Listed.ambiguity unit first second)) ∨
    (((cs ++ s.listedConstants groups).map Listed.symbol).Nodup ∧
      groups.foldlM (s.encodeGroup unit bits) (.of unit bits cs, tables) =
        .ok (.of unit bits (cs ++ s.listedConstants groups),
          tables ++ groups.map (s.groupTable unit bits))) := by
  induction groups generalizing cs tables with
  | nil =>
    exact .inr ⟨by simpa [listedConstants] using distinct,
      by simp [listedConstants, pure, Except.pure]⟩
  | cons id groups ih =>
    obtain ⟨isGroup, areGroups⟩ := List.forall_mem_cons.1 areGroups
    rw [List.foldlM_cons, listedConstants, List.flatMap_cons, ← List.append_assoc, List.map_cons]
    rcases encodeGroup_outcome isGroup distinct tables with
      ⟨first, second, clash, failed⟩ | ⟨distinct', taken⟩
    · refine .inl ⟨first, second, clash.append _, ?_⟩
      rw [failed, error_bind]
    · rw [List.append_cons tables, taken, ok_bind]
      exact ih areGroups distinct' _

/-- The constants of the groups of a unit are encoded all together: the first clash of symbols is
reported, and otherwise all constants that have no encoding are. -/
theorem encodeGroups_outcome (areGroups : ∀ id ∈ groups, s.IsGroup id) :
    (∃ first second, Clash Listed.symbol (s.listedConstants groups) first second ∧
      s.encodeGroups unit groups bits = .error (Listed.ambiguity unit first second)) ∨
    (((s.listedConstants groups).map Listed.symbol).Nodup ∧
      s.encodeGroups unit groups bits =
        let errors := (s.listedConstants groups).filterMap (·.error? unit bits)
        if errors.isEmpty then .ok (groups.map (s.groupTable unit bits))
        else .error (.constants unit errors)) := by
  have none : (([] : List Listed).map Listed.symbol).Nodup := List.nodup_nil
  rw [encodeGroups, ← Encoding.of_nil unit bits]
  rcases encodeGroup_foldlM_outcome areGroups none [] with
    ⟨first, second, clash, failed⟩ | ⟨distinct, taken⟩
  · refine .inl ⟨first, second, clash, ?_⟩
    rw [failed, error_bind]
  · refine .inr ⟨distinct, ?_⟩
    rw [taken, ok_bind]
    rfl

/-! ## Groups and their constants by position -/

/-- The constants that a group lists. -/
def constantIds (s : Schema) (group : NodeId) : List NodeId :=
  match s.kind? group with
  | some (.group g) => g.constants
  | _ => []

/-- The constants of some groups in order, each behind its group. -/
def constantPlaces (s : Schema) (groups : List NodeId) : List (NodeId × NodeId) :=
  groups.flatMap fun group => (s.constantIds group).map (group, ·)

def placeSymbol (s : Schema) (place : NodeId × NodeId) : String :=
  constantSymbol (s.name place.1) (s.name place.2)

def placeName (s : Schema) (place : NodeId × NodeId) : String :=
  s.name place.1 ++ "." ++ s.name place.2

/-- Why the constant at a place has no encoding. -/
def failure? (s : Schema) (unit : String) (bits : Nat) (place : NodeId × NodeId) : Option Error :=
  match s.encodeConstant unit place.1 place.2 bits with
  | .ok _ => none
  | .error error => some error

/-- The errors of the constants of some groups that have no encoding, in order. -/
def failures (s : Schema) (unit : String) (bits : Nat) (groups : List NodeId) : List Error :=
  (s.constantPlaces groups).filterMap (s.failure? unit bits)

/-- A group all of whose members are constants. -/
def HoldsConstants (s : Schema) (group : NodeId) : Prop :=
  ∃ g, s.kind? group = some (.group g) ∧
    ∀ constant ∈ g.constants, ∃ c, s.kind? constant = some (.constant c)

/-- The table of a group: each constant that it lists is encoded, in the order of the list. -/
structure TableOf (s : Schema) (unit : String) (bits : Nat) (group : NodeId) (table : GroupTable) :
    Prop where
  name : table.name = s.name group
  number : table.number = s.number group
  constants : List.Forall₂ (fun constant encoded =>
    s.encodeConstant unit group constant bits = .ok encoded) (s.constantIds group) table.constants

/-- The constant at a place is the listed one. -/
structure Lists (s : Schema) (place : NodeId × NodeId) (c : Listed) : Prop where
  group : ∃ node, s.node? place.1 = some node ∧ node.name = c.group
  node : s.node? place.2 = some c.node

variable {place : NodeId × NodeId} {c : Listed} {group : NodeId} {e : EncodedConstant}
  {tables : List GroupTable}

theorem HoldsConstants.isGroup (holds : s.HoldsConstants id) : s.IsGroup id := by
  obtain ⟨g, found, constants⟩ := holds
  refine ⟨g, found, fun constant listed => ?_⟩
  obtain ⟨c, isConstant⟩ := constants constant listed
  obtain ⟨node, present, -⟩ := Option.map_eq_some_iff.1 isConstant
  exact ⟨node, present⟩

namespace Lists

theorem symbol_eq (lists : s.Lists place c) : s.placeSymbol place = c.symbol := by
  obtain ⟨node, found, named⟩ := lists.group
  rw [placeSymbol, name_of_node? found, name_of_node? lists.node, named, Listed.symbol]

theorem name_eq (lists : s.Lists place c) : s.placeName place = c.qualified := by
  obtain ⟨node, found, named⟩ := lists.group
  rw [placeName, name_of_node? found, name_of_node? lists.node, named, Listed.qualified]

/-- Encoding a constant by its position is encoding it as its group lists it. -/
theorem encodeConstant_eq (lists : s.Lists place c) :
    s.encodeConstant unit place.1 place.2 bits = (c.encode unit bits).mapError .constant := by
  obtain ⟨node, found, named⟩ := lists.group
  rw [encodeConstant, node_eq_ok.2 lists.node, ok_bind, name_of_node? found, named,
    node_eq_ok.2 found]
  cases c.encode unit bits <;> rfl

theorem failure?_eq (lists : s.Lists place c) :
    s.failure? unit bits place = (c.error? unit bits).map .constant := by
  rw [failure?, lists.encodeConstant_eq, Listed.error?]
  cases c.encode unit bits <;> rfl

end Lists

theorem groupConstants_eq (s : Schema) (group : NodeId) :
    s.groupConstants group =
      (s.constantIds group).filterMap fun id => (s.node? id).map (Listed.mk (s.name group)) := by
  unfold groupConstants constantIds
  split
  · rfl
  · rfl

theorem listedConstants_eq (s : Schema) (groups : List NodeId) :
    s.listedConstants groups = (s.constantPlaces groups).filterMap fun place =>
      (s.node? place.2).map (Listed.mk (s.name place.1)) := by
  rw [listedConstants, constantPlaces, List.filterMap_flatMap, funext s.groupConstants_eq]
  simp only [List.filterMap_map]
  rfl

theorem exists_lists (isGroup : s.IsGroup group) (listed : id ∈ s.constantIds group) :
    ∃ c, (s.node? id).map (Listed.mk (s.name group)) = some c ∧ s.Lists (group, id) c := by
  obtain ⟨g, found, present⟩ := isGroup
  have listed : id ∈ g.constants := by simpa [constantIds, found] using listed
  obtain ⟨node, hnode⟩ := present id listed
  obtain ⟨above, habove, -⟩ := Option.map_eq_some_iff.1 found
  exact ⟨⟨s.name group, node⟩, by simp [hnode], ⟨above, habove, (name_of_node? habove).symm⟩, hnode⟩

/-- The places of some groups and the constants that are gone through are the same in order. -/
theorem forall₂_lists (areGroups : ∀ id ∈ groups, s.IsGroup id) :
    List.Forall₂ s.Lists (s.constantPlaces groups) (s.listedConstants groups) := by
  rw [listedConstants_eq]
  refine forall₂_filterMap fun place hplace => ?_
  obtain ⟨group, hgroup, hplace⟩ := List.mem_flatMap.1 hplace
  obtain ⟨id, hid, rfl⟩ := List.mem_map.1 hplace
  exact exists_lists (areGroups group hgroup) hid

/-- The errors that are kept are those of the constants that fail, in order. -/
theorem map_errors_eq (areGroups : ∀ id ∈ groups, s.IsGroup id) :
    ((s.listedConstants groups).filterMap (·.error? unit bits)).map Error.constant =
      s.failures unit bits groups := by
  have same : (s.constantPlaces groups).map (s.failure? unit bits) =
      (s.listedConstants groups).map fun c => (c.error? unit bits).map Error.constant :=
    map_eq_of_forall₂ (forall₂_lists areGroups) fun _ _ lists => lists.failure?_eq
  have kept := congrArg (List.filterMap id) same
  rw [List.filterMap_map, List.filterMap_map] at kept
  rw [List.map_filterMap]
  exact kept.symm

/-- Where no constant of a group fails, its table has all of them. -/
theorem tableOf_groupTable (isGroup : s.IsGroup group)
    (passed : ∀ id ∈ s.constantIds group, s.failure? unit bits (group, id) = none) :
    s.TableOf unit bits group (s.groupTable unit bits group) where
  name := rfl
  number := rfl
  constants := by
    rw [groupTable, groupConstants_eq, List.filterMap_filterMap]
    refine forall₂_filterMap fun id listed => ?_
    obtain ⟨c, found, lists⟩ := exists_lists isGroup listed
    have passed := passed id listed
    rw [lists.failure?_eq, Listed.error?] at passed
    rw [found, Option.bind_some, lists.encodeConstant_eq, Listed.encoded?]
    cases outcome : c.encode unit bits with
    | ok e => exact ⟨e, rfl, rfl⟩
    | error error => simp [outcome] at passed

theorem exists_encode (h : s.encodeConstant unit group id bits = .ok e) :
    ∃ node, s.node? id = some node ∧ Listed.encode ⟨s.name group, node⟩ unit bits = .ok e := by
  obtain ⟨node, found, h⟩ := bind_eq_ok.1 h
  split at h
  · cases h
  · rename_i encoded outcome
    obtain ⟨-, -, h⟩ := bind_eq_ok.1 h
    cases h
    exact ⟨node, node_eq_ok.1 found, outcome⟩

theorem symbol_of_encodeConstant (h : s.encodeConstant unit group id bits = .ok e) :
    e.symbol = s.placeSymbol (group, id) := by
  obtain ⟨node, found, encoded⟩ := exists_encode h
  rw [placeSymbol, name_of_node? found, Listed.symbol_of_encode encoded, Listed.symbol]

/-- The symbols in the tables are those of the places. -/
theorem map_symbol_tables (made : List.Forall₂ (s.TableOf unit bits) groups tables) :
    (tables.flatMap GroupTable.constants).map EncodedConstant.symbol =
      (s.constantPlaces groups).map s.placeSymbol := by
  induction made with
  | nil => rfl
  | @cons group table groups tables made _ ih =>
    have places : s.constantPlaces (group :: groups) =
        (s.constantIds group).map (group, ·) ++ s.constantPlaces groups := rfl
    have first : (s.constantIds group).map (fun id => s.placeSymbol (group, id)) =
        table.constants.map EncodedConstant.symbol :=
      map_eq_of_forall₂ made.constants fun _ _ h => (symbol_of_encodeConstant h).symm
    rw [List.flatMap_cons, List.map_append, ih, ← first, places, List.map_append, List.map_map]
    rfl

/-- The constants of some groups are encoded together. If two have the same symbol, the result is an
ambiguity about the earliest constant whose symbol was taken and the one that took it, whatever else
fails. Otherwise, if some have no encoding, it is the list of all their errors in order. Otherwise
it is the table of each group, and no symbol stands twice in the tables. -/
theorem encodeGroups_exact (areGroups : ∀ id ∈ groups, s.HoldsConstants id) :
    ((∃ name symbol first second,
        s.encodeGroups unit groups bits = .error (.ambiguous name symbol first second)) ↔
      ¬ ((s.constantPlaces groups).map s.placeSymbol).Nodup) ∧
    (¬ ((s.constantPlaces groups).map s.placeSymbol).Nodup →
      ∃ first second, Clash s.placeSymbol (s.constantPlaces groups) first second ∧
        (∀ p q, Clash s.placeSymbol (s.constantPlaces groups) p q → p = first ∧ q = second) ∧
        s.encodeGroups unit groups bits = .error
          (.ambiguous unit (s.placeSymbol second) (s.placeName first) (s.placeName second))) ∧
    (((s.constantPlaces groups).map s.placeSymbol).Nodup → s.failures unit bits groups ≠ [] →
      ∃ errors, s.encodeGroups unit groups bits = .error (.constants unit errors) ∧
        errors.map Error.constant = s.failures unit bits groups) ∧
    (((s.constantPlaces groups).map s.placeSymbol).Nodup → s.failures unit bits groups = [] →
      ∃ tables, s.encodeGroups unit groups bits = .ok tables ∧
        List.Forall₂ (s.TableOf unit bits) groups tables ∧
        ((tables.flatMap GroupTable.constants).map EncodedConstant.symbol).Nodup) := by
  have areGroups : ∀ id ∈ groups, s.IsGroup id := fun id h => (areGroups id h).isGroup
  have related := forall₂_lists areGroups
  rcases encodeGroups_outcome areGroups with ⟨first, second, clash, failed⟩ | ⟨distinct, encoded⟩
  · obtain ⟨p, q, clash, hp, hq⟩ := clash.of_forall₂ related fun _ _ lists => lists.symbol_eq
    have ambiguous : ¬ ((s.constantPlaces groups).map s.placeSymbol).Nodup := clash.not_nodup
    refine ⟨iff_of_true ⟨_, _, _, _, failed⟩ ambiguous, fun _ => ⟨p, q, clash, ?_, ?_⟩,
      fun distinct => absurd distinct ambiguous, fun distinct => absurd distinct ambiguous⟩
    · exact fun p' q' clash' => clash'.unique clash
    · rw [failed, Listed.ambiguity, hp.name_eq, hq.name_eq, hq.symbol_eq]
  · rw [← map_eq_of_forall₂ related fun _ _ lists => lists.symbol_eq] at distinct
    have failures : ((s.listedConstants groups).filterMap (·.error? unit bits)).map Error.constant =
        s.failures unit bits groups := map_errors_eq areGroups
    refine ⟨iff_of_false ?_ (not_not.2 distinct), fun clash => absurd distinct clash,
      fun _ some => ?_, fun _ none => ?_⟩
    · rintro ⟨name, symbol, first, second, failed⟩
      rw [encoded] at failed
      dsimp only at failed
      split at failed <;> cases failed
    · rw [← failures, ne_eq, List.map_eq_nil_iff] at some
      exact ⟨_, encoded.trans (if_neg (by simpa using some)), failures⟩
    · have made :
          List.Forall₂ (s.TableOf unit bits) groups (groups.map (s.groupTable unit bits)) := by
        rw [List.forall₂_map_right_iff, List.forall₂_same]
        intro group hgroup
        refine tableOf_groupTable (areGroups group hgroup) fun id hid => ?_
        refine List.filterMap_eq_nil_iff.1 none _ (List.mem_flatMap.2 ⟨group, hgroup, ?_⟩)
        exact List.mem_map_of_mem hid
      rw [← failures, List.map_eq_nil_iff] at none
      refine ⟨_, encoded.trans (if_pos (by simpa using none)), made, ?_⟩
      rwa [map_symbol_tables made]

/-- Three groups: the second clashes with the first, which has a constant that is no resource. -/
def plugSchema : Schema := Schema.empty.run [
  .declare "weave.trait.example" "PlugTrait" (.trait 2582),
  .attach 0 "ResourceId" (.group 1),
  .attach 1 "RESOURCE_ID_HUB" (.constant 1 "DEVICE_1"),
  .attach 1 "LINK" (.constant 2 "none"),
  .attach 0 "Extra" (.group 2),
  .attach 4 "Hub" (.constant 1 "0x2"),
  .attach 0 "Ports" (.group 3),
  .attach 6 "FIRST" (.constant 1 "3")]

/-- The clash is reported although a constant before it fails. -/
theorem plugSchema_encodeGroups :
    (∀ id ∈ [1, 4, 6], plugSchema.HoldsConstants id) ∧
      plugSchema.encodeGroups "Plug" [1, 4] 64 =
        .error (.ambiguous "Plug" "HUB" "ResourceId.RESOURCE_ID_HUB" "Extra.Hub") ∧
      (∃ errors, plugSchema.encodeGroups "Plug" [1, 6] 64 = .error (.constants "Plug" errors) ∧
        errors.map Error.constant = [.constant (.literal "Plug" "LINK" "none" .malformed)]) ∧
      ∃ tables, plugSchema.encodeGroups "Plug" [4, 6] 64 = .ok tables ∧
        List.Forall₂ (plugSchema.TableOf "Plug" 64) [4, 6] tables := by
  have first : plugSchema.HoldsConstants 1 := by
    refine ⟨⟨[2, 3]⟩, by decide +kernel, ?_⟩
    simp only [List.forall_mem_cons, List.not_mem_nil, false_imp_iff, implies_true, and_true]
    exact ⟨⟨⟨"DEVICE_1"⟩, by decide +kernel⟩, ⟨"none"⟩, by decide +kernel⟩
  have second : plugSchema.HoldsConstants 4 := by
    refine ⟨⟨[5]⟩, by decide +kernel, ?_⟩
    simp only [List.mem_singleton, forall_eq]
    exact ⟨⟨"0x2"⟩, by decide +kernel⟩
  have third : plugSchema.HoldsConstants 6 := by
    refine ⟨⟨[7]⟩, by decide +kernel, ?_⟩
    simp only [List.mem_singleton, forall_eq]
    exact ⟨⟨"3"⟩, by decide +kernel⟩
  have clash : Clash plugSchema.placeSymbol (plugSchema.constantPlaces [1, 4]) (1, 2) (4, 5) :=
    ⟨⟨[(1, 2), (1, 3)], [], by decide +kernel, by decide +kernel, by simp⟩, by decide +kernel⟩
  have outcome {groups} := @encodeGroups_exact "Plug" 64 plugSchema groups
  obtain ⟨-, ambiguous, -, -⟩ :=
    outcome (List.forall_mem_cons.2 ⟨first, List.forall_mem_singleton.2 second⟩)
  obtain ⟨p, q, -, unique, reported⟩ := ambiguous clash.not_nodup
  obtain ⟨rfl, rfl⟩ := unique _ _ clash
  obtain ⟨-, -, failing, -⟩ :=
    outcome (List.forall_mem_cons.2 ⟨first, List.forall_mem_singleton.2 third⟩)
  have failures : plugSchema.failures "Plug" 64 [1, 6] =
      [.constant (.literal "Plug" "LINK" "none" .malformed)] := by decide +kernel
  obtain ⟨-, -, -, passing⟩ :=
    outcome (List.forall_mem_cons.2 ⟨second, List.forall_mem_singleton.2 third⟩)
  obtain ⟨tables, encoded, made, -⟩ := passing (by decide +kernel) (by decide +kernel)
  refine ⟨?_, reported.trans (by decide +kernel), ?_, tables, encoded, made⟩
  · simp [first, second, third]
  · rw [← failures]
    exact failing (by decide +kernel) (by simp [failures])

end Schema

end PropertyTables
