import PropertyTables.Proofs.BaseChains

/-!
# What a unit has to satisfy

The check of a unit goes down its lists of children and stops at the first fault. It passes exactly
when the lists of every node that it can come to are in order, and a trait has a version, bases that
come to an end, and the fields of its base. A field of the base is looked up by its name alone, and
the first field of that name counts; as names are distinct in a list there is no other.

## Main definitions

* `Schema.Reaches`: the nodes that are met by going down lists of children.
* `Schema.WellListed`: what each of these satisfies.
* `Schema.WellExtended`: what a trait satisfies besides.
-/

namespace PropertyTables.Schema

variable {s : Schema} {unit id base field own : NodeId} {name : String} {t : Trait}

/-- The nodes that are met by going down lists of children. -/
def Reaches (s : Schema) : NodeId → NodeId → Prop :=
  Relation.ReflTransGen fun parent child => child ∈ s.childIds parent

/-- The children that a node lists are its own, and those of one list differ in name and in number.
So do the values of an enum. -/
structure WellListed (s : Schema) (id : NodeId) : Prop where
  owned {list : ChildList} {child : NodeId} : list ∈ s.childLists id → child ∈ list.ids →
    s.parent? child = some id
  names {list : ChildList} : list ∈ s.childLists id → (list.ids.map s.name).Nodup
  numbers {list : ChildList} : list ∈ s.childLists id → (list.ids.map s.number).Nodup
  valueNames {e : Enum} : s.kind? id = some (.enum e) → (e.values.map EnumValue.name).Nodup
  valueNumbers {e : Enum} : s.kind? id = some (.enum e) → (e.values.map EnumValue.number).Nodup

/-- A trait has a version, its bases come to an end, and it has the top-level fields of its base
under their numbers. -/
structure WellExtended (s : Schema) (unit : NodeId) (t : Trait) : Prop where
  version : 1 ≤ t.version.toNat
  bases : s.ProperBases unit
  inherited {base field : NodeId} {b : Trait} : t.base = some base → s.trait? base = some b →
    field ∈ b.state → ∃ own ∈ t.state, s.name own = s.name field ∧ s.number own = s.number field

/-! ## Lists of children -/

theorem verifyValue_eq_ok {earlier : List EnumValue} {value : EnumValue} :
    s.verifyValue name id earlier value = .ok () ↔
      (∀ other ∈ earlier, other.name ≠ value.name) ∧
        ∀ other ∈ earlier, other.number ≠ value.number := by
  simp only [verifyValue, List.any_eq_true, decide_eq_true_eq]
  split
  · grind
  · split <;> grind

/-- Values of an enum are told apart by their names and by their numbers. -/
theorem verifyValues_eq_ok : s.verifyValues name id = .ok () ↔
    ∀ e, s.kind? id = some (.enum e) →
      (e.values.map EnumValue.name).Nodup ∧ (e.values.map EnumValue.number).Nodup := by
  unfold verifyValues
  split
  · rename_i e found
    simp only [forM_eq_ok, verifyValue_eq_ok, nodup_map_iff_withEarlier, found, Option.some.injEq,
      Kind.enum.injEq, forall_eq']
    exact forall₂_and
  · rename_i other
    simp only [true_iff]
    intro e found
    exact absurd found (other e)

theorem wellListed_of_verifySiblings (checked : s.verifySiblings name id = .ok ()) :
    s.WellListed id := by
  obtain ⟨values, lists⟩ := verifySiblings_eq_ok.1 checked
  rw [verifyValues_eq_ok] at values
  exact {
    owned := fun hlist hchild => ((lists _ hlist).1 _ hchild).1
    names := fun hlist => (lists _ hlist).2.1
    numbers := fun hlist => (lists _ hlist).2.2
    valueNames := fun found => (values _ found).1
    valueNumbers := fun found => (values _ found).2 }

/-- The check at a node covers all nodes that it can come to from there. -/
theorem verifySiblings_of_reaches (checked : s.verifySiblings name unit = .ok ())
    (reached : s.Reaches unit id) : s.verifySiblings name id = .ok () := by
  induction reached with
  | refl => exact checked
  | tail _ listed ih =>
    obtain ⟨list, hlist, hid⟩ := mem_childIds.1 listed
    exact (((verifySiblings_eq_ok.1 ih).2 list hlist).1 _ hid).2

/-- The check passes where all lists below are in order. It ends, since it enters a node from its
parent only, and that comes earlier. -/
theorem verifySiblings_of_wellListed (sound : ∀ other, s.Reaches id other → s.WellListed other) :
    s.verifySiblings name id = .ok () := by
  induction h : s.size - id using Nat.strong_induction_on generalizing id with
  | _ n ih =>
    subst h
    have here := sound id .refl
    refine verifySiblings_eq_ok.2 ⟨verifyValues_eq_ok.2 fun e found => ?_, fun list hlist => ?_⟩
    · exact ⟨here.valueNames found, here.valueNumbers found⟩
    · refine ⟨fun child hchild => ?_, here.names hlist, here.numbers hlist⟩
      have owned := here.owned hlist hchild
      have listed := mem_childIds.2 ⟨list, hlist, hchild⟩
      have later := parent?_lt owned
      have inside := lt_size_of_parent? owned
      exact ⟨owned, ih _ (by omega) (fun other reached => sound other (.head listed reached)) rfl⟩

theorem verifySiblings_iff_wellListed : s.verifySiblings name unit = .ok () ↔
    ∀ id, s.Reaches unit id → s.WellListed id := by
  refine ⟨fun checked id reached => ?_, verifySiblings_of_wellListed⟩
  exact wellListed_of_verifySiblings (verifySiblings_of_reaches checked reached)

/-! ## Traits -/

/-- In a list of distinct names the first field of a name is the only one. -/
theorem verifyInheritedField_of_mem (distinct : (t.state.map s.name).Nodup)
    (listed : own ∈ t.state) (sameName : s.name own = s.name field)
    (sameNumber : s.number own = s.number field) :
    s.verifyInheritedField unit base t field = .ok () := by
  unfold verifyInheritedField
  cases found : t.state.find? (s.name · = s.name field) with
  | none => exact absurd sameName (by simpa using List.find?_eq_none.1 found own listed)
  | some other =>
    have first : s.name other = s.name field := by simpa using List.find?_some found
    obtain rfl : other = own := List.inj_on_of_nodup_map distinct
      (List.mem_of_find?_eq_some found) listed (first.trans sameName.symm)
    simp [sameNumber]

theorem verifyInherited_iff (distinct : (t.state.map s.name).Nodup) :
    s.verifyInherited unit t = .ok () ↔
      ∀ base b field, t.base = some base → s.trait? base = some b → field ∈ b.state →
        ∃ own ∈ t.state, s.name own = s.name field ∧ s.number own = s.number field := by
  constructor
  · intro passed base b field extended isBase listed
    simp only [verifyInherited, extended, isBase, forM_eq_ok] at passed
    exact verifyInheritedField_eq_ok (passed field listed)
  · intro inherited
    unfold verifyInherited
    split
    · rfl
    · rename_i base extended
      split
      · rfl
      · rename_i b isBase
        refine (forM_eq_ok _).2 fun field listed => ?_
        obtain ⟨own, hown, sameName, sameNumber⟩ := inherited base b field extended isBase listed
        exact verifyInheritedField_of_mem distinct hown sameName sameNumber

theorem verifyTrait_iff_wellExtended (inside : unit < s.size)
    (distinct : (t.state.map s.name).Nodup) :
    s.verifyTrait unit t = .ok () ↔ s.WellExtended unit t := by
  have version : t.version ≠ 0 ↔ 1 ≤ t.version.toNat := by
    rw [Nat.one_le_iff_ne_zero, ne_eq, ne_eq, ← UInt32.toNat_inj]
    rfl
  rw [verifyTrait_eq_ok, exists_extendsChain_iff_properBases inside, verifyInherited_iff distinct,
    version]
  constructor
  · rintro ⟨version, bases, inherited⟩
    exact ⟨version, bases, fun extended => inherited _ _ _ extended⟩
  · intro sound
    exact ⟨sound.version, sound.bases, fun _ _ _ extended => sound.inherited extended⟩

/-- A unit passes its check exactly when every node that it can come to through lists of children
is in order, and, if it is a trait, its version, its bases and the fields it inherits are too. -/
theorem verifyUnit_iff_wellFormed (s : Schema) (unit : NodeId) : s.verifyUnit unit = .ok () ↔
    unit < s.size ∧ (∀ t, s.trait? unit = some t → s.WellExtended unit t) ∧
      ∀ id, s.Reaches unit id → s.WellListed id := by
  have names {t : Trait} (isTrait : s.trait? unit = some t) (sound : s.WellListed unit) :
      (t.state.map s.name).Nodup := by
    have listed : ⟨"state_list", t.state⟩ ∈ s.childLists unit := by
      simp [childLists_of_kind? (kind?_of_trait? isTrait), Kind.childLists]
    exact sound.names listed
  rw [verifyUnit_eq_ok]
  constructor
  · rintro ⟨node, found, traits, siblings⟩
    have sound := verifySiblings_iff_wellListed.1 siblings
    refine ⟨node?_lt found, fun t isTrait => ?_, sound⟩
    have distinct := names isTrait (sound unit .refl)
    rw [← verifyTrait_iff_wellExtended (node?_lt found) distinct]
    exact traits t (by simpa [trait?, kind?, found] using isTrait)
  · rintro ⟨inside, traits, sound⟩
    have found : s.node? unit = some s.nodes[unit] := Array.getElem?_eq_getElem inside
    refine ⟨_, found, fun t isTrait => ?_, verifySiblings_iff_wellListed.2 sound⟩
    have isTrait : s.trait? unit = some t := by simpa [trait?, kind?, found] using isTrait
    have distinct := names isTrait (sound unit .refl)
    rw [verifyTrait_iff_wellExtended inside distinct]
    exact traits t isTrait

/-- A field that has itself as a member or as its map value is refused, as it belongs to the
trait. -/
example :
    let verified (f : Field) :=
      let s := Schema.empty.run [.declare "" "A" (.trait 1), .attach 0 "f" (.field 1 f)]
      (s.verifyUnit 0).toOption
    verified {} = some () ∧ verified { members := [1] } = none ∧
      verified { value := some 1 } = none := by
  decide +kernel

/-- The fields of a response are checked: they may not share a number. -/
example :
    let command : List Edit := [.declare "" "A" (.trait 1), .attach 0 "C" (.command 1),
      .attach 1 "R" (.response 1), .attach 2 "f" (.field 1 {})]
    let verified (edit : Edit) := ((Schema.empty.run (command ++ [edit])).verifyUnit 0).toOption
    verified (.attach 2 "g" (.field 2 {})) = some () ∧
      verified (.attach 2 "g" (.field 1 {})) = none := by
  decide +kernel

end PropertyTables.Schema
