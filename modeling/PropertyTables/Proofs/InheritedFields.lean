import PropertyTables.Proofs.WellFormedUnits

/-!
# Fields along chains of bases

The check of a trait compares its fields with those of its own base alone, and takes the first field
of a name. In an accepted schema every base is a root, so that it was checked against its own base
in turn, and no list has a name twice. So a trait has every field of every trait that it extends, at
any distance, exactly once and under the same number.

## Main definitions

* `Schema.Covers`: a trait has the top-level fields of another, under their names and numbers.
-/

namespace PropertyTables

theorem filter_eq_singleton_of_nodup_map {α β : Type} [DecidableEq β] {f : α → β} {xs : List α}
    {x : α} (distinct : (xs.map f).Nodup) (listed : x ∈ xs) :
    xs.filter (fun y => f y = f x) = [x] := by
  induction xs with
  | nil => cases listed
  | cons y ys ih =>
    rw [List.map_cons, List.nodup_cons] at distinct
    obtain ⟨fresh, distinct⟩ := distinct
    rcases List.mem_cons.1 listed with rfl | later
    · have others : ys.filter (fun y => f y = f x) = [] :=
        List.filter_eq_nil_iff.2 fun y hy same =>
          fresh (by simpa [← of_decide_eq_true same] using List.mem_map_of_mem hy)
      simp [others]
    · have differ : f y ≠ f x := fun same => fresh (same ▸ List.mem_map_of_mem later)
      rw [List.filter_cons_of_neg (by simpa using differ), ih distinct later]

namespace Schema

variable {s : Schema} {derived base ancestor : NodeId} {chain : List NodeId} {a b d : Trait}

/-- A trait has the top-level fields of another, under their names and numbers. -/
def Covers (s : Schema) (derived base : Trait) : Prop :=
  ∀ field ∈ base.state, ∃ own ∈ derived.state,
    s.name own = s.name field ∧ s.number own = s.number field

theorem Covers.trans (first : s.Covers d b) (second : s.Covers b a) : s.Covers d a := by
  intro field listed
  obtain ⟨between, listedBetween, sameName, sameNumber⟩ := second field listed
  obtain ⟨own, listedOwn, sameName', sameNumber'⟩ := first between listedBetween
  exact ⟨own, listedOwn, sameName'.trans sameName, sameNumber'.trans sameNumber⟩

/-! ## What the check of one trait gives -/

theorem covers_of_verifyUnit (verified : s.verifyUnit derived = .ok ())
    (isTrait : s.trait? derived = some d) (extended : s.base? derived = some base)
    (isBase : s.trait? base = some b) : s.Covers d b := by
  have extended : d.base = some base := by simpa [base?, isTrait] using extended
  exact fun field listed => exists_inherited_field verified isTrait extended isBase listed

/-- The top-level fields of a verified trait differ in name. -/
theorem nodup_state_of_verifyUnit (verified : s.verifyUnit derived = .ok ())
    (isTrait : s.trait? derived = some d) : (d.state.map s.name).Nodup := by
  obtain ⟨-, -, -, siblings⟩ := verifyUnit_eq_ok.1 verified
  have listed : ⟨"state_list", d.state⟩ ∈ s.childLists derived := by
    simp [childLists_of_kind? (kind?_of_trait? isTrait), Kind.childLists]
  exact (wellListed_of_verifySiblings siblings).names listed

/-- Among fields of distinct names, the one that covers a field is the only one of its name. -/
theorem Covers.exists_filter_eq (covers : s.Covers d a) (distinct : (d.state.map s.name).Nodup)
    {field : NodeId} (listed : field ∈ a.state) :
    ∃ own, d.state.filter (fun id => s.name id = s.name field) = [own] ∧
      s.number own = s.number field := by
  obtain ⟨own, listedOwn, sameName, sameNumber⟩ := covers field listed
  refine ⟨own, ?_, sameNumber⟩
  rw [← sameName]
  exact filter_eq_singleton_of_nodup_map distinct listedOwn

/-! ## Along the chain -/

theorem BaseChain.descends_of_mem (h : s.BaseChain derived chain) (listed : ancestor ∈ chain) :
    s.Descends derived ancestor := by
  induction h with
  | last => cases listed
  | step extended _ _ ih =>
    rcases List.mem_cons.1 listed with rfl | later
    · exact .single extended
    · exact .head extended (ih later)

/-- What each trait of a chain covers of its base, the first covers of all that follow. -/
theorem BaseChain.covers (h : s.BaseChain derived chain)
    (checked : ∀ unit t, s.trait? unit = some t → s.verifyUnit unit = .ok ())
    (isTrait : s.trait? derived = some d) (listed : ancestor ∈ chain)
    (isAncestor : s.trait? ancestor = some a) : s.Covers d a := by
  induction h generalizing d with
  | last => cases listed
  | @step derived base b _ extended isBase above ih =>
    have direct : s.Covers d b :=
      covers_of_verifyUnit (checked derived d isTrait) isTrait extended isBase
    rcases List.mem_cons.1 listed with rfl | later
    · obtain rfl := Option.some.inj (isBase.symm.trans isAncestor)
      exact direct
    · exact direct.trans (ih isBase later)

/-- In an accepted schema the chain of bases of a trait ends and holds all traits that it reaches
through bases. Each top-level field of each of them has one field of the same name among the
top-level fields of the trait, and that has the same number. -/
theorem verify_covers (reachable : s.Reachable) (verified : s.verify = .ok ())
    (isTrait : s.trait? derived = some d) :
    ∃ chain, s.extendsChain derived = .ok chain ∧
      (∀ ancestor, ancestor ∈ chain ↔ s.Descends derived ancestor) ∧
      ∀ ancestor ∈ chain, ∃ a, s.trait? ancestor = some a ∧ ∀ field ∈ a.state,
        ∃ own, d.state.filter (fun id => s.name id = s.name field) = [own] ∧
          s.number own = s.number field := by
  have checked : ∀ unit t, s.trait? unit = some t → s.verifyUnit unit = .ok () :=
    fun unit t isTrait =>
      (verify_eq_ok.1 verified).2 unit (reachable.orderly.mem_roots_of_trait? isTrait)
  obtain ⟨chain, found⟩ :=
    exists_extendsChain (checked derived d isTrait) (classify_of_trait? isTrait)
  obtain ⟨-, bases⟩ := extendsChain_eq_ok.1 found
  refine ⟨chain, found, fun ancestor => ⟨bases.descends_of_mem, bases.mem_of_descends⟩, ?_⟩
  intro ancestor listed
  obtain ⟨a, isAncestor⟩ := bases.trait?_of_mem listed
  have covers := bases.covers checked isTrait listed isAncestor
  have distinct := nodup_state_of_verifyUnit (checked derived d isTrait) isTrait
  exact ⟨a, isAncestor, fun field hfield => covers.exists_filter_eq distinct hfield⟩

/-- Three traits in a row, each with a field more than the one it extends and with its fields in
another order. The last declared is in the middle. -/
def fanSchema : Schema := Schema.empty.run [
  .declare "weave.trait.example" "RemoteFanTrait" (.trait 2579),
  .attach 0 "channel" (.field 3 {}),
  .attach 0 "speed" (.field 2 {}),
  .attach 0 "power" (.field 1 {}),
  .declare "weave.trait.example" "SwitchTrait" (.trait 2580),
  .attach 4 "power" (.field 1 {}),
  .declare "weave.trait.example" "FanTrait" (.trait 2581),
  .attach 6 "speed" (.field 2 {}),
  .attach 6 "power" (.field 1 {}),
  .set 0 (.base 6),
  .set 6 (.base 4)]

theorem fanSchema_covers :
    fanSchema.Reachable ∧ fanSchema.verify = .ok () ∧ fanSchema.extendsChain 0 = .ok [6, 4] ∧
      ∃ d a, fanSchema.trait? 0 = some d ∧ fanSchema.trait? 4 = some a ∧ a.state = [5] ∧
        ∃ own, d.state.filter (fun id => fanSchema.name id = fanSchema.name 5) = [own] ∧
          fanSchema.number own = fanSchema.number 5 := by
  have reachable : fanSchema.Reachable := .run .empty _
  have verified : fanSchema.verify = .ok () := by decide +kernel
  have found : fanSchema.extendsChain 0 = .ok [6, 4] := by decide +kernel
  obtain ⟨d, isTrait⟩ : ∃ d, fanSchema.trait? 0 = some d :=
    Option.isSome_iff_exists.1 (by decide +kernel)
  have fields : (fanSchema.trait? 4).map Trait.state = some [5] := by decide +kernel
  obtain ⟨chain, found', -, covered⟩ := verify_covers reachable verified isTrait
  obtain rfl := Except.ok.inj (found.symm.trans found')
  obtain ⟨a, isAncestor, kept⟩ := covered 4 (by simp)
  rw [isAncestor, Option.map_some, Option.some.injEq] at fields
  exact ⟨reachable, verified, found, d, a, isTrait, isAncestor, fields,
    kept 5 (by simp [fields])⟩

end Schema

end PropertyTables
