import PropertyTables.Proofs.CompileOrder
import PropertyTables.Proofs.ExtensionOffset
import PropertyTables.Proofs.Footprint

/-!
# Chains of bases

Bases are followed in two ways: from one node, with a record of the nodes that this walk has met,
and from all roots, with one record of the traits that earlier walks found to be sound. Either walk
passes at the nodes whose bases come to an end, and at no others. The bases of such a node are one
list, which the base of the node has without its first member.

## Main definitions

* `Schema.BaseChain`: the bases of a node, nearest first, up to one that has no base.
* `Schema.Grounded`: the nodes that have such a list.
* `Schema.ProperBases`: what the walks refuse, said of the graph of bases alone.
-/

namespace PropertyTables.Schema

variable {s : Schema} {unit id base start current : NodeId}
  {chain chain' rest found unseen checked known ids : List NodeId}

/-- The bases of a node, nearest first. All of them are traits, and the last has no base. -/
inductive BaseChain (s : Schema) : NodeId → List NodeId → Prop
  | last {id : NodeId} (alone : s.base? id = none) : BaseChain s id []
  | step {id base : NodeId} {t : Trait} {rest : List NodeId} (extended : s.base? id = some base)
    (isTrait : s.trait? base = some t) (above : BaseChain s base rest) :
    BaseChain s id (base :: rest)

theorem trait?_lt {t : Trait} (isTrait : s.trait? id = some t) : id < s.size := by
  obtain ⟨node, found, -⟩ := Option.map_eq_some_iff.1 (kind?_of_trait? isTrait)
  exact node?_lt found

namespace BaseChain

theorem unique (h : s.BaseChain id chain) (h' : s.BaseChain id chain') : chain = chain' := by
  induction h generalizing chain' with
  | last alone =>
    cases h' with
    | last => rfl
    | step extended => simp [alone] at extended
  | step extended isTrait above ih =>
    cases h' with
    | last alone => simp [alone] at extended
    | step extended' _ above' =>
      obtain rfl := Option.some.inj (extended.symm.trans extended')
      rw [ih above']

theorem trait?_of_mem (h : s.BaseChain id chain) (listed : base ∈ chain) :
    ∃ t, s.trait? base = some t := by
  induction h with
  | last => simp at listed
  | step _ isTrait _ ih =>
    rcases List.mem_cons.1 listed with rfl | listed
    · exact ⟨_, isTrait⟩
    · exact ih listed

/-- A base has a shorter list of bases. -/
theorem exists_shorter (h : s.BaseChain id chain) (listed : base ∈ chain) :
    ∃ rest, s.BaseChain base rest ∧ rest.length < chain.length := by
  induction h with
  | last => simp at listed
  | @step id next t rest _ _ above ih =>
    rcases List.mem_cons.1 listed with rfl | listed
    · exact ⟨rest, above, Nat.lt_succ_self _⟩
    · obtain ⟨rest', above', shorter⟩ := ih listed
      exact ⟨rest', above', Nat.lt_succ_of_lt shorter⟩

/-- No node is among its own bases, as it has one list of them only. -/
theorem not_mem (h : s.BaseChain id chain) : id ∉ chain := by
  intro listed
  obtain ⟨rest, above, shorter⟩ := h.exists_shorter listed
  rw [above.unique h] at shorter
  exact Nat.lt_irrefl _ shorter

theorem ne_of_mem (h : s.BaseChain id chain) (listed : base ∈ chain) : base ≠ id :=
  ne_of_mem_of_not_mem listed h.not_mem

theorem nodup (h : s.BaseChain id chain) : chain.Nodup := by
  induction h with
  | last => exact List.nodup_nil
  | step _ _ above ih => exact List.nodup_cons.2 ⟨above.not_mem, ih⟩

end BaseChain

/-! ## The walk from one node -/

/-- A walk that comes to an end has gone along the bases. -/
theorem baseChain_of_chainFrom (h : s.chainFrom start found unseen current = .ok chain) :
    ∃ rest, s.BaseChain current rest ∧ chain = found ++ rest := by
  fun_induction Schema.chainFrom s start found unseen current with
  | case1 found unseen current alone =>
    cases h
    exact ⟨[], .last alone, by simp⟩
  | case2 => cases h
  | case3 found unseen current base next isTrait unmet ih =>
    obtain ⟨rest, above, rfl⟩ := ih h
    obtain ⟨t, isTrait⟩ := Option.ne_none_iff_exists'.1 (by simpa using isTrait)
    exact ⟨base :: rest, .step next isTrait above, by simp⟩
  | case4 => cases h

/-- A walk that has met none of the bases goes along them to the end. -/
theorem BaseChain.chainFrom (h : s.BaseChain current rest) (unmet : ∀ base ∈ rest, base ∈ unseen) :
    s.chainFrom start found unseen current = .ok (found ++ rest) := by
  induction h generalizing found unseen with
  | last alone =>
    rw [Schema.chainFrom]
    simp [alone]
  | @step id base t rest extended isTrait above ih =>
    rw [List.forall_mem_cons] at unmet
    have unmetNext : ∀ other ∈ rest, other ∈ unseen.erase base := fun other listed =>
      (List.mem_erase_of_ne (above.ne_of_mem listed)).2 (unmet.2 other listed)
    rw [Schema.chainFrom]
    simp [extended, isTrait, unmet.1, ih unmetNext]

/-- The chain that is found from a node is the list of its bases. -/
theorem extendsChain_eq_ok :
    s.extendsChain id = .ok chain ↔ id < s.size ∧ s.BaseChain id chain := by
  rw [extendsChain, bind_eq_ok]
  constructor
  · rintro ⟨node, found, run⟩
    obtain ⟨rest, above, rfl⟩ := baseChain_of_chainFrom run
    exact ⟨node?_lt (node_eq_ok.1 found), by simpa using above⟩
  · rintro ⟨inside, above⟩
    have unmet : ∀ base ∈ chain, base ∈ (List.range s.size).erase id := by
      intro base listed
      obtain ⟨t, isTrait⟩ := above.trait?_of_mem listed
      rw [List.mem_erase_of_ne (above.ne_of_mem listed), List.mem_range]
      exact trait?_lt isTrait
    exact ⟨_, node_eq_ok.2 (Array.getElem?_eq_getElem inside), above.chainFrom unmet⟩

theorem extendsChain_eq_nil (h : s.extendsChain id = .ok chain) (alone : s.base? id = none) :
    chain = [] :=
  (extendsChain_eq_ok.1 h).2.unique (.last alone)

/-- The bases of a node are its base and the bases of that. -/
theorem extendsChain_eq_cons (h : s.extendsChain id = .ok chain)
    (extended : s.base? id = some base) :
    ∃ rest, s.extendsChain base = .ok rest ∧ chain = base :: rest := by
  obtain ⟨-, above⟩ := extendsChain_eq_ok.1 h
  cases above with
  | last alone => simp [alone] at extended
  | @step id other t rest extended' isTrait above =>
    obtain rfl := Option.some.inj (extended'.symm.trans extended)
    exact ⟨rest, extendsChain_eq_ok.2 ⟨trait?_lt isTrait, above⟩, rfl⟩

/-! ## The walks from all roots -/

/-- Following bases from a node meets traits only and comes to an end. -/
def Grounded (s : Schema) (id : NodeId) : Prop := ∃ chain, s.BaseChain id chain

theorem exists_extendsChain_iff (inside : id < s.size) :
    (∃ chain, s.extendsChain id = .ok chain) ↔ s.Grounded id :=
  exists_congr fun _ => by rw [extendsChain_eq_ok, and_iff_right inside]

theorem Grounded.of_base? {t : Trait} (extended : s.base? id = some base)
    (isTrait : s.trait? base = some t) (grounded : s.Grounded base) : s.Grounded id := by
  obtain ⟨rest, above⟩ := grounded
  exact ⟨base :: rest, .step extended isTrait above⟩

/-- A walk that stops at a trait known to be sound is right to do so. The traits that led to a node
are grounded once the node is. -/
theorem grounded_of_followBases (h : s.followBases checked chain unseen id = .ok known)
    (sound : ∀ c ∈ checked, s.Grounded c) (linked : s.Grounded id → ∀ c ∈ chain, s.Grounded c) :
    s.Grounded id ∧ ∀ c ∈ known, s.Grounded c := by
  have records (grounded : s.Grounded id) : ∀ c ∈ chain ++ checked, s.Grounded c := fun c hc =>
    (List.mem_append.1 hc).elim (linked grounded c) (sound c)
  fun_induction Schema.followBases s checked chain unseen id with
  | case1 chain unseen id hchecked =>
    cases h
    exact ⟨sound id hchecked, records (sound id hchecked)⟩
  | case2 chain unseen id _ noTrait =>
    cases h
    have grounded : s.Grounded id := ⟨[], .last (by simp [base?, noTrait])⟩
    exact ⟨grounded, records grounded⟩
  | case3 chain unseen id _ t isTrait unmet alone =>
    cases h
    have grounded : s.Grounded id := ⟨[], .last (by simp [base?, isTrait, alone])⟩
    exact ⟨grounded, by simpa [grounded] using records grounded⟩
  | case4 => cases h
  | case5 chain unseen id _ t isTrait unmet base extended b isBase ih =>
    have extended : s.base? id = some base := by simp [base?, isTrait, extended]
    have isBase : s.trait? base = some b := by simp [trait?, isBase, Kind.trait?]
    have grounded (above : s.Grounded base) : s.Grounded id := above.of_base? extended isBase
    have next : s.Grounded base → ∀ c ∈ id :: chain, s.Grounded c := fun above =>
      List.forall_mem_cons.2 ⟨grounded above, linked (grounded above)⟩
    obtain ⟨above, known⟩ := ih h next fun above c hc =>
      (List.mem_append.1 hc).elim (next above c) (sound c)
    exact ⟨grounded above, known⟩
  | case6 => cases h
  | case7 => cases h

/-- The walk from a grounded node goes on to the end of its bases, or to one that is known to be
sound. -/
theorem BaseChain.exists_followBases (h : s.BaseChain id rest)
    (unmet : ∀ base ∈ id :: rest, base ∈ unseen) :
    ∃ known, s.followBases checked chain unseen id = .ok known := by
  induction h generalizing chain unseen with
  | @last id alone =>
    rw [followBases]
    split
    · exact ⟨_, rfl⟩
    · cases isTrait : s.trait? id with
      | none => exact ⟨_, rfl⟩
      | some t =>
        have alone : t.base = none := by simpa [base?, isTrait] using alone
        simp [alone, unmet id]
  | @step id base b rest extended isBase above ih =>
    rw [List.forall_mem_cons] at unmet
    have isKind := kind?_of_trait? isBase
    have unmetNext : ∀ other ∈ base :: rest, other ∈ unseen.erase id := fun other listed =>
      (List.mem_erase_of_ne ((step extended isBase above).ne_of_mem listed)).2
        (unmet.2 other listed)
    obtain ⟨t, isTrait, extended⟩ := Option.bind_eq_some_iff.1 extended
    rw [followBases]
    split
    · exact ⟨_, rfl⟩
    · simpa [isTrait, extended, unmet.1, isKind] using ih unmetNext

/-- The walks from a list of nodes pass when all of them are grounded, whatever was recorded
before. -/
theorem checkExtends_eq_ok (inside : ∀ id ∈ ids, id < s.size)
    (sound : ∀ c ∈ checked, s.Grounded c) :
    s.checkExtends checked ids = .ok () ↔ ∀ id ∈ ids, s.Grounded id := by
  induction ids generalizing checked with
  | nil => simp [checkExtends]
  | cons id ids ih =>
    rw [List.forall_mem_cons] at inside
    have recorded {known}
        (followed : s.followBases checked [] (List.range s.size) id = .ok known) :=
      grounded_of_followBases followed sound (by simp)
    rw [checkExtends, bind_eq_ok, List.forall_mem_cons]
    constructor
    · rintro ⟨known, followed, rest⟩
      exact ⟨(recorded followed).1, (ih inside.2 (recorded followed).2).1 rest⟩
    · rintro ⟨⟨chain, above⟩, rest⟩
      have unmet : ∀ base ∈ id :: chain, base ∈ List.range s.size := by
        rw [List.forall_mem_cons]
        refine ⟨List.mem_range.2 inside.1, fun base listed => List.mem_range.2 ?_⟩
        obtain ⟨t, isTrait⟩ := above.trait?_of_mem listed
        exact trait?_lt isTrait
      obtain ⟨known, followed⟩ : ∃ known,
          s.followBases checked [] (List.range s.size) id = .ok known :=
        above.exists_followBases unmet
      exact ⟨known, followed, (ih inside.2 (recorded followed).2).2 rest⟩

/-! ## The graph of bases -/

/-- What a unit can reach through bases, one step at least. -/
abbrev Descends (s : Schema) : NodeId → NodeId → Prop :=
  Relation.TransGen fun derived base => s.base? derived = some base

/-- Following bases from a unit visits traits only and no node twice. -/
structure ProperBases (s : Schema) (unit : NodeId) : Prop where
  trait {base : NodeId} : s.Descends unit base → ∃ t, s.trait? base = some t
  once {id : NodeId} : s.Extends unit id → ¬ s.Descends id id

theorem ProperBases.of_base? (proper : s.ProperBases unit) (extended : s.base? unit = some base) :
    s.ProperBases base where
  trait descends := proper.trait (.head extended descends)
  once reached := proper.once (.head extended reached)

theorem BaseChain.mem_of_descends (h : s.BaseChain id chain) (descends : s.Descends id base) :
    base ∈ chain := by
  induction descends using Relation.TransGen.head_induction_on generalizing chain with
  | single extended =>
    cases h with
    | last alone => simp [alone] at extended
    | step extended' =>
      obtain rfl := Option.some.inj (extended'.symm.trans extended)
      exact List.mem_cons_self
  | head extended _ ih =>
    cases h with
    | last alone => simp [alone] at extended
    | step extended' _ above =>
      obtain rfl := Option.some.inj (extended'.symm.trans extended)
      exact List.mem_cons_of_mem _ (ih above)

theorem Grounded.properBases (grounded : s.Grounded unit) : s.ProperBases unit where
  trait descends := by
    obtain ⟨chain, above⟩ := grounded
    exact above.trait?_of_mem (above.mem_of_descends descends)
  once reached cycle := by
    obtain ⟨chain, above⟩ := grounded
    rcases Relation.reflTransGen_iff_eq_or_transGen.1 reached with rfl | descends
    · exact above.not_mem (above.mem_of_descends cycle)
    · obtain ⟨rest, above', -⟩ := above.exists_shorter (above.mem_of_descends descends)
      exact above'.not_mem (above'.mem_of_descends cycle)

/-- A walk stops early only at a node that is no trait or was met before. All that was met leads to
where the walk is, so that meeting it again closes a cycle. -/
theorem ProperBases.exists_chainFrom (proper : s.ProperBases current)
    (met : ∀ id < s.size, id ∉ unseen → s.Extends id current) :
    ∃ chain, s.chainFrom start found unseen current = .ok chain := by
  fun_induction Schema.chainFrom s start found unseen current with
  | case1 => exact ⟨_, rfl⟩
  | case2 found unseen current base next noTrait =>
    obtain ⟨t, isTrait⟩ := proper.trait (.single next)
    simp [isTrait] at noTrait
  | case3 found unseen current base next isTrait unmet ih =>
    refine ih (proper.of_base? next) fun id inside unmetNext => ?_
    by_cases same : id = base
    · exact same ▸ .refl
    · rw [List.mem_erase_of_ne same] at unmetNext
      exact (met id inside unmetNext).tail next
  | case4 found unseen current base next isTrait again =>
    obtain ⟨t, isTrait⟩ := proper.trait (.single next)
    have back : s.Extends base current := met base (trait?_lt isTrait) again
    exact absurd (Relation.TransGen.tail' back next) (proper.once (.single next))

theorem exists_extendsChain_iff_properBases (inside : unit < s.size) :
    (∃ chain, s.extendsChain unit = .ok chain) ↔ s.ProperBases unit := by
  constructor
  · intro ends
    exact ((exists_extendsChain_iff inside).1 ends).properBases
  · intro proper
    have met : ∀ id < s.size, id ∉ (List.range s.size).erase unit → s.Extends id unit := by
      intro id inside met
      by_cases same : id = unit
      · exact same ▸ .refl
      · exact absurd ((List.mem_erase_of_ne same).2 (List.mem_range.2 inside)) met
    obtain ⟨chain, run⟩ : ∃ chain,
        s.chainFrom unit [] ((List.range s.size).erase unit) unit = .ok chain :=
      proper.exists_chainFrom met
    exact ⟨chain, bind_eq_ok.2 ⟨_, node_eq_ok.2 (Array.getElem?_eq_getElem inside), run⟩⟩

/-! ## Agreement of the walks -/

/-- In a schema made by edits the base of a unit is a unit too, and has one base less. -/
theorem Orderly.exists_scheduled_base (orderly : s.Orderly) {units : List Scheduled}
    (scheduled : s.schedule = .ok units) {derived : Scheduled} (listed : derived ∈ units)
    (extended : s.base? derived.id = some base) :
    ∃ other ∈ units, other.id = base ∧ other.depth + 1 = derived.depth := by
  obtain ⟨-, -, chain, found, counted⟩ := (mem_schedule scheduled).1 listed
  obtain ⟨rest, foundBase, rfl⟩ := extendsChain_eq_cons found extended
  obtain ⟨t, isTrait⟩ := trait?_of_extendsChain found extended
  obtain ⟨position, root⟩ := List.mem_iff_getElem?.1 (orderly.mem_roots_of_trait? isTrait)
  refine ⟨⟨position, rest.length, base⟩, (mem_schedule scheduled).2 ?_, rfl, counted⟩
  exact ⟨root, by simp [classify_of_trait? isTrait], rest, foundBase, rfl⟩

/-- The walk from a node and the walks from all roots agree on which schemas they accept. A walk
that ends has gone along distinct traits, from the base of its node to where the walk from that base
goes. So a unit is compiled one level above its base. -/
theorem checkExtends_agrees (reachable : s.Reachable) :
    (s.checkExtends [] s.roots = .ok () ↔
      ∀ id ∈ s.roots, ∃ chain, s.extendsChain id = .ok chain) ∧
    (∀ id chain, s.extendsChain id = .ok chain →
      chain.Nodup ∧ id ∉ chain ∧ (∀ base ∈ chain, ∃ t, s.trait? base = some t) ∧
      (s.base? id = none → chain = []) ∧
      ∀ base, s.base? id = some base →
        ∃ rest, s.extendsChain base = .ok rest ∧ chain = base :: rest) ∧
    ∀ units, s.schedule = .ok units → ∀ unit ∈ units, ∀ base, s.base? unit.id = some base →
      ∃ other ∈ units, other.id = base ∧ other.depth + 1 = unit.depth := by
  have orderly := reachable.orderly
  refine ⟨?_, fun id chain h => ?_, fun units scheduled unit listed base extended => ?_⟩
  · have inside : ∀ id ∈ s.roots, id < s.size := fun id root => ((mem_roots orderly).1 root).1
    rw [checkExtends_eq_ok inside (by simp)]
    exact forall₂_congr fun id root => (exists_extendsChain_iff (inside id root)).symm
  · obtain ⟨-, above⟩ := extendsChain_eq_ok.1 h
    exact ⟨above.nodup, above.not_mem, fun base => above.trait?_of_mem, extendsChain_eq_nil h,
      fun base => extendsChain_eq_cons h⟩
  · exact orderly.exists_scheduled_base scheduled listed extended

/-- Three traits in a row, of which the last declared is in the middle, and a struct. -/
def chimeSchema : Schema := Schema.empty.run [
  .declare "weave.trait.example" "LoudChimeTrait" (.trait 2576),
  .declare "weave.trait.example" "SoundTrait" (.trait 2577),
  .declare "weave.trait.example" "ChimeTrait" (.trait 2578),
  .declare "weave.common" "Tone" (.struct 1),
  .set 0 (.base 2),
  .set 2 (.base 1)]

theorem chimeSchema_checkExtends :
    chimeSchema.Reachable ∧ chimeSchema.checkExtends [] chimeSchema.roots = .ok () ∧
      chimeSchema.extendsChain 0 = .ok [2, 1] ∧ chimeSchema.extendsChain 2 = .ok [1] ∧
      ∃ units, chimeSchema.schedule = .ok units ∧ ∃ unit ∈ units, ∃ other ∈ units,
        unit.id = 0 ∧ other.id = 2 ∧ other.depth + 1 = unit.depth := by
  have reachable : chimeSchema.Reachable := .run .empty _
  obtain ⟨agree, -, levels⟩ := checkExtends_agrees reachable
  have found : chimeSchema.extendsChain 0 = .ok [2, 1] := toOption_eq_some.1 (by decide +kernel)
  have foundBase : chimeSchema.extendsChain 2 = .ok [1] := toOption_eq_some.1 (by decide +kernel)
  have scheduled : chimeSchema.schedule = .ok [⟨0, 2, 0⟩, ⟨1, 0, 1⟩, ⟨2, 1, 2⟩, ⟨3, 0, 3⟩] :=
    toOption_eq_some.1 (by decide +kernel)
  have extended : chimeSchema.base? 0 = some 2 := by decide +kernel
  have ends : ∀ id ∈ chimeSchema.roots, (chimeSchema.extendsChain id).toOption.isSome := by
    decide +kernel
  obtain ⟨other, listed, same, depth⟩ := levels _ scheduled ⟨0, 2, 0⟩ (by simp) 2 extended
  refine ⟨reachable, agree.2 fun id root => ?_, found, foundBase, _, scheduled, ⟨0, 2, 0⟩, by simp,
    other, listed, rfl, same, depth⟩
  obtain ⟨chain, h⟩ := Option.isSome_iff_exists.1 (ends id root)
  exact ⟨chain, toOption_eq_some.1 h⟩

/-- A trait that runs into two traits which extend each other is refused by both walks. -/
example :
    let s := Schema.empty.run [.declare "" "A" (.trait 1), .declare "" "B" (.trait 2),
      .declare "" "C" (.trait 3), .set 0 (.base 1), .set 1 (.base 2), .set 2 (.base 1)]
    (s.checkExtends [] s.roots).toOption = none ∧ (s.extendsChain 0).toOption = none := by
  decide +kernel

end PropertyTables.Schema
