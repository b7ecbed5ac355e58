import PropertyTables.Proofs.OwnedFields
import PropertyTables.Proofs.UnitTables

/-!
# What a verified schema is

Verification of a schema covers each root and everything below it. In a schema made by edits these
are all nodes, so that nothing is listed where it does not belong. The chain of bases of every unit
comes to an end, and all of it consists of verified traits.
-/

namespace PropertyTables.Schema

variable {s : Schema} {unit id base : NodeId} {t : Trait}

theorem verify_eq_ok : s.verify = .ok () ↔
    s.checkExtends [] s.roots = .ok () ∧ ∀ id ∈ s.roots, s.verifyUnit id = .ok () := by
  rw [verify, check_bind_eq_ok, forM_eq_ok]

theorem verifyTrait_eq_ok : s.verifyTrait unit t = .ok () ↔
    t.version ≠ 0 ∧ (∃ chain, s.extendsChain unit = .ok chain) ∧
      s.verifyInherited unit t = .ok () := by
  unfold verifyTrait
  by_cases zero : t.version = 0
  · simp [zero]
  · simp [zero, bind_eq_ok]

/-! ## Ownership -/

theorem lt_size_of_mem_childLists {list : ChildList} (h : list ∈ s.childLists id) :
    id < s.size := by
  cases found : s.node? id with
  | none => simp [childLists, kind?, found] at h
  | some node => exact node?_lt found

/-- Every node is a root or below one, so the check of some root covers it. -/
theorem exists_verifySiblings (orderly : s.Orderly) (verified : s.verify = .ok ())
    (h : id < s.size) : ∃ name, s.verifySiblings name id = .ok () := by
  induction id using Nat.strong_induction_on with
  | _ id ih =>
    cases above : s.parent? id with
    | none =>
      have root := (mem_roots orderly).2 ⟨h, above⟩
      obtain ⟨-, -, -, checked⟩ := verifyUnit_eq_ok.1 ((verify_eq_ok.1 verified).2 id root)
      exact ⟨_, checked⟩
    | some parent =>
      have earlier := parent?_lt above
      obtain ⟨name, checked⟩ := ih parent earlier (earlier.trans h)
      obtain ⟨list, hlist, hid⟩ := mem_childIds.1 (orderly.listed above)
      exact ⟨name, (((verifySiblings_eq_ok.1 checked).2 list hlist).1 id hid).2⟩

theorem Orderly.owned (orderly : s.Orderly) (verified : s.verify = .ok ()) : s.Owned := by
  intro parent id h
  obtain ⟨list, hlist, hid⟩ := mem_childIds.1 h
  obtain ⟨name, checked⟩ :=
    exists_verifySiblings orderly verified (lt_size_of_mem_childLists hlist)
  exact (((verifySiblings_eq_ok.1 checked).2 list hlist).1 id hid).1

/-! ## Chains of bases -/

theorem extendsChain_of_base?_eq_none {node : Node} (found : s.node? unit = some node)
    (h : s.base? unit = none) : s.extendsChain unit = .ok [] := by
  rw [extendsChain, node_eq_ok.2 found]
  change s.chainFrom unit [] _ unit = _
  rw [chainFrom]
  simp only [h]

theorem exists_node_of_classify {kind : UnitKind} (h : s.classify unit = some kind) :
    ∃ node, s.node? unit = some node := by
  unfold classify at h
  split at h
  · cases h
  · exact ⟨_, by assumption⟩

/-- The chain of a verified unit ends: traits are checked for it, and nothing else has a base. -/
theorem exists_extendsChain {kind : UnitKind} (verified : s.verifyUnit unit = .ok ())
    (hkind : s.classify unit = some kind) : ∃ chain, s.extendsChain unit = .ok chain := by
  obtain ⟨node, found⟩ := exists_node_of_classify hkind
  cases htrait : s.trait? unit with
  | none => exact ⟨[], extendsChain_of_base?_eq_none found (by simp [base?, htrait])⟩
  | some t =>
    obtain ⟨node', found', checked, -⟩ := verifyUnit_eq_ok.1 verified
    have isTrait : node'.kind.trait? = some t := by simpa [trait?, kind?, found'] using htrait
    exact (verifyTrait_eq_ok.1 (checked t isTrait)).2.1

end PropertyTables.Schema
