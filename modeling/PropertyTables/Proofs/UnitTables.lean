import PropertyTables.Proofs.HandleTable
import PropertyTables.Proofs.Siblings
import PropertyTables.Unit.Compile

/-!
# The parts of a compiled unit

A unit is accepted exactly when each of its parts is: it is a unit at all, it is verified, it has a
handle table, and its versions and declarations are in order. Its tables are made of these parts.
-/

namespace PropertyTables.Schema

variable {s : Schema} {options : Options} {unit : NodeId} {tables : Tables}

theorem verifyUnit_eq_ok : s.verifyUnit unit = .ok () ↔
    ∃ node, s.node? unit = some node ∧
      (∀ t, node.kind.trait? = some t → s.verifyTrait unit t = .ok ()) ∧
      s.verifySiblings (s.fullName unit) unit = .ok () := by
  simp only [verifyUnit, bind_eq_ok, node_eq_ok]
  refine exists_congr fun node => and_congr_right fun _ => ?_
  cases node.kind.trait? with
  | none => simp
  | some t => simp [Unique.exists_iff]

theorem compileUnit_eq_ok : s.compileUnit options unit = .ok tables ↔
    ∃ node kind table info declarations,
      options.validate = .ok () ∧ s.node? unit = some node ∧ s.classify unit = some kind ∧
      s.verifyUnit unit = .ok () ∧ s.unitHandles unit kind = .ok table ∧
      s.versionInfo unit = .ok info ∧
      s.declarations unit node.kind options.width = .ok declarations ∧
      tables = {
        unit := s.fullName unit
        kind
        rows := table.rows s
        handleCount := UInt32.ofNat table.length
        lastHandle := Handle.last table.length
        treeDepth := table.treeDepth
        extensionOffset := info.offset
        base := info.base
        versions := info.range
        dictionary := s.unitBitfield kind options.forceBitfields table.paths .dictionary
        optional := s.unitBitfield kind options.forceBitfields table.paths .optional
        nullable := s.unitBitfield kind options.forceBitfields table.paths .nullable
        ephemeral := s.unitBitfield kind options.forceBitfields table.paths .ephemeral
        declarations } := by
  rw [compileUnit, check_bind_eq_ok, bind_eq_ok]
  cases s.classify unit with
  | none => simp
  | some kind =>
    simp only [node_eq_ok, bind_eq_ok, pure_eq_ok]
    constructor
    · rintro ⟨valid, node, found, ⟨⟩, verified, table, handles, info, versions, declared, hdeclared,
        rfl⟩
      exact ⟨node, kind, table, info, declared, valid, found, rfl, verified, handles, versions,
        hdeclared, rfl⟩
    · rintro ⟨node, kind', table, info, declared, valid, found, hkind, verified, handles, versions,
        hdeclared, rfl⟩
      cases hkind
      exact ⟨valid, node, found, (), verified, table, handles, info, versions, declared, hdeclared,
        rfl⟩

theorem unit_of_compileUnit (accepted : s.compileUnit options unit = .ok tables) :
    tables.unit = s.fullName unit ∧ s.classify unit = some tables.kind := by
  obtain ⟨-, kind, -, -, -, -, -, hkind, -, -, -, -, rfl⟩ := compileUnit_eq_ok.1 accepted
  exact ⟨rfl, hkind⟩

end PropertyTables.Schema
