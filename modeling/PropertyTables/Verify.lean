import PropertyTables.Verify.Extends
import PropertyTables.Verify.Siblings

/-!
# Verification

What must hold before any table of a unit is made, and of all units of a schema.
-/

namespace PropertyTables.Schema

def verifyUnit (s : Schema) (unit : NodeId) : Except Error Unit := do
  let node ← s.node unit
  match node.kind.trait? with
  | some t => s.verifyTrait unit t
  | none => pure ()
  s.verifySiblings (s.fullName unit) unit

/-- Extension is verified for all units before anything else. -/
def verify (s : Schema) : Except Error Unit := do
  s.checkExtends [] s.roots
  s.roots.forM s.verifyUnit

end PropertyTables.Schema
