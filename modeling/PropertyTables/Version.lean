/-!
# Schema versions
-/

namespace PropertyTables

/-- The versions a unit can read, both ends included. -/
structure VersionRange where
  min : UInt32
  max : UInt32
deriving DecidableEq, Repr

namespace VersionRange

/-- The versions from the first on; only a unit past its first version has a range. -/
def ofVersion? (version : UInt32) : Option VersionRange :=
  if 1 < version then some ⟨1, version⟩ else none

def contains (range : VersionRange) (version : UInt32) : Bool :=
  range.min ≤ version && version ≤ range.max

end VersionRange

end PropertyTables
