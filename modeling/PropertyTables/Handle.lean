/-!
# Property handles

Handle 1 is the root of a unit and the properties follow from handle 2 on, in the order of their
paths. Handles are 32-bit words.
-/

namespace PropertyTables

abbrev Handle := UInt32

namespace Handle

def root : Handle := 1

/-- The name that stands for the root where a parent property is named. -/
def rootSymbol : String := "Root"

/-- The handle of the first property, which is also where a unit without a base starts. -/
def first : Handle := 2

def ofIndex (i : Nat) : Handle := first + UInt32.ofNat i

/-- The index of the property with a handle; the root and zero have none. -/
def index? (h : Handle) : Option Nat := if h < first then none else some (h - first).toNat

/-- The handle of the last of `count` properties. -/
def last (count : Nat) : Handle := root + UInt32.ofNat count

end Handle

end PropertyTables
