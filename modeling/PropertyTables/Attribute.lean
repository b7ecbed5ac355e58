import PropertyTables.Bitfield
import PropertyTables.Path.Enumeration

/-!
# Property attributes

Four flags of a field are read at run time from bitfields over the handles. A flag that no
property has needs no bitfield, unless bitfields are forced.
-/

namespace PropertyTables

inductive Attribute
  | dictionary
  | optional
  | nullable
  | ephemeral
deriving DecidableEq, Repr

namespace Attribute

def all : List Attribute := [dictionary, optional, nullable, ephemeral]

def name : Attribute → String
  | dictionary => "dictionary"
  | optional => "optional"
  | nullable => "nullable"
  | ephemeral => "ephemeral"

def holds : Attribute → Field → Bool
  | dictionary, f => f.isMap
  | optional, f => f.isOptional
  | nullable, f => f.isNullable
  | ephemeral, f => f.isEphemeral

/-- Whether the field that each path addresses has the attribute. -/
def select (a : Attribute) (s : Schema) (paths : List Path) : List Bool :=
  paths.map fun p => (s.field? p.last).any a.holds

def packed (a : Attribute) (s : Schema) (paths : List Path) : Bitfield :=
  Bitfield.pack (a.select s paths)

/-- The bitfield of an attribute, when some property has it or it is forced. -/
def bitfield? (a : Attribute) (s : Schema) (force : Bool) (paths : List Path) : Option Bitfield :=
  let bits := a.packed s paths
  if force || bits.any then some bits else none

end Attribute

end PropertyTables
