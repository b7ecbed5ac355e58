import PropertyTables.Path.Enumeration
import PropertyTables.Version

/-!
# Extension of traits

A trait may extend another, which may extend a third. The chain of bases must be free of
repetition. The handles of a trait start past those of its base.
-/

namespace PropertyTables

/-- What versions and extension mean for the tables of a unit. -/
structure VersionInfo where
  range : Option VersionRange
  /-- The first handle past those of the base. -/
  offset : Handle
  /-- The full name of the base. -/
  base : Option String
deriving DecidableEq, Repr

namespace Schema

/-- The trait that a trait extends. -/
def base? (s : Schema) (id : NodeId) : Option NodeId := (s.trait? id).bind Trait.base

/-- The bases of `start` from `current` on, given those found before. The nodes in `unseen` are
the ones the chain has not met. -/
def chainFrom (s : Schema) (start : NodeId) (found : List NodeId) (unseen : List NodeId)
    (current : NodeId) : Except Error (List NodeId) :=
  match s.base? current with
  | none => .ok found
  | some base =>
    if (s.trait? base).isNone then
      .error (.integrity (s.fullName start) (s.fullName current) .baseNotTrait)
    else if _h : base ∈ unseen then
      s.chainFrom start (found ++ [base]) (unseen.erase base) base
    else
      .error (.integrity (s.fullName start) (s.fullName current)
        (.cyclicChain ((start :: found ++ [base]).map s.fullName)))
termination_by unseen.length
decreasing_by
  have := List.length_pos_of_mem _h
  rw [List.length_erase_of_mem _h]
  omega

/-- The bases of a trait, nearest first. -/
def extendsChain (s : Schema) (id : NodeId) : Except Error (List NodeId) := do
  let _ ← s.node id
  s.chainFrom id [] ((List.range s.size).erase id) id

/-- The first handle of a unit that is not its base's. -/
def extensionOffset (s : Schema) (id : NodeId) : Except Error Handle := do
  let _ ← s.extendsChain id
  match s.base? id with
  | none => return Handle.first
  | some base => return UInt32.ofNat (← s.paths base).length + Handle.first

/-- Only traits are versioned and extended. -/
def versionInfo (s : Schema) (id : NodeId) : Except Error VersionInfo := do
  let node ← s.node id
  match node.kind.trait? with
  | none => .ok ⟨none, Handle.first, none⟩
  | some t =>
    if t.version = 0 then .error (.integrity (s.fullName id) node.name .versionZero)
    else
      let offset ← s.extensionOffset id
      .ok ⟨VersionRange.ofVersion? t.version, offset, t.base.map s.fullName⟩

end Schema

end PropertyTables
