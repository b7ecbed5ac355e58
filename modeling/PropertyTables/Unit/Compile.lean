import PropertyTables.Unit.Tables
import PropertyTables.Verify

/-!
# Compilation

A unit is compiled after it is verified, and gives all its tables or none. A schema is compiled
unit by unit, bases before the traits that extend them; its tables come in the order of its
roots.
-/

namespace PropertyTables

structure Options where
  /-- The bits that the number of a resource may have. -/
  width : Nat := 64
  /-- Whether bitfields are emitted for attributes that no property has. -/
  forceBitfields : Bool := false
deriving DecidableEq, Repr

def Options.validate (options : Options) : Except Error Unit :=
  if isResourceWidth options.width then .ok () else .error (.width options.width)

namespace Schema

/-- Which kind of unit a node is. Traits and typespaces always are units; structs and enums only
at the top, and well-known structs never. -/
def classify (s : Schema) (id : NodeId) : Option UnitKind :=
  match s.node? id with
  | none => none
  | some node =>
    match node.kind with
    | .trait _ => some .trait
    | .typespace _ => some .typespace
    | .struct t => if node.parent.isNone && !t.isStandard then some .struct else none
    | .enum _ => if node.parent.isNone then some .enum else none
    | _ => none

/-- The vendor above sixteen bits of number. -/
def profileId (s : Schema) (unit : NodeId) (t : Trait) : Except Error UInt32 :=
  let number := s.number unit
  if number.toNat < 0x10000 then .ok (t.vendor.toUInt32 <<< 16 ||| number)
  else .error (.integrity (s.fullName unit) (s.name unit) (.numberTooWide number))

def declarations (s : Schema) (unit : NodeId) (kind : Kind) (width : Nat) :
    Except Error Declarations := do
  match kind with
  | .trait t => return {
      profileId := some (← s.profileId unit t)
      groups := ← s.encodeGroups (s.fullName unit) t.groups width
      commands := s.commandTables t.commands
      enums := s.enumTables t.enums
      structs := (s.structTables t.structs).filter (!·.fields.isEmpty)
      events := s.eventTables t.version t.events }
  | .typespace t => return {
      groups := ← s.encodeGroups (s.fullName unit) t.groups width
      enums := s.enumTables t.enums
      structs := s.structTables t.structs }
  | .enum _ => return { enums := s.enumTables [unit] }
  | _ => return {}

/-- The handle table of a unit; enums have no properties. -/
def unitHandles (s : Schema) (unit : NodeId) : UnitKind → Except Error HandleTable
  | .enum => .ok ⟨[]⟩
  | _ => s.handleTable unit

/-- The bitfield of an attribute over the properties of a unit; enums have none even by force. -/
def unitBitfield (s : Schema) (kind : UnitKind) (force : Bool) (paths : List Path)
    (a : Attribute) : BitfieldTable :=
  match kind with
  | .enum => {}
  | _ => .ofBitfield? (a.bitfield? s force paths)

def compileUnit (s : Schema) (options : Options) (unit : NodeId) : Except Error Tables := do
  options.validate
  let node ← s.node unit
  match s.classify unit with
  | none => .error (.integrity (s.fullName unit) node.name (.nestedUnit node.kind.label))
  | some kind =>
    s.verifyUnit unit
    let table ← s.unitHandles unit kind
    let info ← s.versionInfo unit
    let declarations ← s.declarations unit node.kind options.width
    let bitfield := s.unitBitfield kind options.forceBitfields table.paths
    return {
      unit := s.fullName unit
      kind
      rows := table.rows s
      handleCount := UInt32.ofNat table.length
      lastHandle := Handle.last table.length
      treeDepth := table.treeDepth
      extensionOffset := info.offset
      base := info.base
      versions := info.range
      dictionary := bitfield .dictionary
      optional := bitfield .optional
      nullable := bitfield .nullable
      ephemeral := bitfield .ephemeral
      declarations }

/-- A unit of a schema: its place among the roots and the number of its bases. -/
structure Scheduled where
  position : Nat
  depth : Nat
  id : NodeId
deriving DecidableEq, Repr

def schedule (s : Schema) : Except Error (List Scheduled) :=
  (s.roots.zipIdx.filter fun (id, _) => (s.classify id).isSome).mapM fun (id, position) => do
    return ⟨position, (← s.extendsChain id).length, id⟩

/-- The units level by level, by the number of their bases. -/
def byDepth (units : List Scheduled) : List Scheduled :=
  (List.range ((units.map Scheduled.depth).foldl Nat.max 0 + 1)).flatMap fun depth =>
    units.filter (·.depth = depth)

/-- Compiles all units of a schema, those with fewer bases first. -/
def compile (s : Schema) (options : Options) : Except Error (List Tables) := do
  options.validate
  s.verify
  let units ← s.schedule
  let compiled ← (byDepth units).mapM fun unit => do
    let tables ← s.compileUnit options unit.id
    return (unit.position, tables)
  return units.filterMap fun unit => compiled.lookup unit.position

end Schema

end PropertyTables
