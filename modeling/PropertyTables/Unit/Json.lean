import PropertyTables.Json.Basic
import PropertyTables.Unit.Tables

/-!
# Unit tables as JSON

The members of each table come in a fixed order.
-/

namespace PropertyTables

open Json

def Json.word (n : UInt32) : Json := number n.toNat

def Json.bytes (bs : List UInt8) : Json := ofList (fun b => number b.toNat) bs

def Row.toJson (r : Row) : Json :=
  object [("handle", word r.handle), ("symbol", text r.symbol),
    ("parent_symbol", text r.parentSymbol), ("parent_handle", word r.parentHandle),
    ("number", word r.number), ("name", text r.name)]

def BitfieldTable.toJson (b : BitfieldTable) : Json :=
  object [("present", bool b.present), ("bytes", Json.bytes b.bytes)]

def VersionRange.toJson (r : VersionRange) : Json :=
  object [("min_version", word r.min), ("max_version", word r.max)]

def NamedNumber.toJson (n : NamedNumber) : Json :=
  object [("name", text n.name), ("symbol", text n.symbol), ("number", word n.number)]

def ResponseTable.toJson (r : ResponseTable) : Json :=
  object [("name", text r.name), ("fields", ofList NamedNumber.toJson r.fields)]

def CommandTable.toJson (c : CommandTable) : Json :=
  object [("name", text c.name), ("number", word c.number),
    ("parameters", ofList NamedNumber.toJson c.parameters),
    ("response", ofOption ResponseTable.toJson c.response)]

def EnumTable.toJson (e : EnumTable) : Json :=
  object [("name", text e.name), ("is_bitmask", bool e.isBitmask),
    ("values", ofList NamedNumber.toJson e.values)]

def StructField.toJson (f : StructField) : Json :=
  object [("name", text f.name), ("symbol", text f.symbol), ("number", word f.number),
    ("is_optional", bool f.isOptional), ("is_nullable", bool f.isNullable)]

def StructTable.toJson (t : StructTable) : Json :=
  object [("name", text t.name), ("number", word t.number),
    ("fields", ofList StructField.toJson t.fields)]

def EventTable.toJson (e : EventTable) : Json :=
  object [("name", text e.name), ("structure_type", word e.number),
    ("importance", text e.importance.name), ("data_schema_version", word e.version),
    ("min_compatible_data_version", word e.minVersion)]

def EncodedConstant.toJson (c : EncodedConstant) : Json :=
  object [("name", text c.name), ("symbol", text c.symbol), ("bytes", Json.bytes c.bytes),
    ("literal", text c.literal), ("source", text c.source)]

def GroupTable.toJson (g : GroupTable) : Json :=
  object [("name", text g.name), ("number", word g.number),
    ("constants", ofList EncodedConstant.toJson g.constants)]

def Tables.toJson (t : Tables) : Json :=
  object [("unit", text t.unit), ("kind", text t.kind.name),
    ("profile_id", ofOption word t.declarations.profileId),
    ("properties", ofList Row.toJson t.rows), ("handle_count", word t.handleCount),
    ("last_handle", word t.lastHandle), ("tree_depth", word t.treeDepth),
    ("extension_offset", word t.extensionOffset), ("extends", ofOption text t.base),
    ("version_range", ofOption VersionRange.toJson t.versions),
    ("is_dictionary", t.dictionary.toJson), ("is_optional", t.optional.toJson),
    ("is_nullable", t.nullable.toJson), ("is_ephemeral", t.ephemeral.toJson),
    ("constant_groups", ofList GroupTable.toJson t.declarations.groups),
    ("commands", ofList CommandTable.toJson t.declarations.commands),
    ("enums", ofList EnumTable.toJson t.declarations.enums),
    ("structs", ofList StructTable.toJson t.declarations.structs),
    ("events", ofList EventTable.toJson t.declarations.events)]

end PropertyTables
