import PropertyTables.Proofs.ConstantGroups
import PropertyTables.Proofs.Inheritance
import PropertyTables.Proofs.ResourceText
import PropertyTables.Proofs.VerifiedSchema

/-!
# What can still fail after verification

In a verified schema a unit has its tables unless symbols clash, its number is too wide or a
constant is not a resource. Every other error of the compiler is ruled out: paths stay inside the
unit and end at fields, bases are traits with paths of their own, and groups have constants.

## Main definitions

* `Schema.Compilable`: what a unit has to satisfy.
* `Schema.UnitFault`: the errors that remain, each with its reason.
-/

namespace PropertyTables

open Text

namespace Listed

variable {c : Listed} {value unit : String} {bits : Nat}

/-- The constant has a value that denotes a resource whose number fits. -/
def Fits (c : Listed) (bits : Nat) : Prop :=
  ∃ value type number, c.node.kind = .constant ⟨value⟩ ∧
    DenotesResource value.toList type number ∧ number < 2 ^ bits

/-- A constant that does not fit has an error about its value, and no other does. -/
theorem error?_outcome (valid : isResourceWidth bits) (hkind : c.node.kind = .constant ⟨value⟩)
    (unit : String) :
    (c.Fits bits ∧ c.error? unit bits = none) ∨
      ∃ fault, ResourceFault value bits fault ∧
        c.error? unit bits = some (.literal unit c.node.name value fault) := by
  have encode : c.encode unit bits = encodeValue unit c.group c.node.name value bits := by
    simp [Listed.encode, hkind, Kind.constant?]
  rcases parse_outcome valid value with
    ⟨type, number, denotes, fits, read⟩ | ⟨fault, reason, failed⟩
  · exact .inl ⟨⟨value, type, number, hkind, denotes, fits⟩,
      by simp [Listed.error?, encode, encodeValue, read]⟩
  · exact .inr ⟨fault, reason, by simp [Listed.error?, encode, encodeValue, failed]⟩

theorem not_fits_of_fault (hkind : c.node.kind = .constant ⟨value⟩) {fault : LiteralFault}
    (reason : ResourceFault value bits fault) : ¬ c.Fits bits := by
  rintro ⟨value', type, number, hkind', denotes, fits⟩
  obtain rfl : value' = value := by simpa [hkind'] using hkind
  cases reason with
  | malformed h => exact h type number denotes
  | unknownType name h => exact h type number denotes
  | overflow denotes' large =>
    obtain ⟨-, rfl⟩ := denotes.unique denotes'
    omega

end Listed

namespace Schema

variable {s : Schema} {unit id : NodeId} {kind : UnitKind} {options : Options} {width : Nat}

/-! ## Constants -/

/-- The constants over all groups of a unit. -/
def unitConstants (s : Schema) (unit : NodeId) : List Listed :=
  s.listedConstants (((s.kind? unit).map Kind.groups).getD [])

theorem Owned.kindLabel? (owned : s.Owned) (orderly : s.Orderly) {parent : NodeId}
    {list : ChildList} (hlist : list ∈ s.childLists parent) (hid : id ∈ list.ids) :
    s.kindLabel? id = ChildList.kindLabel list.label :=
  orderly.kind hlist hid (owned (mem_childIds.2 ⟨list, hlist, hid⟩))

/-- The constants of a group are there, and are constants. -/
theorem Owned.constant_of_group (owned : s.Owned) (orderly : s.Orderly) {g : Group}
    (found : s.kind? id = some (.group g)) {constant : NodeId} (h : constant ∈ g.constants) :
    ∃ node value, s.node? constant = some node ∧ node.kind = .constant ⟨value⟩ := by
  have listed : ⟨"constant_list", g.constants⟩ ∈ s.childLists id := by
    simp [childLists_of_kind? found, Kind.childLists]
  obtain ⟨_, isConstant, c, rfl⟩ := exists_of_kindLabel? (owned.kindLabel? orderly listed h)
  obtain ⟨node, found, kind⟩ := Option.map_eq_some_iff.1 isConstant
  exact ⟨node, c.value, found, kind⟩

theorem Owned.isGroup (owned : s.Owned) (orderly : s.Orderly) {unitKind : Kind}
    (found : s.kind? unit = some unitKind) (h : id ∈ unitKind.groups) : s.IsGroup id := by
  have listed : ⟨"constant_group_list", unitKind.groups⟩ ∈ s.childLists unit := by
    rw [childLists_of_kind? found]
    obtain ⟨-, -, -, sameGroups, -⟩ := unitKind.listed_eq
    rw [← sameGroups] at h ⊢
    exact (unitKind.listed_eq_nil_or_mem _).resolve_left (List.ne_nil_of_mem h)
  obtain ⟨_, hg, g, rfl⟩ := exists_of_kindLabel? (owned.kindLabel? orderly listed h)
  refine ⟨g, hg, fun constant hconstant => ?_⟩
  obtain ⟨node, value, found, -⟩ := owned.constant_of_group orderly hg hconstant
  exact ⟨node, found⟩

theorem Owned.kind_of_mem_listedConstants (owned : s.Owned) (orderly : s.Orderly)
    {groups : List NodeId} {c : Listed} (h : c ∈ s.listedConstants groups) :
    ∃ value, c.node.kind = .constant ⟨value⟩ := by
  obtain ⟨id, -, h⟩ := List.mem_flatMap.1 h
  unfold groupConstants at h
  split at h
  · rename_i g found
    obtain ⟨constant, listed, h⟩ := List.mem_filterMap.1 h
    obtain ⟨node, value, hnode, isConstant⟩ := owned.constant_of_group orderly found listed
    obtain rfl : Listed.mk (s.name id) node = c := by simpa [hnode] using h
    exact ⟨value, isConstant⟩
  · simp at h

/-! ## The errors that remain -/

/-- What a unit of a verified schema has to satisfy for its tables to be made. Only traits and
typespaces have constants. -/
structure Compilable (s : Schema) (unit : NodeId) (width : Nat) : Prop where
  paths {ps : List Path} : s.classify unit ≠ some .enum → s.paths unit = .ok ps →
    (ps.map s.pathSymbol).Nodup
  number : s.classify unit = some .trait → (s.number unit).toNat ≤ 65535
  symbols : ((s.unitConstants unit).map Listed.symbol).Nodup
  resources {c : Listed} : c ∈ s.unitConstants unit → c.Fits width

/-- The errors of a unit of a verified schema, with what is wrong. -/
inductive UnitFault (s : Schema) (unit : NodeId) (width : Nat) : Error → Prop
  | paths {ps : List Path} {first second : Path} (notEnum : s.classify unit ≠ some .enum)
    (enumerated : s.paths unit = .ok ps) (clash : Clash s.pathSymbol ps first second) :
    UnitFault s unit width (s.ambiguousPaths unit first second)
  | number (isTrait : s.classify unit = some .trait) (wide : 65535 < (s.number unit).toNat) :
    UnitFault s unit width
      (.integrity (s.fullName unit) (s.name unit) (.numberTooWide (s.number unit)))
  | symbols {first second : Listed}
    (clash : Clash Listed.symbol (s.unitConstants unit) first second) :
    UnitFault s unit width (Listed.ambiguity (s.fullName unit) first second)
  | constants {errors : List ConstantError} (nonempty : errors ≠ [])
    (each : ∀ error ∈ errors, ∃ c ∈ s.unitConstants unit, ∃ value fault,
      c.node.kind = .constant ⟨value⟩ ∧ ResourceFault value width fault ∧
      error = .literal (s.fullName unit) c.node.name value fault) :
    UnitFault s unit width (.constants (s.fullName unit) errors)

theorem UnitFault.not_compilable {error : Error} (fault : s.UnitFault unit width error) :
    ¬ s.Compilable unit width := by
  intro compilable
  cases fault with
  | paths notEnum enumerated clash => exact clash.not_nodup (compilable.paths notEnum enumerated)
  | number isTrait wide =>
    have := compilable.number isTrait
    omega
  | symbols clash => exact clash.not_nodup compilable.symbols
  | @constants errors nonempty each =>
    obtain ⟨error, rest, rfl⟩ := List.exists_cons_of_ne_nil nonempty
    obtain ⟨c, hc, value, fault, hkind, reason, -⟩ := each error List.mem_cons_self
    exact Listed.not_fits_of_fault hkind reason (compilable.resources hc)

/-! ## The parts of a unit -/

theorem startsFrom_of_classify (h : s.classify unit = some kind) (notEnum : kind ≠ .enum) :
    ∃ top, s.StartsFrom unit top := by
  obtain ⟨node, found⟩ := exists_node_of_classify h
  have foundKind : s.kind? unit = some node.kind := by simp [kind?, found]
  cases hkind : node.kind with
  | trait t => exact ⟨_, .trait (hkind ▸ foundKind)⟩
  | struct t => exact ⟨_, .struct (hkind ▸ foundKind)⟩
  | typespace t => exact ⟨_, .typespace (hkind ▸ foundKind)⟩
  | _ => simp_all [classify]

/-- The paths of a unit can be listed, and its handle table fails on a clash only. -/
theorem unitHandles_outcome (owned : s.Owned) (orderly : s.Orderly)
    (hkind : s.classify unit = some kind) :
    (∃ table, s.unitHandles unit kind = .ok table ∧
      ∀ ps, s.classify unit ≠ some .enum → s.paths unit = .ok ps →
        (ps.map s.pathSymbol).Nodup) ∨
    ∃ error, s.unitHandles unit kind = .error error ∧ s.UnitFault unit width error := by
  by_cases isEnum : kind = .enum
  · subst isEnum
    exact .inl ⟨_, rfl, fun ps notEnum => absurd hkind notEnum⟩
  · have notEnum : s.classify unit ≠ some .enum := by simpa [hkind] using isEnum
    have handles : s.unitHandles unit kind = s.handleTable unit := by
      cases kind with
      | enum => exact absurd rfl isEnum
      | trait | typespace | struct => rfl
    obtain ⟨top, starts⟩ := startsFrom_of_classify hkind isEnum
    have enumerated := owned.paths_eq orderly starts (Nat.le_refl _)
    rw [handles]
    rcases handleTable_outcome (owned.rooted starts) starts enumerated with
      ⟨table, made, distinct⟩ | ⟨first, second, clash, failed⟩
    · refine .inl ⟨table, made, fun ps _ enumerated' => ?_⟩
      cases enumerated.symm.trans enumerated'
      exact distinct
    · exact .inr ⟨_, failed, .paths notEnum enumerated clash⟩

/-- A trait has a version, and a chain of bases whose first has paths to count. -/
theorem exists_versionInfo (owned : s.Owned) (orderly : s.Orderly)
    (verified : s.verifyUnit unit = .ok ()) : ∃ info, s.versionInfo unit = .ok info := by
  obtain ⟨node, found, checked, -⟩ := verifyUnit_eq_ok.1 verified
  cases isTrait : node.kind.trait? with
  | none => simp [versionInfo, node_eq_ok.2 found, ok_bind, isTrait]
  | some t =>
    obtain ⟨version, ⟨chain, ends⟩, -⟩ := verifyTrait_eq_ok.1 (checked t isTrait)
    obtain ⟨offset, hoffset⟩ : ∃ offset, s.extensionOffset unit = .ok offset := by
      rw [extensionOffset, ends, ok_bind]
      cases extended : s.base? unit with
      | none => exact ⟨_, rfl⟩
      | some base =>
        obtain ⟨inherited, hbase⟩ := trait?_of_extendsChain ends extended
        have enumerated :=
          owned.paths_eq orderly (.trait (kind?_of_trait? hbase)) (Nat.le_refl _)
        exact ⟨_, by simp only [enumerated, ok_bind]; rfl⟩
    simp [versionInfo, node_eq_ok.2 found, ok_bind, isTrait, version, hoffset]

/-- The constants of a unit are encoded unless symbols clash or values do not fit. -/
theorem unitConstants_outcome (owned : s.Owned) (orderly : s.Orderly)
    (valid : isResourceWidth width) {unitKind : Kind} (found : s.kind? unit = some unitKind) :
    (∃ tables, s.encodeGroups (s.fullName unit) unitKind.groups width = .ok tables ∧
      ((s.unitConstants unit).map Listed.symbol).Nodup ∧
      ∀ c ∈ s.unitConstants unit, c.Fits width) ∨
    ∃ error, s.encodeGroups (s.fullName unit) unitKind.groups width = .error error ∧
      s.UnitFault unit width error := by
  have constants : s.unitConstants unit = s.listedConstants unitKind.groups := by
    simp [unitConstants, found]
  have each (c : Listed) (h : c ∈ s.unitConstants unit) :
      ∃ value, c.node.kind = .constant ⟨value⟩ :=
    owned.kind_of_mem_listedConstants orderly h
  rcases encodeGroups_outcome fun id h => owned.isGroup orderly found h with
    ⟨first, second, clash, failed⟩ | ⟨distinct, encoded⟩
  · rw [← constants] at clash
    exact .inr ⟨_, failed, .symbols clash⟩
  · rw [← constants] at distinct encoded
    rw [encoded]
    by_cases nonempty :
      (s.unitConstants unit).filterMap (·.error? (s.fullName unit) width) = []
    · refine .inl ⟨_, by simp only [nonempty]; rfl, distinct, fun c hc => ?_⟩
      obtain ⟨value, hkind⟩ := each c hc
      have noError := List.filterMap_eq_nil_iff.1 nonempty c hc
      rcases Listed.error?_outcome valid hkind (s.fullName unit) with ⟨fits, -⟩ | ⟨fault, -, failed⟩
      · exact fits
      · simp [failed] at noError
    · refine .inr ⟨_, if_neg (by simpa using nonempty), .constants nonempty fun error h => ?_⟩
      obtain ⟨c, hc, herror⟩ := List.mem_filterMap.1 h
      obtain ⟨value, hkind⟩ := each c hc
      rcases Listed.error?_outcome valid hkind (s.fullName unit) with
        ⟨-, noError⟩ | ⟨fault, reason, failed⟩
      · simp [noError] at herror
      · refine ⟨c, hc, value, fault, hkind, reason, ?_⟩
        simpa [failed, eq_comm] using herror

theorem profileId_outcome (isTrait : s.classify unit = some .trait) (t : Trait) :
    (∃ profile, s.profileId unit t = .ok profile ∧ (s.number unit).toNat ≤ 65535) ∨
      ∃ error, s.profileId unit t = .error error ∧ s.UnitFault unit width error := by
  by_cases narrow : (s.number unit).toNat < 0x10000
  · exact .inl ⟨_, if_pos narrow, by omega⟩
  · exact .inr ⟨_, if_neg narrow, .number isTrait (by omega)⟩

/-- What a unit declares besides its properties needs a number that fits a trait, and constants. -/
theorem declarations_outcome (owned : s.Owned) (orderly : s.Orderly) (valid : isResourceWidth width)
    {node : Node} (found : s.node? unit = some node) :
    (∃ declared, s.declarations unit node.kind width = .ok declared ∧
      (s.classify unit = some .trait → (s.number unit).toNat ≤ 65535) ∧
      ((s.unitConstants unit).map Listed.symbol).Nodup ∧
      ∀ c ∈ s.unitConstants unit, c.Fits width) ∨
    ∃ error, s.declarations unit node.kind width = .error error ∧
      s.UnitFault unit width error := by
  have foundKind : s.kind? unit = some node.kind := by simp [kind?, found]
  have constants := unitConstants_outcome owned orderly valid foundKind
  cases unitKind : node.kind with
  | trait t =>
    simp only [unitKind, Kind.groups] at constants
    have isTrait : s.classify unit = some .trait := by simp [classify, found, unitKind]
    rcases profileId_outcome isTrait t with ⟨profile, hprofile, narrow⟩ | ⟨error, failed, fault⟩
    · rcases constants with ⟨tables, encoded, distinct, fit⟩ | ⟨error, failed, fault⟩
      · obtain ⟨declared, hdeclared⟩ :
            ∃ declared, s.declarations unit (.trait t) width = .ok declared := by
          simp only [declarations, hprofile, encoded, ok_bind]
          exact ⟨_, rfl⟩
        exact .inl ⟨declared, hdeclared, fun _ => narrow, distinct, fit⟩
      · refine .inr ⟨error, ?_, fault⟩
        simp only [declarations, hprofile, failed, ok_bind, error_bind]
    · refine .inr ⟨error, ?_, fault⟩
      simp only [declarations, failed, error_bind]
  | typespace t =>
    simp only [unitKind, Kind.groups] at constants
    rcases constants with ⟨tables, encoded, distinct, fit⟩ | ⟨error, failed, fault⟩
    · obtain ⟨declared, hdeclared⟩ :
          ∃ declared, s.declarations unit (.typespace t) width = .ok declared := by
        simp only [declarations, encoded, ok_bind]
        exact ⟨_, rfl⟩
      refine .inl ⟨declared, hdeclared, ?_, distinct, fit⟩
      simp [classify, found, unitKind]
    · refine .inr ⟨error, ?_, fault⟩
      simp only [declarations, failed, error_bind]
  | _ =>
    -- A struct or an enum has no constants.
    have none : s.unitConstants unit = [] := by
      simp [unitConstants, foundKind, unitKind, Kind.groups, listedConstants]
    refine .inl ⟨_, rfl, ?_, by simp [none], by simp [none]⟩
    simp [classify, found, unitKind]

/-- A unit of a verified schema has its tables, or one of the errors that remain. -/
theorem compileUnit_outcome (owned : s.Owned) (orderly : s.Orderly)
    (valid : isResourceWidth options.width) (verified : s.verifyUnit unit = .ok ())
    (hkind : s.classify unit = some kind) :
    (∃ tables, s.compileUnit options unit = .ok tables ∧ s.Compilable unit options.width) ∨
      ∃ error, s.compileUnit options unit = .error error ∧
        s.UnitFault unit options.width error := by
  obtain ⟨node, found⟩ := exists_node_of_classify hkind
  obtain ⟨info, hinfo⟩ := exists_versionInfo owned orderly verified
  have width : options.validate = .ok () := if_pos valid
  rcases unitHandles_outcome owned orderly hkind with ⟨table, made, paths⟩ | ⟨error, failed, fault⟩
  · rcases declarations_outcome owned orderly valid found with
      ⟨declared, hdeclared, number, symbols, fit⟩ | ⟨error, failed, fault⟩
    · refine .inl ⟨_, compileUnit_eq_ok.2 ⟨node, kind, table, info, declared, width, found, hkind,
        verified, made, hinfo, hdeclared, rfl⟩, ?_⟩
      exact ⟨fun {ps} => paths ps, number, symbols, fun {c} => fit c⟩
    · refine .inr ⟨error, ?_, fault⟩
      simp only [compileUnit, width, node_eq_ok.2 found, ok_bind, hkind, verified, made, hinfo,
        failed, error_bind]
  · refine .inr ⟨error, ?_, fault⟩
    simp only [compileUnit, width, node_eq_ok.2 found, ok_bind, hkind, verified, failed, error_bind]

/-- Verification is complete for errors of structure: a unit of a verified schema is compiled exactly
when its symbols, its number and its constants are in order, and any error is about one of these. -/
theorem compileUnit_of_verify (reachable : s.Reachable) (verified : s.verify = .ok ())
    (valid : 8 ≤ options.width ∧ options.width ≤ 64) (root : unit ∈ s.roots)
    (isUnit : s.classify unit = some kind) :
    ((∃ tables, s.compileUnit options unit = .ok tables) ↔ s.Compilable unit options.width) ∧
      ∀ error, s.compileUnit options unit = .error error →
        s.UnitFault unit options.width error := by
  have orderly := reachable.orderly
  have owned := orderly.owned verified
  have width : isResourceWidth options.width := by simpa [isResourceWidth] using valid
  rcases compileUnit_outcome owned orderly width ((verify_eq_ok.1 verified).2 unit root) isUnit with
    ⟨tables, compiled, compilable⟩ | ⟨error, failed, fault⟩
  · simp [compiled, compilable]
  · simp [failed, fault, fault.not_compilable]

/-- A trait with two constants, the second of seventeen bits. -/
def hubSchema : Schema := Schema.empty.run [
  .declare "weave.trait.example" "HubTrait" (.trait 2570),
  .attach 0 "power" (.field 1 {}),
  .attach 0 "ResourceId" (.group 1),
  .attach 2 "RESOURCE_ID_HUB" (.constant 1 "DEVICE_00FF"),
  .attach 2 "RESOURCE_ID_BRIDGE" (.constant 2 "0x10000")]

/-- One bit decides whether the second constant fits. -/
theorem hubSchema_compilable :
    hubSchema.Reachable ∧ hubSchema.verify = .ok () ∧ hubSchema.Compilable 0 17 ∧
      ¬ hubSchema.Compilable 0 16 ∧
      ∃ error, hubSchema.compileUnit ⟨16, false⟩ 0 = .error error ∧
        hubSchema.UnitFault 0 16 error := by
  have reachable : hubSchema.Reachable := .run .empty _
  have verified : hubSchema.verify = .ok () := toOption_eq_some.1 (by decide +kernel)
  have root : 0 ∈ hubSchema.roots := by decide +kernel
  have isUnit : hubSchema.classify 0 = some .trait := by decide +kernel
  have outcome (width : Nat) (valid : 8 ≤ width ∧ width ≤ 64) :
      ((∃ tables, hubSchema.compileUnit ⟨width, false⟩ 0 = .ok tables) ↔
        hubSchema.Compilable 0 width) ∧
      ∀ error, hubSchema.compileUnit ⟨width, false⟩ 0 = .error error →
        hubSchema.UnitFault 0 width error :=
    compileUnit_of_verify reachable verified valid root isUnit
  have narrow : (hubSchema.compileUnit ⟨16, false⟩ 0).toOption = none := by decide +kernel
  have wide : (hubSchema.compileUnit ⟨17, false⟩ 0).toOption.isSome := by decide +kernel
  cases failed : hubSchema.compileUnit ⟨16, false⟩ 0 with
  | ok tables => simp [failed, Except.toOption] at narrow
  | error error =>
    have fault := (outcome 16 (by decide)).2 error failed
    obtain ⟨tables, compiled⟩ := Option.isSome_iff_exists.1 wide
    have compilable := (outcome 17 (by decide)).1.1 ⟨tables, toOption_eq_some.1 compiled⟩
    exact ⟨reachable, verified, compilable, fault.not_compilable, error, rfl, fault⟩

end Schema

end PropertyTables
