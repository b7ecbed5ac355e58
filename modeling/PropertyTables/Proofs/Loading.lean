import PropertyTables.Proofs.DocumentTrees
import PropertyTables.Proofs.Growth

/-!
# What loading makes of a document

A document is turned into a schema by edits alone, and the fields that it declares bring no children
along: those are added one by one. Loading makes one node of each entry, in the order of the forest
of entries, below the node of the entry around it. Only a map value of a map value is left out, with
all that is below it.

## Main definitions

* `Schema.outline`: what nodes have in common with the entries of a document.
* `Schema.Planted`: edits that add the entries of a forest.
-/

namespace PropertyTables

/-! ## Adding entries to a schema -/

def Node.heading (node : Node) : Heading := ⟨node.parent, node.kind.label, node.name⟩

namespace Schema

/-- The headings of all nodes, in order. -/
def outline (s : Schema) : List Heading := s.nodes.toList.map Node.heading

/-- Edits that bring no children along make `t` of `s` and add the entries below `parent`, as far as
they are kept. -/
structure Planted (s : Schema) (parent : Option NodeId) (es : List DeclTree) (t : Schema) :
    Prop where
  outline : t.outline =
    s.outline ++ DeclTree.outlineAll parent s.size (DeclTree.pruneAll false es)
  grown : s.GrownPlain → t.GrownPlain

variable {s t u : Schema} {parent : Option NodeId} {above id : NodeId} {name qualifier : String}
  {es fs below : List DeclTree}

@[simp] theorem length_outline (s : Schema) : s.outline.length = s.size := by
  simp [outline, size]

theorem outline_getElem? (s : Schema) (id : NodeId) :
    s.outline[id]? = (s.node? id).map Node.heading := by
  simp [outline, node?]

theorem outline_of_set {setting : Setting} (h : s.set id setting = .ok t) :
    t.outline = s.outline := by
  obtain ⟨node, kind, found, configured, rfl⟩ := set_eq_ok h
  have sameLabel := (Kind.childLists_of_configure configured).1
  refine List.ext_getElem? fun i => ?_
  rw [outline_getElem?, outline_getElem?, node?_setKind]
  split
  · subst i
    simp [found, Node.heading, sameLabel]
  · rfl

theorem outline_of_attach {member : Member} (h : s.attach above name member = .ok t) :
    t.outline = s.outline ++ [⟨some above, member.kind.label, name⟩] := by
  obtain ⟨node, kind, found, adopted, -, -, nodes⟩ := attach_eq_ok h
  have sameLabel := (Kind.gains_of_adopt adopted).1
  refine List.ext_getElem? fun i => ?_
  rw [outline_getElem?, nodes, List.getElem?_append, length_outline]
  rcases Nat.lt_trichotomy i s.size with old | rfl | absent
  · rw [if_neg (Nat.ne_of_lt old), if_pos old, outline_getElem?]
    split
    · subst i
      simp [found, Node.heading, sameLabel]
    · rfl
  · simp [Node.heading]
  · have beyond : s.node? i = none := Array.getElem?_eq_none (Nat.le_of_lt absent)
    have inside : above < s.size := node?_lt found
    rw [if_neg (Nat.ne_of_gt absent), if_neg (Nat.ne_of_gt (Nat.lt_trans inside absent)),
      if_neg (Nat.lt_asymm absent), beyond, List.getElem?_eq_none (by simp; omega)]
    rfl

theorem outline_declare (s : Schema) (qualifier name : String) (top : TopLevel) :
    (s.declare qualifier name top).outline =
      s.outline ++ [⟨none, (top.kind qualifier).label, name⟩] := by
  simp [outline, declare, push, Node.heading]

namespace Planted

theorem size (planted : Planted s parent es t) :
    t.size = s.size + DeclTree.sizeAll (DeclTree.pruneAll false es) := by
  rw [← length_outline, planted.outline, List.length_append, length_outline,
    DeclTree.length_outlineAll]

theorem refl (s : Schema) (parent : Option NodeId) : Planted s parent [] s where
  outline := by simp [DeclTree.pruneAll, DeclTree.outlineAll]
  grown := id

theorem trans (first : Planted s parent es t) (second : Planted t parent fs u) :
    Planted s parent (es ++ fs) u where
  outline := by
    rw [second.outline, first.size, first.outline, DeclTree.pruneAll_append,
      DeclTree.outlineAll_append, List.append_assoc]
  grown := second.grown ∘ first.grown

theorem set {setting : Setting} (h : s.set id setting = .ok t) : Planted s parent [] t where
  outline := by
    rw [outline_of_set h]
    exact (refl s parent).outline
  grown grown := grown.set h

/-- A node that is not the value of a map, with what is added below it. -/
theorem of_push {label : String} (first : t.outline = s.outline ++ [⟨parent, label, name⟩])
    (grown : s.GrownPlain → t.GrownPlain) (rest : Planted t (some s.size) below u) :
    Planted s parent [.mk label name false below] u where
  outline := by
    have next : t.size = s.size + 1 := by simp [← length_outline, first]
    rw [rest.outline, first, next]
    simp [DeclTree.pruneAll, DeclTree.prune, DeclTree.outlineAll, DeclTree.outline]
  grown := rest.grown ∘ grown

theorem declare {top : TopLevel}
    (rest : Planted (s.declare qualifier name top) (some s.size) below t) :
    Planted s none [.mk (top.kind qualifier).label name false below] t :=
  of_push (outline_declare s qualifier name top) (fun grown => grown.declare top) rest

theorem attach {member : Member} (plain : member.isPlain)
    (h : s.attach above name member = .ok t) (rest : Planted t (some s.size) below u) :
    Planted s (some above) [.mk member.kind.label name false below] u :=
  of_push (outline_of_attach h) (fun grown => grown.attach plain h) rest

/-- The value of a map has the members that its declaration lists, but no value of its own. -/
theorem attach_value {field : Field} {fields : List FieldDecl}
    (plain : (Member.mapValue field).isPlain) (h : s.attach above name (.mapValue field) = .ok t)
    (rest : Planted t (some s.size) (FieldDecl.trees fields) u) (value : Option FieldDecl) :
    Planted s (some above)
      [.mk "field" name true (FieldDecl.trees fields ++ FieldDecl.valueTrees value)] u where
  outline := by
    have planted := (attach plain h rest).outline
    simp only [DeclTree.pruneAll, DeclTree.prune, DeclTree.outlineAll, DeclTree.outline,
      DeclTree.isValue, Bool.false_and, Bool.false_eq_true, if_false] at planted ⊢
    rw [planted, FieldDecl.pruneAll_trees]
    rfl
  grown := (attach plain h rest).grown

/-- What is added for each member of a list, one after the other. The schema may be a part of what
the steps pass on. -/
theorem foldlM {σ α : Type} (schema : σ → Schema) {add : σ → α → Except Error σ}
    {tree : α → DeclTree} {xs : List α} {a b : σ}
    (step : ∀ a x b, add a x = .ok b → Planted (schema a) parent [tree x] (schema b))
    (h : xs.foldlM add a = .ok b) : Planted (schema a) parent (xs.map tree) (schema b) := by
  induction xs generalizing a with
  | nil =>
    rw [List.foldlM_nil, pure_eq_ok] at h
    exact h ▸ refl (schema a) parent
  | cons x xs ih =>
    rw [List.foldlM_cons] at h
    obtain ⟨next, added, rest⟩ := bind_eq_ok.1 h
    exact (step a x next added).trans (ih rest)

/-! ## The parts of a document -/

theorem addFields {decls : List FieldDecl} (h : s.addFields above decls = .ok t) :
    Planted s (some above) (FieldDecl.trees decls) t := by
  fun_induction Schema.addFields s above decls generalizing t with
  | case1 s above =>
    cases h
    exact refl s _
  | case2 s above name number shape fields value rest id ihFields ihRest =>
    rename_i ihValue
    obtain ⟨s₁, attached, h⟩ := bind_eq_ok.1 h
    obtain ⟨s₂, members, h⟩ := bind_eq_ok.1 h
    rcases value with _ | ⟨valueName, _, valueShape, valueFields, nested⟩
    · have below := (ihFields s₁ members).trans (refl s₂ _)
      exact (attach rfl attached below).trans (ihRest s₂ h)
    · obtain ⟨s₃, attachedValue, h⟩ := bind_eq_ok.1 h
      obtain ⟨s₄, valueMembers, h⟩ := bind_eq_ok.1 h
      have value := attach_value rfl attachedValue (ihValue s₂ s₃ valueMembers) nested
      have below := (ihFields s₁ members).trans value
      exact (attach rfl attached below).trans (ihRest s₄ h)

theorem addStructs {decls : List StructDecl} (h : s.addStructs above decls = .ok t) :
    Planted s (some above) (decls.map StructDecl.tree) t := by
  refine foldlM id (fun s d t h => ?_) h
  obtain ⟨s₁, attached, h⟩ := bind_eq_ok.1 h
  obtain ⟨s₂, configured, h⟩ := bind_eq_ok.1 h
  exact attach rfl attached ((set configured).trans (addFields h))

theorem addEnums {decls : List EnumDecl} (h : s.addEnums above decls = .ok t) :
    Planted s (some above) (decls.map EnumDecl.tree) t := by
  refine foldlM id (fun s d t h => ?_) h
  obtain ⟨s₁, attached, configured⟩ := bind_eq_ok.1 h
  exact attach rfl attached (set configured)

theorem addResponse {d : StructDecl} (h : s.addResponse above d = .ok t) :
    Planted s (some above) [d.tree] t := by
  obtain ⟨s₁, attached, h⟩ := bind_eq_ok.1 h
  exact attach rfl attached (addFields h)

theorem addCommands {decls : List CommandDecl} (h : s.addCommands above decls = .ok t) :
    Planted s (some above) (decls.map CommandDecl.tree) t := by
  refine foldlM id (fun s d t h => ?_) h
  obtain ⟨s₁, attached, h⟩ := bind_eq_ok.1 h
  obtain ⟨s₂, parameters, h⟩ := bind_eq_ok.1 h
  refine attach rfl attached ((addFields parameters).trans ?_)
  cases response : d.response with
  | none =>
    simp only [response, pure_eq_ok] at h
    exact h ▸ refl s₂ _
  | some r =>
    simp only [response] at h
    exact addResponse h

theorem addGroups {decls : List GroupDecl} (h : s.addGroups above decls = .ok t) :
    Planted s (some above) (decls.map GroupDecl.tree) t := by
  refine foldlM id (fun s d t h => ?_) h
  obtain ⟨s₁, attached, constants⟩ := bind_eq_ok.1 h
  refine attach rfl attached (foldlM id (fun s c t h => ?_) constants)
  exact attach rfl h (refl t _)

theorem addEvents {decls : List EventDecl} (h : s.addEvents above decls = .ok t) :
    Planted s (some above) (decls.map EventDecl.tree) t := by
  refine foldlM id (fun s d t h => ?_) h
  obtain ⟨s₁, attached, h⟩ := bind_eq_ok.1 h
  exact attach rfl attached (addFields h)

theorem addTypespace {d : TypespaceDecl} (h : s.addTypespace d = .ok t) :
    Planted s none [d.tree] t := by
  obtain ⟨s₁, version, h⟩ := bind_eq_ok.1 h
  obtain ⟨s₂, enums, h⟩ := bind_eq_ok.1 h
  obtain ⟨s₃, structs, groups⟩ := bind_eq_ok.1 h
  have below := ((addEnums enums).trans (addStructs structs)).trans (addGroups groups)
  exact declare ((set version).trans below)

theorem addTrait {d : TraitDecl} (h : s.addTrait d = .ok t) : Planted s none [d.tree] t := by
  obtain ⟨s₁, version, h⟩ := bind_eq_ok.1 h
  obtain ⟨s₂, vendor, h⟩ := bind_eq_ok.1 h
  obtain ⟨s₃, state, h⟩ := bind_eq_ok.1 h
  obtain ⟨s₄, enums, h⟩ := bind_eq_ok.1 h
  obtain ⟨s₅, commands, h⟩ := bind_eq_ok.1 h
  obtain ⟨s₆, groups, h⟩ := bind_eq_ok.1 h
  obtain ⟨s₇, structs, events⟩ := bind_eq_ok.1 h
  have settings : Planted _ (some s.size) [] s₂ := (set version).trans (set vendor)
  have members := ((addFields state).trans (addEnums enums)).trans (addCommands commands)
  have below := ((members.trans (addGroups groups)).trans (addStructs structs)).trans
    (addEvents events)
  exact declare (settings.trans below)

theorem addTraits {decls : List TraitDecl} {named : List (String × NodeId)}
    (h : s.addTraits decls = .ok (t, named)) : Planted s none (decls.map TraitDecl.tree) t := by
  refine foldlM Prod.fst (fun state d next h => ?_) h
  obtain ⟨s₁, added, h⟩ := bind_eq_ok.1 h
  rw [pure_eq_ok] at h
  exact h ▸ addTrait added

theorem addBase {named : List (String × NodeId)} {d : TraitDecl}
    (h : s.addBase named d = .ok t) : Planted s parent [] t := by
  unfold Schema.addBase at h
  split at h
  · split at h
    · exact set h
    · cases h
  · cases h
    exact refl s parent

theorem addTopStruct {d : StructDecl} (h : s.addTopStruct d = .ok t) :
    Planted s none [d.topTree] t := by
  obtain ⟨s₁, configured, fields⟩ := bind_eq_ok.1 h
  exact declare ((set configured).trans (addFields fields))

theorem addTopEnum {d : EnumDecl} (h : s.addTopEnum d = .ok t) : Planted s none [d.topTree] t :=
  declare (set h)

theorem toSchema {d : Document} (h : d.toSchema = .ok t) : Planted .empty none d.trees t := by
  obtain ⟨s₁, typespaces, h⟩ := bind_eq_ok.1 h
  obtain ⟨⟨s₂, named⟩, traits, h⟩ := bind_eq_ok.1 h
  obtain ⟨s₃, bases, h⟩ := bind_eq_ok.1 h
  obtain ⟨s₄, structs, enums⟩ := bind_eq_ok.1 h
  have first : Planted .empty none (d.typespaces.map TypespaceDecl.tree) s₁ :=
    foldlM id (fun _ _ _ => addTypespace) typespaces
  have extended : Planted s₂ none [] s₃ :=
    foldlM_invariant (P := Planted s₂ none []) (fun _ _ _ before h => before.trans (addBase h))
      (refl s₂ none) bases
  have units := (first.trans (addTraits traits)).trans extended
  have third : Planted s₃ none (d.structs.map StructDecl.topTree) s₄ :=
    foldlM id (fun _ _ _ => addTopStruct) structs
  have last : Planted s₄ none (d.enums.map EnumDecl.topTree) t :=
    foldlM id (fun _ _ _ => addTopEnum) enums
  rw [List.append_nil] at units
  exact (units.trans third).trans last

end Planted

namespace GrownPlain

theorem toSchema {d : Document} (h : d.toSchema = .ok t) : GrownPlain t :=
  (Planted.toSchema h).grown .empty

/-- Whatever text is loaded, its schema is one that edits make. -/
theorem load {text : String} (h : Schema.load text = .ok t) : GrownPlain t := by
  unfold Schema.load at h
  split at h
  · exact toSchema h
  · cases h

end GrownPlain

end Schema

namespace Document

/-- Loading makes a node of each entry that is not, or not below, a map value of a map value: the
nodes are numbered in the order of the entries, and each stands below the node of the entry around
it. So none is lost if and only if no map value has a map value of its own. -/
theorem outline_of_toSchema {d : Document} {s : Schema} (loaded : d.toSchema = .ok s) :
    s.outline = DeclTree.outlineAll none 0 (DeclTree.pruneAll false d.trees) ∧
      s.size + DeclTree.sizeAll d.dropped = DeclTree.sizeAll d.trees ∧
      (s.size = DeclTree.sizeAll d.trees ↔ d.dropped = []) ∧
      (s.outline = DeclTree.outlineAll none 0 d.trees ↔ d.dropped = []) := by
  have outline : s.outline = DeclTree.outlineAll none 0 (DeclTree.pruneAll false d.trees) :=
    (Schema.Planted.toSchema loaded).outline
  have size : s.size = DeclTree.sizeAll (DeclTree.pruneAll false d.trees) := by
    rw [← Schema.length_outline, outline, DeclTree.length_outlineAll]
  have kept : s.size + DeclTree.sizeAll d.dropped = DeclTree.sizeAll d.trees := by
    rw [size]
    exact DeclTree.sizeAll_pruneAll false d.trees
  have complete : s.size = DeclTree.sizeAll d.trees ↔ d.dropped = [] := by
    rw [← DeclTree.sizeAll_eq_zero]
    omega
  refine ⟨outline, kept, complete, fun same => complete.1 ?_, fun nothing => ?_⟩
  · rw [← Schema.length_outline, same, DeclTree.length_outlineAll]
  · rw [outline, DeclTree.pruneAll_of_droppedAll false d.trees nothing]

/-- A trait with a map, a command with a response and a constant, and a struct at the top. -/
def irrigationDocument : Document where
  traits := [{
    name := "weave.trait.example.IrrigationTrait", number := 2574
    state := [{
      name := "zones", number := 1
      value := some {
        name := "zone", number := 0
        fields := [{ name := "minutes", number := 1 }, { name := "valve", number := 2 }] } }]
    commands := [{
      name := "Water", number := 1
      parameters := [{ name := "zone", number := 1 }]
      response := some { name := "WaterResponse", fields := [{ name := "ok", number := 1 }] } }]
    groups := [{ name := "Limits", constants := [⟨"MAX_ZONES", 1, "8"⟩] }] }]
  structs := [{ name := "weave.common.Valve", fields := [{ name := "serial", number := 1 }] }]

theorem irrigationDocument_outline :
    ∃ s, irrigationDocument.toSchema = .ok s ∧ s.size = 13 ∧ irrigationDocument.dropped = [] ∧
      s.outline = DeclTree.outlineAll none 0 irrigationDocument.trees := by
  have counted : irrigationDocument.toSchema.toOption.map Schema.size = some 13 := by
    simp only [toSchema, irrigationDocument, Schema.addTraits, Schema.addTrait, Schema.addCommands,
      Schema.addResponse, Schema.addTopStruct, List.foldlM_cons, List.foldlM_nil, Schema.addFields]
    decide +kernel
  obtain ⟨s, loaded, size⟩ := Option.map_eq_some_iff.1 counted
  rw [toOption_eq_some] at loaded
  obtain ⟨-, -, -, complete⟩ := outline_of_toSchema loaded
  exact ⟨s, loaded, size, rfl, complete.2 rfl⟩

/-- A trait with a map of maps. -/
def gridDocument : Document where
  traits := [{
    name := "weave.trait.example.GridTrait", number := 2573
    state := [{
      name := "rows", number := 1
      value := some {
        name := "row", number := 0
        value := some { name := "cell", number := 0 } } }] }]

/-- Of the inner map only the field is there, and its value is not. -/
theorem gridDocument_outline :
    ∃ s, gridDocument.toSchema = .ok s ∧
      s.outline = [⟨none, "trait", "GridTrait"⟩, ⟨some 0, "field", "rows"⟩,
        ⟨some 1, "field", "row"⟩] ∧
      DeclTree.outlineAll none 0 gridDocument.trees = s.outline ++ [⟨some 2, "field", "cell"⟩] ∧
      s.size ≠ DeclTree.sizeAll gridDocument.trees := by
  have listed : gridDocument.toSchema.toOption.map Schema.outline =
      some [⟨none, "trait", "GridTrait"⟩, ⟨some 0, "field", "rows"⟩,
        ⟨some 1, "field", "row"⟩] := by
    simp only [toSchema, gridDocument, Schema.addTraits, Schema.addTrait, List.foldlM_cons,
      List.foldlM_nil, Schema.addFields]
    decide +kernel
  obtain ⟨s, loaded, outline⟩ := Option.map_eq_some_iff.1 listed
  refine ⟨s, toOption_eq_some.1 loaded, outline, ?_, ?_⟩
  · rw [outline]
    decide +kernel
  · rw [← Schema.length_outline, outline]
    decide +kernel

end Document

end PropertyTables
