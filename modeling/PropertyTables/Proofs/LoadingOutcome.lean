import Mathlib.Data.List.TakeWhile
import PropertyTables.Proofs.Acceptance
import PropertyTables.Proofs.Loading
import PropertyTables.Proofs.LoadingCalls

/-!
# When a document is loaded

Loading makes many edits, and each is about a node that loading itself has made for it: a member
goes below a node that has a place for it, and a setting to a node of a kind that has it. So none of
the edits in `Document.calls` is refused, whatever the document says. What remains are the names of
bases. Those are looked up when all traits are there, so that a trait may extend one that comes
after it.

## Main definitions

* `TraitDecl.profile`: what a trait entry says of its trait apart from its members.
* `Document.Placed`: where the traits of a document are in a schema, and what they say.
-/

namespace PropertyTables

namespace Schema

variable {s : Schema} {parent : NodeId} {kind : Kind}

/-! ## Members -/

/-- Below a node that takes fields, fields of any depth are added. Each field takes members, and one
value as long as it has none. -/
theorem exists_addFields (decls : List FieldDecl) (room : s.Offers parent kind)
    (takes : ∀ number field, (kind.adopt 0 (.field number field)).isSome) :
    ∃ t, s.addFields parent decls = .ok t ∧ s.Filled t := by
  fun_induction Schema.addFields s parent decls generalizing kind with
  | case1 s parent => exact ⟨s, rfl, .refl s⟩
  | case2 s parent name number shape fields value rest id ihFields ihRest =>
    rename_i ihValue
    obtain ⟨s₁, attached⟩ :=
      room.exists_attach name (.field number { toFieldShape := shape }) (takes _ _)
    have first : s.Filled s₁ := (Filled.refl s).attach attached (.inl rfl)
    have own := offers_of_attach attached
    obtain ⟨s₂, members, filled⟩ := ihFields s₁ own fun _ _ => rfl
    have second : s.Filled s₂ := first.trans filled
    rcases value with _ | ⟨valueName, _, valueShape, valueFields, _⟩
    · obtain ⟨t, added, last⟩ := ihRest s₂ (second.offers room) takes
      exact ⟨t, bind_eq_ok.2 ⟨s₁, attached, bind_eq_ok.2 ⟨s₂, members, added⟩⟩,
        second.trans last⟩
    · -- the field itself is new, so that its value takes no place that `s` has
      obtain ⟨s₃, attachedValue⟩ := (filled.offers own).exists_attach valueName
        (.mapValue { toFieldShape := valueShape }) rfl
      have third : s.Filled s₃ := second.attach attachedValue (.inr (Nat.le_refl _))
      obtain ⟨s₄, valueMembers, filled⟩ :=
        ihValue s₂ s₃ (offers_of_attach attachedValue) fun _ _ => rfl
      have fourth : s.Filled s₄ := third.trans filled
      obtain ⟨t, added, last⟩ := ihRest s₄ (fourth.offers room) takes
      refine ⟨t, bind_eq_ok.2 ⟨s₁, attached, bind_eq_ok.2 ⟨s₂, members, ?_⟩⟩, fourth.trans last⟩
      exact bind_eq_ok.2 ⟨s₃, attachedValue, bind_eq_ok.2 ⟨s₄, valueMembers, added⟩⟩

theorem exists_addStructs (decls : List StructDecl) (room : s.Offers parent kind)
    (takes : ∀ qualifier number, (kind.adopt 0 (.struct qualifier number)).isSome) :
    ∃ t, s.addStructs parent decls = .ok t ∧ s.Filled t := by
  refine Filled.foldlM (fun s d room => ?_) room
  obtain ⟨s₁, attached⟩ := room.exists_attach d.name (.struct "" d.number) (takes _ _)
  have own := offers_of_attach attached
  obtain ⟨s₂, configured⟩ := own.exists_set (.standard d.isStandard) rfl
  obtain ⟨t, fields, filled⟩ := exists_addFields d.fields (own.set configured) fun _ _ => rfl
  have first : s.Filled s₁ := (Filled.refl s).attach attached (.inl rfl)
  exact ⟨t, bind_eq_ok.2 ⟨s₁, attached, bind_eq_ok.2 ⟨s₂, configured, fields⟩⟩,
    (first.set configured fun _ => rfl).trans filled⟩

theorem exists_addEnums (decls : List EnumDecl) (room : s.Offers parent kind)
    (takes : ∀ qualifier number values, (kind.adopt 0 (.enum qualifier number values)).isSome) :
    ∃ t, s.addEnums parent decls = .ok t ∧ s.Filled t := by
  refine Filled.foldlM (fun s d room => ?_) room
  obtain ⟨s₁, attached⟩ := room.exists_attach d.name (.enum "" d.number d.values) (takes _ _ _)
  obtain ⟨t, configured⟩ := (offers_of_attach attached).exists_set (.bitmask d.isBitmask) rfl
  have first : s.Filled s₁ := (Filled.refl s).attach attached (.inl rfl)
  exact ⟨t, bind_eq_ok.2 ⟨s₁, attached, configured⟩, first.set configured fun _ => rfl⟩

/-- A command gets its response after its parameters. It is a new node, so that no other edit needs
the place of the response. -/
theorem exists_addCommands (decls : List CommandDecl) (room : s.Offers parent kind)
    (takes : ∀ number, (kind.adopt 0 (.command number)).isSome) :
    ∃ t, s.addCommands parent decls = .ok t ∧ s.Filled t := by
  refine Filled.foldlM (fun s d room => ?_) room
  obtain ⟨s₁, attached⟩ := room.exists_attach d.name (.command d.number) (takes _)
  have own := offers_of_attach attached
  obtain ⟨s₂, parameters, filled⟩ := exists_addFields d.parameters own fun _ _ => rfl
  have second : s.Filled s₂ := ((Filled.refl s).attach attached (.inl rfl)).trans filled
  cases response : d.response with
  | none =>
    refine ⟨s₂, bind_eq_ok.2 ⟨s₁, attached, bind_eq_ok.2 ⟨s₂, parameters, ?_⟩⟩, second⟩
    rfl
  | some r =>
    obtain ⟨s₃, attachedResponse⟩ :=
      (filled.offers own).exists_attach r.name (.response r.number) rfl
    have third : s.Filled s₃ := second.attach attachedResponse (.inr (Nat.le_refl _))
    obtain ⟨t, fields, last⟩ :=
      exists_addFields r.fields (offers_of_attach attachedResponse) fun _ _ => rfl
    refine ⟨t, bind_eq_ok.2 ⟨s₁, attached, bind_eq_ok.2 ⟨s₂, parameters, ?_⟩⟩, third.trans last⟩
    exact bind_eq_ok.2 ⟨s₃, attachedResponse, fields⟩

theorem exists_addGroups (decls : List GroupDecl) (room : s.Offers parent kind)
    (takes : ∀ number, (kind.adopt 0 (.group number)).isSome) :
    ∃ t, s.addGroups parent decls = .ok t ∧ s.Filled t := by
  refine Filled.foldlM (fun s d room => ?_) room
  obtain ⟨s₁, attached⟩ := room.exists_attach d.name (.group d.number) (takes _)
  have first : s.Filled s₁ := (Filled.refl s).attach attached (.inl rfl)
  obtain ⟨t, constants, filled⟩ : ∃ t, d.constants.foldlM (fun u c =>
      u.attach s.size c.name (.constant c.number c.value)) s₁ = .ok t ∧ s₁.Filled t := by
    refine Filled.foldlM (fun u c room => ?_) (offers_of_attach attached)
    obtain ⟨v, added⟩ := room.exists_attach c.name (.constant c.number c.value) rfl
    exact ⟨v, added, (Filled.refl u).attach added (.inl rfl)⟩
  exact ⟨t, bind_eq_ok.2 ⟨s₁, attached, constants⟩, first.trans filled⟩

theorem exists_addEvents (decls : List EventDecl) (room : s.Offers parent kind)
    (takes : ∀ number importance, (kind.adopt 0 (.event number importance)).isSome) :
    ∃ t, s.addEvents parent decls = .ok t ∧ s.Filled t := by
  refine Filled.foldlM (fun s d room => ?_) room
  obtain ⟨s₁, attached⟩ := room.exists_attach d.name (.event d.number d.importance) (takes _ _)
  obtain ⟨t, fields, filled⟩ :=
    exists_addFields d.fields (offers_of_attach attached) fun _ _ => rfl
  have first : s.Filled s₁ := (Filled.refl s).attach attached (.inl rfl)
  exact ⟨t, bind_eq_ok.2 ⟨s₁, attached, fields⟩, first.trans filled⟩

end Schema

/-! ## Declarations at the top -/

/-- What a trait entry says of its trait apart from its members, when the trait extends `base`. -/
def TraitDecl.profile (d : TraitDecl) (base : Option NodeId) : TraitProfile :=
  ⟨(splitName d.name).2, d.number, (splitName d.name).1, d.version, d.vendor, base⟩

namespace Schema

variable {s t : Schema}

theorem exists_addTypespace (s : Schema) (d : TypespaceDecl) :
    ∃ t, s.addTypespace d = .ok t ∧ s.Topped none t := by
  have declared := Topped.declare s (splitName d.name).1 (splitName d.name).2 .typespace
  have own := offers_declare s (splitName d.name).1 (splitName d.name).2 .typespace
  obtain ⟨s₁, version⟩ := own.exists_set (.version d.version) rfl
  have room := own.set version
  obtain ⟨s₂, enums, filled₂⟩ := exists_addEnums d.enums room fun _ _ _ => rfl
  obtain ⟨s₃, structs, filled₃⟩ := exists_addStructs d.structs (filled₂.offers room) fun _ _ => rfl
  have filled := filled₂.trans filled₃
  obtain ⟨t, groups, filled₄⟩ := exists_addGroups d.groups (filled.offers room) fun _ => rfl
  refine ⟨t, ?_, (declared.set version).filled (filled.trans filled₄)⟩
  exact bind_eq_ok.2 ⟨s₁, version, bind_eq_ok.2 ⟨s₂, enums, bind_eq_ok.2 ⟨s₃, structs, groups⟩⟩⟩

theorem exists_addTrait (s : Schema) (d : TraitDecl) :
    ∃ t, s.addTrait d = .ok t ∧ s.Topped (some (d.profile none)) t := by
  have declared := Topped.declare s (splitName d.name).1 (splitName d.name).2 (.trait d.number)
  have own := offers_declare s (splitName d.name).1 (splitName d.name).2 (.trait d.number)
  obtain ⟨s₁, version⟩ := own.exists_set (.version d.version) rfl
  obtain ⟨s₂, vendor⟩ := (own.set version).exists_set (.vendor d.vendor) rfl
  have room := (own.set version).set vendor
  obtain ⟨s₃, state, filled₃⟩ := exists_addFields d.state room fun _ _ => rfl
  obtain ⟨s₄, enums, filled₄⟩ := exists_addEnums d.enums (filled₃.offers room) fun _ _ _ => rfl
  have filled := filled₃.trans filled₄
  obtain ⟨s₅, commands, filled₅⟩ := exists_addCommands d.commands (filled.offers room) fun _ => rfl
  have filled := filled.trans filled₅
  obtain ⟨s₆, groups, filled₆⟩ := exists_addGroups d.groups (filled.offers room) fun _ => rfl
  have filled := filled.trans filled₆
  obtain ⟨s₇, structs, filled₇⟩ := exists_addStructs d.structs (filled.offers room) fun _ _ => rfl
  have filled := filled.trans filled₇
  obtain ⟨t, events, filled₈⟩ := exists_addEvents d.events (filled.offers room) fun _ _ => rfl
  refine ⟨t, ?_, ((declared.set version).set vendor).filled (filled.trans filled₈)⟩
  refine bind_eq_ok.2 ⟨s₁, version, bind_eq_ok.2 ⟨s₂, vendor, bind_eq_ok.2 ⟨s₃, state, ?_⟩⟩⟩
  refine bind_eq_ok.2 ⟨s₄, enums, bind_eq_ok.2 ⟨s₅, commands, bind_eq_ok.2 ⟨s₆, groups, ?_⟩⟩⟩
  exact bind_eq_ok.2 ⟨s₇, structs, events⟩

theorem exists_addTopStruct (s : Schema) (d : StructDecl) :
    ∃ t, s.addTopStruct d = .ok t ∧ s.Topped none t := by
  have declared := Topped.declare s (splitName d.name).1 (splitName d.name).2 (.struct d.number)
  have own := offers_declare s (splitName d.name).1 (splitName d.name).2 (.struct d.number)
  obtain ⟨s₁, configured⟩ := own.exists_set (.standard d.isStandard) rfl
  obtain ⟨t, fields, filled⟩ := exists_addFields d.fields (own.set configured) fun _ _ => rfl
  exact ⟨t, bind_eq_ok.2 ⟨s₁, configured, fields⟩, (declared.set configured).filled filled⟩

theorem exists_addTopEnum (s : Schema) (d : EnumDecl) :
    ∃ t, s.addTopEnum d = .ok t ∧ s.Topped none t := by
  have declared :=
    Topped.declare s (splitName d.name).1 (splitName d.name).2 (.enum d.number d.values)
  have own := offers_declare s (splitName d.name).1 (splitName d.name).2 (.enum d.number d.values)
  obtain ⟨t, configured⟩ := own.exists_set (.bitmask d.isBitmask) rfl
  exact ⟨t, configured, declared.set configured⟩

/-- A list of entries that are no traits gives one root for each. -/
theorem exists_foldlM_topped {α : Type} {add : Schema → α → Except Error Schema}
    (step : ∀ s x, ∃ t, add s x = .ok t ∧ s.Topped none t) (xs : List α) (s : Schema) :
    ∃ t ids, xs.foldlM add s = .ok t ∧ t.roots = s.roots ++ ids ∧ ids.length = xs.length ∧
      ∀ id, t.profile? id = s.profile? id := by
  induction xs generalizing s with
  | nil => exact ⟨s, [], rfl, by simp, rfl, fun _ => rfl⟩
  | cons x xs ih =>
    obtain ⟨next, added, topped⟩ := step s x
    obtain ⟨t, ids, rest, roots, length, profiles⟩ := ih next
    refine ⟨t, s.size :: ids, ?_, ?_, by simp [length], fun id => ?_⟩
    · rw [List.foldlM_cons, added, ok_bind, rest]
    · rw [roots, topped.roots, List.append_assoc, List.singleton_append]
    · rw [profiles, topped.profile?]
      split
      · rename_i new
        rw [new, profile?_size]
      · rfl

/-- `t` is `s` with a trait for each of some entries, at the nodes `ids`. -/
structure WithTraits (s : Schema) (decls : List TraitDecl) (ids : List NodeId) (t : Schema) :
    Prop where
  roots : t.roots = s.roots ++ ids
  profiles : List.Forall₂ (fun d id => t.profile? id = some (d.profile none)) decls ids
  nodup : ids.Nodup
  old {id : NodeId} : s.profile? id ≠ none → id ∉ ids ∧ t.profile? id = s.profile? id

theorem WithTraits.cons {next : Schema} {d : TraitDecl} {decls : List TraitDecl} {ids : List NodeId}
    (topped : s.Topped (some (d.profile none)) next) (rest : next.WithTraits decls ids t) :
    s.WithTraits (d :: decls) (s.size :: ids) t := by
  have own : next.profile? s.size = some (d.profile none) := by rw [topped.profile?, if_pos rfl]
  -- the traits that follow are at other nodes and leave this one as it is
  obtain ⟨fresh, kept⟩ := rest.old (show next.profile? s.size ≠ none by simp [own])
  constructor
  case roots => rw [rest.roots, topped.roots, List.append_assoc, List.singleton_append]
  case profiles => exact .cons (kept.trans own) rest.profiles
  case nodup => exact List.nodup_cons.2 ⟨fresh, rest.nodup⟩
  case old =>
    intro id present
    have other : id ≠ s.size := by
      rintro rfl
      exact present s.profile?_size
    have same : next.profile? id = s.profile? id := by rw [topped.profile?, if_neg other]
    obtain ⟨absent, kept⟩ := rest.old (same ▸ present)
    exact ⟨by simp [other, absent], kept.trans same⟩

theorem exists_perform_traits (s : Schema) (decls : List TraitDecl) :
    ∃ t, (Plan.each .trait decls).perform s = .ok t ∧
      s.WithTraits decls (Plan.starts .trait decls s.size) t := by
  induction decls generalizing s with
  | nil => exact ⟨s, rfl, by simp [Plan.starts], .nil, by simp [Plan.starts], by simp [Plan.starts]⟩
  | cons d decls ih =>
    obtain ⟨next, added, topped⟩ := exists_addTrait s d
    have performed : (Plan.trait d).perform s = .ok next := by simpa using added
    obtain ⟨t, rest, traits⟩ := ih next
    rw [Plan.size_of_perform performed] at traits
    exact ⟨t, (Plan.perform_append_of_ok performed).trans rest, traits.cons topped⟩

end Schema

/-! ## Bases -/

/-- The trait with another base, if there is one. -/
def TraitProfile.rebase (base : Option NodeId) (p : TraitProfile) : TraitProfile :=
  { p with base := base.or p.base }

theorem TraitProfile.rebase_none : rebase none = id := rfl

theorem TraitProfile.rebase_rebase (first second : Option NodeId) (p : TraitProfile) :
    (p.rebase first).rebase second = p.rebase (second.or first) := by
  simp [rebase, Option.or_assoc]

/-- The base that an entry gives to the trait at a node: only the one that bears the name of the
entry gets one. -/
def TraitDecl.baseFor (d : TraitDecl) (named : List (String × NodeId)) (id : NodeId) :
    Option NodeId :=
  if named.lookup d.name = some id then d.base.bind (named.lookup ·) else none

namespace Schema

variable {s t : Schema} {named : List (String × NodeId)} {d : TraitDecl} {id : NodeId}

theorem exists_set_base (isTrait : s.profile? id ≠ none) (base : NodeId) :
    ∃ t, s.set id (.base base) = .ok t := by
  obtain ⟨profile, h⟩ := Option.ne_none_iff_exists'.1 isTrait
  obtain ⟨node, found, h⟩ := Option.bind_eq_some_iff.1 h
  cases kind : node.kind with
  | trait t => exact set_of_configure found (by rw [kind]; rfl)
  | _ => simp [Node.profile?, kind, Kind.trait?] at h

/-- An entry whose base is there gives it to the trait that bears the name of the entry. -/
theorem exists_addBase (traits : ∀ name id, named.lookup name = some id → s.profile? id ≠ none)
    (bears : named.lookup d.name ≠ none)
    (resolved : ∀ base, d.base = some base → named.lookup base ≠ none) :
    ∃ t, s.addBase named d = .ok t ∧ t.roots = s.roots ∧
      ∀ id, t.profile? id = (s.profile? id).map (TraitProfile.rebase (d.baseFor named id)) := by
  obtain ⟨own, hown⟩ := Option.ne_none_iff_exists'.1 bears
  cases base : d.base with
  | none =>
    refine ⟨s, by simp [addBase, base], rfl, fun id => ?_⟩
    simp [TraitDecl.baseFor, base, TraitProfile.rebase_none]
  | some text =>
    obtain ⟨target, htarget⟩ := Option.ne_none_iff_exists'.1 (resolved text base)
    obtain ⟨t, extended⟩ := exists_set_base (traits d.name own hown) target
    refine ⟨t, by simp [addBase, base, hown, htarget, extended], (configured_of_set extended).roots,
      fun id => ?_⟩
    rw [profile?_of_set extended]
    by_cases same : id = own
    · subst same
      have given : d.baseFor named id = some target := by
        simp [TraitDecl.baseFor, hown, base, htarget]
      rw [if_pos rfl, given]
      rfl
    · rw [if_neg same]
      simp [TraitDecl.baseFor, hown, Ne.symm same, TraitProfile.rebase_none]

theorem addBase_eq_error {base : String} (bears : named.lookup d.name ≠ none)
    (extended : d.base = some base) (unknown : named.lookup base = none) :
    s.addBase named d = .error (.integrity d.name "extends" (.unknownBase base)) := by
  obtain ⟨own, hown⟩ := Option.ne_none_iff_exists'.1 bears
  simp [addBase, extended, hown, unknown]

/-- Bases are given in the order of the entries, so that the last one stays. -/
theorem exists_addBases {decls : List TraitDecl}
    (traits : ∀ name id, named.lookup name = some id → s.profile? id ≠ none)
    (bears : ∀ d ∈ decls, named.lookup d.name ≠ none)
    (resolved : ∀ d ∈ decls, ∀ base, d.base = some base → named.lookup base ≠ none) :
    ∃ t, decls.foldlM (addBase named) s = .ok t ∧ t.roots = s.roots ∧
      ∀ id, t.profile? id = (s.profile? id).map
        (TraitProfile.rebase (decls.reverse.findSome? (·.baseFor named id))) := by
  induction decls generalizing s with
  | nil => exact ⟨s, rfl, rfl, fun id => by simp [TraitProfile.rebase_none]⟩
  | cons d decls ih =>
    rw [List.forall_mem_cons] at bears resolved
    obtain ⟨next, added, roots, profiles⟩ := exists_addBase traits bears.1 resolved.1
    have traitsNext : ∀ name id, named.lookup name = some id → next.profile? id ≠ none := by
      intro name id found
      rw [profiles, ne_eq, Option.map_eq_none_iff]
      exact traits name id found
    obtain ⟨t, rest, roots', profiles'⟩ := ih traitsNext bears.2 resolved.2
    refine ⟨t, by rw [List.foldlM_cons, added, ok_bind, rest], roots'.trans roots, fun id => ?_⟩
    have last : (d :: decls).reverse.findSome? (·.baseFor named id) =
        (decls.reverse.findSome? (·.baseFor named id)).or (d.baseFor named id) := by
      rw [List.reverse_cons, List.findSome?_append, List.findSome?_singleton]
    rw [profiles', profiles, Option.map_map, last]
    exact congrArg (Option.map · _) (funext fun p => p.rebase_rebase _ _)

/-- A name is borne when an entry has it. -/
theorem lookup_bearers_ne_none {decls : List TraitDecl} {ids : List NodeId}
    (length : decls.length = ids.length) {name : String} :
    (bearers decls ids).lookup name ≠ none ↔ ∃ d ∈ decls, d.name = name := by
  have names : (bearers decls ids).map Prod.fst = (decls.map TraitDecl.name).reverse := by
    rw [bearers, List.map_reverse, List.map_fst_zip (by simp [length])]
  calc (bearers decls ids).lookup name ≠ none
      ↔ name ∈ (bearers decls ids).map Prod.fst := by
        simp [List.lookup_eq_none_iff]
    _ ↔ ∃ d ∈ decls, d.name = name := by simp [names]

/-- The node that bears a name is the node of a trait. -/
theorem WithTraits.profile?_ne_none {decls : List TraitDecl} {ids : List NodeId}
    (made : s.WithTraits decls ids t) {name : String} {id : NodeId}
    (found : (bearers decls ids).lookup name = some id) : t.profile? id ≠ none := by
  obtain ⟨before, after, split, -⟩ := List.lookup_eq_some_iff.1 found
  have listed : (name, id) ∈ bearers decls ids := by simp [split]
  have member : id ∈ ids := (List.of_mem_zip (List.mem_reverse.1 listed)).2
  obtain ⟨d, -, profile⟩ := exists_of_forall₂ made.profiles.flip member
  simp [profile]

end Schema

/-! ## Documents -/

namespace Document

open Schema

/-- The traits of a document are at the nodes `ids` of a schema, behind its typespaces. -/
structure Placed (d : Document) (ids : List NodeId) (s : Schema) : Prop where
  roots : ∃ before after, s.roots = before ++ ids ++ after ∧ before.length = d.typespaces.length
  profiles : List.Forall₂ (fun e id => s.profile? id = some (e.profile
    (d.traits.reverse.findSome? (·.baseFor (bearers d.traits ids) id)))) d.traits ids
  nodup : ids.Nodup

variable {d : Document} {e : TraitDecl} {error : Error} {s : Schema}

theorem not_resolves :
    ¬ d.Resolves e ↔ ∃ base, e.base = some base ∧ ∀ f ∈ d.traits, f.name ≠ base := by
  simp [Resolves]

/-- What is left of loading when the traits are there: nothing before it fails. -/
theorem exists_toSchema_eq (d : Document) : ∃ s t : Schema,
    s.roots.length = d.typespaces.length ∧ s.WithTraits d.traits d.traitIds t ∧
    d.opening.perform .empty = .ok t ∧
    d.toSchema = (d.traits.foldlM (addBase d.named) t >>= fun u =>
      d.structs.foldlM addTopStruct u >>= fun v => d.enums.foldlM addTopEnum v) := by
  obtain ⟨s, roots, typespaces, split, length, -⟩ :=
    exists_foldlM_topped exists_addTypespace d.typespaces .empty
  have performed : (Plan.each .typespace d.typespaces).perform .empty = .ok s := by
    simpa using typespaces
  have size : s.size = (Plan.each .typespace d.typespaces 0).countP Edit.isNew := by
    simpa [empty, Schema.size] using Plan.size_of_perform performed
  obtain ⟨t, traits, made⟩ := exists_perform_traits s d.traits
  refine ⟨s, t, by simpa [split, empty] using length, by rwa [traitIds, ← size],
    (Plan.perform_append_of_ok performed).trans traits, ?_⟩
  rw [toSchema, typespaces, ok_bind, addTraits_eq, traits, ok_bind, ok_bind, size]
  rfl

theorem lookup_named_ne_none (d : Document) {name : String} :
    d.named.lookup name ≠ none ↔ ∃ e ∈ d.traits, e.name = name :=
  lookup_bearers_ne_none (by simp [traitIds])

/-- When the traits are there, entries whose bases are there get them. -/
theorem exists_bases {t : Schema} (made : s.WithTraits d.traits d.traitIds t)
    (decls : List TraitDecl) (resolved : ∀ e ∈ decls, e ∈ d.traits ∧ d.Resolves e) :
    ∃ u, decls.foldlM (addBase d.named) t = .ok u ∧
      (Plan.each (.base d.named) decls).perform t = .ok u ∧ u.roots = t.roots ∧
      ∀ id, u.profile? id = (t.profile? id).map
        (TraitProfile.rebase (decls.reverse.findSome? (·.baseFor d.named id))) := by
  have known : ∀ e ∈ decls, ∀ base, e.base = some base → d.named.lookup base ≠ none :=
    fun e he base extended => d.lookup_named_ne_none.2 ((resolved e he).2 base extended)
  obtain ⟨u, bases, roots, profiles⟩ := exists_addBases (fun _ _ => made.profile?_ne_none)
    (fun e he => d.lookup_named_ne_none.2 ⟨e, (resolved e he).1, rfl⟩) known
  exact ⟨u, bases, (Plan.perform_bases known t).trans bases, roots, profiles⟩

theorem exists_placed (resolved : ∀ e ∈ d.traits, d.Resolves e) :
    ∃ s ids, d.toSchema = .ok s ∧ d.Placed ids s := by
  obtain ⟨s, t, length, made, -, passed⟩ := d.exists_toSchema_eq
  obtain ⟨u, bases, -, sameRoots, profiles⟩ :=
    exists_bases made d.traits fun e he => ⟨he, resolved e he⟩
  obtain ⟨v, structIds, structs, structRoots, -, structProfiles⟩ :=
    exists_foldlM_topped exists_addTopStruct d.structs u
  obtain ⟨w, enumIds, enums, enumRoots, -, enumProfiles⟩ :=
    exists_foldlM_topped exists_addTopEnum d.enums v
  refine ⟨w, d.traitIds, ?_, ?_, ?_, made.nodup⟩
  · rw [passed, bases, ok_bind, structs, ok_bind, enums]
  · refine ⟨s.roots, structIds ++ enumIds, ?_, length⟩
    rw [enumRoots, structRoots, sameRoots, made.roots]
    simp
  · refine made.profiles.imp fun e id profile => ?_
    rw [enumProfiles, structProfiles, profiles, profile]
    simp [TraitProfile.rebase, TraitDecl.profile, named]

/-- None of the edits that loading asks for is refused, and when all bases are there, those edits
are all that loading does. -/
theorem exists_foldlM_calls (d : Document) : ∃ s, d.calls.foldlM Schema.apply .empty = .ok s ∧
    ((∀ e ∈ d.traits, d.Resolves e) → d.toSchema = .ok s) := by
  obtain ⟨s, t, -, made, opened, passed⟩ := d.exists_toSchema_eq
  obtain ⟨u, given, bases, -⟩ := exists_bases made (d.traits.takeWhile fun e => d.Resolves e)
    fun e he => ⟨(List.takeWhile_sublist _).subset he, by simpa using List.mem_takeWhile_imp he⟩
  have reached : (d.opening ++ d.bases).perform .empty = .ok u :=
    (Plan.perform_append_of_ok opened).trans bases
  have closed : d.calls.foldlM Schema.apply .empty = d.closing.perform u :=
    Plan.perform_append_of_ok reached
  by_cases resolved : ∀ e ∈ d.traits, d.Resolves e
  · obtain ⟨v, -, structs, -⟩ := exists_foldlM_topped exists_addTopStruct d.structs u
    obtain ⟨w, -, enums, -⟩ := exists_foldlM_topped exists_addTopEnum d.enums v
    refine ⟨w, ?_, fun _ => ?_⟩
    · rw [closed, closing, if_pos resolved, Plan.perform_append_of_ok (by simpa using structs)]
      simpa using enums
    · rw [List.takeWhile_eq_self_iff.2 (by simpa using resolved)] at given
      rw [passed, given, ok_bind, structs, ok_bind, enums]
  · refine ⟨u, ?_, fun all => absurd all resolved⟩
    rw [closed, closing, if_neg resolved, Plan.perform_nil]

/-- Loading stops at the first entry whose base is not there. -/
theorem toSchema_eq_error {before after : List TraitDecl} {base : String}
    (split : d.traits = before ++ e :: after) (resolved : ∀ f ∈ before, d.Resolves f)
    (extended : e.base = some base) (unknown : ∀ f ∈ d.traits, f.name ≠ base) :
    d.toSchema = .error (.integrity e.name "extends" (.unknownBase base)) := by
  obtain ⟨s, t, -, made, -, passed⟩ := d.exists_toSchema_eq
  obtain ⟨u, bases, -⟩ := exists_bases made before fun f hf => ⟨by simp [split, hf], resolved f hf⟩
  have bears : d.named.lookup e.name ≠ none := d.lookup_named_ne_none.2 ⟨e, by simp [split], rfl⟩
  have missing : d.named.lookup base = none := by
    by_contra present
    obtain ⟨f, hf, named⟩ := d.lookup_named_ne_none.1 present
    exact unknown f hf named
  have failed : d.traits.foldlM (addBase d.named) t =
      .error (.integrity e.name "extends" (.unknownBase base)) := by
    rw [split, List.foldlM_append, bases, ok_bind, List.foldlM_cons,
      addBase_eq_error bears extended missing, error_bind]
  rw [passed, failed, error_bind]

theorem resolves_of_toSchema (loaded : d.toSchema = .ok s) : ∀ e ∈ d.traits, d.Resolves e := by
  rcases forall_or_exists_first d.Resolves d.traits with
    resolved | ⟨before, e, after, split, earlier, unresolved⟩
  · exact resolved
  · obtain ⟨base, extended, unknown⟩ := not_resolves.1 unresolved
    simp [toSchema_eq_error split earlier extended unknown] at loaded

theorem toSchema_eq_error_iff : d.toSchema = .error error ↔ ∃ before e after base,
    d.traits = before ++ e :: after ∧ (∀ f ∈ before, d.Resolves f) ∧ e.base = some base ∧
      (∀ f ∈ d.traits, f.name ≠ base) ∧
      error = .integrity e.name "extends" (.unknownBase base) := by
  constructor
  · intro failed
    rcases forall_or_exists_first d.Resolves d.traits with
      resolved | ⟨before, e, after, split, earlier, unresolved⟩
    · obtain ⟨s, -, loaded, -⟩ := exists_placed resolved
      simp [loaded] at failed
    · obtain ⟨base, extended, unknown⟩ := not_resolves.1 unresolved
      cases (toSchema_eq_error split earlier extended unknown).symm.trans failed
      exact ⟨before, e, after, base, split, earlier, extended, unknown, rfl⟩
  · rintro ⟨before, e, after, base, split, earlier, extended, unknown, rfl⟩
    exact toSchema_eq_error split earlier extended unknown

/-- A document is loaded exactly when each base that a trait names is there, and what is reported
otherwise is the first one that is not. None of the edits that loading asks for is refused, whether
it ends with a schema or with an error. -/
theorem toSchema_outcome (d : Document) :
    ((∃ s, d.toSchema = .ok s) ↔ ∀ e ∈ d.traits, d.Resolves e) ∧
    (∀ error, d.toSchema = .error error ↔ ∃ before e after base,
      d.traits = before ++ e :: after ∧ (∀ f ∈ before, d.Resolves f) ∧ e.base = some base ∧
      (∀ f ∈ d.traits, f.name ≠ base) ∧
      error = .integrity e.name "extends" (.unknownBase base)) ∧
    (∃ s, d.calls.foldlM Schema.apply .empty = .ok s ∧
      ((∀ e ∈ d.traits, d.Resolves e) → d.toSchema = .ok s)) := by
  refine ⟨⟨?_, ?_⟩, fun error => toSchema_eq_error_iff, d.exists_foldlM_calls⟩
  · rintro ⟨s, loaded⟩
    exact resolves_of_toSchema loaded
  · intro resolved
    obtain ⟨s, -, loaded, -⟩ := exists_placed resolved
    exact ⟨s, loaded⟩

end Document

end PropertyTables
