import PropertyTables.Proofs.LoadingOutcome

/-!
# The bases that traits get

A trait entry names its base, and bases are given in a second pass over the entries, which finds
both traits by their names. Of several traits with one name only the last is found. So a base does
not always go to the trait of the entry that asks for it: it goes to the last trait of that name,
and where several entries of a name ask for a base, the last base stays.

## Main definitions

* `Bears`: the last entry of a name.
* `LastBase`: the last base that entries of a name ask for.
* `Document.traitNode?`: the node of the trait of an entry.
* `Document.ExtendsAsDeclared`: the trait of an entry has the base that the entry asks for.
-/

namespace PropertyTables

/-- Searching a list from its end finds the last element with a value. -/
theorem findSome?_reverse_eq_some {α β : Type} {f : α → Option β} {xs : List α} {b : β} :
    xs.reverse.findSome? f = some b ↔
      ∃ (i : Nat) (x : α), xs[i]? = some x ∧ f x = some b ∧
        ∀ (j : Nat) (y : α), i < j → xs[j]? = some y → f y = none := by
  induction xs with
  | nil => simp
  | cons x xs ih =>
    rw [List.reverse_cons, List.findSome?_append, List.findSome?_singleton, Option.or_eq_some_iff]
    constructor
    · rintro (found | ⟨absent, own⟩)
      · obtain ⟨i, y, hy, value, later⟩ := ih.1 found
        refine ⟨i + 1, y, by simpa using hy, value, ?_⟩
        rintro (_ | j) z hij hz
        · omega
        · exact later j z (by omega) (by simpa using hz)
      · refine ⟨0, x, rfl, own, ?_⟩
        rintro (_ | j) z hij hz
        · omega
        · have member : z ∈ xs := List.mem_of_getElem? (by simpa using hz)
          exact List.findSome?_eq_none_iff.1 absent z (List.mem_reverse.2 member)
    · rintro ⟨_ | i, y, hy, value, later⟩
      · refine .inr ⟨List.findSome?_eq_none_iff.2 fun z hz => ?_, ?_⟩
        · obtain ⟨j, hj⟩ := List.mem_iff_getElem?.1 (List.mem_reverse.1 hz)
          exact later (j + 1) z (by omega) (by simpa using hj)
        · cases hy
          exact value
      · refine .inl (ih.2 ⟨i, y, by simpa using hy, value, fun j z hij hz => ?_⟩)
        exact later (j + 1) z (by omega) (by simpa using hz)

variable {decls : List TraitDecl} {ids : List NodeId} {i j : Nat} {e f : TraitDecl}
  {id target : NodeId} {name text : String}

/-- The entry at a position has a name that no later one has. -/
structure Bears (decls : List TraitDecl) (i : Nat) (name : String) : Prop where
  entry : ∃ e, decls[i]? = some e ∧ e.name = name
  later (j : Nat) (f : TraitDecl) : i < j → decls[j]? = some f → f.name ≠ name

/-- Of the entries of a name that have a base, the last one has this base. -/
def LastBase (decls : List TraitDecl) (name text : String) : Prop :=
  ∃ (i : Nat) (e : TraitDecl), decls[i]? = some e ∧ e.name = name ∧ e.base = some text ∧
    ∀ (j : Nat) (f : TraitDecl), i < j → decls[j]? = some f → f.name = name → f.base = none

theorem Bears.lt_length (bears : Bears decls i name) : i < decls.length := by
  obtain ⟨e, entry, -⟩ := bears.entry
  exact (List.getElem?_eq_some_iff.1 entry).1

theorem Bears.name_eq (bears : Bears decls i name) (entry : decls[i]? = some e) :
    e.name = name := by
  obtain ⟨f, found, named⟩ := bears.entry
  rw [← named, Option.some.inj (entry.symm.trans found)]

theorem exists_bears (known : ∃ f ∈ decls, f.name = name) : ∃ i, Bears decls i name := by
  have found :
      decls.reverse.findSome? (fun f => if f.name = name then some f else none) ≠ none := by
    simpa [List.findSome?_eq_none_iff] using known
  obtain ⟨e, found⟩ := Option.ne_none_iff_exists'.1 found
  obtain ⟨i, e, he, own, later⟩ := findSome?_reverse_eq_some.1 found
  obtain ⟨named, -⟩ : e.name = name ∧ _ := by simpa using own
  exact ⟨i, ⟨e, he, named⟩, fun j f hij hf => by simpa using later j f hij hf⟩

namespace Schema

/-- The node found by a name is that of the last entry of the name. -/
theorem lookup_bearers (length : decls.length = ids.length) :
    (bearers decls ids).lookup name = some id ↔ ∃ i, Bears decls i name ∧ ids[i]? = some id := by
  rw [List.lookup_eq_findSome?, bearers, findSome?_reverse_eq_some]
  constructor
  · rintro ⟨i, ⟨own, node⟩, entry, found, later⟩
    obtain ⟨entry, hnode⟩ := List.getElem?_zip_eq_some.1 entry
    obtain ⟨e, he, rfl⟩ : ∃ e, decls[i]? = some e ∧ e.name = own := by simpa using entry
    obtain ⟨rfl, rfl⟩ : name = e.name ∧ node = id := by simpa using found
    refine ⟨i, ⟨⟨e, he, rfl⟩, fun j f hij hf same => ?_⟩, hnode⟩
    have bound : j < ids.length := length ▸ (List.getElem?_eq_some_iff.1 hf).1
    have paired : ((decls.map TraitDecl.name).zip ids)[j]? = some (f.name, ids[j]) :=
      List.getElem?_zip_eq_some.2 ⟨by simp [hf], by simp⟩
    simpa [same] using later j _ hij paired
  · rintro ⟨i, ⟨⟨e, he, rfl⟩, later⟩, hnode⟩
    refine ⟨i, (e.name, id), List.getElem?_zip_eq_some.2 ⟨by simp [he], hnode⟩, by simp, ?_⟩
    rintro j ⟨other, node⟩ hij paired
    obtain ⟨entry, -⟩ := List.getElem?_zip_eq_some.1 paired
    obtain ⟨f, hf, rfl⟩ : ∃ f, decls[j]? = some f ∧ f.name = other := by simpa using entry
    simpa using (later j f hij hf).symm

theorem lookup_bearers_eq_iff (length : decls.length = ids.length) (nodup : ids.Nodup)
    (node : ids[i]? = some id) :
    (bearers decls ids).lookup name = some id ↔ Bears decls i name := by
  rw [lookup_bearers length]
  constructor
  · rintro ⟨j, bears, same⟩
    have bound : i < ids.length := (List.getElem?_eq_some_iff.1 node).1
    rwa [(List.getElem?_inj bound nodup).1 (node.trans same.symm)]
  · intro bears
    exact ⟨i, bears, node⟩

theorem baseFor_eq_some {named : List (String × NodeId)} :
    e.baseFor named id = some target ↔ named.lookup e.name = some id ∧
      ∃ text, e.base = some text ∧ named.lookup text = some target := by
  rw [TraitDecl.baseFor]
  split
  · simp_all [Option.bind_eq_some_iff]
  · simp_all

/-- The base that the second pass leaves at the trait of an entry. -/
theorem findSome?_baseFor (length : decls.length = ids.length) (nodup : ids.Nodup)
    (resolved : ∀ f ∈ decls, ∀ base, f.base = some base → ∃ g ∈ decls, g.name = base)
    (entry : decls[i]? = some e) (node : ids[i]? = some id) :
    decls.reverse.findSome? (·.baseFor (bearers decls ids) id) = some target ↔
      Bears decls i e.name ∧ ∃ text j, LastBase decls e.name text ∧ Bears decls j text ∧
        ids[j]? = some target := by
  have borne {name : String} : (bearers decls ids).lookup name = some id ↔ Bears decls i name :=
    lookup_bearers_eq_iff length nodup node
  rw [findSome?_reverse_eq_some]
  constructor
  · rintro ⟨k, f, hf, given, later⟩
    obtain ⟨own, text, extended, found⟩ := baseFor_eq_some.1 given
    have bears := borne.1 own
    rw [bears.name_eq entry]
    obtain ⟨j, bearsText, htarget⟩ := (lookup_bearers length).1 found
    refine ⟨bears, text, j, ⟨k, f, hf, rfl, extended, ?_⟩, bearsText, htarget⟩
    intro m g hkm hg same
    -- a later base would have been given to the same trait
    have nothing := later m g hkm hg
    by_contra based
    obtain ⟨base, hbase⟩ := Option.ne_none_iff_exists'.1 based
    have known := (lookup_bearers_ne_none length).2
      (resolved g (List.mem_of_getElem? hg) base hbase)
    obtain ⟨other, hother⟩ := Option.ne_none_iff_exists'.1 known
    have given := baseFor_eq_some.2 ⟨same ▸ own, base, hbase, hother⟩
    simp [nothing] at given
  · rintro ⟨bears, text, j, ⟨k, f, hf, named, extended, later⟩, bearsText, htarget⟩
    have found := (lookup_bearers length).2 ⟨j, bearsText, htarget⟩
    refine ⟨k, f, hf, baseFor_eq_some.2 ⟨borne.2 (named ▸ bears), text, extended, found⟩, ?_⟩
    intro m g hkm hg
    by_contra given
    obtain ⟨other, given⟩ := Option.ne_none_iff_exists'.1 given
    obtain ⟨own, base, hbase, -⟩ := baseFor_eq_some.1 given
    -- whatever is given to this trait is asked for under its name
    have same : e.name = g.name := (borne.1 own).name_eq entry
    simp [later m g hkm hg same.symm] at hbase

end Schema

/-! ## Documents -/

namespace Document

variable {d : Document} {s : Schema}

/-- The node of the trait that is made for an entry: traits come behind the typespaces. -/
def traitNode? (d : Document) (s : Schema) (i : Nat) : Option NodeId :=
  s.roots[d.typespaces.length + i]?

/-- The trait of an entry has a base if the entry names one, and this is the trait of an entry with
the name that it gives. -/
def ExtendsAsDeclared (d : Document) (s : Schema) (i : Nat) (e : TraitDecl) : Prop :=
  ∃ id base, d.traitNode? s i = some id ∧ s.profile? id = some (e.profile base) ∧
    (base.isSome ↔ e.base.isSome) ∧
    ∀ target, base = some target → ∃ (j : Nat) (f : TraitDecl),
      d.traits[j]? = some f ∧ e.base = some f.name ∧ d.traitNode? s j = some target

theorem Placed.traitNode? (placed : d.Placed ids s) (inside : i < d.traits.length) :
    d.traitNode? s i = ids[i]? := by
  obtain ⟨before, after, roots, length⟩ := placed.roots
  have bound : i < ids.length := placed.profiles.length_eq ▸ inside
  rw [Document.traitNode?, roots, ← length, List.append_assoc,
    List.getElem?_append_right (by omega), Nat.add_sub_cancel_left, List.getElem?_append_left bound]

theorem Placed.exists_profile? (placed : d.Placed ids s) (entry : d.traits[i]? = some e) :
    ∃ id, ids[i]? = some id ∧ s.profile? id = some (e.profile
      (d.traits.reverse.findSome? (·.baseFor (Schema.bearers d.traits ids) id))) := by
  obtain ⟨inside, rfl⟩ := List.getElem?_eq_some_iff.1 entry
  have bound : i < ids.length := placed.profiles.length_eq ▸ inside
  exact ⟨ids[i], List.getElem?_eq_getElem bound, placed.profiles.get inside bound⟩

/-- The base of the trait of an entry, in terms of the entries. -/
theorem exists_base (loaded : d.toSchema = .ok s) (entry : d.traits[i]? = some e) :
    ∃ id base, d.traitNode? s i = some id ∧ s.profile? id = some (e.profile base) ∧
      ∀ target, base = some target ↔ Bears d.traits i e.name ∧ ∃ text j,
        LastBase d.traits e.name text ∧ Bears d.traits j text ∧
          d.traitNode? s j = some target := by
  have resolved := resolves_of_toSchema loaded
  obtain ⟨s', ids, loaded', placed⟩ := exists_placed resolved
  cases loaded.symm.trans loaded'
  obtain ⟨id, node, profile⟩ := placed.exists_profile? entry
  have inside : i < d.traits.length := (List.getElem?_eq_some_iff.1 entry).1
  refine ⟨id, _, (placed.traitNode? inside).trans node, profile, fun target => ?_⟩
  rw [Schema.findSome?_baseFor placed.profiles.length_eq placed.nodup resolved entry node]
  have nodes {j : Nat} {text : String} (bears : Bears d.traits j text) :
      d.traitNode? s j = ids[j]? := placed.traitNode? bears.lt_length
  constructor
  · rintro ⟨bears, text, j, last, bearsText, htarget⟩
    exact ⟨bears, text, j, last, bearsText, (nodes bearsText).trans htarget⟩
  · rintro ⟨bears, text, j, last, bearsText, htarget⟩
    exact ⟨bears, text, j, last, bearsText, (nodes bearsText).symm.trans htarget⟩

/-- The last entry of a name gets the base that it asks for. -/
theorem extendsAsDeclared_of_bears (loaded : d.toSchema = .ok s) (entry : d.traits[i]? = some e)
    (bears : Bears d.traits i e.name) (extended : e.base = some text) :
    d.ExtendsAsDeclared s i e := by
  obtain ⟨id, base, node, profile, given⟩ := exists_base loaded entry
  obtain ⟨j, bearsText⟩ :=
    exists_bears (resolves_of_toSchema loaded e (List.mem_of_getElem? entry) text extended)
  obtain ⟨f, hf, named⟩ := bearsText.entry
  obtain ⟨target, -, hnode, -, -⟩ := exists_base loaded hf
  have last : LastBase d.traits e.name text :=
    ⟨i, e, entry, rfl, extended, fun j f hij hf same => absurd same (bears.later j f hij hf)⟩
  obtain rfl : base = some target := (given target).2 ⟨bears, text, j, last, bearsText, hnode⟩
  refine ⟨id, some target, node, profile, by simp [extended], fun other same => ?_⟩
  cases same
  exact ⟨j, f, hf, by rw [extended, named], hnode⟩

/-- A trait gets no base where no entry of its name asks for one. -/
theorem extendsAsDeclared_of_none (loaded : d.toSchema = .ok s) (entry : d.traits[i]? = some e)
    (plain : Bears d.traits i e.name → ∀ f ∈ d.traits, f.name = e.name → f.base = none)
    (own : e.base = none) : d.ExtendsAsDeclared s i e := by
  obtain ⟨id, base, node, profile, given⟩ := exists_base loaded entry
  have nothing : base = none := by
    by_contra some
    obtain ⟨target, some⟩ := Option.ne_none_iff_exists'.1 some
    obtain ⟨bears, text, -, ⟨k, f, hf, named, extended, -⟩, -⟩ := (given target).1 some
    simp [plain bears f (List.mem_of_getElem? hf) named] at extended
  refine ⟨id, base, node, profile, by simp [nothing, own], fun target some => ?_⟩
  simp [nothing] at some

theorem bears_of_extendsAsDeclared (loaded : d.toSchema = .ok s) (entry : d.traits[i]? = some e)
    (asDeclared : d.ExtendsAsDeclared s i e) (extended : e.base.isSome) :
    Bears d.traits i e.name := by
  obtain ⟨id, base, node, profile, both, -⟩ := asDeclared
  obtain ⟨target, rfl⟩ := Option.isSome_iff_exists.1 (both.2 extended)
  obtain ⟨id', base', node', profile', given⟩ := exists_base loaded entry
  cases node.symm.trans node'
  have same : base' = some target := by
    simpa [TraitDecl.profile, eq_comm] using profile.symm.trans profile'
  exact ((given target).1 same).1

/-- The trait of an entry gets a base when it is the last of its name, and this is the last base
that entries of its name ask for. So every trait has the base that its own entry asks for exactly
when no entry that asks for one comes before another of its name. -/
theorem bases_as_declared_iff (loaded : d.toSchema = .ok s) :
    (∀ (i : Nat) (e : TraitDecl), d.traits[i]? = some e →
      ∃ id base, d.traitNode? s i = some id ∧ s.profile? id = some (e.profile base) ∧
        ∀ target, base = some target ↔ Bears d.traits i e.name ∧ ∃ text j,
          LastBase d.traits e.name text ∧ Bears d.traits j text ∧
            d.traitNode? s j = some target) ∧
    ((∀ (i : Nat) (e : TraitDecl), d.traits[i]? = some e → d.ExtendsAsDeclared s i e) ↔
      d.traits.Pairwise fun e f => e.base.isSome → e.name ≠ f.name) := by
  refine ⟨fun i e => exists_base loaded, fun asDeclared => ?_, fun apart i e entry => ?_⟩
  · rw [List.pairwise_iff_getElem]
    intro i j hi hj hij extended same
    have entry : d.traits[i]? = some d.traits[i] := List.getElem?_eq_getElem hi
    have bears := bears_of_extendsAsDeclared loaded entry (asDeclared i _ entry) extended
    exact bears.later j _ hij (List.getElem?_eq_getElem hj) same.symm
  · have later {i j : Nat} {e f : TraitDecl} (he : d.traits[i]? = some e)
        (hf : d.traits[j]? = some f) (hij : i < j) (extended : e.base.isSome) :
        e.name ≠ f.name := by
      obtain ⟨hi, rfl⟩ := List.getElem?_eq_some_iff.1 he
      obtain ⟨hj, rfl⟩ := List.getElem?_eq_some_iff.1 hf
      exact List.pairwise_iff_getElem.1 apart i j hi hj hij extended
    cases own : e.base with
    | some text =>
      refine extendsAsDeclared_of_bears loaded entry ⟨⟨e, entry, rfl⟩, fun j f hij hf => ?_⟩ own
      exact (later entry hf hij (by simp [own])).symm
    | none =>
      refine extendsAsDeclared_of_none loaded entry (fun bears f hf named => ?_) own
      obtain ⟨k, hf⟩ := List.mem_iff_getElem?.1 hf
      by_contra extended
      -- an entry with a base cannot come before this one, and this one is the last of its name
      rcases Nat.lt_trichotomy k i with before | rfl | after
      · exact later hf entry before (by simpa [Option.isSome_iff_ne_none] using extended) named
      · cases hf.symm.trans entry
        exact extended own
      · exact bears.later k f after hf named

/-- The base of the trait of an entry. -/
def traitBase? (d : Document) (s : Schema) (i : Nat) : Option NodeId :=
  ((d.traitNode? s i).bind s.profile?).bind TraitProfile.base

/-- Traits that extend later ones, and two of one name of which the last has a base. -/
def fixtureDocument : Document where
  typespaces := [{ name := "weave.common" }]
  traits := [
    { name := "weave.trait.example.DimmerTrait", number := 1,
      base := some "weave.trait.example.LampTrait" },
    { name := "weave.trait.example.TagTrait", number := 2 },
    { name := "weave.trait.example.LampTrait", number := 3,
      base := some "weave.trait.example.DeviceTrait" },
    { name := "weave.trait.example.TagTrait", number := 4,
      base := some "weave.trait.example.DeviceTrait" },
    { name := "weave.trait.example.DeviceTrait", number := 5 }]

theorem fixtureDocument_bases :
    ∃ s, fixtureDocument.toSchema = .ok s ∧
      (List.range 5).map (fixtureDocument.traitBase? s) =
        [some 3, none, some 5, some 5, none] ∧
      ∀ (i : Nat) (e : TraitDecl), fixtureDocument.traits[i]? = some e →
        fixtureDocument.ExtendsAsDeclared s i e := by
  have made : fixtureDocument.toSchema.toOption.map
      (fun s => (List.range 5).map (fixtureDocument.traitBase? s)) =
      some [some 3, none, some 5, some 5, none] := by
    simp only [toSchema, fixtureDocument, Schema.addTraits, Schema.addTrait, Schema.addTypespace,
      List.foldlM_cons, List.foldlM_nil, Schema.addFields]
    decide +kernel
  obtain ⟨s, loaded, bases⟩ := Option.map_eq_some_iff.1 made
  rw [toOption_eq_some] at loaded
  exact ⟨s, loaded, bases, (bases_as_declared_iff loaded).2.2 (by decide +kernel)⟩

/-- A trait that extends another, in front of a trait of the same name. -/
def lampDocument : Document where
  traits := [
    { name := "weave.trait.example.DeviceTrait", number := 2580 },
    { name := "weave.trait.example.LampTrait", number := 2581,
      base := some "weave.trait.example.DeviceTrait" },
    { name := "weave.trait.example.LampTrait", number := 2582 }]

/-- The base goes to the trait of the last entry, which asks for none. -/
theorem lampDocument_bases :
    ∃ s, lampDocument.toSchema = .ok s ∧
      (List.range 3).map (lampDocument.traitBase? s) = [none, none, some 0] ∧
      ¬ ∀ (i : Nat) (e : TraitDecl), lampDocument.traits[i]? = some e →
        lampDocument.ExtendsAsDeclared s i e := by
  have made : lampDocument.toSchema.toOption.map
      (fun s => (List.range 3).map (lampDocument.traitBase? s)) =
      some [none, none, some 0] := by
    simp only [toSchema, lampDocument, Schema.addTraits, Schema.addTrait, List.foldlM_cons,
      List.foldlM_nil, Schema.addFields]
    decide +kernel
  obtain ⟨s, loaded, bases⟩ := Option.map_eq_some_iff.1 made
  refine ⟨s, toOption_eq_some.1 loaded, bases, fun asDeclared => ?_⟩
  obtain ⟨id, base, node, profile, both, -⟩ := asDeclared 1 _ rfl
  have nothing : base = none := by
    have second : some (lampDocument.traitBase? s 1) = some none := congrArg (·[1]?) bases
    simpa [traitBase?, node, profile, TraitDecl.profile] using second
  simp [nothing] at both

end Document

end PropertyTables
