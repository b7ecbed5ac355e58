import PropertyTables.Proofs.Footprint

/-!
# What a schema still has room for

Whether an edit is accepted depends on the kind of the node that it is about, and little of that
changes: a list of children never gets full, and a setting can be set again. Only the response of a
command and the value of a map can be given once. So edits below new nodes take nothing away from
those that a schema accepted before them. Nor do they change what a trait says of itself apart from
its members.

## Main definitions

* `Schema.Accepts`: the edits that a schema has room for.
* `Schema.Offers`: a node takes what a new node of some kind takes.
* `TraitProfile`: what a trait says of itself apart from its members.
* `Schema.Filled`: what is left alone by adding below nodes.
-/

namespace PropertyTables

/-! ## Room in a node -/

/-- Whether a node can have only one such member. -/
def Member.isSingle : Member → Bool
  | response _ | mapValue _ => true
  | _ => false

namespace Kind

/-- The kind without what has no influence on the edits that a node takes: only the one response or
value that a command or a field may have is left. -/
def bare : Kind → Kind
  | typespace _ => typespace ⟨"", 1, [], [], []⟩
  | trait _ => trait ⟨"", 1, 0, none, [], [], [], [], [], []⟩
  | struct _ => struct {}
  | enum _ => enum {}
  | command c => command ⟨[], c.response⟩
  | field f => field { value := f.value }
  | group _ => group {}
  | constant _ => constant ⟨""⟩

/-- Whether a node of some kind takes an edit that is about it. -/
def takes (kind : Kind) : Edit → Bool
  | .declare .. => true
  | .attach _ _ member => (kind.adopt 0 member).isSome
  | .set _ setting => (kind.configure setting).isSome

variable {kind kind' : Kind} {id : NodeId} {member : Member} {setting : Setting} {edit : Edit}

theorem isSome_adopt (kind : Kind) (id : NodeId) (member : Member) :
    (kind.adopt id member).isSome = (kind.bare.adopt 0 member).isSome := by
  cases kind with
  | command c => obtain ⟨parameters, _ | response⟩ := c <;> cases member <;> rfl
  | field f => obtain ⟨shape, members, _ | value⟩ := f <;> cases member <;> rfl
  | _ => cases member <;> rfl

theorem isSome_configure (kind : Kind) (setting : Setting) :
    (kind.configure setting).isSome = (kind.bare.configure setting).isSome := by
  cases kind <;> cases setting <;> rfl

theorem takes_eq_of_bare_eq (same : kind'.bare = kind.bare) :
    kind'.takes edit = kind.takes edit := by
  cases edit with
  | declare => rfl
  | attach _ _ member => rw [takes, takes, isSome_adopt, isSome_adopt kind, same]
  | set _ setting => rw [takes, takes, isSome_configure, isSome_configure kind, same]

/-- A list of children has room for more. -/
theorem bare_of_adopt (h : kind.adopt id member = some kind') (many : member.isSingle = false) :
    kind'.bare = kind.bare := by
  unfold adopt at h
  split at h
  case h_7 | h_12 => simp [Member.isSingle] at many
  all_goals cases h
  all_goals rfl

theorem bare_of_configure (h : kind.configure setting = some kind') : kind'.bare = kind.bare := by
  unfold configure at h
  split at h <;> cases h <;> rfl

end Kind

/-! ## What a trait says of itself -/

/-- What a trait says of itself apart from its members. -/
structure TraitProfile where
  name : String
  number : UInt32
  qualifier : String
  version : UInt32
  vendor : UInt16
  base : Option NodeId
deriving DecidableEq, Repr

/-- A setting changes one thing that a trait says of itself, or nothing. -/
def Setting.revise : Setting → TraitProfile → TraitProfile
  | version v, p => { p with version := v }
  | vendor v, p => { p with vendor := v }
  | base id, p => { p with base := some id }
  | standard _, p | bitmask _, p => p

namespace Node

def profile? (node : Node) : Option TraitProfile :=
  node.kind.trait?.map fun t =>
    ⟨node.name, node.number, t.qualifier, t.version, t.vendor, t.base⟩

variable {node : Node} {kind : Kind}

theorem profile?_of_adopt {id : NodeId} {member : Member}
    (h : node.kind.adopt id member = some kind) :
    profile? { node with kind } = node.profile? := by
  obtain ⟨name, number, parent, old⟩ := node
  unfold Kind.adopt at h
  split at h
  case h_12 =>
    split at h
    · cases h
      simp_all [profile?, Kind.trait?]
    · cases h
  all_goals cases h
  all_goals simp_all [profile?, Kind.trait?]

theorem profile?_of_configure {setting : Setting} (h : node.kind.configure setting = some kind) :
    profile? { node with kind } = node.profile?.map setting.revise := by
  obtain ⟨name, number, parent, old⟩ := node
  unfold Kind.configure at h
  split at h <;> cases h <;> simp_all [profile?, Kind.trait?, Setting.revise]

end Node

theorem Member.trait?_kind (member : Member) : member.kind.trait? = none := by
  cases member <;> rfl

namespace Schema

variable {s t u : Schema} {id parent i : NodeId} {name qualifier : String} {member : Member}
  {setting : Setting} {edit : Edit} {kind : Kind} {profile : Option TraitProfile}

def profile? (s : Schema) (id : NodeId) : Option TraitProfile := (s.node? id).bind Node.profile?

theorem profile?_size (s : Schema) : s.profile? s.size = none := by
  simp [profile?, node?, size]

theorem profile?_of_attach (h : s.attach parent name member = .ok t) (id : NodeId) :
    t.profile? id = s.profile? id := by
  obtain ⟨node, kind, found, adopted, -, -, nodes⟩ := attach_eq_ok h
  rw [profile?, nodes]
  split
  · rename_i new
    rw [new, profile?_size]
    simp [Node.profile?, Member.trait?_kind]
  · split
    · rename_i above
      rw [above, profile?, found]
      exact Node.profile?_of_adopt adopted
    · rfl

theorem profile?_of_set (h : s.set id setting = .ok t) (i : NodeId) :
    t.profile? i = if i = id then (s.profile? id).map setting.revise else s.profile? i := by
  obtain ⟨node, kind, found, configured, rfl⟩ := set_eq_ok h
  rw [profile?, node?_setKind]
  by_cases same : i = id
  · subst same
    rw [if_pos rfl, if_pos rfl, profile?, found]
    exact Node.profile?_of_configure configured
  · rw [if_neg (Ne.symm same), if_neg same, profile?]

/-! ## Room in a schema -/

/-- The schema has room for an edit. -/
def Accepts (s : Schema) (edit : Edit) : Prop := ∃ t, s.apply edit = .ok t

theorem accepts_iff (target : edit.target? = some id) :
    s.Accepts edit ↔ ∃ kind, s.kind? id = some kind ∧ kind.takes edit := by
  cases edit with
  | declare => cases target
  | attach parent name member =>
    cases target
    constructor
    · rintro ⟨t, accepted⟩
      obtain ⟨node, kind, found, adopted, -⟩ := attach_eq_ok accepted
      refine ⟨node.kind, by simp [kind?, found], ?_⟩
      rw [Kind.takes, Kind.isSome_adopt, ← Kind.isSome_adopt _ s.size, adopted]
      rfl
    · rintro ⟨kind, found, takes⟩
      obtain ⟨node, present, rfl⟩ := Option.map_eq_some_iff.1 found
      rw [Kind.takes, Kind.isSome_adopt, ← Kind.isSome_adopt _ s.size] at takes
      obtain ⟨kind, adopted⟩ := Option.isSome_iff_exists.1 takes
      exact attach_of_adopt name present adopted
  | set id setting =>
    cases target
    constructor
    · rintro ⟨t, accepted⟩
      obtain ⟨node, kind, found, configured, -⟩ := set_eq_ok accepted
      exact ⟨node.kind, by simp [kind?, found], by simp [Kind.takes, configured]⟩
    · rintro ⟨kind, found, takes⟩
      obtain ⟨node, present, rfl⟩ := Option.map_eq_some_iff.1 found
      obtain ⟨kind, configured⟩ := Option.isSome_iff_exists.1 takes
      exact set_of_configure present configured

theorem accepts_of_target?_eq_none (top : edit.target? = none) : s.Accepts edit := by
  cases edit with
  | declare => exact ⟨_, rfl⟩
  | attach | set => cases top

theorem Accepts.lt_size (accepts : s.Accepts edit) (target : edit.target? = some id) :
    id < s.size := by
  obtain ⟨kind, found, -⟩ := (accepts_iff target).1 accepts
  obtain ⟨node, found, -⟩ := Option.map_eq_some_iff.1 found
  exact node?_lt found

/-- What a schema takes, one whose nodes take the same takes too. -/
theorem Accepts.of_bare (accepts : s.Accepts edit)
    (same : ∀ id, edit.target? = some id → id < s.size →
      (t.kind? id).map Kind.bare = (s.kind? id).map Kind.bare) : t.Accepts edit := by
  cases target : edit.target? with
  | none => exact accepts_of_target?_eq_none target
  | some id =>
    obtain ⟨kind, found, takes⟩ := (accepts_iff target).1 accepts
    have same := same id target (accepts.lt_size target)
    rw [found, Option.map_some] at same
    obtain ⟨kind', found', bare⟩ := Option.map_eq_some_iff.1 same
    exact (accepts_iff target).2 ⟨kind', found', by rwa [Kind.takes_eq_of_bare_eq bare]⟩

/-- A new member takes room from no other node, and from its parent only if that can have one such
member. -/
theorem Accepts.attach (accepts : s.Accepts edit) (h : s.attach parent name member = .ok t)
    (spare : member.isSingle = false ∨ edit.target? ≠ some parent) : t.Accepts edit := by
  obtain ⟨node, kind, found, adopted, -, -, nodes⟩ := attach_eq_ok h
  refine accepts.of_bare fun id target inside => ?_
  rw [kind?, nodes, if_neg (Nat.ne_of_lt inside)]
  split
  · rename_i above
    subst above
    have many := spare.resolve_right (not_not_intro target)
    simp [kind?, found, Kind.bare_of_adopt adopted many]
  · rfl

theorem Accepts.set (accepts : s.Accepts edit) (h : s.set id setting = .ok t) : t.Accepts edit := by
  obtain ⟨node, kind, found, configured, rfl⟩ := set_eq_ok h
  refine accepts.of_bare fun i _ _ => ?_
  rw [kind?, node?_setKind]
  split
  · rename_i same
    subst same
    simp [kind?, found, Kind.bare_of_configure configured]
  · rfl

/-- A node takes every edit that a new node of some kind takes. -/
def Offers (s : Schema) (id : NodeId) (kind : Kind) : Prop :=
  ∀ edit, edit.target? = some id → kind.takes edit → s.Accepts edit

theorem offers_of_kind? (found : s.kind? id = some kind) : s.Offers id kind :=
  fun _ target takes => (accepts_iff target).2 ⟨kind, found, takes⟩

theorem offers_of_attach (h : s.attach parent name member = .ok t) :
    t.Offers s.size member.kind := by
  obtain ⟨node, kind, -, -, -, -, nodes⟩ := attach_eq_ok h
  exact offers_of_kind? (by simp [kind?, nodes])

theorem offers_declare (s : Schema) (qualifier name : String) (top : TopLevel) :
    (s.declare qualifier name top).Offers s.size (top.kind qualifier) :=
  offers_of_kind? (by simp [kind?, declare, node?_push])

theorem Offers.set (offers : s.Offers i kind) (h : s.set id setting = .ok t) : t.Offers i kind :=
  fun edit target takes => (offers edit target takes).set h

theorem Offers.exists_attach (offers : s.Offers parent kind) (name : String) (member : Member)
    (takes : (kind.adopt 0 member).isSome) : ∃ t, s.attach parent name member = .ok t :=
  offers (.attach parent name member) rfl takes

theorem Offers.exists_set (offers : s.Offers id kind) (setting : Setting)
    (takes : (kind.configure setting).isSome) : ∃ t, s.set id setting = .ok t :=
  offers (.set id setting) rfl takes

/-! ## Adding below nodes -/

/-- `t` is `s` with more below its nodes: it takes all that `s` takes, and has the same roots and
the same traits up to the members they list. -/
structure Filled (s t : Schema) : Prop where
  accepts {edit : Edit} : s.Accepts edit → t.Accepts edit
  roots : t.roots = s.roots
  profile? (id : NodeId) : t.profile? id = s.profile? id

namespace Filled

theorem refl (s : Schema) : s.Filled s := ⟨id, rfl, fun _ => rfl⟩

theorem trans (first : s.Filled t) (second : t.Filled u) : s.Filled u where
  accepts := second.accepts ∘ first.accepts
  roots := second.roots.trans first.roots
  profile? id := (second.profile? id).trans (first.profile? id)

/-- What is added below a node that was not there takes nothing from those that were. -/
theorem attach (filled : s.Filled t) (h : t.attach parent name member = .ok u)
    (spare : member.isSingle = false ∨ s.size ≤ parent) : s.Filled u where
  accepts {edit} accepts := by
    refine (filled.accepts accepts).attach h (spare.imp_right fun new target => ?_)
    exact Nat.not_lt_of_le new (accepts.lt_size target)
  roots := by
    obtain ⟨-, -, -, -, -, roots, -⟩ := attach_eq_ok h
    exact roots.trans filled.roots
  profile? id := (profile?_of_attach h id).trans (filled.profile? id)

/-- A setting that is not about traits. -/
theorem set (filled : s.Filled t) (h : t.set id setting = .ok u)
    (neutral : ∀ p, setting.revise p = p) : s.Filled u where
  accepts accepts := (filled.accepts accepts).set h
  roots := (configured_of_set h).roots.trans filled.roots
  profile? i := by
    rw [profile?_of_set h, ← filled.profile?, funext neutral]
    split <;> simp_all

theorem offers (filled : s.Filled t) (offers : s.Offers id kind) : t.Offers id kind :=
  fun edit target takes => filled.accepts (offers edit target takes)

/-- A list is gone through with the room that each step needs. -/
theorem foldlM {α : Type} {add : Schema → α → Except Error Schema} {xs : List α}
    (step : ∀ s x, s.Offers id kind → ∃ t, add s x = .ok t ∧ s.Filled t) (room : s.Offers id kind) :
    ∃ t, xs.foldlM add s = .ok t ∧ s.Filled t := by
  induction xs generalizing s with
  | nil => exact ⟨s, rfl, refl s⟩
  | cons x xs ih =>
    obtain ⟨next, added, first⟩ := step s x room
    obtain ⟨t, rest, second⟩ := ih (first.offers room)
    exact ⟨t, by rw [List.foldlM_cons, added, ok_bind, rest], first.trans second⟩

end Filled

/-! ## Adding at the top -/

/-- `t` is `s` with one more root and what is below it. The root is a trait that says `profile` of
itself, or none. -/
structure Topped (s : Schema) (profile : Option TraitProfile) (t : Schema) : Prop where
  roots : t.roots = s.roots ++ [s.size]
  profile? (id : NodeId) : t.profile? id = if id = s.size then profile else s.profile? id

namespace Topped

theorem declare (s : Schema) (qualifier name : String) (top : TopLevel) :
    s.Topped (Node.profile? ⟨name, top.number, none, top.kind qualifier⟩)
      (s.declare qualifier name top) where
  roots := (declared_declare s qualifier name top).roots
  profile? id := by
    rw [Schema.profile?, Schema.declare, node?_push]
    split <;> rfl

theorem set (topped : s.Topped profile t) (h : t.set s.size setting = .ok u) :
    s.Topped (profile.map setting.revise) u where
  roots := (configured_of_set h).roots.trans topped.roots
  profile? id := by
    rw [profile?_of_set h, topped.profile?, topped.profile?]
    split <;> simp_all

theorem filled (topped : s.Topped profile t) (filled : t.Filled u) : s.Topped profile u where
  roots := filled.roots.trans topped.roots
  profile? id := (filled.profile? id).trans (topped.profile? id)

end Topped

end Schema

end PropertyTables
