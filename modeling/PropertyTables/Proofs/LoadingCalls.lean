import PropertyTables.Document.ToSchema
import PropertyTables.Proofs.Growth

/-!
# The edits that loading asks for

Which edits a document is loaded by can be told without a schema. Only the numbers of the nodes have
to be known, and those follow from how many nodes there are at the start. So each part of loading is
a plan: a list of edits for each such number. Performing the plan does what the part does on every
schema, also where an edit is refused.

## Main definitions

* `Plan`: edits that depend on the number of the next node.
* `Plan.perform`: asks for the edits of a plan one after the other, up to the first that is refused.
* `Document.Resolves`: the base that a trait entry names is there.
* `Document.calls`: the edits that loading a document asks for.
-/

namespace PropertyTables

/-- Whether an edit makes a new node when it is accepted. -/
def Edit.isNew : Edit → Bool
  | .declare .. | .attach .. => true
  | .set .. => false

/-- Edits that depend on the number of the next node. -/
def Plan := NodeId → List Edit

namespace Schema

variable {s t : Schema}

theorem size_of_apply {edit : Edit} (accepted : s.apply edit = .ok t) :
    t.size = s.size + [edit].countP Edit.isNew := by
  cases edit with
  | declare qualifier name top =>
    cases accepted
    simp [declare, Edit.isNew]
  | attach parent name member =>
    obtain ⟨-, -, -, -, size, -⟩ := attach_eq_ok accepted
    exact size
  | set id setting =>
    obtain ⟨-, kind, -, -, rfl⟩ := set_eq_ok accepted
    simp [Edit.isNew]

/-- Accepted edits make as many nodes as there are new ones among them. -/
theorem size_of_foldlM_apply {edits : List Edit} (accepted : edits.foldlM apply s = .ok t) :
    t.size = s.size + edits.countP Edit.isNew := by
  induction edits generalizing s with
  | nil =>
    cases accepted
    rfl
  | cons edit edits ih =>
    rw [List.foldlM_cons] at accepted
    obtain ⟨next, first, rest⟩ := bind_eq_ok.1 accepted
    rw [ih rest, size_of_apply first, Nat.add_assoc, ← List.countP_append, List.singleton_append]

end Schema

namespace Plan

/-! ## Plans -/

def nil : Plan := fun _ => []

def call (edit : Edit) : Plan := fun _ => [edit]

/-- A plan that tells its edits the number of the next node. -/
def here (plan : NodeId → Plan) : Plan := fun id => plan id id

/-- One plan after another. The second starts behind the nodes that the first makes. -/
instance : Append Plan where
  append first second := fun id => first id ++ second (id + (first id).countP Edit.isNew)

/-- A plan for each item, one after the other. -/
def each {α : Type} (plan : α → Plan) : List α → Plan
  | [] => nil
  | x :: xs => plan x ++ each plan xs

/-- Where the plan of each item starts. -/
def starts {α : Type} (plan : α → Plan) : List α → NodeId → List NodeId
  | [], _ => []
  | x :: xs, id => id :: starts plan xs (id + (plan x id).countP Edit.isNew)

/-- Asks for the edits of a plan one after the other, up to the first that is refused. -/
def perform (plan : Plan) (s : Schema) : Except Error Schema := (plan s.size).foldlM Schema.apply s

variable {s t : Schema} {α : Type}

@[simp] theorem perform_nil : nil.perform = .ok := rfl

@[simp] theorem perform_call (edit : Edit) : (call edit).perform = (Schema.apply · edit) := by
  funext s
  simp [perform, call]

@[simp] theorem perform_here (plan : NodeId → Plan) :
    (here plan).perform = fun s => (plan s.size).perform s := rfl

theorem size_of_perform {plan : Plan} (performed : plan.perform s = .ok t) :
    t.size = s.size + (plan s.size).countP Edit.isNew :=
  Schema.size_of_foldlM_apply performed

@[simp] theorem perform_append (first second : Plan) :
    (first ++ second).perform = fun s => first.perform s >>= second.perform := by
  funext s
  have joined : (first ++ second).perform s = first.perform s >>=
      (second (s.size + (first s.size).countP Edit.isNew)).foldlM Schema.apply :=
    List.foldlM_append
  rw [joined]
  cases performed : first.perform s with
  | error error => rfl
  | ok t => rw [ok_bind, ok_bind, perform, size_of_perform performed]

theorem perform_append_of_ok {first second : Plan} (performed : first.perform s = .ok t) :
    (first ++ second).perform s = second.perform t := by
  simp [performed, ok_bind]

@[simp] theorem perform_each (plan : α → Plan) (xs : List α) :
    (each plan xs).perform = fun s => xs.foldlM (fun s x => (plan x).perform s) s := by
  induction xs with
  | nil => rfl
  | cons x xs ih =>
    funext s
    rw [each, perform_append, ih, List.foldlM_cons]

@[simp] theorem length_starts (plan : α → Plan) (xs : List α) (id : NodeId) :
    (starts plan xs id).length = xs.length := by
  induction xs generalizing id with
  | nil => rfl
  | cons x xs ih => rw [starts, List.length_cons, List.length_cons, ih]

/-! ## The parts of loading -/

/-- A field comes before its members, and its value after them. What a value says of a value of its
own is passed over. -/
def fields (parent : NodeId) : List FieldDecl → Plan
  | [] => nil
  | ⟨name, number, shape, members, value⟩ :: rest =>
    here fun id =>
      call (.attach parent name (.field number { toFieldShape := shape })) ++
      fields id members ++
      (match value with
      | none => nil
      | some ⟨valueName, _, valueShape, valueMembers, _⟩ =>
        here fun valueId =>
          call (.attach id valueName (.mapValue { toFieldShape := valueShape })) ++
          fields valueId valueMembers) ++
      fields parent rest

@[simp] theorem perform_fields (parent : NodeId) (decls : List FieldDecl) :
    (fields parent decls).perform = (Schema.addFields · parent decls) := by
  funext s
  fun_induction Schema.addFields s parent decls with
  | case1 => simp [fields]
  | case2 s parent name number shape members value rest id ihMembers ihRest =>
    rename_i ihValue
    have members := funext ihMembers
    have rest := funext ihRest
    rcases value with _ | ⟨valueName, _, valueShape, valueMembers, _⟩
    · simp [fields, Schema.apply, members, rest, id, ok_bind]
    · have value (s : Schema) := funext (ihValue s)
      simp [fields, Schema.apply, members, value, rest, id]

def structs (parent : NodeId) : List StructDecl → Plan :=
  each fun d => here fun id =>
    call (.attach parent d.name (.struct "" d.number)) ++
    call (.set id (.standard d.isStandard)) ++ fields id d.fields

@[simp] theorem perform_structs (parent : NodeId) (decls : List StructDecl) :
    (structs parent decls).perform = (Schema.addStructs · parent decls) := by
  funext s
  simp [structs, Schema.addStructs, Schema.apply]

def enums (parent : NodeId) : List EnumDecl → Plan :=
  each fun d => here fun id =>
    call (.attach parent d.name (.enum "" d.number d.values)) ++
    call (.set id (.bitmask d.isBitmask))

@[simp] theorem perform_enums (parent : NodeId) (decls : List EnumDecl) :
    (enums parent decls).perform = (Schema.addEnums · parent decls) := by
  funext s
  simp [enums, Schema.addEnums, Schema.apply]

def response (command : NodeId) (d : StructDecl) : Plan :=
  here fun id => call (.attach command d.name (.response d.number)) ++ fields id d.fields

@[simp] theorem perform_response (command : NodeId) (d : StructDecl) :
    (response command d).perform = (Schema.addResponse · command d) := by
  funext s
  simp [response, Schema.addResponse, Schema.apply]

def commands (parent : NodeId) : List CommandDecl → Plan :=
  each fun d => here fun id =>
    call (.attach parent d.name (.command d.number)) ++ fields id d.parameters ++
    match d.response with
    | none => nil
    | some r => response id r

@[simp] theorem perform_commands (parent : NodeId) (decls : List CommandDecl) :
    (commands parent decls).perform = (Schema.addCommands · parent decls) := by
  funext s
  rw [commands, perform_each, Schema.addCommands]
  refine congrArg (List.foldlM · s decls) (funext fun s => funext fun d => ?_)
  cases d.response with
  | none => simp [Schema.apply, pure, Except.pure]
  | some r => simp [Schema.apply]

def groups (parent : NodeId) : List GroupDecl → Plan :=
  each fun d => here fun id =>
    call (.attach parent d.name (.group d.number)) ++
    each (fun c => call (.attach id c.name (.constant c.number c.value))) d.constants

@[simp] theorem perform_groups (parent : NodeId) (decls : List GroupDecl) :
    (groups parent decls).perform = (Schema.addGroups · parent decls) := by
  funext s
  simp [groups, Schema.addGroups, Schema.apply]

def events (parent : NodeId) : List EventDecl → Plan :=
  each fun d => here fun id =>
    call (.attach parent d.name (.event d.number d.importance)) ++ fields id d.fields

@[simp] theorem perform_events (parent : NodeId) (decls : List EventDecl) :
    (events parent decls).perform = (Schema.addEvents · parent decls) := by
  funext s
  simp [events, Schema.addEvents, Schema.apply]

/-- A declaration at the top, with the qualifier and the name of its entry. -/
def declare (entry : String) (top : TopLevel) : Plan :=
  call (.declare (splitName entry).1 (splitName entry).2 top)

def typespace (d : TypespaceDecl) : Plan :=
  here fun id =>
    declare d.name .typespace ++ call (.set id (.version d.version)) ++
    enums id d.enums ++ structs id d.structs ++ groups id d.groups

@[simp] theorem perform_typespace (d : TypespaceDecl) :
    (typespace d).perform = (Schema.addTypespace · d) := by
  funext s
  simp [typespace, declare, Schema.addTypespace, Schema.apply, ok_bind]

def trait (d : TraitDecl) : Plan :=
  here fun id =>
    declare d.name (.trait d.number) ++ call (.set id (.version d.version)) ++
    call (.set id (.vendor d.vendor)) ++ fields id d.state ++ enums id d.enums ++
    commands id d.commands ++ groups id d.groups ++ structs id d.structs ++ events id d.events

@[simp] theorem perform_trait (d : TraitDecl) : (trait d).perform = (Schema.addTrait · d) := by
  funext s
  simp [trait, declare, Schema.addTrait, Schema.apply, ok_bind]

def topStruct (d : StructDecl) : Plan :=
  here fun id =>
    declare d.name (.struct d.number) ++ call (.set id (.standard d.isStandard)) ++
    fields id d.fields

@[simp] theorem perform_topStruct (d : StructDecl) :
    (topStruct d).perform = (Schema.addTopStruct · d) := by
  funext s
  simp [topStruct, declare, Schema.addTopStruct, Schema.apply, ok_bind]

def topEnum (d : EnumDecl) : Plan :=
  here fun id =>
    declare d.name (.enum d.number d.values) ++ call (.set id (.bitmask d.isBitmask))

@[simp] theorem perform_topEnum (d : EnumDecl) : (topEnum d).perform = (Schema.addTopEnum · d) := by
  funext s
  simp [topEnum, declare, Schema.addTopEnum, Schema.apply, ok_bind]

/-- The base that an entry gives to the trait that bears its name, if both are there. -/
def base (named : List (String × NodeId)) (d : TraitDecl) : Plan :=
  match d.base.bind (named.lookup ·), named.lookup d.name with
  | some target, some id => call (.set id (.base target))
  | _, _ => nil

theorem perform_base {named : List (String × NodeId)} {d : TraitDecl}
    (resolved : ∀ base, d.base = some base → named.lookup base ≠ none) (s : Schema) :
    (base named d).perform s = s.addBase named d := by
  rcases extended : d.base with _ | text
  · simp [base, Schema.addBase, extended]
  · obtain ⟨target, found⟩ := Option.ne_none_iff_exists'.1 (resolved text extended)
    cases own : named.lookup d.name with
    | none => simp [base, Schema.addBase, extended, own]
    | some id => simp [base, Schema.addBase, Schema.apply, extended, own, found]

theorem perform_bases {named : List (String × NodeId)} {decls : List TraitDecl}
    (resolved : ∀ d ∈ decls, ∀ base, d.base = some base → named.lookup base ≠ none) (s : Schema) :
    (each (base named) decls).perform s = decls.foldlM (Schema.addBase named) s := by
  rw [perform_each]
  exact foldlM_congr (fun s d listed => perform_base (resolved d listed) s) s

end Plan

/-! ## Traits -/

namespace Schema

/-- The names of trait entries with the nodes of their traits, the last first. -/
def bearers (decls : List TraitDecl) (ids : List NodeId) : List (String × NodeId) :=
  ((decls.map TraitDecl.name).zip ids).reverse

/-- Each trait is recorded at the node that its plan starts with, in front of the names that are
there. -/
theorem foldlM_addTrait (decls : List TraitDecl) (s : Schema) (named : List (String × NodeId)) :
    decls.foldlM (fun before d => do
      return (← Schema.addTrait before.1 d, (d.name, before.1.size) :: before.2)) (s, named) =
        (Plan.each .trait decls).perform s >>= fun t =>
          .ok (t, bearers decls (Plan.starts .trait decls s.size) ++ named) := by
  induction decls generalizing s named with
  | nil => rfl
  | cons d decls ih =>
    have same : s.addTrait d = (Plan.trait d).perform s := by simp
    simp only [List.foldlM_cons, Plan.each, Plan.perform_append, same]
    cases performed : (Plan.trait d).perform s with
    | error error => rfl
    | ok next =>
      have recorded (ids : List NodeId) : bearers (d :: decls) (s.size :: ids) ++ named =
          bearers decls ids ++ (d.name, s.size) :: named := by simp [bearers]
      rw [Plan.starts, recorded, ← Plan.size_of_perform performed]
      exact ih next _

theorem addTraits_eq (s : Schema) (decls : List TraitDecl) :
    s.addTraits decls = (Plan.each .trait decls).perform s >>= fun t =>
      .ok (t, bearers decls (Plan.starts .trait decls s.size)) := by
  have recorded := foldlM_addTrait decls s []
  simp only [List.append_nil] at recorded
  exact recorded

end Schema

/-! ## Documents -/

namespace Document

/-- The base that a trait entry names, if it names one, is the name of a trait entry. -/
def Resolves (d : Document) (e : TraitDecl) : Prop :=
  ∀ base, e.base = some base → ∃ f ∈ d.traits, f.name = base

instance (d : Document) (e : TraitDecl) : Decidable (d.Resolves e) :=
  inferInstanceAs (Decidable (∀ base ∈ e.base, ∃ f ∈ d.traits, f.name = base))

/-- Typespaces and traits with all that is below them. -/
def opening (d : Document) : Plan := .each .typespace d.typespaces ++ .each .trait d.traits

/-- The nodes of the traits. The first is behind the typespaces and what is below them. -/
def traitIds (d : Document) : List NodeId :=
  Plan.starts .trait d.traits ((Plan.each .typespace d.typespaces 0).countP Edit.isNew)

/-- The names that bases are looked up by. -/
def named (d : Document) : List (String × NodeId) := Schema.bearers d.traits d.traitIds

/-- The bases, up to the first entry whose base is not there. -/
def bases (d : Document) : Plan :=
  .each (.base d.named) (d.traits.takeWhile fun e => d.Resolves e)

/-- Structs and enums. Loading comes to them when all bases are there. -/
def closing (d : Document) : Plan :=
  if ∀ e ∈ d.traits, d.Resolves e then
    .each .topStruct d.structs ++ .each .topEnum d.enums
  else .nil

/-- The edits that loading a document asks for. -/
def calls (d : Document) : List Edit := (d.opening ++ d.bases ++ d.closing) 0

end Document

end PropertyTables
