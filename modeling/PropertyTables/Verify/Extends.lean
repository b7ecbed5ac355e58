import PropertyTables.Extension

/-!
# Verification of extension

All traits of a schema are followed along their bases with one record of what was followed
before, so that each is followed once. A trait that is met again on its own chain is recursive.
-/

namespace PropertyTables.Schema

/-- Follows `id` and its bases. The traits in `checked` are known to be sound, those in `chain`
led here, and `unseen` holds the nodes that did not. The result is what is known to be sound. -/
def followBases (s : Schema) (checked chain unseen : List NodeId) (id : NodeId) :
    Except Error (List NodeId) :=
  if id ∈ checked then .ok (chain ++ checked)
  else
    match s.trait? id with
    | none => .ok (chain ++ checked)
    | some t =>
      if _h : id ∈ unseen then
        match t.base with
        | none => .ok (id :: chain ++ checked)
        | some base =>
          match s.kind? base with
          | none => .error (.absent base)
          | some (.trait _) => s.followBases checked (id :: chain) (unseen.erase id) base
          | some _ =>
            .error (.integrity (s.fullName id) (s.name id)
              (.extendsNonTrait (s.fullName id) (s.fullName base)))
      else .error (.integrity (s.fullName id) (s.name id) (.recursiveExtends (s.fullName id)))
termination_by unseen.length
decreasing_by
  have := List.length_pos_of_mem _h
  rw [List.length_erase_of_mem _h]
  omega

/-- Follows every trait of a list with one record. -/
def checkExtends (s : Schema) : List NodeId → List NodeId → Except Error Unit
  | _, [] => .ok ()
  | checked, id :: ids => do
    s.checkExtends (← s.followBases checked [] (List.range s.size) id) ids

/-- A field of the base is in the trait that extends it, under the same number. -/
def verifyInheritedField (s : Schema) (unit base : NodeId) (derived : Trait) (field : NodeId) :
    Except Error Unit :=
  match derived.state.find? (s.name · = s.name field) with
  | none =>
    .error (.integrity (s.fullName unit) (s.name field)
      (.missingField (s.fullName base) (s.name field)))
  | some own =>
    if s.number own = s.number field then .ok ()
    else
      .error (.integrity (s.fullName unit) (s.name field)
        (.numberMismatch (s.fullName base) (s.name field)))

/-- The fields of the base are in the trait that extends it. -/
def verifyInherited (s : Schema) (unit : NodeId) (t : Trait) : Except Error Unit :=
  match t.base with
  | none => .ok ()
  | some base =>
    match s.trait? base with
    | none => .ok ()
    | some inherited => inherited.state.forM (s.verifyInheritedField unit base t)

/-- What must hold of a trait: a version, a chain that ends, and the fields of its base. -/
def verifyTrait (s : Schema) (unit : NodeId) (t : Trait) : Except Error Unit :=
  if t.version = 0 then .error (.integrity (s.fullName unit) (s.name unit) .versionZero)
  else do
    let _ ← s.extendsChain unit
    s.verifyInherited unit t

end PropertyTables.Schema
