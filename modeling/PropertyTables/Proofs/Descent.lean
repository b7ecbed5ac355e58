import PropertyTables.Proofs.WellFormedUnits

/-!
# Checks and work lists that come to an end

A field may come with lists of any nodes, and these can go round in a circle. The check of a unit
keeps no record of the nodes that it has entered, and the work list of paths none of those that it
has taken. The check still ends in every schema: it enters a node from its parent only, and a parent
comes before its children. Where the check has passed, the paths go from parent to child too. So the
work list takes no field twice, and is empty after as many turns as there are nodes.

## Main definitions

* `Schema.verifyUnitWithin`: the check of a unit, cut off at a depth.
* `Schema.turn`: one turn of the work list.
* `Schema.Progress`: the state of the work list between two turns.
-/

namespace PropertyTables

/-! ## Answers that may be cut off -/

section

variable {ε α β : Type}

/-- An answer that was not cut off. -/
def answered (x : Except ε α) : ExceptT ε Option α := ExceptT.mk (some x)

theorem answered_bind {x : Except ε α} {f : α → ExceptT ε Option β} {g : α → Except ε β}
    (next : ∀ a, x = .ok a → f a = answered (g a)) : (answered x >>= f) = answered (x >>= g) := by
  cases x with
  | error e => rfl
  | ok a => exact next a rfl

theorem forM_answered {f : α → ExceptT ε Option Unit} {g : α → Except ε Unit} {xs : List α}
    (each : ∀ x ∈ xs, f x = answered (g x)) : xs.forM f = answered (xs.forM g) := by
  induction xs with
  | nil => rfl
  | cons x xs ih =>
    rw [List.forall_mem_cons] at each
    change (f x >>= fun _ => xs.forM f) = answered (g x >>= fun _ => xs.forM g)
    rw [each.1]
    exact answered_bind fun _ _ => ih each.2

end

namespace Schema

variable {s : Schema} {unit id : NodeId} {name : String} {top taken : List NodeId} {p : Path}
  {queue waiting : List Path}

/-! ## The depth of the check -/

/-- The check of siblings down to a depth. It enters whatever is listed, once the child itself has
passed. -/
def verifySiblingsWithin (s : Schema) (unit : String) : Nat → NodeId → ExceptT Error Option Unit
  | 0, _ => ExceptT.mk none
  | depth + 1, id => do
    answered (s.verifyValues unit id)
    (s.childLists id).forM fun list =>
      (withEarlier list.ids).forM fun (earlier, child) => do
        answered (s.verifyChild unit id list.label earlier child)
        s.verifySiblingsWithin unit depth child

/-- The walk along bases for a number of steps, with the list of those it has met. -/
def chainWithin (s : Schema) (start : NodeId) :
    Nat → List NodeId → NodeId → ExceptT Error Option (List NodeId)
  | 0, _, _ => ExceptT.mk none
  | steps + 1, found, current =>
    match s.base? current with
    | none => answered (.ok found)
    | some base =>
      if (s.trait? base).isNone then
        answered (.error (.integrity (s.fullName start) (s.fullName current) .baseNotTrait))
      else if base ∈ start :: found then
        answered (.error (.integrity (s.fullName start) (s.fullName current)
          (.cyclicChain ((start :: found ++ [base]).map s.fullName))))
      else s.chainWithin start steps (found ++ [base]) base

def verifyTraitWithin (s : Schema) (depth : Nat) (unit : NodeId) (t : Trait) :
    ExceptT Error Option Unit :=
  if t.version = 0 then answered (.error (.integrity (s.fullName unit) (s.name unit) .versionZero))
  else do
    let _ ← s.chainWithin unit depth [] unit
    answered (s.verifyInherited unit t)

/-- The check of a unit, cut off where more than `depth` calls are nested or more than `depth` bases
follow each other. -/
def verifyUnitWithin (s : Schema) (depth : Nat) (unit : NodeId) : ExceptT Error Option Unit := do
  let node ← answered (s.node unit)
  match node.kind.trait? with
  | some t => s.verifyTraitWithin depth unit t
  | none => pure ()
  s.verifySiblingsWithin (s.fullName unit) depth unit

/-- Entering a node, the check goes at most as deep as there are nodes from there on. -/
theorem verifySiblingsWithin_eq {id depth : Nat} (inside : id < s.size)
    (deep : s.size ≤ id + depth) :
    s.verifySiblingsWithin name depth id = answered (s.verifySiblings name id) := by
  induction depth generalizing id with
  | zero => omega
  | succ depth ih =>
    rw [verifySiblingsWithin, verifySiblings]
    refine answered_bind fun _ _ => forM_answered fun list _ => forM_answered fun place _ => ?_
    refine answered_bind fun _ passed => ?_
    have owned := (verifyChild_eq_ok.1 passed).1
    have later := parent?_lt owned
    rw [dif_pos owned]
    exact ih (lt_size_of_parent? owned) (by omega)

/-- The walk along bases meets a new node with each step. -/
theorem chainWithin_eq {start current : NodeId} {found unseen : List NodeId} {steps : Nat}
    (once : unseen.Nodup) (met : ∀ id < s.size, id ∈ unseen ↔ id ∉ start :: found)
    (enough : unseen.length < steps) :
    s.chainWithin start steps found current =
      answered (s.chainFrom start found unseen current) := by
  fun_induction Schema.chainFrom s start found unseen current generalizing steps with
  | case1 found unseen current alone =>
    obtain ⟨steps, rfl⟩ := Nat.exists_eq_add_of_lt enough
    simp [chainWithin, alone]
  | case2 found unseen current base next noTrait =>
    obtain ⟨steps, rfl⟩ := Nat.exists_eq_add_of_lt enough
    simp [chainWithin, next, noTrait]
  | case3 found unseen current base next isTrait unmet ih =>
    obtain ⟨t, isBase⟩ := Option.ne_none_iff_exists'.1 (by simpa using isTrait)
    have new := (met base (trait?_lt isBase)).1 unmet
    cases steps with
    | zero => omega
    | succ steps =>
      rw [chainWithin]
      simp only [next, isTrait, new, if_false, Bool.false_eq_true]
      refine ih (once.erase base) (fun id inside => ?_) ?_
      · rw [once.mem_erase_iff, met id inside]
        grind
      · have := List.length_pos_of_mem unmet
        rw [List.length_erase_of_mem unmet]
        omega
  | case4 found unseen current base next isTrait again =>
    obtain ⟨t, isBase⟩ := Option.ne_none_iff_exists'.1 (by simpa using isTrait)
    have old : base ∈ start :: found := by
      by_contra new
      exact again ((met base (trait?_lt isBase)).2 new)
    obtain ⟨steps, rfl⟩ := Nat.exists_eq_add_of_lt enough
    rw [chainWithin]
    simp only [next, isTrait, old, if_false, if_true, Bool.false_eq_true]

theorem verifyTraitWithin_eq {unit : Nat} {t : Trait} (inside : unit < s.size) :
    s.verifyTraitWithin s.size unit t = answered (s.verifyTrait unit t) := by
  have range : (List.range s.size).Nodup := List.nodup_range
  have met : ∀ id < s.size, id ∈ (List.range s.size).erase unit ↔ id ∉ [unit] := by
    intro id small
    rw [range.mem_erase_iff, List.mem_range, List.mem_singleton]
    exact and_iff_left small
  have short : ((List.range s.size).erase unit).length < s.size := by
    rw [List.length_erase_of_mem (List.mem_range.2 inside), List.length_range]
    omega
  unfold verifyTraitWithin verifyTrait
  split
  · rfl
  · rw [extendsChain, node_eq_ok.2 (Array.getElem?_eq_getElem inside), ok_bind,
      chainWithin_eq (range.erase unit) met short]
    exact answered_bind fun _ _ => rfl

/-- The check of a unit ends, and never goes deeper than there are nodes. -/
theorem verifyUnitWithin_eq (inside : unit < s.size) :
    s.verifyUnitWithin s.size unit = answered (s.verifyUnit unit) := by
  have siblings : s.verifySiblingsWithin (s.fullName unit) s.size unit =
      answered (s.verifySiblings (s.fullName unit) unit) :=
    verifySiblingsWithin_eq inside (Nat.le_add_left _ _)
  unfold verifyUnitWithin verifyUnit
  refine answered_bind fun node _ => ?_
  cases node.kind.trait? with
  | none => exact siblings
  | some t =>
    change (s.verifyTraitWithin s.size unit t >>= _) = answered (s.verifyTrait unit t >>= _)
    rw [verifyTraitWithin_eq inside]
    exact answered_bind fun _ _ => siblings

/-! ## Nodes that are there -/

theorem verifyChild_ne_absent {parent child other : NodeId} {label : String} {earlier : List NodeId}
    (inside : child < s.size) :
    s.verifyChild name parent label earlier child ≠ .error (.absent other) := by
  rw [verifyChild, node_eq_ok.2 (Array.getElem?_eq_getElem inside), ok_bind]
  grind

theorem verifyValues_ne_absent {other : NodeId} :
    s.verifyValues name id ≠ .error (.absent other) := by
  unfold verifyValues
  split
  · intro failed
    obtain ⟨place, -, failed⟩ := exists_of_forM_eq_error failed
    unfold verifyValue at failed
    grind
  · simp

/-- Where all listed children are there, the check meets no node that is absent. -/
theorem verifySiblings_ne_absent {other : NodeId}
    (present : ∀ parent, ∀ child ∈ s.childIds parent, child < s.size) :
    s.verifySiblings name id ≠ .error (.absent other) := by
  induction h : s.size - id using Nat.strong_induction_on generalizing id with
  | _ n ih =>
    subst h
    rw [verifySiblings]
    intro failed
    rcases bind_eq_error.1 failed with failed | ⟨-, -, failed⟩
    · exact verifyValues_ne_absent failed
    obtain ⟨list, hlist, failed⟩ := exists_of_forM_eq_error failed
    obtain ⟨⟨earlier, child⟩, hplace, failed⟩ := exists_of_forM_eq_error failed
    have listed : child ∈ list.ids := by
      rw [← map_snd_withEarlier list.ids]
      exact List.mem_map_of_mem hplace
    rcases bind_eq_error.1 failed with failed | ⟨-, -, failed⟩
    · exact verifyChild_ne_absent (present id child (mem_childIds.2 ⟨list, hlist, listed⟩)) failed
    · split at failed
      · rename_i owned
        have later := parent?_lt owned
        have inside := lt_size_of_parent? owned
        exact ih _ (by omega) rfl failed
      · cases failed

theorem chainFrom_ne_absent {start current other : NodeId} {found unseen : List NodeId} :
    s.chainFrom start found unseen current ≠ .error (.absent other) := by
  fun_induction Schema.chainFrom s start found unseen current with
  | case1 => simp
  | case2 => simp
  | case3 _ _ _ _ _ _ _ ih => exact ih
  | case4 => simp

theorem verifyInherited_ne_absent {t : Trait} {other : NodeId} :
    s.verifyInherited unit t ≠ .error (.absent other) := by
  unfold verifyInherited
  split
  · simp
  · split
    · simp
    · intro failed
      obtain ⟨field, -, failed⟩ := exists_of_forM_eq_error failed
      unfold verifyInheritedField at failed
      grind

theorem verifyTrait_ne_absent {t : Trait} {other : NodeId} (inside : unit < s.size) :
    s.verifyTrait unit t ≠ .error (.absent other) := by
  unfold verifyTrait
  split
  · simp
  · rw [extendsChain, node_eq_ok.2 (Array.getElem?_eq_getElem inside), ok_bind]
    intro failed
    rcases bind_eq_error.1 failed with failed | ⟨-, -, failed⟩
    · exact chainFrom_ne_absent failed
    · exact verifyInherited_ne_absent failed

theorem verifyUnit_ne_absent {other : NodeId} (inside : unit < s.size)
    (present : ∀ parent, ∀ child ∈ s.childIds parent, child < s.size) :
    s.verifyUnit unit ≠ .error (.absent other) := by
  have found := node_eq_ok.2 (Array.getElem?_eq_getElem inside)
  rw [verifyUnit, found, ok_bind]
  cases s.nodes[unit].kind.trait? with
  | none => exact verifySiblings_ne_absent present
  | some t =>
    intro failed
    rcases bind_eq_error (x := s.verifyTrait unit t).1 failed with failed | ⟨_, -, failed⟩
    · exact verifyTrait_ne_absent inside failed
    · exact verifySiblings_ne_absent present failed

/-! ## Turns of the work list -/

/-- Takes the first path. What follows it waits, the members in front and the map value behind. -/
def turn (s : Schema) : List Path → List Path
  | [] => []
  | p :: waiting => (s.children p.last).map p.child ++ waiting ++ s.values p

theorem iterate_turn_nil (s : Schema) (k : Nat) : s.turn^[k] [] = [] := by
  induction k with
  | zero => rfl
  | succ k ih => exact ih

/-- On the paths of a unit that go from parent to child, nodes come in the order of the schema. -/
theorem Rooted.ascending (rooted : s.Rooted unit top) (leads : s.Leads top p) :
    unit < p.last ∧ p.fields.Pairwise (· < ·) := by
  induction leads with
  | start listed => exact ⟨parent?_lt (rooted.start listed), List.pairwise_singleton _ _⟩
  | @step p id above below ih =>
    obtain ⟨later, ascending⟩ := ih
    have next : p.last < id := parent?_lt (rooted.step above below)
    refine ⟨later.trans next, ?_⟩
    rw [Path.fields_child, List.pairwise_append]
    refine ⟨ascending, List.pairwise_singleton _ _, fun other hother new hnew => ?_⟩
    rw [List.mem_singleton.1 hnew]
    rcases List.mem_append.1 hother with hother | hother
    · exact ((List.pairwise_append.1 ascending).2.2 other hother p.last (by simp)).trans next
    · rwa [List.mem_singleton.1 hother]

/-- The fields that come next after a verified field are distinct. -/
theorem nodup_followers (checked : s.verifySiblings name id = .ok ()) :
    (s.children id ++ (s.mapValue? id).toList).Nodup := by
  cases found : s.field? id with
  | none => simp [children, mapValue?, found]
  | some f =>
    have listed : ⟨"field_list", f.members⟩ ∈ s.childLists id := by
      simp [childLists_of_kind? (kind?_of_field? found), Kind.childLists]
    have distinct : f.members.Nodup := ((verifySiblings_eq_ok.1 checked).2 _ listed).2.1.of_map
    simp only [children, mapValue?, found]
    cases f.value <;> grind

/-- Between two turns: the fields in `taken` have had their turn, `queue` has those whose turn is
still to come. All of them are distinct, and each belongs to the unit or to a field that was
taken. -/
structure Progress (s : Schema) (unit : NodeId) (top taken : List NodeId) (queue : List Path) :
    Prop where
  leads {p : Path} : p ∈ queue → s.Leads top p
  distinct : (taken ++ queue.map Path.last).Nodup
  below {id : NodeId} : id ∈ taken ++ queue.map Path.last →
    ∃ parent, s.parent? id = some parent ∧ (parent = unit ∨ parent ∈ taken)

namespace Progress

theorem length_le (progress : s.Progress unit top taken queue) :
    taken.length + queue.length ≤ s.size := by
  have inside : taken ++ queue.map Path.last ⊆ List.range s.size := fun id hid => by
    obtain ⟨parent, owned, -⟩ := progress.below hid
    exact List.mem_range.2 (lt_size_of_parent? owned)
  simpa using (progress.distinct.subperm inside).length_le

/-- What comes next has not been met: it belongs to the field whose turn it is, and what was met
belongs to a field whose turn is over. -/
theorem fresh (progress : s.Progress unit top taken (p :: waiting)) (rooted : s.Rooted unit top)
    (follows : s.Follows id p.last) : id ∉ taken ++ (p :: waiting).map Path.last := by
  intro met
  have leads := progress.leads List.mem_cons_self
  obtain ⟨parent, owned, early⟩ := progress.below met
  obtain rfl : p.last = parent :=
    Option.some.inj ((rooted.step leads follows).symm.trans owned)
  rcases early with same | early
  · exact (rooted.ascending leads).1.ne' same
  · exact (List.nodup_append.1 progress.distinct).2.2 p.last early p.last (by simp) rfl

theorem step (progress : s.Progress unit top taken (p :: waiting)) (rooted : s.Rooted unit top)
    (checked : s.verifySiblings name p.last = .ok ()) :
    s.Progress unit top (taken ++ [p.last]) (s.turn (p :: waiting)) := by
  have leads := progress.leads List.mem_cons_self
  have arranged : ((taken ++ [p.last]) ++ (s.turn (p :: waiting)).map Path.last).Perm
      ((taken ++ (p :: waiting).map Path.last) ++
        (s.children p.last ++ (s.mapValue? p.last).toList)) := by
    simp only [turn, values, List.map_append, List.map_map, Function.comp_def, Path.last_child,
      List.map_id', List.map_cons]
    grind
  constructor
  case leads =>
    intro q hq
    rcases mem_next_queue hq with hq | ⟨id, follows, rfl⟩
    · exact progress.leads (List.mem_cons_of_mem _ hq)
    · exact leads.step follows
  case distinct =>
    rw [arranged.nodup_iff, List.nodup_append]
    refine ⟨progress.distinct, nodup_followers checked, fun old hold new hnew same => ?_⟩
    have follows : s.Follows new p.last := by simpa [Follows] using hnew
    exact progress.fresh rooted follows (same ▸ hold)
  case below =>
    intro id hid
    rcases List.mem_append.1 (arranged.mem_iff.1 hid) with old | new
    · obtain ⟨parent, owned, early⟩ := progress.below old
      exact ⟨parent, owned, early.imp_right fun h => List.mem_append_left _ h⟩
    · have follows : s.Follows id p.last := by simpa [Follows] using new
      exact ⟨p.last, rooted.step leads follows, .inr (by simp)⟩

/-- A turn that is taken uses up a node, so the work list runs empty and its paths are returned. -/
theorem exists_explore (progress : s.Progress unit top taken queue) (rooted : s.Rooted unit top)
    (fields : s.ListsFields top)
    (checked : ∀ p, s.Leads top p → s.verifySiblings name p.last = .ok ()) :
    ∃ ps, s.explore unit queue = .ok ps ∧ (taken ++ ps.map Path.last).Nodup ∧
      taken.length + ps.length ≤ s.size ∧ ∀ k, (s.turn^[k] queue).head? = ps[k]? := by
  induction room : s.size - taken.length using Nat.strong_induction_on generalizing taken queue with
  | _ n ih =>
    have few := progress.length_le
    cases queue with
    | nil =>
      exact ⟨[], by simp [explore], by simpa using progress.distinct, few,
        by simp [iterate_turn_nil]⟩
    | cons p waiting =>
      have leads := progress.leads List.mem_cons_self
      have ascending := (rooted.ascending leads).2
      obtain ⟨f, found⟩ := fields p leads
      have short := leads.length_le_size_of_nodup (ascending.imp Nat.ne_of_lt) fields
      rw [List.length_cons] at few
      have smaller : s.size - (taken ++ [p.last]).length < n := by
        rw [List.length_append, List.length_singleton]
        omega
      obtain ⟨rest, run, distinct, few, turns⟩ :=
        ih _ smaller (progress.step rooted (checked p leads)) rfl
      refine ⟨p :: rest, ?_, by simpa using distinct, by simp at few ⊢; omega, fun k => ?_⟩
      · exact explore_cons_eq_ok.2 ⟨f, rest, found, short.trans s.size_le_pathBound, run, rfl⟩
      · cases k with
        | zero => rfl
        | succ k => simpa using turns k

/-- Before the first turn the top-level fields wait. -/
theorem initial (rooted : s.Rooted unit top) (distinct : top.Nodup) :
    s.Progress unit top [] (top.map .single) := by
  have lasts : (top.map Path.single).map Path.last = top := by simp [Function.comp_def]
  constructor
  case leads =>
    intro p hp
    obtain ⟨id, listed, rfl⟩ := List.mem_map.1 hp
    exact .start listed
  case distinct => rwa [List.nil_append, lasts]
  case below =>
    intro id hid
    rw [List.nil_append, lasts] at hid
    exact ⟨unit, rooted.start hid, .inl rfl⟩

end Progress

/-- The paths of a verified unit are as many as its work list has turns: no field has two of them,
and on each path nodes come in the order of the schema. -/
theorem Orderly.exists_paths (orderly : s.Orderly) (starts : s.StartsFrom unit top)
    (checked : s.verifySiblings name unit = .ok ()) :
    ∃ ps, s.paths unit = .ok ps ∧ (∀ p ∈ ps, p.fields.Pairwise (· < ·)) ∧
      (ps.map Path.last).Nodup ∧ ps.length ≤ s.size ∧
      ∀ k, (s.turn^[k] (top.map .single)).head? = ps[k]? := by
  have rooted := rooted_of_verifySiblings starts checked
  have distinct : top.Nodup := by
    rcases topFields_listed starts.topFields_eq with rfl | ⟨label, hlist⟩
    · exact List.nodup_nil
    · exact ((verifySiblings_eq_ok.1 checked).2 _ hlist).2.1.of_map
  obtain ⟨ps, run, once, few, turns⟩ := (Progress.initial rooted distinct).exists_explore rooted
    (rooted.listsFields orderly starts) fun p leads => leads.verified starts.topFields_eq checked
  have enumerated : s.paths unit = .ok ps := paths_eq_ok.2 ⟨top, starts.topFields_eq, run⟩
  refine ⟨ps, enumerated, fun p hp => ?_, by simpa using once, by simpa using few, turns⟩
  exact (rooted.ascending (leads_of_mem_paths enumerated starts.topFields_eq hp)).2

/-- The check of a unit comes to an end whatever lists the fields came with, and nests no deeper
than there are nodes. It runs into no absent node if none is listed. Where it passes, nodes come
later and later on every path, no two paths end at the same field, and the work list is empty after
as many turns as there are paths, which is no more than there are nodes. -/
theorem verifyUnit_ends (reachable : s.Reachable) (inside : unit < s.size) :
    (s.verifyUnitWithin s.size unit).run = some (s.verifyUnit unit) ∧
    ((∀ parent, ∀ child ∈ s.childIds parent, child < s.size) →
      ∀ other, s.verifyUnit unit ≠ .error (.absent other)) ∧
    ∀ top, s.StartsFrom unit top → s.verifyUnit unit = .ok () →
      ∃ ps, s.paths unit = .ok ps ∧ (∀ p ∈ ps, p.fields.Pairwise (· < ·)) ∧
        (ps.map Path.last).Nodup ∧ ps.length ≤ s.size ∧
        (∀ k, (s.turn^[k] (top.map .single)).head? = ps[k]?) ∧
        s.turn^[ps.length] (top.map .single) = [] := by
  refine ⟨congrArg ExceptT.run (verifyUnitWithin_eq inside),
    fun present other => verifyUnit_ne_absent inside present, fun top starts verified => ?_⟩
  obtain ⟨node, -, -, checked⟩ := verifyUnit_eq_ok.1 verified
  obtain ⟨ps, enumerated, ascending, once, few, turns⟩ :=
    reachable.orderly.exists_paths starts checked
  refine ⟨ps, enumerated, ascending, once, few, turns, List.head?_eq_none_iff.1 ?_⟩
  rw [turns, List.getElem?_eq_none (Nat.le_refl _)]

/-- Two maps that came as each other's values, in a trait beside one that is in order. -/
def tangleSchema : Schema := Schema.empty.run [
  .declare "weave.trait.example" "TangleTrait" (.trait 2580),
  .attach 0 "inner" (.field 1 { isMap := true, value := some 2 }),
  .attach 0 "outer" (.field 2 { isMap := true, value := some 1 }),
  .declare "weave.trait.example" "ShelfTrait" (.trait 2581),
  .attach 3 "books" (.field 1 {}),
  .attach 4 "entry" (.mapValue {}),
  .attach 5 "title" (.field 1 {}),
  .attach 3 "label" (.field 2 {})]

theorem tangleSchema_verifyUnit :
    tangleSchema.mapValue? 1 = some 2 ∧ tangleSchema.mapValue? 2 = some 1 ∧
      (tangleSchema.verifyUnitWithin 8 0).run = some (tangleSchema.verifyUnit 0) ∧
      (∀ other, tangleSchema.verifyUnit 0 ≠ .error (.absent other)) ∧
      (tangleSchema.verifyUnit 0).toOption = none ∧ tangleSchema.verifyUnit 3 = .ok () ∧
      ∃ ps, tangleSchema.paths 3 = .ok ps ∧ (ps.map Path.last).Nodup ∧
        tangleSchema.turn^[ps.length] [.single 4, .single 7] = [] := by
  have reachable : tangleSchema.Reachable := .run .empty _
  have listed : ∀ parent < tangleSchema.size, ∀ child ∈ tangleSchema.childIds parent,
      child < tangleSchema.size := by decide +kernel
  have present : ∀ parent, ∀ child ∈ tangleSchema.childIds parent, child < tangleSchema.size := by
    intro parent child hchild
    by_cases inside : parent < tangleSchema.size
    · exact listed parent inside child hchild
    · have absent : tangleSchema.node? parent = none :=
        Array.getElem?_eq_none (not_lt.1 inside)
      simp [childIds, childLists, kind?, absent] at hchild
  have unit : tangleSchema.kind? 3 = some (.trait
      { qualifier := "weave.trait.example", state := [4, 7] }) := by decide +kernel
  have verified : tangleSchema.verifyUnit 3 = .ok () := toOption_eq_some.1 (by decide +kernel)
  obtain ⟨ends, found, -⟩ :=
    verifyUnit_ends reachable (by decide +kernel : 0 < tangleSchema.size)
  obtain ⟨-, -, passes⟩ := verifyUnit_ends reachable (by decide +kernel : 3 < tangleSchema.size)
  obtain ⟨ps, enumerated, -, once, -, -, empty⟩ := passes _ (.trait unit) verified
  exact ⟨by decide +kernel, by decide +kernel, ends, found present, by decide +kernel, verified, ps,
    enumerated, once, empty⟩

end Schema

end PropertyTables
