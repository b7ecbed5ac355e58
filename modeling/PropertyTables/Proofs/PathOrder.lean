import PropertyTables.Proofs.FieldGraph

/-!
# What an enumeration returns

Whenever the paths of a unit can be listed, each of them leads down from a top-level field and
ends at a field, and the path that encloses it comes before it. Nothing is assumed of the schema.
-/

namespace PropertyTables.Schema

variable {s : Schema} {unit : NodeId} {top : List NodeId} {queue ps rest : List Path} {p : Path}

/-- The first path returned is the first that waits. -/
theorem explore_eq_ok_cons (h : s.explore unit queue = .ok (p :: rest)) :
    ∃ f waiting, queue = p :: waiting ∧ s.field? p.last = some f ∧
      s.explore unit ((s.children p.last).map p.child ++ waiting ++ s.values p) = .ok rest := by
  cases queue with
  | nil => simp [explore] at h
  | cons path waiting =>
    obtain ⟨f, rest', found, -, next, heq⟩ := explore_cons_eq_ok.1 h
    obtain ⟨rfl, rfl⟩ := List.cons_eq_cons.1 heq
    exact ⟨f, waiting, rfl, found, next⟩

/-- A path that waits after `p` is taken waited before, or is one field longer than `p`. -/
theorem mem_next_queue {q : Path} {waiting : List Path}
    (h : q ∈ (s.children p.last).map p.child ++ waiting ++ s.values p) :
    q ∈ waiting ∨ ∃ id, s.Follows id p.last ∧ q = p.child id := by
  simp only [values, List.mem_append, List.mem_map, Option.mem_toList] at h
  rcases h with (⟨id, hid, rfl⟩ | h) | ⟨id, hid, rfl⟩
  · exact .inr ⟨id, .inl hid, rfl⟩
  · exact .inl h
  · exact .inr ⟨id, .inr hid, rfl⟩

theorem field_of_mem_explore (h : s.explore unit queue = .ok ps) (hp : p ∈ ps) :
    ∃ f, s.field? p.last = some f := by
  induction ps generalizing queue with
  | nil => simp at hp
  | cons q rest ih =>
    obtain ⟨f, waiting, rfl, found, next⟩ := explore_eq_ok_cons h
    rcases List.mem_cons.1 hp with rfl | hp
    · exact ⟨f, found⟩
    · exact ih next hp

theorem leads_of_mem_explore (h : s.explore unit queue = .ok ps)
    (waiting : ∀ q ∈ queue, s.Leads top q) (hp : p ∈ ps) : s.Leads top p := by
  induction ps generalizing queue with
  | nil => simp at hp
  | cons q rest ih =>
    obtain ⟨f, waiting', rfl, found, next⟩ := explore_eq_ok_cons h
    rw [List.forall_mem_cons] at waiting
    rcases List.mem_cons.1 hp with rfl | hp
    · exact waiting.1
    · refine ih next (fun r hr => ?_) hp
      rcases mem_next_queue hr with hr | ⟨id, below, rfl⟩
      · exact waiting.2 r hr
      · exact waiting.1.step below

/-- Every path that waits is returned. -/
theorem mem_explore_of_mem (h : s.explore unit queue = .ok ps) (hp : p ∈ queue) : p ∈ ps := by
  induction ps generalizing queue with
  | nil =>
    cases queue with
    | nil => simp at hp
    | cons path waiting =>
      obtain ⟨f, rest, -, -, -, heq⟩ := explore_cons_eq_ok.1 h
      simp at heq
  | cons q rest ih =>
    obtain ⟨f, waiting, rfl, found, next⟩ := explore_eq_ok_cons h
    rcases List.mem_cons.1 hp with rfl | hp
    · exact List.mem_cons_self
    · exact List.mem_cons_of_mem _ (ih next (by simp [hp]))

/-- A path that did not wait at first comes after the path that encloses it. -/
theorem enclosing_before_explore (h : s.explore unit queue = .ok ps) {i : Nat}
    (hp : ps[i]? = some p) :
    p ∈ queue ∨ ∃ j q, j < i ∧ ps[j]? = some q ∧ q.fields = p.enclosing := by
  induction ps generalizing queue i with
  | nil => simp at hp
  | cons q rest ih =>
    obtain ⟨f, waiting, rfl, found, next⟩ := explore_eq_ok_cons h
    cases i with
    | zero =>
      obtain rfl : q = p := by simpa using hp
      exact .inl List.mem_cons_self
    | succ i =>
      rcases ih next (by simpa using hp) with hnext | ⟨j, r, hj, hr, henclosing⟩
      · rcases mem_next_queue hnext with hwait | ⟨id, -, rfl⟩
        · exact .inl (List.mem_cons_of_mem _ hwait)
        · exact .inr ⟨0, q, i.succ_pos, rfl, rfl⟩
      · exact .inr ⟨j + 1, r, by omega, by simpa using hr, henclosing⟩

/-! ## The paths of a unit -/

theorem paths_eq_ok : s.paths unit = .ok ps ↔
    ∃ top, s.topFields unit = .ok top ∧ s.explore unit (top.map .single) = .ok ps := by
  simp [paths]

theorem leads_of_mem_paths (h : s.paths unit = .ok ps) (starts : s.topFields unit = .ok top)
    (hp : p ∈ ps) : s.Leads top p := by
  obtain ⟨top', starts', run⟩ := paths_eq_ok.1 h
  obtain rfl : top = top' := by simpa [starts] using starts'
  refine leads_of_mem_explore run (fun q hq => ?_) hp
  obtain ⟨id, listed, rfl⟩ := List.mem_map.1 hq
  exact .start listed

theorem single_mem_paths (h : s.paths unit = .ok ps) (starts : s.topFields unit = .ok top)
    {id : NodeId} (listed : id ∈ top) : .single id ∈ ps := by
  obtain ⟨top', starts', run⟩ := paths_eq_ok.1 h
  obtain rfl : top = top' := by simpa [starts] using starts'
  exact mem_explore_of_mem run (List.mem_map_of_mem listed)

theorem field_of_mem_paths (h : s.paths unit = .ok ps) (hp : p ∈ ps) :
    ∃ f, s.field? p.last = some f := by
  obtain ⟨top, -, run⟩ := paths_eq_ok.1 h
  exact field_of_mem_explore run hp

/-- A path of more than one field comes after the path that encloses it. -/
theorem enclosing_before (h : s.paths unit = .ok ps) {i : Nat} (hp : ps[i]? = some p)
    (nested : p.enclosing ≠ []) : ∃ j q, j < i ∧ ps[j]? = some q ∧ q.fields = p.enclosing := by
  obtain ⟨top, -, run⟩ := paths_eq_ok.1 h
  refine (enclosing_before_explore run hp).resolve_left fun hqueue => nested ?_
  obtain ⟨id, -, rfl⟩ := List.mem_map.1 hqueue
  rfl

end PropertyTables.Schema
