import Mathlib.Data.List.Forall2
import PropertyTables.Schema.Basic

/-!
# Outcomes of checks

When a sequence of steps that may each fail succeeds: every step of it succeeds. Proofs about
compilation and verification take their runs apart with these.
-/

namespace PropertyTables

variable {ε α β : Type}

theorem ok_bind (a : α) (f : α → Except ε β) : (.ok a >>= f) = f a := rfl

theorem error_bind (e : ε) (f : α → Except ε β) : (.error e >>= f) = .error e := rfl

@[simp] theorem bind_eq_ok {x : Except ε α} {f : α → Except ε β} {b : β} :
    (x >>= f) = .ok b ↔ ∃ a, x = .ok a ∧ f a = .ok b := by
  cases x with
  | error e => simp [bind, Except.bind]
  | ok a => simp [bind, Except.bind]

theorem bind_eq_error {x : Except ε α} {f : α → Except ε β} {e : ε} :
    (x >>= f) = .error e ↔ x = .error e ∨ ∃ a, x = .ok a ∧ f a = .error e := by
  cases x with
  | error e => simp [bind, Except.bind]
  | ok a => simp [bind, Except.bind]

/-- A check followed by more. -/
theorem check_bind_eq_ok {x : Except ε Unit} {f : Unit → Except ε β} {b : β} :
    (x >>= f) = .ok b ↔ x = .ok () ∧ f () = .ok b := by
  rw [bind_eq_ok]
  exact ⟨fun ⟨(), passed, next⟩ => ⟨passed, next⟩, fun ⟨passed, next⟩ => ⟨(), passed, next⟩⟩

@[simp] theorem pure_eq_ok {a b : α} : (pure a : Except ε α) = .ok b ↔ a = b := by
  simp [pure, Except.pure]

@[simp] theorem map_eq_ok {x : Except ε α} {f : α → β} {b : β} :
    f <$> x = .ok b ↔ ∃ a, x = .ok a ∧ f a = b := by
  cases x with
  | error e => simp [Functor.map, Except.map]
  | ok a => simp [Functor.map, Except.map]

theorem toOption_eq_some {x : Except ε α} {a : α} : x.toOption = some a ↔ x = .ok a := by
  cases x with
  | error e => simp [Except.toOption]
  | ok a => simp [Except.toOption]

/-- A list of checks passes when each of them does. -/
theorem forM_eq_ok {check : α → Except ε Unit} (xs : List α) :
    xs.forM check = .ok () ↔ ∀ x ∈ xs, check x = .ok () := by
  induction xs with
  | nil => simp [List.forM]
  | cons x xs ih =>
    change (check x >>= fun _ => xs.forM check) = .ok () ↔ _
    rw [check_bind_eq_ok, List.forall_mem_cons, ih]

theorem exists_of_forM_eq_error {check : α → Except ε Unit} {xs : List α} {e : ε}
    (h : xs.forM check = .error e) : ∃ x ∈ xs, check x = .error e := by
  induction xs with
  | nil => cases h
  | cons x xs ih =>
    change (check x >>= fun _ => xs.forM check) = .error e at h
    rcases bind_eq_error.1 h with failed | ⟨-, -, later⟩
    · exact ⟨x, List.mem_cons_self, failed⟩
    · obtain ⟨y, listed, failed⟩ := ih later
      exact ⟨y, List.mem_cons_of_mem _ listed, failed⟩

theorem mapM_eq_ok {f : α → Except ε β} {xs : List α} {ys : List β} :
    xs.mapM f = .ok ys ↔ List.Forall₂ (fun x y => f x = .ok y) xs ys := by
  induction xs generalizing ys with
  | nil => simp [eq_comm (a := ([] : List β))]
  | cons x xs ih =>
    simp only [List.mapM_cons, bind_eq_ok, pure_eq_ok, ih, List.forall₂_cons_left_iff]
    constructor
    · rintro ⟨y, hy, ys', hys, rfl⟩
      exact ⟨y, ys', hy, hys, rfl⟩
    · rintro ⟨y, ys', hy, hys, rfl⟩
      exact ⟨y, hy, ys', hys, rfl⟩

/-- A list of steps fails with the error of the first that fails. -/
theorem mapM_eq_error {f : α → Except ε β} {xs : List α} {e : ε} :
    xs.mapM f = .error e ↔
      ∃ before x after, xs = before ++ x :: after ∧ (∀ y ∈ before, ∃ b, f y = .ok b) ∧
        f x = .error e := by
  induction xs with
  | nil => simp [pure, Except.pure]
  | cons x xs ih =>
    rw [List.mapM_cons, bind_eq_error]
    cases first : f x with
    | error e' =>
      constructor
      · rintro (failed | ⟨y, ⟨⟩, -⟩)
        exact ⟨[], x, xs, rfl, by simp, by rw [first, failed]⟩
      · rintro ⟨_ | ⟨y, before⟩, z, after, split, passed, failed⟩
        · obtain ⟨rfl, rfl⟩ := List.cons_eq_cons.1 split
          exact .inl (first.symm.trans failed)
        · obtain ⟨rfl, -⟩ := List.cons_eq_cons.1 split
          obtain ⟨b, hb⟩ := passed x List.mem_cons_self
          simp [first] at hb
    | ok b =>
      have rest : (∃ a, Except.ok b = (.ok a : Except ε β) ∧
          (xs.mapM f >>= fun bs => pure (a :: bs)) = .error e) ↔ xs.mapM f = .error e := by
        simp [bind_eq_error, pure, Except.pure]
      rw [rest, ih]
      constructor
      · rintro (⟨⟨⟩⟩ | ⟨before, y, after, rfl, passed, failed⟩)
        exact ⟨x :: before, y, after, rfl, by simpa [first] using passed, failed⟩
      · rintro ⟨_ | ⟨y, before⟩, z, after, split, passed, failed⟩
        · obtain ⟨rfl, rfl⟩ := List.cons_eq_cons.1 split
          simp [first] at failed
        · obtain ⟨rfl, rfl⟩ := List.cons_eq_cons.1 split
          rw [List.forall_mem_cons] at passed
          exact .inr ⟨before, z, after, rfl, passed.2, failed⟩

/-- What each step keeps, a fold of steps keeps. -/
theorem foldlM_invariant {σ : Type} {P : σ → Prop} {f : σ → α → Except ε σ} {xs : List α} {s t : σ}
    (step : ∀ s x t, P s → f s x = .ok t → P t) (start : P s) (h : xs.foldlM f s = .ok t) :
    P t := by
  induction xs generalizing s with
  | nil =>
    rw [List.foldlM_nil, pure_eq_ok] at h
    exact h ▸ start
  | cons x xs ih =>
    rw [List.foldlM_cons] at h
    obtain ⟨next, taken, rest⟩ := bind_eq_ok.1 h
    exact ih (step s x next start taken) rest

/-- What the result of each step says of the state before it, the result of a fold says of the first
state; and where it makes the steps of two folds the same, it makes the folds the same. -/
theorem foldlM_transfer {σ : Type} {P : σ → Prop} {f g : σ → α → Except ε σ} {xs : List α} {s t : σ}
    (step : ∀ s x t, P t → f s x = .ok t → P s ∧ g s x = .ok t) (last : P t)
    (h : xs.foldlM f s = .ok t) : P s ∧ xs.foldlM g s = .ok t := by
  induction xs generalizing s with
  | nil =>
    obtain rfl : s = t := by simpa using h
    exact ⟨last, rfl⟩
  | cons x xs ih =>
    rw [List.foldlM_cons] at h
    obtain ⟨next, taken, rest⟩ := bind_eq_ok.1 h
    obtain ⟨holds, rest'⟩ := ih rest
    obtain ⟨first, taken'⟩ := step s x next holds taken
    refine ⟨first, ?_⟩
    rw [List.foldlM_cons, taken', ok_bind, rest']

/-- All members of a list satisfy a predicate, or there is a first that does not. -/
theorem forall_or_exists_first (P : α → Prop) (xs : List α) :
    (∀ x ∈ xs, P x) ∨
      ∃ before x after, xs = before ++ x :: after ∧ (∀ y ∈ before, P y) ∧ ¬ P x := by
  induction xs with
  | nil => exact .inl (by simp)
  | cons x xs ih =>
    by_cases first : P x
    · rcases ih with all | ⟨before, y, after, rfl, passed, failed⟩
      · exact .inl (List.forall_mem_cons.2 ⟨first, all⟩)
      · exact .inr ⟨x :: before, y, after, rfl, List.forall_mem_cons.2 ⟨first, passed⟩, failed⟩
    · exact .inr ⟨[], x, xs, rfl, by simp, first⟩

/-- Loops with equal steps are equal. -/
theorem forM_congr {f g : α → Except ε Unit} {xs : List α} (same : ∀ x ∈ xs, f x = g x) :
    xs.forM f = xs.forM g := by
  induction xs with
  | nil => rfl
  | cons x xs ih =>
    rw [List.forall_mem_cons] at same
    change (f x >>= fun _ => xs.forM f) = (g x >>= fun _ => xs.forM g)
    rw [same.1, ih same.2]

theorem foldlM_congr {σ : Type} {f g : σ → α → Except ε σ} {xs : List α}
    (same : ∀ a, ∀ x ∈ xs, f a x = g a x) (a : σ) : xs.foldlM f a = xs.foldlM g a := by
  induction xs generalizing a with
  | nil => rfl
  | cons x xs ih =>
    rw [List.foldlM_cons, List.foldlM_cons, same a x List.mem_cons_self]
    exact bind_congr fun next => ih (fun a y hy => same a y (List.mem_cons_of_mem _ hy)) next

theorem exists_of_forall₂ {R : α → β → Prop} {xs : List α} {ys : List β} (h : List.Forall₂ R xs ys)
    {x : α} (hx : x ∈ xs) : ∃ y ∈ ys, R x y := by
  induction h with
  | nil => simp at hx
  | @cons a b _ _ hab _ ih =>
    rcases List.mem_cons.1 hx with rfl | hx
    · exact ⟨b, List.mem_cons_self, hab⟩
    · obtain ⟨y, hy, hxy⟩ := ih hx
      exact ⟨y, List.mem_cons_of_mem _ hy, hxy⟩

/-- What two lists have in common place by place, the first members found in them have. -/
theorem exists_find?_of_forall₂ {R : α → β → Prop} {p : α → Bool} {q : β → Bool}
    {xs : List α} {ys : List β} {x : α} (h : List.Forall₂ R xs ys)
    (same : ∀ x y, R x y → q y = p x) (found : xs.find? p = some x) :
    ∃ y, ys.find? q = some y ∧ R x y := by
  induction h with
  | nil => cases found
  | @cons a b xs ys related rest ih =>
    rw [List.find?_cons, same a b related]
    rw [List.find?_cons] at found
    cases hit : p a with
    | true =>
      rw [hit] at found
      exact ⟨b, rfl, Option.some.inj found ▸ related⟩
    | false =>
      rw [hit] at found
      exact ih found

theorem forall₂_filterMap {R : α → β → Prop} {f : α → Option β} {xs : List α}
    (h : ∀ x ∈ xs, ∃ y, f x = some y ∧ R x y) : List.Forall₂ R xs (xs.filterMap f) := by
  induction xs with
  | nil => exact .nil
  | cons x xs ih =>
    obtain ⟨y, hy, hxy⟩ := h x List.mem_cons_self
    rw [List.filterMap_cons_some hy]
    exact .cons hxy (ih fun x hx => h x (List.mem_cons_of_mem _ hx))

/-- The members that a filter keeps are those that something is made of. -/
theorem forall₂_filter_filterMap {R : α → β → Prop} {p : α → Bool} {f : α → Option β} {xs : List α}
    (kept : ∀ x ∈ xs, p x → ∃ y, f x = some y ∧ R x y) (dropped : ∀ x ∈ xs, ¬ p x → f x = none) :
    List.Forall₂ R (xs.filter p) (xs.filterMap f) := by
  induction xs with
  | nil => exact .nil
  | cons x xs ih =>
    rw [List.forall_mem_cons] at kept dropped
    by_cases keep : p x
    · obtain ⟨y, hy, hxy⟩ := kept.1 keep
      rw [List.filter_cons_of_pos keep, List.filterMap_cons_some hy]
      exact .cons hxy (ih kept.2 dropped.2)
    · rw [List.filter_cons_of_neg keep, List.filterMap_cons_none (dropped.1 keep)]
      exact ih kept.2 dropped.2

theorem map_eq_of_forall₂ {γ : Type} {R : α → β → Prop} {f : α → γ} {g : β → γ} {xs : List α}
    {ys : List β} (h : List.Forall₂ R xs ys) (same : ∀ x y, R x y → f x = g y) :
    xs.map f = ys.map g := by
  induction h with
  | nil => rfl
  | cons related _ ih => rw [List.map_cons, List.map_cons, same _ _ related, ih]

theorem Schema.node_eq_ok {s : Schema} {id : NodeId} {node : Node} :
    s.node id = .ok node ↔ s.node? id = some node := by
  unfold Schema.node
  split <;> simp_all

end PropertyTables
