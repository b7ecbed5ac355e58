import PropertyTables.Proofs.FieldGraph
import PropertyTables.Proofs.Siblings

/-!
# Paths of a verified unit

The fields below a field, or at the top of a unit, all stand in one list of children. So the check
of siblings covers every field on a path, and tells two paths with the same enclosing path apart by
the name and by the number of their last field.
-/

namespace PropertyTables.Schema

variable {s : Schema} {unit id parent : NodeId} {name : String} {top : List NodeId} {p q : Path}

theorem childLists_of_kind? {kind : Kind} (found : s.kind? id = some kind) :
    s.childLists id = kind.childLists := by
  simp [childLists, found]

theorem kind?_of_trait? {t : Trait} (h : s.trait? id = some t) : s.kind? id = some (.trait t) := by
  obtain ⟨kind, found, htrait⟩ := Option.bind_eq_some_iff.1 h
  cases kind <;> simp_all [Kind.trait?]

/-- The top-level fields of a unit are one of its lists, if there are any. -/
theorem topFields_listed (starts : s.topFields unit = .ok top) :
    top = [] ∨ ∃ label, ⟨label, top⟩ ∈ s.childLists unit := by
  obtain ⟨node, found, h⟩ := bind_eq_ok.1 starts
  rw [node_eq_ok] at found
  have lists : s.childLists unit = node.kind.childLists :=
    childLists_of_kind? (by simp [kind?, found])
  cases hkind : node.kind with
  | trait t =>
    obtain rfl : t.state = top := by simpa [hkind] using h
    exact .inr ⟨"state_list", by simp [lists, hkind, Kind.childLists]⟩
  | struct t =>
    obtain rfl : t.fields = top := by simpa [hkind] using h
    exact .inr ⟨"field_list", by simp [lists, hkind, Kind.childLists]⟩
  | typespace t => exact .inl (by simpa [hkind, eq_comm] using h)
  | _ => simp [hkind] at h

/-- The fields directly below a field stand together in one of its lists: a map has its value there
and any other field its members. -/
theorem followers_listed (h : s.Follows id parent) :
    ∃ list ∈ s.childLists parent, ∀ other, s.Follows other parent → other ∈ list.ids := by
  obtain ⟨f, found⟩ := h.exists_field
  have lists := childLists_of_kind? (kind?_of_field? found)
  rcases (follows_iff found).1 h with ⟨isMap, hvalue⟩ | ⟨⟨isMap, -⟩, -⟩
  · refine ⟨⟨"map_value", [id]⟩, by simp [lists, Kind.childLists, hvalue], fun other hother => ?_⟩
    have same : id = other := by simpa [isMap, hvalue] using (follows_iff found).1 hother
    simp [same]
  · refine ⟨⟨"field_list", f.members⟩, by simp [lists, Kind.childLists], fun other hother => ?_⟩
    rw [follows_iff found] at hother
    simp_all

/-- The check of a unit covers the last field of each of its paths. -/
theorem Leads.verified (leads : s.Leads top p) (starts : s.topFields unit = .ok top)
    (verified : s.verifySiblings name unit = .ok ()) : s.verifySiblings name p.last = .ok () := by
  induction leads with
  | @start id listed =>
    rcases topFields_listed starts with rfl | ⟨label, hlist⟩
    · simp at listed
    · exact (((verifySiblings_eq_ok.1 verified).2 _ hlist).1 id listed).2
  | @step p id above below ih =>
    obtain ⟨list, hlist, covers⟩ := followers_listed below
    exact (((verifySiblings_eq_ok.1 ih).2 list hlist).1 id (covers id below)).2

/-- Below the same enclosing path, what differs within every list tells paths apart by their last
fields. -/
theorem Leads.eq_of_last {β : Type} {f : NodeId → β}
    (distinct : ∀ {id : NodeId} {list : ChildList}, s.verifySiblings name id = .ok () →
      list ∈ s.childLists id → (list.ids.map f).Nodup)
    (hp : s.Leads top p) (hq : s.Leads top q) (starts : s.topFields unit = .ok top)
    (verified : s.verifySiblings name unit = .ok ()) (enclosing : p.enclosing = q.enclosing)
    (same : f p.last = f q.last) : p = q := by
  cases hp with
  | @start a ha =>
    cases hq with
    | @start b hb =>
      rcases topFields_listed starts with rfl | ⟨label, hlist⟩
      · simp at ha
      · exact congrArg Path.single (List.inj_on_of_nodup_map (distinct verified hlist) ha hb same)
    | @step q b _ _ => simp at enclosing
  | @step p a above ha =>
    cases hq with
    | @start b hb => simp at enclosing
    | @step q b _ hb =>
      obtain rfl : p = q := Path.fields_injective enclosing
      obtain ⟨list, hlist, covers⟩ := followers_listed ha
      have distinct := distinct (above.verified starts verified) hlist
      exact congrArg p.child (List.inj_on_of_nodup_map distinct (covers a ha) (covers b hb) same)

theorem Leads.eq_of_number_eq (hp : s.Leads top p) (hq : s.Leads top q)
    (starts : s.topFields unit = .ok top) (verified : s.verifySiblings name unit = .ok ())
    (enclosing : p.enclosing = q.enclosing) (number : s.number p.last = s.number q.last) :
    p = q :=
  hp.eq_of_last (fun checked hlist => ((verifySiblings_eq_ok.1 checked).2 _ hlist).2.2) hq starts
    verified enclosing number

/-- The names on a path tell which path it is: where two paths part, they go on to different fields
of one list. -/
theorem Leads.eq_of_names_eq (hp : s.Leads top p) (hq : s.Leads top q)
    (starts : s.topFields unit = .ok top) (verified : s.verifySiblings name unit = .ok ())
    (names : p.fields.map s.name = q.fields.map s.name) : p = q := by
  have part {p q : Path} (hp : s.Leads top p) (hq : s.Leads top q)
      (enclosing : p.enclosing = q.enclosing) (same : s.name p.last = s.name q.last) : p = q :=
    hp.eq_of_last (fun checked hlist => ((verifySiblings_eq_ok.1 checked).2 _ hlist).2.1) hq starts
      verified enclosing same
  induction hp generalizing q with
  | start listed =>
    cases hq with
    | start listed' => exact part (.start listed) (.start listed') rfl (by simpa using names)
    | step => simp [Path.fields, List.singleton_eq_append_iff] at names
  | @step p id above below ih =>
    cases hq with
    | start => simp [Path.fields, List.append_eq_singleton_iff] at names
    | @step q id' above' below' =>
      rw [Path.fields_child, Path.fields_child, List.map_append, List.map_append] at names
      obtain ⟨front, last⟩ := List.append_inj' names rfl
      obtain rfl := ih above' front
      exact part (above.step below) (above.step below') rfl (by simpa using last)

end PropertyTables.Schema
