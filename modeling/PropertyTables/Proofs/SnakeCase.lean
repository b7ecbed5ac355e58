import PropertyTables.Proofs.Descent
import PropertyTables.Proofs.RootSymbol

/-!
# Names in snake case

The symbol of a path joins the names on it in camel case, and names as different as `a_b` and `aB`
can give the same symbol. Names in plain snake case cannot. In camel case each of their words starts
with the only capital of the word, so the words can be told apart again, and no underscore is left,
so the names can. The names on a path tell which path of a verified unit it is.

## Main definitions

* `Text.SnakeCase`: words of small letters and digits, joined by underscores.
-/

namespace PropertyTables

namespace Text

variable {c d : Char} {cs rest : List Char} {a b : String}

/-- A small letter, followed by small letters and digits. -/
def isWord : List Char → Bool
  | [] => false
  | c :: cs => c.isLower && cs.all fun d => d.isLower || d.isDigit

/-- A word, and any number of others with an underscore before each. -/
def SnakeCase (cs : List Char) : Prop :=
  ∃ (first : List Char) (others : List (List Char)), isWord first ∧ (∀ word ∈ others, isWord word) ∧
    cs = first ++ others.flatMap ('_' :: ·)

/-- Reads snake case from within a word. -/
def snakeRest : List Char → Bool
  | '_' :: c :: cs => c.isLower && snakeRest cs
  | c :: cs => (c.isLower || c.isDigit) && snakeRest cs
  | [] => true

/-- Reads snake case character by character. -/
def isSnakeCase : List Char → Bool
  | [] => false
  | c :: cs => c.isLower && snakeRest cs

/-! ## Reading words -/

theorem ne_underscore (h : c.isLower || c.isDigit) : c ≠ '_' := by
  rintro rfl
  exact absurd h (by decide)

theorem snakeRest_cons (h : c.isLower || c.isDigit) : snakeRest (c :: cs) = snakeRest cs := by
  rw [snakeRest]
  · simp [h]
  · rintro _ _ rfl
    exact absurd h (by decide)

theorem snakeRest_append (inWord : ∀ c ∈ cs, c.isLower || c.isDigit) :
    snakeRest (cs ++ rest) = snakeRest rest := by
  induction cs with
  | nil => rfl
  | cons c cs ih =>
    rw [List.forall_mem_cons] at inWord
    rw [List.cons_append, snakeRest_cons inWord.1, ih inWord.2]

theorem snakeRest_flatMap {words : List (List Char)} (each : ∀ word ∈ words, isWord word) :
    snakeRest (words.flatMap ('_' :: ·)) := by
  induction words with
  | nil => rfl
  | cons word words ih =>
    rw [List.forall_mem_cons] at each
    cases word with
    | nil => simp [isWord] at each
    | cons c cs =>
      have := ih each.2
      simp_all [isWord, snakeRest, snakeRest_append]

theorem exists_words_of_snakeRest (h : snakeRest cs) :
    ∃ (tail : List Char) (others : List (List Char)), (∀ c ∈ tail, c.isLower || c.isDigit) ∧
      (∀ word ∈ others, isWord word) ∧ cs = tail ++ others.flatMap ('_' :: ·) := by
  fun_induction snakeRest cs with
  | case1 c cs ih =>
    obtain ⟨isFirst, h⟩ := Bool.and_eq_true_iff.1 h
    obtain ⟨tail, others, inWord, each, rfl⟩ := ih h
    exact ⟨[], (c :: tail) :: others, by simp, by simp_all [isWord], by simp⟩
  | case2 c cs _ ih =>
    obtain ⟨inWord, h⟩ := Bool.and_eq_true_iff.1 h
    obtain ⟨tail, others, inTail, each, rfl⟩ := ih h
    exact ⟨c :: tail, others, List.forall_mem_cons.2 ⟨inWord, inTail⟩, each, rfl⟩
  | case3 => exact ⟨[], [], by simp, by simp, rfl⟩

theorem snakeCase_iff : SnakeCase cs ↔ isSnakeCase cs := by
  constructor
  · rintro ⟨first, others, isFirst, each, rfl⟩
    cases first with
    | nil => simp [isWord] at isFirst
    | cons c cs =>
      have := snakeRest_flatMap each
      simp_all [isWord, isSnakeCase, snakeRest_append]
  · intro h
    cases cs with
    | nil => simp [isSnakeCase] at h
    | cons c cs =>
      rw [isSnakeCase, Bool.and_eq_true] at h
      obtain ⟨tail, others, inWord, each, rfl⟩ := exists_words_of_snakeRest h.2
      exact ⟨c :: tail, others, by simpa [isWord, h.1] using inWord, each, rfl⟩

instance (cs : List Char) : Decidable (SnakeCase cs) := decidable_of_iff _ snakeCase_iff.symm

/-! ## Words in camel case -/

theorem ne_newline (h : c.isLower) : c ≠ '\n' := by
  rintro rfl
  exact absurd h (by decide)

/-- Puts an underscore before every capital and makes it small. -/
def uncamelize (cs : List Char) : List Char :=
  cs.flatMap fun c => if c.isUpper then ['_', c.toLower] else [c]

theorem camelizeRest_underscore (h : c.isLower) :
    camelizeRest ('_' :: c :: cs) = c.toUpper :: camelizeRest cs := by
  have range := isLower_iff.1 h
  rw [camelizeRest, if_neg (ne_newline h), upper_of_ascii (by omega)]
  rfl

theorem camelizeRest_cons (h : c ≠ '_') : camelizeRest (c :: cs) = c :: camelizeRest cs := by
  rw [camelizeRest]
  rintro _ _ rfl
  exact absurd rfl h

/-- In camel case there is a capital where a word starts, and nowhere else. -/
theorem uncamelize_camelizeRest (h : snakeRest cs) : uncamelize (camelizeRest cs) = cs := by
  fun_induction snakeRest cs with
  | case1 c cs ih =>
    obtain ⟨lower, h⟩ := Bool.and_eq_true_iff.1 h
    have ih : (camelizeRest cs).flatMap _ = cs := ih h
    rw [camelizeRest_underscore lower, uncamelize, List.flatMap_cons, ih,
      if_pos (isUpper_toUpper lower), toLower_toUpper lower]
    rfl
  | case2 c cs _ ih =>
    obtain ⟨inWord, h⟩ := Bool.and_eq_true_iff.1 h
    have ih : (camelizeRest cs).flatMap _ = cs := ih h
    rw [camelizeRest_cons (ne_underscore inWord), uncamelize, List.flatMap_cons, ih,
      if_neg (not_isUpper inWord)]
    rfl
  | case3 => rfl

theorem underscore_not_mem_camelizeRest (h : snakeRest cs) : '_' ∉ camelizeRest cs := by
  fun_induction snakeRest cs with
  | case1 c cs ih =>
    obtain ⟨lower, h⟩ := Bool.and_eq_true_iff.1 h
    rw [camelizeRest_underscore lower, List.mem_cons, not_or]
    refine ⟨fun same => ?_, ih h⟩
    have upper := isUpper_toUpper lower
    rw [← same] at upper
    exact absurd upper (by decide)
  | case2 c cs _ ih =>
    obtain ⟨inWord, h⟩ := Bool.and_eq_true_iff.1 h
    rw [camelizeRest_cons (ne_underscore inWord), List.mem_cons, not_or]
    exact ⟨(ne_underscore inWord).symm, ih h⟩
  | case3 => simp [camelizeRest]

/-- A name is written in camel case as if an underscore stood before it. -/
theorem SnakeCase.camelized (h : SnakeCase cs) :
    snakeRest ('_' :: cs) ∧ camelizeChars cs = camelizeRest ('_' :: cs) := by
  rw [snakeCase_iff] at h
  cases cs with
  | nil => simp [isSnakeCase] at h
  | cons c cs =>
    have lower := (Bool.and_eq_true_iff.1 h).1
    refine ⟨by simpa [isSnakeCase, snakeRest] using h, ?_⟩
    rw [camelizeChars, camelizeRest, if_neg (ne_newline lower), if_neg (ne_newline lower)]

theorem eq_of_camelize_eq (ha : SnakeCase a.toList) (hb : SnakeCase b.toList)
    (same : camelize a = camelize b) : a = b := by
  have same : camelizeChars a.toList = camelizeChars b.toList := String.ofList_injective same
  rw [ha.camelized.2, hb.camelized.2] at same
  have joined := congrArg uncamelize same
  rw [uncamelize_camelizeRest ha.camelized.1, uncamelize_camelizeRest hb.camelized.1] at joined
  exact String.toList_inj.1 (List.cons_injective joined)

theorem underscore_not_mem_camelize (ha : SnakeCase a.toList) : '_' ∉ (camelize a).toList := by
  rw [camelize, String.toList_ofList, ha.camelized.2]
  exact underscore_not_mem_camelizeRest ha.camelized.1

theorem eq_of_map_camelize_eq {names names' : List String}
    (snake : ∀ name ∈ names, SnakeCase name.toList)
    (snake' : ∀ name ∈ names', SnakeCase name.toList)
    (same : names.map camelize = names'.map camelize) : names = names' := by
  induction names generalizing names' with
  | nil => simpa [eq_comm] using same
  | cons name names ih =>
    cases names' with
    | nil => simp at same
    | cons name' names' =>
      rw [List.forall_mem_cons] at snake snake'
      rw [List.map_cons, List.map_cons, List.cons_eq_cons] at same
      rw [eq_of_camelize_eq snake.1 snake'.1 same.1, ih snake.2 snake'.2 same.2]

end Text

namespace Schema

variable {s : Schema} {unit : NodeId} {top fields fields' : List NodeId} {p q : Path}

/-- The names can be read back from the symbol: between underscores they stand in camel case. -/
theorem names_eq_of_symbol_eq (nonempty : fields ≠ []) (nonempty' : fields' ≠ [])
    (snake : ∀ id ∈ fields, Text.SnakeCase (s.name id).toList)
    (snake' : ∀ id ∈ fields', Text.SnakeCase (s.name id).toList)
    (same : s.symbol fields = s.symbol fields') : fields.map s.name = fields'.map s.name := by
  have parts {ids : List NodeId} (nonempty : ids ≠ [])
      (snake : ∀ id ∈ ids, Text.SnakeCase (s.name id).toList) :
      (s.symbol ids).toList.splitOn '_' =
        ((ids.map s.name).map Text.camelize).map String.toList := by
    have plain : ∀ part ∈ ((ids.map s.name).map Text.camelize).map String.toList, '_' ∉ part := by
      simpa using fun id hid => Text.underscore_not_mem_camelize (snake id hid)
    rw [← List.splitOn_intercalate '_' plain (by simpa using nonempty)]
    simp [symbol, nonempty, Function.comp_def]
  have same := (parts nonempty snake).symm.trans (same ▸ parts nonempty' snake')
  refine Text.eq_of_map_camelize_eq (by simpa using snake) (by simpa using snake') ?_
  exact List.map_injective_iff.2 (fun _ _ => String.toList_inj.1) same

/-- A verified unit whose fields have names in plain snake case has a handle table: no two of its
paths have the same symbol. -/
theorem handleTable_of_snakeCase (reachable : s.Reachable) (starts : s.StartsFrom unit top)
    (verified : s.verifyUnit unit = .ok ()) :
    ∃ ps, s.paths unit = .ok ps ∧
      ((∀ p ∈ ps, ∀ id ∈ p.fields, Text.SnakeCase (s.name id).toList) →
        (ps.map s.pathSymbol).Nodup ∧
          ∃ table, s.handleTable unit = .ok table ∧ table.paths = ps) := by
  obtain ⟨node, -, -, checked⟩ := verifyUnit_eq_ok.1 verified
  obtain ⟨ps, enumerated, -, once, -⟩ := reachable.orderly.exists_paths starts checked
  refine ⟨ps, enumerated, fun snake => ?_⟩
  have distinct : (ps.map s.pathSymbol).Nodup := by
    refine once.of_map.map_on fun p hp q hq same => ?_
    have leads {p : Path} (hp : p ∈ ps) := leads_of_mem_paths enumerated starts.topFields_eq hp
    refine (leads hp).eq_of_names_eq (leads hq) starts.topFields_eq checked ?_
    exact names_eq_of_symbol_eq p.fields_ne_nil q.fields_ne_nil (snake p hp) (snake q hq) same
  have rooted := rooted_of_verifySiblings starts checked
  rcases handleTable_outcome rooted starts enumerated with ⟨table, made, -⟩ | ⟨p, q, clash, -⟩
  · obtain ⟨listed, -⟩ := handleTable_eq_ok made
    exact ⟨distinct, table, made, Except.ok.inj (listed.symm.trans enumerated)⟩
  · exact absurd distinct clash.not_nodup

/-- A trait with a nested field that has nearly the symbol of another. -/
def porchSchema : Schema := Schema.empty.run [
  .declare "weave.trait.example" "PorchTrait" (.trait 2582),
  .attach 0 "lamp_id" (.field 1 {}),
  .attach 0 "lamp" (.field 2 {}),
  .attach 2 "id" (.field 1 {}),
  .attach 2 "zone2_code" (.field 2 {})]

theorem porchSchema_handleTable :
    porchSchema.verifyUnit 0 = .ok () ∧
      (∀ id ∈ [1, 2, 3, 4], Text.SnakeCase (porchSchema.name id).toList) ∧
      ∃ table, porchSchema.handleTable 0 = .ok table ∧
        table.paths = [⟨[], 1⟩, ⟨[], 2⟩, ⟨[2], 3⟩, ⟨[2], 4⟩] := by
  have reachable : porchSchema.Reachable := .run .empty _
  have unit : porchSchema.kind? 0 = some (.trait
      { qualifier := "weave.trait.example", state := [1, 2] }) := by decide +kernel
  have verified : porchSchema.verifyUnit 0 = .ok () := toOption_eq_some.1 (by decide +kernel)
  have listed : porchSchema.paths 0 = .ok [⟨[], 1⟩, ⟨[], 2⟩, ⟨[2], 3⟩, ⟨[2], 4⟩] :=
    toOption_eq_some.1 (by decide +kernel)
  obtain ⟨ps, enumerated, build⟩ := handleTable_of_snakeCase reachable (.trait unit) verified
  obtain rfl := Except.ok.inj (listed.symm.trans enumerated)
  obtain ⟨-, table, made, paths⟩ := build (by decide +kernel)
  exact ⟨verified, by decide +kernel, table, made, paths⟩

/-- A word that starts with a digit is not plain, and is not told apart. -/
example :
    let s := Schema.empty.run [.declare "" "A" (.trait 1), .attach 0 "zone2" (.field 1 {}),
      .attach 0 "zone_2" (.field 2 {})]
    (s.verifyUnit 0).toOption = some () ∧ (s.handleTable 0).toOption = none := by
  decide +kernel

end Schema

end PropertyTables
