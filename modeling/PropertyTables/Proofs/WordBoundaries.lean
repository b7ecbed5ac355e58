import Mathlib.Data.List.TakeWhile
import PropertyTables.Proofs.Letters

/-!
# Boundaries of words

Snake case puts underscores into a name in two rounds. The first finds acronyms, which are capitals
before the capital of a word, and the second finds the capitals after small letters and digits. Each
round takes matches from the left, every one as long as it can be, and goes on behind it. The two
rounds come to one pass that looks at a character and its neighbours. So no character is lost or
doubled, and a second time nothing is left to separate.

## Main definitions

* `Text.separateAt`: one round, for a given kind of match.
* `Text.acronym?`, `Text.wordEnd?`: the matches of the two rounds.
-/

namespace PropertyTables.Text

variable {c x y z : Char} {cs rest before after : List Char} {next : Option Char}

/-! ## Rounds -/

/-- Puts an underscore into every match, between its two parts. The first `skip` characters belong to
a match that was written before. -/
def separateAt (find : List Char → Option (List Char × List Char)) : Nat → List Char → List Char
  | _, [] => []
  | skip + 1, _ :: cs => separateAt find skip cs
  | 0, c :: cs =>
    match find (c :: cs) with
    | some (before, after) =>
      before ++ '_' :: after ++ separateAt find (before.length + after.length - 1) cs
    | none => c :: separateAt find 0 cs

/-- At most `most` characters, as many as can be, that a capital and a small letter follow. -/
def acronymWithin? (cs : List Char) : Nat → Option (List Char × List Char)
  | 0 => none
  | most + 1 =>
    match cs.drop (most + 1) with
    | y :: z :: _ =>
      if y.isUpper && z.isLower then some (cs.take (most + 1), [y, z])
      else acronymWithin? cs most
    | _ => acronymWithin? cs most

/-- Capitals, and behind them a capital and a small letter. -/
def acronym? (cs : List Char) : Option (List Char × List Char) :=
  acronymWithin? cs (cs.takeWhile Char.isUpper).length

/-- A small letter or a digit, and behind it a capital. -/
def wordEnd? : List Char → Option (List Char × List Char)
  | x :: y :: _ => if (x.isLower || isDecimalDigit x) && y.isUpper then some ([x], [y]) else none
  | _ => none

theorem separateAt_skip (find : List Char → Option (List Char × List Char)) (skip : Nat)
    (cs : List Char) : separateAt find skip cs = separateAt find 0 (cs.drop skip) := by
  induction cs generalizing skip with
  | nil => simp [separateAt]
  | cons c cs ih =>
    cases skip with
    | zero => rfl
    | succ skip => rw [separateAt, ih, List.drop_succ_cons]

theorem separateAt_of_none {find : List Char → Option (List Char × List Char)}
    (h : find (c :: cs) = none) : separateAt find 0 (c :: cs) = c :: separateAt find 0 cs := by
  rw [separateAt, h]

/-- Behind a match the round goes on with what is left. -/
theorem separateAt_of_some {find : List Char → Option (List Char × List Char)}
    (found : find cs = some (before, after)) (split : cs = before ++ after ++ rest)
    (nonempty : before ≠ []) :
    separateAt find 0 cs = before ++ '_' :: after ++ separateAt find 0 rest := by
  obtain ⟨x, before, rfl⟩ := List.exists_cons_of_ne_nil nonempty
  have left : separateAt find (before.length + after.length) (before ++ after ++ rest) =
      separateAt find 0 rest := by
    rw [separateAt_skip, ← List.length_append, List.drop_left]
  subst split
  rw [List.cons_append, List.cons_append] at found ⊢
  rw [separateAt, found, ← left]
  simp

/-! ## One pass in place of a round -/

/-- Puts an underscore wherever a character, the next one and the one behind that ask for it. -/
def separateWhere (boundary : Char → Char → Option Char → Bool) : List Char → List Char
  | x :: y :: rest =>
    if boundary x y rest.head? then x :: '_' :: separateWhere boundary (y :: rest)
    else x :: separateWhere boundary (y :: rest)
  | cs => cs

def endsAcronym (x y : Char) (next : Option Char) : Bool :=
  x.isUpper && y.isUpper && next.any Char.isLower

def endsWord (x y : Char) (_ : Option Char) : Bool :=
  (x.isLower || isDecimalDigit x) && y.isUpper

theorem separateWhere_of_not {boundary : Char → Char → Option Char → Bool}
    (h : ∀ y rest, cs = y :: rest → ¬ boundary x y rest.head?) :
    separateWhere boundary (x :: cs) = x :: separateWhere boundary cs := by
  cases cs with
  | nil => rfl
  | cons y rest => rw [separateWhere, if_neg (h y rest rfl)]

theorem exists_separateWhere_cons (boundary : Char → Char → Option Char → Bool) (x : Char)
    (cs : List Char) : ∃ tail, separateWhere boundary (x :: cs) = x :: tail := by
  cases cs with
  | nil => exact ⟨[], rfl⟩
  | cons y rest =>
    rw [separateWhere]
    split
    · exact ⟨_, rfl⟩
    · exact ⟨_, rfl⟩

/-- Where there are no two characters, there is one or none. -/
theorem eq_nil_or_singleton (short : ∀ x y rest, cs = x :: y :: rest → False) :
    cs = [] ∨ ∃ c, cs = [c] := by
  rcases cs with _ | ⟨x, _ | ⟨y, rest⟩⟩
  · exact .inl rfl
  · exact .inr ⟨x, rfl⟩
  · exact (short x y rest rfl).elim

theorem separateWhere_startsWord (cs : List Char) :
    separateWhere startsWord cs = separateWords cs := by
  fun_induction separateWords cs with
  | case1 x y rest starts ih => rw [separateWhere, if_pos starts, ih]
  | case2 x y rest starts ih => rw [separateWhere, if_neg starts, ih]
  | case3 cs short =>
    rw [separateWhere]
    exact short

theorem exists_separateWords_cons (x : Char) (cs : List Char) :
    ∃ tail, separateWords (x :: cs) = x :: tail := by
  rw [← separateWhere_startsWord]
  exact exists_separateWhere_cons startsWord x cs

theorem not_isDecimalDigit_of_isUpper (h : x.isUpper) : isDecimalDigit x = false := by
  have range := isUpper_iff.1 h
  rw [isDecimalDigit_of_ascii (by omega)]
  grind [isDigit_iff]

theorem not_isLower_of_isUpper (h : x.isUpper) : x.isLower = false := by
  grind [isLower_iff, isUpper_iff]

/-! ## Acronyms -/

theorem exists_of_acronymWithin? {most : Nat} (h : acronymWithin? cs most = some (before, after)) :
    ∃ length y z rest, length < most ∧ cs.drop (length + 1) = y :: z :: rest ∧ y.isUpper ∧
      z.isLower ∧ before = cs.take (length + 1) ∧ after = [y, z] := by
  fun_induction acronymWithin? cs most with
  | case1 => cases h
  | case2 most y z rest split both =>
    cases h
    obtain ⟨upper, lower⟩ := Bool.and_eq_true_iff.1 both
    exact ⟨most, y, z, rest, Nat.lt_succ_self most, split, upper, lower, rfl, rfl⟩
  | case3 most y z rest split both ih =>
    obtain ⟨length, y, z, rest, less, found⟩ := ih h
    exact ⟨length, y, z, rest, Nat.lt_succ_of_lt less, found⟩
  | case4 most split ih =>
    obtain ⟨length, y, z, rest, less, found⟩ := ih h
    exact ⟨length, y, z, rest, Nat.lt_succ_of_lt less, found⟩

theorem acronymWithin?_ne_none {most : Nat} (positive : 0 < most) (upper : y.isUpper)
    (lower : z.isLower) : acronymWithin? (x :: y :: z :: rest) most ≠ none := by
  induction most with
  | zero => cases positive
  | succ most ih =>
    cases most with
    | zero => simp [acronymWithin?, upper, lower]
    | succ most =>
      have shorter := ih (Nat.succ_pos most)
      rw [acronymWithin?]
      split
      · split
        · simp
        · exact shorter
      · exact shorter

/-- A match of the first round has capitals up to a small letter. -/
theorem exists_of_acronym? (h : acronym? cs = some (before, after)) :
    ∃ y z rest, cs = before ++ [y, z] ++ rest ∧ after = [y, z] ∧ before ≠ [] ∧
      (∀ c ∈ before, c.isUpper) ∧ y.isUpper ∧ z.isLower := by
  obtain ⟨length, y, z, rest, less, split, upper, lower, rfl, rfl⟩ := exists_of_acronymWithin? h
  have run : cs.take (length + 1) = (cs.takeWhile Char.isUpper).take (length + 1) := by
    rw [← List.take_append_of_le_length less, List.takeWhile_append_dropWhile]
  refine ⟨y, z, rest, ?_, rfl, ?_, ?_, upper, lower⟩
  · rw [List.append_assoc, List.cons_append, List.cons_append, List.nil_append, ← split,
      List.take_append_drop]
  · intro empty
    cases cs with
    | nil => simp at split
    | cons c cs => simp at empty
  · intro c hc
    rw [run] at hc
    exact List.mem_takeWhile_imp (List.mem_of_mem_take hc)

theorem acronym?_ne_none (first : x.isUpper) (upper : y.isUpper) (lower : z.isLower) :
    acronym? (x :: y :: z :: rest) ≠ none := by
  refine acronymWithin?_ne_none ?_ upper lower
  rw [List.takeWhile_cons_of_pos first]
  exact Nat.succ_pos _

/-- One pass puts the underscore of an acronym where the round does, and no other into it. -/
theorem separateWhere_acronym (nonempty : before ≠ []) (run : ∀ c ∈ before, c.isUpper)
    (upper : y.isUpper) (lower : z.isLower) :
    separateWhere endsAcronym (before ++ [y, z] ++ rest) =
      before ++ '_' :: [y, z] ++ separateWhere endsAcronym rest := by
  have small : ¬ z.isUpper := not_isUpper (by simp [lower])
  have word : separateWhere endsAcronym (y :: z :: rest) =
      y :: z :: separateWhere endsAcronym rest := by
    rw [separateWhere_of_not, separateWhere_of_not]
    · simp [endsAcronym, small]
    · simp [endsAcronym, small]
  induction before with
  | nil => exact absurd rfl nonempty
  | cons x before ih =>
    rw [List.forall_mem_cons] at run
    cases before with
    | nil =>
      have boundary : endsAcronym x y (some z) := by simp [endsAcronym, run.1, upper, lower]
      change separateWhere endsAcronym (x :: y :: z :: rest) =
        x :: '_' :: y :: z :: separateWhere endsAcronym rest
      rw [separateWhere, List.head?_cons, if_pos boundary, word]
    | cons x' before =>
      -- The character after the next one is a capital still.
      have inside : ¬ endsAcronym x x' (before ++ [y, z] ++ rest).head? := by
        cases before with
        | nil => simp [endsAcronym, not_isLower_of_isUpper upper]
        | cons w before =>
          have capital : w.isUpper := run.2 w (by simp)
          simp [endsAcronym, not_isLower_of_isUpper capital]
      have ih := ih (by simp) run.2
      simp only [List.cons_append] at ih ⊢
      rw [separateWhere, if_neg inside, ih]

theorem separateAt_acronym? (cs : List Char) :
    separateAt acronym? 0 cs = separateWhere endsAcronym cs := by
  match cs with
  | [] => rfl
  | c :: cs =>
    cases found : acronym? (c :: cs) with
    | none =>
      rw [separateAt_of_none found, separateAt_acronym? cs, separateWhere_of_not]
      rintro y rest rfl boundary
      obtain ⟨⟨first, upper⟩, lower⟩ : (c.isUpper ∧ y.isUpper) ∧ rest.head?.any Char.isLower := by
        simpa [endsAcronym] using boundary
      cases rest with
      | nil => simp at lower
      | cons z rest => exact acronym?_ne_none first upper (by simpa using lower) found
    | some parts =>
      obtain ⟨before, after⟩ := parts
      obtain ⟨y, z, rest, split, rfl, nonempty, run, upper, lower⟩ := exists_of_acronym? found
      have shorter : rest.length < (c :: cs).length := by
        simp [split]
        omega
      rw [separateAt_of_some found split nonempty, split,
        separateWhere_acronym nonempty run upper lower, separateAt_acronym? rest]
termination_by cs.length
decreasing_by
  · exact Nat.lt_succ_self cs.length
  · exact shorter

/-! ## Ends of words -/

theorem separateAt_wordEnd? (cs : List Char) :
    separateAt wordEnd? 0 cs = separateWhere endsWord cs := by
  match cs with
  | [] => rfl
  | [c] => rfl
  | x :: y :: rest =>
    by_cases boundary : endsWord x y rest.head?
    · have found : wordEnd? (x :: y :: rest) = some ([x], [y]) := if_pos boundary
      have capital : y.isUpper := (Bool.and_eq_true_iff.1 boundary).2
      have inside : separateWhere endsWord (y :: rest) = y :: separateWhere endsWord rest := by
        refine separateWhere_of_not fun z rest _ => ?_
        simp [endsWord, not_isLower_of_isUpper capital, not_isDecimalDigit_of_isUpper capital]
      rw [separateAt_of_some found rfl (by simp), separateAt_wordEnd? rest, separateWhere,
        if_pos boundary, inside]
      rfl
    · have found : wordEnd? (x :: y :: rest) = none := if_neg boundary
      rw [separateAt_of_none found, separateAt_wordEnd? (y :: rest), separateWhere,
        if_neg boundary]
termination_by cs.length

/-! ## Both rounds -/

theorem startsWord_eq (x y : Char) (next : Option Char) :
    startsWord x y next = (endsAcronym x y next || endsWord x y next) := by
  rw [startsWord, endsAcronym, endsWord]
  cases x.isUpper <;> cases y.isUpper <;> simp [Bool.or_comm]

theorem separateWhere_underscore (x : Char) (cs : List Char) :
    separateWhere endsWord (x :: '_' :: cs) = x :: '_' :: separateWhere endsWord cs := by
  rw [separateWhere_of_not, separateWhere_of_not]
  · simp [endsWord, isDecimalDigit_underscore]
  · simp [endsWord]

/-- The second round takes no notice of the underscores that the first has put. -/
theorem separateWhere_endsWord (cs : List Char) :
    separateWhere endsWord (separateWhere endsAcronym cs) = separateWords cs := by
  fun_induction separateWords cs with
  | case1 x y rest starts ih =>
    obtain ⟨tail, split⟩ := exists_separateWhere_cons endsAcronym y rest
    rw [split] at ih
    rw [startsWord_eq, Bool.or_eq_true] at starts
    rw [separateWhere, split]
    by_cases acronym : endsAcronym x y rest.head?
    · rw [if_pos acronym, separateWhere_underscore, ih]
    · have boundary : endsWord x y tail.head? := starts.resolve_left acronym
      rw [if_neg acronym, separateWhere, if_pos boundary, ih]
  | case2 x y rest starts ih =>
    obtain ⟨tail, split⟩ := exists_separateWhere_cons endsAcronym y rest
    rw [split] at ih
    rw [startsWord_eq, Bool.or_eq_true, not_or] at starts
    have boundary : ¬ endsWord x y tail.head? := starts.2
    rw [separateWhere, split, if_neg starts.1, separateWhere, if_neg boundary, ih]
  | case3 cs short =>
    obtain rfl | ⟨c, rfl⟩ := eq_nil_or_singleton short <;> rfl

/-- Both rounds together are one pass. -/
theorem separateWords_eq (cs : List Char) :
    separateWords cs = separateAt wordEnd? 0 (separateAt acronym? 0 cs) := by
  rw [separateAt_wordEnd?, separateAt_acronym?, separateWhere_endsWord]

/-! ## Snake case -/

/-- Nothing but underscores is put into a text. -/
theorem filter_separateWords {p : Char → Bool} (h : p '_' = false) (cs : List Char) :
    (separateWords cs).filter p = cs.filter p := by
  fun_induction separateWords cs with
  | case1 x y rest _ ih =>
    rw [List.filter_cons, List.filter_cons_of_neg (by simp [h]), ih, ← List.filter_cons]
  | case2 x y rest _ ih => rw [List.filter_cons, ih, ← List.filter_cons]
  | case3 cs => rfl

theorem mem_separateWords (h : c ∈ separateWords cs) : c ∈ cs ∨ c = '_' := by
  by_cases separator : c = '_'
  · exact .inr separator
  · have kept : c ∈ (separateWords cs).filter (· ≠ '_') := by simp [h, separator]
    rw [filter_separateWords (by simp)] at kept
    exact .inl (List.mem_filter.1 kept).1

theorem IsAscii.separateWords (ascii : IsAscii cs) : IsAscii (separateWords cs) := by
  intro c hc
  rcases mem_separateWords hc with hc | rfl
  · exact ascii c hc
  · decide

/-- Without capitals there is one word. -/
theorem separateWords_of_not_isUpper (h : ∀ c ∈ cs, ¬ c.isUpper) : separateWords cs = cs := by
  fun_induction separateWords cs with
  | case1 x y rest starts _ =>
    have capital : y.isUpper := (Bool.and_eq_true_iff.1 starts).1
    exact absurd capital (h y (by simp))
  | case2 x y rest _ ih =>
    rw [ih fun c hc => h c (List.mem_cons_of_mem x hc)]
  | case3 cs => rfl

/-- A character in snake case. -/
def underscoreChar (c : Char) : Char := if c = '-' then '_' else c.toLower

theorem underscoreChar_eq_self (h : ¬ c.isUpper) (notDash : c ≠ '-') : underscoreChar c = c := by
  rw [underscoreChar, if_neg notDash, toLower_eq_self h]

theorem underscoreChar_plain (c : Char) :
    ¬ (underscoreChar c).isUpper ∧ underscoreChar c ≠ '-' := by
  rw [underscoreChar]
  split
  · decide
  · rename_i notDash
    exact ⟨not_isUpper_toLower c, (toLower_eq_iff (by decide)).not.2 notDash⟩

theorem underscoreChar_eq_underscore : underscoreChar c = '_' ↔ c = '-' ∨ c = '_' := by
  rw [underscoreChar]
  split
  · simp [*]
  · rw [toLower_eq_iff (by decide)]
    simp [*]

theorem underscoreChars_of_ascii (ascii : IsAscii cs) :
    underscoreChars cs = (separateWords cs).map underscoreChar := by
  have dashless : IsAscii ((separateWords cs).map fun c => if c = '-' then '_' else c) := by
    intro c hc
    obtain ⟨d, hd, rfl⟩ := List.mem_map.1 hc
    split
    · decide
    · exact ascii.separateWords d hd
  rw [underscoreChars, lowerAll_of_ascii dashless, List.map_map]
  refine List.map_congr_left fun c _ => ?_
  rw [Function.comp_apply, underscoreChar]
  split
  · decide
  · rfl

theorem IsAscii.underscoreChars (ascii : IsAscii cs) : IsAscii (underscoreChars cs) := by
  rw [underscoreChars_of_ascii ascii]
  intro c hc
  obtain ⟨d, hd, rfl⟩ := List.mem_map.1 hc
  rw [underscoreChar]
  split
  · decide
  · exact toNat_toLower_lt (ascii.separateWords d hd)

theorem underscoreChars_plain (ascii : IsAscii cs) (h : c ∈ underscoreChars cs) :
    ¬ c.isUpper ∧ c ≠ '-' := by
  rw [underscoreChars_of_ascii ascii] at h
  obtain ⟨d, -, rfl⟩ := List.mem_map.1 h
  exact underscoreChar_plain d

theorem filter_underscoreChars (ascii : IsAscii cs) :
    (underscoreChars cs).filter (· ≠ '_') =
      (cs.filter fun c => c ≠ '-' ∧ c ≠ '_').map Char.toLower := by
  have kept : ((fun c => decide (c ≠ '_')) ∘ underscoreChar) =
      fun c => decide (c ≠ '-' ∧ c ≠ '_') := by
    funext c
    simp [underscoreChar_eq_underscore]
  rw [underscoreChars_of_ascii ascii, List.filter_map, kept, filter_separateWords (by simp)]
  refine List.map_congr_left fun c hc => ?_
  have notDash : c ≠ '-' := by grind
  rw [underscoreChar, if_neg notDash]

theorem underscoreChars_eq_self (ascii : IsAscii cs) (plain : ∀ c ∈ cs, ¬ c.isUpper ∧ c ≠ '-') :
    underscoreChars cs = cs := by
  rw [underscoreChars_of_ascii ascii, separateWords_of_not_isUpper fun c hc => (plain c hc).1]
  calc cs.map underscoreChar = cs.map id :=
        List.map_congr_left fun c hc => underscoreChar_eq_self (plain c hc).1 (plain c hc).2
    _ = cs := List.map_id cs

/-- A name of ASCII characters in snake case has an underscore wherever one of the two rounds finds
a boundary. It has no capitals and no dashes. Without its underscores it is the name in small
letters without dashes and underscores, and in snake case it is itself. -/
theorem underscore_exact {s : String} (ascii : IsAscii s.toList) :
    underscore s = String.ofList
        ((separateAt wordEnd? 0 (separateAt acronym? 0 s.toList)).map underscoreChar) ∧
      (∀ c ∈ (underscore s).toList, ¬ c.isUpper ∧ c ≠ '-') ∧
      (underscore s).toList.filter (· ≠ '_') =
        (s.toList.filter fun c => c ≠ '-' ∧ c ≠ '_').map Char.toLower ∧
      underscore (underscore s) = underscore s := by
  have chars : (underscore s).toList = underscoreChars s.toList := String.toList_ofList
  have plain : ∀ c ∈ underscoreChars s.toList, ¬ c.isUpper ∧ c ≠ '-' :=
    fun c hc => underscoreChars_plain ascii hc
  refine ⟨?_, ?_, ?_, ?_⟩
  · rw [← separateWords_eq, ← underscoreChars_of_ascii ascii, underscore]
  · rwa [chars]
  · rw [chars]
    exact filter_underscoreChars ascii
  · have again := underscoreChars_eq_self ascii.underscoreChars plain
    rw [underscore, chars, again, underscore]

theorem underscore_acronym :
    IsAscii "HTTPServer2Go-live_X".toList ∧
      underscore "HTTPServer2Go-live_X" = "http_server2_go_live_x" ∧
      underscore "http_server2_go_live_x" = "http_server2_go_live_x" := by
  have ascii : IsAscii "HTTPServer2Go-live_X".toList := by decide
  have spelled : underscore "HTTPServer2Go-live_X" = "http_server2_go_live_x" := by decide +kernel
  obtain ⟨-, -, -, again⟩ := underscore_exact ascii
  rw [spelled] at again
  exact ⟨ascii, spelled, again⟩

end PropertyTables.Text
