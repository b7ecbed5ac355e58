import Mathlib.Data.List.Chain
import PropertyTables.Constant
import PropertyTables.Proofs.WordBoundaries

/-!
# The name of a group before a constant

The symbol of a constant is its name in capitals without the name of its group before it. The two
names are put into capitals one by one. A constant that was written behind the name of its group in
capitals is put into capitals once more as a whole, and this can separate more words: a capital
after a digit starts a word, but a small letter after a digit does not. So the name of a group is
found again exactly when it has no small letter after a digit.

## Main definitions

* `Text.DigitsEndWords`: no small letter is directly after a digit.
-/

namespace PropertyTables

namespace Text

variable {c x y : Char} {cs xs ys rest : List Char}

/-- Only capitals and what is no letter are directly after a digit. -/
def DigitsEndWords (cs : List Char) : Prop := cs.IsChain fun x y => x.isDigit → ¬ y.isLower

instance (cs : List Char) : Decidable (DigitsEndWords cs) :=
  inferInstanceAs (Decidable (cs.IsChain fun x y => x.isDigit → ¬ y.isLower))

/-! ## Names in capitals -/

/-- A character in a name in capitals. -/
def screamingChar (c : Char) : Char := if c = '-' then '_' else c.toUpper

theorem screamingChars_of_ascii (ascii : IsAscii cs) :
    screamingChars cs = (separateWords cs).map screamingChar := by
  rw [screamingChars, upperAll_of_ascii ascii.underscoreChars, underscoreChars_of_ascii ascii,
    List.map_map]
  refine List.map_congr_left fun c _ => ?_
  rw [Function.comp_apply, underscoreChar, screamingChar]
  split
  · decide
  · exact toUpper_toLower c

theorem screamingChar_plain (c : Char) :
    ¬ (screamingChar c).isLower ∧ screamingChar c ≠ '-' := by
  rw [screamingChar]
  split
  · decide
  · rename_i notDash
    exact ⟨not_isLower_toUpper c, (toUpper_eq_iff (by decide)).not.2 notDash⟩

/-- Neither small letters nor dashes. -/
def InCapitals (cs : List Char) : Prop := ∀ c ∈ cs, ¬ c.isLower ∧ c ≠ '-'

instance (cs : List Char) : Decidable (InCapitals cs) :=
  List.decidableBAll (fun c : Char => ¬ c.isLower ∧ c ≠ '-') cs

theorem inCapitals_screamingChars (ascii : IsAscii cs) : InCapitals (screamingChars cs) := by
  intro c hc
  rw [screamingChars_of_ascii ascii] at hc
  obtain ⟨d, -, rfl⟩ := List.mem_map.1 hc
  exact screamingChar_plain d

theorem IsAscii.screamingChars (ascii : IsAscii cs) : IsAscii (screamingChars cs) := by
  rw [screamingChars_of_ascii ascii]
  intro c hc
  obtain ⟨d, hd, rfl⟩ := List.mem_map.1 hc
  rw [screamingChar]
  split
  · decide
  · exact toNat_toUpper_lt (ascii.separateWords d hd)

/-- In capitals already, a name is only separated. -/
theorem InCapitals.screamingChars_eq (capitals : InCapitals cs) (ascii : IsAscii cs) :
    screamingChars cs = separateWords cs := by
  rw [screamingChars_of_ascii ascii]
  calc (separateWords cs).map screamingChar = (separateWords cs).map id := by
        refine List.map_congr_left fun c hc => ?_
        rcases mem_separateWords hc with hc | rfl
        · obtain ⟨notLower, notDash⟩ := capitals c hc
          rw [screamingChar, if_neg notDash, toUpper_eq_self notLower, id]
        · decide
    _ = separateWords cs := List.map_id _

/-! ## Names behind an underscore -/

theorem startsWord_underscore (y : Char) (next : Option Char) : startsWord '_' y next = false := by
  simp [startsWord, isDecimalDigit_underscore]

theorem separateWords_underscore (cs : List Char) :
    separateWords ('_' :: cs) = '_' :: separateWords cs := by
  cases cs with
  | nil => rfl
  | cons y rest => simp [separateWords, startsWord_underscore]

/-- An underscore keeps the words before it apart from those behind it. -/
theorem separateWords_append (xs ys : List Char) :
    separateWords (xs ++ '_' :: ys) = separateWords xs ++ '_' :: separateWords ys := by
  have same (x y : Char) (rest : List Char) :
      startsWord x y (rest ++ '_' :: ys).head? = startsWord x y rest.head? := by
    cases rest <;> simp [startsWord]
  fun_induction separateWords xs with
  | case1 x y rest starts ih =>
    rw [List.cons_append, List.cons_append, separateWords, same, if_pos starts]
    exact congrArg (x :: '_' :: ·) ih
  | case2 x y rest starts ih =>
    rw [List.cons_append, List.cons_append, separateWords, same, if_neg starts]
    exact congrArg (x :: ·) ih
  | case3 cs short =>
    obtain rfl | ⟨x, rfl⟩ := eq_nil_or_singleton short
    · exact separateWords_underscore ys
    · have boundary : ¬ startsWord x '_' ys.head? := by simp [startsWord]
      rw [List.singleton_append, separateWords, if_neg boundary, separateWords_underscore,
        List.singleton_append]

theorem screamingChars_append (asciiLeft : IsAscii xs) (asciiRight : IsAscii ys) :
    screamingChars (xs ++ '_' :: ys) = screamingChars xs ++ '_' :: screamingChars ys := by
  have ascii : IsAscii (xs ++ '_' :: ys) := by
    intro c hc
    rcases List.mem_append.1 hc with hc | hc
    · exact asciiLeft c hc
    · rcases List.mem_cons.1 hc with rfl | hc
      · decide
      · exact asciiRight c hc
  rw [screamingChars_of_ascii ascii, screamingChars_of_ascii asciiLeft,
    screamingChars_of_ascii asciiRight, separateWords_append, List.map_append, List.map_cons]
  rfl

/-! ## Names in capitals twice -/

/-- A word that starts inside a name shows before the end of the name. -/
theorem separateWords_eq_of_prefix (h : cs ++ ['_'] <+: separateWords cs ++ rest) :
    separateWords cs = cs := by
  fun_induction separateWords cs with
  | case1 x y tail starts ih =>
    have capital : y.isUpper := (Bool.and_eq_true_iff.1 starts).1
    obtain ⟨rfl, -⟩ : y = '_' ∧ _ := by simpa using h
    exact absurd capital (by decide)
  | case2 x y tail starts ih =>
    rw [ih (by simpa using h)]
  | case3 cs => rfl

/-- In capitals, words start behind digits only. -/
theorem InCapitals.startsWord_eq (capitals : InCapitals (x :: y :: rest)) (ascii : x.toNat < 0x80) :
    startsWord x y rest.head? = (x.isDigit && y.isUpper) := by
  have first : x.isLower = false := by simpa using (capitals x (by simp)).1
  have third : rest.head?.any Char.isLower = false := by
    cases rest with
    | nil => rfl
    | cons z rest => simpa using (capitals z (by simp)).1
  simp [startsWord, first, third, isDecimalDigit_of_ascii ascii, Bool.and_comm]

theorem InCapitals.separateWords_eq_iff (capitals : InCapitals cs) (ascii : IsAscii cs) :
    separateWords cs = cs ↔ cs.IsChain fun x y => x.isDigit → ¬ y.isUpper := by
  fun_induction separateWords cs with
  | case1 x y rest starts ih =>
    rw [capitals.startsWord_eq (ascii x (by simp)), Bool.and_eq_true] at starts
    refine iff_of_false ?_ ?_
    · intro same
      obtain ⟨rfl, -⟩ : '_' = y ∧ _ := by simpa using same
      exact absurd starts.2 (by decide)
    · intro chain
      exact (List.isChain_cons_cons.1 chain).1 starts.1 starts.2
  | case2 x y rest starts ih =>
    rw [capitals.startsWord_eq (ascii x (by simp)), Bool.and_eq_true, not_and] at starts
    rw [List.isChain_cons_cons, List.cons_eq_cons, and_iff_right rfl, and_iff_right starts]
    exact ih (fun c hc => capitals c (List.mem_cons_of_mem x hc))
      fun c hc => ascii c (List.mem_cons_of_mem x hc)
  | case3 cs short =>
    obtain rfl | ⟨c, rfl⟩ := eq_nil_or_singleton short <;> simp

theorem isDigit_screamingChar (c : Char) : (screamingChar c).isDigit = c.isDigit := by
  rw [screamingChar]
  split
  · rename_i dash
    subst dash
    decide
  · exact isDigit_toUpper c

theorem isUpper_screamingChar : (screamingChar c).isUpper ↔ c.isUpper ∨ c.isLower := by
  rw [screamingChar]
  split
  · rename_i dash
    subst dash
    decide
  · exact isUpper_toUpper_iff

/-- Capitals behind digits in a name in capitals were small letters behind digits. -/
theorem isChain_screamingChars (ascii : IsAscii cs) :
    (screamingChars cs).IsChain (fun x y => x.isDigit → ¬ y.isUpper) ↔ DigitsEndWords cs := by
  rw [screamingChars_of_ascii ascii, List.isChain_map, DigitsEndWords]
  simp only [isDigit_screamingChar, isUpper_screamingChar]
  fun_induction separateWords cs with
  | case1 x y rest starts ih =>
    obtain ⟨tail, split⟩ := exists_separateWords_cons y rest
    have capital : y.isUpper := (Bool.and_eq_true_iff.1 starts).1
    have ih := ih fun c hc => ascii c (List.mem_cons_of_mem x hc)
    rw [split] at ih ⊢
    rw [List.isChain_cons_cons, List.isChain_cons_cons, List.isChain_cons_cons, ih]
    simp [not_isLower_of_isUpper capital]
  | case2 x y rest starts ih =>
    obtain ⟨tail, split⟩ := exists_separateWords_cons y rest
    have ih := ih fun c hc => ascii c (List.mem_cons_of_mem x hc)
    have notCapital : x.isDigit → ¬ y.isUpper := by
      intro digit capital
      exact starts (by simp [startsWord, isDecimalDigit, digit, capital])
    rw [split] at ih ⊢
    rw [List.isChain_cons_cons, List.isChain_cons_cons, ih]
    grind
  | case3 cs short =>
    obtain rfl | ⟨c, rfl⟩ := eq_nil_or_singleton short <;> simp

/-- A name is in capitals for good unless a small letter was directly after a digit. -/
theorem screamingChars_screamingChars (ascii : IsAscii cs) :
    screamingChars (screamingChars cs) = screamingChars cs ↔ DigitsEndWords cs := by
  have capitals := inCapitals_screamingChars ascii
  rw [capitals.screamingChars_eq ascii.screamingChars,
    capitals.separateWords_eq_iff ascii.screamingChars, isChain_screamingChars ascii]

end Text

open Text

/-! ## Symbols of constants -/

variable {group rest : List Char}

theorem stripFront?_append (front cs : List Char) : stripFront? front (front ++ cs) = some cs := by
  simp [stripFront?]

theorem stripFront?_eq_none {front cs : List Char} (h : ¬ front <+: cs) :
    stripFront? front cs = none := by
  simpa [stripFront?] using h

/-- A constant behind the name of its group in capitals, both once more in capitals. -/
theorem screamingChars_prefixed (asciiGroup : IsAscii group) (asciiRest : IsAscii rest)
    (capitals : screamingChars rest = rest) :
    screamingChars (screamingChars group ++ '_' :: rest) =
      screamingChars (screamingChars group) ++ '_' :: rest := by
  rw [screamingChars_append asciiGroup.screamingChars asciiRest, capitals]

theorem constantSymbolChars_of_digitsEndWords (asciiGroup : IsAscii group)
    (asciiRest : IsAscii rest) (nonempty : rest ≠ []) (capitals : screamingChars rest = rest)
    (stable : DigitsEndWords group) :
    constantSymbolChars group (screamingChars group ++ '_' :: rest) = rest := by
  obtain ⟨c, rest, rfl⟩ := List.exists_cons_of_ne_nil nonempty
  have name := screamingChars_prefixed asciiGroup asciiRest capitals
  rw [(screamingChars_screamingChars asciiGroup).2 stable] at name
  have found : stripFront? (screamingChars group ++ ['_'])
      (screamingChars group ++ '_' :: c :: rest) = some (c :: rest) := by
    simpa using stripFront?_append (screamingChars group ++ ['_']) (c :: rest)
  rw [constantSymbolChars, name, found]

/-- Where the name of the group in capitals is not stable, it is not found before the constant. -/
theorem constantSymbolChars_of_not_digitsEndWords (asciiGroup : IsAscii group)
    (asciiRest : IsAscii rest) (capitals : screamingChars rest = rest)
    (unstable : ¬ DigitsEndWords group) :
    constantSymbolChars group (screamingChars group ++ '_' :: rest) =
      screamingChars (screamingChars group) ++ '_' :: rest := by
  have name := screamingChars_prefixed asciiGroup asciiRest capitals
  have absent : ¬ screamingChars group ++ ['_'] <+:
      screamingChars (screamingChars group) ++ '_' :: rest := by
    intro found
    rw [(inCapitals_screamingChars asciiGroup).screamingChars_eq asciiGroup.screamingChars] at found
    have same := separateWords_eq_of_prefix found
    refine unstable ((screamingChars_screamingChars asciiGroup).1 ?_)
    rwa [(inCapitals_screamingChars asciiGroup).screamingChars_eq asciiGroup.screamingChars]
  rw [constantSymbolChars, name, stripFront?_eq_none absent]

/-- A constant that is written behind the name of its group in capitals has what is behind as its
symbol exactly when the name of the group has no small letter directly after a digit. Otherwise the
name of the group is separated once more and stays. -/
theorem constantSymbol_prefixed {group rest : String} (asciiGroup : IsAscii group.toList)
    (asciiRest : IsAscii rest.toList) (nonempty : rest ≠ "") (capitals : screaming rest = rest) :
    (constantSymbol group (screaming group ++ "_" ++ rest) = rest ↔
      DigitsEndWords group.toList) ∧
    (¬ DigitsEndWords group.toList → constantSymbol group (screaming group ++ "_" ++ rest) =
      screaming (screaming group) ++ "_" ++ rest) := by
  have chars : (screaming group ++ "_" ++ rest).toList =
      screamingChars group.toList ++ '_' :: rest.toList := by
    simp [screaming]
  have again : (screaming (screaming group) ++ "_" ++ rest).toList =
      screamingChars (screamingChars group.toList) ++ '_' :: rest.toList := by
    simp [screaming]
  have nonempty : rest.toList ≠ [] := by simpa using nonempty
  have capitals : screamingChars rest.toList = rest.toList := by
    simpa [screaming] using congrArg String.toList capitals
  have kept (unstable : ¬ DigitsEndWords group.toList) :
      (constantSymbol group (screaming group ++ "_" ++ rest)).toList =
        screamingChars (screamingChars group.toList) ++ '_' :: rest.toList := by
    rw [constantSymbol, String.toList_ofList, chars]
    exact constantSymbolChars_of_not_digitsEndWords asciiGroup asciiRest capitals unstable
  refine ⟨⟨?_, ?_⟩, ?_⟩
  · intro stripped
    by_contra unstable
    have length := congrArg List.length (kept unstable)
    rw [stripped, List.length_append, List.length_cons] at length
    omega
  · intro stable
    rw [← String.toList_inj, constantSymbol, String.toList_ofList, chars]
    exact constantSymbolChars_of_digitsEndWords asciiGroup asciiRest nonempty capitals stable
  · intro unstable
    rw [← String.toList_inj, kept unstable, again]

theorem zone2Area_prefixed :
    IsAscii "Zone2Area".toList ∧ IsAscii "MAIN_2".toList ∧ screaming "MAIN_2" = "MAIN_2" ∧
      DigitsEndWords "Zone2Area".toList ∧
      constantSymbol "Zone2Area" ("ZONE2_AREA" ++ "_" ++ "MAIN_2") = "MAIN_2" := by
  have asciiGroup : IsAscii "Zone2Area".toList := by decide
  have asciiRest : IsAscii "MAIN_2".toList := by decide
  have capitals : screaming "MAIN_2" = "MAIN_2" := by decide +kernel
  have stable : DigitsEndWords "Zone2Area".toList := by decide
  have spelled : screaming "Zone2Area" = "ZONE2_AREA" := by decide +kernel
  have stripped := (constantSymbol_prefixed asciiGroup asciiRest (by decide) capitals).1.2 stable
  rw [spelled] at stripped
  exact ⟨asciiGroup, asciiRest, capitals, stable, stripped⟩

/-- A small letter after a digit is a capital in the name of the group, and starts a word there when
the constant is put into capitals. -/
theorem rs485bus_kept :
    IsAscii "Rs485bus".toList ∧ IsAscii "MAIN".toList ∧ screaming "MAIN" = "MAIN" ∧
      screaming "Rs485bus" = "RS485BUS" ∧
      constantSymbol "Rs485bus" (screaming "Rs485bus" ++ "_" ++ "MAIN") = "RS485_BUS_MAIN" ∧
      constantSymbol "Rs485bus" (screaming "Rs485bus" ++ "_" ++ "MAIN") ≠ "MAIN" := by
  decide +kernel

end PropertyTables
