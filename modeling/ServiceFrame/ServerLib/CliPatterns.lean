import ServiceFrame.ServerLib.CliBuffers

/-! # Which pattern a line is taken for

The stars of a pattern are searched for in a text that already has words of the line in it, from a
place that is reckoned with the length of the word before, and not of the one put in. Word by word
it can be said which stars are found so, and from that which lines are answered as they should be.
-/

namespace ServiceFrame

open Foundation

variable {Target Proc : Type}

namespace CCliServerHelper

/-! ## Stars, word by word -/

/-- A word that stands for a parameter. -/
abbrev place : List UInt8 := [42]

/-- What becomes of the words of a pattern. -/
structure Scanned where
  words : List (List UInt8)
  /-- The words of the line in the places that have been found. -/
  found : List (List UInt8)
  /-- The search has come to a star inside such a word. -/
  late : Bool
  deriving DecidableEq

/-- The words of a pattern and of a line behind the one `before`. The search for the next star
begins `skip` bytes behind that one's end. -/
def scan (before : List UInt8) (skip : Nat) : List (List UInt8) → List (List UInt8) → Scanned
  | word :: pattern, given :: line =>
      if word = place ∧ skip ≤ 1 then
        if 42 ∈ given.drop (before.length + 1) then ⟨given :: pattern, [given], true⟩
        else
          let later := scan given (before.length + 1 - given.length) pattern line
          ⟨given :: later.words, given :: later.found, later.late⟩
      else
        let later := scan given (skip - (word.length + 1)) pattern line
        { later with words := word :: later.words }
  | pattern, _ => ⟨pattern, [], false⟩

/-- Words with a space before each. -/
def spaced (words : List (List UInt8)) : List UInt8 := words.flatMap (32 :: ·)

/-- A word of a line in the place of a word of a pattern. -/
def FitsWord (word given : List UInt8) : Prop := word = place ∨ word = given

/-- The words in the places of the stars. -/
def parameters (pattern line : List (List UInt8)) : List (List UInt8) :=
  ((pattern.zip line).filter (·.1 = place)).map Prod.snd

section Scan

theorem spaced_cons (word : List UInt8) (words : List (List UInt8)) :
    spaced (word :: words) = 32 :: (word ++ spaced words) := rfl

/-- What has no star is skipped. -/
theorem findStar_skip {front mid : List UInt8} {skip : Nat} (hmid : 42 ∉ mid.drop skip)
    (back : List UInt8) :
    findStar (front ++ mid ++ back) (front.length + skip) =
      findStar (front ++ mid ++ back) ((front ++ mid).length + (skip - mid.length)) := by
  by_cases hskip : mid.length ≤ skip
  · congr 1
    rw [List.length_append]
    omega
  · have hnone : (mid.drop skip).findIdx? (· = 42) = none := by
      rw [List.findIdx?_eq_none_iff]
      intro byte hbyte
      exact decide_eq_false fun hstar => hmid (hstar ▸ hbyte)
    have hdrop : (front ++ mid ++ back).drop (front.length + skip) = mid.drop skip ++ back := by
      rw [List.append_assoc, List.drop_length_add_append, List.drop_append_of_le_length (by omega)]
    rw [findStar, findStar, hdrop, Nat.sub_eq_zero_of_le (by omega), Nat.add_zero, List.drop_left,
      List.findIdx?_append, hnone, Option.none_or, Option.map_map, List.length_append,
      List.length_drop]
    congr 1
    funext index
    simp only [Function.comp_apply]
    omega

/-- The star right behind the space. -/
theorem findStar_place (front back : List UInt8) {skip : Nat} (hskip : skip ≤ 1) :
    findStar (front ++ 32 :: 42 :: back) (front.length + skip) = some (front.length + 1) := by
  rw [findStar, List.drop_length_add_append]
  interval_cases skip <;> simp [List.findIdx?_cons]

/-- A star inside the word that has been put in: no space stands before it. -/
theorem findStar_late {front word : List UInt8} {skip : Nat} (hskip : 0 < skip)
    (hlate : 42 ∈ word.drop skip) (hspace : 32 ∉ word) (back : List UInt8) :
    ∃ pos, findStar (front ++ (word ++ back)) (front.length + skip) = some pos ∧
      ∀ k, pos = k + 1 → (front ++ (word ++ back))[k]? ≠ some 32 := by
  have hsize : skip < word.length := by
    by_contra hless
    rw [List.drop_eq_nil_of_le (Nat.le_of_not_lt hless)] at hlate
    exact List.not_mem_nil hlate
  have hdrop : (front ++ (word ++ back)).drop (front.length + skip) = word.drop skip ++ back := by
    rw [List.drop_length_add_append, List.drop_append_of_le_length (Nat.le_of_lt hsize)]
  cases hindex : (word.drop skip).findIdx? (· = 42) with
  | none =>
      rw [List.findIdx?_eq_none_iff] at hindex
      exact absurd rfl (of_decide_eq_false (hindex 42 hlate))
  | some index =>
      have hless := (List.findIdx?_eq_some_iff_getElem.mp hindex).1
      rw [List.length_drop] at hless
      refine ⟨front.length + skip + index, ?_, fun k hk hat => ?_⟩
      · rw [findStar, hdrop, List.findIdx?_append, hindex]
        rfl
      · have hinside : k - front.length < word.length := by omega
        rw [List.getElem?_append_right (by omega), List.getElem?_append_left hinside] at hat
        exact hspace (List.mem_of_getElem? hat)

theorem append_spaced (front word back : List UInt8) :
    front ++ 32 :: (word ++ back) = front ++ 32 :: word ++ back := by
  rw [List.append_assoc, List.cons_append]

/-- A word behind its space is skipped when it has no star that the search could find. -/
theorem findStar_word {front word : List UInt8} {skip : Nat} (hstar : 42 ∉ (32 :: word).drop skip)
    (back : List UInt8) :
    findStar (front ++ 32 :: (word ++ back)) (front.length + skip) =
      findStar (front ++ 32 :: (word ++ back))
        ((front ++ 32 :: word).length + (skip - (word.length + 1))) := by
  have hskip := @findStar_skip front (32 :: word) skip hstar back
  rwa [List.length_cons, ← append_spaced] at hskip

/-- So is a word of a pattern in which no place is found. -/
theorem notMem_drop_word {word : List UInt8} {skip : Nat} (hword : 42 ∈ word → word = place)
    (hpass : ¬ (word = place ∧ skip ≤ 1)) : 42 ∉ (32 :: word).drop skip := by
  intro hstar
  rcases List.mem_cons.mp (List.mem_of_mem_drop hstar) with hspace | hinside
  · exact absurd hspace (by decide)
  · have hplace := hword hinside
    have hdone : (32 :: word).drop skip = [] := by
      apply List.drop_eq_nil_of_le
      rw [hplace]
      exact Nat.lt_of_not_le fun hless => hpass ⟨hplace, hless⟩
    rw [hdone] at hstar
    exact List.not_mem_nil hstar

variable {words init rest : List (List UInt8)} {before given front : List UInt8}

/-- At a place that is found, the word of the line is put in. -/
theorem revertLoop_place (hwords : words = init ++ before :: given :: rest)
    (hfront : front.count 32 = init.length) (hsize : words.length + 1 < 2 ^ 32) {skip : Nat}
    (hskip : skip ≤ 1) (line back : List UInt8) (turns uParamCnt : Nat) (slots : List Nat) :
    words.getD (init.length + 1) [] = given ∧
      revertLoop (line :: words) (turns + 1) ⟨front ++ 32 :: 42 :: back, uParamCnt, slots⟩
          (findStar (front ++ 32 :: 42 :: back) (front.length + skip)) =
        revertLoop (line :: words) turns
          ⟨front ++ 32 :: (given ++ back), uParamCnt + 1, slots ++ [init.length + 1]⟩
          (findStar (front ++ 32 :: (given ++ back)) (front.length + 1 + before.length + 1)) := by
  have hgivenAt : words[init.length + 1]? = some given := by
    rw [hwords, List.getElem?_append_right (Nat.le_succ _), Nat.succ_sub (Nat.le_refl _),
      Nat.sub_self]
    rfl
  have hbeforeAt : words[init.length]? = some before := by
    rw [hwords, List.getElem?_append_right (Nat.le_refl _), Nat.sub_self]
    rfl
  have hless := (List.getElem?_eq_some_iff.mp hgivenAt).1
  constructor
  · rw [List.getD_eq_getElem?_getD, hgivenAt]
    rfl
  · rw [findStar_place front _ hskip, revertLoop_step turns uParamCnt _ slots (by omega)
      (hfront ▸ hgivenAt : (line :: words)[front.count 32 + 2]? = some given)
      (hfront ▸ hbeforeAt : (line :: words)[front.count 32 + 1]? = some before), hfront]

/-- The search ends at a star inside the word that has been put in. -/
theorem revertLoop_late (hlate : 42 ∈ given.drop (before.length + 1)) (hspace : 32 ∉ given)
    (vecSubCmdLine : List (List UInt8)) (back : List UInt8) (turns uParamCnt : Nat)
    (slots : List Nat) :
    revertLoop vecSubCmdLine (turns + 1) ⟨front ++ 32 :: (given ++ back), uParamCnt, slots⟩
        (findStar (front ++ 32 :: (given ++ back)) (front.length + 1 + before.length + 1)) =
      some ⟨front ++ 32 :: (given ++ back), uParamCnt + 1, slots⟩ := by
  obtain ⟨pos, hpos, hnospace⟩ := @findStar_late (front ++ [32]) given
    (before.length + 1) (Nat.succ_pos _) hlate hspace back
  rw [List.append_assoc, List.singleton_append, List.length_append,
    List.length_singleton, ← Nat.add_assoc] at hpos
  rw [List.append_assoc, List.singleton_append] at hnospace
  rw [hpos, revertLoop_stop _ _ _ hnospace]

/-- Word by word, what the loop over the stars makes of a pattern. -/
theorem revertLoop_scan {line : List UInt8} {pattern : List (List UInt8)}
    (hwords : words = init ++ before :: rest) (hfront : front.count 32 = init.length)
    (hlength : pattern.length = rest.length)
    (hpattern : ∀ word ∈ pattern, 32 ∉ word ∧ (42 ∈ word → word = place))
    (hrest : ∀ word ∈ rest, 32 ∉ word) (hsize : words.length + 1 < 2 ^ 32)
    {turns : Nat} (hturns : pattern.length < turns) (skip uParamCnt : Nat) (slots : List Nat) :
    ∃ more, revertLoop (line :: words) turns ⟨front ++ spaced pattern, uParamCnt, slots⟩
        (findStar (front ++ spaced pattern) (front.length + skip)) =
      some ⟨front ++ spaced (scan before skip pattern rest).words,
        uParamCnt + ((scan before skip pattern rest).found.length +
          (scan before skip pattern rest).late.toNat), slots ++ more⟩ ∧
      more.map (fun slot => words.getD slot []) = (scan before skip pattern rest).found := by
  -- the search has passed `front`, whose spaces count the words of the line up to `before`
  induction pattern generalizing init before rest front turns skip uParamCnt slots with
  | nil =>
      have hnone : findStar (front ++ spaced []) (front.length + skip) = none := by
        rw [findStar, List.drop_length_add_append, spaced, List.flatMap_nil, List.drop_nil]
        rfl
      have hempty : rest = [] := List.eq_nil_of_length_eq_zero hlength.symm
      refine ⟨[], ?_, by rw [hempty]; rfl⟩
      rw [hnone, revertLoop, List.append_nil, hempty]
      rfl
  | cons word pattern ih =>
      cases rest with
      | nil => cases hlength
      | cons given rest =>
          have hnew : 32 ∉ given := hrest given List.mem_cons_self
          have hword := hpattern word List.mem_cons_self
          have hmore : words = (init ++ [before]) ++ given :: rest := by
            rw [hwords, List.append_cons]
          have hcount : ∀ mid : List UInt8, 32 ∉ mid →
              (front ++ 32 :: mid).count 32 = (init ++ [before]).length := fun mid hmid => by
            rw [List.count_append, List.count_cons_self, List.count_eq_zero.mpr hmid, hfront,
              List.length_append, List.length_singleton]
          have hlater := fun mid hmid turns (hturns : pattern.length < turns) =>
            ih hmore (hcount mid hmid) (Nat.succ.inj hlength)
              (fun word hword => hpattern word (List.mem_cons_of_mem _ hword))
              (fun word hword => hrest word (List.mem_cons_of_mem _ hword)) hturns
          rw [List.length_cons] at hturns
          rw [spaced_cons, scan]
          by_cases hfound : word = place ∧ skip ≤ 1
          · obtain ⟨rfl, hskip⟩ := hfound
            obtain ⟨turns, rfl⟩ := Nat.exists_eq_succ_of_ne_zero (Nat.ne_zero_of_lt hturns)
            -- a place: its word is put in, and the next search begins behind the length of `before`
            obtain ⟨hslot, hplace⟩ := revertLoop_place hwords hfront hsize hskip line
              (spaced pattern) turns uParamCnt slots
            rw [List.singleton_append, hplace, if_pos ⟨rfl, hskip⟩]
            split
            next hlate =>
              obtain ⟨turns, rfl⟩ := Nat.exists_eq_succ_of_ne_zero
                (Nat.ne_zero_of_lt (Nat.lt_of_succ_lt_succ hturns))
              exact ⟨[init.length + 1], revertLoop_late hlate hnew _ _ turns _ _,
                congrArg (· :: []) hslot⟩
            next hearly =>
              -- what is left of that length behind the word is skipped in the words behind it
              obtain ⟨more, hloop, hslots⟩ := hlater given hnew turns (by omega)
                (before.length + 1 - given.length) (uParamCnt + 1) (slots ++ [init.length + 1])
              have hstart : front.length + 1 + before.length + 1 =
                  front.length + (before.length + 1 + 1) := by omega
              refine ⟨(init.length + 1) :: more, ?_, ?_⟩
              · have hbehind := @findStar_word front given (before.length + 1 + 1) hearly
                rw [hstart, hbehind, Nat.add_sub_add_right, append_spaced, hloop, spaced_cons,
                  append_spaced, List.append_assoc slots, List.length_cons, Nat.add_assoc uParamCnt,
                  ← Nat.add_assoc 1, Nat.add_comm 1]
                rfl
              · rw [List.map_cons, hslot, hslots]
          · obtain ⟨more, hloop, hslots⟩ := hlater word hword.1 turns (by omega)
              (skip - (word.length + 1)) uParamCnt slots
            refine ⟨more, ?_, ?_⟩
            · rw [findStar_word (notMem_drop_word hword.2 hfound), append_spaced, hloop,
                if_neg hfound, spaced_cons, append_spaced]
            · rw [hslots, if_neg hfound]

/-- What is made of a pattern are words of the pattern and of the line. -/
theorem mem_scan_words {before : List UInt8} {skip : Nat} {pattern line : List (List UInt8)}
    {word : List UInt8} (hword : word ∈ (scan before skip pattern line).words) :
    word ∈ pattern ∨ word ∈ line := by
  fun_induction scan before skip pattern line with
  | case1 =>
      rcases List.mem_cons.mp hword with rfl | hword
      · exact Or.inr List.mem_cons_self
      · exact Or.inl (List.mem_cons_of_mem _ hword)
  | case2 _ _ _ _ _ _ _ _ _ ih =>
      rcases List.mem_cons.mp hword with rfl | hword
      · exact Or.inr List.mem_cons_self
      · exact (ih hword).imp (List.mem_cons_of_mem _) (List.mem_cons_of_mem _)
  | case3 _ _ _ _ _ _ _ _ ih =>
      rcases List.mem_cons.mp hword with rfl | hword
      · exact Or.inl List.mem_cons_self
      · exact (ih hword).imp (List.mem_cons_of_mem _) (List.mem_cons_of_mem _)
  | case4 => exact Or.inl hword

theorem parameters_place (pattern line : List (List UInt8)) (given : List UInt8) :
    parameters (place :: pattern) (given :: line) = given :: parameters pattern line := rfl

theorem parameters_literal {word : List UInt8} (hword : word ≠ place)
    (pattern line : List (List UInt8)) (given : List UInt8) :
    parameters (word :: pattern) (given :: line) = parameters pattern line := by
  rw [parameters, List.zip_cons_cons, List.filter_cons_of_neg (by simpa using hword)]
  rfl

/-- They are words of the line. -/
theorem mem_parameters {pattern line : List (List UInt8)} {given : List UInt8}
    (hgiven : given ∈ parameters pattern line) : given ∈ line := by
  obtain ⟨⟨word, same⟩, hpair, rfl⟩ := List.mem_map.mp hgiven
  exact (List.of_mem_zip (List.mem_of_mem_filter hpair)).2

/-- No more places are found than there are. -/
theorem length_found_le (before : List UInt8) (skip : Nat) (pattern line : List (List UInt8)) :
    (scan before skip pattern line).found.length ≤ pattern.count place := by
  fun_induction scan before skip pattern line with
  | case1 before skip word pattern given line hfound hlate =>
      rw [hfound.1, List.count_cons_self, List.length_singleton]
      exact Nat.le_add_left 1 _
  | case2 before skip word pattern given line hfound hlate later ih =>
      rw [hfound.1, List.count_cons_self, List.length_cons]
      exact Nat.succ_le_succ ih
  | case3 before skip word pattern given line hpass later ih =>
      exact ih.trans (List.count_le_count_cons)
  | case4 => exact Nat.zero_le _

/-- When all are found, no word is a place that has been passed over. -/
theorem ne_place_of_all {before word : List UInt8} {skip : Nat} {pattern line : List (List UInt8)}
    (hall : (scan before skip pattern line).found.length = (word :: pattern).count place) :
    word ≠ place := by
  rintro rfl
  have hless := length_found_le before skip pattern line
  rw [hall, List.count_cons_self] at hless
  exact Nat.not_succ_le_self _ hless

/-- When all are found, and the search ends at none inside a word, the words are the parameters. -/
theorem found_eq_parameters {before : List UInt8} {skip : Nat} {pattern line : List (List UInt8)}
    (hlength : pattern.length = line.length) (hlate : (scan before skip pattern line).late = false)
    (hall : (scan before skip pattern line).found.length = pattern.count place) :
    (scan before skip pattern line).found = parameters pattern line := by
  fun_induction scan before skip pattern line with
  | case1 before skip word pattern given line hfound hstar => cases hlate
  | case2 before skip word pattern given line hfound hstar later ih =>
      rw [hfound.1, List.count_cons_self] at hall
      rw [hfound.1, parameters_place, ih (Nat.succ.inj hlength) hlate (Nat.succ.inj hall)]
  | case3 before skip word pattern given line hpass later ih =>
      have hword : word ≠ place := ne_place_of_all hall
      rw [List.count_cons_of_ne hword] at hall
      rw [parameters_literal hword]
      exact ih (Nat.succ.inj hlength) hlate hall
  | case4 before skip pattern line hother =>
      cases pattern with
      | nil => rfl
      | cons word pattern =>
          cases line with
          | nil => cases hlength
          | cons given line => exact (hother word pattern given line rfl rfl).elim

/-- Then the words of a pattern that the line fits become those of the line. -/
theorem words_of_found {before : List UInt8} {skip : Nat} {pattern line : List (List UInt8)}
    (hfits : List.Forall₂ FitsWord pattern line)
    (hlate : (scan before skip pattern line).late = false)
    (hall : (scan before skip pattern line).found.length = pattern.count place) :
    (scan before skip pattern line).words = line := by
  fun_induction scan before skip pattern line with
  | case1 before skip word pattern given line hfound hstar => cases hlate
  | case2 before skip word pattern given line hfound hstar later ih =>
      rw [hfound.1, List.count_cons_self] at hall
      rw [ih (List.forall₂_cons.mp hfits).2 hlate (Nat.succ.inj hall)]
  | case3 before skip word pattern given line hpass later ih =>
      have hword : word ≠ place := ne_place_of_all hall
      obtain ⟨hfit, hrest⟩ := List.forall₂_cons.mp hfits
      rw [List.count_cons_of_ne hword] at hall
      rw [ih hrest hlate hall, hfit.resolve_left hword]
  | case4 before skip pattern line hother =>
      cases hfits with
      | nil => rfl
      | cons => exact (hother _ _ _ _ rfl rfl).elim

/-- A pattern that has become the line has its words where no word is put in. -/
theorem fits_of_scan {before : List UInt8} {skip : Nat} {pattern line : List (List UInt8)}
    (hlength : pattern.length = line.length)
    (hsame : (scan before skip pattern line).words = line) :
    List.Forall₂ FitsWord pattern line := by
  fun_induction scan before skip pattern line with
  | case1 before skip word pattern given line hfound hstar =>
      rw [List.tail_eq_of_cons_eq hsame]
      exact .cons (Or.inl hfound.1) (List.forall₂_same.mpr fun word _ => Or.inr rfl)
  | case2 before skip word pattern given line hfound hstar later ih =>
      exact .cons (Or.inl hfound.1) (ih (Nat.succ.inj hlength) (List.tail_eq_of_cons_eq hsame))
  | case3 before skip word pattern given line hpass later ih =>
      exact .cons (Or.inr (List.head_eq_of_cons_eq hsame))
        (ih (Nat.succ.inj hlength) (List.tail_eq_of_cons_eq hsame))
  | case4 before skip pattern line hother =>
      cases hsame
      exact List.forall₂_same.mpr fun word _ => Or.inr rfl

end Scan

/-! ## The whole pattern -/

/-- A pattern and a line, which have a first word each. -/
def scanned (line strCmd : List UInt8) : Scanned :=
  match strCmd.splitOn 32, line.splitOn 32 with
  | first :: pattern, given :: rest =>
      let later := scan given 0 pattern rest
      { later with words := first :: later.words }
  | _, _ => ⟨[], [], false⟩

/-- The pattern has as many words as the line, and the same ones where no word is put in. -/
structure Taken (line strCmd : List UInt8) : Prop where
  size : (strCmd.splitOn 32).length = (line.splitOn 32).length
  same : (scanned line strCmd).words = line.splitOn 32

/-- The words of a pattern: the first is literal, and a star is a word of its own. -/
structure Shaped (strCmd : List UInt8) : Prop where
  words : ∀ word ∈ strCmd.splitOn 32, word ≠ [] ∧ (42 ∈ word → word = place)
  literal : (strCmd.splitOn 32).head? ≠ some place

section Whole

variable {line strCmd : List UInt8} {reverted : Reverted}

theorem intercalate_spaced (first : List UInt8) (words : List (List UInt8)) :
    [32].intercalate (first :: words) = first ++ spaced words := by
  induction words generalizing first with
  | nil => rw [List.intercalate_singleton, spaced, List.flatMap_nil, List.append_nil]
  | cons word rest ih =>
      rw [List.intercalate_cons_cons, ih, spaced_cons, List.append_assoc]
      rfl

theorem scanned_eq (line strCmd : List UInt8) :
    ∃ first pattern given rest, strCmd.splitOn 32 = first :: pattern ∧
      line.splitOn 32 = given :: rest ∧
      scanned line strCmd = ⟨first :: (scan given 0 pattern rest).words,
        (scan given 0 pattern rest).found, (scan given 0 pattern rest).late⟩ := by
  obtain ⟨first, pattern, hpattern⟩ := List.exists_cons_of_ne_nil (List.splitOn_ne_nil 32 strCmd)
  obtain ⟨given, rest, hgiven⟩ := List.exists_cons_of_ne_nil (List.splitOn_ne_nil 32 line)
  refine ⟨first, pattern, given, rest, hpattern, hgiven, ?_⟩
  rw [scanned, hpattern, hgiven]

theorem Shaped.first_ne (hshaped : Shaped strCmd) {first : List UInt8}
    {pattern : List (List UInt8)} (hpattern : strCmd.splitOn 32 = first :: pattern) :
    first ≠ place := by
  have hliteral := hshaped.literal
  rw [hpattern] at hliteral
  exact fun hsame => hliteral (congrArg some hsame)

/-- The loop over the stars leaves the scanned words, and the slots of those it has found. -/
theorem revert_scanned (hshaped : Shaped strCmd)
    (hlength : (strCmd.splitOn 32).length = (line.splitOn 32).length)
    (hsize : (line.splitOn 32).length + 1 < 2 ^ 32) :
    ∃ slots, revert (line :: line.splitOn 32) strCmd =
        some ⟨[32].intercalate (scanned line strCmd).words,
          (scanned line strCmd).found.length + (scanned line strCmd).late.toNat, slots⟩ ∧
      slots.map (fun slot => (line.splitOn 32).getD slot []) = (scanned line strCmd).found := by
  have hcount := @length_splitOn 32 strCmd
  have htext : [32].intercalate (strCmd.splitOn 32) = strCmd := List.intercalate_splitOn 32
  have hspace : ∀ word ∈ strCmd.splitOn 32, 32 ∉ word := fun word hword => (mem_splitOn hword).1
  have hline : ∀ word ∈ line.splitOn 32, 32 ∉ word := fun word hword => (mem_splitOn hword).1
  have hwords := hshaped.words
  obtain ⟨first, pattern, given, rest, hpattern, hgiven, hscanned⟩ := scanned_eq line strCmd
  rw [hpattern, intercalate_spaced] at htext
  rw [hpattern] at hcount hspace hwords hlength
  rw [hgiven] at hline hlength hsize
  have hstar : 42 ∉ first := fun hmem =>
    hshaped.first_ne hpattern ((hwords first List.mem_cons_self).2 hmem)
  have hstart : findStar (first ++ spaced pattern) 0 =
      findStar (first ++ spaced pattern) (first.length + 0) := by
    have hskip := @findStar_skip [] first 0 hstar (spaced pattern)
    rwa [List.nil_append, Nat.zero_sub] at hskip
  have hturns : pattern.length < strCmd.count 32 + 1 := by
    rw [← hcount]
    exact Nat.lt_succ_self _
  obtain ⟨slots, hloop, hslots⟩ := @revertLoop_scan (given :: rest) [] rest given first line pattern
    rfl (List.count_eq_zero.mpr (hspace first List.mem_cons_self)) (Nat.succ.inj hlength)
    (fun word hword => ⟨hspace word (List.mem_cons_of_mem _ hword),
      (hwords word (List.mem_cons_of_mem _ hword)).2⟩)
    (fun word hword => hline word (List.mem_cons_of_mem _ hword)) hsize _ hturns 0 0 []
  rw [hscanned, hgiven]
  refine ⟨slots, ?_, hslots⟩
  rw [revert, intercalate_spaced]
  rw [Nat.zero_add, List.nil_append] at hloop
  rw [← hloop, ← hstart, htext]

theorem length_scanned_found_le (hshaped : Shaped strCmd) :
    (scanned line strCmd).found.length ≤ (strCmd.splitOn 32).count place := by
  obtain ⟨first, pattern, given, rest, hpattern, -, hscanned⟩ := scanned_eq line strCmd
  rw [hscanned, hpattern, List.count_cons_of_ne (hshaped.first_ne hpattern)]
  exact length_found_le given 0 pattern rest

theorem Taken.parameters (htaken : Taken line strCmd) (hshaped : Shaped strCmd)
    (hlate : (scanned line strCmd).late = false)
    (hall : (scanned line strCmd).found.length = (strCmd.splitOn 32).count place) :
    (scanned line strCmd).found = parameters (strCmd.splitOn 32) (line.splitOn 32) := by
  have hlength := htaken.size
  obtain ⟨first, pattern, given, rest, hpattern, hgiven, hscanned⟩ := scanned_eq line strCmd
  have hfirst := hshaped.first_ne hpattern
  rw [hscanned, hpattern, List.count_cons_of_ne hfirst] at hall
  rw [hscanned] at hlate
  rw [hpattern, hgiven] at hlength
  rw [hscanned, hpattern, hgiven, parameters_literal hfirst]
  exact found_eq_parameters (Nat.succ.inj hlength) hlate hall

theorem Taken.fits (htaken : Taken line strCmd) :
    List.Forall₂ FitsWord (strCmd.splitOn 32) (line.splitOn 32) := by
  have hlength := htaken.size
  have hsame := htaken.same
  obtain ⟨first, pattern, given, rest, hpattern, hgiven, hscanned⟩ := scanned_eq line strCmd
  rw [hscanned, hgiven] at hsame
  rw [hpattern, hgiven] at hlength ⊢
  exact .cons (Or.inr (List.head_eq_of_cons_eq hsame))
    (fits_of_scan (Nat.succ.inj hlength) (List.tail_eq_of_cons_eq hsame))

/-- A pattern that the line fits takes it when all its stars are found, and none inside a word. -/
theorem taken_of_found (hshaped : Shaped strCmd)
    (hfits : List.Forall₂ FitsWord (strCmd.splitOn 32) (line.splitOn 32))
    (hlate : (scanned line strCmd).late = false)
    (hall : (scanned line strCmd).found.length = (strCmd.splitOn 32).count place) :
    Taken line strCmd := by
  refine ⟨hfits.length_eq, ?_⟩
  obtain ⟨first, pattern, given, rest, hpattern, hgiven, hscanned⟩ := scanned_eq line strCmd
  have hfirst := hshaped.first_ne hpattern
  rw [hpattern, hgiven] at hfits
  obtain ⟨hfit, hrest⟩ := List.forall₂_cons.mp hfits
  rw [hscanned, hpattern, List.count_cons_of_ne hfirst] at hall
  rw [hscanned] at hlate
  rw [hscanned, hgiven, words_of_found hrest hlate hall, hfit.resolve_left hfirst]

theorem notMem_scanned_words :
    ∀ word ∈ (scanned line strCmd).words, 32 ∉ word := by
  have hspace : ∀ word ∈ strCmd.splitOn 32, 32 ∉ word := fun word hword => (mem_splitOn hword).1
  have hline : ∀ word ∈ line.splitOn 32, 32 ∉ word := fun word hword => (mem_splitOn hword).1
  obtain ⟨first, pattern, given, rest, hpattern, hgiven, hscanned⟩ := scanned_eq line strCmd
  rw [hpattern] at hspace
  rw [hgiven] at hline
  rw [hscanned]
  intro word hword
  rcases List.mem_cons.mp hword with rfl | hword
  · exact hspace word List.mem_cons_self
  · rcases mem_scan_words hword with hword | hword
    · exact hspace word (List.mem_cons_of_mem _ hword)
    · exact hline word (List.mem_cons_of_mem _ hword)

theorem scanned_words_ne_nil : (scanned line strCmd).words ≠ [] := by
  obtain ⟨first, pattern, given, rest, -, -, hscanned⟩ := scanned_eq line strCmd
  rw [hscanned]
  apply List.cons_ne_nil

/-- The check of the sizes, for as many words as a `uint32_t` counts. -/
theorem GetParamsSize_check (hsub : subCmds line = line.splitOn 32)
    (hsize : (line.splitOn 32).length + 1 < 2 ^ 32)
    (hlength : (strCmd.splitOn 32).length = (line.splitOn 32).length) :
    (GetParamsSize strCmd + 1).toNat = (ParseSubCmdLine line).length := by
  rw [length_splitOn] at hlength
  have hone : (1 : UInt32).toNat = 1 := rfl
  rw [GetParamsSize_eq, ParseSubCmdLine, List.length_cons, hsub, UInt32.toNat_add,
    UInt32.toNat_ofNat']
  omega

/-- The text that is left is the line exactly when its words are. -/
theorem Taken.becomes (htaken : Taken line strCmd) (hshaped : Shaped strCmd)
    (hsub : subCmds line = line.splitOn 32) (hsize : (line.splitOn 32).length + 1 < 2 ^ 32) :
    ∃ reverted, Becomes line strCmd reverted ∧
      reverted.uParamCnt = (scanned line strCmd).found.length + (scanned line strCmd).late.toNat ∧
      reverted.vecParamSlots.map (fun slot => (line.splitOn 32).getD slot []) =
        (scanned line strCmd).found := by
  obtain ⟨slots, hrevert, hslots⟩ := revert_scanned hshaped htaken.size hsize
  rw [← hsub, ← ParseSubCmdLine, htaken.same, List.intercalate_splitOn] at hrevert
  exact ⟨_, ⟨GetParamsSize_check hsub hsize htaken.size, hrevert, rfl⟩, rfl, hslots⟩

theorem Becomes.taken (hbecomes : Becomes line strCmd reverted) (hshaped : Shaped strCmd)
    (hsub : subCmds line = line.splitOn 32) (hsize : (line.splitOn 32).length + 1 < 2 ^ 32) :
    Taken line strCmd := by
  have hrevert := hbecomes.revert
  rw [ParseSubCmdLine, hsub] at hrevert
  have hcount := (revert_keeps (fun word hword => (mem_splitOn hword).1) hrevert).2
  rw [hbecomes.same] at hcount
  have hlength : (strCmd.splitOn 32).length = (line.splitOn 32).length := by
    rw [length_splitOn, length_splitOn, hcount]
  obtain ⟨slots, hscanned, -⟩ := revert_scanned hshaped hlength hsize
  have htext : [32].intercalate (scanned line strCmd).words = line :=
    (congrArg Reverted.strRevertCmd (Option.some.inj (hscanned.symm.trans hrevert))).trans
      hbecomes.same
  have hwords :=
    List.splitOn_intercalate 32 (@notMem_scanned_words line strCmd) scanned_words_ne_nil
  rw [htext] at hwords
  exact ⟨hlength, hwords.symm⟩

end Whole

end CCliServerHelper

end ServiceFrame
