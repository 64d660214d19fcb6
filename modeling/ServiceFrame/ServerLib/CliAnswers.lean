import Mathlib.Data.List.Perm.Subperm
import ServiceFrame.ServerLib.CliPatterns

/-! # What the console should answer

A command accepts a line that has its words, and parameters of its types in the places of its
stars. A line is answered rightly when a handler is called just for a command that accepts it, with
the parameters that stand in it. The search ends at the first pattern whose text becomes the line,
and it is on that one that the answer depends.
-/

namespace ServiceFrame

open Foundation

variable {Target Proc : Type}

namespace CCliServerHelper

/-! ## Parameters without loss -/

/-- Trimmed, whatever its length. -/
def stripped (text : List UInt8) : List UInt8 := (text.dropWhile isBlank).rdropWhile isWhite

/-- The set of the numbers of a list. -/
def numbers (text : List UInt8) : IdSet :=
  (tokens 44 text).foldl (fun set strNum => set.set (UInt32.ofNat (digitsValue strNum)) ())
    OrderedMap.empty

/-- The parameter that a word stands for, when it has the type and its numbers have 32 bits. -/
def exact : FuncParam → List UInt8 → Option CliParam
  | .u32, word =>
      if stripped word ≠ [] ∧ (stripped word).all isDigit ∧
          digitsValue (stripped word) < 2 ^ 32 then
        some (.u32 (UInt32.ofNat (digitsValue (stripped word))))
      else none
  | .str, word => some (.str word)
  | .setU32, word =>
      if (stripped word).all isListByte ∧
          ∀ strNum ∈ tokens 44 (stripped word), digitsValue strNum < 2 ^ 32 then
        some (.setU32 (numbers (stripped word)))
      else none
  | .void, _ | .invalid, _ => none

def exactly (params : List (FuncParam × List UInt8)) : Option (List CliParam) :=
  params.mapM fun param => exact param.1 param.2

/-- The arguments that the parameters of a form make up. -/
def argsOf : FuncFormType → List CliParam → Option CliArgs
  | .vv, [] => some .vv
  | .vsetu32, [.setU32 set] => some (.vsetu set)
  | .vstr, [.str text] => some (.vstr text)
  | .vu32setu32, [.u32 num, .setU32 set] => some (.vusetu num set)
  | _, _ => none

/-! ## Right answers -/

/-- A command of the table: its stars stand for the parameters of its form. -/
structure Declared (strCmd : List UInt8) (entry : CliFormEntry Target Proc) : Prop extends
    Shaped strCmd where
  form : entry.m_eFormType ∈ [FuncFormType.vv, .vsetu32, .vstr, .vu32setu32]
  params : entry.m_eFuncParams.toList.take ((strCmd.splitOn 32).count place) =
    entry.m_eFormType.params

/-- The line is one of this command, with these arguments. -/
structure Accepts (line strCmd : List UInt8) (entry : CliFormEntry Target Proc) (args : CliArgs) :
    Prop where
  fits : List.Forall₂ FitsWord (strCmd.splitOn 32) (line.splitOn 32)
  args : (exactly (entry.m_eFormType.params.zip
    (parameters (strCmd.splitOn 32) (line.splitOn 32)))).bind (argsOf entry.m_eFormType) = some args

def NoneAccepts (line : List UInt8) (entries : List (List UInt8 × CliFormEntry Target Proc)) :
    Prop :=
  ∀ other ∈ entries, ∀ args, ¬ Accepts line other.1 other.2 args

/-- A handler is called just for a command that accepts the line. -/
def Right (line : List UInt8) (entries : List (List UInt8 × CliFormEntry Target Proc)) :
    Option (Bool × Option (CliCall Target Proc)) → Prop
  | none => False
  | some (_, none) => NoneAccepts line entries
  | some (_, some call) => ∃ entry, (call.m_strCmd, entry) ∈ entries ∧
      entry.m_pTarget = some call.target ∧ entry.m_proc = call.proc ∧
      Accepts line call.m_strCmd entry call.args

/-! ## When it is so -/

/-- The parameters that are asked for, with the words that have been found. -/
def asked (line strCmd : List UInt8) (entry : CliFormEntry Target Proc) :
    List (FuncParam × List UInt8) :=
  entry.m_eFormType.params.zip (scanned line strCmd).found

/-- The handler of the pattern is called, with what stands in the line. -/
structure Answers (line strCmd : List UInt8) (entry : CliFormEntry Target Proc) : Prop where
  early : (scanned line strCmd).late = false
  all : (scanned line strCmd).found.length = (strCmd.splitOn 32).count place
  short : Short (asked line strCmd entry)
  exact : (exactly (asked line strCmd entry)).isSome
  target : entry.m_pTarget.isSome

/-- The search has ended, and no handler is called. -/
def Refuses (line strCmd : List UInt8) (entry : CliFormEntry Target Proc) : Prop :=
  (scanned line strCmd).late = true ∨
    Short (asked line strCmd entry) ∧
      (converted (asked line strCmd entry) = none ∨ entry.m_pTarget = none)

/-- The pattern that takes the line answers it, or refuses it like all others. -/
structure Settled (line : List UInt8) (entries : List (List UInt8 × CliFormEntry Target Proc)) :
    Prop where
  /-- Only a pattern that has more words than a `uint32_t` counts can fail here. -/
  words : ∀ strCmd entry, Reached (Taken line) entries strCmd entry →
    2 ^ 32 ≤ strCmd.count 32 + 2 →
    (GetParamsSize strCmd + 1).toNat = (ParseSubCmdLine line).length →
      (revert (ParseSubCmdLine line) strCmd).isSome
  taken : ∀ strCmd entry, Reached (Taken line) entries strCmd entry → Taken line strCmd →
    Answers line strCmd entry ∨ Refuses line strCmd entry ∧ NoneAccepts line entries
  untaken : (∀ entry ∈ entries, ¬ Taken line entry.1) → NoneAccepts line entries

section Exact

theorem trimmed_eq_stripped {text : List UInt8} (hnul : 0 ∉ text)
    (hsize : text.length < MAX_CMD_SIZE) : trimmed text = stripped text := by
  rw [trimmed, cstr_of_notMem hnul, List.take_of_length_le (Nat.le_sub_one_of_lt hsize), stripped]

theorem foldl_insertText {texts : List (List UInt8)}
    (htexts : ∀ strNum ∈ texts, strNum.all isDigit ∧ digitsValue strNum < 2 ^ 32) (set : IdSet) :
    texts.foldl insertText set =
      texts.foldl (fun set strNum => set.set (UInt32.ofNat (digitsValue strNum)) ()) set := by
  induction texts generalizing set with
  | nil => rfl
  | cons first rest ih =>
      obtain ⟨hdigits, hless⟩ := htexts first List.mem_cons_self
      rw [List.foldl_cons, List.foldl_cons, ih fun strNum hmem => htexts strNum
        (List.mem_cons_of_mem _ hmem), insertText, strtoul_digits hdigits (hless.trans (by decide))]

/-- What stands for a parameter is converted to it. -/
theorem convert_of_exact {eFuncParam : FuncParam} {word : List UInt8} {param : CliParam}
    (hnul : 0 ∉ word) (hsize : word.length < MAX_CMD_SIZE)
    (hexact : exact eFuncParam word = some param) : convert eFuncParam word = some param := by
  cases eFuncParam with
  | u32 =>
      rw [exact, Option.ite_none_right_eq_some] at hexact
      obtain ⟨⟨hsome, hdigits, hless⟩, hparam⟩ := hexact
      rw [convert, trimmed_eq_stripped hnul hsize, toUint32, if_pos ⟨hsome, hdigits⟩,
        strtoul_digits hdigits (hless.trans (by decide))]
      exact hparam
  | setU32 =>
      rw [exact, Option.ite_none_right_eq_some] at hexact
      obtain ⟨⟨hall, hless⟩, hparam⟩ := hexact
      rw [convert, trimmed_eq_stripped hnul hsize, toSetU32, if_pos hall, foldl_insertText]
      · exact hparam
      · intro strNum hmem
        obtain ⟨-, hcomma, hsubset⟩ := mem_tokens hmem
        refine ⟨all_isDigit_of_notMem ?_ hcomma, hless strNum hmem⟩
        rw [List.all_eq_true] at hall ⊢
        exact fun byte hbyte => hall byte (hsubset hbyte)
  | str => exact hexact
  | void => cases hexact
  | invalid => cases hexact

theorem converted_of_exactly {params : List (FuncParam × List UInt8)} {list : List CliParam}
    (hwords : ∀ param ∈ params, 0 ∉ param.2 ∧ param.2.length < MAX_CMD_SIZE)
    (hexact : exactly params = some list) : converted params = some list := by
  induction params generalizing list with
  | nil => exact hexact
  | cons param rest ih =>
      rw [exactly, List.mapM_cons] at hexact
      obtain ⟨first, hfirst, hexact⟩ := Option.bind_eq_some_iff.mp hexact
      obtain ⟨later, hlater, hexact⟩ := Option.bind_eq_some_iff.mp hexact
      cases hexact
      obtain ⟨hnul, hsize⟩ := hwords param List.mem_cons_self
      have hrest := ih (fun param hmem => hwords param (List.mem_cons_of_mem _ hmem)) hlater
      rw [converted] at hrest
      rw [converted, List.mapM_cons, convert_of_exact hnul hsize hfirst, hrest]
      rfl

end Exact

section Handle

variable {line strCmd : List UInt8} {entry : CliFormEntry Target Proc} {reverted : Reverted}

/-- More types than words do not count. -/
theorem zip_take {α β : Type} {types : List α} {words : List β} {count : Nat}
    (hcount : words.length ≤ count) : (types.take count).zip words = types.zip words := by
  induction words generalizing types count with
  | nil => rw [List.zip_nil_right, List.zip_nil_right]
  | cons word rest ih =>
      obtain ⟨count, rfl⟩ := Nat.exists_eq_succ_of_ne_zero (Nat.ne_zero_of_lt hcount)
      cases types with
      | nil => rfl
      | cons type types =>
          rw [List.take_succ_cons, List.zip_cons_cons, List.zip_cons_cons,
            ih (Nat.le_of_succ_le_succ hcount)]

/-- A command has no more stars than its form has parameters. -/
theorem Declared.count_eq (hdeclared : Declared strCmd entry) :
    (strCmd.splitOn 32).count place = entry.m_eFormType.params.length := by
  have hlength := congrArg List.length hdeclared.params
  rw [List.length_take, Vector.length_toList] at hlength
  have hless : entry.m_eFormType.params.length < MAX_FUNC_PARAS := by
    cases entry.m_eFormType <;> decide
  omega

/-- The words that the code converts are those that are asked for. -/
theorem placedIn_eq (hdeclared : Declared strCmd entry) (hsub : subCmds line = line.splitOn 32)
    (hslots : reverted.vecParamSlots.map (fun slot => (line.splitOn 32).getD slot []) =
      (scanned line strCmd).found) : placedIn line entry reverted = asked line strCmd entry := by
  have hfound := @length_scanned_found_le line strCmd hdeclared.toShaped
  rw [asked, ← hdeclared.params, zip_take hfound, ← hslots, List.zip_map_right, placedIn, hsub,
    placed]
  rfl

/-- The pattern whose text is the line, by what has been found in it. -/
theorem handleEntry_eq (hdeclared : Declared strCmd entry) (hsub : subCmds line = line.splitOn 32)
    (hcount : reverted.uParamCnt =
      (scanned line strCmd).found.length + (scanned line strCmd).late.toNat)
    (hslots : reverted.vecParamSlots.map (fun slot => (line.splitOn 32).getD slot []) =
      (scanned line strCmd).found)
    (hinside : ∀ slot ∈ reverted.vecParamSlots, slot < (subCmds line).length) :
    handleEntry (ParseSubCmdLine line) strCmd entry reverted =
      if (scanned line strCmd).late then some (true, none)
      else if Short (asked line strCmd entry) then
        match converted (asked line strCmd entry) with
        | none => some (false, none)
        | some list => execute strCmd entry (list.foldl ParamList.push ⟨[], [], []⟩)
      else none := by
  have hlength := congrArg List.length hslots
  rw [List.length_map] at hlength
  have hfound := @length_scanned_found_le line strCmd hdeclared.toShaped
  have hless : entry.m_eFormType.params.length < MAX_FUNC_PARAS := by
    cases entry.m_eFormType <;> decide
  have hcount_eq := hdeclared.count_eq
  rw [handleEntry]
  cases hlate : (scanned line strCmd).late with
  | true =>
      rw [hlate, Bool.toNat_true] at hcount
      rw [if_neg (by omega), if_pos rfl]
  | false =>
      rw [hlate, Bool.toNat_false] at hcount
      have hzip : ∀ slot ∈ entry.m_eFuncParams.toList.zip reverted.vecParamSlots,
          slot.2 < (subCmds line).length := fun slot hslot => hinside _ (List.of_mem_zip hslot).2
      have hplaced := placedIn_eq hdeclared hsub hslots
      rw [placedIn] at hplaced
      rw [if_pos ⟨by omega, by omega⟩, if_neg Bool.false_ne_true, ParseSubCmdLine,
        convertParams_eq line hzip, hplaced]
      by_cases hshort : Short (asked line strCmd entry)
      · rw [if_pos hshort, if_pos hshort]
        cases converted (asked line strCmd entry) <;> rfl
      · rw [if_neg hshort, if_neg hshort]
        rfl

/-- The handler is called with the parameters that its form has. -/
theorem execute_eq (hdeclared : Declared strCmd entry) {list : List CliParam}
    (htypes : list.map CliParam.type = entry.m_eFormType.params) :
    ∃ args, argsOf entry.m_eFormType list = some args ∧
      execute strCmd entry (list.foldl ParamList.push ⟨[], [], []⟩) =
        onTarget strCmd entry (some args) := by
  obtain ⟨form, types, proc, target⟩ := entry
  have hform := hdeclared.form
  rw [ParamList.foldl_push]
  cases form with
  | vv =>
      cases List.map_eq_nil_iff.mp htypes
      exact ⟨.vv, rfl, rfl⟩
  | vsetu32 =>
      obtain ⟨param, rfl, htype⟩ := List.map_eq_singleton_iff.mp htypes
      cases param with
      | setU32 set => exact ⟨.vsetu set, rfl, rfl⟩
      | u32 | str => cases htype
  | vstr =>
      obtain ⟨param, rfl, htype⟩ := List.map_eq_singleton_iff.mp htypes
      cases param with
      | str text => exact ⟨.vstr text, rfl, rfl⟩
      | u32 | setU32 => cases htype
  | vu32setu32 =>
      obtain ⟨first, rest, rfl, hfirst, hrest⟩ := List.map_eq_cons_iff.mp htypes
      obtain ⟨second, rfl, hsecond⟩ := List.map_eq_singleton_iff.mp hrest
      cases first with
      | u32 num =>
          cases second with
          | setU32 set => exact ⟨.vusetu num set, rfl, rfl⟩
          | u32 | str => cases hsecond
      | str | setU32 => cases hfirst
  | vu32 | null | last => simp at hform

/-- A handler that takes more parameters than there are finds none in their place. -/
theorem execute_none {list : List CliParam} {count : Nat}
    (htypes : list.map CliParam.type = entry.m_eFormType.params.take count)
    (hless : count < entry.m_eFormType.params.length) (htarget : entry.m_pTarget.isSome) :
    execute strCmd entry (list.foldl ParamList.push ⟨[], [], []⟩) = none := by
  rw [← Option.not_isSome_iff_eq_none, execute_isSome_iff]
  intro hall
  -- no form takes two parameters of one type, so that none can stand for a missing one
  have hnodup : entry.m_eFormType.params.Nodup := by
    cases entry.m_eFormType <;> decide
  have hlength := (List.subperm_of_subset hnodup (hall htarget)).length_le
  rw [htypes] at hlength
  exact absurd (hlength.trans (List.length_take_le _ _)) (Nat.not_le_of_lt hless)

/-- Without a target nothing is called. -/
theorem execute_of_noTarget (hdeclared : Declared strCmd entry) (htarget : entry.m_pTarget = none)
    (list : ParamList) : execute strCmd entry list = some (true, none) := by
  obtain ⟨form, types, proc, target⟩ := entry
  cases htarget
  have hform := hdeclared.form
  cases form with
  | vv | vsetu32 | vstr | vu32setu32 => rfl
  | vu32 | null | last => simp at hform

/-- So are the parameters of a line, when all have been found. -/
theorem converted_of_exact
    (hfound : (scanned line strCmd).found = parameters (strCmd.splitOn 32) (line.splitOn 32))
    (hnul : 0 ∉ line) (hsize : line.length < MAX_CMD_SIZE) {list : List CliParam}
    (hexact : exactly (asked line strCmd entry) = some list) :
    converted (asked line strCmd entry) = some list := by
  refine converted_of_exactly (fun param hparam => ?_) hexact
  have hword := (List.of_mem_zip hparam).2
  rw [hfound] at hword
  have hsublist := (mem_splitOn (mem_parameters hword)).2
  exact ⟨fun hzero => hnul (hsublist.subset hzero), hsublist.length_le.trans_lt hsize⟩

variable {helper : CCliServerHelper Target Proc}

/-- A call is right when nothing has been lost in the conversion. -/
theorem right_call_iff (hmem : (strCmd, entry) ∈ helper.entries) (htaken : Taken line strCmd)
    (hfound : (scanned line strCmd).found = parameters (strCmd.splitOn 32) (line.splitOn 32))
    (hnul : 0 ∉ line) (hsize : line.length < MAX_CMD_SIZE) {target : Target}
    (htarget : entry.m_pTarget = some target) {list : List CliParam} {args : CliArgs}
    (hlist : converted (asked line strCmd entry) = some list)
    (hargs : argsOf entry.m_eFormType list = some args) :
    Right line helper.entries (some (true, some ⟨strCmd, target, entry.m_proc, args⟩)) ↔
      (exactly (asked line strCmd entry)).isSome := by
  constructor
  · rintro ⟨other, hother, -, -, haccepts⟩
    -- the keys of the table are different, so the call is that of this entry
    have hsame : other = entry := Option.some.inj
      ((OrderedMap.mem_entries.mp hother).symm.trans (OrderedMap.mem_entries.mp hmem))
    obtain ⟨exact, hexact, -⟩ := Option.bind_eq_some_iff.mp haccepts.args
    rw [asked, hfound, ← hsame, hexact]
    rfl
  · intro hexact
    obtain ⟨exact, hexact⟩ := Option.isSome_iff_exists.mp hexact
    cases hlist.symm.trans (converted_of_exact hfound hnul hsize hexact)
    refine ⟨entry, hmem, htarget, rfl, htaken.fits, ?_⟩
    rw [← hfound, ← asked, hexact]
    exact hargs

/-- A handler that is to be called is called rightly when all its parameters have been found, and
nothing of them lost. -/
theorem right_execute_iff (hmem : (strCmd, entry) ∈ helper.entries)
    (hdeclared : Declared strCmd entry) (htaken : Taken line strCmd)
    (hearly : (scanned line strCmd).late = false) (hnul : 0 ∉ line)
    (hsize : line.length < MAX_CMD_SIZE) (htarget : entry.m_pTarget.isSome) {list : List CliParam}
    (hlist : converted (asked line strCmd entry) = some list) :
    Right line helper.entries (execute strCmd entry (list.foldl ParamList.push ⟨[], [], []⟩)) ↔
      (scanned line strCmd).found.length = (strCmd.splitOn 32).count place ∧
        (exactly (asked line strCmd entry)).isSome := by
  have hcount := hdeclared.count_eq
  have hle := @length_scanned_found_le line strCmd hdeclared.toShaped
  have htypes := converted_types hlist
  have hasked : (asked line strCmd entry).map Prod.fst =
      entry.m_eFormType.params.take (scanned line strCmd).found.length := by
    rw [asked, ← zip_take (Nat.le_refl _), List.map_fst_zip (List.length_take_le _ _)]
  rw [hasked] at htypes
  by_cases hall : (scanned line strCmd).found.length = (strCmd.splitOn 32).count place
  · rw [List.take_of_length_le (by omega)] at htypes
    obtain ⟨args, hargs, hexecute⟩ := execute_eq hdeclared htypes
    obtain ⟨target, htarget⟩ := Option.isSome_iff_exists.mp htarget
    have hfound := htaken.parameters hdeclared.toShaped hearly hall
    rw [hexecute, onTarget, htarget, and_iff_right hall]
    exact right_call_iff hmem htaken hfound hnul hsize htarget hlist hargs
  · rw [execute_none htypes (by omega) htarget]
    exact iff_of_false id fun hboth => hall hboth.1

/-- A command that accepts the line takes it, unless the search for its stars goes wrong. -/
theorem Accepts.taken {args : CliArgs} (haccepts : Accepts line strCmd entry args)
    (hdeclared : Declared strCmd entry) (hearly : (scanned line strCmd).late = false)
    (hall : (scanned line strCmd).found.length = (strCmd.splitOn 32).count place) :
    Taken line strCmd :=
  taken_of_found hdeclared.toShaped haccepts.fits hearly hall

theorem Answers.converted (hanswers : Answers line strCmd entry)
    (hdeclared : Declared strCmd entry) (htaken : Taken line strCmd) (hnul : 0 ∉ line)
    (hsize : line.length < MAX_CMD_SIZE) : converted (asked line strCmd entry) ≠ none := by
  obtain ⟨list, hexact⟩ := Option.isSome_iff_exists.mp hanswers.exact
  have hfound := htaken.parameters hdeclared.toShaped hanswers.early hanswers.all
  rw [converted_of_exact hfound hnul hsize hexact]
  apply Option.some_ne_none

/-- When the words are short enough, what comes of them decides. -/
theorem right_converted_iff (hmem : (strCmd, entry) ∈ helper.entries)
    (hdeclared : Declared strCmd entry) (htaken : Taken line strCmd) (hnul : 0 ∉ line)
    (hsize : line.length < MAX_CMD_SIZE) (hearly : (scanned line strCmd).late = false)
    (hshort : Short (asked line strCmd entry)) :
    Right line helper.entries
        (match converted (asked line strCmd entry) with
        | none => some (false, none)
        | some list => execute strCmd entry (list.foldl ParamList.push ⟨[], [], []⟩)) ↔
      Answers line strCmd entry ∨
        Refuses line strCmd entry ∧ NoneAccepts line helper.entries := by
  have hrefuses : Refuses line strCmd entry ↔
      converted (asked line strCmd entry) = none ∨ entry.m_pTarget = none := by
    rw [Refuses, hearly, and_iff_right hshort, or_iff_right Bool.false_ne_true]
  rw [hrefuses]
  cases hlist : converted (asked line strCmd entry) with
  | none =>
      have hnot : ¬ Answers line strCmd entry := fun hanswers =>
        hanswers.converted hdeclared htaken hnul hsize hlist
      rw [or_iff_right hnot]
      exact (and_iff_right (Or.inl rfl)).symm
  | some list =>
      cases htarget : entry.m_pTarget with
      | none =>
          have hnot : ¬ Answers line strCmd entry := fun hanswers =>
            Option.isSome_iff_ne_none.mp hanswers.target htarget
          dsimp only
          rw [or_iff_right hnot, execute_of_noTarget hdeclared htarget]
          exact (and_iff_right (Or.inr rfl)).symm
      | some target =>
          have hsome : entry.m_pTarget.isSome := htarget ▸ rfl
          dsimp only
          rw [right_execute_iff hmem hdeclared htaken hearly hnul hsize hsome hlist]
          constructor
          · exact fun hboth => Or.inl ⟨hearly, hboth.1, hshort, hboth.2, hsome⟩
          · rintro (hanswers | ⟨hnone | hnone, -⟩)
            · exact ⟨hanswers.all, hanswers.exact⟩
            · cases hnone
            · cases hnone

/-- The pattern that takes the line ends the search. -/
theorem right_handleEntry_iff (hmem : (strCmd, entry) ∈ helper.entries)
    (hdeclared : Declared strCmd entry) (htaken : Taken line strCmd) (hnul : 0 ∉ line)
    (hsize : line.length < MAX_CMD_SIZE) (hsub : subCmds line = line.splitOn 32)
    (hcount : reverted.uParamCnt =
      (scanned line strCmd).found.length + (scanned line strCmd).late.toNat)
    (hslots : reverted.vecParamSlots.map (fun slot => (line.splitOn 32).getD slot []) =
      (scanned line strCmd).found)
    (hinside : ∀ slot ∈ reverted.vecParamSlots, slot < (subCmds line).length) :
    Right line helper.entries (handleEntry (ParseSubCmdLine line) strCmd entry reverted) ↔
      Answers line strCmd entry ∨
        Refuses line strCmd entry ∧ NoneAccepts line helper.entries := by
  rw [handleEntry_eq hdeclared hsub hcount hslots hinside]
  cases hlate : (scanned line strCmd).late with
  | true =>
      have hnot : ¬ Answers line strCmd entry := fun hanswers =>
        Bool.false_ne_true (hanswers.early.symm.trans hlate)
      rw [if_pos rfl, or_iff_right hnot]
      exact (and_iff_right (Or.inl hlate)).symm
  | false =>
      rw [if_neg Bool.false_ne_true]
      by_cases hshort : Short (asked line strCmd entry)
      · rw [if_pos hshort]
        exact right_converted_iff hmem hdeclared htaken hnul hsize hlate hshort
      · rw [if_neg hshort]
        apply iff_of_false id
        rintro (hanswers | ⟨hyes | hrefused, -⟩)
        · exact hshort hanswers.short
        · exact Bool.false_ne_true (hlate.symm.trans hyes)
        · exact hshort hrefused.1

end Handle

section Search

variable {line strCmd : List UInt8} {entry : CliFormEntry Target Proc}
  {entries : List (List UInt8 × CliFormEntry Target Proc)} {ends : List UInt8 → Prop}

theorem Reached.mem (hreached : Reached ends entries strCmd entry) : (strCmd, entry) ∈ entries := by
  obtain ⟨front, back, rfl, -⟩ := hreached
  exact List.mem_append_right _ List.mem_cons_self

/-- The search ends at one pattern only. -/
theorem Reached.unique {other : List UInt8} {otherEntry : CliFormEntry Target Proc}
    (hreached : Reached ends entries strCmd entry) (hends : ends strCmd)
    (hother : Reached ends entries other otherEntry) (hotherEnds : ends other) :
    other = strCmd ∧ otherEntry = entry := by
  induction entries with
  | nil => exact absurd hreached (not_reached_nil _ _ _)
  | cons first rest ih =>
      obtain ⟨first, firstEntry⟩ := first
      rcases reached_cons.mp hreached with ⟨rfl, rfl⟩ | ⟨hfirst, hreached⟩
      · rcases reached_cons.mp hother with hsame | ⟨hfirst, -⟩
        · exact hsame
        · exact absurd hends hfirst
      · rcases reached_cons.mp hother with ⟨rfl, -⟩ | ⟨-, hother⟩
        · exact absurd hotherEnds hfirst
        · exact ih hreached hother

/-- There is a first one when there is one at all. -/
theorem exists_reached (hsome : ∃ other ∈ entries, ends other.1) :
    ∃ strCmd entry, Reached ends entries strCmd entry ∧ ends strCmd := by
  induction entries with
  | nil => simp at hsome
  | cons first rest ih =>
      obtain ⟨first, firstEntry⟩ := first
      by_cases hfirst : ends first
      · exact ⟨first, firstEntry, reached_cons.mpr (Or.inl ⟨rfl, rfl⟩), hfirst⟩
      · have hlater : ∃ other ∈ rest, ends other.1 := by
          obtain ⟨other, hother, hends⟩ := hsome
          rcases List.mem_cons.mp hother with rfl | hother
          · exact absurd hends hfirst
          · exact ⟨other, hother, hends⟩
        obtain ⟨strCmd, entry, hreached, hends⟩ := ih hlater
        exact ⟨strCmd, entry, reached_cons.mpr (Or.inr ⟨hfirst, hreached⟩), hends⟩

/-- The words of the line are put into each pattern that the search comes to. -/
def Reverts (line : List UInt8) (entries : List (List UInt8 × CliFormEntry Target Proc)) : Prop :=
  ∀ strCmd entry, Reached (Meant line) entries strCmd entry →
    (GetParamsSize strCmd + 1).toNat = (ParseSubCmdLine line).length →
      (revert (ParseSubCmdLine line) strCmd).isSome

/-- It is so for all that have no more words than a `uint32_t` counts. -/
theorem reverts_of_long (hwords : ∀ word ∈ subCmds line, 32 ∉ word)
    (hsize : (subCmds line).length + 1 < 2 ^ 32)
    (hlong : ∀ strCmd entry, Reached (Meant line) entries strCmd entry →
      2 ^ 32 ≤ strCmd.count 32 + 2 →
      (GetParamsSize strCmd + 1).toNat = (ParseSubCmdLine line).length →
        (revert (ParseSubCmdLine line) strCmd).isSome) : Reverts line entries := by
  intro strCmd entry hreached hcheck
  by_cases hless : strCmd.count 32 + 2 < 2 ^ 32
  · exact revert_isSome_of_size hwords hsize hless hcheck
  · exact hlong strCmd entry hreached (Nat.le_of_not_lt hless) hcheck

theorem Reverts.head {first : List UInt8} {firstEntry : CliFormEntry Target Proc}
    (hreverts : Reverts line ((first, firstEntry) :: entries)) :
    (GetParamsSize first + 1).toNat = (ParseSubCmdLine line).length →
      (revert (ParseSubCmdLine line) first).isSome :=
  hreverts first firstEntry (reached_cons.mpr (Or.inl ⟨rfl, rfl⟩))

theorem Reverts.tail {first : List UInt8} {firstEntry : CliFormEntry Target Proc}
    (hreverts : Reverts line ((first, firstEntry) :: entries)) (hother : ¬ Meant line first) :
    Reverts line entries := fun strCmd entry hreached =>
  hreverts strCmd entry (reached_cons.mpr (Or.inr ⟨hother, hreached⟩))

/-- The search comes to the pattern that it ends at. -/
theorem tryEntries_reached {reverted : Reverted} (hreverts : Reverts line entries)
    (hreached : Reached (Meant line) entries strCmd entry)
    (hbecomes : Becomes line strCmd reverted) :
    tryEntries line (ParseSubCmdLine line) entries =
      handleEntry (ParseSubCmdLine line) strCmd entry reverted := by
  induction entries with
  | nil => exact absurd hreached (not_reached_nil _ _ _)
  | cons first rest ih =>
      obtain ⟨first, firstEntry⟩ := first
      rcases reached_cons.mp hreached with ⟨rfl, rfl⟩ | ⟨hother, hreached⟩
      · exact tryEntries_becomes hbecomes
      · rw [tryEntries_pass hother hreverts.head]
        exact ih (hreverts.tail hother) hreached

/-- When no pattern becomes the line, nothing is called. -/
theorem tryEntries_none (hreverts : Reverts line entries)
    (hnone : ∀ other ∈ entries, ¬ Meant line other.1) :
    tryEntries line (ParseSubCmdLine line) entries = some (false, none) := by
  induction entries with
  | nil => rfl
  | cons first rest ih =>
      obtain ⟨first, firstEntry⟩ := first
      obtain ⟨hother, hrest⟩ := List.forall_mem_cons.mp hnone
      rw [tryEntries_pass hother hreverts.head]
      exact ih (hreverts.tail hother) hrest

theorem reached_congr {same : List UInt8 → Prop}
    (hsame : ∀ other ∈ entries, ends other.1 ↔ same other.1) :
    Reached ends entries strCmd entry ↔ Reached same entries strCmd entry := by
  refine exists_congr fun front => exists_congr fun back => and_congr_right fun hentries => ?_
  subst hentries
  exact forall₂_congr fun other hother => not_congr (hsame other (List.mem_append_left _ hother))

theorem meant_iff_taken (hshaped : Shaped strCmd) (hsub : subCmds line = line.splitOn 32)
    (hsize : (line.splitOn 32).length + 1 < 2 ^ 32) : Meant line strCmd ↔ Taken line strCmd := by
  constructor
  · rintro ⟨reverted, hbecomes⟩
    exact hbecomes.taken hshaped hsub hsize
  · intro htaken
    obtain ⟨reverted, hbecomes, -⟩ := htaken.becomes hshaped hsub hsize
    exact ⟨reverted, hbecomes⟩

end Search

section Line

variable {line : List UInt8} {helper : CCliServerHelper Target Proc}

/-- The search over the table. -/
theorem right_tryEntries_iff (htable : ∀ entry ∈ helper.entries, Declared entry.1 entry.2)
    (hnul : 0 ∉ line) (hsize : line.length < MAX_CMD_SIZE) (hsub : subCmds line = line.splitOn 32) :
    Right line helper.entries (tryEntries line (ParseSubCmdLine line) helper.entries) ↔
      Settled line helper.entries := by
  have hwords : ∀ word ∈ subCmds line, 32 ∉ word := by
    rw [hsub]
    exact fun word hword => (mem_splitOn hword).1
  have hless : (line.splitOn 32).length + 1 < 2 ^ 32 := by
    have hcount := List.count_le_length (a := 32) (l := line)
    rw [MAX_CMD_SIZE] at hsize
    rw [length_splitOn]
    omega
  have hmeant : ∀ other ∈ helper.entries, Meant line other.1 ↔ Taken line other.1 :=
    fun other hother => meant_iff_taken (htable other hother).toShaped hsub hless
  -- otherwise a word is looked up outside the line, and neither side holds
  by_cases hlong : Reverts line helper.entries
  · by_cases hsome : ∃ other ∈ helper.entries, Taken line other.1
    · obtain ⟨strCmd, entry, hreached, htaken⟩ := exists_reached hsome
      have hmem := hreached.mem
      have hdeclared := htable _ hmem
      obtain ⟨reverted, hbecomes, hcount, hslots⟩ :=
        htaken.becomes hdeclared.toShaped hsub hless
      rw [tryEntries_reached hlong ((reached_congr hmeant).mpr hreached) hbecomes,
        right_handleEntry_iff hmem hdeclared htaken hnul hsize hsub hcount hslots
          (revert_keeps hwords hbecomes.revert).1]
      constructor
      · intro hsettled
        refine ⟨fun other otherEntry hother _ => hlong other otherEntry
          ((reached_congr hmeant).mpr hother), fun other otherEntry hother hotherTaken => ?_,
          fun hnone => absurd htaken (hnone _ hmem)⟩
        obtain ⟨rfl, rfl⟩ := hreached.unique htaken hother hotherTaken
        exact hsettled
      · exact fun hsettled => hsettled.taken strCmd entry hreached htaken
    · have hnone : ∀ other ∈ helper.entries, ¬ Taken line other.1 := fun other hother htaken =>
        hsome ⟨other, hother, htaken⟩
      rw [tryEntries_none hlong fun other hother =>
        (not_congr (hmeant other hother)).mpr (hnone other hother)]
      exact ⟨fun hright => ⟨fun other otherEntry hother _ => hlong other otherEntry
          ((reached_congr hmeant).mpr hother),
        fun other otherEntry hother htaken => absurd htaken (hnone _ hother.mem),
        fun _ => hright⟩, fun hsettled => hsettled.untaken hnone⟩
  · have hsubLess : (subCmds line).length + 1 < 2 ^ 32 := hsub ▸ hless
    refine iff_of_false (fun hright => hlong ?_) fun hsettled => hlong ?_
    · have hsome : (tryEntries line (ParseSubCmdLine line) helper.entries).isSome := by
        rw [← Option.ne_none_iff_isSome]
        intro hnone
        rwa [hnone] at hright
      exact reverts_of_long hwords hsubLess
        ((tryEntries_isSome_iff hwords hsubLess helper.entries).mp hsome).words
    · exact reverts_of_long hwords hsubLess fun strCmd entry hreached =>
        hsettled.words strCmd entry ((reached_congr hmeant).mp hreached)

/-- No command is an empty line. -/
theorem noneAccepts_nil (htable : ∀ entry ∈ helper.entries, Declared entry.1 entry.2) :
    NoneAccepts [] helper.entries := by
  intro other hother args haccepts
  have hdeclared := htable other hother
  have hfits := haccepts.fits
  rw [List.splitOn_nil, List.forall₂_cons_right_iff] at hfits
  obtain ⟨word, rest, hword, -, hwords⟩ := hfits
  rcases hword with rfl | rfl
  · exact hdeclared.first_ne hwords rfl
  · exact (hdeclared.words [] (hwords ▸ List.mem_cons_self)).1 rfl

/-- Which lines of at most 1023 bytes are answered rightly. -/
theorem CmdLineHandle_right_iff (helper : CCliServerHelper Target Proc) {strCmd : List UInt8}
    (htable : ∀ entry ∈ helper.entries, Declared entry.1 entry.2) (hnul : 0 ∉ strCmd)
    (hsize : strCmd.length < MAX_CMD_SIZE) :
    Right (stripped strCmd) helper.entries (CmdLineHandle helper strCmd) ↔
      stripped strCmd = [] ∨ Settled (stripped strCmd) helper.entries := by
  have htrimmed := trimmed_eq_stripped hnul hsize
  by_cases hempty : trimmed strCmd = []
  · rw [CmdLineHandle, TrimCmd_eq, Option.bind_eq_bind, Option.bind_some, if_pos hempty,
      ← htrimmed, hempty]
    exact iff_of_true (noneAccepts_nil htable) (Or.inl rfl)
  · rw [CmdLineHandle_eq helper hempty, ← htrimmed, or_iff_right hempty]
    exact right_tryEntries_iff htable (zero_notMem_trimmed strCmd) (length_trimmed_lt strCmd)
      (subCmds_trimmed hempty)

/-- "a 5" is answered, with the set of 5. -/
theorem setTable_right :
    Right (stripped [97, 32, 53]) setTable.entries (CmdLineHandle setTable [97, 32, 53]) := by
  have hentries : setTable.entries =
      [([97, 32, 42], ⟨.vsetu32, #v[.setU32, .void, .void], (), some ()⟩)] := rfl
  have htable : ∀ entry ∈ setTable.entries, Declared entry.1 entry.2 := by
    rw [hentries, List.forall_mem_singleton]
    exact ⟨⟨by decide +kernel, by decide +kernel⟩, by decide, by decide +kernel⟩
  have hline : stripped [97, 32, 53] = [97, 32, 53] := by decide +kernel
  have hnul : 0 ∉ ([97, 32, 53] : List UInt8) := by decide
  have hsize : ([97, 32, 53] : List UInt8).length < MAX_CMD_SIZE := by decide
  rw [CmdLineHandle_right_iff setTable htable hnul hsize, hline, hentries]
  right
  refine ⟨fun strCmd entry hreached hlong => ?_, fun strCmd entry hreached _ => Or.inl ?_,
    fun hnone => absurd ⟨by decide +kernel, by decide +kernel⟩ (hnone _ List.mem_cons_self)⟩
  · cases List.mem_singleton.mp hreached.mem
    exact absurd hlong (by decide)
  · cases List.mem_singleton.mp hreached.mem
    exact ⟨by decide +kernel, by decide +kernel, by decide +kernel, by decide +kernel, rfl⟩

/-- "add * *", which takes a number and a set. -/
def adder : CCliServerHelper Unit Unit :=
  OrderedMap.empty.set [97, 100, 100, 32, 42, 32, 42]
    ⟨.vu32setu32, #v[.u32, .setU32, .void], (), some ()⟩

/-- "add 5 6": the search for the second star begins behind it, because "add" is longer than "5". -/
theorem second_unanswered :
    (∀ entry ∈ adder.entries, Declared entry.1 entry.2) ∧
      CmdLineHandle adder [97, 100, 100, 32, 53, 32, 54] = some (false, none) ∧
        ¬ Right (stripped [97, 100, 100, 32, 53, 32, 54]) adder.entries
          (CmdLineHandle adder [97, 100, 100, 32, 53, 32, 54]) := by
  have hentries : adder.entries = [([97, 100, 100, 32, 42, 32, 42],
      ⟨.vu32setu32, #v[.u32, .setU32, .void], (), some ()⟩)] := rfl
  have htable : ∀ entry ∈ adder.entries, Declared entry.1 entry.2 := by
    rw [hentries, List.forall_mem_singleton]
    exact ⟨⟨by decide +kernel, by decide +kernel⟩, by decide, by decide +kernel⟩
  have hline : stripped [97, 100, 100, 32, 53, 32, 54] = [97, 100, 100, 32, 53, 32, 54] := by
    decide +kernel
  have htrimmed : trimmed [97, 100, 100, 32, 53, 32, 54] = [97, 100, 100, 32, 53, 32, 54] := by
    decide +kernel
  have hpattern : ([97, 100, 100, 32, 42, 32, 42] : List UInt8).splitOn 32 =
      [[97, 100, 100], [42], [42]] := by decide +kernel
  have hwords : ([97, 100, 100, 32, 53, 32, 54] : List UInt8).splitOn 32 =
      [[97, 100, 100], [53], [54]] := by decide +kernel
  have hresult : CmdLineHandle adder [97, 100, 100, 32, 53, 32, 54] = some (false, none) := by
    rw [CmdLineHandle_eq _ (by rw [htrimmed]; exact List.cons_ne_nil _ _), htrimmed,
      ParseSubCmdLine, subCmds_eq (List.cons_ne_nil _ _) (by decide +kernel), hwords, hentries]
    rfl
  refine ⟨htable, hresult, ?_⟩
  rw [hresult, hline]
  intro hnone
  refine hnone _ List.mem_cons_self (.vusetu 5 (OrderedMap.empty.set 6 ())) ⟨?_, ?_⟩
  · rw [hpattern, hwords]
    exact .cons (Or.inr rfl) (.cons (Or.inl rfl) (.cons (Or.inl rfl) .nil))
  · rw [hpattern, hwords]
    decide +kernel

end Line

end CCliServerHelper

end ServiceFrame
