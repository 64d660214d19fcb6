import ServiceFrame.ServerLib.CliServerHelper

/-! # The buffers of the console

A parameter that is converted is copied into 128 bytes first, whatever its length, and a handler
takes the first parameter of each of its types, whether there is one or not. Everything else stays
inside: the trimming for every line, and the indices of the words for every pattern whose words a
`uint32_t` can count.
-/

namespace ServiceFrame

open Foundation

variable {Target Proc : Type}

/-! ## What parameters are converted to -/

inductive CliParam where
  | u32 (num : UInt32)
  | str (text : List UInt8)
  | setU32 (set : IdSet)
  deriving DecidableEq

namespace CliParam

def type : CliParam → FuncParam
  | .u32 _ => .u32
  | .str _ => .str
  | .setU32 _ => .setU32

def u32? : CliParam → Option UInt32
  | .u32 num => some num
  | _ => none

def str? : CliParam → Option (List UInt8)
  | .str text => some text
  | _ => none

def setU32? : CliParam → Option IdSet
  | .setU32 set => some set
  | _ => none

end CliParam

/-- The parameter goes behind the others of its type. -/
def ParamList.push (list : ParamList) : CliParam → ParamList
  | .u32 num => { list with m_vecParamU32 := list.m_vecParamU32 ++ [num] }
  | .str text => { list with m_vecParamStr := list.m_vecParamStr ++ [text] }
  | .setU32 set => { list with m_vecSetU32 := list.m_vecSetU32 ++ [set] }

theorem ParamList.foldl_push (params : List CliParam) (list : ParamList) :
    params.foldl push list =
      ⟨list.m_vecParamU32 ++ params.filterMap CliParam.u32?,
        list.m_vecParamStr ++ params.filterMap CliParam.str?,
        list.m_vecSetU32 ++ params.filterMap CliParam.setU32?⟩ := by
  induction params generalizing list with
  | nil => simp
  | cons param rest ih =>
      rw [List.foldl_cons, ih]
      cases param <;>
        simp [push, List.filterMap_cons, CliParam.u32?, CliParam.str?, CliParam.setU32?]

/-- The text of this type is copied into a buffer. -/
def FuncParam.copied : FuncParam → Bool
  | .u32 | .setU32 => true
  | .str | .void | .invalid => false

/-- The parameters that a handler of this form takes. -/
def FuncFormType.params : FuncFormType → List FuncParam
  | .vsetu32 => [.setU32]
  | .vstr => [.str]
  | .vu32setu32 => [.u32, .setU32]
  | .vv | .vu32 | .null | .last => []

namespace CCliServerHelper

/-- The conversion of a word, whatever its length. -/
def convert : FuncParam → List UInt8 → Option CliParam
  | .u32, word => (toUint32 (trimmed word)).map .u32
  | .str, word => some (.str word)
  | .setU32, word => (toSetU32 (trimmed word)).map .setU32
  | .void, _ | .invalid, _ => none

/-- Up to the first word that is not converted, those that are copied fit. -/
def Short : List (FuncParam × List UInt8) → Prop
  | [] => True
  | (eFuncParam, word) :: rest =>
      (eFuncParam.copied → (trimmed word).length < 128) ∧
        ((convert eFuncParam word).isSome → Short rest)

instance decidableShort : (params : List (FuncParam × List UInt8)) → Decidable (Short params)
  | [] => isTrue trivial
  | (_, _) :: rest =>
      have : Decidable (Short rest) := decidableShort rest
      inferInstanceAs (Decidable ((_ → _) ∧ (_ → _)))

theorem short_cons {eFuncParam : FuncParam} {word : List UInt8}
    {rest : List (FuncParam × List UInt8)} :
    Short ((eFuncParam, word) :: rest) ↔
      (eFuncParam.copied → (trimmed word).length < 128) ∧
        ((convert eFuncParam word).isSome → Short rest) := Iff.rfl

def converted (params : List (FuncParam × List UInt8)) : Option (List CliParam) :=
  params.mapM fun param => convert param.1 param.2

section Convert

theorem convertParam_eq (eFuncParam : FuncParam) (word : List UInt8) (list : ParamList) :
    convertParam eFuncParam word list =
      if eFuncParam.copied → (trimmed word).length < 128 then
        some ((convert eFuncParam word).map list.push)
      else none := by
  cases eFuncParam with
  | u32 =>
      rw [convertParam, string2Uint32_eq]
      by_cases hfit : (trimmed word).length < 128
      · rw [if_pos hfit, if_pos fun _ => hfit, convert, Option.map_map]
        rfl
      · rw [if_neg hfit, if_neg fun hall => hfit (hall rfl)]
        rfl
  | setU32 =>
      rw [convertParam, string2SetU32_eq]
      by_cases hfit : (trimmed word).length < 128
      · rw [if_pos hfit, if_pos fun _ => hfit, convert, Option.map_map]
        rfl
      · rw [if_neg hfit, if_neg fun hall => hfit (hall rfl)]
        rfl
  | str => exact (if_pos nofun).symm
  | void => exact (if_pos nofun).symm
  | invalid => exact (if_pos nofun).symm

/-- The words in the slots. -/
def placed (words : List (List UInt8)) (slots : List (FuncParam × Nat)) :
    List (FuncParam × List UInt8) :=
  slots.map fun slot => (slot.1, words.getD slot.2 [])

theorem convertParams_eq {words : List (List UInt8)} {slots : List (FuncParam × Nat)}
    (line : List UInt8) (hslots : ∀ slot ∈ slots, slot.2 < words.length) (list : ParamList) :
    convertParams (line :: words) slots list =
      if Short (placed words slots) then
        some ((converted (placed words slots)).map fun params => params.foldl ParamList.push list)
      else none := by
  induction slots generalizing list with
  | nil => rfl
  | cons slot rest ih =>
      obtain ⟨eFuncParam, index⟩ := slot
      have hindex := hslots _ List.mem_cons_self
      have hread : (line :: words)[index + 1]? = some (words.getD index []) := by
        rw [List.getElem?_cons_succ, List.getD_eq_getElem?_getD, List.getElem?_eq_getElem hindex]
        rfl
      have hplaced : placed words ((eFuncParam, index) :: rest) =
          (eFuncParam, words.getD index []) :: placed words rest := rfl
      rw [convertParams, hread, hplaced, converted, List.mapM_cons]
      simp only [Option.bind_eq_bind, Option.bind_some, convertParam_eq, short_cons]
      generalize words.getD index [] = word
      by_cases hfit : eFuncParam.copied → (trimmed word).length < 128
      · rw [if_pos hfit, Option.bind_some]
        cases convert eFuncParam word with
        | none => exact (if_pos ⟨hfit, nofun⟩).symm
        | some param =>
            have hrest := ih (fun slot hslot => hslots slot (List.mem_cons_of_mem _ hslot))
              (list.push param)
            rw [Option.map_some]
            dsimp only
            rw [hrest]
            by_cases hshort : Short (placed words rest)
            · rw [if_pos hshort, if_pos ⟨hfit, fun _ => hshort⟩, converted]
              cases List.mapM (fun param => convert param.1 param.2) (placed words rest) <;> rfl
            · rw [if_neg hshort, if_neg fun hall => hshort (hall.2 rfl)]
      -- the word is copied first, so that it is too long whether it converts or not
      · rw [if_neg hfit, if_neg fun hall => hfit hall.1, Option.bind_none]

theorem convert_type {eFuncParam : FuncParam} {word : List UInt8} {param : CliParam}
    (hconvert : convert eFuncParam word = some param) : param.type = eFuncParam := by
  cases eFuncParam with
  | u32 =>
      obtain ⟨num, -, rfl⟩ := Option.map_eq_some_iff.mp hconvert
      rfl
  | setU32 =>
      obtain ⟨set, -, rfl⟩ := Option.map_eq_some_iff.mp hconvert
      rfl
  | str =>
      cases hconvert
      rfl
  | void => cases hconvert
  | invalid => cases hconvert

/-- The types of what words are converted to are those that were asked for. -/
theorem converted_types {params : List (FuncParam × List UInt8)} {list : List CliParam}
    (hlist : converted params = some list) : list.map CliParam.type = params.map Prod.fst := by
  induction params generalizing list with
  | nil =>
      cases hlist
      rfl
  | cons param rest ih =>
      rw [converted, List.mapM_cons] at hlist
      obtain ⟨first, hfirst, hlist⟩ := Option.bind_eq_some_iff.mp hlist
      obtain ⟨later, hlater, hlist⟩ := Option.bind_eq_some_iff.mp hlist
      cases hlist
      rw [List.map_cons, List.map_cons, ih hlater, convert_type hfirst]

/-- There is a first parameter of a type when there is one at all. -/
theorem head_isSome_iff {β : Type} {f : CliParam → Option β} {type : FuncParam}
    (htype : ∀ param : CliParam, (f param).isSome ↔ param.type = type) (list : List CliParam) :
    ((list.filterMap f)[0]?).isSome ↔ type ∈ list.map CliParam.type := by
  induction list with
  | nil => exact iff_of_false Bool.false_ne_true List.not_mem_nil
  | cons param rest ih =>
      rw [List.map_cons, List.mem_cons, List.filterMap_cons]
      cases hparam : f param with
      | none =>
          have hother : ¬ type = param.type := fun hsame => by
            have hsome := (htype param).mpr hsame.symm
            rw [hparam] at hsome
            cases hsome
          rw [or_iff_right hother]
          exact ih
      | some value =>
          have hsame := (htype param).mp (by rw [hparam]; rfl)
          exact iff_of_true rfl (Or.inl hsame.symm)

/-- A handler finds what it takes, or is not called. -/
theorem execute_isSome_iff (strCmd : List UInt8) (entry : CliFormEntry Target Proc)
    (list : List CliParam) :
    (execute strCmd entry (list.foldl ParamList.push ⟨[], [], []⟩)).isSome ↔
      (entry.m_pTarget.isSome →
        ∀ eFuncParam ∈ entry.m_eFormType.params, eFuncParam ∈ list.map CliParam.type) := by
  have hu32 := @head_isSome_iff _ CliParam.u32? .u32 (fun param => by
    cases param <;> simp [CliParam.u32?, CliParam.type]) list
  have hstr := @head_isSome_iff _ CliParam.str? .str (fun param => by
    cases param <;> simp [CliParam.str?, CliParam.type]) list
  have hset := @head_isSome_iff _ CliParam.setU32? .setU32 (fun param => by
    cases param <;> simp [CliParam.setU32?, CliParam.type]) list
  rw [ParamList.foldl_push]
  obtain ⟨form, types, proc, target⟩ := entry
  cases target with
  | none => cases form <;> simp [execute, onTarget]
  | some target =>
      cases form with
      | vsetu32 => simpa [execute, onTarget, FuncFormType.params] using hset
      | vstr => simpa [execute, onTarget, FuncFormType.params] using hstr
      | vu32setu32 =>
          have hboth : (∀ eFuncParam ∈ FuncFormType.vu32setu32.params,
              eFuncParam ∈ list.map CliParam.type) ↔
              (list.filterMap CliParam.u32?)[0]?.isSome ∧
                (list.filterMap CliParam.setU32?)[0]?.isSome := by
            rw [hu32, hset, FuncFormType.params, List.forall_mem_cons, List.forall_mem_singleton]
          rw [hboth, execute]
          simp only [List.nil_append]
          generalize (list.filterMap CliParam.u32?)[0]? = num
          generalize (list.filterMap CliParam.setU32?)[0]? = set
          cases num <;> cases set <;> simp [onTarget]
      | _ => simp [execute, onTarget, FuncFormType.params]

end Convert

/-! ## The pattern that is meant -/

/-- The pattern has as many words as the line, and becomes it. -/
structure Becomes (line strCmd : List UInt8) (reverted : Reverted) : Prop where
  size : (GetParamsSize strCmd + 1).toNat = (ParseSubCmdLine line).length
  revert : revert (ParseSubCmdLine line) strCmd = some reverted
  same : reverted.strRevertCmd = line

def Meant (line strCmd : List UInt8) : Prop := ∃ reverted, Becomes line strCmd reverted

/-- The search comes to this entry when it does not end at one before it. -/
def Reached (ends : List UInt8 → Prop) (entries : List (List UInt8 × CliFormEntry Target Proc))
    (strCmd : List UInt8) (entry : CliFormEntry Target Proc) : Prop :=
  ∃ front back, entries = front ++ (strCmd, entry) :: back ∧ ∀ other ∈ front, ¬ ends other.1

/-- The parameters of an entry, with the words in the places of its stars. -/
def placedIn (line : List UInt8) (entry : CliFormEntry Target Proc) (reverted : Reverted) :
    List (FuncParam × List UInt8) :=
  placed (subCmds line) (entry.m_eFuncParams.toList.zip reverted.vecParamSlots)

/-- When the pattern that is meant is called for, the words that are copied fit, and its handler
takes no parameter that its pattern does not have. -/
def Served (line : List UInt8) (entry : CliFormEntry Target Proc) (reverted : Reverted) : Prop :=
  reverted.uParamCnt = reverted.vecParamSlots.length → reverted.uParamCnt ≤ MAX_FUNC_PARAS →
    Short (placedIn line entry reverted) ∧
      ((converted (placedIn line entry reverted)).isSome → entry.m_pTarget.isSome →
        ∀ eFuncParam ∈ entry.m_eFormType.params,
          eFuncParam ∈ (placedIn line entry reverted).map Prod.fst)

/-- What the line must be like for every write and every index to lie inside. -/
structure Fits (line : List UInt8) (entries : List (List UInt8 × CliFormEntry Target Proc)) :
    Prop where
  /-- Only a pattern that has more words than a `uint32_t` counts can fail here. -/
  words : ∀ strCmd entry, Reached (Meant line) entries strCmd entry → 2 ^ 32 ≤ strCmd.count 32 + 2 →
    (GetParamsSize strCmd + 1).toNat = (ParseSubCmdLine line).length →
      (revert (ParseSubCmdLine line) strCmd).isSome
  params : ∀ strCmd entry reverted, Reached (Meant line) entries strCmd entry →
    Becomes line strCmd reverted → Served line entry reverted

section Safe

theorem handleEntry_isSome_iff {line : List UInt8} {reverted : Reverted}
    (hslots : ∀ slot ∈ reverted.vecParamSlots, slot < (subCmds line).length)
    (strCmd : List UInt8) (entry : CliFormEntry Target Proc) :
    (handleEntry (ParseSubCmdLine line) strCmd entry reverted).isSome ↔
      Served line entry reverted := by
  have hzip : ∀ slot ∈ entry.m_eFuncParams.toList.zip reverted.vecParamSlots,
      slot.2 < (subCmds line).length := fun slot hslot => hslots _ (List.of_mem_zip hslot).2
  have hconvert := convertParams_eq line hzip ⟨[], [], []⟩
  rw [handleEntry, Served, placedIn]
  split
  next hcount =>
    rw [ParseSubCmdLine, hconvert, forall_prop_of_true hcount.1, forall_prop_of_true hcount.2]
    generalize hparams : placed (subCmds line) _ = params
    by_cases hshort : Short params
    · rw [if_pos hshort, and_iff_right hshort]
      cases hlist : converted params with
      | none => exact iff_of_true rfl nofun
      | some list =>
          rw [← converted_types hlist]
          exact (execute_isSome_iff strCmd entry list).trans
            ⟨fun hcalled _ => hcalled, fun hcalled => hcalled rfl⟩
    · rw [if_neg hshort]
      exact iff_of_false Bool.false_ne_true fun hall => hshort hall.1
  next hcount => exact iff_of_true rfl fun hsame hless => absurd ⟨hsame, hless⟩ hcount

variable {line : List UInt8} {entries rest : List (List UInt8 × CliFormEntry Target Proc)}
  {first strCmd : List UInt8} {firstEntry entry : CliFormEntry Target Proc}

theorem reached_cons {ends : List UInt8 → Prop} :
    Reached ends ((first, firstEntry) :: rest) strCmd entry ↔
      (strCmd = first ∧ entry = firstEntry) ∨ ¬ ends first ∧ Reached ends rest strCmd entry := by
  constructor
  · rintro ⟨front, back, hentries, hfront⟩
    cases front with
    | nil =>
        cases hentries
        exact Or.inl ⟨rfl, rfl⟩
    | cons other front =>
        cases hentries
        exact Or.inr ⟨hfront _ List.mem_cons_self, front, back, rfl,
          fun other hother => hfront other (List.mem_cons_of_mem _ hother)⟩
  · rintro (⟨rfl, rfl⟩ | ⟨hfirst, front, back, rfl, hfront⟩)
    · exact ⟨[], rest, rfl, nofun⟩
    · exact ⟨(first, firstEntry) :: front, back, rfl, List.forall_mem_cons.mpr ⟨hfirst, hfront⟩⟩

theorem not_reached_nil (ends : List UInt8 → Prop) (strCmd : List UInt8)
    (entry : CliFormEntry Target Proc) : ¬ Reached ends [] strCmd entry := by
  rintro ⟨front, back, hentries, -⟩
  exact List.append_ne_nil_of_right_ne_nil _ (List.cons_ne_nil _ _) hentries.symm

theorem fits_cons : Fits line ((first, firstEntry) :: rest) ↔
    (2 ^ 32 ≤ first.count 32 + 2 →
      (GetParamsSize first + 1).toNat = (ParseSubCmdLine line).length →
        (revert (ParseSubCmdLine line) first).isSome) ∧
    (∀ reverted, Becomes line first reverted → Served line firstEntry reverted) ∧
    (¬ Meant line first → Fits line rest) := by
  constructor
  · rintro ⟨hwords, hparams⟩
    exact ⟨hwords first firstEntry (reached_cons.mpr (Or.inl ⟨rfl, rfl⟩)),
      fun reverted => hparams first firstEntry reverted (reached_cons.mpr (Or.inl ⟨rfl, rfl⟩)),
      fun hfirst => ⟨fun strCmd entry hreached => hwords strCmd entry
          (reached_cons.mpr (Or.inr ⟨hfirst, hreached⟩)),
        fun strCmd entry reverted hreached => hparams strCmd entry reverted
          (reached_cons.mpr (Or.inr ⟨hfirst, hreached⟩))⟩⟩
  · rintro ⟨hwords, hparams, hrest⟩
    refine ⟨fun strCmd entry hreached => ?_, fun strCmd entry reverted hreached => ?_⟩
    · rcases reached_cons.mp hreached with ⟨rfl, rfl⟩ | ⟨hfirst, hreached⟩
      · exact hwords
      · exact (hrest hfirst).words strCmd entry hreached
    · rcases reached_cons.mp hreached with ⟨rfl, rfl⟩ | ⟨hfirst, hreached⟩
      · exact hparams reverted
      · exact (hrest hfirst).params strCmd entry reverted hreached

/-- With the words that a `uint32_t` counts the places are inside the line. -/
theorem revert_isSome_of_size (hwords : ∀ word ∈ subCmds line, 32 ∉ word)
    (hsize : (subCmds line).length + 1 < 2 ^ 32) (hless : strCmd.count 32 + 2 < 2 ^ 32)
    (hcheck : (GetParamsSize strCmd + 1).toNat = (ParseSubCmdLine line).length) :
    (revert (ParseSubCmdLine line) strCmd).isSome := by
  apply revert_isSome hwords hsize
  rw [GetParamsSize_eq, ParseSubCmdLine, List.length_cons, UInt32.toNat_add,
    UInt32.toNat_ofNat'] at hcheck
  have hone : (1 : UInt32).toNat = 1 := rfl
  omega

theorem Becomes.unique {reverted other : Reverted} (hbecomes : Becomes line strCmd reverted)
    (hother : Becomes line strCmd other) : other = reverted :=
  Option.some.inj (hother.revert.symm.trans hbecomes.revert)

/-- The search ends at a pattern that becomes the line. -/
theorem tryEntries_becomes {reverted : Reverted} (hbecomes : Becomes line first reverted) :
    tryEntries line (ParseSubCmdLine line) ((first, firstEntry) :: rest) =
      handleEntry (ParseSubCmdLine line) first firstEntry reverted := by
  rw [tryEntries, if_neg (not_not.mpr hbecomes.size), hbecomes.revert, Option.bind_eq_bind,
    Option.bind_some, if_pos hbecomes.same]

/-- It goes on behind one that becomes something else. -/
theorem tryEntries_pass (hother : ¬ Meant line first)
    (hsome : (GetParamsSize first + 1).toNat = (ParseSubCmdLine line).length →
      (revert (ParseSubCmdLine line) first).isSome) :
    tryEntries line (ParseSubCmdLine line) ((first, firstEntry) :: rest) =
      tryEntries line (ParseSubCmdLine line) rest := by
  rw [tryEntries]
  split
  next => rfl
  next hcheck =>
    have hcheck := not_not.mp hcheck
    obtain ⟨reverted, hrevert⟩ := Option.isSome_iff_exists.mp (hsome hcheck)
    rw [hrevert, Option.bind_eq_bind, Option.bind_some,
      if_neg fun hsame => hother ⟨reverted, hcheck, hrevert, hsame⟩]

/-- The loop over the entries. -/
theorem tryEntries_isSome_iff (hwords : ∀ word ∈ subCmds line, 32 ∉ word)
    (hsize : (subCmds line).length + 1 < 2 ^ 32)
    (entries : List (List UInt8 × CliFormEntry Target Proc)) :
    (tryEntries line (ParseSubCmdLine line) entries).isSome ↔ Fits line entries := by
  induction entries with
  | nil =>
      exact iff_of_true rfl
        ⟨fun strCmd entry hreached => absurd hreached (not_reached_nil _ strCmd entry),
          fun strCmd entry _ hreached => absurd hreached (not_reached_nil _ strCmd entry)⟩
  | cons first rest ih =>
      obtain ⟨first, firstEntry⟩ := first
      rw [fits_cons]
      by_cases hsome : (GetParamsSize first + 1).toNat = (ParseSubCmdLine line).length →
          (revert (ParseSubCmdLine line) first).isSome
      · by_cases hmeant : Meant line first
        · obtain ⟨reverted, hbecomes⟩ := hmeant
          rw [tryEntries_becomes hbecomes,
            handleEntry_isSome_iff (revert_keeps hwords hbecomes.revert).1]
          refine ⟨fun hserved => ⟨fun _ => hsome, fun other hother => ?_,
            fun hnone => absurd ⟨reverted, hbecomes⟩ hnone⟩, fun hall => hall.2.1 reverted hbecomes⟩
          rw [hbecomes.unique hother]
          exact hserved
        · rw [tryEntries_pass hmeant hsome, ih]
          exact ⟨fun hrest => ⟨fun _ => hsome, fun other hother => absurd ⟨other, hother⟩ hmeant,
            fun _ => hrest⟩, fun hall => hall.2.2 hmeant⟩
      · obtain ⟨hcheck, hnone⟩ := Classical.not_imp.mp hsome
        have hlong : 2 ^ 32 ≤ first.count 32 + 2 := Nat.le_of_not_lt fun hless =>
          hnone (revert_isSome_of_size hwords hsize hless hcheck)
        refine iff_of_false ?_ fun hall => hnone (hall.1 hlong hcheck)
        rw [tryEntries, if_neg (not_not.mpr hcheck), Option.not_isSome_iff_eq_none.mp hnone]
        exact Bool.false_ne_true

end Safe

section Line

/-- What is left of a line is at most 1023 bytes. -/
theorem length_trimmed_lt (strCmd : List UInt8) : (trimmed strCmd).length < MAX_CMD_SIZE := by
  have hright := (List.rdropWhile_prefix isWhite
    (((cstr strCmd).take (MAX_CMD_SIZE - 1)).dropWhile isBlank)).length_le
  have hleft :=
    (List.dropWhile_suffix isBlank (l := (cstr strCmd).take (MAX_CMD_SIZE - 1))).length_le
  have htake := List.length_take_le (MAX_CMD_SIZE - 1) (cstr strCmd)
  rw [trimmed]
  exact Nat.lt_of_le_of_lt (hright.trans (hleft.trans htake)) (by decide)

/-- The words of a line that has been trimmed. -/
theorem subCmds_trimmed {strCmd : List UInt8} (hsome : trimmed strCmd ≠ []) :
    subCmds (trimmed strCmd) = (trimmed strCmd).splitOn 32 :=
  subCmds_eq hsome (getLast?_trimmed strCmd)

theorem CmdLineHandle_eq (helper : CCliServerHelper Target Proc) {strCmd : List UInt8}
    (hsome : trimmed strCmd ≠ []) :
    CmdLineHandle helper strCmd =
      tryEntries (trimmed strCmd) (ParseSubCmdLine (trimmed strCmd)) helper.entries := by
  rw [CmdLineHandle, TrimCmd_eq, Option.bind_eq_bind, Option.bind_some, if_neg hsome]

/-- Every write into a buffer and every index lies inside exactly when the line fits. -/
theorem CmdLineHandle_isSome_iff (helper : CCliServerHelper Target Proc) (strCmd : List UInt8) :
    (CmdLineHandle helper strCmd).isSome ↔
      trimmed strCmd = [] ∨ Fits (trimmed strCmd) helper.entries := by
  by_cases hempty : trimmed strCmd = []
  · rw [CmdLineHandle, TrimCmd_eq, Option.bind_eq_bind, Option.bind_some, if_pos hempty]
    exact iff_of_true rfl (Or.inl hempty)
  · rw [CmdLineHandle_eq helper hempty, or_iff_right hempty]
    refine tryEntries_isSome_iff ?_ ?_ helper.entries
    · rw [subCmds_trimmed hempty]
      exact fun word hword => (mem_splitOn hword).1
    · have hcount := List.count_le_length (a := 32) (l := trimmed strCmd)
      have hlength := length_trimmed_lt strCmd
      rw [subCmds_trimmed hempty, length_splitOn]
      rw [MAX_CMD_SIZE] at hlength
      omega

/-- "a *", which takes a set. -/
def setTable : CCliServerHelper Unit Unit :=
  OrderedMap.empty.set [97, 32, 42] ⟨.vsetu32, #v[.setU32, .void, .void], (), some ()⟩

/-- A parameter of 128 digits: its NUL is written behind `chParam`. -/
theorem digits_overrun :
    CmdLineHandle setTable (97 :: 32 :: List.replicate 128 48) = none := by
  have htrimmed : trimmed (97 :: 32 :: List.replicate 128 48) =
      97 :: 32 :: List.replicate 128 48 := by decide +kernel
  have hwords : subCmds (97 :: 32 :: List.replicate 128 48) = [[97], List.replicate 128 48] := by
    rw [subCmds_eq (List.cons_ne_nil _ _) (by decide +kernel)]
    decide +kernel
  rw [CmdLineHandle_eq _ (by rw [htrimmed]; exact List.cons_ne_nil _ _), htrimmed, ParseSubCmdLine,
    hwords]
  exact Option.not_isSome_iff_eq_none.mp (by decide +kernel)

end Line

end CCliServerHelper

end ServiceFrame
