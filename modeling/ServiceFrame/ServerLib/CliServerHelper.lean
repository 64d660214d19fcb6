import Mathlib.Data.List.DropRight
import ServiceFrame.Foundation.CString
import ServiceFrame.Foundation.OrderedMap
import ServiceFrame.Foundation.Run

/-! # The command lines of the operator's console

A command is a pattern with a `*` for each parameter. The words of a line are put in the places
of the stars, and the pattern whose text has become the line is the one meant. Every write into a
buffer and every index is checked: there is no result when one lies outside.
-/

namespace ServiceFrame

open Foundation

def MAX_CMD_SIZE : Nat := 1024

def MAX_FUNC_PARAS : Nat := 3

namespace CCliServerHelper

/-! ## Trimming -/

/-- ' ' and '\\t'. -/
def isBlank (byte : UInt8) : Bool := byte = 32 || byte = 9

/-- Those, '\\n' and '\\r'. -/
def isWhite (byte : UInt8) : Bool := byte = 32 || byte = 9 || byte = 10 || byte = 13

/-- `snprintf(buffer, size, "%s", text)`. -/
def snprintf (buffer : List UInt8) (size : Nat) (text : List UInt8) : Option (List UInt8) :=
  overwriteInside buffer 0 (text.take (size - 1) ++ [0])

/-- `sprintf(buffer, "%s", text)`. -/
def sprintf (buffer text : List UInt8) : Option (List UInt8) :=
  overwriteInside buffer 0 (text ++ [0])

/-- The bytes from `uCnt` on are moved to the front, one by one, up to their NUL. -/
def trimLeft (chCliCmd : List UInt8) : Option (List UInt8) :=
  let uCnt := (chCliCmd.takeWhile isBlank).length
  if 0 < uCnt then do
    let left := (cstr chCliCmd).length - uCnt
    let moved ← (List.range left).foldlM (fun chCliCmd nIndex => do
      let byte ← chCliCmd[uCnt + nIndex]?
      overwriteInside chCliCmd nIndex [byte]) chCliCmd
    overwriteInside moved left [0]
  else some chCliCmd

/-- The white bytes below an index are overwritten, down to the first other one. -/
def trimRight (chCliCmd : List UInt8) : Nat → Option (List UInt8)
  | 0 => some chCliCmd
  | nIndex + 1 => do
      let byte ← chCliCmd[nIndex]?
      if isWhite byte then
        let chCliCmd ← overwriteInside chCliCmd nIndex [0]
        trimRight chCliCmd nIndex
      else some chCliCmd

def TrimCmd (strCmd : List UInt8) : Option (List UInt8) := do
  let chCliCmd ← snprintf (List.replicate MAX_CMD_SIZE 0) MAX_CMD_SIZE (cstr strCmd)
  let chCliCmd ← trimLeft chCliCmd
  let chCliCmd ← trimRight chCliCmd (cstr chCliCmd).length
  return cstr chCliCmd

/-- What is left of a text. -/
def trimmed (strCmd : List UInt8) : List UInt8 :=
  (((cstr strCmd).take (MAX_CMD_SIZE - 1)).dropWhile isBlank).rdropWhile isWhite

section Trim

variable {text rest : List UInt8}

theorem snprintf_eq {buffer : List UInt8} (hsize : buffer.length = MAX_CMD_SIZE)
    (text : List UInt8) :
    ∃ junk, snprintf buffer MAX_CMD_SIZE text =
      some (text.take (MAX_CMD_SIZE - 1) ++ 0 :: junk) := by
  have hfit : (text.take (MAX_CMD_SIZE - 1) ++ [0]).length ≤ buffer.length := by
    rw [List.length_append, List.length_take, hsize, List.length_singleton, MAX_CMD_SIZE]
    omega
  refine ⟨buffer.drop (text.take (MAX_CMD_SIZE - 1) ++ [0]).length, ?_⟩
  rw [snprintf, overwriteInside, if_pos (by rwa [Nat.zero_add]), overwrite_zero, List.append_assoc]
  rfl

/-- Each byte is read before anything is written there. -/
theorem moved_eq {uCnt left : Nat} (buffer : List UInt8) (hleft : uCnt + left ≤ buffer.length) :
    (List.range left).foldlM (fun chCliCmd nIndex => do
      let byte ← chCliCmd[uCnt + nIndex]?
      overwriteInside chCliCmd nIndex [byte]) buffer =
      some ((buffer.drop uCnt).take left ++ buffer.drop left) := by
  induction left with
  | zero => rfl
  | succ left ih =>
      have hread : uCnt + left < buffer.length := by omega
      have hlength : ((buffer.drop uCnt).take left).length = left := by
        rw [List.length_take, List.length_drop]
        omega
      have hbyte : ((buffer.drop uCnt).take left ++ buffer.drop left)[uCnt + left]? =
          some buffer[uCnt + left] := by
        rw [List.getElem?_append_right (by omega), hlength, Nat.add_sub_cancel,
          List.getElem?_drop, Nat.add_comm, List.getElem?_eq_getElem hread]
      rw [List.range_succ, List.foldlM_append, ih (by omega)]
      simp only [Option.bind_eq_bind, Option.bind_some, List.foldlM_cons, List.foldlM_nil, hbyte]
      rw [List.drop_eq_getElem_cons (by omega : left < buffer.length),
        overwriteInside_cell hlength.symm, Option.bind_some, List.take_add_one, List.getElem?_drop,
        List.getElem?_eq_getElem hread, Option.toList_some, List.append_assoc]
      rfl

theorem trimLeft_eq (hnul : 0 ∉ text) (junk : List UInt8) :
    ∃ junk', trimLeft (text ++ 0 :: junk) = some (text.dropWhile isBlank ++ 0 :: junk') := by
  have hblanks : (text ++ 0 :: junk).takeWhile isBlank = text.takeWhile isBlank := by
    rw [List.takeWhile_append]
    split
    next hall =>
      rw [List.takeWhile_cons_of_neg (by decide), List.append_nil,
        (List.takeWhile_prefix _).eq_of_length hall]
    next => rfl
  have hsplit := @List.takeWhile_append_dropWhile _ isBlank text
  have hlength := congrArg List.length hsplit
  rw [List.length_append] at hlength
  unfold trimLeft
  rw [hblanks, cstr_append_nul hnul]
  dsimp only
  split
  next hsome =>
    have hleft : text.length - (text.takeWhile isBlank).length =
        (text.dropWhile isBlank).length := by omega
    have hbody : ((text ++ 0 :: junk).drop (text.takeWhile isBlank).length).take
        (text.dropWhile isBlank).length = text.dropWhile isBlank := by
      have hbuffer : text ++ 0 :: junk =
          text.takeWhile isBlank ++ (text.dropWhile isBlank ++ 0 :: junk) := by
        rw [← List.append_assoc, hsplit]
      rw [hbuffer, List.drop_left, List.take_left]
    have hinside : (text.dropWhile isBlank).length < (text ++ 0 :: junk).length := by
      rw [List.length_append]
      omega
    simp only [hleft]
    rw [moved_eq _ (by rw [List.length_append]; omega), hbody,
      List.drop_eq_getElem_cons hinside, Option.bind_eq_bind, Option.bind_some,
      overwriteInside_cell rfl]
    exact ⟨_, rfl⟩
  next hnone =>
    have hempty : text.takeWhile isBlank = [] := List.eq_nil_of_length_eq_zero (by omega)
    rw [hempty, List.nil_append] at hsplit
    rw [hsplit]
    exact ⟨junk, rfl⟩

theorem trimRight_eq (text junk : List UInt8) :
    ∃ junk', trimRight (text ++ 0 :: junk) text.length =
      some (text.rdropWhile isWhite ++ 0 :: junk') := by
  induction text using List.reverseRecOn generalizing junk with
  | nil => exact ⟨junk, rfl⟩
  | append_singleton text byte ih =>
      have hread : (text ++ [byte] ++ 0 :: junk)[text.length]? = some byte := by simp
      rw [List.length_append, List.length_singleton, trimRight, hread]
      simp only [Option.bind_eq_bind, Option.bind_some]
      split
      next hwhite =>
        rw [List.rdropWhile_concat_pos _ _ _ hwhite, List.append_assoc, List.singleton_append,
          overwriteInside_cell rfl, Option.bind_some]
        exact ih (0 :: junk)
      next hother =>
        rw [List.rdropWhile_concat_neg _ _ _ hother]
        exact ⟨junk, rfl⟩

theorem zero_notMem_trimmed (strCmd : List UInt8) : 0 ∉ trimmed strCmd := fun hzero =>
  zero_notMem_cstr strCmd (List.mem_of_mem_take ((List.dropWhile_suffix _).mem
    ((List.rdropWhile_prefix _ _).mem hzero)))

/-- No byte is written outside the buffer. -/
theorem TrimCmd_eq (strCmd : List UInt8) : TrimCmd strCmd = some (trimmed strCmd) := by
  have hnul : 0 ∉ (cstr strCmd).take (MAX_CMD_SIZE - 1) := fun hzero =>
    zero_notMem_cstr strCmd (List.mem_of_mem_take hzero)
  have hnul' : 0 ∉ ((cstr strCmd).take (MAX_CMD_SIZE - 1)).dropWhile isBlank := fun hzero =>
    hnul ((List.dropWhile_suffix _).mem hzero)
  have hsize : (List.replicate MAX_CMD_SIZE (0 : UInt8)).length = MAX_CMD_SIZE :=
    List.length_replicate
  obtain ⟨junk, hprint⟩ := snprintf_eq hsize (cstr strCmd)
  obtain ⟨junk', hleft⟩ := trimLeft_eq hnul junk
  obtain ⟨junk'', hright⟩ := trimRight_eq
    (((cstr strCmd).take (MAX_CMD_SIZE - 1)).dropWhile isBlank) junk'
  simp only [TrimCmd, Option.bind_eq_bind, hprint, Option.bind_some, hleft, cstr_append_nul hnul',
    hright]
  exact congrArg some (cstr_append_nul (zero_notMem_trimmed strCmd) junk'')

theorem isWhite_of_isBlank {byte : UInt8} (hblank : isBlank byte) : isWhite byte := by
  simp only [isBlank, isWhite, Bool.or_eq_true, decide_eq_true_eq] at hblank ⊢
  exact Or.inl (Or.inl hblank)

/-- A text without white bytes at its ends stays as it is. -/
theorem trimmed_eq_self (hnul : 0 ∉ text) (hsize : text.length < MAX_CMD_SIZE)
    (hwhite : ∀ byte ∈ text, ¬ isWhite byte) : trimmed text = text := by
  rw [trimmed, cstr_of_notMem hnul, List.take_of_length_le (Nat.le_sub_one_of_lt hsize)]
  have hleft : text.dropWhile isBlank = text := by
    rw [List.dropWhile_eq_self_iff]
    exact fun hpos hblank => hwhite _ (List.getElem_mem hpos) (isWhite_of_isBlank hblank)
  rw [hleft, List.rdropWhile_eq_self_iff]
  exact fun hne => hwhite _ (List.getLast_mem hne)

end Trim

/-! ## Parameters

A conversion that fails is `some none`.
-/

def string2Uint32 (strParam : List UInt8) : Option (Option UInt32) := do
  let strNewParam ← TrimCmd strParam
  let chParam ← sprintf (List.replicate 128 0) (cstr strNewParam)
  if !(cstr chParam).all isDigit then return none
  if cstr chParam = [] then return none
  return some (UInt32.ofNat (strtoul (cstr chParam)))

/-- '0' to '9' and ','. -/
def isListByte (byte : UInt8) : Bool := isDigit byte || byte = 44

/-- A number of the list goes into the set, if there is one between the commas. -/
def insertNum (strNum : List UInt8) (setU32 : IdSet) : Option (Option IdSet) :=
  if strNum = [] then some (some setU32)
  else (string2Uint32 strNum).map fun uTNum => uTNum.map fun uTNum => setU32.set uTNum ()

/-- The last number, which is left out when it is none. -/
def insertLast (strLeftNum : List UInt8) (setU32 : IdSet) : Option (Option IdSet) :=
  (string2Uint32 strLeftNum).map fun uNum => some (uNum.elim setU32 fun uNum => setU32.set uNum ())

/-- The loop over `strLeftNum`. -/
def insertNums (strLeftNum : List UInt8) (setU32 : IdSet) : Option (Option IdSet) :=
  if strLeftNum = [] then some (some setU32)
  else
    match _hcut : cutAt 44 strLeftNum with
    | none => insertLast strLeftNum setU32
    | some (strNum, strLeftNum) =>
        (insertNum strNum setU32).bind fun inserted =>
          match inserted with
          | none => some none
          | some setU32 =>
              if strLeftNum = [] then some (some setU32) else insertNums strLeftNum setU32
  termination_by strLeftNum.length
  decreasing_by exact length_lt_of_cutAt _hcut

def string2SetU32 (strParam : List UInt8) : Option (Option IdSet) := do
  let strNewParam ← TrimCmd strParam
  let chParam ← sprintf (List.replicate 128 0) (cstr strNewParam)
  if !(cstr chParam).all isListByte then return none
  insertNums strNewParam OrderedMap.empty

/-- What a text of digits is converted to. -/
def toUint32 (text : List UInt8) : Option UInt32 :=
  if text ≠ [] ∧ text.all isDigit then some (UInt32.ofNat (strtoul text)) else none

/-- The number goes into the set. -/
def insertText (setU32 : IdSet) (strNum : List UInt8) : IdSet :=
  setU32.set (UInt32.ofNat (strtoul strNum)) ()

/-- What a list of such texts is converted to. -/
def toSetU32 (text : List UInt8) : Option IdSet :=
  if text.all isListByte then some ((tokens 44 text).foldl insertText OrderedMap.empty) else none

section Params

theorem sprintf_eq {buffer text : List UInt8} (hfit : text.length < buffer.length) :
    ∃ junk, sprintf buffer text = some (text ++ 0 :: junk) := by
  refine ⟨buffer.drop (text ++ [0]).length, ?_⟩
  have hfit' : 0 + (text ++ [0]).length ≤ buffer.length := by
    rw [List.length_append, List.length_singleton]
    omega
  rw [sprintf, overwriteInside, if_pos hfit', overwrite_zero, List.append_assoc]
  rfl

theorem sprintf_eq_none {buffer text : List UInt8} (hlong : buffer.length ≤ text.length) :
    sprintf buffer text = none := by
  apply if_neg
  rw [List.length_append, List.length_singleton]
  omega

/-- A parameter of 128 bytes does not fit with its NUL. -/
theorem string2Uint32_eq (strParam : List UInt8) :
    string2Uint32 strParam =
      if (trimmed strParam).length < 128 then some (toUint32 (trimmed strParam)) else none := by
  have hnul := zero_notMem_trimmed strParam
  have hsize : (List.replicate 128 (0 : UInt8)).length = 128 := List.length_replicate
  simp only [string2Uint32, TrimCmd_eq, Option.bind_eq_bind, Option.bind_some, cstr_of_notMem hnul]
  split
  next hfit =>
    obtain ⟨junk, hprint⟩ := sprintf_eq (hsize.symm ▸ hfit)
    rw [hprint, Option.bind_some, cstr_append_nul hnul, toUint32]
    by_cases hdigits : (trimmed strParam).all isDigit
    · by_cases hempty : trimmed strParam = []
      · simp [hempty]
      · simp [hempty, hdigits]
    · simp [hdigits]
  next hlong => rw [sprintf_eq_none (hsize.symm ▸ Nat.le_of_not_lt hlong), Option.bind_none]

/-- A number that has no white space around it, and fits. -/
theorem string2Uint32_digits {strNum : List UInt8} (hdigits : strNum.all isDigit)
    (hsome : strNum ≠ []) (hfit : strNum.length < 128) :
    string2Uint32 strNum = some (some (UInt32.ofNat (strtoul strNum))) := by
  have hall := List.all_eq_true.mp hdigits
  have htrimmed : trimmed strNum = strNum := by
    refine trimmed_eq_self (fun hzero => absurd (hall 0 hzero) (by decide))
      (hfit.trans (by decide)) fun byte hbyte hwhite => ?_
    have hdigit := hall byte hbyte
    simp only [isDigit, isWhite, Bool.and_eq_true, Bool.or_eq_true, decide_eq_true_eq]
      at hdigit hwhite
    rcases hwhite with ((rfl | rfl) | rfl) | rfl <;> exact absurd hdigit (by decide)
  rw [string2Uint32_eq, htrimmed, if_pos hfit, toUint32, if_pos ⟨hsome, hdigits⟩]

theorem all_isDigit_of_notMem {text : List UInt8} (hall : text.all isListByte)
    (hcomma : 44 ∉ text) : text.all isDigit := by
  rw [List.all_eq_true] at hall ⊢
  intro byte hbyte
  rcases Bool.or_eq_true_iff.mp (hall byte hbyte) with hdigit | hsame
  · exact hdigit
  · exact absurd (of_decide_eq_true hsame ▸ hbyte) hcomma

theorem insertNum_eq {strNum : List UInt8} (setU32 : IdSet) (hdigits : strNum.all isDigit)
    (hfit : strNum.length < 128) :
    insertNum strNum setU32 = some (some ((finished strNum).foldl insertText setU32)) := by
  unfold insertNum finished
  split
  next => rfl
  next hsome => rw [string2Uint32_digits hdigits hsome hfit]; rfl

/-- The numbers between the commas go into the set. -/
theorem insertNums_eq (strLeftNum : List UInt8) (setU32 : IdSet)
    (hall : strLeftNum.all isListByte) (hfit : strLeftNum.length < 128) :
    insertNums strLeftNum setU32 =
      some (some ((tokens 44 strLeftNum).foldl insertText setU32)) := by
  induction hlength : strLeftNum.length using Nat.strong_induction_on
    generalizing strLeftNum setU32 with
  | _ length ih =>
      subst hlength
      by_cases hempty : strLeftNum = []
      · rw [insertNums, if_pos hempty, hempty]
        rfl
      · rw [insertNums, if_neg hempty]
        split
        next hcut =>
          have hcomma := cutAt_eq_none hcut
          have hdigits := all_isDigit_of_notMem hall hcomma
          rw [insertLast, string2Uint32_digits hdigits hempty hfit, tokens_of_notMem hcomma,
            finished, if_neg hempty]
          rfl
        next strNum behind hcut =>
          obtain ⟨rfl, hcomma⟩ := cutAt_eq_some hcut
          rw [List.all_append, Bool.and_eq_true, List.all_cons, Bool.and_eq_true] at hall
          rw [List.length_append, List.length_cons] at hfit
          rw [insertNum_eq setU32 (all_isDigit_of_notMem hall.1 hcomma) (by omega),
            Option.bind_some, tokens_append hcomma, List.foldl_append]
          dsimp only
          split
          next hlast => rw [hlast]; rfl
          next =>
            exact ih behind.length (by rw [List.length_append, List.length_cons]; omega) behind _
              hall.2.2 (by omega) rfl

theorem string2SetU32_eq (strParam : List UInt8) :
    string2SetU32 strParam =
      if (trimmed strParam).length < 128 then some (toSetU32 (trimmed strParam)) else none := by
  have hnul := zero_notMem_trimmed strParam
  have hsize : (List.replicate 128 (0 : UInt8)).length = 128 := List.length_replicate
  simp only [string2SetU32, TrimCmd_eq, Option.bind_eq_bind, Option.bind_some, cstr_of_notMem hnul]
  split
  next hfit =>
    obtain ⟨junk, hprint⟩ := sprintf_eq (hsize.symm ▸ hfit)
    rw [hprint, Option.bind_some, cstr_append_nul hnul, toSetU32]
    by_cases hall : (trimmed strParam).all isListByte
    · rw [if_pos hall, ← insertNums_eq _ _ hall hfit]
      simp [hall]
    · simp [hall]
  next hlong => rw [sprintf_eq_none (hsize.symm ▸ Nat.le_of_not_lt hlong), Option.bind_none]

end Params

/-! ## Words and places -/

/-- The words of a line; behind a space at its end there is none. -/
def subCmds (strCmdLine : List UInt8) : List (List UInt8) :=
  if strCmdLine = [] then []
  else
    match _hcut : cutAt 32 strCmdLine with
    | none => [strCmdLine]
    | some (strSubCmd, strCmdLine) => strSubCmd :: subCmds strCmdLine
  termination_by strCmdLine.length
  decreasing_by exact length_lt_of_cutAt _hcut

/-- The line itself comes first. -/
def ParseSubCmdLine (strCmd : List UInt8) : List (List UInt8) := strCmd :: subCmds strCmd

def GetParamsSize (strCmdParam : List UInt8) : UInt32 :=
  strCmdParam.foldl (fun uTotalCnt byte => if byte = 32 then uTotalCnt + 1 else uTotalCnt) 0 + 1

/-- The search for the space before the star; `uPos` is where the rest begins. -/
def slotFrom (uStarPos uPos : Nat) (uStarSlotNum : UInt32) : List UInt8 → Int32
  | [] => -1
  | byte :: rest =>
      if byte = 32 then
        if uPos + 1 = uStarPos then (uStarSlotNum + 1).toInt32
        else slotFrom uStarPos (uPos + 1) (uStarSlotNum + 1) rest
      else slotFrom uStarPos (uPos + 1) uStarSlotNum rest

def GetParamSlotNum (strCmd : List UInt8) (uStarPos : Nat) : Int32 :=
  slotFrom uStarPos 0 0 strCmd

/-- `find('*', pos)`. -/
def findStar (strCmd : List UInt8) (pos : Nat) : Option Nat :=
  ((strCmd.drop pos).findIdx? (· = 42)).map (pos + ·)

/-- A pattern with words in the places of its stars. -/
structure Reverted where
  strRevertCmd : List UInt8
  uParamCnt : Nat
  vecParamSlots : List Nat
  deriving DecidableEq

/-- The loop over the stars. Each has a space before it that the next one is behind, so that
there are no more turns than spaces. -/
def revertLoop (vecSubCmdLine : List (List UInt8)) : Nat → Reverted → Option Nat → Option Reverted
  | _, reverted, none => some reverted
  | 0, _, some _ => none
  | turns + 1, reverted, some uFndPos =>
      let reverted := { reverted with uParamCnt := reverted.uParamCnt + 1 }
      let nParamSlot := GetParamSlotNum reverted.strRevertCmd uFndPos
      -- in both breaks the star has been counted, but it has no slot
      if nParamSlot = -1 then some reverted
      else if vecSubCmdLine.length < nParamSlot.toUInt32.toNat then some reverted
      else do
        let slot := nParamSlot.toUInt32.toNat
        let word ← vecSubCmdLine[slot + 1]?
        let before ← vecSubCmdLine[slot]?
        let strRevertCmd := reverted.strRevertCmd.take uFndPos ++ word ++
          reverted.strRevertCmd.drop (uFndPos + 1)
        revertLoop vecSubCmdLine turns
          { reverted with
            strRevertCmd := strRevertCmd
            vecParamSlots := reverted.vecParamSlots ++ [slot] }
          (findStar strRevertCmd (uFndPos + before.length + 1))

def revert (vecSubCmdLine : List (List UInt8)) (strCmd : List UInt8) : Option Reverted :=
  revertLoop vecSubCmdLine (strCmd.count 32 + 1) ⟨strCmd, 0, []⟩ (findStar strCmd 0)

section Words

/-- What `trimmed` leaves does not end with a space. -/
theorem subCmds_eq {strCmdLine : List UInt8} (hsome : strCmdLine ≠ [])
    (hlast : strCmdLine.getLast? ≠ some 32) : subCmds strCmdLine = strCmdLine.splitOn 32 := by
  induction hlength : strCmdLine.length using Nat.strong_induction_on
    generalizing strCmdLine with
  | _ length ih =>
      subst hlength
      rw [subCmds, if_neg hsome]
      split
      next hcut => rw [List.splitOn_eq_singleton (cutAt_eq_none hcut)]
      next strSubCmd behind hcut =>
        have hless := length_lt_of_cutAt hcut
        obtain ⟨rfl, hspace⟩ := cutAt_eq_some hcut
        rw [List.getLast?_append_cons] at hlast
        rw [List.splitOn_append_cons_self_of_not_mem hspace]
        cases behind with
        | nil => exact absurd rfl hlast
        | cons byte rest =>
            rw [List.getLast?_cons_cons] at hlast
            rw [ih _ hless (List.cons_ne_nil byte rest) hlast rfl]

theorem getLast?_trimmed (strCmd : List UInt8) : (trimmed strCmd).getLast? ≠ some 32 := by
  by_cases hempty : trimmed strCmd = []
  · rw [hempty]
    exact Option.some_ne_none 32 |>.symm
  · rw [List.getLast?_eq_some_getLast hempty, ne_eq, Option.some.injEq]
    intro hlast
    exact List.rdropWhile_last_not isWhite _ hempty (hlast ▸ rfl)

theorem GetParamsSize_eq (strCmd : List UInt8) :
    GetParamsSize strCmd = UInt32.ofNat (strCmd.count 32 + 1) := by
  have hloop : ∀ uTotalCnt : UInt32, strCmd.foldl (fun uTotalCnt byte =>
      if byte = 32 then uTotalCnt + 1 else uTotalCnt) uTotalCnt =
      uTotalCnt + UInt32.ofNat (strCmd.count 32) := by
    induction strCmd with
    | nil => exact fun uTotalCnt => (UInt32.add_zero uTotalCnt).symm
    | cons byte rest ih =>
        intro uTotalCnt
        rw [List.foldl_cons, ih, List.count_cons]
        split
        next hspace =>
          rw [if_pos (beq_iff_eq.mpr hspace), UInt32.ofNat_add, UInt32.add_assoc,
            UInt32.add_comm 1]
          rfl
        next hother => rw [if_neg (fun hspace => hother (beq_iff_eq.mp hspace)), Nat.add_zero]
  rw [GetParamsSize, hloop, UInt32.zero_add, UInt32.ofNat_add]
  rfl

/-- The star behind a space: its slot is the number of spaces before it. -/
theorem slotFrom_space (front back : List UInt8) (uPos : Nat) (uStarSlotNum : UInt32) :
    slotFrom (uPos + front.length + 1) uPos uStarSlotNum (front ++ 32 :: back) =
      (uStarSlotNum + UInt32.ofNat (front.count 32) + 1).toInt32 := by
  induction front generalizing uPos uStarSlotNum with
  | nil =>
      rw [List.nil_append, List.length_nil, Nat.add_zero, slotFrom, if_pos rfl, if_pos rfl,
        List.count_nil]
      exact congrArg (fun num => (num + 1).toInt32) (UInt32.add_zero uStarSlotNum).symm
  | cons byte rest ih =>
      have hpos : uPos + (byte :: rest).length + 1 = uPos + 1 + rest.length + 1 := by
        rw [List.length_cons]
        omega
      rw [List.cons_append, slotFrom, hpos, List.count_cons]
      split
      next hspace =>
        rw [if_neg (by omega), ih, if_pos (beq_iff_eq.mpr hspace), UInt32.ofNat_add,
          UInt32.add_assoc uStarSlotNum, UInt32.add_comm 1]
        rfl
      next hother =>
        rw [ih, if_neg (fun hspace => hother (beq_iff_eq.mp hspace)), Nat.add_zero]

/-- A star that has no space before it. -/
theorem slotFrom_none {uStarPos uPos : Nat} {uStarSlotNum : UInt32} {strCmd : List UInt8}
    (hspace : ∀ k, uStarPos = uPos + k + 1 → strCmd[k]? ≠ some 32) :
    slotFrom uStarPos uPos uStarSlotNum strCmd = -1 := by
  induction strCmd generalizing uPos uStarSlotNum with
  | nil => rfl
  | cons byte rest ih =>
      have hrest : ∀ k, uStarPos = uPos + 1 + k + 1 → rest[k]? ≠ some 32 := fun k hk =>
        hspace (k + 1) (by omega)
      rw [slotFrom]
      split
      next hbyte =>
        have hhere : uPos + 1 ≠ uStarPos := fun hsame =>
          hspace 0 hsame.symm (congrArg some hbyte)
        rw [if_neg hhere, ih hrest]
      next => exact ih hrest

theorem toInt32_ofNat {slot : Nat} (hslot : slot + 1 < 2 ^ 32) :
    (UInt32.ofNat slot).toInt32 ≠ -1 ∧ (UInt32.ofNat slot).toInt32.toUInt32.toNat = slot := by
  have hnat : (UInt32.ofNat slot).toInt32.toUInt32.toNat = slot := by
    rw [UInt32.toUInt32_toInt32, UInt32.toNat_ofNat', Nat.mod_eq_of_lt (by omega)]
  refine ⟨fun hminus => ?_, hnat⟩
  rw [hminus] at hnat
  have hmax : (-1 : Int32).toUInt32.toNat = 2 ^ 32 - 1 := by decide
  omega

/-- A turn of the loop: the star behind a space gets its word. -/
theorem revertLoop_step {vecSubCmdLine : List (List UInt8)} {front word before : List UInt8}
    (turns uParamCnt : Nat) (back : List UInt8) (slots : List Nat)
    (hslot : front.count 32 + 2 < 2 ^ 32)
    (hword : vecSubCmdLine[front.count 32 + 2]? = some word)
    (hbefore : vecSubCmdLine[front.count 32 + 1]? = some before) :
    revertLoop vecSubCmdLine (turns + 1) ⟨front ++ 32 :: 42 :: back, uParamCnt, slots⟩
        (some (front.length + 1)) =
      revertLoop vecSubCmdLine turns
        ⟨front ++ 32 :: (word ++ back), uParamCnt + 1, slots ++ [front.count 32 + 1]⟩
        (findStar (front ++ 32 :: (word ++ back)) (front.length + 1 + before.length + 1)) := by
  obtain ⟨hminus, hnat⟩ := toInt32_ofNat hslot
  have hinside : ¬ vecSubCmdLine.length < front.count 32 + 1 := by
    have hless := (List.getElem?_eq_some_iff.mp hword).1
    omega
  have hslotNum : GetParamSlotNum (front ++ 32 :: 42 :: back) (front.length + 1) =
      (UInt32.ofNat (front.count 32 + 1)).toInt32 := by
    have hspace := slotFrom_space front (42 :: back) 0 0
    rwa [Nat.zero_add, UInt32.zero_add, ← UInt32.ofNat_one, ← UInt32.ofNat_add] at hspace
  have hsplit : front ++ 32 :: 42 :: back = (front ++ [32]) ++ 42 :: back :=
    List.append_cons front 32 _
  have hlength : front.length + 1 = (front ++ [(32 : UInt8)]).length := by
    rw [List.length_append, List.length_singleton]
  have hreplace : (front ++ 32 :: 42 :: back).take (front.length + 1) ++ word ++
      (front ++ 32 :: 42 :: back).drop (front.length + 1 + 1) = front ++ 32 :: (word ++ back) := by
    rw [hsplit, hlength, List.take_left, List.drop_length_add_append, List.append_assoc,
      List.append_assoc]
    rfl
  rw [revertLoop]
  simp only [hslotNum, if_neg hminus, hnat, if_neg hinside, hword, hbefore, hreplace,
    Option.bind_eq_bind, Option.bind_some]

/-- The last turn, at a star that no space stands before. -/
theorem revertLoop_stop {vecSubCmdLine : List (List UInt8)} {strRevertCmd : List UInt8}
    {uFndPos : Nat} (turns uParamCnt : Nat) (slots : List Nat)
    (hspace : ∀ k, uFndPos = k + 1 → strRevertCmd[k]? ≠ some 32) :
    revertLoop vecSubCmdLine (turns + 1) ⟨strRevertCmd, uParamCnt, slots⟩ (some uFndPos) =
      some ⟨strRevertCmd, uParamCnt + 1, slots⟩ := by
  have hslotNum : GetParamSlotNum strRevertCmd uFndPos = -1 :=
    slotFrom_none fun k hk => hspace k (by omega)
  rw [revertLoop, hslotNum, if_pos rfl]

theorem findStar_eq_some {strCmd : List UInt8} {pos uFndPos : Nat}
    (hfound : findStar strCmd pos = some uFndPos) :
    pos ≤ uFndPos ∧ strCmd[uFndPos]? = some 42 := by
  obtain ⟨index, hindex, rfl⟩ := Option.map_eq_some_iff.mp hfound
  refine ⟨Nat.le_add_right _ _, ?_⟩
  obtain ⟨hless, hstar, -⟩ := List.findIdx?_eq_some_iff_getElem.mp hindex
  rw [← List.getElem?_drop, List.getElem?_eq_getElem hless, of_decide_eq_true hstar]

/-- A star is behind a space, or no space stands before it. -/
theorem star_cases {strRevertCmd : List UInt8} {uFndPos : Nat}
    (hstar : strRevertCmd[uFndPos]? = some 42) :
    (∃ front back, strRevertCmd = front ++ 32 :: 42 :: back ∧ uFndPos = front.length + 1) ∨
      ∀ k, uFndPos = k + 1 → strRevertCmd[k]? ≠ some 32 := by
  cases uFndPos with
  | zero => exact Or.inr fun k hk => absurd hk (Nat.succ_ne_zero k).symm
  | succ pos =>
      by_cases hspace : strRevertCmd[pos]? = some 32
      · left
        obtain ⟨hpos, hat⟩ := List.getElem?_eq_some_iff.mp hspace
        obtain ⟨hpos', hat'⟩ := List.getElem?_eq_some_iff.mp hstar
        refine ⟨strRevertCmd.take pos, strRevertCmd.drop (pos + 2), ?_, ?_⟩
        · conv => lhs; rw [← List.take_append_drop pos strRevertCmd,
            List.drop_eq_getElem_cons hpos, List.drop_eq_getElem_cons hpos', hat, hat']
        · rw [List.length_take, Nat.min_eq_left (Nat.le_of_lt hpos)]
      · right
        intro k hk
        rwa [← Nat.succ.inj hk]

/-- As many words as places, and none has a space in it: the search ends, inside the line. -/
theorem revertLoop_isSome {line : List UInt8} {words : List (List UInt8)}
    (hwords : ∀ word ∈ words, 32 ∉ word) (hsize : words.length + 1 < 2 ^ 32) {turns : Nat}
    {reverted : Reverted} {uFndPos : Option Nat}
    (hcount : reverted.strRevertCmd.count 32 + 1 = words.length)
    (hfound : ∀ pos, uFndPos = some pos → reverted.strRevertCmd[pos]? = some 42 ∧
      (reverted.strRevertCmd.drop (pos - 1)).count 32 < turns) :
    (revertLoop (line :: words) turns reverted uFndPos).isSome := by
  induction turns generalizing reverted uFndPos with
  | zero =>
      cases uFndPos with
      | none => rfl
      | some pos => exact absurd (hfound pos rfl).2 (Nat.not_lt_zero _)
  | succ turns ih =>
      cases uFndPos with
      | none => rfl
      | some pos =>
          obtain ⟨hstar, hturns⟩ := hfound pos rfl
          obtain ⟨strRevertCmd, uParamCnt, slots⟩ := reverted
          rcases star_cases hstar with ⟨front, back, hsplit, rfl⟩ | hspace
          · subst hsplit
            have hbehind : (32 :: 42 :: back).count 32 = back.count 32 + 1 := by
              rw [List.count_cons_self, List.count_cons_of_ne (by decide)]
            rw [Nat.add_sub_cancel, List.drop_left, hbehind] at hturns
            rw [List.count_append, hbehind] at hcount
            have hword : front.count 32 + 1 < words.length := by omega
            have hnospace := List.count_eq_zero.mpr (hwords _ (List.getElem_mem hword))
            rw [revertLoop_step turns uParamCnt back slots (by omega)
              (List.getElem?_eq_getElem (Nat.succ_lt_succ hword))
              (List.getElem?_eq_getElem (Nat.lt_succ_of_lt hword)), List.getElem_cons_succ]
            refine ih ?_ fun next hnext => ?_
            · rw [List.count_append, List.count_cons_self, List.count_append, hnospace]
              omega
            · obtain ⟨hafter, hstar⟩ := findStar_eq_some hnext
              refine ⟨hstar, ?_⟩
              have hless := (List.drop_sublist_drop_left
                (front ++ 32 :: (words[front.count 32 + 1] ++ back))
                (by omega : front.length + 1 ≤ next - 1)).count_le 32
              rw [List.drop_length_add_append, List.drop_succ_cons, List.drop_zero,
                List.count_append, hnospace] at hless
              dsimp only
              omega
          · rw [revertLoop_stop turns uParamCnt slots hspace]
            rfl

theorem revert_isSome {line : List UInt8} {words : List (List UInt8)}
    (hwords : ∀ word ∈ words, 32 ∉ word) (hsize : words.length + 1 < 2 ^ 32)
    {strCmd : List UInt8} (hcount : strCmd.count 32 + 1 = words.length) :
    (revert (line :: words) strCmd).isSome := by
  refine revertLoop_isSome hwords hsize hcount fun pos hpos => ⟨(findStar_eq_some hpos).2, ?_⟩
  exact Nat.lt_succ_of_le ((List.drop_sublist _ _).count_le 32)

/-- The words of the slots are there, and the text keeps its spaces, whatever the pattern. -/
theorem revertLoop_keeps {line : List UInt8} {words : List (List UInt8)} {turns : Nat}
    {reverted final : Reverted} {uFndPos : Option Nat} (hwords : ∀ word ∈ words, 32 ∉ word)
    (hslots : ∀ slot ∈ reverted.vecParamSlots, slot < words.length)
    (hfound : ∀ pos, uFndPos = some pos → reverted.strRevertCmd[pos]? = some 42)
    (hfinal : revertLoop (line :: words) turns reverted uFndPos = some final) :
    (∀ slot ∈ final.vecParamSlots, slot < words.length) ∧
      final.strRevertCmd.count 32 = reverted.strRevertCmd.count 32 := by
  induction turns generalizing reverted uFndPos with
  | zero =>
      cases uFndPos with
      | none =>
          cases hfinal
          exact ⟨hslots, rfl⟩
      | some pos => cases hfinal
  | succ turns ih =>
      cases uFndPos with
      | none =>
          cases hfinal
          exact ⟨hslots, rfl⟩
      | some pos =>
          rw [revertLoop] at hfinal
          dsimp only at hfinal
          split at hfinal
          next =>
            cases hfinal
            exact ⟨hslots, rfl⟩
          next =>
            split at hfinal
            next =>
              cases hfinal
              exact ⟨hslots, rfl⟩
            next =>
              obtain ⟨word, hword, hfinal⟩ := Option.bind_eq_some_iff.mp hfinal
              obtain ⟨before, -, hfinal⟩ := Option.bind_eq_some_iff.mp hfinal
              rw [List.getElem?_cons_succ] at hword
              have hnospace := List.count_eq_zero.mpr (hwords word (List.mem_of_getElem? hword))
              obtain ⟨hpos, hstar⟩ := List.getElem?_eq_some_iff.mp (hfound pos rfl)
              have hcount : (reverted.strRevertCmd.take pos ++ word ++
                  reverted.strRevertCmd.drop (pos + 1)).count 32 =
                  reverted.strRevertCmd.count 32 := by
                conv => rhs; rw [← List.take_append_drop pos reverted.strRevertCmd,
                  List.drop_eq_getElem_cons hpos, hstar, List.count_append,
                  List.count_cons_of_ne (by decide)]
                rw [List.count_append, List.count_append, hnospace, Nat.add_zero]
              obtain ⟨hinside, hsame⟩ := ih (fun slot hslot => by
                rcases List.mem_append.mp hslot with hold | hnew
                · exact hslots slot hold
                · rw [List.mem_singleton.mp hnew]
                  exact (List.getElem?_eq_some_iff.mp hword).1)
                (fun next hnext => (findStar_eq_some hnext).2) hfinal
              exact ⟨hinside, hsame.trans hcount⟩

theorem revert_keeps {line strCmd : List UInt8} {words : List (List UInt8)} {reverted : Reverted}
    (hwords : ∀ word ∈ words, 32 ∉ word) (hrevert : revert (line :: words) strCmd = some reverted) :
    (∀ slot ∈ reverted.vecParamSlots, slot < words.length) ∧
      reverted.strRevertCmd.count 32 = strCmd.count 32 :=
  revertLoop_keeps hwords (fun _ hmem => absurd hmem List.not_mem_nil)
    (fun _ hnext => (findStar_eq_some hnext).2) hrevert

end Words

end CCliServerHelper

/-! ## The table -/

/-- What a handler takes. -/
inductive FuncFormType where
  | vv
  | vu32
  | vsetu32
  | vstr
  | vu32setu32
  | null
  | last
  deriving DecidableEq

/-- How a parameter is converted. -/
inductive FuncParam where
  | void
  | u32
  | str
  | setU32
  | invalid
  deriving DecidableEq

variable {Target Proc : Type}

/-- An entry of the table, under its `m_strCmd`. -/
structure CliFormEntry (Target Proc : Type) where
  m_eFormType : FuncFormType
  m_eFuncParams : Vector FuncParam MAX_FUNC_PARAS
  m_proc : Proc
  m_pTarget : Option Target

structure ParamList where
  m_vecParamU32 : List UInt32
  m_vecParamStr : List (List UInt8)
  m_vecSetU32 : List IdSet

inductive CliArgs where
  | vv
  | vsetu (set : IdSet)
  | vstr (str : List UInt8)
  | vusetu (num : UInt32) (set : IdSet)
  deriving DecidableEq

/-- The handler of an entry, and what it is called with. -/
structure CliCall (Target Proc : Type) where
  m_strCmd : List UInt8
  target : Target
  proc : Proc
  args : CliArgs

/-- `m_mapStrCmdEnties`. `addEntry` stores the addresses of entries, so that none is NULL. -/
abbrev CCliServerHelper (Target Proc : Type) :=
  OrderedMap (List UInt8) (CliFormEntry Target Proc)

namespace CCliServerHelper

/-- A word is converted and put behind the others of its type. -/
def convertParam (eFuncParam : FuncParam) (word : List UInt8) (list : ParamList) :
    Option (Option ParamList) :=
  match eFuncParam with
  | .u32 =>
      (string2Uint32 word).map fun uTmpNum => uTmpNum.map fun uTmpNum =>
        { list with m_vecParamU32 := list.m_vecParamU32 ++ [uTmpNum] }
  | .str => some (some { list with m_vecParamStr := list.m_vecParamStr ++ [word] })
  | .setU32 =>
      (string2SetU32 word).map fun setTNums => setTNums.map fun setTNums =>
        { list with m_vecSetU32 := list.m_vecSetU32 ++ [setTNums] }
  | .void | .invalid => some none

/-- The loop over the parameters, with the words in their places. -/
def convertParams (vecSubCmdLine : List (List UInt8)) :
    List (FuncParam × Nat) → ParamList → Option (Option ParamList)
  | [], list => some (some list)
  | (eFuncParam, slot) :: rest, list => do
      let word ← vecSubCmdLine[slot + 1]?
      match ← convertParam eFuncParam word list with
      | none => return none
      | some list => convertParams vecSubCmdLine rest list

/-- A handler is called on its target, if there is one; only then are its arguments looked up. -/
def onTarget (strCmd : List UInt8) (entry : CliFormEntry Target Proc) (args : Option CliArgs) :
    Option (Bool × Option (CliCall Target Proc)) :=
  match entry.m_pTarget with
  | none => some (true, none)
  | some target => args.map fun args => (true, some ⟨strCmd, target, entry.m_proc, args⟩)

/-- The handler is executed. For `FFT_VU32` nothing is done. -/
def execute (strCmd : List UInt8) (entry : CliFormEntry Target Proc) (list : ParamList) :
    Option (Bool × Option (CliCall Target Proc)) :=
  match entry.m_eFormType with
  | .vv => onTarget strCmd entry (some .vv)
  | .vu32 => some (true, none)
  | .vsetu32 => onTarget strCmd entry (list.m_vecSetU32[0]?.map .vsetu)
  | .vstr => onTarget strCmd entry (list.m_vecParamStr[0]?.map .vstr)
  | .vu32setu32 => onTarget strCmd entry do
      let num ← list.m_vecParamU32[0]?
      let set ← list.m_vecSetU32[0]?
      return .vusetu num set
  | .null | .last => some (false, none)

/-- The entry whose pattern has become the line. -/
def handleEntry (vecSubCmdLine : List (List UInt8)) (strCmd : List UInt8)
    (entry : CliFormEntry Target Proc) (reverted : Reverted) :
    Option (Bool × Option (CliCall Target Proc)) :=
  if reverted.uParamCnt = reverted.vecParamSlots.length ∧
      reverted.uParamCnt ≤ MAX_FUNC_PARAS then do
    match ← convertParams vecSubCmdLine
        (entry.m_eFuncParams.toList.zip reverted.vecParamSlots) ⟨[], [], []⟩ with
    | none => return (false, none)
    | some list => execute strCmd entry list
  else some (true, none)

/-- The loop over the entries. -/
def tryEntries (strCmdLine : List UInt8) (vecSubCmdLine : List (List UInt8)) :
    List (List UInt8 × CliFormEntry Target Proc) → Option (Bool × Option (CliCall Target Proc))
  | [] => some (false, none)
  | (strCmd, entry) :: rest =>
      if (GetParamsSize strCmd + 1).toNat ≠ vecSubCmdLine.length then
        tryEntries strCmdLine vecSubCmdLine rest
      else do
        let reverted ← revert vecSubCmdLine strCmd
        if reverted.strRevertCmd = strCmdLine then handleEntry vecSubCmdLine strCmd entry reverted
        else tryEntries strCmdLine vecSubCmdLine rest

/-- What is returned, and the call that is made. -/
def CmdLineHandle (helper : CCliServerHelper Target Proc) (strCmd : List UInt8) :
    Option (Bool × Option (CliCall Target Proc)) := do
  let strCmdLine ← TrimCmd strCmd
  if strCmdLine = [] then return (false, none)
  tryEntries strCmdLine (ParseSubCmdLine strCmdLine) helper.entries

end CCliServerHelper

end ServiceFrame
