import Mathlib.Data.List.Basic
import Mathlib.Data.List.TakeWhile
import Mathlib.Tactic.IntervalCases
import ServiceFrame.Foundation.Bytes

/-! # Text in the C library

The text of a `char*`, the tokens of `strtok`, and the decimal conversions of `printf` and of
`strtol` with its relatives, for a 64-bit `long`.
-/

namespace ServiceFrame.Foundation

section Text

/-- The text that a `char*` points at: the bytes before the first NUL. -/
def cstr (memory : List UInt8) : List UInt8 :=
  memory.takeWhile (· ≠ 0)

theorem zero_notMem_cstr (memory : List UInt8) : 0 ∉ cstr memory := by
  intro hzero
  simpa using List.mem_takeWhile_imp hzero

theorem cstr_of_notMem {text : List UInt8} (htext : 0 ∉ text) : cstr text = text := by
  apply List.takeWhile_eq_self_iff.mpr
  intro byte hbyte
  have hne : byte ≠ 0 := fun heq => htext (heq ▸ hbyte)
  simpa using hne

theorem cstr_append_nul {text : List UInt8} (htext : 0 ∉ text) (rest : List UInt8) :
    cstr (text ++ 0 :: rest) = text := by
  rw [cstr, List.takeWhile_append_of_pos]
  · simp
  · intro byte hbyte
    have hne : byte ≠ 0 := fun heq => htext (heq ▸ hbyte)
    simpa using hne

theorem cstr_cons {byte : UInt8} (hbyte : byte ≠ 0) (memory : List UInt8) :
    cstr (byte :: memory) = byte :: cstr memory :=
  List.takeWhile_cons_of_pos (by simpa using hbyte)

end Text

section Tokens

/-- The tokens of `strtok`. Delimiters in a row, and at both ends, count as one. -/
def tokens (delim : UInt8) (text : List UInt8) : List (List UInt8) :=
  (text.splitOn delim).filter (· ≠ [])

variable {delim : UInt8}

/-- Of pieces that are printed with delimiters between them, the empty ones are lost. -/
theorem tokens_intercalate_filter {pieces : List (List UInt8)}
    (hpieces : ∀ piece ∈ pieces, delim ∉ piece) :
    tokens delim ([delim].intercalate pieces) = pieces.filter (· ≠ []) := by
  cases pieces with
  | nil => simp [tokens]
  | cons piece rest => rw [tokens, List.splitOn_intercalate delim hpieces (by simp)]

/-- Pieces that are not empty are the tokens. -/
theorem tokens_intercalate {pieces : List (List UInt8)}
    (hpieces : ∀ piece ∈ pieces, piece ≠ [] ∧ delim ∉ piece) :
    tokens delim ([delim].intercalate pieces) = pieces := by
  rw [tokens_intercalate_filter fun piece hpiece => (hpieces piece hpiece).2]
  apply List.filter_eq_self.mpr
  intro piece hpiece
  simpa using (hpieces piece hpiece).1

/-- A byte that is in no piece is not printed. -/
theorem notMem_intercalate {byte : UInt8} {pieces : List (List UInt8)}
    (hpieces : ∀ piece ∈ pieces, byte ∉ piece) (hdelim : byte ≠ delim) :
    byte ∉ [delim].intercalate pieces := by
  induction pieces with
  | nil => simp
  | cons piece rest ih =>
      have hpiece := hpieces piece List.mem_cons_self
      cases rest with
      | nil => simpa using hpiece
      | cons next rest =>
          have hrest := ih fun piece hmem => hpieces piece (List.mem_cons_of_mem _ hmem)
          rw [List.intercalate_cons_cons]
          simp only [List.mem_append, List.mem_singleton, not_or]
          exact ⟨⟨hpiece, hdelim⟩, hrest⟩

/-- A piece holds bytes of the text, in their order, and no delimiter. -/
theorem mem_splitOn {token : List UInt8} {text : List UInt8} (hpiece : token ∈ text.splitOn delim) :
    delim ∉ token ∧ token.Sublist text := by
  induction text generalizing token with
  | nil =>
      rw [List.splitOn_nil, List.mem_singleton] at hpiece
      simp [hpiece]
  | cons byte rest ih =>
      rw [List.splitOn_cons_eq_if_modifyHead] at hpiece
      split at hpiece
      next heq =>
        rcases List.mem_cons.mp hpiece with rfl | hpiece
        · simp
        · exact ⟨(ih hpiece).1, (ih hpiece).2.cons byte⟩
      next hne =>
        obtain ⟨first, later, hsplit⟩ := List.exists_cons_of_ne_nil (List.splitOn_ne_nil delim rest)
        have hfirst := ih (hsplit ▸ List.mem_cons_self : first ∈ rest.splitOn delim)
        rw [hsplit, List.modifyHead_cons] at hpiece
        rcases List.mem_cons.mp hpiece with rfl | hpiece
        · constructor
          · rw [List.mem_cons, not_or]
            exact ⟨fun heq => hne (by simp [heq]), hfirst.1⟩
          · exact hfirst.2.cons_cons byte
        · have hlater := ih (hsplit ▸ List.mem_cons_of_mem _ hpiece : token ∈ rest.splitOn delim)
          exact ⟨hlater.1, hlater.2.cons byte⟩

/-- So does a token, which is not empty. -/
theorem mem_tokens {token : List UInt8} {text : List UInt8} (htoken : token ∈ tokens delim text) :
    token ≠ [] ∧ delim ∉ token ∧ token ⊆ text := by
  obtain ⟨hpiece, hne⟩ := List.mem_filter.mp htoken
  obtain ⟨hdelim, hsublist⟩ := mem_splitOn hpiece
  exact ⟨by simpa using hne, hdelim, hsublist.subset⟩

/-- One piece more than delimiters. -/
theorem length_splitOn (text : List UInt8) :
    (text.splitOn delim).length = text.count delim + 1 := by
  induction text with
  | nil => rfl
  | cons byte rest ih =>
      rw [List.splitOn_cons_eq_if_modifyHead, List.count_cons]
      split
      next => rw [List.length_cons, ih]
      next => rw [List.length_modifyHead, ih, Nat.add_zero]

/-- A token that was begun, if any. -/
def finished (token : List UInt8) : List (List UInt8) :=
  if token = [] then [] else [token]

/-- One token, if it is not empty. -/
theorem tokens_of_notMem {text : List UInt8} (htext : delim ∉ text) :
    tokens delim text = finished text := by
  rw [tokens, List.splitOn_eq_singleton htext, finished]
  split
  next hempty => rw [hempty]; rfl
  next hsome => exact List.filter_cons_of_pos (by simpa using hsome)

/-- What stands before the first delimiter, and the tokens behind it. -/
theorem tokens_append {before : List UInt8} (hbefore : delim ∉ before) (behind : List UInt8) :
    tokens delim (before ++ delim :: behind) = finished before ++ tokens delim behind := by
  rw [tokens, List.splitOn_append_cons_self, List.filter_append]
  exact congrArg (· ++ tokens delim behind) (tokens_of_notMem hbefore)

/-- Calls of `strtok` until it returns NULL: what they return, and the indexes that they read.
The next byte stands at `index`. An empty `token` is one that is not begun. -/
def strtok (delim : UInt8) : Nat → List UInt8 → List UInt8 → List (List UInt8) × List Nat
  | index, token, [] => (finished token, [index])
  | index, token, byte :: memory =>
      if byte = 0 then (finished token, [index])
      else if byte = delim then
        let later := strtok delim (index + 1) [] memory
        (finished token ++ later.1, index :: later.2)
      else
        let later := strtok delim (index + 1) (token ++ [byte]) memory
        (later.1, index :: later.2)

/-- The scan stops at the first NUL, wherever that is. -/
theorem strtok_reads (index : Nat) (token memory : List UInt8) :
    (strtok delim index token memory).2 = List.range' index ((cstr memory).length + 1) := by
  induction memory generalizing index token with
  | nil => rfl
  | cons byte memory ih =>
      unfold strtok
      split
      next hzero =>
        subst hzero
        rfl
      next hbyte =>
        rw [cstr_cons hbyte, List.length_cons, List.range'_succ]
        split
        next => rw [← ih (index + 1) []]
        next => rw [← ih (index + 1) (token ++ [byte])]

/-- The scan returns the pieces between the delimiters, but for the empty ones. -/
theorem strtok_tokens (index : Nat) (token memory : List UInt8) :
    (strtok delim index token memory).1 =
      (((cstr memory).splitOn delim).modifyHead (token ++ ·)).filter (· ≠ []) := by
  have hfinished : ∀ token : List UInt8, finished token = [token].filter (· ≠ []) := by
    intro token
    cases token with
    | nil => rfl
    | cons byte rest => rfl
  induction memory generalizing index token with
  | nil =>
      rw [strtok, hfinished]
      simp [cstr]
  | cons byte memory ih =>
      unfold strtok
      split
      next hzero =>
        subst hzero
        rw [hfinished]
        simp [cstr]
      next hbyte =>
        rw [cstr_cons hbyte, List.splitOn_cons_eq_if_modifyHead]
        obtain ⟨piece, pieces, hsplit⟩ :=
          List.exists_cons_of_ne_nil (List.splitOn_ne_nil delim (cstr memory))
        split
        next hdelim =>
          simp only [ih, hsplit, hfinished, hdelim, beq_self_eq_true, if_true, List.modifyHead_cons,
            List.nil_append, List.append_nil]
          exact (List.filter_append [token] (piece :: pieces)).symm
        next hdelim =>
          simp [ih, hsplit, hdelim]

theorem strtok_eq_tokens (memory : List UInt8) :
    (strtok delim 0 [] memory).1 = tokens delim (cstr memory) := by
  obtain ⟨piece, pieces, hsplit⟩ :=
    List.exists_cons_of_ne_nil (List.splitOn_ne_nil delim (cstr memory))
  rw [strtok_tokens, tokens, hsplit]
  rfl

end Tokens

section Decimal

def isDigit (byte : UInt8) : Bool := 48 ≤ byte.toNat && byte.toNat ≤ 57

/-- The white space of the C locale. -/
def isSpace (byte : UInt8) : Bool := byte.toNat = 32 || (9 ≤ byte.toNat && byte.toNat ≤ 13)

/-- The digits that `%u`, `%lu` and `%llu` print. -/
def decimal (value : Nat) : List UInt8 :=
  (Nat.toDigits 10 value).map fun digit => UInt8.ofNat digit.toNat

/-- The number that a row of digits stands for. -/
def digitsValue (digits : List UInt8) : Nat :=
  digits.foldl (fun value digit => 10 * value + (digit.toNat - 48)) 0

/-- What `strtol` reads: whether there is a minus sign, and the value of the digits. -/
def readDecimal (text : List UInt8) : Bool × Nat :=
  match text.dropWhile isSpace with
  | [] => (false, 0)
  | sign :: rest =>
      if sign.toNat = 45 then (true, digitsValue (rest.takeWhile isDigit))
      else if sign.toNat = 43 then (false, digitsValue (rest.takeWhile isDigit))
      else (false, digitsValue ((sign :: rest).takeWhile isDigit))

/-- Out of range, the nearest `long`. -/
def strtol (text : List UInt8) : Int :=
  match readDecimal text with
  | (false, value) => min value (2 ^ 63 - 1)
  | (true, value) => max (-(value : Int)) (-2 ^ 63)

/-- Out of range, the largest `unsigned long`; a minus sign negates modulo 2^64. -/
def strtoul (text : List UInt8) : Nat :=
  match readDecimal text with
  | (minus, value) =>
      if 2 ^ 64 ≤ value then 2 ^ 64 - 1 else if minus then (2 ^ 64 - value) % 2 ^ 64 else value

/-- `(int) strtol(text, NULL, 10)`. -/
def atoi (text : List UInt8) : Int32 := Int32.ofInt (strtol text)

/-- What `%d` prints. -/
def printInt (value : Int32) : List UInt8 :=
  if value.toInt < 0 then 45 :: decimal value.toInt.natAbs else decimal value.toInt.natAbs

/-- The last digit is the remainder; what stands before it is the quotient, if there is one. -/
theorem decimal_lastDigit (value : Nat) :
    decimal value = (if value < 10 then [] else decimal (value / 10)) ++
      [UInt8.ofNat (48 + value % 10)] := by
  have hdigit : ∀ digit < 10,
      UInt8.ofNat (Nat.digitChar digit).toNat = UInt8.ofNat (48 + digit) := by
    intro digit hlt
    interval_cases digit <;> rfl
  unfold decimal
  rw [Nat.toDigits_eq_if (by omega)]
  split
  next hlt => simp [hdigit value hlt, Nat.mod_eq_of_lt hlt]
  next hge => simp [hdigit (value % 10) (Nat.mod_lt _ (by omega))]

theorem toNat_lastDigit (value : Nat) :
    (UInt8.ofNat (48 + value % 10)).toNat = 48 + value % 10 := by
  rw [UInt8.toNat_ofNat']
  omega

theorem isDigit_of_mem_decimal {value : Nat} {byte : UInt8} (hbyte : byte ∈ decimal value) :
    isDigit byte = true := by
  induction value using Nat.strong_induction_on with
  | _ value ih =>
      rw [decimal_lastDigit, List.mem_append, List.mem_singleton] at hbyte
      rcases hbyte with hbyte | rfl
      · split at hbyte
        next => simp at hbyte
        next hge => exact ih (value / 10) (by omega) hbyte
      · rw [isDigit, toNat_lastDigit]
        simp
        omega

theorem decimal_ne_nil (value : Nat) : decimal value ≠ [] := by
  rw [decimal_lastDigit]
  simp

theorem length_decimal_le {value digits : Nat} (hpos : 0 < digits) (hvalue : value < 10 ^ digits) :
    (decimal value).length ≤ digits := by
  induction digits generalizing value with
  | zero => omega
  | succ digits ih =>
      rw [decimal_lastDigit, List.length_append, List.length_singleton]
      split
      next => exact Nat.succ_le_succ (Nat.zero_le digits)
      next hmore =>
        have hpos' : 0 < digits := by
          rw [Nat.pos_iff_ne_zero]
          rintro rfl
          omega
        exact Nat.succ_le_succ (ih hpos' (Nat.div_lt_of_lt_mul (Nat.pow_succ' ▸ hvalue)))

theorem length_decimal (value : Nat) :
    (decimal value).length = if value < 10 then 1 else (decimal (value / 10)).length + 1 := by
  conv => lhs; rw [decimal_lastDigit]
  split
  · rfl
  · rw [List.length_append, List.length_singleton]

theorem le_length_decimal {value digits : Nat} (hvalue : 10 ^ digits ≤ value) :
    digits < (decimal value).length := by
  induction digits generalizing value with
  | zero => exact List.length_pos_of_ne_nil (decimal_ne_nil value)
  | succ digits ih =>
      have hpow : 10 ^ digits ≤ value / 10 := by
        rw [Nat.le_div_iff_mul_le (by decide), ← Nat.pow_succ]
        exact hvalue
      have hten : ¬ value < 10 := by
        have := Nat.one_le_pow digits 10 (by decide)
        omega
      rw [length_decimal, if_neg hten]
      exact Nat.succ_lt_succ (ih hpow)

/-- A byte that is no digit is not printed. -/
theorem notMem_decimal {value : Nat} {byte : UInt8} (hbyte : isDigit byte = false) :
    byte ∉ decimal value := by
  intro hmem
  rw [isDigit_of_mem_decimal hmem] at hbyte
  cases hbyte

theorem digitsValue_decimal (value : Nat) : digitsValue (decimal value) = value := by
  induction value using Nat.strong_induction_on with
  | _ value ih =>
      rw [decimal_lastDigit, digitsValue, List.foldl_append, List.foldl_cons, List.foldl_nil,
        toNat_lastDigit]
      split
      next hlt =>
        rw [List.foldl_nil]
        omega
      next hge =>
        have hrest := ih (value / 10) (by omega)
        rw [digitsValue] at hrest
        rw [hrest]
        omega

theorem takeWhile_decimal_append (value : Nat) {behind : List UInt8}
    (hbehind : behind.takeWhile isDigit = []) :
    (decimal value ++ behind).takeWhile isDigit = decimal value := by
  rw [List.takeWhile_append_of_pos fun byte hbyte => isDigit_of_mem_decimal hbyte, hbehind,
    List.append_nil]

/-- A number is read up to the first byte that is no digit. -/
theorem readDecimal_decimal_append (value : Nat) {behind : List UInt8}
    (hbehind : behind.takeWhile isDigit = []) :
    readDecimal (decimal value ++ behind) = (false, value) := by
  have hdigits := takeWhile_decimal_append value hbehind
  obtain ⟨first, rest, hfirst⟩ := List.exists_cons_of_ne_nil (decimal_ne_nil value)
  have hmem : first ∈ decimal value := hfirst ▸ List.mem_cons_self
  have hdigit := isDigit_of_mem_decimal hmem
  rw [isDigit, Bool.and_eq_true, decide_eq_true_eq, decide_eq_true_eq] at hdigit
  have hspace : isSpace first = false := by
    simp only [isSpace, Bool.or_eq_false_iff, Bool.and_eq_false_iff, decide_eq_false_iff_not]
    omega
  rw [hfirst, List.cons_append] at hdigits
  rw [readDecimal, hfirst, List.cons_append, List.dropWhile_cons_of_neg (by simp [hspace])]
  have hminus : first.toNat ≠ 45 := by omega
  have hplus : first.toNat ≠ 43 := by omega
  simp only [if_neg hminus, if_neg hplus, hdigits]
  rw [← hfirst, digitsValue_decimal]

theorem readDecimal_decimal (value : Nat) : readDecimal (decimal value) = (false, value) := by
  have hread := readDecimal_decimal_append value (@List.takeWhile_nil _ isDigit)
  rwa [List.append_nil] at hread

theorem strtoul_decimal {value : Nat} (hvalue : value < 2 ^ 64) :
    strtoul (decimal value) = value := by
  simp only [strtoul, readDecimal_decimal, if_neg (Nat.not_le.mpr hvalue)]
  rfl

/-- A text of digits is read as its number, as long as that fits. -/
theorem strtoul_digits {digits : List UInt8} (hdigits : digits.all isDigit)
    (hvalue : digitsValue digits < 2 ^ 64) : strtoul digits = digitsValue digits := by
  have hall := List.all_eq_true.mp hdigits
  have hread : readDecimal digits = (false, digitsValue digits) := by
    cases digits with
    | nil => rfl
    | cons first rest =>
        have hfirst := hall first List.mem_cons_self
        have htake : (first :: rest).takeWhile isDigit = first :: rest :=
          List.takeWhile_eq_self_iff.mpr hall
        have hspace : isSpace first = false := by
          simp only [isDigit, isSpace, Bool.and_eq_true, Bool.or_eq_false_iff,
            Bool.and_eq_false_iff, decide_eq_true_eq, decide_eq_false_iff_not] at hfirst ⊢
          omega
        simp only [isDigit, Bool.and_eq_true, decide_eq_true_eq] at hfirst
        have hminus : first.toNat ≠ 45 := by omega
        have hplus : first.toNat ≠ 43 := by omega
        rw [readDecimal, List.dropWhile_cons_of_neg (by simp [hspace])]
        simp only [if_neg hminus, if_neg hplus, htake]
  simp only [strtoul, hread, if_neg (Nat.not_le.mpr hvalue)]
  rfl

/-- `atoi` wraps around, so that it reads every 32-bit number back. -/
theorem atoi_decimal (value : UInt32) : (atoi (decimal value.toNat)).toUInt32 = value := by
  have hvalue := value.toNat_lt
  have hstrtol : strtol (decimal value.toNat) = value.toNat := by
    simp only [strtol, readDecimal_decimal]
    omega
  rw [atoi, hstrtol, Int32.ofInt_eq_ofNat]
  apply UInt32.toNat_inj.mp
  simp

theorem printInt_ne_nil (value : Int32) : printInt value ≠ [] := by
  unfold printInt
  split
  · exact List.cons_ne_nil _ _
  · exact decimal_ne_nil _

theorem notMem_printInt (value : Int32) {byte : UInt8} (hbyte : isDigit byte = false)
    (hminus : byte ≠ 45) : byte ∉ printInt value := by
  unfold printInt
  split
  · rw [List.mem_cons]
    exact not_or.mpr ⟨hminus, notMem_decimal hbyte⟩
  · exact notMem_decimal hbyte

theorem readDecimal_minus (value : Nat) {behind : List UInt8}
    (hbehind : behind.takeWhile isDigit = []) :
    readDecimal (45 :: decimal value ++ behind) = (true, value) := by
  rw [List.cons_append, readDecimal, List.dropWhile_cons_of_neg (by decide)]
  dsimp only
  rw [if_pos (by decide), takeWhile_decimal_append value hbehind, digitsValue_decimal]

/-- `atoi` reads what `%d` prints, up to the first byte that is no digit. -/
theorem atoi_printInt_append (value : Int32) {behind : List UInt8}
    (hbehind : behind.takeWhile isDigit = []) : atoi (printInt value ++ behind) = value := by
  have hlower := value.le_toInt
  have hupper := value.toInt_lt
  have hstrtol : strtol (printInt value ++ behind) = value.toInt := by
    unfold printInt
    split
    · simp only [strtol, readDecimal_minus _ hbehind]
      omega
    · simp only [strtol, readDecimal_decimal_append _ hbehind]
      omega
  rw [atoi, hstrtol, Int32.ofInt_toInt]

theorem atoi_printInt (value : Int32) : atoi (printInt value) = value := by
  have hread := atoi_printInt_append value (@List.takeWhile_nil _ isDigit)
  rwa [List.append_nil] at hread

/-! ## Searching -/

/-- `find_first_of(byte)`: what stands before the first one and what stands behind it. -/
def cutAt (byte : UInt8) : List UInt8 → Option (List UInt8 × List UInt8)
  | [] => none
  | first :: rest =>
      if first = byte then some ([], rest)
      else (cutAt byte rest).map fun cut => (first :: cut.1, cut.2)

theorem cutAt_append {byte : UInt8} {before : List UInt8} (hbefore : byte ∉ before)
    (behind : List UInt8) : cutAt byte (before ++ byte :: behind) = some (before, behind) := by
  induction before with
  | nil => exact if_pos rfl
  | cons first rest ih =>
      obtain ⟨hfirst, hrest⟩ := List.ne_and_not_mem_of_not_mem_cons hbefore
      rw [List.cons_append, cutAt, if_neg hfirst.symm, ih hrest]
      rfl

theorem cutAt_eq_some {byte : UInt8} {text before behind : List UInt8}
    (hcut : cutAt byte text = some (before, behind)) :
    text = before ++ byte :: behind ∧ byte ∉ before := by
  induction text generalizing before with
  | nil => cases hcut
  | cons first rest ih =>
      unfold cutAt at hcut
      split at hcut
      next hsame =>
        cases hcut
        rw [hsame]
        exact ⟨rfl, List.not_mem_nil⟩
      next hdiff =>
        obtain ⟨⟨before, behind⟩, hrest, hcut⟩ := Option.map_eq_some_iff.mp hcut
        cases hcut
        obtain ⟨hrest, hbefore⟩ := ih hrest
        rw [hrest]
        exact ⟨rfl, List.not_mem_cons_of_ne_of_not_mem (Ne.symm hdiff) hbefore⟩

theorem cutAt_eq_none {byte : UInt8} {text : List UInt8} (hcut : cutAt byte text = none) :
    byte ∉ text := by
  intro hmem
  obtain ⟨before, behind, rfl, hbefore⟩ := List.eq_append_cons_of_mem hmem
  rw [cutAt_append hbefore] at hcut
  cases hcut

theorem length_lt_of_cutAt {byte : UInt8} {text before behind : List UInt8}
    (hcut : cutAt byte text = some (before, behind)) : behind.length < text.length := by
  rw [(cutAt_eq_some hcut).1, List.length_append, List.length_cons]
  omega

end Decimal

end ServiceFrame.Foundation
