import Mathlib.Order.Bounds.Basic
import ServiceFrame.Foundation.CString
import ServiceFrame.Sox.HttpParser

/-! # The helpers of the socket library

`headersEnd`, `bin2hex` and `hex2bin`, and `ultoa10`. Where a function is given a pointer, what
it reads and writes there is recorded.
-/

namespace ServiceFrame

open Foundation

/-! ## The end of the headers -/

/-- The loop of `headersEnd` on the memory at `mime`, from the state and the position on, with the
positions that it reads. -/
def headersEndScan (mime : Nat → UInt8) : Nat → Nat → Nat → Nat × List Nat
  | 0, state, e => (if state = 3 then e else 0, [])
  | left + 1, state, e =>
      if state = 3 then (e, [])
      else
        let later := headersEndScan mime left (headersEndState state (mime e)) (e + 1)
        (later.1, e :: later.2)

/-- `headersEnd(mime, l)`. -/
def headersEndAt (mime : Nat → UInt8) (l : Nat) : Nat × List Nat := headersEndScan mime l 0 0

/-- The first bytes of the memory. -/
def bytesAt (mime : Nat → UInt8) (n : Nat) : List UInt8 := (List.range n).map mime

/-- A newline, any carriage returns, and a newline. -/
def EndsHeaders (text : List UInt8) : Prop :=
  ∃ before count, text = before ++ 10 :: (List.replicate count 13 ++ [10])

/-- A newline and any carriage returns: one more newline ends the headers. -/
def EndsLine (text : List UInt8) : Prop :=
  ∃ before count, text = before ++ 10 :: List.replicate count 13

theorem bytesAt_succ (mime : Nat → UInt8) (n : Nat) :
    bytesAt mime (n + 1) = bytesAt mime n ++ [mime n] := by
  simp [bytesAt, List.range_succ]

/-- The scan of the memory is the scan of the bytes that are there. -/
theorem headersEndScan_eq (mime : Nat → UInt8) (left state e : Nat) :
    (headersEndScan mime left state e).1 =
      headersEndFrom ((List.range' e left).map mime) state e := by
  induction left generalizing state e with
  | zero => rfl
  | succ left ih =>
      rw [headersEndScan, List.range'_succ, List.map_cons, headersEndFrom]
      split
      · rfl
      · exact ih (headersEndState state (mime e)) (e + 1)

/-- The parser's `headersEnd` is given the bytes. -/
theorem headersEndAt_eq (mime : Nat → UInt8) (l : Nat) :
    (headersEndAt mime l).1 = headersEnd (bytesAt mime l) := by
  rw [headersEndAt, headersEndScan_eq, headersEnd, bytesAt, List.range_eq_range']

theorem headersEndScan_reads (mime : Nat → UInt8) (left state e : Nat) :
    ∀ position ∈ (headersEndScan mime left state e).2, position < e + left := by
  induction left generalizing state e with
  | zero => exact fun position hread => by cases hread
  | succ left ih =>
      rw [headersEndScan]
      split
      · exact fun position hread => by cases hread
      · intro position hread
        rcases List.mem_cons.mp hread with rfl | hlater
        · omega
        · have hless := ih _ _ position hlater
          omega

theorem not_endsHeaders_nil : ¬ EndsHeaders [] := by
  rintro ⟨before, count, htext⟩
  simp at htext

theorem not_endsLine_nil : ¬ EndsLine [] := by
  rintro ⟨before, count, htext⟩
  simp at htext

theorem endsHeaders_snoc {text : List UInt8} {c : UInt8} :
    EndsHeaders (text ++ [c]) ↔ c = 10 ∧ EndsLine text := by
  constructor
  · rintro ⟨before, count, htext⟩
    rw [← List.cons_append, ← List.append_assoc] at htext
    obtain ⟨hline, hc⟩ := List.append_inj' htext rfl
    exact ⟨List.singleton_inj.mp hc, before, count, hline⟩
  · rintro ⟨rfl, before, count, rfl⟩
    exact ⟨before, count, by simp⟩

theorem endsLine_snoc {text : List UInt8} {c : UInt8} :
    EndsLine (text ++ [c]) ↔ c = 10 ∨ c = 13 ∧ EndsLine text := by
  constructor
  · rintro ⟨before, count, htext⟩
    cases count with
    | zero =>
        obtain ⟨-, hc⟩ := List.append_inj' htext rfl
        exact Or.inl (List.singleton_inj.mp hc)
    | succ count =>
        rw [List.replicate_succ', ← List.cons_append, ← List.append_assoc] at htext
        obtain ⟨hline, hc⟩ := List.append_inj' htext rfl
        exact Or.inr ⟨List.singleton_inj.mp hc, before, count, hline⟩
  · rintro (rfl | ⟨rfl, before, count, rfl⟩)
    · exact ⟨text, 0, rfl⟩
    · exact ⟨before, count + 1, by rw [List.replicate_succ']; simp⟩

/-- What the state knows of the text read so far, in which no headers have ended. -/
structure Scanned (state : Nat) (text : List UInt8) : Prop where
  running : state < 3
  line : state ≠ 0 ↔ EndsLine text

theorem scanned_nil : Scanned 0 [] := ⟨by decide, by simp [not_endsLine_nil]⟩

/-- The state ends the scan with the headers, and knows the text otherwise. -/
theorem Scanned.step {state : Nat} {text : List UInt8} (hscanned : Scanned state text)
    (c : UInt8) :
    headersEndState state c = 3 ∧ EndsHeaders (text ++ [c]) ∨
      ¬ EndsHeaders (text ++ [c]) ∧ Scanned (headersEndState state c) (text ++ [c]) := by
  obtain ⟨hrunning, hline⟩ := hscanned
  rw [endsHeaders_snoc]
  by_cases hnewline : c = 10
  · subst hnewline
    by_cases hzero : state = 0
    · subst hzero
      right
      exact ⟨fun hends => hline.mpr hends.2 rfl, by decide,
        by simp [headersEndState, endsLine_snoc]⟩
    · left
      have hcases : state = 1 ∨ state = 2 := by omega
      exact ⟨by rcases hcases with rfl | rfl <;> rfl, rfl, hline.mp hzero⟩
  · right
    refine ⟨fun hends => hnewline hends.1, ?_⟩
    have hcases : state = 0 ∨ state = 1 ∨ state = 2 := by omega
    by_cases hreturn : c = 13
    · subst hreturn
      rcases hcases with rfl | rfl | rfl
      · exact ⟨by decide, by simpa [headersEndState, endsLine_snoc] using hline⟩
      · exact ⟨by decide, by simpa [headersEndState, endsLine_snoc] using hline⟩
      · exact ⟨by decide, by simpa [headersEndState, endsLine_snoc] using hline⟩
    · have hstate : headersEndState state c = 0 := by
        rcases hcases with rfl | rfl | rfl <;> simp [headersEndState, hnewline, hreturn]
      rw [hstate]
      exact ⟨by decide, by simp [endsLine_snoc, hnewline, hreturn]⟩

/-- What the scan answers from a position on, up to which no headers have ended. -/
theorem headersEndScan_spec {mime : Nat → UInt8} {left state e : Nat}
    (hscanned : Scanned state (bytesAt mime e))
    (hopen : ∀ n ≤ e, ¬ EndsHeaders (bytesAt mime n)) :
    ((headersEndScan mime left state e).1 = 0 ∧
        ∀ n ≤ e + left, ¬ EndsHeaders (bytesAt mime n)) ∨
      (headersEndScan mime left state e).1 ≠ 0 ∧
        IsLeast {n | n ≤ e + left ∧ EndsHeaders (bytesAt mime n)}
          (headersEndScan mime left state e).1 := by
  induction left generalizing state e with
  | zero =>
      have hstate : state ≠ 3 := hscanned.running.ne
      left
      rw [headersEndScan, if_neg hstate]
      exact ⟨rfl, hopen⟩
  | succ left ih =>
      have hstate : state ≠ 3 := hscanned.running.ne
      rw [headersEndScan, if_neg hstate]
      dsimp only
      rcases hscanned.step (mime e) with ⟨hthree, hends⟩ | ⟨hnot, hnext⟩
      · rw [← bytesAt_succ] at hends
        have hresult : (headersEndScan mime left (headersEndState state (mime e)) (e + 1)).1 =
            e + 1 := by
          rw [hthree]
          cases left <;> rfl
        rw [hresult]
        refine Or.inr ⟨by omega, ⟨by omega, hends⟩, fun n hn => ?_⟩
        by_contra hless
        exact hopen n (by omega) hn.2
      · rw [← bytesAt_succ] at hnot hnext
        have hmore : ∀ n ≤ e + 1, ¬ EndsHeaders (bytesAt mime n) := by
          intro n hn
          rcases Nat.le_succ_iff.mp hn with hold | rfl
          · exact hopen n hold
          · exact hnot
        have hshift : e + (left + 1) = e + 1 + left := by omega
        rw [hshift]
        exact ih hnext hmore

/-- `headersEnd` answers the least end of the headers, and reads only what it is given. -/
theorem headersEndAt_least (mime : Nat → UInt8) (l : Nat) :
    ((headersEndAt mime l).1 = 0 ↔ ∀ n ≤ l, ¬ EndsHeaders (bytesAt mime n)) ∧
      ((headersEndAt mime l).1 ≠ 0 →
        IsLeast {n | n ≤ l ∧ EndsHeaders (bytesAt mime n)} (headersEndAt mime l).1) ∧
      ∀ position ∈ (headersEndAt mime l).2, position < l := by
  have hreads := headersEndScan_reads mime l 0 0
  have hspec := @headersEndScan_spec mime l 0 0 scanned_nil fun n hn => by
    rw [Nat.le_zero.mp hn]
    exact not_endsHeaders_nil
  rw [Nat.zero_add] at hreads hspec
  rcases hspec with ⟨hzero, hnone⟩ | ⟨hresult, hleast⟩
  · exact ⟨iff_of_true hzero hnone, fun hresult => absurd hzero hresult, hreads⟩
  · refine ⟨iff_of_false hresult fun hnone => ?_, fun _ => hleast, hreads⟩
    exact hnone _ hleast.1.1 hleast.1.2

example : (headersEndAt (fun n => [65, 10, 13, 10, 10].getD n 0) 5).1 = 4 := by decide

/-! ## The hex codec -/

/-- `Hex[n]`. -/
def hexOf (n : UInt8) : UInt8 := (literal "0123456789abcdef").getD n.toNat 0

def bin2hex (src : List UInt8) : List UInt8 :=
  src.flatMap fun byte : UInt8 => [hexOf (byte >>> 4), hexOf (byte &&& 0xF)]

/-- What `hex2bin` makes of a character. -/
def hexDigit (src : UInt8) : Option UInt8 :=
  let c := tolower src
  if 48 ≤ c ∧ c ≤ 57 then some (c - 48)
  else if 97 ≤ c ∧ c ≤ 102 then some (c - (97 - 10))
  else none

/-- The loop of `hex2bin`: `x` is whether a high digit has been read, which is in `b`. An
exception leaves it without a result. -/
def hex2binFrom (strict : Bool) : List UInt8 → UInt8 → Nat → List UInt8 → Option (List UInt8)
  | [], _, x, bin => if strict ∧ x ≠ 0 then none else some bin
  | src :: rest, b, x, bin =>
      match hexDigit src with
      | some c =>
          if x = 0 then hex2binFrom strict rest (c <<< 4) 1 bin
          else hex2binFrom strict rest (b ||| c) 0 (bin ++ [b ||| c])
      | none => if strict then none else hex2binFrom strict rest b x bin

def hex2bin (src : List UInt8) (strict : Bool) : Option (List UInt8) :=
  hex2binFrom strict src 0 0 []

/-- A hexadecimal digit, of either case. -/
def IsHex (c : UInt8) : Prop := 48 ≤ c ∧ c ≤ 57 ∨ 97 ≤ c ∧ c ≤ 102 ∨ 65 ≤ c ∧ c ≤ 70

instance decidableIsHex (c : UInt8) : Decidable (IsHex c) :=
  inferInstanceAs (Decidable (_ ∨ _ ∨ _))

/-- What a number below 256 has, every byte has. -/
theorem forall_byte (good : UInt8 → Prop) (hall : ∀ n : Fin 256, good (UInt8.ofNat n)) (c : UInt8) :
    good c := by
  simpa using hall ⟨c.toNat, c.toNat_lt⟩

theorem hexDigit_isSome (c : UInt8) : (hexDigit c).isSome ↔ IsHex c :=
  forall_byte (fun c => (hexDigit c).isSome ↔ IsHex c) (by decide +kernel) c

/-- Both digits of a byte are read, and make the byte. -/
theorem hexDigit_hexOf (byte : UInt8) :
    ∃ high low, hexDigit (hexOf (byte >>> 4)) = some high ∧
      hexDigit (hexOf (byte &&& 0xF)) = some low ∧ (high <<< 4) ||| low = byte :=
  ⟨byte >>> 4, byte &&& 0xF,
    forall_byte (fun byte => hexDigit (hexOf (byte >>> 4)) = some (byte >>> 4) ∧
      hexDigit (hexOf (byte &&& 0xF)) = some (byte &&& 0xF) ∧
      ((byte >>> 4) <<< 4) ||| (byte &&& 0xF) = byte) (by decide +kernel) byte⟩

/-- What is in `bin` stays in front. -/
theorem hex2binFrom_bin2hex (strict : Bool) (src bin : List UInt8) (b : UInt8) :
    hex2binFrom strict (bin2hex src) b 0 bin = some (bin ++ src) := by
  induction src generalizing bin b with
  | nil => simp [bin2hex, hex2binFrom]
  | cons byte rest ih =>
      obtain ⟨high, low, hhigh, hlow, hbyte⟩ := hexDigit_hexOf byte
      have hcons : bin2hex (byte :: rest) =
          hexOf (byte >>> 4) :: hexOf (byte &&& 0xF) :: bin2hex rest := rfl
      rw [hcons, hex2binFrom, hhigh]
      dsimp only
      rw [if_pos rfl, hex2binFrom, hlow]
      dsimp only
      rw [if_neg (by decide), hbyte, ih, List.append_assoc, List.singleton_append]

/-- A strict `hex2bin` wants digits, and as many more as make pairs with the one it has. -/
theorem hex2binFrom_isSome (text bin : List UInt8) (b : UInt8) (x : Nat) (hx : x < 2) :
    (hex2binFrom true text b x bin).isSome ↔
      (text.length + x) % 2 = 0 ∧ ∀ c ∈ text, IsHex c := by
  induction text generalizing b x bin with
  | nil =>
      have hcases : x = 0 ∨ x = 1 := by omega
      rcases hcases with rfl | rfl <;> simp [hex2binFrom]
  | cons c rest ih =>
      rw [hex2binFrom, List.forall_mem_cons, ← hexDigit_isSome, List.length_cons]
      cases hexDigit c with
      | none => simp
      | some digit =>
          have hcases : x = 0 ∨ x = 1 := by omega
          rcases hcases with rfl | rfl
          · simp only [if_true, ih _ _ 1 (by decide), Option.isSome_some, true_and, Nat.add_zero]
          · have hshift : (rest.length + 1 + 1) % 2 = (rest.length + 0) % 2 := by omega
            simp only [Nat.one_ne_zero, if_false, ih _ _ 0 (by decide), Option.isSome_some,
              true_and, hshift]

/-- What is encoded is decoded, and a strict decoder takes whole bytes of digits and nothing
else. -/
theorem hex_codec :
    (∀ src, hex2bin (bin2hex src) true = some src) ∧
      ∀ text, (hex2bin text true).isSome ↔ text.length % 2 = 0 ∧ ∀ c ∈ text, IsHex c :=
  ⟨fun src => hex2binFrom_bin2hex true src [] 0, fun text =>
    hex2binFrom_isSome text [] 0 0 (by decide)⟩

/-! ## Decimal numbers -/

/-- A stack buffer in its memory, with the offsets written so far. -/
structure CharBuffer where
  memory : Int → UInt8
  written : List Int

/-- `*p-- = c`; the pointer is moved by the caller. -/
def CharBuffer.store (buf : CharBuffer) (p : Int) (c : UInt8) : CharBuffer :=
  { memory := Function.update buf.memory p c, written := buf.written ++ [p] }

/-- The loop of `ultoa10`: where `p` ends, and the buffer. -/
def ultoa10Loop (n : Nat) (p : Int) (abuf : CharBuffer) : Int × CharBuffer :=
  let abuf := abuf.store p (UInt8.ofNat (48 + n % 10))
  let p := p - 1
  if n / 10 ≠ 0 then ultoa10Loop (n / 10) p abuf else (p, abuf)
termination_by n
decreasing_by omega

/-- The characters from an offset on. -/
def CharBuffer.chars (buf : CharBuffer) (first : Int) (size : Nat) : List UInt8 :=
  (List.range size).map fun i => buf.memory (first + (i : Nat))

/-- `ultoa10`, and its buffer of 16 characters with the writes. In `memory` is what the stack had
there and around it. -/
def ultoa10 (memory : Int → UInt8) (n : UInt64) : List UInt8 × CharBuffer :=
  let abuf := CharBuffer.store ⟨memory, []⟩ 15 0
  let (p, abuf) := ultoa10Loop n.toNat 14 abuf
  (abuf.chars (p + 1) (14 - p).toNat, abuf)

theorem CharBuffer.chars_succ (buf : CharBuffer) (first : Int) (size : Nat) :
    buf.chars first (size + 1) = buf.chars first size ++ [buf.memory (first + size)] := by
  simp [chars, List.range_succ]

theorem ultoa10Loop_above (n : Nat) (p : Int) (abuf : CharBuffer) (q : Int) (hq : p < q) :
    (ultoa10Loop n p abuf).2.memory q = abuf.memory q := by
  induction n using Nat.strong_induction_on generalizing p abuf with
  | _ n ih =>
      have hstore : ∀ c, (abuf.store p c).memory q = abuf.memory q := fun c =>
        Function.update_of_ne (by omega) _ _
      rw [ultoa10Loop]
      split
      · rw [ih (n / 10) (by omega) (p - 1) _ (by omega), hstore]
      · exact hstore _

/-- The loop writes as many characters as there are digits. -/
theorem ultoa10Loop_written (n : Nat) (p : Int) (abuf : CharBuffer) (q : Int) :
    q ∈ (ultoa10Loop n p abuf).2.written ↔
      q ∈ abuf.written ∨ p - (decimal n).length < q ∧ q ≤ p := by
  induction n using Nat.strong_induction_on generalizing p abuf with
  | _ n ih =>
      have hstore : ∀ c, q ∈ (abuf.store p c).written ↔ q ∈ abuf.written ∨ q = p := fun c => by
        simp [CharBuffer.store]
      rw [ultoa10Loop, length_decimal]
      split
      next hmore =>
        rw [ih (n / 10) (by omega), hstore, if_neg (by omega), or_assoc]
        apply or_congr_right
        push_cast
        omega
      next hlast =>
        rw [hstore, if_pos (by omega)]
        apply or_congr_right
        push_cast
        omega

/-- What the loop has written, down to where `p` ends, is the number. -/
theorem ultoa10Loop_chars (n : Nat) (p : Int) (abuf : CharBuffer) :
    (ultoa10Loop n p abuf).1 = p - (decimal n).length ∧
      (ultoa10Loop n p abuf).2.chars (p - (decimal n).length + 1) (decimal n).length =
        decimal n := by
  induction n using Nat.strong_induction_on generalizing p abuf with
  | _ n ih =>
      have hdecimal := decimal_lastDigit n
      have hlength := length_decimal n
      have hstore : ∀ c, (abuf.store p c).memory p = c := fun c => Function.update_self _ _ _
      rw [ultoa10Loop]
      split
      next hmore =>
        obtain ⟨hp, hchars⟩ := ih (n / 10) (by omega) (p - 1)
          (abuf.store p (UInt8.ofNat (48 + n % 10)))
        rw [if_neg (by omega)] at hdecimal hlength
        have hfirst : p - (decimal n).length + 1 = p - 1 - (decimal (n / 10)).length + 1 := by
          rw [hlength]
          push_cast
          omega
        have hlast : p - 1 - (decimal (n / 10)).length + 1 + (decimal (n / 10)).length = p := by
          omega
        constructor
        · rw [hp, hlength]
          push_cast
          omega
        · rw [hfirst, hlength, CharBuffer.chars_succ, hchars, hlast,
            ultoa10Loop_above _ _ _ p (by omega), hstore, ← hdecimal]
      next hone =>
        rw [if_pos (by omega)] at hdecimal hlength
        constructor
        · rw [hlength]
          rfl
        · rw [hlength, hdecimal]
          simp [CharBuffer.chars, hstore]

theorem ultoa10_text (memory : Int → UInt8) (n : UInt64) :
    (ultoa10 memory n).1 = decimal n.toNat := by
  obtain ⟨hp, hchars⟩ := ultoa10Loop_chars n.toNat 14 (CharBuffer.store ⟨memory, []⟩ 15 0)
  have hsize : (14 - (14 - ((decimal n.toNat).length : Int))).toNat = (decimal n.toNat).length := by
    omega
  dsimp only [ultoa10]
  rw [hp, hsize, hchars]

/-- The buffer is large enough up to fifteen digits. -/
theorem ultoa10_inside_iff (memory : Int → UInt8) (n : UInt64) :
    (∀ p ∈ (ultoa10 memory n).2.written, 0 ≤ p ∧ p < 16) ↔ n.toNat < 10 ^ 15 := by
  have hwritten : ∀ p, p ∈ (ultoa10 memory n).2.written ↔
      p = 15 ∨ 14 - ((decimal n.toNat).length : Int) < p ∧ p ≤ 14 := fun p => by
    dsimp only [ultoa10]
    rw [ultoa10Loop_written]
    simp [CharBuffer.store]
  constructor
  · intro hinside
    by_contra hlarge
    have hlength := le_length_decimal (Nat.le_of_not_lt hlarge)
    have hfirst := hinside (-1) ((hwritten (-1)).mpr (Or.inr (by omega)))
    omega
  · intro hsmall p hp
    have hlength := length_decimal_le (by decide) hsmall
    rcases (hwritten p).mp hp with rfl | hdigits
    · decide
    · omega

/-- The number is printed and read back inside the buffer up to fifteen digits, and not beyond. -/
theorem ultoa10_exact_iff (memory : Int → UInt8) (n : UInt64) :
    ((∀ p ∈ (ultoa10 memory n).2.written, 0 ≤ p ∧ p < 16) ∧
        (ultoa10 memory n).1 = decimal n.toNat ∧
        Foundation.strtoul (ultoa10 memory n).1 = n.toNat) ↔
      n.toNat < 10 ^ 15 := by
  have hback : Foundation.strtoul (ultoa10 memory n).1 = n.toNat := by
    rw [ultoa10_text, strtoul_decimal n.toNat_lt]
  rw [ultoa10_inside_iff]
  exact and_iff_left ⟨ultoa10_text memory n, hback⟩

/-- The first digit of sixteen is written in front of the buffer. -/
theorem sixteen_digits_outside :
    ¬ ∀ p ∈ (ultoa10 (fun _ => 0) 1000000000000000).2.written, 0 ≤ p ∧ p < 16 := by
  rw [ultoa10_inside_iff]
  decide

end ServiceFrame
