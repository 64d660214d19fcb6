import ServiceFrame.ServerLib.CookieBuffers

/-! # Empty fields of the login cookies

`strtok` passes over an empty field, so that the fields behind it are read one position too
early. Which layouts notice it?
-/

namespace ServiceFrame

open Foundation

namespace CookieHelper

namespace Format

/-- What is printed behind the numbers. -/
def texts (format : Format) (ck : CookieHelper) : List (List UInt8) :=
  match format with
  | .cookie => [ck.fromName, ck.passport]
  | .cookie20 => [ck.fromName, ck.passport, ck.shaPasswd]
  | .cookie30 => [ck.fromName, ck.passport, ck.shaPasswd, ck.extension]
  | .cookie40 => [ck.fromName, ck.passport, ck.shaPasswd, decimal ck.termId.toNat]

/-- The number of fields of a whole text. -/
def fieldCount : Format → Nat
  | .cookie => 6
  | .cookie20 => 7
  | .cookie30 => 8
  | .cookie40 => 8

/-- The text fields have no ':' and no NUL and keep within the limits. They may be empty. -/
structure Fits (format : Format) (ck : CookieHelper) : Prop where
  fields : ∀ field ∈ format.texts ck, 58 ∉ field ∧ 0 ∉ field
  names : format.NamesPrinted ck
  text : format.fieldBytes ck < 512

/-- The cookie that was parsed has each field of the layout in its position. -/
structure Restores (format : Format) (parsed ck : CookieHelper) : Prop where
  uid : parsed.uid = ck.uid
  ip : parsed.ip = ck.ip
  fromName : parsed.fromName = ck.fromName
  passport : parsed.passport = ck.passport
  shaPasswd : format ≠ .cookie → parsed.shaPasswd = ck.shaPasswd
  termId : format = .cookie40 → parsed.termId = ck.termId

/-- The cookie is not taken for another one: a text of the first two layouts with an empty field
is too short, one of the third may be taken for an older one, and the last has no check. -/
def Unshifted (format : Format) (ck : CookieHelper) : Prop :=
  match format with
  | .cookie => True
  | .cookie20 => True
  | .cookie30 =>
      (ck.fromName ≠ [] ∧ ck.passport ≠ [] ∧ (ck.shaPasswd ≠ [] ∨ ck.extension = [])) ∨
        ((Format.cookie30.texts ck).filter (· ≠ [])).length < 2
  | .cookie40 => ck.fromName ≠ [] ∧ ck.passport ≠ [] ∧ ck.shaPasswd ≠ []

section Printed

variable {format : Format} {ck : CookieHelper}

theorem Fits.printed_eq (hck : format.Fits ck) :
    format.printed ck = ck.numbers ++ format.texts ck := by
  have hnames := hck.names
  have hcstr : ∀ field ∈ format.texts ck, cstr field = field := fun field hfield =>
    cstr_of_notMem (hck.fields field hfield).2
  cases format with
  | cookie =>
      have hshort : ck.passport.length + ck.fromName.length < 300 := hnames
      simp only [texts, List.forall_mem_cons] at hcstr
      obtain ⟨hfrom, hpassport, -⟩ := hcstr
      rw [printed, texts, if_pos hshort, hfrom, hpassport]
  | cookie20 =>
      have hshort : ck.passport.length + ck.fromName.length < 300 := hnames
      simp only [texts, List.forall_mem_cons] at hcstr
      obtain ⟨hfrom, hpassport, hpasswd, -⟩ := hcstr
      rw [printed, texts, if_pos hshort, hfrom, hpassport, hpasswd]
  | cookie30 =>
      have hshort : ck.passport.length + ck.fromName.length + ck.extension.length < 300 := hnames
      simp only [texts, List.forall_mem_cons] at hcstr
      obtain ⟨hfrom, hpassport, hpasswd, hextension, -⟩ := hcstr
      rw [printed, texts, if_pos hshort, hfrom, hpassport, hpasswd, hextension]
  | cookie40 =>
      have hshort : ck.passport.length + ck.fromName.length < 300 := hnames
      simp only [texts, List.forall_mem_cons] at hcstr
      obtain ⟨hfrom, hpassport, hpasswd, -⟩ := hcstr
      rw [printed, texts, if_pos hshort, hfrom, hpassport, hpasswd]

/-- The text of a cookie that fits holds the numbers, and the texts that are not empty. -/
theorem Fits.tokens_toCookie (hck : format.Fits ck) {bf : BfCbc} (hbf : bf.Lawful)
    (behind : List UInt8) :
    ∃ str, format.toCookie bf ck = some str ∧ str.length ≤ 512 ∧
      tokens 58 (cleartext bf behind str) =
        ck.numbers ++ (format.texts ck).filter (· ≠ []) := by
  have hprinted := hck.printed_eq
  have hclean : ∀ field ∈ ck.numbers ++ format.texts ck, 58 ∉ field ∧ 0 ∉ field := by
    intro field hfield
    rcases List.mem_append.mp hfield with hnumber | htext
    · exact (ck.numbers_clean field hnumber).2
    · exact hck.fields field htext
  have hlength : ([58].intercalate (ck.numbers ++ format.texts ck)).length < 512 := by
    rw [← hprinted, length_printed]
    exact hck.text
  obtain ⟨str, hstr, hshort, htext⟩ := encrypted_cleartext hbf
    (fun field hfield => (hclean field hfield).2) hlength behind
  refine ⟨str, ?_, hshort, ?_⟩
  · rw [toCookie_eq, hprinted, hstr]
  · have hnumbers : ck.numbers.filter (· ≠ []) = ck.numbers := by
      apply List.filter_eq_self.mpr
      intro field hfield
      simpa using (ck.numbers_clean field hfield).1
    rw [htext, tokens_intercalate_filter fun field hfield => (hclean field hfield).1,
      List.filter_append, hnumbers]

end Printed

section Positions

/-- The texts of the cookie stand in their positions behind the numbers. -/
structure InPlace (format : Format) (ck : CookieHelper) (rest : List (List UInt8)) : Prop where
  fromName : (rest[0]?).getD [] = ck.fromName
  passport : (rest[1]?).getD [] = ck.passport
  shaPasswd : format ≠ .cookie → (rest[2]?).getD [] = ck.shaPasswd
  termId : format = .cookie40 →
    ((rest[3]?).elim 0 fun p => UInt64.ofNat (strtoul p)) = ck.termId

variable (format : Format) (ck : CookieHelper) (rest : List (List UInt8))

theorem uid_ofFields : (format.ofFields (ck.numbers ++ rest)).uid = ck.uid := by
  have huid : ck.uid.toNat < 2 ^ 64 := lt_trans ck.uid.toNat_lt (by decide)
  change UInt32.ofNat (strtoul (decimal ck.uid.toNat)) = ck.uid
  rw [strtoul_decimal huid, UInt32.ofNat_toNat]

/-- The numbers are always read back. -/
theorem restores_iff :
    format.Restores { format.ofFields (ck.numbers ++ rest) with extension := [] } ck ↔
      format.InPlace ck rest := by
  constructor
  · intro hrestores
    refine ⟨hrestores.fromName, hrestores.passport, ?_, ?_⟩
    · intro hpasswd
      have hsame := hrestores.shaPasswd hpasswd
      rw [← hsame]
      exact (if_neg hpasswd).symm
    · intro htid
      rw [← hrestores.termId htid]
      exact (if_pos htid).symm
  · intro hplace
    refine ⟨uid_ofFields format ck rest, atoi_decimal ck.ip, hplace.fromName, hplace.passport,
      ?_, ?_⟩
    · intro hpasswd
      rw [← hplace.shaPasswd hpasswd]
      exact if_neg hpasswd
    · intro htid
      rw [← hplace.termId htid]
      exact if_pos htid

variable {format ck rest}

variable (format) in
theorem issued_numbers {bf : BfCbc} {behind str : List UInt8} (hlength : str.length ≤ 512)
    (htokens : tokens 58 (cleartext bf behind str) = ck.numbers ++ rest) :
    format.issued bf behind str =
      if 4 + rest.length < format.required then none
      else some (format.ofFields (ck.numbers ++ rest)) := by
  have hcount : (ck.numbers ++ rest).length = 4 + rest.length := List.length_append
  have hshort : ¬str.length > 512 := Nat.not_lt.mpr hlength
  rw [issued, htokens, hcount]
  simp only [hshort, false_or]

/-- A text is rejected when it has too few fields, and else read by position. -/
theorem restored_or_rejected_iff {bf : BfCbc} {behind str : List UInt8} (now : Int)
    (hlength : str.length ≤ 512)
    (htokens : tokens 58 (cleartext bf behind str) = ck.numbers ++ rest) :
    (format.Restores (format.parse bf behind now str) ck ∨
        (format.parse bf behind now str).uid = INVALID_UID) ↔
      ck.uid = INVALID_UID ∨ 4 + rest.length < format.required ∨ format.InPlace ck rest := by
  have hissued := issued_numbers format hlength htokens
  split at hissued
  next hfew =>
    have huid := parse_rejected now hissued
    constructor
    · intro _
      exact .inr (.inl hfew)
    · intro _
      exact .inr huid
  next hmany =>
    have huid := uid_ofFields format ck rest
    rw [parse_issued now hissued, restores_iff]
    constructor
    · rintro (hplace | hinvalid)
      · exact .inr (.inr hplace)
      · exact .inl (huid.symm.trans hinvalid)
    · rintro (hinvalid | hfew | hplace)
      · exact .inr (huid.trans hinvalid)
      · exact absurd hfew hmany
      · exact .inl hplace

@[simp]
theorem inPlace_iff : format.InPlace ck rest ↔
    (rest[0]?).getD [] = ck.fromName ∧ (rest[1]?).getD [] = ck.passport ∧
      (format ≠ .cookie → (rest[2]?).getD [] = ck.shaPasswd) ∧
      (format = .cookie40 → ((rest[3]?).elim 0 fun p => UInt64.ofNat (strtoul p)) = ck.termId) := by
  constructor
  · intro hplace
    exact ⟨hplace.fromName, hplace.passport, hplace.shaPasswd, hplace.termId⟩
  · rintro ⟨hfrom, hpassport, hpasswd, htid⟩
    exact ⟨hfrom, hpassport, hpasswd, htid⟩

theorem strtoul_termId (ck : CookieHelper) :
    UInt64.ofNat (strtoul (decimal ck.termId.toNat)) = ck.termId := by
  rw [strtoul_decimal ck.termId.toNat_lt, UInt64.ofNat_toNat]

theorem inPlace_texts (format : Format) (ck : CookieHelper) :
    format.InPlace ck (format.texts ck) := by
  cases format with
  | cookie => simp [texts]
  | cookie20 => simp [texts]
  | cookie30 => simp [texts]
  | cookie40 => simp [texts, strtoul_termId]

/-- Without the empty texts there are too few, or the others stand in their positions. -/
theorem unshifted_iff (format : Format) (ck : CookieHelper) :
    (4 + ((format.texts ck).filter (· ≠ [])).length < format.required ∨
        format.InPlace ck ((format.texts ck).filter (· ≠ []))) ↔ format.Unshifted ck := by
  have htid := decimal_ne_nil ck.termId.toNat
  have hvalue := strtoul_termId ck
  -- Each text is empty, or has a first byte.
  cases format with
  | cookie =>
      rcases hfrom : ck.fromName with _ | ⟨f, from'⟩ <;>
      rcases hpassport : ck.passport with _ | ⟨n, passport⟩ <;>
      simp [texts, required, Unshifted, hfrom, hpassport]
  | cookie20 =>
      rcases hfrom : ck.fromName with _ | ⟨f, from'⟩ <;>
      rcases hpassport : ck.passport with _ | ⟨n, passport⟩ <;>
      rcases hpasswd : ck.shaPasswd with _ | ⟨p, passwd⟩ <;>
      simp [texts, required, Unshifted, hfrom, hpassport, hpasswd]
  | cookie30 =>
      rcases hfrom : ck.fromName with _ | ⟨f, from'⟩ <;>
      rcases hpassport : ck.passport with _ | ⟨n, passport⟩ <;>
      rcases hpasswd : ck.shaPasswd with _ | ⟨p, passwd⟩ <;>
      rcases hextension : ck.extension with _ | ⟨e, extension⟩ <;>
      simp [texts, required, Unshifted, hfrom, hpassport, hpasswd, hextension]
  | cookie40 =>
      rcases hfrom : ck.fromName with _ | ⟨f, from'⟩ <;>
      rcases hpassport : ck.passport with _ | ⟨n, passport⟩ <;>
      rcases hpasswd : ck.shaPasswd with _ | ⟨p, passwd⟩ <;>
      simp [texts, required, Unshifted, hfrom, hpassport, hpasswd, htid, hvalue]

end Positions

section Texts

variable {format : Format} {bf : BfCbc} {behind : List UInt8} {ck : CookieHelper}

/-- Without empty texts the cookie comes back. -/
theorem restores_of_nonempty (now : Int) {str : List UInt8} (hlength : str.length ≤ 512)
    (htokens : tokens 58 (cleartext bf behind str) =
      ck.numbers ++ (format.texts ck).filter (· ≠ []))
    (hfields : ∀ field ∈ format.texts ck, field ≠ []) :
    format.Restores (format.parse bf behind now str) ck := by
  have hall : (format.texts ck).filter (· ≠ []) = format.texts ck := by
    apply List.filter_eq_self.mpr
    intro field hfield
    simpa using hfields field hfield
  rw [hall] at htokens
  have hmany : ¬4 + (format.texts ck).length < format.required := by
    cases format <;> simp [texts, required]
  have hissued := issued_numbers format hlength htokens
  rw [if_neg hmany] at hissued
  rw [parse_issued now hissued, restores_iff]
  exact inPlace_texts format ck

/-- The first two layouts reject a text with too few fields. The last one takes it, unless it
has no uid, or that of nobody. -/
theorem short_rejected_iff (now : Int) {str : List UInt8} (hformat : format ≠ .cookie30)
    (hfew : (tokens 58 (cleartext bf behind str)).length < format.fieldCount) :
    (format.parse bf behind now str).uid = INVALID_UID ↔
      format ≠ .cookie40 ∨ 512 < str.length ∨
        ∀ third, (tokens 58 (cleartext bf behind str))[2]? = some third →
          UInt32.ofNat (strtoul third) = INVALID_UID := by
  have hrejected : format.issued bf behind str = none →
      (format.parse bf behind now str).uid = INVALID_UID := parse_rejected now
  cases format with
  | cookie => simp [hrejected (if_pos (.inr hfew))]
  | cookie20 => simp [hrejected (if_pos (.inr hfew))]
  | cookie30 => exact absurd rfl hformat
  | cookie40 =>
      by_cases hlong : 512 < str.length
      · simp [hrejected (if_pos (.inl hlong)), hlong]
      · have hissued : Format.cookie40.issued bf behind str =
            some (Format.cookie40.ofFields (tokens 58 (cleartext bf behind str))) :=
          if_neg (not_or.mpr ⟨hlong, Nat.not_lt_zero _⟩)
        rw [parse_issued now hissued]
        cases hthird : (tokens 58 (cleartext bf behind str))[2]? with
        | none => simp [ofFields, hthird]
        | some third => simp [ofFields, hthird, hlong]

end Texts

end Format

/-- A cookie comes back whole or is rejected, just when it is that of nobody or is not taken for
another one; it comes back when no field is empty. Too short a text is rejected, but by
`parse40`. -/
theorem restored_iff (bf : BfCbc) (hbf : bf.Lawful) (behind : List UInt8) (now : Int)
    (format : Format) (ck : CookieHelper) (hck : format.Fits ck) (text : List UInt8) :
    (∃ str, format.toCookie bf ck = some str ∧
      ((format.Restores (format.parse bf behind now str) ck ∨
          (format.parse bf behind now str).uid = INVALID_UID) ↔
        ck.uid = INVALID_UID ∨ format.Unshifted ck) ∧
      ((∀ field ∈ format.texts ck, field ≠ []) →
        format.Restores (format.parse bf behind now str) ck)) ∧
    (format ≠ .cookie30 →
      (tokens 58 (cleartext bf behind text)).length < format.fieldCount →
      ((format.parse bf behind now text).uid = INVALID_UID ↔
        format ≠ .cookie40 ∨ 512 < text.length ∨
          ∀ third, (tokens 58 (cleartext bf behind text))[2]? = some third →
            UInt32.ofNat (strtoul third) = INVALID_UID)) := by
  obtain ⟨str, hstr, hlength, htokens⟩ := hck.tokens_toCookie hbf behind
  refine ⟨⟨str, hstr, ?_, ?_⟩, ?_⟩
  · rw [Format.restored_or_rejected_iff now hlength htokens, Format.unshifted_iff]
  · intro hfields
    exact Format.restores_of_nonempty now hlength htokens hfields
  · intro hformat hfew
    exact Format.short_rejected_iff now hformat hfew

theorem restored_known :
    ∃ str, Format.cookie30.toCookie (knownBlocks plainCookie30 cipherCookie30) cookie30 =
        some str ∧
      Format.cookie30.Restores
        (parse30 (knownBlocks plainCookie30 cipherCookie30) [] 0 str) cookie30 := by
  have hfits : Format.cookie30.Fits cookie30 := ⟨by decide, by decide, by decide⟩
  obtain ⟨⟨str, hstr, -, hrestores⟩, -⟩ := restored_iff
    (knownBlocks plainCookie30 cipherCookie30) (knownBlocks_lawful rfl) [] 0 .cookie30 cookie30
    hfits []
  exact ⟨str, hstr, hrestores (by decide)⟩

/-- `"1:0:7:0:a:b::5"`: a cookie without a password, and with the term id 5. -/
def plainCookie40 : List UInt8 := [49, 58, 48, 58, 55, 58, 48, 58, 97, 58, 98, 58, 58, 53, 0, 0]

def cipherCookie40 : List UInt8 :=
  [167, 162, 236, 71, 45, 148, 79, 200, 171, 103, 2, 128, 97, 118, 7, 246]

/-- The cookie of this text. -/
def cookie40 : CookieHelper := ⟨0, 1, 7, [98], [97], 0, [], [], 5⟩

/-- The term id is read as the password, and a cookie of the first layout is taken. -/
theorem termId_as_passwd :
    Format.cookie40.Fits cookie40 ∧
      cookie40.toCookie40 (knownBlocks plainCookie40 cipherCookie40) = some cipherCookie40 ∧
      (∃ parsed,
        parse40 (knownBlocks plainCookie40 cipherCookie40) [] 0 cipherCookie40 = parsed ∧
          parsed.shaPasswd = decimal 5 ∧ parsed.termId = 0 ∧
          ¬(Format.cookie40.Restores parsed cookie40 ∨ parsed.uid = INVALID_UID)) ∧
      (tokens 58 (cleartext (knownBlocks plainCookie cipherCookie) [] cipherCookie)).length <
        Format.cookie40.fieldCount ∧
      (parse40 (knownBlocks plainCookie cipherCookie) [] 0 cipherCookie).uid = 7 := by
  have hfits : Format.cookie40.Fits cookie40 := ⟨by decide, by decide, by decide⟩
  have hparse : parse40 (knownBlocks plainCookie40 cipherCookie40) [] 0 cipherCookie40 =
      ⟨0, 1, 7, [98], [97], 0, [53], [], 0⟩ := by
    decide
  refine ⟨hfits, by decide, ⟨_, hparse, by decide, rfl, ?_⟩, by decide, by decide⟩
  rintro (hrestores | hinvalid)
  · have htid := hrestores.termId rfl
    revert htid
    decide
  · revert hinvalid
    decide

end CookieHelper

end ServiceFrame
