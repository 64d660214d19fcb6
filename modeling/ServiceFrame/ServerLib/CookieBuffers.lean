import ServiceFrame.ServerLib.CookieHelper

/-! # The buffers of the login cookies

Each function has local buffers of 512 bytes: `out` for the cipher, and `in` and `newCookieText`
for the text that is printed. Here are the indexes at which they are used.
-/

namespace ServiceFrame

open Foundation

/-- At most whole blocks are written. -/
structure BfCbc.WritesBlocks (bf : BfCbc) : Prop where
  encrypt : ∀ text, (bf.encrypt text).length ≤ blocks text.length
  decrypt : ∀ str, (bf.decrypt str).length ≤ blocks str.length

namespace CookieHelper

/-- All indexes lie in a `char[512]`. -/
def Inside (indexes : List Nat) : Prop := ∀ index ∈ indexes, index < 512

theorem inside_append {first second : List Nat} :
    Inside (first ++ second) ↔ Inside first ∧ Inside second :=
  List.forall_mem_append

theorem inside_range {count : Nat} : Inside (List.range count) ↔ count ≤ 512 := by
  constructor
  · intro hinside
    by_contra hmore
    have hlast := hinside 512 (List.mem_range.mpr (by omega))
    omega
  · intro hcount index hindex
    have hlt := List.mem_range.mp hindex
    omega

/-! ## Parsing -/

/-- `out`, once the cipher has written to it. -/
def decrypted (bf : BfCbc) (str : List UInt8) : List UInt8 :=
  overwrite (List.replicate 512 0) 0 (bf.decrypt str)

/-- What the parse functions have in common: the cipher writes to `out`, and `strtok` reads it,
and what lies `behind` it when there is no NUL. -/
def parseIndexes (bf : BfCbc) (behind str : List UInt8) : List Nat :=
  if str.length > 512 then []
  else List.range (bf.decrypt str).length ++ (strtok 58 0 [] (decrypted bf str ++ behind)).2

/-- The loops turn over the tokens that this scan returns. -/
theorem readFields_strtok (bf : BfCbc) (behind : List UInt8) (afterNick afterPasswd : Css)
    (str : List UInt8) :
    readFields bf behind afterNick afterPasswd str =
      (strtok 58 0 [] (decrypted bf str ++ behind)).1.foldl
        (Locals.turn afterNick afterPasswd) {} := by
  rw [strtok_eq_tokens]
  rfl

/-- The scan stays in `out` when it finds a NUL there. -/
theorem inside_strtok {out : List UInt8} (hout : out.length = 512) (behind : List UInt8) :
    Inside (strtok 58 0 [] (out ++ behind)).2 ↔ 0 ∈ out := by
  rw [strtok_reads, ← List.range_eq_range', inside_range]
  constructor
  · intro hshort
    by_contra hzero
    have hpos : ∀ byte ∈ out, (byte ≠ 0 : Bool) = true := by
      intro byte hbyte
      have hne : byte ≠ 0 := fun heq => hzero (heq ▸ hbyte)
      simpa using hne
    rw [cstr, List.takeWhile_append_of_pos hpos, List.length_append, hout] at hshort
    omega
  · intro hzero
    obtain ⟨front, rest, rfl, hfront⟩ := List.eq_append_cons_of_mem hzero
    rw [List.append_assoc, List.cons_append, cstr_append_nul hfront]
    rw [List.length_append, List.length_cons] at hout
    omega

theorem blocks_le {length : Nat} (hlength : length ≤ 512) : blocks length ≤ 512 := by
  rw [blocks]
  omega

theorem mem_decrypted {bf : BfCbc} {str : List UInt8} (hshort : (bf.decrypt str).length ≤ 512) :
    0 ∈ decrypted bf str ↔ (bf.decrypt str).length < 512 ∨ 0 ∈ bf.decrypt str := by
  rw [decrypted, overwrite_zero, List.drop_replicate, List.mem_append, List.mem_replicate]
  constructor
  · rintro (hzero | hzeros)
    · exact .inr hzero
    · exact .inl (by omega)
  · rintro (hshorter | hzero)
    · exact .inr ⟨by omega, rfl⟩
    · exact .inl hzero

/-- The scan leaves `out` just when its 512 bytes are all written, and none is a NUL. -/
theorem inside_parse_iff {bf : BfCbc} (hbf : bf.WritesBlocks) (behind str : List UInt8) :
    Inside (parseIndexes bf behind str) ↔
      512 < str.length ∨ (bf.decrypt str).length < 512 ∨ 0 ∈ bf.decrypt str := by
  rw [parseIndexes]
  split
  next hlong => simp [Inside, hlong]
  next hlength =>
    have hshort := (hbf.decrypt str).trans (blocks_le (Nat.not_lt.mp hlength))
    have hout : (decrypted bf str).length = 512 := by
      rw [decrypted, length_overwrite, List.length_replicate]
      rw [List.length_replicate]
      omega
    rw [inside_append, inside_range, inside_strtok hout, mem_decrypted hshort]
    constructor
    · rintro ⟨-, hzero⟩
      exact .inr hzero
    · intro hzero
      exact ⟨hshort, hzero.resolve_left hlength⟩

/-- A text of 504 bytes leaves the last block of `out` as it was. -/
theorem inside_parse_short {bf : BfCbc} (hbf : bf.WritesBlocks) (behind : List UInt8)
    {str : List UInt8} (hshort : str.length ≤ 504) : Inside (parseIndexes bf behind str) := by
  apply (inside_parse_iff hbf behind str).mpr
  have hblocks := hbf.decrypt str
  rw [blocks] at hblocks
  exact .inr (.inl (by omega))

/-- Where each row of blocks is the cleartext of some text, a text of 512 bytes leaves `out`. -/
theorem exists_parse_outside {bf : BfCbc} (hbf : bf.WritesBlocks)
    (hblocks : ∀ text, text.length = blocks text.length →
      ∃ str, str.length = text.length ∧ bf.decrypt str = text) (behind : List UInt8) :
    ∃ str, str.length = 512 ∧ ¬Inside (parseIndexes bf behind str) := by
  obtain ⟨str, hlength, hdecrypt⟩ :=
    hblocks (List.replicate 512 97) (by rw [List.length_replicate, blocks])
  rw [List.length_replicate] at hlength
  refine ⟨str, hlength, ?_⟩
  rw [inside_parse_iff hbf, hlength, hdecrypt, List.length_replicate, List.mem_replicate]
  simp

/-! ## Printing -/

namespace Format

/-- The fields that are printed to `in`. -/
def printed (format : Format) (ck : CookieHelper) : List (List UInt8) :=
  match format with
  | .cookie =>
      if ck.passport.length + ck.fromName.length < 300 then
        ck.numbers ++ [cstr ck.fromName, cstr ck.passport]
      else ck.numbers ++ errorOverflow
  | .cookie20 =>
      if ck.passport.length + ck.fromName.length < 300 then
        ck.numbers ++ [cstr ck.fromName, cstr ck.passport, cstr ck.shaPasswd]
      else ck.numbers ++ errorOverflow ++ [cstr ck.shaPasswd]
  | .cookie30 =>
      if ck.passport.length + ck.fromName.length + ck.extension.length < 300 then
        ck.numbers ++ [cstr ck.fromName, cstr ck.passport, cstr ck.shaPasswd, cstr ck.extension]
      else ck.numbers ++ errorOverflow ++ [cstr ck.shaPasswd, [101, 120, 116]]
  | .cookie40 =>
      if ck.passport.length + ck.fromName.length < 300 then
        ck.numbers ++
          [cstr ck.fromName, cstr ck.passport, cstr ck.shaPasswd, decimal ck.termId.toNat]
      else ck.numbers ++ errorOverflow ++ [cstr ck.shaPasswd, decimal ck.termId.toNat]

def toCookie (format : Format) (bf : BfCbc) (ck : CookieHelper) : Option (List UInt8) :=
  match format with
  | .cookie => ck.toCookie bf
  | .cookie20 => ck.toCookie20 bf
  | .cookie30 => ck.toCookie30 bf
  | .cookie40 => ck.toCookie40 bf

theorem toCookie_eq (format : Format) (bf : BfCbc) (ck : CookieHelper) :
    format.toCookie bf ck = encrypted bf (format.printed ck) := by
  cases format with
  | cookie => exact (apply_ite (encrypted bf) _ _ _).symm
  | cookie20 => exact (apply_ite (encrypted bf) _ _ _).symm
  | cookie30 => exact (apply_ite (encrypted bf) _ _ _).symm
  | cookie40 => exact (apply_ite (encrypted bf) _ _ _).symm

/-- The fields that are printed to `newCookieText` for the log. The password is not. -/
def logged (format : Format) (ck : CookieHelper) : Option (List (List UInt8)) :=
  match format with
  | .cookie20 =>
      if ck.passport.length + ck.fromName.length < 300 then
        some (ck.numbers ++ [cstr ck.fromName, cstr ck.passport])
      else none
  | .cookie40 =>
      if ck.passport.length + ck.fromName.length < 300 then
        some (ck.numbers ++ [cstr ck.fromName, cstr ck.passport, [42], decimal ck.termId.toNat])
      else none
  | _ => none

end Format

/-- `sprintf` writes the fields with ':' between them, and a NUL. -/
def sprintfIndexes (fields : List (List UInt8)) : List Nat :=
  List.range (([58].intercalate fields).length + 1)

/-- The indexes at which `in`, `newCookieText` and `out` are written. -/
def Format.toCookieIndexes (format : Format) (bf : BfCbc) (ck : CookieHelper) : List Nat :=
  sprintfIndexes (format.printed ck) ++ ((format.logged ck).elim [] sprintfIndexes ++
    List.range (bf.encrypt ([58].intercalate (format.printed ck))).length)

/-- What `toCookie` returns is defined just when the text fits into `in`. -/
theorem toCookie_isSome_iff (format : Format) (bf : BfCbc) (ck : CookieHelper) :
    (format.toCookie bf ck).isSome ↔ Inside (sprintfIndexes (format.printed ck)) := by
  rw [Format.toCookie_eq, encrypted, sprintfIndexes, inside_range]
  split
  next hfits => exact ⟨fun _ => hfits, fun _ => rfl⟩
  next hfits => exact ⟨fun hsome => (by cases hsome), fun hshort => absurd hshort hfits⟩

namespace Format

/-- Whether the names are printed, and not `"error:overflow"`. -/
def NamesPrinted (format : Format) (ck : CookieHelper) : Prop :=
  ck.passport.length + ck.fromName.length +
    (if format = .cookie30 then ck.extension.length else 0) < 300

instance (format : Format) (ck : CookieHelper) : Decidable (format.NamesPrinted ck) :=
  inferInstanceAs (Decidable (_ < _))

/-- The bytes that the fields take, with the ':' between them. -/
def fieldBytes (format : Format) (ck : CookieHelper) : Nat :=
  (decimal ck.version.toUInt32.toNat).length + (decimal (ck.time % 2 ^ 64).toNat).length +
    (decimal ck.uid.toNat).length + (decimal ck.ip.toNat).length + 4 +
    (if format.NamesPrinted ck then (cstr ck.fromName).length + 1 + (cstr ck.passport).length
      else 14) +
    match format with
    | .cookie => 0
    | .cookie20 => 1 + (cstr ck.shaPasswd).length
    | .cookie30 => 2 + (cstr ck.shaPasswd).length +
        if format.NamesPrinted ck then (cstr ck.extension).length else 3
    | .cookie40 => 2 + (cstr ck.shaPasswd).length + (decimal ck.termId.toNat).length

theorem length_printed (format : Format) (ck : CookieHelper) :
    ([58].intercalate (format.printed ck)).length = format.fieldBytes ck := by
  cases format with
  | cookie =>
      by_cases hnames : ck.passport.length + ck.fromName.length < 300 <;>
      simp [printed, fieldBytes, NamesPrinted, hnames, numbers, errorOverflow] <;>
      omega
  | cookie20 =>
      by_cases hnames : ck.passport.length + ck.fromName.length < 300 <;>
      simp [printed, fieldBytes, NamesPrinted, hnames, numbers, errorOverflow] <;>
      omega
  | cookie30 =>
      by_cases hnames : ck.passport.length + ck.fromName.length + ck.extension.length < 300 <;>
      simp [printed, fieldBytes, NamesPrinted, hnames, numbers, errorOverflow] <;>
      omega
  | cookie40 =>
      by_cases hnames : ck.passport.length + ck.fromName.length < 300 <;>
      simp [printed, fieldBytes, NamesPrinted, hnames, numbers, errorOverflow] <;>
      omega

/-- The largest numbers that are printed. -/
theorem length_numbers (ck : CookieHelper) :
    (decimal ck.version.toUInt32.toNat).length ≤ 10 ∧
      (decimal (ck.time % 2 ^ 64).toNat).length ≤ 20 ∧ (decimal ck.uid.toNat).length ≤ 10 ∧
      (decimal ck.ip.toNat).length ≤ 10 ∧ (decimal ck.termId.toNat).length ≤ 20 := by
  have hword : ∀ value : UInt32, (decimal value.toNat).length ≤ 10 := by
    intro value
    exact length_decimal_le (by decide) (lt_trans value.toNat_lt (by decide))
  have htime : (ck.time % 2 ^ 64).toNat < 10 ^ 20 := by omega
  refine ⟨hword _, length_decimal_le (by decide) htime, hword _, hword _, ?_⟩
  exact length_decimal_le (by decide) (lt_trans ck.termId.toNat_lt (by decide))

theorem length_cstr_le (memory : List UInt8) : (cstr memory).length ≤ memory.length :=
  (List.takeWhile_sublist _).length_le

/-- The log line leaves the password out, and fits. -/
theorem inside_logged (format : Format) (ck : CookieHelper) :
    Inside ((format.logged ck).elim [] sprintfIndexes) := by
  have hnil : Inside [] := by simp [Inside]
  obtain ⟨hversion, htime, huid, hip, htid⟩ := length_numbers ck
  have hfrom := length_cstr_le ck.fromName
  have hpassport := length_cstr_le ck.passport
  cases format with
  | cookie => exact hnil
  | cookie30 => exact hnil
  | cookie20 | cookie40 =>
      dsimp only [logged]
      split
      next hnames =>
        apply inside_range.mpr
        simp only [numbers, List.cons_append, List.nil_append, List.intercalate_cons_cons,
          List.intercalate_singleton, List.length_append, List.length_cons, List.length_nil]
        omega
      next => exact hnil

/-- The text is encrypted in place of itself, and needs no more room. -/
theorem inside_toCookie_iff (format : Format) {bf : BfCbc} (hbf : bf.WritesBlocks)
    (ck : CookieHelper) :
    Inside (format.toCookieIndexes bf ck) ↔ format.fieldBytes ck < 512 := by
  have hcipher := hbf.encrypt ([58].intercalate (format.printed ck))
  rw [length_printed] at hcipher
  rw [toCookieIndexes, inside_append, inside_append, sprintfIndexes, inside_range, inside_range,
    length_printed]
  constructor
  · rintro ⟨htext, -, -⟩
    exact htext
  · intro htext
    exact ⟨htext, format.inside_logged ck, hcipher.trans (blocks_le (Nat.le_of_lt htext))⟩

/-- A plain cookie always fits. -/
theorem inside_toCookie {bf : BfCbc} (hbf : bf.WritesBlocks) (ck : CookieHelper) :
    Inside (Format.cookie.toCookieIndexes bf ck) := by
  apply (Format.cookie.inside_toCookie_iff hbf ck).mpr
  obtain ⟨hversion, htime, huid, hip, -⟩ := length_numbers ck
  have hfrom := length_cstr_le ck.fromName
  have hpassport := length_cstr_le ck.passport
  have hnames : Format.cookie.NamesPrinted ck →
      ck.passport.length + ck.fromName.length < 300 := id
  rw [fieldBytes]
  split
  next hprinted =>
    have hshort := hnames hprinted
    omega
  next => omega

end Format

/-- Parsing stays in its buffer when the decrypted bytes leave room for a NUL or have one, and
printing when the fields fit, of which those of a plain cookie always do. -/
theorem inside_iff (bf : BfCbc) (hbf : bf.WritesBlocks) (behind str : List UInt8)
    (format : Format) (ck : CookieHelper) :
    (Inside (parseIndexes bf behind str) ↔
        512 < str.length ∨ (bf.decrypt str).length < 512 ∨ 0 ∈ bf.decrypt str) ∧
      (Inside (format.toCookieIndexes bf ck) ↔
        format = .cookie ∨ format.fieldBytes ck < 512) := by
  refine ⟨inside_parse_iff hbf behind str, ?_⟩
  rw [format.inside_toCookie_iff hbf ck]
  constructor
  · intro hfits
    exact .inr hfits
  · rintro (rfl | hfits)
    · exact (Format.cookie.inside_toCookie_iff hbf ck).mp (Format.inside_toCookie hbf ck)
    · exact hfits

theorem knownBlocks_writesBlocks {plain cipher : List UInt8}
    (hlength : plain.length = cipher.length) : (knownBlocks plain cipher).WritesBlocks where
  encrypt text := ((knownBlocks_lawful hlength).length_encrypt text).le
  decrypt str := by
    have hsame : ((knownBlocks plain cipher).decrypt str).length = str.length := by
      simp only [knownBlocks]
      rw [Equiv.swap_apply_def]
      split_ifs with hplain hcipher
      · rw [hplain, hlength]
      · rw [hcipher, hlength]
      · rfl
    rw [hsame]
    exact le_blocks str.length

theorem inside_known :
    Inside (parseIndexes (knownBlocks plainCookie cipherCookie) [] cipherCookie) ∧
      Inside (Format.cookie20.toCookieIndexes (knownBlocks plainCookie30 cipherCookie30)
        cookie30) := by
  have hplain : (knownBlocks plainCookie cipherCookie).WritesBlocks :=
    knownBlocks_writesBlocks rfl
  have hplain30 : (knownBlocks plainCookie30 cipherCookie30).WritesBlocks :=
    knownBlocks_writesBlocks rfl
  constructor
  · apply (inside_iff _ hplain [] cipherCookie .cookie cookie30).1.mpr
    exact .inr (.inl (by decide))
  · apply (inside_iff _ hplain30 [] [] .cookie20 cookie30).2.mpr
    exact .inr (by decide)

/-- A cookie of 1 with a password of 512 bytes. -/
def longPasswd : CookieHelper := ⟨0, 1, 1, [], [], 0, List.replicate 512 97, [], 0⟩

theorem longPasswd_outside :
    ¬∀ bf : BfCbc, bf.WritesBlocks → ∀ (behind str : List UInt8) (format : Format)
      (ck : CookieHelper), Inside (parseIndexes bf behind str) ∧
        Inside (format.toCookieIndexes bf ck) := by
  intro hinside
  have hbf : (knownBlocks [] []).WritesBlocks := knownBlocks_writesBlocks rfl
  have hfits := (Format.cookie20.inside_toCookie_iff hbf longPasswd).mp
    (hinside _ hbf [] [] .cookie20 longPasswd).2
  have hpasswd : (cstr longPasswd.shaPasswd).length = 512 := by
    have hnul : 0 ∉ List.replicate 512 (97 : UInt8) := by
      rw [List.mem_replicate]
      decide
    rw [longPasswd, cstr_of_notMem hnul, List.length_replicate]
  simp only [Format.fieldBytes, hpasswd] at hfits
  omega

end CookieHelper

end ServiceFrame
