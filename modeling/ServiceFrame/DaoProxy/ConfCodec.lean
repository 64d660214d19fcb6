import Mathlib.Data.FinEnum
import Mathlib.Data.Finset.Dedup
import ServiceFrame.Foundation.CString
import ServiceFrame.Foundation.OrderedMap

/-! # The texts of a configuration

The codecs by hand that `dao_proxy` writes and reads its global configuration with: maps of
strings, encoded as in the query of a URL, and lists of addresses.
-/

namespace ServiceFrame

open Foundation

/-- A `std::string`. -/
abbrev Text := List UInt8

/-- The bytes of a literal. -/
def text (s : String) : Text := s.toList.map Char.toUInt8

namespace cgicc

def hexDigit (half : UInt8) : UInt8 := half + if half > 9 then 65 - 10 else 48

def charToHex (c : UInt8) : Text := [hexDigit ((c &&& 0xF0) / 16), hexDigit (c &&& 0x0F)]

def isxdigit (c : UInt8) : Bool :=
  (48 ≤ c && c ≤ 57) || (65 ≤ c && c ≤ 70) || (97 ≤ c && c ≤ 102)

def hexValue (digit : UInt8) : UInt8 :=
  if digit ≥ 65 then ((digit &&& 0xDF) - 65) + 10 else digit - 48

def hexToChar (first second : UInt8) : UInt8 := hexValue first * 16 + hexValue second

def isalnum (c : UInt8) : Bool := (65 ≤ c && c ≤ 90) || (97 ≤ c && c ≤ 122) || (48 ≤ c && c ≤ 57)

def marks : Text := text "-_.!~*'()"

/-- What `form_urlencode` writes for one character. -/
def encodeChar (c : UInt8) : Text :=
  if c = 32 then [43] else if isalnum c || marks.contains c then [c] else 37 :: charToHex c

def formUrlencode (src : Text) : Text := src.flatMap encodeChar

/-- A `%` without two digits behind it stays as it is. -/
def formUrldecode : Text → Text
  | [] => []
  | [c] => [if c = 43 then 32 else c]
  | [c, last] => (if c = 43 then 32 else c) :: formUrldecode [last]
  | c :: first :: second :: rest =>
      if c = 43 then 32 :: formUrldecode (first :: second :: rest)
      else if c = 37 && isxdigit first && isxdigit second then
        hexToChar first second :: formUrldecode rest
      else c :: formUrldecode (first :: second :: rest)

theorem formUrldecode_cons {c : UInt8} (hplus : c ≠ 43) (hpercent : c ≠ 37) (rest : Text) :
    formUrldecode (c :: rest) = c :: formUrldecode rest := by
  match rest with
  | [] => simp [formUrldecode, hplus]
  | [last] => simp [formUrldecode, hplus]
  | first :: second :: rest => simp [formUrldecode, hplus, hpercent]

theorem formUrldecode_plus (rest : Text) :
    formUrldecode (43 :: rest) = 32 :: formUrldecode rest := by
  match rest with
  | [] => rfl
  | [last] => rfl
  | first :: second :: rest => rfl

theorem hexToChar_charToHex (c : UInt8) :
    hexToChar (hexDigit ((c &&& 0xF0) / 16)) (hexDigit (c &&& 0x0F)) = c ∧
      isxdigit (hexDigit ((c &&& 0xF0) / 16)) = true ∧ isxdigit (hexDigit (c &&& 0x0F)) = true := by
  revert c
  decide +kernel

theorem formUrldecode_charToHex (c : UInt8) (rest : Text) :
    formUrldecode (37 :: charToHex c ++ rest) = c :: formUrldecode rest := by
  obtain ⟨hvalue, hfirst, hsecond⟩ := hexToChar_charToHex c
  simp [charToHex, formUrldecode, hvalue, hfirst, hsecond]

/-- No escape and no plus is written as it is. -/
theorem plain_of_unreserved {c : UInt8} (hplain : (isalnum c || marks.contains c) = true) :
    c ≠ 43 ∧ c ≠ 37 := by
  revert c
  decide +kernel

theorem formUrldecode_encodeChar (c : UInt8) (rest : Text) :
    formUrldecode (encodeChar c ++ rest) = c :: formUrldecode rest := by
  unfold encodeChar
  split
  next hblank => rw [hblank, List.singleton_append, formUrldecode_plus]
  next =>
    split
    next hplain =>
      obtain ⟨hplus, hpercent⟩ := plain_of_unreserved hplain
      exact formUrldecode_cons hplus hpercent rest
    next => exact formUrldecode_charToHex c rest

theorem formUrldecode_formUrlencode (src : Text) : formUrldecode (formUrlencode src) = src := by
  induction src with
  | nil => rfl
  | cons c rest ih =>
      rw [formUrlencode, List.flatMap_cons, formUrldecode_encodeChar]
      exact congrArg (c :: ·) ih

/-- The separators of a map and the end of a C string are escaped. -/
theorem notMem_encodeChar {byte : UInt8} (hbyte : byte = 0 ∨ byte = 44 ∨ byte = 61) (c : UInt8) :
    byte ∉ encodeChar c := by
  rcases hbyte with rfl | rfl | rfl
  all_goals
    revert c
    decide +kernel

theorem notMem_formUrlencode {byte : UInt8} (hbyte : byte = 0 ∨ byte = 44 ∨ byte = 61)
    (src : Text) : byte ∉ formUrlencode src := by
  intro hmem
  obtain ⟨c, -, hc⟩ := List.mem_flatMap.mp hmem
  exact notMem_encodeChar hbyte c hc

end cgicc

/-! ## Maps -/

section Maps

open cgicc

/-- The pieces between the dividers, but for the empty ones. -/
def parseStr2VecStr (str : Text) (div : UInt8) : List Text := tokens div str

/-- What `parseMapSS2String` writes for an entry, without the comma. -/
def printEntry (entry : Text × Text) : Text := formUrlencode entry.1 ++ 61 :: formUrlencode entry.2

def parseMapSS2String (original : OrderedMap Text Text) : Text :=
  (original.entries.flatMap fun entry => printEntry entry ++ [44]).dropLast

def parseString2MapSS (str : Text) : OrderedMap Text Text :=
  (parseStr2VecStr str 44).foldl (fun value slice =>
    match cutAt 61 slice with
    | some (subk, suffStr) => value.set (formUrldecode subk) (formUrldecode suffStr)
    | none => value) .empty

def locParseMapSS2String (original : OrderedMap Text Text) : Text :=
  if original.isEmpty then text "empty" else parseMapSS2String original

def locParseString2MapSS (str : Text) : OrderedMap Text Text :=
  if str = text "empty" then .empty else parseString2MapSS str

/-- With the last comma away, the entries have commas between them. -/
theorem dropLast_commas {Entry : Type} (print : Entry → Text) (entries : List Entry) :
    (entries.flatMap fun entry => print entry ++ [44]).dropLast =
      [44].intercalate (entries.map print) := by
  induction entries with
  | nil => rfl
  | cons entry rest ih =>
      cases rest with
      | nil => simp
      | cons next rest =>
          rw [List.flatMap_cons, List.dropLast_append_of_ne_nil (by simp), ih]
          simp only [List.map_cons, List.intercalate_cons_cons]

theorem parseMapSS2String_eq (original : OrderedMap Text Text) :
    parseMapSS2String original = [44].intercalate (original.entries.map printEntry) :=
  dropLast_commas printEntry original.entries

theorem notMem_printEntry {byte : UInt8} (hbyte : byte = 0 ∨ byte = 44) (entry : Text × Text) :
    byte ∉ printEntry entry := by
  have hsep : byte = 0 ∨ byte = 44 ∨ byte = 61 := hbyte.imp_right Or.inl
  rw [printEntry, List.mem_append, List.mem_cons]
  rintro (hkey | hequal | hvalue)
  · exact notMem_formUrlencode hsep _ hkey
  · rcases hbyte with rfl | rfl
    · cases hequal
    · cases hequal
  · exact notMem_formUrlencode hsep _ hvalue

theorem printEntry_ne_nil (entry : Text × Text) : printEntry entry ≠ [] :=
  List.append_ne_nil_of_right_ne_nil _ (List.cons_ne_nil _ _)

/-- The slices of a written map are its entries, one each. -/
theorem parseStr2VecStr_parseMapSS2String (original : OrderedMap Text Text) :
    parseStr2VecStr (parseMapSS2String original) 44 = original.entries.map printEntry := by
  rw [parseMapSS2String_eq, parseStr2VecStr]
  apply tokens_intercalate
  intro slice hslice
  obtain ⟨entry, -, rfl⟩ := List.mem_map.mp hslice
  exact ⟨printEntry_ne_nil entry, notMem_printEntry (Or.inr rfl) entry⟩

/-- A map of strings is read as it was written. -/
theorem parseString2MapSS_parseMapSS2String (original : OrderedMap Text Text) :
    parseString2MapSS (parseMapSS2String original) = original := by
  have hcut : ∀ entry : Text × Text, cutAt 61 (printEntry entry) =
      some (formUrlencode entry.1, formUrlencode entry.2) := fun entry =>
    cutAt_append (notMem_formUrlencode (Or.inr (Or.inr rfl)) _) _
  rw [parseString2MapSS, parseStr2VecStr_parseMapSS2String, List.foldl_map]
  simp only [hcut, formUrldecode_formUrlencode]
  exact original.foldl_set_entries

/-- What `parseMapIS2String` writes for an entry, without the comma. -/
def printEntryIS (entry : Int32 × Text) : Text := printInt entry.1 ++ 61 :: formUrlencode entry.2

def parseMapIS2String (original : OrderedMap Int32 Text) : Text :=
  (original.entries.flatMap fun entry => printEntryIS entry ++ [44]).dropLast

/-- The key is read from the whole slice, where `atoi` stops at the `=`. -/
def parseString2MapIS (str : Text) : OrderedMap Int32 Text :=
  (parseStr2VecStr str 44).foldl (fun value slice =>
    match cutAt 61 slice with
    | some (_, suffStr) => value.set (atoi (cstr slice)) (formUrldecode suffStr)
    | none => value) .empty

theorem notMem_printEntryIS {byte : UInt8} (hbyte : byte = 0 ∨ byte = 44) (entry : Int32 × Text) :
    byte ∉ printEntryIS entry := by
  rw [printEntryIS, List.mem_append, List.mem_cons]
  rintro (hkey | hequal | hvalue)
  · rcases hbyte with rfl | rfl
    · exact notMem_printInt _ rfl (by decide) hkey
    · exact notMem_printInt _ rfl (by decide) hkey
  · rcases hbyte with rfl | rfl
    · cases hequal
    · cases hequal
  · exact notMem_formUrlencode (hbyte.imp_right Or.inl) _ hvalue

theorem parseStr2VecStr_parseMapIS2String (original : OrderedMap Int32 Text) :
    parseStr2VecStr (parseMapIS2String original) 44 = original.entries.map printEntryIS := by
  rw [parseMapIS2String, dropLast_commas printEntryIS, parseStr2VecStr]
  apply tokens_intercalate
  intro slice hslice
  obtain ⟨entry, -, rfl⟩ := List.mem_map.mp hslice
  exact ⟨List.append_ne_nil_of_right_ne_nil _ (List.cons_ne_nil _ _),
    notMem_printEntryIS (Or.inr rfl) entry⟩

theorem parseString2MapIS_parseMapIS2String (original : OrderedMap Int32 Text) :
    parseString2MapIS (parseMapIS2String original) = original := by
  have hcut : ∀ entry : Int32 × Text, cutAt 61 (printEntryIS entry) =
      some (printInt entry.1, formUrlencode entry.2) := fun entry =>
    cutAt_append (notMem_printInt _ rfl (by decide)) _
  have hkey : ∀ entry : Int32 × Text, atoi (cstr (printEntryIS entry)) = entry.1 := by
    intro entry
    rw [cstr_of_notMem (notMem_printEntryIS (Or.inl rfl) entry), printEntryIS]
    exact atoi_printInt_append entry.1 (List.takeWhile_cons_of_neg (by decide))
  rw [parseString2MapIS, parseStr2VecStr_parseMapIS2String, List.foldl_map]
  simp only [hcut, hkey, formUrldecode_formUrlencode]
  exact original.foldl_set_entries

/-- Both codecs of maps read what they wrote. Each entry is a slice of its own whatever its bytes,
so that the content of an entry adds none. -/
theorem mapCodecs_roundTrip :
    (∀ original : OrderedMap Text Text,
      parseString2MapSS (parseMapSS2String original) = original ∧
        parseStr2VecStr (parseMapSS2String original) 44 = original.entries.map printEntry) ∧
    ∀ original : OrderedMap Int32 Text,
      parseString2MapIS (parseMapIS2String original) = original ∧
        parseStr2VecStr (parseMapIS2String original) 44 = original.entries.map printEntryIS :=
  ⟨fun original => ⟨parseString2MapSS_parseMapSS2String original,
      parseStr2VecStr_parseMapSS2String original⟩,
    fun original => ⟨parseString2MapIS_parseMapIS2String original,
      parseStr2VecStr_parseMapIS2String original⟩⟩

/-- An entry that is written holds a `=`, which the word for no entries does not. -/
theorem parseMapSS2String_ne_empty {original : OrderedMap Text Text}
    (hsome : original.isEmpty = false) : parseMapSS2String original ≠ text "empty" := by
  obtain ⟨entry, rest, hentries⟩ : ∃ entry rest, original.entries = entry :: rest := by
    cases hentries : original.entries with
    | nil => simp [OrderedMap.isEmpty, hentries] at hsome
    | cons entry rest => exact ⟨entry, rest, rfl⟩
  have hequal : 61 ∈ parseMapSS2String original := by
    have hprinted : 61 ∈ printEntry entry := by simp [printEntry]
    rw [parseMapSS2String_eq, hentries, List.map_cons]
    cases rest with
    | nil => simpa using hprinted
    | cons next rest =>
        rw [List.map_cons, List.intercalate_cons_cons]
        simp [hprinted]
  intro hword
  rw [hword] at hequal
  revert hequal
  decide

theorem locParseString2MapSS_locParseMapSS2String (original : OrderedMap Text Text) :
    locParseString2MapSS (locParseMapSS2String original) = original := by
  unfold locParseMapSS2String
  split
  next hempty =>
    rw [locParseString2MapSS, if_pos rfl]
    apply OrderedMap.ext_find
    funext key
    exact (OrderedMap.isEmpty_iff.mp hempty key).symm
  next hsome =>
    rw [Bool.not_eq_true] at hsome
    rw [locParseString2MapSS, if_neg (parseMapSS2String_ne_empty hsome),
      parseString2MapSS_parseMapSS2String]

theorem zero_notMem_locParseMapSS2String (original : OrderedMap Text Text) :
    0 ∉ locParseMapSS2String original := by
  unfold locParseMapSS2String
  split
  · decide
  · rw [parseMapSS2String_eq]
    apply notMem_intercalate _ (by decide)
    intro piece hpiece
    obtain ⟨entry, -, rfl⟩ := List.mem_map.mp hpiece
    exact notMem_printEntry (Or.inl rfl) entry

end Maps

/-! ## Numbers -/

/-- `JLexical::Cast` between a string and an `int`. A stream that reads no number leaves the
variable what it `held`, which for a fresh one is `uninit`. -/
structure JLexical where
  cast : Text → Int32 → Int32
  uninit : Int32
  cast_printInt : ∀ value held, cast (printInt value) held = value

def parseStr2SetInt (lexical : JLexical) (str : Text) : Finset Int32 :=
  ((parseStr2VecStr str 95).map fun piece => lexical.cast piece 0).toFinset

/-! ## Addresses -/

section Addresses

/-- `IPPORTYPE`: an address and a port. -/
abbrev IpPort := Text × Int32

def convertStr2ipport (io : Text) : List IpPort :=
  if io = text "empty" then []
  else (parseStr2VecStr io 124).filterMap fun slice =>
    match cutAt 58 slice with
    | some (getIp, getPort) =>
        if getIp ≠ [] ∧ getPort ≠ [] then some (getIp, atoi (cstr getPort)) else none
    | none => none

def printIpPort (ipport : IpPort) : Text := ipport.1 ++ 58 :: printInt ipport.2

def convertIpport2str (ipports : List IpPort) : Text :=
  if ipports.isEmpty then text "empty" else [124].intercalate (ipports.map printIpPort)

/-- An address that can be told from the text around it. -/
def Separable (ipport : IpPort) : Prop :=
  ipport.1 ≠ [] ∧ 58 ∉ ipport.1 ∧ 124 ∉ ipport.1 ∧ 0 ∉ ipport.1

/-- What is read is separable. -/
theorem separable_of_mem {io : Text} (hio : 0 ∉ io) {ipport : IpPort}
    (hmem : ipport ∈ convertStr2ipport io) : Separable ipport := by
  unfold convertStr2ipport at hmem
  split at hmem
  next => cases hmem
  next =>
    obtain ⟨slice, hslice, hread⟩ := List.mem_filterMap.mp hmem
    obtain ⟨-, hbar, hsub⟩ := mem_tokens hslice
    cases hcut : cutAt 58 slice with
    | none =>
        rw [hcut] at hread
        cases hread
    | some cut =>
        obtain ⟨getIp, getPort⟩ := cut
        obtain ⟨hparts, hcolon⟩ := cutAt_eq_some hcut
        rw [hcut] at hread
        dsimp only at hread
        split at hread
        next hnonempty =>
          cases hread
          have hip : getIp ⊆ slice := hparts ▸ List.subset_append_left _ _
          exact ⟨hnonempty.1, hcolon, fun hmem => hbar (hip hmem),
            fun hmem => hio (hsub (hip hmem))⟩
        next => cases hread

theorem notMem_printIpPort {byte : UInt8} {ipport : IpPort} (hip : byte ∉ ipport.1)
    (hdigit : isDigit byte = false) (hminus : byte ≠ 45) (hcolon : byte ≠ 58) :
    byte ∉ printIpPort ipport := by
  rw [printIpPort, List.mem_append, List.mem_cons]
  rintro (hmem | hmem | hmem)
  · exact hip hmem
  · exact hcolon hmem
  · exact notMem_printInt _ hdigit hminus hmem

theorem mem_convertIpport2str {ipports : List IpPort} (hsome : ipports ≠ []) :
    58 ∈ convertIpport2str ipports := by
  obtain ⟨ipport, rest, rfl⟩ := List.exists_cons_of_ne_nil hsome
  have hprinted : 58 ∈ printIpPort ipport := by simp [printIpPort]
  rw [convertIpport2str, if_neg (by simp), List.map_cons]
  cases rest with
  | nil => simpa using hprinted
  | cons next rest =>
      rw [List.map_cons, List.intercalate_cons_cons]
      simp [hprinted]

/-- A list of separable addresses is read as it was written. -/
theorem convertStr2ipport_convertIpport2str {ipports : List IpPort} (hsome : ipports ≠ [])
    (hsep : ∀ ipport ∈ ipports, Separable ipport) :
    convertStr2ipport (convertIpport2str ipports) = ipports := by
  have hword : convertIpport2str ipports ≠ text "empty" := by
    intro hword
    have hcolon := mem_convertIpport2str hsome
    rw [hword] at hcolon
    revert hcolon
    decide
  have hslices : parseStr2VecStr (convertIpport2str ipports) 124 = ipports.map printIpPort := by
    rw [convertIpport2str, if_neg (by simpa using hsome), parseStr2VecStr]
    apply tokens_intercalate
    intro slice hslice
    obtain ⟨ipport, hmem, rfl⟩ := List.mem_map.mp hslice
    exact ⟨List.append_ne_nil_of_right_ne_nil _ (List.cons_ne_nil _ _),
      notMem_printIpPort (hsep ipport hmem).2.2.1 rfl (by decide) (by decide)⟩
  rw [convertStr2ipport, if_neg hword, hslices, List.filterMap_map]
  have hread : ∀ ipport ∈ ipports, ((fun slice =>
      match cutAt 58 slice with
      | some (getIp, getPort) =>
          if getIp ≠ [] ∧ getPort ≠ [] then some (getIp, atoi (cstr getPort)) else none
      | none => none) ∘ printIpPort) ipport = some ipport := by
    intro ipport hmem
    obtain ⟨hip, hcolon, -⟩ := hsep ipport hmem
    have hcstr : cstr (printInt ipport.2) = printInt ipport.2 :=
      cstr_of_notMem (notMem_printInt _ rfl (by decide))
    rw [Function.comp_apply, printIpPort, cutAt_append hcolon]
    dsimp only
    rw [if_pos ⟨hip, printInt_ne_nil _⟩, hcstr, atoi_printInt]
  rw [List.filterMap_congr hread]
  exact List.filterMap_some

theorem zero_notMem_convertIpport2str {ipports : List IpPort}
    (hsep : ∀ ipport ∈ ipports, Separable ipport) : 0 ∉ convertIpport2str ipports := by
  unfold convertIpport2str
  split
  · decide
  · apply notMem_intercalate _ (by decide)
    intro piece hpiece
    obtain ⟨ipport, hmem, rfl⟩ := List.mem_map.mp hpiece
    exact notMem_printIpPort (hsep ipport hmem).2.2.2 rfl (by decide) (by decide)

end Addresses

end ServiceFrame
