import Mathlib.Logic.Equiv.Basic
import Mathlib.Tactic.SplitIfs
import ServiceFrame.Foundation.CString

/-! # Login cookies

`CookieHelper` of `server-lib`: a text of fields with ':' between them, encrypted with Blowfish
in CBC mode. Three layouts followed the first one, and `parse30` reads the older two as well.
-/

namespace ServiceFrame

open Foundation

/-- `BF_cbc_encrypt` in both directions, with the key and the vector of the file. -/
structure BfCbc where
  encrypt : List UInt8 → List UInt8
  decrypt : List UInt8 → List UInt8

/-- `length` rounded up to cipher blocks, `(length + 7) & ~7`. -/
def blocks (length : Nat) : Nat := (length + 7) / 8 * 8

/-- The text with its last block filled with zeros. -/
def padded (text : List UInt8) : List UInt8 :=
  text ++ List.replicate (blocks text.length - text.length) 0

/-- Whole blocks are encrypted, and decryption gives them back. -/
structure BfCbc.Lawful (bf : BfCbc) : Prop where
  length_encrypt : ∀ text, (bf.encrypt text).length = blocks text.length
  decrypt_encrypt : ∀ text, bf.decrypt (bf.encrypt text) = padded text

def INVALID_UID : UInt32 := 0xffffffff

def COOKIE_TIMEOUT : Int := 60 * 60 * 24 * 7

structure CookieHelper where
  time : Int
  version : Int32
  uid : UInt32
  passport : List UInt8
  fromName : List UInt8
  ip : UInt32
  shaPasswd : List UInt8
  extension : List UInt8
  termId : UInt64
deriving DecidableEq

/-- ':' is replaced by '.'. -/
def dots (text : List UInt8) : List UInt8 :=
  text.map fun byte => if byte = 58 then 46 else byte

namespace CookieHelper

/-- The constructor; `now` is `sox::env::now`. -/
def new (now : Int) (u : UInt32) (n : List UInt8) (ip : UInt32) (passwd fromName : List UInt8)
    (tid : UInt64) : CookieHelper where
  time := now
  version := 1
  uid := u
  passport := dots n
  fromName := dots (cstr fromName)
  ip := ip
  shaPasswd := passwd
  extension := []
  termId := tid

/-- The copy constructor. -/
def copy (now : Int) (ck : CookieHelper) : CookieHelper where
  time := now
  version := 1
  uid := ck.uid
  passport := dots ck.passport
  fromName := dots ck.fromName
  ip := ck.ip
  shaPasswd := ck.shaPasswd
  extension := ck.extension
  termId := ck.termId

/-! ## Verification -/

def isValid (now : Int) (ck : CookieHelper) (uid : UInt32) : Bool :=
  if ck.uid ≠ uid then false
  else if ck.uid = INVALID_UID then false
  else if now - ck.time > COOKIE_TIMEOUT then false
  else true

def isValid20 (now : Int) (ck : CookieHelper) (account shaPasswd : List UInt8) : Bool :=
  if ck.passport ≠ account then false
  else if ck.uid = INVALID_UID then false
  else if now - ck.time > COOKIE_TIMEOUT then false
  else if shaPasswd ≠ ck.shaPasswd then false
  else true

def isValid20NoTime (ck : CookieHelper) (uid : UInt32) (account shaPasswd : List UInt8) : Bool :=
  if ck.passport ≠ account then false
  else if ck.uid = INVALID_UID ∨ ck.uid ≠ uid then false
  else if shaPasswd ≠ ck.shaPasswd then false
  else true

def isValid30 (ck : CookieHelper) (uid : UInt32) (account shaPasswd extension : List UInt8) :
    Bool :=
  if ck.passport ≠ account then false
  else if ck.uid = INVALID_UID ∨ ck.uid ≠ uid then false
  else if shaPasswd ≠ ck.shaPasswd then false
  else if extension ≠ ck.extension then false
  else true

/-! ## Printing -/

/-- `in` and `out` have 512 bytes; a longer text runs over the end of `in`. -/
def encrypted (bf : BfCbc) (fields : List (List UInt8)) : Option (List UInt8) :=
  let text := [58].intercalate fields
  if text.length < 512 then
    some ((overwrite (List.replicate 512 0) 0 (bf.encrypt text)).take (blocks text.length))
  else none

/-- `"%u:%lu:%u:%u"`. -/
def numbers (ck : CookieHelper) : List (List UInt8) :=
  [decimal ck.version.toUInt32.toNat, decimal (ck.time % 2 ^ 64).toNat, decimal ck.uid.toNat,
    decimal ck.ip.toNat]

/-- `"error:overflow"`. -/
def errorOverflow : List (List UInt8) :=
  [[101, 114, 114, 111, 114], [111, 118, 101, 114, 102, 108, 111, 119]]

def toCookie (bf : BfCbc) (ck : CookieHelper) : Option (List UInt8) :=
  if ck.passport.length + ck.fromName.length < 300 then
    encrypted bf (ck.numbers ++ [cstr ck.fromName, cstr ck.passport])
  else encrypted bf (ck.numbers ++ errorOverflow)

def toCookie20 (bf : BfCbc) (ck : CookieHelper) : Option (List UInt8) :=
  if ck.passport.length + ck.fromName.length < 300 then
    encrypted bf (ck.numbers ++ [cstr ck.fromName, cstr ck.passport, cstr ck.shaPasswd])
  else encrypted bf (ck.numbers ++ errorOverflow ++ [cstr ck.shaPasswd])

/-- The last field of an overflowing text is `"ext"`. -/
def toCookie30 (bf : BfCbc) (ck : CookieHelper) : Option (List UInt8) :=
  if ck.passport.length + ck.fromName.length + ck.extension.length < 300 then
    encrypted bf (ck.numbers ++
      [cstr ck.fromName, cstr ck.passport, cstr ck.shaPasswd, cstr ck.extension])
  else encrypted bf (ck.numbers ++ errorOverflow ++ [cstr ck.shaPasswd, [101, 120, 116]])

def toCookie40 (bf : BfCbc) (ck : CookieHelper) : Option (List UInt8) :=
  if ck.passport.length + ck.fromName.length < 300 then
    encrypted bf (ck.numbers ++
      [cstr ck.fromName, cstr ck.passport, cstr ck.shaPasswd, decimal ck.termId.toNat])
  else encrypted bf (ck.numbers ++ errorOverflow ++ [cstr ck.shaPasswd, decimal ck.termId.toNat])

/-! ## Parsing -/

inductive Css where
  | versionS
  | timeS
  | uidS
  | ipS
  | fromS
  | nickS
  | passwdS
  | extensionS
  | tidS
  | endS
deriving DecidableEq, Repr

/-- The local variables of the parse functions. -/
structure Locals where
  status : Css := .versionS
  v : Int32 := 0
  t : UInt32 := 0
  u : UInt32 := INVALID_UID
  i : UInt32 := 0
  f : List UInt8 := []
  n : List UInt8 := []
  pwd : List UInt8 := []
  ext : List UInt8 := []
  tid : UInt64 := 0

/-- One turn of the loop. The parse functions differ in what follows the nick and the
password; a token behind the last field is dropped. -/
def Locals.turn (afterNick afterPasswd : Css) (l : Locals) (p : List UInt8) : Locals :=
  match l.status with
  | .versionS => { l with status := .timeS, v := atoi p }
  | .timeS => { l with status := .uidS, t := (atoi p).toUInt32 }
  | .uidS => { l with status := .ipS, u := UInt32.ofNat (strtoul p) }
  | .ipS => { l with status := .fromS, i := (atoi p).toUInt32 }
  | .fromS => { l with status := .nickS, f := p }
  | .nickS => { l with status := afterNick, n := p }
  | .passwdS => { l with status := afterPasswd, pwd := p }
  | .extensionS => { l with status := .endS, ext := p }
  | .tidS => { l with status := .endS, tid := UInt64.ofNat (strtoul p) }
  | .endS => l

variable (bf : BfCbc) (behind : List UInt8)

/-- What `strtok` finds in `out`. When no NUL is left in it, the text goes on `behind` it. -/
def cleartext (str : List UInt8) : List UInt8 :=
  cstr (overwrite (List.replicate 512 0) 0 (bf.decrypt str) ++ behind)

def readFields (afterNick afterPasswd : Css) (str : List UInt8) : Locals :=
  (tokens 58 (cleartext bf behind str)).foldl (Locals.turn afterNick afterPasswd) {}

/-- `ck.time = t; ck.version = v;` -/
def Locals.stamp (l : Locals) (ck : CookieHelper) : CookieHelper :=
  { ck with time := l.t.toNat, version := l.v }

def parse (now : Int) (str : List UInt8) : CookieHelper :=
  if str.length > 512 then new now INVALID_UID [] 0 [] [] 0
  else
    let l := readFields bf behind .endS .endS str
    if l.status ≠ .endS then new now INVALID_UID [] 0 [] l.f 0
    else l.stamp (new now l.u l.n l.i [] l.f 0)

def parse20 (now : Int) (str : List UInt8) : CookieHelper :=
  if str.length > 512 then new now INVALID_UID [] 0 [] [] 0
  else
    let l := readFields bf behind .passwdS .endS str
    if l.status ≠ .endS then new now INVALID_UID [] 0 [] l.f 0
    else l.stamp (new now l.u l.n l.i l.pwd l.f 0)

/-- Nothing takes `ext` into the cookie. -/
def parse30 (now : Int) (str : List UInt8) : CookieHelper :=
  if str.length > 512 then new now INVALID_UID [] 0 [] [] 0
  else
    let l := readFields bf behind .passwdS .extensionS str
    if l.status = .endS then l.stamp (new now l.u l.n l.i l.pwd l.f 0)
    else if l.status = .extensionS then l.stamp (new now l.u l.n l.i l.pwd l.f 0)
    else if l.status = .passwdS then l.stamp (new now l.u l.n l.i [] l.f 0)
    else new now INVALID_UID [] 0 [] l.f 0

/-- The status is not asked for. -/
def parse40 (now : Int) (str : List UInt8) : CookieHelper :=
  if str.length > 512 then new now INVALID_UID [] 0 [] [] 0
  else
    let l := readFields bf behind .passwdS .tidS str
    l.stamp (new now l.u l.n l.i l.pwd l.f l.tid)

/-! ## What a text says -/

theorem dots_of_notMem {text : List UInt8} (htext : 58 ∉ text) : dots text = text := by
  conv_rhs => rw [← List.map_id text]
  apply List.map_congr_left
  intro byte hbyte
  have hne : byte ≠ 58 := fun heq => htext (heq ▸ hbyte)
  exact if_neg hne

inductive Format where
  | cookie
  | cookie20
  | cookie30
  | cookie40
deriving DecidableEq, Repr

namespace Format

/-- What follows the nick. -/
def afterNick : Format → Css
  | .cookie => .endS
  | _ => .passwdS

/-- What follows the password. -/
def afterPasswd : Format → Css
  | .cookie30 => .extensionS
  | .cookie40 => .tidS
  | _ => .endS

def parse (format : Format) (bf : BfCbc) (behind : List UInt8) (now : Int) (str : List UInt8) :
    CookieHelper :=
  match format with
  | .cookie => CookieHelper.parse bf behind now str
  | .cookie20 => CookieHelper.parse20 bf behind now str
  | .cookie30 => CookieHelper.parse30 bf behind now str
  | .cookie40 => CookieHelper.parse40 bf behind now str

/-- The number of fields that a text must have. -/
def required : Format → Nat
  | .cookie => 6
  | .cookie20 => 7
  | .cookie30 => 6
  | .cookie40 => 0

/-- The cookie that a row of fields describes: each field has its position. -/
def ofFields (format : Format) (fields : List (List UInt8)) : CookieHelper where
  version := (fields[0]?).elim 0 atoi
  time := ((fields[1]?).elim 0 fun p => (atoi p).toUInt32).toNat
  uid := (fields[2]?).elim INVALID_UID fun p => UInt32.ofNat (strtoul p)
  ip := (fields[3]?).elim 0 fun p => (atoi p).toUInt32
  fromName := (fields[4]?).getD []
  passport := (fields[5]?).getD []
  shaPasswd := if format = .cookie then [] else (fields[6]?).getD []
  extension := if format = .cookie30 then (fields[7]?).getD [] else []
  termId :=
    if format = .cookie40 then (fields[7]?).elim 0 fun p => UInt64.ofNat (strtoul p) else 0

/-- The cookie that a text describes, when it has the fields that it must have. -/
def issued (format : Format) (bf : BfCbc) (behind str : List UInt8) : Option CookieHelper :=
  let fields := tokens 58 (cleartext bf behind str)
  if str.length > 512 ∨ fields.length < format.required then none
  else some (format.ofFields fields)

end Format

/-! ## What the loop reads -/

/-- Once the last field is read, the rest of the text is dropped. -/
theorem foldl_endS {afterNick afterPasswd : Css} {l : Locals} (hend : l.status = .endS)
    (fields : List (List UInt8)) : fields.foldl (Locals.turn afterNick afterPasswd) l = l := by
  induction fields with
  | nil => rfl
  | cons p rest ih =>
      have hturn : Locals.turn afterNick afterPasswd l p = l := by
        rw [Locals.turn, hend]
      rw [List.foldl_cons, hturn, ih]

namespace Format

/-- What the loop waits for after some fields. -/
def status (format : Format) (count : Nat) : Css :=
  ([.versionS, .timeS, .uidS, .ipS, .fromS, .nickS, format.afterNick,
    format.afterPasswd][count]?).getD .endS

theorem status_cookie (count : Nat) : Format.cookie.status count = .endS ↔ 6 ≤ count := by
  rcases count with _ | _ | _ | _ | _ | _ | _ | _ | count <;> simp [status, afterNick, afterPasswd]

theorem status_cookie20 (count : Nat) : Format.cookie20.status count = .endS ↔ 7 ≤ count := by
  rcases count with _ | _ | _ | _ | _ | _ | _ | _ | count <;> simp [status, afterNick, afterPasswd]

theorem status_cookie30 (count : Nat) :
    (Format.cookie30.status count = .endS ↔ 8 ≤ count) ∧
      (Format.cookie30.status count = .extensionS ↔ count = 7) ∧
      (Format.cookie30.status count = .passwdS ↔ count = 6) := by
  rcases count with _ | _ | _ | _ | _ | _ | _ | _ | count <;> simp [status, afterNick, afterPasswd]

/-- The loop reads the fields by position. -/
theorem readFields_eq (format : Format) (bf : BfCbc) (behind str : List UInt8) :
    let fields := tokens 58 (cleartext bf behind str)
    let l := readFields bf behind format.afterNick format.afterPasswd str
    l.status = format.status fields.length ∧ l.v = (format.ofFields fields).version ∧
      l.t.toNat = (format.ofFields fields).time ∧ l.u = (format.ofFields fields).uid ∧
      l.i = (format.ofFields fields).ip ∧ l.f = (format.ofFields fields).fromName ∧
      l.n = (format.ofFields fields).passport ∧ l.pwd = (format.ofFields fields).shaPasswd ∧
      l.tid = (format.ofFields fields).termId := by
  intro fields l
  have hread : l = fields.foldl (Locals.turn format.afterNick format.afterPasswd) {} := rfl
  rw [hread]
  -- A ninth field leaves the loop in `endS`, whatever the layout is.
  rcases fields with _ | ⟨p0, _ | ⟨p1, _ | ⟨p2, _ | ⟨p3, _ | ⟨p4, _ | ⟨p5, _ | ⟨p6, _ |
    ⟨p7, rest⟩⟩⟩⟩⟩⟩⟩⟩ <;>
  cases format <;>
  simp [Locals.turn, ofFields, status, afterNick, afterPasswd, foldl_endS]

variable {format : Format} {bf : BfCbc} {behind str : List UInt8}

/-- A field is a token, and has no delimiter and no NUL. -/
theorem getD_clean (bf : BfCbc) (behind str : List UInt8) (index : Nat) :
    let field := ((tokens 58 (cleartext bf behind str))[index]?).getD []
    58 ∉ field ∧ 0 ∉ field := by
  intro field
  cases hfield : (tokens 58 (cleartext bf behind str))[index]? with
  | none =>
      have hnil : field = [] := by simp [field, hfield]
      simp [hnil]
  | some token =>
      have htoken : field = token := by simp [field, hfield]
      obtain ⟨-, hdelim, hsubset⟩ := mem_tokens (List.mem_of_getElem? hfield)
      rw [htoken]
      exact ⟨hdelim, fun hzero => zero_notMem_cstr _ (hsubset hzero)⟩

/-- The constructor takes over what was read, but for the extension. -/
theorem stamp_new (now : Int) :
    let l := readFields bf behind format.afterNick format.afterPasswd str
    l.stamp (new now l.u l.n l.i l.pwd l.f l.tid) =
      { format.ofFields (tokens 58 (cleartext bf behind str)) with extension := [] } := by
  intro l
  obtain ⟨-, hv, ht, hu, hi, hf, hn, hpwd, htid⟩ := format.readFields_eq bf behind str
  have hfrom := getD_clean bf behind str 4
  have hnick := getD_clean bf behind str 5
  simp only [l, Locals.stamp, new, hv, ht, hu, hi, hf, hn, hpwd, htid]
  simp only [ofFields, cstr_of_notMem hfrom.2, dots_of_notMem hfrom.1, dots_of_notMem hnick.1]

end Format

namespace Format

variable {format : Format} {bf : BfCbc} {behind str : List UInt8} {ck : CookieHelper}

/-- A text with its fields gives its cookie, without the extension. -/
theorem parse_issued (now : Int) (hissued : format.issued bf behind str = some ck) :
    format.parse bf behind now str = { ck with extension := [] } := by
  rw [issued] at hissued
  split_ifs at hissued with hbad
  cases hissued
  rw [not_or, Nat.not_lt, Nat.not_lt] at hbad
  obtain ⟨hlength, hrequired⟩ := hbad
  have hshort : ¬str.length > 512 := Nat.not_lt.mpr hlength
  have hread := format.readFields_eq bf behind str
  rw [← stamp_new now]
  cases format with
  | cookie =>
      rw [parse, CookieHelper.parse, if_neg hshort]
      simp only [afterNick, afterPasswd] at hread ⊢
      generalize readFields bf behind .endS .endS str = l at hread ⊢
      obtain ⟨hstatus, -, -, -, -, -, -, hpwd, htid⟩ := hread
      have hend : ¬l.status ≠ .endS := not_not.mpr (hstatus.trans ((status_cookie _).mpr hrequired))
      rw [if_neg hend, hpwd, htid]
      rfl
  | cookie20 =>
      rw [parse, CookieHelper.parse20, if_neg hshort]
      simp only [afterNick, afterPasswd] at hread ⊢
      generalize readFields bf behind .passwdS .endS str = l at hread ⊢
      obtain ⟨hstatus, -, -, -, -, -, -, -, htid⟩ := hread
      have hend : ¬l.status ≠ .endS :=
        not_not.mpr (hstatus.trans ((status_cookie20 _).mpr hrequired))
      rw [if_neg hend, htid]
      rfl
  | cookie30 =>
      rw [parse, CookieHelper.parse30, if_neg hshort]
      simp only [afterNick, afterPasswd] at hread ⊢
      generalize readFields bf behind .passwdS .extensionS str = l at hread ⊢
      obtain ⟨hstatus, -, -, -, -, -, -, hpwd, htid⟩ := hread
      obtain ⟨hend, hextension, hpasswd⟩ :=
        status_cookie30 (tokens 58 (cleartext bf behind str)).length
      rw [← hstatus] at hend hextension hpasswd
      rw [htid]
      split_ifs with hcase30 hcase20 hcase10
      · rfl
      · rfl
      · -- A cookie of the first layout has no seventh field.
        have hnone : (tokens 58 (cleartext bf behind str))[6]? = none :=
          List.getElem?_eq_none (hpasswd.mp hcase10).le
        rw [hpwd]
        simp [ofFields, hnone]
      · rw [hend, Nat.not_le] at hcase30
        rw [hextension] at hcase20
        rw [hpasswd] at hcase10
        simp only [required] at hrequired
        omega
  | cookie40 =>
      rw [parse, CookieHelper.parse40, if_neg hshort]
      rfl

/-- Any other text gives a cookie of nobody. -/
theorem parse_rejected (now : Int) (hissued : format.issued bf behind str = none) :
    (format.parse bf behind now str).uid = INVALID_UID := by
  rw [issued] at hissued
  split_ifs at hissued with hbad
  by_cases hlong : str.length > 512
  · cases format <;>
      simp only [parse, CookieHelper.parse, parse20, parse30, parse40, if_pos hlong, new]
  have hfew := hbad.resolve_left hlong
  -- with too few fields no layout comes to the state it asks for
  have hstatus := (format.readFields_eq bf behind str).1
  cases format with
  | cookie =>
      rw [parse, CookieHelper.parse, if_neg hlong]
      have hend := mt (status_cookie _).mp (Nat.not_le.mpr hfew)
      rw [← hstatus] at hend
      exact congrArg uid (if_pos hend)
  | cookie20 =>
      rw [parse, CookieHelper.parse20, if_neg hlong]
      have hend := mt (status_cookie20 _).mp (Nat.not_le.mpr hfew)
      rw [← hstatus] at hend
      exact congrArg uid (if_pos hend)
  | cookie30 =>
      rw [parse, CookieHelper.parse30, if_neg hlong]
      simp only [afterNick, afterPasswd] at hstatus ⊢
      generalize readFields bf behind .passwdS .extensionS str = l at hstatus ⊢
      obtain ⟨hend, hextension, hpasswd⟩ :=
        status_cookie30 (tokens 58 (cleartext bf behind str)).length
      rw [← hstatus] at hend hextension hpasswd
      simp only [required] at hfew
      rw [if_neg (mt hend.mp (by omega)), if_neg (mt hextension.mp (by omega)),
        if_neg (mt hpasswd.mp (by omega))]
      rfl
  | cookie40 => exact absurd hfew (Nat.not_lt_zero _)

end Format

/-! ## Copies -/

section HandedOn

variable {ck : CookieHelper} {moments : List Int}

end HandedOn

/-- No verification with the time accepts the cookie. -/
def Rejected (now : Int) (ck : CookieHelper) : Prop :=
  (∀ uid, ck.isValid now uid = false) ∧ ∀ account passwd, ck.isValid20 now account passwd = false

/-- A cipher of which the blocks of one text are known. -/
def knownBlocks (plain cipher : List UInt8) : BfCbc where
  encrypt text := Equiv.swap plain cipher (padded text)
  decrypt text := Equiv.swap plain cipher text

/-- `"1:0:7:0:a:b"`, issued to 7 at time 0, and what `BF_cbc_encrypt` makes of it. -/
def plainCookie : List UInt8 := [49, 58, 48, 58, 55, 58, 48, 58, 97, 58, 98, 0, 0, 0, 0, 0]

def cipherCookie : List UInt8 :=
  [167, 162, 236, 71, 45, 148, 79, 200, 143, 16, 142, 63, 90, 5, 127, 78]

/-- `parsed` names the same user from the same place as `ck`, and is verified alike. -/
structure RoundTrips (parsed ck : CookieHelper) : Prop where
  uid : parsed.uid = ck.uid
  ip : parsed.ip = ck.ip
  fromName : parsed.fromName = ck.fromName
  passport : parsed.passport = ck.passport
  shaPasswd : parsed.shaPasswd = ck.shaPasswd
  extension : parsed.extension = ck.extension
  isValid30 : ∀ uid account shaPasswd extension,
    parsed.isValid30 uid account shaPasswd extension =
      ck.isValid30 uid account shaPasswd extension

/-- The text fields are not empty, have no ':' and no NUL, and keep within the limits. -/
structure Fits30 (ck : CookieHelper) : Prop where
  fields : ∀ field ∈ [ck.fromName, ck.passport, ck.shaPasswd, ck.extension],
    field ≠ [] ∧ 58 ∉ field ∧ 0 ∉ field
  short : ck.passport.length + ck.fromName.length + ck.extension.length < 300
  text : ([58].intercalate (ck.numbers ++
    [ck.fromName, ck.passport, ck.shaPasswd, ck.extension])).length < 512

section Encryption

variable {bf : BfCbc} {fields : List (List UInt8)}

theorem le_blocks (length : Nat) : length ≤ blocks length := by
  rw [blocks]
  omega

theorem length_padded (text : List UInt8) : (padded text).length = blocks text.length := by
  have hle := le_blocks text.length
  rw [padded, List.length_append, List.length_replicate]
  omega

/-- The ciphertext, and the text that is found in it again. -/
theorem encrypted_cleartext (hbf : bf.Lawful) (hclean : ∀ field ∈ fields, 0 ∉ field)
    (hlength : ([58].intercalate fields).length < 512) (behind : List UInt8) :
    ∃ str, encrypted bf fields = some str ∧ str.length ≤ 512 ∧
      cleartext bf behind str = [58].intercalate fields := by
  have hblocks : blocks ([58].intercalate fields).length ≤ 512 := by
    rw [blocks]
    omega
  have hcipher := hbf.length_encrypt ([58].intercalate fields)
  refine ⟨bf.encrypt ([58].intercalate fields), ?_, hcipher ▸ hblocks, ?_⟩
  · rw [encrypted, if_pos hlength, overwrite_zero, ← hcipher, List.take_left]
  · have hnul : 0 ∉ [58].intercalate fields := notMem_intercalate hclean (by decide)
    have hle := le_blocks ([58].intercalate fields).length
    -- The zeros of the last block and those of `out` stand behind the text.
    obtain ⟨count, hcount⟩ : ∃ count, 512 - ([58].intercalate fields).length = count + 1 :=
      Nat.exists_eq_succ_of_ne_zero (by omega)
    have hzeros : padded ([58].intercalate fields) ++ List.replicate
        (512 - blocks ([58].intercalate fields).length) 0 =
        [58].intercalate fields ++ 0 :: List.replicate count 0 := by
      rw [padded, List.append_assoc, List.replicate_append_replicate, ← List.replicate_succ]
      congr 2
      omega
    rw [cleartext, hbf.decrypt_encrypt, overwrite_zero, List.drop_replicate, length_padded, hzeros,
      List.append_assoc, List.cons_append, cstr_append_nul hnul]

end Encryption

theorem numbers_clean (ck : CookieHelper) :
    ∀ field ∈ ck.numbers, field ≠ [] ∧ 58 ∉ field ∧ 0 ∉ field := by
  intro field hfield
  obtain ⟨value, rfl⟩ : ∃ value, field = decimal value := by
    simp only [numbers, List.mem_cons, List.not_mem_nil, or_false] at hfield
    rcases hfield with rfl | rfl | rfl | rfl <;> exact ⟨_, rfl⟩
  exact ⟨decimal_ne_nil value, notMem_decimal rfl, notMem_decimal rfl⟩

theorem Fits30.clean {ck : CookieHelper} (hck : ck.Fits30) :
    ∀ field ∈ ck.numbers ++ [ck.fromName, ck.passport, ck.shaPasswd, ck.extension],
      field ≠ [] ∧ 58 ∉ field ∧ 0 ∉ field := by
  intro field hfield
  rcases List.mem_append.mp hfield with hnumber | htext
  · exact ck.numbers_clean field hnumber
  · exact hck.fields field htext

/-- Fields that are printed and encrypted are the fields of the text. -/
theorem Format.issued_encrypted (format : Format) {bf : BfCbc} (hbf : bf.Lawful)
    {fields : List (List UInt8)} (hclean : ∀ field ∈ fields, field ≠ [] ∧ 58 ∉ field ∧ 0 ∉ field)
    (hlength : ([58].intercalate fields).length < 512) (hrequired : format.required ≤ fields.length)
    (behind : List UInt8) :
    ∃ str, encrypted bf fields = some str ∧
      format.issued bf behind str = some (format.ofFields fields) := by
  obtain ⟨str, hstr, hshort, htext⟩ := encrypted_cleartext hbf
    (fun field hfield => (hclean field hfield).2.2) hlength behind
  have htokens := tokens_intercalate fun field hfield =>
    ⟨(hclean field hfield).1, (hclean field hfield).2.1⟩
  refine ⟨str, hstr, ?_⟩
  rw [Format.issued, htext, htokens]
  exact if_neg (not_or.mpr ⟨Nat.not_lt.mpr hshort, Nat.not_lt.mpr hrequired⟩)

/-- The text of a cookie that fits holds its eight fields. -/
theorem Fits30.toCookie30 {ck : CookieHelper} (hck : ck.Fits30) {bf : BfCbc} (hbf : bf.Lawful)
    (behind : List UInt8) :
    ∃ str, ck.toCookie30 bf = some str ∧ Format.cookie30.issued bf behind str =
      some (Format.cookie30.ofFields (ck.numbers ++
        [ck.fromName, ck.passport, ck.shaPasswd, ck.extension])) := by
  have hcstr : [cstr ck.fromName, cstr ck.passport, cstr ck.shaPasswd, cstr ck.extension] =
      [ck.fromName, ck.passport, ck.shaPasswd, ck.extension] := by
    have hfields := hck.fields
    simp only [List.forall_mem_cons] at hfields
    obtain ⟨hfrom, hpassport, hpasswd, hextension, -⟩ := hfields
    rw [cstr_of_notMem hfrom.2.2, cstr_of_notMem hpassport.2.2, cstr_of_notMem hpasswd.2.2,
      cstr_of_notMem hextension.2.2]
  have hrequired : Format.cookie30.required ≤ (ck.numbers ++
      [ck.fromName, ck.passport, ck.shaPasswd, ck.extension]).length := by
    simp [numbers, Format.required]
  obtain ⟨str, hstr, hissued⟩ :=
    Format.cookie30.issued_encrypted hbf hck.clean hck.text hrequired behind
  refine ⟨str, ?_, hissued⟩
  rw [CookieHelper.toCookie30, if_pos hck.short, hcstr, hstr]

/-- A cookie that fits comes back without its extension, and never verifies as it did. -/
theorem parse30_toCookie30 (bf : BfCbc) (hbf : bf.Lawful) (behind : List UInt8) (now : Int)
    (ck : CookieHelper) (hck : ck.Fits30) :
    ∃ str parsed, ck.toCookie30 bf = some str ∧ parse30 bf behind now str = parsed ∧
      parsed.uid = ck.uid ∧ parsed.ip = ck.ip ∧ parsed.fromName = ck.fromName ∧
      parsed.passport = ck.passport ∧ parsed.shaPasswd = ck.shaPasswd ∧ parsed.extension = [] ∧
      (∀ uid account shaPasswd,
        parsed.isValid30 uid account shaPasswd ck.extension = false) ∧
      ¬RoundTrips parsed ck := by
  obtain ⟨str, hstr, hissued⟩ := hck.toCookie30 hbf behind
  have hparsed := Format.parse_issued now hissued
  have hextension : ck.extension ≠ [] := (hck.fields ck.extension (by simp)).1
  refine ⟨str, _, hstr, hparsed, ?_, ?_, rfl, rfl, rfl, rfl, ?_, ?_⟩
  · have huid : ck.uid.toNat < 2 ^ 64 := lt_trans ck.uid.toNat_lt (by decide)
    change UInt32.ofNat (strtoul (decimal ck.uid.toNat)) = ck.uid
    rw [strtoul_decimal huid, UInt32.ofNat_toNat]
  · exact atoi_decimal ck.ip
  · intro uid account shaPasswd
    simp [isValid30, hextension]
  · intro hround
    exact hextension hround.extension.symm

/-- `"1:0:7:0:a:b:c:d"`. -/
def plainCookie30 : List UInt8 := [49, 58, 48, 58, 55, 58, 48, 58, 97, 58, 98, 58, 99, 58, 100, 0]

def cipherCookie30 : List UInt8 :=
  [167, 162, 236, 71, 45, 148, 79, 200, 34, 93, 170, 188, 10, 234, 183, 197]

/-- The cookie of this text. -/
def cookie30 : CookieHelper := ⟨0, 1, 7, [98], [97], 0, [99], [100], 0⟩

theorem knownBlocks_lawful {plain cipher : List UInt8} (hlength : plain.length = cipher.length) :
    (knownBlocks plain cipher).Lawful where
  length_encrypt text := by
    rw [← length_padded]
    change (Equiv.swap plain cipher (padded text)).length = (padded text).length
    rw [Equiv.swap_apply_def]
    split_ifs with hplain hcipher
    · rw [hplain, hlength]
    · rw [hcipher, hlength]
    · rfl
  decrypt_encrypt text := by
    simp only [knownBlocks, Equiv.swap_apply_self]

theorem parse30_toCookie30_known :
    ∃ str parsed, cookie30.toCookie30 (knownBlocks plainCookie30 cipherCookie30) = some str ∧
      parse30 (knownBlocks plainCookie30 cipherCookie30) [] 0 str = parsed ∧
      parsed.extension = [] ∧ ¬RoundTrips parsed cookie30 := by
  obtain ⟨str, parsed, hstr, hparsed, -, -, -, -, -, hextension, -, hround⟩ :=
    parse30_toCookie30 (knownBlocks plainCookie30 cipherCookie30) (knownBlocks_lawful rfl) [] 0
      cookie30 ⟨by decide, by decide, by decide⟩
  exact ⟨str, parsed, hstr, hparsed, hextension, hround⟩

/-- The user of the cookie verifies before, and no more after. -/
theorem extension_not_stored :
    cookie30.Fits30 ∧
      cookie30.toCookie30 (knownBlocks plainCookie30 cipherCookie30) = some cipherCookie30 ∧
      cookie30.isValid30 7 [98] [99] [100] = true ∧
      (parse30 (knownBlocks plainCookie30 cipherCookie30) [] 0 cipherCookie30).isValid30 7 [98]
        [99] [100] = false :=
  ⟨⟨by decide, by decide, by decide⟩, by decide, by decide, by decide⟩

end CookieHelper

end ServiceFrame
