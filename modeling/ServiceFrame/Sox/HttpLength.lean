import Mathlib.Data.List.DropRight
import ServiceFrame.Sox.HttpCut

/-! # The lengths of HTTP bodies

How the number that a `Content-Length` says, or the line of a chunk, becomes the number of
the bytes that are waited for and told at the end of the request. `atoi` and `strtoul` read
them, and nothing looks at what they did not read.
-/

namespace ServiceFrame

open Foundation

/-! ## Written numbers -/

def numerals (base : Nat) (text : List UInt8) : List UInt8 :=
  text.takeWhile fun c => (digit base c).isSome

/-- The number that a text says, if it says one: digits behind white space and a sign, and
then what `tail` allows. -/
def written (base : Nat) (tail : List UInt8 → Bool) (text : List UInt8) : Option Int :=
  let (negative, number) := sign (text.dropWhile isspace)
  let ds := numerals base number
  if ds = [] ∨ tail (number.drop ds.length) = false then none
  else if negative then some (-(digits base 0 ds : Int))
  else some (digits base 0 ds)

/-- Behind a `Content-Length` there is white space at most. -/
def blankTail (rest : List UInt8) : Bool := rest.all isspace

/-- Behind the size of a chunk there may be an extension. -/
def chunkTail : List UInt8 → Bool
  | [] => true
  | c :: _ => isspace c || c = 59

theorem digits_numerals (base n : Nat) (text : List UInt8) :
    digits base n (numerals base text) = digits base n text := by
  induction text generalizing n with
  | nil => rfl
  | cons c rest ih =>
      rw [numerals, List.takeWhile_cons]
      cases hdigit : digit base c with
      | none => simp [digits, hdigit]
      | some value =>
          rw [if_pos (by rfl), digits, digits, hdigit]
          exact ih _

theorem digit_zero (base : Nat) : digit base 0 = none := by
  unfold digit
  simp

/-- The digits end where the string does. -/
theorem digits_cString (base n : Nat) (text : List UInt8) :
    digits base n (cString text) = digits base n text := by
  induction text generalizing n with
  | nil => rfl
  | cons c rest ih =>
      rw [cString, List.takeWhile_cons]
      by_cases hend : c = 0
      · rw [hend, if_neg (by simp), digits, digits, digit_zero]
      · rw [if_pos (by simpa using hend), digits, digits]
        cases digit base c with
        | none => rfl
        | some value => exact ih _

theorem cString_dropWhile (text : List UInt8) :
    (cString text).dropWhile isspace = cString (text.dropWhile isspace) := by
  induction text with
  | nil => rfl
  | cons c rest ih =>
      by_cases hspace : isspace c = true
      · have hend : c ≠ 0 := by
          rintro rfl
          cases hspace
        rw [cString, List.takeWhile_cons_of_pos (by simpa using hend),
          List.dropWhile_cons_of_pos hspace, List.dropWhile_cons_of_pos hspace]
        exact ih
      · rw [List.dropWhile_cons_of_neg hspace, cString, List.takeWhile_cons]
        split
        · rw [List.dropWhile_cons_of_neg hspace]
        · rfl

theorem sign_cString (text : List UInt8) :
    sign (cString text) = ((sign text).1, cString (sign text).2) := by
  cases text with
  | nil => rfl
  | cons c rest =>
      by_cases hminus : c = 45
      · subst hminus
        rfl
      by_cases hplus : c = 43
      · subst hplus
        rfl
      have hsign : ∀ more, sign (c :: more) = (false, c :: more) := by
        intro more
        unfold sign
        split
        next heq => exact absurd (List.cons.inj heq).1 hminus
        next heq => exact absurd (List.cons.inj heq).1 hplus
        next => rfl
      rw [hsign, cString, List.takeWhile_cons]
      split
      · rw [hsign]
      · rfl

/-- What `written` found, in the words of the readers. -/
theorem written_eq_some {base : Nat} {tail : List UInt8 → Bool} {text : List UInt8} {m : Int}
    (hwritten : written base tail text = some m) :
    ∃ negative number, sign (text.dropWhile isspace) = (negative, number) ∧
      numerals base number ≠ [] ∧ tail (number.drop (numerals base number).length) = true ∧
        m = if negative then -(digits base 0 number : Int) else digits base 0 number := by
  unfold written at hwritten
  rcases hsign : sign (text.dropWhile isspace) with ⟨negative, number⟩
  rw [hsign] at hwritten
  dsimp only at hwritten
  split at hwritten
  next => cases hwritten
  next hnumber =>
    rw [not_or, Bool.not_eq_false] at hnumber
    refine ⟨negative, number, rfl, hnumber.1, hnumber.2, ?_⟩
    rw [digits_numerals] at hwritten
    cases negative with
    | true => exact (Option.some.inj hwritten).symm
    | false => exact (Option.some.inj hwritten).symm

/-- What `parse_field` makes of the text behind the name of a `Content-Length`. -/
def lengthTaken (text : List UInt8) : Nat :=
  (atoi ((cString text).dropWhile isspace) % 2 ^ 64).toNat

/-- An `int` holds the small lengths; beyond, `-1` alone comes out as it was written. -/
theorem lengthTaken_eq {text : List UInt8} {n : Nat}
    (hwritten : written 10 blankTail text = some (n : Int)) :
    lengthTaken text = n ↔ n < 2 ^ 31 ∨ n = 2 ^ 64 - 1 := by
  obtain ⟨negative, number, hsign, -, -, hn⟩ := written_eq_some hwritten
  have hatoi : atoi ((cString text).dropWhile isspace) =
      (min (n : Int) (2 ^ 63 - 1)).bmod (2 ^ 32) := by
    have hread : sign (((cString text).dropWhile isspace).dropWhile isspace) =
        (negative, cString number) := by
      rw [List.dropWhile_idempotent, cString_dropWhile, sign_cString, hsign]
    unfold atoi
    rw [hread]
    dsimp only
    rw [digits_cString]
    cases negative with
    | true =>
        rw [if_pos rfl] at hn ⊢
        congr 1
        omega
    | false =>
        rw [if_neg Bool.false_ne_true] at hn ⊢
        rw [hn]
  rw [lengthTaken, hatoi, Int.bmod]
  omega

theorem strtoul_sign {data number : List UInt8} {negative : Bool}
    (hsign : sign (data.dropWhile isspace) = (negative, number))
    (hplain : ∀ x rest, number = 48 :: x :: rest → tolower x ≠ 120) :
    strtoul data = if 2 ^ 64 ≤ digits 16 0 number then 2 ^ 64 - 1
      else if negative then (2 ^ 64 - digits 16 0 number) % 2 ^ 64
      else digits 16 0 number := by
  unfold strtoul
  rw [hsign]
  dsimp only
  split
  next _ x rest => rw [if_neg (hplain x rest rfl)]
  next => rfl

/-- A size that is too large becomes the largest there is. -/
theorem strtoul_eq {text : List UInt8} {n : Nat}
    (hwritten : written 16 chunkTail text = some (n : Int)) :
    strtoul (cString text) = min n (2 ^ 64 - 1) := by
  obtain ⟨negative, number, hsign, -, htail, hn⟩ := written_eq_some hwritten
  have hread : sign ((cString text).dropWhile isspace) = (negative, cString number) := by
    rw [cString_dropWhile, sign_cString, hsign]
  -- an `x` behind a zero would be neither a digit nor the end of the number
  have hplain : ∀ x rest, cString number = 48 :: x :: rest → tolower x ≠ 120 := by
    intro x rest hnumber hx
    obtain ⟨more, hmore⟩ : ∃ more, number = 48 :: x :: more := by
      have hprefix : cString number <+: number := List.takeWhile_prefix _
      rw [hnumber] at hprefix
      obtain ⟨more, hmore⟩ := hprefix
      exact ⟨rest ++ more, hmore.symm⟩
    have hcase : x = 120 ∨ x = 88 := by
      unfold tolower at hx
      split at hx
      · right
        rw [← UInt8.add_sub_cancel x 32, hx]
        rfl
      · exact Or.inl hx
    rw [hmore] at htail
    rcases hcase with rfl | rfl
    · revert htail
      simp [numerals, chunkTail, digit, isspace]
    · revert htail
      simp [numerals, chunkTail, digit, isspace]
  rw [strtoul_sign hread hplain, digits_cString]
  cases negative with
  | true =>
      rw [if_pos rfl] at hn
      have hzero : digits 16 0 number = 0 := by omega
      obtain rfl : n = 0 := by omega
      rw [hzero]
      rfl
  | false =>
      rw [if_neg Bool.false_ne_true] at hn ⊢
      split <;> omega

/-! ## The fields of a header -/

/-- The loop of `parse_header_fields` over lines: one that starts with white space belongs
to the field before. -/
def joinLines : List UInt8 → List (List UInt8) → List (List UInt8)
  | field, [] => [field]
  | field, line :: rest =>
      if isspace (line.headD 0) then joinLines (field ++ line) rest
      else field :: joinLines line rest

def fieldsOf (header : List UInt8) : List (List UInt8) :=
  match lines (header.dropWhile isspace) with
  | [] => []
  | field :: rest => joinLines field rest

/-- The text behind the name of a `Content-Length`, up to the end of its line. -/
def contentLengthText (data : List UInt8) : Option (List UInt8) :=
  let n := find data 58
  if n ≠ 0 ∧ sameCase (cString (data.take (n - 1))) (literal "content-length") then
    some ((data.take (data.length - 1)).drop n)
  else none

def contentLengthTexts (header : List UInt8) : List (List UInt8) :=
  (fieldsOf header).filterMap contentLengthText

/-- All of the texts say the same number; without one there is no body. -/
def Says (texts : List (List UInt8)) (n : Nat) : Prop :=
  (∀ text ∈ texts, written 10 blankTail text = some (n : Int)) ∧ (texts = [] → n = 0)

/-- The length that the last of the texts leaves. -/
def lastTaken (texts : List (List UInt8)) : Nat := (texts.getLast?.map lengthTaken).getD 0

theorem lastTaken_said {texts : List (List UInt8)} {n : Nat} (hsaid : Says texts n) :
    lastTaken texts = n ↔ n < 2 ^ 31 ∨ n = 2 ^ 64 - 1 := by
  obtain ⟨hall, hnone⟩ := hsaid
  rw [lastTaken]
  cases hlast : texts.getLast? with
  | none =>
      obtain rfl := hnone (List.getLast?_eq_none_iff.mp hlast)
      exact iff_of_true rfl (Or.inl (by omega))
  | some text => exact lengthTaken_eq (hall text (List.mem_of_getLast? hlast))

section Fields

variable {answer : List HttpEvent → Bool} {fields next : HeaderFields}

theorem parseField_length {data text : List UInt8} (htext : contentLengthText data = some text) :
    parseField answer fields data =
      ({ fields with
        httpBodyType := if fields.httpBodyType ≠ .chunked then .length else fields.httpBodyType
        contentLength := lengthTaken text }, true) := by
  unfold contentLengthText at htext
  dsimp only at htext
  split at htext
  next hname =>
    obtain ⟨hcolon, hsame⟩ := hname
    cases htext
    unfold parseField
    dsimp only
    rw [if_neg hcolon, if_pos hsame]
    rfl
  next => cases htext

theorem parseField_other {data : List UInt8} (htext : contentLengthText data = none) :
    (parseField answer fields data).1.contentLength = fields.contentLength := by
  unfold contentLengthText at htext
  dsimp only at htext
  split at htext
  next => cases htext
  next hname =>
    unfold parseField
    dsimp only
    split
    next => rfl
    next hcolon =>
      rw [if_neg fun hsame => hname ⟨hcolon, hsame⟩]
      split
      · split <;> rfl
      split
      · unfold onHttpUnknownField
        split <;> rfl
      split
      · unfold onHttpUnknownField
        split <;> rfl
      · rfl

theorem parseField_told (answer : List HttpEvent → Bool) (fields : HeaderFields)
    (data : List UInt8) :
    ∃ told, (parseField answer fields data).1.events = fields.events ++ told := by
  unfold parseField
  dsimp only
  split
  · exact ⟨[], (List.append_nil _).symm⟩
  split
  · exact ⟨[], (List.append_nil _).symm⟩
  split
  · split <;> exact ⟨[], (List.append_nil _).symm⟩
  split
  · unfold onHttpUnknownField
    split <;> exact ⟨_, rfl⟩
  split
  · unfold onHttpUnknownField
    split <;> exact ⟨_, rfl⟩
  · exact ⟨_, rfl⟩

/-- The length of the body is known. -/
def Sized (fields : HeaderFields) : Prop :=
  fields.httpBodyType = .length ∨ fields.httpBodyType = .chunked

theorem parseField_sized (hsized : Sized fields) (data : List UInt8) :
    Sized (parseField answer fields data).1 := by
  have hkeep : fields.httpBodyType ≠ .noContent ∧ fields.httpBodyType ≠ .connectionClose := by
    rcases hsized with htype | htype <;> simp [htype]
  unfold parseField
  dsimp only
  split
  · exact hsized
  split
  · dsimp only [Sized]
    split
    · exact Or.inl rfl
    · exact hsized
  split
  · split
    · exact Or.inr rfl
    · exact hsized
  split
  · rw [if_neg fun h => hkeep.1 h.1]
    exact hsized
  split
  · rw [if_neg fun h => h.1.elim hkeep.1 hkeep.2]
    exact hsized
  · exact hsized

/-- `parse_field` on one field after the other, until one is refused. -/
def parseFields (answer : List HttpEvent → Bool) :
    HeaderFields → List (List UInt8) → HeaderFields × Bool
  | fields, [] => (fields, true)
  | fields, data :: rest =>
      let (fields, ok) := parseField answer fields data
      if ok then parseFields answer fields rest else (fields, false)

theorem parseLines_eq (answer : List HttpEvent → Bool) (fields : HeaderFields)
    (field : List UInt8) (rest : List (List UInt8)) :
    parseLines answer fields field rest = parseFields answer fields (joinLines field rest) := by
  induction rest generalizing fields field with
  | nil =>
      rw [parseLines, joinLines, parseFields]
      rcases parseField answer fields field with ⟨next, ok⟩
      cases ok with
      | true => rfl
      | false => rfl
  | cons line rest ih =>
      rw [parseLines, joinLines]
      split
      · exact ih _ _
      · rw [parseFields]
        simp only [ih]

theorem parseHeaderFields_eq (answer : List HttpEvent → Bool) (fields : HeaderFields)
    (header : List UInt8) :
    parseHeaderFields answer fields header = parseFields answer fields (fieldsOf header) := by
  unfold parseHeaderFields fieldsOf
  cases lines (header.dropWhile isspace) with
  | nil => rfl
  | cons field rest => exact parseLines_eq _ _ _ _

/-- What a header leaves whose fields are not refused. -/
theorem parseFields_spec {datas : List (List UInt8)}
    (hparse : parseFields answer fields datas = (next, true)) :
    next.contentLength =
        ((datas.filterMap contentLengthText).getLast?.map lengthTaken).getD fields.contentLength ∧
      (datas.filterMap contentLengthText ≠ [] ∨ Sized fields → Sized next) ∧
      ∃ told, next.events = fields.events ++ told := by
  induction datas generalizing fields with
  | nil =>
      cases hparse
      exact ⟨rfl, fun h => h.resolve_left fun hnone => hnone rfl, [], (List.append_nil _).symm⟩
  | cons data rest ih =>
      rw [parseFields] at hparse
      obtain ⟨told, htold⟩ := parseField_told answer fields data
      have hsized : Sized fields → Sized (parseField answer fields data).1 :=
        fun hsized => parseField_sized hsized data
      have hother := @parseField_other answer fields data
      have hlength := @parseField_length answer fields data
      rcases hfield : parseField answer fields data with ⟨middle, ok⟩
      rw [hfield] at hparse htold hsized hother hlength
      cases ok with
      | false => cases hparse
      | true =>
          obtain ⟨hcontent, hrest, more, hmore⟩ := ih hparse
          refine ⟨?_, ?_, told ++ more, by rw [hmore, htold, List.append_assoc]⟩
          · cases htext : contentLengthText data with
            | none => rw [List.filterMap_cons_none htext, hcontent, hother htext]
            | some text =>
                have hmiddle := congrArg (fun result => result.1.contentLength) (hlength htext)
                rw [List.filterMap_cons_some htext, List.getLast?_cons, hcontent, hmiddle]
                cases (rest.filterMap contentLengthText).getLast? with
                | none => rfl
                | some last => rfl
          · intro hknown
            apply hrest
            cases htext : contentLengthText data with
            | none =>
                rw [List.filterMap_cons_none htext] at hknown
                exact hknown.imp_right hsized
            | some text =>
                right
                have hmiddle := congrArg (fun result => result.1.httpBodyType) (hlength htext)
                dsimp only at hmiddle
                unfold Sized
                rw [hmiddle]
                split
                · exact Or.inl rfl
                next hchunked => exact Or.inr (not_not.mp hchunked)

end Fields

/-! ## What is due of a body -/

/-- The state that a turn leaves. -/
def Turn.conn : Turn → HttpConn
  | .next st => st
  | .done st => st
  | .failed st => st

namespace HttpConn

/-- The bytes of the body that were taken and those that are waited for. -/
def due (st : HttpConn) : Nat :=
  st.taken.length +
    match st.parser.httpParseState with
    | .processContent => st.parser.chunkSize
    | .finishChunk | .parseChunksize | .parseTrailer => st.parser.chunkOffset
    | _ => 0

/-- After the turn the body has `n` bytes: if the request ended it was told with them, and
otherwise they are due. -/
def Owes (n : Nat) (st : HttpConn) (after : Turn) : Prop :=
  match (after.conn.events.drop st.events.length).getLast? with
  | some (.requestEnd body) => body.length = n
  | _ => after.conn.due = n

variable {conn : ICallback} {st next : HttpConn} {n : Nat} {after : Turn}

theorem owes_due (hevents : after.conn.events = st.events) :
    Owes n st after ↔ after.conn.due = n := by
  rw [Owes, hevents, List.drop_length]
  rfl

theorem owes_of_due (hevents : after.conn.events = st.events) (hdue : after.conn.due = n) :
    Owes n st after :=
  (owes_due hevents).mpr hdue

theorem owes_stuck (st : HttpConn) : Owes st.due st (.done st) := owes_of_due rfl rfl

theorem getLast?_told {told : List HttpEvent} {event : HttpEvent}
    (hevents : after.conn.events = st.events ++ told ++ [event]) :
    (after.conn.events.drop st.events.length).getLast? = some event := by
  rw [hevents, List.append_assoc, List.drop_left, List.getLast?_concat]

theorem owes_told {told : List HttpEvent} {body : List UInt8}
    (hevents : after.conn.events = st.events ++ told ++ [.requestEnd body]) :
    Owes n st after ↔ body.length = n := by
  rw [Owes, getLast?_told hevents]

theorem owes_begun {told : List HttpEvent} {bodyType : BodyType} {contentLength : Nat}
    (hevents : after.conn.events = st.events ++ told ++ [.headersEnd bodyType contentLength]) :
    Owes n st after ↔ after.conn.due = n := by
  rw [Owes, getLast?_told hevents]

theorem finishTurn_conn (st : HttpConn) (answered : HttpState) :
    (finishTurn (st, answered)).conn.events = st.events ∧
      (answered ≠ .requestLine → answered ≠ .needMoreData → answered ≠ .parseError →
        (finishTurn (st, answered)).conn =
          { st with parser := { st.parser with httpParseState := answered } }) := by
  have hgoOn : (goOn st answered).events = st.events := by
    unfold goOn
    split
    · rfl
    · split <;> rfl
  cases answered with
  | requestLine => exact ⟨hgoOn, fun h => absurd rfl h⟩
  | needMoreData => exact ⟨rfl, fun _ h => absurd rfl h⟩
  | parseError => exact ⟨rfl, fun _ _ h => absurd rfl h⟩
  | _ => exact ⟨hgoOn, fun _ _ _ => rfl⟩

/-- The fields of a whole header behind which the parser goes on. -/
def accepted (conn : ICallback) (st : HttpConn) : Option HeaderFields :=
  if headersEnd st.cb = 0 then none
  else
    let (fields, ok) := parseHeaderFields conn.answer
      ⟨st.parser.httpBodyType, st.parser.contentLength, st.events⟩
      (st.cb.take (headersEnd st.cb))
    if ok ∧ conn.answer
        (fields.events ++ [.headersEnd fields.httpBodyType fields.contentLength]) then
      some fields
    else none

/-- The texts of the lengths that the header gives. -/
def lengthTexts (st : HttpConn) : List (List UInt8) :=
  contentLengthTexts (st.cb.take (headersEnd st.cb))

/-- The line of a chunk, without the newline; none if it has not come yet. -/
def chunkLine (st : HttpConn) : Option (List UInt8) :=
  let rest := st.cb.drop st.parser.chunkOffset
  if find rest 10 = 0 then none else some (rest.take (find rest 10 - 1))

/-- The turn takes the number that is written, and no other, for the bytes of the body that
begins or goes on. A length that is given with chunks does not count. -/
def ExactTurn (conn : ICallback) (st : HttpConn) : Prop :=
  match st.parser.httpParseState with
  | .headerFields => ∀ fields, st.accepted conn = some fields →
      (fields.httpBodyType = .chunked → Owes 0 st (turn conn st)) ∧
        (fields.httpBodyType ≠ .chunked →
          st.lengthTexts ≠ [] ∨ fields.httpBodyType = .noContent →
            ∃ n, Says st.lengthTexts n ∧ Owes n st (turn conn st))
  | .parseChunksize =>
      match st.chunkLine with
      | some line => ∃ n : Nat, written 16 chunkTail line = some (n : Int) ∧
          Owes (st.due + n) st (turn conn st)
      | none => Owes st.due st (turn conn st)
  | .processContent =>
      st.parser.httpBodyType.lengthDetectable = true → Owes st.due st (turn conn st)
  | .finishChunk | .parseTrailer => Owes st.due st (turn conn st)
  | _ => True

/-- The numbers that the turn meets are written as numbers, and can be counted. -/
def ReadableTurn (conn : ICallback) (st : HttpConn) : Prop :=
  match st.parser.httpParseState with
  | .headerFields => ∀ fields, st.accepted conn = some fields →
      fields.httpBodyType ≠ .chunked →
        ∃ n, Says st.lengthTexts n ∧ (n < 2 ^ 31 ∨ n = 2 ^ 64 - 1)
  | .parseChunksize => ∀ line, st.chunkLine = some line →
      ∃ n : Nat, written 16 chunkTail line = some (n : Int) ∧
        (n ≠ 0 → n + st.parser.chunkOffset < 2 ^ 64)
  | _ => True

end HttpConn

namespace HttpConn

variable {conn : ICallback} {st : HttpConn} {n : Nat}

theorem turn_filled (hcb : st.cb ≠ []) : turn conn st = finishTurn (handle conn st) := by
  unfold turn
  rw [if_neg (by simpa using hcb)]

theorem turn_empty (hcb : st.cb = []) : turn conn st = .done st := by
  unfold turn
  rw [if_pos (by rw [hcb]; rfl)]

/-- A turn that waits for more leaves the state as it is. -/
theorem turn_stuck (hstuck : handle conn st = (st, .needMoreData)) : turn conn st = .done st := by
  unfold turn
  rw [hstuck]
  split <;> rfl

theorem cb_ne_nil_of_find {offset : Nat} {c : UInt8} (hfind : find (st.cb.drop offset) c ≠ 0) :
    st.cb ≠ [] := by
  intro hnil
  rw [hnil, List.drop_nil] at hfind
  exact hfind rfl

/-! ## Headers -/

theorem turn_accepted (hstate : st.parser.httpParseState = .headerFields) (hsound : st.Sound)
    {fields : HeaderFields} (haccepted : st.accepted conn = some fields) :
    turn conn st = finishTurn (startBody conn
        ⟨⟨fields.httpBodyType, .headerFields, false, fields.contentLength, 0, 0⟩,
          st.cb.drop (headersEnd st.cb),
          fields.events ++ [.headersEnd fields.httpBodyType fields.contentLength], [],
          st.offers⟩) ∧
      fields.contentLength = lastTaken st.lengthTexts ∧
      (st.lengthTexts ≠ [] → Sized fields) ∧
      ∃ told, fields.events = st.events ++ told := by
  rw [Sound, hstate] at hsound
  obtain ⟨parser, cb, events, taken, offers⟩ := st
  obtain ⟨rfl, rfl⟩ : parser = { THttpParser.new with httpParseState := .headerFields } ∧
    taken = [] := hsound
  unfold accepted at haccepted
  dsimp only [THttpParser.new] at haccepted
  split at haccepted
  next => cases haccepted
  next hend =>
    rcases hparse : parseHeaderFields conn.answer ⟨.noContent, 0, events⟩
      (cb.take (headersEnd cb)) with ⟨found, ok⟩
    rw [hparse] at haccepted
    dsimp only at haccepted
    split at haccepted
    next hgoes =>
      obtain ⟨rfl, hanswer⟩ := hgoes
      cases haccepted
      have hspec := hparse
      rw [parseHeaderFields_eq] at hspec
      obtain ⟨hcontent, hsized, htold⟩ := parseFields_spec hspec
      refine ⟨?_, hcontent, fun htexts => hsized (Or.inl htexts), htold⟩
      have hcb : cb ≠ [] := by
        rintro rfl
        exact hend rfl
      apply (turn_filled hcb).trans
      change finishTurn (httpHeaderFields conn _) = _
      unfold httpHeaderFields
      dsimp only [THttpParser.new]
      rw [if_neg hend, hparse, erase_zero]
      dsimp only
      rw [if_pos rfl, if_pos hanswer]
    next => cases haccepted

/-- The state behind the header. -/
def behindHeader (st : HttpConn) (fields : HeaderFields) : HttpConn :=
  ⟨⟨fields.httpBodyType, .headerFields, false, fields.contentLength, 0, 0⟩,
    st.cb.drop (headersEnd st.cb),
    fields.events ++ [.headersEnd fields.httpBodyType fields.contentLength], [], st.offers⟩

section Behind

variable {fields : HeaderFields} {told : List HttpEvent}
  (htold : fields.events = st.events ++ told)

include htold

theorem startContent_owes :
    Owes n st (finishTurn (startContent conn (behindHeader st fields))) ↔
      fields.contentLength = n := by
  unfold startContent behindHeader onHttpRequestEnd
  dsimp only
  split
  next hzero =>
    rw [htold, List.append_assoc st.events, owes_told (finishTurn_conn _ _).1, hzero]
    rfl
  next hpos =>
    have hevents := finishTurn_conn ⟨⟨fields.httpBodyType, .headerFields, false,
      fields.contentLength, fields.contentLength, 0⟩, st.cb.drop (headersEnd st.cb),
      fields.events ++ [.headersEnd fields.httpBodyType fields.contentLength], [], st.offers⟩
      .processContent
    rw [owes_begun (hevents.1.trans (by rw [htold])), hevents.2 (by simp) (by simp) (by simp)]
    change 0 + fields.contentLength = n ↔ _
    rw [Nat.zero_add]

theorem startBody_owes (hbody : fields.httpBodyType = .noContent ∨ Sized fields) :
    Owes n st (finishTurn (startBody conn (behindHeader st fields))) ↔
      (if fields.httpBodyType = .chunked then 0 else fields.contentLength) = n := by
  have hstart := @startContent_owes conn st n fields told htold
  unfold startBody
  have htype : (behindHeader st fields).parser.httpBodyType = fields.httpBodyType := rfl
  rw [htype]
  rcases hbody with hnone | hlength | hchunked
  · rw [hnone]
    exact hstart
  · rw [hlength]
    exact hstart
  · rw [hchunked]
    dsimp only
    have hevents := finishTurn_conn (behindHeader st fields) .parseChunksize
    rw [owes_begun (hevents.1.trans (by rw [behindHeader, htold])),
      hevents.2 (by simp) (by simp) (by simp)]
    rfl

end Behind

theorem header_exact (hstate : st.parser.httpParseState = .headerFields) (hsound : st.Sound) :
    ExactTurn conn st ↔ ReadableTurn conn st := by
  unfold ExactTurn ReadableTurn
  rw [hstate]
  dsimp only
  refine forall_congr' fun fields => forall_congr' fun haccepted => ?_
  obtain ⟨hturn, hcontent, hsized, told, htold⟩ := turn_accepted hstate hsound haccepted
  have howes : ∀ n, fields.httpBodyType = .noContent ∨ Sized fields →
      (Owes n st (turn conn st) ↔
        (if fields.httpBodyType = .chunked then 0 else fields.contentLength) = n) := by
    intro n hbody
    rw [hturn]
    exact startBody_owes htold hbody
  constructor
  · rintro ⟨-, hexact⟩ hplain
    by_cases hbody : st.lengthTexts ≠ [] ∨ fields.httpBodyType = .noContent
    · obtain ⟨n, hsaid, howed⟩ := hexact hplain hbody
      rw [howes n (hbody.symm.imp_right hsized), if_neg hplain, hcontent] at howed
      exact ⟨n, hsaid, (lastTaken_said hsaid).mp howed⟩
    · -- a body until the connection closes, or in parts, has no length
      obtain ⟨hnone, -⟩ := not_or.mp hbody
      rw [not_not.mp hnone]
      exact ⟨0, ⟨nofun, fun _ => rfl⟩, Or.inl (by omega)⟩
  · intro hreadable
    refine ⟨fun hchunked => ?_, fun hplain hbody => ?_⟩
    · rw [howes 0 (Or.inr (Or.inr hchunked)), if_pos hchunked]
    · obtain ⟨n, hsaid, hrange⟩ := hreadable hplain
      refine ⟨n, hsaid, ?_⟩
      rw [howes n (hbody.symm.imp_right hsized), if_neg hplain, hcontent]
      exact (lastTaken_said hsaid).mpr hrange

/-! ## Chunks -/

/-- The sum of the size and of what was left is what is due then, unless it wraps around. -/
theorem chunkSize_owes (hstate : st.parser.httpParseState = .parseChunksize)
    (hline : find (st.cb.drop st.parser.chunkOffset) 10 ≠ 0) :
    Owes n st (turn conn st) ↔
      st.taken.length + (if chunkSizeLine st = 0 then st.parser.chunkOffset
        else (chunkSizeLine st + st.parser.chunkOffset) % 2 ^ 64) = n := by
  rw [turn_filled (cb_ne_nil_of_find hline), handle, hstate]
  dsimp only
  unfold httpParseChunksize
  dsimp only
  rw [if_neg hline]
  split
  · exact owes_due rfl
  · exact owes_due rfl

theorem chunk_exact (hstate : st.parser.httpParseState = .parseChunksize) :
    ExactTurn conn st ↔ ReadableTurn conn st := by
  unfold ExactTurn ReadableTurn
  rw [hstate]
  dsimp only
  have hdue : st.due = st.taken.length + st.parser.chunkOffset := by
    rw [due, hstate]
  by_cases hline : find (st.cb.drop st.parser.chunkOffset) 10 = 0
  · have hnone : st.chunkLine = none := if_pos hline
    rw [hnone]
    refine iff_of_true ?_ nofun
    have hstuck : handle conn st = (st, .needMoreData) := by
      rw [handle, hstate]
      exact if_pos hline
    rw [turn_stuck hstuck]
    exact owes_stuck st
  · have hsome : st.chunkLine = some ((st.cb.drop st.parser.chunkOffset).take
        (find (st.cb.drop st.parser.chunkOffset) 10 - 1)) := if_neg hline
    rw [hsome]
    -- one number, read the same way on both sides
    have hnumber : ∀ n : Nat, written 16 chunkTail ((st.cb.drop st.parser.chunkOffset).take
        (find (st.cb.drop st.parser.chunkOffset) 10 - 1)) = some (n : Int) →
          (Owes (st.due + n) st (turn conn st) ↔
            (n ≠ 0 → n + st.parser.chunkOffset < 2 ^ 64)) := by
      intro n hwritten
      have htaken : chunkSizeLine st = min n (2 ^ 64 - 1) := strtoul_eq hwritten
      rw [chunkSize_owes hstate hline, htaken, hdue]
      split <;> omega
    constructor
    · rintro ⟨n, hwritten, howed⟩ line hfound
      cases hfound
      exact ⟨n, hwritten, (hnumber n hwritten).mp howed⟩
    · intro hreadable
      obtain ⟨n, hwritten, hcounted⟩ := hreadable _ rfl
      exact ⟨n, hwritten, (hnumber n hwritten).mpr hcounted⟩

/-! ## Bodies -/

/-- An offer moves bytes, and none is due less. -/
theorem offerContent_due (conn : ICallback)
    (hstate : st.parser.httpParseState = .processContent)
    (hdetectable : st.parser.httpBodyType.lengthDetectable = true) :
    (offerContent conn st).due = st.due ∧ (offerContent conn st).events = st.events ∧
      (offerContent conn st).parser.httpParseState = .processContent ∧
      (offerContent conn st).parser.httpBodyType = st.parser.httpBodyType := by
  obtain ⟨n, offers, hcb, hn, hoffer⟩ := offerContent_spec conn st
  have hsize := hn hdetectable
  rw [hoffer]
  refine ⟨?_, rfl, hstate, rfl⟩
  rw [due, due]
  dsimp only
  rw [hstate, if_pos hdetectable, List.length_append, List.length_take]
  dsimp only
  omega

theorem checkChunk_owes (hstate : st.parser.httpParseState = .processContent) {before : HttpConn}
    (hevents : st.events = before.events) :
    Owes st.due before (finishTurn (checkChunk st)) := by
  have hdue : st.due = st.taken.length + st.parser.chunkSize := by
    rw [due, hstate]
  unfold checkChunk
  split
  · refine owes_of_due hevents ?_
    rw [hdue]
    rfl
  · exact owes_of_due hevents rfl

theorem checkContent_owes (hstate : st.parser.httpParseState = .processContent)
    {before : HttpConn} (hevents : st.events = before.events) :
    Owes st.due before (finishTurn (checkContent conn st)) := by
  have hdue : st.due = st.taken.length + st.parser.chunkSize := by
    rw [due, hstate]
  unfold checkContent onHttpRequestEnd
  dsimp only
  split
  next hwhole =>
    have htold := (finishTurn_conn ⟨st.parser, erase st.cb 0 st.parser.chunkSize,
      st.events ++ [.requestEnd (st.taken ++ st.cb.take st.parser.chunkSize)], [], st.offers⟩
      (if conn.answer (st.events ++
        [.requestEnd (st.taken ++ st.cb.take st.parser.chunkSize)]) = true then .requestLine
          else .parseError)).1
    apply (@owes_told before _ _ [] _ (htold.trans (by rw [hevents, List.append_nil]))).mpr
    rw [List.length_append, List.length_take, hdue]
    omega
  next => exact owes_of_due hevents rfl

theorem content_exact (hstate : st.parser.httpParseState = .processContent) (hsound : st.Sound) :
    ExactTurn conn st := by
  rw [Sound, hstate] at hsound
  unfold ExactTurn
  rw [hstate]
  intro hdetectable
  obtain ⟨hdue, hevents, hnext, htype⟩ := offerContent_due conn hstate hdetectable
  by_cases hcb : st.cb = []
  · rw [turn_empty hcb]
    exact owes_stuck st
  · rw [turn_filled hcb, handle, hstate]
    dsimp only
    unfold httpProcessContent
    dsimp only
    rw [htype, ← hdue]
    cases hbody : st.parser.httpBodyType with
    | chunked => exact checkChunk_owes hnext hevents
    | length => exact checkContent_owes hnext hevents
    | noContent => exact absurd hbody hsound.2.1
    | multipart =>
        rw [hbody] at hdetectable
        cases hdetectable
    | connectionClose =>
        rw [hbody] at hdetectable
        cases hdetectable

theorem finish_exact (hstate : st.parser.httpParseState = .finishChunk) : ExactTurn conn st := by
  unfold ExactTurn
  rw [hstate]
  dsimp only
  have hdue : st.due = st.taken.length + st.parser.chunkOffset := by
    rw [due, hstate]
  by_cases hline : find (st.cb.drop st.parser.chunkOffset) 10 = 0
  · have hstuck : handle conn st = (st, .needMoreData) := by
      rw [handle, hstate]
      exact if_pos hline
    rw [turn_stuck hstuck]
    exact owes_stuck st
  · rw [turn_filled (cb_ne_nil_of_find hline), handle, hstate]
    dsimp only
    unfold httpFinishChunk
    dsimp only
    rw [if_neg hline]
    refine owes_of_due rfl ?_
    rw [hdue]
    rfl

theorem trailer_exact (hstate : st.parser.httpParseState = .parseTrailer) (hsound : st.Sound) :
    ExactTurn conn st := by
  rw [Sound, hstate] at hsound
  dsimp only at hsound
  unfold ExactTurn
  rw [hstate]
  dsimp only
  have hdue : st.due = st.taken.length + st.parser.chunkOffset := by
    rw [due, hstate]
  by_cases hcb : st.cb = []
  · rw [turn_empty hcb]
    exact owes_stuck st
  · rw [turn_filled hcb, handle, hstate]
    dsimp only
    unfold httpParseTrailer onHttpRequestEnd
    dsimp only
    split
    next hended =>
      refine (@owes_told st _ _ [] (st.taken ++ st.cb.take st.parser.chunkOffset)
        ((finishTurn_conn _ _).1.trans (by rw [List.append_nil]))).mpr ?_
      rw [List.length_append, List.length_take, hdue]
      omega
    next =>
      refine owes_of_due rfl ?_
      rw [hdue]
      simp only [Turn.conn, finishTurn, due, hstate]

end HttpConn

/-! ## Sessions -/

namespace HttpConn

variable {conn : ICallback} {st : HttpConn}

/-- Every turn of the loop is `good` in the state in which it is taken. -/
def Turns (conn : ICallback) (good : HttpConn → Prop) : Nat → HttpConn → Prop
  | 0, _ => True
  | fuel + 1, st =>
      good st ∧
        match turn conn st with
        | .next next => Turns conn good fuel next
        | _ => True

theorem turn_exact (hsound : st.Sound) : ExactTurn conn st ↔ ReadableTurn conn st := by
  cases hstate : st.parser.httpParseState with
  | headerFields => exact header_exact hstate hsound
  | parseChunksize => exact chunk_exact hstate
  | processContent =>
      apply iff_of_true (content_exact hstate hsound)
      rw [ReadableTurn, hstate]
      trivial
  | finishChunk =>
      apply iff_of_true (finish_exact hstate)
      rw [ReadableTurn, hstate]
      trivial
  | parseTrailer =>
      apply iff_of_true (trailer_exact hstate hsound)
      rw [ReadableTurn, hstate]
      trivial
  | _ =>
      rw [ExactTurn, ReadableTurn, hstate]

theorem turns_exact (fuel : Nat) (hsound : st.Sound) :
    Turns conn (ExactTurn conn) fuel st ↔ Turns conn (ReadableTurn conn) fuel st := by
  induction fuel generalizing st with
  | zero => exact Iff.rfl
  | succ fuel ih =>
      have hturn := turn_simulates conn hsound
      apply and_congr (turn_exact hsound)
      cases hnext : turn conn st with
      | next next =>
          rw [hnext] at hturn
          exact ih hturn.1
      | done next => exact Iff.rfl
      | failed next => exact Iff.rfl

end HttpConn

namespace HttpSession

/-- Every turn of the call for the chunk is `good`. -/
def Calls (conn : ICallback) (good : HttpConn → Prop) (session : HttpSession)
    (chunk : List UInt8) : Prop :=
  session.failed = false →
    HttpConn.Turns conn good
      (turnsLeft { session.http with cb := session.http.cb ++ chunk } + 1)
      { session.http with cb := session.http.cb ++ chunk }

/-- The bodies of a session have the bytes that are written, turn by turn, exactly when
every number is written as one and can be counted. -/
theorem lengths_exact_iff (conn : ICallback) (chunks : List (List UInt8)) :
    Along (receive conn) (Calls conn (HttpConn.ExactTurn conn)) .new chunks ↔
      Along (receive conn) (Calls conn (HttpConn.ReadableTurn conn)) .new chunks := by
  refine along_congr ?_ ?_ new_sound (along_trivial HttpSession.new chunks)
  · intro session chunk next hsound _ hnext
    obtain ⟨other, hother, hsoundNext, -⟩ := receive_does conn hsound chunk
    cases Option.some.inj (hother.symm.trans hnext)
    exact hsoundNext
  · intro session chunk hsound _
    refine forall_congr' fun hgoes => ?_
    exact HttpConn.turns_exact _ (HttpConn.scan_append (hsound hgoes) chunk).2

/-- A connection that likes everything, and takes all that it is offered. -/
def allTaker : ICallback := ⟨fun _ => true, fun _ _ _ => Fin.last _⟩

/-- A header with a length that an `int` cannot hold. -/
def longHeader : List UInt8 := literal "Content-Length: 4294967301\n\n"

/-- The parser behind the request line. -/
def longRequest : HttpConn where
  parser := { THttpParser.new with httpParseState := .headerFields }
  cb := 10 :: longHeader
  events := [.requestLine (literal "POST /\n")]
  taken := []
  offers := []

theorem longRequest_sound : longRequest.Sound := ⟨rfl, rfl⟩

/-- The parser waits for five bytes. -/
theorem longRequest_inexact :
    ¬ Along (receive allTaker) (Calls allTaker (HttpConn.ExactTurn allTaker)) .new
      [literal "POST /\n" ++ longHeader] := by
  rintro ⟨hcall, -⟩
  have hturns : HttpConn.Turns allTaker (HttpConn.ExactTurn allTaker) _ longRequest :=
    (hcall rfl).2
  have hreadable : HttpConn.ReadableTurn allTaker longRequest :=
    (HttpConn.turn_exact longRequest_sound).mp hturns.1
  have htype : (longRequest.accepted allTaker).map HeaderFields.httpBodyType = some .length := by
    decide +kernel
  obtain ⟨fields, haccepted, hlength⟩ := Option.map_eq_some_iff.mp htype
  obtain ⟨n, ⟨hsaid, -⟩, hrange⟩ := hreadable fields haccepted (by simp [hlength])
  have hwritten := hsaid (literal " 4294967301\n") (by decide +kernel)
  have hvalue : written 10 blankTail (literal " 4294967301\n") = some 4294967301 := by
    decide +kernel
  rw [hvalue, Option.some.injEq] at hwritten
  omega

end HttpSession

end ServiceFrame
