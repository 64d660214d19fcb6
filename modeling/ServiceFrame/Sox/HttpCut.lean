import ServiceFrame.Sox.HttpScan

/-! # HTTP parsing is independent of how the stream is cut

Whatever the chunks in which a stream comes in, and whatever the connection takes of a
body when it is offered, the parser does the steps of the scan of the stream, as long as
no size of a chunk takes the body past what `size_t` can count.
-/

namespace ServiceFrame

open Foundation StateTransition

namespace HttpConn

/-- The scan that stands where the parser does: what was taken of a body is put back. -/
def scan (st : HttpConn) : HttpScan :=
  match st.parser.httpParseState with
  | .requestLine => ⟨.requestLine, st.cb, st.events⟩
  | .headerFields => ⟨.headerFields, st.cb, st.events⟩
  | .processContent =>
      match st.parser.httpBodyType with
      | .length =>
          ⟨.content (st.taken.length + st.parser.chunkSize), st.taken ++ st.cb, st.events⟩
      | .chunked =>
          ⟨.chunk (st.taken.length + st.parser.chunkSize), st.taken ++ st.cb, st.events⟩
      | _ => ⟨.endless, st.taken ++ st.cb, st.events⟩
  | .finishChunk =>
      ⟨.chunk (st.taken.length + st.parser.chunkOffset), st.taken ++ st.cb, st.events⟩
  | .parseChunksize =>
      ⟨.chunkSize (st.taken.length + st.parser.chunkOffset), st.taken ++ st.cb, st.events⟩
  | .parseTrailer =>
      ⟨.trailer (st.taken.length + st.parser.chunkOffset),
        st.taken ++ erase st.cb st.parser.chunkOffset st.parser.chunkSize, st.events⟩
  | .needMoreData | .parseError => ⟨.failed, [], st.events⟩

/-- What holds between the turns of the loop. -/
def Sound (st : HttpConn) : Prop :=
  match st.parser.httpParseState with
  | .requestLine => st.parser = .new
  | .headerFields => st.parser = { THttpParser.new with httpParseState := .headerFields } ∧
      st.taken = []
  | .processContent => st.parser.multipartEnd = false ∧ st.parser.httpBodyType ≠ .noContent ∧
      (st.parser.httpBodyType = .length → 0 < st.parser.chunkSize)
  | .finishChunk | .parseChunksize =>
      st.parser.multipartEnd = false ∧ st.parser.httpBodyType = .chunked
  | .parseTrailer => st.parser.chunkOffset + st.parser.chunkSize ≤ st.cb.length
  | .needMoreData | .parseError => False

/-- With the chunk whose size is read next, what is left of the body in the buffer can
still be counted. -/
def Fits (st : HttpConn) : Prop :=
  st.parser.httpParseState = .parseChunksize →
    find (st.cb.drop st.parser.chunkOffset) 10 ≠ 0 → chunkSizeLine st ≠ 0 →
      chunkSizeLine st + st.parser.chunkOffset < 2 ^ 64

/-- How a turn ends of which a scan does the steps: with fewer turns left than the bound,
or where the scan is stuck, or with the scan having failed. -/
def Does (answer : List HttpEvent → Bool) (scan : HttpScan) (left : Nat) (fits : Prop) :
    Turn → Prop
  | .next next => next.Sound ∧ turnsLeft next < left ∧
      (fits → Reaches (HttpScan.advance answer) scan next.scan)
  | .done next => next.Sound ∧
      (fits → Reaches (HttpScan.advance answer) scan next.scan ∧
        HttpScan.advance answer next.scan = none)
  | .failed next => fits → Reaches (HttpScan.advance answer) scan ⟨.failed, [], next.events⟩

def Simulates (answer : List HttpEvent → Bool) (st : HttpConn) : Turn → Prop :=
  Does answer st.scan (turnsLeft st) st.Fits

variable {conn : ICallback} {st : HttpConn}

/-! ## Buffers -/

theorem erase_zero (cb : List UInt8) (n : Nat) : erase cb 0 n = cb.drop n := by
  rw [erase, List.take_zero, List.nil_append, Nat.zero_add]

theorem length_erase {cb : List UInt8} {pos n : Nat} (hle : pos + n ≤ cb.length) :
    (erase cb pos n).length = cb.length - n := by
  rw [erase, List.length_append, List.length_take, List.length_drop]
  omega

/-- What is in front of the buffer moves the place. -/
theorem erase_front (front cb : List UInt8) (pos n : Nat) :
    erase (front ++ cb) (front.length + pos) n = front ++ erase cb pos n := by
  rw [erase, erase, List.take_length_add_append, Nat.add_assoc, List.drop_length_add_append,
    List.append_assoc]

theorem advanceLine_front (front cb : List UInt8) (pos : Nat) (next : List UInt8 → HttpScan) :
    HttpScan.advanceLine (front ++ cb) (front.length + pos) next =
      if find (cb.drop pos) 10 = 0 then none
      else some (next ((cb.drop pos).take (find (cb.drop pos) 10))) := by
  unfold HttpScan.advanceLine
  rw [List.drop_length_add_append]

theorem find_getElem {s : List UInt8} {c : UInt8} (hfind : find s c ≠ 0) :
    s[find s c - 1]? = some c := by
  unfold find at hfind ⊢
  cases he : s.findIdx? fun other => other = c with
  | none => simp [he] at hfind
  | some e =>
      obtain ⟨hlt, hsame, -⟩ := List.findIdx?_eq_some_iff_getElem.mp he
      dsimp only
      rw [Nat.add_sub_cancel, List.getElem?_eq_getElem hlt, of_decide_eq_true hsame]

theorem Does.of_reaches {answer : List HttpEvent → Bool} {scan middle : HttpScan} {left : Nat}
    {fits : Prop} {turn : Turn} (hdoes : Does answer middle left fits turn)
    (hreaches : fits → Reaches (HttpScan.advance answer) scan middle) :
    Does answer scan left fits turn := by
  cases turn with
  | next next => exact ⟨hdoes.1, hdoes.2.1, fun hfits => (hreaches hfits).trans (hdoes.2.2 hfits)⟩
  | done next =>
      exact ⟨hdoes.1, fun hfits =>
        ⟨(hreaches hfits).trans (hdoes.2 hfits).1, (hdoes.2 hfits).2⟩⟩
  | failed next => exact fun hfits => (hreaches hfits).trans (hdoes hfits)

theorem Does.of_step {answer : List HttpEvent → Bool} {scan middle : HttpScan} {left : Nat}
    {fits : Prop} {turn : Turn} (hstep : HttpScan.advance answer scan = some middle)
    (hdoes : Does answer middle left fits turn) : Does answer scan left fits turn :=
  hdoes.of_reaches fun _ => .single hstep

theorem Does.mono {answer : List HttpEvent → Bool} {scan : HttpScan} {left more : Nat}
    {fits : Prop} {turn : Turn} (hdoes : Does answer scan left fits turn) (hle : left ≤ more) :
    Does answer scan more fits turn := by
  cases turn with
  | next next => exact ⟨hdoes.1, hdoes.2.1.trans_le hle, hdoes.2.2⟩
  | done next => exact hdoes
  | failed next => exact hdoes

/-- The connection is told of an event, and goes on or gives up, as the scan does. -/
theorem does_tell {answer : List HttpEvent → Bool} {events : List HttpEvent} {event : HttpEvent}
    {phase : ScanPhase} {data : List UInt8} {left : Nat} {fits : Prop} {next : HttpConn}
    {out : HttpConn × HttpState} (hevents : next.events = events ++ [event])
    (hnext : Does answer ⟨phase, data, events ++ [event]⟩ left fits (finishTurn out)) :
    Does answer (HttpScan.tell answer events event phase data) left fits
      (finishTurn (if answer (events ++ [event]) then out else (next, .parseError))) := by
  unfold HttpScan.tell
  split
  · exact hnext
  · intro _
    rw [hevents]
    exact .refl

/-- A request ends, and the next one begins with what is left in the buffer. -/
theorem does_requestEnd {answer : List HttpEvent → Bool} {events : List HttpEvent}
    {body : List UInt8} {left : Nat} {fits : Prop} {parser : THttpParser} {cb : List UInt8}
    {offers : Offers} (hstate : parser.httpParseState ≠ .requestLine)
    (hleft : 3 * cb.length < left) :
    Does answer (HttpScan.tell answer events (.requestEnd body) .requestLine cb) left fits
      (finishTurn (⟨parser, cb, events ++ [.requestEnd body], [], offers⟩,
        if answer (events ++ [.requestEnd body]) then .requestLine else .parseError)) := by
  have hsplit : ∀ keep : Bool, ((⟨parser, cb, events ++ [.requestEnd body], [], offers⟩ : HttpConn),
      if keep then HttpState.requestLine else .parseError) =
        if keep then (⟨parser, cb, events ++ [.requestEnd body], [], offers⟩, .requestLine)
        else (⟨parser, cb, events ++ [.requestEnd body], [], offers⟩, .parseError) := by
    intro keep
    cases keep with
    | true => rfl
    | false => rfl
  rw [hsplit]
  apply does_tell rfl
  change Does answer _ left fits (.next (goOn _ .requestLine))
  rw [goOn, if_neg (by simp), if_pos (Ne.symm hstate)]
  exact ⟨rfl, hleft, fun _ => .refl⟩

/-! ## Request lines -/

/-- A line that is more than space has more than its newline. -/
theorem two_le_find {cb : List UInt8}
    (hline : ((cb.take (find cb 10)).dropWhile isspace).isEmpty = false) : 2 ≤ find cb 10 := by
  by_contra hshort
  have hcases : find cb 10 = 0 ∨ find cb 10 = 1 := by omega
  rcases hcases with hzero | hone
  · rw [hzero] at hline
    cases hline
  · have hhead := find_getElem (s := cb) (c := 10) (by omega)
    rw [hone] at hline hhead
    cases cb with
    | nil => cases hhead
    | cons c rest =>
        cases hhead
        cases hline

theorem drop_set_newline {cb : List UInt8} (hfind : find cb 10 ≠ 0) :
    (cb.drop (find cb 10 - 1)).set 0 10 = cb.drop (find cb 10 - 1) := by
  have hnewline := find_getElem hfind
  rw [← List.head?_drop] at hnewline
  cases hdrop : cb.drop (find cb 10 - 1) with
  | nil => rfl
  | cons c rest =>
      rw [hdrop, List.head?_cons, Option.some.injEq] at hnewline
      rw [hnewline, List.set_cons_zero]

theorem requestLine_simulates (hstate : st.parser.httpParseState = .requestLine)
    (hsound : st.Sound) (hcb : st.cb.isEmpty = false) :
    Simulates conn.answer st (finishTurn (httpRequestLine conn st)) := by
  have hnew : st.parser = .new := by rwa [Sound, hstate] at hsound
  obtain ⟨parser, cb, events, taken, offers⟩ := st
  obtain rfl : parser = .new := hnew
  have hle := HttpScan.find_le cb 10
  unfold httpRequestLine
  dsimp only
  by_cases hfind : find cb 10 = 0
  · rw [if_pos hfind]
    exact ⟨hsound, fun _ => ⟨.refl, if_pos hfind⟩⟩
  rw [if_neg hfind, erase_zero]
  cases hline : ((cb.take (find cb 10)).dropWhile isspace).isEmpty with
  | true =>
      have hstep : HttpScan.advance conn.answer ⟨.requestLine, cb, events⟩ =
          some ⟨.requestLine, cb.drop (find cb 10), events⟩ :=
        (if_neg hfind).trans (if_pos hline)
      rw [List.isEmpty_iff.mp hline, List.length_nil, Nat.sub_zero, if_pos rfl]
      -- the parser looks for more data before it goes on; the scan is stuck without any
      split
      next hrest =>
        refine .of_step hstep ⟨rfl, fun _ => ⟨.refl, ?_⟩⟩
        change HttpScan.advance conn.answer ⟨.requestLine, cb.drop (find cb 10), events⟩ = none
        rw [List.isEmpty_iff.mp hrest]
        rfl
      next =>
        refine .of_step hstep ⟨rfl, ?_, fun _ => .refl⟩
        have hpos := List.length_pos_of_ne_nil (by simpa using hcb : cb ≠ [])
        change 3 * (cb.drop (find cb 10)).length + 0 < 3 * cb.length + 0
        rw [List.length_drop]
        omega
  | false =>
      have htwo := two_le_find hline
      have hshort := (List.dropWhile_sublist (p := isspace) (l := cb.take (find cb 10))).length_le
      rw [List.length_take, Nat.min_eq_left hle] at hshort
      have hsize := List.length_pos_of_ne_nil (by simpa using hline :
        (cb.take (find cb 10)).dropWhile isspace ≠ [])
      have hskip : (cb.drop (find cb 10 -
          ((cb.take (find cb 10)).dropWhile isspace).length)).isEmpty = false := by
        rw [← Bool.not_eq_true, List.isEmpty_iff, ← List.length_eq_zero_iff, List.length_drop]
        omega
      have hstep : HttpScan.advance conn.answer ⟨.requestLine, cb, events⟩ =
          some (HttpScan.tell conn.answer events
            (.requestLine ((cb.take (find cb 10)).dropWhile isspace)) .headerFields
            (cb.drop (find cb 10 - 1))) :=
        (if_neg hfind).trans (if_neg (by simp [hline]))
      rw [hskip, if_neg (by simp), if_neg (by simp), erase_zero, List.drop_drop,
        show find cb 10 - ((cb.take (find cb 10)).dropWhile isspace).length +
          (((cb.take (find cb 10)).dropWhile isspace).length - 1) = find cb 10 - 1 by omega,
        drop_set_newline hfind]
      refine .of_step hstep (does_tell rfl ⟨⟨rfl, rfl⟩, ?_, fun _ => .refl⟩)
      change 3 * (cb.drop (find cb 10 - 1)).length + 0 < 3 * cb.length + 0
      rw [List.length_drop]
      omega

/-! ## Headers -/

/-- What is asserted of a request without a body. -/
def Plain (fields : HeaderFields) : Prop :=
  fields.httpBodyType = .noContent → fields.contentLength = 0

section Fields

variable {answer : List HttpEvent → Bool}

theorem parseField_plain {fields : HeaderFields} (hplain : Plain fields) (data : List UInt8) :
    Plain (parseField answer fields data).1 := by
  unfold parseField
  dsimp only
  split
  · exact hplain
  split
  · intro hnone
    dsimp only at hnone
    split at hnone
    next => cases hnone
    next hchunked => exact absurd (hnone ▸ hchunked) (by simp)
  split
  · split
    · exact fun hnone => by cases hnone
    · exact hplain
  split
  · intro hnone
    dsimp only [onHttpUnknownField] at hnone ⊢
    split at hnone
    next => cases hnone
    next hkeep =>
      rw [if_neg hkeep]
      exact hplain hnone
  split
  · intro hnone
    dsimp only [onHttpUnknownField] at hnone ⊢
    split at hnone
    next => cases hnone
    next hkeep =>
      rw [if_neg hkeep]
      exact hplain hnone
  · exact hplain

theorem parseLines_plain {fields : HeaderFields} (hplain : Plain fields) (field : List UInt8)
    (rest : List (List UInt8)) : Plain (parseLines answer fields field rest).1 := by
  induction rest generalizing fields field with
  | nil => exact parseField_plain hplain field
  | cons line rest ih =>
      rw [parseLines]
      split
      · exact ih hplain _
      · dsimp only
        split
        · exact ih (parseField_plain hplain field) line
        · exact parseField_plain hplain field

theorem parseHeaderFields_plain (answer : List HttpEvent → Bool) {fields : HeaderFields}
    (hplain : Plain fields) (header : List UInt8) :
    Plain (parseHeaderFields answer fields header).1 := by
  unfold parseHeaderFields
  split
  · exact hplain
  · exact parseLines_plain hplain _ _

end Fields

theorem startContent_does {bodyType : BodyType} {contentLength : Nat}
    (hbody : bodyType = .length ∨ contentLength = 0) (cb : List UInt8)
    (events : List HttpEvent) (offers : Offers) {left : Nat} {fits : Prop}
    (hleft : 3 * cb.length + 2 < left) :
    Does conn.answer ⟨.content contentLength, cb, events⟩ left fits
      (finishTurn (startContent conn
        ⟨⟨bodyType, .headerFields, false, contentLength, 0, 0⟩, cb, events, [], offers⟩)) := by
  unfold startContent onHttpRequestEnd
  dsimp only
  split
  next hzero =>
    subst hzero
    exact .of_step (HttpScan.advance_content (Nat.zero_le _))
      (does_requestEnd (by simp) (by rw [List.drop_zero]; omega))
  next hpos =>
    obtain rfl := hbody.resolve_right hpos
    refine ⟨⟨rfl, by simp [goOn], fun _ => Nat.pos_of_ne_zero hpos⟩, hleft, fun _ => ?_⟩
    change Reaches _ _ (HttpScan.mk (.content (0 + contentLength)) cb events)
    rw [Nat.zero_add]
    exact .refl

/-- The body starts where the scan says it does. -/
theorem startBody_does {fields : HeaderFields} (hplain : Plain fields) (cb : List UInt8)
    (events : List HttpEvent) (offers : Offers) {left : Nat} {fits : Prop}
    (hleft : 3 * cb.length + 2 < left) :
    Does conn.answer ⟨HttpScan.bodyPhase fields, cb, events⟩ left fits
      (finishTurn (startBody conn ⟨⟨fields.httpBodyType, .headerFields, false,
        fields.contentLength, 0, 0⟩, cb, events, [], offers⟩)) := by
  obtain ⟨bodyType, contentLength, events'⟩ := fields
  cases bodyType with
  | noContent => exact startContent_does (Or.inr (hplain rfl)) cb events offers hleft
  | length => exact startContent_does (Or.inl rfl) cb events offers hleft
  | chunked =>
      refine ⟨⟨rfl, rfl⟩, ?_, fun _ => .refl⟩
      change 3 * cb.length + 1 < left
      omega
  | multipart => exact ⟨⟨rfl, by simp [goOn], by simp [goOn]⟩, hleft, fun _ => .refl⟩
  | connectionClose => exact ⟨⟨rfl, by simp [goOn], by simp [goOn]⟩, hleft, fun _ => .refl⟩

theorem headerFields_simulates (hstate : st.parser.httpParseState = .headerFields)
    (hsound : st.Sound) (hcb : st.cb.isEmpty = false) :
    Simulates conn.answer st (finishTurn (httpHeaderFields conn st)) := by
  rw [Sound, hstate] at hsound
  obtain ⟨parser, cb, events, taken, offers⟩ := st
  obtain ⟨rfl, rfl⟩ : parser = { THttpParser.new with httpParseState := .headerFields } ∧
    taken = [] := hsound
  have hle := HttpScan.headersEnd_le cb
  unfold httpHeaderFields
  dsimp only [THttpParser.new]
  by_cases hend : headersEnd cb = 0
  · rw [if_pos hend]
    exact ⟨⟨rfl, rfl⟩, fun _ => ⟨.refl, if_pos hend⟩⟩
  rw [if_neg hend, erase_zero]
  rcases hparse : parseHeaderFields conn.answer ⟨.noContent, 0, events⟩
    (cb.take (headersEnd cb)) with ⟨fields, ok⟩
  have hplain : Plain fields := by
    have hnone : Plain ⟨.noContent, 0, events⟩ := fun _ => rfl
    have hkept := parseHeaderFields_plain conn.answer hnone (cb.take (headersEnd cb))
    rwa [hparse] at hkept
  refine .of_step (HttpScan.advance_headerFields hend hparse) ?_
  cases ok with
  | false => exact fun _ => .refl
  | true =>
      have hpos := List.length_pos_of_ne_nil (by simpa using hcb : cb ≠ [])
      refine does_tell rfl (startBody_does hplain _ _ _ ?_)
      change 3 * (cb.drop (headersEnd cb)).length + 2 < 3 * cb.length + 0
      rw [List.length_drop]
      omega

/-! ## Bodies -/

theorem offered_take {n : Nat} (hn : n ≤ (offered st).length) :
    (offered st).take n = st.cb.take n ∧ n ≤ st.cb.length ∧
      (st.parser.httpBodyType.lengthDetectable = true → n ≤ st.parser.chunkSize) := by
  unfold offered at hn ⊢
  split
  next hpart =>
    rw [if_pos hpart, List.length_take, Nat.min_eq_left hpart.2.le] at hn
    rw [List.take_take, Nat.min_eq_left hn]
    exact ⟨rfl, by omega, fun _ => hn⟩
  next hwhole =>
    rw [if_neg hwhole] at hn
    refine ⟨rfl, hn, fun hdetectable => ?_⟩
    have hsize : ¬ st.parser.chunkSize < st.cb.length := fun hlt => hwhole ⟨hdetectable, hlt⟩
    omega

/-- A call of `onHttpContent` moves bytes from the buffer to what was taken. -/
theorem offerContent_spec (conn : ICallback) (st : HttpConn) :
    ∃ n offers, n ≤ st.cb.length ∧
      (st.parser.httpBodyType.lengthDetectable = true → n ≤ st.parser.chunkSize) ∧
        offerContent conn st = ⟨{ st.parser with
            chunkSize := if st.parser.httpBodyType.lengthDetectable then st.parser.chunkSize - n
              else st.parser.chunkSize },
          st.cb.drop n, st.events, st.taken ++ st.cb.take n, offers⟩ := by
  rcases hpolicy : conn.onHttpContent st.events st.offers (offered st) with ⟨n, hn⟩
  obtain ⟨htake, hle, hsize⟩ := offered_take (Nat.le_of_lt_succ hn)
  refine ⟨n, st.offers ++ [(offered st, n)], hle, hsize, ?_⟩
  unfold offerContent
  dsimp only
  rw [hpolicy, erase_zero]
  dsimp only
  rw [htake]

/-- The scan has all of the body, taken or not. -/
theorem offerContent_scan (conn : ICallback)
    (hstate : st.parser.httpParseState = .processContent) :
    (offerContent conn st).scan = st.scan := by
  obtain ⟨n, offers, hcb, hn, hoffer⟩ := offerContent_spec conn st
  rw [hoffer]
  obtain ⟨⟨bodyType, state, multipartEnd, contentLength, chunkSize, chunkOffset⟩, cb, events,
    taken, offers'⟩ := st
  obtain rfl : state = .processContent := hstate
  have hdata : (taken ++ cb.take n) ++ cb.drop n = taken ++ cb := by
    rw [List.append_assoc, List.take_append_drop]
  have hsize : n ≤ chunkSize →
      (taken ++ cb.take n).length + (chunkSize - n) = taken.length + chunkSize := by
    intro hle
    rw [List.length_append, List.length_take, Nat.min_eq_left hcb]
    omega
  unfold scan
  dsimp only
  rw [hdata]
  cases bodyType with
  | length =>
      change HttpScan.mk (.content ((taken ++ cb.take n).length + (chunkSize - n))) _ _ = _
      rw [hsize (hn rfl)]
  | chunked =>
      change HttpScan.mk (.chunk ((taken ++ cb.take n).length + (chunkSize - n))) _ _ = _
      rw [hsize (hn rfl)]
  | _ => rfl

theorem checkChunk_does (hstate : st.parser.httpParseState = .processContent)
    (hbody : st.parser.httpBodyType = .chunked) (hend : st.parser.multipartEnd = false)
    {fits : Prop} :
    Does conn.answer st.scan (turnsLeft st) fits (finishTurn (checkChunk st)) := by
  obtain ⟨⟨bodyType, state, multipartEnd, contentLength, chunkSize, chunkOffset⟩, cb, events,
    taken, offers⟩ := st
  obtain rfl : state = .processContent := hstate
  obtain rfl : bodyType = .chunked := hbody
  unfold checkChunk
  dsimp only
  split
  next =>
    refine ⟨⟨hend, rfl⟩, ?_, fun _ => .refl⟩
    change 3 * cb.length + 1 < 3 * cb.length + 2
    omega
  next hmore =>
    -- all of the buffer is of the chunk, so that the scan finds no line behind it
    have hshort : cb.length ≤ chunkSize := by omega
    refine ⟨⟨hend, by simp, by simp⟩, fun _ => ⟨.refl, ?_⟩⟩
    change HttpScan.advanceChunk (taken.length + chunkSize) (taken ++ cb) events = none
    unfold HttpScan.advanceChunk
    rw [advanceLine_front, List.drop_eq_nil_of_le hshort]
    rfl

theorem checkContent_does (hstate : st.parser.httpParseState = .processContent)
    (hbody : st.parser.httpBodyType = .length) (hend : st.parser.multipartEnd = false)
    {fits : Prop} :
    Does conn.answer st.scan (turnsLeft st) fits (finishTurn (checkContent conn st)) := by
  obtain ⟨⟨bodyType, state, multipartEnd, contentLength, chunkSize, chunkOffset⟩, cb, events,
    taken, offers⟩ := st
  obtain rfl : state = .processContent := hstate
  obtain rfl : bodyType = .length := hbody
  have hscan : scan ⟨⟨.length, .processContent, multipartEnd, contentLength, chunkSize,
      chunkOffset⟩, cb, events, taken, offers⟩ =
        ⟨.content (taken.length + chunkSize), taken ++ cb, events⟩ := rfl
  rw [hscan]
  unfold checkContent onHttpRequestEnd
  dsimp only
  split
  next hwhole =>
    have hsize : taken.length + chunkSize ≤ (taken ++ cb).length := by
      rw [List.length_append]
      omega
    refine .of_step (HttpScan.advance_content hsize) ?_
    rw [List.take_length_add_append, List.drop_length_add_append, erase_zero]
    apply does_requestEnd (by simp)
    change 3 * (cb.drop chunkSize).length < 3 * cb.length + 2
    rw [List.length_drop]
    omega
  next hmore =>
    refine ⟨⟨hend, by simp, fun _ => by dsimp only; omega⟩, fun _ => ⟨.refl, ?_⟩⟩
    change HttpScan.advanceContent conn.answer (taken.length + chunkSize) (taken ++ cb) events =
      none
    apply if_neg
    rw [List.length_append]
    omega

theorem endless_does {answer : List HttpEvent → Bool}
    (hstate : st.parser.httpParseState = .processContent)
    (hbody : st.parser.httpBodyType = .multipart ∨ st.parser.httpBodyType = .connectionClose)
    (hend : st.parser.multipartEnd = false) {left : Nat} {fits : Prop} :
    Does answer st.scan left fits (.done st) := by
  have hsound : st.Sound := by
    unfold Sound
    rw [hstate]
    rcases hbody with hbody | hbody <;> exact ⟨hend, by simp [hbody], by simp [hbody]⟩
  refine ⟨hsound, fun _ => ⟨.refl, ?_⟩⟩
  unfold scan
  rw [hstate]
  rcases hbody with hbody | hbody <;> rw [hbody] <;> rfl

theorem processContent_simulates (hstate : st.parser.httpParseState = .processContent)
    (hsound : st.Sound) :
    Simulates conn.answer st (finishTurn (httpProcessContent conn st)) := by
  rw [Sound, hstate] at hsound
  obtain ⟨hend, hbody, -⟩ := hsound
  obtain ⟨n, offers, hcb, -, hoffer⟩ := offerContent_spec conn st
  have hleft : turnsLeft (offerContent conn st) ≤ turnsLeft st := by
    rw [hoffer, turnsLeft, turnsLeft]
    dsimp only
    rw [List.length_drop]
    omega
  have hparser : (offerContent conn st).parser.httpParseState = .processContent ∧
      (offerContent conn st).parser.httpBodyType = st.parser.httpBodyType ∧
        (offerContent conn st).parser.multipartEnd = false := by
    rw [hoffer]
    exact ⟨hstate, rfl, hend⟩
  refine .mono ?_ hleft
  -- the offer is no step of the scan: only what the parser checks behind it is
  rw [← offerContent_scan conn hstate]
  unfold httpProcessContent
  dsimp only
  generalize offerContent conn st = next at hparser
  obtain ⟨hstate, hsame, hend⟩ := hparser
  cases htype : next.parser.httpBodyType with
  | noContent => exact absurd (hsame.symm.trans htype) hbody
  | chunked => exact checkChunk_does hstate htype hend
  | length => exact checkContent_does hstate htype hend
  | multipart =>
      dsimp only
      rw [hend]
      exact endless_does hstate (Or.inl htype) hend
  | connectionClose => exact endless_does hstate (Or.inr htype) hend

/-! ## Chunks -/

theorem find_drop_le {cb : List UInt8} {pos : Nat} (hfind : find (cb.drop pos) 10 ≠ 0) :
    pos + find (cb.drop pos) 10 ≤ cb.length := by
  have hle := HttpScan.find_le (cb.drop pos) 10
  rw [List.length_drop] at hle
  omega

theorem length_line (cb : List UInt8) (pos : Nat) :
    ((cb.drop pos).take (find (cb.drop pos) 10)).length = find (cb.drop pos) 10 := by
  rw [List.length_take, Nat.min_eq_left (HttpScan.find_le _ _)]

theorem advance_chunk (answer : List HttpEvent → Bool) (front cb : List UInt8) (pos : Nat)
    (events : List HttpEvent) :
    HttpScan.advance answer ⟨.chunk (front.length + pos), front ++ cb, events⟩ =
      if find (cb.drop pos) 10 = 0 then none
      else some ⟨.chunkSize (front.length + pos),
        front ++ erase cb pos (find (cb.drop pos) 10), events⟩ := by
  change HttpScan.advanceChunk (front.length + pos) (front ++ cb) events = _
  unfold HttpScan.advanceChunk
  rw [advanceLine_front, length_line, erase_front]

theorem advance_chunkSize (answer : List HttpEvent → Bool) (front cb : List UInt8) (pos : Nat)
    (events : List HttpEvent) :
    HttpScan.advance answer ⟨.chunkSize (front.length + pos), front ++ cb, events⟩ =
      if find (cb.drop pos) 10 = 0 then none
      else some ⟨if lineNumber cb pos = 0 then .trailer (front.length + pos)
        else .chunk (front.length + pos + lineNumber cb pos),
        front ++ erase cb pos (find (cb.drop pos) 10), events⟩ := by
  change HttpScan.advanceChunkSize (front.length + pos) (front ++ cb) events = _
  unfold HttpScan.advanceChunkSize
  rw [advanceLine_front]
  dsimp only
  rw [length_line, erase_front, List.dropLast_eq_take, length_line, List.take_take,
    Nat.min_eq_left (Nat.sub_le _ _)]
  rfl

theorem finishChunk_simulates (hstate : st.parser.httpParseState = .finishChunk)
    (hsound : st.Sound) : Simulates conn.answer st (finishTurn (httpFinishChunk st)) := by
  have hchunked : st.parser.multipartEnd = false ∧ st.parser.httpBodyType = .chunked := by
    rwa [Sound, hstate] at hsound
  obtain ⟨⟨bodyType, state, multipartEnd, contentLength, chunkSize, chunkOffset⟩, cb, events,
    taken, offers⟩ := st
  obtain rfl : state = .finishChunk := hstate
  have hadvance := advance_chunk conn.answer taken cb chunkOffset events
  unfold httpFinishChunk
  dsimp only
  by_cases hfind : find (cb.drop chunkOffset) 10 = 0
  · rw [if_pos hfind] at hadvance ⊢
    exact ⟨hsound, fun _ => ⟨.refl, hadvance⟩⟩
  · rw [if_neg hfind] at hadvance ⊢
    have hle := find_drop_le hfind
    refine .of_step hadvance ⟨hchunked, ?_, fun _ => .refl⟩
    change 3 * (erase cb chunkOffset (find (cb.drop chunkOffset) 10)).length + 1 <
      3 * cb.length + 1
    rw [length_erase hle]
    omega

theorem erase_set {cb : List UInt8} {pos n i : Nat} (hpos : pos ≤ i) (hi : i < pos + n)
    (c : UInt8) : erase (cb.set i c) pos n = erase cb pos n := by
  rw [erase, erase, List.take_set_of_le hpos, List.drop_set_of_lt hi]

theorem parseChunksize_simulates (hstate : st.parser.httpParseState = .parseChunksize)
    (hsound : st.Sound) : Simulates conn.answer st (finishTurn (httpParseChunksize st)) := by
  have hchunked : st.parser.multipartEnd = false ∧ st.parser.httpBodyType = .chunked := by
    rwa [Sound, hstate] at hsound
  obtain ⟨⟨bodyType, state, multipartEnd, contentLength, chunkSize, chunkOffset⟩, cb, events,
    taken, offers⟩ := st
  obtain rfl : state = .parseChunksize := hstate
  obtain ⟨hend, rfl⟩ : multipartEnd = false ∧ bodyType = .chunked := hchunked
  have hadvance := advance_chunkSize conn.answer taken cb chunkOffset events
  unfold httpParseChunksize
  dsimp only
  by_cases hfind : find (cb.drop chunkOffset) 10 = 0
  · rw [if_pos hfind] at hadvance ⊢
    exact ⟨hsound, fun _ => ⟨.refl, hadvance⟩⟩
  rw [if_neg hfind] at hadvance ⊢
  have hle := find_drop_le hfind
  change Simulates _ _ (finishTurn (if lineNumber cb chunkOffset = 0 then _ else _))
  by_cases hlast : lineNumber cb chunkOffset = 0
  · -- the last chunk: its line stays in the buffer, and is past for the scan
    rw [if_pos hlast] at hadvance ⊢
    refine .of_step hadvance ⟨?_, ?_, fun _ => ?_⟩
    · change chunkOffset + find (cb.drop chunkOffset) 10 ≤ (cb.set _ _).length
      rwa [List.length_set]
    · change 3 * (cb.set _ _).length + 0 < 3 * cb.length + 1
      rw [List.length_set]
      omega
    · change Reaches _ _ (HttpScan.mk (.trailer (taken.length + chunkOffset))
        (taken ++ erase (cb.set _ _) chunkOffset (find (cb.drop chunkOffset) 10)) events)
      rw [erase_set (by omega) (by omega)]
      exact .refl
  · rw [if_neg hlast] at hadvance ⊢
    refine .of_step hadvance ⟨⟨hend, by simp [goOn], by simp [goOn]⟩, ?_, fun hfits => ?_⟩
    · change 3 * (erase (cb.set _ _) chunkOffset (find (cb.drop chunkOffset) 10)).length + 2 <
        3 * cb.length + 1
      rw [erase_set (by omega) (by omega), length_erase hle]
      omega
    · -- here the size must not wrap around, or the chunk ends too early
      have hfit : lineNumber cb chunkOffset + chunkOffset < 2 ^ 64 := hfits rfl hfind hlast
      change Reaches _ _ (HttpScan.mk
        (.chunk (taken.length + (lineNumber cb chunkOffset + chunkOffset) % 2 ^ 64))
        (taken ++ erase (cb.set _ _) chunkOffset (find (cb.drop chunkOffset) 10)) events)
      rw [Nat.mod_eq_of_lt hfit, erase_set (by omega) (by omega),
        show taken.length + (lineNumber cb chunkOffset + chunkOffset) =
          taken.length + chunkOffset + lineNumber cb chunkOffset by omega]
      exact .refl

/-! ## Trailers -/

theorem erase_drop {cb : List UInt8} {pos : Nat} (hpos : pos ≤ cb.length) (past n : Nat) :
    (erase cb pos past).drop (pos + n) = cb.drop (pos + (past + n)) := by
  have hlength : (cb.take pos).length = pos := by
    rw [List.length_take, Nat.min_eq_left hpos]
  calc (erase cb pos past).drop (pos + n)
      = (cb.take pos ++ cb.drop (pos + past)).drop ((cb.take pos).length + n) := by
        rw [hlength]
        rfl
    _ = cb.drop (pos + (past + n)) := by
        rw [List.drop_length_add_append, List.drop_drop, Nat.add_assoc]

theorem erase_take {cb : List UInt8} {pos : Nat} (hpos : pos ≤ cb.length) (past : Nat) :
    (erase cb pos past).take pos = cb.take pos := by
  rw [erase, List.take_append_of_le_length (by rw [List.length_take, Nat.min_eq_left hpos]),
    List.take_take, Nat.min_self]

theorem erase_erase {cb : List UInt8} {pos : Nat} (hpos : pos ≤ cb.length) (past n : Nat) :
    erase (erase cb pos past) pos n = erase cb pos (past + n) := by
  rw [erase, erase_take hpos, erase_drop hpos, erase]

/-- The scan in a trailer of which some lines are past. -/
def trailerScan (front cb : List UInt8) (pos past : Nat) (events : List HttpEvent) : HttpScan :=
  ⟨.trailer (front.length + pos), front ++ erase cb pos past, events⟩

theorem advance_trailer (answer : List HttpEvent → Bool) (front : List UInt8) {cb : List UInt8}
    {pos : Nat} (hpos : pos ≤ cb.length) (past : Nat) (events : List HttpEvent) :
    HttpScan.advance answer (trailerScan front cb pos past events) =
      if find (cb.drop (past + pos)) 10 = 0 then none
      else some (
        if emptyLine ((cb.drop (past + pos)).take (find (cb.drop (past + pos)) 10)) then
          HttpScan.tell answer events (.requestEnd (front ++ cb.take pos)) .requestLine
            (cb.drop (pos + (past + find (cb.drop (past + pos)) 10)))
        else trailerScan front cb pos (past + find (cb.drop (past + pos)) 10) events) := by
  change HttpScan.advanceTrailer answer (front.length + pos) (front ++ erase cb pos past) events = _
  unfold HttpScan.advanceTrailer
  have hline : (erase cb pos past).drop pos = cb.drop (past + pos) := by
    have hdrop := erase_drop hpos past 0
    rwa [Nat.add_zero, Nat.add_zero, Nat.add_comm] at hdrop
  rw [advanceLine_front, hline, length_line, List.take_length_add_append, erase_take hpos,
      Nat.add_assoc,
    List.drop_length_add_append, erase_drop hpos, erase_front, erase_erase hpos]
  rfl

/-- What the loop over the lines of the trailer does. -/
theorem trailerLines_does (answer : List HttpEvent → Bool) (front : List UInt8) {cb : List UInt8}
    {pos past fuel : Nat} (hpos : pos + past ≤ cb.length)
    (hfuel : (cb.drop (past + pos)).length ≤ fuel) (events : List HttpEvent) {size : Nat}
    {ended : Bool} (hlines : trailerLines fuel (cb.drop (past + pos)) past = (size, ended)) :
    pos + size ≤ cb.length ∧
      if ended then past < size ∧
        Reaches (HttpScan.advance answer) (trailerScan front cb pos past events)
          (HttpScan.tell answer events (.requestEnd (front ++ cb.take pos)) .requestLine
            (cb.drop (pos + size)))
      else Reaches (HttpScan.advance answer) (trailerScan front cb pos past events)
          (trailerScan front cb pos size events) ∧
        HttpScan.advance answer (trailerScan front cb pos size events) = none := by
  have hadvance := advance_trailer answer front (by omega : pos ≤ cb.length) past events
  -- on the fuel, which bounds the data behind the lines that are past
  induction fuel generalizing past with
  | zero =>
      obtain ⟨rfl, rfl⟩ := Prod.mk.inj hlines
      refine ⟨hpos, .refl, hadvance.trans (if_pos ?_)⟩
      rw [List.length_eq_zero_iff.mp (Nat.le_zero.mp hfuel)]
      rfl
  | succ fuel ih =>
      rw [trailerLines] at hlines
      have hle := HttpScan.find_le (cb.drop (past + pos)) 10
      rw [List.length_drop] at hfuel hle
      split at hlines
      next hfind =>
        obtain ⟨rfl, rfl⟩ := Prod.mk.inj hlines
        exact ⟨hpos, .refl, hadvance.trans (if_pos hfind)⟩
      next hfind =>
        rw [if_neg hfind] at hadvance
        split at hlines
        next hempty =>
          obtain ⟨rfl, rfl⟩ := Prod.mk.inj hlines
          rw [if_pos hempty] at hadvance
          exact ⟨by omega, by omega, .single hadvance⟩
        next hline =>
          rw [if_neg hline] at hadvance
          rw [List.drop_drop, show past + pos + find (cb.drop (past + pos)) 10 =
            past + find (cb.drop (past + pos)) 10 + pos by omega] at hlines
          obtain ⟨hsize, hrest⟩ := ih (by omega) (by rw [List.length_drop]; omega) hlines
            (advance_trailer answer front (by omega) _ events)
          refine ⟨hsize, ?_⟩
          cases ended with
          | true =>
              obtain ⟨hmore, hreaches⟩ := hrest
              exact ⟨by omega, .head hadvance hreaches⟩
          | false =>
              obtain ⟨hreaches, hstuck⟩ := hrest
              exact ⟨.head hadvance hreaches, hstuck⟩

theorem parseTrailer_simulates (hstate : st.parser.httpParseState = .parseTrailer)
    (hsound : st.Sound) (hcb : st.cb.isEmpty = false) :
    Simulates conn.answer st (finishTurn (httpParseTrailer conn st)) := by
  rw [Sound, hstate] at hsound
  obtain ⟨⟨bodyType, state, multipartEnd, contentLength, chunkSize, chunkOffset⟩, cb, events,
    taken, offers⟩ := st
  obtain rfl : state = .parseTrailer := hstate
  dsimp only at hsound hcb
  unfold httpParseTrailer onHttpRequestEnd
  dsimp only
  rcases hlines : trailerLines cb.length (cb.drop (chunkSize + chunkOffset)) chunkSize with
    ⟨size, ended⟩
  obtain ⟨hsize, hdone⟩ := trailerLines_does conn.answer taken hsound
    (by rw [List.length_drop]; omega) events hlines
  cases ended with
  | true =>
      obtain ⟨hmore, hreaches⟩ := hdone
      refine .of_reaches ?_ fun _ => hreaches
      dsimp only
      rw [if_pos rfl, erase_zero]
      have hpos := List.length_pos_of_ne_nil (by simpa using hcb : cb ≠ [])
      apply does_requestEnd (by simp)
      change 3 * (cb.drop (chunkOffset + size)).length < 3 * cb.length + 0
      rw [List.length_drop]
      omega
  | false => exact ⟨hsize, fun _ => hdone⟩

/-! ## The loop -/

/-- Nothing is to be done with an empty buffer. -/
theorem scan_stuck (answer : List HttpEvent → Bool) (hsound : st.Sound) (hcb : st.cb = []) :
    HttpScan.advance answer st.scan = none := by
  obtain ⟨⟨bodyType, state, multipartEnd, contentLength, chunkSize, chunkOffset⟩, cb, events,
    taken, offers⟩ := st
  obtain rfl : cb = [] := hcb
  have hdrop : ∀ pos, find (([] : List UInt8).drop pos) 10 = 0 := fun pos => by
    rw [List.drop_nil]
    rfl
  cases state with
  | requestLine => rfl
  | headerFields => rfl
  | parseChunksize =>
      exact (advance_chunkSize answer taken [] chunkOffset events).trans (if_pos (hdrop _))
  | finishChunk =>
      exact (advance_chunk answer taken [] chunkOffset events).trans (if_pos (hdrop _))
  | processContent =>
      obtain ⟨-, -, hsize⟩ := hsound
      cases bodyType with
      | length =>
          -- there is still something of the body to come
          have hpos : 0 < chunkSize := hsize rfl
          apply if_neg
          change ¬ taken.length + chunkSize ≤ (taken ++ []).length
          rw [List.append_nil]
          omega
      | chunked =>
          exact (advance_chunk answer taken [] chunkSize events).trans (if_pos (hdrop _))
      | _ => rfl
  | parseTrailer =>
      have hsize : chunkOffset + chunkSize ≤ 0 := hsound
      exact (advance_trailer answer taken (by omega : chunkOffset ≤ ([] : List UInt8).length)
        chunkSize events).trans (if_pos (hdrop _))
  | needMoreData => rfl
  | parseError => rfl

theorem turn_simulates (conn : ICallback) (hsound : st.Sound) :
    Simulates conn.answer st (turn conn st) := by
  unfold turn
  cases hcb : st.cb.isEmpty with
  | true => exact ⟨hsound, fun _ => ⟨.refl, scan_stuck _ hsound (List.isEmpty_iff.mp hcb)⟩⟩
  | false =>
      rw [if_neg (by simp)]
      unfold handle
      cases hstate : st.parser.httpParseState with
      | requestLine => exact requestLine_simulates hstate hsound hcb
      | headerFields => exact headerFields_simulates hstate hsound hcb
      | parseChunksize => exact parseChunksize_simulates hstate hsound
      | processContent => exact processContent_simulates hstate hsound
      | finishChunk => exact finishChunk_simulates hstate hsound
      | parseTrailer => exact parseTrailer_simulates hstate hsound hcb
      | needMoreData => rw [Sound, hstate] at hsound; exact hsound.elim
      | parseError => rw [Sound, hstate] at hsound; exact hsound.elim

/-- Every chunk size that the loop reads fits. -/
def FitsAlong (conn : ICallback) : Nat → HttpConn → Prop
  | 0, _ => True
  | fuel + 1, st =>
      st.Fits ∧
        match turn conn st with
        | .next next => FitsAlong conn fuel next
        | _ => True

instance (st : HttpConn) : Decidable st.Fits :=
  inferInstanceAs (Decidable (_ → _ → _ → _))

instance decidableFitsAlong (conn : ICallback) :
    (fuel : Nat) → (st : HttpConn) → Decidable (FitsAlong conn fuel st)
  | 0, _ => isTrue trivial
  | fuel + 1, st =>
      match hturn : turn conn st with
      | .next next =>
          have : Decidable (FitsAlong conn fuel next) := decidableFitsAlong conn fuel next
          decidable_of_iff (st.Fits ∧ FitsAlong conn fuel next) (by rw [FitsAlong, hturn])
      | .done _ => decidable_of_iff st.Fits (by rw [FitsAlong, hturn, and_true])
      | .failed _ => decidable_of_iff st.Fits (by rw [FitsAlong, hturn, and_true])

/-- Where the scan stands after a call that ended so. -/
def scanAfter (st : HttpConn) (ok : Bool) : HttpScan :=
  if ok then st.scan else ⟨.failed, [], st.events⟩

/-- The loop ends, with the scan stuck where the parser stands. -/
theorem parseLoop_does (conn : ICallback) {fuel : Nat} (hsound : st.Sound)
    (hfuel : turnsLeft st < fuel) :
    ∃ next ok, parseLoop conn fuel st = some (next, ok) ∧ (ok = true → next.Sound) ∧
      (FitsAlong conn fuel st →
        Reaches (HttpScan.advance conn.answer) st.scan (next.scanAfter ok) ∧
          HttpScan.advance conn.answer (next.scanAfter ok) = none) := by
  -- each turn leaves fewer turns, which the fuel covers
  induction fuel generalizing st with
  | zero => exact absurd hfuel (Nat.not_lt_zero _)
  | succ fuel ih =>
      have hturn := turn_simulates conn hsound
      rw [parseLoop, FitsAlong]
      cases hnext : turn conn st with
      | next next =>
          rw [hnext] at hturn
          obtain ⟨hsoundNext, hleft, hreaches⟩ := hturn
          obtain ⟨last, ok, hlast, hsoundLast, hmore⟩ := ih hsoundNext (by omega)
          refine ⟨last, ok, hlast, hsoundLast, fun ⟨hfits, hrest⟩ => ?_⟩
          exact ⟨(hreaches hfits).trans (hmore hrest).1, (hmore hrest).2⟩
      | done next =>
          rw [hnext] at hturn
          exact ⟨next, true, rfl, fun _ => hturn.1, fun hfits => hturn.2 hfits.1⟩
      | failed next =>
          rw [hnext] at hturn
          exact ⟨next, false, rfl, nofun, fun hfits => ⟨hturn hfits.1, rfl⟩⟩

/-- More data in the buffer is more data for the scan. -/
theorem scan_append (hsound : st.Sound) (more : List UInt8) :
    scan { st with cb := st.cb ++ more } = st.scan.eat more ∧
      Sound { st with cb := st.cb ++ more } := by
  obtain ⟨⟨bodyType, state, multipartEnd, contentLength, chunkSize, chunkOffset⟩, cb, events,
    taken, offers⟩ := st
  cases state with
  | requestLine => exact ⟨rfl, hsound⟩
  | headerFields => exact ⟨rfl, hsound⟩
  | processContent =>
      refine ⟨?_, hsound⟩
      cases bodyType <;> exact congrArg (HttpScan.mk _ · _) (List.append_assoc _ _ _).symm
  | finishChunk => exact ⟨congrArg (HttpScan.mk _ · _) (List.append_assoc _ _ _).symm, hsound⟩
  | parseChunksize => exact ⟨congrArg (HttpScan.mk _ · _) (List.append_assoc _ _ _).symm, hsound⟩
  | parseTrailer =>
      have hsize : chunkOffset + chunkSize ≤ cb.length := hsound
      refine ⟨congrArg (HttpScan.mk _ · _) ?_, ?_⟩
      · dsimp only
        rw [HttpScan.erase_append hsize]
        exact (List.append_assoc _ _ _).symm
      · change chunkOffset + chunkSize ≤ (cb ++ more).length
        rw [List.length_append]
        omega
  | needMoreData => exact hsound.elim
  | parseError => exact hsound.elim

end HttpConn

namespace HttpSession

/-- Every chunk size that the call for the chunk reads fits. -/
def Fits (conn : ICallback) (session : HttpSession) (chunk : List UInt8) : Prop :=
  session.failed = false →
    HttpConn.FitsAlong conn (turnsLeft { session.http with cb := session.http.cb ++ chunk } + 1)
      { session.http with cb := session.http.cb ++ chunk }

instance (conn : ICallback) (session : HttpSession) (chunk : List UInt8) :
    Decidable (session.Fits conn chunk) :=
  inferInstanceAs (Decidable (_ → _))

/-- Where the scan stands between the calls. -/
def scan (session : HttpSession) : HttpScan := session.http.scanAfter !session.failed

def Sound (session : HttpSession) : Prop := session.failed = false → session.http.Sound

variable {session : HttpSession}

theorem scan_events (session : HttpSession) : session.scan.events = session.http.events := by
  obtain ⟨http, failed⟩ := session
  cases failed with
  | true => rfl
  | false =>
      change http.scan.events = http.events
      unfold HttpConn.scan
      split
      case h_3 => split <;> rfl
      all_goals rfl

theorem scan_failed (hsound : session.Sound) :
    session.scan.phase = .failed ↔ session.failed = true := by
  obtain ⟨http, failed⟩ := session
  cases failed with
  | true => exact iff_of_true rfl rfl
  | false =>
      have hhttp := hsound rfl
      refine iff_of_false ?_ (by simp)
      change http.scan.phase ≠ .failed
      unfold HttpConn.scan
      unfold HttpConn.Sound at hhttp
      cases hstate : http.parser.httpParseState with
      | processContent => dsimp only; split <;> simp
      | needMoreData => rw [hstate] at hhttp; exact hhttp.elim
      | parseError => rw [hstate] at hhttp; exact hhttp.elim
      | _ => simp

theorem receive_does (conn : ICallback) (hsound : session.Sound) (chunk : List UInt8) :
    ∃ next, receive conn session chunk = some next ∧ next.Sound ∧
      (session.Fits conn chunk →
        Reaches (HttpScan.advance conn.answer) (session.scan.eat chunk) next.scan ∧
          HttpScan.advance conn.answer next.scan = none) := by
  obtain ⟨http, failed⟩ := session
  cases failed with
  | true => exact ⟨⟨http, true⟩, rfl, hsound, fun _ => ⟨.refl, rfl⟩⟩
  | false =>
      obtain ⟨hscan, hfed⟩ := HttpConn.scan_append (hsound rfl) chunk
      obtain ⟨next, ok, hparse, hsoundNext, hdone⟩ :=
        HttpConn.parseLoop_does conn hfed (Nat.lt_succ_self _)
      refine ⟨⟨next, !ok⟩, ?_, fun hgoes => hsoundNext (by simpa using hgoes), fun hfits => ?_⟩
      · exact Option.bind_eq_some_iff.mpr ⟨(next, ok), hparse, rfl⟩
      · have hnext : scan ⟨next, !ok⟩ = next.scanAfter ok := by
          rw [scan, Bool.not_not]
        rw [hnext]
        change Reaches _ (http.scan.eat chunk) _ ∧ _
        rw [← hscan]
        exact hdone (hfits rfl)

theorem new_sound : HttpSession.new.Sound := fun _ => rfl

theorem run_total (conn : ICallback) (hsound : session.Sound) (chunks : List (List UInt8)) :
    ∃ last, run (receive conn) session chunks = some last ∧ last.Sound := by
  induction chunks generalizing session with
  | nil => exact ⟨session, rfl, hsound⟩
  | cons chunk rest ih =>
      obtain ⟨next, hnext, hsoundNext, -⟩ := receive_does conn hsound chunk
      obtain ⟨last, hlast, hsoundLast⟩ := ih hsoundNext
      exact ⟨last, by rw [run_cons, hnext, Option.bind_some, hlast], hsoundLast⟩

theorem eatAll_start (chunks : List (List UInt8)) (data : List UInt8) (events : List HttpEvent) :
    chunks.foldl HttpScan.eat ⟨.requestLine, data, events⟩ =
      ⟨.requestLine, data ++ chunks.flatten, events⟩ := by
  induction chunks generalizing data with
  | nil => rw [List.foldl_nil, List.flatten_nil, List.append_nil]
  | cons chunk rest ih =>
      apply (ih (data ++ chunk)).trans
      rw [List.flatten_cons, List.append_assoc]

/-- A session comes to what the scan makes of the stream, and is not stuck before. -/
theorem run_scans (conn : ICallback) (chunks : List (List UInt8)) :
    ∃ last, run (receive conn) .new chunks = some last ∧ last.Sound ∧
      (Along (receive conn) (Fits conn) .new chunks →
        last.scan ∈ eval (HttpScan.advance conn.answer) (HttpScan.start chunks.flatten)) := by
  obtain ⟨last, hlast, hsound⟩ := run_total conn new_sound chunks
  refine ⟨last, hlast, hsound, fun hfits => ?_⟩
  have hstep : ∀ (session : HttpSession) (chunk : List UInt8) (next : HttpSession),
      session.Sound ∧ HttpScan.advance conn.answer session.scan = none →
        session.Fits conn chunk → receive conn session chunk = some next →
          (next.Sound ∧ HttpScan.advance conn.answer next.scan = none) ∧
            Reaches (HttpScan.advance conn.answer) (session.scan.eat chunk) next.scan := by
    intro session chunk next hgood hfit hnext
    obtain ⟨other, hother, hsoundNext, hdone⟩ := receive_does conn hgood.1 chunk
    cases Option.some.inj (hother.symm.trans hnext)
    exact ⟨⟨hsoundNext, (hdone hfit).2⟩, (hdone hfit).1⟩
  obtain ⟨hgood, hreaches⟩ :=
    reaches_of_run HttpScan.extends_advance hstep ⟨new_sound, rfl⟩ hfits hlast
  refine mem_eval.mpr ⟨?_, hgood.2⟩
  have hstart := eatAll_start chunks [] []
  change Reaches _ (chunks.foldl HttpScan.eat ⟨.requestLine, [], []⟩) _ at hreaches
  rwa [hstart] at hreaches

/-- However a stream is cut and whatever is taken of its bodies when they are offered, the
connection is told the same as when the stream comes at once, and parsing fails alike: it
is told what the scan finds in the stream, the whole of each body included. -/
theorem parse_cut_independent (answer : List HttpEvent → Bool) (consumption other : Consumption)
    (chunks : List (List UInt8))
    (hcut : Along (receive ⟨answer, consumption⟩) (Fits ⟨answer, consumption⟩) .new chunks)
    (hwhole : Along (receive ⟨answer, other⟩) (Fits ⟨answer, other⟩) .new [chunks.flatten]) :
    ∃ cut whole, run (receive ⟨answer, consumption⟩) .new chunks = some cut ∧
      run (receive ⟨answer, other⟩) .new [chunks.flatten] = some whole ∧
        cut.http.events = whole.http.events ∧ cut.failed = whole.failed ∧
          ∃ final ∈ eval (HttpScan.advance answer) (HttpScan.start chunks.flatten),
            cut.http.events = final.events := by
  obtain ⟨cut, hcutRun, hcutSound, hcutScan⟩ := run_scans ⟨answer, consumption⟩ chunks
  obtain ⟨whole, hwholeRun, hwholeSound, hwholeScan⟩ :=
    run_scans ⟨answer, other⟩ [chunks.flatten]
  have hfinal := hcutScan hcut
  have hother := hwholeScan hwhole
  rw [List.flatten_singleton] at hother
  have hsame : cut.scan = whole.scan := Part.mem_unique hfinal hother
  refine ⟨cut, whole, hcutRun, hwholeRun, ?_, ?_, cut.scan, hfinal, (scan_events cut).symm⟩
  · rw [← scan_events, ← scan_events, hsame]
  · rw [Bool.eq_iff_iff, ← scan_failed hcutSound, ← scan_failed hwholeSound, hsame]

/-- A connection that likes everything, and takes nothing of the first offer. -/
def lateTaker : ICallback :=
  ⟨fun _ => true, fun _ offers _ => if offers.isEmpty then 0 else Fin.last _⟩

/-- A request up to its first chunk, without the end of its line. -/
def firstChunk : List UInt8 := literal "POST /\nTransfer-Encoding: chunked\n\n1\r\na"

theorem parse_cut_independent_twoChunks :
    ∃ cut whole,
      run (receive lateTaker) .new [firstChunk, literal "\r\n2\r\nbc\r\n0\r\n\r\n"] = some cut ∧
      run (receive lateTaker) .new
        [[firstChunk, literal "\r\n2\r\nbc\r\n0\r\n\r\n"].flatten] = some whole ∧
        cut.http.events = whole.http.events ∧ cut.failed = whole.failed ∧
          ∃ final ∈ eval (HttpScan.advance lateTaker.answer)
            (HttpScan.start [firstChunk, literal "\r\n2\r\nbc\r\n0\r\n\r\n"].flatten),
            cut.http.events = final.events :=
  parse_cut_independent lateTaker.answer lateTaker.onHttpContent lateTaker.onHttpContent _
    (by decide +kernel) (by decide +kernel)

/-- A size that is one short of `2 ^ 64` wraps around when a byte was left, and the request
ends; it does not when the byte was offered again and taken. -/
theorem cut_dependent_when_wrapped :
    ¬ ∃ cut whole,
      run (receive lateTaker) .new
        [firstChunk, literal "\r\nFFFFFFFFFFFFFFFF\r\nbc\r\n0\r\n\r\n"] = some cut ∧
      run (receive lateTaker) .new
        [[firstChunk, literal "\r\nFFFFFFFFFFFFFFFF\r\nbc\r\n0\r\n\r\n"].flatten] = some whole ∧
        cut.http.events = whole.http.events ∧ cut.failed = whole.failed := by
  rintro ⟨cut, whole, hcut, hwhole, hevents, -⟩
  have hdiffer : (run (receive lateTaker) .new
      [firstChunk, literal "\r\nFFFFFFFFFFFFFFFF\r\nbc\r\n0\r\n\r\n"]).map (·.http.events) ≠
        (run (receive lateTaker) .new
          [[firstChunk, literal "\r\nFFFFFFFFFFFFFFFF\r\nbc\r\n0\r\n\r\n"].flatten]).map
            (·.http.events) := by
    decide +kernel
  rw [hcut, hwhole, Option.map_some, Option.map_some, hevents] at hdiffer
  exact hdiffer rfl

end HttpSession

end ServiceFrame
