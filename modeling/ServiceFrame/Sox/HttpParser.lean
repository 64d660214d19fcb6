import Mathlib.Algebra.Group.Nat.Defs
import Mathlib.Algebra.Group.Int.Defs
import Mathlib.Data.List.Basic
import ServiceFrame.Foundation.Run

/-! # Parsing HTTP

`THttpParser` of `core/sox/HttpParser.h`: requests are parsed out of the buffer of a
connection, which is told of what was found. Of the body it is offered what has come, and
it takes as much of it as it likes; the rest stays in the buffer. The characters are those
of the C locale.
-/

namespace ServiceFrame

open Foundation

/-! ## Characters and numbers -/

def isspace (c : UInt8) : Bool := c = 32 || (9 ≤ c && c ≤ 13)

def tolower (c : UInt8) : UInt8 := if 65 ≤ c && c ≤ 90 then c + 32 else c

/-- The bytes of a literal. -/
def literal (s : String) : List UInt8 := s.toList.map fun c => c.toNat.toUInt8

/-- The string that a pointer to these bytes and a `\0` behind them stands for. -/
def cString (data : List UInt8) : List UInt8 := data.takeWhile fun c => c ≠ 0

/-- `strcasecmp` finds no difference. -/
def sameCase (s1 s2 : List UInt8) : Bool := s1.map tolower = s2.map tolower

/-- `strncasecmp` finds no difference, the length of `s2` being the bound. -/
def startsCase (s1 s2 : List UInt8) : Bool := sameCase (s1.take s2.length) s2

def digit (base : Nat) (c : UInt8) : Option Nat :=
  let value :=
    if 48 ≤ c && c ≤ 57 then c.toNat - 48
    else if 97 ≤ c && c ≤ 122 then c.toNat - 87
    else if 65 ≤ c && c ≤ 90 then c.toNat - 55
    else base
  if value < base then some value else none

def digits (base : Nat) : Nat → List UInt8 → Nat
  | n, [] => n
  | n, c :: rest =>
      match digit base c with
      | some value => digits base (n * base + value) rest
      | none => n

/-- Whether there is a minus, and what is behind the sign. -/
def sign : List UInt8 → Bool × List UInt8
  | 45 :: rest => (true, rest)
  | 43 :: rest => (false, rest)
  | rest => (false, rest)

/-- `(int) strtol(value, NULL, 10)`. -/
def atoi (value : List UInt8) : Int :=
  let (negative, number) := sign (value.dropWhile isspace)
  let n : Int := digits 10 0 number
  let long := if negative then max (-n) (-2 ^ 63) else min n (2 ^ 63 - 1)
  long.bmod (2 ^ 32)

/-- `strtoul(data, &endptr, 16)`. -/
def strtoul (data : List UInt8) : Nat :=
  let (negative, number) := sign (data.dropWhile isspace)
  let number :=
    match number with
    | 48 :: x :: rest => if tolower x = 120 then rest else number
    | _ => number
  let n := digits 16 0 number
  if 2 ^ 64 ≤ n then 2 ^ 64 - 1
  else if negative then (2 ^ 64 - n) % 2 ^ 64
  else n

/-! ## Searching -/

/-- The length up to and with the first `c`; `0` if there is none. -/
def find (s : List UInt8) (c : UInt8) : Nat :=
  match s.findIdx? (fun other => other = c) with
  | some e => e + 1
  | none => 0

def headersEndState : Nat → UInt8 → Nat
  | 0, c => if c = 10 then 1 else 0
  | 1, c => if c = 13 then 2 else if c = 10 then 3 else 0
  | 2, c => if c = 13 then 2 else if c = 10 then 3 else 0
  | state, _ => state

/-- The loop of `headersEnd` from the state and the position on. -/
def headersEndFrom : List UInt8 → Nat → Nat → Nat
  | [], state, e => if state = 3 then e else 0
  | c :: rest, state, e =>
      if state = 3 then e else headersEndFrom rest (headersEndState state c) (e + 1)

def headersEnd (mime : List UInt8) : Nat := headersEndFrom mime 0 0

/-- `erase` of the buffer. -/
def erase (cb : List UInt8) (pos n : Nat) : List UInt8 := cb.take pos ++ cb.drop (pos + n)

/-- The lines through which `find` steps, the newline of each included. -/
def lines : List UInt8 → List (List UInt8)
  | [] => []
  | c :: rest =>
      if c = 10 then [c] :: lines rest
      else
        match lines rest with
        | [] => [[c]]
        | line :: more => (c :: line) :: more

/-! ## The parser and its connection -/

inductive BodyType where
  | noContent
  | chunked
  | length
  | multipart
  | connectionClose
deriving DecidableEq

def BodyType.lengthDetectable : BodyType → Bool
  | .noContent | .chunked | .length => true
  | .multipart | .connectionClose => false

/-- `needMoreData` and `parseError` are answers only. -/
inductive HttpState where
  | requestLine
  | headerFields
  | parseChunksize
  | processContent
  | finishChunk
  | parseTrailer
  | needMoreData
  | parseError
deriving DecidableEq

structure THttpParser where
  httpBodyType : BodyType
  httpParseState : HttpState
  multipartEnd : Bool
  contentLength : Nat
  chunkSize : Nat
  chunkOffset : Nat

/-- The state that `reset` makes. -/
def THttpParser.new : THttpParser := ⟨.noContent, .requestLine, false, 0, 0, 0⟩

/-- What a connection is told. With the end of the headers goes what `body_type` and
`content_length` answer, with the end of a request its body: the bytes that were taken
out of it and those that were handed over in the end. -/
inductive HttpEvent where
  | requestLine (data : List UInt8)
  | unknownField (name value : List UInt8)
  | headersEnd (bodyType : BodyType) (contentLength : Nat)
  | requestEnd (body : List UInt8)
deriving DecidableEq

/-- A body as it was offered, each time with the number of the bytes that were taken. -/
abbrev Offers := List (List UInt8 × Nat)

/-- How much is taken of what is offered, by what the connection was told and how the
bodies were offered before. -/
abbrev Consumption := List HttpEvent → Offers → (data : List UInt8) → Fin (data.length + 1)

/-- A connection answers by what it was told, the present call last. -/
structure ICallback where
  answer : List HttpEvent → Bool
  onHttpContent : Consumption

structure HttpConn where
  parser : THttpParser
  cb : List UInt8
  events : List HttpEvent
  taken : List UInt8
  offers : Offers

def HttpConn.new : HttpConn := ⟨.new, [], [], [], []⟩

/-! ## The header fields -/

structure HeaderFields where
  httpBodyType : BodyType
  contentLength : Nat
  events : List HttpEvent

section Fields

variable (answer : List HttpEvent → Bool)

def onHttpUnknownField (fields : HeaderFields) (name value : List UInt8) : HeaderFields × Bool :=
  let events := fields.events ++ [.unknownField name value]
  ({ fields with events }, answer events)

/-- `parse_field`, whose `\0` end the name and the value. -/
def parseField (fields : HeaderFields) (data : List UInt8) : HeaderFields × Bool :=
  let n := find data 58
  if n = 0 then (fields, true)
  else
    let name := cString (data.take (n - 1))
    let value := (cString ((data.take (data.length - 1)).drop n)).dropWhile isspace
    if sameCase name (literal "content-length") then
      ({ fields with
        httpBodyType := if fields.httpBodyType ≠ .chunked then .length else fields.httpBodyType
        contentLength := (atoi value % 2 ^ 64).toNat }, true)
    else if sameCase name (literal "transfer-encoding") then
      if startsCase value (literal "chunked") then
        ({ fields with httpBodyType := .chunked }, true)
      else (fields, false)
    else if sameCase name (literal "connection") then
      onHttpUnknownField answer
        (if fields.httpBodyType = .noContent ∧ startsCase value (literal "close")
          then { fields with httpBodyType := .connectionClose } else fields) name value
    else if sameCase name (literal "content-type") then
      onHttpUnknownField answer
        (if (fields.httpBodyType = .noContent ∨ fields.httpBodyType = .connectionClose) ∧
            startsCase value (literal "multipart")
          then { fields with httpBodyType := .multipart } else fields) name value
    else onHttpUnknownField answer fields name value

/-- The loop over the lines behind the first one of a field: one that starts with a space
belongs to the field. -/
def parseLines : HeaderFields → List UInt8 → List (List UInt8) → HeaderFields × Bool
  | fields, field, [] => parseField answer fields field
  | fields, field, line :: rest =>
      if isspace (line.headD 0) then parseLines fields (field ++ line) rest
      else
        let (fields, ok) := parseField answer fields field
        if ok then parseLines fields line rest else (fields, false)

def parseHeaderFields (fields : HeaderFields) (header : List UInt8) : HeaderFields × Bool :=
  match lines (header.dropWhile isspace) with
  | [] => (fields, true)
  | field :: rest => parseLines answer fields field rest

end Fields

/-! ## The states of the parser -/

section Parsing

variable (conn : ICallback)

def onHttpRequestEnd (st : HttpConn) (data : List UInt8) : HttpConn × Bool :=
  let events := st.events ++ [.requestEnd (st.taken ++ data)]
  ({ st with events, taken := [] }, conn.answer events)

def httpRequestLine (st : HttpConn) : HttpConn × HttpState :=
  let n := find st.cb 10
  if n = 0 then (st, .needMoreData)
  else
    let line := (st.cb.take n).dropWhile isspace
    let st := { st with cb := erase st.cb 0 (n - line.length) }
    if st.cb.isEmpty then (st, .needMoreData)
    -- a line of space only is skipped, and another one looked for
    else if line.isEmpty then (st, .requestLine)
    else
      let st := { st with events := st.events ++ [.requestLine line], taken := [] }
      if conn.answer st.events then
        -- the newline stays, for the headers to start with one
        ({ st with cb := (erase st.cb 0 (line.length - 1)).set 0 10 }, .headerFields)
      else (st, .parseError)

/-- A body of a known length, or none. -/
def startContent (st : HttpConn) : HttpConn × HttpState :=
  if st.parser.contentLength = 0 then
    let (st, keep) := onHttpRequestEnd conn st []
    (st, if keep then .requestLine else .parseError)
  else
    ({ st with parser := { st.parser with chunkSize := st.parser.contentLength } },
      .processContent)

/-- What comes after the headers. -/
def startBody (st : HttpConn) : HttpConn × HttpState :=
  match st.parser.httpBodyType with
  | .chunked => (st, .parseChunksize)
  | .noContent => startContent conn st
  | .length => startContent conn st
  | .multipart => (st, .processContent)
  | .connectionClose => (st, .processContent)

def httpHeaderFields (st : HttpConn) : HttpConn × HttpState :=
  let n := headersEnd st.cb
  if n = 0 then (st, .needMoreData)
  else
    let (fields, ok) := parseHeaderFields conn.answer
      ⟨st.parser.httpBodyType, st.parser.contentLength, st.events⟩ (st.cb.take n)
    let st := { st with
      parser := { st.parser with
        httpBodyType := fields.httpBodyType
        contentLength := fields.contentLength }
      events := fields.events }
    if ok then
      let st := { st with
        cb := erase st.cb 0 n
        events := st.events ++ [.headersEnd fields.httpBodyType fields.contentLength] }
      if conn.answer st.events then startBody conn st else (st, .parseError)
    else (st, .parseError)

/-- What has come of the body. -/
def offered (st : HttpConn) : List UInt8 :=
  if st.parser.httpBodyType.lengthDetectable ∧ st.parser.chunkSize < st.cb.length then
    st.cb.take st.parser.chunkSize
  else st.cb

/-- The call of `onHttpContent`. -/
def offerContent (st : HttpConn) : HttpConn :=
  let parser := st.parser
  let data := offered st
  let n := (conn.onHttpContent st.events st.offers data).val
  { st with
    parser := { parser with
      chunkSize :=
        if parser.httpBodyType.lengthDetectable then parser.chunkSize - n else parser.chunkSize }
    cb := erase st.cb 0 n
    taken := st.taken ++ data.take n
    offers := st.offers ++ [(data, n)] }

/-- The check for the end of a chunk. -/
def checkChunk (st : HttpConn) : HttpConn × HttpState :=
  if st.parser.chunkSize = 0 ∨ st.parser.chunkSize < st.cb.length then
    -- what is left of the chunk stays in front of the line behind it
    ({ st with parser := { st.parser with chunkOffset := st.parser.chunkSize, chunkSize := 0 } },
      .finishChunk)
  else (st, .needMoreData)

/-- The check for the end of the content. -/
def checkContent (st : HttpConn) : HttpConn × HttpState :=
  let size := st.parser.chunkSize
  if size ≤ st.cb.length then
    let (st, keep) := onHttpRequestEnd conn st (st.cb.take size)
    ({ st with cb := erase st.cb 0 size }, if keep then .requestLine else .parseError)
  else (st, .needMoreData)

def httpProcessContent (st : HttpConn) : HttpConn × HttpState :=
  let st := offerContent conn st
  match st.parser.httpBodyType with
  | .chunked => checkChunk st
  | .length => checkContent conn st
  | .multipart => (st, if st.parser.multipartEnd then .requestLine else .needMoreData)
  | .connectionClose => (st, .needMoreData)
  | .noContent => (st, .needMoreData)

/-- The number on the line at a place, which ends at the newline. -/
def lineNumber (cb : List UInt8) (pos : Nat) : Nat :=
  strtoul (cString ((cb.drop pos).take (find (cb.drop pos) 10 - 1)))

def chunkSizeLine (st : HttpConn) : Nat := lineNumber st.cb st.parser.chunkOffset

def httpParseChunksize (st : HttpConn) : HttpConn × HttpState :=
  let offset := st.parser.chunkOffset
  let n := find (st.cb.drop offset) 10
  if n = 0 then (st, .needMoreData)
  else
    let chunkSize := chunkSizeLine st
    let cb := st.cb.set (offset + n - 1) 0
    if chunkSize = 0 then
      -- the line of the last chunk stays, for the trailer to begin with
      ({ st with cb, parser := { st.parser with chunkSize := n } }, .parseTrailer)
    else
      ({ st with
        cb := erase cb offset n
        parser := { st.parser with
          -- what was left of the chunk before is offered with this one
          chunkSize := (chunkSize + offset) % 2 ^ 64
          chunkOffset := 0 } }, .processContent)

/-- An empty line: `\n` or `\r\n`. -/
def emptyLine (line : List UInt8) : Bool := line.length = 1 || line.length = 2 && line.headD 0 = 13

/-- The loop over the lines of the trailer: the size with them, and if an empty line ended
it. A line has a byte at least, so that their number bounds the loop. -/
def trailerLines : Nat → List UInt8 → Nat → Nat × Bool
  | 0, _, chunkSize => (chunkSize, false)
  | fuel + 1, line, chunkSize =>
      let n := find line 10
      if n = 0 then (chunkSize, false)
      else if emptyLine (line.take n) then (chunkSize + n, true)
      else trailerLines fuel (line.drop n) (chunkSize + n)

def httpParseTrailer (st : HttpConn) : HttpConn × HttpState :=
  let offset := st.parser.chunkOffset
  let (chunkSize, ended) :=
    trailerLines st.cb.length (st.cb.drop (st.parser.chunkSize + offset)) st.parser.chunkSize
  let st := { st with parser := { st.parser with chunkSize } }
  if ended then
    let (st, keep) := onHttpRequestEnd conn st (st.cb.take offset)
    ({ st with cb := erase st.cb 0 (offset + chunkSize) },
      if keep then .requestLine else .parseError)
  else (st, .needMoreData)

def httpFinishChunk (st : HttpConn) : HttpConn × HttpState :=
  let offset := st.parser.chunkOffset
  let n := find (st.cb.drop offset) 10
  if n = 0 then (st, .needMoreData)
  else ({ st with cb := erase st.cb offset n }, .parseChunksize)

/-! ## The loop -/

def handle (st : HttpConn) : HttpConn × HttpState :=
  match st.parser.httpParseState with
  | .processContent => httpProcessContent conn st
  | .parseChunksize => httpParseChunksize st
  | .finishChunk => httpFinishChunk st
  | .requestLine => httpRequestLine conn st
  | .headerFields => httpHeaderFields conn st
  | .parseTrailer => httpParseTrailer conn st
  | .needMoreData => (st, .parseError)
  | .parseError => (st, .parseError)

/-- How a turn of the loop ends: the next one follows, or the call returns `0` or `-1`. -/
inductive Turn where
  | next (st : HttpConn)
  | done (st : HttpConn)
  | failed (st : HttpConn)

/-- The state that a handler answered becomes that of the parser, which is reset for
another request. -/
def goOn (st : HttpConn) (n : HttpState) : HttpConn :=
  if n ≠ .requestLine then { st with parser := { st.parser with httpParseState := n } }
  else if n ≠ st.parser.httpParseState then { st with parser := .new }
  else st

def finishTurn : HttpConn × HttpState → Turn
  | (st, .parseError) => .failed st
  | (st, .needMoreData) => .done st
  | (st, n) => .next (goOn st n)

/-- A turn of the loop of `parse`. -/
def turn (st : HttpConn) : Turn :=
  if st.cb.isEmpty then .done st else finishTurn (handle conn st)

def parseLoop : Nat → HttpConn → Option (HttpConn × Bool)
  | 0, _ => none
  | fuel + 1, st =>
      match turn conn st with
      | .next st => parseLoop fuel st
      | .done st => some (st, true)
      | .failed st => some (st, false)

/-- Bounds the turns that are left: each erases a byte or goes to an earlier state. -/
def turnsLeft (st : HttpConn) : Nat :=
  3 * st.cb.length +
    match st.parser.httpParseState with
    | .processContent => 2
    | .finishChunk | .parseChunksize => 1
    | _ => 0

/-- `parse`, and whether it returns `0`. -/
def parse (st : HttpConn) : Option (HttpConn × Bool) := parseLoop conn (turnsLeft st + 1) st

/-! ## Sessions -/

/-- A connection that is fed what comes in, until `parse` fails. -/
structure HttpSession where
  http : HttpConn
  failed : Bool

def HttpSession.new : HttpSession := ⟨.new, false⟩

def receive (session : HttpSession) (chunk : List UInt8) : Option HttpSession :=
  if session.failed then some session
  else do
    let (http, ok) ← parse conn { session.http with cb := session.http.cb ++ chunk }
    some ⟨http, !ok⟩

end Parsing

end ServiceFrame
