import ServiceFrame.Foundation.Incremental
import ServiceFrame.Sox.HttpParser

/-! # Scanning an HTTP stream

What a stream says, told without a buffer: the scan takes a line, the headers or a whole
body from the front of what has come, and keeps a body that comes in chunks in front until
its end. No step of it is changed by what comes later.
-/

namespace ServiceFrame

open Foundation

/-- Where a scan stands. A size is that of the body so far, the chunk included that has
begun. -/
inductive ScanPhase where
  | requestLine
  | headerFields
  | content (size : Nat)
  | chunk (size : Nat)
  | chunkSize (size : Nat)
  | trailer (size : Nat)
  | endless
  | failed

structure HttpScan where
  phase : ScanPhase
  data : List UInt8
  events : List HttpEvent

namespace HttpScan

def start (stream : List UInt8) : HttpScan := ⟨.requestLine, stream, []⟩

/-- What comes after a failure is not looked at. -/
def eat (scan : HttpScan) (more : List UInt8) : HttpScan :=
  match scan.phase with
  | .failed => scan
  | _ => { scan with data := scan.data ++ more }

/-- The phase after the headers. -/
def bodyPhase (fields : HeaderFields) : ScanPhase :=
  match fields.httpBodyType with
  | .chunked => .chunkSize 0
  | .noContent | .length => .content fields.contentLength
  | .multipart | .connectionClose => .endless

section Advance

variable (answer : List HttpEvent → Bool)

/-- The connection is told of an event, and goes on or gives up. -/
def tell (events : List HttpEvent) (event : HttpEvent) (phase : ScanPhase) (data : List UInt8) :
    HttpScan :=
  if answer (events ++ [event]) then ⟨phase, data, events ++ [event]⟩
  else ⟨.failed, [], events ++ [event]⟩

def advanceRequestLine (data : List UInt8) (events : List HttpEvent) : Option HttpScan :=
  let n := find data 10
  if n = 0 then none
  else
    let line := (data.take n).dropWhile isspace
    if line.isEmpty then some ⟨.requestLine, data.drop n, events⟩
    else some (tell answer events (.requestLine line) .headerFields (data.drop (n - 1)))

def advanceHeaderFields (data : List UInt8) (events : List HttpEvent) : Option HttpScan :=
  let n := headersEnd data
  if n = 0 then none
  else
    let (fields, ok) := parseHeaderFields answer ⟨.noContent, 0, events⟩ (data.take n)
    if ok then
      some (tell answer fields.events (.headersEnd fields.httpBodyType fields.contentLength)
        (bodyPhase fields) (data.drop n))
    else some ⟨.failed, [], fields.events⟩

/-- A line behind the body so far goes, and says how to go on. -/
def advanceLine (data : List UInt8) (size : Nat) (next : List UInt8 → HttpScan) :
    Option HttpScan :=
  let n := find (data.drop size) 10
  if n = 0 then none else some (next ((data.drop size).take n))

def advanceContent (size : Nat) (data : List UInt8) (events : List HttpEvent) : Option HttpScan :=
  if size ≤ data.length then
    some (tell answer events (.requestEnd (data.take size)) .requestLine (data.drop size))
  else none

def advanceChunk (size : Nat) (data : List UInt8) (events : List HttpEvent) : Option HttpScan :=
  advanceLine data size fun line => ⟨.chunkSize size, erase data size line.length, events⟩

def advanceChunkSize (size : Nat) (data : List UInt8) (events : List HttpEvent) :
    Option HttpScan :=
  advanceLine data size fun line =>
    let chunkSize := strtoul (cString line.dropLast)
    ⟨if chunkSize = 0 then .trailer size else .chunk (size + chunkSize),
      erase data size line.length, events⟩

def advanceTrailer (size : Nat) (data : List UInt8) (events : List HttpEvent) : Option HttpScan :=
  advanceLine data size fun line =>
    if emptyLine line then
      tell answer events (.requestEnd (data.take size)) .requestLine
        (data.drop (size + line.length))
    else ⟨.trailer size, erase data size line.length, events⟩

def advance (scan : HttpScan) : Option HttpScan :=
  match scan.phase with
  | .requestLine => advanceRequestLine answer scan.data scan.events
  | .headerFields => advanceHeaderFields answer scan.data scan.events
  | .content size => advanceContent answer size scan.data scan.events
  | .chunk size => advanceChunk size scan.data scan.events
  | .chunkSize size => advanceChunkSize size scan.data scan.events
  | .trailer size => advanceTrailer answer size scan.data scan.events
  | .endless => none
  | .failed => none

end Advance

theorem advance_headerFields {answer : List HttpEvent → Bool} {data : List UInt8}
    {events : List HttpEvent} (hend : headersEnd data ≠ 0) {fields : HeaderFields} {ok : Bool}
    (hparse : parseHeaderFields answer ⟨.noContent, 0, events⟩ (data.take (headersEnd data)) =
      (fields, ok)) :
    advance answer ⟨.headerFields, data, events⟩ = some (
      if ok then
        tell answer fields.events (.headersEnd fields.httpBodyType fields.contentLength)
          (bodyPhase fields) (data.drop (headersEnd data))
      else ⟨.failed, [], fields.events⟩) := by
  change advanceHeaderFields answer data events = _
  unfold advanceHeaderFields
  dsimp only
  rw [if_neg hend, hparse]
  cases ok with
  | true => rfl
  | false => rfl

theorem advance_content {answer : List HttpEvent → Bool} {size : Nat} {data : List UInt8}
    {events : List HttpEvent} (hsize : size ≤ data.length) :
    advance answer ⟨.content size, data, events⟩ =
      some (tell answer events (.requestEnd (data.take size)) .requestLine (data.drop size)) :=
  if_pos hsize

/-! ## More data -/

theorem find_le (s : List UInt8) (c : UInt8) : find s c ≤ s.length := by
  unfold find
  split
  next e he =>
    obtain ⟨hlt, -⟩ := List.findIdx?_eq_some_iff_getElem.mp he
    exact hlt
  next => exact Nat.zero_le _

theorem find_append {s : List UInt8} {c : UInt8} (hfind : find s c ≠ 0) (more : List UInt8) :
    find (s ++ more) c = find s c := by
  unfold find at hfind ⊢
  rw [List.findIdx?_append]
  cases he : s.findIdx? fun other => other = c with
  | none => simp [he] at hfind
  | some e => rfl

theorem headersEndFrom_le (mime : List UInt8) (state e : Nat) :
    headersEndFrom mime state e ≤ e + mime.length := by
  induction mime generalizing state e with
  | nil =>
      rw [headersEndFrom]
      split
      · exact Nat.le_refl _
      · exact Nat.zero_le _
  | cons c rest ih =>
      rw [headersEndFrom]
      split
      · exact Nat.le_add_right _ _
      · exact (ih (headersEndState state c) (e + 1)).trans (by rw [List.length_cons]; omega)

theorem headersEndFrom_append {mime : List UInt8} {state e : Nat}
    (hend : headersEndFrom mime state e ≠ 0) (more : List UInt8) :
    headersEndFrom (mime ++ more) state e = headersEndFrom mime state e := by
  induction mime generalizing state e with
  | nil =>
      rw [headersEndFrom] at hend ⊢
      split at hend
      next hstate =>
        cases more with
        | nil => rfl
        | cons c rest => rw [List.nil_append, headersEndFrom, if_pos hstate, if_pos hstate]
      next => exact absurd rfl hend
  | cons c rest ih =>
      rw [List.cons_append, headersEndFrom, headersEndFrom]
      rw [headersEndFrom] at hend
      split
      · rfl
      next hstate =>
        rw [if_neg hstate] at hend
        exact ih hend

theorem headersEnd_le (mime : List UInt8) : headersEnd mime ≤ mime.length :=
  (headersEndFrom_le mime 0 0).trans_eq (Nat.zero_add _)

theorem erase_append {data : List UInt8} {pos n : Nat} (hle : pos + n ≤ data.length)
    (more : List UInt8) : erase (data ++ more) pos n = erase data pos n ++ more := by
  rw [erase, erase, List.take_append_of_le_length (by omega), List.drop_append_of_le_length hle,
    List.append_assoc]

/-- A line that has come whole is not changed by what comes behind it. -/
theorem advanceLine_append {data : List UInt8} {size : Nat} {next : List UInt8 → HttpScan}
    {scan : HttpScan} (hadvance : advanceLine data size next = some scan) (more : List UInt8) :
    ∃ line, size + line.length ≤ data.length ∧ scan = next line ∧
      ∀ other, advanceLine (data ++ more) size other = some (other line) := by
  unfold advanceLine at hadvance
  by_cases hfind : find (data.drop size) 10 = 0
  · rw [if_pos hfind] at hadvance
    cases hadvance
  · rw [if_neg hfind, Option.some.injEq] at hadvance
    have hle := find_le (data.drop size) 10
    have hsize : size ≤ data.length := by
      by_contra hshort
      rw [List.drop_eq_nil_of_le (by omega)] at hfind
      exact hfind rfl
    rw [List.length_drop] at hle
    refine ⟨(data.drop size).take (find (data.drop size) 10), ?_, hadvance.symm, fun other => ?_⟩
    · rw [List.length_take, List.length_drop]
      omega
    · unfold advanceLine
      rw [List.drop_append_of_le_length hsize, find_append hfind, if_neg hfind,
        List.take_append_of_le_length (by rw [List.length_drop]; exact hle)]

section Extends

variable {answer : List HttpEvent → Bool}

theorem tell_eat (events : List HttpEvent) (event : HttpEvent) {phase : ScanPhase}
    (hphase : phase ≠ .failed) (data more : List UInt8) :
    (tell answer events event phase data).eat more =
      tell answer events event phase (data ++ more) := by
  unfold tell
  split
  · cases phase with
    | failed => exact absurd rfl hphase
    | _ => rfl
  · rfl

theorem bodyPhase_ne_failed (fields : HeaderFields) : bodyPhase fields ≠ .failed := by
  unfold bodyPhase
  split <;> simp

theorem extends_requestLine {data : List UInt8} {events : List HttpEvent} {scan : HttpScan}
    (hadvance : advanceRequestLine answer data events = some scan) (more : List UInt8) :
    advanceRequestLine answer (data ++ more) events = some (scan.eat more) := by
  unfold advanceRequestLine at hadvance ⊢
  dsimp only at hadvance ⊢
  by_cases hfind : find data 10 = 0
  · rw [if_pos hfind] at hadvance
    cases hadvance
  · have hle := find_le data 10
    rw [if_neg hfind] at hadvance
    rw [find_append hfind, if_neg hfind, List.take_append_of_le_length hle]
    split at hadvance
    next hempty =>
      cases hadvance
      rw [if_pos hempty, List.drop_append_of_le_length hle]
      rfl
    next hline =>
      cases hadvance
      rw [if_neg hline, List.drop_append_of_le_length (by omega), tell_eat _ _ (by simp)]

theorem extends_headerFields {data : List UInt8} {events : List HttpEvent} {scan : HttpScan}
    (hadvance : advanceHeaderFields answer data events = some scan) (more : List UInt8) :
    advanceHeaderFields answer (data ++ more) events = some (scan.eat more) := by
  unfold advanceHeaderFields at hadvance ⊢
  dsimp only at hadvance ⊢
  by_cases hend : headersEnd data = 0
  · rw [if_pos hend] at hadvance
    cases hadvance
  · have hle := headersEnd_le data
    have hmore : headersEnd (data ++ more) = headersEnd data := headersEndFrom_append hend more
    rw [if_neg hend] at hadvance
    rw [hmore, if_neg hend, List.take_append_of_le_length hle]
    split at hadvance
    next hok =>
      cases hadvance
      rw [if_pos hok, List.drop_append_of_le_length hle, tell_eat _ _ (bodyPhase_ne_failed _)]
    next hok =>
      cases hadvance
      rw [if_neg hok]
      rfl

theorem extends_content {size : Nat} {data : List UInt8} {events : List HttpEvent}
    {scan : HttpScan} (hadvance : advanceContent answer size data events = some scan)
    (more : List UInt8) :
    advanceContent answer size (data ++ more) events = some (scan.eat more) := by
  unfold advanceContent at hadvance ⊢
  split at hadvance
  next hsize =>
    cases hadvance
    rw [if_pos (by rw [List.length_append]; omega), List.take_append_of_le_length hsize,
      List.drop_append_of_le_length hsize, tell_eat _ _ (by simp)]
  next => cases hadvance

theorem extends_chunk {size : Nat} {data : List UInt8} {events : List HttpEvent}
    {scan : HttpScan} (hadvance : advanceChunk size data events = some scan)
    (more : List UInt8) : advanceChunk size (data ++ more) events = some (scan.eat more) := by
  unfold advanceChunk at hadvance ⊢
  obtain ⟨line, hle, rfl, hmore⟩ := advanceLine_append hadvance more
  rw [hmore, erase_append hle]
  rfl

theorem extends_chunkSize {size : Nat} {data : List UInt8} {events : List HttpEvent}
    {scan : HttpScan} (hadvance : advanceChunkSize size data events = some scan)
    (more : List UInt8) : advanceChunkSize size (data ++ more) events = some (scan.eat more) := by
  unfold advanceChunkSize at hadvance ⊢
  obtain ⟨line, hle, rfl, hmore⟩ := advanceLine_append hadvance more
  rw [hmore, erase_append hle]
  dsimp only
  split
  · rfl
  · rfl

theorem extends_trailer {size : Nat} {data : List UInt8} {events : List HttpEvent}
    {scan : HttpScan} (hadvance : advanceTrailer answer size data events = some scan)
    (more : List UInt8) :
    advanceTrailer answer size (data ++ more) events = some (scan.eat more) := by
  unfold advanceTrailer at hadvance ⊢
  obtain ⟨line, hle, rfl, hmore⟩ := advanceLine_append hadvance more
  rw [hmore]
  split
  · rw [List.take_append_of_le_length (by omega), List.drop_append_of_le_length hle,
      tell_eat _ _ (by simp)]
  · rw [erase_append hle]
    rfl

theorem extends_advance : Extends (advance answer) eat := by
  rintro ⟨phase, data, events⟩ next more hadvance
  cases phase with
  | requestLine => exact extends_requestLine hadvance more
  | headerFields => exact extends_headerFields hadvance more
  | content size => exact extends_content hadvance more
  | chunk size => exact extends_chunk hadvance more
  | chunkSize size => exact extends_chunkSize hadvance more
  | trailer size => exact extends_trailer hadvance more
  | endless => cases hadvance
  | failed => cases hadvance

end Extends

end HttpScan

end ServiceFrame
