import Mathlib.Data.List.Induction
import ServiceFrame.Foundation.Run
import ServiceFrame.Sox.SockBuffer

/-! # The output stream of a connection

`InnerConn` of `core/corelib`: messages reach the socket through an output
buffer with a filter, in three ways. They are sent directly, sent in part with
the rest buffered, or buffered. `wire` records every byte the socket took.

An event that throws has no step. `onWrite` catches what its flush throws and
reports it, which leaves the stream as it was.
-/

namespace ServiceFrame

open Foundation

/-- `Buffer8x9k` and `Buffer8x128k`: 1024 blocks of 8 KiB. -/
def connParams : BlockParams where
  requestedSize := 8 * 1024
  maxBlocks := 128 * 8
  requestedSize_pos := by decide

structure InnerConn (cipher : StreamCipher) where
  mInput : SockBuffer cipher
  mOutput : SockBuffer cipher
  bEnable : Bool
  connected : Bool
  /-- `SEL_WRITE` is selected. -/
  selWrite : Bool
  /-- The bytes put on the socket so far. -/
  wire : List UInt8

namespace InnerConn

variable {cipher : StreamCipher}

/-- A constructed connection: accepted, or one whose `connect` answered. -/
def new (connected : Bool) : InnerConn cipher where
  mInput := .init
  mOutput := .init
  bEnable := true
  connected := connected
  selWrite := false
  wire := []

def setEncKey (conn : InnerConn cipher) (key : List UInt8) : InnerConn cipher :=
  { conn with mInput := conn.mInput.setRC4Key key, mOutput := conn.mOutput.setRC4Key key }

def sendBin (malloc : Malloc) (answer : SendAnswer) (conn : InnerConn cipher)
    (data : List UInt8) : Option (InnerConn cipher) :=
  if conn.bEnable then
    if conn.connected then do
      let (output, sent) ← conn.mOutput.writeSocket connParams malloc answer data
      let written := { conn with mOutput := output, wire := conn.wire ++ sent }
      if output.buffer.isEmpty then some written else some { written with selWrite := true }
    else do
      let output ← conn.mOutput.write connParams malloc data
      some { conn with mOutput := output }
  else some conn

/-- `m_output.flush(socket())`. -/
def flush (answer : SendAnswer) (conn : InnerConn cipher) : Option (InnerConn cipher) := do
  let (output, sent) ← conn.mOutput.flush answer
  some { conn with mOutput := output, wire := conn.wire ++ sent }

def onWrite (answer : SendAnswer) (conn : InnerConn cipher) : InnerConn cipher :=
  match conn.flush answer with
  | none => conn
  | some flushed =>
      if flushed.mOutput.buffer.isEmpty then { flushed with selWrite := false } else flushed

/-- `onConnected`; on a socket that is not connected it only reports the error. -/
def onConnected (answer : SendAnswer) (conn : InnerConn cipher) : Option (InnerConn cipher) :=
  if conn.connected then
    if conn.mOutput.buffer.isEmpty then some { conn with selWrite := false }
    else do
      let flushed ← conn.flush answer
      some { flushed with selWrite := !flushed.mOutput.buffer.isEmpty }
  else some conn

/-- `Tcpsock::select(0, SEL_CONNECTING)`. -/
def selectConnecting (answer : SendAnswer) (conn : InnerConn cipher) :
    Option (InnerConn cipher) :=
  if conn.connected then conn.onConnected answer else some { conn with selWrite := true }

/-- `Tcpsock::handle(SEL_WRITE)`; while the socket is not connected,
`complete_nonblocking_connect` finds out whether it is by now. -/
def handleWrite (answer : SendAnswer) (established : Bool) (conn : InnerConn cipher) :
    Option (InnerConn cipher) :=
  if conn.connected then some (conn.onWrite answer)
  else onConnected answer { conn with connected := established }

/-- The calls and events that write to a connection, with what the allocator
and the socket answer. -/
inductive Event where
  | setEncKey (key : List UInt8)
  | sendBin (malloc : Malloc) (answer : SendAnswer) (data : List UInt8)
  | selectConnecting (answer : SendAnswer)
  | handleWrite (answer : SendAnswer) (established : Bool)

def step (conn : InnerConn cipher) : Event → Option (InnerConn cipher)
  | .setEncKey key => some (conn.setEncKey key)
  | .sendBin malloc answer data => conn.sendBin malloc answer data
  | .selectConnecting answer => conn.selectConnecting answer
  | .handleWrite answer established => conn.handleWrite answer established

/-! ## What the stream should be -/

/-- The messages of the `sendBin` calls, concatenated in call order. -/
def messages : List Event → List UInt8
  | [] => []
  | .sendBin _ _ data :: rest => data ++ messages rest
  | _ :: rest => messages rest

/-- The key in force after the events, if one was set. -/
def keyAfter : List Event → Option (List UInt8)
  | [] => none
  | .setEncKey key :: rest => some ((keyAfter rest).getD key)
  | _ :: rest => keyAfter rest

/-- A key is only ever set before the first byte is written. -/
def KeyBeforeBytes (events : List Event) : Prop :=
  ∀ before key after, events = before ++ .setEncKey key :: after → messages before = []

/-- The text as it is without a key, or under the key's one keystream. -/
def encoded (cipher : StreamCipher) (key : Option (List UInt8)) (text : List UInt8) :
    List UInt8 :=
  match key with
  | none => text
  | some key => (cipher.crypt (cipher.setKey key) text).1

theorem messages_append (first second : List Event) :
    messages (first ++ second) = messages first ++ messages second := by
  induction first with
  | nil => rfl
  | cons event rest ih => cases event <;> simp [messages, ih]

theorem keyAfter_append (first second : List Event) :
    keyAfter (first ++ second) = (keyAfter second).or (keyAfter first) := by
  induction first with
  | nil => simp [keyAfter]
  | cons event rest ih =>
      cases event with
      | setEncKey key =>
          simp only [List.cons_append, keyAfter, ih]
          cases keyAfter second <;> cases keyAfter rest <;> rfl
      | sendBin => simp only [List.cons_append, keyAfter, ih]
      | selectConnecting => simp only [List.cons_append, keyAfter, ih]
      | handleWrite => simp only [List.cons_append, keyAfter, ih]

theorem KeyBeforeBytes.earlier {first second : List Event}
    (hkey : KeyBeforeBytes (first ++ second)) : KeyBeforeBytes first := by
  intro before key after hfirst
  exact hkey before key (after ++ second) (by simp [hfirst])

theorem keyBeforeBytes_of_first {events : List Event}
    (hlater : ∀ key, Event.setEncKey key ∉ events.tail) : KeyBeforeBytes events := by
  intro before key after hsplit
  cases before with
  | nil => rfl
  | cons first rest =>
      refine absurd ?_ (hlater key)
      rw [hsplit]
      simp

/-! ## The invariant -/

/-- The filter that has seen `text` under `key`, and the text it made of it. -/
def filterAfter (cipher : StreamCipher) (key : Option (List UInt8)) (text : List UInt8) :
    List UInt8 × RC4Filter cipher :=
  RC4Filter.filter (key.map cipher.setKey) text

/-- What went out and what waits are the filtered `text`, and the filter stands
right behind it. -/
structure Streams (key : Option (List UInt8)) (text : List UInt8)
    (conn : InnerConn cipher) : Prop where
  wellFormed : conn.mOutput.buffer.WellFormed connParams
  enabled : conn.bEnable = true
  stream : conn.wire ++ conn.mOutput.buffer.data = (filterAfter cipher key text).1
  filter : conn.mOutput.filter = (filterAfter cipher key text).2

theorem encoded_eq (key : Option (List UInt8)) (text : List UInt8) :
    encoded cipher key text = (filterAfter cipher key text).1 := by
  cases key <;> rfl

theorem filterAfter_append (key : Option (List UInt8)) (first second : List UInt8) :
    filterAfter cipher key (first ++ second) =
      ((filterAfter cipher key first).1 ++ ((filterAfter cipher key first).2.filter second).1,
        ((filterAfter cipher key first).2.filter second).2) :=
  RC4Filter.filter_append _ first second

theorem new_streams (connected : Bool) : Streams none [] (new connected : InnerConn cipher) where
  wellFormed := BlockBuffer.init_wellFormed
  enabled := rfl
  stream := rfl
  filter := rfl

namespace Streams

variable {key : Option (List UInt8)} {text : List UInt8} {conn next : InnerConn cipher}

/-- Setting a key before any byte starts its keystream. -/
theorem setEncKey (hconn : Streams key [] conn) (newKey : List UInt8) :
    Streams (some newKey) [] (conn.setEncKey newKey) where
  wellFormed := hconn.wellFormed
  enabled := hconn.enabled
  stream := by
    have hstream := hconn.stream
    rw [filterAfter, RC4Filter.filter_nil] at hstream ⊢
    exact hstream
  filter := rfl

/-- Both writes of `sendBin` carry the stream on by the message. -/
theorem sendBin (hconn : Streams key text conn) {malloc : Malloc} {answer : SendAnswer}
    {data : List UInt8} (hsend : conn.sendBin malloc answer data = some next) :
    Streams key (text ++ data) next := by
  unfold InnerConn.sendBin at hsend
  rw [if_pos hconn.enabled] at hsend
  split at hsend
  next hconnected =>
    simp only [Option.bind_eq_bind, Option.bind_eq_some_iff, Prod.exists] at hsend
    obtain ⟨output, sent, hwrite, hnext⟩ := hsend
    obtain ⟨hwell, hdata, hfilter⟩ := SockBuffer.writeSocket_some hconn.wellFormed hwrite
    have hwritten : Streams key (text ++ data)
        { conn with mOutput := output, wire := conn.wire ++ sent } := by
      refine ⟨hwell, hconn.enabled, ?_, ?_⟩
      · rw [filterAfter_append, ← hconn.stream, ← hconn.filter, List.append_assoc,
          List.append_assoc, hdata]
      · rw [filterAfter_append, ← hconn.filter]
        exact hfilter
    split at hnext
    · cases hnext
      exact hwritten
    · cases hnext
      exact ⟨hwritten.wellFormed, hwritten.enabled, hwritten.stream, hwritten.filter⟩
  next hconnected =>
    simp only [Option.bind_eq_bind, Option.bind_eq_some_iff, Option.some.injEq] at hsend
    obtain ⟨output, hwrite, rfl⟩ := hsend
    obtain ⟨hwell, hdata, hfilter⟩ := SockBuffer.write_some hconn.wellFormed hwrite
    refine ⟨hwell, hconn.enabled, ?_, ?_⟩
    · rw [filterAfter_append, ← hconn.stream, ← hconn.filter, List.append_assoc, hdata]
    · rw [filterAfter_append, ← hconn.filter]
      exact hfilter

theorem select (hconn : Streams key text conn) (selWrite connected : Bool) :
    Streams key text { conn with selWrite := selWrite, connected := connected } :=
  ⟨hconn.wellFormed, hconn.enabled, hconn.stream, hconn.filter⟩

/-- A flush moves bytes from the buffer to the socket. -/
theorem flush (hconn : Streams key text conn) {answer : SendAnswer}
    (hflush : conn.flush answer = some next) : Streams key text next := by
  simp only [InnerConn.flush, Option.bind_eq_bind, Option.bind_eq_some_iff, Prod.exists,
    Option.some.injEq] at hflush
  obtain ⟨output, sent, hflush, rfl⟩ := hflush
  obtain ⟨hwell, hdata, hfilter⟩ := SockBuffer.flush_some hconn.wellFormed hflush
  refine ⟨hwell, hconn.enabled, ?_, hfilter.trans hconn.filter⟩
  rw [← hconn.stream, List.append_assoc, hdata]

theorem onWrite (hconn : Streams key text conn) (answer : SendAnswer) :
    Streams key text (conn.onWrite answer) := by
  unfold InnerConn.onWrite
  split
  next => exact hconn
  next flushed hflush =>
    have hflushed := hconn.flush hflush
    split
    · exact hflushed.select false flushed.connected
    · exact hflushed

theorem onConnected (hconn : Streams key text conn) {answer : SendAnswer}
    (hnext : conn.onConnected answer = some next) : Streams key text next := by
  unfold InnerConn.onConnected at hnext
  split at hnext
  · split at hnext
    · cases hnext
      exact hconn.select false conn.connected
    · simp only [Option.bind_eq_bind, Option.bind_eq_some_iff, Option.some.injEq] at hnext
      obtain ⟨flushed, hflush, rfl⟩ := hnext
      exact (hconn.flush hflush).select _ flushed.connected
  · cases hnext
    exact hconn

theorem handleWrite (hconn : Streams key text conn) {answer : SendAnswer} {established : Bool}
    (hnext : conn.handleWrite answer established = some next) : Streams key text next := by
  unfold InnerConn.handleWrite at hnext
  split at hnext
  · cases hnext
    exact hconn.onWrite answer
  · exact (hconn.select conn.selWrite established).onConnected hnext

theorem selectConnecting (hconn : Streams key text conn) {answer : SendAnswer}
    (hnext : conn.selectConnecting answer = some next) : Streams key text next := by
  unfold InnerConn.selectConnecting at hnext
  split at hnext
  · exact hconn.onConnected hnext
  · cases hnext
    exact hconn.select true conn.connected

end Streams

/-- One more event carries the stream on by its message and its key. -/
theorem step_streams {past : List Event} {event : Event} {conn next : InnerConn cipher}
    (hkey : KeyBeforeBytes (past ++ [event]))
    (hconn : Streams (keyAfter past) (messages past) conn)
    (hstep : conn.step event = some next) :
    Streams (keyAfter (past ++ [event])) (messages (past ++ [event])) next := by
  rw [keyAfter_append, messages_append]
  cases event with
  | setEncKey key =>
      cases hstep
      have hnothing : messages past = [] := hkey past key [] rfl
      rw [hnothing] at hconn ⊢
      exact hconn.setEncKey key
  | sendBin malloc answer data =>
      simp only [keyAfter, messages, List.append_nil, Option.none_or]
      exact hconn.sendBin hstep
  | selectConnecting answer =>
      simp only [keyAfter, messages, List.append_nil, Option.none_or]
      exact hconn.selectConnecting hstep
  | handleWrite answer established =>
      simp only [keyAfter, messages, List.append_nil, Option.none_or]
      exact hconn.handleWrite hstep

theorem run_streams {connected : Bool} {events : List Event} (hkey : KeyBeforeBytes events) :
    ∀ {final : InnerConn cipher}, run step (new connected) events = some final →
      Streams (keyAfter events) (messages events) final := by
  induction events using List.reverseRecOn with
  | nil =>
      intro final hrun
      cases hrun
      exact new_streams connected
  | append_singleton past event ih =>
      intro final hrun
      obtain ⟨conn, hpast, hevent⟩ := run_split hrun
      rw [run_cons, Option.bind_eq_some_iff] at hevent
      obtain ⟨next, hstep, hnext⟩ := hevent
      cases hnext
      exact step_streams hkey (ih hkey.earlier hpast) hstep

/-- The bytes on the socket followed by those still buffered are the messages
in call order, under one keystream when a key was set. -/
theorem output_stream (cipher : StreamCipher) (connected : Bool) (events : List Event)
    (final : InnerConn cipher) (hkey : KeyBeforeBytes events)
    (hrun : run step (new connected) events = some final) :
    final.wire ++ final.mOutput.buffer.data =
      encoded cipher (keyAfter events) (messages events) := by
  rw [encoded_eq]
  exact (run_streams hkey hrun).stream

/-- Two messages under a key, the first sent in part and flushed later. -/
def partialSends : List Event :=
  [.setEncKey [75, 101, 121], .sendBin (some fun _ => 0) (.sent 1) [80, 108],
    .sendBin (some fun _ => 0) (.sent 9) [97, 105], .handleWrite (.sent 2) true]

theorem output_stream_partialSends :
    ∃ final : InnerConn rc4, run step (new true) partialSends = some final ∧
      final.wire ++ final.mOutput.buffer.data =
        encoded rc4 (some [75, 101, 121]) [80, 108, 97, 105] := by
  have hkey : KeyBeforeBytes partialSends := keyBeforeBytes_of_first (by simp [partialSends])
  obtain ⟨final, hfinal⟩ : ∃ final : InnerConn rc4,
      run step (new true) partialSends = some final := ⟨_, rfl⟩
  exact ⟨final, hfinal, output_stream rc4 true partialSends final hkey hfinal⟩

/-! ## Overflows that the caller catches -/

/-- `sendBin`, with what it leaves when its write throws. -/
def sendBinOutcome (malloc : Malloc) (answer : SendAnswer) (conn : InnerConn cipher)
    (data : List UInt8) : WriteOutcome (InnerConn cipher) :=
  if conn.bEnable then
    if conn.connected then
      let outcome := conn.mOutput.writeSocketOutcome connParams malloc answer data
      let written := { conn with mOutput := outcome.after, wire := conn.wire ++ outcome.sent }
      if outcome.ending = .returned ∧ ¬ outcome.after.buffer.isEmpty then
        ⟨outcome.ending, { written with selWrite := true }, outcome.sent⟩
      else ⟨outcome.ending, written, outcome.sent⟩
    else
      let outcome := conn.mOutput.writeOutcome connParams malloc data
      ⟨outcome.ending, { conn with mOutput := outcome.after }, outcome.sent⟩
  else ⟨.returned, conn, []⟩

/-- An event, with a caller that catches the overflows. -/
def stepCaught (conn : InnerConn cipher) : Event → Option (InnerConn cipher)
  | .sendBin malloc answer data =>
      let outcome := conn.sendBinOutcome malloc answer data
      if outcome.ending = .socketError then none else some outcome.after
  | .setEncKey key => some (conn.setEncKey key)
  | .selectConnecting answer => conn.selectConnecting answer
  | .handleWrite answer established => conn.handleWrite answer established

/-- How much of its message an event hands over: all of it when it returns, and what the socket
took when it throws. -/
def taken (conn : InnerConn cipher) : Event → List UInt8
  | .sendBin malloc answer data =>
      let outcome := conn.sendBinOutcome malloc answer data
      if outcome.ending = .returned then data else data.take outcome.sent.length
  | .setEncKey _ | .selectConnecting _ | .handleWrite _ _ => []

/-- What the messages of a run hand over, concatenated in call order. -/
def takenBy (conn : InnerConn cipher) : List Event → List UInt8
  | [] => []
  | event :: rest => conn.taken event ++
      match conn.stepCaught event with
      | none => []
      | some next => takenBy next rest

/-- The event is a `sendBin` that throws an overflow. -/
def Overflows (conn : InnerConn cipher) : Event → Prop
  | .sendBin malloc answer data => (conn.sendBinOutcome malloc answer data).ending.Overflow
  | .setEncKey _ | .selectConnecting _ | .handleWrite _ _ => False

/-- No overflow leaves a filter that has a key. -/
def KeylessOverflow (conn : InnerConn cipher) (event : Event) : Prop :=
  conn.Overflows event → conn.mOutput.filter = none

theorem sendBin_of_returned {malloc : Malloc} {answer : SendAnswer} {conn : InnerConn cipher}
    {data : List UInt8} (hreturned : (conn.sendBinOutcome malloc answer data).ending = .returned) :
    conn.sendBin malloc answer data = some (conn.sendBinOutcome malloc answer data).after := by
  unfold sendBinOutcome at hreturned ⊢
  unfold sendBin
  split
  next henable =>
    rw [if_pos henable] at hreturned
    split
    next hconnected =>
      rw [if_pos hconnected] at hreturned
      dsimp only at hreturned ⊢
      have hending : (conn.mOutput.writeSocketOutcome connParams malloc answer data).ending =
          .returned := by
        split at hreturned <;> exact hreturned
      rw [SockBuffer.writeSocket_of_returned hending]
      simp only [Option.bind_eq_bind, Option.bind_some, hending, true_and]
      by_cases hempty : (conn.mOutput.writeSocketOutcome connParams malloc answer
          data).after.buffer.isEmpty = true
      · rw [if_pos hempty, if_neg (not_not_intro hempty)]
      · rw [if_neg hempty, if_pos hempty]
    next hconnected =>
      rw [if_neg hconnected] at hreturned
      rw [SockBuffer.write_of_returned hreturned]
      rfl
  next hdisabled => rfl

/-- An overflow leaves the filtered stream of what was handed over, and, without a key, the
filter right behind it. -/
structure Handed (key : Option (List UInt8)) (text : List UInt8)
    (conn : InnerConn cipher) : Prop where
  stream : conn.wire ++ conn.mOutput.buffer.data = (filterAfter cipher key text).1
  keyless : key = none → Streams key text conn

theorem Streams.handed {key : Option (List UInt8)} {text : List UInt8} {conn : InnerConn cipher}
    (hconn : Streams key text conn) : Handed key text conn :=
  ⟨hconn.stream, fun _ => hconn⟩

/-- The crypted start of a message is the start of the crypted message. -/
theorem filter_take (filter : RC4Filter cipher) (msg : List UInt8) (n : Nat) :
    (filter.filter (msg.take n)).1 = (filter.filter msg).1.take n := by
  have hlength := RC4Filter.length_filter filter (msg.take n)
  by_cases hn : n ≤ msg.length
  · have hsplit := congrArg Prod.fst (RC4Filter.filter_append filter (msg.take n) (msg.drop n))
    rw [List.take_append_drop] at hsplit
    rw [List.length_take, Nat.min_eq_left hn] at hlength
    rw [hsplit, List.take_left' hlength]
  · rw [List.take_of_length_le (by omega), List.take_of_length_le]
    rw [RC4Filter.length_filter]
    omega

/-- What a write that overflowed did to the stream. -/
theorem Streams.overflow {key : Option (List UInt8)} {text data : List UInt8}
    {conn : InnerConn cipher} (hconn : Streams key text conn)
    {outcome : WriteOutcome (SockBuffer cipher)} (hover : outcome.ending.Overflow)
    (hreport : conn.mOutput.Reported data outcome) :
    Handed key (text ++ data.take outcome.sent.length)
      { conn with mOutput := outcome.after, wire := conn.wire ++ outcome.sent } := by
  have horder : conn.wire ++ outcome.sent ++ conn.mOutput.buffer.data =
      conn.wire ++ conn.mOutput.buffer.data ++ outcome.sent := by
    rcases hover with hpart | hall
    · -- nothing waited, so what went out is behind all that went out before
      rw [BlockBuffer.data_of_empty (hreport.part hpart).1, List.append_nil, List.append_nil]
    · rw [hreport.all hall, List.append_nil, List.append_nil]
  have hstream : conn.wire ++ outcome.sent ++ conn.mOutput.buffer.data =
      (filterAfter cipher key (text ++ data.take outcome.sent.length)).1 := by
    rw [horder, hconn.stream, filterAfter_append, ← hconn.filter, filter_take, ← hreport.sent]
  have hnext : (conn.wire ++ outcome.sent) ++ outcome.after.buffer.data =
      (filterAfter cipher key (text ++ data.take outcome.sent.length)).1 := by
    rw [hreport.buffered]
    exact hstream
  refine ⟨hnext, fun hkey => ⟨?_, hconn.enabled, hnext, ?_⟩⟩
  · change outcome.after.buffer.WellFormed connParams
    rw [hreport.buffered]
    exact hconn.wellFormed
  · subst hkey
    exact hreport.keyless hconn.filter

/-- A `sendBin` that throws an overflow hands over what the socket took. -/
theorem Streams.sendBin_overflow {key : Option (List UInt8)} {text data : List UInt8}
    {conn : InnerConn cipher} (hconn : Streams key text conn) {malloc : Malloc}
    {answer : SendAnswer} (hover : (conn.sendBinOutcome malloc answer data).ending.Overflow) :
    Handed key (text ++ data.take (conn.sendBinOutcome malloc answer data).sent.length)
      (conn.sendBinOutcome malloc answer data).after := by
  unfold sendBinOutcome at hover ⊢
  rw [if_pos hconn.enabled] at hover ⊢
  by_cases hconnected : conn.connected = true
  · rw [if_pos hconnected] at hover ⊢
    dsimp only at hover ⊢
    have hending : (conn.mOutput.writeSocketOutcome connParams malloc answer
        data).ending.Overflow := by
      split at hover <;> exact hover
    rw [if_neg]
    · exact hconn.overflow hending (SockBuffer.writeSocketOutcome_reported hending)
    · rintro ⟨hreturned, -⟩
      rw [hreturned] at hending
      rcases hending with hending | hending <;> cases hending
  · rw [if_neg hconnected] at hover ⊢
    have hhanded := hconn.overflow hover (SockBuffer.writeOutcome_reported hover)
    rw [SockBuffer.writeOutcome_sent, List.append_nil] at hhanded
    rw [SockBuffer.writeOutcome_sent]
    exact hhanded

/-- A filter without a key has never had one. -/
theorem Streams.key_none {key : Option (List UInt8)} {text : List UInt8}
    {conn : InnerConn cipher} (hconn : Streams key text conn)
    (hfilter : conn.mOutput.filter = none) : key = none := by
  rw [hconn.filter] at hfilter
  cases key with
  | none => rfl
  | some key => cases hfilter

/-- Nothing is handed over of no bytes. -/
theorem taken_of_messages_nil {event : Event} (conn : InnerConn cipher)
    (hnil : messages [event] = []) : conn.taken event = [] := by
  cases event with
  | sendBin malloc answer data =>
      simp only [messages, List.append_nil] at hnil
      simp [taken, hnil]
  | setEncKey key => rfl
  | selectConnecting answer => rfl
  | handleWrite answer established => rfl

/-- `text` is what the messages of the `past` handed over, and the connection is right
behind it. -/
structure Behind (past : List Event) (text : List UInt8) (conn : InnerConn cipher) : Prop where
  streams : Streams (keyAfter past) text conn
  nothing : messages past = [] → text = []

theorem Behind.nothing_next {past : List Event} {event : Event} {text : List UInt8}
    {conn : InnerConn cipher} (hconn : Behind past text conn)
    (hnil : messages (past ++ [event]) = []) : text ++ conn.taken event = [] := by
  rw [messages_append] at hnil
  obtain ⟨hpast, hevent⟩ := List.append_eq_nil_iff.mp hnil
  rw [hconn.nothing hpast, taken_of_messages_nil conn hevent]
  rfl

/-- One event hands over what it takes; what it leaves can be carried on from, unless it
overflowed under a key. -/
theorem Behind.caught {past : List Event} {event : Event} {text : List UInt8}
    {conn next : InnerConn cipher} (hkey : KeyBeforeBytes (past ++ [event]))
    (hconn : Behind past text conn) (hstep : conn.stepCaught event = some next) :
    Handed (keyAfter (past ++ [event])) (text ++ conn.taken event) next ∧
      (conn.KeylessOverflow event → Behind (past ++ [event]) (text ++ conn.taken event) next) := by
  -- an event that does not overflow takes the connection to the next one right behind the text
  have hcarry : Streams (keyAfter (past ++ [event])) (text ++ conn.taken event) next →
      Handed (keyAfter (past ++ [event])) (text ++ conn.taken event) next ∧
        (conn.KeylessOverflow event →
          Behind (past ++ [event]) (text ++ conn.taken event) next) :=
    fun hnext => ⟨hnext.handed, fun _ => ⟨hnext, hconn.nothing_next⟩⟩
  have hnothing : messages (past ++ [event]) = [] → text ++ conn.taken event = [] :=
    hconn.nothing_next
  cases event with
  | setEncKey key =>
      cases hstep
      apply hcarry
      rw [keyAfter_append]
      rw [hconn.nothing (hkey past key [] rfl)]
      have hstreams := hconn.streams
      rw [hconn.nothing (hkey past key [] rfl)] at hstreams
      exact hstreams.setEncKey key
  | selectConnecting answer =>
      apply hcarry
      rw [keyAfter_append, taken, List.append_nil]
      exact hconn.streams.selectConnecting hstep
  | handleWrite answer established =>
      apply hcarry
      rw [keyAfter_append, taken, List.append_nil]
      exact hconn.streams.handleWrite hstep
  | sendBin malloc answer data =>
      have hkeep : keyAfter (past ++ [.sendBin malloc answer data]) = keyAfter past := by
        rw [keyAfter_append]
        rfl
      simp only [InnerConn.stepCaught] at hstep
      split at hstep
      · cases hstep
      next hsent =>
        cases hstep
        rw [hkeep] at hcarry ⊢
        by_cases hreturned : (conn.sendBinOutcome malloc answer data).ending = .returned
        · apply hcarry
          rw [taken, if_pos hreturned]
          exact hconn.streams.sendBin (sendBin_of_returned hreturned)
        · have hover : (conn.sendBinOutcome malloc answer data).ending.Overflow := by
            unfold WriteEnd.Overflow
            cases hending : (conn.sendBinOutcome malloc answer data).ending with
            | returned => exact absurd hending hreturned
            | socketError => exact absurd hending hsent
            | bufferOverflow => exact Or.inl rfl
            | bufferOverflowAll => exact Or.inr rfl
          have hhanded := hconn.streams.sendBin_overflow hover
          rw [taken, if_neg hreturned]
          refine ⟨hhanded, fun hkeyless => ⟨?_, ?_⟩⟩
          · rw [hkeep]
            exact hhanded.keyless (hconn.streams.key_none (hkeyless hover))
          · intro hnil
            have htaken := hnothing hnil
            rwa [taken, if_neg hreturned] at htaken

theorem Behind.run_caught {events : List Event} {past : List Event} {text : List UInt8}
    {conn final : InnerConn cipher} (hkey : KeyBeforeBytes (past ++ events))
    (hconn : Behind past text conn) (hkeyless : Along stepCaught KeylessOverflow conn events)
    (hrun : run InnerConn.stepCaught conn events = some final) :
    Behind (past ++ events) (text ++ conn.takenBy events) final := by
  induction events generalizing past text conn with
  | nil =>
      cases hrun
      rw [List.append_nil, takenBy, List.append_nil]
      exact hconn
  | cons event rest ih =>
      obtain ⟨next, hnext, hrest⟩ := Option.bind_eq_some_iff.mp hrun
      rw [List.append_cons] at hkey ⊢
      have hstep := (hconn.caught hkey.earlier hnext).2 hkeyless.1
      rw [takenBy, hnext, ← List.append_assoc]
      exact ih hkey hstep (hkeyless.2 next hnext) hrest

theorem new_behind (connected : Bool) : Behind [] [] (new connected : InnerConn cipher) :=
  ⟨new_streams connected, fun _ => rfl⟩

/-- A write that overflows leaves the buffered bytes alone and says by its exception whether
the socket took a part of the message. On a connection, what went out and what is buffered
are the messages that were accepted, in call order, with what was sent of each that was
refused, under one keystream: up to an overflow under a key, and through any without one. -/
theorem overflow_reported (cipher : StreamCipher) :
    (∀ params malloc (sock : SockBuffer cipher) msg,
      (sock.writeOutcome params malloc msg).ending.Overflow →
        sock.Reported msg (sock.writeOutcome params malloc msg)) ∧
    (∀ params malloc answer (sock : SockBuffer cipher) msg,
      (sock.writeSocketOutcome params malloc answer msg).ending.Overflow →
        sock.Reported msg (sock.writeSocketOutcome params malloc answer msg)) ∧
    ∀ (connected : Bool) (events : List Event) (event : Event) (conn next : InnerConn cipher),
      KeyBeforeBytes (events ++ [event]) →
      Along stepCaught KeylessOverflow (new connected : InnerConn cipher) events →
      run stepCaught (new connected) events = some conn →
      conn.stepCaught event = some next →
        next.wire ++ next.mOutput.buffer.data =
          encoded cipher (keyAfter (events ++ [event]))
            (takenBy (new connected : InnerConn cipher) events ++ conn.taken event) := by
  refine ⟨fun _ _ _ _ => SockBuffer.writeOutcome_reported,
    fun _ _ _ _ _ => SockBuffer.writeSocketOutcome_reported, ?_⟩
  intro connected events event conn next hkey hkeyless hrun hstep
  have hconn : Behind events (takenBy (new connected) events) conn :=
    (new_behind connected).run_caught (List.nil_append events ▸ hkey.earlier) hkeyless hrun
  rw [encoded_eq]
  exact (hconn.caught hkey hstep).1.stream

/-- A message that goes out whole, then one of which the socket takes a byte and for the rest
of which there is no memory, under a key. -/
theorem overflow_reported_part :
    ∃ conn next : InnerConn rc4,
      run stepCaught (new true) [.setEncKey [75, 101, 121], .sendBin none (.sent 9) [80, 108]] =
        some conn ∧
      conn.stepCaught (.sendBin none (.sent 1) [97, 105]) = some next ∧
      next.wire ++ next.mOutput.buffer.data =
        encoded rc4 (some [75, 101, 121]) [80, 108, 97] := by
  refine ⟨_, _, rfl, rfl, ?_⟩
  refine (overflow_reported rc4).2.2 true
    [.setEncKey [75, 101, 121], .sendBin none (.sent 9) [80, 108]]
    (.sendBin none (.sent 1) [97, 105]) _ _ (keyBeforeBytes_of_first (by simp)) ?_ rfl rfl
  refine ⟨fun hover => hover.elim, fun next hnext => ⟨?_, fun _ _ => trivial⟩⟩
  cases hnext
  intro hover
  rcases hover with hover | hover <;> cases hover

/-- A message of six bytes for a buffer of four: the socket takes one and the rest is refused,
with the cipher past all six. -/
theorem one_byte_sent_of_six :
    ∃ (sock : SockBuffer rc4) (outcome : WriteOutcome (SockBuffer rc4)),
      sock.writeSocketOutcome ⟨4, 1, by decide⟩ (some fun _ => 0) (.sent 1)
        [1, 2, 3, 4, 5, 6] = outcome ∧
      outcome.ending.Overflow ∧ outcome.sent ≠ [] ∧ outcome.after.filter ≠ sock.filter := by
  refine ⟨SockBuffer.init.setRC4Key [75, 101, 121], _, rfl, Or.inl rfl, List.cons_ne_nil _ _, ?_⟩
  intro hsame
  have hindex := congrArg (Option.map Rc4State.i) hsame
  exact absurd hindex (by decide)

end InnerConn

end ServiceFrame
