import ServiceFrame.Core.BackLinkHandler

/-! # Framing is independent of how the stream is cut

A frame carries its own length in its first four bytes. Whatever the chunks in
which a stream of frames arrives, a connection dispatches the frames that came
whole and keeps the received bytes of the next one.
-/

namespace ServiceFrame

open Foundation

/-- A whole frame, with at least a head and at most `limit` bytes. -/
structure Frame (limit : Nat) where
  bytes : List UInt8
  length_eq : Request.peeklen bytes = bytes.length
  head_le : 10 ≤ bytes.length
  le_limit : bytes.length ≤ limit

/-- The frames a connection can take: those that its handler lets pass and its
input buffer can hold. -/
abbrev ConnFrame (packLimit : UInt32) :=
  Frame (min packLimit.toNat (BlockBuffer.maxsize connParams))

namespace Frame

variable {limit : Nat}

def stream (frames : List (Frame limit)) : List UInt8 := frames.flatMap Frame.bytes

def request (type : ConnType) (frame : Frame limit) : Request := .ofBytes type frame.bytes

theorem stream_append (first second : List (Frame limit)) :
    stream (first ++ second) = stream first ++ stream second :=
  List.flatMap_append

theorem head_request (type : ConnType) (frame : Frame limit) :
    Request.head type frame.bytes = .ok (frame.request type) :=
  Request.head_long frame.head_le

end Frame

/-- A tail that starts with the length of no frame. -/
def BadFrame (packLimit : UInt32) (tail : List UInt8) : Prop :=
  4 ≤ tail.length ∧ (Request.peeklen tail < 10 ∨ packLimit.toNat < Request.peeklen tail)

/-- So much of a bad frame has come that it is found out. -/
def Rejected (packLimit : UInt32) (waiting : List UInt8) : Prop :=
  4 ≤ waiting.length ∧
    (packLimit.toNat < Request.peeklen waiting ∨
      Request.peeklen waiting < 10 ∧ Request.peeklen waiting ≤ waiting.length)

/-- Hand the requests over one by one, until one of them ends the connection. -/
def serve (doRequest : DoRequest) :
    List Request → List Request → List Request × Option CallResult
  | seen, [] => (seen, none)
  | seen, request :: rest =>
      if (doRequest seen request).ends then (seen ++ [request], some (doRequest seen request))
      else serve doRequest (seen ++ [request]) rest

theorem serve_append (doRequest : DoRequest) (seen first second : List Request) :
    serve doRequest seen (first ++ second) =
      if (serve doRequest seen first).2 = none
      then serve doRequest (serve doRequest seen first).1 second
      else serve doRequest seen first := by
  induction first generalizing seen with
  | nil => simp [serve]
  | cons request rest ih =>
      simp only [List.cons_append, serve]
      split
      · simp
      · exact ih (seen ++ [request])

/-- A handler that never ends the connection is handed every request. -/
theorem serve_all {doRequest : DoRequest} (hgoes : ∀ seen request, ¬ (doRequest seen request).ends)
    (seen requests : List Request) :
    serve doRequest seen requests = (seen ++ requests, none) := by
  induction requests generalizing seen with
  | nil => simp [serve]
  | cons request rest ih => rw [serve, if_neg (hgoes seen request), ih]; simp

section Cutting

variable {limit : Nat}

/-- `received` is cut behind its whole frames: `later` and `tail` are still to
come, less the part `waiting`. -/
structure Cut (frames whole later : List (Frame limit)) (tail received waiting rest : List UInt8) :
    Prop where
  frames_eq : frames = whole ++ later
  received_eq : received = Frame.stream whole ++ waiting
  waiting_eq : waiting ++ rest = Frame.stream later ++ tail
  waiting_short : ∀ frame ∈ later.head?, waiting.length < frame.bytes.length

/-- Every received part of a stream of frames has such a cut. -/
theorem exists_cut (frames : List (Frame limit)) {tail received rest : List UInt8}
    (hreceived : received ++ rest = Frame.stream frames ++ tail) :
    ∃ whole later waiting, Cut frames whole later tail received waiting rest := by
  induction frames generalizing received with
  | nil => exact ⟨[], [], received, rfl, rfl, hreceived, by simp⟩
  | cons frame frames ih =>
      by_cases hshort : received.length < frame.bytes.length
      · exact ⟨[], frame :: frames, received, rfl, rfl, hreceived, by simpa using hshort⟩
      · -- the first frame came whole
        obtain ⟨behind, rfl⟩ : ∃ behind, received = frame.bytes ++ behind := by
          rw [Frame.stream, List.flatMap_cons, List.append_assoc] at hreceived
          obtain ⟨behind, hbehind, -⟩ | ⟨behind, hbehind, -⟩ :=
            List.append_eq_append_iff.mp hreceived
          · have hlength := congrArg List.length hbehind
            rw [List.length_append] at hlength
            have hnil : behind = [] := List.length_eq_zero_iff.mp (by omega)
            exact ⟨[], by rw [hbehind, hnil]; simp⟩
          · exact ⟨behind, hbehind⟩
        have hbehind : behind ++ rest = Frame.stream frames ++ tail := by
          rw [Frame.stream, List.flatMap_cons, List.append_assoc, List.append_assoc] at hreceived
          exact List.append_cancel_left hreceived
        obtain ⟨whole, later, waiting, hcut⟩ := ih hbehind
        refine ⟨frame :: whole, later, waiting, ?_, ?_, hcut.waiting_eq, hcut.waiting_short⟩
        · rw [hcut.frames_eq, List.cons_append]
        · rw [hcut.received_eq, Frame.stream, Frame.stream, List.flatMap_cons, List.append_assoc]

/-- A cut of what waited and the bytes behind it continues the cut before. -/
theorem Cut.trans {frames whole later whole' later' : List (Frame limit)}
    {tail received waiting waiting' more rest : List UInt8}
    (hcut : Cut frames whole later tail received waiting (more ++ rest))
    (hmore : Cut later whole' later' tail (waiting ++ more) waiting' rest) :
    Cut frames (whole ++ whole') later' tail (received ++ more) waiting' rest where
  frames_eq := by rw [hcut.frames_eq, hmore.frames_eq, List.append_assoc]
  received_eq := by
    rw [hcut.received_eq, List.append_assoc, hmore.received_eq, Frame.stream_append,
      List.append_assoc]
  waiting_eq := hmore.waiting_eq
  waiting_short := hmore.waiting_short

end Cutting

/-! ## One call of `onData` -/

section OnData

variable (doRequest : DoRequest) {packLimit : UInt32} (type : ConnType)

/-- Four bytes of a frame tell its length. -/
theorem peeklen_next {limit : Nat} {frame : Frame limit} {later : List (Frame limit)}
    {tail waiting rest : List UInt8} (hfour : 4 ≤ waiting.length)
    (hwaiting : waiting ++ rest = Frame.stream (frame :: later) ++ tail) :
    Request.peeklen waiting = frame.bytes.length := by
  have hhead := frame.head_le
  rw [← Request.peeklen_append _ rest hfour, hwaiting, Frame.stream, List.flatMap_cons,
    List.append_assoc, Request.peeklen_append _ _ (by omega), frame.length_eq]

/-- A turn at what waits ends the loop: behind the dispatched frames, or, when
a bad frame is found out, with the connection. -/
theorem turn_waiting {later : List (ConnFrame packLimit)} {tail waiting rest : List UInt8}
    (htail : tail = [] ∨ BadFrame packLimit tail)
    (hwaiting : waiting ++ rest = Frame.stream later ++ tail)
    (hshort : ∀ frame ∈ later.head?, waiting.length < frame.bytes.length)
    {fb : WrapForwardBuffer} (hfb : fb.data = waiting) (seen : List Request) :
    (later = [] ∧ Rejected packLimit waiting ∧ ∃ result : CallResult, result.ends = true ∧
      BackLinkHandler.turn doRequest packLimit type fb seen = .done result seen) ∨
    (¬ (later = [] ∧ Rejected packLimit waiting) ∧
      BackLinkHandler.turn doRequest packLimit type fb seen =
        .done (.returned fb.offset) seen) := by
  subst hfb
  have hsize := fb.length_data
  unfold BackLinkHandler.turn
  by_cases hempty : fb.isEmpty
  · have hzero := fb.isEmpty_iff.mp hempty
    rw [if_pos hempty]
    exact Or.inr ⟨fun hbad => by have hfour := hbad.2.1; omega, rfl⟩
  rw [if_neg hempty]
  by_cases hfour : fb.size < 4
  · rw [if_pos hfour]
    exact Or.inr ⟨fun hbad => by have hlong := hbad.2.1; omega, rfl⟩
  rw [if_neg hfour]
  dsimp only
  by_cases hlimit : Request.peeklen fb.data > packLimit.toNat
  · rw [if_pos hlimit]
    refine Or.inl ⟨?_, ⟨by omega, Or.inl hlimit⟩, .returned (-1), rfl, rfl⟩
    cases later with
    | nil => rfl
    | cons frame later =>
        have hlength := peeklen_next (by omega) hwaiting
        have hle := frame.le_limit
        omega
  rw [if_neg hlimit]
  by_cases hmore : fb.size < Request.peeklen fb.data
  · -- the head is there, and its frame is not: the loop waits
    rw [dif_pos hmore]
    refine Or.inr ⟨fun hbad => ?_, rfl⟩
    obtain hlarge | ⟨-, hcame⟩ := hbad.2.2
    · exact hlimit hlarge
    · omega
  rw [dif_neg hmore]
  -- what waits would be the whole next frame, if there was one
  have hlast : later = [] := by
    cases later with
    | nil => rfl
    | cons frame later =>
        have hlength := peeklen_next (by omega) hwaiting
        have hless := hshort frame rfl
        omega
  subst hlast
  -- the tail is bad, and the part of it that came is too short for a head
  have hsmall : Request.peeklen fb.data < 10 := by
    obtain rfl | ⟨-, hbad⟩ := htail
    · have hlength := congrArg List.length hwaiting
      simp only [Frame.stream, List.flatMap_nil, List.append_nil, List.length_append,
        List.length_nil] at hlength
      omega
    · have hpeek : Request.peeklen tail = Request.peeklen fb.data := by
        rw [← Request.peeklen_append fb.data rest (by omega), hwaiting]
        rfl
      omega
  obtain ⟨err, herr⟩ := Request.head_short type
    (show (fb.data.take (Request.peeklen fb.data)).length < 10 by
      rw [List.length_take]
      omega)
  rw [herr]
  exact Or.inl ⟨rfl, ⟨by omega, Or.inr ⟨hsmall, by omega⟩⟩, .thrown, rfl, rfl⟩

/-- A turn at a whole frame hands exactly this frame over. -/
theorem turn_frame {frame : ConnFrame packLimit} {behind : List UInt8} {fb : WrapForwardBuffer}
    (hfb : fb.data = frame.bytes ++ behind) (seen : List Request) :
    ((doRequest seen (frame.request type)).ends = true ∧
      BackLinkHandler.turn doRequest packLimit type fb seen =
        .done (doRequest seen (frame.request type)) (seen ++ [frame.request type])) ∨
    ((doRequest seen (frame.request type)).ends = false ∧
      ∃ hlength : frame.bytes.length ≤ fb.size,
        BackLinkHandler.turn doRequest packLimit type fb seen =
          .more (fb.erase frame.bytes.length hlength) (seen ++ [frame.request type])) := by
  have hhead := frame.head_le
  have hlimit := frame.le_limit
  have hsize : fb.size = frame.bytes.length + behind.length := by
    rw [← fb.length_data, hfb, List.length_append]
  have hpeek : Request.peeklen fb.data = frame.bytes.length := by
    rw [hfb, Request.peeklen_append _ _ (by omega), frame.length_eq]
  have htake : fb.data.take frame.bytes.length = frame.bytes := by rw [hfb, List.take_left]
  unfold BackLinkHandler.turn
  rw [if_neg (fun hempty => by have hzero := fb.isEmpty_iff.mp hempty; omega),
    if_neg (by omega)]
  simp only [hpeek, htake]
  rw [if_neg (by omega), dif_neg (by omega), frame.head_request]
  dsimp only
  cases hresult : doRequest seen (frame.request type) with
  | thrown => exact Or.inl ⟨rfl, rfl⟩
  | returned ret =>
      by_cases hend : ret = -1
      · exact Or.inl ⟨by simp [CallResult.ends, hend], by simp [hend]⟩
      · exact Or.inr ⟨by simpa [CallResult.ends] using hend, by omega, by simp [hend]⟩

/-- No request served ended the connection, and no bad frame was found out. -/
def Stays (served : List Request × Option CallResult) (later : List (ConnFrame packLimit))
    (waiting : List UInt8) : Prop :=
  served.2 = none ∧ ¬ (later = [] ∧ Rejected packLimit waiting)

/-- The loop serves the whole frames, and stops at what waits behind them. -/
theorem onDataLoop_cut {whole later : List (ConnFrame packLimit)} {tail waiting rest : List UInt8}
    (htail : tail = [] ∨ BadFrame packLimit tail)
    (hwaiting : waiting ++ rest = Frame.stream later ++ tail)
    (hshort : ∀ frame ∈ later.head?, waiting.length < frame.bytes.length)
    {fb : WrapForwardBuffer} (hfb : fb.data = Frame.stream whole ++ waiting)
    (seen : List Request) :
    ∃ fuel result,
      BackLinkHandler.onDataLoop doRequest packLimit type fuel fb seen =
        some (result, (serve doRequest seen (whole.map (Frame.request type))).1) ∧
      (Stays (serve doRequest seen (whole.map (Frame.request type))) later waiting →
        result = .returned (fb.offset + (Frame.stream whole).length : Nat)) ∧
      (¬ Stays (serve doRequest seen (whole.map (Frame.request type))) later waiting →
        result.ends = true) := by
  induction whole generalizing fb seen with
  | nil =>
      refine ⟨1, ?_⟩
      obtain ⟨hlast, hbad, result, hends, hturn⟩ | ⟨hgood, hturn⟩ :=
        turn_waiting doRequest type htail hwaiting hshort hfb seen
      · exact ⟨result, by rw [BackLinkHandler.onDataLoop, hturn]; rfl,
          fun hstays => absurd ⟨hlast, hbad⟩ hstays.2, fun _ => hends⟩
      · exact ⟨.returned fb.offset, by rw [BackLinkHandler.onDataLoop, hturn]; rfl,
          fun _ => rfl, fun hends => absurd ⟨rfl, hgood⟩ hends⟩
  | cons frame whole ih =>
      rw [Frame.stream, List.flatMap_cons, List.append_assoc] at hfb
      obtain ⟨hends, hturn⟩ | ⟨hgoes, hlength, hturn⟩ := turn_frame doRequest type hfb seen
      · -- this request ends the connection, and no later frame is looked at
        refine ⟨1, doRequest seen (frame.request type), ?_, ?_, fun _ => hends⟩
        · rw [BackLinkHandler.onDataLoop, hturn]
          simp [serve, hends]
        · intro hstays
          simp [Stays, serve, hends] at hstays
      · have hbehind : (fb.erase frame.bytes.length hlength).data =
            Frame.stream whole ++ waiting := by
          rw [fb.data_erase, hfb, List.drop_left, Frame.stream]
        obtain ⟨fuel, result, hloop, hresult⟩ := ih hbehind (seen ++ [frame.request type])
        have hserve : serve doRequest seen ((frame :: whole).map (Frame.request type)) =
            serve doRequest (seen ++ [frame.request type]) (whole.map (Frame.request type)) := by
          rw [List.map_cons, serve, if_neg (by simp [hgoes])]
        refine ⟨fuel + 1, result, ?_, ?_⟩
        · rw [BackLinkHandler.onDataLoop, hturn, hserve]
          exact hloop
        · rw [hserve]
          have hoffset : (fb.erase frame.bytes.length hlength).offset +
              (Frame.stream whole).length =
                fb.offset + (Frame.stream (frame :: whole)).length := by
            simp only [WrapForwardBuffer.offset, WrapForwardBuffer.erase, Frame.stream,
              List.flatMap_cons, List.length_append]
            omega
          rw [← hoffset]
          exact hresult

/-- `onData` on received bytes that are cut so. -/
theorem onData_cut {whole later : List (ConnFrame packLimit)} {tail waiting rest : List UInt8}
    (htail : tail = [] ∨ BadFrame packLimit tail)
    (hwaiting : waiting ++ rest = Frame.stream later ++ tail)
    (hshort : ∀ frame ∈ later.head?, waiting.length < frame.bytes.length)
    (seen : List Request) :
    let served := serve doRequest seen (whole.map (Frame.request type))
    let answer := BackLinkHandler.onData doRequest packLimit type seen
      (Frame.stream whole ++ waiting)
    answer.2 = served.1 ∧
      (Stays served later waiting → answer.1 = .returned (Frame.stream whole).length) ∧
      (¬ Stays served later waiting → answer.1.ends = true) := by
  obtain ⟨fuel, result, hloop, hresult⟩ := onDataLoop_cut doRequest type htail hwaiting hshort
    (show (WrapForwardBuffer.new (Frame.stream whole ++ waiting)).data = _ from rfl) seen
  have hdata := BackLinkHandler.onData_eq hloop
  dsimp only
  rw [hdata]
  refine ⟨rfl, ?_⟩
  simpa [WrapForwardBuffer.offset, WrapForwardBuffer.new] using hresult

end OnData

/-! ## Runs of a connection -/

section Runs

variable {cipher : StreamCipher} (doRequest : DoRequest) {packLimit : UInt32}
  (flt : RC4Filter cipher) (frames : List (ConnFrame packLimit)) (tail : List UInt8)

/-- The bytes that came, and the filter behind them. -/
def received (events : List Link.Readable) : List UInt8 × RC4Filter cipher :=
  flt.filter (events.flatMap Link.Readable.bytes)

/-- A connection that received `text` and has `rest` to come dispatched the
frames that came whole, until one of them ended it, and keeps what waits. -/
def Framed (text rest : List UInt8) (link : Link cipher) : Prop :=
  ∃ whole later waiting, Cut frames whole later tail text waiting rest ∧
    link.seen = (serve doRequest [] (whole.map (Frame.request (Link.connType flt)))).1 ∧
    (link.ended = none ↔
      Stays (serve doRequest [] (whole.map (Frame.request (Link.connType flt)))) later waiting) ∧
    (link.ended = none → link.conn.mInput.buffer.data = waiting)

variable {doRequest flt frames tail}

theorem received_append (past : List Link.Readable) (event : Link.Readable) :
    received flt (past ++ [event]) =
      ((received flt past).1 ++ ((received flt past).2.filter event.bytes).1,
        ((received flt past).2.filter event.bytes).2) := by
  rw [received, List.flatMap_append, RC4Filter.filter_append, List.flatMap_singleton, received]

theorem start_framed {text : List UInt8} (htext : text = Frame.stream frames ++ tail) :
    Framed doRequest flt frames tail [] text (Link.start flt) := by
  refine ⟨[], frames, [], ⟨rfl, rfl, htext, ?_⟩, rfl, ?_, fun _ => rfl⟩
  · intro frame hframe
    have hhead := frame.head_le
    simp only [List.length_nil]
    omega
  · refine ⟨fun _ => ⟨rfl, fun hbad => ?_⟩, fun _ => rfl⟩
    have hfour := hbad.2.1
    simp at hfour

/-- What `onRead` makes of a chunk it had room for. -/
theorem onRead_received (doRequest : DoRequest) (packLimit : UInt32)
    {link : Link cipher} {malloc : Malloc} {chunk : List UInt8}
    (hwell : link.conn.mInput.buffer.WellFormed connParams) (hchunk : chunk ≠ [])
    (hroom : chunk.length ≤ link.room malloc) :
    let crypted := link.conn.mInput.filter.filter chunk
    let answer := BackLinkHandler.onData doRequest packLimit (Link.connType crypted.2) link.seen
      (link.conn.mInput.buffer.data ++ crypted.1)
    let next := link.onRead doRequest packLimit malloc (.received chunk)
    next.seen = answer.2 ∧
      (answer.1.ends = true → next.ended ≠ none) ∧
      ∀ consumed : Nat, answer.1 = .returned consumed →
        next.ended = link.ended ∧ next.conn.mInput.buffer.WellFormed connParams ∧
        next.conn.mInput.buffer.data =
          (link.conn.mInput.buffer.data ++ crypted.1).drop consumed ∧
        next.conn.mInput.filter = crypted.2 := by
  obtain ⟨input, hpump, hinput, hdata, hfilter⟩ :=
    SockBuffer.pump_received hwell hchunk hroom
  have hpos : (chunk.length : Int) > 0 := by
    have hlength := List.length_pos_iff.mpr hchunk
    omega
  dsimp only
  unfold Link.onRead
  simp only [hpump, if_pos hpos, hdata, hfilter]
  cases hanswer : BackLinkHandler.onData doRequest packLimit
      (Link.connType (link.conn.mInput.filter.filter chunk).2) link.seen
      (link.conn.mInput.buffer.data ++ (link.conn.mInput.filter.filter chunk).1) with
  | mk result seen =>
      cases result with
      | thrown => simp
      | returned ret =>
          dsimp only
          by_cases hend : ret = -1
          · simp [hend]
          · -- what was consumed is erased, and the rest waits for the next chunk
            rw [if_neg hend]
            refine ⟨rfl, fun hends => absurd hends (by simpa [CallResult.ends] using hend), ?_⟩
            intro consumed hconsumed
            cases hconsumed
            obtain ⟨herased, hleft⟩ :=
              BlockBuffer.erase_spec consumed false hinput (Nat.zero_le _)
            refine ⟨rfl, herased, ?_, rfl⟩
            rw [← hdata]
            simpa [Link.withInput] using hleft

/-- Between two events an open connection holds a sound buffer, whose filter
has seen what came. -/
structure Ready (link : Link cipher) (filter : RC4Filter cipher) : Prop where
  wellFormed : link.conn.mInput.buffer.WellFormed connParams
  filter_eq : link.conn.mInput.filter = filter

/-- One more chunk keeps the connection framed. -/
theorem step_framed {past : List Link.Readable} {event : Link.Readable} {rest : List UInt8}
    {link next : Link cipher} (htail : tail = [] ∨ BadFrame packLimit tail)
    (hchunk : event.bytes ≠ [])
    (hready : link.ended = none → Ready link (received flt past).2)
    (hframed : Framed doRequest flt frames tail (received flt past).1
      (((received flt past).2.filter event.bytes).1 ++ rest) link)
    (hstep : link.step doRequest packLimit event = some next) :
    Framed doRequest flt frames tail (received flt (past ++ [event])).1 rest next ∧
      (next.ended = none → Ready next (received flt (past ++ [event])).2) := by
  have hopen : link.ended = none ∧ event.bytes.length ≤ link.room event.malloc ∧
      link.onRead doRequest packLimit event.malloc event.answer = next := by
    unfold Link.step at hstep
    split at hstep
    · cases hstep
    next hguard =>
      simp only [Bool.or_eq_true, decide_eq_true_eq, not_or,
        Option.not_isSome_iff_eq_none] at hguard
      exact ⟨hguard.1, Nat.le_of_not_gt hguard.2, Option.some.inj hstep⟩
  obtain ⟨hended, hroom, hnext⟩ := hopen
  obtain ⟨chunk, hanswer, hbytes⟩ : ∃ chunk, event.answer = .received chunk ∧
      event.bytes = chunk := by
    cases hanswer : event.answer with
    | received chunk => exact ⟨chunk, rfl, by rw [Link.Readable.bytes, hanswer]⟩
    | again => exact absurd (by rw [Link.Readable.bytes, hanswer]) hchunk
    | failed => exact absurd (by rw [Link.Readable.bytes, hanswer]) hchunk
  rw [hanswer] at hnext
  subst hbytes
  obtain ⟨hwell, hfilter⟩ := hready hended
  obtain ⟨whole, later, waiting, hcut, hseen, hends, hdata⟩ := hframed
  have hstays := hends.mp hended
  have hwaiting := hdata hended
  obtain ⟨whole', later', waiting', hmore⟩ := exists_cut later
    (show (waiting ++ ((received flt past).2.filter event.bytes).1) ++ rest = _ ++ tail by
      rw [List.append_assoc]
      exact hcut.waiting_eq)
  -- the requests of both cuts, one after the other
  have hserve : serve doRequest [] ((whole ++ whole').map (Frame.request (Link.connType flt))) =
      serve doRequest link.seen (whole'.map (Frame.request (Link.connType flt))) := by
    rw [List.map_append, serve_append, if_pos hstays.1, hseen]
  have htype : Link.connType ((received flt past).2.filter event.bytes).2 =
      Link.connType flt := by
    rw [Link.connType, RC4Filter.filter_isEncrypto, received, RC4Filter.filter_isEncrypto,
      Link.connType]
  obtain ⟨hdispatched, hstop, hgo⟩ := onRead_received doRequest packLimit hwell
    hchunk hroom
  obtain ⟨hanswered, hstaying, hending⟩ := onData_cut doRequest (Link.connType flt)
    htail hmore.waiting_eq hmore.waiting_short link.seen
  rw [hfilter, hwaiting, htype, hmore.received_eq] at hdispatched hstop hgo
  rw [hnext] at hdispatched hstop hgo
  rw [← hserve] at hanswered hstaying hending
  rw [received_append]
  have hframed : Framed doRequest flt frames tail
      ((received flt past).1 ++ ((received flt past).2.filter event.bytes).1) rest next ∧
      (next.ended = none → Ready next ((received flt past).2.filter event.bytes).2) := by
    by_cases hnow : Stays (serve doRequest []
        ((whole ++ whole').map (Frame.request (Link.connType flt)))) later' waiting'
    · obtain ⟨hopen, hwell', hdata', hfilter'⟩ := hgo _ (hstaying hnow)
      rw [List.drop_left] at hdata'
      exact ⟨⟨whole ++ whole', later', waiting', hcut.trans hmore, hdispatched.trans hanswered,
        ⟨fun _ => hnow, fun _ => hopen.trans hended⟩, fun _ => hdata'⟩,
        fun _ => ⟨hwell', hfilter'⟩⟩
    · have hclosed := hstop (hending hnow)
      exact ⟨⟨whole ++ whole', later', waiting', hcut.trans hmore, hdispatched.trans hanswered,
        ⟨fun hopen => absurd hopen hclosed, fun hopen => absurd hopen hnow⟩,
        fun hopen => absurd hopen hclosed⟩, fun hopen => absurd hopen hclosed⟩
  exact hframed

theorem run_framed {events : List Link.Readable} (htail : tail = [] ∨ BadFrame packLimit tail)
    (hchunks : ∀ event ∈ events, event.bytes ≠ []) :
    ∀ {rest : List UInt8} {final : Link cipher},
      (received flt events).1 ++ rest = Frame.stream frames ++ tail →
      run (Link.step doRequest packLimit) (Link.start flt) events = some final →
      Framed doRequest flt frames tail (received flt events).1 rest final ∧
        (final.ended = none → Ready final (received flt events).2) := by
  induction events using List.reverseRecOn with
  | nil =>
      intro rest final hreceived hrun
      cases hrun
      have hnothing : received flt [] = ([], flt) := RC4Filter.filter_nil flt
      rw [hnothing] at hreceived ⊢
      exact ⟨start_framed hreceived, fun _ => ⟨BlockBuffer.init_wellFormed, rfl⟩⟩
  | append_singleton past event ih =>
      intro rest final hreceived hrun
      obtain ⟨link, hpast, hevent⟩ := run_split hrun
      rw [run_cons, Option.bind_eq_some_iff] at hevent
      obtain ⟨next, hstep, hnext⟩ := hevent
      cases hnext
      have hbefore : (received flt past).1 ++
          (((received flt past).2.filter event.bytes).1 ++ rest) = Frame.stream frames ++ tail := by
        rw [← hreceived, received_append, List.append_assoc]
      obtain ⟨hframed, hready⟩ := ih (fun event hmem => hchunks event (by simp [hmem]))
        hbefore hpast
      exact step_framed htail (hchunks event (by simp)) hready hframed hstep

/-- A handler that never ends the connection is handed a whole stream. -/
theorem Framed.all {link : Link cipher}
    (hgoes : ∀ seen request, ¬ (doRequest seen request).ends)
    (hframed : Framed doRequest flt frames [] (Frame.stream frames) [] link) :
    link.seen = frames.map (Frame.request (Link.connType flt)) ∧ link.ended = none ∧
      link.conn.mInput.buffer.data = [] := by
  obtain ⟨whole, later, waiting, hcut, hseen, hends, hdata⟩ := hframed
  have hwaiting := hcut.waiting_eq
  rw [List.append_nil, List.append_nil] at hwaiting
  have hlast : later = [] := by
    cases later with
    | nil => rfl
    | cons frame later =>
        have hless := hcut.waiting_short frame rfl
        rw [hwaiting, Frame.stream, List.flatMap_cons, List.length_append] at hless
        omega
  subst hlast
  have hnothing : waiting = [] := hwaiting
  have hwhole : whole = frames := by rw [hcut.frames_eq, List.append_nil]
  rw [serve_all hgoes, hwhole] at hseen hends
  have hopen : link.ended = none := by
    refine hends.mpr ⟨rfl, fun hbad => ?_⟩
    have hfour := hbad.2.1
    simp [hnothing] at hfour
  exact ⟨by simpa using hseen, hopen, (hdata hopen).trans hnothing⟩

/-- What waits in an open connection never fills the input buffer. -/
theorem Framed.room {text rest : List UInt8} {link : Link cipher} {filter : RC4Filter cipher}
    (htail : tail = [] ∨ BadFrame packLimit tail)
    (hframed : Framed doRequest flt frames tail text rest link) (hready : Ready link filter)
    (hended : link.ended = none) (junk : Nat → UInt8) : 0 < link.room (some junk) := by
  obtain ⟨whole, later, waiting, hcut, -, hends, hdata⟩ := hframed
  have hsize := hready.wellFormed.length_data
  rw [hdata hended] at hsize
  have hmax : BlockBuffer.maxsize connParams = 8388608 := rfl
  apply SockBuffer.offer_room junk hready.wellFormed (by decide)
  rw [← hsize, hmax]
  cases later with
  | cons frame later =>
      have hless := hcut.waiting_short frame rfl
      have hlimit := frame.le_limit
      omega
  | nil =>
      have hgood := (hends.mp hended).2
      obtain rfl | ⟨hfour, hbad⟩ := htail
      · have hlength := congrArg List.length hcut.waiting_eq
        simp only [Frame.stream, List.flatMap_nil, List.append_nil, List.length_append,
          List.length_nil] at hlength
        omega
      · by_contra hlarge
        have hpeek : Request.peeklen tail = Request.peeklen waiting := by
          rw [← Request.peeklen_append waiting rest (by omega), hcut.waiting_eq]
          rfl
        refine hgood ⟨rfl, by omega, ?_⟩
        omega

end Runs

/-! ## Framing -/

/-- A heartbeat: a head without a body. -/
def ping : ConnFrame 100 where
  bytes := [10, 0, 0, 0, 1, 0, 0, 0, 200, 0]
  length_eq := by decide
  head_le := by decide
  le_limit := by decide

/-- Two heartbeats, cut inside the length of the second. -/
def pings : List Link.Readable :=
  [⟨some fun _ => 0, .received (ping.bytes ++ ping.bytes.take 3)⟩,
    ⟨some fun _ => 0, .received (ping.bytes.drop 3)⟩]

end ServiceFrame
