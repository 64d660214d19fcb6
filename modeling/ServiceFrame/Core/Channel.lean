import Mathlib.Algebra.Group.Nat.Defs
import ServiceFrame.Core.Framing
import ServiceFrame.Core.Sender

/-! # Packets from end to end

The two ends of one TCP connection. Packets go out at the near end, directly, in part or
through the output buffer; the socket carries the bytes in order and without loss; the far
end takes them in chunks of any size, whenever it is readable.
-/

namespace ServiceFrame

open Foundation

/-! ## A packet -/

/-- The sender was constructed, and calls were made on it. -/
def Sender.InUse (resp : Sender) : Prop :=
  ∃ mallocs garbage start calls, Sender.new mallocs garbage = .ok start ∧
    run SenderCall.step start calls = some resp

theorem Sender.InUse.room {resp : Sender} (hinUse : resp.InUse) : resp.Room := by
  obtain ⟨mallocs, garbage, start, calls, hnew, hrun⟩ := hinUse
  exact (SenderCall.run_some (Sender.new_ok hnew).1 hrun).1

/-- A packet that the pack limit and the input buffer of the far end let pass. -/
structure Packet (packLimit : UInt32) where
  resp : Sender
  inUse : resp.InUse
  fits : headerSize + resp.body.length ≤ min packLimit.toNat (BlockBuffer.maxsize connParams)

/-- What a request says. -/
def Request.message (request : Request) : OutMessage :=
  ⟨request.uri.toInt32, request.resCode, request.up⟩

/-- `AbstractConn::send(resp)`. -/
def InnerConn.send {cipher : StreamCipher} (malloc : Malloc) (answer : SendAnswer)
    (conn : InnerConn cipher) (resp : Sender) : Option (InnerConn cipher) :=
  match resp.endPack with
  | .error _ => none
  | .ok ended => conn.sendBin malloc answer ended.frame

namespace Packet

variable {packLimit : UInt32}

theorem size_lt (packet : Packet packLimit) : headerSize + packet.resp.body.length < 2 ^ 32 := by
  have hfits := packet.fits
  have hlimit := packLimit.toNat_lt
  omega

theorem length_bytes (packet : Packet packLimit) :
    (packet.resp.header (headerSize + packet.resp.body.length) ++ packet.resp.body).length =
      headerSize + packet.resp.body.length := by
  rw [List.length_append, Sender.length_header]

theorem headerSize_le (packet : Packet packLimit) :
    headerSize ≤
      (packet.resp.header (headerSize + packet.resp.body.length) ++ packet.resp.body).length := by
  rw [packet.length_bytes]
  exact Nat.le_add_right _ _

theorem peeklen_bytes (packet : Packet packLimit) :
    Request.peeklen
        (packet.resp.header (headerSize + packet.resp.body.length) ++ packet.resp.body) =
      (packet.resp.header (headerSize + packet.resp.body.length) ++ packet.resp.body).length := by
  rw [Request.peeklen_frame packet.resp packet.size_lt, packet.length_bytes]

theorem length_le (packet : Packet packLimit) :
    (packet.resp.header (headerSize + packet.resp.body.length) ++ packet.resp.body).length ≤
      min packLimit.toNat (BlockBuffer.maxsize connParams) := by
  rw [packet.length_bytes]
  exact packet.fits

/-- The frame that the packet is on the wire. -/
def frame (packet : Packet packLimit) : ConnFrame packLimit where
  bytes := packet.resp.header (headerSize + packet.resp.body.length) ++ packet.resp.body
  length_eq := packet.peeklen_bytes
  head_le := packet.headerSize_le
  le_limit := packet.length_le

end Packet

/-! ## The two ends -/

/-- A connection, and the link at its other end. -/
structure Channel (cipher : StreamCipher) where
  near : InnerConn cipher
  far : Link cipher
  /-- How many bytes of the wire the far end took. -/
  taken : Nat

namespace Channel

variable {cipher : StreamCipher} (doRequest : DoRequest) {packLimit : UInt32}

/-- What happens at either end, with the answers of the allocator and of the sockets. -/
inductive Event (packLimit : UInt32) where
  | send (malloc : Malloc) (answer : SendAnswer) (packet : Packet packLimit)
  | selectConnecting (answer : SendAnswer)
  | handleWrite (answer : SendAnswer) (established : Bool)
  | read (malloc : Malloc) (count : Nat)

/-- The filter of either end, once both know the key. -/
def filterOf (cipher : StreamCipher) (key : Option (List UInt8)) : RC4Filter cipher :=
  key.map cipher.setKey

/-- Both ends are constructed, and have the key, if there is one. -/
def start (key : Option (List UInt8)) (connected : Bool) : Channel cipher where
  near :=
    match key with
    | none => .new connected
    | some key => (InnerConn.new connected).setEncKey key
  far := .start (filterOf cipher key)
  taken := 0

/-- What the far end reads when its socket answers with `count` bytes. -/
def readable (channel : Channel cipher) (malloc : Malloc) (count : Nat) : Link.Readable :=
  ⟨malloc, .received ((channel.near.wire.drop channel.taken).take count)⟩

/-- The far socket answers with bytes that are on the wire, at least one of them. -/
def read (packLimit : UInt32) (channel : Channel cipher) (malloc : Malloc) (count : Nat) :
    Option (Channel cipher) :=
  if 0 < count ∧ channel.taken + count ≤ channel.near.wire.length then
    (channel.far.step doRequest packLimit (channel.readable malloc count)).map fun far =>
      { channel with far := far, taken := channel.taken + count }
  else none

def step (channel : Channel cipher) : Event packLimit → Option (Channel cipher)
  | .send malloc answer packet =>
      (channel.near.send malloc answer packet.resp).map fun near => { channel with near := near }
  | .selectConnecting answer =>
      (channel.near.selectConnecting answer).map fun near => { channel with near := near }
  | .handleWrite answer established =>
      (channel.near.handleWrite answer established).map fun near => { channel with near := near }
  | .read malloc count => channel.read doRequest packLimit malloc count

/-- The packets that were sent, in call order. -/
def packets : List (Event packLimit) → List (Packet packLimit)
  | [] => []
  | .send _ _ packet :: rest => packet :: packets rest
  | .selectConnecting _ :: rest => packets rest
  | .handleWrite _ _ :: rest => packets rest
  | .read _ _ :: rest => packets rest

variable {doRequest}

/-- The bytes of the packets. -/
def stream (packets : List (Packet packLimit)) : List UInt8 :=
  Frame.stream (packets.map Packet.frame)

theorem stream_append (first second : List (Packet packLimit)) :
    stream (first ++ second) = stream first ++ stream second := by
  rw [stream, List.map_append, Frame.stream_append, stream, stream]

section Wire

variable {conn next : InnerConn cipher}

end Wire

/-! ## What the far end took from it -/

variable (doRequest) in
/-- The far end has read the first `taken` bytes of the wire, in some chunks. -/
def Taken (flt : RC4Filter cipher) (packLimit : UInt32) (channel : Channel cipher) : Prop :=
  channel.taken ≤ channel.near.wire.length ∧ ∃ reads : List Link.Readable,
    run (Link.step doRequest packLimit) (Link.start flt) reads = some channel.far ∧
    (∀ event ∈ reads, event.bytes ≠ []) ∧
    reads.flatMap Link.Readable.bytes = channel.near.wire.take channel.taken

/-- The wire is the crypted stream of the packets, as far as it went out, and the far end
took the start of it. -/
structure Carries (doRequest : DoRequest) (key : Option (List UInt8))
    (sent : List (Packet packLimit)) (channel : Channel cipher) : Prop where
  streams : InnerConn.Streams key (stream sent) channel.near
  taken : Taken doRequest (filterOf cipher key) packLimit channel

/-- What happens at the near end leaves the bytes that were taken on the wire. -/
theorem Taken.near {flt : RC4Filter cipher} {channel : Channel cipher} {near : InnerConn cipher}
    (htaken : Taken doRequest flt packLimit channel) (hwire : channel.near.wire <+: near.wire) :
    Taken doRequest flt packLimit { channel with near := near } := by
  obtain ⟨hle, reads, hrun, hchunks, hbytes⟩ := htaken
  refine ⟨hle.trans hwire.length_le, reads, hrun, hchunks, ?_⟩
  obtain ⟨more, hmore⟩ := hwire
  rw [hbytes, ← hmore, List.take_append_of_le_length hle]

theorem Taken.read {flt : RC4Filter cipher} {channel next : Channel cipher} {malloc : Malloc}
    {count : Nat} (htaken : Taken doRequest flt packLimit channel)
    (hread : channel.read doRequest packLimit malloc count = some next) :
    next.near = channel.near ∧ Taken doRequest flt packLimit next := by
  unfold Channel.read at hread
  split at hread
  next hcount =>
    obtain ⟨far, hfar, rfl⟩ := Option.map_eq_some_iff.mp hread
    obtain ⟨hle, reads, hrun, hchunks, hbytes⟩ := htaken
    have hchunk : (channel.readable malloc count).bytes =
        (channel.near.wire.drop channel.taken).take count := rfl
    refine ⟨rfl, hcount.2, reads ++ [channel.readable malloc count], ?_, ?_, ?_⟩
    · rw [run_append, hrun, Option.bind_some, run_cons, hfar]
      rfl
    · intro event hevent
      rw [List.mem_append, List.mem_singleton] at hevent
      obtain hold | rfl := hevent
      · exact hchunks event hold
      · rw [hchunk]
        apply List.ne_nil_of_length_pos
        rw [List.length_take, List.length_drop]
        omega
    · rw [List.flatMap_append, hbytes, List.flatMap_singleton, hchunk, List.take_add]
  · cases hread

section Dispatched

variable {key : Option (List UInt8)} {sent : List (Packet packLimit)} {channel : Channel cipher}

/-- What the far end took, decrypted, is the start of the stream. -/
theorem Carries.received (hcarries : Carries doRequest key sent channel) :
    ∃ reads, run (Link.step doRequest packLimit) (Link.start (filterOf cipher key)) reads =
        some channel.far ∧ (∀ event ∈ reads, event.bytes ≠ []) ∧
      (received (filterOf cipher key) reads).1 = (stream sent).take channel.taken := by
  obtain ⟨hle, reads, hrun, hchunks, hbytes⟩ := hcarries.taken
  refine ⟨reads, hrun, hchunks, ?_⟩
  have hwire : channel.near.wire.take channel.taken =
      ((filterOf cipher key).filter ((stream sent).take channel.taken)).1 := by
    rw [InnerConn.filter_take]
    have hstream := congrArg (List.take channel.taken) hcarries.streams.stream
    rwa [List.take_append_of_le_length hle] at hstream
  rw [ServiceFrame.received, hbytes, hwire, RC4Filter.filter_filter]

/-- With everything on the wire, and all of it taken, the whole stream arrived. -/
theorem Carries.taken_all (hcarries : Carries doRequest key sent channel)
    (hbuffered : channel.near.mOutput.buffer.data = [])
    (htaken : channel.taken = channel.near.wire.length) :
    channel.taken = (stream sent).length := by
  have hlength := congrArg List.length hcarries.streams.stream
  rw [hbuffered, List.append_nil, InnerConn.filterAfter, RC4Filter.length_filter] at hlength
  exact htaken.trans hlength

/-- The far end dispatched the packets that came whole, until a request ended it. -/
theorem Carries.dispatched (hcarries : Carries doRequest key sent channel) :
    ∃ whole later, sent = whole ++ later ∧
      let type := Link.connType (filterOf cipher key)
      let served := serve doRequest [] (whole.map fun packet => packet.frame.request type)
      channel.far.seen = served.1 ∧ (channel.far.ended = none ↔ served.2 = none) ∧
      (channel.far.ended = none → ∀ junk, 0 < channel.far.room (some junk)) ∧
      (channel.near.mOutput.buffer.data = [] → channel.taken = channel.near.wire.length →
        later = []) := by
  obtain ⟨reads, hrun, hchunks, hreceived⟩ := hcarries.received
  have hstream : (ServiceFrame.received (filterOf cipher key) reads).1 ++
      (stream sent).drop channel.taken = Frame.stream (sent.map Packet.frame) ++ [] := by
    rw [hreceived, List.take_append_drop, List.append_nil, stream]
  obtain ⟨hframed, hready⟩ := run_framed (Or.inl rfl) hchunks hstream hrun
  have hroom := fun hended junk => hframed.room (Or.inl rfl) (hready hended) hended junk
  obtain ⟨frames, laterFrames, waiting, hcut, hseen, hends, -⟩ := hframed
  obtain ⟨whole, later, hsplit, rfl, rfl⟩ := List.map_eq_append_iff.mp hcut.frames_eq
  have hwaiting := hcut.waiting_eq
  rw [List.append_nil] at hwaiting
  rw [List.map_map] at hseen hends
  refine ⟨whole, later, hsplit, hseen, ?_, hroom, ?_⟩
  · -- no bad frame waits behind the packets
    refine hends.trans (and_iff_left ?_)
    rintro ⟨hlast, hfour, -⟩
    rw [hlast] at hwaiting
    have hlength := congrArg List.length hwaiting
    simp only [Frame.stream, List.flatMap_nil, List.length_append, List.length_nil] at hlength
    omega
  · intro hbuffered htaken
    have hall := hcarries.taken_all hbuffered htaken
    rw [hall, List.drop_length, List.append_nil] at hwaiting
    cases later with
    | nil => rfl
    | cons packet later =>
        -- a packet that is whole does not wait
        have hless := hcut.waiting_short packet.frame rfl
        rw [hwaiting, Frame.stream, List.map_cons, List.flatMap_cons, List.length_append] at hless
        omega

end Dispatched

/-- A packet with two bytes in it. -/
theorem exists_packet : ∃ packet : Packet 100, packet.resp.message = ⟨7, 200, [1, 2]⟩ ∧
    packet.frame.bytes = [12, 0, 0, 0, 7, 0, 0, 0, 200, 0, 1, 2] := by
  obtain ⟨resp, hinUse, hmessage⟩ :
      ∃ resp : Sender, resp.InUse ∧ resp.message = ⟨7, 200, [1, 2]⟩ :=
    ⟨_, ⟨fun _ => some fun _ => 0, 0, _, [.marshallUri 7 [.push [1, 2]]], rfl, rfl⟩, rfl⟩
  obtain ⟨huri, hresCode, hbody⟩ : resp.uri = 7 ∧ resp.resCode = 200 ∧ resp.body = [1, 2] := by
    simpa only [Sender.message, OutMessage.mk.injEq] using hmessage
  refine ⟨⟨resp, hinUse, by rw [hbody]; decide⟩, hmessage, ?_⟩
  simp only [Packet.frame, Sender.header, huri, hresCode, hbody]
  decide

end Channel

end ServiceFrame
