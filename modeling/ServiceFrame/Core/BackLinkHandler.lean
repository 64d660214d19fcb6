import ServiceFrame.Common.Packet
import ServiceFrame.Core.InnerConn

/-! # Reading requests from a connection

`InnerConn::onRead` and `BackLinkHandler::onData` of `core/corelib`: what a
connection receives is cut into requests, each of which starts with its own
length, and each request is handed to the application. What the application
does with a request may depend on all requests it was handed before.
-/

namespace ServiceFrame

open Foundation

/-- How the input of a connection came: `TCP_ENCODE` or `TCP_UNCODE`. -/
inductive ConnType where
  | tcpEncode
  | tcpUncode
deriving DecidableEq

/-- A `Request` whose head was read: the original data, the header, and what
is left to unpack. -/
structure Request where
  od : List UInt8
  length : UInt32
  uri : UInt32
  resCode : UInt16
  up : Unpack
  connectType : ConnType
deriving DecidableEq

namespace Request

/-- `peeklen(d)`: the number in the first four bytes. -/
def peeklen (d : List UInt8) : Nat := leNat (d.take 4)

/-- `Request(data, size)`, then `head()` and `setConnType(type)`. -/
def head (type : ConnType) (data : List UInt8) : Except UnpackError Request :=
  (Unpack.popUint32 data).bind fun (length, up) =>
    (Unpack.popUint32 up).bind fun (uri, up) =>
      (Unpack.popUint16 up).bind fun (resCode, up) =>
        .ok { od := data, length, uri, resCode, up, connectType := type }

end Request

/-- A call that answered, or left with an exception. -/
inductive CallResult where
  | returned (ret : Int)
  | thrown
deriving DecidableEq

/-- The result ends the connection: `-1` closes it, an exception is an error. -/
def CallResult.ends : CallResult → Bool
  | .returned ret => ret == -1
  | .thrown => true

/-- What `doRequest` answers to a request, after the requests it saw before. -/
abbrev DoRequest := List Request → Request → CallResult

/-- A cursor that moves forward over received data. -/
structure WrapForwardBuffer where
  mData : List UInt8
  mPos : Nat
  pos_le : mPos ≤ mData.length

namespace WrapForwardBuffer

def new (data : List UInt8) : WrapForwardBuffer := ⟨data, 0, Nat.zero_le _⟩

def data (fb : WrapForwardBuffer) : List UInt8 := fb.mData.drop fb.mPos

def size (fb : WrapForwardBuffer) : Nat := fb.mData.length - fb.mPos

def isEmpty (fb : WrapForwardBuffer) : Bool := fb.mData.length == fb.mPos

def offset (fb : WrapForwardBuffer) : Nat := fb.mPos

/-- `erase(n)`, whose assertion the caller proves. -/
def erase (fb : WrapForwardBuffer) (n : Nat) (hn : n ≤ fb.size) : WrapForwardBuffer :=
  ⟨fb.mData, fb.mPos + n, by
    have hpos := fb.pos_le
    simp only [size] at hn
    omega⟩

theorem length_data (fb : WrapForwardBuffer) : fb.data.length = fb.size := List.length_drop

theorem isEmpty_iff (fb : WrapForwardBuffer) : fb.isEmpty = true ↔ fb.size = 0 := by
  have hpos := fb.pos_le
  simp only [isEmpty, size, beq_iff_eq]
  omega

theorem data_erase (fb : WrapForwardBuffer) {n : Nat} (hn : n ≤ fb.size) :
    (fb.erase n hn).data = fb.data.drop n := by
  simp only [data, erase, List.drop_drop]

theorem size_erase (fb : WrapForwardBuffer) {n : Nat} (hn : n ≤ fb.size) :
    (fb.erase n hn).size = fb.size - n := by
  simp only [size, erase]
  omega

end WrapForwardBuffer

namespace BackLinkHandler

variable (doRequest : DoRequest) (packLimit : UInt32) (type : ConnType)

/-- One turn of the loop of `onData` ends it, or goes on behind a request; the
requests dispatched so far come along. -/
inductive Turn where
  | done (result : CallResult) (seen : List Request)
  | more (fb : WrapForwardBuffer) (seen : List Request)

/-- The body of `while (!fb.empty())`. -/
def turn (fb : WrapForwardBuffer) (seen : List Request) : Turn :=
  if fb.isEmpty then .done (.returned fb.offset) seen
  else if fb.size < 4 then .done (.returned fb.offset) seen -- need more
  else
    let length := Request.peeklen fb.data
    if length > packLimit.toNat then .done (.returned (-1)) seen
    else if hmore : fb.size < length then .done (.returned fb.offset) seen -- need more
    else
      match Request.head type (fb.data.take length) with
      | .error _ => .done .thrown seen
      | .ok request =>
          match doRequest seen request with
          | .thrown => .done .thrown (seen ++ [request])
          | .returned ret =>
              if ret = -1 then .done (.returned (-1)) (seen ++ [request])
              else .more (fb.erase length (by omega)) (seen ++ [request])

/-- The loop of `onData`, for at most `fuel` turns. -/
def onDataLoop : Nat → WrapForwardBuffer → List Request → Option (CallResult × List Request)
  | 0, _, _ => none
  | fuel + 1, fb, seen =>
      match turn doRequest packLimit type fb seen with
      | .done result seen => some (result, seen)
      | .more fb seen => onDataLoop fuel fb seen

end BackLinkHandler

/-! ## Reading the head -/

namespace Request

/-- The request that a long enough byte string is. -/
def ofBytes (type : ConnType) (data : List UInt8) : Request where
  od := data
  length := Unpack.xntoh (UInt32.ofNat (leNat (data.take 4)))
  uri := Unpack.xntoh (UInt32.ofNat (leNat ((data.drop 4).take 4)))
  resCode := Unpack.xntoh (UInt16.ofNat (leNat ((data.drop 8).take 2)))
  up := data.drop 10
  connectType := type

theorem head_long {type : ConnType} {data : List UInt8} (hlong : 10 ≤ data.length) :
    head type data = .ok (ofBytes type data) := by
  have huri : 4 ≤ (data.drop 4).length := by rw [List.length_drop]; omega
  have hres : 2 ≤ ((data.drop 4).drop 4).length := by simp only [List.length_drop]; omega
  unfold head
  rw [Unpack.popUint32_ok (by omega)]
  simp only [Except.bind]
  rw [Unpack.popUint32_ok huri]
  simp only [Unpack.popUint16_ok hres]
  simp only [ofBytes, List.drop_drop]

theorem head_short (type : ConnType) {data : List UInt8} (hshort : data.length < 10) :
    ∃ err, head type data = .error err := by
  unfold head Unpack.popUint32 Unpack.popUint16
  split
  · exact ⟨_, rfl⟩
  · simp only [Except.bind]
    split
    · exact ⟨_, rfl⟩
    next herr hfour =>
      split at hfour
      · cases hfour
      next hlong =>
        cases hfour
        rw [if_pos (by simp only [List.length_drop] at hlong ⊢; omega)]
        exact ⟨_, rfl⟩

theorem peeklen_append (first second : List UInt8) (hfour : 4 ≤ first.length) :
    peeklen (first ++ second) = peeklen first := by
  rw [peeklen, List.take_append_of_le_length hfour, peeklen]

end Request

namespace BackLinkHandler

variable {doRequest : DoRequest} {packLimit : UInt32} {type : ConnType}

/-- A turn that goes on has consumed a whole head. -/
theorem turn_more {fb next : WrapForwardBuffer} {seen log : List Request}
    (hturn : turn doRequest packLimit type fb seen = .more next log) : next.size < fb.size := by
  unfold turn at hturn
  split at hturn
  · cases hturn
  split at hturn
  · cases hturn
  dsimp only at hturn
  split at hturn
  · cases hturn
  split at hturn
  · cases hturn
  next hsize hmore =>
    split at hturn
    · cases hturn
    next request hhead =>
      have hlong : 10 ≤ Request.peeklen fb.data := by
        by_contra hshort
        obtain ⟨err, herr⟩ := Request.head_short type
          (show (fb.data.take (Request.peeklen fb.data)).length < 10 by
            rw [List.length_take]
            omega)
        rw [herr] at hhead
        cases hhead
      split at hturn
      · cases hturn
      · split at hturn
        · cases hturn
        · cases hturn
          rw [fb.size_erase]
          omega

/-- The loop ends within one turn a byte. -/
theorem onDataLoop_isSome {fuel : Nat} {fb : WrapForwardBuffer} {seen : List Request}
    (hfuel : fb.size < fuel) :
    (onDataLoop doRequest packLimit type fuel fb seen).isSome := by
  induction fuel generalizing fb seen with
  | zero => omega
  | succ fuel ih =>
      unfold onDataLoop
      split
      · rfl
      next next log hturn =>
        have hless := turn_more hturn
        exact ih (by omega)

/-- Fuel beyond what the loop needs changes nothing. -/
theorem onDataLoop_mono {fuel more : Nat} {fb : WrapForwardBuffer} {seen : List Request}
    {result : CallResult × List Request} (hfuel : fuel ≤ more)
    (hloop : onDataLoop doRequest packLimit type fuel fb seen = some result) :
    onDataLoop doRequest packLimit type more fb seen = some result := by
  induction fuel generalizing more fb seen with
  | zero => cases hloop
  | succ fuel ih =>
      obtain ⟨more, rfl⟩ : ∃ less, more = less + 1 := ⟨more - 1, by omega⟩
      unfold onDataLoop at hloop ⊢
      split at hloop
      · exact hloop
      · exact ih (by omega) hloop

theorem length_new (data : List UInt8) : (WrapForwardBuffer.new data).size = data.length :=
  Nat.sub_zero _

variable (doRequest packLimit type)

/-- `onData(data, size, conn, type)`, with a turn to spare. -/
def onData (seen : List Request) (data : List UInt8) : CallResult × List Request :=
  (onDataLoop doRequest packLimit type (data.length + 1) (.new data) seen).get
    (onDataLoop_isSome (by rw [length_new]; omega))

/-- The loop of `onData` ends on every byte string, with this result. -/
theorem onDataLoop_eq_onData (seen : List Request) (data : List UInt8) {fuel : Nat}
    (hfuel : data.length < fuel) :
    onDataLoop doRequest packLimit type fuel (.new data) seen =
      some (onData doRequest packLimit type seen data) :=
  onDataLoop_mono hfuel (Option.some_get _).symm

variable {doRequest packLimit type} in
theorem onData_eq {seen : List Request} {data : List UInt8} {fuel : Nat}
    {result : CallResult × List Request}
    (hloop : onDataLoop doRequest packLimit type fuel (.new data) seen = some result) :
    onData doRequest packLimit type seen data = result := by
  have hmore := onDataLoop_mono (Nat.le_max_left fuel (data.length + 1)) hloop
  rw [onDataLoop_eq_onData doRequest packLimit type seen data (by omega)] at hmore
  exact Option.some.inj hmore

end BackLinkHandler

/-! ## The connection -/

/-- How a connection ends, by the `ILinkEvent` it reports. -/
inductive LinkEnd where
  | onClose
  | onInitiativeClose
  | onError
deriving DecidableEq

/-- A connection with the requests it dispatched, and its end. -/
structure Link (cipher : StreamCipher) where
  conn : InnerConn cipher
  seen : List Request
  ended : Option LinkEnd

namespace Link

variable {cipher : StreamCipher} (doRequest : DoRequest) (packLimit : UInt32)

/-- A connection that has received nothing yet. -/
def start (filter : RC4Filter cipher) : Link cipher where
  conn := { InnerConn.new true with mInput := { buffer := .init, filter := filter } }
  seen := []
  ended := none

/-- `isEncrypto() ? TCP_ENCODE : TCP_UNCODE`. -/
def connType (filter : RC4Filter cipher) : ConnType :=
  if filter.isEncrypto then .tcpEncode else .tcpUncode

def withInput (link : Link cipher) (input : SockBuffer cipher) : Link cipher :=
  { link with conn := { link.conn with mInput := input } }

/-- `onRead()`, once the connection is readable. -/
def onRead (malloc : Malloc) (answer : RecvAnswer) (link : Link cipher) : Link cipher :=
  match link.conn.mInput.pump connParams malloc answer with
  | (.again, input) => link.withInput input
  | (.failed, input) => { link.withInput input with ended := some .onError }
  | (.returned pumped, input) =>
      if pumped > 0 then
        match BackLinkHandler.onData doRequest packLimit (connType input.filter) link.seen
            input.buffer.data with
        | (.thrown, seen) => { link.withInput input with seen := seen, ended := some .onError }
        | (.returned ret, seen) =>
            if ret = -1 then
              { link.withInput input with seen := seen, ended := some .onInitiativeClose }
            else
              { link.withInput { input with buffer := input.buffer.erase 0 ret.toNat false } with
                seen := seen }
      else { link.withInput input with ended := some .onClose }

/-- One readable event, with what the allocator and the socket answer. -/
structure Readable where
  malloc : Malloc
  answer : RecvAnswer

/-- The bytes that came. -/
def Readable.bytes (event : Readable) : List UInt8 :=
  match event.answer with
  | .received chunk => chunk
  | .again => []
  | .failed => []

/-- The room the buffer offers to `recv`. -/
def room (malloc : Malloc) (link : Link cipher) : Nat :=
  (link.conn.mInput.offer connParams malloc).freespace connParams

/-- An ended connection reads no more, and `recv` gives no more than it is
offered room for. -/
def step (link : Link cipher) (event : Readable) : Option (Link cipher) :=
  if link.ended.isSome || event.bytes.length > link.room event.malloc then none
  else some (link.onRead doRequest packLimit event.malloc event.answer)

end Link

end ServiceFrame
