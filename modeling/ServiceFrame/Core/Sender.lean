import ServiceFrame.Core.BackLinkHandler
import ServiceFrame.Foundation.Run

/-! # Outgoing packets

`Sender` of `core/corelib`. It has two packs on one buffer: the header pack from its start,
and the pack of the body from `HEADER_SIZE` on, whatever the size of the buffer is. The
length, the `uri` and the result code are written into the room in front of the body when
the packet ends.
-/

namespace ServiceFrame

open Foundation

/-- `HEADER_SIZE`. -/
def headerSize : Nat := 10

/-- `RES_SUCCESS`. -/
def resSuccess : UInt16 := 200

/-- What `Marshallable::marshal` does to the pack it is given. -/
inductive PackCall where
  | push (bytes : List UInt8)
  | replaceOffset (pos : Nat) (bytes : List UInt8)
deriving DecidableEq, Repr

structure Sender where
  length : UInt32
  uri : Int32
  resCode : UInt16
  pb : PackBuffer

namespace Sender

/-- `Sender()`; it leaves the `uri` as it finds it. -/
def new (mallocs : Nat → Malloc) (uri : Int32) : Except PackError Sender :=
  (Pack.new (.init mallocs) 0).bind fun hpk =>
    (Pack.new hpk.mBuffer headerSize).map fun pk => ⟨0, uri, resSuccess, pk.mBuffer⟩

/-- `body()`, as far as the buffer goes. -/
def body (sender : Sender) : List UInt8 := sender.pb.data.drop headerSize

/-- `bodySize()`, in `size_t`. -/
def bodySize (sender : Sender) : Nat := (sender.pb.size + 2 ^ 64 - headerSize) % 2 ^ 64

/-- What goes out: `headerSize() + bodySize()` bytes from `header()` on. -/
def frame (sender : Sender) : List UInt8 :=
  sender.pb.data.take ((headerSize + sender.bodySize) % 2 ^ 64)

/-- A call on the pack of the body. -/
def packCall (sender : Sender) : PackCall → Except PackError Sender
  | .push bytes => (sender.pb.append bytes).map fun pb => { sender with pb := pb }
  | .replaceOffset pos bytes =>
      (sender.pb.replace (pos + headerSize) bytes).map fun pb => { sender with pb := pb }

/-- `marshall(m)`, with the calls that marshalling `m` makes. -/
def marshall (sender : Sender) (calls : List PackCall) : Except PackError Sender :=
  calls.foldlM packCall sender

/-- `marshall(u, m)`. -/
def marshallUri (sender : Sender) (uri : Int32) (calls : List PackCall) : Except PackError Sender :=
  marshall { sender with uri := uri } calls

/-- `marshall(data, sz)`. -/
def marshallBytes (sender : Sender) (bytes : List UInt8) : Except PackError Sender :=
  sender.packCall (.push bytes)

def clear (sender : Sender) : Except PackError Sender :=
  (sender.pb.resize headerSize).map fun pb => { sender with pb := pb, resCode := resSuccess }

def endPack (sender : Sender) : Except PackError Sender :=
  (sender.pb.replace 0 (leBytes 4 (Pack.xhton sender.length).toNat)).bind fun pb =>
  (pb.replace 4 (leBytes 4 (Pack.xhton sender.uri.toUInt32).toNat)).bind fun pb =>
  (pb.replace 8 (leBytes 2 (Pack.xhton sender.resCode).toNat)).bind fun pb =>
  let sender := { sender with pb := pb }
  (pb.replace 0 (leBytes 4 (Pack.xhton (UInt32.ofNat (headerSize + sender.bodySize))).toNat)).map
    fun pb => { sender with pb := pb }

/-- `pk.push(sender.pk.data(), sender.pk.size())`. The size of a pack whose offset is
behind its buffer's end wraps, and no buffer takes that much. -/
def pushBody (pb : PackBuffer) (sender : Sender) : Except PackError PackBuffer :=
  if sender.pb.size < headerSize then .error ⟨"append buffer overflow"⟩
  else pb.append sender.body

/-- `Sender(const Sender&)`. -/
def copy (mallocs : Nat → Malloc) (sender : Sender) : Except PackError Sender :=
  (new mallocs sender.uri).bind fun fresh =>
    (pushBody fresh.pb sender).map fun pb => { sender with pb := pb }

/-- `operator=`, from another sender. -/
def assign (target sender : Sender) : Except PackError Sender :=
  (target.pb.resize 0).bind fun pb =>
    (pushBody pb sender).map fun pb => { sender with pb := pb }

end Sender

/-! ## What a sender is for -/

/-- A message under way. -/
structure OutMessage where
  uri : Int32
  resCode : UInt16
  body : List UInt8
deriving DecidableEq, Repr

/-- The call, on the bytes of the body alone. -/
def PackCall.onBody (body : List UInt8) : PackCall → List UInt8
  | push bytes => body ++ bytes
  | replaceOffset pos bytes => overwrite body pos bytes

inductive SenderCall where
  | setUri (uri : Int32)
  | setResCode (resCode : UInt16)
  | clear
  | marshall (calls : List PackCall)
  | marshallUri (uri : Int32) (calls : List PackCall)
  | marshallBytes (bytes : List UInt8)
  | endPack
deriving DecidableEq, Repr

namespace SenderCall

def exec (sender : Sender) : SenderCall → Except PackError Sender
  | setUri uri => .ok { sender with uri := uri }
  | setResCode resCode => .ok { sender with resCode := resCode }
  | clear => sender.clear
  | marshall calls => sender.marshall calls
  | marshallUri uri calls => sender.marshallUri uri calls
  | marshallBytes bytes => sender.marshallBytes bytes
  | endPack => sender.endPack

/-- A call that returns takes a step. -/
def step (sender : Sender) (call : SenderCall) : Option Sender := (call.exec sender).toOption

/-- The call, on the message under way. -/
def onMessage (message : OutMessage) : SenderCall → OutMessage
  | setUri uri => { message with uri := uri }
  | setResCode resCode => { message with resCode := resCode }
  | clear => { message with resCode := resSuccess, body := [] }
  | marshall calls => { message with body := calls.foldl PackCall.onBody message.body }
  | marshallUri uri calls =>
      { message with uri := uri, body := calls.foldl PackCall.onBody message.body }
  | marshallBytes bytes => { message with body := message.body ++ bytes }
  | endPack => message

end SenderCall

/-! ## Ending a packet -/

theorem map_ok {ε α β : Type} {first : Except ε α} {change : α → β} {result : β}
    (hmap : first.map change = .ok result) :
    ∃ value, first = .ok value ∧ change value = result := by
  cases first with
  | error err => cases hmap
  | ok value => exact ⟨value, rfl, Except.ok.inj hmap⟩

theorem of_toOption {ε α : Type} {result : Except ε α} {value : α}
    (hsome : result.toOption = some value) : result = .ok value := by
  cases result with
  | error err => cases hsome
  | ok other => exact congrArg Except.ok (Option.some.inj hsome)

namespace Sender

variable {sender next : Sender}

/-- The header, for a packet of `size` bytes. -/
def header (sender : Sender) (size : Nat) : List UInt8 :=
  leBytes 4 size ++ leBytes 4 sender.uri.toUInt32.toNat ++ leBytes 2 sender.resCode.toNat

@[simp] theorem length_header (size : Nat) : (sender.header size).length = headerSize := by
  simp [header, headerSize]

/-- The body pack begins inside the buffer. -/
def Room (sender : Sender) : Prop := headerSize ≤ sender.pb.size

theorem length_body (sender : Sender) : sender.body.length = sender.pb.size - headerSize := by
  rw [body, List.length_drop, PackBuffer.length_data]

theorem Room.bodySize_eq (hroom : Room sender) : sender.bodySize = sender.body.length := by
  have hsize := sender.pb.size_le
  have hless : sender.pb.size - headerSize < 2 ^ 64 := by omega
  unfold Room at hroom
  rw [bodySize, length_body, Nat.add_comm sender.pb.size, Nat.add_sub_assoc hroom,
    Nat.add_mod_left, Nat.mod_eq_of_lt hless]

/-- With room for the header, all of the buffer goes out. -/
theorem Room.frame_eq (hroom : Room sender) : sender.frame = sender.pb.data := by
  have hsize := sender.pb.size_le
  have hbody : headerSize + sender.bodySize = sender.pb.size := by
    rw [hroom.bodySize_eq, length_body]
    exact Nat.add_sub_of_le hroom
  rw [frame, hbody, Nat.mod_eq_of_lt (by omega), ← PackBuffer.length_data, List.take_length]

theorem length_frame_le (sender : Sender) : sender.pb.data.length ≤ 2 ^ 30 := by
  rw [PackBuffer.length_data]
  exact sender.pb.size_le

/-- Whatever the buffer held, ending writes the header over its first bytes, and makes room
for it if there is none. -/
theorem endPack_ok (hend : sender.endPack = .ok next) :
    next.pb.data = sender.header (headerSize + (sender.pb.size - headerSize)) ++
        sender.pb.data.drop headerSize ∧
      next.uri = sender.uri ∧ next.resCode = sender.resCode := by
  obtain ⟨first, hfirst, hend⟩ := Pack.bind_ok hend
  obtain ⟨second, hsecond, hend⟩ := Pack.bind_ok hend
  obtain ⟨third, hthird, hend⟩ := Pack.bind_ok hend
  obtain ⟨last, hlast, rfl⟩ := map_ok hend
  have hdata := PackBuffer.replace_ok hfirst
  have hdata₂ := PackBuffer.replace_ok hsecond
  have hdata₃ := PackBuffer.replace_ok hthird
  have hdata₄ := PackBuffer.replace_ok hlast
  simp only [Pack.xhton] at hdata hdata₂ hdata₃ hdata₄
  -- each range begins where the one before it ends
  rw [overwrite_zero, length_leBytes] at hdata
  rw [hdata, overwrite_append _ (by simp), List.drop_drop, length_leBytes] at hdata₂
  rw [hdata₂, overwrite_append _ (by simp), List.drop_drop, length_leBytes] at hdata₃
  have hsize : third.size = headerSize + (sender.pb.size - headerSize) := by
    have hlength := congrArg List.length hdata₃
    simp only [PackBuffer.length_data, List.length_append, length_leBytes, List.length_drop]
      at hlength
    simp only [headerSize]
    omega
  have hroom : Room { sender with pb := third } := by
    simp only [Room, hsize]
    omega
  have hbody : headerSize + (sender.pb.size - headerSize) < 2 ^ 32 := by
    rw [← hsize]
    exact lt_of_le_of_lt third.size_le (by decide)
  refine ⟨?_, rfl, rfl⟩
  rw [hroom.bodySize_eq, length_body, overwrite_zero, length_leBytes, hdata₃, List.append_assoc,
    List.append_assoc, List.drop_left' (length_leBytes 4 _)] at hdata₄
  simp only [hsize, Nat.add_sub_cancel_left, UInt32.toNat_ofNat_of_lt' hbody] at hdata₄
  simp only [hdata₄, header, headerSize, List.append_assoc]

theorem Room.endPack (hroom : Room sender) : ∃ next, sender.endPack = .ok next := by
  have hkeep : ∀ {pb after : PackBuffer} {pos : Nat} {rep : List UInt8},
      pos + rep.length ≤ pb.size → pb.replace pos rep = .ok after → after.size = pb.size := by
    intro pb after pos rep hfit hreplace
    rw [← after.length_data, PackBuffer.replace_ok hreplace,
      length_overwrite (by rwa [pb.length_data]), pb.length_data]
  unfold Room headerSize at hroom
  obtain ⟨first, hfirst⟩ := sender.pb.replace_fits 0
    (leBytes 4 (Pack.xhton sender.length).toNat) (by simp only [length_leBytes]; omega)
  have hsize := hkeep (by simp only [length_leBytes]; omega) hfirst
  obtain ⟨second, hsecond⟩ := first.replace_fits 4
    (leBytes 4 (Pack.xhton sender.uri.toUInt32).toNat) (by simp only [length_leBytes]; omega)
  have hsize₂ := hkeep (by simp only [length_leBytes]; omega) hsecond
  obtain ⟨third, hthird⟩ := second.replace_fits 8
    (leBytes 2 (Pack.xhton sender.resCode).toNat) (by simp only [length_leBytes]; omega)
  have hsize₃ := hkeep (by simp only [length_leBytes]; omega) hthird
  obtain ⟨last, hlast⟩ := third.replace_fits 0
    (leBytes 4 (Pack.xhton (UInt32.ofNat (headerSize +
      bodySize { sender with pb := third }))).toNat) (by simp only [length_leBytes]; omega)
  refine ⟨{ sender with pb := last }, ?_⟩
  rw [Sender.endPack, hfirst]
  simp only [Except.bind]
  rw [hsecond]
  simp only []
  rw [hthird]
  simp only []
  rw [hlast]
  rfl

/-! ## A sender packs a message -/

/-- The message that a sender has under way. -/
def message (sender : Sender) : OutMessage := ⟨sender.uri, sender.resCode, sender.body⟩

theorem new_ok {mallocs : Nat → Malloc} {uri : Int32} (hnew : new mallocs uri = .ok next) :
    Room next ∧ next.message = ⟨uri, resSuccess, []⟩ := by
  obtain ⟨hpk, hhpk, hnew⟩ := Pack.bind_ok hnew
  obtain ⟨pk, hpk', rfl⟩ := map_ok hnew
  have hsize : pk.mBuffer.size = headerSize := by
    rw [(Pack.new_ok hpk').1, (Pack.new_ok hhpk).1]
    rfl
  refine ⟨hsize.ge, ?_⟩
  have hbody : pk.mBuffer.data.drop headerSize = [] :=
    List.drop_of_length_le (by rw [PackBuffer.length_data, hsize])
  simp only [message, body, hbody]

theorem packCall_ok {call : PackCall} (hroom : Room sender)
    (hcall : sender.packCall call = .ok next) :
    Room next ∧ next.message = { sender.message with body := call.onBody sender.body } := by
  unfold Room at hroom
  cases call with
  | push bytes =>
      obtain ⟨pb, happ, rfl⟩ := map_ok hcall
      have hdata := PackBuffer.append_ok happ
      have hsize : pb.size = sender.pb.size + bytes.length := by
        rw [← pb.length_data, hdata, List.length_append, PackBuffer.length_data]
      refine ⟨?_, ?_⟩
      · simp only [Room, hsize]
        omega
      · have hbody : pb.data.drop headerSize = sender.body ++ bytes := by
          rw [hdata]
          exact List.drop_append_of_le_length (by rwa [PackBuffer.length_data])
        simp only [message, body, hbody, PackCall.onBody]
  | replaceOffset pos bytes =>
      obtain ⟨pb, hreplace, rfl⟩ := map_ok hcall
      have hdata := PackBuffer.replace_ok hreplace
      have hbody : pb.data.drop headerSize = overwrite sender.body pos bytes := by
        rw [hdata, Nat.add_comm pos headerSize]
        exact drop_overwrite (by rwa [PackBuffer.length_data])
      refine ⟨?_, ?_⟩
      · have hlength := congrArg List.length hdata
        simp only [overwrite, PackBuffer.length_data, List.length_append, List.length_take,
          List.length_drop] at hlength
        simp only [Room]
        omega
      · simp only [message, body, hbody, PackCall.onBody]

theorem marshall_ok {calls : List PackCall} (hroom : Room sender)
    (hcalls : sender.marshall calls = .ok next) :
    Room next ∧
      next.message = { sender.message with body := calls.foldl PackCall.onBody sender.body } := by
  induction calls generalizing sender with
  | nil =>
      cases hcalls
      exact ⟨hroom, rfl⟩
  | cons call rest ih =>
      obtain ⟨middle, hcall, hrest⟩ := Pack.bind_ok hcalls
      obtain ⟨hmiddle, hmessage⟩ := packCall_ok hroom hcall
      obtain ⟨hnext, hlast⟩ := ih hmiddle hrest
      have hbody : middle.body = call.onBody sender.body := congrArg OutMessage.body hmessage
      refine ⟨hnext, ?_⟩
      rw [hlast, hmessage, hbody, List.foldl_cons]

theorem clear_ok (hclear : sender.clear = .ok next) :
    Room next ∧ next.message = ⟨sender.uri, resSuccess, []⟩ := by
  obtain ⟨pb, hresize, rfl⟩ := map_ok hclear
  have hsize := PackBuffer.size_resize hresize
  refine ⟨hsize.ge, ?_⟩
  have hbody : pb.data.drop headerSize = [] :=
    List.drop_of_length_le (by rw [PackBuffer.length_data, hsize])
  simp only [message, body, hbody]

/-- Ending writes in front of the body only. -/
theorem ended_ok (hend : sender.endPack = .ok next) :
    Room next ∧ next.message = sender.message ∧
      next.frame = sender.header (headerSize + sender.body.length) ++ sender.body := by
  obtain ⟨hdata, huri, hresCode⟩ := Sender.endPack_ok hend
  rw [← length_body] at hdata
  have hnext : Room next := by
    rw [Room, ← PackBuffer.length_data, hdata, List.length_append, length_header]
    exact Nat.le_add_right _ _
  refine ⟨hnext, ?_, hnext.frame_eq.trans hdata⟩
  have hbody : next.body = sender.body := by
    rw [body, hdata, List.drop_left' (length_header _), body]
  rw [message, message, huri, hresCode, hbody]

end Sender

namespace SenderCall

variable {sender next : Sender}

theorem exec_ok {call : SenderCall} (hroom : sender.Room) (hexec : call.exec sender = .ok next) :
    next.Room ∧ next.message = call.onMessage sender.message := by
  cases call with
  | setUri uri =>
      cases hexec
      exact ⟨hroom, rfl⟩
  | setResCode resCode =>
      cases hexec
      exact ⟨hroom, rfl⟩
  | clear => exact Sender.clear_ok hexec
  | marshall calls => exact Sender.marshall_ok hroom hexec
  | marshallUri uri calls =>
      have hroom' : Sender.Room { sender with uri := uri } := hroom
      exact Sender.marshall_ok hroom' hexec
  | marshallBytes bytes =>
      have hcall : sender.packCall (.push bytes) = .ok next := hexec
      exact Sender.packCall_ok hroom hcall
  | endPack =>
      obtain ⟨hnext, hmessage, -⟩ := Sender.ended_ok hexec
      exact ⟨hnext, hmessage⟩

theorem run_some {calls : List SenderCall} (hroom : sender.Room)
    (hrun : run step sender calls = some next) :
    next.Room ∧ next.message = calls.foldl onMessage sender.message := by
  induction calls generalizing sender with
  | nil =>
      cases hrun
      exact ⟨hroom, rfl⟩
  | cons call rest ih =>
      obtain ⟨middle, hstep, hrest⟩ := Option.bind_eq_some_iff.mp hrun
      obtain ⟨hmiddle, hmessage⟩ := exec_ok hroom (of_toOption hstep)
      rw [List.foldl_cons, ← hmessage]
      exact ih hmiddle hrest

end SenderCall

/-- A request takes apart what ends of its frame put together. -/
theorem Request.head_frame (sender : Sender) {size : Nat} (hsize : size < 2 ^ 32)
    (rest : List UInt8) (type : ConnType) :
    Request.head type (sender.header size ++ rest) =
      .ok ⟨sender.header size ++ rest, UInt32.ofNat size, sender.uri.toUInt32, sender.resCode,
        rest, type⟩ := by
  rw [Request.head]
  have hframe : sender.header size ++ rest = leBytes 4 size ++
      (leBytes 4 sender.uri.toUInt32.toNat ++ (leBytes 2 sender.resCode.toNat ++ rest)) := by
    simp only [Sender.header, List.append_assoc]
  rw [hframe, Unpack.popUint32_leBytes hsize]
  simp only [Except.bind]
  rw [Unpack.popUint32_leBytes sender.uri.toUInt32.toNat_lt]
  simp only []
  rw [Unpack.popUint16_leBytes sender.resCode.toNat_lt]
  simp only [UInt32.ofNat_toNat, UInt16.ofNat_toNat]

theorem Request.peeklen_frame (sender : Sender) {size : Nat} (hsize : size < 2 ^ 32)
    (rest : List UInt8) : Request.peeklen (sender.header size ++ rest) = size := by
  rw [Request.peeklen, Sender.header, List.append_assoc, List.append_assoc,
    List.take_left' (length_leBytes 4 size), leNat_leBytes (by omega)]

/-- After every sequence of calls, ending a packet gives a frame that says its own length
and holds the `uri`, the result code and the body as the calls made them. -/
theorem endPack_framing (mallocs : Nat → Malloc) (garbage : Int32) (type : ConnType)
    (calls : List SenderCall) (sender next : Sender)
    (hnew : Sender.new mallocs garbage = .ok sender)
    (hrun : run SenderCall.step sender calls = some next) :
    ∃ message ended request, message = calls.foldl SenderCall.onMessage ⟨garbage, resSuccess, []⟩ ∧
      next.endPack = .ok ended ∧
      ended.frame.length = 10 + message.body.length ∧
      Request.peeklen ended.frame = 10 + message.body.length ∧
      Request.head type ended.frame = .ok request ∧
      request.length.toNat = 10 + message.body.length ∧
      request.uri.toInt32 = message.uri ∧
      request.resCode = message.resCode ∧
      request.up = message.body := by
  obtain ⟨hroom, hmessage⟩ := Sender.new_ok hnew
  obtain ⟨hnext, hlast⟩ := SenderCall.run_some hroom hrun
  obtain ⟨ended, hended⟩ := hnext.endPack
  obtain ⟨hroom', -, hframe⟩ := Sender.ended_ok hended
  have hlength : ended.frame.length = headerSize + next.body.length := by
    rw [hframe, List.length_append, Sender.length_header]
  have hsmall : headerSize + next.body.length < 2 ^ 32 := by
    rw [← hlength, hroom'.frame_eq]
    exact lt_of_le_of_lt ended.length_frame_le (by decide)
  have hhead := Request.head_frame next hsmall next.body type
  rw [← hframe] at hhead
  refine ⟨next.message, ended, _, by rw [hlast, hmessage], hended, hlength, ?_, hhead, ?_, ?_, rfl,
    rfl⟩
  · rw [hframe, Request.peeklen_frame next hsmall]
    rfl
  · exact UInt32.toNat_ofNat_of_lt' hsmall
  · exact Int32.toInt32_toUInt32 next.uri

/-- A sender that is used for a second message. -/
def secondMessage : List SenderCall :=
  [.marshallUri 7 [.push [1, 2], .replaceOffset 1 [3, 4, 5]], .endPack, .clear, .setResCode 404,
    .marshallBytes [9]]

theorem endPack_framing_second :
    ∃ (ended : Sender) (request : Request), ended.frame.length = 11 ∧
      Request.head .tcpUncode ended.frame = .ok request ∧
      request.uri.toInt32 = 7 ∧ request.resCode = 404 ∧ request.up = [9] := by
  obtain ⟨sender, next, hnew, hrun⟩ : ∃ sender next,
      Sender.new (fun _ => some fun _ => 0) 0 = .ok sender ∧
        run SenderCall.step sender secondMessage = some next := ⟨_, _, rfl, rfl⟩
  obtain ⟨message, ended, request, hmessage, -, hlength, -, hhead, -, huri, hcode, hup⟩ :=
    endPack_framing _ 0 .tcpUncode secondMessage _ _ hnew hrun
  have hlast : message = ⟨7, 404, [9]⟩ := hmessage
  subst hlast
  exact ⟨ended, request, hlength, hhead, huri, hcode, hup⟩

/-! ## Copying a sender -/

namespace Sender

variable {sender next : Sender}

/-- What is seen of two packets is the same. -/
structure Same (first second : Sender) : Prop where
  frame : first.frame = second.frame
  uri : first.uri = second.uri
  body : first.body = second.body
  bodySize : first.bodySize = second.bodySize

/-- Packets that are ended are the same when their messages are. -/
theorem same_of_message {first second ended ended' : Sender}
    (hmessage : first.message = second.message) (hend : first.endPack = .ok ended)
    (hend' : second.endPack = .ok ended') : Same ended ended' := by
  obtain ⟨hroom, hkeep, hframe⟩ := ended_ok hend
  obtain ⟨hroom', hkeep', hframe'⟩ := ended_ok hend'
  have hended : ended.message = ended'.message := hkeep.trans (hmessage.trans hkeep'.symm)
  simp only [message, OutMessage.mk.injEq] at hmessage hended
  obtain ⟨huri, hresCode, hbody⟩ := hmessage
  refine ⟨?_, hended.1, hended.2.2, ?_⟩
  · rw [hframe, hframe', header, header, huri, hresCode, hbody]
  · rw [hroom.bodySize_eq, hroom'.bodySize_eq, hended.2.2]

theorem pushBody_ok {pb after : PackBuffer} (hpush : pushBody pb sender = .ok after) :
    Room sender ∧ after.data = pb.data ++ sender.body := by
  unfold pushBody at hpush
  split at hpush
  · cases hpush
  next hsize => exact ⟨Nat.le_of_not_lt hsize, PackBuffer.append_ok hpush⟩

/-- The constructor puts the body behind the room for the header. -/
theorem copy_ok {mallocs : Nat → Malloc} (hcopy : copy mallocs sender = .ok next) :
    Room next ∧ next.message = sender.message := by
  obtain ⟨fresh, hnew, hcopy⟩ := Pack.bind_ok hcopy
  obtain ⟨pb, hpush, rfl⟩ := map_ok hcopy
  obtain ⟨hroom, hfresh⟩ := new_ok hnew
  obtain ⟨-, hdata⟩ := pushBody_ok hpush
  have hsize : headerSize ≤ fresh.pb.data.length := by rwa [PackBuffer.length_data]
  have hempty : fresh.pb.data.drop headerSize = [] := congrArg OutMessage.body hfresh
  refine ⟨?_, ?_⟩
  · rw [Room, ← PackBuffer.length_data, hdata, List.length_append]
    omega
  · have hbody : pb.data.drop headerSize = sender.body := by
      rw [hdata, List.drop_append_of_le_length hsize, hempty, List.nil_append]
    simp only [message, body, hbody]

/-- The assignment puts it at the start of the buffer. -/
theorem assign_ok {target : Sender} (hassign : target.assign sender = .ok next) :
    Room sender ∧ next.pb.data = sender.body ∧ next.uri = sender.uri ∧
      next.resCode = sender.resCode := by
  obtain ⟨pb, hresize, hassign⟩ := Pack.bind_ok hassign
  obtain ⟨after, hpush, rfl⟩ := map_ok hassign
  obtain ⟨hroom, hdata⟩ := pushBody_ok hpush
  have hempty : pb.data = [] := by
    rw [PackBuffer.resize_ok hresize, List.take_zero, Nat.zero_sub, List.replicate_zero,
      List.nil_append]
  exact ⟨hroom, by rw [hdata, hempty, List.nil_append], rfl, rfl⟩

theorem marshallBytes_ok {bytes : List UInt8} (hpack : sender.marshallBytes bytes = .ok next) :
    next.pb.data = sender.pb.data ++ bytes ∧ next.uri = sender.uri ∧
      next.resCode = sender.resCode := by
  obtain ⟨pb, happ, rfl⟩ := map_ok hpack
  exact ⟨PackBuffer.append_ok happ, rfl, rfl⟩

/-- A sender that was constructed from another ends the same packets. -/
theorem copy_same {mallocs : Nat → Malloc} {copied ended reference : Sender} {more : List UInt8}
    (hroom : Room sender) (hcopy : copy mallocs sender = .ok copied)
    (hended : (copied.marshallBytes more).bind endPack = .ok ended)
    (hreference : (sender.marshallBytes more).bind endPack = .ok reference) :
    Same ended reference := by
  obtain ⟨hroom', hmessage⟩ := copy_ok hcopy
  obtain ⟨packed, hpacked, hend⟩ := Pack.bind_ok hended
  obtain ⟨packed', hpacked', hend'⟩ := Pack.bind_ok hreference
  have hcall : copied.packCall (.push more) = .ok packed := hpacked
  have hcall' : sender.packCall (.push more) = .ok packed' := hpacked'
  refine same_of_message ?_ hend hend'
  have hbody : copied.body = sender.body := congrArg OutMessage.body hmessage
  rw [(packCall_ok hroom' hcall).2, (packCall_ok hroom hcall').2, hmessage, hbody]

/-- A sender that another was assigned to ends the same packets, whatever it held before,
exactly when they are empty: the first bytes of any other are where the header goes. -/
theorem assign_same_iff (target sender assigned ended reference : Sender) (more : List UInt8)
    (hassign : target.assign sender = .ok assigned)
    (hended : (assigned.marshallBytes more).bind endPack = .ok ended)
    (hreference : (sender.marshallBytes more).bind endPack = .ok reference) :
    Same ended reference ↔ sender.body = [] ∧ more = [] := by
  obtain ⟨hroom, hdata, huri, hresCode⟩ := assign_ok hassign
  obtain ⟨packed, hpacked, hend⟩ := Pack.bind_ok hended
  obtain ⟨packed', hpacked', hend'⟩ := Pack.bind_ok hreference
  obtain ⟨hpackedData, hpackedUri, hpackedCode⟩ := marshallBytes_ok hpacked
  have hbody : packed.body = (sender.body ++ more).drop headerSize := by
    rw [body, hpackedData, hdata]
  have hcall : sender.packCall (.push more) = .ok packed' := hpacked'
  have hmessage := (packCall_ok hroom hcall).2
  have hbody' : packed'.body = sender.body ++ more := congrArg OutMessage.body hmessage
  constructor
  · intro hsame
    -- a body that lost its first ten bytes is the same only if there was none
    have hlost : (sender.body ++ more).drop headerSize = sender.body ++ more := by
      rw [← hbody, ← hbody']
      have hkeep := congrArg OutMessage.body (ended_ok hend).2.1
      have hkeep' := congrArg OutMessage.body (ended_ok hend').2.1
      exact hkeep.symm.trans (hsame.body.trans hkeep')
    have hlength := congrArg List.length hlost
    rw [List.length_drop] at hlength
    have hnil : sender.body ++ more = [] := by
      apply List.length_eq_zero_iff.mp
      simp only [headerSize] at hlength
      omega
    exact List.append_eq_nil_iff.mp hnil
  · rintro ⟨hempty, rfl⟩
    refine same_of_message ?_ hend hend'
    have huri' : packed'.uri = sender.uri := congrArg OutMessage.uri hmessage
    have hcode' : packed'.resCode = sender.resCode := congrArg OutMessage.resCode hmessage
    simp only [message, OutMessage.mk.injEq]
    refine ⟨?_, ?_, ?_⟩
    · rw [hpackedUri, huri, huri']
    · rw [hpackedCode, hresCode, hcode']
    · rw [hbody, hbody', hempty]
      rfl

/-- A sender without a body is assigned to one with a body. -/
theorem assign_same_iff_empty :
    ∃ fresh target sender assigned ended reference : Sender,
      new (fun _ => some fun _ => 0) 0 = .ok fresh ∧ fresh.marshallBytes [1, 2] = .ok target ∧
      new (fun _ => some fun _ => 0) 7 = .ok sender ∧ target.assign sender = .ok assigned ∧
      (assigned.marshallBytes []).bind endPack = .ok ended ∧
      (sender.marshallBytes []).bind endPack = .ok reference ∧ Same ended reference := by
  obtain ⟨fresh, target, sender, assigned, ended, reference, hfresh, htarget, hsender, hempty,
      hassign, hended, hreference⟩ :
      ∃ fresh target sender assigned ended reference : Sender,
        new (fun _ => some fun _ => 0) 0 = .ok fresh ∧ fresh.marshallBytes [1, 2] = .ok target ∧
        new (fun _ => some fun _ => 0) 7 = .ok sender ∧ sender.body = [] ∧
        target.assign sender = .ok assigned ∧
        (assigned.marshallBytes []).bind endPack = .ok ended ∧
        (sender.marshallBytes []).bind endPack = .ok reference :=
    ⟨_, _, _, _, _, _, rfl, rfl, rfl, rfl, rfl, rfl, rfl⟩
  exact ⟨fresh, target, sender, assigned, ended, reference, hfresh, htarget, hsender, hassign,
    hended, hreference,
    (assign_same_iff target sender assigned ended reference [] hassign hended hreference).mpr
      ⟨hempty, rfl⟩⟩

/-- A body of one byte is assigned and gone. -/
theorem body_lost_by_assign :
    ∃ target sender assigned ended reference : Sender,
      new (fun _ => some fun _ => 0) 0 = .ok target ∧
      target.marshallBytes [1] = .ok sender ∧ target.assign sender = .ok assigned ∧
      (assigned.marshallBytes []).bind endPack = .ok ended ∧
      (sender.marshallBytes []).bind endPack = .ok reference ∧ ¬ Same ended reference := by
  obtain ⟨target, sender, assigned, ended, reference, htarget, hsender, hassign, hended,
      hreference, hlost, hbody⟩ :
      ∃ target sender assigned ended reference : Sender,
        new (fun _ => some fun _ => 0) 0 = .ok target ∧
        target.marshallBytes [1] = .ok sender ∧ target.assign sender = .ok assigned ∧
        (assigned.marshallBytes []).bind endPack = .ok ended ∧
        (sender.marshallBytes []).bind endPack = .ok reference ∧
        ended.body = [] ∧ reference.body = [1] :=
    ⟨_, _, _, _, _, rfl, rfl, rfl, rfl, rfl, rfl, rfl⟩
  refine ⟨target, sender, assigned, ended, reference, htarget, hsender, hassign, hended,
    hreference, fun hsame => ?_⟩
  exact absurd (hlost.symm.trans (hsame.body.trans hbody)) (by decide)

end Sender

end ServiceFrame
