import ServiceFrame.Core.Channel
import ServiceFrame.Core.MfcAppContext

/-! # Objects from end to end

An object is marshalled into a sender, sent over a connection, cut out of the stream at the
other end, unmarshalled by the entry of its `uri`, and given to the member function that the
entry names.
-/

namespace ServiceFrame

open Foundation

/-! ## Marshalling into a sender -/

section Pushes

/-- Everything that marshalling does to a pack is to append to its buffer. -/
def Pushed (p q : Pack) : Prop :=
  ∃ chunks : List (List UInt8), chunks.foldlM PackBuffer.append p.mBuffer = .ok q.mBuffer

theorem Pushed.refl (p : Pack) : Pushed p p := ⟨[], rfl⟩

theorem Pushed.trans {p q r : Pack} (hfirst : Pushed p q) (hsecond : Pushed q r) :
    Pushed p r := by
  obtain ⟨first, hfirst⟩ := hfirst
  obtain ⟨second, hsecond⟩ := hsecond
  refine ⟨first ++ second, ?_⟩
  rw [List.foldlM_append, hfirst]
  exact hsecond

theorem push_pushed {p q : Pack} {bytes : List UInt8} (hpush : p.push bytes = .ok q) :
    Pushed p q := by
  refine ⟨[bytes], ?_⟩
  unfold Pack.push at hpush
  split at hpush
  next buffer happ =>
    cases hpush
    exact congrArg (fun result : Except PackError PackBuffer => result.bind .ok) happ
  · cases hpush

theorem container_pushed {Elem : Type} {put : Elem → Pack → Except PackError Pack}
    (helem : ∀ elem p q, put elem p = .ok q → Pushed p q) {elems : List Elem} {p q : Pack}
    (hput : Marshal.marshalContainer put elems p = .ok q) : Pushed p q := by
  obtain ⟨counted, hcount, hloop⟩ := Pack.bind_ok hput
  refine (push_pushed hcount).trans ?_
  clear hcount hput
  induction elems generalizing counted with
  | nil =>
      cases hloop
      exact Pushed.refl _
  | cons elem elems ih =>
      rw [List.foldlM_cons] at hloop
      obtain ⟨middle, hfirst, hrest⟩ := Pack.bind_ok hloop
      exact (helem elem counted middle hfirst).trans (ih middle hrest)

theorem Marshal.put_pushed {Value : Type} (m : Marshal Value) {value : Value} {p q : Pack}
    (hput : m.put value p = .ok q) : Pushed p q := by
  induction m generalizing p q with
  | bool | uint8 | uint16 | uint32 | uint64 | int32 | int64 => exact push_pushed hput
  | varstr =>
      rw [put, Pack.pushVarstr] at hput
      split at hput
      · cases hput
      · obtain ⟨middle, hcount, hbody⟩ := Pack.bind_ok hput
        exact (push_pushed hcount).trans (push_pushed hbody)
  | varstr32 =>
      rw [put, Pack.pushVarstr32] at hput
      split at hput
      · cases hput
      · obtain ⟨middle, hcount, hbody⟩ := Pack.bind_ok hput
        exact (push_pushed hcount).trans (push_pushed hbody)
  | pair first second ihFirst ihSecond =>
      obtain ⟨middle, hfirst, hsecond⟩ := Pack.bind_ok hput
      exact (ihFirst hfirst).trans (ihSecond hsecond)
  | vector elem ih => exact container_pushed (fun _ _ _ => ih) hput
  | set less elem ih => exact container_pushed (fun _ _ _ => ih) hput
  | map less key mapped ihKey ihMapped =>
      refine container_pushed (fun entry p q hentry => ?_) hput
      obtain ⟨middle, hkey, hmapped⟩ := Pack.bind_ok hentry
      exact (ihKey hkey).trans (ihMapped hmapped)
  | record view fields ih => exact ih hput

end Pushes

namespace Sender

variable {sender next : Sender}

/-- `pk`, the pack of the body. -/
def pk (sender : Sender) (hroom : sender.Room) : Pack := ⟨sender.pb, headerSize, hroom⟩

/-- `marshall(u, m)`, for an object of a class that can be marshalled. -/
def marshallObj {Message : Type} (sender : Sender) (hroom : sender.Room) (uri : Int32)
    (marshal : Marshal Message) (obj : Message) : Except PackError Sender :=
  (marshal.put obj (sender.pk hroom)).map fun pk => { sender with uri := uri, pb := pk.mBuffer }

theorem marshall_push {chunks : List (List UInt8)} {pb : PackBuffer}
    (hchunks : chunks.foldlM PackBuffer.append sender.pb = .ok pb) :
    sender.marshall (chunks.map PackCall.push) = .ok { sender with pb := pb } := by
  induction chunks generalizing sender with
  | nil =>
      cases hchunks
      rfl
  | cons chunk rest ih =>
      rw [List.foldlM_cons] at hchunks
      obtain ⟨middle, hfirst, hrest⟩ := Pack.bind_ok hchunks
      have hmore := @ih { sender with pb := middle } hrest
      rw [marshall, List.map_cons, List.foldlM_cons, packCall, hfirst]
      exact hmore

variable {Message : Type} {hroom : sender.Room} {uri : Int32} {marshal : Marshal Message}
  {obj : Message}

theorem InUse.marshallObj (hinUse : sender.InUse)
    (hmarshall : sender.marshallObj hroom uri marshal obj = .ok next) : next.InUse := by
  obtain ⟨mallocs, garbage, start, calls, hnew, hrun⟩ := hinUse
  obtain ⟨pk, hput, rfl⟩ := map_ok hmarshall
  obtain ⟨chunks, hchunks⟩ := marshal.put_pushed hput
  refine ⟨mallocs, garbage, start, calls ++ [.marshallUri uri (chunks.map PackCall.push)], hnew,
    ?_⟩
  rw [run_append, hrun, Option.bind_some, run_cons, SenderCall.step, SenderCall.exec, marshallUri,
    @marshall_push { sender with uri := uri } chunks _ hchunks]
  rfl

end Sender

/-! ## Posts -/

variable {Cmd Proc Target Conn : Type}

/-- An object that is sent to an entry of the context, with a result code. -/
structure Post (app : MfcAppcontext Cmd Proc Target Conn) (packLimit : UInt32) : Type 1 where
  sender : Sender
  inUse : sender.InUse
  empty : sender.body = []
  uri : Int32
  entry : FormEntry Cmd Proc Target
  found : app.find uri.toUInt32 = some entry
  Message : Type
  marshal : Marshal Message
  cmd : Message → Cmd
  form_eq : entry.requestForm = some (.form marshal cmd)
  value : Message
  resp : Sender
  marshalled : sender.marshallObj inUse.room uri marshal value = .ok resp
  fits : headerSize + resp.body.length ≤ min packLimit.toNat (BlockBuffer.maxsize connParams)

namespace Post

variable {app : MfcAppcontext Cmd Proc Target Conn} {packLimit : UInt32}

def packet (post : Post app packLimit) : Packet packLimit where
  resp := post.resp
  inUse := post.inUse.marshallObj post.marshalled
  fits := post.fits

/-- The request that the other end reads, with `up` left to unpack. -/
def request (post : Post app packLimit) (type : ConnType) (up : Unpack) : Request where
  od := post.packet.frame.bytes
  length := UInt32.ofNat (headerSize + post.resp.body.length)
  uri := post.uri.toUInt32
  resCode := post.sender.resCode
  up := up
  connectType := type

/-- The call that the post is for: the object comes along when the result code says success. -/
def expected (post : Post app packLimit) (type : ConnType) (conn : Conn) :
    Option (Invocation Cmd Proc Target Conn) :=
  if post.sender.resCode = resSuccess then
    app.dispatchMessage post.entry (post.request type []) (some (post.cmd post.value)) conn
  else app.dispatchMessage post.entry (post.request type post.resp.body) none conn

end Post

namespace Channel

variable {cipher : StreamCipher} {packLimit : UInt32} {key : Option (List UInt8)}
  {doRequest : DoRequest} {sent : List (Packet packLimit)} {channel : Channel cipher}

/-- The requests that the packets are at the other end. -/
def requests (cipher : StreamCipher) (key : Option (List UInt8)) (sent : List (Packet packLimit)) :
    List Request :=
  sent.map fun packet => packet.frame.request (Link.connType (filterOf cipher key))

end Channel

section Handled

variable (cipher : StreamCipher) (app : MfcAppcontext Cmd Proc Target Conn) (conn : Conn)
  {packLimit : UInt32} (key : Option (List UInt8))

end Handled

end ServiceFrame
