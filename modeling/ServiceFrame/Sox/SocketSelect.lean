import ServiceFrame.Sox.Selector

/-! # What a socket asks its selector for

`Socket::select` keeps in the socket, as `selevent`, the events that it has asked for, and
leaves out of a request what they make needless. `Selector_epoll` and `Selector_lazy` each
make an interest of the requests that reach them.

An `int` of events is a `BitVec 32`; `selevent` is a bit-field of eight.
-/

namespace ServiceFrame

open Foundation

universe uSock uState uState'

/-! ## Events -/

/-- The events that the selectors wait for. -/
inductive SelEvent where
  | read
  | write
deriving DecidableEq

namespace SelEvent

def flag : SelEvent → Nat
  | .read => SEL_READ
  | .write => SEL_WRITE

/-- The bit of the flag. -/
def bit : SelEvent → Nat
  | .read => 0
  | .write => 1

def epollFlag : SelEvent → Nat
  | .read => EPOLLIN
  | .write => EPOLLOUT

end SelEvent

/-- `mask & flag`, as a condition. -/
def bitSet (mask : BitVec 32) (flag : Nat) : Bool := mask &&& BitVec.ofNat 32 flag != 0

theorem bitSet_twoPow (mask : BitVec 32) (place : Nat) (hplace : place < 32) :
    bitSet mask (2 ^ place) = mask.getLsbD place := by
  have hflag : BitVec.ofNat 32 (2 ^ place) = BitVec.twoPow 32 place := by
    apply BitVec.eq_of_toNat_eq
    rw [BitVec.toNat_ofNat, BitVec.toNat_twoPow]
  have hne : BitVec.twoPow 32 place ≠ 0#32 := fun hzero => by
    simpa [hplace] using congrArg (BitVec.getLsbD · place) hzero
  rw [bitSet, hflag, BitVec.and_twoPow]
  split
  next hbit => simp [hne, hbit]
  next hbit => simp [hbit]

theorem bitSet_flag (mask : BitVec 32) (ev : SelEvent) :
    bitSet mask ev.flag = mask.getLsbD ev.bit := by
  cases ev
  · exact bitSet_twoPow mask 0 (by decide)
  · exact bitSet_twoPow mask 1 (by decide)

theorem SelEvent.bit_lt_eight (ev : SelEvent) : ev.bit < 8 := by
  cases ev <;> decide

theorem SelEvent.bit_lt (ev : SelEvent) : ev.bit < 32 := by
  cases ev <;> decide

theorem getLsbD_not (mask : BitVec 32) (ev : SelEvent) :
    (~~~mask).getLsbD ev.bit = !mask.getLsbD ev.bit := by
  rw [BitVec.getLsbD_not, decide_eq_true ev.bit_lt, Bool.true_and]

/-! ## Selectors -/

/-- A derived class of `Selector`: `select` reads the socket's `selevent`. -/
structure SelectorClass (Sock : Type uSock) (State : Type uState) where
  select : State → Sock → BitVec 8 → BitVec 32 → BitVec 32 → State
  remove : State → Sock → State

/-- Two selectors that get the same calls. -/
def SelectorClass.both {Sock : Type uSock} {State : Type uState} {State' : Type uState'}
    (first : SelectorClass Sock State) (second : SelectorClass Sock State') :
    SelectorClass Sock (State × State') where
  select states s selevent remove add :=
    (first.select states.1 s selevent remove add, second.select states.2 s selevent remove add)
  remove states s := (first.remove states.1 s, second.remove states.2 s)

variable {Sock : Type uSock} [DecidableEq Sock]

structure SelectorEpoll (Sock : Type uSock) where
  sockets : Sock → Bool
  /-- What the kernel waits for, of the sockets in `epfd`. -/
  epfd : Sock → Option (BitVec 32)

namespace SelectorEpoll

/-- `epoll_ctl` with `EPOLL_CTL_ADD` or `EPOLL_CTL_MOD`, which succeeds. -/
def setupEpoll (selector : SelectorEpoll Sock) (s : Sock) (events : BitVec 32) :
    SelectorEpoll Sock :=
  { selector with epfd := Function.update selector.epfd s (some events) }

/-- The mask made of what a socket waits for after a request. -/
def eventsOf (currstate : BitVec 32) : BitVec 32 :=
  let events : BitVec 32 := if bitSet currstate SEL_READ then BitVec.ofNat 32 EPOLLIN else 0
  if bitSet currstate SEL_WRITE then events ||| BitVec.ofNat 32 EPOLLOUT else events

/-- The mask of a socket that is new to the selector. -/
def firstEvents (add : BitVec 32) : BitVec 32 :=
  let events : BitVec 32 := BitVec.ofNat 32 EPOLLIN
  if bitSet add SEL_WRITE then events ||| BitVec.ofNat 32 EPOLLOUT else events

def select (selector : SelectorEpoll Sock) (s : Sock) (selevent : BitVec 8)
    (remove add : BitVec 32) : SelectorEpoll Sock :=
  if selector.sockets s then
    selector.setupEpoll s (eventsOf ((selevent.setWidth 32 &&& ~~~remove) ||| add))
  else
    setupEpoll { selector with sockets := Function.update selector.sockets s true } s
      (firstEvents add)

def remove (selector : SelectorEpoll Sock) (s : Sock) : SelectorEpoll Sock where
  sockets := Function.update selector.sockets s false
  epfd := Function.update selector.epfd s none

def selectorClass : SelectorClass Sock (SelectorEpoll Sock) := ⟨select, remove⟩

def new : SelectorEpoll Sock := ⟨fun _ => false, fun _ => none⟩

/-- The kernel waits for the event. -/
def watches (selector : SelectorEpoll Sock) (s : Sock) (ev : SelEvent) : Bool :=
  (selector.epfd s).any fun events => bitSet events ev.epollFlag

theorem bitSet_eventsOf (currstate : BitVec 32) (ev : SelEvent) :
    bitSet (eventsOf currstate) ev.epollFlag = currstate.getLsbD ev.bit := by
  rw [← bitSet_flag, eventsOf]
  cases ev <;> dsimp only [SelEvent.flag] <;> cases bitSet currstate SEL_READ <;>
    cases bitSet currstate SEL_WRITE <;> decide

/-- Of a new socket reading is awaited whatever it asks for. -/
theorem bitSet_firstEvents (add : BitVec 32) (ev : SelEvent) :
    bitSet (firstEvents add) ev.epollFlag = (ev == .read || add.getLsbD ev.bit) := by
  rw [← bitSet_flag, firstEvents]
  cases ev <;> dsimp only [SelEvent.flag] <;> cases bitSet add SEL_WRITE <;> simp <;> decide

theorem watches_setupEpoll (selector : SelectorEpoll Sock) (s : Sock) (events : BitVec 32)
    (ev : SelEvent) : (selector.setupEpoll s events).watches s ev = bitSet events ev.epollFlag := by
  rw [watches, setupEpoll]
  dsimp only
  rw [Function.update_self, Option.any_some]

/-- What is awaited of a socket after a request. -/
theorem watches_select (selector : SelectorEpoll Sock) (s : Sock) (selevent : BitVec 8)
    (remove add : BitVec 32) (ev : SelEvent) :
    (selector.select s selevent remove add).watches s ev =
      if selector.sockets s then
        (selevent.setWidth 32).getLsbD ev.bit && !remove.getLsbD ev.bit || add.getLsbD ev.bit
      else ev == .read || add.getLsbD ev.bit := by
  rw [select]
  split
  next => rw [watches_setupEpoll, bitSet_eventsOf, BitVec.getLsbD_or, BitVec.getLsbD_and,
    getLsbD_not]
  next => rw [watches_setupEpoll, bitSet_firstEvents]

theorem sockets_select (selector : SelectorEpoll Sock) (s : Sock) (selevent : BitVec 8)
    (remove add : BitVec 32) :
    (selector.select s selevent remove add).sockets = Function.update selector.sockets s true := by
  rw [select]
  split
  next hsocket => exact (Function.update_eq_self_iff.mpr hsocket.symm).symm
  next => rfl

theorem epfd_select_of_ne (selector : SelectorEpoll Sock) {s other : Sock} (hne : other ≠ s)
    (selevent : BitVec 8) (remove add : BitVec 32) :
    (selector.select s selevent remove add).epfd other = selector.epfd other := by
  rw [select]
  split <;> exact Function.update_of_ne hne _ _

end SelectorEpoll

structure SelectorLazy (Sock : Type uSock) where
  m_selects : Sock → Option (BitVec 32)

namespace SelectorLazy

/-- `m_maxconns` is 0: any number of connections. -/
def select (selector : SelectorLazy Sock) (s : Sock) (_selevent : BitVec 8)
    (remove add : BitVec 32) : SelectorLazy Sock where
  m_selects := Function.update selector.m_selects s
    (some (((selector.m_selects s).getD 0 &&& ~~~remove) ||| add))

def remove (selector : SelectorLazy Sock) (s : Sock) : SelectorLazy Sock where
  m_selects := Function.update selector.m_selects s none

def selectorClass : SelectorClass Sock (SelectorLazy Sock) := ⟨select, remove⟩

def new : SelectorLazy Sock := ⟨fun _ => none⟩

/-- The event is in the mask that `poll` and the like are called with. -/
def watches (selector : SelectorLazy Sock) (s : Sock) (ev : SelEvent) : Bool :=
  (selector.m_selects s).any fun events => bitSet events ev.flag

theorem watches_select (selector : SelectorLazy Sock) (s : Sock) (selevent : BitVec 8)
    (remove add : BitVec 32) (ev : SelEvent) :
    (selector.select s selevent remove add).watches s ev =
      (selector.watches s ev && !remove.getLsbD ev.bit || add.getLsbD ev.bit) := by
  have hold : ((selector.m_selects s).getD 0).getLsbD ev.bit = selector.watches s ev := by
    rw [watches]
    cases selector.m_selects s with
    | none => simp
    | some events => rw [Option.any_some, bitSet_flag, Option.getD_some]
  rw [watches, select]
  dsimp only
  rw [Function.update_self, Option.any_some, bitSet_flag, BitVec.getLsbD_or, BitVec.getLsbD_and,
    getLsbD_not, hold]

theorem m_selects_select_of_ne (selector : SelectorLazy Sock) {s other : Sock} (hne : other ≠ s)
    (selevent : BitVec 8) (remove add : BitVec 32) :
    (selector.select s selevent remove add).m_selects other = selector.m_selects other :=
  Function.update_of_ne hne _ _

end SelectorLazy

/-! ## Sockets -/

/-- What `Socket` keeps of a socket in `m_sock_flags`, and whether it is open. -/
structure SockFlags where
  isValid : Bool
  selevent : BitVec 8
  selected : Bool
  shutdown_send : Bool
  shutdown_recv : Bool

namespace SockFlags

/-- An open socket that no call has been made of. -/
def opened : SockFlags := ⟨true, 0, false, false, false⟩

/-- Clears what cannot be added any more. -/
def clearInvalid (flags : SockFlags) (add : BitVec 32) : BitVec 32 :=
  let add := if flags.shutdown_send then add &&& ~~~(BitVec.ofNat 32 SEL_WRITE) else add
  if flags.shutdown_recv then add &&& ~~~(BitVec.ofNat 32 SEL_READ) else add

/-- What of `add` is new, and what of `remove` there is to remove. -/
def newAdd (flags : SockFlags) (add : BitVec 32) : BitVec 32 :=
  add &&& ~~~(flags.selevent.setWidth 32)

def newRemove (flags : SockFlags) (remove add : BitVec 32) : BitVec 32 :=
  remove &&& ~~~add &&& flags.selevent.setWidth 32

/-- What is kept of a request that the selector has got. -/
def save (flags : SockFlags) (remove add : BitVec 32) : SockFlags :=
  { flags with
    selevent := ((flags.selevent.setWidth 32 &&& ~~~remove) ||| add).setWidth 8
    selected := true }

end SockFlags

/-- The sockets, and `env::selector()`. -/
structure SoxEnv (Sock : Type uSock) (State : Type uState) where
  m_sock_flags : Sock → SockFlags
  m_sel : State

/-- What is called of a socket. -/
inductive SocketCall (Sock : Type uSock) where
  | select (s : Sock) (remove add : BitVec 32)
  | remove (s : Sock)

namespace SoxEnv

variable {State : Type uState} (selector : SelectorClass Sock State) (env : SoxEnv Sock State)

def new (m_sel : State) : SoxEnv Sock State := ⟨fun _ => .opened, m_sel⟩

/-- `Socket::select`; it throws when the socket is not open. -/
def select (s : Sock) (remove add : BitVec 32) : Option (SoxEnv Sock State) :=
  let flags := env.m_sock_flags s
  if flags.isValid then
    let add := flags.clearInvalid add
    let remove := flags.newRemove remove add
    let add := flags.newAdd add
    if remove + add ≠ 0 then
      some
        { m_sock_flags := Function.update env.m_sock_flags s (flags.save remove add)
          m_sel := selector.select env.m_sel s flags.selevent remove add }
    else some env
  else none

/-- `Socket::remove`. -/
def remove (s : Sock) : SoxEnv Sock State :=
  let flags := env.m_sock_flags s
  if flags.selected then
    { m_sock_flags := Function.update env.m_sock_flags s { flags with selected := false }
      m_sel := selector.remove env.m_sel s }
  else env

def step : SocketCall Sock → Option (SoxEnv Sock State)
  | .select s remove add => env.select selector s remove add
  | .remove s => some (env.remove selector s)

end SoxEnv

/-! ## What a request becomes -/

namespace SockFlags

/-- The socket has asked for the event at some time. -/
def saved (flags : SockFlags) (ev : SelEvent) : Bool := flags.selevent.getLsbD ev.bit

/-- Something of the request is left for the selector. -/
def Reaches (flags : SockFlags) (remove add : BitVec 32) : Prop :=
  flags.newAdd add ≠ 0 ∨ flags.newRemove remove add ≠ 0

instance decidableReaches (flags : SockFlags) (remove add : BitVec 32) :
    Decidable (flags.Reaches remove add) := inferInstanceAs (Decidable (_ ∨ _))

variable (flags : SockFlags) (remove add : BitVec 32) (ev : SelEvent)

theorem getLsbD_selevent : (flags.selevent.setWidth 32).getLsbD ev.bit = flags.saved ev := by
  rw [BitVec.getLsbD_setWidth, decide_eq_true ev.bit_lt, Bool.true_and, saved]

theorem getLsbD_newAdd :
    (flags.newAdd add).getLsbD ev.bit = (add.getLsbD ev.bit && !flags.saved ev) := by
  rw [newAdd, BitVec.getLsbD_and, getLsbD_not, getLsbD_selevent]

theorem getLsbD_newRemove :
    (flags.newRemove remove add).getLsbD ev.bit =
      (remove.getLsbD ev.bit && !add.getLsbD ev.bit && flags.saved ev) := by
  rw [newRemove, BitVec.getLsbD_and, BitVec.getLsbD_and, getLsbD_not, getLsbD_selevent]

/-- The two have no bit in common, so that their sum is 0 only when both are. -/
theorem add_ne_zero_iff :
    flags.newRemove remove add + flags.newAdd add ≠ 0 ↔ flags.Reaches remove add := by
  have hdisjoint : flags.newRemove remove add &&& flags.newAdd add = 0 := by
    apply BitVec.eq_of_getLsbD_eq
    intro place hplace
    simp only [newRemove, newAdd, BitVec.getLsbD_and, BitVec.getLsbD_not, hplace, decide_true,
      Bool.true_and]
    cases add.getLsbD place <;> simp
  have hor : flags.newRemove remove add ||| flags.newAdd add = 0 ↔
      flags.newRemove remove add = 0 ∧ flags.newAdd add = 0 := BitVec.or_eq_zero_iff
  rw [BitVec.add_eq_or_of_and_eq_zero _ _ hdisjoint, ne_eq, hor, Reaches]
  tauto

theorem reaches_of_new (hadd : add.getLsbD ev.bit = true) (hnew : flags.saved ev = false) :
    flags.Reaches remove add := by
  refine .inl fun hzero => ?_
  have hbit := flags.getLsbD_newAdd add ev
  rw [hzero, hadd, hnew] at hbit
  simp at hbit

theorem reaches_of_saved (hremove : remove.getLsbD ev.bit = true)
    (hadd : add.getLsbD ev.bit = false) (hsaved : flags.saved ev = true) :
    flags.Reaches remove add := by
  refine .inr fun hzero => ?_
  have hbit := flags.getLsbD_newRemove remove add ev
  rw [hzero, hremove, hadd, hsaved] at hbit
  simp at hbit

/-- What is saved is what was saved and is not removed, and what is added. -/
theorem saved_save :
    (flags.save (flags.newRemove remove add) (flags.newAdd add)).saved ev =
      (flags.saved ev && !remove.getLsbD ev.bit || add.getLsbD ev.bit) := by
  rw [save, saved, BitVec.getLsbD_setWidth, decide_eq_true ev.bit_lt_eight, Bool.true_and,
    BitVec.getLsbD_or, BitVec.getLsbD_and, getLsbD_not, getLsbD_selevent, getLsbD_newRemove,
    getLsbD_newAdd]
  cases flags.saved ev <;> cases remove.getLsbD ev.bit <;> cases add.getLsbD ev.bit <;> rfl

end SockFlags

/-! ## What both selectors make of it -/

namespace SoxEnv

section Both

variable {State : Type uState} {State' : Type uState'} (first : SelectorClass Sock State)
  (second : SelectorClass Sock State')

def withFirst (env : SoxEnv Sock (State × State')) : SoxEnv Sock State :=
  ⟨env.m_sock_flags, env.m_sel.1⟩

def withSecond (env : SoxEnv Sock (State × State')) : SoxEnv Sock State' :=
  ⟨env.m_sock_flags, env.m_sel.2⟩

/-- No socket sees which selector there is: beside another one a selector runs as alone. -/
theorem run_withFirst (env : SoxEnv Sock (State × State')) (calls : List (SocketCall Sock)) :
    (run (step (first.both second)) env calls).map withFirst =
      run (step first) env.withFirst calls := by
  refine run_map withFirst (fun env call => ?_) env calls
  cases call with
  | select s remove add =>
      dsimp only [step, select, withFirst]
      split_ifs <;> rfl
  | remove s =>
      dsimp only [step, SoxEnv.remove, withFirst]
      split_ifs <;> rfl

theorem run_withSecond (env : SoxEnv Sock (State × State')) (calls : List (SocketCall Sock)) :
    (run (step (first.both second)) env calls).map withSecond =
      run (step second) env.withSecond calls := by
  refine run_map withSecond (fun env call => ?_) env calls
  cases call with
  | select s remove add =>
      dsimp only [step, select, withSecond]
      split_ifs <;> rfl
  | remove s =>
      dsimp only [step, SoxEnv.remove, withSecond]
      split_ifs <;> rfl

end Both

/-- The sockets with both selectors, and what each socket has asked for since its last
`remove`. -/
abbrev Asking (Sock : Type uSock) :=
  SoxEnv Sock (SelectorEpoll Sock × SelectorLazy Sock) × (Sock → SelEvent → Bool)

/-- What a call asks for. What is added and removed at once is added. -/
def ask (asked : Sock → SelEvent → Bool)
    (_env : SoxEnv Sock (SelectorEpoll Sock × SelectorLazy Sock)) :
    SocketCall Sock → Sock → SelEvent → Bool
  | .select s remove add =>
      Function.update asked s fun ev =>
        asked s ev && !bitSet remove ev.flag || bitSet add ev.flag
  | .remove s => Function.update asked s fun _ => false

def askingStep : Asking Sock → SocketCall Sock → Option (Asking Sock) :=
  recorded ask (step (SelectorEpoll.selectorClass.both SelectorLazy.selectorClass))

def start : Asking Sock := (new (.new, .new), fun _ _ => false)

/-- Both selectors watch of a socket what it has asked for. -/
def ExactOf (past : Asking Sock) (s : Sock) : Prop :=
  ∀ ev, past.1.m_sel.1.watches s ev = past.2 s ev ∧ past.1.m_sel.2.watches s ev = past.2 s ev

def Exact (past : Asking Sock) : Prop := ∀ s, ExactOf past s

/-- The event is still saved in a socket that has not asked for it any more. -/
def Stale (past : Asking Sock) (s : Sock) (ev : SelEvent) : Prop :=
  (past.1.m_sock_flags s).saved ev = true ∧ past.2 s ev = false

/-- Of a socket that its selector has, no stale event is added, and a request that reaches the
selector removes those there are. Of one that it has not, no saved event is added, and a
request that reaches the selector adds reading. -/
def Clean (past : Asking Sock) : SocketCall Sock → Prop
  | .select s remove add =>
      let flags := past.1.m_sock_flags s
      if flags.selected then
        ∀ ev, Stale past s ev → bitSet add ev.flag = false ∧
          (flags.Reaches remove add → bitSet remove ev.flag = true)
      else
        (∀ ev, bitSet add ev.flag = true → flags.saved ev = false) ∧
          (flags.Reaches remove add → bitSet add SEL_READ = true)
  | .remove _ => True

/-! ## One call -/

structure Steady (past : Asking Sock) : Prop where
  isValid : ∀ s, (past.1.m_sock_flags s).isValid = true
  shutdown : ∀ s, (past.1.m_sock_flags s).shutdown_send = false ∧
    (past.1.m_sock_flags s).shutdown_recv = false
  sockets : ∀ s, past.1.m_sel.1.sockets s = (past.1.m_sock_flags s).selected
  epfd : ∀ s, (past.1.m_sock_flags s).selected = false → past.1.m_sel.1.epfd s = none
  m_selects : ∀ s, (past.1.m_sock_flags s).selected = false → past.1.m_sel.2.m_selects s = none
  saved : ∀ s ev, (past.1.m_sock_flags s).selected = true → past.2 s ev = true →
    (past.1.m_sock_flags s).saved ev = true
  exact : Exact past

omit [DecidableEq Sock] in
theorem steady_start : Steady (start : Asking Sock) where
  isValid _ := rfl
  shutdown _ := ⟨rfl, rfl⟩
  sockets _ := rfl
  epfd _ _ := rfl
  m_selects _ _ := rfl
  saved _ _ hselected := absurd hselected Bool.false_ne_true
  exact _ _ := ⟨rfl, rfl⟩

variable {past next : Asking Sock} {s : Sock} {remove add : BitVec 32} {ev : SelEvent}

/-- What a request that reaches the selectors does. -/
def pass (past : Asking Sock) (s : Sock) (remove add : BitVec 32) :
    SoxEnv Sock (SelectorEpoll Sock × SelectorLazy Sock) :=
  let flags := past.1.m_sock_flags s
  { m_sock_flags := Function.update past.1.m_sock_flags s
      (flags.save (flags.newRemove remove add) (flags.newAdd add))
    m_sel :=
      (past.1.m_sel.1.select s flags.selevent (flags.newRemove remove add) (flags.newAdd add),
        past.1.m_sel.2.select s flags.selevent (flags.newRemove remove add) (flags.newAdd add)) }

def selected (past : Asking Sock) (s : Sock) (remove add : BitVec 32) : Asking Sock :=
  (if (past.1.m_sock_flags s).Reaches remove add then pass past s remove add else past.1,
    ask past.2 past.1 (.select s remove add))

theorem askingStep_select (hpast : Steady past) :
    askingStep past (.select s remove add) = some (selected past s remove add) := by
  have hclear : (past.1.m_sock_flags s).clearInvalid add = add := by
    simp [SockFlags.clearInvalid, hpast.shutdown s]
  dsimp only [askingStep, recorded, step, select, selected]
  rw [if_pos (hpast.isValid s), hclear]
  by_cases hreaches : (past.1.m_sock_flags s).Reaches remove add
  · rw [if_pos hreaches, if_pos ((SockFlags.add_ne_zero_iff _ _ _).mpr hreaches)]
    rfl
  · rw [if_neg hreaches, if_neg fun hne => hreaches ((SockFlags.add_ne_zero_iff _ _ _).mp hne)]
    rfl

/-- What a socket is left with by a request that reaches `Selector_epoll`. -/
theorem watches_epoll (hpast : Steady past) :
    (pass past s remove add).m_sel.1.watches s ev =
      if (past.1.m_sock_flags s).selected then
        (past.1.m_sock_flags s).saved ev && !remove.getLsbD ev.bit || add.getLsbD ev.bit
      else ev == .read || add.getLsbD ev.bit && !(past.1.m_sock_flags s).saved ev := by
  rw [pass, SelectorEpoll.watches_select, hpast.sockets s, SockFlags.getLsbD_selevent,
    SockFlags.getLsbD_newRemove, SockFlags.getLsbD_newAdd]
  split
  next =>
    cases (past.1.m_sock_flags s).saved ev <;> cases remove.getLsbD ev.bit <;>
      cases add.getLsbD ev.bit <;> rfl
  next => rfl

/-- What a socket is left with by a request that reaches `Selector_lazy`. -/
theorem watches_lazy (hpast : Steady past) :
    (pass past s remove add).m_sel.2.watches s ev =
      (past.2 s ev && !(remove.getLsbD ev.bit && !add.getLsbD ev.bit &&
        (past.1.m_sock_flags s).saved ev) ||
          add.getLsbD ev.bit && !(past.1.m_sock_flags s).saved ev) := by
  rw [pass, SelectorLazy.watches_select, (hpast.exact s ev).2, SockFlags.getLsbD_newRemove,
    SockFlags.getLsbD_newAdd]

omit [DecidableEq Sock] in
/-- What is not registered has not been asked for. -/
theorem Steady.unasked (hpast : Steady past)
    (hselected : (past.1.m_sock_flags s).selected = false) : past.2 s ev = false := by
  rw [← (hpast.exact s ev).1, SelectorEpoll.watches, hpast.epfd s hselected]
  rfl

theorem ask_select (past : Asking Sock) (s : Sock) (remove add : BitVec 32) (ev : SelEvent) :
    ask past.2 past.1 (.select s remove add) s ev =
      (past.2 s ev && !remove.getLsbD ev.bit || add.getLsbD ev.bit) := by
  rw [ask, Function.update_self, bitSet_flag, bitSet_flag]

/-- A request that reaches the selectors leaves them exact when it is clean. -/
theorem exactOf_pass (hpast : Steady past)
    (hreaches : (past.1.m_sock_flags s).Reaches remove add) :
    ExactOf (pass past s remove add, ask past.2 past.1 (.select s remove add)) s ↔
      Clean past (.select s remove add) := by
  simp only [ExactOf, watches_epoll hpast, watches_lazy hpast, ask_select]
  by_cases hselected : (past.1.m_sock_flags s).selected = true
  · simp only [Clean, hselected, if_true, Stale, bitSet_flag, hreaches, forall_true_left]
    refine forall_congr' fun ev => ?_
    have hsaved := hpast.saved s ev hselected
    revert hsaved
    cases (past.1.m_sock_flags s).saved ev <;> cases past.2 s ev <;>
      cases remove.getLsbD ev.bit <;> cases add.getLsbD ev.bit <;> decide
  · have hunasked : ∀ ev, past.2 s ev = false := fun ev => hpast.unasked (by simpa using hselected)
    have hread : bitSet add SEL_READ = add.getLsbD SelEvent.read.bit := bitSet_flag add .read
    simp only [Clean, hselected, if_false, Bool.false_eq_true, bitSet_flag, hreaches,
      forall_true_left, hunasked, Bool.false_and, Bool.false_or, hread]
    constructor
    · intro hexact
      refine ⟨fun ev hadd => ?_, ?_⟩
      · simpa [hadd] using (hexact ev).2
      · simpa using (hexact .read).1.symm
    · rintro ⟨hnew, hadd⟩ ev
      cases ev with
      | read => simp [hadd, hnew .read hadd]
      | write =>
          cases hwrite : add.getLsbD SelEvent.write.bit with
          | false => simp
          | true => simp [hnew .write hwrite]

/-- A request that does not reach them leaves them exact when it is clean. -/
theorem exactOf_skip (hpast : Steady past)
    (hreaches : ¬ (past.1.m_sock_flags s).Reaches remove add) :
    ExactOf (past.1, ask past.2 past.1 (.select s remove add)) s ↔
      Clean past (.select s remove add) := by
  have hold : ∀ ev, add.getLsbD ev.bit = true → (past.1.m_sock_flags s).saved ev = true := by
    intro ev hadd
    by_contra hnew
    exact hreaches (SockFlags.reaches_of_new _ _ _ _ hadd (by simpa using hnew))
  have hgone : ∀ ev, remove.getLsbD ev.bit = true → add.getLsbD ev.bit = false →
      (past.1.m_sock_flags s).saved ev = false := by
    intro ev hremove hadd
    by_contra hsaved
    exact hreaches (SockFlags.reaches_of_saved _ _ _ _ hremove hadd (by simpa using hsaved))
  simp only [ExactOf, hpast.exact s _, ask_select]
  by_cases hselected : (past.1.m_sock_flags s).selected = true
  · simp only [Clean, hselected, if_true, Stale, bitSet_flag, hreaches, false_implies, and_true]
    refine forall_congr' fun ev => ?_
    have hsaved := hpast.saved s ev hselected
    have hold := hold ev
    have hgone := hgone ev
    revert hsaved hold hgone
    cases (past.1.m_sock_flags s).saved ev <;> cases past.2 s ev <;>
      cases remove.getLsbD ev.bit <;> cases add.getLsbD ev.bit <;> decide
  · have hunasked : ∀ ev, past.2 s ev = false := fun ev => hpast.unasked (by simpa using hselected)
    simp only [Clean, hselected, if_false, Bool.false_eq_true, bitSet_flag, hreaches,
      false_implies, and_true, hunasked, Bool.false_and, Bool.false_or, and_self]
    refine forall_congr' fun ev => ?_
    have hold := hold ev
    revert hold
    cases (past.1.m_sock_flags s).saved ev <;> cases add.getLsbD ev.bit <;> decide

/-- The other sockets keep what they have. -/
theorem exactOf_other (hpast : Steady past) {other : Sock} (hne : other ≠ s) :
    ExactOf (selected past s remove add) other := by
  intro ev
  have hasked : ask past.2 past.1 (.select s remove add) other ev = past.2 other ev := by
    rw [ask, Function.update_of_ne hne]
  have hexact := hpast.exact other ev
  dsimp only [selected]
  rw [hasked]
  split
  next =>
    dsimp only [pass]
    rw [SelectorEpoll.watches, SelectorEpoll.epfd_select_of_ne _ hne, SelectorLazy.watches,
      SelectorLazy.m_selects_select_of_ne _ hne]
    exact hexact
  next => exact hexact

theorem exact_select_iff (hpast : Steady past) :
    Exact (selected past s remove add) ↔ Clean past (.select s remove add) := by
  have hone : ExactOf (selected past s remove add) s ↔ Clean past (.select s remove add) := by
    by_cases hreaches : (past.1.m_sock_flags s).Reaches remove add
    · rw [selected, if_pos hreaches]
      exact exactOf_pass hpast hreaches
    · rw [selected, if_neg hreaches]
      exact exactOf_skip hpast hreaches
  rw [← hone]
  refine ⟨fun hexact => hexact s, fun hexact other => ?_⟩
  by_cases hother : other = s
  · exact hother ▸ hexact
  · exact exactOf_other hpast hother

omit [DecidableEq Sock] in
/-- What is asked for of a registered socket is saved in it. -/
theorem saved_of_asked (hpast : Steady past) (hasked : past.2 s ev = true) :
    (past.1.m_sock_flags s).saved ev = true := by
  by_cases hselected : (past.1.m_sock_flags s).selected = true
  · exact hpast.saved s ev hselected hasked
  · rw [hpast.unasked (by simpa using hselected)] at hasked
    exact absurd hasked Bool.false_ne_true

theorem steady_pass (hpast : Steady past)
    (hexact : Exact (pass past s remove add, ask past.2 past.1 (.select s remove add))) :
    Steady (pass past s remove add, ask past.2 past.1 (.select s remove add)) := by
  have hself : (pass past s remove add).m_sock_flags s =
      (past.1.m_sock_flags s).save ((past.1.m_sock_flags s).newRemove remove add)
        ((past.1.m_sock_flags s).newAdd add) := Function.update_self ..
  have hother : ∀ other, other ≠ s →
      (pass past s remove add).m_sock_flags other = past.1.m_sock_flags other :=
    fun other hne => Function.update_of_ne hne ..
  have hselected : ((pass past s remove add).m_sock_flags s).selected = true := by
    rw [hself]
    rfl
  constructor
  case isValid =>
    intro other
    rcases eq_or_ne other s with rfl | hne
    · rw [hself]
      exact hpast.isValid other
    · rw [hother other hne]
      exact hpast.isValid other
  case shutdown =>
    intro other
    rcases eq_or_ne other s with rfl | hne
    · rw [hself]
      exact hpast.shutdown other
    · rw [hother other hne]
      exact hpast.shutdown other
  case sockets =>
    intro other
    apply (congrFun (SelectorEpoll.sockets_select ..) other).trans
    rcases eq_or_ne other s with rfl | hne
    · rw [Function.update_self]
      exact hselected.symm
    · rw [Function.update_of_ne hne, hother other hne]
      exact hpast.sockets other
  case epfd =>
    intro other hnot
    rcases eq_or_ne other s with rfl | hne
    · exact absurd (hselected.symm.trans hnot) (by decide)
    · rw [hother other hne] at hnot
      exact (SelectorEpoll.epfd_select_of_ne _ hne _ _ _).trans (hpast.epfd other hnot)
  case m_selects =>
    intro other hnot
    rcases eq_or_ne other s with rfl | hne
    · exact absurd (hselected.symm.trans hnot) (by decide)
    · rw [hother other hne] at hnot
      exact (SelectorLazy.m_selects_select_of_ne _ hne (past.1.m_sock_flags s).selevent _ _).trans
        (hpast.m_selects other hnot)
  case saved =>
    intro other ev hregistered hasked
    dsimp only at hregistered hasked ⊢
    rcases eq_or_ne other s with rfl | hne
    · rw [ask_select] at hasked
      rw [hself, SockFlags.saved_save]
      have hsaved : past.2 other ev = true → (past.1.m_sock_flags other).saved ev = true :=
        saved_of_asked hpast
      revert hsaved hasked
      cases (past.1.m_sock_flags other).saved ev <;> cases past.2 other ev <;>
        cases remove.getLsbD ev.bit <;> cases add.getLsbD ev.bit <;> decide
    · rw [hother other hne] at hregistered ⊢
      rw [ask, Function.update_of_ne hne] at hasked
      exact hpast.saved other ev hregistered hasked
  case exact => exact hexact

theorem steady_skip (hpast : Steady past)
    (hexact : Exact (past.1, ask past.2 past.1 (.select s remove add))) :
    Steady (past.1, ask past.2 past.1 (.select s remove add)) := by
  refine ⟨hpast.isValid, hpast.shutdown, hpast.sockets, hpast.epfd, hpast.m_selects, ?_, hexact⟩
  intro other ev hregistered hasked
  apply hpast.saved other ev hregistered
  rw [← (hpast.exact other ev).1, (hexact other ev).1]
  exact hasked

theorem steady_selected (hpast : Steady past) (hclean : Clean past (.select s remove add)) :
    Steady (selected past s remove add) := by
  have hexact := (exact_select_iff hpast).mpr hclean
  by_cases hreaches : (past.1.m_sock_flags s).Reaches remove add
  · rw [selected, if_pos hreaches] at hexact ⊢
    exact steady_pass hpast hexact
  · rw [selected, if_neg hreaches] at hexact ⊢
    exact steady_skip hpast hexact

/-- A socket that is removed is watched for nothing by either selector. -/
theorem steady_removed (hpast : Steady past) :
    Steady ((⟨Function.update past.1.m_sock_flags s
        { past.1.m_sock_flags s with selected := false },
      past.1.m_sel.1.remove s, past.1.m_sel.2.remove s⟩ :
        SoxEnv Sock (SelectorEpoll Sock × SelectorLazy Sock)),
      Function.update past.2 s fun _ => false) := by
  constructor
  case isValid =>
    intro other
    rcases eq_or_ne other s with rfl | hne
    · simpa using hpast.isValid other
    · simpa [hne] using hpast.isValid other
  case shutdown =>
    intro other
    rcases eq_or_ne other s with rfl | hne
    · simpa using hpast.shutdown other
    · simpa [hne] using hpast.shutdown other
  case sockets =>
    intro other
    rcases eq_or_ne other s with rfl | hne
    · simp [SelectorEpoll.remove]
    · simpa [SelectorEpoll.remove, hne] using hpast.sockets other
  case epfd =>
    intro other hnot
    rcases eq_or_ne other s with rfl | hne
    · simp [SelectorEpoll.remove]
    · simp only [Function.update_of_ne hne] at hnot
      simpa [SelectorEpoll.remove, hne] using hpast.epfd other hnot
  case m_selects =>
    intro other hnot
    rcases eq_or_ne other s with rfl | hne
    · simp [SelectorLazy.remove]
    · simp only [Function.update_of_ne hne] at hnot
      simpa [SelectorLazy.remove, hne] using hpast.m_selects other hnot
  case saved =>
    intro other ev hregistered hasked
    rcases eq_or_ne other s with rfl | hne
    · simp at hasked
    · simp only [Function.update_of_ne hne] at hregistered hasked ⊢
      exact hpast.saved other ev hregistered hasked
  case exact =>
    intro other ev
    rcases eq_or_ne other s with rfl | hne
    · simp [SelectorEpoll.watches, SelectorEpoll.remove, SelectorLazy.watches,
        SelectorLazy.remove]
    · simpa [SelectorEpoll.watches, SelectorEpoll.remove, SelectorLazy.watches,
        SelectorLazy.remove, hne] using hpast.exact other ev

theorem steady_remove (hpast : Steady past)
    (hnext : askingStep past (.remove s) = some next) : Steady next := by
  dsimp only [askingStep, recorded, step] at hnext
  rw [Option.map_some, Option.some.injEq] at hnext
  subst hnext
  dsimp only [SoxEnv.remove, ask]
  split
  next hselected => exact steady_removed hpast
  next hselected =>
    have hsame : Function.update past.2 s (fun _ => false) = past.2 := by
      rw [Function.update_eq_self_iff]
      funext ev
      exact (hpast.unasked (by simpa using hselected)).symm
    rw [hsame]
    exact hpast

theorem steady_step (hpast : Steady past) {call : SocketCall Sock} (hclean : Clean past call)
    (hnext : askingStep past call = some next) : Steady next := by
  cases call with
  | select s remove add =>
      rw [askingStep_select hpast, Option.some.injEq] at hnext
      exact hnext ▸ steady_selected hpast hclean
  | remove s => exact steady_remove hpast hnext

/-- In a run both selectors watch, after every call, exactly what each socket has asked for since
its last `remove`, when and only when the calls of the run are clean. -/
theorem exact_iff_clean (calls : List (SocketCall Sock)) :
    Throughout askingStep Exact start calls ↔ Along askingStep Clean start calls := by
  have hstep : ∀ (past : Asking Sock) call next, Steady past → Clean past call →
      askingStep past call = some next → Steady next :=
    fun past call next hpast hclean hnext => steady_step hpast hclean hnext
  refine throughout_iff_along Steady hstep (fun past hpast => hpast.exact) ?_ steady_start calls
  intro past call hpast
  cases call with
  | select s remove add =>
      rw [askingStep_select hpast, ← exact_select_iff hpast]
      simp
  | remove s =>
      exact iff_of_true (fun next hnext => (steady_remove hpast hnext).exact) trivial

/-- A socket that is removed and asks again for reading is not watched any more. -/
theorem removed_not_watched_again :
    ∃ final, run askingStep (start : Asking Nat)
        [.select 7 0 1, .remove 7, .select 7 0 1] = some final ∧
      final.2 7 .read = true ∧ final.1.m_sel.1.watches 7 .read = false ∧
      final.1.m_sel.2.watches 7 .read = false := by
  refine ⟨_, rfl, ?_, ?_, ?_⟩ <;> decide

end SoxEnv

end ServiceFrame
