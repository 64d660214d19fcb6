import ServiceFrame.Core.MultiConnManager
import ServiceFrame.ServerLib.BRouteWriter

/-! # The users of a link server

`LinkOnline` keeps, for each user who has logged in, the id of the connection he did it on.
`LinkAppContext` forwards what comes in on a connection in the name of the user whose entry
has its id, and hands what is for a user to the connection that his entry names. The
connections are those of `MultiConnManagerImp`.

What a login writes to Redis nothing here reads.
-/

namespace ServiceFrame

open Foundation

def RES_ENONEXIST : UInt16 := 404

def RES_EVOLATILE : UInt16 := 407

structure ImLinkUser where
  time : Nat
  cid : Nat
  serialId : Nat
  status : Int
deriving DecidableEq

/-- `LinkOnline`, with the connection manager that it uses. -/
structure LinkServer where
  logineds : OrderedMap UInt32 ImLinkUser
  connManager : MultiConnManager

/-- A message for a user. -/
structure PUidTarget where
  base : RouterBase
  uid : UInt32

/-- What dispatching a packet does: its answer, and the `send` calls that it makes. -/
structure UidDispatch where
  res : UInt16
  link : LinkServer
  sends : List (Address × Sender)

namespace LinkServer

def new (objects : Address → Option IConn) : LinkServer := ⟨.empty, .new objects⟩

def addIntoLogineds (link : LinkServer) (uid : UInt32) (serialid cid : Nat) (status : Int)
    (now : Nat) : LinkServer :=
  { link with logineds := link.logineds.set uid ⟨now, cid, serialid, status⟩ }

def onLoginIM (link : LinkServer) (uid : UInt32) (status : Int) (conn : Address) (now : Nat) :
    Option LinkServer := do
  let object ← link.connManager.objects conn
  some (link.addIntoLogineds uid object.serialId object.id status now)

def dispatchByUid (throws : Bool) (link : LinkServer) (uid : UInt32) (s : Sender) :
    Option UidDispatch :=
  match link.logineds.find uid with
  | some us => do
      let connManager ← link.connManager.dispatchById throws us.cid
      let conn := link.connManager.getConnectById us.cid
      some
        { res := if conn.isSome && !throws then RES_SUCCESS else RES_EVOLATILE
          link := { link with connManager := connManager }
          sends := conn.toList.map fun conn => (conn, s) }
  | none => some ⟨RES_ENONEXIST, link, []⟩

/-- The first entry with the id, in the order of the uids. -/
def getUidByCid (link : LinkServer) (cid : Nat) : UInt32 :=
  ((link.logineds.entries.find? fun entry => cid = entry.2.cid).map Prod.fst).getD 0

/-- `routeU`; packing the message may throw. -/
def routeU (mallocs : Nat → Malloc) (throws : Bool) (link : LinkServer) (ut : PUidTarget) :
    Option UidDispatch := do
  let s ← (Sender.new mallocs 0).toOption
  let s ← ({ s with uri := ut.base.ruri.toInt32, resCode := ut.base.resCode }.marshallBytes
    ut.base.load).toOption
  link.dispatchByUid throws ut.uid s

/-- `DefaultDispatch`: the message that goes to a random server of the name. The names of the
services are in `mm`, and `key` is the request's. -/
def defaultDispatch (mm : UInt32 → Option (List UInt8)) (serverId : UInt32) (link : LinkServer)
    (key : List UInt8) (request : Request) (conn : IConn) : Option PRouter :=
  let uid := link.getUidByCid conn.id
  if key = [] then
    let svid := request.uri &&& 0xff
    (mm svid).map fun name =>
      { base :=
          { ttl := 1, fromName := DomainName.uidFrom uid serverId, ruri := request.uri,
            resCode := request.resCode, load := request.up }
        toName := name }
  else none

inductive Event where
  /-- Connections are created, close, fail, are deleted. -/
  | connection (event : MultiConnManager.Event)
  | onLoginIM (conn : Address) (uid : UInt32) (status : Int) (now : Nat)
  | dispatchByUid (throws : Bool) (uid : UInt32) (s : Sender)

/-- A login comes in on a connection of the map. -/
def step (link : LinkServer) : Event → Option LinkServer
  | .connection event =>
      (link.connManager.step event).map fun connManager => { link with connManager := connManager }
  | .onLoginIM conn uid status now =>
      if link.connManager.Mapped conn then link.onLoginIM uid status conn now else none
  | .dispatchByUid throws uid s => (link.dispatchByUid throws uid s).map UidDispatch.link

/-! ## Who is logged in -/

structure Login where
  uid : UInt32
  conn : Address
  cid : Nat
deriving DecidableEq

/-- The logins so far, the latest first. -/
def noteLogin (logins : List Login) (link : LinkServer) : Event → List Login
  | .onLoginIM conn uid _ _ =>
      match link.connManager.objects conn with
      | some object => ⟨uid, conn, object.id⟩ :: logins
      | none => logins
  | _ => logins

abbrev Noted := LinkServer × List Login

def notedStep : Noted → Event → Option Noted := recorded noteLogin step

/-- A user's latest login. -/
def latest (logins : List Login) (uid : UInt32) : Option Login :=
  logins.find? fun login => login.uid = uid

/-- The user of a connection: of its latest login whose user has not logged in elsewhere
since. -/
def userOf (logins : List Login) (cid : Nat) : Option UInt32 :=
  (logins.find? fun login =>
    login.cid = cid ∧ (latest logins login.uid).map Login.cid = some cid).map Login.uid

/-- A connection speaks as its user, and a packet for a user goes at most once, to the connection
of his latest login, while he is its user. -/
structure Good (past : Noted) : Prop where
  getUidByCid : ∀ cid, past.1.getUidByCid cid = (userOf past.2 cid).getD 0
  dispatchByUid : ∀ throws uid s dispatched, past.1.dispatchByUid throws uid s = some dispatched →
    dispatched.sends.length ≤ 1 ∧ ∀ send ∈ dispatched.sends, send.2 = s ∧
      ∃ login ∈ latest past.2 uid, send.1 = login.conn ∧
        (∃ object, past.1.connManager.objects send.1 = some object ∧ object.id = login.cid) ∧
        userOf past.2 login.cid = some uid

/-- The ids do not start again. -/
def Unwrapped (past : Noted) : Event → Prop
  | .connection (.createConn _ _) => past.1.connManager.cid + 1 < 2 ^ 32
  | _ => True

instance decidableUnwrapped (past : Noted) : (event : Event) → Decidable (Unwrapped past event)
  | .connection (.createConn _ _) => inferInstanceAs (Decidable (_ < _))
  | .connection (.eraseConnect _) => isTrue trivial
  | .connection (.eraseConnectById _) => isTrue trivial
  | .connection (.dispatchById _ _) => isTrue trivial
  | .connection (.dispatchByIds _ _ _ _) => isTrue trivial
  | .connection (.delayDelConn _) => isTrue trivial
  | .connection .handle => isTrue trivial
  | .connection (.setEnable _ _) => isTrue trivial
  | .connection (.outside _ _) => isTrue trivial
  | .onLoginIM _ _ _ _ => isTrue trivial
  | .dispatchByUid _ _ _ => isTrue trivial

/-- No user logs in on a connection that the entry of another user names. -/
def Sole (past : Noted) : Event → Prop
  | .onLoginIM conn uid _ _ =>
      ∀ slot ∈ past.1.connManager.connects.entries, slot.2 = some conn →
        ∀ entry ∈ past.1.logineds.entries, entry.2.cid = slot.1 → entry.1 = uid
  | _ => True

instance decidableSole (past : Noted) : (event : Event) → Decidable (Sole past event)
  | .onLoginIM conn uid _ _ =>
      inferInstanceAs (Decidable (∀ slot ∈ past.1.connManager.connects.entries, slot.2 = some conn →
        ∀ entry ∈ past.1.logineds.entries, entry.2.cid = slot.1 → entry.1 = uid))
  | .connection _ => isTrue trivial
  | .dispatchByUid _ _ _ => isTrue trivial

/-! ## Logins -/

variable {logins : List Login} {login : Login} {uid other : UInt32} {cid : Nat} {past next : Noted}

theorem latest_cons_self (hlogin : login.uid = uid) :
    latest (login :: logins) uid = some login := by
  rw [latest, List.find?_cons_of_pos (by simpa using hlogin)]

theorem latest_cons_of_ne (hlogin : login.uid ≠ uid) :
    latest (login :: logins) uid = latest logins uid := by
  rw [latest, List.find?_cons_of_neg (by simpa using hlogin), latest]

theorem mem_of_latest (hlogin : latest logins uid = some login) :
    login ∈ logins ∧ login.uid = uid :=
  ⟨List.mem_of_find?_eq_some hlogin, by simpa using List.find?_some hlogin⟩

/-- Whoever logs in on a connection is its user. -/
theorem userOf_cons_self (login : Login) (logins : List Login) :
    userOf (login :: logins) login.cid = some login.uid := by
  rw [userOf, List.find?_cons_of_pos (by simp [latest_cons_self])]
  rfl

/-- The latest logins of different users are on different connections. -/
def Apart (logins : List Login) : Prop :=
  ∀ uid other cid, (latest logins uid).map Login.cid = some cid →
    (latest logins other).map Login.cid = some cid → uid = other

theorem userOf_eq_some (hapart : Apart logins) :
    userOf logins cid = some uid ↔ (latest logins uid).map Login.cid = some cid := by
  rw [userOf, Option.map_eq_some_iff]
  constructor
  · rintro ⟨login, hlogin, rfl⟩
    have hfound := List.find?_some hlogin
    simp only [decide_eq_true_eq] at hfound
    exact hfound.2
  · intro hcid
    obtain ⟨last, hlast, hid⟩ := Option.map_eq_some_iff.mp hcid
    obtain ⟨hmem, huid⟩ := mem_of_latest hlast
    obtain ⟨login, hlogin⟩ := Option.isSome_iff_exists.mp (List.find?_isSome (p := fun login =>
      login.cid = cid ∧ (latest logins login.uid).map Login.cid = some cid).mpr
        ⟨last, hmem, by simpa [huid, hid] using hcid⟩)
    have hfound := List.find?_some hlogin
    simp only [decide_eq_true_eq] at hfound
    exact ⟨login, hlogin, hapart login.uid uid cid hfound.2 hcid⟩

structure Inv (past : Noted) : Prop where
  table : past.1.connManager.Table
  /-- No id is given out before its turn. -/
  given : ∀ id conn, past.1.connManager.connects.find id = some (some conn) →
    id ≤ past.1.connManager.cid
  entries : ∀ uid, (past.1.logineds.find uid).map ImLinkUser.cid =
    (latest past.2 uid).map Login.cid
  /-- The connection of a login has its id for good. -/
  conns : ∀ login ∈ past.2, login.cid ≤ past.1.connManager.cid ∧
    ∀ conn, past.1.connManager.connects.find login.cid = some (some conn) → conn = login.conn
  apart : Apart past.2

theorem inv_start (objects : Address → Option IConn) : Inv (new objects, []) where
  table := MultiConnManager.new_table objects
  given _ _ hfind := by cases hfind
  entries _ := rfl
  conns _ hlogin := by cases hlogin
  apart _ _ _ hcid := by cases hcid

/-- The reverse lookup finds the user. -/
theorem Inv.getUidByCid (hinv : Inv past) (cid : Nat) :
    past.1.getUidByCid cid = (userOf past.2 cid).getD 0 := by
  rw [LinkServer.getUidByCid]
  congr 1
  refine Option.ext fun uid => ?_
  rw [userOf_eq_some hinv.apart, ← hinv.entries, Option.map_eq_some_iff]
  constructor
  · rintro ⟨entry, hentry, rfl⟩
    have hid : cid = entry.2.cid := by simpa using List.find?_some hentry
    rw [OrderedMap.mem_entries.mp (List.mem_of_find?_eq_some hentry), hid]
    rfl
  · intro hcid
    obtain ⟨us, hus, hid⟩ := Option.map_eq_some_iff.mp hcid
    obtain ⟨entry, hentry⟩ := Option.isSome_iff_exists.mp (List.find?_isSome (p := fun entry =>
      cid = entry.2.cid).mpr ⟨(uid, us), OrderedMap.mem_entries.mpr hus, by simp [hid]⟩)
    have hfound : cid = entry.2.cid := by simpa using List.find?_some hentry
    refine ⟨entry, hentry, hinv.apart entry.1 uid cid ?_ ?_⟩
    · rw [← hinv.entries, OrderedMap.mem_entries.mp (List.mem_of_find?_eq_some hentry), hfound]
      rfl
    · rw [← hinv.entries, hcid]

/-- What `dispatchByUid` calls. -/
theorem dispatchByUid_sends {link : LinkServer} {throws : Bool} {s : Sender}
    {dispatched : UidDispatch} (hstep : link.dispatchByUid throws uid s = some dispatched) :
    dispatched.sends.length ≤ 1 ∧ ∀ send ∈ dispatched.sends, send.2 = s ∧
      ∃ us, link.logineds.find uid = some us ∧
        link.connManager.connects.find us.cid = some (some send.1) := by
  unfold LinkServer.dispatchByUid at hstep
  split at hstep
  next us hus =>
    obtain ⟨connManager, -, hsome⟩ := Option.bind_eq_some_iff.mp hstep
    cases hsome
    dsimp only
    constructor
    · rw [List.length_map]
      cases link.connManager.getConnectById us.cid <;> simp
    · intro send hsend
      obtain ⟨conn, hconn, rfl⟩ := List.mem_map.mp hsend
      exact ⟨rfl, us, hus, Option.join_eq_some_iff.mp (Option.mem_toList.mp hconn)⟩
  next =>
    cases hstep
    exact ⟨Nat.zero_le 1, fun _ hsend => by cases hsend⟩

theorem Inv.good (hinv : Inv past) : Good past where
  getUidByCid := hinv.getUidByCid
  dispatchByUid throws uid s dispatched hstep := by
    obtain ⟨hlength, hsends⟩ := dispatchByUid_sends hstep
    refine ⟨hlength, fun send hsend => ?_⟩
    obtain ⟨hs, us, hus, hfind⟩ := hsends send hsend
    have hcid := hinv.entries uid
    rw [hus, Option.map_some] at hcid
    obtain ⟨login, hlogin, hid⟩ := Option.map_eq_some_iff.mp hcid.symm
    rw [← hid] at hfind
    refine ⟨hs, login, hlogin, (hinv.conns login (mem_of_latest hlogin).1).2 _ hfind,
      hinv.table _ _ hfind, ?_⟩
    rw [userOf_eq_some hinv.apart, hlogin]
    rfl

/-- What comes in on a connection goes on in the name of its user. -/
theorem Good.forwards_as_user (hgood : Good past) {mm : UInt32 → Option (List UInt8)}
    {serverId : UInt32} {key : List UInt8} {request : Request} {conn : IConn} {router : PRouter}
    (hforward : past.1.defaultDispatch mm serverId key request conn = some router) :
    router.base.fromName =
      DomainName.uidFrom ((userOf past.2 conn.id).getD 0) serverId := by
  unfold LinkServer.defaultDispatch at hforward
  split at hforward
  next =>
    obtain ⟨name, -, rfl⟩ := Option.map_eq_some_iff.mp hforward
    dsimp only
    rw [hgood.getUidByCid]
  next => cases hforward

/-! ## One event -/

/-- What happens to connections, except that one is created. -/
theorem Inv.within (hinv : Inv past) {connManager : MultiConnManager}
    (htable : connManager.Table) (hwithin : past.1.connManager.Within connManager) :
    Inv ({ past.1 with connManager := connManager }, past.2) where
  table := htable
  given id conn hfind := (hinv.given id conn (hwithin.find id conn hfind)).trans_eq hwithin.cid.symm
  entries := hinv.entries
  conns login hlogin :=
    ⟨(hinv.conns login hlogin).1.trans_eq hwithin.cid.symm, fun conn hfind =>
      (hinv.conns login hlogin).2 conn (hwithin.find _ conn hfind)⟩
  apart := hinv.apart

theorem Inv.createConn (hinv : Inv past) {conn : Address} {object : IConn}
    (hroom : past.1.connManager.cid + 1 < 2 ^ 32) {connManager : MultiConnManager}
    (hstep : past.1.connManager.createConn conn object = some connManager) :
    Inv ({ past.1 with connManager := connManager }, past.2) := by
  obtain ⟨hcid, hfind⟩ := MultiConnManager.createConn_spec hstep
  rw [Nat.mod_eq_of_lt hroom] at hcid
  refine ⟨hinv.table.createConn hstep, fun id conn' hid => ?_, hinv.entries,
    fun login hlogin => ⟨?_, fun conn' hid => ?_⟩, hinv.apart⟩
  · obtain ⟨rfl, -⟩ | ⟨-, hold⟩ := hfind id conn' hid
    · exact le_rfl
    · exact (hinv.given id conn' hold).trans (by dsimp only; omega)
  · exact (hinv.conns login hlogin).1.trans (by dsimp only; omega)
  · obtain ⟨hnew, -⟩ | ⟨-, hold⟩ := hfind login.cid conn' hid
    · have hle := (hinv.conns login hlogin).1
      omega
    · exact (hinv.conns login hlogin).2 conn' hold

/-- A login on a connection of the map notes the id that it has there. -/
theorem login_eq (htable : past.1.connManager.Table) {conn : Address}
    (hfind : past.1.connManager.connects.find cid = some (some conn)) (uid : UInt32) (status : Int)
    (now : Nat) :
    ∃ us : ImLinkUser, us.cid = cid ∧
      notedStep past (.onLoginIM conn uid status now) =
        some ({ past.1 with logineds := past.1.logineds.set uid us },
          ⟨uid, conn, us.cid⟩ :: past.2) := by
  obtain ⟨object, hobject, hid⟩ := htable cid conn hfind
  refine ⟨⟨now, object.id, object.serialId, status⟩, hid, ?_⟩
  dsimp only [notedStep, recorded, step, noteLogin]
  rw [if_pos (MultiConnManager.mapped_iff.mpr ⟨cid, hfind⟩), onLoginIM, hobject]
  rfl

/-- A login is made on a connection of the map. -/
theorem login_spec (htable : past.1.connManager.Table) {conn : Address} {status : Int} {now : Nat}
    (hstep : notedStep past (.onLoginIM conn uid status now) = some next) :
    ∃ us : ImLinkUser, past.1.connManager.connects.find us.cid = some (some conn) ∧
      next = ({ past.1 with logineds := past.1.logineds.set uid us },
        ⟨uid, conn, us.cid⟩ :: past.2) := by
  have hmapped : past.1.connManager.Mapped conn := by
    by_contra hnot
    dsimp only [notedStep, recorded, step] at hstep
    rw [if_neg hnot] at hstep
    cases hstep
  obtain ⟨id, hfind⟩ := MultiConnManager.mapped_iff.mp hmapped
  obtain ⟨us, rfl, heq⟩ := login_eq htable hfind uid status now
  exact ⟨us, hfind, Option.some.inj (hstep.symm.trans heq)⟩

theorem Inv.onLoginIM (hinv : Inv past) {conn : Address} {us : ImLinkUser}
    (hfind : past.1.connManager.connects.find us.cid = some (some conn))
    (hsole : ∀ other, (latest past.2 other).map Login.cid = some us.cid → other = uid) :
    Inv ({ past.1 with logineds := past.1.logineds.set uid us },
      ⟨uid, conn, us.cid⟩ :: past.2) where
  table := hinv.table
  given := hinv.given
  entries other := by
    by_cases hother : other = uid
    · rw [hother, OrderedMap.find_set_self, latest_cons_self rfl]
      rfl
    · rw [OrderedMap.find_set_of_ne _ hother, latest_cons_of_ne (Ne.symm hother)]
      exact hinv.entries other
  conns login hlogin := by
    obtain rfl | hold := List.mem_cons.mp hlogin
    · refine ⟨hinv.given _ conn hfind, fun conn' hfind' => ?_⟩
      simpa using hfind'.symm.trans hfind
    · exact hinv.conns login hold
  apart := by
    have hlatest : ∀ other cid,
        (latest (⟨uid, conn, us.cid⟩ :: past.2) other).map Login.cid = some cid →
        (other = uid ∧ cid = us.cid) ∨
          other ≠ uid ∧ (latest past.2 other).map Login.cid = some cid := by
      intro other cid hcid
      by_cases hother : other = uid
      · rw [latest_cons_self hother.symm] at hcid
        exact .inl ⟨hother, (Option.some.inj hcid).symm⟩
      · rw [latest_cons_of_ne (Ne.symm hother)] at hcid
        exact .inr ⟨hother, hcid⟩
    intro first second cid hfirst hsecond
    obtain ⟨rfl, rfl⟩ | ⟨hne, hold⟩ := hlatest first cid hfirst
    · obtain ⟨rfl, -⟩ | ⟨-, hold⟩ := hlatest second _ hsecond
      · rfl
      · exact (hsole second hold).symm
    · obtain ⟨rfl, rfl⟩ | ⟨-, hold'⟩ := hlatest second cid hsecond
      · exact absurd (hsole first hold) hne
      · exact hinv.apart first second cid hold hold'

/-- The condition of a login, in terms of the logins before. -/
theorem sole_iff (hinv : Inv past) {conn : Address} {status : Int} {now : Nat}
    (hfind : past.1.connManager.connects.find cid = some (some conn)) :
    Sole past (.onLoginIM conn uid status now) ↔
      ∀ other, (latest past.2 other).map Login.cid = some cid → other = uid := by
  constructor
  · intro hsole other hcid
    rw [← hinv.entries] at hcid
    obtain ⟨us, hus, hid⟩ := Option.map_eq_some_iff.mp hcid
    exact hsole (cid, some conn) (OrderedMap.mem_entries.mpr hfind) rfl (other, us)
      (OrderedMap.mem_entries.mpr hus) hid
  · rintro hsole ⟨id, slot⟩ hslot hconn ⟨other, us⟩ hentry hid
    dsimp only at hconn hid ⊢
    subst hconn
    have hsame := hinv.table.key_eq (OrderedMap.mem_entries.mp hslot) hfind
    apply hsole other
    rw [← hinv.entries, OrderedMap.mem_entries.mp hentry, Option.map_some, hid, hsame]

theorem Inv.step (hinv : Inv past) {event : Event} (hroom : Unwrapped past event)
    (hsole : Sole past event) (hstep : notedStep past event = some next) : Inv next := by
  cases event with
  | connection event =>
      obtain ⟨link, hlink, rfl⟩ := Option.map_eq_some_iff.mp hstep
      obtain ⟨connManager, hmanager, rfl⟩ := Option.map_eq_some_iff.mp hlink
      obtain ⟨conn, object, rfl⟩ | hwithin := MultiConnManager.Within.of_step hmanager
      · exact hinv.createConn hroom hmanager
      · exact hinv.within (hinv.table.step hmanager) hwithin
  | onLoginIM conn uid status now =>
      obtain ⟨us, hfind, rfl⟩ := login_spec hinv.table hstep
      exact hinv.onLoginIM hfind ((sole_iff hinv hfind).mp hsole)
  | dispatchByUid throws uid s =>
      obtain ⟨link, hlink, rfl⟩ := Option.map_eq_some_iff.mp hstep
      obtain ⟨dispatched, hdispatched, rfl⟩ := Option.map_eq_some_iff.mp hlink
      unfold LinkServer.dispatchByUid at hdispatched
      split at hdispatched
      next us _ =>
        obtain ⟨connManager, hmanager, hsome⟩ := Option.bind_eq_some_iff.mp hdispatched
        cases hsome
        have hevent : past.1.connManager.step (.dispatchById throws us.cid) = some connManager :=
          hmanager
        exact hinv.within (hinv.table.step hevent) (.dispatchById hmanager)
      next =>
        cases hdispatched
        exact hinv

/-- After a login on a connection that another user's entry names, a packet for that one goes to
it. -/
theorem sole_of_good (hinv : Inv past) (event : Event)
    (hgood : ∀ next, notedStep past event = some next → Good next) : Sole past event := by
  cases event with
  | connection event => trivial
  | dispatchByUid throws uid s => trivial
  | onLoginIM conn uid status now =>
      rintro ⟨id, slot⟩ hslot hconn ⟨other, us⟩ hentry hid
      dsimp only at hconn hid ⊢
      subst hconn hid
      have hfind := OrderedMap.mem_entries.mp hslot
      have hus := OrderedMap.mem_entries.mp hentry
      by_contra hother
      obtain ⟨new, hnew, heq⟩ := login_eq hinv.table hfind uid status now
      obtain ⟨s, -, -⟩ := MultiConnManager.exists_packet
      have hdispatched : LinkServer.dispatchByUid false
          { past.1 with logineds := past.1.logineds.set uid new } other s =
            some ⟨RES_SUCCESS, { past.1 with logineds := past.1.logineds.set uid new },
              [(conn, s)]⟩ := by
        rw [LinkServer.dispatchByUid, OrderedMap.find_set_of_ne _ hother, hus]
        dsimp only [MultiConnManager.dispatchById, MultiConnManager.getConnectById]
        rw [hfind]
        rfl
      obtain ⟨-, hsends⟩ := (hgood _ heq).dispatchByUid false other s _ hdispatched
      obtain ⟨-, login, hlogin, -, -, huser⟩ := hsends (conn, s) (List.mem_singleton.mpr rfl)
      -- the other user's latest login is still that of his entry
      have hcid := hinv.entries other
      rw [latest_cons_of_ne (Ne.symm hother)] at hlogin
      rw [hus, hlogin] at hcid
      have hsame : login.cid = new.cid := (Option.some.inj hcid).symm.trans hnew.symm
      rw [hsame, userOf_cons_self ⟨uid, conn, new.cid⟩] at huser
      exact hother (Option.some.inj huser).symm

/-- In a run in which the ids do not start again, the packets of every connection are forwarded
in the name of its user, and every packet for a user goes only to the connection that he is the
user of, as long as, and only if, nobody logs in on a connection that another user's entry
names. -/
theorem good_iff_sole (objects : Address → Option IConn) {events : List Event}
    (hroom : Along notedStep Unwrapped (new objects, []) events) :
    Throughout notedStep Good (new objects, []) events ↔
      Along notedStep Sole (new objects, []) events := by
  have hstep : ∀ past event next, Inv past → Unwrapped past event → Sole past event →
      notedStep past event = some next → Inv next :=
    fun past event next hinv hroom hsole hnext => hinv.step hroom hsole hnext
  refine throughout_iff_along_within Inv hstep (fun past hinv => hinv.good)
    (fun past event hinv hroom => ?_) (inv_start objects) hroom
  exact ⟨sole_of_good hinv event,
    fun hsole next hnext => (hstep past event next hinv hroom hsole hnext).good⟩

/-- User 5 moves from one connection to another, and user 9 logs in on the first. -/
theorem good_iff_sole_moved :
    Throughout notedStep Good (new (fun _ => none), [])
      [.connection (.createConn 100 ⟨7, 0, 0, true⟩), .connection (.createConn 101 ⟨8, 0, 0, true⟩),
        .onLoginIM 100 5 0 0, .onLoginIM 101 5 0 0, .onLoginIM 100 9 0 0] :=
  (good_iff_sole (fun _ => none) (by decide +kernel)).mpr (by decide +kernel)

/-- User 3 logs in on a connection, and then user 5: what comes in on it is forwarded in the name
of 3, and what is for 3 goes to it. -/
theorem two_users_of_a_connection :
    ∃ final : Noted, run notedStep (new (fun _ => none), [])
        [.connection (.createConn 100 ⟨7, 0, 0, true⟩), .onLoginIM 100 3 0 0,
          .onLoginIM 100 5 0 0] = some final ∧
      userOf final.2 1 = some 5 ∧ final.1.getUidByCid 1 = 3 ∧
      ∀ s, (final.1.dispatchByUid false 3 s).map UidDispatch.sends = some [(100, s)] := by
  refine ⟨_, rfl, ?_, ?_, ?_⟩
  · rfl
  · rfl
  · intro s
    rfl

end LinkServer

end ServiceFrame
