import ServiceFrame.Core.MultiConnManagerVec
import ServiceFrame.Core.Sender
import ServiceFrame.Foundation.OrderedMap

/-! # The connection map

`MultiConnManagerImp` of `core/corelib`, on `LazyDelConnManager` and `ConnManagerLinkImp`:
connections in a map, by ids that count up. `connects[id]` puts a `NULL` there when the map
has no such key.

Using a `NULL` pointer, or one to an object that was deleted, has no step.
-/

namespace ServiceFrame

open Foundation

structure MultiConnManager where
  cid : Nat
  /-- The pointers; none is `NULL`. -/
  connects : OrderedMap Nat (Option Address)
  toDelete : SortedSet natLess
  /-- The connections that exist, in the map or not. -/
  objects : Address → Option IConn

/-- A call of `sendBin` that an enabled connection gets. -/
structure SendBin where
  conn : Address
  data : List UInt8
  uri : Int32
deriving DecidableEq

namespace MultiConnManager

open MultiConnManagerVec (NONEEXP_CID)

def new (objects : Address → Option IConn) : MultiConnManager where
  cid := 0
  connects := .empty
  toDelete := .empty
  objects := objects

/-- `connects.size()`. -/
def size (manager : MultiConnManager) : Nat := manager.connects.entries.length

/-- `connects.erase(id)`, and `delete conn` if an entry went. -/
def release (manager : MultiConnManager) (id : Nat) (conn : Address) : MultiConnManager :=
  if (manager.connects.find id).isSome then
    { manager with
      connects := manager.connects.erase id
      objects := Function.update manager.objects conn none }
  else manager

def eraseConnect (manager : MultiConnManager) : Option Address → Option MultiConnManager
  | none => none
  | some conn => do
      let object ← manager.objects conn
      some (manager.release object.id conn)

def eraseConnectById (manager : MultiConnManager) (id : Nat) : Option MultiConnManager :=
  match manager.connects.find id with
  | some conn => manager.eraseConnect conn
  | none => some manager

def getConnectById (manager : MultiConnManager) (id : Nat) : Option Address :=
  (manager.connects.find id).join

def setEnable (manager : MultiConnManager) (conn : Address) (enable : Bool) :
    Option MultiConnManager := do
  let object ← manager.objects conn
  some { manager with
    objects := Function.update manager.objects conn (some { object with bEnable := enable }) }

/-- `setEnable(false)` and `toDelete.insert(id)`. -/
def disable (manager : MultiConnManager) (id : Nat) (conn : Address) :
    Option MultiConnManager := do
  let disabled ← manager.setEnable conn false
  some { disabled with toDelete := disabled.toDelete.insert id }

/-- `sendBin` on a connection of the map: one that is not enabled sends nothing, and any other
may throw. -/
def sendBin (throws : Nat → Bool) (packet : Sender) (id : Nat) (conn : Address)
    (manager : MultiConnManager) : Option (MultiConnManager × List SendBin) := do
  let object ← manager.objects conn
  if object.bEnable then
    let call : SendBin := ⟨conn, packet.frame, packet.uri⟩
    if throws id then
      let disabled ← manager.disable id conn
      some (disabled, [call])
    else some (manager, [call])
  else some (manager, [])

/-- One turn of the loops of `dispatchByIds`, with the calls made so far. -/
def sendById (throws : Nat → Bool) (packet : Sender)
    (state : MultiConnManager × List SendBin) (id : Nat) :
    Option (MultiConnManager × List SendBin) :=
  if id < state.1.size then
    -- `connects[*it]` inserts
    let manager := { state.1 with connects := state.1.connects.insert id none }
    match manager.getConnectById id with
    | some conn => do
        let (next, calls) ← manager.sendBin throws packet id conn
        some (next, state.2 ++ calls)
    | none => some (manager, state.2)
  else some state

/-- `dispatchByIds`, with the `sendBin` calls it makes; ending the packet may throw. -/
def dispatchByIds (throws : Nat → Bool) (manager : MultiConnManager) (resp : Sender)
    (ids : SortedSet natLess) (exp : Nat) : Option (MultiConnManager × List SendBin) := do
  let packet ← resp.endPack.toOption
  if exp ≠ NONEEXP_CID then
    ids.elems.foldlM (fun state id =>
      if exp ≠ id then sendById throws packet state id else some state) (manager, [])
  else ids.elems.foldlM (sendById throws packet) (manager, [])

def dispatchById (throws : Bool) (manager : MultiConnManager) (cid : Nat) :
    Option MultiConnManager :=
  match manager.connects.find cid with
  | some none => none
  | some (some conn) => if throws then manager.disable cid conn else some manager
  | none => some manager

def onConnCreate (manager : MultiConnManager) (conn : Address) : Option MultiConnManager := do
  let object ← manager.objects conn
  let cid := (manager.cid + 1) % 2 ^ 32
  some { manager with
    cid := cid
    connects := manager.connects.set cid (some conn)
    objects := Function.update manager.objects conn
      (some { object with id := cid, serialId := cid }) }

/-- `creatConnect` and `createConnect`: a new object, whose id is not set yet. -/
def createConn (manager : MultiConnManager) (conn : Address) (object : IConn) :
    Option MultiConnManager :=
  if (manager.objects conn).isSome then none
  else onConnCreate { manager with
    objects := Function.update manager.objects conn (some object) } conn

def delayDelConn (manager : MultiConnManager) : Option Address → Option MultiConnManager
  | none => some manager
  | some conn => do
      let object ← manager.objects conn
      manager.disable object.id conn

/-- One turn of the loop of `LazyDelConnManager::handle`. -/
def lazyDelete (manager : MultiConnManager) (id : Nat) : Option MultiConnManager :=
  match manager.getConnectById id with
  | none => some manager
  | some conn => do
      let object ← manager.objects conn
      if object.bEnable then some manager else manager.eraseConnect (some conn)

def handle (manager : MultiConnManager) : Option MultiConnManager := do
  let deleted ← manager.toDelete.elems.foldlM lazyDelete manager
  some { deleted with toDelete := .empty }

inductive Event where
  | createConn (conn : Address) (object : IConn)
  /-- `eraseConnect` itself, and from `onClose`, `onInitiativeClose`, `onError`, `onTimeout`. -/
  | eraseConnect (conn : Option Address)
  | eraseConnectById (id : Nat)
  | dispatchById (throws : Bool) (cid : Nat)
  | dispatchByIds (throws : Nat → Bool) (resp : Sender) (ids : SortedSet natLess) (exp : Nat)
  | delayDelConn (conn : Option Address)
  | handle
  | setEnable (conn : Address) (enable : Bool)
  /-- Connections that are not in the map come, change and go. -/
  | outside (conn : Address) (object : Option IConn)

/-- The connection is in the map. -/
def Mapped (manager : MultiConnManager) (conn : Address) : Prop :=
  ∃ entry ∈ manager.connects.entries, entry.2 = some conn

instance (manager : MultiConnManager) (conn : Address) : Decidable (manager.Mapped conn) := by
  unfold Mapped
  infer_instance

def step (manager : MultiConnManager) : Event → Option MultiConnManager
  | .createConn conn object => manager.createConn conn object
  | .eraseConnect conn => manager.eraseConnect conn
  | .eraseConnectById id => manager.eraseConnectById id
  | .dispatchById throws cid => manager.dispatchById throws cid
  | .dispatchByIds throws resp ids exp => (manager.dispatchByIds throws resp ids exp).map Prod.fst
  | .delayDelConn conn => manager.delayDelConn conn
  | .handle => manager.handle
  | .setEnable conn enable => manager.setEnable conn enable
  | .outside conn object =>
      if manager.Mapped conn then none
      else some { manager with objects := Function.update manager.objects conn object }

/-! ## The invariant -/

variable {manager next : MultiConnManager} {id other : Nat} {conn : Address} {object : IConn}

/-- Each connection in the map exists, and has its key as id. -/
def Table (manager : MultiConnManager) : Prop :=
  ∀ id conn, manager.connects.find id = some (some conn) →
    ∃ object, manager.objects conn = some object ∧ object.id = id

theorem mapped_iff : manager.Mapped conn ↔ ∃ id, manager.connects.find id = some (some conn) := by
  constructor
  · rintro ⟨⟨id, slot⟩, hmem, hslot⟩
    cases hslot
    exact ⟨id, OrderedMap.mem_entries.mp hmem⟩
  · rintro ⟨id, hfind⟩
    exact ⟨(id, some conn), OrderedMap.mem_entries.mpr hfind, rfl⟩

/-- A `NULL` put into the map is no connection. -/
theorem find_of_insert {key : Nat}
    (hfind : (manager.connects.insert key none).find id = some (some conn)) :
    manager.connects.find id = some (some conn) := by
  rw [OrderedMap.find_insert, Function.update_apply] at hfind
  split at hfind
  next hsame =>
    subst hsame
    cases hold : manager.connects.find id with
    | none =>
        rw [hold] at hfind
        cases hfind
    | some slot =>
        rw [hold] at hfind
        exact hfind
  next => exact hfind

theorem new_table (objects : Address → Option IConn) : Table (new objects) := by
  intro id conn hfind
  cases hfind

namespace Table

/-- A connection has one key. -/
theorem key_eq (htable : Table manager) (hfind : manager.connects.find id = some (some conn))
    (hother : manager.connects.find other = some (some conn)) : id = other := by
  obtain ⟨object, hobject, hid⟩ := htable id conn hfind
  obtain ⟨object', hobject', hid'⟩ := htable other conn hother
  rw [hobject] at hobject'
  cases hobject'
  exact hid.symm.trans hid'

/-- The map stays in order when it has no other connections, and theirs keep their ids. -/
theorem reobject (htable : Table manager)
    (hconnects : ∀ id conn, next.connects.find id = some (some conn) →
      manager.connects.find id = some (some conn))
    (hobjects : ∀ id conn object, next.connects.find id = some (some conn) →
      manager.objects conn = some object →
        ∃ object', next.objects conn = some object' ∧ object'.id = object.id) : Table next := by
  intro id conn hfind
  obtain ⟨object, hobject, hid⟩ := htable id conn (hconnects id conn hfind)
  obtain ⟨object', hobject', hid'⟩ := hobjects id conn object hfind hobject
  exact ⟨object', hobject', hid'.trans hid⟩

theorem setEnable (htable : Table manager) {enable : Bool}
    (hstep : manager.setEnable conn enable = some next) : Table next := by
  obtain ⟨object, hobject, hnext⟩ := Option.bind_eq_some_iff.mp hstep
  cases hnext
  refine htable.reobject (fun _ _ hfind => hfind) ?_
  intro id conn' object' hfind hobject'
  by_cases hsame : conn' = conn
  · subst hsame
    have heq : object = object' := Option.some.inj (hobject.symm.trans hobject')
    exact ⟨{ object with bEnable := enable }, Function.update_self _ _ _, heq ▸ rfl⟩
  · exact ⟨object', (Function.update_of_ne hsame _ _).trans hobject', rfl⟩

theorem disable (htable : Table manager) (hstep : manager.disable id conn = some next) :
    Table next := by
  obtain ⟨disabled, hdisabled, hnext⟩ := Option.bind_eq_some_iff.mp hstep
  cases hnext
  exact (htable.setEnable hdisabled).reobject (fun _ _ hfind => hfind)
    fun _ _ object _ hobject => ⟨object, hobject, rfl⟩

/-- Deleting a connection takes every entry that is its. -/
theorem release (htable : Table manager) (hobject : manager.objects conn = some object) :
    Table (manager.release object.id conn) := by
  unfold MultiConnManager.release
  split
  next hthere =>
    have hold : ∀ id conn', (manager.connects.erase object.id).find id = some (some conn') →
        id ≠ object.id ∧ manager.connects.find id = some (some conn') := by
      intro id conn' hfind
      rw [OrderedMap.find_erase, Function.update_apply] at hfind
      split at hfind
      · cases hfind
      next hdiff => exact ⟨hdiff, hfind⟩
    apply htable.reobject (fun id conn' hfind => (hold id conn' hfind).2)
    intro id conn' object' hfind hobject'
    obtain ⟨hdiff, hbefore⟩ := hold id conn' hfind
    refine ⟨object', (Function.update_of_ne ?_ _ _).trans hobject', rfl⟩
    rintro rfl
    obtain ⟨found, hfound, hid⟩ := htable id conn' hbefore
    rw [hobject] at hfound
    cases hfound
    exact hdiff hid.symm
  next => exact htable

theorem eraseConnect (htable : Table manager) {conn : Option Address}
    (hstep : manager.eraseConnect conn = some next) : Table next := by
  cases conn with
  | none => cases hstep
  | some conn =>
      obtain ⟨object, hobject, hnext⟩ := Option.bind_eq_some_iff.mp hstep
      cases hnext
      exact htable.release hobject

theorem eraseConnectById (htable : Table manager)
    (hstep : manager.eraseConnectById id = some next) : Table next := by
  unfold MultiConnManager.eraseConnectById at hstep
  split at hstep
  · exact htable.eraseConnect hstep
  · cases hstep
    exact htable

theorem lazyDelete (htable : Table manager) (hstep : manager.lazyDelete id = some next) :
    Table next := by
  unfold MultiConnManager.lazyDelete at hstep
  split at hstep
  · cases hstep
    exact htable
  · obtain ⟨object, -, hnext⟩ := Option.bind_eq_some_iff.mp hstep
    split at hnext
    · cases hnext
      exact htable
    · exact htable.eraseConnect hnext

theorem handle (htable : Table manager) (hstep : manager.handle = some next) : Table next := by
  obtain ⟨deleted, hdeleted, hnext⟩ := Option.bind_eq_some_iff.mp hstep
  cases hnext
  have hloop : Table deleted :=
    foldlM_invariant Table (fun _ _ _ htable hnext => htable.lazyDelete hnext) htable hdeleted
  exact hloop.reobject (fun _ _ hfind => hfind)
    fun _ _ object _ hobject => ⟨object, hobject, rfl⟩

theorem insert (htable : Table manager) (id : Nat) :
    Table { manager with connects := manager.connects.insert id none } := by
  exact htable.reobject (fun _ _ => find_of_insert) fun _ _ object _ hobject =>
    ⟨object, hobject, rfl⟩

theorem createConn (htable : Table manager) (hstep : manager.createConn conn object = some next) :
    Table next := by
  unfold MultiConnManager.createConn at hstep
  split at hstep
  next => cases hstep
  next hfresh =>
    unfold MultiConnManager.onConnCreate at hstep
    simp only [Function.update_self, Function.update_idem, Option.bind_eq_bind,
      Option.bind_some] at hstep
    cases hstep
    intro id conn' hfind
    rw [OrderedMap.find_set, Function.update_apply] at hfind
    split at hfind
    next hid =>
      cases hfind
      exact ⟨_, Function.update_self _ _ _, hid.symm⟩
    next hid =>
      obtain ⟨object', hobject', hid'⟩ := htable id conn' hfind
      refine ⟨object', (Function.update_of_ne ?_ _ _).trans hobject', hid'⟩
      -- `new` gives the address of no object that exists
      rintro rfl
      exact hfresh (hobject' ▸ rfl)

theorem outside (htable : Table manager) (hout : ¬ manager.Mapped conn) (object : Option IConn) :
    Table { manager with objects := Function.update manager.objects conn object } := by
  refine htable.reobject (fun _ _ hfind => hfind) ?_
  intro id conn' object' hfind hobject'
  refine ⟨object', (Function.update_of_ne ?_ _ _).trans hobject', rfl⟩
  rintro rfl
  exact hout (mapped_iff.mpr ⟨id, hfind⟩)

end Table

/-! ## Sending to many -/

/-- The ids that a dispatch is for. -/
def addressed (ids : SortedSet natLess) (exp : Nat) : List Nat :=
  ids.elems.filter fun id => exp == NONEEXP_CID || exp != id

/-- The connection under the id, if it takes what is sent to it. -/
def Live (manager : MultiConnManager) (id : Nat) (conn : Address) : Prop :=
  manager.connects.find id = some (some conn) ∧
    ∃ object, manager.objects conn = some object ∧ object.bEnable = true

/-- The connection to which a turn of the loop sends. -/
def reached (manager : MultiConnManager) (id : Nat) : List Address :=
  if id < manager.size then
    (manager.getConnectById id).toList.filter fun conn => (manager.objects conn).any IConn.bEnable
  else []

/-- `connects[id]` for an id below the size. -/
def lookup (manager : MultiConnManager) (id : Nat) : OrderedMap Nat (Option Address) :=
  if id < manager.size then manager.connects.insert id none else manager.connects

theorem mem_reached : conn ∈ manager.reached id ↔ id < manager.size ∧ manager.Live id conn := by
  unfold reached Live
  split
  next hless =>
    rw [List.mem_filter, Option.mem_toList, getConnectById, Option.join_eq_some_iff]
    simp only [hless, true_and, Option.any_eq_true]
  next hmore => simp [hmore]

theorem nodup_reached (manager : MultiConnManager) (id : Nat) :
    (manager.reached id).Nodup := by
  unfold reached
  split
  · cases manager.getConnectById id with
    | none => exact List.nodup_nil
    | some conn => exact (List.nodup_singleton conn).filter _
  · exact List.nodup_nil

/-- A lookup puts at most a `NULL` into the map. -/
theorem getConnectById_insert (manager : MultiConnManager) (id : Nat) :
    getConnectById { manager with connects := manager.connects.insert id none } id =
      manager.getConnectById id := by
  simp only [getConnectById, OrderedMap.find_insert, Function.update_self]
  cases manager.connects.find id with
  | none => rfl
  | some slot => rfl

theorem disable_frame (hstep : manager.disable id conn = some next) :
    next.connects = manager.connects ∧
      ∀ other, other ≠ conn → next.objects other = manager.objects other := by
  obtain ⟨disabled, hdisabled, hnext⟩ := Option.bind_eq_some_iff.mp hstep
  cases hnext
  obtain ⟨object, -, hset⟩ := Option.bind_eq_some_iff.mp hdisabled
  cases hset
  exact ⟨rfl, fun other hother => Function.update_of_ne hother _ _⟩

/-- A connection that is enabled is called, and disabled if it throws. -/
theorem sendBin_some {throws : Nat → Bool} {packet : Sender} {calls : List SendBin}
    (hsend : manager.sendBin throws packet id conn = some (next, calls)) :
    next.connects = manager.connects ∧
      calls = ([conn].filter fun conn => (manager.objects conn).any (·.bEnable)).map
        (fun conn => ⟨conn, packet.frame, packet.uri⟩) ∧
      (∀ other, other ≠ conn → next.objects other = manager.objects other) ∧
      (Table manager → Table next) := by
  obtain ⟨object, hobject, hcalls⟩ := Option.bind_eq_some_iff.mp hsend
  simp only [List.filter_cons, List.filter_nil, hobject, Option.any_some]
  split at hcalls
  next henabled =>
    rw [if_pos henabled]
    split at hcalls
    · obtain ⟨disabled, hdisabled, hsent⟩ := Option.bind_eq_some_iff.mp hcalls
      cases hsent
      obtain ⟨hconnects, hobjects⟩ := disable_frame hdisabled
      exact ⟨hconnects, rfl, hobjects, fun htable => htable.disable hdisabled⟩
    · cases hcalls
      exact ⟨rfl, rfl, fun _ _ => rfl, fun htable => htable⟩
  next hdisabled =>
    rw [if_neg hdisabled]
    cases hcalls
    exact ⟨rfl, rfl, fun _ _ => rfl, fun htable => htable⟩

/-- What a turn of the loop does: it looks the id up, and sends if it finds a connection. -/
theorem sendById_some {throws : Nat → Bool} {packet : Sender}
    {state after : MultiConnManager × List SendBin}
    (hstep : sendById throws packet state id = some after) :
    after.1.connects = state.1.lookup id ∧
      after.2 = state.2 ++
        (state.1.reached id).map (fun conn => ⟨conn, packet.frame, packet.uri⟩) ∧
      (∀ conn, state.1.connects.find id ≠ some (some conn) →
        after.1.objects conn = state.1.objects conn) ∧
      (Table state.1 → Table after.1) := by
  unfold sendById at hstep
  unfold lookup reached
  split at hstep
  next hless =>
    rw [if_pos hless, if_pos hless]
    dsimp only at hstep
    rw [getConnectById_insert] at hstep
    cases hconn : state.1.getConnectById id with
    | none =>
        rw [hconn] at hstep
        cases hstep
        exact ⟨rfl, (List.append_nil _).symm, fun _ _ => rfl, fun htable => htable.insert id⟩
    | some conn =>
        rw [hconn] at hstep
        obtain ⟨⟨next, calls⟩, hsend, hafter⟩ := Option.bind_eq_some_iff.mp hstep
        cases hafter
        obtain ⟨hconnects, hcalls, hobjects, htable⟩ := sendBin_some hsend
        refine ⟨hconnects, congrArg (state.2 ++ ·) hcalls, fun other hother => ?_,
          fun hstate => htable (hstate.insert id)⟩
        apply hobjects other
        rintro rfl
        exact hother (Option.join_eq_some_iff.mp hconn)
  next hmore =>
    rw [if_neg hmore, if_neg hmore]
    cases hstep
    exact ⟨rfl, (List.append_nil _).symm, fun _ _ => rfl, fun htable => htable⟩

theorem Table.sendById_total (htable : Table manager) (throws : Nat → Bool) (packet : Sender)
    (sent : List SendBin) (id : Nat) :
    ∃ after, sendById throws packet (manager, sent) id = some after := by
  unfold sendById
  split
  next hless =>
    dsimp only
    rw [getConnectById_insert]
    cases hconn : manager.getConnectById id with
    | none => exact ⟨_, rfl⟩
    | some conn =>
        obtain ⟨object, hobject, -⟩ := htable id conn (Option.join_eq_some_iff.mp hconn)
        simp only [sendBin, MultiConnManager.disable, MultiConnManager.setEnable, hobject,
          Option.bind_eq_bind, Option.bind_some]
        split
        · split
          · exact ⟨_, rfl⟩
          · exact ⟨_, rfl⟩
        · exact ⟨_, rfl⟩
  next => exact ⟨_, rfl⟩

theorem Table.send_total (htable : Table manager) (throws : Nat → Bool) (packet : Sender)
    (ids : List Nat) (sent : List SendBin) :
    ∃ after, ids.foldlM (sendById throws packet) (manager, sent) = some after := by
  have hturn : ∀ (state : MultiConnManager × List SendBin) id, Table state.1 →
      ∃ after, sendById throws packet state id = some after ∧ Table after.1 := by
    rintro ⟨manager, sent⟩ id htable
    obtain ⟨after, hafter⟩ := htable.sendById_total throws packet sent id
    exact ⟨after, hafter, (sendById_some hafter).2.2.2 htable⟩
  have hfirst : Table (manager, sent).1 := htable
  obtain ⟨after, hafter, -⟩ := foldlM_total _ hturn hfirst ids
  exact ⟨after, hafter⟩

/-- Both loops are one, over the ids that are addressed. -/
theorem dispatchByIds_eq (throws : Nat → Bool) (manager : MultiConnManager) {resp packet : Sender}
    (hend : resp.endPack = .ok packet) (ids : SortedSet natLess) (exp : Nat) :
    manager.dispatchByIds throws resp ids exp =
      (addressed ids exp).foldlM (sendById throws packet) (manager, []) := by
  rw [dispatchByIds, hend, addressed, List.foldlM_filter]
  simp only [Except.toOption, Option.bind_eq_bind, Option.bind_some]
  split
  next hexp =>
    congr 1
    funext state id
    simp only [beq_eq_false_iff_ne.mpr hexp, Bool.false_or, bne_iff_ne]
    rfl
  next hexp =>
    congr 1
    funext state id
    simp only [beq_iff_eq.mpr (not_not.mp hexp), Bool.true_or, if_true]

/-! ## The map under a dispatch -/

theorem lookup_of_there (hthere : id < manager.size → (manager.connects.find id).isSome) :
    manager.lookup id = manager.connects := by
  unfold lookup
  split
  next hless => rw [OrderedMap.insert, if_pos (hthere hless)]
  next => rfl

/-- No key goes. -/
theorem isSome_lookup {key : Nat} (hkey : (manager.connects.find key).isSome) :
    ((manager.lookup id).find key).isSome := by
  unfold lookup
  split
  · rw [OrderedMap.find_insert, Function.update_apply]
    split
    · rfl
    · exact hkey
  · exact hkey

theorem isSome_send {throws : Nat → Bool} {packet : Sender} {ids : List Nat} {key : Nat}
    {state after : MultiConnManager × List SendBin}
    (hstep : ids.foldlM (sendById throws packet) state = some after)
    (hkey : (state.1.connects.find key).isSome) : (after.1.connects.find key).isSome := by
  refine foldlM_invariant (fun state => (state.1.connects.find key).isSome) ?_ hkey hstep
  intro state id after hkey hafter
  rw [(sendById_some hafter).1]
  exact isSome_lookup hkey

/-- A map that is the same after the loop had every key below its size that was looked up. -/
theorem there_of_send {throws : Nat → Bool} {packet : Sender} {ids : List Nat}
    {state after : MultiConnManager × List SendBin}
    (hstep : ids.foldlM (sendById throws packet) state = some after)
    (hsame : after.1.connects = state.1.connects) :
    ∀ id ∈ ids, id < state.1.size → (state.1.connects.find id).isSome := by
  induction ids generalizing state with
  | nil => simp
  | cons first rest ih =>
      rw [List.foldlM_cons] at hstep
      obtain ⟨middle, hmiddle, hrest⟩ := Option.bind_eq_some_iff.mp hstep
      have hfirst : first < state.1.size → (state.1.connects.find first).isSome := by
        intro hless
        rw [← hsame]
        apply isSome_send hrest
        rw [(sendById_some hmiddle).1, lookup, if_pos hless, OrderedMap.find_insert,
          Function.update_self]
        rfl
      have hkept : middle.1.connects = state.1.connects := by
        rw [(sendById_some hmiddle).1, lookup_of_there hfirst]
      intro id hid
      rcases List.mem_cons.mp hid with rfl | hlater
      · exact hfirst
      · have hrests := ih hrest (hsame.trans hkept.symm) id hlater
        rwa [size, hkept] at hrests

/-- Where every key that is looked up is there, the loop sends to the connections reached,
in the order of the ids, and leaves the map alone. -/
theorem send_of_there {throws : Nat → Bool} {packet : Sender} {ids : List Nat}
    {state after : MultiConnManager × List SendBin} (htable : Table state.1) (hnodup : ids.Nodup)
    (hstep : ids.foldlM (sendById throws packet) state = some after)
    (hthere : ∀ id ∈ ids, id < state.1.size → (state.1.connects.find id).isSome) :
    after.1.connects = state.1.connects ∧
      after.2 = state.2 ++ (ids.flatMap state.1.reached).map
        fun conn => ⟨conn, packet.frame, packet.uri⟩ := by
  induction ids generalizing state with
  | nil =>
      cases hstep
      exact ⟨rfl, (List.append_nil _).symm⟩
  | cons first rest ih =>
      rw [List.foldlM_cons] at hstep
      obtain ⟨middle, hmiddle, hrest⟩ := Option.bind_eq_some_iff.mp hstep
      obtain ⟨hconnects, hsent, hobjects, hkeeps⟩ := sendById_some hmiddle
      obtain ⟨hout, hnodup⟩ := List.nodup_cons.mp hnodup
      rw [lookup_of_there (hthere first List.mem_cons_self)] at hconnects
      have hsize : middle.1.size = state.1.size :=
        congrArg (fun map => map.entries.length) hconnects
      -- a turn changes no connection but its own
      have hreached : ∀ id ∈ rest, middle.1.reached id = state.1.reached id := by
        intro id hid
        simp only [reached, hsize, getConnectById, hconnects]
        split
        · cases hslot : (state.1.connects.find id).join with
          | none => rfl
          | some conn =>
              have hfind := Option.join_eq_some_iff.mp hslot
              have hother : state.1.connects.find first ≠ some (some conn) := by
                intro hfirst
                exact hout (htable.key_eq hfirst hfind ▸ hid)
              simp only [Option.toList_some, List.filter_cons, List.filter_nil,
                hobjects conn hother]
        · rfl
      have hlater : ∀ id ∈ rest, id < middle.1.size → (middle.1.connects.find id).isSome := by
        intro id hid
        rw [hsize, hconnects]
        exact hthere id (List.mem_cons_of_mem first hid)
      obtain ⟨hlast, hcalls⟩ := ih (hkeeps htable) hnodup hrest hlater
      refine ⟨hlast.trans hconnects, ?_⟩
      rw [hcalls, hsent, List.flatMap_cons, List.map_append, List.append_assoc,
        List.flatMap_congr hreached]

theorem Table.dispatchByIds (htable : Table manager) {throws : Nat → Bool} {resp : Sender}
    {ids : SortedSet natLess} {exp : Nat} {sent : List SendBin}
    (hstep : manager.dispatchByIds throws resp ids exp = some (next, sent)) : Table next := by
  obtain ⟨packet, hpacket, -⟩ := Option.bind_eq_some_iff.mp hstep
  rw [dispatchByIds_eq throws manager (of_toOption hpacket)] at hstep
  exact foldlM_invariant (fun state => Table state.1)
    (fun _ _ _ htable hafter => (sendById_some hafter).2.2.2 htable) htable hstep

theorem Table.dispatchById (htable : Table manager) {throws : Bool} {cid : Nat}
    (hstep : manager.dispatchById throws cid = some next) : Table next := by
  unfold MultiConnManager.dispatchById at hstep
  split at hstep
  · cases hstep
  · split at hstep
    · exact htable.disable hstep
    · cases hstep
      exact htable
  · cases hstep
    exact htable

theorem Table.step (htable : Table manager) {event : Event}
    (hstep : manager.step event = some next) : Table next := by
  cases event with
  | createConn conn object => exact htable.createConn hstep
  | eraseConnect conn => exact htable.eraseConnect hstep
  | eraseConnectById id => exact htable.eraseConnectById hstep
  | dispatchById throws cid => exact htable.dispatchById hstep
  | dispatchByIds throws resp ids exp =>
      obtain ⟨⟨after, sent⟩, hsent, rfl⟩ := Option.map_eq_some_iff.mp hstep
      exact htable.dispatchByIds hsent
  | delayDelConn conn =>
      cases conn with
      | none =>
          cases hstep
          exact htable
      | some conn =>
          obtain ⟨object, -, hnext⟩ := Option.bind_eq_some_iff.mp hstep
          exact htable.disable hnext
  | handle => exact htable.handle hstep
  | setEnable conn enable => exact htable.setEnable hstep
  | outside conn object =>
      change (if manager.Mapped conn then none else some _) = _ at hstep
      split at hstep
      next => cases hstep
      next hout =>
        cases hstep
        exact htable.outside hout object

theorem run_table {objects : Address → Option IConn} {events : List Event}
    (hrun : run MultiConnManager.step (new objects) events = some manager) : Table manager :=
  run_invariant (fun _ _ _ htable hstep => htable.step hstep) (new_table objects) hrun

/-! ## Ids are given out once -/

/-- Nothing new is in the map, and no id was given out. -/
structure Within (manager next : MultiConnManager) : Prop where
  cid : next.cid = manager.cid
  find : ∀ id conn, next.connects.find id = some (some conn) →
    manager.connects.find id = some (some conn)

namespace Within

theorem refl (manager : MultiConnManager) : Within manager manager := ⟨rfl, fun _ _ hfind => hfind⟩

theorem trans {third : MultiConnManager} (hfirst : Within manager next)
    (hsecond : Within next third) : Within manager third :=
  ⟨hsecond.cid.trans hfirst.cid,
    fun id conn hfind => hfirst.find id conn (hsecond.find id conn hfind)⟩

theorem setEnable {enable : Bool} (hstep : manager.setEnable conn enable = some next) :
    Within manager next := by
  obtain ⟨object, -, hnext⟩ := Option.bind_eq_some_iff.mp hstep
  cases hnext
  exact ⟨rfl, fun _ _ hfind => hfind⟩

theorem disable (hstep : manager.disable id conn = some next) : Within manager next := by
  obtain ⟨disabled, hdisabled, hnext⟩ := Option.bind_eq_some_iff.mp hstep
  cases hnext
  exact ⟨(setEnable hdisabled).cid, (setEnable hdisabled).find⟩

theorem release (manager : MultiConnManager) (id : Nat) (conn : Address) :
    Within manager (manager.release id conn) := by
  unfold MultiConnManager.release
  split
  next =>
    refine ⟨rfl, fun other conn' hfind => ?_⟩
    rw [OrderedMap.find_erase, Function.update_apply] at hfind
    split at hfind
    next => cases hfind
    next => exact hfind
  next => exact refl manager

theorem eraseConnect {conn : Option Address} (hstep : manager.eraseConnect conn = some next) :
    Within manager next := by
  cases conn with
  | none => cases hstep
  | some conn =>
      obtain ⟨object, -, hnext⟩ := Option.bind_eq_some_iff.mp hstep
      cases hnext
      exact release manager object.id conn

theorem eraseConnectById (hstep : manager.eraseConnectById id = some next) :
    Within manager next := by
  unfold MultiConnManager.eraseConnectById at hstep
  split at hstep
  · exact eraseConnect hstep
  · cases hstep
    exact refl manager

theorem dispatchById {throws : Bool} {cid : Nat}
    (hstep : manager.dispatchById throws cid = some next) : Within manager next := by
  unfold MultiConnManager.dispatchById at hstep
  split at hstep
  · cases hstep
  · split at hstep
    · exact disable hstep
    · cases hstep
      exact refl manager
  · cases hstep
    exact refl manager

theorem insert (manager : MultiConnManager) (id : Nat) :
    Within manager { manager with connects := manager.connects.insert id none } :=
  ⟨rfl, fun _ _ => find_of_insert⟩

theorem sendBin {throws : Nat → Bool} {packet : Sender} {calls : List SendBin}
    (hsend : manager.sendBin throws packet id conn = some (next, calls)) : Within manager next := by
  obtain ⟨object, -, hcalls⟩ := Option.bind_eq_some_iff.mp hsend
  split at hcalls
  · split at hcalls
    · obtain ⟨disabled, hdisabled, hsent⟩ := Option.bind_eq_some_iff.mp hcalls
      cases hsent
      exact disable hdisabled
    · cases hcalls
      exact refl manager
  · cases hcalls
    exact refl manager

theorem sendById {throws : Nat → Bool} {packet : Sender}
    {state after : MultiConnManager × List SendBin}
    (hstep : sendById throws packet state id = some after) : Within state.1 after.1 := by
  unfold MultiConnManager.sendById at hstep
  split at hstep
  next =>
    have hinsert := insert state.1 id
    dsimp only at hstep
    split at hstep
    next =>
      obtain ⟨⟨next, calls⟩, hsend, hafter⟩ := Option.bind_eq_some_iff.mp hstep
      cases hafter
      exact hinsert.trans (sendBin hsend)
    next =>
      cases hstep
      exact hinsert
  next =>
    cases hstep
    exact refl state.1

theorem dispatchByIds {throws : Nat → Bool} {resp : Sender} {ids : SortedSet natLess} {exp : Nat}
    {sent : List SendBin} (hstep : manager.dispatchByIds throws resp ids exp = some (next, sent)) :
    Within manager next := by
  obtain ⟨packet, hpacket, -⟩ := Option.bind_eq_some_iff.mp hstep
  rw [dispatchByIds_eq throws manager (of_toOption hpacket)] at hstep
  exact foldlM_invariant (fun state => Within manager state.1)
    (fun state id after hstate hafter => hstate.trans (sendById hafter)) (refl manager) hstep

theorem handle (hstep : manager.handle = some next) : Within manager next := by
  obtain ⟨deleted, hdeleted, hnext⟩ := Option.bind_eq_some_iff.mp hstep
  cases hnext
  have hturn : ∀ (state : MultiConnManager) (id : Nat) (after : MultiConnManager),
      state.lazyDelete id = some after → Within state after := by
    intro state id after hafter
    unfold lazyDelete at hafter
    split at hafter
    · cases hafter
      exact refl state
    · obtain ⟨object, -, hobject⟩ := Option.bind_eq_some_iff.mp hafter
      split at hobject
      · cases hobject
        exact refl state
      · exact eraseConnect hobject
  have hloop : Within manager deleted := foldlM_related refl trans hturn hdeleted
  exact ⟨hloop.cid, hloop.find⟩

/-- Only the creation of a connection puts one into the map. -/
theorem of_step {event : Event} (hstep : manager.step event = some next) :
    (∃ conn object, event = .createConn conn object) ∨ Within manager next := by
  cases event with
  | createConn conn object => exact .inl ⟨conn, object, rfl⟩
  | eraseConnect conn => exact .inr (eraseConnect hstep)
  | eraseConnectById id => exact .inr (eraseConnectById hstep)
  | dispatchById throws cid => exact .inr (dispatchById hstep)
  | dispatchByIds throws resp ids exp =>
      obtain ⟨⟨after, sent⟩, hsent, rfl⟩ := Option.map_eq_some_iff.mp hstep
      exact .inr (dispatchByIds hsent)
  | delayDelConn conn =>
      refine .inr ?_
      cases conn with
      | none =>
          cases hstep
          exact refl manager
      | some conn =>
          obtain ⟨object, -, hnext⟩ := Option.bind_eq_some_iff.mp hstep
          exact disable hnext
  | handle => exact .inr (handle hstep)
  | setEnable conn enable => exact .inr (setEnable hstep)
  | outside conn object =>
      change (if manager.Mapped conn then none else some _) = _ at hstep
      split at hstep
      next => cases hstep
      next =>
        cases hstep
        exact .inr ⟨rfl, fun _ _ hfind => hfind⟩

end Within

/-- A new connection is in the map under the next id, until the ids start again. -/
theorem createConn_spec (hstep : manager.createConn conn object = some next) :
    next.cid = (manager.cid + 1) % 2 ^ 32 ∧
      ∀ id conn', next.connects.find id = some (some conn') →
        (id = next.cid ∧ conn' = conn) ∨
          id ≠ next.cid ∧ manager.connects.find id = some (some conn') := by
  unfold createConn at hstep
  split at hstep
  next => cases hstep
  next =>
    obtain ⟨created, -, hnext⟩ := Option.bind_eq_some_iff.mp hstep
    cases hnext
    refine ⟨rfl, fun id conn' hfind => ?_⟩
    rw [OrderedMap.find_set, Function.update_apply] at hfind
    split at hfind
    next hid =>
      cases hfind
      exact .inl ⟨hid, rfl⟩
    next hid => exact .inr ⟨hid, hfind⟩

/-- A packet reached exactly the live connections that were addressed, once each, and the map
is as it was. -/
structure Multicast (manager : MultiConnManager) (packet : Sender) (ids : SortedSet natLess)
    (exp : Nat) (next : MultiConnManager) (sent : List SendBin) : Prop where
  packet : ∀ call ∈ sent, call.data = packet.frame ∧ call.uri = packet.uri
  only : ∀ call ∈ sent, ∃ id ∈ addressed ids exp, manager.Live id call.conn
  once : ∀ id ∈ addressed ids exp, ∀ conn, manager.Live id conn →
    (sent.map SendBin.conn).count conn = 1
  map : next.connects = manager.connects

theorem nodup_addressed (ids : SortedSet natLess) (exp : Nat) : (addressed ids exp).Nodup := by
  refine List.Nodup.filter _ (List.Pairwise.imp ?_ ids.sorted)
  rintro a b hless rfl
  simp [natLess] at hless

theorem map_conn_calls (data : List UInt8) (uri : Int32) (conns : List Address) :
    (conns.map fun conn => (⟨conn, data, uri⟩ : SendBin)).map SendBin.conn = conns := by
  rw [List.map_map]
  exact List.map_id conns

theorem of_mem_calls {data : List UInt8} {uri : Int32} {conns : List Address} {call : SendBin}
    (hcall : call ∈ conns.map fun conn => (⟨conn, data, uri⟩ : SendBin)) :
    call.conn ∈ conns ∧ call.data = data ∧ call.uri = uri := by
  obtain ⟨conn, hconn, rfl⟩ := List.mem_map.mp hcall
  exact ⟨hconn, rfl, rfl⟩

/-- A connection is reached under one id. -/
theorem Table.nodup_flatMap_reached (htable : Table manager) {ids : List Nat}
    (hnodup : ids.Nodup) : (ids.flatMap manager.reached).Nodup := by
  rw [List.nodup_flatMap]
  refine ⟨fun id _ => nodup_reached manager id, hnodup.imp ?_⟩
  intro id other hdiff conn hid hother
  exact hdiff (htable.key_eq (mem_reached.mp hid).2.1 (mem_reached.mp hother).2.1)

/-- On any map that a run can make, a dispatch to many reaches exactly the live connections
addressed and leaves the map alone exactly when the ids addressed pass the comparison with the
size as if they were indices: those of live connections are below it, and those below it have
an entry. -/
theorem multicast_iff (objects : Address → Option IConn) (events : List Event)
    (manager : MultiConnManager) (throws : Nat → Bool) (resp packet : Sender)
    (ids : SortedSet natLess) (exp : Nat) (hrun : run step (new objects) events = some manager)
    (hend : resp.endPack = .ok packet) :
    ∃ next sent, manager.dispatchByIds throws resp ids exp = some (next, sent) ∧
      (Multicast manager packet ids exp next sent ↔ ∀ id ∈ addressed ids exp,
        ((∃ conn, manager.Live id conn) → id < manager.size) ∧
        (id < manager.size → (manager.connects.find id).isSome)) := by
  have htable := run_table hrun
  obtain ⟨⟨next, sent⟩, hstep⟩ := htable.send_total throws packet (addressed ids exp) []
  refine ⟨next, sent, (dispatchByIds_eq throws manager hend ids exp).trans hstep, ?_⟩
  have hnodup := nodup_addressed ids exp
  -- what was sent, where no key is missing
  have hconns : (∀ id ∈ addressed ids exp, id < manager.size →
      (manager.connects.find id).isSome) →
      next.connects = manager.connects ∧
        sent = ((addressed ids exp).flatMap manager.reached).map
          (fun conn => ⟨conn, packet.frame, packet.uri⟩) ∧
        sent.map SendBin.conn = (addressed ids exp).flatMap manager.reached := by
    intro hthere
    obtain ⟨hmap, hsent⟩ := send_of_there htable hnodup hstep hthere
    dsimp only at hmap hsent
    rw [List.nil_append] at hsent
    refine ⟨hmap, hsent, ?_⟩
    rw [hsent]
    exact map_conn_calls _ _ _
  constructor
  · intro hmulticast id hid
    have hthere := there_of_send hstep hmulticast.map
    refine ⟨?_, hthere id hid⟩
    rintro ⟨conn, hlive⟩
    have hcount := hmulticast.once id hid conn hlive
    have hmem : conn ∈ sent.map SendBin.conn := List.count_pos_iff.mp (by omega)
    rw [(hconns hthere).2.2] at hmem
    obtain ⟨other, -, hother⟩ := List.mem_flatMap.mp hmem
    obtain ⟨hless, hfound⟩ := mem_reached.mp hother
    exact htable.key_eq hfound.1 hlive.1 ▸ hless
  · intro hindex
    obtain ⟨hmap, hsent, hreached⟩ := hconns fun id hid => (hindex id hid).2
    constructor
    · intro call hcall
      rw [hsent] at hcall
      exact (of_mem_calls hcall).2
    · intro call hcall
      rw [hsent] at hcall
      obtain ⟨id, hid, hmem⟩ := List.mem_flatMap.mp (of_mem_calls hcall).1
      exact ⟨id, hid, (mem_reached.mp hmem).2⟩
    · intro id hid conn hlive
      rw [hreached]
      apply List.count_eq_one_of_mem (htable.nodup_flatMap_reached hnodup)
      exact List.mem_flatMap.mpr
        ⟨id, hid, mem_reached.mpr ⟨(hindex id hid).1 ⟨conn, hlive⟩, hlive⟩⟩
    · exact hmap

/-- A sender that was constructed can end its packet. -/
theorem exists_packet : ∃ resp packet : Sender, resp.endPack = .ok packet := by
  obtain ⟨resp, hresp⟩ : ∃ resp, Sender.new (fun _ => some fun _ => 0) 7 = .ok resp := ⟨_, rfl⟩
  exact ⟨resp, (Sender.new_ok hresp).1.endPack⟩

/-- Two connections, and a packet for the first. -/
theorem multicast_iff_first :
    ∃ manager resp packet next sent,
      run step (new fun _ => none) [.createConn 100 ⟨7, 0, 0, true⟩,
        .createConn 101 ⟨8, 0, 0, true⟩] = some manager ∧
      manager.Live 1 100 ∧
      manager.dispatchByIds (fun _ => false) resp (SortedSet.empty.insert 1) NONEEXP_CID =
        some (next, sent) ∧
      Multicast manager packet (SortedSet.empty.insert 1) NONEEXP_CID next sent := by
  obtain ⟨resp, packet, hend⟩ := exists_packet
  obtain ⟨manager, hrun, hsize, hlive⟩ : ∃ manager,
      run step (new fun _ => none) [.createConn 100 ⟨7, 0, 0, true⟩,
        .createConn 101 ⟨8, 0, 0, true⟩] = some manager ∧ manager.size = 2 ∧
      manager.Live 1 100 := ⟨_, rfl, rfl, rfl, _, rfl, rfl⟩
  obtain ⟨next, sent, hsent, hiff⟩ := multicast_iff (fun _ => none) _ manager (fun _ => false)
    resp packet (SortedSet.empty.insert 1) NONEEXP_CID hrun hend
  refine ⟨manager, resp, packet, next, sent, hrun, hlive, hsent, hiff.mpr ?_⟩
  intro id hid
  have hone : id = 1 := List.mem_singleton.mp hid
  subst hone
  exact ⟨fun _ => by rw [hsize]; decide, fun _ => by rw [hlive.1]; rfl⟩

/-- One connection, whose id is 1. -/
def soleConn : MultiConnManager where
  cid := 1
  connects := OrderedMap.empty.set 1 (some 100)
  toDelete := .empty
  objects := Function.update (fun _ => none) 100 (some ⟨7, 1, 1, true⟩)

/-- It gets nothing of what is addressed to it; and a packet for id 0, which was never given
out, leaves a `NULL` behind, which the next dispatch to that id uses. -/
theorem sole_conn_not_reached :
    ∃ resp packet after,
      run step (new fun _ => none) [.createConn 100 ⟨7, 0, 0, true⟩] = some soleConn ∧
      resp.endPack = .ok packet ∧
      soleConn.dispatchByIds (fun _ => false) resp (SortedSet.empty.insert 1) NONEEXP_CID =
        some (soleConn, []) ∧
      ¬ Multicast soleConn packet (SortedSet.empty.insert 1) NONEEXP_CID soleConn [] ∧
      soleConn.dispatchByIds (fun _ => false) resp (SortedSet.empty.insert 0) NONEEXP_CID =
        some (after, []) ∧
      after.connects.find 0 = some none ∧ after.dispatchById false 0 = none := by
  obtain ⟨resp, packet, hend⟩ := exists_packet
  refine ⟨resp, packet, { soleConn with connects := soleConn.connects.insert 0 none }, ?_, hend,
    ?_, ?_, ?_, ?_, ?_⟩
  · simp only [run, step, createConn, new, Option.isSome_none, Bool.false_eq_true, if_false,
      onConnCreate, Function.update_self, Function.update_idem, Option.bind_eq_bind,
      Option.bind_some]
    rfl
  · rw [dispatchByIds_eq _ _ hend]
    rfl
  · intro hmulticast
    have hcount := hmulticast.once 1 (by decide) 100 ⟨rfl, _, rfl, rfl⟩
    exact absurd hcount (by decide)
  · rw [dispatchByIds_eq _ _ hend]
    rfl
  · rfl
  · rfl

end MultiConnManager

end ServiceFrame
