import Mathlib.Algebra.Group.Nat.Defs
import Mathlib.Data.Fintype.Card
import ServiceFrame.Foundation.Run
import ServiceFrame.Foundation.SortedSet

/-! # The connection table

`MultiConnManagerVecImp` of `core/corelib`, on `LazyDelConnManager` and
`ConnManagerLinkImp`: connections in a vector, by the index that is their id, with a
list of the free slots.

Using a pointer to an object that was deleted has no step. Neither has a
connection on a descriptor that another one holds: a connection keeps its own open
until it is deleted.
-/

namespace ServiceFrame

open Foundation

structure IConn where
  /-- The descriptor. -/
  so : Nat
  id : Nat
  serialId : Nat
  bEnable : Bool

abbrev Address := Nat

structure MultiConnManagerVec where
  serialId : Nat
  /-- The pointers; none is `NULL`. -/
  connects : List (Option Address)
  freeList : List Nat
  toDelete : SortedSet natLess
  /-- The connections that exist, in the table or not. -/
  objects : Address → Option IConn

namespace MultiConnManagerVec

def new (objects : Address → Option IConn) : MultiConnManagerVec where
  serialId := 0
  connects := []
  freeList := []
  toDelete := .empty
  objects := objects

def NONEEXP_CID : Nat := 0xffffffff

/-- The descriptors are those of an `int`. -/
def descriptors : Nat := 2 ^ 31

/-- Both erasures: the slot is freed and the connection deleted. -/
def release (manager : MultiConnManagerVec) (id : Nat) (conn : Address) : MultiConnManagerVec :=
  { manager with
    freeList := manager.freeList ++ [id]
    connects := manager.connects.set id none
    objects := Function.update manager.objects conn none }

def eraseConnect (manager : MultiConnManagerVec) : Option Address → Option MultiConnManagerVec
  | none => some manager
  | some conn => do
      let object ← manager.objects conn
      if manager.connects[object.id]? = some (some conn) then
        some (manager.release object.id conn)
      else some manager

def eraseConnectById (manager : MultiConnManagerVec) (id : Nat) : MultiConnManagerVec :=
  match manager.connects[id]? with
  | some (some conn) => manager.release id conn
  | _ => manager

def getConnectById (manager : MultiConnManagerVec) (id : Nat) : Option Address :=
  manager.connects[id]?.join

def setEnable (manager : MultiConnManagerVec) (conn : Address) (enable : Bool) :
    Option MultiConnManagerVec := do
  let object ← manager.objects conn
  some { manager with
    objects := Function.update manager.objects conn (some { object with bEnable := enable }) }

def delay (manager : MultiConnManagerVec) (id : Nat) : MultiConnManagerVec :=
  { manager with toDelete := manager.toDelete.insert id }

/-- A connection whose send threw. -/
def disable (manager : MultiConnManagerVec) (id : Nat) (conn : Address) :
    Option MultiConnManagerVec := do
  let disabled ← manager.setEnable conn false
  some (disabled.delay id)

/-- One turn of the loops of `dispatchByIds`. -/
def sendById (throws : Nat → Bool) (manager : MultiConnManagerVec) (id : Nat) :
    Option MultiConnManagerVec :=
  match manager.getConnectById id with
  | some conn => if throws id then manager.disable id conn else some manager
  | none => some manager

def dispatchByIds (throws : Nat → Bool) (manager : MultiConnManagerVec)
    (ids : SortedSet natLess) (exp : Nat) : Option MultiConnManagerVec :=
  if exp ≠ NONEEXP_CID then
    ids.elems.foldlM (fun manager id =>
      if exp ≠ id then manager.sendById throws id else some manager) manager
  else ids.elems.foldlM (sendById throws) manager

def dispatchById (throws : Bool) (manager : MultiConnManagerVec) (cid : Nat) :
    Option MultiConnManagerVec :=
  match manager.getConnectById cid with
  | some conn => if throws then manager.disable cid conn else some manager
  | none => some (manager.delay cid)

def onConnCreate (manager : MultiConnManagerVec) (conn : Address) :
    Option MultiConnManagerVec := do
  let object ← manager.objects conn
  let serialId := (manager.serialId + 1) % 2 ^ 32
  let created := fun id => Function.update manager.objects conn
    (some { object with id := id, serialId := serialId })
  match manager.freeList with
  | [] =>
      let fid := manager.connects.length % 2 ^ 32
      some { manager with
        serialId := serialId
        connects := manager.connects ++ [some conn]
        objects := created fid }
  | fid :: rest =>
      some { manager with
        serialId := serialId
        connects := manager.connects.set fid (some conn)
        freeList := rest
        objects := created fid }

/-- The descriptors of the connections in the table. -/
def sockets (manager : MultiConnManagerVec) : List Nat :=
  manager.connects.filterMap fun slot => (slot.bind manager.objects).map IConn.so

/-- `creatConnect` and `createConnect`: a new object, whose id is not set yet. -/
def createConn (manager : MultiConnManagerVec) (conn : Address) (object : IConn) :
    Option MultiConnManagerVec :=
  if (manager.objects conn).isSome ∨ descriptors ≤ object.so ∨
      object.so ∈ manager.sockets then none
  else onConnCreate { manager with
    objects := Function.update manager.objects conn (some object) } conn

def delayDelConn (manager : MultiConnManagerVec) : Option Address → Option MultiConnManagerVec
  | none => some manager
  | some conn => do
      let object ← manager.objects conn
      manager.disable object.id conn

/-- One turn of the loop of `LazyDelConnManager::handle`. -/
def lazyDelete (manager : MultiConnManagerVec) (id : Nat) : Option MultiConnManagerVec :=
  match manager.getConnectById id with
  | none => some manager
  | some conn => do
      let object ← manager.objects conn
      if object.bEnable then some manager else manager.eraseConnect (some conn)

def handle (manager : MultiConnManagerVec) : Option MultiConnManagerVec := do
  let deleted ← manager.toDelete.elems.foldlM lazyDelete manager
  some { deleted with toDelete := .empty }

/-- `onClose` logs the id of the connection first. -/
def onClose (manager : MultiConnManagerVec) : Option Address → Option MultiConnManagerVec
  | none => none
  | some conn => manager.eraseConnect (some conn)

/-- `onInitiativeClose`, `onError` and `onTimeout`. -/
def onError (manager : MultiConnManagerVec) (conn : Option Address) :
    Option MultiConnManagerVec :=
  manager.eraseConnect conn

inductive Event where
  | createConn (conn : Address) (object : IConn)
  | eraseConnect (conn : Option Address)
  | eraseConnectById (id : Nat)
  | onClose (conn : Option Address)
  | onError (conn : Option Address)
  | dispatchById (throws : Bool) (cid : Nat)
  | dispatchByIds (throws : Nat → Bool) (ids : SortedSet natLess) (exp : Nat)
  | delayDelConn (conn : Option Address)
  | handle
  | setEnable (conn : Address) (enable : Bool)
  /-- Connections that are not in the table come, change and go. -/
  | outside (conn : Address) (object : Option IConn)

def step (manager : MultiConnManagerVec) : Event → Option MultiConnManagerVec
  | .createConn conn object => manager.createConn conn object
  | .eraseConnect conn => manager.eraseConnect conn
  | .eraseConnectById id => some (manager.eraseConnectById id)
  | .onClose conn => manager.onClose conn
  | .onError conn => manager.onError conn
  | .dispatchById throws cid => manager.dispatchById throws cid
  | .dispatchByIds throws ids exp => manager.dispatchByIds throws ids exp
  | .delayDelConn conn => manager.delayDelConn conn
  | .handle => manager.handle
  | .setEnable conn enable => manager.setEnable conn enable
  | .outside conn object =>
      if some conn ∈ manager.connects then none
      else some { manager with objects := Function.update manager.objects conn object }

/-! ## The invariant -/

variable {manager next : MultiConnManagerVec} {id other fid : Nat} {conn : Address}
  {object : IConn}

/-- The slot has a connection. -/
def At (manager : MultiConnManagerVec) (id : Nat) (conn : Address) (object : IConn) : Prop :=
  manager.connects[id]? = some (some conn) ∧ manager.objects conn = some object

structure Table (manager : MultiConnManagerVec) : Prop where
  nodup : manager.freeList.Nodup
  free : ∀ id : Nat, id ∈ manager.freeList ↔ manager.connects[id]? = some none
  object : ∀ (id : Nat) conn, manager.connects[id]? = some (some conn) →
    ∃ object, manager.objects conn = some object
  id : ∀ id conn object, manager.At id conn object → object.id = id
  descriptor : ∀ id conn object, manager.At id conn object → object.so < descriptors
  socket : ∀ id other conn conn' object object', manager.At id conn object →
    manager.At other conn' object' → object.so = object'.so → id = other

theorem new_table (objects : Address → Option IConn) : Table (new objects) where
  nodup := List.nodup_nil
  free := by simp [new]
  object := by simp [new]
  id := by simp [new, At]
  descriptor := by simp [new, At]
  socket := by simp [new, At]

namespace Table

/-- A slot with a connection is not free. -/
theorem not_free (htable : Table manager) (hslot : manager.connects[id]? = some (some conn)) :
    id ∉ manager.freeList := by
  intro hfree
  rw [(htable.free id).mp hfree] at hslot
  cases hslot

/-- A connection is in one slot. -/
theorem slot_eq (htable : Table manager) (hslot : manager.connects[id]? = some (some conn))
    (hother : manager.connects[other]? = some (some conn)) : id = other := by
  obtain ⟨object, hobject⟩ := htable.object id conn hslot
  rw [← htable.id id conn object ⟨hslot, hobject⟩, htable.id other conn object ⟨hother, hobject⟩]

/-- The table stays in order when the connections in it keep id and descriptor. -/
theorem reobject (htable : Table manager) (hconnects : next.connects = manager.connects)
    (hfree : next.freeList = manager.freeList)
    (hobjects : ∀ id conn object, manager.At id conn object →
      ∃ object', next.objects conn = some object' ∧ object'.id = object.id ∧
        object'.so = object.so) : Table next := by
  have hback : ∀ id conn object', next.At id conn object' →
      ∃ object, manager.At id conn object ∧ object'.id = object.id ∧ object'.so = object.so := by
    rintro id conn object' ⟨hslot, hobject'⟩
    rw [hconnects] at hslot
    obtain ⟨object, hobject⟩ := htable.object id conn hslot
    obtain ⟨found, hfound, hid, hso⟩ := hobjects id conn object ⟨hslot, hobject⟩
    rw [hobject'] at hfound
    cases hfound
    exact ⟨object, ⟨hslot, hobject⟩, hid, hso⟩
  constructor
  · rw [hfree]
    exact htable.nodup
  · intro id
    rw [hfree, hconnects]
    exact htable.free id
  · intro id conn hslot
    rw [hconnects] at hslot
    obtain ⟨object, hobject⟩ := htable.object id conn hslot
    obtain ⟨object', hobject', -, -⟩ := hobjects id conn object ⟨hslot, hobject⟩
    exact ⟨object', hobject'⟩
  · intro id conn object' hat
    obtain ⟨object, hat, hid, -⟩ := hback id conn object' hat
    rw [hid]
    exact htable.id id conn object hat
  · intro id conn object' hat
    obtain ⟨object, hat, -, hso⟩ := hback id conn object' hat
    rw [hso]
    exact htable.descriptor id conn object hat
  · intro id other conn conn' object object' hat hat' hsame
    obtain ⟨old, hold, -, hso⟩ := hback id conn object hat
    obtain ⟨old', hold', -, hso'⟩ := hback other conn' object' hat'
    exact htable.socket id other conn conn' old old' hold hold' (by rw [← hso, ← hso', hsame])

theorem release (htable : Table manager) (hslot : manager.connects[id]? = some (some conn)) :
    Table (manager.release id conn) := by
  have hget : ∀ other, (manager.release id conn).connects[other]? =
      if id = other then some none else manager.connects[other]? := by
    intro other
    rw [MultiConnManagerVec.release, List.getElem?_set]
    split
    · rw [if_pos (List.getElem?_eq_some_iff.mp hslot).1]
    · rfl
  -- what is left in the table is another connection, which the deletion does not touch
  have hback : ∀ (other : Nat) conn',
      (manager.release id conn).connects[other]? = some (some conn') →
      manager.connects[other]? = some (some conn') ∧
        (manager.release id conn).objects conn' = manager.objects conn' := by
    intro other conn' hother
    rw [hget] at hother
    split at hother
    · cases hother
    next hdiff =>
      refine ⟨hother, Function.update_of_ne ?_ _ _⟩
      rintro rfl
      exact hdiff (htable.slot_eq hslot hother)
  have hat : ∀ {other conn' object}, (manager.release id conn).At other conn' object →
      manager.At other conn' object := by
    rintro other conn' object ⟨hother, hobject⟩
    obtain ⟨hold, hsame⟩ := hback other conn' hother
    exact ⟨hold, hsame ▸ hobject⟩
  constructor
  · refine List.nodup_append.mpr ⟨htable.nodup, List.nodup_singleton id, ?_⟩
    rintro free hfree last hlast rfl
    rw [List.mem_singleton.mp hlast] at hfree
    exact htable.not_free hslot hfree
  · intro other
    rw [hget, MultiConnManagerVec.release, List.mem_append, List.mem_singleton, htable.free]
    split
    next hsame => simp [hsame]
    next hdiff => simp [Ne.symm hdiff]
  · intro other conn' hother
    obtain ⟨hold, hsame⟩ := hback other conn' hother
    rw [hsame]
    exact htable.object other conn' hold
  · intro other conn' object hother
    exact htable.id other conn' object (hat hother)
  · intro other conn' object hother
    exact htable.descriptor other conn' object (hat hother)
  · intro first second conn' conn'' object object' hfirst hsecond hsame
    exact htable.socket first second conn' conn'' object object' (hat hfirst) (hat hsecond) hsame

/-- When no slot is free, there are no more slots than descriptors. -/
theorem full (htable : Table manager) (hfull : manager.freeList = []) :
    manager.connects.length ≤ descriptors := by
  have hslot : ∀ id : Fin manager.connects.length, ∃ conn object, manager.At id conn object := by
    intro id
    have hget := List.getElem?_eq_getElem id.isLt
    cases hslot : manager.connects[id.val] with
    | none =>
        rw [hslot, ← htable.free, hfull] at hget
        cases hget
    | some conn =>
        rw [hslot] at hget
        obtain ⟨object, hobject⟩ := htable.object id conn hget
        exact ⟨conn, object, hget, hobject⟩
  choose conn object hat using hslot
  -- each slot has a descriptor of its own
  have hinjective : Function.Injective fun id : Fin manager.connects.length =>
      (⟨(object id).so, htable.descriptor id (conn id) (object id) (hat id)⟩ :
        Fin descriptors) := by
    intro id other hsame
    exact Fin.ext (htable.socket id other _ _ _ _ (hat id) (hat other) (Fin.mk.inj hsame))
  have hcard := Fintype.card_le_of_injective _ hinjective
  rwa [Fintype.card_fin, Fintype.card_fin] at hcard

/-- A connection that is not in the table yet takes a slot that is free. -/
theorem occupy (htable : Table manager) {serialId : Nat} {connects : List (Option Address)}
    {freeList : List Nat} (hnodup : freeList.Nodup)
    (hfree : ∀ id, id ∈ freeList ↔ id ∈ manager.freeList ∧ id ≠ fid)
    (hconnects : ∀ id : Nat, connects[id]? =
      if id = fid then some (some conn) else manager.connects[id]?)
    (hnew : some conn ∉ manager.connects) (hid : object.id = fid)
    (hdescriptor : object.so < descriptors) (hsocket : object.so ∉ manager.sockets) :
    Table { manager with
      serialId := serialId, connects := connects, freeList := freeList
      objects := Function.update manager.objects conn (some object) } := by
  -- the new connection's descriptor is none of those already in the table
  have hother : ∀ id conn' object', manager.At id conn' object' →
      object'.so ∈ manager.sockets := by
    rintro id conn' object' ⟨hslot, hobject⟩
    refine List.mem_filterMap.mpr ⟨some conn', List.mem_of_getElem? hslot, ?_⟩
    simp [hobject]
  -- each connection of the new table is the new one, in its slot, or was there before
  have hback : ∀ {id conn' object'},
      At { manager with
        serialId := serialId, connects := connects, freeList := freeList
        objects := Function.update manager.objects conn (some object) } id conn' object' →
      (id = fid ∧ object' = object) ∨ manager.At id conn' object' := by
    rintro id conn' object' ⟨hslot, hobject⟩
    change connects[id]? = _ at hslot
    rw [hconnects] at hslot
    split at hslot
    next hsame =>
      cases hslot
      change Function.update manager.objects conn (some object) conn = _ at hobject
      rw [Function.update_self] at hobject
      cases hobject
      exact Or.inl ⟨hsame, rfl⟩
    next =>
      refine Or.inr ⟨hslot, ?_⟩
      have hdiff : conn' ≠ conn := by
        rintro rfl
        exact hnew (List.mem_of_getElem? hslot)
      change Function.update manager.objects conn (some object) conn' = _ at hobject
      rwa [Function.update_of_ne hdiff] at hobject
  constructor
  · exact hnodup
  · intro id
    change id ∈ freeList ↔ connects[id]? = some none
    rw [hfree, hconnects, htable.free]
    split
    next hsame => simp [hsame]
    next hdiff => simp [hdiff]
  · intro id conn' hslot
    change connects[id]? = _ at hslot
    change ∃ object', Function.update manager.objects conn (some object) conn' = some object'
    by_cases hsame : conn' = conn
    · exact ⟨object, by rw [hsame, Function.update_self]⟩
    · rw [Function.update_of_ne hsame]
      rw [hconnects] at hslot
      split at hslot
      · cases hslot
        exact absurd rfl hsame
      · exact htable.object id conn' hslot
  · intro id conn' object' hat
    rcases hback hat with ⟨hsame, rfl⟩ | hold
    · rw [hid, hsame]
    · exact htable.id id conn' object' hold
  · intro id conn' object' hat
    rcases hback hat with ⟨-, rfl⟩ | hold
    · exact hdescriptor
    · exact htable.descriptor id conn' object' hold
  · intro id other conn' conn'' object' object'' hat hat' hsame
    rcases hback hat with ⟨hfid, rfl⟩ | hold
    · rcases hback hat' with ⟨hfid', -⟩ | hold'
      · rw [hfid, hfid']
      · exact absurd (hsame ▸ hother other conn'' object'' hold') hsocket
    · rcases hback hat' with ⟨-, rfl⟩ | hold'
      · exact absurd (hsame ▸ hother id conn' object' hold) hsocket
      · exact htable.socket id other conn' conn'' object' object'' hold hold' hsame

/-! ## The steps -/

theorem eraseConnect (htable : Table manager) {conn : Option Address}
    (hstep : manager.eraseConnect conn = some next) : Table next := by
  cases conn with
  | none =>
      cases hstep
      exact htable
  | some conn =>
      obtain ⟨object, hobject, hnext⟩ := Option.bind_eq_some_iff.mp hstep
      split at hnext
      next hslot =>
        cases hnext
        exact htable.release hslot
      next =>
        cases hnext
        exact htable

theorem eraseConnectById (htable : Table manager) (id : Nat) :
    Table (manager.eraseConnectById id) := by
  unfold MultiConnManagerVec.eraseConnectById
  split
  next conn hslot => exact htable.release hslot
  next => exact htable

theorem delay (htable : Table manager) (id : Nat) : Table (manager.delay id) :=
  htable.reobject rfl rfl fun _ _ object hat => ⟨object, hat.2, rfl, rfl⟩

theorem setEnable (htable : Table manager) {enable : Bool}
    (hstep : manager.setEnable conn enable = some next) : Table next := by
  obtain ⟨object, hobject, hnext⟩ := Option.bind_eq_some_iff.mp hstep
  cases hnext
  refine htable.reobject rfl rfl ?_
  intro id conn' object' hat
  by_cases hsame : conn' = conn
  · subst hsame
    have heq : object = object' := Option.some.inj (hobject.symm.trans hat.2)
    exact ⟨{ object with bEnable := enable }, Function.update_self _ _ _, heq ▸ rfl, heq ▸ rfl⟩
  · exact ⟨object', (Function.update_of_ne hsame _ _).trans hat.2, rfl, rfl⟩

theorem disable (htable : Table manager) (hstep : manager.disable id conn = some next) :
    Table next := by
  obtain ⟨disabled, hdisabled, hnext⟩ := Option.bind_eq_some_iff.mp hstep
  cases hnext
  exact (htable.setEnable hdisabled).delay id

theorem dispatchById (htable : Table manager) {throws : Bool}
    (hstep : manager.dispatchById throws id = some next) : Table next := by
  unfold MultiConnManagerVec.dispatchById at hstep
  split at hstep
  · split at hstep
    · exact htable.disable hstep
    · cases hstep
      exact htable
  · cases hstep
    exact htable.delay id

theorem sendById (htable : Table manager) {throws : Nat → Bool}
    (hstep : manager.sendById throws id = some next) : Table next := by
  unfold MultiConnManagerVec.sendById at hstep
  split at hstep
  · split at hstep
    · exact htable.disable hstep
    · cases hstep
      exact htable
  · cases hstep
    exact htable

theorem lazyDelete (htable : Table manager) (hstep : manager.lazyDelete id = some next) :
    Table next := by
  unfold MultiConnManagerVec.lazyDelete at hstep
  split at hstep
  · cases hstep
    exact htable
  · obtain ⟨object, -, hnext⟩ := Option.bind_eq_some_iff.mp hstep
    split at hnext
    · cases hnext
      exact htable
    · exact htable.eraseConnect hnext

/-- A loop over ids keeps the table when each of its turns does. -/
theorem loop {turn : MultiConnManagerVec → Nat → Option MultiConnManagerVec}
    (hturn : ∀ {manager id next}, Table manager → turn manager id = some next → Table next)
    {ids : List Nat} (htable : Table manager) (hstep : ids.foldlM turn manager = some next) :
    Table next :=
  foldlM_invariant Table (fun _ _ _ htable hnext => hturn htable hnext) htable hstep

theorem dispatchByIds (htable : Table manager) {throws : Nat → Bool} {ids : SortedSet natLess}
    {exp : Nat} (hstep : manager.dispatchByIds throws ids exp = some next) : Table next := by
  unfold MultiConnManagerVec.dispatchByIds at hstep
  split at hstep
  · refine loop ?_ htable hstep
    intro manager id next htable hturn
    split at hturn
    · exact htable.sendById hturn
    · cases hturn
      exact htable
  · exact loop (fun htable hturn => htable.sendById hturn) htable hstep

theorem handle (htable : Table manager) (hstep : manager.handle = some next) : Table next := by
  obtain ⟨deleted, hdeleted, hnext⟩ := Option.bind_eq_some_iff.mp hstep
  cases hnext
  exact (loop lazyDelete htable hdeleted).reobject rfl rfl
    fun _ _ object hat => ⟨object, hat.2, rfl, rfl⟩

theorem createConn (htable : Table manager) (hstep : manager.createConn conn object = some next) :
    Table next := by
  unfold MultiConnManagerVec.createConn at hstep
  split at hstep
  next => cases hstep
  next hallowed =>
    rw [not_or, not_or, Nat.not_le] at hallowed
    obtain ⟨hfresh, hdescriptor, hsocket⟩ := hallowed
    -- an object of the table exists, and `new` gives the address of none that does
    have hnew : some conn ∉ manager.connects := by
      intro hmem
      obtain ⟨id, hslot⟩ := List.mem_iff_getElem?.mp hmem
      obtain ⟨object, hobject⟩ := htable.object id conn hslot
      exact hfresh (hobject ▸ rfl)
    unfold MultiConnManagerVec.onConnCreate at hstep
    simp only [Function.update_self, Function.update_idem, Option.bind_eq_bind,
      Option.bind_some] at hstep
    split at hstep
    next hfull =>
      cases hstep
      -- a full table is no longer than there are descriptors, so the id does not wrap
      have hlength : manager.connects.length % 2 ^ 32 = manager.connects.length :=
        Nat.mod_eq_of_lt (lt_of_le_of_lt (htable.full hfull) (by decide))
      refine htable.occupy htable.nodup ?_ ?_ hnew hlength hdescriptor hsocket
      · intro id
        rw [hfull]
        simp
      · intro id
        rw [List.getElem?_append]
        split
        next hold => rw [if_neg (Nat.ne_of_lt hold)]
        next hbehind =>
          rw [List.getElem?_singleton]
          by_cases hlast : id = manager.connects.length
          · rw [if_pos hlast, if_pos (by omega)]
          · rw [if_neg hlast, if_neg (by omega), List.getElem?_eq_none (by omega)]
    next fid rest hfree =>
      cases hstep
      have hnodup := htable.nodup
      rw [hfree] at hnodup
      -- a free slot is within the table, so the write at `fid` takes place
      have hslot : manager.connects[fid]? = some none :=
        (htable.free fid).mp (hfree ▸ List.mem_cons_self)
      refine htable.occupy (List.nodup_cons.mp hnodup).2 ?_ ?_ hnew rfl hdescriptor hsocket
      · intro id
        rw [hfree, List.mem_cons]
        constructor
        · intro hrest
          refine ⟨Or.inr hrest, ?_⟩
          rintro rfl
          exact (List.nodup_cons.mp hnodup).1 hrest
        · rintro ⟨hsame | hrest, hdiff⟩
          · exact absurd hsame hdiff
          · exact hrest
      · intro id
        rw [List.getElem?_set]
        by_cases hsame : fid = id
        · rw [if_pos hsame, if_pos hsame.symm, if_pos (List.getElem?_eq_some_iff.mp hslot).1]
        · rw [if_neg hsame, if_neg (Ne.symm hsame)]

theorem outside (htable : Table manager) (hout : some conn ∉ manager.connects)
    (object : Option IConn) :
    Table { manager with objects := Function.update manager.objects conn object } := by
  refine htable.reobject rfl rfl ?_
  intro id conn' object' hat
  have hdiff : conn' ≠ conn := by
    rintro rfl
    exact hout (List.mem_of_getElem? hat.1)
  exact ⟨object', (Function.update_of_ne hdiff _ _).trans hat.2, rfl, rfl⟩

theorem step (htable : Table manager) {event : Event}
    (hstep : manager.step event = some next) : Table next := by
  cases event with
  | createConn conn object => exact htable.createConn hstep
  | eraseConnect conn => exact htable.eraseConnect hstep
  | eraseConnectById id =>
      cases hstep
      exact htable.eraseConnectById id
  | onClose conn =>
      cases conn with
      | none => cases hstep
      | some conn =>
          change manager.eraseConnect (some conn) = some next at hstep
          exact htable.eraseConnect hstep
  | onError conn => exact htable.eraseConnect hstep
  | dispatchById throws cid => exact htable.dispatchById hstep
  | dispatchByIds throws ids exp => exact htable.dispatchByIds hstep
  | delayDelConn conn =>
      cases conn with
      | none =>
          cases hstep
          exact htable
      | some conn =>
          obtain ⟨object, -, hnext⟩ := Option.bind_eq_some_iff.mp hstep
          exact htable.disable hnext
  | handle => exact htable.handle hstep
  | setEnable conn enable => exact htable.setEnable hstep
  | outside conn object =>
      change (if some conn ∈ manager.connects then none else some _) = _ at hstep
      split at hstep
      next => cases hstep
      next hout =>
        cases hstep
        exact htable.outside hout object

end Table

/-! ## What holds of the table -/

structure Integrity (manager : MultiConnManagerVec) : Prop where
  freeList_nodup : manager.freeList.Nodup
  freeList_slots : ∀ id : Nat, id ∈ manager.freeList ↔ manager.connects[id]? = some none
  connId : ∀ (id : Nat) conn, manager.connects[id]? = some (some conn) →
    (manager.objects conn).map IConn.id = some id
  distinct : ∀ conn other, some conn ∈ manager.connects → some other ∈ manager.connects →
    (manager.objects conn).map IConn.id = (manager.objects other).map IConn.id → conn = other

theorem Table.integrity (htable : Table manager) : Integrity manager := by
  have hconnId : ∀ (id : Nat) conn, manager.connects[id]? = some (some conn) →
      (manager.objects conn).map IConn.id = some id := by
    intro id conn hslot
    obtain ⟨object, hobject⟩ := htable.object id conn hslot
    rw [hobject, Option.map_some, htable.id id conn object ⟨hslot, hobject⟩]
  refine ⟨htable.nodup, htable.free, hconnId, ?_⟩
  intro conn other hconn hother hsame
  obtain ⟨id, hslot⟩ := List.mem_iff_getElem?.mp hconn
  obtain ⟨id', hslot'⟩ := List.mem_iff_getElem?.mp hother
  rw [hconnId id conn hslot, hconnId id' other hslot', Option.some.injEq] at hsame
  rw [hsame, hslot', Option.some.injEq, Option.some.injEq] at hslot
  exact hslot.symm

/-- In every run the free list has each free slot once and no other, and every
connection in the table has the index of its slot as its id, which no other has. -/
theorem table_integrity (objects : Address → Option IConn) (events : List Event) :
    Throughout step Integrity (new objects) events := by
  have hkeeps : ∀ manager event next, Table manager → True →
      step manager event = some next → Table next :=
    fun _ _ _ htable _ hstep => htable.step hstep
  exact throughout_of_along hkeeps (fun _ htable => htable.integrity) (new_table objects)
    (along_trivial (new objects) events)

end MultiConnManagerVec

end ServiceFrame
