import ServiceFrame.Core.MultiConnManagerVec

/-! # Lazy deletion

The rounds of `LazyDelConnManager::handle` on `MultiConnManagerVecImp`. A run is watched from
outside: which connections were disabled for deletion, how many there were at each address,
and on which of them `delete` was called.
-/

namespace ServiceFrame.MultiConnManagerVec

open Foundation

/-! ## What an event deletes -/

/-- The pointers that `eraseConnect` deletes. -/
def erased (manager : MultiConnManagerVec) : Option Address → List Address
  | none => []
  | some conn =>
      match manager.objects conn with
      | none => []
      | some object =>
          if manager.connects[object.id]? = some (some conn) then [conn] else []

def erasedById (manager : MultiConnManagerVec) (id : Nat) : List Address :=
  match manager.connects[id]? with
  | some (some conn) => [conn]
  | _ => []

/-- The pointers that one turn of the loop of `handle` deletes. -/
def lazyErased (manager : MultiConnManagerVec) (id : Nat) : List Address :=
  match manager.getConnectById id with
  | none => []
  | some conn =>
      match manager.objects conn with
      | none => []
      | some object => if object.bEnable then [] else manager.erased (some conn)

/-- The pointers that the loop deletes, turn by turn. -/
def lazyDeletes (manager : MultiConnManagerVec) : List Nat → List Address
  | [] => []
  | id :: rest => manager.lazyErased id ++
      match manager.lazyDelete id with
      | none => []
      | some next => lazyDeletes next rest

/-- The pointers that a timer round deletes. -/
def roundDeletes (manager : MultiConnManagerVec) : List Address :=
  manager.lazyDeletes manager.toDelete.elems

def deletes (manager : MultiConnManagerVec) : Event → List Address
  | .eraseConnect conn | .onClose conn | .onError conn => manager.erased conn
  | .eraseConnectById id => manager.erasedById id
  | .handle => manager.roundDeletes
  | .createConn _ _ | .dispatchById _ _ | .dispatchByIds _ _ _ | .delayDelConn _
  | .setEnable _ _ | .outside _ _ => []

/-! ## Watching a run -/

/-- The ids to which `dispatchByIds` sends and whose send throws. -/
def thrown (throws : Nat → Bool) (ids : SortedSet natLess) (exp : Nat) : List Nat :=
  ids.elems.filter fun id => throws id && (exp == NONEEXP_CID || exp != id)

/-- The connections that a dispatch that fails, or `DelayDelConn`, disables. -/
def disables (manager : MultiConnManagerVec) : Event → List Address
  | .dispatchById throws cid => if throws then (manager.getConnectById cid).toList else []
  | .dispatchByIds throws ids exp => (thrown throws ids exp).filterMap manager.getConnectById
  | .delayDelConn conn => conn.toList
  | .createConn _ _ | .eraseConnect _ | .eraseConnectById _ | .onClose _ | .onError _ | .handle
  | .setEnable _ _ | .outside _ _ => []

/-- The addresses at which the event puts another connection. -/
def born : Event → List Address
  | .createConn conn _ | .outside conn (some _) => [conn]
  | .outside _ none | .eraseConnect _ | .eraseConnectById _ | .onClose _ | .onError _
  | .dispatchById _ _ | .dispatchByIds _ _ _ | .delayDelConn _ | .handle | .setEnable _ _ => []

/-- The addresses whose connection is another one after the event, or enabled by it. -/
def renewed : Event → List Address
  | .createConn conn _ | .outside conn _ | .setEnable conn true => [conn]
  | .setEnable _ false | .eraseConnect _ | .eraseConnectById _ | .onClose _ | .onError _
  | .dispatchById _ _ | .dispatchByIds _ _ _ | .delayDelConn _ | .handle => []

structure Watched where
  manager : MultiConnManagerVec
  /-- Disabled by a dispatch that failed or by `DelayDelConn`; not deleted or enabled since. -/
  doomed : List Address
  /-- How many connections there have been at an address. -/
  births : Address → Nat
  /-- The connections deleted so far: the address, and which of those there. -/
  deleted : List (Address × Nat)

def watch (manager : MultiConnManagerVec) : Watched where
  manager := manager
  doomed := []
  births := fun _ => 0
  deleted := []

def Watched.step (watched : Watched) (event : Event) : Option Watched := do
  let deletes := watched.manager.deletes event
  let next ← watched.manager.step event
  some {
    manager := next
    doomed := (watched.doomed ++ watched.manager.disables event).filter
      fun conn => conn ∉ deletes ∧ conn ∉ renewed event
    births := fun conn => watched.births conn + if conn ∈ born event then 1 else 0
    deleted := watched.deleted ++ deletes.map fun conn => (conn, watched.births conn) }

/-! ## What a connection keeps -/

variable {manager middle next : MultiConnManagerVec} {id : Nat} {conn : Address} {object : IConn}

section Related

variable {rel : MultiConnManagerVec → MultiConnManagerVec → Prop}
  (hrefl : ∀ manager, rel manager manager)
  (hdisable : ∀ {manager next : MultiConnManagerVec} {id : Nat} {conn : Address},
    manager.disable id conn = some next → rel manager next)

include hrefl hdisable

/-- A send disables its connection, or leaves all as it is. -/
theorem sendById_related {throws : Nat → Bool} (hstep : manager.sendById throws id = some next) :
    rel manager next := by
  unfold sendById at hstep
  split at hstep
  · split at hstep
    · exact hdisable hstep
    · cases hstep
      exact hrefl manager
  · cases hstep
    exact hrefl manager

theorem dispatchById_related (hdelay : ∀ manager id, rel manager (manager.delay id))
    {throws : Bool} (hstep : manager.dispatchById throws id = some next) : rel manager next := by
  unfold dispatchById at hstep
  split at hstep
  · split at hstep
    · exact hdisable hstep
    · cases hstep
      exact hrefl manager
  · cases hstep
    exact hdelay manager id

theorem dispatchByIds_related
    (htrans : ∀ {first second third}, rel first second → rel second third → rel first third)
    {throws : Nat → Bool} {ids : SortedSet natLess} {exp : Nat}
    (hstep : manager.dispatchByIds throws ids exp = some next) : rel manager next := by
  unfold dispatchByIds at hstep
  split at hstep
  · refine foldlM_related hrefl htrans (fun manager id next hturn => ?_) hstep
    split at hturn
    · exact sendById_related hrefl hdisable hturn
    · cases hturn
      exact hrefl manager
  · exact foldlM_related hrefl htrans
      (fun _ _ _ hturn => sendById_related hrefl hdisable hturn) hstep

end Related

/-- `conn` is in no other slot than before, and is enabled only if it was. -/
structure Keeps (conn : Address) (manager next : MultiConnManagerVec) : Prop where
  slot : ∀ id : Nat, next.connects[id]? = some (some conn) →
    manager.connects[id]? = some (some conn)
  object : ∀ object', next.objects conn = some object' →
    ∃ object, manager.objects conn = some object ∧
      (object.bEnable = false → object'.bEnable = false)

namespace Keeps

theorem refl (conn : Address) (manager : MultiConnManagerVec) : Keeps conn manager manager :=
  ⟨fun _ hslot => hslot, fun object hobject => ⟨object, hobject, fun hdisabled => hdisabled⟩⟩

theorem trans (hfirst : Keeps conn manager middle) (hsecond : Keeps conn middle next) :
    Keeps conn manager next := by
  refine ⟨fun id hslot => hfirst.slot id (hsecond.slot id hslot), ?_⟩
  intro object' hobject'
  obtain ⟨between, hbetween, hlater⟩ := hsecond.object object' hobject'
  obtain ⟨object, hobject, hearlier⟩ := hfirst.object between hbetween
  exact ⟨object, hobject, fun hdisabled => hlater (hearlier hdisabled)⟩

theorem delay (conn : Address) (manager : MultiConnManagerVec) (id : Nat) :
    Keeps conn manager (manager.delay id) :=
  ⟨fun _ hslot => hslot, fun object hobject => ⟨object, hobject, fun hdisabled => hdisabled⟩⟩

/-- A call of `setEnable` on another connection, or with `false`. -/
theorem setEnable {other : Address} {enable : Bool} (hkeeps : conn = other → enable = false)
    (hstep : manager.setEnable other enable = some next) : Keeps conn manager next := by
  obtain ⟨found, hfound, hnext⟩ := Option.bind_eq_some_iff.mp hstep
  cases hnext
  refine ⟨fun _ hslot => hslot, ?_⟩
  intro object' hobject'
  by_cases hsame : conn = other
  · subst hsame
    change Function.update _ _ _ _ = _ at hobject'
    rw [Function.update_self] at hobject'
    cases hobject'
    exact ⟨found, hfound, fun _ => hkeeps rfl⟩
  · change Function.update _ _ _ _ = _ at hobject'
    rw [Function.update_of_ne hsame] at hobject'
    exact ⟨object', hobject', fun hdisabled => hdisabled⟩

theorem disable {other : Address} (hstep : manager.disable id other = some next) :
    Keeps conn manager next := by
  obtain ⟨disabled, hdisabled, hnext⟩ := Option.bind_eq_some_iff.mp hstep
  cases hnext
  exact (setEnable (fun _ => rfl) hdisabled).trans (delay conn disabled id)

theorem release {other : Address} : Keeps conn manager (manager.release id other) := by
  constructor
  · intro slot hslot
    change (manager.connects.set id none)[slot]? = _ at hslot
    rw [List.getElem?_set] at hslot
    split at hslot
    · split at hslot
      · cases hslot
      · cases hslot
    · exact hslot
  · intro object' hobject'
    change Function.update _ _ _ _ = _ at hobject'
    by_cases hsame : conn = other
    · rw [hsame, Function.update_self] at hobject'
      cases hobject'
    · rw [Function.update_of_ne hsame] at hobject'
      exact ⟨object', hobject', fun hdisabled => hdisabled⟩

/-- A loop keeps what each of its turns does. -/
theorem loop {turn : MultiConnManagerVec → Nat → Option MultiConnManagerVec}
    (hturn : ∀ {manager id next}, turn manager id = some next → Keeps conn manager next)
    {ids : List Nat} (hstep : ids.foldlM turn manager = some next) : Keeps conn manager next :=
  foldlM_related (refl conn) trans (fun _ _ _ hnext => hturn hnext) hstep

theorem eraseConnect {other : Option Address} (hstep : manager.eraseConnect other = some next) :
    Keeps conn manager next := by
  cases other with
  | none =>
      cases hstep
      exact refl conn manager
  | some other =>
      obtain ⟨object, hobject, hnext⟩ := Option.bind_eq_some_iff.mp hstep
      split at hnext
      · cases hnext
        exact release
      · cases hnext
        exact refl conn manager

theorem eraseConnectById (id : Nat) : Keeps conn manager (manager.eraseConnectById id) := by
  unfold MultiConnManagerVec.eraseConnectById
  split
  · exact release
  · exact refl conn manager

theorem lazyDelete (hstep : manager.lazyDelete id = some next) : Keeps conn manager next := by
  unfold MultiConnManagerVec.lazyDelete at hstep
  split at hstep
  · cases hstep
    exact refl conn manager
  · obtain ⟨object, -, hnext⟩ := Option.bind_eq_some_iff.mp hstep
    split at hnext
    · cases hnext
      exact refl conn manager
    · exact eraseConnect hnext

theorem createConn {other : Address} (hdiff : conn ≠ other)
    (hstep : manager.createConn other object = some next) : Keeps conn manager next := by
  have hobjects : ∀ {created : Option IConn} {object' : IConn},
      Function.update manager.objects other created conn = some object' →
        ∃ object, manager.objects conn = some object ∧
          (object.bEnable = false → object'.bEnable = false) := by
    intro created object' hobject'
    rw [Function.update_of_ne hdiff] at hobject'
    exact ⟨object', hobject', fun hdisabled => hdisabled⟩
  unfold MultiConnManagerVec.createConn at hstep
  split at hstep
  · cases hstep
  · unfold MultiConnManagerVec.onConnCreate at hstep
    simp only [Function.update_self, Function.update_idem, Option.bind_eq_bind,
      Option.bind_some] at hstep
    split at hstep
    next hfull =>
      cases hstep
      refine ⟨fun slot hslot => ?_, fun object' => hobjects⟩
      change (manager.connects ++ [some other])[slot]? = _ at hslot
      rw [List.getElem?_append] at hslot
      split at hslot
      · exact hslot
      · rw [List.getElem?_singleton] at hslot
        split at hslot
        · cases hslot
          exact absurd rfl hdiff
        · cases hslot
    next fid rest hfree =>
      cases hstep
      refine ⟨fun slot hslot => ?_, fun object' => hobjects⟩
      change (manager.connects.set fid (some other))[slot]? = _ at hslot
      rw [List.getElem?_set] at hslot
      split at hslot
      · split at hslot
        · cases hslot
          exact absurd rfl hdiff
        · cases hslot
      · exact hslot

theorem outside {other : Address} (hdiff : conn ≠ other) (object : Option IConn) :
    Keeps conn manager
      { manager with objects := Function.update manager.objects other object } := by
  refine ⟨fun _ hslot => hslot, fun object' hobject' => ?_⟩
  change Function.update manager.objects other object conn = _ at hobject'
  rw [Function.update_of_ne hdiff] at hobject'
  exact ⟨object', hobject', fun hdisabled => hdisabled⟩

theorem handle (hstep : manager.handle = some next) : Keeps conn manager next := by
  obtain ⟨deleted, hdeleted, hnext⟩ := Option.bind_eq_some_iff.mp hstep
  cases hnext
  have hloop : Keeps conn manager deleted := loop lazyDelete hdeleted
  exact ⟨hloop.slot, hloop.object⟩

theorem dispatchByIds {throws : Nat → Bool} {ids : SortedSet natLess} {exp : Nat}
    (hstep : manager.dispatchByIds throws ids exp = some next) : Keeps conn manager next :=
  dispatchByIds_related (refl conn) disable trans hstep

theorem dispatchById {throws : Bool} (hstep : manager.dispatchById throws id = some next) :
    Keeps conn manager next :=
  dispatchById_related (refl conn) disable (delay conn) hstep

/-- No event but those that renew a connection gives it a slot or enables it. -/
theorem step {event : Event} (hold : conn ∉ renewed event)
    (hstep : manager.step event = some next) : Keeps conn manager next := by
  cases event with
  | createConn other object => exact createConn (List.ne_of_not_mem_cons hold) hstep
  | eraseConnect other => exact eraseConnect hstep
  | eraseConnectById id =>
      cases hstep
      exact eraseConnectById id
  | onClose other =>
      cases other with
      | none => cases hstep
      | some other =>
          change manager.eraseConnect (some other) = some next at hstep
          exact eraseConnect hstep
  | onError other => exact eraseConnect hstep
  | dispatchById throws cid => exact dispatchById hstep
  | dispatchByIds throws ids exp => exact dispatchByIds hstep
  | delayDelConn other =>
      cases other with
      | none =>
          cases hstep
          exact refl conn manager
      | some other =>
          obtain ⟨object, -, hnext⟩ := Option.bind_eq_some_iff.mp hstep
          exact disable hnext
  | handle => exact handle hstep
  | setEnable other enable =>
      refine setEnable ?_ hstep
      rintro rfl
      cases enable with
      | false => rfl
      | true => exact absurd List.mem_cons_self hold
  | outside other object =>
      change (if some other ∈ manager.connects then none else some _) = _ at hstep
      split at hstep
      next => cases hstep
      next hout =>
        cases hstep
        exact outside (List.ne_of_not_mem_cons hold) object

end Keeps

/-! ## What a deletion does -/

/-- `delete` was called once on each of `gone`, on an object that existed, and on nothing
else. -/
structure Deletes (gone : List Address) (manager next : MultiConnManagerVec) : Prop where
  once : gone.Nodup
  existed : ∀ conn ∈ gone, ∃ object, manager.objects conn = some object
  objects : ∀ conn, next.objects conn = if conn ∈ gone then none else manager.objects conn

/-- One turn of the loop of `handle` does nothing, or deletes a connection that is disabled. -/
theorem lazyDelete_cases (hstep : manager.lazyDelete id = some next) :
    (manager.lazyErased id = [] ∧ next = manager) ∨
      ∃ conn object, manager.At object.id conn object ∧ object.bEnable = false ∧
        manager.lazyErased id = [conn] ∧ next = manager.release object.id conn := by
  unfold MultiConnManagerVec.lazyDelete at hstep
  unfold lazyErased
  cases hconn : manager.getConnectById id with
  | none =>
      rw [hconn] at hstep
      cases hstep
      exact Or.inl ⟨rfl, rfl⟩
  | some conn =>
      rw [hconn] at hstep
      obtain ⟨object, hobject, hnext⟩ := Option.bind_eq_some_iff.mp hstep
      simp only [hobject, erased]
      split at hnext
      next henabled =>
        cases hnext
        exact Or.inl ⟨if_pos henabled, rfl⟩
      next hdisabled =>
        rw [if_neg hdisabled]
        obtain ⟨found, hfound, hnext⟩ := Option.bind_eq_some_iff.mp hnext
        cases hobject.symm.trans hfound
        split at hnext
        next hslot =>
          cases hnext
          rw [if_pos hslot]
          refine Or.inr ⟨conn, object, ⟨hslot, hobject⟩, ?_, rfl, rfl⟩
          exact Bool.eq_false_iff.mpr hdisabled
        next hslot =>
          cases hnext
          rw [if_neg hslot]
          exact Or.inl ⟨rfl, rfl⟩

namespace Deletes

theorem refl (manager : MultiConnManagerVec) : Deletes [] manager manager :=
  ⟨List.nodup_nil, by simp, by simp⟩

theorem append {gone later : List Address} (hfirst : Deletes gone manager middle)
    (hsecond : Deletes later middle next) : Deletes (gone ++ later) manager next := by
  -- what is gone already does not exist for the later deletions
  have hexists : ∀ conn ∈ later, conn ∉ gone ∧ ∃ object, manager.objects conn = some object := by
    intro conn hlater
    obtain ⟨object, hobject⟩ := hsecond.existed conn hlater
    rw [hfirst.objects] at hobject
    split at hobject
    · cases hobject
    next hkept => exact ⟨hkept, object, hobject⟩
  refine ⟨?_, ?_, ?_⟩
  · refine List.nodup_append.mpr ⟨hfirst.once, hsecond.once, ?_⟩
    rintro conn hgone other hlater rfl
    exact (hexists conn hlater).1 hgone
  · intro conn hmem
    rcases List.mem_append.mp hmem with hgone | hlater
    · exact hfirst.existed conn hgone
    · exact (hexists conn hlater).2
  · intro conn
    rw [hsecond.objects, hfirst.objects]
    by_cases hgone : conn ∈ gone
    · simp [hgone]
    · simp [hgone]

theorem release (hobject : manager.objects conn = some object) (id : Nat) :
    Deletes [conn] manager (manager.release id conn) := by
  refine ⟨List.nodup_singleton conn, ?_, ?_⟩
  · intro other hother
    rw [List.mem_singleton.mp hother]
    exact ⟨object, hobject⟩
  · intro other
    simp only [List.mem_singleton]
    split
    next hsame => exact hsame ▸ Function.update_self _ _ _
    next hdiff => exact Function.update_of_ne hdiff _ _

theorem eraseConnect {other : Option Address} (hstep : manager.eraseConnect other = some next) :
    Deletes (manager.erased other) manager next := by
  cases other with
  | none =>
      cases hstep
      exact refl manager
  | some other =>
      obtain ⟨object, hobject, hnext⟩ := Option.bind_eq_some_iff.mp hstep
      simp only [erased, hobject]
      split at hnext
      next hslot =>
        cases hnext
        rw [if_pos hslot]
        exact release hobject object.id
      next hslot =>
        cases hnext
        rw [if_neg hslot]
        exact refl manager

theorem eraseConnectById (htable : Table manager) (id : Nat) :
    Deletes (manager.erasedById id) manager (manager.eraseConnectById id) := by
  unfold MultiConnManagerVec.eraseConnectById erasedById
  cases hslot : manager.connects[id]? with
  | none => exact refl manager
  | some slot =>
      cases slot with
      | none => exact refl manager
      | some conn =>
          obtain ⟨object, hobject⟩ := htable.object id conn hslot
          exact release hobject id

theorem lazyDelete (hstep : manager.lazyDelete id = some next) :
    Deletes (manager.lazyErased id) manager next := by
  rcases lazyDelete_cases hstep with ⟨hnone, rfl⟩ | ⟨conn, object, hat, -, herased, rfl⟩
  · rw [hnone]
    exact refl _
  · rw [herased]
    exact release hat.2 object.id

theorem lazyDeletes {ids : List Nat}
    (hstep : ids.foldlM MultiConnManagerVec.lazyDelete manager = some next) :
    Deletes (manager.lazyDeletes ids) manager next := by
  induction ids generalizing manager with
  | nil =>
      cases hstep
      exact refl _
  | cons id rest ih =>
      rw [List.foldlM_cons] at hstep
      obtain ⟨middle, hmiddle, hrest⟩ := Option.bind_eq_some_iff.mp hstep
      rw [MultiConnManagerVec.lazyDeletes, hmiddle]
      exact (lazyDelete hmiddle).append (ih hrest)

theorem handle (hstep : manager.handle = some next) :
    Deletes manager.roundDeletes manager next := by
  obtain ⟨deleted, hdeleted, hnext⟩ := Option.bind_eq_some_iff.mp hstep
  cases hnext
  have hloop := lazyDeletes hdeleted
  exact ⟨hloop.once, hloop.existed, hloop.objects⟩

end Deletes

/-- An event calls `delete` at most once for each connection, and only for those that exist. -/
theorem deletes_step (htable : Table manager) {event : Event}
    (hstep : manager.step event = some next) :
    (manager.deletes event).Nodup ∧
      (∀ conn ∈ manager.deletes event, ∃ object, manager.objects conn = some object) ∧
      ∀ conn ∈ manager.deletes event, next.objects conn = none := by
  have hnothing : ([] : List Address).Nodup ∧
      (∀ conn ∈ ([] : List Address), ∃ object, manager.objects conn = some object) ∧
      ∀ conn ∈ ([] : List Address), next.objects conn = none := by simp
  have hgone : ∀ {gone}, Deletes gone manager next → gone.Nodup ∧
      (∀ conn ∈ gone, ∃ object, manager.objects conn = some object) ∧
      ∀ conn ∈ gone, next.objects conn = none := by
    intro gone hdeletes
    refine ⟨hdeletes.once, hdeletes.existed, ?_⟩
    intro conn hconn
    rw [hdeletes.objects, if_pos hconn]
  cases event with
  | eraseConnect conn => exact hgone (Deletes.eraseConnect hstep)
  | eraseConnectById id =>
      cases hstep
      exact hgone (Deletes.eraseConnectById htable id)
  | onClose conn =>
      cases conn with
      | none => cases hstep
      | some conn =>
          change manager.eraseConnect (some conn) = some next at hstep
          exact hgone (Deletes.eraseConnect hstep)
  | onError conn => exact hgone (Deletes.eraseConnect hstep)
  | handle => exact hgone (Deletes.handle hstep)
  | createConn conn object => exact hnothing
  | dispatchById throws cid => exact hnothing
  | dispatchByIds throws ids exp => exact hnothing
  | delayDelConn conn => exact hnothing
  | setEnable conn enable => exact hnothing
  | outside conn object => exact hnothing

/-- Where no connection is, there is none until one is put there. -/
theorem absent_step {event : Event} (hborn : conn ∉ born event)
    (habsent : manager.objects conn = none) (hstep : manager.step event = some next) :
    next.objects conn = none := by
  by_cases hrenewed : conn ∈ renewed event
  · cases event with
    | createConn other object => exact absurd hrenewed hborn
    | setEnable other enable =>
        cases enable with
        | false => cases hrenewed
        | true =>
            rw [List.mem_singleton.mp hrenewed] at habsent
            obtain ⟨object, hobject, -⟩ := Option.bind_eq_some_iff.mp hstep
            rw [habsent] at hobject
            cases hobject
    | outside other object =>
        cases object with
        | some object => exact absurd hrenewed hborn
        | none =>
            change (if some other ∈ manager.connects then none else some _) = _ at hstep
            split at hstep
            · cases hstep
            · cases hstep
              rw [List.mem_singleton.mp hrenewed]
              exact Function.update_self _ _ _
    | _ => cases hrenewed
  · cases hobject : next.objects conn with
    | none => rfl
    | some object =>
        obtain ⟨old, hold, -⟩ := (Keeps.step hrenewed hstep).object object hobject
        rw [habsent] at hold
        cases hold

/-! ## The rounds -/

theorem Table.lazyDelete_some (htable : Table manager) (id : Nat) :
    ∃ next, manager.lazyDelete id = some next := by
  unfold MultiConnManagerVec.lazyDelete
  cases hconn : manager.getConnectById id with
  | none => exact ⟨manager, rfl⟩
  | some conn =>
      have hslot : manager.connects[id]? = some (some conn) := Option.join_eq_some_iff.mp hconn
      obtain ⟨object, hobject⟩ := htable.object id conn hslot
      simp only [hobject, Option.bind_eq_bind, Option.bind_some, MultiConnManagerVec.eraseConnect]
      split
      · exact ⟨_, rfl⟩
      · split
        · exact ⟨_, rfl⟩
        · exact ⟨_, rfl⟩

/-- On a table in order a round uses no pointer to a deleted connection. -/
theorem Table.handle_some (htable : Table manager) : ∃ next, manager.handle = some next := by
  have hturn : ∀ (manager : MultiConnManagerVec) id, Table manager →
      ∃ next, manager.lazyDelete id = some next ∧ Table next := by
    intro manager id htable
    obtain ⟨next, hnext⟩ := htable.lazyDelete_some id
    exact ⟨next, hnext, htable.lazyDelete hnext⟩
  obtain ⟨deleted, hdeleted, -⟩ := foldlM_total Table hturn htable manager.toDelete.elems
  refine ⟨{ deleted with toDelete := .empty }, ?_⟩
  rw [MultiConnManagerVec.handle, hdeleted]
  rfl

theorem disabled_of_mem_lazyErased (hmem : conn ∈ manager.lazyErased id) :
    ∃ object, manager.objects conn = some object ∧ object.bEnable = false := by
  unfold lazyErased at hmem
  split at hmem
  · cases hmem
  next found hfound =>
    split at hmem
    · cases hmem
    next object hobject =>
      split at hmem
      · cases hmem
      next hdisabled =>
        simp only [erased, hobject] at hmem
        split at hmem
        · rw [List.mem_singleton.mp hmem]
          exact ⟨object, hobject, Bool.eq_false_iff.mpr hdisabled⟩
        · cases hmem

/-- A round deletes no connection that is enabled. -/
theorem disabled_of_mem_lazyDeletes {ids : List Nat} (hmem : conn ∈ manager.lazyDeletes ids) :
    ∃ object, manager.objects conn = some object ∧ object.bEnable = false := by
  induction ids generalizing manager with
  | nil => cases hmem
  | cons id rest ih =>
      rcases List.mem_append.mp hmem with hhead | hrest
      · exact disabled_of_mem_lazyErased hhead
      · split at hrest
        · cases hrest
        next middle hmiddle =>
          -- what the first turn leaves is as it was
          obtain ⟨object, hobject, hdisabled⟩ := ih hrest
          rw [(Deletes.lazyDelete hmiddle).objects] at hobject
          split at hobject
          · cases hobject
          · exact ⟨object, hobject, hdisabled⟩

/-- A connection that a turn does not delete stays where it is. -/
theorem at_lazyDelete {other : Nat} (hstep : manager.lazyDelete other = some next)
    (hkept : conn ∉ manager.lazyErased other) (hat : manager.At id conn object) :
    next.At id conn object := by
  rcases lazyDelete_cases hstep with ⟨-, rfl⟩ | ⟨gone, found, hgone, -, herased, rfl⟩
  · exact hat
  · have hdiff : conn ≠ gone := by
      rintro rfl
      exact hkept (herased ▸ List.mem_cons_self)
    refine ⟨?_, (Function.update_of_ne hdiff _ _).trans hat.2⟩
    change (manager.connects.set found.id none)[id]? = _
    rw [List.getElem?_set_ne]
    · exact hat.1
    · intro hsame
      have hslot := hgone.1
      rw [hsame, hat.1, Option.some.injEq, Option.some.injEq] at hslot
      exact hdiff hslot

/-- A round deletes every connection with a pending id that is disabled. -/
theorem mem_lazyDeletes {ids : List Nat} (htable : Table manager) (hid : id ∈ ids)
    (hat : manager.At id conn object) (hdisabled : object.bEnable = false) :
    conn ∈ manager.lazyDeletes ids := by
  induction ids generalizing manager with
  | nil => cases hid
  | cons first rest ih =>
      obtain ⟨middle, hmiddle⟩ := htable.lazyDelete_some first
      rw [lazyDeletes, hmiddle, List.mem_append]
      by_cases hfirst : conn ∈ manager.lazyErased first
      · exact Or.inl hfirst
      · right
        refine ih (htable.lazyDelete hmiddle) ?_ (at_lazyDelete hmiddle hfirst hat)
        rcases List.mem_cons.mp hid with rfl | hrest
        · -- its own turn would delete it
          refine absurd ?_ hfirst
          have hconn : manager.getConnectById id = some conn := by
            rw [getConnectById, hat.1]
            rfl
          simp only [lazyErased, hconn, hat.2, hdisabled, Bool.false_eq_true, if_false, erased]
          rw [if_pos (by rw [htable.id id conn object hat]; exact hat.1)]
          exact List.mem_cons_self
        · exact hrest

/-! ## What is doomed -/

/-- The connection is pending: its id waits for the next round, and it is disabled. -/
def Pending (manager : MultiConnManagerVec) (conn : Address) : Prop :=
  ∀ id : Nat, manager.connects[id]? = some (some conn) → id ∈ manager.toDelete.elems ∧
    ∀ object, manager.objects conn = some object → object.bEnable = false

/-- A connection that an event keeps stays pending as long as the pending ids do. -/
theorem Pending.of_keeps (hpending : Pending manager conn) (hkeeps : Keeps conn manager next)
    (hmore : ∀ id ∈ manager.toDelete.elems, id ∈ next.toDelete.elems) : Pending next conn := by
  intro id hslot
  obtain ⟨hid, hdisabled⟩ := hpending id (hkeeps.slot id hslot)
  refine ⟨hmore id hid, fun object' hobject' => ?_⟩
  obtain ⟨object, hobject, hstays⟩ := hkeeps.object object' hobject'
  exact hstays (hdisabled object hobject)

/-- What sending, and disabling what cannot be sent to, leaves of the table. -/
structure Sends (manager next : MultiConnManagerVec) : Prop where
  connects : next.connects = manager.connects
  more : ∀ id ∈ manager.toDelete.elems, id ∈ next.toDelete.elems
  keeps : ∀ conn, Keeps conn manager next
  table : Table manager → Table next

namespace Sends

theorem refl (manager : MultiConnManagerVec) : Sends manager manager :=
  ⟨rfl, fun _ hid => hid, fun conn => Keeps.refl conn manager, fun htable => htable⟩

theorem trans (hfirst : Sends manager middle) (hsecond : Sends middle next) :
    Sends manager next where
  connects := hsecond.connects.trans hfirst.connects
  more := fun id hid => hsecond.more id (hfirst.more id hid)
  keeps := fun conn => (hfirst.keeps conn).trans (hsecond.keeps conn)
  table := fun htable => hsecond.table (hfirst.table htable)

theorem delay (manager : MultiConnManagerVec) (id : Nat) : Sends manager (manager.delay id) where
  connects := rfl
  more := fun _ hid => mem_insertElem_natLess.mpr (Or.inr hid)
  keeps := fun conn => Keeps.delay conn manager id
  table := fun htable => htable.delay id

theorem disable (hstep : manager.disable id conn = some next) : Sends manager next := by
  obtain ⟨disabled, hdisabled, hnext⟩ := Option.bind_eq_some_iff.mp hstep
  cases hnext
  obtain ⟨object, hobject, hset⟩ := Option.bind_eq_some_iff.mp hdisabled
  cases hset
  refine ⟨rfl, fun _ hid => mem_insertElem_natLess.mpr (Or.inr hid), ?_, ?_⟩
  · exact fun conn => Keeps.disable hstep
  · exact fun htable => htable.disable hstep

theorem sendById {throws : Nat → Bool} (hstep : manager.sendById throws id = some next) :
    Sends manager next :=
  sendById_related refl disable hstep

theorem dispatchById {throws : Bool} (hstep : manager.dispatchById throws id = some next) :
    Sends manager next :=
  dispatchById_related refl disable delay hstep

theorem dispatchByIds {throws : Nat → Bool} {ids : SortedSet natLess} {exp : Nat}
    (hstep : manager.dispatchByIds throws ids exp = some next) : Sends manager next :=
  dispatchByIds_related refl disable trans hstep

end Sends

/-- A connection disabled under the id of its slot is pending. -/
theorem pending_disable (hid : ∀ slot : Nat, manager.connects[slot]? = some (some conn) → slot = id)
    (hstep : manager.disable id conn = some next) : Pending next conn := by
  obtain ⟨disabled, hdisabled, hnext⟩ := Option.bind_eq_some_iff.mp hstep
  cases hnext
  obtain ⟨object, hobject, hset⟩ := Option.bind_eq_some_iff.mp hdisabled
  cases hset
  intro slot hslot
  refine ⟨mem_insertElem_natLess.mpr (Or.inl (hid slot hslot)), ?_⟩
  intro object' hobject'
  change Function.update _ _ _ _ = _ at hobject'
  rw [Function.update_self] at hobject'
  cases hobject'
  rfl

theorem Table.slot_of_getConnectById (htable : Table manager)
    (hconn : manager.getConnectById id = some conn) (slot : Nat)
    (hslot : manager.connects[slot]? = some (some conn)) : slot = id :=
  htable.slot_eq hslot (Option.join_eq_some_iff.mp hconn)

/-- A connection whose turn in a loop of sends leaves it pending is pending after the loop. -/
theorem pending_loop {turn : MultiConnManagerVec → Nat → Option MultiConnManagerVec}
    (hturn : ∀ {manager id next}, turn manager id = some next → Sends manager next)
    (hpends : ∀ {manager next}, Table manager → manager.getConnectById id = some conn →
      turn manager id = some next → Pending next conn)
    {ids : List Nat} (htable : Table manager) (hid : id ∈ ids)
    (hconn : manager.getConnectById id = some conn)
    (hstep : ids.foldlM turn manager = some next) : Pending next conn := by
  induction ids generalizing manager with
  | nil => cases hid
  | cons first rest ih =>
      rw [List.foldlM_cons] at hstep
      obtain ⟨middle, hmiddle, hrest⟩ := Option.bind_eq_some_iff.mp hstep
      have hsends := hturn hmiddle
      rcases List.mem_cons.mp hid with rfl | hlater
      · have hrests : Sends middle next :=
          foldlM_related Sends.refl Sends.trans (fun _ _ _ hnext => hturn hnext) hrest
        exact (hpends htable hconn hmiddle).of_keeps (hrests.keeps conn) hrests.more
      · refine ih (hsends.table htable) hlater ?_ hrest
        rw [getConnectById, hsends.connects]
        exact hconn

theorem pending_sendById {throws : Nat → Bool} (hthrows : throws id = true)
    (htable : Table manager) (hconn : manager.getConnectById id = some conn)
    (hstep : manager.sendById throws id = some next) : Pending next conn := by
  unfold MultiConnManagerVec.sendById at hstep
  simp only [hconn, hthrows, if_true] at hstep
  exact pending_disable (htable.slot_of_getConnectById hconn) hstep

/-- What a dispatch that fails, or `DelayDelConn`, disables is pending then. -/
theorem pending_of_disables (htable : Table manager) {event : Event}
    (hmem : conn ∈ manager.disables event) (hstep : manager.step event = some next) :
    Pending next conn := by
  cases event with
  | dispatchById throws cid =>
      cases throws with
      | false => cases hmem
      | true =>
          have hconn : manager.getConnectById cid = some conn := Option.mem_toList.mp hmem
          change manager.dispatchById true cid = some next at hstep
          unfold MultiConnManagerVec.dispatchById at hstep
          simp only [hconn, if_true] at hstep
          exact pending_disable (htable.slot_of_getConnectById hconn) hstep
  | dispatchByIds throws ids exp =>
      obtain ⟨id, hthrown, hconn⟩ := List.mem_filterMap.mp hmem
      obtain ⟨hid, hsent⟩ := List.mem_filter.mp hthrown
      simp only [Bool.and_eq_true, Bool.or_eq_true, beq_iff_eq, bne_iff_ne] at hsent
      obtain ⟨hthrows, hsent⟩ := hsent
      change manager.dispatchByIds throws ids exp = some next at hstep
      unfold MultiConnManagerVec.dispatchByIds at hstep
      split at hstep
      next hexp =>
        refine pending_loop ?_ ?_ htable hid hconn hstep
        · intro manager id next hturn
          split at hturn
          · exact Sends.sendById hturn
          · cases hturn
            exact Sends.refl _
        · intro manager next htable hconn hturn
          rw [if_pos (hsent.resolve_left hexp)] at hturn
          exact pending_sendById hthrows htable hconn hturn
      next hexp =>
        refine pending_loop (fun hturn => ?_) (fun htable hconn hturn => ?_) htable hid hconn hstep
        · exact Sends.sendById hturn
        · exact pending_sendById hthrows htable hconn hturn
  | delayDelConn other =>
      cases other with
      | none => cases hmem
      | some other =>
          cases List.mem_singleton.mp hmem
          obtain ⟨object, hobject, hnext⟩ := Option.bind_eq_some_iff.mp hstep
          refine pending_disable (fun slot hslot => ?_) hnext
          exact (htable.id slot conn object ⟨hslot, hobject⟩).symm
  | _ => cases hmem

theorem toDelete_eraseConnect {other : Option Address}
    (hstep : manager.eraseConnect other = some next) : next.toDelete = manager.toDelete := by
  cases other with
  | none =>
      cases hstep
      rfl
  | some other =>
      obtain ⟨object, -, hnext⟩ := Option.bind_eq_some_iff.mp hstep
      split at hnext
      · cases hnext
        rfl
      · cases hnext
        rfl

theorem toDelete_createConn (hstep : manager.createConn conn object = some next) :
    next.toDelete = manager.toDelete := by
  unfold MultiConnManagerVec.createConn at hstep
  split at hstep
  · cases hstep
  · obtain ⟨created, -, hnext⟩ := Option.bind_eq_some_iff.mp hstep
    dsimp only at hnext
    split at hnext
    · cases hnext
      rfl
    · cases hnext
      rfl

/-- The pending ids are dropped by a round only. -/
theorem more_step {event : Event} (hround : event ≠ .handle)
    (hstep : manager.step event = some next) :
    ∀ id ∈ manager.toDelete.elems, id ∈ next.toDelete.elems := by
  have hsame : next.toDelete = manager.toDelete →
      ∀ id ∈ manager.toDelete.elems, id ∈ next.toDelete.elems := by
    intro hsame id hid
    rw [hsame]
    exact hid
  cases event with
  | createConn conn object => exact hsame (toDelete_createConn hstep)
  | eraseConnect conn => exact hsame (toDelete_eraseConnect hstep)
  | eraseConnectById id =>
      cases hstep
      apply hsame
      unfold MultiConnManagerVec.eraseConnectById
      split
      · rfl
      · rfl
  | onClose conn =>
      cases conn with
      | none => cases hstep
      | some conn =>
          change manager.eraseConnect (some conn) = some next at hstep
          exact hsame (toDelete_eraseConnect hstep)
  | onError conn => exact hsame (toDelete_eraseConnect hstep)
  | dispatchById throws cid => exact (Sends.dispatchById hstep).more
  | dispatchByIds throws ids exp => exact (Sends.dispatchByIds hstep).more
  | delayDelConn conn =>
      cases conn with
      | none =>
          cases hstep
          exact hsame rfl
      | some conn =>
          obtain ⟨object, -, hnext⟩ := Option.bind_eq_some_iff.mp hstep
          exact (Sends.disable hnext).more
  | handle => exact absurd rfl hround
  | setEnable conn enable =>
      obtain ⟨object, -, hnext⟩ := Option.bind_eq_some_iff.mp hstep
      cases hnext
      exact hsame rfl
  | outside conn object =>
      change (if some conn ∈ manager.connects then none else some _) = _ at hstep
      split at hstep
      · cases hstep
      · cases hstep
        exact hsame rfl

/-! ## What holds of every run -/

/-- What is remembered of a run agrees with the table. -/
structure Watching (watched : Watched) : Prop where
  table : Table watched.manager
  doomed : ∀ conn ∈ watched.doomed, Pending watched.manager conn
  once : watched.deleted.Nodup
  past : ∀ conn birth, (conn, birth) ∈ watched.deleted → birth ≤ watched.births conn ∧
    (birth = watched.births conn → watched.manager.objects conn = none)

theorem watch_watching (objects : Address → Option IConn) : Watching (watch (new objects)) where
  table := new_table objects
  doomed := by simp [watch]
  once := List.nodup_nil
  past := by simp [watch]

/-- The doomed connections that are still registered are deleted in a round. -/
theorem Watching.doomed_deleted {watched : Watched} (hwatched : Watching watched)
    (hdoomed : conn ∈ watched.doomed) (hmem : some conn ∈ watched.manager.connects) :
    conn ∈ watched.manager.roundDeletes := by
  obtain ⟨id, hslot⟩ := List.mem_iff_getElem?.mp hmem
  obtain ⟨object, hobject⟩ := hwatched.table.object id conn hslot
  obtain ⟨hid, hdisabled⟩ := hwatched.doomed conn hdoomed id hslot
  exact mem_lazyDeletes hwatched.table hid ⟨hslot, hobject⟩ (hdisabled object hobject)

theorem Watching.step {watched after : Watched} (hwatched : Watching watched) {event : Event}
    (hstep : watched.step event = some after) : Watching after := by
  obtain ⟨next, hnext, hafter⟩ := Option.bind_eq_some_iff.mp hstep
  cases hafter
  obtain ⟨honce, hexisted, hgone⟩ := deletes_step hwatched.table hnext
  constructor
  · exact hwatched.table.step hnext
  · intro conn hconn
    obtain ⟨hmem, hkept⟩ := List.mem_filter.mp hconn
    simp only [decide_eq_true_eq] at hkept
    rcases List.mem_append.mp hmem with hdoomed | hdisabled
    · have hkeeps := Keeps.step hkept.2 hnext
      by_cases hround : event = .handle
      · -- a round deletes what is doomed
        subst hround
        intro id hslot
        exact absurd (hwatched.doomed_deleted hdoomed
          (List.mem_of_getElem? (hkeeps.slot id hslot))) hkept.1
      · exact (hwatched.doomed conn hdoomed).of_keeps hkeeps (more_step hround hnext)
    · exact pending_of_disables hwatched.table hdisabled hnext
  · refine List.nodup_append.mpr ⟨hwatched.once, ?_, ?_⟩
    · exact honce.map fun conn other hsame => congrArg Prod.fst hsame
    · rintro ⟨conn, birth⟩ hpast last hlast rfl
      obtain ⟨other, hother, hsame⟩ := List.mem_map.mp hlast
      cases hsame
      -- the last connection there was deleted already, so there is none to delete
      obtain ⟨object, hobject⟩ := hexisted conn hother
      rw [(hwatched.past conn _ hpast).2 rfl] at hobject
      cases hobject
  · intro conn birth hmem
    rcases List.mem_append.mp hmem with hpast | hlast
    · obtain ⟨hle, hnone⟩ := hwatched.past conn birth hpast
      refine ⟨hle.trans (Nat.le_add_right _ _), fun hsame => ?_⟩
      by_cases hborn : conn ∈ born event
      · simp only [hborn, if_true] at hsame
        omega
      · simp only [hborn, if_false, Nat.add_zero] at hsame
        exact absent_step hborn (hnone hsame) hnext
    · obtain ⟨other, hother, hsame⟩ := List.mem_map.mp hlast
      cases hsame
      exact ⟨Nat.le_add_right _ _, fun _ => hgone conn hother⟩

/-- A timer round comes to its end. It deletes no connection that is enabled, and every
connection that is doomed and still registered; and no connection was deleted twice so far. -/
structure LazyDeletion (watched : Watched) : Prop where
  round : ∃ next, watched.manager.handle = some next ∧
    ∀ conn, next.objects conn =
      if conn ∈ watched.manager.roundDeletes then none else watched.manager.objects conn
  disabled : ∀ conn ∈ watched.manager.roundDeletes,
    ∃ object, watched.manager.objects conn = some object ∧ object.bEnable = false
  doomed : ∀ conn ∈ watched.doomed, some conn ∈ watched.manager.connects →
    conn ∈ watched.manager.roundDeletes
  once : watched.deleted.Nodup

theorem Watching.lazyDeletion {watched : Watched} (hwatched : Watching watched) :
    LazyDeletion watched := by
  obtain ⟨next, hnext⟩ := hwatched.table.handle_some
  exact ⟨⟨next, hnext, (Deletes.handle hnext).objects⟩, fun _ => disabled_of_mem_lazyDeletes,
    fun _ => hwatched.doomed_deleted, hwatched.once⟩

/-- In every state of every run a timer round would delete what was disabled for it and is
still registered, and nothing that is enabled; and `delete` is called once for a connection,
however its id and its address are used again. -/
theorem lazy_deletion (objects : Address → Option IConn) (events : List Event) :
    Throughout Watched.step LazyDeletion (watch (new objects)) events := by
  have hkeeps : ∀ watched event after, Watching watched → True →
      Watched.step watched event = some after → Watching after :=
    fun _ _ _ hwatched _ hstep => hwatched.step hstep
  exact throughout_of_along hkeeps (fun _ hwatched => hwatched.lazyDeletion)
    (watch_watching objects) (along_trivial _ events)


end ServiceFrame.MultiConnManagerVec
