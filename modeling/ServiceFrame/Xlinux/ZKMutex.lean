import Mathlib.Logic.Function.Basic
import ServiceFrame.Foundation.Run

/-! # A lock kept in ZooKeeper

A `ZKMutex` holds the lock while the ephemeral node at its path is its own.
`lock` tells its own node by the contents; `unlock` deletes whatever is there.
-/

namespace ServiceFrame

open Foundation

universe uClient uUuid

variable {Client : Type uClient} {Uuid : Type uUuid}

/-- What becomes of a request: it is served and answered, served without the answer
arriving, or not served. -/
inductive ZooReply where
  | answered
  | lost
  | failed
  deriving DecidableEq

def ZooReply.Served (reply : ZooReply) : Prop := reply ≠ .failed

instance ZooReply.decidableServed (reply : ZooReply) : Decidable reply.Served :=
  inferInstanceAs (Decidable (reply ≠ .failed))

namespace ZKMutex

/-- The request a client has sent. -/
inductive Phase where
  | idle
  /-- `zoo_create` in `lock`. -/
  | creating
  /-- `zoo_get` in `lock`. -/
  | getting
  /-- `zoo_delete` in `unlock`. -/
  | deleting (iDelTimes : Nat)
  /-- After `assert(false)`. -/
  | dead
  deriving DecidableEq

def Phase.Deletes : Phase → Prop
  | .deleting _ => True
  | _ => False

instance Phase.decidableDeletes : (phase : Phase) → Decidable phase.Deletes
  | .deleting _ => isTrue trivial
  | .idle | .creating | .getting | .dead => isFalse id

/-- A client; `holds` since a `lock` returned true, until it calls `unlock` or its session
expires, and `created` from when it made the node until a delete of its is served or its
session expires. -/
structure State where
  phase : Phase
  holds : Bool
  created : Bool

structure Node (Client : Type uClient) (Uuid : Type uUuid) where
  data : Uuid
  ephemeralOwner : Client

inductive Event (Client : Type uClient) where
  | lock (client : Client)
  | unlock (client : Client)
  | serve (client : Client) (reply : ZooReply)
  /-- The session of the client expires, and its application opens another. -/
  | expire (client : Client)

end ZKMutex

/-- The node at the path and the clients of it. -/
structure ZKMutex (Client : Type uClient) (Uuid : Type uUuid) where
  node : Option (ZKMutex.Node Client Uuid)
  clients : Client → ZKMutex.State

namespace ZKMutex

def init : ZKMutex Client Uuid := ⟨none, fun _ => ⟨.idle, false, false⟩⟩

variable [DecidableEq Client]

def set (zk : ZKMutex Client Uuid) (client : Client) (state : State) : ZKMutex Client Uuid :=
  { zk with clients := Function.update zk.clients client state }

variable (m_strUUID : Client → Uuid)

/-- `zoo_create`, and what `lock` makes of the answer. -/
def create (zk : ZKMutex Client Uuid) (client : Client) : ZooReply → ZKMutex Client Uuid
  | .failed => zk.set client { zk.clients client with phase := .idle }
  | .lost =>
      match zk.node with
      | some _ => zk.set client { zk.clients client with phase := .idle }
      | none =>
          { zk with node := some ⟨m_strUUID client, client⟩ }.set client
            { zk.clients client with phase := .idle, created := true }
  | .answered =>
      match zk.node with
      | some _ => zk.set client { zk.clients client with phase := .getting }
      | none =>
          { zk with node := some ⟨m_strUUID client, client⟩ }.set client
            { phase := .idle, holds := true, created := true }

/-- `zoo_get`: the lock is the client's when the node says so. -/
def get [DecidableEq Uuid] (zk : ZKMutex Client Uuid) (client : Client) (reply : ZooReply) :
    ZKMutex Client Uuid :=
  match reply, zk.node with
  | .answered, some node =>
      zk.set client { zk.clients client with
        phase := .idle
        holds := decide (node.data = m_strUUID client) || (zk.clients client).holds }
  | _, _ => zk.set client { zk.clients client with phase := .idle }

/-- `zoo_delete` of any version, repeated until it is answered, at most 1000 times. -/
def delete (zk : ZKMutex Client Uuid) (client : Client) (iDelTimes : Nat) (reply : ZooReply) :
    ZKMutex Client Uuid :=
  let phase : Phase :=
    if iDelTimes + 1 > 1000 then .dead
    else if reply = .answered then .idle
    else .deleting (iDelTimes + 1)
  if reply = .failed then zk.set client { zk.clients client with phase := phase }
  else
    { zk with node := none }.set client
      { zk.clients client with phase := phase, created := false }

def expire (zk : ZKMutex Client Uuid) (client : Client) : ZKMutex Client Uuid :=
  { zk with node := zk.node.filter fun node => node.ephemeralOwner ≠ client }.set client
    { zk.clients client with holds := false, created := false }

def step [DecidableEq Uuid] (zk : ZKMutex Client Uuid) :
    Event Client → Option (ZKMutex Client Uuid)
  | .lock client =>
      if (zk.clients client).phase = .idle then
        some (zk.set client { zk.clients client with phase := .creating })
      else none
  | .unlock client =>
      if (zk.clients client).phase = .idle then
        some (zk.set client { zk.clients client with phase := .deleting 0, holds := false })
      else none
  | .serve client reply =>
      match (zk.clients client).phase with
      | .creating => some (zk.create m_strUUID client reply)
      | .getting => some (zk.get m_strUUID client reply)
      | .deleting iDelTimes => some (zk.delete client iDelTimes reply)
      | .idle | .dead => none
  | .expire client => some (zk.expire client)

/-- The clients that may go on as holders are one at most. -/
def Exclusive (zk : ZKMutex Client Uuid) : Prop :=
  ∀ first second, (zk.clients first).holds = true → (zk.clients second).holds = true →
    first = second

/-- A delete that is served finds no node, or one the client created. -/
def DeletesOwn (zk : ZKMutex Client Uuid) : Event Client → Prop
  | .serve client reply => ∀ node, (zk.clients client).phase.Deletes → reply.Served →
      zk.node = some node → node.ephemeralOwner = client
  | _ => True

/-- A delete that is served finds no node, or comes from a client that has created it and
since then neither lost its session nor had a delete served. -/
def Standing (zk : ZKMutex Client Uuid) : Event Client → Prop
  | .serve client reply => (zk.clients client).phase.Deletes → reply.Served →
      zk.node = none ∨ (zk.clients client).created = true
  | _ => True

instance decidableStanding (zk : ZKMutex Client Uuid) :
    (event : Event Client) → Decidable (zk.Standing event)
  | .serve client reply => inferInstanceAs (Decidable ((zk.clients client).phase.Deletes →
      reply.Served → zk.node = none ∨ (zk.clients client).created = true))
  | .lock _ | .unlock _ | .expire _ => isTrue trivial

/-! ## What holds while no client deletes another's node -/

structure Consistent (zk : ZKMutex Client Uuid) : Prop where
  named : ∀ node, zk.node = some node → node.data = m_strUUID node.ephemeralOwner
  made : ∀ client, (zk.clients client).created = true ↔
    ∃ node, zk.node = some node ∧ node.ephemeralOwner = client
  held : ∀ client, (zk.clients client).holds = true → (zk.clients client).created = true
  leaving : ∀ client, (zk.clients client).phase.Deletes → (zk.clients client).holds = false

omit [DecidableEq Client] in
theorem init_consistent : Consistent m_strUUID init where
  named := fun node hnode => by cases hnode
  made := fun client => by simp [init]
  held := fun client hholds => hholds
  leaving := fun client hphase => rfl

namespace Consistent

variable {m_strUUID} {zk next : ZKMutex Client Uuid} {client : Client}

omit [DecidableEq Client] in
/-- Two holders would own the same node. -/
theorem exclusive (hzk : Consistent m_strUUID zk) : zk.Exclusive := by
  intro first second hfirst hsecond
  obtain ⟨node, hnode, hfirst⟩ := (hzk.made first).mp (hzk.held first hfirst)
  obtain ⟨other, hother, hsecond⟩ := (hzk.made second).mp (hzk.held second hsecond)
  cases hnode.symm.trans hother
  rw [← hfirst, ← hsecond]

/-- A client goes on without touching the node. -/
theorem goes (hzk : Consistent m_strUUID zk) {state : State}
    (hcreated : state.created = (zk.clients client).created)
    (hheld : state.holds = true → (zk.clients client).created = true)
    (hleaving : state.phase.Deletes → state.holds = false) :
    Consistent m_strUUID (zk.set client state) where
  named := hzk.named
  made := by
    intro other
    change (Function.update zk.clients client state other).created = true ↔ _
    rw [Function.update_apply]
    split
    next hsame => rw [hcreated, hsame, hzk.made client]; rfl
    next => exact hzk.made other
  held := by
    intro other
    change (Function.update zk.clients client state other).holds = true →
      (Function.update zk.clients client state other).created = true
    rw [Function.update_apply]
    split
    next => rw [hcreated]; exact hheld
    next => exact hzk.held other
  leaving := by
    intro other
    change (Function.update zk.clients client state other).phase.Deletes →
      (Function.update zk.clients client state other).holds = false
    rw [Function.update_apply]
    split
    next => exact hleaving
    next => exact hzk.leaving other

/-- A client makes the node where there is none. -/
theorem makes (hzk : Consistent m_strUUID zk) (hnone : zk.node = none) {state : State}
    (hcreated : state.created = true) (hphase : state.phase = .idle) :
    Consistent m_strUUID
      ({ zk with node := some ⟨m_strUUID client, client⟩ }.set client state) := by
  have hnobody : ∀ other, (zk.clients other).created ≠ true := by
    intro other hother
    obtain ⟨node, hnode, -⟩ := (hzk.made other).mp hother
    rw [hnone] at hnode
    cases hnode
  refine ⟨fun node hnode => ?_, fun other => ?_, fun other => ?_, fun other => ?_⟩
  · cases hnode
    rfl
  · change (Function.update zk.clients client state other).created = true ↔ ∃ node,
      some (⟨m_strUUID client, client⟩ : Node Client Uuid) = some node ∧ _
    rw [Function.update_apply]
    split
    next hsame => exact iff_of_true hcreated ⟨_, rfl, hsame.symm⟩
    next hother =>
      apply iff_of_false (hnobody other)
      rintro ⟨node, hnode, howner⟩
      cases hnode
      exact hother howner.symm
  · change (Function.update zk.clients client state other).holds = true →
      (Function.update zk.clients client state other).created = true
    rw [Function.update_apply]
    split
    next => exact fun _ => hcreated
    next => exact hzk.held other
  · change (Function.update zk.clients client state other).phase.Deletes →
      (Function.update zk.clients client state other).holds = false
    rw [Function.update_apply]
    split
    next => rw [hphase]; exact fun hdeletes => hdeletes.elim
    next => exact hzk.leaving other

/-- A client loses the node it has made, or there was none of it. -/
theorem loses (hzk : Consistent m_strUUID zk) {state : State} {left : Option (Node Client Uuid)}
    (hcreated : state.created = false) (hholds : state.holds = false)
    (hleft : ∀ node, left = some node ↔ zk.node = some node ∧ node.ephemeralOwner ≠ client) :
    Consistent m_strUUID ({ zk with node := left }.set client state) := by
  refine ⟨fun node hnode => hzk.named node ((hleft node).mp hnode).1, fun other => ?_,
    fun other => ?_, fun other => ?_⟩
  · change (Function.update zk.clients client state other).created = true ↔ ∃ node,
      left = some node ∧ _
    rw [Function.update_apply]
    split
    next hsame =>
      apply iff_of_false (by rw [hcreated]; simp)
      rintro ⟨node, hnode, howner⟩
      exact ((hleft node).mp hnode).2 (howner.trans hsame)
    next hother =>
      rw [hzk.made other]
      refine exists_congr fun node => ?_
      rw [hleft node]
      constructor
      · rintro ⟨hnode, rfl⟩
        exact ⟨⟨hnode, hother⟩, rfl⟩
      · rintro ⟨⟨hnode, -⟩, howner⟩
        exact ⟨hnode, howner⟩
  · change (Function.update zk.clients client state other).holds = true →
      (Function.update zk.clients client state other).created = true
    rw [Function.update_apply]
    split
    next => rw [hholds]; exact fun hfalse => by cases hfalse
    next => exact hzk.held other
  · change (Function.update zk.clients client state other).phase.Deletes →
      (Function.update zk.clients client state other).holds = false
    rw [Function.update_apply]
    split
    next => exact fun _ => hholds
    next => exact hzk.leaving other

theorem create (hzk : Consistent m_strUUID zk) (reply : ZooReply) :
    Consistent m_strUUID (zk.create m_strUUID client reply) := by
  have hstays : ∀ phase, ¬ Phase.Deletes phase →
      Consistent m_strUUID (zk.set client { zk.clients client with phase := phase }) :=
    fun phase hphase => hzk.goes rfl (hzk.held client) fun hdeletes => absurd hdeletes hphase
  cases reply with
  | failed => exact hstays .idle id
  | lost =>
      dsimp only [ZKMutex.create]
      split
      next => exact hstays .idle id
      next hnone => exact hzk.makes hnone rfl rfl
  | answered =>
      dsimp only [ZKMutex.create]
      split
      next => exact hstays .getting id
      next hnone => exact hzk.makes hnone rfl rfl

/-- The client that reads its own uuid has made the node. -/
theorem get [DecidableEq Uuid] (hzk : Consistent m_strUUID zk)
    (hdistinct : Function.Injective m_strUUID) (reply : ZooReply) :
    Consistent m_strUUID (zk.get m_strUUID client reply) := by
  unfold ZKMutex.get
  split
  next node hnode =>
    refine hzk.goes rfl (fun hholds => ?_) (fun hdeletes => hdeletes.elim)
    rcases (Bool.or_eq_true _ _).mp hholds with hread | hbefore
    · refine (hzk.made client).mpr ⟨node, hnode, hdistinct ?_⟩
      rw [← hzk.named node hnode]
      exact of_decide_eq_true hread
    · exact hzk.held client hbefore
  next =>
    exact hzk.goes rfl (hzk.held client) (fun hdeletes => hdeletes.elim)

theorem delete (hzk : Consistent m_strUUID zk) {iDelTimes : Nat} {reply : ZooReply}
    (hdeleting : (zk.clients client).phase = .deleting iDelTimes)
    (hstanding : reply.Served → zk.node = none ∨ (zk.clients client).created = true) :
    Consistent m_strUUID (zk.delete client iDelTimes reply) := by
  have hholds := hzk.leaving client (by rw [hdeleting]; trivial)
  dsimp only [ZKMutex.delete]
  generalize (if iDelTimes + 1 > 1000 then Phase.dead
    else if reply = .answered then .idle else .deleting (iDelTimes + 1)) = phase
  split
  next => exact hzk.goes rfl (hzk.held client) fun _ => hholds
  next hserved =>
    refine hzk.loses rfl hholds fun node => iff_of_false (by simp) ?_
    rintro ⟨hnode, hother⟩
    rcases hstanding hserved with hnone | hcreated
    · rw [hnone] at hnode
      cases hnode
    · obtain ⟨own, hown, howner⟩ := (hzk.made client).mp hcreated
      cases hnode.symm.trans hown
      exact hother howner

theorem expire (hzk : Consistent m_strUUID zk) : Consistent m_strUUID (zk.expire client) := by
  refine hzk.loses rfl rfl fun node => ?_
  rw [Option.filter_eq_some_iff]
  simp

theorem step [DecidableEq Uuid] (hzk : Consistent m_strUUID zk)
    (hdistinct : Function.Injective m_strUUID) {event : Event Client}
    (hstanding : zk.Standing event)
    (hnext : zk.step m_strUUID event = some next) : Consistent m_strUUID next := by
  cases event with
  | lock client =>
      rw [ZKMutex.step, Option.ite_none_right_eq_some, Option.some.injEq] at hnext
      obtain ⟨-, rfl⟩ := hnext
      exact hzk.goes rfl (hzk.held client) fun hdeletes => hdeletes.elim
  | unlock client =>
      rw [ZKMutex.step, Option.ite_none_right_eq_some, Option.some.injEq] at hnext
      obtain ⟨-, rfl⟩ := hnext
      exact hzk.goes rfl (fun hholds => by cases hholds) fun _ => rfl
  | serve client reply =>
      dsimp only [ZKMutex.step] at hnext
      split at hnext
      next =>
        cases hnext
        exact hzk.create reply
      next =>
        cases hnext
        exact hzk.get hdistinct reply
      next iDelTimes hdeleting =>
        cases hnext
        exact hzk.delete hdeleting (hstanding (by rw [hdeleting]; trivial))
      next => cases hnext
      next => cases hnext
  | expire client =>
      cases hnext
      exact hzk.expire

omit [DecidableEq Client] in
/-- A client that has created the node is the one it belongs to. -/
theorem deletesOwn_iff (hzk : Consistent m_strUUID zk) (event : Event Client) :
    zk.DeletesOwn event ↔ zk.Standing event := by
  cases event with
  | serve client reply =>
      refine ⟨fun hown hdeleting hserved => ?_, fun hstanding node hdeleting hserved hnode => ?_⟩
      · cases hnode : zk.node with
        | none => exact Or.inl rfl
        | some node =>
            exact Or.inr ((hzk.made client).mpr ⟨node, hnode, hown node hdeleting hserved hnode⟩)
      · rcases hstanding hdeleting hserved with hnone | hcreated
        · rw [hnone] at hnode
          cases hnode
        · obtain ⟨own, hown, howner⟩ := (hzk.made client).mp hcreated
          cases hnode.symm.trans hown
          exact howner
  | _ => exact Iff.rfl

end Consistent

/-- The lock excludes, and clients delete their own nodes only, exactly in the runs in which
each delete that is served is the client's own. -/
theorem excludes_iff [DecidableEq Uuid] (hdistinct : Function.Injective m_strUUID)
    (events : List (Event Client)) :
    Throughout (step m_strUUID) Exclusive init events ∧
      Along (step m_strUUID) DeletesOwn init events ↔
    Along (step m_strUUID) Standing init events := by
  have hstanding : ∀ zk event next, Consistent m_strUUID zk → zk.Standing event →
      zk.step m_strUUID event = some next → Consistent m_strUUID next :=
    fun zk event next hzk hstanding hnext => hzk.step hdistinct hstanding hnext
  have hsame : ∀ zk event, Consistent m_strUUID zk → zk.Standing event →
      (zk.DeletesOwn event ↔ zk.Standing event) := fun zk event hzk _ => hzk.deletesOwn_iff event
  have hown : ∀ zk event next, Consistent m_strUUID zk → zk.DeletesOwn event →
      zk.step m_strUUID event = some next → Consistent m_strUUID next :=
    fun zk event next hzk hown hnext =>
      hzk.step hdistinct ((hzk.deletesOwn_iff event).mp hown) hnext
  constructor
  · rintro ⟨-, hall⟩
    exact (along_congr hown (fun zk event hzk _ => hzk.deletesOwn_iff event)
      (init_consistent m_strUUID) hall).mp hall
  · intro hall
    exact ⟨throughout_of_along hstanding (fun zk hzk => hzk.exclusive) (init_consistent m_strUUID)
      hall, (along_congr hstanding hsame (init_consistent m_strUUID) hall).mpr hall⟩

/-- A client takes over between a delete whose answer is lost and its repetition, which
deletes the new holder's node; a third client gets the lock beside it. -/
theorem two_holders_after_lost_reply :
    let events : List (Event (Fin 3)) :=
      [.lock 0, .serve 0 .answered, .unlock 0, .serve 0 .lost, .lock 1, .serve 1 .answered,
        .serve 0 .answered, .lock 2, .serve 2 .answered]
    ∃ zk, run (step id) (init : ZKMutex (Fin 3) (Fin 3)) events = some zk ∧
      (zk.clients 1).holds = true ∧ (zk.clients 2).holds = true ∧ ¬ zk.Exclusive := by
  refine ⟨_, rfl, by decide, by decide, fun hexclusive => ?_⟩
  exact absurd (hexclusive 1 2 (by decide) (by decide)) (by decide)

/-- Without losses and expiries a holder unlocks and another follows. -/
theorem excludes_handover :
    Throughout (step id) Exclusive (init : ZKMutex (Fin 2) (Fin 2))
      [.lock 0, .serve 0 .answered, .lock 1, .serve 1 .answered, .serve 1 .answered, .unlock 0,
        .serve 0 .answered, .lock 1, .serve 1 .answered] :=
  ((excludes_iff id Function.injective_id _).mpr (by decide)).1

end ZKMutex

end ServiceFrame
