import Mathlib.Data.List.Induction
import ServiceFrame.Foundation.Bytes
import ServiceFrame.Foundation.OrderedMap

/-! # Consistent hashing

`UserConsistentFnvHash`, `UserConsistentHash2` and `CConsistentHash` of
`server-lib`: a circle of virtual points, `numberOfReplicas` of each server. They
differ in their hash functions. A point of two servers belongs to the one added
last, and goes when either is removed.
-/

namespace ServiceFrame

open Foundation

/-- The places of the servers' points, by index, and of the users on the circle. -/
structure CircleHash where
  server : UInt32 → Nat → UInt32
  key : UInt32 → UInt32

/-- `hashbuf`: the bytes of the id and of the index. -/
def hashbuf (serverid : UInt32) (i : Nat) : List UInt8 :=
  leBytes 4 serverid.toNat ++ leBytes 4 i

def CircleHash.ofBytes (hash : List UInt8 → UInt32) : CircleHash where
  server serverid i := hash (hashbuf serverid i)
  key uid := hash (leBytes 4 uid.toNat)

/-- `FnvHashFunction::hash`, and `CConsistentHash::fnvhash`. -/
def fnvHash (key : List UInt8) : UInt32 :=
  let hash := key.foldl (fun hash byte => (hash ^^^ byte.toUInt32) * 16777619) 0x811C9DC5
  let hash := hash + hash <<< 13
  let hash := hash ^^^ hash >>> 7
  let hash := hash + hash <<< 3
  let hash := hash ^^^ hash >>> 17
  hash + hash <<< 5

/-- `HashFunction2::hash`, and `CConsistentHash::newhash`. -/
def newHash (key : List UInt8) : UInt32 :=
  key.foldl (fun hash byte => hash * 16777619 ^^^ byte.toUInt32) 0

inductive EHashFuntcionType where
  | md5
  | newHash
  | fnvHash
deriving DecidableEq

/-- The hashes of `CConsistentHash`; `md5` stands for `md5hash`. -/
def CircleHash.ofType (md5 : List UInt8 → UInt32) : EHashFuntcionType → CircleHash
  | .md5 =>
      { server := fun serverValue index =>
          md5 ("IMLINKD_SERVERID: " ++ toString serverValue.toNat ++ "; INDEX: " ++
            toString index).toUTF8.toList
        key := fun key =>
          md5 ("USER_ID: " ++ toString key.toNat ++ "RANDOM_STRING").toUTF8.toList }
  | .newHash => .ofBytes ServiceFrame.newHash
  | .fnvHash => .ofBytes ServiceFrame.fnvHash

structure ConsistentHash where
  numberOfReplicas : Nat
  hash : CircleHash
  serverCircle : OrderedMap Nat UInt32

namespace ConsistentHash

def defaultNumberOfReplicas : Nat := 200

/-- `return -1`. -/
def noServer : UInt32 := 0xFFFFFFFF

def new (numberOfReplicas : Nat) (hash : CircleHash) : ConsistentHash :=
  ⟨numberOfReplicas, hash, .empty⟩

def userConsistentFnvHash (numberOfReplicas : Nat) : ConsistentHash :=
  new numberOfReplicas (.ofBytes fnvHash)

def userConsistentHash2 (numberOfReplicas : Nat) : ConsistentHash :=
  new numberOfReplicas (.ofBytes newHash)

/-- `CConsistentHash` on a circle of its caller. -/
def onCircle (md5 : List UInt8 → UInt32) (funcType : EHashFuntcionType)
    (circle : OrderedMap Nat UInt32) : ConsistentHash :=
  ⟨defaultNumberOfReplicas, .ofType md5 funcType, circle⟩

/-- `uValue` of the loops. -/
def point (ring : ConsistentHash) (serverid : UInt32) (i : Nat) : Nat :=
  (ring.hash.server serverid i).toNat

def addServer (ring : ConsistentHash) (serverid : UInt32) : ConsistentHash :=
  { ring with
    serverCircle := (List.range ring.numberOfReplicas).foldl
      (fun circle i => circle.set (ring.point serverid i) serverid) ring.serverCircle }

def removeServer (ring : ConsistentHash) (serverid : UInt32) : ConsistentHash :=
  { ring with
    serverCircle := (List.range ring.numberOfReplicas).foldl
      (fun circle i => circle.erase (ring.point serverid i)) ring.serverCircle }

/-- `GetServer(uid)`, and `GetValueByKey`. -/
def getServer (ring : ConsistentHash) (uid : UInt32) : UInt32 :=
  if ring.serverCircle.isEmpty then noServer
  else
    match ring.serverCircle.lowerBound (ring.hash.key uid).toNat with
    | some entry => entry.2
    | none =>
        match ring.serverCircle.first with
        | some entry => entry.2
        | none => noServer -- not reached, the circle has points

inductive Op where
  | add (serverid : UInt32)
  | remove (serverid : UInt32)
deriving DecidableEq

def step (ring : ConsistentHash) : Op → ConsistentHash
  | .add serverid => ring.addServer serverid
  | .remove serverid => ring.removeServer serverid

def after (ring : ConsistentHash) (ops : List Op) : ConsistentHash := ops.foldl step ring

def Op.server : Op → UInt32
  | .add serverid => serverid
  | .remove serverid => serverid

/-- Whether the server was added, and not removed since. -/
def live (ops : List Op) (serverid : UInt32) : Bool :=
  ops.foldl (fun was op =>
    match op with
    | .add other => was || other == serverid
    | .remove other => was && other != serverid) false

/-! ## The points -/

variable {ring : ConsistentHash} {serverid owner : UInt32} {position : Nat}

/-- The places of a server's points. -/
def points (ring : ConsistentHash) (serverid : UInt32) : List Nat :=
  (List.range ring.numberOfReplicas).map (ring.point serverid)

theorem addServer_find (ring : ConsistentHash) (serverid : UInt32) (position : Nat) :
    (ring.addServer serverid).serverCircle.find position =
      if position ∈ ring.points serverid then some serverid
      else ring.serverCircle.find position := by
  rw [points, ← OrderedMap.foldl_find (fun map key => map.find_set key serverid), List.foldl_map]
  rfl

theorem removeServer_find (ring : ConsistentHash) (serverid : UInt32) (position : Nat) :
    (ring.removeServer serverid).serverCircle.find position =
      if position ∈ ring.points serverid then none else ring.serverCircle.find position := by
  rw [points, ← OrderedMap.foldl_find (fun map key => map.find_erase key), List.foldl_map]
  rfl

/-- `GetServer` goes clockwise. -/
theorem getServer_eq (ring : ConsistentHash) (uid : UInt32) :
    ring.getServer uid =
      ((ring.serverCircle.clockwise (ring.hash.key uid).toNat).map Prod.snd).getD noServer := by
  unfold getServer OrderedMap.clockwise
  split
  next hempty =>
    have hnone : ring.serverCircle.clockwise (ring.hash.key uid).toNat = none :=
      OrderedMap.clockwise_eq_none.mpr hempty
    rw [OrderedMap.clockwise] at hnone
    rw [hnone]
    rfl
  next =>
    cases ring.serverCircle.lowerBound (ring.hash.key uid).toNat with
    | some entry => rfl
    | none =>
        cases ring.serverCircle.first with
        | some entry => rfl
        | none => rfl

theorem after_append (ring : ConsistentHash) (first second : List Op) :
    ring.after (first ++ second) = (ring.after first).after second :=
  List.foldl_append

theorem after_fixed (ring : ConsistentHash) (ops : List Op) :
    (ring.after ops).hash = ring.hash ∧
      (ring.after ops).numberOfReplicas = ring.numberOfReplicas := by
  induction ops generalizing ring with
  | nil => exact ⟨rfl, rfl⟩
  | cons op rest ih =>
      obtain ⟨hhash, hreplicas⟩ := ih (ring.step op)
      cases op with
      | add serverid => exact ⟨hhash, hreplicas⟩
      | remove serverid => exact ⟨hhash, hreplicas⟩

theorem after_points (ring : ConsistentHash) (ops : List Op) (serverid : UInt32) :
    (ring.after ops).points serverid = ring.points serverid := by
  obtain ⟨hhash, hreplicas⟩ := ring.after_fixed ops
  unfold points
  rw [hreplicas]
  apply List.map_congr_left
  intro i _
  rw [point, hhash, point]

theorem live_add (ops : List Op) (serverid owner : UInt32) :
    live (ops ++ [.add serverid]) owner = true ↔ live ops owner = true ∨ serverid = owner := by
  simp [live]

theorem live_remove (ops : List Op) (serverid owner : UInt32) :
    live (ops ++ [.remove serverid]) owner = true ↔
      live ops owner = true ∧ serverid ≠ owner := by
  simp [live]

/-- A point of the circle is of a server that is live, and one of that server's. -/
theorem after_owner (numberOfReplicas : Nat) (hash : CircleHash) (ops : List Op)
    (hfind : ((new numberOfReplicas hash).after ops).serverCircle.find position = some owner) :
    live ops owner = true ∧ position ∈ (new numberOfReplicas hash).points owner := by
  induction ops using List.reverseRecOn with
  | nil => cases hfind
  | append_singleton past op ih =>
      rw [after_append] at hfind
      cases op with
      | add serverid =>
          change (ConsistentHash.addServer _ serverid).serverCircle.find position = _ at hfind
          rw [addServer_find, after_points] at hfind
          rw [live_add]
          split at hfind
          next hpoint =>
            cases hfind
            exact ⟨Or.inr rfl, hpoint⟩
          next => exact (ih hfind).imp_left Or.inl
      | remove serverid =>
          change (ConsistentHash.removeServer _ serverid).serverCircle.find position = _ at hfind
          rw [removeServer_find, after_points] at hfind
          rw [live_remove]
          split at hfind
          next => cases hfind
          next hpoint =>
            obtain ⟨hlive, howner⟩ := ih hfind
            refine ⟨⟨hlive, ?_⟩, howner⟩
            rintro rfl
            exact hpoint howner

/-- Adding a server changes the entry after a place to one of its points at most. -/
theorem addServer_clockwise (ring : ConsistentHash) (serverid : UInt32) (start : Nat) :
    (∃ position, (ring.addServer serverid).serverCircle.clockwise start =
        some (position, serverid)) ∨
      (ring.addServer serverid).serverCircle.clockwise start =
        ring.serverCircle.clockwise start := by
  dsimp only [addServer]
  generalize ring.serverCircle = circle
  induction List.range ring.numberOfReplicas generalizing circle with
  | nil => exact Or.inr rfl
  | cons i rest ih =>
      rw [List.foldl_cons]
      rcases ih (circle.set (ring.point serverid i) serverid) with hpoint | hsame
      · exact Or.inl hpoint
      · rw [hsame]
        rcases circle.clockwise_set (ring.point serverid i) serverid start with hpoint | hsame
        · exact Or.inl ⟨_, hpoint⟩
        · exact Or.inr hsame

/-- In every circle that servers come to and go from: without a point the answer is
`noServer`, and with points it is a server that was added and not removed since. An
added server takes over users, and leaves the others where they were. -/
theorem getServer_live (numberOfReplicas : Nat) (hash : CircleHash) (ops : List Op)
    (uid : UInt32) :
    let ring := (new numberOfReplicas hash).after ops
    (ring.serverCircle.isEmpty = true → ring.getServer uid = noServer) ∧
      (ring.serverCircle.isEmpty = false → live ops (ring.getServer uid) = true) ∧
      (live ops noServer = false →
        (ring.getServer uid = noServer ↔ ring.serverCircle.isEmpty = true)) ∧
      ∀ serverid, (ring.addServer serverid).getServer uid = serverid ∨
        (ring.addServer serverid).getServer uid = ring.getServer uid := by
  intro ring
  have hempty : ring.serverCircle.isEmpty = true → ring.getServer uid = noServer := by
    intro hempty
    rw [getServer_eq, OrderedMap.clockwise_eq_none.mpr hempty]
    rfl
  have hserver : ring.serverCircle.isEmpty = false → live ops (ring.getServer uid) = true := by
    intro hpoints
    rw [getServer_eq]
    cases hnext : ring.serverCircle.clockwise (ring.hash.key uid).toNat with
    | none =>
        rw [OrderedMap.clockwise_eq_none.mp hnext] at hpoints
        cases hpoints
    | some entry =>
        obtain ⟨position, owner⟩ := entry
        exact (after_owner numberOfReplicas hash ops (OrderedMap.clockwise_find hnext)).1
  refine ⟨hempty, hserver, ?_, ?_⟩
  · intro hnot
    refine ⟨?_, hempty⟩
    intro hanswer
    by_contra hpoints
    have hlive := hserver (Bool.eq_false_iff.mpr hpoints)
    rw [hanswer, hnot] at hlive
    cases hlive
  · intro serverid
    rw [getServer_eq, getServer_eq]
    rcases ring.addServer_clockwise serverid (ring.hash.key uid).toNat with
      ⟨position, hpoint⟩ | hsame
    · exact Or.inl (by rw [show (ring.addServer serverid).hash = ring.hash from rfl, hpoint]; rfl)
    · exact Or.inr (by rw [show (ring.addServer serverid).hash = ring.hash from rfl, hsame])

/-- A server with the id that stands for no server. -/
theorem noServer_added :
    let ring := (userConsistentFnvHash 200).after [.add 0xFFFFFFFF]
    ¬ (ring.getServer 1 = noServer ↔ ring.serverCircle.isEmpty = true) := by
  decide +kernel

/-! ## Circles with the same servers -/

theorem live_server {ops : List Op} (hlive : live ops serverid = true) :
    ∃ op ∈ ops, op.server = serverid := by
  induction ops using List.reverseRecOn with
  | nil => cases hlive
  | append_singleton past op ih =>
      have hpast (hold : live past serverid = true) :
          ∃ earlier ∈ past ++ [op], earlier.server = serverid := by
        obtain ⟨earlier, hmem, hserver⟩ := ih hold
        exact ⟨earlier, List.mem_append_left _ hmem, hserver⟩
      cases op with
      | add other =>
          rcases (live_add past other serverid).mp hlive with hold | hsame
          · exact hpast hold
          · exact ⟨.add other, List.mem_append_right _ List.mem_cons_self, hsame⟩
      | remove other => exact hpast ((live_remove past other serverid).mp hlive).1

/-- No two of the servers have a point in common. -/
def Apart (numberOfReplicas : Nat) (hash : CircleHash) (servers : UInt32 → Prop) : Prop :=
  ∀ serverid other, servers serverid → servers other → ∀ position,
    position ∈ (new numberOfReplicas hash).points serverid →
    position ∈ (new numberOfReplicas hash).points other → serverid = other

/-- The circle has the points of the servers that are live. -/
theorem after_find (numberOfReplicas : Nat) (hash : CircleHash) {servers : UInt32 → Prop}
    (hapart : Apart numberOfReplicas hash servers) {ops : List Op}
    (hops : ∀ op ∈ ops, servers op.server) :
    ((new numberOfReplicas hash).after ops).serverCircle.find position = some owner ↔
      live ops owner = true ∧ position ∈ (new numberOfReplicas hash).points owner := by
  refine ⟨after_owner numberOfReplicas hash ops, ?_⟩
  rintro ⟨hlive, hpoint⟩
  induction ops using List.reverseRecOn with
  | nil => cases hlive
  | append_singleton past op ih =>
      have hpast : ∀ op ∈ past, servers op.server := fun op hop =>
        hops op (List.mem_append_left _ hop)
      have hop : servers op.server := hops op (List.mem_append_right _ List.mem_cons_self)
      have howner : servers owner := by
        obtain ⟨op, hmem, hserver⟩ := live_server hlive
        exact hserver ▸ hops op hmem
      rw [after_append]
      cases op with
      | add serverid =>
          change (ConsistentHash.addServer _ serverid).serverCircle.find position = _
          rw [addServer_find, after_points]
          split
          next hnew => rw [hapart serverid owner hop howner position hnew hpoint]
          next hnot =>
            rcases (live_add past serverid owner).mp hlive with hold | hsame
            · exact ih hpast hold
            · rw [hsame] at hnot
              exact absurd hpoint hnot
      | remove serverid =>
          obtain ⟨hold, hother⟩ := (live_remove past serverid owner).mp hlive
          change (ConsistentHash.removeServer _ serverid).serverCircle.find position = _
          rw [removeServer_find, after_points, if_neg]
          · exact ih hpast hold
          · intro hnew
            exact hother (hapart serverid owner hop howner position hnew hpoint)

/-! ## The points of a set of servers -/

theorem Apart.mono {numberOfReplicas : Nat} {hash : CircleHash} {servers fewer : UInt32 → Prop}
    (hapart : Apart numberOfReplicas hash servers) (hfewer : ∀ serverid, fewer serverid →
      servers serverid) : Apart numberOfReplicas hash fewer :=
  fun serverid other hserver hother =>
    hapart serverid other (hfewer serverid hserver) (hfewer other hother)

/-- The circle has the points of the servers, and no others. -/
structure HasPoints (ring : ConsistentHash) (numberOfReplicas : Nat) (hash : CircleHash)
    (servers : UInt32 → Prop) : Prop where
  hash_eq : ring.hash = hash
  replicas_eq : ring.numberOfReplicas = numberOfReplicas
  find_iff : ∀ position owner, ring.serverCircle.find position = some owner ↔
    servers owner ∧ position ∈ (new numberOfReplicas hash).points owner

theorem hasPoints_new (numberOfReplicas : Nat) (hash : CircleHash) :
    HasPoints (new numberOfReplicas hash) numberOfReplicas hash fun _ => False where
  hash_eq := rfl
  replicas_eq := rfl
  find_iff position owner := iff_of_false (fun hfind => by cases hfind) fun hnone => hnone.1

namespace HasPoints

variable {numberOfReplicas : Nat} {hash : CircleHash} {servers others : UInt32 → Prop}

theorem congr (hring : HasPoints ring numberOfReplicas hash servers)
    (hsame : ∀ serverid, servers serverid ↔ others serverid) :
    HasPoints ring numberOfReplicas hash others where
  hash_eq := hring.hash_eq
  replicas_eq := hring.replicas_eq
  find_iff position owner := by rw [hring.find_iff, hsame]

theorem points_eq (hring : HasPoints ring numberOfReplicas hash servers) (serverid : UInt32) :
    ring.points serverid = (new numberOfReplicas hash).points serverid := by
  unfold points point
  rw [hring.hash_eq, hring.replicas_eq]
  rfl

theorem addServer (hring : HasPoints ring numberOfReplicas hash servers)
    (hapart : Apart numberOfReplicas hash fun owner => owner = serverid ∨ servers owner) :
    HasPoints (ring.addServer serverid) numberOfReplicas hash
      fun owner => owner = serverid ∨ servers owner where
  hash_eq := hring.hash_eq
  replicas_eq := hring.replicas_eq
  find_iff position owner := by
    rw [addServer_find, hring.points_eq]
    split
    next hpoint =>
      constructor
      · intro hsame
        cases hsame
        exact ⟨Or.inl rfl, hpoint⟩
      · rintro ⟨howner, hpoint'⟩
        rw [hapart serverid owner (Or.inl rfl) howner position hpoint hpoint']
    next hpoint =>
      rw [hring.find_iff]
      constructor
      · exact fun hold => ⟨Or.inr hold.1, hold.2⟩
      · rintro ⟨rfl | hold, hpoint'⟩
        · exact absurd hpoint' hpoint
        · exact ⟨hold, hpoint'⟩

theorem removeServer (hring : HasPoints ring numberOfReplicas hash servers)
    (hapart : Apart numberOfReplicas hash fun owner => owner = serverid ∨ servers owner) :
    HasPoints (ring.removeServer serverid) numberOfReplicas hash
      fun owner => owner ≠ serverid ∧ servers owner where
  hash_eq := hring.hash_eq
  replicas_eq := hring.replicas_eq
  find_iff position owner := by
    rw [removeServer_find, hring.points_eq]
    split
    next hpoint =>
      apply iff_of_false (fun hnone => by cases hnone)
      rintro ⟨⟨hother, howner⟩, hpoint'⟩
      exact hother (hapart owner serverid (Or.inr howner) (Or.inl rfl) position hpoint' hpoint)
    next hpoint =>
      rw [hring.find_iff]
      constructor
      · rintro ⟨hold, hpoint'⟩
        refine ⟨⟨?_, hold⟩, hpoint'⟩
        rintro rfl
        exact hpoint hpoint'
      · exact fun hstay => ⟨hstay.1.2, hstay.2⟩

theorem isEmpty_iff (hring : HasPoints ring numberOfReplicas hash servers)
    (hreplicas : 0 < numberOfReplicas) :
    ring.serverCircle.isEmpty = true ↔ ∀ serverid, ¬ servers serverid := by
  rw [OrderedMap.isEmpty_iff]
  constructor
  · intro hnone serverid hserver
    have hpoint : (new numberOfReplicas hash).point serverid 0 ∈
        (new numberOfReplicas hash).points serverid :=
      List.mem_map_of_mem (List.mem_range.mpr hreplicas)
    have hfind := (hring.find_iff _ serverid).mpr ⟨hserver, hpoint⟩
    rw [hnone] at hfind
    cases hfind
  · intro hservers position
    cases hfind : ring.serverCircle.find position with
    | none => rfl
    | some owner => exact absurd ((hring.find_iff position owner).mp hfind).1 (hservers owner)

/-- Users go to one of the servers. -/
theorem getServer_mem (hring : HasPoints ring numberOfReplicas hash servers)
    (hreplicas : 0 < numberOfReplicas) (hsome : ∃ serverid, servers serverid) (uid : UInt32) :
    servers (ring.getServer uid) := by
  rw [getServer_eq]
  cases hnext : ring.serverCircle.clockwise (ring.hash.key uid).toNat with
  | none =>
      have hempty := (hring.isEmpty_iff hreplicas).mp (OrderedMap.clockwise_eq_none.mp hnext)
      obtain ⟨serverid, hserver⟩ := hsome
      exact absurd hserver (hempty serverid)
  | some entry =>
      obtain ⟨position, owner⟩ := entry
      exact ((hring.find_iff position owner).mp (OrderedMap.clockwise_find hnext)).1

theorem getServer_none (hring : HasPoints ring numberOfReplicas hash servers)
    (hnone : ∀ serverid, ¬ servers serverid) (uid : UInt32) : ring.getServer uid = noServer := by
  have hempty : ring.serverCircle.isEmpty = true := by
    rw [OrderedMap.isEmpty_iff]
    intro position
    cases hfind : ring.serverCircle.find position with
    | none => rfl
    | some owner => exact absurd ((hring.find_iff position owner).mp hfind).1 (hnone owner)
  rw [getServer_eq, OrderedMap.clockwise_eq_none.mpr hempty]
  rfl

end HasPoints

/-! ## Circles that were made in different ways -/

/-- Whatever the hash of the users is: where a user goes depends on the set of live
servers only, and removing a server moves only users that were on it. -/
def RoutesByLive (numberOfReplicas : Nat) (server : UInt32 → Nat → UInt32)
    (servers : UInt32 → Prop) : Prop :=
  ∀ key ops, (∀ op ∈ ops, servers op.server) →
    (∀ others, (∀ op ∈ others, servers op.server) → live others = live ops → ∀ uid,
      ((new numberOfReplicas ⟨server, key⟩).after others).getServer uid =
        ((new numberOfReplicas ⟨server, key⟩).after ops).getServer uid) ∧
    ∀ serverid, servers serverid → ∀ uid,
      (((new numberOfReplicas ⟨server, key⟩).after ops).removeServer serverid).getServer uid ≠
        ((new numberOfReplicas ⟨server, key⟩).after ops).getServer uid →
      ((new numberOfReplicas ⟨server, key⟩).after ops).getServer uid = serverid

theorem after_congr {numberOfReplicas : Nat} {hash : CircleHash} {servers : UInt32 → Prop}
    (hapart : Apart numberOfReplicas hash servers) {ops others : List Op}
    (hops : ∀ op ∈ ops, servers op.server) (hothers : ∀ op ∈ others, servers op.server)
    (hlive : live others = live ops) :
    ((new numberOfReplicas hash).after others).serverCircle =
      ((new numberOfReplicas hash).after ops).serverCircle := by
  apply OrderedMap.ext_find
  funext position
  apply Option.ext
  intro owner
  rw [after_find numberOfReplicas hash hapart hothers, hlive,
    after_find numberOfReplicas hash hapart hops]

theorem removeServer_moves {numberOfReplicas : Nat} {hash : CircleHash}
    {servers : UInt32 → Prop} (hapart : Apart numberOfReplicas hash servers) {ops : List Op}
    (hops : ∀ op ∈ ops, servers op.server) (hserver : servers serverid) {uid : UInt32}
    (hmoved : (((new numberOfReplicas hash).after ops).removeServer serverid).getServer uid ≠
      ((new numberOfReplicas hash).after ops).getServer uid) :
    ((new numberOfReplicas hash).after ops).getServer uid = serverid := by
  generalize hring : (new numberOfReplicas hash).after ops = ring at hmoved ⊢
  -- the circle loses points, and no point changes its server
  have hfewer : ∀ position,
      (ring.removeServer serverid).serverCircle.find position = none ∨
        (ring.removeServer serverid).serverCircle.find position =
          ring.serverCircle.find position := by
    intro position
    rw [removeServer_find]
    split
    · exact Or.inl rfl
    · exact Or.inr rfl
  rw [getServer_eq, getServer_eq] at hmoved
  rw [getServer_eq]
  cases hnext : ring.serverCircle.clockwise (ring.hash.key uid).toNat with
  | none =>
      have hempty := OrderedMap.isEmpty_iff.mp (OrderedMap.clockwise_eq_none.mp hnext)
      have hstill : (ring.removeServer serverid).serverCircle.clockwise
          (ring.hash.key uid).toNat = none := by
        rw [OrderedMap.clockwise_eq_none, OrderedMap.isEmpty_iff]
        intro position
        rcases hfewer position with hnone | hsame
        · exact hnone
        · rw [hsame, hempty position]
      rw [hnext] at hmoved
      exact absurd (by rw [← hstill]; rfl) hmoved
  | some entry =>
      obtain ⟨position, owner⟩ := entry
      have hfind := OrderedMap.clockwise_find hnext
      -- another server's point stays, and is still the first one clockwise
      by_contra hother
      change owner ≠ serverid at hother
      have howner := after_owner numberOfReplicas hash ops (hring ▸ hfind)
      have hkept : (ring.removeServer serverid).serverCircle.find position = some owner := by
        rw [removeServer_find, if_neg, hfind]
        intro hpoint
        rw [← hring, after_points] at hpoint
        obtain ⟨op, hmem, hsame⟩ := live_server howner.1
        exact hother (hapart owner serverid (hsame ▸ hops op hmem) hserver position howner.2 hpoint)
      apply hmoved
      rw [show (ring.removeServer serverid).hash = ring.hash from rfl, hnext,
        OrderedMap.clockwise_of_fewer hnext hfewer hkept]

theorem after_two_find (numberOfReplicas : Nat) (hash : CircleHash)
    (serverid other : UInt32) (position : Nat) :
    ((new numberOfReplicas hash).after [.add serverid, .add other]).serverCircle.find position =
      if position ∈ (new numberOfReplicas hash).points other then some other
      else if position ∈ (new numberOfReplicas hash).points serverid then some serverid
      else none := by
  change (((new numberOfReplicas hash).addServer serverid).addServer other).serverCircle.find
    position = _
  rw [addServer_find, addServer_find]
  rfl

/-- After two servers have come, a user at a shared point is on the last one. -/
theorem getServer_shared {numberOfReplicas : Nat} {hash : CircleHash}
    {serverid other uid : UInt32}
    (hshared : (hash.key uid).toNat ∈ (new numberOfReplicas hash).points other) :
    ((new numberOfReplicas hash).after [.add serverid, .add other]).getServer uid = other := by
  have hnext : ((new numberOfReplicas hash).after
      [.add serverid, .add other]).serverCircle.clockwise (hash.key uid).toNat =
        some ((hash.key uid).toNat, other) := by
    rw [OrderedMap.clockwise_eq_some]
    refine ⟨?_, Or.inl ⟨le_refl _, ?_⟩⟩
    · rw [after_two_find, if_pos hshared]
    · intro before hstart hbefore
      exact absurd hbefore (Nat.not_lt.mpr hstart)
  rw [getServer_eq, (after_fixed _ _).1, show (new numberOfReplicas hash).hash = hash from rfl,
    hnext]
  rfl

/-- So is a user behind all the points, when the shared point is the first. -/
theorem getServer_wraps {numberOfReplicas : Nat} {hash : CircleHash}
    {serverid other uid : UInt32} {position : Nat}
    (hshared : position ∈ (new numberOfReplicas hash).points other)
    (hpoints : ∀ point ∈ (new numberOfReplicas hash).points serverid ++
      (new numberOfReplicas hash).points other, position ≤ point ∧ point < (hash.key uid).toNat) :
    ((new numberOfReplicas hash).after [.add serverid, .add other]).getServer uid = other := by
  have houtside : ∀ point, point < position ∨ (hash.key uid).toNat ≤ point →
      ((new numberOfReplicas hash).after [.add serverid, .add other]).serverCircle.find point =
        none := by
    intro point hpoint
    have hfree : point ∉ (new numberOfReplicas hash).points serverid ++
        (new numberOfReplicas hash).points other := by
      intro hmem
      have hbounds := hpoints point hmem
      omega
    rw [List.mem_append, not_or] at hfree
    rw [after_two_find, if_neg hfree.2, if_neg hfree.1]
  have hnext : ((new numberOfReplicas hash).after
      [.add serverid, .add other]).serverCircle.clockwise (hash.key uid).toNat =
        some (position, other) := by
    rw [OrderedMap.clockwise_eq_some]
    refine ⟨?_, Or.inr ⟨?_, ?_⟩⟩
    · rw [after_two_find, if_pos hshared]
    · intro behind hbehind
      exact houtside behind (Or.inr hbehind)
    · intro before hbefore
      exact houtside before (Or.inl hbefore)
  rw [getServer_eq, (after_fixed _ _).1, show (new numberOfReplicas hash).hash = hash from rfl,
    hnext]
  rfl

/-- Where users go depends on the set of live servers only, for servers that come and
go, exactly when no two of them have a point in common. -/
theorem routesByLive_iff (numberOfReplicas : Nat) (server : UInt32 → Nat → UInt32)
    (key : UInt32 → UInt32) (servers : UInt32 → Prop) :
    RoutesByLive numberOfReplicas server servers ↔
      Apart numberOfReplicas ⟨server, key⟩ servers := by
  constructor
  · intro hroutes serverid other hserver hother position hpoint hpoint'
    rw [points, List.mem_map] at hpoint
    obtain ⟨i, hi, rfl⟩ := hpoint
    have hops : ∀ first second, servers first → servers second →
        ∀ op ∈ [Op.add first, .add second], servers op.server := by
      intro first second hfirst hsecond op hop
      rcases List.mem_pair.mp hop with rfl | rfl
      · exact hfirst
      · exact hsecond
    have hlive : live [.add serverid, .add other] = live [.add other, .add serverid] := by
      funext owner
      simp [live, Bool.or_comm]
    -- a user whose key is the common point goes to the server that came last
    have hsame := (hroutes (fun _ => server serverid i) _ (hops other serverid hother hserver)).1
      _ (hops serverid other hserver hother) hlive 0
    have hpoint : (server serverid i).toNat ∈
        (new numberOfReplicas ⟨server, fun _ => server serverid i⟩).points serverid :=
      List.mem_map.mpr ⟨i, hi, rfl⟩
    rw [getServer_shared hpoint', getServer_shared hpoint] at hsame
    exact hsame.symm
  · intro hapart key' ops hops
    have hapart' : Apart numberOfReplicas ⟨server, key'⟩ servers := hapart
    refine ⟨?_, ?_⟩
    · intro others hothers hlive uid
      rw [getServer_eq, getServer_eq, after_congr hapart' hops hothers hlive,
        ((new numberOfReplicas ⟨server, key'⟩).after_fixed others).1,
        ((new numberOfReplicas ⟨server, key'⟩).after_fixed ops).1]
    · intro serverid hserver uid hmoved
      exact removeServer_moves hapart' hops hserver hmoved

/-- Two servers with a common point, which is the first of the circle. -/
theorem order_matters :
    ((userConsistentFnvHash 200).after [.add 650257636, .add 1919186090]).getServer 1654 =
        1919186090 ∧
      ((userConsistentFnvHash 200).after [.add 1919186090, .add 650257636]).getServer 1654 =
        650257636 ∧
      live [.add 650257636, .add 1919186090] = live [.add 1919186090, .add 650257636] := by
  have hshared : 5020 ∈ (userConsistentFnvHash 200).points 650257636 ∧
      5020 ∈ (userConsistentFnvHash 200).points 1919186090 := by
    decide +kernel
  have hpoints : ∀ point ∈ (userConsistentFnvHash 200).points 650257636 ++
      (userConsistentFnvHash 200).points 1919186090,
      5020 ≤ point ∧ point < (fnvHash (leBytes 4 1654)).toNat := by
    decide +kernel
  refine ⟨getServer_wraps hshared.2 hpoints, getServer_wraps hshared.1 ?_, ?_⟩
  · intro point hpoint
    exact hpoints point (List.mem_append.mpr (List.mem_append.mp hpoint).symm)
  · funext owner
    simp [live, Bool.or_comm]

end ConsistentHash

end ServiceFrame
