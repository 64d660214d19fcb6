import Mathlib.Data.List.Basic
import Mathlib.Order.Bounds.Basic

/-! # The ports a server listens on

`SimplePrxServer` binds a socket for each expected port, to the port itself or to one of the
next. `create` makes a socket, sets its options, binds it and listens; any of this may throw a
`socket_error`.
-/

namespace ServiceFrame

/-- What comes of `create`, by the calls of `createHelper` so far and the port. A call tries
each port once. -/
structure PortBinds where
  fails : Nat → UInt16 → Bool
  /-- The port that a bind to port 0 gives. -/
  ephemeral : Nat → UInt16
  ephemeral_ne : ∀ calls, ephemeral calls ≠ 0

/-- A helper, by the port its socket is bound to. -/
structure ServerSocketHelper where
  port : UInt16
deriving DecidableEq

structure SimplePrxServer where
  helpers : List (Option ServerSocketHelper)
  expectPorts : List UInt16
  curports : List UInt16
  /-- The calls of `createHelper` so far. -/
  calls : Nat

/-- What `startSV` and `resetPorts` leave, and the pointers that they call `start` on. -/
structure Startup where
  server : SimplePrxServer
  started : List (Option ServerSocketHelper)

def PortBinds.create (binds : PortBinds) (calls : Nat) (p : UInt16) : Option ServerSocketHelper :=
  if binds.fails calls p then none
  else some ⟨if p = 0 then binds.ephemeral calls else p⟩

/-- The loop of `createHelper` from `i` on. The port is an `int` until it is passed on. -/
def PortBinds.createFrom (binds : PortBinds) (calls : Nat) (front : UInt16) :
    Nat → Nat → Option (ServerSocketHelper × UInt16)
  | 0, _ => none
  | left + 1, i =>
      if front.toNat + i = 445 then binds.createFrom calls front left (i + 1)
      else
        match binds.create calls (UInt16.ofNat (front.toNat + i)) with
        | some ret => some (ret, UInt16.ofNat (front.toNat + i))
        | none => binds.createFrom calls front left (i + 1)

namespace SimplePrxServer

variable (binds : PortBinds)

def createHelper (server : SimplePrxServer) : Option ServerSocketHelper × SimplePrxServer :=
  let next := { server with calls := server.calls + 1 }
  match server.expectPorts with
  | [] => (none, next)
  | front :: rest =>
      match binds.createFrom server.calls front 1000 0 with
      | some (ret, p) =>
          (some ret, { next with curports := server.curports ++ [p], expectPorts := rest })
      | none => (none, next)

/-- The loop that creates helpers while ports are expected; there is no result when the fuel
runs out. -/
def createHelpers : Nat → SimplePrxServer → Option SimplePrxServer
  | 0, server => if server.expectPorts = [] then some server else none
  | fuel + 1, server =>
      if server.expectPorts = [] then some server
      else
        let (helper, next) := server.createHelper binds
        createHelpers fuel { next with helpers := next.helpers ++ [helper] }

def startSV (fuel : Nat) (server : SimplePrxServer) : Option Startup :=
  (createHelpers binds fuel server).map fun server => ⟨server, server.helpers⟩

/-- `helpers.clear()` and so on, of `resetPorts`. -/
def cleared (server : SimplePrxServer) (ports : List UInt16) : SimplePrxServer :=
  { server with helpers := [], curports := [], expectPorts := ports }

def resetPorts (fuel : Nat) (server : SimplePrxServer) (ports : List UInt16) : Option Startup :=
  (createHelpers binds fuel (server.cleared ports)).map fun server => ⟨server, server.helpers⟩

end SimplePrxServer

/-! ## What the ports should be -/

namespace PortBinds

/-- The port is there, is not 445, and can be bound. -/
def Listenable (binds : PortBinds) (calls port : Nat) : Prop :=
  port < 65536 ∧ port ≠ 445 ∧ binds.fails calls (UInt16.ofNat port) = false

instance (binds : PortBinds) (calls port : Nat) : Decidable (binds.Listenable calls port) :=
  inferInstanceAs (Decidable (_ ∧ _ ∧ _))

/-- The first port within the attempts for an expected one, if there is any. -/
def firstPort (binds : PortBinds) (calls : Nat) (front : UInt16) : Option UInt16 :=
  ((List.range' front.toNat 1000).find? fun port => binds.Listenable calls port).map UInt16.ofNat

/-- The first port of each expected one, in order. -/
def firstPorts (binds : PortBinds) : Nat → List UInt16 → List UInt16
  | _, [] => []
  | calls, front :: rest =>
      (binds.firstPort calls front).toList ++ binds.firstPorts (calls + 1) rest

/-- Each expected port has a first port, which is not 0. -/
def Available (binds : PortBinds) : Nat → List UInt16 → Prop
  | _, [] => True
  | calls, front :: rest =>
      (∃ p, binds.firstPort calls front = some p ∧ p ≠ 0) ∧ binds.Available (calls + 1) rest

end PortBinds

/-- The server has a helper for each of the first ports, bound to it, and starts no null one. -/
structure SimplePrxServer.Serves (binds : PortBinds) (server : SimplePrxServer) (done : Startup) :
    Prop where
  noNull : none ∉ done.started
  curports : done.server.curports =
    server.curports ++ binds.firstPorts server.calls server.expectPorts
  bound : ∃ helpers, done.server.helpers = server.helpers ++ helpers ∧
    helpers.map (Option.map ServerSocketHelper.port) =
      (binds.firstPorts server.calls server.expectPorts).map some

/-! ## One port -/

namespace PortBinds

variable {binds : PortBinds} {calls : Nat} {front : UInt16}

/-- The first port is the least of those that the attempts may take. -/
theorem firstPort_isLeast {p : UInt16} (hfirst : binds.firstPort calls front = some p) :
    IsLeast {port | front.toNat ≤ port ∧ port < front.toNat + 1000 ∧
      binds.Listenable calls port} p.toNat := by
  obtain ⟨port, hfind, rfl⟩ := Option.map_eq_some_iff.mp hfirst
  obtain ⟨hlisten, hmem, hbefore⟩ := List.find?_range'_eq_some.mp hfind
  rw [List.mem_range'_1] at hmem
  have hlisten := of_decide_eq_true hlisten
  have hport : (UInt16.ofNat port).toNat = port := UInt16.toNat_ofNat_of_lt' hlisten.1
  rw [hport]
  refine ⟨⟨hmem.1, hmem.2, hlisten⟩, fun other hother => ?_⟩
  by_contra hless
  simpa [hother.2.2] using hbefore other hother.1 (Nat.lt_of_not_le hless)

/-- The loop ends at the first port, whatever there is behind the last one. -/
theorem createFrom_of_find {left i port : Nat}
    (hfind : (List.range' (front.toNat + i) left).find? (fun port => binds.Listenable calls port) =
      some port) :
    ∃ ret, binds.createFrom calls front left i = some (ret, UInt16.ofNat port) := by
  induction left generalizing i with
  | zero => cases hfind
  | succ left ih =>
      rw [List.range'_succ] at hfind
      rw [createFrom]
      by_cases hhead : binds.Listenable calls (front.toNat + i)
      · rw [List.find?_cons_of_pos (by simpa using hhead)] at hfind
        cases hfind
        obtain ⟨-, hskip, hworks⟩ := hhead
        rw [if_neg hskip, create, hworks]
        exact ⟨_, rfl⟩
      · rw [List.find?_cons_of_neg (by simpa using hhead), Nat.add_assoc] at hfind
        split
        · exact ih hfind
        next hskip =>
          have hport : front.toNat + i < 65536 := by
            have hmem := List.mem_of_find?_eq_some hfind
            have hlisten := List.find?_some hfind
            rw [List.mem_range'_1] at hmem
            have hsmall := (of_decide_eq_true hlisten).1
            omega
          have hfails : binds.fails calls (UInt16.ofNat (front.toNat + i)) = true := by
            by_contra hworks
            exact hhead ⟨hport, hskip, by simpa using hworks⟩
          rw [create, hfails]
          exact ih hfind

theorem createFrom_port {left i : Nat} {created : ServerSocketHelper × UInt16}
    (hcreate : binds.createFrom calls front left i = some created) :
    created.1.port = if created.2 = 0 then binds.ephemeral calls else created.2 := by
  induction left generalizing i with
  | zero => cases hcreate
  | succ left ih =>
      rw [createFrom] at hcreate
      split at hcreate
      · exact ih hcreate
      · split at hcreate
        next ret hret =>
          cases hcreate
          rw [create, Option.ite_none_left_eq_some] at hret
          cases hret.2
          rfl
        next => exact ih hcreate

theorem createFrom_of_firstPort {p : UInt16} (hfirst : binds.firstPort calls front = some p) :
    ∃ ret, binds.createFrom calls front 1000 0 = some (ret, p) := by
  obtain ⟨port, hfind, rfl⟩ := Option.map_eq_some_iff.mp hfirst
  exact createFrom_of_find (by rwa [Nat.add_zero])

/-- The helpers that calls of `createHelper` make for the expected ports, one call each. -/
def Created (binds : PortBinds) : Nat → List UInt16 → List (ServerSocketHelper × UInt16) → Prop
  | _, [], [] => True
  | calls, front :: rest, created :: more =>
      binds.createFrom calls front 1000 0 = some created ∧ binds.Created (calls + 1) rest more
  | _, _, _ => False

theorem Created.length {ports : List UInt16} {made : List (ServerSocketHelper × UInt16)}
    (hmade : binds.Created calls ports made) : made.length = ports.length := by
  induction ports generalizing calls made with
  | nil =>
      cases made with
      | nil => rfl
      | cons created more => exact hmade.elim
  | cons front rest ih =>
      cases made with
      | nil => exact hmade.elim
      | cons created more => rw [List.length_cons, List.length_cons, ih hmade.2]

theorem length_firstPorts_le (calls : Nat) (ports : List UInt16) :
    (binds.firstPorts calls ports).length ≤ ports.length := by
  induction ports generalizing calls with
  | nil => exact Nat.le_refl 0
  | cons front rest ih =>
      have hrest := ih (calls + 1)
      rw [firstPorts, List.length_append, List.length_cons]
      cases binds.firstPort calls front with
      | none =>
          rw [Option.toList_none, List.length_nil]
          omega
      | some p =>
          rw [Option.toList_some, List.length_singleton]
          omega

/-- The helpers are as they should be exactly when there are ports for them. -/
theorem created_iff_available (calls : Nat) (ports : List UInt16) :
    (∃ made, binds.Created calls ports made ∧
        made.map Prod.snd = binds.firstPorts calls ports ∧
        ∀ created ∈ made, created.1.port = created.2) ↔
      binds.Available calls ports := by
  induction ports generalizing calls with
  | nil => exact iff_of_true ⟨[], trivial, rfl, fun _ hmem => by cases hmem⟩ trivial
  | cons front rest ih =>
      rw [Available, ← ih]
      constructor
      · rintro ⟨made, hmade, hports, hbound⟩
        cases made with
        | nil => exact hmade.elim
        | cons created more =>
            have hcount := congrArg List.length hports
            rw [firstPorts, List.length_append, List.length_map, List.length_cons,
              hmade.2.length] at hcount
            have hmore := @length_firstPorts_le binds (calls + 1) rest
            -- As many ports as there are expected ones: none of them is without.
            cases hfirst : binds.firstPort calls front with
            | none =>
                rw [hfirst] at hcount
                exact absurd hcount (by simp; omega)
            | some p =>
                rw [firstPorts, hfirst] at hports
                obtain ⟨hp, hports⟩ := List.cons.inj hports
                refine ⟨⟨p, rfl, ?_⟩, more, hmade.2, hports, fun other hother =>
                  hbound other (List.mem_cons_of_mem _ hother)⟩
                have hport := createFrom_port hmade.1
                rw [hbound created List.mem_cons_self, hp] at hport
                rintro rfl
                rw [if_pos rfl] at hport
                exact binds.ephemeral_ne calls hport.symm
      · rintro ⟨⟨p, hfirst, hp⟩, more, hmade, hports, hbound⟩
        obtain ⟨ret, hcreate⟩ := createFrom_of_firstPort hfirst
        have hport := createFrom_port hcreate
        refine ⟨(ret, p) :: more, ⟨hcreate, hmade⟩, by rw [firstPorts, hfirst, ← hports]; rfl, ?_⟩
        intro created hmem
        rcases List.mem_cons.mp hmem with rfl | hmem
        · rwa [if_neg hp] at hport
        · exact hbound created hmem

end PortBinds

/-! ## All of them -/

namespace SimplePrxServer

variable {binds : PortBinds} {server done : SimplePrxServer} {fuel : Nat}

/-- The server when its helpers have been made. -/
def served (server : SimplePrxServer) (made : List (ServerSocketHelper × UInt16)) :
    SimplePrxServer :=
  { helpers := server.helpers ++ made.map fun created => some created.1
    expectPorts := []
    curports := server.curports ++ made.map Prod.snd
    calls := server.calls + made.length }

/-- One more round of the loop. -/
theorem createHelpers_some {front : UInt16} {rest : List UInt16}
    {created : ServerSocketHelper × UInt16} (hports : server.expectPorts = front :: rest)
    (hcreate : binds.createFrom server.calls front 1000 0 = some created) :
    createHelpers binds (fuel + 1) server =
      createHelpers binds fuel
        { helpers := server.helpers ++ [some created.1], expectPorts := rest,
          curports := server.curports ++ [created.2], calls := server.calls + 1 } := by
  rw [createHelpers, if_neg (by simp [hports])]
  simp only [createHelper, hports, hcreate]

/-- A round that changes nothing but the helpers, to which it adds a null one. -/
theorem createHelpers_none {front : UInt16} {rest : List UInt16}
    (hports : server.expectPorts = front :: rest)
    (hcreate : binds.createFrom server.calls front 1000 0 = none) :
    createHelpers binds (fuel + 1) server =
      createHelpers binds fuel
        { server with helpers := server.helpers ++ [none], calls := server.calls + 1 } := by
  rw [createHelpers, if_neg (by simp [hports])]
  simp only [createHelper, hports, hcreate]

theorem createHelpers_of_created {made : List (ServerSocketHelper × UInt16)}
    (hmade : binds.Created server.calls server.expectPorts made)
    (hfuel : made.length ≤ fuel) :
    createHelpers binds fuel server = some (server.served made) := by
  induction made generalizing server fuel with
  | nil =>
      cases hports : server.expectPorts with
      | nil =>
          have hserved : server.served [] = server := by
            rw [served, ← hports]
            simp
          cases fuel with
          | zero => rw [createHelpers, if_pos hports, hserved]
          | succ fuel => rw [createHelpers, if_pos hports, hserved]
      | cons front rest =>
          rw [hports] at hmade
          exact hmade.elim
  | cons created more ih =>
      cases hports : server.expectPorts with
      | nil =>
          rw [hports] at hmade
          exact hmade.elim
      | cons front rest =>
          rw [hports] at hmade
          cases fuel with
          | zero => exact absurd hfuel (Nat.not_succ_le_zero _)
          | succ fuel =>
              rw [createHelpers_some hports hmade.1, ih hmade.2 (Nat.le_of_succ_le_succ hfuel)]
              simp [served, Nat.add_comm, Nat.add_left_comm]

/-- A loop that ends has made a helper for each expected port, unless it has kept a null one. -/
theorem created_of_createHelpers (hdone : createHelpers binds fuel server = some done)
    (hnull : none ∉ done.helpers) :
    ∃ made, binds.Created server.calls server.expectPorts made ∧ done = server.served made := by
  induction fuel generalizing server with
  | zero =>
      rw [createHelpers, Option.ite_none_right_eq_some] at hdone
      obtain ⟨hports, hdone⟩ := hdone
      cases hdone
      refine ⟨[], by rw [hports]; trivial, ?_⟩
      rw [served, ← hports]
      simp
  | succ fuel ih =>
      cases hports : server.expectPorts with
      | nil =>
          rw [createHelpers, if_pos hports] at hdone
          cases hdone
          refine ⟨[], trivial, ?_⟩
          rw [served, ← hports]
          simp
      | cons front rest =>
          cases hcreate : binds.createFrom server.calls front 1000 0 with
          | none =>
              rw [createHelpers_none hports hcreate] at hdone
              obtain ⟨made, hmade, rfl⟩ := ih hdone
              refine absurd ?_ hnull
              simp [served]
          | some created =>
              rw [createHelpers_some hports hcreate] at hdone
              obtain ⟨made, hmade, rfl⟩ := ih hdone
              refine ⟨created :: made, ⟨hcreate, hmade⟩, ?_⟩
              simp [served, Nat.add_comm, Nat.add_left_comm]

/-- The server serves its ports exactly when each of them has a port to listen on. -/
theorem serves_iff (server : SimplePrxServer) :
    (∃ fuel done, createHelpers binds fuel server = some done ∧
        server.Serves binds ⟨done, done.helpers⟩) ↔
      none ∉ server.helpers ∧ binds.Available server.calls server.expectPorts := by
  rw [← PortBinds.created_iff_available]
  constructor
  · rintro ⟨fuel, done, hdone, hserves⟩
    obtain ⟨made, hmade, rfl⟩ := created_of_createHelpers hdone hserves.noNull
    obtain ⟨helpers, hhelpers, hbound⟩ := hserves.bound
    have hports := List.append_cancel_left hserves.curports
    have hmatches : made.map (fun created => some created.1.port) =
        made.map fun created => some created.2 := by
      rw [← List.append_cancel_left hhelpers, ← hports, List.map_map, List.map_map] at hbound
      exact hbound
    refine ⟨fun hnull => hserves.noNull (List.mem_append_left _ hnull), made, hmade, hports, ?_⟩
    intro created hmem
    exact Option.some.inj (List.map_inj_left.mp hmatches created hmem)
  · rintro ⟨hnull, made, hmade, hports, hbound⟩
    refine ⟨made.length, server.served made, createHelpers_of_created hmade (Nat.le_refl _), ?_, ?_,
      made.map fun created => some created.1, rfl, ?_⟩
    · simpa [served] using hnull
    · rw [← hports]
      rfl
    · rw [← hports, List.map_map, List.map_map]
      refine List.map_congr_left fun created hmem => ?_
      exact congrArg some (hbound created hmem)

theorem exists_startup {good : Startup → Prop} :
    (∃ fuel done, (createHelpers binds fuel server).map
        (fun server => (⟨server, server.helpers⟩ : Startup)) = some done ∧ good done) ↔
      ∃ fuel done, createHelpers binds fuel server = some done ∧ good ⟨done, done.helpers⟩ := by
  refine exists_congr fun fuel => ⟨?_, ?_⟩
  · rintro ⟨startup, hstartup, hgood⟩
    obtain ⟨done, hdone, rfl⟩ := Option.map_eq_some_iff.mp hstartup
    exact ⟨done, hdone, hgood⟩
  · rintro ⟨done, hdone, hgood⟩
    exact ⟨_, Option.map_eq_some_iff.mpr ⟨done, hdone, rfl⟩, hgood⟩

/-- Both calls end with the ports that are wanted, and a helper on each, exactly when there is a
port other than 0 for each of them, and `startSV` finds no null helper from before. -/
theorem listens_iff_available (binds : PortBinds) (server : SimplePrxServer)
    (ports : List UInt16) :
    ((∃ fuel done, startSV binds fuel server = some done ∧ server.Serves binds done) ↔
      none ∉ server.helpers ∧ binds.Available server.calls server.expectPorts) ∧
    ((∃ fuel done, resetPorts binds fuel server ports = some done ∧
        (server.cleared ports).Serves binds done) ↔
      binds.Available server.calls ports) := by
  refine ⟨exists_startup.trans (serves_iff server), exists_startup.trans ?_⟩
  rw [serves_iff]
  exact and_iff_right List.not_mem_nil

/-- Without a port to bind the loop goes on for ever, and takes a null helper each time round. -/
theorem createHelpers_endless (hfails : ∀ calls p, binds.fails calls p = true)
    (hports : server.expectPorts ≠ []) (fuel : Nat) : createHelpers binds fuel server = none := by
  have hnone : ∀ calls front left i, binds.createFrom calls front left i = none := by
    intro calls front left
    induction left with
    | zero => exact fun i => rfl
    | succ left ih =>
        intro i
        rw [PortBinds.createFrom, PortBinds.create, hfails]
        split
        · exact ih (i + 1)
        · exact ih (i + 1)
  obtain ⟨front, rest, hfront⟩ := List.exists_cons_of_ne_nil hports
  induction fuel generalizing server with
  | zero => rw [createHelpers, if_neg hports]
  | succ fuel ih =>
      rw [createHelpers_none hfront (hnone _ _ _ _)]
      exact ih hports hfront

/-- A binds without sockets to give. -/
def exhausted : PortBinds := ⟨fun _ _ => true, fun _ => 49152, fun _ => by decide⟩

theorem startSV_endless :
    ¬ ∃ fuel done, startSV exhausted fuel ⟨[], [8000], [], 0⟩ = some done ∧
      SimplePrxServer.Serves exhausted ⟨[], [8000], [], 0⟩ done := by
  rintro ⟨fuel, done, hdone, -⟩
  rw [startSV, createHelpers_endless (fun _ _ => rfl) (List.cons_ne_nil _ _)] at hdone
  cases hdone

end SimplePrxServer

end ServiceFrame
