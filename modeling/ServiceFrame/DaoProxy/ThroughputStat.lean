import Mathlib.Tactic.SplitIfs
import ServiceFrame.Foundation.Run

/-! # Admission control

`ThroughputStat` of `dao_proxy`, between two refills. A licence, a ticket counter and a
temporary block may be for all requests, for an app, for a dao, or for an app with a dao.
-/

namespace ServiceFrame

open Foundation

/-- The two names of `check_and_get_tickets`; a null pointer is `none`. -/
structure Throttled where
  appName : Option String
  daoName : Option String
deriving DecidableEq, Repr

/-- What a licence, a ticket counter or a block is for. -/
inductive Rule where
  | global
  | app (appName : String)
  | dao (daoName : String)
  | appdao (appName daoName : String)
deriving DecidableEq, Repr

/-- The rules that a request is under. -/
def Throttled.rules : Throttled → List Rule
  | ⟨none, none⟩ => [.global]
  | ⟨some app, none⟩ => [.global, .app app]
  | ⟨none, some dao⟩ => [.global, .dao dao]
  | ⟨some app, some dao⟩ => [.global, .app app, .dao dao, .appdao app dao]

/-- Three maps, and a value that counts when its flag is set. -/
structure Rules (Value : Type) where
  app : String → Option Value
  dao : String → Option Value
  appdao : String × String → Option Value
  isGlobal : Bool
  global : Value

namespace Rules

variable {Value : Type}

def get (rules : Rules Value) : Rule → Option Value
  | .global => if rules.isGlobal then some rules.global else none
  | .app app => rules.app app
  | .dao dao => rules.dao dao
  | .appdao app dao => rules.appdao (app, dao)

/-- A counter of the request is used up. -/
def soldOut (cur : Value → Int) (rules : Rules Value) (request : Throttled) : Bool :=
  request.rules.any fun rule => (rules.get rule).any fun value => cur value ≤ 0

/-- All counters of the request are lowered. -/
def minus (lower : Value → Value) (rules : Rules Value) (request : Throttled) : Rules Value where
  app app := if request.appName = some app then (rules.app app).map lower else rules.app app
  dao dao := if request.daoName = some dao then (rules.dao dao).map lower else rules.dao dao
  appdao names :=
    if request.appName = some names.1 ∧ request.daoName = some names.2 then
      (rules.appdao names).map lower
    else rules.appdao names
  isGlobal := rules.isGlobal
  global := if rules.isGlobal then lower rules.global else rules.global

end Rules

structure TBlock where
  cur : Int
  max : Int
  recharge : Int
deriving DecidableEq, Repr

/-- `cur--`. -/
def TBlock.minus (block : TBlock) : TBlock := { block with cur := block.cur - 1 }

structure ThroughputStat where
  tickets : Rules Int
  licence : Rules Int
  block : Rules TBlock

namespace ThroughputStat

/-- A call without an app is let through before its dao is looked up. -/
def innerCheckLicence (stat : ThroughputStat) (request : Throttled) : Bool :=
  if stat.licence.isGlobal then true
  else
    match request with
    | ⟨none, _⟩ => true
    | ⟨some app, none⟩ => (stat.licence.app app).isSome
    | ⟨some app, some dao⟩ =>
        (stat.licence.app app).isSome || (stat.licence.dao dao).isSome ||
          (stat.licence.appdao (app, dao)).isSome

def checkAndGetBlock (stat : ThroughputStat) (request : Throttled) : Bool × ThroughputStat :=
  if stat.block.soldOut TBlock.cur request then (false, stat)
  else (true, { stat with block := stat.block.minus TBlock.minus request })

/-- 0: one ticket is got; 1: no ticket is left; 2: no licence; 3: a temporary block. -/
def checkAndGetTickets (stat : ThroughputStat) (request : Throttled) : Nat × ThroughputStat :=
  if !stat.innerCheckLicence request then (2, stat)
  else
    match stat.checkAndGetBlock request with
    | (false, stat) => (3, stat)
    | (true, stat) =>
        if stat.tickets.soldOut id request then (1, stat)
        else (0, { stat with tickets := stat.tickets.minus (· - 1) request })

def step (stat : ThroughputStat) (request : Throttled) : Option ThroughputStat :=
  some (stat.checkAndGetTickets request).2

/-- The requests of a sequence that are admitted. -/
def admitted : ThroughputStat → List Throttled → List Throttled
  | _, [] => []
  | stat, request :: rest =>
      let (result, next) := stat.checkAndGetTickets request
      if result = 0 then request :: admitted next rest else admitted next rest

end ThroughputStat

/-! ## What a request is charged to -/

namespace Throttled

variable {request : Throttled}

theorem global_mem (request : Throttled) : Rule.global ∈ request.rules := by
  rcases request with ⟨_ | app, _ | dao⟩ <;> simp [rules]

theorem app_mem_iff {app : String} : Rule.app app ∈ request.rules ↔ request.appName = some app := by
  rcases request with ⟨_ | app, _ | dao⟩ <;> simp [rules, eq_comm]

theorem dao_mem_iff {dao : String} : Rule.dao dao ∈ request.rules ↔ request.daoName = some dao := by
  rcases request with ⟨_ | app, _ | dao⟩ <;> simp [rules, eq_comm]

theorem appdao_mem_iff {app dao : String} : Rule.appdao app dao ∈ request.rules ↔
    request.appName = some app ∧ request.daoName = some dao := by
  rcases request with ⟨_ | app, _ | dao⟩ <;> simp [rules, eq_comm]

end Throttled

namespace Rules

variable {Value : Type} {rules : Rules Value} {request : Throttled} {lower : Value → Value}

/-- The counters of the request are lowered, and no other. -/
theorem get_minus (rules : Rules Value) (request : Throttled) (lower : Value → Value)
    (rule : Rule) : (rules.minus lower request).get rule =
      if rule ∈ request.rules then (rules.get rule).map lower else rules.get rule := by
  cases rule with
  | global =>
      rw [if_pos request.global_mem]
      simp only [get, minus]
      split <;> rfl
  | app app => simp only [get, minus, Throttled.app_mem_iff]
  | dao dao => simp only [get, minus, Throttled.dao_mem_iff]
  | appdao app dao => simp only [get, minus, Throttled.appdao_mem_iff]

/-- A counter of the request is there. -/
def covers (rules : Rules Value) (request : Throttled) : Bool :=
  request.rules.any fun rule => (rules.get rule).isSome

/-- Rules are known by what they have for each request, and by the value that does not count. -/
theorem ext_get {first second : Rules Value} (hflag : first.isGlobal = second.isGlobal)
    (hglobal : first.global = second.global) (hget : ∀ rule, first.get rule = second.get rule) :
    first = second := by
  have happ : first.app = second.app := funext fun name => hget (.app name)
  have hdao : first.dao = second.dao := funext fun name => hget (.dao name)
  have happdao : first.appdao = second.appdao := funext fun names => hget (.appdao names.1 names.2)
  cases first
  cases second
  simp only [mk.injEq]
  exact ⟨happ, hdao, happdao, hflag, hglobal⟩

theorem minus_uncovered (hcovers : rules.covers request = false) :
    rules.minus lower request = rules := by
  have hnone : ∀ rule ∈ request.rules, rules.get rule = none := by
    intro rule hrule
    have hall := List.any_eq_false.mp hcovers rule hrule
    simpa using hall
  have hflag : rules.isGlobal = false := by
    have hget := hnone .global request.global_mem
    simpa [get] using hget
  refine ext_get rfl ?_ fun rule => ?_
  · simp [minus, hflag]
  · rw [get_minus]
    split
    next hrule => rw [hnone rule hrule, Option.map_none]
    next => rfl

theorem soldOut_eq_false {cur : Value → Int} (hfree : rules.soldOut cur request = false)
    {rule : Rule} (hrule : rule ∈ request.rules) {value : Value}
    (hvalue : rules.get rule = some value) : 0 < cur value := by
  have hall := List.any_eq_false.mp hfree rule hrule
  simpa [hvalue] using hall

end Rules

namespace ThroughputStat

variable {stat : ThroughputStat} {request : Throttled}

/-- The four ways that a call can go. -/
theorem checkAndGetTickets_cases (stat : ThroughputStat) (request : Throttled) :
    (stat.innerCheckLicence request = false ∧
        stat.checkAndGetTickets request = (2, stat)) ∨
      (stat.innerCheckLicence request = true ∧ stat.block.soldOut TBlock.cur request = true ∧
        stat.checkAndGetTickets request = (3, stat)) ∨
      (stat.innerCheckLicence request = true ∧ stat.block.soldOut TBlock.cur request = false ∧
        stat.tickets.soldOut id request = true ∧
        stat.checkAndGetTickets request =
          (1, { stat with block := stat.block.minus TBlock.minus request })) ∨
      (stat.block.soldOut TBlock.cur request = false ∧ stat.tickets.soldOut id request = false ∧
        stat.checkAndGetTickets request =
          (0, { stat with
            block := stat.block.minus TBlock.minus request
            tickets := stat.tickets.minus (· - 1) request })) := by
  unfold checkAndGetTickets checkAndGetBlock
  cases stat.innerCheckLicence request with
  | false => exact Or.inl ⟨rfl, rfl⟩
  | true =>
      cases hblock : stat.block.soldOut TBlock.cur request with
      | true => exact Or.inr (Or.inl ⟨rfl, rfl, by simp⟩)
      | false =>
          cases htickets : stat.tickets.soldOut id request with
          | true => exact Or.inr (Or.inr (Or.inl ⟨rfl, rfl, rfl, by simp [htickets]⟩))
          | false => exact Or.inr (Or.inr (Or.inr ⟨rfl, rfl, by simp [htickets]⟩))

/-- What is promised of one call. -/
structure Fair (stat : ThroughputStat) (request : Throttled) : Prop where
  rejected : (stat.checkAndGetTickets request).1 ≠ 0 →
    (stat.checkAndGetTickets request).2 = stat
  tickets : ∀ rule value, stat.tickets.get rule = some value → value ≤ 0 →
    (stat.checkAndGetTickets request).2.tickets.get rule = some value
  blocks : ∀ rule block, stat.block.get rule = some block → block.cur ≤ 0 →
    (stat.checkAndGetTickets request).2.block.get rule = some block

/-- No call that passes a block of its own finds the tickets sold out. -/
def Keeps (stat : ThroughputStat) (request : Throttled) : Prop :=
  ¬ (stat.innerCheckLicence request = true ∧ stat.block.soldOut TBlock.cur request = false ∧
    stat.block.covers request = true ∧ stat.tickets.soldOut id request = true)

/-- The counters after a number of admitted requests. -/
structure Charged (stat last : ThroughputStat) (count : Rule → Nat) : Prop where
  tickets : ∀ rule, last.tickets.get rule = (stat.tickets.get rule).map (· - (count rule : Int))
  blocks : ∀ rule, last.block.get rule =
    (stat.block.get rule).map fun block => { block with cur := block.cur - (count rule : Int) }

/-- A counter that is not positive is not among those that a request passes. -/
theorem get_minus_of_nonpos {Value : Type} {rules : Rules Value} {cur : Value → Int}
    {lower : Value → Value} {rule : Rule} {value : Value}
    (hfree : rules.soldOut cur request = false) (hvalue : rules.get rule = some value)
    (hlow : cur value ≤ 0) : (rules.minus lower request).get rule = some value := by
  rw [Rules.get_minus]
  split
  next hrule => exact absurd hlow (Int.not_le.mpr (Rules.soldOut_eq_false hfree hrule hvalue))
  next => exact hvalue

theorem fair_of_keeps (hkeeps : Keeps stat request) : Fair stat request := by
  rcases stat.checkAndGetTickets_cases request with ⟨-, hcall⟩ | ⟨-, -, hcall⟩ |
    ⟨hlicence, hfree, hsold, hcall⟩ | ⟨hfree, hleft, hcall⟩
  · refine ⟨fun _ => ?_, fun _ _ hvalue _ => ?_, fun _ _ hblock _ => ?_⟩
    · rw [hcall]
    · rwa [hcall]
    · rwa [hcall]
  · refine ⟨fun _ => ?_, fun _ _ hvalue _ => ?_, fun _ _ hblock _ => ?_⟩
    · rw [hcall]
    · rwa [hcall]
    · rwa [hcall]
  · -- the blocks were lowered before the tickets were looked at
    have hcovers : stat.block.covers request = false := by
      rw [← Bool.not_eq_true]
      exact fun hcovers => hkeeps ⟨hlicence, hfree, hcovers, hsold⟩
    rw [Rules.minus_uncovered hcovers] at hcall
    refine ⟨fun _ => ?_, fun _ _ hvalue _ => ?_, fun _ _ hblock _ => ?_⟩
    · rw [hcall]
    · rwa [hcall]
    · rwa [hcall]
  · refine ⟨fun hresult => ?_, fun rule value hvalue hlow => ?_, fun rule block hblock hlow => ?_⟩
    · rw [hcall] at hresult
      exact absurd rfl hresult
    · rw [hcall]
      exact get_minus_of_nonpos hleft hvalue hlow
    · rw [hcall]
      exact get_minus_of_nonpos hfree hblock hlow

theorem keeps_of_fair (hfair : Fair stat request) : Keeps stat request := by
  rintro ⟨hlicence, hfree, hcovers, hsold⟩
  rcases stat.checkAndGetTickets_cases request with ⟨hnone, -⟩ | ⟨-, hused, -⟩ |
    ⟨-, -, -, hcall⟩ | ⟨-, hleft, -⟩
  · exact absurd (hlicence.symm.trans hnone) (by decide)
  · exact absurd (hused.symm.trans hfree) (by decide)
  · -- a rejected call would have to leave the block it has lowered
    have hsame : { stat with block := stat.block.minus TBlock.minus request } = stat := by
      have hrejected := hfair.rejected
      rw [hcall] at hrejected
      exact hrejected Nat.one_ne_zero
    obtain ⟨rule, hrule, hsome⟩ := List.any_eq_true.mp hcovers
    obtain ⟨block, hblock⟩ := Option.isSome_iff_exists.mp hsome
    have hget := congrArg (fun stat => stat.block.get rule) hsame
    simp only [Rules.get_minus, if_pos hrule, hblock, Option.map_some, Option.some.injEq] at hget
    have hcur := congrArg TBlock.cur hget
    simp only [TBlock.minus] at hcur
    omega
  · exact absurd (hsold.symm.trans hleft) (by decide)

theorem Charged.refl (stat : ThroughputStat) : Charged stat stat fun _ => 0 where
  tickets rule := by simp
  blocks rule := by simp

theorem Charged.trans {stat next last : ThroughputStat} {first second : Rule → Nat}
    (hfirst : Charged stat next first) (hsecond : Charged next last second) :
    Charged stat last fun rule => first rule + second rule where
  tickets rule := by
    rw [hsecond.tickets, hfirst.tickets, Option.map_map]
    congr 1
    funext value
    simp only [Function.comp_apply]
    omega
  blocks rule := by
    rw [hsecond.blocks, hfirst.blocks, Option.map_map]
    congr 1
    funext block
    simp only [Function.comp_apply, TBlock.mk.injEq, and_true]
    omega

/-- A call that keeps to it is charged to the rules of its request when it is admitted. -/
theorem charged_call (hkeeps : Keeps stat request) :
    Charged stat (stat.checkAndGetTickets request).2 fun rule =>
      if (stat.checkAndGetTickets request).1 = 0 ∧ rule ∈ request.rules then 1 else 0 := by
  by_cases hresult : (stat.checkAndGetTickets request).1 = 0
  · -- only the last of the four ways answers with 0
    rcases stat.checkAndGetTickets_cases request with ⟨-, hcall⟩ | ⟨-, -, hcall⟩ |
      ⟨-, -, -, hcall⟩ | ⟨-, -, hcall⟩
    · rw [hcall] at hresult
      cases hresult
    · rw [hcall] at hresult
      cases hresult
    · rw [hcall] at hresult
      cases hresult
    · rw [hcall]
      refine ⟨fun rule => ?_, fun rule => ?_⟩
      · simp only [Rules.get_minus, true_and]
        split
        · rfl
        · simp
      · simp only [Rules.get_minus, true_and]
        split
        · rfl
        · simp
  · rw [(fair_of_keeps hkeeps).rejected hresult]
    simp only [hresult, false_and, if_false]
    exact Charged.refl stat

theorem run_charged {calls : List Throttled} (hkeeps : Along step Keeps stat calls) :
    ∃ last, run step stat calls = some last ∧
      Charged stat last fun rule =>
        (admitted stat calls).countP fun request => rule ∈ request.rules := by
  induction calls generalizing stat with
  | nil => exact ⟨stat, rfl, Charged.refl stat⟩
  | cons request rest ih =>
      obtain ⟨last, hrun, hlast⟩ := ih (hkeeps.2 _ rfl)
      refine ⟨last, hrun, ?_⟩
      have hall := (charged_call hkeeps.1).trans hlast
      have hcount : ∀ rule, (if (stat.checkAndGetTickets request).1 = 0 ∧ rule ∈ request.rules
            then 1 else 0) +
          (admitted (stat.checkAndGetTickets request).2 rest).countP
            (fun request => rule ∈ request.rules) =
          (admitted stat (request :: rest)).countP fun request => rule ∈ request.rules := by
        intro rule
        by_cases hresult : (stat.checkAndGetTickets request).1 = 0
        · simp only [admitted, hresult, true_and, if_true, List.countP_cons, decide_eq_true_eq]
          exact Nat.add_comm _ _
        · simp only [admitted, hresult, false_and, if_false, Nat.zero_add]
      simpa only [hcount] using hall

/-- What is promised of a sequence of calls. -/
structure ChargesExactly (stat : ThroughputStat) (calls : List Throttled) : Prop where
  charged : ∃ last, run step stat calls = some last ∧
    Charged stat last fun rule => (admitted stat calls).countP fun request => rule ∈ request.rules
  fair : Along step Fair stat calls

/-- The admitted requests are charged, and they only, exactly when no request that has passed
a temporary block of its own is then turned away by the tickets. -/
theorem chargesExactly_iff (stat : ThroughputStat) (calls : List Throttled) :
    ChargesExactly stat calls ↔ Along step Keeps stat calls := by
  have hsame : Fair = Keeps := by
    funext stat request
    exact propext ⟨keeps_of_fair, fair_of_keeps⟩
  constructor
  · intro hcharges
    exact hsame ▸ hcharges.fair
  · intro hkeeps
    exact ⟨run_charged hkeeps, hsame ▸ hkeeps⟩

/-- An app with a temporary block of five requests, and with no ticket. -/
def blockedApp : ThroughputStat where
  tickets :=
    ⟨fun app => if app = "im" then some 0 else none, fun _ => none, fun _ => none, false, 0⟩
  licence := ⟨fun _ => none, fun _ => none, fun _ => none, true, 1⟩
  block :=
    ⟨fun app => if app = "im" then some ⟨5, 5, 3⟩ else none, fun _ => none, fun _ => none, false,
      ⟨0, 0, 0⟩⟩

/-- Its request is turned away, and the block has one less. -/
theorem rejected_charged : ¬ ChargesExactly blockedApp [⟨some "im", none⟩] := by
  intro hcharges
  have hblocks := congrArg (fun stat => stat.block.get (.app "im"))
    (hcharges.fair.1.rejected (by decide))
  exact absurd hblocks (by decide)

end ThroughputStat

end ServiceFrame
