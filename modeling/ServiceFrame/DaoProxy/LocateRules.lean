import Mathlib.Data.String.Basic
import ServiceFrame.DaoProxy.ThroughputStat
import ServiceFrame.Foundation.OrderedMap
import ServiceFrame.Foundation.ScopedSettings

/-! # Rules with a locate

The configuration says with a locate what a licence, a throttle or a route is for: the part `G`
is a group of proxies, `A` an app and `D` a dao. `ThroughputStat` and `RouteStrategy` of
`dao_proxy` load the rules one after the other into their tables.
-/

namespace ServiceFrame

open Foundation

/-- `LOCATE_TYPE`. -/
abbrev Locate := OrderedMap String String

/-- `ROUTESTRATEGY_TYPE`. -/
abbrev RouteRule := OrderedMap String String

namespace Locate

/-- The group of a locate, as `JLexical::Cast` reads it into a variable that holds 0. -/
def groupOf (cast : String → Int → Int) (locate : Locate) : Option Int :=
  (locate.find "G").map fun text => cast text 0

/-- The table and the key that a rule is kept under. -/
def ruleOf (locate : Locate) : Rule :=
  match locate.find "A", locate.find "D" with
  | some app, some dao => .appdao app dao
  | some app, none => .app app
  | none, some dao => .dao dao
  | none, none => .global

/-- The locates that `validate_conf_para` lets through. -/
def Bounded (locate : Locate) : Prop :=
  ∀ part ∈ locate.entries, part.1 = "A" ∨ part.1 = "D" ∨ part.1 = "G"

instance decidableBounded (locate : Locate) : Decidable locate.Bounded :=
  inferInstanceAs (Decidable (∀ part ∈ locate.entries, part.1 = "A" ∨ part.1 = "D" ∨ part.1 = "G"))

/-- A rule of the configuration holds in the group of its locate, or in all groups. -/
def settingOf {Value : Type} (cast : String → Int → Int) (rule : Locate × Value) :
    Setting Int Rule Value where
  scope := groupOf cast rule.1
  place := ruleOf rule.1
  value := rule.2

end Locate

namespace Rules

variable {Value : Type}

/-- No entry in the tables. -/
def cleared (isGlobal : Bool) (global : Value) : Rules Value where
  app _ := none
  dao _ := none
  appdao _ := none
  isGlobal := isGlobal
  global := global

def put (rules : Rules Value) (rule : Rule) (value : Value) : Rules Value :=
  match rule with
  | .global => { rules with isGlobal := true, global := value }
  | .app app => { rules with app := Function.update rules.app app (some value) }
  | .dao dao => { rules with dao := Function.update rules.dao dao (some value) }
  | .appdao app dao =>
      { rules with appdao := Function.update rules.appdao (app, dao) (some value) }

end Rules

/-- `RouteStrategy`, whose default counts when it is not empty. -/
structure RouteStrategy where
  appRoute : String → Option RouteRule
  daoRoute : String → Option RouteRule
  appdaoRoute : String × String → Option RouteRule
  defaultStrategy : RouteRule

namespace RouteStrategy

def cleared : RouteStrategy where
  appRoute _ := none
  daoRoute _ := none
  appdaoRoute _ := none
  defaultStrategy := OrderedMap.empty

def get (strategy : RouteStrategy) : Rule → Option RouteRule
  | .global =>
      if strategy.defaultStrategy.isEmpty then none else some strategy.defaultStrategy
  | .app app => strategy.appRoute app
  | .dao dao => strategy.daoRoute dao
  | .appdao app dao => strategy.appdaoRoute (app, dao)

def put (strategy : RouteStrategy) (rule : Rule) (route : RouteRule) : RouteStrategy :=
  match rule with
  | .global => { strategy with defaultStrategy := route }
  | .app app =>
      { strategy with appRoute := Function.update strategy.appRoute app (some route) }
  | .dao dao =>
      { strategy with daoRoute := Function.update strategy.daoRoute dao (some route) }
  | .appdao app dao =>
      { strategy with
        appdaoRoute := Function.update strategy.appdaoRoute (app, dao) (some route) }

/-- The filter of a call. -/
def getRouteStr (strategy : RouteStrategy) (request : Throttled) : RouteRule :=
  let appdao := do strategy.appdaoRoute (← request.appName, ← request.daoName)
  let dao := request.daoName.bind strategy.daoRoute
  let app := request.appName.bind strategy.appRoute
  ((appdao.or dao).or app).getD strategy.defaultStrategy

end RouteStrategy

/-! ## Loading -/

section Loading

variable (cast : String → Int → Int) (groupid : Int)

def licenceNotify (info : Rules Int) (licenceKey : Locate) : Rules Int :=
  if licenceKey.isEmpty then Rules.cleared true 1
  else if info.isGlobal then info
  else if (licenceKey.groupOf cast).any (· ≠ groupid) then info
  else
    match licenceKey.find "A", licenceKey.find "D" with
    | some app, some dao =>
        if (info.app app).isSome then info
        else if (info.dao dao).isSome then info
        else info.put (.appdao app dao) 1
    | some app, none => if (info.app app).isSome then info else info.put (.app app) 1
    | none, some dao => if (info.dao dao).isSome then info else info.put (.dao dao) 1
    | none, none => info -- such a key means nothing

def throttleNotify (info : Rules Int) (locate : Locate) (tickets : Int) : Rules Int :=
  if locate.isEmpty then if info.isGlobal then info else info.put .global tickets
  else
    match locate.groupOf cast with
    | some group => if group ≠ groupid then info else info.put locate.ruleOf tickets
    | none =>
        if (info.get locate.ruleOf).isSome then info else info.put locate.ruleOf tickets

def routeNotify (info : RouteStrategy) (locate : Locate) (rule : RouteRule) : RouteStrategy :=
  if locate.isEmpty then
    if info.defaultStrategy.isEmpty then info.put .global rule else info
  else
    match locate.groupOf cast with
    | some group => if group ≠ groupid then info else info.put locate.ruleOf rule
    | none =>
        match locate.ruleOf with
        | .global => info -- the locate has parts, and none that counts
        | place => if (info.get place).isSome then info else info.put place rule

def ThroughputStat.created : ThroughputStat where
  tickets := Rules.cleared false 0
  licence := Rules.cleared true 1
  block := Rules.cleared false ⟨0, 0, 0⟩

/-- The global count of tickets, until a rule sets it, is what the memory held. -/
def ThroughputStat.initLoadConf (stat : ThroughputStat) (throttles : List (Locate × Int))
    (licences : List Locate) (uninit : Int) : ThroughputStat :=
  { stat with
    tickets := throttles.foldl (fun info rule => throttleNotify cast groupid info rule.1 rule.2)
      (Rules.cleared false uninit)
    licence := licences.foldl (licenceNotify cast groupid) (Rules.cleared false 0) }

def RouteStrategy.initLoadConf (routes : List (Locate × RouteRule)) : RouteStrategy :=
  routes.foldl (fun info rule => routeNotify cast groupid info rule.1 rule.2)
    RouteStrategy.cleared

end Loading

/-! ## The tables -/

namespace Rules

variable {Value : Type} {rules : Rules Value} {request : Throttled}

theorem get_cleared (global : Value) : (cleared false global).get = fun _ => none := by
  funext rule
  cases rule <;> rfl

theorem get_put (rules : Rules Value) (rule : Rule) (value : Value) :
    (rules.put rule value).get = Function.update rules.get rule (some value) := by
  funext other
  cases rule <;> cases other <;> first | rfl | simp [put, get, Function.update_apply]

theorem covers_iff :
    rules.covers request = true ↔ ∃ rule ∈ request.rules, (rules.get rule).isSome = true := by
  rw [covers, List.any_eq_true]

theorem covers_of_isGlobal (request : Throttled) (hglobal : rules.isGlobal = true) :
    rules.covers request = true :=
  covers_iff.mpr ⟨.global, request.global_mem, by simp [get, hglobal]⟩

theorem covers_put {rule : Rule} {value : Value} :
    (rules.put rule value).covers request = true ↔
      rules.covers request = true ∨ rule ∈ request.rules := by
  simp only [covers_iff, get_put]
  constructor
  · rintro ⟨other, hother, hsome⟩
    by_cases heq : other = rule
    · exact Or.inr (heq ▸ hother)
    · rw [Function.update_of_ne heq] at hsome
      exact Or.inl ⟨other, hother, hsome⟩
  · rintro (⟨other, hother, hsome⟩ | hrule)
    · refine ⟨other, hother, ?_⟩
      by_cases heq : other = rule
      · rw [heq, Function.update_self]
        rfl
      · rwa [Function.update_of_ne heq]
    · exact ⟨rule, hrule, by rw [Function.update_self]; rfl⟩

/-- A request of a rule that is there is covered without it. -/
theorem covers_or_iff (rule : Rule) {named : Prop} (hsome : (rules.get rule).isSome = true)
    (hnamed : named → rule ∈ request.rules) :
    rules.covers request = true ↔ rules.covers request = true ∨ named :=
  ⟨Or.inl, fun hor => hor.elim id fun h => covers_iff.mpr ⟨rule, hnamed h, hsome⟩⟩

theorem covers_insert (rules : Rules Value) (rule : Rule) (value : Value) :
    (if (rules.get rule).isSome then rules else rules.put rule value).covers request = true ↔
      rules.covers request = true ∨ rule ∈ request.rules := by
  split
  next hsome => exact covers_or_iff rule hsome id
  next => exact covers_put

end Rules

namespace RouteStrategy

@[simp] theorem get_app (strategy : RouteStrategy) (app : String) :
    strategy.get (.app app) = strategy.appRoute app := rfl

@[simp] theorem get_dao (strategy : RouteStrategy) (dao : String) :
    strategy.get (.dao dao) = strategy.daoRoute dao := rfl

@[simp] theorem get_appdao (strategy : RouteStrategy) (app dao : String) :
    strategy.get (.appdao app dao) = strategy.appdaoRoute (app, dao) := rfl

theorem get_cleared : cleared.get = fun _ => none := by
  funext rule
  cases rule <;> rfl

theorem get_put (strategy : RouteStrategy) (rule : Rule) {route : RouteRule}
    (hroute : route.isEmpty = false) :
    (strategy.put rule route).get = Function.update strategy.get rule (some route) := by
  funext other
  cases rule <;> cases other <;> first | rfl | simp [put, get, Function.update_apply, hroute]

end RouteStrategy

/-! ## Licences -/

section Licences

variable {cast : String → Int → Int} {groupid : Int} {request : Throttled}

/-- A licence rule is for a request. -/
def LicenceMatches (cast : String → Int → Int) (groupid : Int) (licenceKey : Locate)
    (request : Throttled) : Prop :=
  licenceKey.isEmpty = true ∨
    ((∀ group, licenceKey.groupOf cast = some group → group = groupid) ∧
      (licenceKey.find "A" ≠ none ∨ licenceKey.find "D" ≠ none) ∧
      (∀ app, licenceKey.find "A" = some app → request.appName = some app) ∧
      ∀ dao, licenceKey.find "D" = some dao → request.daoName = some dao)

/-- The parts of a locate are those of a request when it is under the rule of the locate. -/
theorem Locate.named_iff (locate : Locate) :
    ((locate.find "A" ≠ none ∨ locate.find "D" ≠ none) ∧
        (∀ app, locate.find "A" = some app → request.appName = some app) ∧
        ∀ dao, locate.find "D" = some dao → request.daoName = some dao) ↔
      locate.ruleOf ≠ .global ∧ locate.ruleOf ∈ request.rules := by
  unfold ruleOf
  cases locate.find "A" with
  | none =>
      cases locate.find "D" with
      | none => simp
      | some dao => simp [Throttled.dao_mem_iff]
  | some app =>
      cases locate.find "D" with
      | none => simp [Throttled.app_mem_iff]
      | some dao => simp [Throttled.appdao_mem_iff]

theorem licenceMatches_iff {licenceKey : Locate} (hempty : ¬ licenceKey.isEmpty = true) :
    LicenceMatches cast groupid licenceKey request ↔
      (licenceKey.groupOf cast).any (· ≠ groupid) = false ∧
        licenceKey.ruleOf ≠ .global ∧ licenceKey.ruleOf ∈ request.rules := by
  rw [LicenceMatches, or_iff_right hempty, Locate.named_iff]
  refine and_congr_left fun _ => ?_
  cases licenceKey.groupOf cast <;> simp

/-- A key of the own group is put where it belongs, unless a wider one is there. -/
theorem covers_licenceNotify (info : Rules Int) (licenceKey : Locate) :
    (licenceNotify cast groupid info licenceKey).covers request = true ↔
      info.covers request = true ∨ LicenceMatches cast groupid licenceKey request := by
  unfold licenceNotify
  by_cases hempty : licenceKey.isEmpty = true
  · rw [if_pos hempty]
    exact iff_of_true (Rules.covers_of_isGlobal request rfl) (Or.inr (Or.inl hempty))
  rw [if_neg hempty, licenceMatches_iff hempty]
  by_cases hglobal : info.isGlobal = true
  · rw [if_pos hglobal]
    have hcovers := Rules.covers_of_isGlobal request hglobal
    exact iff_of_true hcovers (Or.inl hcovers)
  rw [if_neg hglobal]
  cases hother : (licenceKey.groupOf cast).any (· ≠ groupid) with
  | true => simp
  | false =>
      rw [if_neg Bool.false_ne_true, and_iff_right rfl, Locate.ruleOf]
      cases licenceKey.find "A" with
      | none =>
          cases licenceKey.find "D" with
          | none => simp
          | some dao =>
              dsimp only
              rw [and_iff_right (show Rule.dao dao ≠ .global from nofun)]
              exact info.covers_insert (.dao dao) 1
      | some app =>
          cases licenceKey.find "D" with
          | none =>
              dsimp only
              rw [and_iff_right (show Rule.app app ≠ .global from nofun)]
              exact info.covers_insert (.app app) 1
          | some dao =>
              dsimp only
              rw [and_iff_right (show Rule.appdao app dao ≠ .global from nofun)]
              split
              next hsome =>
                exact Rules.covers_or_iff (.app app) hsome fun hboth =>
                  Throttled.app_mem_iff.mpr (Throttled.appdao_mem_iff.mp hboth).1
              next =>
                split
                next hsome =>
                  exact Rules.covers_or_iff (.dao dao) hsome fun hboth =>
                    Throttled.dao_mem_iff.mpr (Throttled.appdao_mem_iff.mp hboth).2
                next => exact Rules.covers_put

theorem covers_licences (licences : List Locate) (info : Rules Int) :
    (licences.foldl (licenceNotify cast groupid) info).covers request = true ↔
      info.covers request = true ∨
        ∃ licenceKey ∈ licences, LicenceMatches cast groupid licenceKey request := by
  induction licences generalizing info with
  | nil => simp
  | cons licenceKey rest ih =>
      rw [List.foldl_cons, ih, covers_licenceNotify, or_assoc, List.exists_mem_cons_iff]

namespace ThroughputStat

theorem innerCheckLicence_eq (stat : ThroughputStat) (app : String) (dao : Option String) :
    stat.innerCheckLicence ⟨some app, dao⟩ = stat.licence.covers ⟨some app, dao⟩ := by
  cases hglobal : stat.licence.isGlobal with
  | true =>
      rw [Rules.covers_of_isGlobal _ hglobal]
      exact if_pos hglobal
  | false =>
      cases dao <;>
        simp [innerCheckLicence, Rules.covers, Throttled.rules, Rules.get, hglobal, Bool.or_assoc]

variable (stat : ThroughputStat) (throttles : List (Locate × Int)) (uninit : Int)

theorem initLoadConf_licensed (licences : List Locate) (app : String) (dao : Option String) :
    (stat.initLoadConf cast groupid throttles licences uninit).innerCheckLicence
        ⟨some app, dao⟩ = true ↔
      ∃ licenceKey ∈ licences, LicenceMatches cast groupid licenceKey ⟨some app, dao⟩ := by
  have hnone : (Rules.cleared false (0 : Int)).covers ⟨some app, dao⟩ ≠ true := by
    rw [ne_eq, Rules.covers_iff, Rules.get_cleared]
    rintro ⟨rule, -, hsome⟩
    cases hsome
  rw [innerCheckLicence_eq, initLoadConf, covers_licences, or_iff_right hnone]

/-- In whatever order the licences come, a call of an app is let through when one of them is
for it. -/
theorem licensed_iff {licences loaded : List Locate} (hloaded : loaded.Perm licences)
    (app : String) (dao : Option String) :
    ((stat.initLoadConf cast groupid throttles loaded uninit).innerCheckLicence
          ⟨some app, dao⟩ = true ↔
        ∃ licenceKey ∈ licences, LicenceMatches cast groupid licenceKey ⟨some app, dao⟩) ∧
      (stat.initLoadConf cast groupid throttles loaded uninit).innerCheckLicence
          ⟨some app, dao⟩ =
        (stat.initLoadConf cast groupid throttles licences uninit).innerCheckLicence
          ⟨some app, dao⟩ := by
  have hsame : (stat.initLoadConf cast groupid throttles loaded uninit).innerCheckLicence
          ⟨some app, dao⟩ = true ↔
        ∃ licenceKey ∈ licences, LicenceMatches cast groupid licenceKey ⟨some app, dao⟩ := by
    rw [initLoadConf_licensed]
    simp only [hloaded.mem_iff]
  refine ⟨hsame, Bool.eq_iff_iff.mpr ?_⟩
  rw [hsame, initLoadConf_licensed]

/-- A reader of the groups 1 and 2. -/
def readDigit (text : String) (held : Int) : Int :=
  if text = "1" then 1 else if text = "2" then 2 else held

/-- A proxy of group 1 with a licence for an app in its group and one for a dao. -/
theorem app_licensed :
    (created.initLoadConf readDigit 1 []
        [OrderedMap.empty.set "D" "user", (OrderedMap.empty.set "A" "im").set "G" "1"] 0
      ).innerCheckLicence ⟨some "im", none⟩ = true :=
  (licensed_iff created [] 0 (List.Perm.swap _ _ []) "im" none).1.mpr
    ⟨_, List.mem_cons_self, Or.inr ⟨by decide, by decide, by decide, by decide⟩⟩

end ThroughputStat

end Licences

/-! ## Throttles and routes -/

section Scopes

variable {cast : String → Int → Int} {groupid : Int}

namespace Locate

theorem ruleOf_of_isEmpty {locate : Locate} (hempty : locate.isEmpty = true) :
    locate.ruleOf = .global := by
  have hnone := OrderedMap.isEmpty_iff.mp hempty
  simp only [ruleOf, hnone]

theorem groupOf_of_isEmpty {locate : Locate} (hempty : locate.isEmpty = true) :
    locate.groupOf cast = none := by
  rw [groupOf, OrderedMap.isEmpty_iff.mp hempty, Option.map_none]

/-- A locate that is let through has one of the three parts, or it is empty. -/
theorem Bounded.isEmpty {locate : Locate} (hbounded : locate.Bounded)
    (hgroup : locate.groupOf cast = none) (hrule : locate.ruleOf = .global) :
    locate.isEmpty = true := by
  have hG : locate.find "G" = none := Option.map_eq_none_iff.mp hgroup
  have hAD : locate.find "A" = none ∧ locate.find "D" = none := by
    unfold ruleOf at hrule
    split at hrule
    next => cases hrule
    next => cases hrule
    next => cases hrule
    next happ hdao => exact ⟨happ, hdao⟩
  rw [OrderedMap.isEmpty_iff]
  intro part
  cases hfind : locate.find part with
  | none => rfl
  | some text =>
      rcases hbounded _ (OrderedMap.mem_entries.mpr hfind) with rfl | rfl | rfl
      · rw [hAD.1] at hfind
        cases hfind
      · rw [hAD.2] at hfind
        cases hfind
      · rw [hG] at hfind
        cases hfind

end Locate

theorem get_throttleNotify (info : Rules Int) (locate : Locate) (tickets : Int) :
    (throttleNotify cast groupid info locate tickets).get =
      Setting.apply groupid info.get ⟨locate.groupOf cast, locate.ruleOf, tickets⟩ := by
  unfold throttleNotify
  by_cases hempty : locate.isEmpty = true
  · rw [if_pos hempty, Locate.groupOf_of_isEmpty hempty, Locate.ruleOf_of_isEmpty hempty,
      Setting.apply_unscoped]
    cases hglobal : info.isGlobal with
    | true => simp [Rules.get, hglobal]
    | false => simp [Rules.get_put, Rules.get, hglobal]
  · rw [if_neg hempty]
    cases locate.groupOf cast with
    | none =>
        rw [Setting.apply_unscoped]
        dsimp only
        split
        next => rfl
        next => rw [Rules.get_put]
    | some group =>
        rw [Setting.apply_scoped]
        dsimp only
        by_cases hown : group = groupid
        · rw [if_pos hown, if_neg (not_not.mpr hown), Rules.get_put]
        · rw [if_neg hown, if_pos hown]

theorem get_tickets (throttles : List (Locate × Int)) (info : Rules Int) :
    (throttles.foldl (fun info rule => throttleNotify cast groupid info rule.1 rule.2) info).get =
      (throttles.map (Locate.settingOf cast)).foldl (Setting.apply groupid) info.get := by
  induction throttles generalizing info with
  | nil => rfl
  | cons rule rest ih =>
      rw [List.foldl_cons, ih, get_throttleNotify, List.map_cons, List.foldl_cons]
      rfl

namespace RouteStrategy

/-- The rules of a group cover, and those of no group are for what is not there yet. -/
theorem get_routeNotify (info : RouteStrategy) {locate : Locate} {rule : RouteRule}
    (hbounded : locate.Bounded) (hrule : rule.isEmpty = false) :
    (routeNotify cast groupid info locate rule).get =
      Setting.apply groupid info.get ⟨locate.groupOf cast, locate.ruleOf, rule⟩ := by
  have hinsert : ∀ place, (if (info.get place).isSome then info else info.put place rule).get =
      Setting.apply groupid info.get ⟨none, place, rule⟩ := by
    intro place
    rw [Setting.apply_unscoped]
    split
    next => rfl
    next => rw [get_put info place hrule]
  unfold routeNotify
  by_cases hempty : locate.isEmpty = true
  · rw [if_pos hempty, Locate.groupOf_of_isEmpty hempty, Locate.ruleOf_of_isEmpty hempty,
      ← hinsert]
    cases hdefault : info.defaultStrategy.isEmpty with
    | true => simp [get, hdefault]
    | false => simp [get, hdefault]
  · rw [if_neg hempty]
    cases hgroup : locate.groupOf cast with
    | none =>
        dsimp only
        cases hplace : locate.ruleOf with
        | global => exact absurd (hbounded.isEmpty hgroup hplace) hempty
        | app app => exact hinsert (.app app)
        | dao dao => exact hinsert (.dao dao)
        | appdao app dao => exact hinsert (.appdao app dao)
    | some group =>
        rw [Setting.apply_scoped]
        dsimp only
        by_cases hown : group = groupid
        · rw [if_pos hown, if_neg (not_not.mpr hown), get_put info _ hrule]
        · rw [if_neg hown, if_pos hown]

theorem get_routes {routes : List (Locate × RouteRule)}
    (hbounded : ∀ rule ∈ routes, rule.1.Bounded)
    (hcontent : ∀ rule ∈ routes, rule.2.isEmpty = false) (info : RouteStrategy) :
    (routes.foldl (fun info rule => routeNotify cast groupid info rule.1 rule.2) info).get =
      (routes.map (Locate.settingOf cast)).foldl (Setting.apply groupid) info.get := by
  induction routes generalizing info with
  | nil => rfl
  | cons rule rest ih =>
      rw [List.foldl_cons, ih (fun rule h => hbounded rule (List.mem_cons_of_mem _ h))
          (fun rule h => hcontent rule (List.mem_cons_of_mem _ h)),
        get_routeNotify info (hbounded rule List.mem_cons_self) (hcontent rule List.mem_cons_self),
        List.map_cons, List.foldl_cons]
      rfl

theorem get_global_getD (strategy : RouteStrategy) :
    (strategy.get .global).getD OrderedMap.empty = strategy.defaultStrategy := by
  simp only [get]
  split
  next hempty =>
    exact OrderedMap.ext_find (funext fun key => (OrderedMap.isEmpty_iff.mp hempty key).symm)
  next => rfl

end RouteStrategy

end Scopes

/-! ## The order of the rules -/

section Order

variable {cast : String → Int → Int} {groupid : Int} {Value : Type}

/-- No two rules have the same group, app and dao. -/
def Distinct (cast : String → Int → Int) (rules : List (Locate × Value)) : Prop :=
  (rules.map fun rule => (rule.1.groupOf cast, rule.1.ruleOf)).Nodup

instance decidableDistinct (cast : String → Int → Int) (rules : List (Locate × Value)) :
    Decidable (Distinct cast rules) :=
  inferInstanceAs (Decidable (rules.map fun rule => (rule.1.groupOf cast, rule.1.ruleOf)).Nodup)

/-- What the rules say of a place: the rule of the own group, and else that of no group. -/
def ruleAt (cast : String → Int → Int) (groupid : Int) (rules : List (Locate × Value)) :
    Rule → Option Value :=
  Setting.resolve groupid (rules.map (Locate.settingOf cast))

/-- The rules that a call may be routed by, the most specific one first. -/
def Throttled.places : Throttled → List Rule
  | ⟨none, none⟩ => [.global]
  | ⟨some app, none⟩ => [.app app, .global]
  | ⟨none, some dao⟩ => [.dao dao, .global]
  | ⟨some app, some dao⟩ => [.appdao app dao, .dao dao, .app app, .global]

theorem RouteStrategy.getRouteStr_eq (strategy : RouteStrategy) (request : Throttled) :
    strategy.getRouteStr request =
      (request.places.findSome? strategy.get).getD OrderedMap.empty := by
  have hlast := strategy.get_global_getD
  rcases request with ⟨_ | app, _ | dao⟩
  · simp [getRouteStr, Throttled.places, hlast]
  · cases hdao : strategy.daoRoute dao with
    | some route => simp [getRouteStr, Throttled.places, hdao]
    | none => simp [getRouteStr, Throttled.places, hlast, hdao]
  · cases happ : strategy.appRoute app with
    | some route => simp [getRouteStr, Throttled.places, happ]
    | none => simp [getRouteStr, Throttled.places, hlast, happ]
  · cases happdao : strategy.appdaoRoute (app, dao) with
    | some route => simp [getRouteStr, Throttled.places, happdao]
    | none =>
        cases hdao : strategy.daoRoute dao with
        | some route => simp [getRouteStr, Throttled.places, happdao, hdao]
        | none =>
            cases happ : strategy.appRoute app with
            | some route => simp [getRouteStr, Throttled.places, happdao, hdao, happ]
            | none => simp [getRouteStr, Throttled.places, happdao, hdao, happ, hlast]

theorem Distinct.keys {rules : List (Locate × Value)} (hdistinct : Distinct cast rules) :
    ((rules.map (Locate.settingOf cast)).map Setting.key).Nodup := by
  rwa [List.map_map]

theorem ruleAt_perm {rules loaded : List (Locate × Value)} (hdistinct : Distinct cast rules)
    (hloaded : loaded.Perm rules) : ruleAt cast groupid loaded = ruleAt cast groupid rules :=
  Setting.resolve_perm (hloaded.map _) hdistinct.keys

theorem Distinct.perm {rules loaded : List (Locate × Value)} (hdistinct : Distinct cast rules)
    (hloaded : loaded.Perm rules) : Distinct cast loaded :=
  (hloaded.map _).nodup_iff.mpr hdistinct

theorem tickets_get {throttles : List (Locate × Int)} (hdistinct : Distinct cast throttles)
    (stat : ThroughputStat) (licences : List Locate) (uninit : Int) :
    (stat.initLoadConf cast groupid throttles licences uninit).tickets.get =
      ruleAt cast groupid throttles := by
  rw [ThroughputStat.initLoadConf, get_tickets, Rules.get_cleared,
    Setting.foldl_apply hdistinct.keys]
  rfl

theorem routes_get {routes : List (Locate × RouteRule)} (hdistinct : Distinct cast routes)
    (hbounded : ∀ rule ∈ routes, rule.1.Bounded)
    (hcontent : ∀ rule ∈ routes, rule.2.isEmpty = false) :
    (RouteStrategy.initLoadConf cast groupid routes).get = ruleAt cast groupid routes := by
  rw [RouteStrategy.initLoadConf, RouteStrategy.get_routes hbounded hcontent,
    RouteStrategy.get_cleared, Setting.foldl_apply hdistinct.keys]
  rfl

/-- In whatever order the rules come, a call is routed by the most specific one, and each
counter of tickets has the value for the own group, or else that for no group. -/
theorem resolved_by_specificity {routes loadedRoutes : List (Locate × RouteRule)}
    {throttles loadedThrottles : List (Locate × Int)}
    (hroutes : Distinct cast routes) (hthrottles : Distinct cast throttles)
    (hbounded : ∀ rule ∈ routes, rule.1.Bounded)
    (hcontent : ∀ rule ∈ routes, rule.2.isEmpty = false)
    (hloadedRoutes : loadedRoutes.Perm routes) (hloadedThrottles : loadedThrottles.Perm throttles)
    (stat : ThroughputStat) (licences : List Locate) (uninit : Int) :
    (∀ request,
        (RouteStrategy.initLoadConf cast groupid loadedRoutes).getRouteStr request =
          (request.places.findSome? (ruleAt cast groupid routes)).getD OrderedMap.empty) ∧
      ∀ place,
        (stat.initLoadConf cast groupid loadedThrottles licences uninit).tickets.get place =
          ruleAt cast groupid throttles place := by
  constructor
  · intro request
    rw [RouteStrategy.getRouteStr_eq, routes_get (hroutes.perm hloadedRoutes)
        (fun rule h => hbounded rule (hloadedRoutes.mem_iff.mp h))
        (fun rule h => hcontent rule (hloadedRoutes.mem_iff.mp h)),
      ruleAt_perm hroutes hloadedRoutes]
  · intro place
    rw [tickets_get (hthrottles.perm hloadedThrottles), ruleAt_perm hthrottles hloadedThrottles]

def appLocate : Locate := OrderedMap.empty.set "A" "im"

def ownAppLocate : Locate := appLocate.set "G" "1"

def forced (group : String) : RouteRule := OrderedMap.empty.set "F" group

/-- The rule of group 1 wins for its app, though that of no group comes later. -/
theorem own_app_resolved :
    (RouteStrategy.initLoadConf ThroughputStat.readDigit 1
        [(ownAppLocate, forced "2"), (appLocate, forced "1")]
      ).getRouteStr ⟨some "im", none⟩ = forced "2" ∧
    (ThroughputStat.created.initLoadConf ThroughputStat.readDigit 1
        [(ownAppLocate, 10), (appLocate, 5)] [] 0
      ).tickets.get (.app "im") = some 10 := by
  have hresolved := @resolved_by_specificity ThroughputStat.readDigit 1
    [(appLocate, forced "1"), (ownAppLocate, forced "2")] _ [(appLocate, 5), (ownAppLocate, 10)] _
    (by decide) (by decide) (by decide) (by decide) (List.Perm.swap _ _ []) (List.Perm.swap _ _ [])
    ThroughputStat.created [] 0
  exact ⟨hresolved.1 ⟨some "im", none⟩, hresolved.2 (.app "im")⟩

end Order

end ServiceFrame
