import ServiceFrame.DaoProxy.DaoManager
import ServiceFrame.Foundation.Tally

/-! # The traffic statistics

`TrafficStat` of `dao_proxy` counts what is sent to the daos and what comes back, in six tables
at once, and the errors by their codes. Every ten seconds the tables become the last ones, a
text about them is put in front of the history, and new ones are begun. Left out: the response
times that the servers are predicted to have, and the clock in the texts.
-/

namespace ServiceFrame

open Foundation

/-- `TrafficStat::EachSTAT`. -/
structure EachSTAT (Num : Type) where
  sendNum : Int
  recvNum : Int
  dropNum : Int
  aveRespTime : Num

namespace EachSTAT

variable {Num : Type} [Floating Num]

def new : EachSTAT Num := ⟨0, 0, 0, 0.0⟩

/-- `ave_resp_time` moves towards `rtime` by the share of `cnt` in all. -/
def recvOneResp (each : EachSTAT Num) (rtime : Num) (cnt : Int) : EachSTAT Num :=
  let recvNum := each.recvNum + cnt
  let k := Floating.float (Floating.float (cnt : Num) / Floating.float (recvNum : Num))
  let diff := Floating.float (Floating.float (rtime - each.aveRespTime) * k)
  { each with recvNum := recvNum, aveRespTime := Floating.float (each.aveRespTime + diff) }

end EachSTAT

/-- What a call of `stat_send_one` or `stat_recv_one` is about. -/
structure TrafficCall where
  toGid : Int
  daoserver : String
  appName : Option String
  daoName : Option String

/-- The tables of ten seconds: those that are filled, or with `last` in their names those of
the ten seconds before. -/
structure TrafficTables (Num : Type) where
  togroupStat : OrderedMap Int (EachSTAT Num)
  appStat : OrderedMap String (EachSTAT Num)
  daoStat : OrderedMap String (EachSTAT Num)
  serverDaoStat : OrderedMap String (OrderedMap String (EachSTAT Num))
  appDaoStat : OrderedMap String (OrderedMap String (EachSTAT Num))
  stat : EachSTAT Num
  errorCount : OrderedMap Int Int

namespace TrafficTables

variable {Num : Type} [Floating Num]

def new : TrafficTables Num := ⟨.empty, .empty, .empty, .empty, .empty, .new, .empty⟩

/-- The entries that a call is for are changed, those that are not there made first. -/
def each (tables : TrafficTables Num) (call : TrafficCall)
    (change : EachSTAT Num → EachSTAT Num) : TrafficTables Num :=
  { tables with
    togroupStat := tables.togroupStat.adjust .new call.toGid change
    appStat := match call.appName with
      | some app => tables.appStat.adjust .new app change
      | none => tables.appStat
    appDaoStat := match call.appName, call.daoName with
      | some app, some dao =>
          tables.appDaoStat.adjust .empty app fun daos => daos.adjust .new dao change
      | _, _ => tables.appDaoStat
    daoStat := match call.daoName with
      | some dao => tables.daoStat.adjust .new dao change
      | none => tables.daoStat
    serverDaoStat := match call.daoName with
      | some dao => tables.serverDaoStat.adjust .empty call.daoserver fun daos =>
          daos.adjust .new dao change
      | none => tables.serverDaoStat
    stat := change tables.stat }

def statSendOne (tables : TrafficTables Num) (call : TrafficCall) (sendCnt : Int) :
    TrafficTables Num :=
  tables.each call fun each => { each with sendNum := each.sendNum + sendCnt }

def statRecvOne (tables : TrafficTables Num) (call : TrafficCall) (recvCnt : Int)
    (respTime : Num) : TrafficTables Num :=
  if recvCnt < 0 then tables.each call fun each => { each with dropNum := each.dropNum + 1 }
  else tables.each call fun each => each.recvOneResp respTime recvCnt

def statErrorOne (tables : TrafficTables Num) (errorCode : Int) : TrafficTables Num :=
  { tables with errorCount := tables.errorCount.adjust 0 errorCode (· + 1) }

end TrafficTables

structure TrafficStat (Num : Type) where
  current : TrafficTables Num
  last : TrafficTables Num
  /-- What the texts of the history are about, with their numbers. -/
  logHistroy : List (UInt64 × TrafficTables Num)
  logHisSize : Int
  incseq : UInt64

namespace TrafficStat

variable {Num : Type} [Floating Num]

/-- The constructor puts a text about nothing into the history. -/
def new : TrafficStat Num := ⟨.new, .new, [(0, .new)], 1, 0⟩

def swapStat (stat : TrafficStat Num) : TrafficStat Num :=
  let incseq := stat.incseq + 1
  let pushed := (incseq, stat.current) :: stat.logHistroy
  let size := stat.logHisSize + 1
  let full : Bool := size > 3600
  { current := .new
    last := stat.current
    logHistroy := if full then pushed.dropLast else pushed
    logHisSize := if full then size - 1 else size
    incseq := incseq }

/-- The number that was sent to the dao in the last tables, if it is in them. -/
def getDaoLastSendcnt (stat : TrafficStat Num) (daoName : String) : Option UInt32 :=
  (stat.last.daoStat.find daoName).map fun each => UInt32.ofInt each.sendNum

def getDaoServerLastSendcnt (stat : TrafficStat Num) (daoName sname : String) : Option UInt32 :=
  (stat.last.serverDaoStat.find sname).bind fun daos =>
    (daos.find daoName).map fun each => UInt32.ofInt each.sendNum

/-- The loop of `get_some_histroy` from the place `cntt` on. -/
def someHistroy {Text : Type} (start leng : Int) : Int → List Text → List Text
  | _, [] => []
  | cntt, text :: rest =>
      if cntt ≥ start then
        if cntt ≥ start + leng then [] else text :: someHistroy start leng (cntt + 1) rest
      else someHistroy start leng (cntt + 1) rest

def getSomeHistroy (stat : TrafficStat Num) (start leng : Int) :
    List (UInt64 × TrafficTables Num) :=
  someHistroy start leng 0 stat.logHistroy

end TrafficStat

/-! ## The lines of the tables -/

/-- A line of a text about the tables. -/
inductive TrafficLine where
  | global
  | groupid (gid : Int)
  | app (name : String)
  | dao (name : String)
  | snameDao (sname dao : String)
  | appDao (app dao : String)
deriving DecidableEq

/-- The call is for the line. -/
def TrafficCall.On (call : TrafficCall) : TrafficLine → Prop
  | .global => True
  | .groupid gid => gid = call.toGid
  | .app name => call.appName = some name
  | .dao name => call.daoName = some name
  | .snameDao sname dao => sname = call.daoserver ∧ call.daoName = some dao
  | .appDao app dao => call.appName = some app ∧ call.daoName = some dao

instance (call : TrafficCall) (line : TrafficLine) : Decidable (call.On line) :=
  match line with
  | .global => isTrue trivial
  | .groupid gid => inferInstanceAs (Decidable (gid = call.toGid))
  | .app name => inferInstanceAs (Decidable (call.appName = some name))
  | .dao name => inferInstanceAs (Decidable (call.daoName = some name))
  | .snameDao sname dao =>
      inferInstanceAs (Decidable (sname = call.daoserver ∧ call.daoName = some dao))
  | .appDao app dao =>
      inferInstanceAs (Decidable (call.appName = some app ∧ call.daoName = some dao))

namespace TrafficTables

variable {Num : Type} [Floating Num]

/-- What the line says; of what is not in the tables it says what it says of a new entry. -/
def line (tables : TrafficTables Num) : TrafficLine → EachSTAT Num
  | .global => tables.stat
  | .groupid gid => (tables.togroupStat.find gid).getD .new
  | .app name => (tables.appStat.find name).getD .new
  | .dao name => (tables.daoStat.find name).getD .new
  | .snameDao sname dao => (((tables.serverDaoStat.find sname).getD .empty).find dao).getD .new
  | .appDao app dao => (((tables.appDaoStat.find app).getD .empty).find dao).getD .new

theorem line_new (line : TrafficLine) : (new : TrafficTables Num).line line = .new := by
  cases line <;> rfl

variable {tables : TrafficTables Num} {call : TrafficCall} {change : EachSTAT Num → EachSTAT Num}

/-- In a table of tables the entry of both keys is changed, and no other. -/
theorem getD_find_adjust_adjust
    (map : OrderedMap String (OrderedMap String (EachSTAT Num))) (outer inner : String)
    (sname dao : String) :
    (((map.adjust .empty outer fun daos => daos.adjust .new inner change).find
      sname).getD .empty |>.find dao).getD .new =
      if sname = outer ∧ dao = inner then
        change ((((map.find sname).getD .empty).find dao).getD .new)
      else (((map.find sname).getD .empty).find dao).getD .new := by
  rw [OrderedMap.getD_find_adjust]
  by_cases houter : sname = outer
  · rw [if_pos houter, OrderedMap.getD_find_adjust]
    simp only [houter, true_and]
  · rw [if_neg houter, if_neg fun hboth => houter hboth.1]

/-- A call changes the lines that it is for. -/
theorem line_each (line : TrafficLine) : (tables.each call change).line line =
    if call.On line then change (tables.line line) else tables.line line := by
  obtain ⟨toGid, daoserver, appName, daoName⟩ := call
  cases line with
  | global => rfl
  | groupid gid => exact OrderedMap.getD_find_adjust _ _ _ _ _
  | app name =>
      cases appName with
      | none => rfl
      | some app =>
          refine (OrderedMap.getD_find_adjust _ _ _ _ _).trans ?_
          simp only [TrafficCall.On, Option.some.injEq, eq_comm]
          rfl
  | dao name =>
      cases daoName with
      | none => rfl
      | some dao =>
          refine (OrderedMap.getD_find_adjust _ _ _ _ _).trans ?_
          simp only [TrafficCall.On, Option.some.injEq, eq_comm]
          rfl
  | snameDao sname name =>
      cases daoName with
      | none => simp [TrafficCall.On, each, TrafficTables.line]
      | some dao =>
          refine (getD_find_adjust_adjust _ _ _ _ _).trans ?_
          simp only [TrafficCall.On, Option.some.injEq, @eq_comm _ dao]
          rfl
  | appDao app' name =>
      cases appName with
      | none => simp [TrafficCall.On, each, TrafficTables.line]
      | some app =>
          cases daoName with
          | none => simp [TrafficCall.On, each, TrafficTables.line]
          | some dao =>
              refine (getD_find_adjust_adjust _ _ _ _ _).trans ?_
              simp only [TrafficCall.On, Option.some.injEq, @eq_comm _ dao, @eq_comm _ app]
              rfl

end TrafficTables

/-! ## The tables agree -/

/-- One of the numbers of an entry. -/
inductive Counter where
  | send
  | recv
  | drop
deriving DecidableEq

section Counters

variable {Num : Type}

def EachSTAT.count (each : EachSTAT Num) : Counter → Int
  | .send => each.sendNum
  | .recv => each.recvNum
  | .drop => each.dropNum

/-- The change adds to the counters what `more` says, in every entry. -/
def Adds (change : EachSTAT Num → EachSTAT Num) (more : Counter → Int) : Prop :=
  ∀ counter each, (change each).count counter = each.count counter + more counter

theorem adds_send (sendCnt : Int) :
    Adds (fun each : EachSTAT Num => { each with sendNum := each.sendNum + sendCnt })
      (fun | .send => sendCnt | _ => 0) := by
  rintro (_ | _ | _) each
  · rfl
  · exact (Int.add_zero _).symm
  · exact (Int.add_zero _).symm

theorem adds_drop :
    Adds (fun each : EachSTAT Num => { each with dropNum := each.dropNum + 1 })
      (fun | .drop => 1 | _ => 0) := by
  rintro (_ | _ | _) each
  · exact (Int.add_zero _).symm
  · exact (Int.add_zero _).symm
  · rfl

variable [Floating Num]

theorem EachSTAT.count_new (counter : Counter) : (new : EachSTAT Num).count counter = 0 := by
  cases counter <;> rfl

theorem adds_recv (respTime : Num) (recvCnt : Int) :
    Adds (fun each : EachSTAT Num => each.recvOneResp respTime recvCnt)
      (fun | .recv => recvCnt | _ => 0) := by
  rintro (_ | _ | _) each
  · exact (Int.add_zero _).symm
  · rfl
  · exact (Int.add_zero _).symm

namespace TrafficTables

/-- The tables say the same in different ways: all together, by groups, by daos, by servers
and by applications. -/
structure Agree (tables : TrafficTables Num) : Prop where
  groups : ∀ counter, tables.stat.count counter = tables.togroupStat.total (·.count counter)
  daos : ∀ counter, tables.stat.count counter = tables.daoStat.total (·.count counter)
  servers : ∀ counter dao, (tables.line (.dao dao)).count counter =
    tables.serverDaoStat.total fun daos => ((daos.find dao).getD .new).count counter
  apps : ∀ counter app, (tables.line (.app app)).count counter =
    ((tables.appDaoStat.find app).getD .empty).total (·.count counter)

theorem new_agree : (new : TrafficTables Num).Agree where
  groups := EachSTAT.count_new
  daos := EachSTAT.count_new
  servers counter _ := EachSTAT.count_new counter
  apps counter _ := EachSTAT.count_new counter

variable {tables : TrafficTables Num} {call : TrafficCall} {change : EachSTAT Num → EachSTAT Num}
  {more : Counter → Int}

theorem count_line_each (hadds : Adds change more) (counter : Counter) (line : TrafficLine) :
    ((tables.each call change).line line).count counter =
      (tables.line line).count counter + if call.On line then more counter else 0 := by
  rw [line_each]
  split
  next => exact hadds counter _
  next => exact (Int.add_zero _).symm

/-- A call that names its dao adds the same in all tables. -/
theorem Agree.each (hagree : tables.Agree) (hadds : Adds change more) {name : String}
    (hname : call.daoName = some name) : (tables.each call change).Agree where
  groups counter := by
    refine (hadds counter _).trans ?_
    rw [hagree.groups]
    exact (OrderedMap.total_adjust tables.togroupStat (EachSTAT.count_new counter) call.toGid
      (hadds counter)).symm
  daos counter := by
    refine (hadds counter _).trans ?_
    rw [hagree.daos, TrafficTables.each, hname]
    exact (OrderedMap.total_adjust tables.daoStat (EachSTAT.count_new counter) name
      (hadds counter)).symm
  servers counter dao := by
    have hinner : ∀ daos : OrderedMap String (EachSTAT Num),
        (((daos.adjust .new name change).find dao).getD .new).count counter =
          ((daos.find dao).getD .new).count counter +
            if call.On (.dao dao) then more counter else 0 := by
      intro daos
      rw [OrderedMap.getD_find_adjust]
      simp only [TrafficCall.On, hname, Option.some.injEq, @eq_comm _ name]
      split
      next => exact hadds counter _
      next => exact (Int.add_zero _).symm
    rw [count_line_each hadds, hagree.servers, TrafficTables.each, hname]
    exact (OrderedMap.total_adjust tables.serverDaoStat (EachSTAT.count_new counter)
      call.daoserver hinner).symm
  apps counter app := by
    rw [count_line_each hadds, hagree.apps, TrafficTables.each, hname]
    cases happ : call.appName with
    | none => simp [TrafficCall.On, happ]
    | some other =>
        dsimp only
        rw [OrderedMap.getD_find_adjust]
        simp only [TrafficCall.On, happ, Option.some.injEq, @eq_comm _ other]
        split
        next =>
          exact (OrderedMap.total_adjust ((tables.appDaoStat.find app).getD .empty)
            (EachSTAT.count_new counter) name (hadds counter)).symm
        next => exact Int.add_zero _

theorem Agree.statSendOne (hagree : tables.Agree) {name : String}
    (hname : call.daoName = some name) (sendCnt : Int) : (tables.statSendOne call sendCnt).Agree :=
  hagree.each (adds_send sendCnt) hname

theorem Agree.statRecvOne (hagree : tables.Agree) {name : String}
    (hname : call.daoName = some name) (recvCnt : Int) (respTime : Num) :
    (tables.statRecvOne call recvCnt respTime).Agree := by
  unfold TrafficTables.statRecvOne
  split
  next => exact hagree.each adds_drop hname
  next => exact hagree.each (adds_recv respTime recvCnt) hname

theorem Agree.statErrorOne (hagree : tables.Agree) (errorCode : Int) :
    (tables.statErrorOne errorCode).Agree :=
  ⟨hagree.groups, hagree.daos, hagree.servers, hagree.apps⟩

end TrafficTables

end Counters

/-! ## The history -/

namespace TrafficStat

variable {Num : Type} [Floating Num] {stat : TrafficStat Num}

/-- The texts that were ever put into the history, for the tables that were swapped, the last
first. -/
def texts : List (TrafficTables Num) → List (UInt64 × TrafficTables Num)
  | [] => [(0, .new)]
  | tables :: past => (UInt64.ofNat (past.length + 1), tables) :: texts past

/-- The history has the last 3600 texts. -/
structure Kept (stat : TrafficStat Num) (past : List (TrafficTables Num)) : Prop where
  incseq : stat.incseq = UInt64.ofNat past.length
  histroy : stat.logHistroy = (texts past).take 3600
  size : stat.logHisSize = stat.logHistroy.length

theorem new_kept : Kept (new : TrafficStat Num) [] := ⟨rfl, rfl, rfl⟩

theorem Kept.swapStat {past : List (TrafficTables Num)} (hkept : Kept stat past) :
    Kept stat.swapStat (stat.current :: past) := by
  have hincseq : stat.incseq + 1 = UInt64.ofNat (past.length + 1) := by
    rw [hkept.incseq, UInt64.ofNat_add]
    rfl
  have hpushed : (stat.incseq + 1, stat.current) :: stat.logHistroy =
      (texts (stat.current :: past)).take 3601 := by
    rw [hincseq, hkept.histroy]
    rfl
  have hsize : stat.logHisSize + 1 = (min 3601 (texts (stat.current :: past)).length : Nat) := by
    rw [hkept.size, ← List.length_take, ← hpushed]
    rfl
  unfold TrafficStat.swapStat
  dsimp only
  rw [hpushed, hsize]
  by_cases hfull : 3601 ≤ (texts (stat.current :: past)).length
  · have hdrop : ((texts (stat.current :: past)).take 3601).dropLast =
        (texts (stat.current :: past)).take 3600 := by
      rw [List.dropLast_eq_take, List.length_take, Nat.min_eq_left hfull, List.take_take]
      rfl
    rw [Nat.min_eq_left hfull, if_pos (by decide), if_pos (by decide), hdrop]
    refine ⟨hincseq, rfl, ?_⟩
    dsimp only
    rw [List.length_take, Nat.min_eq_left (by omega)]
    rfl
  · have hless : (texts (stat.current :: past)).length ≤ 3600 := by omega
    rw [Nat.min_eq_right (by omega), List.take_of_length_le (by omega)]
    rw [if_neg (by rw [decide_eq_true_eq]; omega), if_neg (by rw [decide_eq_true_eq]; omega)]
    exact ⟨hincseq, (List.take_of_length_le hless).symm, rfl⟩

/-- A text of the history is about swapped tables, or about none. -/
theorem agree_of_mem_texts {past : List (TrafficTables Num)}
    (hpast : ∀ tables ∈ past, tables.Agree) {text : UInt64 × TrafficTables Num}
    (htext : text ∈ texts past) : text.2.Agree := by
  induction past with
  | nil =>
      obtain rfl := List.mem_singleton.mp htext
      exact TrafficTables.new_agree
  | cons tables rest ih =>
      obtain ⟨hfirst, hrest⟩ := List.forall_mem_cons.mp hpast
      obtain rfl | hbefore := List.mem_cons.mp htext
      · exact hfirst
      · exact ih hrest hbefore

theorem someHistroy_eq {Text : Type} (start leng cntt : Int) (texts : List Text) :
    someHistroy start leng cntt texts =
      (texts.drop (start - cntt).toNat).take (leng - max 0 (cntt - start)).toNat := by
  induction texts generalizing cntt with
  | nil => simp [someHistroy]
  | cons text rest ih =>
      rw [someHistroy, ih]
      split
      next hthere =>
        rw [show (start - cntt).toNat = 0 by omega, List.drop_zero]
        split
        next hend => rw [show (leng - max 0 (cntt - start)).toNat = 0 by omega, List.take_zero]
        next hend =>
          rw [show (start - (cntt + 1)).toNat = 0 by omega, List.drop_zero,
            show (leng - max 0 (cntt - start)).toNat =
              (leng - max 0 (cntt + 1 - start)).toNat + 1 by omega, List.take_succ_cons]
      next hbefore =>
        rw [show (start - cntt).toNat = (start - (cntt + 1)).toNat + 1 by omega,
          List.drop_succ_cons, show max 0 (cntt - start) = max 0 (cntt + 1 - start) by omega]

end TrafficStat

end ServiceFrame
