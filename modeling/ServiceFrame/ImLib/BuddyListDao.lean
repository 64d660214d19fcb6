import Mathlib.Data.UInt
import ServiceFrame.Foundation.Run

/-! # Deleting a buddy from both sides

A buddy list is a table of rows `(uid, bid)` in the database of `uid`. `Delete` of
`CBuddyListDaoDdbImp` asks the buddy's database whether the buddy has deleted the user
already; it then removes both rows, or else marks its own row. Calls for the two sides may
run at once: between two statements of one, any of the other's may be executed.
-/

namespace ServiceFrame

open Foundation

universe uColumns

variable {Columns : Type uColumns}

/-! ## The tables -/

/-- A row of `buddylist`, with its columns beside the key and the mark. -/
structure BuddyRow (Columns : Type uColumns) where
  n_isdel : Int
  columns : Columns
deriving DecidableEq

/-- The tables `buddylist` of all databases, by their primary keys `(uid, bid)`. -/
abbrev BuddyTables (Columns : Type uColumns) := String → UInt32 × UInt32 → Option (BuddyRow Columns)

namespace BuddyTables

/-- A statement about one row. -/
def alter (tables : BuddyTables Columns) (strDb : String) (key : UInt32 × UInt32)
    (change : Option (BuddyRow Columns) → Option (BuddyRow Columns)) : BuddyTables Columns :=
  Function.update tables strDb
    (Function.update (tables strDb) key (change (tables strDb key)))

/-- `delete from buddylist where uid=:0 and bid=:1` -/
def delete (tables : BuddyTables Columns) (strDb : String) (uid bid : UInt32) :
    BuddyTables Columns := tables.alter strDb (uid, bid) fun _ => none

/-- `update buddylist set n_isdel=1 where uid=:0 and bid=:1` -/
def setDeleted (tables : BuddyTables Columns) (strDb : String) (uid bid : UInt32) :
    BuddyTables Columns :=
  tables.alter strDb (uid, bid) fun row => row.map ({ · with n_isdel := 1 })

/-- `select uid from buddylist where uid=:0 and bid=:1 and n_isdel=1` has a row. -/
def selectDeleted (tables : BuddyTables Columns) (strDb : String) (uid bid : UInt32) : Bool :=
  (tables strDb (uid, bid)).any fun row => row.n_isdel == 1

theorem alter_apply (tables : BuddyTables Columns) (strDb name : String)
    (key other : UInt32 × UInt32) (change : Option (BuddyRow Columns) → Option (BuddyRow Columns)) :
    tables.alter strDb key change name other =
      if name = strDb ∧ other = key then change (tables strDb key) else tables name other := by
  rw [alter, Function.update_apply]
  by_cases hname : name = strDb
  · rw [if_pos hname, Function.update_apply]
    simp [hname]
  · simp [hname]

end BuddyTables

structure CMetaData where
  m_uBegin : UInt32
  m_uEnd : UInt32
  m_strDbName : String

structure CBuddyListMetaDao where
  m_strDefDbName : String
  m_listMetaData : List CMetaData

/-- The database of a user: the first whose range has the id. -/
def CBuddyListMetaDao.getDbName (metaData : CBuddyListMetaDao) (uUsrID : UInt32) : String :=
  ((metaData.m_listMetaData.find? fun md => md.m_uBegin ≤ uUsrID ∧ uUsrID ≤ md.m_uEnd).map
    CMetaData.m_strDbName).getD metaData.m_strDefDbName

namespace CBuddyListDaoDdbImp

/-! ## The statements of `Delete` -/

/-- The arguments of a call. -/
structure Request where
  uUid : UInt32
  uBid : UInt32
deriving DecidableEq

/-- The statement that a call executes next, or what it has returned. -/
inductive DeletePoint where
  /-- Has the buddy deleted the user too? -/
  | check
  /-- He has: both rows are removed. -/
  | deleteOwn
  | deleteBuddy
  /-- He has not: the own row is marked. -/
  | mark
  | returned (bIsOk : Bool)
deriving DecidableEq

/-- The next statement of a call. One that fails changes no table. -/
def statement (getDbName : UInt32 → String) (request : Request) (bIsOk : Bool)
    (tables : BuddyTables Columns) : DeletePoint → Option (BuddyTables Columns × DeletePoint)
  | .check =>
      some (tables,
        if !bIsOk then .returned false
        else if tables.selectDeleted (getDbName request.uBid) request.uBid request.uUid then
          .deleteOwn
        else .mark)
  | .deleteOwn =>
      -- What this statement answers is overwritten by the next one.
      some (if bIsOk then tables.delete (getDbName request.uUid) request.uUid request.uBid
        else tables, .deleteBuddy)
  | .deleteBuddy =>
      some (if bIsOk then tables.delete (getDbName request.uBid) request.uBid request.uUid
        else tables, .returned bIsOk)
  | .mark =>
      some (if bIsOk then tables.setDeleted (getDbName request.uUid) request.uUid request.uBid
        else tables, .returned bIsOk)
  | .returned _ => none

/-- Of two users, whose call it is. -/
inductive Side where
  | first
  | second
deriving DecidableEq

def Side.other : Side → Side
  | .first => .second
  | .second => .first

def Side.request (uA uB : UInt32) : Side → Request
  | .first => ⟨uA, uB⟩
  | .second => ⟨uB, uA⟩

/-- `Delete(a, b)` and `Delete(b, a)`. -/
structure Deleting (Columns : Type uColumns) where
  tables : BuddyTables Columns
  point : Side → DeletePoint

variable (getDbName : UInt32 → String) (uA uB : UInt32)

/-- A side executes its next statement, which succeeds or not. -/
def step (deleting : Deleting Columns) : Side × Bool → Option (Deleting Columns)
  | (side, bIsOk) =>
      (statement getDbName (side.request uA uB) bIsOk deleting.tables (deleting.point side)).map
        fun (tables, point) => ⟨tables, Function.update deleting.point side point⟩

/-- Whether a statement of a side has failed, beside the state. -/
def noteFailure (failed : Side → Bool) (_deleting : Deleting Columns) :
    Side × Bool → Side → Bool
  | (side, bIsOk) => Function.update failed side (failed side || !bIsOk)

abbrev Noted (Columns : Type uColumns) := Deleting Columns × (Side → Bool)

def notedStep : Noted Columns → Side × Bool → Option (Noted Columns) :=
  recorded noteFailure (step getDbName uA uB)

def start (tables : BuddyTables Columns) : Noted Columns :=
  (⟨tables, fun _ => .check⟩, fun _ => false)

/-! ## What is to hold -/

/-- A side's own row. -/
def ownRow (tables : BuddyTables Columns) (side : Side) : Option (BuddyRow Columns) :=
  let request := side.request uA uB
  tables (getDbName request.uUid) (request.uUid, request.uBid)

/-- Both sides have the other as a buddy. -/
def Mutual (tables : BuddyTables Columns) : Prop :=
  ∀ side, ∃ row, ownRow getDbName uA uB tables side = some row ∧ row.n_isdel = 0

/-- When both calls have returned true neither row exists; a call that has returned true has had
no failure; all other rows are what they were. -/
def Good (tables : BuddyTables Columns) (past : Noted Columns) : Prop :=
  ((∀ side, past.1.point side = .returned true) →
      ∀ side, ownRow getDbName uA uB past.1.tables side = none) ∧
    (∀ side, past.1.point side = .returned true → past.2 side = false) ∧
    ∀ name key, key ≠ (uA, uB) → key ≠ (uB, uA) → past.1.tables name key = tables name key

def isDeleted (row : Option (BuddyRow Columns)) : Bool := row.any fun row => row.n_isdel == 1

/-- A mark that is made finds the other's row unmarked still, and the buddy's row is not removed
after a failure to remove the own one. -/
def Careful (past : Noted Columns) : Side × Bool → Prop
  | (side, bIsOk) => bIsOk = true →
      (past.1.point side = .mark →
        isDeleted (ownRow getDbName uA uB past.1.tables side.other) = false) ∧
      (past.1.point side = .deleteBuddy → past.2 side = false)

instance decidableCareful (past : Noted Columns) (event : Side × Bool) :
    Decidable (Careful getDbName uA uB past event) :=
  inferInstanceAs (Decidable (_ → _ ∧ _))

/-! ## What a statement does to the rows -/

/-- A statement about a side's own row. -/
def alterOwn (tables : BuddyTables Columns) (side : Side)
    (change : Option (BuddyRow Columns) → Option (BuddyRow Columns)) : BuddyTables Columns :=
  let request := side.request uA uB
  tables.alter (getDbName request.uUid) (request.uUid, request.uBid) change

variable {getDbName uA uB} {tables : BuddyTables Columns} {side : Side} {past next : Noted Columns}
  {change : Option (BuddyRow Columns) → Option (BuddyRow Columns)}

theorem Side.eq_or_eq_other (side other : Side) : other = side ∨ other = side.other := by
  cases side <;> cases other <;> decide

theorem Side.other_ne (side : Side) : side.other ≠ side := by
  cases side <;> decide

theorem Side.other_other (side : Side) : side.other.other = side := by
  cases side <;> rfl

theorem ownRow_alterOwn_self :
    ownRow getDbName uA uB (alterOwn getDbName uA uB tables side change) side =
      change (ownRow getDbName uA uB tables side) := by
  rw [ownRow, alterOwn, BuddyTables.alter_apply, if_pos ⟨rfl, rfl⟩]
  rfl

variable (getDbName) in
/-- Of users that are the same one the two rows are the same, too. -/
theorem ownRow_alterOwn_other (other : Side) :
    ownRow getDbName uA uB (alterOwn getDbName uA uB tables side change) other =
        ownRow getDbName uA uB tables other ∨
      ownRow getDbName uA uB (alterOwn getDbName uA uB tables side change) other =
        change (ownRow getDbName uA uB tables other) := by
  dsimp only [ownRow, alterOwn]
  rw [BuddyTables.alter_apply]
  split
  next hsame =>
    rw [hsame.1, hsame.2]
    exact .inr rfl
  next => exact .inl rfl

theorem alterOwn_of_ne (name : String) {key : UInt32 × UInt32} (hfirst : key ≠ (uA, uB))
    (hsecond : key ≠ (uB, uA)) :
    alterOwn getDbName uA uB tables side change name key = tables name key := by
  rw [alterOwn, BuddyTables.alter_apply, if_neg]
  rintro ⟨-, hkey⟩
  cases side with
  | first => exact hfirst hkey
  | second => exact hsecond hkey

theorem selectDeleted_buddy :
    tables.selectDeleted (getDbName (side.request uA uB).uBid) (side.request uA uB).uBid
        (side.request uA uB).uUid = isDeleted (ownRow getDbName uA uB tables side.other) := by
  cases side <;> rfl

theorem delete_buddy :
    tables.delete (getDbName (side.request uA uB).uBid) (side.request uA uB).uBid
        (side.request uA uB).uUid = alterOwn getDbName uA uB tables side.other fun _ => none := by
  cases side <;> rfl

/-- After a statement of a side. -/
def after (past : Noted Columns) (side : Side) (bIsOk : Bool) (tables : BuddyTables Columns)
    (point : DeletePoint) : Noted Columns :=
  (⟨tables, Function.update past.1.point side point⟩,
    Function.update past.2 side (past.2 side || !bIsOk))

section Steps

variable (bIsOk : Bool)

theorem notedStep_check (hpoint : past.1.point side = .check) :
    notedStep getDbName uA uB past (side, bIsOk) = some (after past side bIsOk past.1.tables
      (if !bIsOk then .returned false
        else if isDeleted (ownRow getDbName uA uB past.1.tables side.other) then .deleteOwn
        else .mark)) := by
  dsimp only [notedStep, recorded, step]
  rw [hpoint, ← selectDeleted_buddy]
  rfl

theorem notedStep_deleteOwn (hpoint : past.1.point side = .deleteOwn) :
    notedStep getDbName uA uB past (side, bIsOk) = some (after past side bIsOk
      (if bIsOk then alterOwn getDbName uA uB past.1.tables side fun _ => none
        else past.1.tables) .deleteBuddy) := by
  dsimp only [notedStep, recorded, step]
  rw [hpoint]
  rfl

theorem notedStep_deleteBuddy (hpoint : past.1.point side = .deleteBuddy) :
    notedStep getDbName uA uB past (side, bIsOk) = some (after past side bIsOk
      (if bIsOk then alterOwn getDbName uA uB past.1.tables side.other fun _ => none
        else past.1.tables) (.returned bIsOk)) := by
  dsimp only [notedStep, recorded, step]
  rw [hpoint, ← delete_buddy]
  rfl

theorem notedStep_mark (hpoint : past.1.point side = .mark) :
    notedStep getDbName uA uB past (side, bIsOk) = some (after past side bIsOk
      (if bIsOk then
        alterOwn getDbName uA uB past.1.tables side fun row => row.map ({ · with n_isdel := 1 })
        else past.1.tables) (.returned bIsOk)) := by
  dsimp only [notedStep, recorded, step]
  rw [hpoint]
  rfl

theorem notedStep_returned {result : Bool} (hpoint : past.1.point side = .returned result) :
    notedStep getDbName uA uB past (side, bIsOk) = none := by
  dsimp only [notedStep, recorded, step]
  rw [hpoint]
  rfl

end Steps

/-! ## The phases of the two calls -/

/-- At most one side marks its row. -/
inductive Phase (getDbName : UInt32 → String) (uA uB : UInt32) (past : Noted Columns) : Prop where
  | unmarked
      (hpoints : ∀ side, past.1.point side = .check ∨ past.1.point side = .mark ∨
        past.1.point side = .returned false)
      (hrows : Mutual getDbName uA uB past.1.tables)
  | marked (side : Side) (hmarked : past.1.point side = .returned true)
      (hother : past.1.point side.other = .check ∨ past.1.point side.other = .mark ∨
        past.1.point side.other = .deleteOwn ∨ past.1.point side.other = .returned false)
      (hrow : isDeleted (ownRow getDbName uA uB past.1.tables side) = true)
  | cleared (side : Side) (hmarked : past.1.point side = .returned true)
      (hother : past.1.point side.other = .deleteBuddy)
      (hrow : past.2 side.other = false →
        ownRow getDbName uA uB past.1.tables side.other = none)
  | finished (side : Side) (hmarked : past.1.point side = .returned true) (bIsOk : Bool)
      (hother : past.1.point side.other = .returned bIsOk)
      (hrows : bIsOk = true → ∀ side, ownRow getDbName uA uB past.1.tables side = none)

structure Inv (getDbName : UInt32 → String) (uA uB : UInt32) (tables : BuddyTables Columns)
    (past : Noted Columns) : Prop where
  phase : Phase getDbName uA uB past
  /-- A call goes on after a failure only to remove the buddy's row. -/
  failed : ∀ side, past.2 side = true →
    past.1.point side = .deleteBuddy ∨ past.1.point side = .returned false
  others : ∀ name key, key ≠ (uA, uB) → key ≠ (uB, uA) →
    past.1.tables name key = tables name key

section After

variable {bIsOk : Bool} {written : BuddyTables Columns} {point : DeletePoint}

theorem after_point_self : (after past side bIsOk written point).1.point side = point :=
  Function.update_self ..

theorem after_point_of_ne {other : Side} (hne : other ≠ side) :
    (after past side bIsOk written point).1.point other = past.1.point other :=
  Function.update_of_ne hne ..

theorem after_failed_self :
    (after past side bIsOk written point).2 side = (past.2 side || !bIsOk) :=
  Function.update_self ..

theorem after_failed_of_ne {other : Side} (hne : other ≠ side) :
    (after past side bIsOk written point).2 other = past.2 other :=
  Function.update_of_ne hne ..

end After

theorem not_isDeleted (hrows : Mutual getDbName uA uB tables) (side : Side) :
    isDeleted (ownRow getDbName uA uB tables side) = false := by
  obtain ⟨row, hrow, hundeleted⟩ := hrows side
  rw [hrow, isDeleted, Option.any_some, hundeleted]
  rfl

theorem phase_start (hrows : Mutual getDbName uA uB tables) :
    Phase getDbName uA uB (start tables) :=
  .unmarked (fun _ => .inl rfl) hrows

/-- While a side has its check, its mark or its own row before it, no side has marked, or the
other has. -/
theorem undecided_cases (hphase : Phase getDbName uA uB past)
    (hpoint : past.1.point side = .check ∨ past.1.point side = .mark ∨
      past.1.point side = .deleteOwn) :
    ((∀ other, past.1.point other = .check ∨ past.1.point other = .mark ∨
        past.1.point other = .returned false) ∧ Mutual getDbName uA uB past.1.tables) ∨
      (past.1.point side.other = .returned true ∧
        isDeleted (ownRow getDbName uA uB past.1.tables side.other) = true) := by
  cases hphase with
  | unmarked hpoints hrows => exact .inl ⟨hpoints, hrows⟩
  | marked marker hmarked _ hrow =>
      obtain rfl | rfl := Side.eq_or_eq_other marker side
      · simp [hmarked] at hpoint
      · rw [Side.other_other]
        exact .inr ⟨hmarked, hrow⟩
  | cleared marker hmarked hother =>
      obtain rfl | rfl := Side.eq_or_eq_other marker side
      · simp [hmarked] at hpoint
      · simp [hother] at hpoint
  | finished marker hmarked result hother =>
      obtain rfl | rfl := Side.eq_or_eq_other marker side
      · simp [hmarked] at hpoint
      · simp [hother] at hpoint

theorem phase_check (hphase : Phase getDbName uA uB past) (hpoint : past.1.point side = .check)
    (bIsOk : Bool) :
    Phase getDbName uA uB (after past side bIsOk past.1.tables
      (if !bIsOk then .returned false
        else if isDeleted (ownRow getDbName uA uB past.1.tables side.other) then .deleteOwn
        else .mark)) := by
  rcases undecided_cases hphase (.inl hpoint) with ⟨hpoints, hrows⟩ | ⟨hmarked, hrow⟩
  · refine .unmarked (fun other => ?_) hrows
    by_cases hother : other = side
    · rw [hother, after_point_self, not_isDeleted hrows]
      cases bIsOk <;> simp
    · rw [after_point_of_ne hother]
      exact hpoints other
  · refine .marked side.other ?_ ?_ hrow
    · rw [after_point_of_ne side.other_ne, hmarked]
    · rw [Side.other_other, after_point_self, hrow]
      cases bIsOk <;> simp

theorem phase_deleteOwn (hphase : Phase getDbName uA uB past)
    (hpoint : past.1.point side = .deleteOwn) (bIsOk : Bool) :
    Phase getDbName uA uB (after past side bIsOk
      (if bIsOk then alterOwn getDbName uA uB past.1.tables side fun _ => none
        else past.1.tables) .deleteBuddy) := by
  rcases undecided_cases hphase (.inr (.inr hpoint)) with ⟨hpoints, -⟩ | ⟨hmarked, -⟩
  · exact absurd (hpoints side) (by simp [hpoint])
  · refine .cleared side.other ?_ ?_ ?_
    · rw [after_point_of_ne side.other_ne, hmarked]
    · rw [Side.other_other, after_point_self]
    · rw [Side.other_other, after_failed_self]
      intro hfailed
      have hok : bIsOk = true := by simpa using (Bool.or_eq_false_iff.mp hfailed).2
      dsimp only [after]
      rw [if_pos hok, ownRow_alterOwn_self]

theorem phase_deleteBuddy (hphase : Phase getDbName uA uB past)
    (hpoint : past.1.point side = .deleteBuddy) {bIsOk : Bool}
    (hcareful : bIsOk = true → past.2 side = false) :
    Phase getDbName uA uB (after past side bIsOk
      (if bIsOk then alterOwn getDbName uA uB past.1.tables side.other fun _ => none
        else past.1.tables) (.returned bIsOk)) := by
  cases hphase with
  | unmarked hpoints => exact absurd (hpoints side) (by simp [hpoint])
  | marked marker hmarked hother =>
      obtain rfl | rfl := Side.eq_or_eq_other marker side
      · exact absurd (hmarked.symm.trans hpoint) (by decide)
      · exact absurd hother (by simp [hpoint])
  | cleared marker hmarked hother hrow =>
      obtain rfl | rfl := Side.eq_or_eq_other marker side
      · exact absurd (hmarked.symm.trans hpoint) (by decide)
      · refine .finished marker ?_ bIsOk after_point_self fun hok other => ?_
        · rw [after_point_of_ne marker.other_ne.symm, hmarked]
        · dsimp only [after]
          rw [if_pos hok, Side.other_other]
          obtain rfl | rfl := Side.eq_or_eq_other marker other
          · exact ownRow_alterOwn_self
          · obtain hsame | hnone := ownRow_alterOwn_other getDbName marker.other
            · exact hsame.trans (hrow (hcareful hok))
            · exact hnone
  | finished marker hmarked result hother =>
      obtain rfl | rfl := Side.eq_or_eq_other marker side
      · exact absurd (hmarked.symm.trans hpoint) (by decide)
      · exact absurd (hother.symm.trans hpoint) (by simp)

theorem phase_mark (hphase : Phase getDbName uA uB past)
    (hpoint : past.1.point side = .mark) {bIsOk : Bool}
    (hcareful : bIsOk = true →
      isDeleted (ownRow getDbName uA uB past.1.tables side.other) = false) :
    Phase getDbName uA uB (after past side bIsOk
      (if bIsOk then
        alterOwn getDbName uA uB past.1.tables side fun row => row.map ({ · with n_isdel := 1 })
        else past.1.tables) (.returned bIsOk)) := by
  rcases undecided_cases hphase (.inr (.inl hpoint)) with ⟨hpoints, hrows⟩ | ⟨hmarked, hrow⟩
  · cases bIsOk with
    | false =>
        refine .unmarked (fun other => ?_) hrows
        by_cases hother : other = side
        · rw [hother, after_point_self]
          simp
        · rw [after_point_of_ne hother]
          exact hpoints other
    | true =>
        refine .marked side after_point_self ?_ ?_
        · rw [after_point_of_ne side.other_ne]
          have := hpoints side.other
          tauto
        · obtain ⟨row, hrow, -⟩ := hrows side
          dsimp only [after]
          rw [if_pos rfl, ownRow_alterOwn_self, hrow]
          rfl
  · cases bIsOk with
    | false =>
        refine .marked side.other ?_ ?_ hrow
        · rw [after_point_of_ne side.other_ne, hmarked]
        · rw [Side.other_other, after_point_self]
          simp
    | true =>
        rw [hrow] at hcareful
        exact absurd (hcareful rfl) (by decide)

/-! ## Every interleaving -/

theorem inv_start (hrows : Mutual getDbName uA uB tables) :
    Inv getDbName uA uB tables (start tables) where
  phase := phase_start hrows
  failed _ hfailed := absurd hfailed Bool.false_ne_true
  others _ _ _ _ := rfl

/-- A failure that is new, or old, leaves the side where calls with failures are. -/
theorem failed_after {written : BuddyTables Columns} {point : DeletePoint} {bIsOk : Bool}
    (hinv : Inv getDbName uA uB tables past)
    (hside : (past.2 side || !bIsOk) = true → point = .deleteBuddy ∨ point = .returned false)
    (other : Side) (hfailed : (after past side bIsOk written point).2 other = true) :
    (after past side bIsOk written point).1.point other = .deleteBuddy ∨
      (after past side bIsOk written point).1.point other = .returned false := by
  by_cases hother : other = side
  · rw [hother, after_failed_self] at hfailed
    rw [hother, after_point_self]
    exact hside hfailed
  · rw [after_failed_of_ne hother] at hfailed
    rw [after_point_of_ne hother]
    exact hinv.failed other hfailed

theorem not_failed (hinv : Inv getDbName uA uB tables past)
    (hbuddy : past.1.point side ≠ .deleteBuddy)
    (hreturned : past.1.point side ≠ .returned false) : past.2 side = false := by
  by_contra hfailed
  obtain hpoint | hpoint := hinv.failed side (by simpa using hfailed)
  · exact hbuddy hpoint
  · exact hreturned hpoint

theorem others_ite (hinv : Inv getDbName uA uB tables past) (side : Side) (bIsOk : Bool)
    (change : Option (BuddyRow Columns) → Option (BuddyRow Columns)) (name : String)
    (key : UInt32 × UInt32) (hfirst : key ≠ (uA, uB)) (hsecond : key ≠ (uB, uA)) :
    (if bIsOk then alterOwn getDbName uA uB past.1.tables side change else past.1.tables) name key =
      tables name key := by
  split
  next => rw [alterOwn_of_ne name hfirst hsecond, hinv.others name key hfirst hsecond]
  next => exact hinv.others name key hfirst hsecond

theorem inv_step (hinv : Inv getDbName uA uB tables past) {event : Side × Bool}
    (hcareful : Careful getDbName uA uB past event)
    (hnext : notedStep getDbName uA uB past event = some next) :
    Inv getDbName uA uB tables next := by
  obtain ⟨side, bIsOk⟩ := event
  cases hpoint : past.1.point side with
  | check =>
      rw [notedStep_check bIsOk hpoint, Option.some.injEq] at hnext
      subst hnext
      have hfailed : past.2 side = false := not_failed hinv (by simp [hpoint]) (by simp [hpoint])
      refine ⟨phase_check hinv.phase hpoint bIsOk, failed_after hinv ?_, hinv.others⟩
      cases bIsOk <;> simp [hfailed]
  | deleteOwn =>
      rw [notedStep_deleteOwn bIsOk hpoint, Option.some.injEq] at hnext
      subst hnext
      exact ⟨phase_deleteOwn hinv.phase hpoint bIsOk, failed_after hinv fun _ => .inl rfl,
        others_ite hinv side bIsOk _⟩
  | deleteBuddy =>
      have hcareful := fun hok => (hcareful hok).2 hpoint
      rw [notedStep_deleteBuddy bIsOk hpoint, Option.some.injEq] at hnext
      subst hnext
      refine ⟨phase_deleteBuddy hinv.phase hpoint hcareful, failed_after hinv ?_,
        others_ite hinv side.other bIsOk _⟩
      cases bIsOk with
      | false => exact fun _ => .inr rfl
      | true => simp [hcareful rfl]
  | mark =>
      have hcareful := fun hok => (hcareful hok).1 hpoint
      rw [notedStep_mark bIsOk hpoint, Option.some.injEq] at hnext
      subst hnext
      have hfailed : past.2 side = false := not_failed hinv (by simp [hpoint]) (by simp [hpoint])
      refine ⟨phase_mark hinv.phase hpoint hcareful, failed_after hinv ?_,
        others_ite hinv side bIsOk _⟩
      cases bIsOk <;> simp [hfailed]
  | returned result =>
      rw [notedStep_returned bIsOk hpoint] at hnext
      cases hnext

theorem good_of_inv (hinv : Inv getDbName uA uB tables past) :
    Good getDbName uA uB tables past := by
  refine ⟨fun hboth => ?_, fun side hreturned => ?_, hinv.others⟩
  · cases hinv.phase with
    | unmarked hpoints => exact absurd (hpoints .first) (by simp [hboth])
    | marked marker _ hother => exact absurd hother (by simp [hboth])
    | cleared marker _ hother => exact absurd hother (by simp [hboth])
    | finished marker _ result hother hrows =>
        rw [hboth, DeletePoint.returned.injEq] at hother
        exact hrows hother.symm
  · exact not_failed hinv (by simp [hreturned]) (by simp [hreturned])

/-- A mark that does not find the other's row unmarked is the second. -/
theorem careful_mark (hinv : Inv getDbName uA uB tables past) (hpoint : past.1.point side = .mark)
    (hgood : ∀ next, notedStep getDbName uA uB past (side, true) = some next →
      Good getDbName uA uB tables next) :
    isDeleted (ownRow getDbName uA uB past.1.tables side.other) = false := by
  have hnext := (hgood _ (notedStep_mark true hpoint)).1
  rcases undecided_cases hinv.phase (.inr (.inl hpoint)) with ⟨-, hrows⟩ | ⟨hmarked, hrow⟩
  · exact not_isDeleted hrows side.other
  · exfalso
    have hnone := hnext (fun other => ?_) side.other
    · dsimp only [after] at hnone
      rw [if_pos rfl] at hnone
      obtain ⟨row, hsome⟩ :
          ∃ row, ownRow getDbName uA uB past.1.tables side.other = some row := by
        cases hown : ownRow getDbName uA uB past.1.tables side.other with
        | none =>
            rw [hown] at hrow
            cases hrow
        | some row => exact ⟨row, rfl⟩
      obtain hsame | hset := ownRow_alterOwn_other getDbName side.other
      · rw [hsame, hsome] at hnone
        cases hnone
      · rw [hset, hsome] at hnone
        cases hnone
    · obtain rfl | rfl := Side.eq_or_eq_other side other
      · exact after_point_self
      · rw [after_point_of_ne side.other_ne, hmarked]

theorem careful_of_good (hinv : Inv getDbName uA uB tables past) (event : Side × Bool)
    (hgood : ∀ next, notedStep getDbName uA uB past event = some next →
      Good getDbName uA uB tables next) : Careful getDbName uA uB past event := by
  obtain ⟨side, bIsOk⟩ := event
  rintro rfl
  refine ⟨fun hpoint => careful_mark hinv hpoint hgood, fun hpoint => ?_⟩
  have hnext := (hgood _ (notedStep_deleteBuddy true hpoint)).2.1 side after_point_self
  rw [after_failed_self] at hnext
  simpa using hnext

/-- Of two users with undeleted rows for each other, whatever statements fail and however the two
calls interleave: both rows are gone when both calls have returned true, no call returns true
after a failure, and no other row changes, as long as, and only if, each statement is careful. -/
theorem good_iff_careful (getDbName : UInt32 → String) (uA uB : UInt32)
    (tables : BuddyTables Columns) (hrows : Mutual getDbName uA uB tables)
    (events : List (Side × Bool)) :
    Throughout (notedStep getDbName uA uB) (Good getDbName uA uB tables) (start tables) events ↔
      Along (notedStep getDbName uA uB) (Careful getDbName uA uB) (start tables) events := by
  have hstep : ∀ past event next, Inv getDbName uA uB tables past →
      Careful getDbName uA uB past event →
      notedStep getDbName uA uB past event = some next → Inv getDbName uA uB tables next :=
    fun past event next hinv hcareful hnext => inv_step hinv hcareful hnext
  refine throughout_iff_along (Inv getDbName uA uB tables) hstep (fun past => good_of_inv)
    (fun past event hinv => ?_) (inv_start hrows) events
  exact ⟨careful_of_good hinv event,
    fun hcareful next hnext => good_of_inv (hstep past event next hinv hcareful hnext)⟩

/-! ## Two users -/

/-- The databases of the users up to 99, and of those from 100 on. -/
def twoDatabases : CBuddyListMetaDao := ⟨"", [⟨0, 99, "im_1"⟩, ⟨100, 199, "im_2"⟩]⟩

/-- The users 1 and 101 have each other. -/
def eachOther : BuddyTables Unit := fun name key =>
  if (name, key) = ("im_1", 1, 101) ∨ (name, key) = ("im_2", 101, 1) then some ⟨0, ()⟩ else none

theorem mutual_eachOther : Mutual twoDatabases.getDbName 1 101 eachOther := by
  intro side
  cases side <;> exact ⟨⟨0, ()⟩, by decide +kernel, rfl⟩

/-- One call after the other. -/
theorem good_iff_careful_in_turn :
    Throughout (notedStep twoDatabases.getDbName 1 101)
      (Good twoDatabases.getDbName 1 101 eachOther) (start eachOther)
      [(.first, true), (.first, true), (.second, true), (.second, true), (.second, true)] :=
  (good_iff_careful twoDatabases.getDbName 1 101 eachOther mutual_eachOther _).mpr
    (by decide +kernel)

/-- Both calls check before either marks: both return true, and both rows stay. -/
theorem both_marked_rows_stay :
    ∃ final : Noted Unit, run (notedStep twoDatabases.getDbName 1 101) (start eachOther)
        [(.first, true), (.second, true), (.first, true), (.second, true)] = some final ∧
      (∀ side, final.1.point side = .returned true) ∧
      ∀ side, ownRow twoDatabases.getDbName 1 101 final.1.tables side = some ⟨1, ()⟩ := by
  refine ⟨_, rfl, ?_, ?_⟩ <;> intro side <;> cases side <;> rfl

end CBuddyListDaoDdbImp

end ServiceFrame
