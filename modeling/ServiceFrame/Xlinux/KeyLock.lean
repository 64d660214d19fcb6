import ServiceFrame.Foundation.OrderedMap
import ServiceFrame.Foundation.Run
import ServiceFrame.Foundation.Threads

/-! # A mutex for each key

`KeyLock` keeps a `Value` with a mutex of its own for each key somebody holds
or waits for: made by the first `lock`, deleted by the last `unlock`, its
references counted under the global mutex. Between two mutex operations a
thread runs alone what the global mutex protects, so that a step is a mutex
operation with the code behind it, up to the next one.
-/

namespace ServiceFrame

open Foundation

universe uKey uThread

variable {Key : Type uKey} {Thread : Type uThread}

namespace KeyLock

/-- A process has fewer threads than an `int` counts. -/
structure Value (Thread : Type uThread) where
  m_iRef : Int
  m_mtxSingleKey : Option Thread

/-- The mutex operation a thread stands before. -/
inductive Phase (Key : Type uKey) where
  | outside
  /-- `lock`, before `m_mtx.lock()`. -/
  | entering (key : Key)
  /-- `lock`, before `m_mtx.unlock()`. -/
  | registered (key : Key) (pValue : Nat)
  /-- `lock`, before `pValue->m_mtxSingleKey.lock()`. -/
  | waiting (key : Key) (pValue : Nat)
  /-- `unlock`, before `m_mtx.lock()`. -/
  | returning (key : Key)
  /-- `unlock`, before `it->second->m_mtxSingleKey.unlock()`. -/
  | found (key : Key) (pValue : Nat)
  /-- `unlock`, before `m_mtx.unlock()`. -/
  | leaving
  deriving DecidableEq

namespace Phase

/-- Between `m_mtx.lock()` and `m_mtx.unlock()`. -/
def HoldsGlobal : Phase Key → Prop
  | .registered _ _ | .found _ _ | .leaving => True
  | _ => False

/-- The key whose mutex the thread has registered for and not got yet. -/
def wants : Phase Key → Option Key
  | .registered key _ | .waiting key _ => some key
  | _ => none

/-- The Value the thread has a pointer to. -/
def at? : Phase Key → Option (Key × Nat)
  | .registered key pValue | .waiting key pValue | .found key pValue => some (key, pValue)
  | _ => none

/-- The key a running `lock` is for. -/
def locks : Phase Key → Option Key
  | .entering key | .registered key _ | .waiting key _ => some key
  | _ => none

/-- The key a running `unlock` has still to let go. -/
def unlocks : Phase Key → Option Key
  | .returning key | .found key _ => some key
  | _ => none

end Phase

/-- A thread, with the keys it has locked and not let go. -/
structure Caller (Key : Type uKey) where
  phase : Phase Key
  keys : List Key

namespace Caller

/-- The thread holds the key or waits for it. -/
def Concerned (key : Key) (caller : Caller Key) : Prop :=
  key ∈ caller.keys ∨ caller.phase.wants = some key

end Caller

end KeyLock

/-- The Values there are by their addresses, of which none is given twice. -/
structure KeyLock (Key : Type uKey) (Thread : Type uThread) [LinearOrder Key] where
  m_mtx : Option Thread
  m_map : OrderedMap Key Nat
  values : Nat → Option (KeyLock.Value Thread)
  allocated : Nat
  callers : Thread → KeyLock.Caller Key

namespace KeyLock

/-- What a thread does: it calls one of the two, or goes on to its next mutex operation. -/
inductive Event (Key : Type uKey) (Thread : Type uThread) where
  | lock (thread : Thread) (key : Key)
  | unlock (thread : Thread) (key : Key)
  | next (thread : Thread)

section Model

variable [LinearOrder Key]

def init : KeyLock Key Thread :=
  { m_mtx := none, m_map := OrderedMap.empty, values := fun _ => none, allocated := 0,
    callers := fun _ => ⟨.outside, []⟩ }

variable [DecidableEq Thread]

def setPhase (state : KeyLock Key Thread) (thread : Thread) (phase : Phase Key) :
    KeyLock Key Thread :=
  { state with
    callers := Function.update state.callers thread { state.callers thread with phase := phase } }

/-- `m_map.insert(key, NULL)`, `new Value()` when the key is new, and one reference more. -/
def enroll (state : KeyLock Key Thread) (thread : Thread) (key : Key) :
    Option (KeyLock Key Thread) :=
  match state.m_map.find key with
  | none =>
      some <| { state with
        m_mtx := some thread
        m_map := state.m_map.insert key state.allocated
        values := Function.update state.values state.allocated (some ⟨0 + 1, none⟩)
        allocated := state.allocated + 1 }.setPhase thread (.registered key state.allocated)
  | some pValue =>
      (state.values pValue).map fun value =>
        { state with
          m_mtx := some thread
          values := Function.update state.values pValue
            (some { value with m_iRef := value.m_iRef + 1 }) }.setPhase thread
              (.registered key pValue)

/-- The key's mutex let go, one reference fewer, and the Value deleted with the last one. -/
def release (state : KeyLock Key Thread) (thread : Thread) (key : Key) (pValue : Nat)
    (value : Value Thread) : KeyLock Key Thread :=
  let callers := Function.update state.callers thread
    ⟨.leaving, (state.callers thread).keys.filter (· ≠ key)⟩
  if value.m_iRef - 1 = 0 then
    { state with
      m_map := state.m_map.erase key
      values := Function.update state.values pValue none
      callers := callers }
  else
    { state with
      values := Function.update state.values pValue (some ⟨value.m_iRef - 1, none⟩)
      callers := callers }

/-- The next mutex operation of a thread. There is no step while the mutex is taken, nor on
a Value that is deleted. -/
def advance (state : KeyLock Key Thread) (thread : Thread) : Option (KeyLock Key Thread) :=
  match (state.callers thread).phase with
  | .outside => none
  | .entering key => if state.m_mtx = none then state.enroll thread key else none
  | .registered key pValue =>
      some ({ state with m_mtx := none }.setPhase thread (.waiting key pValue))
  | .waiting key pValue =>
      (state.values pValue).bind fun value =>
        if value.m_mtxSingleKey = none then
          some { state with
            values := Function.update state.values pValue
              (some { value with m_mtxSingleKey := some thread })
            callers := Function.update state.callers thread
              ⟨.outside, key :: (state.callers thread).keys⟩ }
        else none
  | .returning key =>
      if state.m_mtx = none then
        some ({ state with m_mtx := some thread }.setPhase thread
          (match state.m_map.find key with
            | some pValue => .found key pValue
            | none => .leaving))
      else none
  | .found key pValue =>
      (state.values pValue).map fun value => state.release thread key pValue value
  | .leaving => some ({ state with m_mtx := none }.setPhase thread .outside)

def step (state : KeyLock Key Thread) : Event Key Thread → Option (KeyLock Key Thread)
  | .lock thread key =>
      if (state.callers thread).phase = .outside then some (state.setPhase thread (.entering key))
      else none
  | .unlock thread key =>
      if (state.callers thread).phase = .outside then some (state.setPhase thread (.returning key))
      else none
  | .next thread => state.advance thread

/-- A thread locks no key it holds and unlocks none that it does not. -/
def Proper (state : KeyLock Key Thread) : Event Key Thread → Prop
  | .lock thread key => key ∉ (state.callers thread).keys
  | .unlock thread key => key ∈ (state.callers thread).keys
  | .next _ => True

instance decidableProper (state : KeyLock Key Thread) :
    (event : Event Key Thread) → Decidable (state.Proper event)
  | .lock thread key => inferInstanceAs (Decidable (key ∉ (state.callers thread).keys))
  | .unlock thread key => inferInstanceAs (Decidable (key ∈ (state.callers thread).keys))
  | .next _ => isTrue trivial

/-- The Value that the next mutex operation of a thread, or the code behind it, works on. -/
def uses (state : KeyLock Key Thread) (thread : Thread) : Option Nat :=
  match (state.callers thread).phase with
  | .entering key => state.m_map.find key
  | .waiting _ pValue | .found _ pValue => some pValue
  | _ => none

end Model

/-! ## What holds between any two steps -/

/-- The Value of a key: as many references as threads concerned, one at least, and its
mutex with the thread that holds the key. -/
def Keyed (values : Nat → Option (Value Thread)) (callers : Thread → Caller Key) (key : Key)
    (pValue : Nat) : Prop :=
  ∃ value count, values pValue = some value ∧ value.m_iRef = Int.ofNat count ∧ 0 < count ∧
    Counts (fun thread => (callers thread).Concerned key) count ∧
    Guards value.m_mtxSingleKey (fun thread => key ∈ (callers thread).keys)

namespace Keyed

variable {values : Nat → Option (Value Thread)} {callers : Thread → Caller Key} {key : Key}
  {pValue count : Nat} {mutex : Option Thread}

/-- Writes to one Value do not touch another's. -/
theorem frame (hkeyed : Keyed values callers key pValue) {written : Nat}
    (hother : pValue ≠ written) (value : Option (Value Thread)) :
    Keyed (Function.update values written value) callers key pValue := by
  obtain ⟨old, count, hold, hrest⟩ := hkeyed
  exact ⟨old, count, by rw [Function.update_of_ne hother, hold], hrest⟩

variable [DecidableEq Thread] {thread : Thread} {caller : Caller Key}

/-- A Value keeps its account when the thread that moves stays concerned or not with the
key, and holds it or not. -/
theorem stay (hkeyed : Keyed values callers key pValue)
    (hconcerned : caller.Concerned key ↔ (callers thread).Concerned key)
    (hholds : key ∈ caller.keys ↔ key ∈ (callers thread).keys) :
    Keyed values (Function.update callers thread caller) key pValue := by
  obtain ⟨value, count, hvalue, hrefs, hpos, hcount, hguards⟩ := hkeyed
  exact ⟨value, count, hvalue, hrefs, hpos,
    Counts.update_stay (Caller.Concerned key) hcount hconcerned,
    Guards.stay (fun caller : Caller Key => key ∈ caller.keys) hguards hholds⟩

/-- The thread that registers for a key is one more that is concerned with it. -/
theorem enroll {phase : Phase Key}
    (hcount : Counts (fun other => (callers other).Concerned key) count)
    (hguards : Guards mutex (fun other => key ∈ (callers other).keys))
    (hout : ¬ (callers thread).Concerned key) (hwants : phase.wants = some key) :
    Keyed (Function.update values pValue (some ⟨Int.ofNat (count + 1), mutex⟩))
      (Function.update callers thread { callers thread with phase := phase }) key pValue :=
  ⟨_, count + 1, Function.update_self .., rfl, Nat.succ_pos count,
    Counts.update_enter (Caller.Concerned key) hcount hout (Or.inr hwants),
    Guards.stay (fun caller : Caller Key => key ∈ caller.keys) hguards Iff.rfl⟩

/-- The thread that takes a free mutex holds the key, and was concerned with it before. -/
theorem acquire (hcount : Counts (fun other => (callers other).Concerned key) count)
    (hpos : 0 < count) (hguards : Guards none (fun other => key ∈ (callers other).keys))
    (hwants : (callers thread).phase.wants = some key) :
    Keyed (Function.update values pValue (some ⟨Int.ofNat count, some thread⟩))
      (Function.update callers thread ⟨.outside, key :: (callers thread).keys⟩) key pValue := by
  refine ⟨_, count, Function.update_self .., rfl, hpos,
    Counts.update_stay (Caller.Concerned key) hcount ?_,
    Guards.take (fun caller : Caller Key => key ∈ caller.keys) hguards
      List.mem_cons_self⟩
  exact iff_of_true (Or.inl List.mem_cons_self) (Or.inr hwants)

/-- The thread that lets a key go is one fewer, while others are left. -/
theorem depart (hcount : Counts (fun other => (callers other).Concerned key) (count + 1))
    (hpos : 0 < count) (hguards : Guards mutex (fun other => key ∈ (callers other).keys))
    (hholds : key ∈ (callers thread).keys) (hkeys : key ∉ caller.keys)
    (hwants : caller.phase.wants ≠ some key) :
    Keyed (Function.update values pValue (some ⟨Int.ofNat count, none⟩))
      (Function.update callers thread caller) key pValue :=
  ⟨_, count, Function.update_self .., rfl, hpos,
    Counts.update_leave (Caller.Concerned key) hcount (Or.inl hholds)
      (not_or.mpr ⟨hkeys, hwants⟩),
    Guards.drop (fun caller : Caller Key => key ∈ caller.keys) hguards hholds hkeys⟩

end Keyed

section Invariant

variable [LinearOrder Key]

/-- What the map says of a thread that stands anywhere in the two functions. -/
structure Caller.Placed (m_map : OrderedMap Key Nat) (caller : Caller Key) : Prop where
  entered : ∀ key, caller.Concerned key → (m_map.find key).isSome
  pointed : ∀ key pValue, caller.phase.at? = some (key, pValue) → m_map.find key = some pValue
  fresh : ∀ key, caller.phase.locks = some key → key ∉ caller.keys
  owned : ∀ key, caller.phase.unlocks = some key → key ∈ caller.keys

theorem Caller.Placed.concerned_of_at {m_map : OrderedMap Key Nat} {caller : Caller Key}
    (hplaced : caller.Placed m_map) {key : Key} {pValue : Nat}
    (hat : caller.phase.at? = some (key, pValue)) : caller.Concerned key := by
  cases hphase : caller.phase with
  | registered name address | waiting name address =>
      rw [hphase] at hat
      cases hat
      exact Or.inr (by rw [hphase, Phase.wants])
  | found name address =>
      rw [hphase] at hat
      cases hat
      exact Or.inl (hplaced.owned key (by rw [hphase, Phase.unlocks]))
  | _ =>
      rw [hphase] at hat
      cases hat

structure Consistent (state : KeyLock Key Thread) : Prop where
  guarded : Guards state.m_mtx (fun thread => (state.callers thread).phase.HoldsGlobal)
  placed : ∀ thread, (state.callers thread).Placed state.m_map
  allocated : ∀ key pValue, state.m_map.find key = some pValue → pValue < state.allocated
  apart : ∀ key other pValue, state.m_map.find key = some pValue →
    state.m_map.find other = some pValue → other = key
  keyed : ∀ key pValue, state.m_map.find key = some pValue →
    Keyed state.values state.callers key pValue

theorem init_consistent : (init : KeyLock Key Thread).Consistent where
  guarded := fun thread => by simp [init, Phase.HoldsGlobal]
  placed := fun thread => {
    entered := by simp [init, Caller.Concerned, Phase.wants]
    pointed := by simp [init, Phase.at?]
    fresh := by simp [init]
    owned := by simp [init, Phase.unlocks] }
  allocated := by simp [init]
  apart := by simp [init]
  keyed := by simp [init]

variable {state : KeyLock Key Thread} {thread : Thread} {key : Key} {pValue : Nat}

theorem Consistent.entering_not_concerned (hstate : state.Consistent)
    (hphase : (state.callers thread).phase = .entering key) :
    ¬ (state.callers thread).Concerned key := by
  rintro (hkeys | hwants)
  · exact (hstate.placed thread).fresh key (by rw [hphase, Phase.locks]) hkeys
  · simp [hphase, Phase.wants] at hwants

/-- Nobody holds or wants a key that has no Value. -/
theorem Consistent.absent (hstate : state.Consistent) (hfind : state.m_map.find key = none)
    (other : Thread) : ¬ (state.callers other).Concerned key := by
  intro hconcerned
  have hthere := (hstate.placed other).entered key hconcerned
  rw [hfind] at hthere
  cases hthere

variable [DecidableEq Thread]

theorem Consistent.placed_update (hstate : state.Consistent) {m_map : OrderedMap Key Nat}
    {caller : Caller Key} (hcaller : caller.Placed m_map)
    (hothers : ∀ other, other ≠ thread → (state.callers other).Placed state.m_map →
      (state.callers other).Placed m_map) (other : Thread) :
    (Function.update state.callers thread caller other).Placed m_map := by
  rw [Function.update_apply]
  split
  next => exact hcaller
  next hother => exact hothers other hother (hstate.placed other)

/-- A step that goes to another place and leaves the keys and the Values as they are. -/
theorem Consistent.moves (hstate : state.Consistent) {mutex : Option Thread} {phase : Phase Key}
    (hguarded : Guards mutex (fun other => (Function.update state.callers thread
      { state.callers thread with phase := phase } other).phase.HoldsGlobal))
    (hwants : phase.wants = (state.callers thread).phase.wants)
    (hpointed : ∀ key pValue, phase.at? = some (key, pValue) → state.m_map.find key = some pValue)
    (hfresh : ∀ key, phase.locks = some key → key ∉ (state.callers thread).keys)
    (howned : ∀ key, phase.unlocks = some key → key ∈ (state.callers thread).keys) :
    ({ state with m_mtx := mutex }.setPhase thread phase).Consistent where
  guarded := hguarded
  placed := by
    refine hstate.placed_update ⟨fun key hconcerned => ?_, hpointed, hfresh, howned⟩
      fun _ _ hplaced => hplaced
    apply (hstate.placed thread).entered key
    rwa [Caller.Concerned, hwants] at hconcerned
  allocated := hstate.allocated
  apart := hstate.apart
  keyed := fun key pValue hfind => by
    refine (hstate.keyed key pValue hfind).stay ?_ Iff.rfl
    rw [Caller.Concerned, Caller.Concerned, hwants]

/-- A thread registers for the Value of its key, which is made now or was there. -/
theorem Consistent.registered (hstate : state.Consistent)
    (hphase : (state.callers thread).phase = .entering key) (hfree : state.m_mtx = none)
    {m_map : OrderedMap Key Nat} {allocated count : Nat} {mutex : Option Thread}
    (hmap : m_map.find = Function.update state.m_map.find key (some pValue))
    (hkept : ∀ address, state.m_map.find key = some address → address = pValue)
    (hapart : ∀ other, other ≠ key → state.m_map.find other ≠ some pValue)
    (hallocated : pValue < allocated ∧ state.allocated ≤ allocated)
    (hcount : Counts (fun other => (state.callers other).Concerned key) count)
    (hguards : Guards mutex (fun other => key ∈ (state.callers other).keys)) :
    ({ m_mtx := some thread, m_map := m_map,
       values := Function.update state.values pValue (some ⟨Int.ofNat (count + 1), mutex⟩),
       allocated := allocated, callers := state.callers : KeyLock Key Thread }.setPhase thread
         (.registered key pValue)).Consistent := by
  have hout := hstate.entering_not_concerned hphase
  have hguarded := hstate.guarded
  rw [hfree] at hguarded
  have hself : m_map.find key = some pValue := by rw [hmap, Function.update_self]
  have hfind : ∀ other address, m_map.find other = some address →
      other = key ∧ address = pValue ∨
        other ≠ key ∧ address ≠ pValue ∧ state.m_map.find other = some address := by
    intro other address hother
    rw [hmap, Function.update_apply] at hother
    split at hother
    next hsame => exact Or.inl ⟨hsame, (Option.some.inj hother).symm⟩
    next hne => exact Or.inr ⟨hne, fun hsame => hapart other hne (hsame ▸ hother), hother⟩
  have hgrows : ∀ other address, state.m_map.find other = some address →
      m_map.find other = some address := by
    intro other address hother
    by_cases hsame : other = key
    · subst hsame
      rw [hself, hkept address hother]
    · rw [hmap, Function.update_of_ne hsame, hother]
  have hthere : ∀ other, (state.m_map.find other).isSome → (m_map.find other).isSome := by
    intro other hother
    obtain ⟨address, haddress⟩ := Option.isSome_iff_exists.mp hother
    rw [hgrows other address haddress]
    rfl
  refine ⟨Guards.take (fun caller : Caller Key => caller.phase.HoldsGlobal)
    hguarded trivial, hstate.placed_update ⟨?_, ?_, ?_, ?_⟩ ?_, ?_, ?_, ?_⟩
  · rintro other (hkeys | hwants)
    · exact hthere other ((hstate.placed thread).entered other (Or.inl hkeys))
    · cases hwants
      exact Option.isSome_iff_exists.mpr ⟨pValue, hself⟩
  · rintro other address hat
    cases hat
    exact hself
  · rintro other hlocks
    cases hlocks
    exact fun hkeys => hout (Or.inl hkeys)
  · rintro other hunlocks
    cases hunlocks
  · exact fun other _ hplaced => ⟨fun key hconcerned => hthere key (hplaced.entered key hconcerned),
      fun key address hat => hgrows key address (hplaced.pointed key address hat),
      hplaced.fresh, hplaced.owned⟩
  · intro other address hother
    rcases hfind other address hother with ⟨-, rfl⟩ | ⟨-, -, hold⟩
    · exact hallocated.1
    · exact lt_of_lt_of_le (hstate.allocated other address hold) hallocated.2
  · intro first second address hfirst hsecond
    rcases hfind first address hfirst with ⟨rfl, rfl⟩ | ⟨-, hne, hfirst⟩
    · rcases hfind second _ hsecond with ⟨rfl, -⟩ | ⟨-, hne, -⟩
      · rfl
      · exact absurd rfl hne
    · rcases hfind second address hsecond with ⟨-, rfl⟩ | ⟨-, -, hsecond⟩
      · exact absurd rfl hne
      · exact hstate.apart first second address hfirst hsecond
  · intro other address hother
    rcases hfind other address hother with ⟨rfl, rfl⟩ | ⟨hne, hother, hold⟩
    · exact Keyed.enroll hcount hguards hout rfl
    · refine ((hstate.keyed other address hold).frame hother _).stay (or_congr Iff.rfl ?_) Iff.rfl
      rw [hphase]
      simp [Phase.wants, Ne.symm hne]

theorem Consistent.enroll (hstate : state.Consistent) {next : KeyLock Key Thread}
    (hphase : (state.callers thread).phase = .entering key) (hfree : state.m_mtx = none)
    (hnext : state.enroll thread key = some next) : next.Consistent := by
  unfold KeyLock.enroll at hnext
  split at hnext
  next hfind =>
    cases hnext
    have hnobody := hstate.absent hfind
    have hguards : Guards none (fun other => key ∈ (state.callers other).keys) :=
      fun other => iff_of_false (by simp) fun hkeys => hnobody other (Or.inl hkeys)
    have hmap : (state.m_map.insert key state.allocated).find =
        Function.update state.m_map.find key (some state.allocated) := by
      rw [OrderedMap.find_insert, hfind, Option.getD_none]
    have hnew := hstate.registered hphase hfree hmap
      (fun address haddress => by rw [hfind] at haddress; cases haddress)
      (fun other _ hother => lt_irrefl _ (hstate.allocated other _ hother))
      ⟨Nat.lt_succ_self _, Nat.le_succ _⟩ (Counts.zero hnobody) hguards
    exact hnew
  next pValue hfind =>
    obtain ⟨value, count, hvalue, hrefs, -, hcount, hguards⟩ := hstate.keyed key pValue hfind
    rw [hvalue, Option.map_some] at hnext
    cases hnext
    rw [hrefs]
    refine hstate.registered hphase hfree ?_ ?_ ?_ ⟨hstate.allocated key pValue hfind, le_rfl⟩
      hcount hguards
    · rw [← hfind, Function.update_eq_self]
    · intro address haddress
      exact Option.some.inj (haddress.symm.trans hfind)
    · exact fun other hne hother => hne (hstate.apart key other pValue hfind hother)

/-- A thread that has waited for its key takes the key's mutex. -/
theorem Consistent.acquired (hstate : state.Consistent) {value : Value Thread}
    (hphase : (state.callers thread).phase = .waiting key pValue)
    (hvalue : state.values pValue = some value) (hfree : value.m_mtxSingleKey = none) :
    { state with
      values := Function.update state.values pValue
        (some { value with m_mtxSingleKey := some thread })
      callers := Function.update state.callers thread
        ⟨.outside, key :: (state.callers thread).keys⟩ : KeyLock Key Thread }.Consistent := by
  have hwants : (state.callers thread).phase.wants = some key := by rw [hphase, Phase.wants]
  have hfind := (hstate.placed thread).pointed key pValue (by rw [hphase, Phase.at?])
  have hconcerned : ∀ other, Caller.Concerned other ⟨.outside, key :: (state.callers thread).keys⟩ ↔
      (state.callers thread).Concerned other := by
    intro other
    rw [Caller.Concerned, Caller.Concerned, hwants, List.mem_cons]
    simp [Phase.wants, or_comm, eq_comm]
  refine ⟨?_, hstate.placed_update ⟨?_, ?_, ?_, ?_⟩ fun _ _ hplaced => hplaced,
    hstate.allocated, hstate.apart, ?_⟩
  · apply Guards.stay (fun caller : Caller Key => caller.phase.HoldsGlobal) hstate.guarded
    rw [hphase]
    exact Iff.rfl
  · exact fun other hother => (hstate.placed thread).entered other ((hconcerned other).mp hother)
  · intro other address hat
    cases hat
  · intro other hlocks
    cases hlocks
  · intro other hunlocks
    cases hunlocks
  · intro other address hother
    by_cases hsame : other = key
    · subst hsame
      cases hfind.symm.trans hother
      obtain ⟨old, count, hold, hrefs, hpos, hcount, hguards⟩ := hstate.keyed other pValue hfind
      cases hold.symm.trans hvalue
      rw [hfree] at hguards
      rw [hrefs]
      exact Keyed.acquire hcount hpos hguards hwants
    · have hne : address ≠ pValue := by
        rintro rfl
        exact hsame (hstate.apart key other address hfind hother)
      apply ((hstate.keyed other address hother).frame hne _).stay (hconcerned other)
      simp [hsame]

/-- A thread that lets a key go is concerned with its other keys as before. -/
theorem concerned_filter {caller : Caller Key} (hphase : caller.phase = .found key pValue)
    (other : Key) : Caller.Concerned other ⟨.leaving, caller.keys.filter (· ≠ key)⟩ ↔
      other ≠ key ∧ caller.Concerned other := by
  rw [Caller.Concerned, Caller.Concerned, hphase]
  simp [Phase.wants, and_comm]

/-- What the other keys' Values say, whatever becomes of this one's. -/
theorem Consistent.released_others (hstate : state.Consistent)
    (hphase : (state.callers thread).phase = .found key pValue) (written : Option (Value Thread))
    {other : Key} {address : Nat} (hne : other ≠ key)
    (hother : state.m_map.find other = some address) :
    Keyed (Function.update state.values pValue written) (Function.update state.callers thread
      ⟨.leaving, (state.callers thread).keys.filter (· ≠ key)⟩) other address := by
  have hfind := (hstate.placed thread).pointed key pValue (by rw [hphase, Phase.at?])
  have hapart : address ≠ pValue := by
    rintro rfl
    exact hne (hstate.apart key other address hfind hother)
  refine ((hstate.keyed other address hother).frame hapart _).stay ?_ ?_
  · rw [concerned_filter hphase]
    exact and_iff_right hne
  · simp [hne]

/-- The last thread concerned with a key deletes its Value. -/
theorem Consistent.deleted (hstate : state.Consistent)
    (hphase : (state.callers thread).phase = .found key pValue)
    (hcount : Counts (fun other => (state.callers other).Concerned key) 1) :
    { state with
      m_map := state.m_map.erase key
      values := Function.update state.values pValue none
      callers := Function.update state.callers thread
        ⟨.leaving, (state.callers thread).keys.filter (· ≠ key)⟩ :
        KeyLock Key Thread }.Consistent := by
  have hholds := (hstate.placed thread).owned key (by rw [hphase, Phase.unlocks])
  have halone : ∀ other, other ≠ thread → ¬ (state.callers other).Concerned key := by
    intro other hne hother
    have hnobody := Counts.update_leave (Caller.Concerned key) hcount (Or.inl hholds)
      (fun hleft => ((concerned_filter hphase key).mp hleft).1 rfl)
    refine lt_irrefl 0 (hnobody.pos_iff.mpr ⟨other, ?_⟩)
    rwa [Function.update_of_ne hne]
  have hfind : ∀ other address, (state.m_map.erase key).find other = some address →
      other ≠ key ∧ state.m_map.find other = some address := by
    intro other address hother
    have hne : other ≠ key := by
      rintro rfl
      rw [OrderedMap.find_erase_self] at hother
      cases hother
    rw [OrderedMap.find_erase_of_ne _ hne] at hother
    exact ⟨hne, hother⟩
  refine ⟨?_, hstate.placed_update ⟨?_, ?_, ?_, ?_⟩ ?_, ?_, ?_, ?_⟩
  · apply Guards.stay (fun caller : Caller Key => caller.phase.HoldsGlobal) hstate.guarded
    rw [hphase]
    exact Iff.rfl
  · intro other hother
    obtain ⟨hne, hold⟩ := (concerned_filter hphase other).mp hother
    rw [OrderedMap.find_erase_of_ne _ hne]
    exact (hstate.placed thread).entered other hold
  · intro other address hat
    cases hat
  · intro other hlocks
    cases hlocks
  · intro other hunlocks
    cases hunlocks
  · intro other hne hplaced
    have hapart : ∀ name, (state.callers other).Concerned name → name ≠ key := by
      rintro name hname rfl
      exact halone other hne hname
    refine ⟨fun name hname => ?_, fun name address hat => ?_, hplaced.fresh, hplaced.owned⟩
    · rw [OrderedMap.find_erase_of_ne _ (hapart name hname)]
      exact hplaced.entered name hname
    · rw [OrderedMap.find_erase_of_ne _ (hapart name (hplaced.concerned_of_at hat))]
      exact hplaced.pointed name address hat
  · exact fun other address hother => hstate.allocated other address (hfind other address hother).2
  · exact fun first second address hfirst hsecond =>
      hstate.apart first second address (hfind first address hfirst).2
        (hfind second address hsecond).2
  · intro other address hother
    obtain ⟨hne, hold⟩ := hfind other address hother
    exact hstate.released_others hphase none hne hold

theorem Consistent.released (hstate : state.Consistent) {value : Value Thread}
    (hphase : (state.callers thread).phase = .found key pValue)
    (hvalue : state.values pValue = some value) :
    (state.release thread key pValue value).Consistent := by
  have hfind := (hstate.placed thread).pointed key pValue (by rw [hphase, Phase.at?])
  have hholds := (hstate.placed thread).owned key (by rw [hphase, Phase.unlocks])
  obtain ⟨old, count, hold, hrefs, hpos, hcount, hguards⟩ := hstate.keyed key pValue hfind
  cases hold.symm.trans hvalue
  unfold KeyLock.release
  obtain ⟨left, rfl⟩ : ∃ left, count = left + 1 := ⟨count - 1, by omega⟩
  have hleft : value.m_iRef - 1 = Int.ofNat left := by
    rw [hrefs]
    simp
  split
  next hlast =>
    rw [hleft] at hlast
    cases Int.ofNat_eq_zero.mp hlast
    exact hstate.deleted hphase hcount
  next hmore =>
    have hpos : 0 < left := by
      rw [hleft] at hmore
      exact Nat.pos_of_ne_zero fun hzero => hmore (by rw [hzero]; rfl)
    refine ⟨?_, hstate.placed_update ⟨?_, ?_, ?_, ?_⟩ fun _ _ hplaced => hplaced,
      hstate.allocated, hstate.apart, ?_⟩
    · apply Guards.stay (fun caller : Caller Key => caller.phase.HoldsGlobal) hstate.guarded
      rw [hphase]
      exact Iff.rfl
    · exact fun other hother => (hstate.placed thread).entered other
        ((concerned_filter hphase other).mp hother).2
    · intro other address hat
      cases hat
    · intro other hlocks
      cases hlocks
    · intro other hunlocks
      cases hunlocks
    · intro other address hother
      by_cases hsame : other = key
      · subst hsame
        cases hfind.symm.trans hother
        rw [hleft]
        exact Keyed.depart hcount hpos hguards hholds (by simp) (by simp [Phase.wants])
      · exact hstate.released_others hphase _ hsame hother

/-- A call changes nothing that another thread can see. -/
theorem Consistent.called (hstate : state.Consistent) {phase : Phase Key}
    (houtside : (state.callers thread).phase = .outside) (hglobal : ¬ phase.HoldsGlobal)
    (hwants : phase.wants = none) (hat : phase.at? = none)
    (hfresh : ∀ key, phase.locks = some key → key ∉ (state.callers thread).keys)
    (howned : ∀ key, phase.unlocks = some key → key ∈ (state.callers thread).keys) :
    (state.setPhase thread phase).Consistent := by
  refine hstate.moves ?_ ?_ (fun key pValue hsome => ?_) hfresh howned
  · apply Guards.stay (fun caller : Caller Key => caller.phase.HoldsGlobal) hstate.guarded
    rw [houtside]
    exact iff_of_false hglobal id
  · rw [hwants, houtside, Phase.wants.eq_def]
  · rw [hat] at hsome
    cases hsome

theorem Consistent.advance (hstate : state.Consistent) {next : KeyLock Key Thread}
    (hnext : state.advance thread = some next) : next.Consistent := by
  have hdrop : ∀ phase : Phase Key, (state.callers thread).phase.HoldsGlobal → ¬ phase.HoldsGlobal →
      Guards none (fun other => (Function.update state.callers thread
        { state.callers thread with phase := phase } other).phase.HoldsGlobal) := fun _ hin hout =>
    Guards.drop (fun caller : Caller Key => caller.phase.HoldsGlobal) hstate.guarded hin hout
  unfold KeyLock.advance at hnext
  split at hnext
  next => cases hnext
  next key hphase =>
    split at hnext
    next hfree => exact hstate.enroll hphase hfree hnext
    next => cases hnext
  next key pValue hphase =>
    cases hnext
    have hplaced := hstate.placed thread
    refine hstate.moves (hdrop _ (by rw [hphase]; trivial) id) (by rw [hphase]; rfl) ?_ ?_ ?_
    · exact fun other address hat => hplaced.pointed other address (by rw [hphase]; exact hat)
    · exact fun other hlocks => hplaced.fresh other (by rw [hphase]; exact hlocks)
    · intro other hunlocks
      cases hunlocks
  next key pValue hphase =>
    obtain ⟨value, hvalue, hnext⟩ := Option.bind_eq_some_iff.mp hnext
    split at hnext
    next hfree =>
      cases hnext
      exact hstate.acquired hphase hvalue hfree
    next => cases hnext
  next key hphase =>
    split at hnext
    next hfree =>
      cases hnext
      have hguarded := hstate.guarded
      rw [hfree] at hguarded
      have hholds := (hstate.placed thread).owned key (by rw [hphase, Phase.unlocks])
      -- somebody holds the key, so that its Value is there
      obtain ⟨pValue, hfind⟩ := Option.isSome_iff_exists.mp
        ((hstate.placed thread).entered key (Or.inl hholds))
      rw [hfind]
      refine hstate.moves (Guards.take (fun caller : Caller Key => caller.phase.HoldsGlobal)
        hguarded trivial) (by rw [hphase]; rfl) ?_ ?_ ?_
      · intro other address hat
        cases hat
        exact hfind
      · intro other hlocks
        cases hlocks
      · intro other hunlocks
        cases hunlocks
        exact hholds
    next => cases hnext
  next key pValue hphase =>
    obtain ⟨value, hvalue, rfl⟩ := Option.map_eq_some_iff.mp hnext
    exact hstate.released hphase hvalue
  next hphase =>
    cases hnext
    refine hstate.moves (hdrop _ (by rw [hphase]; trivial) id) (by rw [hphase]; rfl) ?_ ?_ ?_
    · intro other address hat
      cases hat
    · intro other hlocks
      cases hlocks
    · intro other hunlocks
      cases hunlocks

theorem Consistent.step (hstate : state.Consistent) {event : Event Key Thread}
    (hproper : state.Proper event) {next : KeyLock Key Thread}
    (hnext : state.step event = some next) : next.Consistent := by
  cases event with
  | lock thread key =>
      rw [KeyLock.step, Option.ite_none_right_eq_some, Option.some.injEq] at hnext
      obtain ⟨houtside, rfl⟩ := hnext
      refine hstate.called houtside id rfl rfl ?_ ?_
      · intro other hlocks
        cases hlocks
        exact hproper
      · intro other hunlocks
        cases hunlocks
  | unlock thread key =>
      rw [KeyLock.step, Option.ite_none_right_eq_some, Option.some.injEq] at hnext
      obtain ⟨houtside, rfl⟩ := hnext
      refine hstate.called houtside id rfl rfl ?_ ?_
      · intro other hlocks
        cases hlocks
      · intro other hunlocks
        cases hunlocks
        exact hproper
  | next thread => exact hstate.advance hnext

/-! ## The lock excludes -/

/-- What the users of the lock rely on, and what keeps it from using deleted memory. -/
structure Sound (state : KeyLock Key Thread) : Prop where
  excludes : ∀ key first second, key ∈ (state.callers first).keys →
    key ∈ (state.callers second).keys → first = second
  alive : ∀ thread pValue, state.uses thread = some pValue → (state.values pValue).isSome
  counted : ∀ key, ∃ count, Counts (fun thread => (state.callers thread).Concerned key) count ∧
    ((state.m_map.find key).isSome ↔ 0 < count) ∧
    ∀ pValue, state.m_map.find key = some pValue →
      ∃ value, state.values pValue = some value ∧ value.m_iRef = Int.ofNat count
  ordered : ∀ thread key pValue, (state.callers thread).phase = .waiting key pValue →
    state.m_mtx ≠ some thread

omit [DecidableEq Thread] in
theorem Consistent.sound (hstate : state.Consistent) : state.Sound where
  excludes := by
    intro key first second hfirst hsecond
    obtain ⟨pValue, hfind⟩ := Option.isSome_iff_exists.mp
      ((hstate.placed first).entered key (Or.inl hfirst))
    obtain ⟨value, count, -, -, -, -, hguards⟩ := hstate.keyed key pValue hfind
    exact hguards.unique hfirst hsecond
  alive := by
    intro thread pValue huses
    have hfind : ∃ key, state.m_map.find key = some pValue := by
      unfold uses at huses
      split at huses
      next key hphase => exact ⟨key, huses⟩
      next key address hphase =>
        cases huses
        exact ⟨key, (hstate.placed thread).pointed key pValue (by rw [hphase, Phase.at?])⟩
      next key address hphase =>
        cases huses
        exact ⟨key, (hstate.placed thread).pointed key pValue (by rw [hphase, Phase.at?])⟩
      next => cases huses
    obtain ⟨key, hfind⟩ := hfind
    obtain ⟨value, -, hvalue, -⟩ := hstate.keyed key pValue hfind
    exact Option.isSome_iff_exists.mpr ⟨value, hvalue⟩
  counted := by
    intro key
    cases hfind : state.m_map.find key with
    | none => exact ⟨0, Counts.zero (hstate.absent hfind), by simp, fun _ hsome => by cases hsome⟩
    | some pValue =>
        obtain ⟨value, count, hvalue, hrefs, hpos, hcount, -⟩ := hstate.keyed key pValue hfind
        refine ⟨count, hcount, iff_of_true rfl hpos, fun other hother => ?_⟩
        cases hother
        exact ⟨value, hvalue, hrefs⟩
  ordered := by
    intro thread key pValue hphase hmtx
    have hholds : (state.callers thread).phase.HoldsGlobal := (hstate.guarded thread).mp hmtx
    rw [hphase] at hholds
    exact hholds

/-- However the threads interleave, one thread at a time holds a key. -/
theorem excludes_throughout (events : List (Event Key Thread))
    (hproper : Along step Proper init events) : Throughout step Sound init events := by
  have hstep : ∀ (state : KeyLock Key Thread) event next, state.Consistent → state.Proper event →
      state.step event = some next → next.Consistent :=
    fun _ _ _ hstate hevent hnext => hstate.step hevent hnext
  exact throughout_of_along hstep (fun _ hstate => hstate.sound) init_consistent hproper

/-- A thread waits for the key while another holds it, and takes it over. -/
theorem excludes_throughout_contended :
    let events : List (Event Nat Nat) :=
      [.lock 0 7, .next 0, .next 0, .next 0, .lock 1 7, .next 1, .next 1, .unlock 0 7, .next 0,
        .next 0, .next 1, .next 0, .unlock 1 7, .next 1, .next 1, .next 1]
    (run step init events).isSome ∧ Throughout step Sound init events :=
  ⟨by decide, excludes_throughout _ (by decide)⟩

end Invariant

end KeyLock

end ServiceFrame
