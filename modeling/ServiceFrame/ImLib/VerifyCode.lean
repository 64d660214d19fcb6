import ServiceFrame.Foundation.CString
import ServiceFrame.Foundation.OrderedMap
import ServiceFrame.Sox.HttpParser

/-! # Verification codes

`VerifyCodeHelper` of `service/imlib/VerifyCodeHelper.cpp` keeps the codes that it issues in a
memcached. A check gets the code of a key and then deletes it, in two steps that those of other
checks may come between.
-/

namespace ServiceFrame

open Foundation

namespace VerifyCode

/-- `EXPIRATION_TIME`, in seconds. -/
def expirationTime : Nat := 1200

/-- `VALUE_CHAR`. -/
def valueChar : List UInt8 := literal "34578acdefghjkmnprstuvwxv"

/-- What `getRandValue` may return, the letters in either case. -/
structure Value (charCount : Nat) where
  text : List UInt8
  length : text.length = charCount
  chars : ∀ c ∈ text, tolower c ∈ valueChar

/-- A call of `checkVerifyCode` that has got its `strValue` and has not deleted the key yet. The
time is that of the get. -/
structure Check where
  strKey : List UInt8
  strUserValue : List UInt8
  strValue : List UInt8
  time : Nat

/-- What the call returns: `strcasecmp` finds no difference. -/
def Check.result (check : Check) : Bool := sameCase (cstr check.strUserValue) (cstr check.strValue)

/-- The memcached, with the times at which its entries expire, and the clients. Besides, all that
was issued, and the calls that have returned. -/
structure State where
  now : Nat
  cache : OrderedMap (List UInt8) (List UInt8 × Nat)
  checks : OrderedMap Nat Check
  issued : OrderedMap (List UInt8) (List UInt8 × Nat)
  returned : List (Check × Bool)

def start (now : Nat) : State := ⟨now, .empty, .empty, .empty, []⟩

/-- The value of a key that has not expired. -/
def State.mcGet (st : State) (key : List UInt8) : Option (List UInt8) :=
  (st.cache.find key).bind fun entry => if st.now < entry.2 then some entry.1 else none

inductive Event (charCount : Nat) where
  | getVerifyCodeAndKey (strKey : List UInt8) (strValue : Value charCount)
  | mcGet (call : Nat) (strKey strUserValue : List UInt8)
  | mcDel (call : Nat)
  | wait (seconds : Nat)

variable {charCount : Nat}

/-- Issued keys are distinct, and so are the calls under way. -/
def step (st : State) : Event charCount → Option State
  | .getVerifyCodeAndKey strKey strValue =>
      if (st.issued.find strKey).isSome then none
      else
        let entry := (strValue.text, st.now + expirationTime)
        some { st with
          cache := st.cache.set strKey entry
          issued := st.issued.set strKey entry }
  | .mcGet call strKey strUserValue =>
      if (st.checks.find call).isSome then none
      else
        let strValue := (st.mcGet strKey).getD []
        some { st with
          checks := st.checks.set call ⟨strKey, strUserValue, strValue, st.now⟩ }
  | .mcDel call =>
      (st.checks.find call).map fun check =>
        { st with
          cache := st.cache.erase check.strKey
          checks := st.checks.erase call
          returned := st.returned ++ [(check, check.result)] }
  | .wait seconds => some { st with now := st.now + seconds }

/-- The key was issued, had not expired when its value was got, and the text is the value but for
the case of letters. -/
def Earned (issued : OrderedMap (List UInt8) (List UInt8 × Nat)) (check : Check) : Prop :=
  ∃ entry, issued.find check.strKey = some entry ∧ check.time < entry.2 ∧
    sameCase check.strUserValue entry.1 = true

/-- How many calls returned true for a key. -/
def State.accepted (st : State) (key : List UInt8) : Nat :=
  st.returned.countP fun call => call.2 && call.1.strKey = key

/-- A code is accepted only if it was issued, and at most once. -/
structure Sound (st : State) : Prop where
  earned : ∀ call ∈ st.returned, call.2 = true → Earned st.issued call.1
  once : ∀ key, st.accepted key ≤ 1

/-- A get that finds nothing is for a text that is not empty as a C string. One that finds what the
text matches is for a text without a `\0`, and no check of the key that also found a match is under
way. -/
def Guarded (st : State) : Event charCount → Prop
  | .mcGet _ strKey strUserValue =>
      match st.mcGet strKey with
      | none => cstr strUserValue ≠ []
      | some value => sameCase (cstr strUserValue) (cstr value) = true →
          0 ∉ strUserValue ∧ ∀ other check, st.checks.find other = some check →
            check.strKey = strKey → check.result = false
  | _ => True

/-! ## Runs -/

/-- What a call that is going to return true stands for. -/
structure Winning (st : State) (call : Nat) (check : Check) : Prop where
  found : st.checks.find call = some check
  result : check.result = true

structure Inv (st : State) : Prop where
  cached : ∀ key entry, st.cache.find key = some entry → st.issued.find key = some entry
  text : ∀ key entry, st.issued.find key = some entry → 0 ∉ entry.1
  pending : ∀ call check, Winning st call check → Earned st.issued check
  alone : ∀ call call' check check', Winning st call check → Winning st call' check' →
    check.strKey = check'.strKey → call = call'
  spent : ∀ call ∈ st.returned, call.2 = true → st.cache.find call.1.strKey = none ∧
    ∀ other check, Winning st other check → check.strKey ≠ call.1.strKey
  sound : Sound st

theorem inv_start (now : Nat) : Inv (start now) where
  cached _ _ hfind := by cases hfind
  text _ _ hfind := by cases hfind
  pending _ _ hwins := by cases hwins.found
  alone _ _ _ _ hwins := by cases hwins.found
  spent _ hcall := by cases hcall
  sound := ⟨fun _ hcall => absurd hcall List.not_mem_nil, fun _ => Nat.zero_le 1⟩

/-- No character of a value is a `\0`. -/
theorem Value.zero_notMem (value : Value charCount) : 0 ∉ value.text := by
  intro hzero
  have hmem := value.chars 0 hzero
  revert hmem
  decide

variable {st next : State}

theorem earned_set {issued : OrderedMap (List UInt8) (List UInt8 × Nat)} {strKey : List UInt8}
    {entry : List UInt8 × Nat} (hnew : issued.find strKey = none) {check : Check}
    (hearned : Earned issued check) : Earned (issued.set strKey entry) check := by
  obtain ⟨old, hfind, hrest⟩ := hearned
  have hne : check.strKey ≠ strKey := by
    intro hsame
    rw [hsame, hnew] at hfind
    cases hfind
  exact ⟨old, by rw [OrderedMap.find_set_of_ne _ hne, hfind], hrest⟩

theorem inv_issue (hst : Inv st) {strKey : List UInt8} {strValue : Value charCount}
    (hstep : step st (.getVerifyCodeAndKey strKey strValue) = some next) : Inv next := by
  dsimp only [step] at hstep
  split at hstep
  next => cases hstep
  next hfresh =>
    have hnew : st.issued.find strKey = none := Option.not_isSome_iff_eq_none.mp hfresh
    cases hstep
    constructor
    · intro key entry hfind
      by_cases hkey : key = strKey
      · rw [hkey, OrderedMap.find_set_self] at hfind ⊢
        exact hfind
      · rw [OrderedMap.find_set_of_ne _ hkey] at hfind ⊢
        exact hst.cached key entry hfind
    · intro key entry hfind
      by_cases hkey : key = strKey
      · rw [hkey, OrderedMap.find_set_self] at hfind
        cases hfind
        exact strValue.zero_notMem
      · rw [OrderedMap.find_set_of_ne _ hkey] at hfind
        exact hst.text key entry hfind
    · exact fun call check hwins => earned_set hnew (hst.pending call check ⟨hwins.1, hwins.2⟩)
    · exact fun call call' check check' hwins hwins' =>
        hst.alone call call' check check' ⟨hwins.1, hwins.2⟩ ⟨hwins'.1, hwins'.2⟩
    · intro call hcall htrue
      obtain ⟨hgone, hothers⟩ := hst.spent call hcall htrue
      obtain ⟨entry, hissued, -⟩ := hst.sound.earned call hcall htrue
      have hne : call.1.strKey ≠ strKey := by
        intro hsame
        rw [hsame, hnew] at hissued
        cases hissued
      exact ⟨by rw [OrderedMap.find_set_of_ne _ hne, hgone],
        fun other check hwins => hothers other check ⟨hwins.1, hwins.2⟩⟩
    · exact ⟨fun call hcall htrue => earned_set hnew (hst.sound.earned call hcall htrue),
        hst.sound.once⟩

/-- A winning check of the state after a get is the new one, or one of before. -/
theorem Winning.of_set {call other : Nat} {check new : Check}
    (hwins : Winning { st with checks := st.checks.set call new } other check) :
    other = call ∧ check = new ∨ other ≠ call ∧ Winning st other check := by
  by_cases hother : other = call
  · have hfound := hwins.found
    rw [hother, OrderedMap.find_set_self] at hfound
    cases hfound
    exact Or.inl ⟨hother, rfl⟩
  · have hfound := hwins.found
    rw [OrderedMap.find_set_of_ne _ hother] at hfound
    exact Or.inr ⟨hother, hfound, hwins.result⟩

/-- A guarded get wins only what was issued, and alone. -/
theorem get_wins (hst : Inv st) {call : Nat} {strKey strUserValue : List UInt8}
    (hguarded : Guarded st (.mcGet call strKey strUserValue : Event charCount))
    (hresult : Check.result ⟨strKey, strUserValue, (st.mcGet strKey).getD [], st.now⟩ = true) :
    ∃ entry, st.cache.find strKey = some entry ∧ st.now < entry.2 ∧
      sameCase strUserValue entry.1 = true ∧
      ∀ other check, st.checks.find other = some check → check.strKey = strKey →
        check.result = false := by
  dsimp only [Guarded] at hguarded
  dsimp only [Check.result] at hresult
  cases hget : st.mcGet strKey with
  | none =>
      rw [hget] at hguarded hresult
      have hempty : cstr strUserValue = [] := by
        simpa [sameCase, cstr] using hresult
      exact absurd hempty hguarded
  | some value =>
      rw [hget] at hguarded hresult
      obtain ⟨hzero, hothers⟩ := hguarded hresult
      obtain ⟨entry, hfind, hlive⟩ := Option.bind_eq_some_iff.mp hget
      split at hlive
      next htime =>
        cases hlive
        have hvalue := hst.text strKey entry (hst.cached strKey entry hfind)
        rw [Option.getD_some, cstr_of_notMem hzero, cstr_of_notMem hvalue] at hresult
        exact ⟨entry, hfind, htime, hresult, hothers⟩
      next => cases hlive

theorem inv_get (hst : Inv st) {call : Nat} {strKey strUserValue : List UInt8}
    (hguarded : Guarded st (.mcGet call strKey strUserValue : Event charCount))
    (hstep : step st (.mcGet call strKey strUserValue : Event charCount) = some next) :
    Inv next := by
  have hwinsNew := get_wins hst hguarded
  dsimp only [step] at hstep
  split at hstep
  next => cases hstep
  next hfresh =>
    cases hstep
    refine ⟨hst.cached, hst.text, ?_, ?_, ?_, hst.sound.earned, hst.sound.once⟩
    · intro other check hwins
      rcases hwins.of_set with ⟨rfl, rfl⟩ | ⟨-, hold⟩
      · obtain ⟨entry, hfind, htime, hsame, -⟩ := hwinsNew hwins.result
        exact ⟨entry, hst.cached strKey entry hfind, htime, hsame⟩
      · exact hst.pending other check hold
    · -- the new check wins alone, since no other one of its key wins
      intro other other' check check' hwins hwins' hkey
      rcases hwins.of_set with ⟨rfl, rfl⟩ | ⟨hother, hold⟩
      · rcases hwins'.of_set with ⟨rfl, -⟩ | ⟨hother', hold'⟩
        · rfl
        · obtain ⟨-, -, -, -, hothers⟩ := hwinsNew hwins.result
          have hlost := hothers other' check' hold'.found hkey.symm
          rw [hold'.result] at hlost
          cases hlost
      · rcases hwins'.of_set with ⟨rfl, rfl⟩ | ⟨hother', hold'⟩
        · obtain ⟨-, -, -, -, hothers⟩ := hwinsNew hwins'.result
          have hlost := hothers other check hold.found hkey
          rw [hold.result] at hlost
          cases hlost
        · exact hst.alone other other' check check' hold hold' hkey
    · intro returned hreturned htrue
      obtain ⟨hgone, hothers⟩ := hst.spent returned hreturned htrue
      refine ⟨hgone, fun other check hwins => ?_⟩
      rcases hwins.of_set with ⟨rfl, rfl⟩ | ⟨-, hold⟩
      · obtain ⟨entry, hfind, -⟩ := hwinsNew hwins.result
        intro hsame
        rw [← hsame, hfind] at hgone
        cases hgone
      · exact hothers other check hold

/-- Another call has returned. -/
theorem accepted_append (returned : List (Check × Bool)) (last : Check × Bool)
    (hst : st.returned = returned ++ [last]) (key : List UInt8) :
    st.accepted key = State.accepted { st with returned := returned } key +
      if last.2 && last.1.strKey = key then 1 else 0 := by
  rw [State.accepted, hst, List.countP_append, List.countP_singleton]
  rfl

/-- A winning check of the state after a delete is another one of before. -/
theorem Winning.of_del {call other : Nat} {check pending : Check}
    (hwins : Winning
      { st with
        cache := st.cache.erase check.strKey
        checks := st.checks.erase call
        returned := st.returned ++ [(check, check.result)] } other pending) :
    other ≠ call ∧ Winning st other pending := by
  have hfound := hwins.found
  by_cases hother : other = call
  · rw [hother, OrderedMap.find_erase_self] at hfound
    cases hfound
  · rw [OrderedMap.find_erase_of_ne _ hother] at hfound
    exact ⟨hother, hfound, hwins.result⟩

/-- While a winning check is under way, no call has returned true for its key. -/
theorem Inv.accepted_eq_zero (hst : Inv st) {call : Nat} {check : Check}
    (hwins : Winning st call check) : st.accepted check.strKey = 0 := by
  rw [State.accepted, List.countP_eq_zero]
  intro returned hreturned htrue
  simp only [Bool.and_eq_true, decide_eq_true_eq] at htrue
  exact (hst.spent returned hreturned htrue.1).2 call check hwins htrue.2.symm

theorem inv_del (hst : Inv st) {call : Nat}
    (hstep : step st (.mcDel call : Event charCount) = some next) : Inv next := by
  obtain ⟨check, hfound, rfl⟩ := Option.map_eq_some_iff.mp hstep
  have hcache : ∀ key, st.cache.find key = none ∨ key = check.strKey →
      (st.cache.erase check.strKey).find key = none := by
    intro key hkey
    by_cases hsame : key = check.strKey
    · rw [hsame, OrderedMap.find_erase_self]
    · rw [OrderedMap.find_erase_of_ne _ hsame]
      exact hkey.resolve_right hsame
  constructor
  · intro key entry hfind
    by_cases hkey : key = check.strKey
    · rw [hkey, OrderedMap.find_erase_self] at hfind
      cases hfind
    · rw [OrderedMap.find_erase_of_ne _ hkey] at hfind
      exact hst.cached key entry hfind
  · exact hst.text
  · exact fun other pending hwins => hst.pending other pending hwins.of_del.2
  · exact fun other other' pending pending' hwins hwins' =>
      hst.alone other other' pending pending' hwins.of_del.2 hwins'.of_del.2
  · intro returned hreturned htrue
    rcases List.mem_append.mp hreturned with hpast | hlast
    · obtain ⟨hgone, hothers⟩ := hst.spent returned hpast htrue
      exact ⟨hcache _ (Or.inl hgone), fun other pending hwins =>
        hothers other pending hwins.of_del.2⟩
    · obtain rfl := List.mem_singleton.mp hlast
      refine ⟨hcache _ (Or.inr rfl), fun other pending hwins hsame => ?_⟩
      obtain ⟨hother, hold⟩ := hwins.of_del
      exact hother (hst.alone other call pending check hold ⟨hfound, htrue⟩ hsame)
  · constructor
    · intro returned hreturned htrue
      rcases List.mem_append.mp hreturned with hpast | hlast
      · exact hst.sound.earned returned hpast htrue
      · obtain rfl := List.mem_singleton.mp hlast
        exact hst.pending call check ⟨hfound, htrue⟩
    · intro key
      rw [accepted_append st.returned (check, check.result) rfl]
      split
      next hcounts =>
        simp only [Bool.and_eq_true, decide_eq_true_eq] at hcounts
        obtain ⟨htrue, rfl⟩ := hcounts
        exact (congrArg (· + 1) (hst.accepted_eq_zero ⟨hfound, htrue⟩)).le
      next => exact hst.sound.once key

theorem inv_step (hst : Inv st) {event : Event charCount} (hguarded : Guarded st event)
    (hstep : step st event = some next) : Inv next := by
  cases event with
  | getVerifyCodeAndKey strKey strValue => exact inv_issue hst hstep
  | mcGet call strKey strUserValue => exact inv_get hst hguarded hstep
  | mcDel call => exact inv_del hst hstep
  | wait seconds =>
      cases hstep
      exact ⟨hst.cached, hst.text,
        fun call check hwins => hst.pending call check ⟨hwins.1, hwins.2⟩,
        fun call call' check check' hwins hwins' =>
          hst.alone call call' check check' ⟨hwins.1, hwins.2⟩ ⟨hwins'.1, hwins'.2⟩,
        fun call hcall htrue => ⟨(hst.spent call hcall htrue).1, fun other check hwins =>
          (hst.spent call hcall htrue).2 other check ⟨hwins.1, hwins.2⟩⟩,
        hst.sound.earned, hst.sound.once⟩

/-- In a run whose gets are guarded, codes are accepted only if they were issued, and once. -/
theorem sound_throughout {now : Nat} {events : List (Event charCount)}
    (hguarded : Along step Guarded (start now) events) :
    Throughout step Sound (start now) events :=
  throughout_of_along (fun _ _ _ hst hguarded hstep => inv_step hst hguarded hstep)
    (fun _ (hst : Inv _) => hst.sound) (inv_start now) hguarded

/-- The value `a`. -/
def valueA : Value 1 where
  text := [97]
  length := rfl
  chars := by decide +kernel

/-- The value is issued, the check of it in the other case passes, and a later one does not. -/
theorem sound_of_checks : Throughout step Sound (start 0)
    [.getVerifyCodeAndKey [107] valueA, .mcGet 0 [107] [65], .mcDel 0, .mcGet 1 [107] [97],
      .mcDel 1] := by
  refine sound_throughout ⟨trivial, ?_⟩
  rintro _ ⟨rfl⟩
  refine ⟨fun _ => ⟨by decide, fun _ _ hfound => by cases hfound⟩, ?_⟩
  rintro _ ⟨rfl⟩
  refine ⟨trivial, ?_⟩
  rintro _ ⟨rfl⟩
  refine ⟨show cstr [97] ≠ [] by decide, ?_⟩
  rintro _ ⟨rfl⟩
  exact ⟨trivial, fun _ _ => trivial⟩

/-- The empty text passes for a key that was never issued. -/
theorem not_sound_of_empty : ¬ ∀ (charCount now : Nat) (events : List (Event charCount)),
    Throughout step Sound (start now) events := by
  intro hall
  have hrun := hall 4 0 [.mcGet 0 [107] [], .mcDel 0]
  have hfinal : Sound _ := (hrun.2 _ rfl).2 _ rfl
  obtain ⟨entry, hissued, -⟩ := hfinal.earned (⟨[107], [], [], 0⟩, true)
    (List.mem_singleton.mpr rfl) rfl
  cases hissued

end VerifyCode

end ServiceFrame
