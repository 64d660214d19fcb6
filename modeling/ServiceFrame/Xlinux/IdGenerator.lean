import Mathlib.Data.Nat.ModEq
import Mathlib.Tactic.Ring
import ServiceFrame.Foundation.Run

/-! # Ids from the clock

`IdGenerator` makes an id of the seconds, the microseconds and the number of
the generator. The reading of the clock is shifted for the number once more
than the layout allows, so that of the seconds only the low 20 bits are left.
-/

namespace ServiceFrame

open Foundation

universe uGen

/-- A reading of the clock, as `get_cur_sec_us_time` casts it. -/
structure Timeval where
  tv_sec : UInt64
  tv_usec : UInt64
  deriving DecidableEq

structure IdGenerator where
  m_u64LastT : UInt64
  m_u64ExternalId : UInt64

namespace IdGenerator

/-- The constructor; with a number of more than 12 bits the process ends. -/
def make (u64ExternalId : UInt64) : Option IdGenerator :=
  if u64ExternalId ≥ 4096 then none else some ⟨0, u64ExternalId⟩

def get_cur_sec_us_time (tv : Timeval) : UInt64 := (tv.tv_sec <<< 32) + (tv.tv_usec <<< 12)

/-- The id, with the reading it is made of: the first after the last one. The call goes on
while there is none. -/
def nextId (generator : IdGenerator) : List Timeval → Option (UInt64 × Timeval × IdGenerator)
  | [] => none
  | tv :: rest =>
      let u64CurT := get_cur_sec_us_time tv
      if u64CurT ≤ generator.m_u64LastT then generator.nextId rest
      else
        some ((u64CurT <<< 12) + generator.m_u64ExternalId, tv,
          { generator with m_u64LastT := u64CurT })

end IdGenerator

/-- An id that was made: by whom, and of which reading. -/
structure Issue (Gen : Type uGen) where
  generator : Gen
  tv : Timeval
  id : UInt64

/-- Generators at work, with all ids so far. -/
structure Issuing (Gen : Type uGen) where
  generators : Gen → IdGenerator
  issues : List (Issue Gen)

namespace Issuing

variable {Gen : Type uGen}

/-- A generator makes an id; it reads the clock as often as it takes. -/
structure Event (Gen : Type uGen) where
  generator : Gen
  readings : List Timeval

def step [DecidableEq Gen] (issuing : Issuing Gen) (event : Event Gen) : Option (Issuing Gen) :=
  ((issuing.generators event.generator).nextId event.readings).map fun (id, tv, generator) =>
    { generators := Function.update issuing.generators event.generator generator
      issues := issuing.issues ++ [⟨event.generator, tv, id⟩] }

end Issuing

namespace Timeval

/-- Seconds of 32 bits, and microseconds. -/
def Valid (tv : Timeval) : Prop := tv.tv_sec.toNat < 2 ^ 32 ∧ tv.tv_usec.toNat < 10 ^ 6

/-- The reading in microseconds-of-20-bits, the seconds in front. -/
def ticks (tv : Timeval) : Nat := tv.tv_sec.toNat * 2 ^ 20 + tv.tv_usec.toNat

/-- What an id says of its reading: the seconds are kept modulo `2^20`. -/
def kept (tv : Timeval) : Nat := tv.tv_sec.toNat % 2 ^ 20 * 2 ^ 20 + tv.tv_usec.toNat

theorem ticks_eq (tv : Timeval) : tv.ticks = tv.tv_sec.toNat / 2 ^ 20 * 2 ^ 40 + tv.kept := by
  rw [ticks, kept]
  omega

theorem layout_eq (tv : Timeval) :
    tv.tv_sec.toNat * 2 ^ 32 + tv.tv_usec.toNat * 2 ^ 12 = tv.ticks * 2 ^ 12 := by
  rw [ticks]
  omega

variable {tv : Timeval}

theorem toNat_shiftLeft_12 (word : UInt64) :
    (word <<< 12).toNat = word.toNat * 2 ^ 12 % 2 ^ 64 := by
  rw [UInt64.toNat_shiftLeft, Nat.shiftLeft_eq]
  rfl

theorem toNat_shiftLeft_32 (word : UInt64) :
    (word <<< 32).toNat = word.toNat * 2 ^ 32 % 2 ^ 64 := by
  rw [UInt64.toNat_shiftLeft, Nat.shiftLeft_eq]
  rfl

theorem Valid.time (hvalid : tv.Valid) :
    (IdGenerator.get_cur_sec_us_time tv).toNat = tv.ticks * 2 ^ 12 := by
  obtain ⟨hsec, husec⟩ := hvalid
  rw [IdGenerator.get_cur_sec_us_time, UInt64.toNat_add, toNat_shiftLeft_12, toNat_shiftLeft_32,
    ticks]
  omega

theorem Valid.kept_lt (hvalid : tv.Valid) : tv.kept < 2 ^ 40 := by
  have husec := hvalid.2
  have hsec := Nat.mod_lt tv.tv_sec.toNat (show 0 < 2 ^ 20 by decide)
  unfold kept
  omega

/-- The second shift drops the seconds beyond the low 20 bits. -/
theorem Valid.id (hvalid : tv.Valid) {externalId : UInt64} (hexternal : externalId < 4096) :
    ((IdGenerator.get_cur_sec_us_time tv <<< 12) + externalId).toNat =
      tv.kept * 2 ^ 24 + externalId.toNat := by
  have husec := hvalid.2
  have hext : externalId.toNat < 4096 := hexternal
  rw [UInt64.toNat_add, toNat_shiftLeft_12, hvalid.time, ticks, kept]
  omega

/-- The layout holds of no reading but the one at time zero, for which no id is made. -/
theorem Valid.layout (hvalid : tv.Valid) (hlater : 0 < tv.ticks) :
    tv.kept * 2 ^ 24 ≠ tv.tv_sec.toNat * 2 ^ 32 + tv.tv_usec.toNat * 2 ^ 12 := by
  intro hlayout
  have hbound := hvalid.kept_lt
  have hticks := tv.ticks_eq
  -- 4095 times what is kept would be a multiple of 2^40
  rw [tv.layout_eq] at hlayout
  omega

end Timeval

/-- An id is made of the first reading after the last one. -/
theorem IdGenerator.nextId_spec {generator next : IdGenerator} {readings : List Timeval}
    {id : UInt64} {tv : Timeval} (hnext : generator.nextId readings = some (id, tv, next)) :
    tv ∈ readings ∧ generator.m_u64LastT < get_cur_sec_us_time tv ∧
      id = (get_cur_sec_us_time tv <<< 12) + generator.m_u64ExternalId ∧
      next = { generator with m_u64LastT := get_cur_sec_us_time tv } := by
  induction readings with
  | nil => cases hnext
  | cons first rest ih =>
      rw [nextId] at hnext
      split at hnext
      next =>
        obtain ⟨hmem, hspec⟩ := ih hnext
        exact ⟨List.mem_cons_of_mem first hmem, hspec⟩
      next hafter =>
        cases hnext
        exact ⟨List.mem_cons_self, UInt64.not_le.mp hafter, rfl, rfl⟩

namespace Issuing

variable {Gen : Type uGen}

/-- What every id of a run says, and of which generator it is. -/
structure Consistent (generators : Gen → IdGenerator) (issuing : Issuing Gen) : Prop where
  numbers : ∀ gen, (issuing.generators gen).m_u64ExternalId = (generators gen).m_u64ExternalId
  issued : ∀ issue ∈ issuing.issues, issue.tv.Valid ∧ 0 < issue.tv.ticks ∧
    issue.id.toNat = issue.tv.kept * 2 ^ 24 + (generators issue.generator).m_u64ExternalId.toNat

theorem Consistent.step [DecidableEq Gen] {generators : Gen → IdGenerator}
    {issuing next : Issuing Gen} {event : Event Gen}
    (hexternal : ∀ gen, (generators gen).m_u64ExternalId < 4096)
    (hissuing : issuing.Consistent generators) (hvalid : ∀ tv ∈ event.readings, tv.Valid)
    (hnext : issuing.step event = some next) : next.Consistent generators := by
  obtain ⟨⟨id, tv, generator⟩, hid, rfl⟩ := Option.map_eq_some_iff.mp hnext
  obtain ⟨hmem, hafter, hvalue, hgenerator⟩ := IdGenerator.nextId_spec hid
  have hnumber := hissuing.numbers event.generator
  have hreading := hvalid tv hmem
  refine ⟨fun gen => ?_, fun issue hissue => ?_⟩
  · change (Function.update issuing.generators event.generator generator gen).m_u64ExternalId = _
    rw [Function.update_apply]
    split
    next hsame => rw [hgenerator, hsame, hnumber]
    next => exact hissuing.numbers gen
  · rcases List.mem_append.mp hissue with hold | hnew
    · exact hissuing.issued issue hold
    · rw [List.mem_singleton.mp hnew]
      refine ⟨hreading, ?_, ?_⟩
      · have htime := hreading.time
        have hlater := UInt64.lt_iff_toNat_lt.mp hafter
        change 0 < tv.ticks
        omega
      · change id.toNat = _
        rw [hvalue, hnumber]
        exact hreading.id (hexternal event.generator)

/-- The ids of one generator go up. -/
def Increasing (issues : List (Issue Gen)) : Prop :=
  issues.Pairwise fun first second => first.generator = second.generator → first.id < second.id

def Unique (issues : List (Issue Gen)) : Prop := (issues.map Issue.id).Nodup

/-- 32 bits of seconds, 20 bits of microseconds and the 12 bits of the generator. -/
def LaidOut (generators : Gen → IdGenerator) (issue : Issue Gen) : Prop :=
  issue.id.toNat = issue.tv.tv_sec.toNat * 2 ^ 32 + issue.tv.tv_usec.toNat * 2 ^ 12 +
    (generators issue.generator).m_u64ExternalId.toNat

section Ids

variable {generators : Gen → IdGenerator} {issuing : Issuing Gen} {first second : Issue Gen}

theorem Consistent.not_laidOut (hissuing : issuing.Consistent generators)
    (hissue : first ∈ issuing.issues) : ¬ LaidOut generators first := by
  obtain ⟨hvalid, hlater, hid⟩ := hissuing.issued first hissue
  rw [LaidOut, hid]
  exact fun hsame => hvalid.layout hlater (Nat.add_right_cancel hsame)

theorem Consistent.lt_iff (hissuing : issuing.Consistent generators)
    (hfirst : first ∈ issuing.issues) (hsecond : second ∈ issuing.issues)
    (hsame : first.generator = second.generator) :
    first.id < second.id ↔ first.tv.kept < second.tv.kept := by
  obtain ⟨-, -, hid⟩ := hissuing.issued first hfirst
  obtain ⟨-, -, hid'⟩ := hissuing.issued second hsecond
  rw [UInt64.lt_iff_toNat_lt, hid, hid', hsame]
  omega

/-- Ids of different generators differ in their low bits. -/
theorem Consistent.ne_iff (hissuing : issuing.Consistent generators)
    (hexternal : ∀ gen, (generators gen).m_u64ExternalId < 4096)
    (hdistinct : ∀ gen other, (generators gen).m_u64ExternalId =
      (generators other).m_u64ExternalId → gen = other)
    (hfirst : first ∈ issuing.issues) (hsecond : second ∈ issuing.issues) :
    first.id ≠ second.id ↔
      (first.generator = second.generator → first.tv.kept ≠ second.tv.kept) := by
  obtain ⟨-, -, hid⟩ := hissuing.issued first hfirst
  obtain ⟨-, -, hid'⟩ := hissuing.issued second hsecond
  rw [Ne, ← UInt64.toNat_inj, hid, hid']
  by_cases hsame : first.generator = second.generator
  · rw [hsame]
    simp
  · have hlow : (generators first.generator).m_u64ExternalId.toNat < 4096 := hexternal _
    have hlow' : (generators second.generator).m_u64ExternalId.toNat < 4096 := hexternal _
    have hne : (generators first.generator).m_u64ExternalId.toNat ≠
        (generators second.generator).m_u64ExternalId.toNat := fun heq =>
      hsame (hdistinct _ _ (UInt64.toNat_inj.mp heq))
    refine iff_of_true (fun heq => ?_) fun hother => absurd hother hsame
    omega

end Ids

/-- No id has its layout. The ids of a generator go up, and all ids are different, as long as
the readings do not come round modulo `2^20` seconds. -/
theorem ids_iff [DecidableEq Gen] {externalId : Gen → UInt64} {generators : Gen → IdGenerator}
    (hmade : ∀ gen, IdGenerator.make (externalId gen) = some (generators gen))
    (hdistinct : Function.Injective externalId) {events : List (Event Gen)}
    (hvalid : ∀ event ∈ events, ∀ tv ∈ event.readings, tv.Valid) {issuing : Issuing Gen}
    (hrun : run step ⟨generators, []⟩ events = some issuing) :
    (Increasing issuing.issues ∧ Unique issuing.issues ∧
      (∀ issue ∈ issuing.issues, LaidOut generators issue) ↔ issuing.issues = []) ∧
    (∀ issue ∈ issuing.issues, ¬ LaidOut generators issue) ∧
    (Increasing issuing.issues ↔ issuing.issues.Pairwise fun first second =>
      first.generator = second.generator → first.tv.kept < second.tv.kept) ∧
    (Unique issuing.issues ↔ issuing.issues.Pairwise fun first second =>
      first.generator = second.generator → first.tv.kept ≠ second.tv.kept) := by
  have hexternal : ∀ gen, (generators gen).m_u64ExternalId = externalId gen ∧
      externalId gen < 4096 := by
    intro gen
    have hgen := hmade gen
    rw [IdGenerator.make, Option.ite_none_left_eq_some, Option.some.injEq] at hgen
    rw [← hgen.2]
    exact ⟨rfl, UInt64.not_le.mp hgen.1⟩
  have hsmall : ∀ gen, (generators gen).m_u64ExternalId < 4096 := fun gen =>
    (hexternal gen).1 ▸ (hexternal gen).2
  have hapart : ∀ gen other, (generators gen).m_u64ExternalId =
      (generators other).m_u64ExternalId → gen = other := by
    intro gen other hsame
    rw [(hexternal gen).1, (hexternal other).1] at hsame
    exact hdistinct hsame
  have hstep : ∀ issuing event next, Consistent generators issuing →
      (∀ tv ∈ event.readings, tv.Valid) → issuing.step event = some next →
      Consistent generators next := fun _ _ _ hissuing hreadings hnext =>
    hissuing.step hsmall hreadings hnext
  have hissuing : issuing.Consistent generators :=
    run_invariant_along hstep
      ⟨fun gen => rfl, fun issue hissue => absurd hissue List.not_mem_nil⟩
      (along_of_mem hvalid) hrun
  have hlayout : ∀ issue ∈ issuing.issues, ¬ LaidOut generators issue :=
    fun issue hissue => hissuing.not_laidOut hissue
  refine ⟨⟨?_, ?_⟩, hlayout, ?_, ?_⟩
  · rintro ⟨-, -, hall⟩
    rw [List.eq_nil_iff_forall_not_mem]
    exact fun issue hissue => hlayout issue hissue (hall issue hissue)
  · intro hnone
    rw [hnone]
    exact ⟨List.Pairwise.nil, List.nodup_nil, fun issue hissue => absurd hissue List.not_mem_nil⟩
  · refine List.Pairwise.iff_of_mem fun hfirst hsecond => ?_
    exact forall_congr' fun hsame => hissuing.lt_iff hfirst hsecond hsame
  · rw [Unique, List.Nodup, List.pairwise_map]
    refine List.Pairwise.iff_of_mem fun hfirst hsecond => ?_
    exact hissuing.ne_iff hsmall hapart hfirst hsecond

/-- An id made twelve days later is the same. -/
theorem ids_repeat_after_twelve_days :
    ∃ issuing, run step ⟨fun _ : Unit => ⟨0, 5⟩, []⟩
        [⟨(), [⟨1700000000, 250000⟩]⟩, ⟨(), [⟨1701048576, 250000⟩]⟩] = some issuing ∧
      issuing.issues.map Issue.id = [4544136218320830469, 4544136218320830469] ∧
      ¬ Unique issuing.issues ∧ ¬ Increasing issuing.issues ∧
      ∀ issue ∈ issuing.issues, ¬ LaidOut (fun _ => ⟨0, 5⟩) issue := by
  refine ⟨_, rfl, by decide +kernel, ?_, ?_, ?_⟩
  · unfold Unique
    decide +kernel
  · unfold Increasing
    decide +kernel
  · unfold LaidOut
    decide +kernel

/-- A generator waits for the microsecond after its last id, and neither id has its layout. -/
theorem ids_iff_two_readings :
    ∃ issuing, run step ⟨fun _ : Unit => ⟨0, 5⟩, []⟩
        [⟨(), [⟨1700000000, 250000⟩]⟩, ⟨(), [⟨1700000000, 250000⟩, ⟨1700000000, 250001⟩]⟩] =
          some issuing ∧
      ∀ issue ∈ issuing.issues, ¬ LaidOut (fun _ => ⟨0, 5⟩) issue := by
  obtain ⟨issuing, hrun⟩ : ∃ issuing, run step ⟨fun _ : Unit => ⟨0, 5⟩, []⟩
      [⟨(), [⟨1700000000, 250000⟩]⟩, ⟨(), [⟨1700000000, 250000⟩, ⟨1700000000, 250001⟩]⟩] =
        some issuing := ⟨_, rfl⟩
  have hmade : ∀ _ : Unit, IdGenerator.make 5 = some ⟨0, 5⟩ := fun _ => rfl
  refine ⟨issuing, hrun, (ids_iff hmade (fun _ _ _ => rfl) ?_ hrun).2.1⟩
  unfold Timeval.Valid
  decide +kernel

end Issuing

end ServiceFrame
