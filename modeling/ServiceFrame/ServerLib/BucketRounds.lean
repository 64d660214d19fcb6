import ServiceFrame.ServerLib.BucketDist

/-! # What a new server takes

The loops of `Add_Server` over servers whose numbers of buckets are as close together as
one: what the first loop levels, and where the rounds of the second one stop.
-/

namespace ServiceFrame

open Foundation

namespace BucketDist

variable {dist next before : BucketDist} {sid source bucket : Nat} {redirects : Redirects}

/-! ## One bucket at a time -/

theorem sids_sorted (dist : BucketDist) : dist.sids.Pairwise (· < ·) :=
  List.pairwise_map.mpr dist.sidBucksMap.sorted

/-- States with the same servers have them in the same order. -/
theorem sids_eq (hknown : ∀ other, other ∈ next.sids ↔ other ∈ dist.sids) :
    next.sids = dist.sids := by
  have hperm : next.sids.Perm dist.sids :=
    (List.perm_ext_iff_of_nodup next.sids_nodup dist.sids_nodup).mpr hknown
  exact hperm.eq_of_pairwise (fun _ _ _ _ hless hmore => absurd hless (Nat.lt_asymm hmore))
    next.sids_sorted dist.sids_sorted

theorem transfer_sids (hmoved : transfer sid source dist = some (next, redirects))
    (hsid : sid ∈ dist.sids) (hsource : source ∈ dist.sids) : next.sids = dist.sids := by
  unfold transfer at hmoved
  obtain ⟨bucket, -, hnext⟩ := Option.bind_eq_some_iff.mp hmoved
  cases hnext
  refine sids_eq fun other => ?_
  rw [mem_sids, mem_sids, OrderedMap.find_set, OrderedMap.find_set, Function.update_apply,
    Function.update_apply]
  split
  next hsame => exact iff_of_true rfl ((mem_sids dist other).mp (hsame ▸ hsource))
  next =>
    split
    next hsame => exact iff_of_true rfl ((mem_sids dist other).mp (hsame ▸ hsid))
    next => rfl

/-- `sid` got a bucket of `source`. -/
structure Moved (sid source : Nat) (dist next : BucketDist) : Prop where
  sids : next.sids = dist.sids
  gave : (next.buckets source).card + 1 = (dist.buckets source).card
  got : (next.buckets sid).card = (dist.buckets sid).card + 1
  others : ∀ other, other ≠ source → other ≠ sid →
    (next.buckets other).card = (dist.buckets other).card

theorem Taken.transfer_moved (htaken : Taken before sid dist redirects) (hsid : sid ∈ dist.sids)
    (hsource : source ≠ sid) (hsome : (dist.buckets source).card ≠ 0) :
    ∃ next more, BucketDist.transfer sid source dist = some (next, more) ∧
      Taken before sid next (redirects ++ more) ∧ Moved sid source dist next := by
  obtain ⟨bucket, hmem, next, hmoved, hnext, hbuckets⟩ := htaken.transfer hsource hsome
  have hsource' : source ∈ dist.sids := by
    rw [mem_sids]
    exact htaken.agree.known ((htaken.agree bucket source).mpr hmem)
  have hnot : bucket ∉ dist.buckets sid := by
    intro htook
    rw [← htaken.agree] at htook hmem
    rw [htook, Option.some.injEq] at hmem
    exact hsource hmem.symm
  refine ⟨next, _, hmoved, hnext, ?_, ?_, ?_, ?_⟩
  · exact transfer_sids hmoved hsid hsource'
  · rw [hbuckets, if_pos rfl, Finset.card_erase_add_one hmem]
  · rw [hbuckets, if_neg (Ne.symm hsource), if_pos rfl, Finset.card_insert_of_notMem hnot]
  · intro other hdiff hdiff'
    rw [hbuckets, if_neg hdiff, if_neg hdiff']

theorem transfers_one (sid source : Nat) (dist : BucketDist) :
    transfers sid source 1 dist = transfer sid source dist := by
  unfold transfers transfers
  cases transfer sid source dist with
  | none => rfl
  | some moved => simp

/-! ## The first loop -/

/-- Of the servers from here on, those that have `size` buckets. -/
def having (dist : BucketDist) (sid size : Nat) (rest : List Nat) : Nat :=
  ((rest.filter (· ≠ sid)).map fun other => (dist.buckets other).card).count size

@[simp] theorem having_nil (dist : BucketDist) (sid size : Nat) : dist.having sid size [] = 0 := rfl

@[simp] theorem having_self (dist : BucketDist) (sid size : Nat) (rest : List Nat) :
    dist.having sid size (sid :: rest) = dist.having sid size rest := by
  simp [having]

theorem having_cons (size : Nat) {it2 : Nat} (hother : it2 ≠ sid) (rest : List Nat) :
    dist.having sid size (it2 :: rest) =
      dist.having sid size rest + if (dist.buckets it2).card = size then 1 else 0 := by
  simp [having, hother, List.count_cons]

theorem having_congr (size : Nat) {rest : List Nat}
    (hsame : ∀ other ∈ rest, other ≠ sid → (next.buckets other).card = (dist.buckets other).card) :
    next.having sid size rest = dist.having sid size rest := by
  unfold having
  congr 1
  apply List.map_congr_left
  intro other hmem
  obtain ⟨hmem, hother⟩ := List.mem_filter.mp hmem
  exact hsame other hmem (by simpa using hother)

/-- What the first loop does at the level `least` from `dist` on, when each server has
as many as that or one more. -/
structure Levelled (before : BucketDist) (sid least : Nat) (rest : List Nat) (dist : BucketDist)
    (redirects : Redirects) (next : BucketDist) (needMore : Bool) : Prop where
  taken : Taken before sid next redirects
  sids : next.sids = dist.sids
  passed : ∀ other, other ∉ rest → other ≠ sid →
    (next.buckets other).card = (dist.buckets other).card
  level : ∀ other ∈ rest, other ≠ sid →
    (next.buckets other).card = least ∨ needMore = false ∧ (next.buckets other).card = least + 1
  enough : needMore = false → (next.buckets sid).card = least ∧
    least ≤ (dist.buckets sid).card + dist.having sid (least + 1) rest
  lacking : needMore = true → (next.buckets sid).card < least ∧
    (next.buckets sid).card = (dist.buckets sid).card + dist.having sid (least + 1) rest

namespace Levelled

variable {least it2 : Nat} {rest : List Nat} {needMore : Bool} {middle : BucketDist}

/-- The new server itself is passed over. -/
theorem cons_self (hnext : Levelled before sid least rest dist redirects next needMore) :
    Levelled before sid least (sid :: rest) dist redirects next needMore := by
  refine ⟨hnext.taken, hnext.sids, ?_, ?_, ?_, ?_⟩
  · intro other hmem
    exact hnext.passed other (List.not_mem_of_not_mem_cons hmem)
  · intro other hmem hdiff
    exact hnext.level other (List.mem_of_ne_of_mem hdiff hmem) hdiff
  · rw [having_self]
    exact hnext.enough
  · rw [having_self]
    exact hnext.lacking

/-- So is a server at the level. -/
theorem cons_level (hother : it2 ≠ sid) (hout : it2 ∉ rest)
    (hsize : (dist.buckets it2).card = least)
    (hnext : Levelled before sid least rest dist redirects next needMore) :
    Levelled before sid least (it2 :: rest) dist redirects next needMore := by
  have hnone := dist.having_cons (least + 1) hother rest
  rw [if_neg (by omega), Nat.add_zero] at hnone
  refine ⟨hnext.taken, hnext.sids, ?_, ?_, hnone ▸ hnext.enough, hnone ▸ hnext.lacking⟩
  · intro other hmem
    exact hnext.passed other (List.not_mem_of_not_mem_cons hmem)
  · intro other hmem hdiff
    rcases List.mem_cons.mp hmem with rfl | hmem
    · exact Or.inl ((hnext.passed other hout hdiff).trans hsize)
    · exact hnext.level other hmem hdiff

/-- A server with one more gives it, and the new one may have enough then. -/
theorem cons_last (hother : it2 ≠ sid) (hout : it2 ∉ rest)
    (hsize : (dist.buckets it2).card = least + 1) (hless : (dist.buckets sid).card < least)
    (hsizes : ∀ other ∈ rest, other ≠ sid →
      (dist.buckets other).card = least ∨ (dist.buckets other).card = least + 1)
    (htook : Taken before sid middle redirects) (hmove : Moved sid it2 dist middle)
    (hstop : least ≤ (middle.buckets sid).card) :
    Levelled before sid least (it2 :: rest) dist redirects middle false := by
  have hgave := hmove.gave
  have hgot := hmove.got
  have hone := dist.having_cons (least + 1) hother rest
  rw [if_pos hsize] at hone
  refine ⟨htook, hmove.sids, ?_, ?_, ?_, ?_⟩
  · intro other hmem hdiff
    exact hmove.others other (List.ne_of_not_mem_cons hmem) hdiff
  · intro other hmem hdiff
    rcases List.mem_cons.mp hmem with rfl | hmem
    · exact Or.inl (by omega)
    · rw [hmove.others other (fun hsame => hout (hsame ▸ hmem)) hdiff]
      exact (hsizes other hmem hdiff).imp_right (⟨rfl, ·⟩)
  · intro _
    omega
  · intro hneed
    cases hneed

/-- Or the loop goes on behind it. -/
theorem cons_given (hother : it2 ≠ sid) (hout : it2 ∉ rest)
    (hsize : (dist.buckets it2).card = least + 1) (hmove : Moved sid it2 dist middle)
    (hnext : Levelled before sid least rest middle redirects next needMore) :
    Levelled before sid least (it2 :: rest) dist redirects next needMore := by
  have hgave := hmove.gave
  have hgot := hmove.got
  have hone := dist.having_cons (least + 1) hother rest
  rw [if_pos hsize] at hone
  have hhaving : middle.having sid (least + 1) rest = dist.having sid (least + 1) rest := by
    apply having_congr
    intro other hmem hdiff
    exact hmove.others other (fun hsame => hout (hsame ▸ hmem)) hdiff
  refine ⟨hnext.taken, ?_, ?_, ?_, ?_, ?_⟩
  · rw [hnext.sids, hmove.sids]
  · intro other hmem hdiff
    rw [hnext.passed other (List.not_mem_of_not_mem_cons hmem) hdiff]
    exact hmove.others other (List.ne_of_not_mem_cons hmem) hdiff
  · intro other hmem hdiff
    rcases List.mem_cons.mp hmem with rfl | hmem
    · have hafter := hnext.passed other hout hdiff
      exact Or.inl (by omega)
    · exact hnext.level other hmem hdiff
  · intro hneed
    have henough := hnext.enough hneed
    omega
  · intro hneed
    have hlacking := hnext.lacking hneed
    omega

end Levelled

theorem Taken.levelled (htaken : Taken before sid dist redirects) (hsid : sid ∈ dist.sids)
    (baseSid least : Nat) {rest : List Nat} (hnodup : rest.Nodup)
    (hless : (dist.buckets sid).card < least)
    (hsizes : ∀ other ∈ rest, other ≠ sid →
      (dist.buckets other).card = least ∨ (dist.buckets other).card = least + 1) :
    ∃ next more needMore,
      BucketDist.levelLoop sid baseSid rest least dist = some (next, more, needMore) ∧
      Levelled before sid least rest dist (redirects ++ more) next needMore := by
  induction rest generalizing dist redirects with
  | nil =>
      refine ⟨dist, [], true, rfl, by rwa [List.append_nil], rfl, fun _ _ _ => rfl, ?_, ?_,
        fun _ => ⟨hless, rfl⟩⟩
      · intro other hmem
        cases hmem
      · intro hneed
        cases hneed
  | cons it2 rest ih =>
      obtain ⟨hout, hrest⟩ := List.nodup_cons.mp hnodup
      have hbehind : ∀ other ∈ rest, other ≠ sid →
          (dist.buckets other).card = least ∨ (dist.buckets other).card = least + 1 :=
        fun other hmem => hsizes other (List.mem_cons_of_mem _ hmem)
      unfold BucketDist.levelLoop
      dsimp only
      split
      next hsame =>
        subst hsame
        obtain ⟨next, more, needMore, hloop, hnext⟩ := ih htaken hsid hrest hless hbehind
        exact ⟨next, more, needMore, hloop, hnext.cons_self⟩
      next hother =>
        have hsize := hsizes it2 List.mem_cons_self hother
        split
        next hmore =>
          have hone : (dist.buckets it2).card = least + 1 := by omega
          have hdelta : ((dist.buckets it2).card - least) % 2 ^ 32 = 1 := by
            rw [show (dist.buckets it2).card - least = 1 by omega]
            rfl
          obtain ⟨middle, given, hmoved, htook, hmove⟩ :=
            htaken.transfer_moved hsid hother (by omega)
          have hgave := hmove.gave
          have hgot := hmove.got
          rw [if_neg (by omega), hdelta, transfers_one, hmoved, Option.bind_eq_bind,
            Option.bind_some]
          dsimp only
          split
          next hstop =>
            exact ⟨middle, given, false, rfl,
              .cons_last hother hout hone hless hbehind htook hmove (by omega)⟩
          next hgo =>
            obtain ⟨next, more, needMore, hloop, hnext⟩ := ih htook (hmove.sids ▸ hsid) hrest
              (by omega) fun other hmem hdiff => by
                rw [hmove.others other (fun hsame => hout (hsame ▸ hmem)) hdiff]
                exact hbehind other hmem hdiff
            refine ⟨next, given ++ more, needMore, by rw [hloop]; rfl, ?_⟩
            rw [← List.append_assoc]
            exact hnext.cons_given hother hout hone hmove
        next hnot =>
          rw [if_neg (by omega)]
          obtain ⟨next, more, needMore, hloop, hnext⟩ := ih htaken hsid hrest hless hbehind
          exact ⟨next, more, needMore, hloop, hnext.cons_level hother hout (by omega)⟩

/-- With a bucket each, or none, there is nothing to level. -/
theorem levelLoop_few (baseSid : Nat) {rest : List Nat} {level : Nat} (hlevel : level ≤ 1)
    (hfew : ∀ other ∈ rest, other ≠ sid → (dist.buckets other).card ≤ 1) :
    levelLoop sid baseSid rest level dist = some (dist, [], true) := by
  induction rest with
  | nil => rfl
  | cons it2 rest ih =>
      have hrest := ih fun other hmem => hfew other (List.mem_cons_of_mem _ hmem)
      unfold levelLoop
      dsimp only
      split
      next => exact hrest
      next hother =>
        rw [if_pos (hfew it2 List.mem_cons_self hother), hrest]
        split
        · rfl
        · split
          · rfl
          · rfl

/-- The servers that have as many as the first are passed until one has fewer, for which
the first server gives a bucket. -/
theorem levelLoop_high (dist : BucketDist) (baseSid : Nat) (highs : List Nat)
    {least low : Nat} {rest tail : List Nat}
    (hrest : rest.filter (· ≠ sid) = highs ++ low :: tail) (hleast : 0 < least)
    (hhighs : ∀ other ∈ highs, (dist.buckets other).card = least + 1)
    (hlow : (dist.buckets low).card = least) :
    ∃ after, after <:+ rest ∧ after.filter (· ≠ sid) = tail ∧
      levelLoop sid baseSid rest (least + 1) dist = (do
        let (next, redirects) ← transfer sid baseSid dist
        if (next.buckets sid).card ≥ (next.buckets baseSid).card then some (next, redirects, false)
        else do
          let (last, more, needMore) ←
            levelLoop sid baseSid after ((next.buckets baseSid).card % 2 ^ 32) next
          some (last, redirects ++ more, needMore)) := by
  induction rest generalizing highs with
  | nil => exact absurd hrest (by simp)
  | cons it2 rest ih =>
      by_cases hsame : it2 = sid
      · subst hsame
        rw [List.filter_cons_of_neg (by simp)] at hrest
        obtain ⟨after, hsuffix, hafter, hloop⟩ := ih highs hrest hhighs
        refine ⟨after, hsuffix.trans (List.suffix_cons _ _), hafter, ?_⟩
        rw [levelLoop, if_pos rfl, hloop]
      · rw [List.filter_cons_of_pos (by simpa using hsame)] at hrest
        rw [levelLoop]
        dsimp only
        rw [if_neg hsame]
        cases highs with
        | nil =>
            obtain ⟨rfl, htail⟩ := List.cons.inj hrest
            refine ⟨rest, List.suffix_cons _ _, htail, ?_⟩
            rw [if_neg (by omega), if_pos (by omega), if_neg (by omega), hlow,
              Nat.add_sub_cancel_left, transfers_one]
        | cons high highs =>
            obtain ⟨rfl, hothers⟩ := List.cons.inj hrest
            have hhigh := hhighs it2 List.mem_cons_self
            obtain ⟨after, hsuffix, hafter, hloop⟩ := ih highs hothers fun other hmem =>
              hhighs other (List.mem_cons_of_mem _ hmem)
            refine ⟨after, hsuffix.trans (List.suffix_cons _ _), hafter, ?_⟩
            rw [if_neg (by omega), if_neg (by omega), hloop]

/-! ## The second loop -/

/-- No two numbers of buckets are further apart than one. -/
def Balanced (dist : BucketDist) : Prop :=
  ∀ one ∈ dist.sids, ∀ other ∈ dist.sids,
    (dist.buckets one).card ≤ (dist.buckets other).card + 1

theorem Balanced.between (least : Nat)
    (hsizes : ∀ other ∈ dist.sids,
      least ≤ (dist.buckets other).card ∧ (dist.buckets other).card ≤ least + 1) :
    Balanced dist := by
  intro one hone other hother
  have hone' := hsizes one hone
  have hother' := hsizes other hother
  omega

/-- The second loop before the turn `turn` of a round over `others`. The round began with
`level` buckets for each, and one more for the `high` servers after the first; `sid` had
`lack` fewer than `level`. -/
structure Turn (sid : Nat) (others : List Nat) (high level lack turn : Nat) (dist : BucketDist) :
    Prop where
  sids : dist.sids.filter (· ≠ sid) = others
  sizes : ∀ (i : Nat) (hi : i < others.length),
    (dist.buckets others[i]).card + (if i < turn then 1 else 0) =
      level + if 0 < i ∧ i ≤ high then 1 else 0
  own : (dist.buckets sid).card + lack = level + turn
  lacking : (turn = 0 ∧ 0 < lack) ∨ turn + 2 ≤ lack ∨
    (2 ≤ turn ∧ turn ≤ high + 1 ∧ turn + 1 ≤ lack)
  within : turn ≤ others.length
  room : high = 0 ∨ high + 1 < others.length ∧ 0 < (dist.buckets sid).card

/-- The rounds end where all numbers are close: what `sid` lacks in the last round takes
it past the servers that have more. -/
def EndsEven (high lack count : Nat) : Prop := high = 0 ∨ max 2 high < (lack - 1) % (count + 1) + 1

namespace Turn

variable {others : List Nat} {high level lack turn : Nat}

theorem nodup (hturn : Turn sid others high level lack turn dist) : others.Nodup :=
  hturn.sids ▸ dist.sids_nodup.filter _

/-- The servers are `sid` and the others. -/
theorem forall_sids (hturn : Turn sid others high level lack turn dist) (good : Nat → Prop)
    (hown : good sid) (hothers : ∀ (i : Nat) (hi : i < others.length), good others[i]) :
    ∀ other ∈ dist.sids, good other := by
  intro other hmem
  by_cases hsame : other = sid
  · exact hsame ▸ hown
  · have hother : other ∈ others := hturn.sids ▸ List.mem_filter.mpr ⟨hmem, by simpa using hsame⟩
    obtain ⟨i, hi, rfl⟩ := List.mem_iff_getElem.mp hother
    exact hothers i hi

theorem other_ne (hturn : Turn sid others high level lack turn dist) (i : Nat)
    (hi : i < others.length) : others[i] ≠ sid ∧ others[i] ∈ dist.sids := by
  have hmem : others[i] ∈ dist.sids.filter (· ≠ sid) := hturn.sids ▸ List.getElem_mem hi
  obtain ⟨hmem, hdiff⟩ := List.mem_filter.mp hmem
  exact ⟨by simpa using hdiff, hmem⟩

/-- A server that would be left without a bucket is met only where nothing is to be done. -/
theorem few (hturn : Turn sid others high level lack turn dist) (hless : turn < others.length)
    (hfew : (dist.buckets others[turn]).card ≤ 1) : high = 0 ∧ Balanced dist := by
  have hsize := hturn.sizes turn hless
  rw [if_neg (Nat.lt_irrefl turn)] at hsize
  have hown := hturn.own
  have hlacking := hturn.lacking
  have hroom := hturn.room
  have hhigh : high = 0 := by
    split at hsize <;> omega
  refine ⟨hhigh, Balanced.between 0 (hturn.forall_sids (fun other =>
    0 ≤ (dist.buckets other).card ∧ (dist.buckets other).card ≤ 0 + 1) ?_ ?_)⟩
  · split at hsize <;> omega
  · intro i hi
    have hother := hturn.sizes i hi
    split at hsize <;> split at hother <;> split at hother <;> omega

/-- What a turn leaves to the others. -/
theorem moved_sizes (hturn : Turn sid others high level lack turn dist)
    (hless : turn < others.length) (hmove : Moved sid others[turn] dist next) (i : Nat)
    (hi : i < others.length) :
    (next.buckets others[i]).card + (if i < turn + 1 then 1 else 0) =
      level + if 0 < i ∧ i ≤ high then 1 else 0 := by
  have hsize := hturn.sizes i hi
  rw [← hsize]
  by_cases hsame : i = turn
  · subst hsame
    rw [if_pos (Nat.lt_succ_self i), if_neg (Nat.lt_irrefl i)]
    exact hmove.gave
  · have hdiff : others[i] ≠ others[turn] := fun heq =>
      hsame ((hturn.nodup.getElem_inj_iff).mp heq)
    rw [hmove.others _ hdiff (hturn.other_ne i hi).1]
    congr 1
    split <;> split <;> omega

/-- The loop goes on. -/
theorem succ (hturn : Turn sid others high level lack turn dist) (hless : turn < others.length)
    (hmove : Moved sid others[turn] dist next)
    (hgo : (next.buckets sid).card < (next.buckets others[turn]).card) :
    Turn sid others high level lack (turn + 1) next := by
  have hsize := hturn.moved_sizes hless hmove turn hless
  rw [if_pos (Nat.lt_succ_self turn)] at hsize
  have hown := hturn.own
  have hgot := hmove.got
  have hlacking := hturn.lacking
  have hroom := hturn.room
  refine ⟨hmove.sids ▸ hturn.sids, hturn.moved_sizes hless hmove, by omega, ?_, hless, ?_⟩
  · split at hsize <;> omega
  · omega

/-- The loop stops. -/
theorem stop (hturn : Turn sid others high level lack turn dist) (hless : turn < others.length)
    (hmove : Moved sid others[turn] dist next)
    (hstop : (next.buckets others[turn]).card ≤ (next.buckets sid).card) :
    Balanced next ↔ EndsEven high lack others.length := by
  have hsize := hturn.moved_sizes hless hmove turn hless
  rw [if_pos (Nat.lt_succ_self turn)] at hsize
  have hown := hturn.own
  have hgot := hmove.got
  have hlacking := hturn.lacking
  have hroom := hturn.room
  -- the round is the last one, as `lack` says
  have hlack : (lack - 1) % (others.length + 1) + 1 = lack := by
    rw [Nat.mod_eq_of_lt]
    · omega
    · split at hsize <;> omega
  unfold EndsEven
  rw [hlack]
  by_cases heven : high = 0 ∨ max 2 high < lack
  · refine iff_of_true ?_ heven
    have hnext : dist.sids = next.sids := hmove.sids.symm
    apply Balanced.between (level - 1)
    rw [← hnext]
    refine hturn.forall_sids (fun other =>
      level - 1 ≤ (next.buckets other).card ∧ (next.buckets other).card ≤ level - 1 + 1) ?_ ?_
    · split at hsize <;> omega
    · intro i hi
      have hother := hturn.moved_sizes hless hmove i hi
      split at hsize <;> split at hother <;> split at hother <;> omega
  · refine iff_of_false ?_ heven
    intro hbalanced
    -- the first server is one below, and the last that has more kept it
    have hfirst := hturn.moved_sizes hless hmove 0 (by omega)
    have hhigh := hturn.moved_sizes hless hmove high (by omega)
    rw [if_pos (Nat.succ_pos turn), if_neg (by omega)] at hfirst
    rw [if_neg (by split at hsize <;> omega), if_pos (by omega)] at hhigh
    have hclose := hbalanced others[high] (hmove.sids ▸ (hturn.other_ne high (by omega)).2)
      others[0] (hmove.sids ▸ (hturn.other_ne 0 (by omega)).2)
    omega

/-- A round is over. -/
theorem again (hturn : Turn sid others high level lack others.length dist) (hsome : others ≠ []) :
    Turn sid others high (level - 1) (lack - (others.length + 1)) 0 dist ∧
      (EndsEven high (lack - (others.length + 1)) others.length ↔
        EndsEven high lack others.length) := by
  have hcount := List.length_pos_iff.mpr hsome
  have hown := hturn.own
  have hlacking := hturn.lacking
  have hroom := hturn.room
  refine ⟨⟨hturn.sids, ?_, by omega, Or.inl ⟨rfl, by omega⟩, Nat.zero_le _, hroom⟩, ?_⟩
  · intro i hi
    have hsize := hturn.sizes i hi
    rw [if_pos hi] at hsize
    rw [if_neg (Nat.not_lt_zero i)]
    omega
  · have hround : lack - 1 = lack - (others.length + 1) - 1 + (others.length + 1) := by omega
    unfold EndsEven
    rw [hround, Nat.add_mod_right]

/-- Where the iterator stands after a turn. -/
theorem nextRound (hturn : Turn sid others high level lack turn dist) (hsome : others ≠ [])
    {rest : List Nat} (hrest : rest.filter (· ≠ sid) = others.drop turn) :
    nextRound dist.sids rest ≠ [] ∧
      ∃ level' lack' turn', Turn sid others high level' lack' turn' dist ∧
        (BucketDist.nextRound dist.sids rest).filter (· ≠ sid) = others.drop turn' ∧
        (EndsEven high lack' others.length ↔ EndsEven high lack others.length) := by
  unfold BucketDist.nextRound
  split
  next hend =>
    subst hend
    have hover : turn = others.length :=
      Nat.le_antisymm hturn.within (List.drop_eq_nil_iff.mp hrest.symm)
    subst hover
    obtain ⟨hagain, heven⟩ := hturn.again hsome
    refine ⟨?_, _, _, 0, hagain, hturn.sids, heven⟩
    intro hnone
    exact hsome (by rw [← hturn.sids, hnone, List.filter_nil])
  next hmore => exact ⟨hmore, level, lack, turn, hturn, hrest, Iff.rfl⟩

end Turn

theorem roundLoop_balanced {others : List Nat} {high level lack turn fuel : Nat} {rest : List Nat}
    {more : Redirects} (htaken : Taken before sid dist redirects) (hsid : sid ∈ dist.sids)
    (hturn : Turn sid others high level lack turn dist) (hsome : others ≠ []) (hne : rest ≠ [])
    (hrest : rest.filter (· ≠ sid) = others.drop turn)
    (hloop : roundLoop sid dist.sids fuel rest dist = some (next, more)) :
    Balanced next ↔ EndsEven high lack others.length := by
  induction fuel generalizing dist redirects rest level lack turn more with
  | zero => cases hloop
  | succ fuel ih =>
      cases rest with
      | nil => exact absurd rfl hne
      | cons it2 rest =>
          unfold roundLoop at hloop
          split at hloop
          next hsame =>
            rw [List.filter_cons_of_neg (by simpa using hsame)] at hrest
            obtain ⟨hne', level', lack', turn', hturn', hrest', heven⟩ :=
              hturn.nextRound hsome hrest
            rw [← heven]
            exact ih htaken hsid hturn' hne' hrest' hloop
          next hdiff =>
            rw [List.filter_cons_of_pos (by simpa using hdiff)] at hrest
            have hless : turn < others.length := by
              by_contra hnot
              rw [List.drop_eq_nil_of_le (Nat.le_of_not_lt hnot)] at hrest
              cases hrest
            rw [List.drop_eq_getElem_cons hless] at hrest
            obtain ⟨rfl, hafter⟩ := List.cons.inj hrest
            split at hloop
            next hfew =>
              obtain ⟨rfl, hbalanced⟩ := hturn.few hless hfew
              cases hloop
              exact iff_of_true hbalanced (Or.inl rfl)
            next hmany =>
              obtain ⟨middle, given, hmoved, htook, hmove⟩ :=
                htaken.transfer_moved hsid hdiff (by omega)
              rw [hmoved, Option.bind_eq_bind, Option.bind_some] at hloop
              dsimp only at hloop
              split at hloop
              next hstop =>
                cases hloop
                exact hturn.stop hless hmove hstop
              next hgo =>
                obtain ⟨⟨last, further⟩, hlast, hend⟩ := Option.bind_eq_some_iff.mp hloop
                cases hend
                have hgone := hturn.succ hless hmove (Nat.lt_of_not_le hgo)
                obtain ⟨hne', level', lack', turn', hturn', hrest', heven⟩ :=
                  hgone.nextRound hsome hafter
                rw [← heven]
                rw [← hmove.sids] at hlast
                exact ih htook (hmove.sids ▸ hsid) hturn' hne' hrest' hlast

/-- With a bucket each, or none, the rounds take nothing. -/
theorem roundLoop_few {fuel : Nat} {rest sids : List Nat} {more : Redirects}
    (hsids : ∀ other ∈ sids, other ≠ sid → (dist.buckets other).card ≤ 1)
    (hfew : ∀ other ∈ rest, other ≠ sid → (dist.buckets other).card ≤ 1)
    (hloop : roundLoop sid sids fuel rest dist = some (next, more)) : next = dist := by
  induction fuel generalizing rest with
  | zero => cases hloop
  | succ fuel ih =>
      cases rest with
      | nil =>
          cases hloop
          rfl
      | cons it2 rest =>
          unfold roundLoop at hloop
          split at hloop
          next =>
            refine ih ?_ hloop
            unfold nextRound
            split
            · exact hsids
            · exact fun other hmem => hfew other (List.mem_cons_of_mem _ hmem)
          next hdiff =>
            rw [if_pos (hfew it2 List.mem_cons_self hdiff)] at hloop
            cases hloop
            rfl

end BucketDist

end ServiceFrame
