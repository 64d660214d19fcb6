import Mathlib.Algebra.Group.Nat.Defs
import Mathlib.Data.Finset.Sort
import ServiceFrame.Foundation.OrderedMap
import ServiceFrame.Foundation.Run

/-! # The distribution of users over servers

`BucketDist_Alg` of `server-lib`: users fall into buckets, and buckets belong to
servers. A bucket gets a server when its first user comes; a new server takes
buckets from the others until it has as many as the last one it took from. Two
maps say whose a bucket is, one from either side.

Taking the first bucket of a set without any has no step.
-/

namespace ServiceFrame

open Foundation

structure BucketDist where
  sidBucksMap : OrderedMap Nat (Finset Nat)
  buckSidMap : OrderedMap Nat Nat

namespace BucketDist

def new : BucketDist := ⟨.empty, .empty⟩

def USER_BUCKET_NUM : Nat := 9182

/-- The `RedirectUser` calls: a bucket, and the server that had it. -/
abbrev Redirects := List (Nat × Nat)

/-- The buckets of a server. -/
def buckets (dist : BucketDist) (sid : Nat) : Finset Nat :=
  (dist.sidBucksMap.find sid).getD ∅

/-- The servers, in the order of the map. -/
def sids (dist : BucketDist) : List Nat := dist.sidBucksMap.entries.map Prod.fst

/-- Move the first bucket of `source` to `sid`. -/
def transfer (sid source : Nat) (dist : BucketDist) : Option (BucketDist × Redirects) := do
  let bucket ← ((dist.buckets source).sort).head?
  let moveIn := insert bucket (dist.buckets sid)
  let moveOut := (dist.buckets source).erase bucket
  some (⟨(dist.sidBucksMap.set sid moveIn).set source moveOut, dist.buckSidMap.set bucket sid⟩,
    [(bucket, source)])

/-- `for(; i < delta; ++i)`. -/
def transfers (sid source : Nat) : Nat → BucketDist → Option (BucketDist × Redirects)
  | 0, dist => some (dist, [])
  | delta + 1, dist => do
      let (next, redirects) ← transfer sid source dist
      let (last, more) ← transfers sid source delta next
      some (last, redirects ++ more)

/-- The first loop of `Add_Server`, over the servers from `it2` on: it takes what they
have beyond `base_bucks_num`, or `base_sid` beyond them. The flag is `need_more`. -/
def levelLoop (sid baseSid : Nat) :
    List Nat → Nat → BucketDist → Option (BucketDist × Redirects × Bool)
  | [], _, dist => some (dist, [], true)
  | it2 :: rest, baseBucksNum, dist =>
      let size := (dist.buckets it2).card
      if it2 = sid then levelLoop sid baseSid rest baseBucksNum dist
      else if size > baseBucksNum then
        if size ≤ 1 then levelLoop sid baseSid rest baseBucksNum dist
        else do
          let (next, redirects) ← transfers sid it2 ((size - baseBucksNum) % 2 ^ 32) dist
          if (next.buckets sid).card ≥ (next.buckets it2).card then some (next, redirects, false)
          else do
            let (last, more, needMore) ← levelLoop sid baseSid rest baseBucksNum next
            some (last, redirects ++ more, needMore)
      else if size < baseBucksNum then
        if baseBucksNum ≤ 1 then levelLoop sid baseSid rest baseBucksNum dist
        else do
          let (next, redirects) ← transfers sid baseSid (baseBucksNum - size) dist
          let baseBucksNum := (next.buckets baseSid).card % 2 ^ 32
          if (next.buckets sid).card ≥ (next.buckets baseSid).card then
            some (next, redirects, false)
          else do
            let (last, more, needMore) ← levelLoop sid baseSid rest baseBucksNum next
            some (last, redirects ++ more, needMore)
      else levelLoop sid baseSid rest baseBucksNum dist

/-- `if(++it2 == end()) it2 = begin()`. -/
def nextRound (sids rest : List Nat) : List Nat := if rest = [] then sids else rest

/-- The second loop of `Add_Server`, round and round over the servers; there is no
result when the fuel runs out. -/
def roundLoop (sid : Nat) (sids : List Nat) :
    Nat → List Nat → BucketDist → Option (BucketDist × Redirects)
  | 0, _, _ => none
  | _ + 1, [], dist => some (dist, [])
  | fuel + 1, it2 :: rest, dist =>
      if it2 = sid then roundLoop sid sids fuel (nextRound sids rest) dist
      else if (dist.buckets it2).card ≤ 1 then some (dist, [])
      else do
        let (next, redirects) ← transfer sid it2 dist
        if (next.buckets sid).card ≥ (next.buckets it2).card then some (next, redirects)
        else do
          let (last, more) ← roundLoop sid sids fuel (nextRound sids rest) next
          some (last, redirects ++ more)

/-- A bucket changes hands once, and a round of two passes a server that has one. -/
def roundFuel (dist : BucketDist) : Nat := 2 * dist.buckSidMap.entries.length + 2

/-- `_sid_bucks_map[sid]`. -/
def entry (dist : BucketDist) (sid : Nat) : BucketDist :=
  { dist with sidBucksMap := dist.sidBucksMap.set sid (dist.buckets sid) }

def addServer (dist : BucketDist) (sid : Nat) : Option (BucketDist × Redirects) :=
  if dist.buckSidMap.isEmpty then some (dist.entry sid, [])
  else if (dist.sidBucksMap.find sid).isSome then some (dist, [])
  else do
    let (baseSid, baseBuckets) ← dist.sidBucksMap.first
    let known := dist.entry sid
    let (level, redirects, needMore) ←
      levelLoop sid baseSid (known.sids.dropWhile (· < baseSid)) (baseBuckets.card % 2 ^ 32) known
    if needMore then do
      let (last, more) ← roundLoop sid level.sids dist.roundFuel level.sids level
      some (last, redirects ++ more)
    else some (level, redirects)

def removeServer (dist : BucketDist) (sid : Nat) : BucketDist :=
  match dist.sidBucksMap.find sid with
  | some buckets =>
      { sidBucksMap := dist.sidBucksMap.erase sid
        buckSidMap := buckets.sort.foldl OrderedMap.erase dist.buckSidMap }
  | none => dist

/-- `min_buc` keeps the size of the first server's set, so this is the last server
with fewer buckets than the first one. -/
def sidWithMinBuc (dist : BucketDist) : Option Nat :=
  match dist.sidBucksMap.entries with
  | [] => none
  | (sid, buckets) :: rest =>
      some (((sid, buckets) :: rest).foldl (fun sidWithMinBuc it2 =>
        if it2.2.card < buckets.card % 2 ^ 32 then it2.1 else sidWithMinBuc) sid)

/-- What `Dispatch_User` and `bucket_to_sid` do with a bucket: the server it is on. -/
def locate (dist : BucketDist) (bucket : Nat) : BucketDist × Option Nat :=
  match dist.buckSidMap.find bucket with
  | some sid => (dist, some sid)
  | none =>
      match dist.sidWithMinBuc with
      | some sid =>
          let dist := dist.entry sid
          if bucket ∈ dist.buckets sid then (dist, some sid)
          else
            ({ sidBucksMap := dist.sidBucksMap.set sid (insert bucket (dist.buckets sid))
               buckSidMap := dist.buckSidMap.set bucket sid }, some sid)
      | none => (dist, none)

def hashUid (uid : Nat) : Nat := uid % USER_BUCKET_NUM + 1

/-- The server and the bucket go to `AllocBuck`; none is `RES_EUNKNOWN`. -/
def dispatchUser (dist : BucketDist) (uid : Nat) : BucketDist × Option (Nat × Nat) :=
  let (next, sid) := dist.locate (hashUid uid)
  (next, sid.map fun linkdid => (linkdid, hashUid uid))

def bucketToSid (dist : BucketDist) (bucket : Nat) : BucketDist × Option Nat :=
  dist.locate bucket

def clearAll (_dist : BucketDist) : BucketDist := ⟨.empty, .empty⟩

inductive Event where
  | addServer (sid : Nat)
  | removeServer (sid : Nat)
  | dispatchUser (uid : Nat)
  | bucketToSid (bucket : Nat)
  | clearAll

def step (dist : BucketDist) : Event → Option BucketDist
  | .addServer sid => (dist.addServer sid).map Prod.fst
  | .removeServer sid => some (dist.removeServer sid)
  | .dispatchUser uid => some (dist.dispatchUser uid).1
  | .bucketToSid bucket => some (dist.bucketToSid bucket).1
  | .clearAll => some dist.clearAll

/-! ## Both maps -/

variable {dist next before : BucketDist} {sid source bucket : Nat} {redirects : Redirects}

/-- The maps agree on whose a bucket is. -/
def Agree (dist : BucketDist) : Prop :=
  ∀ bucket sid, dist.buckSidMap.find bucket = some sid ↔ bucket ∈ dist.buckets sid

theorem buckets_set (sidBucksMap : OrderedMap Nat (Finset Nat)) (buckSidMap : OrderedMap Nat Nat)
    (sid other : Nat) (set : Finset Nat) :
    buckets ⟨sidBucksMap.set sid set, buckSidMap⟩ other =
      if other = sid then set else buckets ⟨sidBucksMap, buckSidMap⟩ other := by
  rw [buckets, OrderedMap.find_set, Function.update_apply]
  split
  · rfl
  · rfl

theorem entry_buckets (dist : BucketDist) (sid other : Nat) :
    (dist.entry sid).buckets other = dist.buckets other := by
  rw [entry, buckets_set]
  split
  next hsame => rw [hsame]
  next => rfl

theorem Agree.entry (hagree : Agree dist) (sid : Nat) : Agree (dist.entry sid) := by
  intro bucket other
  rw [entry_buckets]
  exact hagree bucket other

/-- A bucket that no server has goes to one. -/
theorem Agree.give (hagree : Agree dist) (hfree : dist.buckSidMap.find bucket = none) (sid : Nat) :
    Agree { sidBucksMap := dist.sidBucksMap.set sid (insert bucket (dist.buckets sid))
            buckSidMap := dist.buckSidMap.set bucket sid } := by
  intro other owner
  rw [buckets_set, OrderedMap.find_set, Function.update_apply]
  change _ ↔ other ∈ if owner = sid then insert bucket (dist.buckets sid) else dist.buckets owner
  have hnone : ∀ owner, bucket ∉ dist.buckets owner := by
    intro owner hmem
    rw [← hagree, hfree] at hmem
    cases hmem
  by_cases hbucket : other = bucket
  · rw [if_pos hbucket, Option.some.injEq, hbucket]
    split
    next howner => simp [howner]
    next howner => simp [hnone owner, Ne.symm howner]
  · rw [if_neg hbucket, hagree]
    split
    next howner => simp [howner, hbucket]
    next => rfl

/-- A bucket moves from its server to another. -/
theorem Agree.move (hagree : Agree dist) (hsource : source ≠ sid)
    (howner : dist.buckSidMap.find bucket = some source) :
    Agree { sidBucksMap := (dist.sidBucksMap.set sid (insert bucket (dist.buckets sid))).set source
              ((dist.buckets source).erase bucket)
            buckSidMap := dist.buckSidMap.set bucket sid } := by
  intro other owner
  rw [buckets_set, buckets_set, OrderedMap.find_set, Function.update_apply]
  change _ ↔ other ∈ if owner = source then (dist.buckets source).erase bucket
    else if owner = sid then insert bucket (dist.buckets sid) else dist.buckets owner
  by_cases hother : other = bucket
  · rw [if_pos hother, Option.some.injEq, hother]
    split
    next howner => simp [howner, Ne.symm hsource]
    next hdiff =>
      split
      next hsid => simp [hsid]
      next hsid =>
        apply iff_of_false (Ne.symm hsid)
        rw [← hagree, howner, Option.some.injEq]
        exact Ne.symm hdiff
  · rw [if_neg hother, hagree]
    split
    next hsame => simp [hsame, hother]
    next =>
      split
      next hsame => simp [hsame, hother]
      next => rfl

theorem Agree.removeServer (hagree : Agree dist) (sid : Nat) : Agree (dist.removeServer sid) := by
  unfold BucketDist.removeServer
  split
  next set hfind =>
    intro bucket owner
    have hset : dist.buckets sid = set := by rw [buckets, hfind, Option.getD_some]
    have hmem : bucket ∈ set.sort (· ≤ ·) ↔ bucket ∈ dist.buckets sid := by
      rw [Finset.mem_sort, hset]
    rw [OrderedMap.foldl_find (fun map key => map.find_erase key), buckets,
      OrderedMap.find_erase, Function.update_apply]
    by_cases howner : owner = sid
    · rw [if_pos howner, howner]
      split
      next => simp
      next hnot =>
        rw [hmem] at hnot
        rw [hagree]
        simpa using hnot
    · rw [if_neg howner]
      split
      next hbucket =>
        apply iff_of_false nofun
        intro hother
        rw [hmem, ← hagree] at hbucket
        rw [← buckets, ← hagree, hbucket, Option.some.injEq] at hother
        exact absurd hother.symm howner
      next => exact hagree bucket owner
  next => exact hagree

/-! ## Taking buckets -/

/-- What `sid` took since `before`, and what was reported of it. -/
structure Taken (before : BucketDist) (sid : Nat) (dist : BucketDist) (redirects : Redirects) :
    Prop where
  agree : Agree dist
  known : ∀ other, (before.sidBucksMap.find other).isSome → (dist.sidBucksMap.find other).isSome
  once : (redirects.map Prod.fst).Nodup
  owner : ∀ bucket, dist.buckSidMap.find bucket =
    if bucket ∈ redirects.map Prod.fst then some sid else before.buckSidMap.find bucket
  old : ∀ bucket source, (bucket, source) ∈ redirects →
    before.buckSidMap.find bucket = some source ∧ source ≠ sid

namespace Taken

theorem entry (hagree : Agree dist) (sid other : Nat) : Taken dist sid (dist.entry other) [] where
  agree := hagree.entry other
  known := by
    intro third hknown
    rw [BucketDist.entry, OrderedMap.find_set, Function.update_apply]
    split
    · rfl
    · exact hknown
  once := List.nodup_nil
  owner _ := rfl
  old := by simp

theorem none (hagree : Agree dist) (sid : Nat) : Taken dist sid dist [] where
  agree := hagree
  known _ := id
  once := List.nodup_nil
  owner _ := rfl
  old := by simp

/-- A bucket of another server is taken, and reported with that server. -/
theorem move (htaken : Taken before sid dist redirects) (hsource : source ≠ sid)
    (howner : dist.buckSidMap.find bucket = some source) :
    Taken before sid
      { sidBucksMap := (dist.sidBucksMap.set sid (insert bucket (dist.buckets sid))).set source
          ((dist.buckets source).erase bucket)
        buckSidMap := dist.buckSidMap.set bucket sid } (redirects ++ [(bucket, source)]) := by
  -- what was taken before is `sid`'s by now, so this bucket is taken for the first time
  have hnew : bucket ∉ redirects.map Prod.fst := by
    intro htook
    rw [htaken.owner, if_pos htook, Option.some.injEq] at howner
    exact hsource howner.symm
  constructor
  · exact htaken.agree.move hsource howner
  · intro other hknown
    rw [OrderedMap.find_set, OrderedMap.find_set, Function.update_apply, Function.update_apply]
    split
    · rfl
    · split
      · rfl
      · exact htaken.known other hknown
  · rw [List.map_append, List.nodup_append]
    refine ⟨htaken.once, List.nodup_singleton _, ?_⟩
    rintro first hfirst last hlast rfl
    rw [List.mem_singleton.mp hlast] at hfirst
    exact hnew hfirst
  · intro other
    have hmap : (redirects ++ [(bucket, source)]).map Prod.fst =
        redirects.map Prod.fst ++ [bucket] := List.map_append
    rw [OrderedMap.find_set, Function.update_apply, htaken.owner, hmap]
    by_cases hother : other = bucket
    · rw [if_pos hother, if_pos (by simp [hother])]
    · simp only [List.mem_append, List.mem_singleton, hother, or_false, if_false]
  · intro other source' hreported
    rcases List.mem_append.mp hreported with hold | hlast
    · exact htaken.old other source' hold
    · cases List.mem_singleton.mp hlast
      rw [htaken.owner, if_neg hnew] at howner
      exact ⟨howner, hsource⟩

/-- A server that has a bucket can give one away. -/
theorem transfer (htaken : Taken before sid dist redirects) (hsource : source ≠ sid)
    (hsome : (dist.buckets source).card ≠ 0) :
    ∃ bucket ∈ dist.buckets source, ∃ next,
      BucketDist.transfer sid source dist = some (next, [(bucket, source)]) ∧
      Taken before sid next (redirects ++ [(bucket, source)]) ∧
      ∀ other, next.buckets other =
        if other = source then (dist.buckets source).erase bucket
        else if other = sid then insert bucket (dist.buckets sid) else dist.buckets other := by
  cases hhead : (dist.buckets source).sort.head? with
  | none =>
      rw [List.head?_eq_none_iff] at hhead
      exact absurd (by rw [← Finset.length_sort (· ≤ ·), hhead, List.length_nil]) hsome
  | some bucket =>
      have hmem : bucket ∈ dist.buckets source :=
        (Finset.mem_sort _).mp (List.mem_of_mem_head? (Option.mem_def.mpr hhead))
      have howner : dist.buckSidMap.find bucket = some source :=
        (htaken.agree bucket source).mpr hmem
      refine ⟨bucket, hmem, _, by rw [BucketDist.transfer, hhead]; rfl,
        htaken.move hsource howner, ?_⟩
      intro other
      rw [buckets_set, buckets_set]
      rfl

/-- A server gives away as many buckets as it has. -/
theorem transfers (htaken : Taken before sid dist redirects) (hsource : source ≠ sid) {delta : Nat}
    (henough : delta ≤ (dist.buckets source).card) :
    ∃ next more, BucketDist.transfers sid source delta dist = some (next, more) ∧
      Taken before sid next (redirects ++ more) ∧
      (next.buckets source).card = (dist.buckets source).card - delta ∧
      ∀ other, other ≠ source → other ≠ sid → next.buckets other = dist.buckets other := by
  induction delta generalizing dist redirects with
  | zero => exact ⟨dist, [], rfl, by rwa [List.append_nil], rfl, fun _ _ _ => rfl⟩
  | succ delta ih =>
      obtain ⟨bucket, hmem, middle, hfirst, hmiddle, hbuckets⟩ := htaken.transfer hsource (by omega)
      have hcard : (middle.buckets source).card = (dist.buckets source).card - 1 := by
        rw [hbuckets, if_pos rfl, Finset.card_erase_of_mem hmem]
      obtain ⟨next, more, hrest, hnext, hleft, hothers⟩ := ih hmiddle (by omega)
      refine ⟨next, (bucket, source) :: more, ?_, ?_, by omega, ?_⟩
      · rw [BucketDist.transfers, hfirst, Option.bind_eq_bind, Option.bind_some]
        dsimp only
        rw [hrest]
        rfl
      · rwa [List.append_assoc] at hnext
      · intro other hdiff hdiff'
        rw [hothers other hdiff hdiff', hbuckets, if_neg hdiff, if_neg hdiff']

/-- The first loop takes from servers that have enough. -/
theorem levelLoop (htaken : Taken before sid dist redirects) {baseSid baseBucksNum : Nat}
    (hbase : baseSid ≠ sid) (henough : baseBucksNum ≤ (dist.buckets baseSid).card)
    (rest : List Nat) :
    ∃ next more needMore,
      BucketDist.levelLoop sid baseSid rest baseBucksNum dist = some (next, more, needMore) ∧
      Taken before sid next (redirects ++ more) := by
  induction rest generalizing dist redirects baseBucksNum with
  | nil => exact ⟨dist, [], true, rfl, by rwa [List.append_nil]⟩
  | cons it2 rest ih =>
      unfold BucketDist.levelLoop
      dsimp only
      split
      next => exact ih htaken henough
      next hother =>
        split
        next hmore =>
          split
          next => exact ih htaken henough
          next =>
            -- `it2` has more than the level, and gives the surplus
            have hdelta := Nat.mod_le ((dist.buckets it2).card - baseBucksNum) (2 ^ 32)
            obtain ⟨next, more, hmoved, hnext, hcard, hothers⟩ :=
              htaken.transfers hother (hdelta.trans (Nat.sub_le _ _))
            rw [hmoved, Option.bind_eq_bind, Option.bind_some]
            dsimp only
            split
            · exact ⟨next, more, false, rfl, hnext⟩
            · -- the server of the level has as many as before, unless it is `it2`
              have hstill : baseBucksNum ≤ (next.buckets baseSid).card := by
                by_cases hsame : baseSid = it2
                · subst hsame
                  omega
                · rwa [hothers baseSid hsame hbase]
              obtain ⟨last, further, needMore, hloop, hlast⟩ := ih hnext hstill
              refine ⟨last, more ++ further, needMore, ?_, ?_⟩
              · rw [hloop]
                rfl
              · rwa [← List.append_assoc]
        next =>
          split
          next hless =>
            split
            next => exact ih htaken henough
            next =>
              -- `it2` has less: the server of the level gives what it has beyond, and
              -- what it keeps is the level from here on
              obtain ⟨next, more, hmoved, hnext, -, -⟩ :=
                htaken.transfers hbase ((Nat.sub_le _ (dist.buckets it2).card).trans henough)
              rw [hmoved, Option.bind_eq_bind, Option.bind_some]
              dsimp only
              split
              · exact ⟨next, more, false, rfl, hnext⟩
              · obtain ⟨last, further, needMore, hloop, hlast⟩ := ih hnext (Nat.mod_le _ _)
                refine ⟨last, more ++ further, needMore, ?_, ?_⟩
                · rw [hloop]
                  rfl
                · rwa [← List.append_assoc]
          next => exact ih htaken henough

/-- There are no more buckets to have than there were. -/
theorem card_le (htaken : Taken before sid dist redirects) :
    (dist.buckets sid).card ≤ before.buckSidMap.entries.length := by
  have hsubset : dist.buckets sid ⊆ (before.buckSidMap.entries.map Prod.fst).toFinset := by
    intro bucket hbucket
    have hsome : ∃ source, before.buckSidMap.find bucket = some source := by
      have howner := (htaken.agree bucket sid).mpr hbucket
      rw [htaken.owner] at howner
      split at howner
      next htook =>
        obtain ⟨⟨_, source⟩, hreported, rfl⟩ := List.mem_map.mp htook
        exact ⟨source, (htaken.old _ source hreported).1⟩
      next => exact ⟨sid, howner⟩
    obtain ⟨source, hsource⟩ := hsome
    rw [List.mem_toFinset]
    exact List.mem_map.mpr ⟨(bucket, source), OrderedMap.mem_entries.mpr hsource, rfl⟩
  calc (dist.buckets sid).card
      ≤ (before.buckSidMap.entries.map Prod.fst).toFinset.card := Finset.card_le_card hsubset
    _ ≤ (before.buckSidMap.entries.map Prod.fst).length := List.toFinset_card_le _
    _ = before.buckSidMap.entries.length := List.length_map _

end Taken

/-! ## The rounds -/

/-- The iterator stands in the map, and only every other turn finds `sid`. -/
theorem nextRound_suffix {sids rest : List Nat} {it2 : Nat} (hsuffix : it2 :: rest <:+ sids) :
    nextRound sids rest <:+ sids ∧ nextRound sids rest ≠ [] := by
  unfold nextRound
  split
  next => exact ⟨List.suffix_rfl, List.ne_nil_of_mem (hsuffix.mem List.mem_cons_self)⟩
  next hrest => exact ⟨(List.suffix_cons it2 rest).trans hsuffix, hrest⟩

theorem nextRound_other {sids rest : List Nat} (hsuffix : sid :: rest <:+ sids)
    (hnodup : sids.Nodup) (hother : ∃ other ∈ sids, other ≠ sid) :
    (nextRound sids rest).head? ≠ some sid := by
  obtain ⟨front, rfl⟩ := hsuffix
  obtain ⟨-, hback, hapart⟩ := List.nodup_append.mp hnodup
  unfold nextRound
  split
  next hrest =>
    subst hrest
    cases front with
    | nil =>
        obtain ⟨other, hmem, hdiff⟩ := hother
        exact absurd (List.mem_singleton.mp hmem) hdiff
    | cons first front =>
        intro hfirst
        cases hfirst
        exact hapart sid List.mem_cons_self sid List.mem_cons_self rfl
  next =>
    intro hhead
    exact (List.nodup_cons.mp hback).1 (List.mem_of_mem_head? hhead)

/-- The rounds end: a turn takes a bucket, or is the only one before such a turn. -/
theorem Taken.roundLoop (htaken : Taken before sid dist redirects) {sids : List Nat}
    (hnodup : sids.Nodup) (hother : ∃ other ∈ sids, other ≠ sid) {fuel : Nat} {rest : List Nat}
    (hsuffix : rest <:+ sids) (hrest : rest ≠ [])
    (hfuel : 2 * (before.buckSidMap.entries.length - (dist.buckets sid).card) +
      (if rest.head? = some sid then 2 else 1) ≤ fuel) :
    ∃ next more, BucketDist.roundLoop sid sids fuel rest dist = some (next, more) ∧
      Taken before sid next (redirects ++ more) := by
  induction fuel generalizing dist redirects rest with
  | zero => split at hfuel <;> omega
  | succ fuel ih =>
      cases rest with
      | nil => exact absurd rfl hrest
      | cons it2 rest =>
          obtain ⟨hsuffix', hrest'⟩ := nextRound_suffix hsuffix
          simp only [List.head?_cons, Option.some.injEq] at hfuel
          unfold BucketDist.roundLoop
          split
          next hsame =>
            -- a turn at `sid` does nothing, and the next one is not at `sid`
            subst hsame
            apply ih htaken hsuffix' hrest'
            rw [if_neg (nextRound_other hsuffix hnodup hother)]
            rw [if_pos rfl] at hfuel
            omega
          next hdiff =>
            rw [if_neg hdiff] at hfuel
            split
            next => exact ⟨dist, [], rfl, by rwa [List.append_nil]⟩
            next hmany =>
              obtain ⟨bucket, hmem, next, hmoved, hnext, hbuckets⟩ :=
                htaken.transfer hdiff (by omega)
              rw [hmoved, Option.bind_eq_bind, Option.bind_some]
              dsimp only
              split
              · exact ⟨next, _, rfl, hnext⟩
              · -- one bucket more, of which there are no more than before: this pays for two turns
                have hcard : (next.buckets sid).card = (dist.buckets sid).card + 1 := by
                  rw [hbuckets, if_neg (Ne.symm hdiff), if_pos rfl, Finset.card_insert_of_notMem]
                  intro htook
                  rw [← htaken.agree] at htook hmem
                  rw [htook, Option.some.injEq] at hmem
                  exact hdiff hmem.symm
                have hle := hnext.card_le
                obtain ⟨last, more, hloop, hlast⟩ := ih hnext hsuffix' hrest' (by
                  split <;> omega)
                refine ⟨last, (bucket, it2) :: more, ?_, ?_⟩
                · rw [hloop]
                  rfl
                · rwa [List.append_assoc] at hlast

theorem sids_nodup (dist : BucketDist) : dist.sids.Nodup :=
  List.pairwise_map.mpr (dist.sidBucksMap.sorted.imp fun hless => Nat.ne_of_lt hless)

theorem mem_sids (dist : BucketDist) (sid : Nat) :
    sid ∈ dist.sids ↔ (dist.sidBucksMap.find sid).isSome := by
  rw [sids, List.mem_map, Option.isSome_iff_exists]
  constructor
  · rintro ⟨⟨_, set⟩, hmem, rfl⟩
    exact ⟨set, OrderedMap.mem_entries.mp hmem⟩
  · rintro ⟨set, hfind⟩
    exact ⟨(sid, set), OrderedMap.mem_entries.mpr hfind, rfl⟩

theorem exists_owner (hbuckets : ¬ dist.buckSidMap.isEmpty) :
    ∃ bucket source, dist.buckSidMap.find bucket = some source := by
  by_contra hnone
  refine hbuckets (OrderedMap.isEmpty_iff.mpr fun bucket => ?_)
  by_contra hsome
  obtain ⟨source, hfind⟩ := Option.ne_none_iff_exists'.mp hsome
  exact hnone ⟨bucket, source, hfind⟩

/-- The server of a bucket is in the map of the servers. -/
theorem Agree.known (hagree : Agree dist) (howner : dist.buckSidMap.find bucket = some source) :
    (dist.sidBucksMap.find source).isSome := by
  have hmem := (hagree bucket source).mp howner
  rw [buckets] at hmem
  cases hfind : dist.sidBucksMap.find source with
  | none =>
      rw [hfind] at hmem
      simp at hmem
  | some set => rfl

/-- `Add_Server` terminates; only a new server takes buckets. -/
theorem addServer_taken (hagree : Agree dist) (sid : Nat) :
    ∃ next redirects, dist.addServer sid = some (next, redirects) ∧
      Taken dist sid next redirects ∧
      ((dist.sidBucksMap.find sid).isSome → redirects = []) := by
  unfold addServer
  split
  next => exact ⟨_, [], rfl, Taken.entry hagree sid sid, fun _ => rfl⟩
  next hbuckets =>
    split
    next => exact ⟨dist, [], rfl, Taken.none hagree sid, fun _ => rfl⟩
    next hnew =>
      obtain ⟨bucket, source, howner⟩ := exists_owner hbuckets
      have hsource := hagree.known howner
      cases hfirst : dist.sidBucksMap.first with
      | none =>
          rw [OrderedMap.isEmpty_iff.mp (OrderedMap.first_eq_none.mp hfirst) source] at hsource
          cases hsource
      | some base =>
          obtain ⟨baseSid, baseBuckets⟩ := base
          have hfind := (OrderedMap.first_eq_some.mp hfirst).1
          have hbase : baseSid ≠ sid := by
            rintro rfl
            exact hnew (hfind ▸ rfl)
          have henough : baseBuckets.card % 2 ^ 32 ≤ ((dist.entry sid).buckets baseSid).card := by
            rw [entry_buckets, buckets, hfind, Option.getD_some]
            exact Nat.mod_le _ _
          obtain ⟨level, redirects, needMore, hlevel, htaken⟩ :=
            (Taken.entry hagree sid sid).levelLoop hbase henough
              ((dist.entry sid).sids.dropWhile (· < baseSid))
          rw [Option.bind_eq_bind, Option.bind_some]
          dsimp only
          rw [hlevel, Option.bind_eq_bind, Option.bind_some]
          dsimp only
          split
          · -- a bucket's server is not the new one, so the rounds do not stay at `sid`
            have hother : ∃ other ∈ level.sids, other ≠ sid := by
              refine ⟨source, (level.mem_sids source).mpr (htaken.known source hsource), ?_⟩
              rintro rfl
              exact hnew hsource
            have hsome : level.sids ≠ [] := List.ne_nil_of_mem hother.choose_spec.1
            obtain ⟨last, more, hloop, hlast⟩ := htaken.roundLoop level.sids_nodup hother
              List.suffix_rfl hsome (by
                show _ ≤ dist.roundFuel
                unfold roundFuel
                split <;> omega)
            refine ⟨last, redirects ++ more, ?_, hlast, fun hknown => absurd hknown hnew⟩
            rw [hloop]
            rfl
          · exact ⟨level, redirects, rfl, htaken, fun hknown => absurd hknown hnew⟩

theorem addServer_redirects (hagree : Agree dist) (sid : Nat) :
    ∃ next redirects, dist.addServer sid = some (next, redirects) ∧
      (redirects.map Prod.fst).Nodup ∧
      ∀ bucket old, (bucket, old) ∈ redirects ↔
        dist.buckSidMap.find bucket = some old ∧ next.buckSidMap.find bucket ≠ some old := by
  obtain ⟨next, redirects, hadd, htaken, -⟩ := addServer_taken hagree sid
  refine ⟨next, redirects, hadd, htaken.once, ?_⟩
  intro bucket old
  rw [htaken.owner]
  constructor
  · intro hreported
    obtain ⟨hold, hdiff⟩ := htaken.old bucket old hreported
    rw [if_pos (List.mem_map.mpr ⟨(bucket, old), hreported, rfl⟩)]
    exact ⟨hold, fun hsame => hdiff (Option.some.inj hsame).symm⟩
  · rintro ⟨hold, hmoved⟩
    split at hmoved
    next htook =>
      obtain ⟨⟨_, source⟩, hreported, rfl⟩ := List.mem_map.mp htook
      rw [(htaken.old _ source hreported).1, Option.some.injEq] at hold
      exact hold ▸ hreported
    next => exact absurd hold hmoved

/-! ## Every run -/

theorem locate_agree (hagree : Agree dist) (bucket : Nat) : Agree (dist.locate bucket).1 := by
  unfold locate
  split
  next => exact hagree
  next hfree =>
    split
    next sid _ =>
      dsimp only
      split
      · exact hagree.entry sid
      · exact (hagree.entry sid).give hfree sid
    next => exact hagree

/-- A bucket that has a server keeps it. -/
theorem locate_keeps (dist : BucketDist) (bucket : Nat) {other sid : Nat}
    (howner : dist.buckSidMap.find other = some sid) :
    (dist.locate bucket).1.buckSidMap.find other = some sid := by
  unfold locate
  split
  next => exact howner
  next hfree =>
    split
    next =>
      dsimp only
      split
      · exact howner
      · have hother : other ≠ bucket := by
          rintro rfl
          rw [hfree] at howner
          cases howner
        exact (congrFun (OrderedMap.find_set _ _ _) other).trans
          ((Function.update_of_ne hother _ _).trans howner)
    next => exact howner

theorem removeServer_keeps (hagree : Agree dist)
    (howner : dist.buckSidMap.find bucket = some source)
    (hother : source ≠ sid) : (dist.removeServer sid).buckSidMap.find bucket = some source := by
  unfold removeServer
  split
  next set hfind =>
    change (OrderedMap.find (set.sort.foldl OrderedMap.erase dist.buckSidMap) bucket) = some source
    rw [OrderedMap.foldl_find (fun map key => map.find_erase key), if_neg, howner]
    intro hmem
    rw [Finset.mem_sort] at hmem
    have hsid : dist.buckSidMap.find bucket = some sid := by
      rw [hagree, buckets, hfind]
      exact hmem
    rw [howner, Option.some.injEq] at hsid
    exact hother hsid
  next => exact howner

/-- A call takes a bucket from its server only when it removes the server, clears
everything, or adds the server that has the bucket then. -/
def Owned (dist : BucketDist) (event : Event) (next : BucketDist) : Prop :=
  ∀ bucket sid, dist.buckSidMap.find bucket = some sid →
    next.buckSidMap.find bucket = some sid ∨ event = .removeServer sid ∨ event = .clearAll ∨
      ∃ added, event = .addServer added ∧ dist.sidBucksMap.find added = none ∧
        next.buckSidMap.find bucket = some added

theorem step_owned (hagree : Agree dist) (event : Event) :
    ∃ next, dist.step event = some next ∧ Agree next ∧ Owned dist event next := by
  cases event with
  | addServer sid =>
      obtain ⟨next, redirects, hadd, htaken, hknown⟩ := addServer_taken hagree sid
      refine ⟨next, by rw [step, hadd]; rfl, htaken.agree, ?_⟩
      intro bucket source howner
      rw [htaken.owner]
      split
      next htook =>
        refine Or.inr (Or.inr (Or.inr ⟨sid, rfl, ?_, rfl⟩))
        rw [← Option.not_isSome_iff_eq_none]
        intro hsome
        rw [hknown hsome] at htook
        cases htook
      next => exact Or.inl howner
  | removeServer sid =>
      refine ⟨_, rfl, hagree.removeServer sid, ?_⟩
      intro bucket source howner
      by_cases hsame : source = sid
      · exact Or.inr (Or.inl (hsame ▸ rfl))
      · exact Or.inl (removeServer_keeps hagree howner hsame)
  | dispatchUser uid =>
      exact ⟨_, rfl, locate_agree hagree (hashUid uid), fun _ _ howner =>
        Or.inl (dist.locate_keeps (hashUid uid) howner)⟩
  | bucketToSid bucket =>
      exact ⟨_, rfl, locate_agree hagree bucket, fun _ _ howner =>
        Or.inl (dist.locate_keeps bucket howner)⟩
  | clearAll =>
      refine ⟨_, rfl, fun bucket sid => ?_, fun _ _ _ => Or.inr (Or.inr (Or.inl rfl))⟩
      simp [clearAll, buckets]

/-- What holds of a state, and of every call from it. -/
structure Partition (dist : BucketDist) : Prop where
  agree : ∀ bucket sid, dist.buckSidMap.find bucket = some sid ↔ bucket ∈ dist.buckets sid
  owned : ∀ event, ∃ next, dist.step event = some next ∧ Owned dist event next
  redirects : ∀ sid, ∃ next redirects, dist.addServer sid = some (next, redirects) ∧
    (redirects.map Prod.fst).Nodup ∧
    ∀ bucket old, (bucket, old) ∈ redirects ↔
      dist.buckSidMap.find bucket = some old ∧ next.buckSidMap.find bucket ≠ some old

/-- In every run each assigned bucket is in the set of one server, which keeps it until
it is removed, everything is cleared, or a new server takes it; and `Add_Server`
terminates and redirects the users of the buckets it moves, each once. -/
theorem partition (events : List Event) : Throughout step Partition new events := by
  have hkeeps : ∀ dist event next, Agree dist → True → step dist event = some next →
      Agree next := by
    intro dist event next hagree _ hstep
    obtain ⟨after, hafter, hagree', -⟩ := step_owned hagree event
    rw [hstep, Option.some.injEq] at hafter
    exact hafter ▸ hagree'
  have hpartition : ∀ dist, Agree dist → Partition dist := by
    intro dist hagree
    refine ⟨hagree, ?_, addServer_redirects hagree⟩
    intro event
    obtain ⟨next, hnext, -, howned⟩ := step_owned hagree event
    exact ⟨next, hnext, howned⟩
  have hnew : Agree new := by
    intro bucket sid
    simp [new, buckets]
  exact throughout_of_along hkeeps hpartition hnew (along_trivial new events)

end BucketDist

end ServiceFrame
