import ServiceFrame.ServerLib.BucketDist

/-! # The server for a bucket

A bucket that comes without a server is meant for one that has the fewest. The search
compares each server with the first one.
-/

namespace ServiceFrame

open Foundation

namespace BucketDist

variable {dist next before : BucketDist} {sid source bucket : Nat} {redirects : Redirects}

/-- What the calls keep: both maps agree, and a bucket is of 32 bits. -/
structure Consistent (dist : BucketDist) : Prop where
  agree : Agree dist
  fits : ∀ sid, ∀ bucket ∈ dist.buckets sid, bucket < 2 ^ 32

/-- The bucket that a call is about, if any, is of 32 bits. -/
def Fits (_dist : BucketDist) : Event → Prop
  | .bucketToSid bucket => bucket < 2 ^ 32
  | _ => True

/-- An assigned bucket was assigned before, or the call is about it. -/
theorem locate_owner {asked : Nat}
    (howner : (dist.locate asked).1.buckSidMap.find bucket = some sid) :
    (∃ old, dist.buckSidMap.find bucket = some old) ∨ bucket = asked := by
  unfold locate at howner
  split at howner
  next => exact Or.inl ⟨sid, howner⟩
  next =>
    split at howner
    next =>
      dsimp only at howner
      split at howner
      next => exact Or.inl ⟨sid, howner⟩
      next =>
        rw [OrderedMap.find_set, Function.update_apply] at howner
        split at howner
        next hsame => exact Or.inr hsame
        next => exact Or.inl ⟨sid, howner⟩
    next => exact Or.inl ⟨sid, howner⟩

theorem removeServer_owner (hagree : Agree dist)
    (howner : (dist.removeServer source).buckSidMap.find bucket = some sid) :
    dist.buckSidMap.find bucket = some sid := by
  have hmem := (hagree.removeServer source bucket sid).mp howner
  unfold removeServer at hmem
  split at hmem
  next =>
    rw [buckets, OrderedMap.find_erase, Function.update_apply] at hmem
    split at hmem
    · cases hmem
    · exact (hagree bucket sid).mpr hmem
  next => exact (hagree bucket sid).mpr hmem

theorem Taken.old_owner (htaken : Taken before sid dist redirects)
    (howner : dist.buckSidMap.find bucket = some source) :
    ∃ old, before.buckSidMap.find bucket = some old := by
  rw [htaken.owner] at howner
  split at howner
  next htook =>
    obtain ⟨⟨_, old⟩, hreported, rfl⟩ := List.mem_map.mp htook
    exact ⟨old, (htaken.old _ old hreported).1⟩
  next => exact ⟨source, howner⟩

theorem hashUid_lt (uid : Nat) : hashUid uid < 2 ^ 32 := by
  have hless := Nat.mod_lt uid (show 0 < USER_BUCKET_NUM by decide)
  simp only [hashUid, USER_BUCKET_NUM] at hless ⊢
  omega

theorem Consistent.step (hdist : Consistent dist) {event : Event} (hevent : Fits dist event)
    (hstep : dist.step event = some next) : Consistent next := by
  obtain ⟨after, hafter, hagree, -⟩ := step_owned hdist.agree event
  obtain rfl : next = after := by rwa [hstep, Option.some.injEq] at hafter
  refine ⟨hagree, ?_⟩
  intro sid bucket hmem
  have howner := (hagree bucket sid).mpr hmem
  have hold : ∀ old, dist.buckSidMap.find bucket = some old → bucket < 2 ^ 32 := fun old hfind =>
    hdist.fits old bucket ((hdist.agree bucket old).mp hfind)
  cases event with
  | addServer added =>
      obtain ⟨after, redirects, hadd, htaken, -⟩ := addServer_taken hdist.agree added
      rw [BucketDist.step, hadd, Option.map_some, Option.some.injEq] at hstep
      subst hstep
      obtain ⟨old, hfind⟩ := htaken.old_owner howner
      exact hold old hfind
  | removeServer gone =>
      cases hstep
      exact hold sid (removeServer_owner hdist.agree howner)
  | dispatchUser uid =>
      cases hstep
      rcases locate_owner howner with ⟨old, hfind⟩ | rfl
      · exact hold old hfind
      · exact hashUid_lt uid
  | bucketToSid asked =>
      cases hstep
      rcases locate_owner howner with ⟨old, hfind⟩ | rfl
      · exact hold old hfind
      · exact hevent
  | clearAll =>
      cases hstep
      cases howner

/-- Every state is consistent. -/
theorem consistent_throughout {events : List Event} (hevents : Along step Fits new events) :
    Throughout step Consistent new events := by
  refine throughout_of_along (fun _ _ _ hdist => hdist.step) (fun _ hdist => hdist) ?_ hevents
  constructor
  · intro bucket sid
    simp [new, buckets]
  · intro sid bucket hmem
    simp [new, buckets] at hmem

/-- Consistency is seen from the entries of the maps. -/
theorem consistent_of_entries (dist : BucketDist)
    (howned : ∀ entry ∈ dist.buckSidMap.entries, entry.1 ∈ dist.buckets entry.2)
    (hhas : ∀ entry ∈ dist.sidBucksMap.entries, ∀ bucket ∈ entry.2,
      dist.buckSidMap.find bucket = some entry.1 ∧ bucket < 2 ^ 32) : Consistent dist := by
  have hbuckets : ∀ bucket sid, bucket ∈ dist.buckets sid →
      dist.buckSidMap.find bucket = some sid ∧ bucket < 2 ^ 32 := by
    intro bucket sid hmem
    unfold buckets at hmem
    cases hfind : dist.sidBucksMap.find sid with
    | none =>
        rw [hfind] at hmem
        cases hmem
    | some set =>
        rw [hfind] at hmem
        exact hhas (sid, set) (OrderedMap.mem_entries.mpr hfind) bucket hmem
  refine ⟨fun bucket sid => ⟨fun hfind => ?_, fun hmem => (hbuckets bucket sid hmem).1⟩,
    fun sid bucket hmem => (hbuckets bucket sid hmem).2⟩
  exact howned (bucket, sid) (OrderedMap.mem_entries.mpr hfind)

/-! ## The server for a bucket -/

/-- The numbers of buckets, in the order of the servers. -/
def sizes (dist : BucketDist) : List Nat :=
  dist.sidBucksMap.entries.map fun entry => entry.2.card

/-- No server has fewer buckets than this one. -/
def LeastLoaded (dist : BucketDist) (server : Option Nat) : Prop :=
  ∃ sid ∈ server, sid ∈ dist.sids ∧ ∀ other ∈ dist.sids,
    (dist.buckets sid).card ≤ (dist.buckets other).card

/-- Of those below the first number, the last is the least of all. -/
def LastIsLeast (sizes : List Nat) : Prop :=
  ∀ first ∈ sizes.head?, ∀ last ∈ (sizes.filter (· < first)).getLast?,
    ∀ size ∈ sizes, last ≤ size

instance (sizes : List Nat) : Decidable (LastIsLeast sizes) := by
  unfold LastIsLeast; infer_instance

theorem foldl_last {Elem Value : Type} (chosen : Elem → Bool) (value : Elem → Value)
    (start : Value) (elems : List Elem) :
    elems.foldl (fun last elem => if chosen elem then value elem else last) start =
      ((elems.filter chosen).getLast?.map value).getD start := by
  induction elems using List.reverseRecOn with
  | nil => rfl
  | append_singleton front elem ih =>
      rw [List.foldl_append, ih, List.foldl_cons, List.foldl_nil, List.filter_append]
      split
      next hchosen => simp [hchosen]
      next hother => simp [hother]

theorem buckets_of_mem {entry : Nat × Finset Nat} (hmem : entry ∈ dist.sidBucksMap.entries) :
    dist.buckets entry.1 = entry.2 := by
  rw [buckets, OrderedMap.mem_entries.mp hmem, Option.getD_some]

theorem leastLoaded_iff {entry : Nat × Finset Nat} (hmem : entry ∈ dist.sidBucksMap.entries) :
    LeastLoaded dist (some entry.1) ↔ ∀ size ∈ dist.sizes, entry.2.card ≤ size := by
  constructor
  · rintro ⟨sid, hsid, -, hleast⟩ size hsize
    cases hsid
    obtain ⟨other, hother, rfl⟩ := List.mem_map.mp hsize
    have hle := hleast other.1 (List.mem_map_of_mem hother)
    rwa [buckets_of_mem hmem, buckets_of_mem hother] at hle
  · intro hleast
    refine ⟨entry.1, rfl, List.mem_map_of_mem hmem, ?_⟩
    intro sid hsid
    obtain ⟨other, hother, rfl⟩ := List.mem_map.mp hsid
    rw [buckets_of_mem hmem, buckets_of_mem hother]
    exact hleast other.2.card (List.mem_map_of_mem hother)

/-- There are fewer buckets than words when one of them has no server. -/
theorem Consistent.card_lt (hdist : Consistent dist) (hfree : dist.buckSidMap.find bucket = none)
    (hbucket : bucket < 2 ^ 32) (sid : Nat) : (dist.buckets sid).card < 2 ^ 32 := by
  have hout : bucket ∉ dist.buckets sid := by
    intro hmem
    rw [← hdist.agree, hfree] at hmem
    cases hmem
  have hsubset : insert bucket (dist.buckets sid) ⊆ Finset.range (2 ^ 32) := by
    intro other hother
    rcases Finset.mem_insert.mp hother with rfl | hmem
    · exact Finset.mem_range.mpr hbucket
    · exact Finset.mem_range.mpr (hdist.fits sid other hmem)
  have hcard := Finset.card_le_card hsubset
  rw [Finset.card_insert_of_notMem hout, Finset.card_range] at hcard
  exact hcard

theorem sidWithMinBuc_iff (hservers : ¬ dist.sidBucksMap.isEmpty)
    (hcard : ∀ sid, (dist.buckets sid).card < 2 ^ 32) :
    LeastLoaded dist dist.sidWithMinBuc ↔ LastIsLeast dist.sizes := by
  unfold sidWithMinBuc
  split
  next hnone => exact absurd (by rw [OrderedMap.isEmpty, hnone]; rfl) hservers
  next sid set rest hentries =>
    have hfirst : (sid, set) ∈ dist.sidBucksMap.entries := hentries ▸ List.mem_cons_self
    have hless : set.card < 2 ^ 32 := by
      have hset : dist.buckets sid = set := buckets_of_mem hfirst
      exact hset ▸ hcard sid
    have hsizes : dist.sizes = set.card :: rest.map fun entry => entry.2.card := by
      rw [sizes, hentries, List.map_cons]
    have hlow : dist.sizes.filter (· < set.card) =
        (((sid, set) :: rest).filter fun entry => decide (entry.2.card < set.card)).map
          fun entry => entry.2.card := by
      rw [sizes, hentries, List.filter_map]
      rfl
    have hlast : LastIsLeast dist.sizes ↔ ∀ last ∈ (dist.sizes.filter (· < set.card)).getLast?,
        ∀ size ∈ dist.sizes, last ≤ size := by
      rw [LastIsLeast, hsizes]
      simp
    have hchosen := foldl_last (fun entry : Nat × Finset Nat => decide (entry.2.card < set.card))
      Prod.fst sid ((sid, set) :: rest)
    simp only [decide_eq_true_eq] at hchosen
    rw [Nat.mod_eq_of_lt hless, hchosen, hlast, hlow, List.getLast?_map]
    cases hfound : (((sid, set) :: rest).filter fun entry =>
        decide (entry.2.card < set.card)).getLast? with
    | none =>
        -- no server has fewer than the first
        rw [List.getLast?_eq_none_iff, List.filter_eq_nil_iff] at hfound
        refine iff_of_true ((leastLoaded_iff hfirst).mpr ?_) fun last hlast => by cases hlast
        intro size hsize
        obtain ⟨other, hother, rfl⟩ := List.mem_map.mp hsize
        have hnot := hfound other (hentries ▸ hother)
        simpa using hnot
    | some last =>
        have hmem : last ∈ dist.sidBucksMap.entries := by
          rw [hentries]
          exact List.mem_of_mem_filter (List.mem_of_getLast? hfound)
        rw [Option.map_some, Option.getD_some, leastLoaded_iff hmem]
        simp

theorem locate_free (hfree : dist.buckSidMap.find bucket = none) :
    (dist.locate bucket).2 = dist.sidWithMinBuc := by
  unfold locate
  rw [hfree]
  dsimp only
  split
  next hsid =>
    rw [hsid]
    split
    · rfl
    · rfl
  next hsid => rw [hsid]

/-- `Dispatch_User` and `bucket_to_sid` give a bucket to a server with the fewest when of
the servers that have fewer than the first the last one has the fewest. -/
theorem chosen_leastLoaded_iff (hdist : Consistent dist) (hservers : ¬ dist.sidBucksMap.isEmpty) :
    (∀ uid, dist.buckSidMap.find (hashUid uid) = none →
      (LeastLoaded dist ((dist.dispatchUser uid).2.map Prod.fst) ↔ LastIsLeast dist.sizes)) ∧
    ∀ bucket, bucket < 2 ^ 32 → dist.buckSidMap.find bucket = none →
      (LeastLoaded dist (dist.bucketToSid bucket).2 ↔ LastIsLeast dist.sizes) := by
  constructor
  · intro uid hfree
    have hchosen : (dist.dispatchUser uid).2.map Prod.fst = (dist.locate (hashUid uid)).2 := by
      rw [dispatchUser, Option.map_map]
      exact Option.map_id'
    rw [hchosen, locate_free hfree]
    exact sidWithMinBuc_iff hservers (hdist.card_lt hfree (hashUid_lt uid))
  · intro bucket hbucket hfree
    rw [bucketToSid, locate_free hfree]
    exact sidWithMinBuc_iff hservers (hdist.card_lt hfree hbucket)

theorem chosen_leastLoaded : ∃ dist : BucketDist, dist.sizes = [2, 2, 1] ∧
    LeastLoaded dist (dist.bucketToSid 7).2 := by
  refine ⟨⟨⟨[(1, {1, 2}), (2, {3, 4}), (3, {5})], by decide⟩,
    ⟨[(1, 1), (2, 1), (3, 2), (4, 2), (5, 3)], by decide⟩⟩, by decide, ?_⟩
  refine ((chosen_leastLoaded_iff (consistent_of_entries _ ?_ ?_) ?_).2 7 ?_ rfl).mpr ?_
  · decide
  · decide
  · decide
  · decide
  · decide

/-- The third server has fewer buckets than the first, but not the fewest. -/
theorem chosen_not_leastLoaded : ∃ dist : BucketDist, Consistent dist ∧ dist.sizes = [3, 1, 2] ∧
    dist.buckSidMap.find 7 = none ∧ ¬ LeastLoaded dist (dist.bucketToSid 7).2 ∧
    ¬ LeastLoaded dist ((dist.dispatchUser 6).2.map Prod.fst) := by
  refine ⟨⟨⟨[(1, {1, 2, 3}), (2, {4}), (3, {5, 6})], by decide⟩,
    ⟨[(1, 1), (2, 1), (3, 1), (4, 2), (5, 3), (6, 3)], by decide⟩⟩,
    consistent_of_entries _ ?_ ?_, by decide, rfl, ?_, ?_⟩
  · decide
  · decide
  · rintro ⟨sid, hsid, -, hleast⟩
    cases hsid
    exact absurd (hleast 2 (by decide)) (by decide)
  · rintro ⟨sid, hsid, -, hleast⟩
    cases hsid
    exact absurd (hleast 2 (by decide)) (by decide)

end BucketDist

end ServiceFrame
