import ServiceFrame.ServerLib.BucketChoice
import ServiceFrame.ServerLib.BucketRounds

/-! # How evenly the buckets lie

A new server is meant to leave the numbers of buckets as close together as they were. It
does not where the first server has more than one behind it.
-/

namespace ServiceFrame

open Foundation

namespace BucketDist

variable {dist next before : BucketDist} {sid source bucket : Nat} {redirects : Redirects}

/-! ## A new server -/

/-- The numbers of buckets that a new server leaves uneven: it takes from the first server
and from those behind the first one that has fewer, and the rounds go by the ones between
too late. -/
def Uneven : List Nat → Prop
  | [] => False
  | first :: rest =>
      match rest.dropWhile (· = first) with
      | [] => False
      | least :: low =>
          let high := (rest.takeWhile (· = first)).length
          let taken := low.count first + 1
          least + 1 = first ∧ taken < least ∧ ¬ EndsEven high (least - taken) (rest.length + 1)

instance (high lack count : Nat) : Decidable (EndsEven high lack count) := by
  unfold EndsEven; infer_instance

theorem not_uneven_of_least {first : Nat} {rest : List Nat} (hleast : ∀ size ∈ rest, first ≤ size) :
    ¬ Uneven (first :: rest) := by
  unfold Uneven
  dsimp only
  split
  next => exact id
  next least low hlow =>
    rintro ⟨hone, -⟩
    have hmem : least ∈ rest := (List.dropWhile_sublist _).mem (hlow ▸ List.mem_cons_self)
    have hle := hleast least hmem
    omega

theorem not_uneven_of_few {sizes : List Nat} (hfew : ∀ size ∈ sizes, size ≤ 1) :
    ¬ Uneven sizes := by
  cases sizes with
  | nil => exact id
  | cons first rest =>
      unfold Uneven
      dsimp only
      split
      next => exact id
      next least low hlow =>
        rintro ⟨hone, htaken, -⟩
        have hle := hfew first List.mem_cons_self
        omega

theorem uneven_iff {first least : Nat} {highs low : List Nat}
    (hhighs : ∀ size ∈ highs, size = first) (hleast : least + 1 = first) :
    Uneven (first :: (highs ++ least :: low)) ↔ low.count first + 1 < least ∧
      ¬ EndsEven highs.length (least - (low.count first + 1)) (highs.length + low.length + 2) := by
  have hdiff : ¬ least = first := by omega
  have htake : (highs ++ least :: low).takeWhile (· = first) = highs := by
    rw [List.takeWhile_append_of_pos (by simpa using hhighs)]
    simp [hdiff]
  have hdrop : (highs ++ least :: low).dropWhile (· = first) = least :: low := by
    rw [List.dropWhile_append_of_pos (by simpa using hhighs)]
    simp [hdiff]
  unfold Uneven
  dsimp only
  rw [hdrop, htake]
  simp only [hleast, true_and, List.length_append, List.length_cons]
  rfl

/-- The servers are as they were, but for the new one. -/
theorem entry_sids (hnew : sid ∉ dist.sids) :
    sid ∈ (dist.entry sid).sids ∧ (dist.entry sid).sids.filter (· ≠ sid) = dist.sids := by
  have hknown : ∀ other, other ∈ (dist.entry sid).sids ↔ other = sid ∨ other ∈ dist.sids := by
    intro other
    rw [mem_sids, mem_sids, entry, OrderedMap.find_set, Function.update_apply]
    split
    next hsame => simp [hsame]
    next hdiff => simp [hdiff]
  refine ⟨(hknown sid).mpr (Or.inl rfl), ?_⟩
  have hperm : ((dist.entry sid).sids.filter (· ≠ sid)).Perm dist.sids := by
    apply (List.perm_ext_iff_of_nodup ((sids_nodup _).filter _) dist.sids_nodup).mpr
    intro other
    rw [List.mem_filter, hknown]
    by_cases hsame : other = sid
    · simp [hsame, hnew]
    · simp [hsame]
  exact hperm.eq_of_pairwise (fun _ _ _ _ hless hmore => absurd hless (Nat.lt_asymm hmore))
    ((sids_sorted _).filter _) dist.sids_sorted

/-- The first loop begins at the first of the others. -/
theorem dropWhile_others {sids others : List Nat} (hothers : sids.filter (· ≠ sid) = others)
    (baseSid : Nat) (hbase : ∀ other ∈ others, baseSid ≤ other) :
    (sids.dropWhile (· < baseSid)).filter (· ≠ sid) = others := by
  have hnone : (sids.takeWhile (· < baseSid)).filter (· ≠ sid) = [] := by
    rw [List.filter_eq_nil_iff]
    intro other hmem hdiff
    have hless : other < baseSid := by
      simpa using List.all_eq_true.mp List.all_takeWhile other hmem
    have hother : other ∈ others := by
      rw [← hothers]
      exact List.mem_filter.mpr ⟨(List.takeWhile_sublist _).mem hmem, hdiff⟩
    exact absurd (hbase other hother) (Nat.not_le_of_lt hless)
  rw [← hothers]
  conv_rhs => rw [← List.takeWhile_append_dropWhile (p := fun other => decide (other < baseSid))
    (l := sids), List.filter_append, hnone, List.nil_append]

/-- The state after the first loop, from which either nothing more is taken or the rounds
begin. -/
structure LevelDone (dist : BucketDist) (sid : Nat) (level : BucketDist) (redirects : Redirects)
    (needMore : Bool) : Prop where
  taken : Taken dist sid level redirects
  known : sid ∈ level.sids
  stopped : needMore = false → Balanced level ∧ ¬ Uneven dist.sizes
  rounds : needMore = true → ∃ high size lack, Turn sid dist.sids high size lack 0 level ∧
    (EndsEven high lack dist.sids.length ↔ ¬ Uneven dist.sizes)

theorem sizes_eq (dist : BucketDist) :
    dist.sizes = dist.sids.map fun sid => (dist.buckets sid).card := by
  rw [sizes, sids, List.map_map]
  apply List.map_congr_left
  intro entry hmem
  rw [Function.comp_apply, buckets_of_mem hmem]

/-- A server that is not known has no bucket. -/
theorem Agree.card_new (hagree : Agree dist) (hnew : sid ∉ dist.sids) :
    (dist.buckets sid).card = 0 := by
  rw [Finset.card_eq_zero, Finset.eq_empty_iff_forall_notMem]
  intro bucket hmem
  exact hnew ((mem_sids dist sid).mpr (hagree.known ((hagree bucket sid).mpr hmem)))

/-- The first server has as many as any: the others give what they have more. -/
theorem level_from_least (hagree : Agree dist) (hnew : sid ∉ dist.sids) {baseSid : Nat}
    {rest tail : List Nat} (hsids : dist.sids = baseSid :: tail) (hnodup : rest.Nodup)
    (hrest : rest.filter (· ≠ sid) = dist.sids) (hpos : 0 < (dist.buckets baseSid).card)
    (hsizes : ∀ other ∈ dist.sids, (dist.buckets other).card = (dist.buckets baseSid).card ∨
      (dist.buckets other).card = (dist.buckets baseSid).card + 1) :
    ∃ level redirects needMore,
      levelLoop sid baseSid rest (dist.buckets baseSid).card (dist.entry sid) =
        some (level, redirects, needMore) ∧ LevelDone dist sid level redirects needMore := by
  obtain ⟨hknown, hothers⟩ := entry_sids hnew
  have hmem : ∀ other, other ∈ dist.sids ↔ other ∈ rest ∧ other ≠ sid := by
    intro other
    rw [← hrest, List.mem_filter, decide_eq_true_eq]
  obtain ⟨level, redirects, needMore, hloop, hlevel⟩ :=
    (Taken.entry hagree sid sid).levelled hknown baseSid (dist.buckets baseSid).card
      hnodup (by rwa [entry_buckets, hagree.card_new hnew]) fun other hother hdiff => by
        rw [entry_buckets]
        exact hsizes other ((hmem other).mpr ⟨hother, hdiff⟩)
  have huneven : ¬ Uneven dist.sizes := by
    rw [sizes_eq, hsids, List.map_cons]
    refine not_uneven_of_least fun size hsize => ?_
    obtain ⟨other, hother, rfl⟩ := List.mem_map.mp hsize
    have hclose := hsizes other (hsids ▸ List.mem_cons_of_mem _ hother)
    omega
  refine ⟨level, redirects, needMore, hloop, hlevel.taken, hlevel.sids ▸ hknown, ?_, ?_⟩
  · intro hneed
    refine ⟨Balanced.between (dist.buckets baseSid).card fun other hother => ?_, huneven⟩
    by_cases hsame : other = sid
    · have henough := hlevel.enough hneed
      rw [hsame]
      omega
    · rw [hlevel.sids] at hother
      have hdist : other ∈ dist.sids :=
        hothers ▸ List.mem_filter.mpr ⟨hother, by simpa using hsame⟩
      have hclose := hlevel.level other ((hmem other).mp hdist).1 hsame
      omega
  · intro hneed
    have hlacking := hlevel.lacking hneed
    refine ⟨0, (dist.buckets baseSid).card,
      (dist.buckets baseSid).card - (level.buckets sid).card, ?_, iff_of_true (Or.inl rfl) huneven⟩
    refine ⟨hlevel.sids ▸ hothers, ?_, by omega, Or.inl ⟨rfl, by omega⟩, Nat.zero_le _, Or.inl rfl⟩
    intro i hi
    obtain ⟨hin, hdiff⟩ := (hmem dist.sids[i]).mp (List.getElem_mem hi)
    rw [if_neg (Nat.not_lt_zero i), if_neg (by omega)]
    rcases hlevel.level _ hin hdiff with hclose | ⟨hnot, -⟩
    · exact hclose
    · rw [hneed] at hnot
      cases hnot

/-- The first server has one more than some, of which `low` comes first. -/
structure FirstMore (dist : BucketDist) (baseSid : Nat) (highs : List Nat) (low : Nat)
    (tail : List Nat) (least : Nat) : Prop where
  sids : dist.sids = baseSid :: (highs ++ low :: tail)
  pos : 0 < least
  fits : least < 2 ^ 32
  base : (dist.buckets baseSid).card = least + 1
  highs : ∀ other ∈ highs, (dist.buckets other).card = least + 1
  low : (dist.buckets low).card = least
  tail : ∀ other ∈ tail, (dist.buckets other).card = least ∨ (dist.buckets other).card = least + 1

namespace FirstMore

variable {baseSid low least : Nat} {highs tail : List Nat} {middle level : BucketDist}

/-- How many of the servers behind `low` have one more than it. -/
def further (dist : BucketDist) (tail : List Nat) (least : Nat) : Nat :=
  (tail.map fun other => (dist.buckets other).card).count (least + 1)

variable (hfirst : FirstMore dist baseSid highs low tail least)

include hfirst

theorem uneven_iff : Uneven dist.sizes ↔ further dist tail least + 1 < least ∧
    ¬ EndsEven highs.length (least - (further dist tail least + 1)) dist.sids.length := by
  have hhighs : ∀ size ∈ highs.map fun other => (dist.buckets other).card, size = least + 1 := by
    intro size hsize
    obtain ⟨other, hother, rfl⟩ := List.mem_map.mp hsize
    exact hfirst.highs other hother
  rw [sizes_eq, hfirst.sids, List.map_cons, List.map_append, List.map_cons, hfirst.base, hfirst.low,
    BucketDist.uneven_iff hhighs rfl, List.length_map, List.length_map, List.length_cons,
    List.length_append, List.length_cons]
  rfl

theorem nodup : (baseSid :: (highs ++ low :: tail)).Nodup := hfirst.sids ▸ dist.sids_nodup

theorem ne_sid (hnew : sid ∉ dist.sids) :
    ∀ other ∈ baseSid :: (highs ++ low :: tail), other ≠ sid := by
  rintro other hmem rfl
  exact hnew (hfirst.sids ▸ hmem)

/-- Behind the first server all have `least` or one more. -/
theorem close : ∀ other ∈ highs ++ low :: tail,
    (dist.buckets other).card = least ∨ (dist.buckets other).card = least + 1 := by
  intro other hmem
  rcases List.mem_append.mp hmem with hhigh | hmem
  · exact Or.inr (hfirst.highs other hhigh)
  · rcases List.mem_cons.mp hmem with rfl | hmem
    · exact Or.inl hfirst.low
    · exact hfirst.tail other hmem

theorem mem_entry (hnew : sid ∉ dist.sids) : ∀ other ∈ (dist.entry sid).sids,
    other = sid ∨ other = baseSid ∨ other ∈ highs ++ low :: tail := by
  intro other hmem
  by_cases hsame : other = sid
  · exact Or.inl hsame
  · refine Or.inr (List.mem_cons.mp ?_)
    rw [← hfirst.sids, ← (entry_sids hnew).2]
    exact List.mem_filter.mpr ⟨hmem, by simpa using hsame⟩

variable (hagree : Agree dist) (hnew : sid ∉ dist.sids)
  (hmove : Moved sid baseSid (dist.entry sid) middle)

include hagree hnew hmove

/-- Once the first server has given a bucket, it has `least` as well. -/
theorem given : (middle.buckets baseSid).card = least ∧ (middle.buckets sid).card = 1 ∧
    ∀ other ∈ highs ++ low :: tail, (middle.buckets other).card = (dist.buckets other).card := by
  have hgave := hmove.gave
  have hgot := hmove.got
  rw [entry_buckets, hfirst.base] at hgave
  rw [entry_buckets, hagree.card_new hnew] at hgot
  refine ⟨by omega, hgot, ?_⟩
  intro other hmem
  rw [hmove.others other _ (hfirst.ne_sid hnew other (List.mem_cons_of_mem _ hmem)), entry_buckets]
  rintro rfl
  exact (List.nodup_cons.mp hfirst.nodup).1 hmem

/-- With one bucket the new server may have enough. -/
theorem given_balanced (henough : least ≤ 1) : Balanced middle := by
  obtain ⟨hbase, hown, hstill⟩ := hfirst.given hagree hnew hmove
  have hpos := hfirst.pos
  refine Balanced.between least fun other hmem => ?_
  rw [hmove.sids] at hmem
  rcases hfirst.mem_entry hnew other hmem with rfl | rfl | hmem
  · omega
  · omega
  · rw [hstill other hmem]
    have hsize := hfirst.close other hmem
    omega

section Levelled

variable {after : List Nat} (hafter : after.filter (· ≠ sid) = tail)

include hafter

omit hfirst hagree hnew hmove in
theorem mem_after (other : Nat) : other ∈ tail ↔ other ∈ after ∧ other ≠ sid := by
  rw [← hafter, List.mem_filter, decide_eq_true_eq]

theorem having_after : middle.having sid (least + 1) after = further dist tail least := by
  obtain ⟨-, -, hstill⟩ := hfirst.given hagree hnew hmove
  rw [having, hafter, further]
  congr 1
  apply List.map_congr_left
  intro other hin
  exact hstill other (List.mem_append_right _ (List.mem_cons_of_mem _ hin))

variable {needMore : Bool} (hlevel : Levelled dist sid least after middle redirects level needMore)

include hlevel

/-- When the servers behind `low` have given enough, all is close. -/
theorem levelled_balanced (hneed : needMore = false) : Balanced level := by
  obtain ⟨hbase, -, hstill⟩ := hfirst.given hagree hnew hmove
  have henough := hlevel.enough hneed
  have hone : ∀ other, other ∈ after → other ≠ sid → least ≤ (level.buckets other).card ∧
      (level.buckets other).card ≤ least + 1 := by
    intro other hin hdiff
    have hsize := hlevel.level other hin hdiff
    omega
  refine Balanced.between least fun other hmem => ?_
  rw [hlevel.sids, hmove.sids] at hmem
  rcases hfirst.mem_entry hnew other hmem with rfl | rfl | hmem
  · omega
  · have hdiff := hfirst.ne_sid hnew other List.mem_cons_self
    by_cases hin : other ∈ after
    · exact hone other hin hdiff
    · rw [hlevel.passed other hin hdiff]
      omega
  · have hdiff := hfirst.ne_sid hnew other (List.mem_cons_of_mem _ hmem)
    by_cases hin : other ∈ after
    · exact hone other hin hdiff
    · rw [hlevel.passed other hin hdiff, hstill other hmem]
      have hsize := hfirst.close other hmem
      omega

/-- When they have not, only those between the first server and `low` have one more. -/
theorem levelled_sizes (hneed : needMore = true) : (level.buckets baseSid).card = least ∧
    (∀ other ∈ highs, (level.buckets other).card = least + 1) ∧
    ∀ other ∈ low :: tail, (level.buckets other).card = least := by
  obtain ⟨hbase, -, hstill⟩ := hfirst.given hagree hnew hmove
  have hmem := mem_after hafter
  have hexact : ∀ other ∈ after, other ≠ sid → (level.buckets other).card = least := by
    intro other hin hdiff
    rcases hlevel.level other hin hdiff with hsize | ⟨hnot, -⟩
    · exact hsize
    · rw [hneed] at hnot
      cases hnot
  refine ⟨?_, fun other hin => ?_, fun other hin => ?_⟩
  · have hdiff := hfirst.ne_sid hnew baseSid List.mem_cons_self
    by_cases hin : baseSid ∈ after
    · exact hexact baseSid hin hdiff
    · rw [hlevel.passed baseSid hin hdiff, hbase]
  · have hin' : other ∈ highs ++ low :: tail := List.mem_append_left _ hin
    have hdiff := hfirst.ne_sid hnew other (List.mem_cons_of_mem _ hin')
    have hout : other ∉ after := by
      intro hbehind
      obtain ⟨-, -, hdisjoint⟩ := List.nodup_append.mp (List.nodup_cons.mp hfirst.nodup).2
      exact hdisjoint other hin other
        (List.mem_cons_of_mem _ ((hmem other).mpr ⟨hbehind, hdiff⟩)) rfl
    rw [hlevel.passed other hout hdiff, hstill other hin']
    exact hfirst.highs other hin
  · have hin' : other ∈ highs ++ low :: tail := List.mem_append_right _ hin
    have hdiff := hfirst.ne_sid hnew other (List.mem_cons_of_mem _ hin')
    by_cases hbehind : other ∈ after
    · exact hexact other hbehind hdiff
    · rcases List.mem_cons.mp hin with rfl | htail
      · rw [hlevel.passed other hbehind hdiff, hstill other hin', hfirst.low]
      · exact absurd ((hmem other).mp htail).1 hbehind

/-- The rounds begin with the first server. -/
theorem levelled_turn (hneed : needMore = true) :
    Turn sid dist.sids highs.length least (least - (further dist tail least + 1)) 0 level ∧
      further dist tail least + 1 < least := by
  obtain ⟨-, hgot, -⟩ := hfirst.given hagree hnew hmove
  have hlacking := hlevel.lacking hneed
  rw [hfirst.having_after hagree hnew hmove hafter, hgot] at hlacking
  obtain ⟨hbase, hhighs, hlow⟩ := hfirst.levelled_sizes hagree hnew hmove hafter hlevel hneed
  refine ⟨⟨?_, ?_, by omega, Or.inl ⟨rfl, by omega⟩, Nat.zero_le _,
    Or.inr ⟨?_, by omega⟩⟩, by omega⟩
  · rw [hlevel.sids, hmove.sids, (entry_sids hnew).2]
  · rw [hfirst.sids]
    intro i hi
    rw [if_neg (Nat.not_lt_zero i)]
    cases i with
    | zero => exact hbase
    | succ i =>
        rw [List.getElem_cons_succ]
        by_cases hhigh : i < highs.length
        · rw [List.getElem_append_left hhigh, hhighs _ (List.getElem_mem hhigh), if_pos (by omega)]
        · rw [List.getElem_append_right (by omega), hlow _ (List.getElem_mem _), if_neg (by omega)]
  · rw [hfirst.sids, List.length_cons, List.length_append, List.length_cons]
    omega

end Levelled

omit hmove

/-- The first server gives a bucket for `low`, and the servers behind that one give what they
have more. -/
theorem level_done {rest : List Nat} (hnodup : rest.Nodup)
    (hrest : rest.filter (· ≠ sid) = dist.sids) :
    ∃ level redirects needMore,
      levelLoop sid baseSid rest (least + 1) (dist.entry sid) =
        some (level, redirects, needMore) ∧ LevelDone dist sid level redirects needMore := by
  obtain ⟨hknown, -⟩ := entry_sids hnew
  have hpos := hfirst.pos
  have huneven := hfirst.uneven_iff
  obtain ⟨after, hsuffix, hafter, hloop⟩ := levelLoop_high (dist.entry sid) baseSid
    (baseSid :: highs) (hrest.trans hfirst.sids) hpos
    (by
      intro other hmem
      rw [entry_buckets]
      rcases List.mem_cons.mp hmem with rfl | hmem
      · exact hfirst.base
      · exact hfirst.highs other hmem)
    (by rw [entry_buckets, hfirst.low])
  obtain ⟨middle, given, hmoved, htook, hmove⟩ :=
    (Taken.entry hagree sid sid).transfer_moved hknown
      (hfirst.ne_sid hnew baseSid List.mem_cons_self) (by rw [entry_buckets, hfirst.base]; omega)
  obtain ⟨hbase, hgot, hstill⟩ := hfirst.given hagree hnew hmove
  rw [hloop, hmoved, Option.bind_eq_bind, Option.bind_some]
  dsimp only
  rw [hbase, Nat.mod_eq_of_lt hfirst.fits]
  split
  next hstop =>
    refine ⟨middle, given, false, rfl, htook, hmove.sids ▸ hknown, fun _ => ⟨?_, ?_⟩, nofun⟩
    · exact hfirst.given_balanced hagree hnew hmove (by omega)
    · rw [huneven]
      omega
  next hgo =>
    obtain ⟨level, more, needMore, hlast, hlevel⟩ := htook.levelled (hmove.sids ▸ hknown) baseSid
      least (hnodup.sublist hsuffix.sublist) (by omega) fun other hin hdiff => by
        have htail := (mem_after hafter other).mpr ⟨hin, hdiff⟩
        rw [hstill other (List.mem_append_right _ (List.mem_cons_of_mem _ htail))]
        exact hfirst.tail other htail
    rw [hlast]
    refine ⟨level, given ++ more, needMore, rfl, hlevel.taken, ?_, fun hneed => ⟨?_, ?_⟩, ?_⟩
    · rw [hlevel.sids, hmove.sids]
      exact hknown
    · exact hfirst.levelled_balanced hagree hnew hmove hafter hlevel hneed
    · have henough := hlevel.enough hneed
      rw [hfirst.having_after hagree hnew hmove hafter] at henough
      rw [huneven]
      omega
    · intro hneed
      obtain ⟨hturn, hless⟩ := hfirst.levelled_turn hagree hnew hmove hafter hlevel hneed
      refine ⟨highs.length, least, _, hturn, ?_⟩
      rw [huneven, not_and_not_right]
      exact ⟨fun heven _ => heven, fun heven => heven hless⟩

end FirstMore

/-- A server with all buckets: its number of buckets, cut to 32 bits, is none. -/
theorem levelLoop_all {baseSid : Nat} {rest : List Nat} (hrest : rest.filter (· ≠ sid) = [baseSid])
    (hall : (dist.buckets baseSid).card = 2 ^ 32) (hown : (dist.buckets sid).card = 0) :
    levelLoop sid baseSid rest 0 dist = some (dist, [], true) := by
  induction rest with
  | nil => cases hrest
  | cons it2 rest ih =>
      rw [levelLoop]
      dsimp only
      by_cases hsame : it2 = sid
      · rw [List.filter_cons_of_neg (by simpa using hsame)] at hrest
        rw [if_pos hsame, ih hrest]
      · rw [List.filter_cons_of_pos (by simpa using hsame)] at hrest
        obtain ⟨rfl, hnone⟩ := List.cons.inj hrest
        have hothers : ∀ other ∈ rest, other ≠ sid → (dist.buckets other).card ≤ 1 := by
          intro other hmem hdiff
          exact absurd (by simpa using hdiff) (List.filter_eq_nil_iff.mp hnone other hmem)
        have hdelta : (2 ^ 32 - 0) % 2 ^ 32 = 0 := rfl
        rw [if_neg hsame, if_pos (by omega), if_neg (by omega), hall, hdelta, transfers,
          Option.bind_eq_bind, Option.bind_some]
        dsimp only
        rw [if_neg (by omega), levelLoop_few it2 (Nat.zero_le 1) hothers]
        rfl

/-- What `Add_Server` does when the first loop is done. -/
theorem LevelDone.balanced_iff {level : BucketDist} {needMore : Bool} {fuel : Nat}
    {last : BucketDist} {more : Redirects}
    (hlevel : LevelDone dist sid level redirects needMore) (hsome : dist.sids ≠ [])
    (hrounds : (if needMore = true then (do
        let (next, more) ← roundLoop sid level.sids fuel level.sids level
        some (next, redirects ++ more))
      else some (level, redirects)) = some (last, more)) :
    Balanced last ↔ ¬ Uneven dist.sizes := by
  split at hrounds
  next hneed =>
    obtain ⟨high, size, lack, hturn, heven⟩ := hlevel.rounds hneed
    obtain ⟨⟨next, further⟩, hloop, hnext⟩ := Option.bind_eq_some_iff.mp hrounds
    cases hnext
    rw [← heven]
    exact roundLoop_balanced hlevel.taken hlevel.known hturn hsome
      (List.ne_nil_of_mem hlevel.known) hturn.sids hloop
  next hneed =>
    cases hrounds
    obtain ⟨hbalanced, huneven⟩ := hlevel.stopped (by simpa using hneed)
    exact iff_of_true hbalanced huneven

/-- With all buckets at the first server, there is no other. -/
theorem only_server (hdist : Consistent dist) (hbalanced : Balanced dist) {baseSid : Nat}
    {tail : List Nat} (hsids : dist.sids = baseSid :: tail)
    (hwhole : dist.buckets baseSid = Finset.range (2 ^ 32)) : tail = [] := by
  cases tail with
  | nil => rfl
  | cons other tail =>
      have hbase : baseSid ∈ dist.sids := hsids ▸ List.mem_cons_self
      have hother : other ∈ dist.sids := hsids ▸ List.mem_cons_of_mem _ List.mem_cons_self
      have hclose := hbalanced baseSid hbase other hother
      rw [hwhole, Finset.card_range] at hclose
      have hpos : 0 < (dist.buckets other).card := by omega
      obtain ⟨bucket, hmem⟩ := Finset.card_pos.mp hpos
      have howner := (hdist.agree bucket other).mpr hmem
      have hfits := Finset.mem_range.mpr (hdist.fits other bucket hmem)
      rw [(hdist.agree bucket baseSid).mpr (hwhole ▸ hfits), Option.some.injEq] at howner
      have hdistinct := hsids ▸ dist.sids_nodup
      exact absurd (howner ▸ List.mem_cons_self) (List.nodup_cons.mp hdistinct).1

/-- Its number of buckets is cut to none, and the rounds take from it. -/
theorem level_from_all (hagree : Agree dist) (hnew : sid ∉ dist.sids) {baseSid : Nat}
    {rest : List Nat} (hsids : dist.sids = [baseSid]) (hrest : rest.filter (· ≠ sid) = dist.sids)
    (hall : (dist.buckets baseSid).card = 2 ^ 32) :
    ∃ level redirects needMore,
      levelLoop sid baseSid rest ((dist.buckets baseSid).card % 2 ^ 32) (dist.entry sid) =
        some (level, redirects, needMore) ∧ LevelDone dist sid level redirects needMore := by
  obtain ⟨hknown, hothers⟩ := entry_sids hnew
  have hnone : 2 ^ 32 % 2 ^ 32 = 0 := rfl
  rw [hall, hnone, levelLoop_all (hrest.trans hsids) (by rw [entry_buckets, hall])
    (by rw [entry_buckets, hagree.card_new hnew])]
  refine ⟨_, _, _, rfl, Taken.entry hagree sid sid, hknown, nofun, fun _ =>
    ⟨0, 2 ^ 32, 2 ^ 32, ?_, iff_of_true (Or.inl rfl) ?_⟩⟩
  · refine ⟨hothers, ?_, ?_, Or.inl ⟨rfl, by omega⟩, Nat.zero_le _, Or.inl rfl⟩
    · rw [hsids]
      intro i hi
      obtain rfl : i = 0 := by simpa using hi
      rw [entry_buckets]
      exact hall
    · rw [entry_buckets, hagree.card_new hnew, Nat.add_comm]
  · rw [sizes_eq, hsids]
    exact not_uneven_of_least nofun

/-- Where a server has less than the first one, `low` is the first that has. -/
theorem exists_firstMore (hbalanced : Balanced dist) {baseSid : Nat} {tail : List Nat}
    (hsids : dist.sids = baseSid :: tail) (hless : (dist.buckets baseSid).card < 2 ^ 32)
    (hmany : ∃ other ∈ dist.sids, 1 < (dist.buckets other).card)
    (hlower : ∃ other ∈ dist.sids, (dist.buckets other).card < (dist.buckets baseSid).card) :
    ∃ highs low behind least, FirstMore dist baseSid highs low behind least := by
  have hbase : baseSid ∈ dist.sids := hsids ▸ List.mem_cons_self
  obtain ⟨lower, hmem, hlow⟩ := hlower
  obtain ⟨least, hleast⟩ : ∃ least, (dist.buckets baseSid).card = least + 1 :=
    ⟨(dist.buckets baseSid).card - 1, by omega⟩
  have hclose : ∀ other ∈ dist.sids,
      (dist.buckets other).card = least ∨ (dist.buckets other).card = least + 1 := by
    intro other hother
    have hmore := hbalanced other hother lower hmem
    have hfewer := hbalanced baseSid hbase other hother
    omega
  have htail : lower ∈ tail := by
    rw [hsids] at hmem
    rcases List.mem_cons.mp hmem with rfl | hmem
    · exact absurd hlow (Nat.lt_irrefl _)
    · exact hmem
  obtain ⟨low, hfound⟩ := Option.isSome_iff_exists.mp
    (List.find?_isSome (p := fun other => (dist.buckets other).card = least).mpr
      ⟨lower, htail, by
        have hone := hclose lower hmem
        rw [decide_eq_true_eq]
        omega⟩)
  obtain ⟨hlow', highs, behind, rfl, hhighs⟩ := List.find?_eq_some_iff_append.mp hfound
  have hin : ∀ other, other ∈ highs ++ low :: behind → other ∈ dist.sids := fun other hother =>
    hsids ▸ List.mem_cons_of_mem _ hother
  obtain ⟨large, hlarge, hmore⟩ := hmany
  have htwo := hclose large hlarge
  refine ⟨highs, low, behind, least, hsids, by omega, by omega, hleast, ?_, by simpa using hlow',
    fun other hother =>
      hclose other (hin other (List.mem_append_right _ (List.mem_cons_of_mem _ hother)))⟩
  intro other hother
  have hone := hclose other (hin other (List.mem_append_left _ hother))
  have hnot := hhighs other hother
  simp only [Bool.not_eq_true', decide_eq_false_iff_not] at hnot
  omega

/-- The first loop, where a server has more than one bucket. -/
theorem level_done (hdist : Consistent dist) (hbalanced : Balanced dist) (hnew : sid ∉ dist.sids)
    {baseSid : Nat} {rest tail : List Nat} (hsids : dist.sids = baseSid :: tail)
    (hnodup : rest.Nodup) (hrest : rest.filter (· ≠ sid) = dist.sids)
    (hmany : ∃ other ∈ dist.sids, 1 < (dist.buckets other).card) :
    ∃ level redirects needMore,
      levelLoop sid baseSid rest ((dist.buckets baseSid).card % 2 ^ 32) (dist.entry sid) =
        some (level, redirects, needMore) ∧ LevelDone dist sid level redirects needMore := by
  have hbase : baseSid ∈ dist.sids := hsids ▸ List.mem_cons_self
  have hsubset : dist.buckets baseSid ⊆ Finset.range (2 ^ 32) := fun bucket hmem =>
    Finset.mem_range.mpr (hdist.fits baseSid bucket hmem)
  have hcard := Finset.card_le_card hsubset
  rw [Finset.card_range] at hcard
  rcases Nat.eq_or_lt_of_le hcard with hall | hless
  · have hwhole : dist.buckets baseSid = Finset.range (2 ^ 32) :=
      Finset.eq_of_subset_of_card_le hsubset (by rw [Finset.card_range, hall])
    obtain rfl := only_server hdist hbalanced hsids hwhole
    exact level_from_all hdist.agree hnew hsids hrest hall
  · rw [Nat.mod_eq_of_lt hless]
    by_cases hlower : ∃ other ∈ dist.sids, (dist.buckets other).card < (dist.buckets baseSid).card
    · obtain ⟨highs, low, behind, least, hfirst⟩ :=
        exists_firstMore hbalanced hsids hless hmany hlower
      rw [hfirst.base]
      exact hfirst.level_done hdist.agree hnew hnodup hrest
    · refine level_from_least hdist.agree hnew hsids hnodup hrest ?_ ?_
      · obtain ⟨other, hother, hmore⟩ := hmany
        have hclose := hbalanced other hother baseSid hbase
        omega
      · intro other hother
        have hclose := hbalanced other hother baseSid hbase
        have hleast : ¬ (dist.buckets other).card < (dist.buckets baseSid).card :=
          fun hless => hlower ⟨other, hother, hless⟩
        omega

theorem Agree.few (hagree : Agree dist)
    (hfew : ∀ other ∈ dist.sids, (dist.buckets other).card ≤ 1) (other : Nat) :
    (dist.buckets other).card ≤ 1 := by
  by_cases hmem : other ∈ dist.sids
  · exact hfew other hmem
  · rw [hagree.card_new hmem]
    exact Nat.zero_le 1

/-- With a bucket each, or none, the new server may get none. -/
theorem entry_few (hfew : ∀ other, (dist.buckets other).card ≤ 1) (sid : Nat) :
    Balanced (dist.entry sid) ↔ ¬ Uneven dist.sizes := by
  refine iff_of_true (Balanced.between 0 fun other _ => ?_) ?_
  · rw [entry_buckets]
    exact ⟨Nat.zero_le _, hfew other⟩
  · refine not_uneven_of_few fun size hsize => ?_
    rw [sizes_eq] at hsize
    obtain ⟨other, -, rfl⟩ := List.mem_map.mp hsize
    exact hfew other

theorem addServer_new (hdist : Consistent dist) (hbalanced : Balanced dist)
    (hnew : sid ∉ dist.sids) : ∃ next redirects, dist.addServer sid = some (next, redirects) ∧
      (Balanced next ↔ ¬ Uneven dist.sizes) := by
  obtain ⟨next, redirects, hadd, -, -⟩ := addServer_taken hdist.agree sid
  refine ⟨next, redirects, hadd, ?_⟩
  unfold addServer at hadd
  split at hadd
  next hnone =>
    cases hadd
    refine entry_few (fun other => ?_) sid
    have hzero : dist.buckets other = ∅ := by
      rw [Finset.eq_empty_iff_forall_notMem]
      intro bucket hmem
      rw [← hdist.agree, OrderedMap.isEmpty_iff.mp hnone] at hmem
      cases hmem
    rw [hzero, Finset.card_empty]
    exact Nat.zero_le 1
  next hsome =>
    split at hadd
    next hknown => exact absurd ((mem_sids dist sid).mpr hknown) hnew
    next =>
      obtain ⟨⟨baseSid, baseBuckets⟩, hfirst, hadd⟩ := Option.bind_eq_some_iff.mp hadd
      dsimp only at hadd
      obtain ⟨⟨level, given, needMore⟩, hlevel, hadd⟩ := Option.bind_eq_some_iff.mp hadd
      dsimp only at hadd
      obtain ⟨tail, hentries⟩ : ∃ tail, dist.sidBucksMap.entries = (baseSid, baseBuckets) :: tail :=
        List.head?_eq_some_iff.mp hfirst
      have hsids : dist.sids = baseSid :: tail.map Prod.fst := by
        rw [sids, hentries, List.map_cons]
      have hentry : (baseSid, baseBuckets) ∈ dist.sidBucksMap.entries :=
        hentries ▸ List.mem_cons_self
      have hbase : dist.buckets baseSid = baseBuckets := buckets_of_mem hentry
      obtain ⟨hknown, hothers⟩ := entry_sids hnew
      have hrest := dropWhile_others hothers baseSid (by
        intro other hmem
        rw [hsids] at hmem
        rcases List.mem_cons.mp hmem with rfl | hmem
        · exact Nat.le_refl _
        · have hsorted := hsids ▸ dist.sids_sorted
          exact Nat.le_of_lt ((List.pairwise_cons.mp hsorted).1 other hmem))
      rw [← hbase] at hlevel
      by_cases hmany : ∃ other ∈ dist.sids, 1 < (dist.buckets other).card
      · obtain ⟨done, given', needMore', hloop, hdone⟩ := level_done hdist hbalanced hnew hsids
          ((sids_nodup _).sublist (List.dropWhile_sublist _)) hrest hmany
        rw [hlevel] at hloop
        cases hloop
        exact hdone.balanced_iff (hsids ▸ List.cons_ne_nil _ _) hadd
      · have hfew : ∀ other, (dist.buckets other).card ≤ 1 := hdist.agree.few fun other hmem =>
          Nat.le_of_not_lt fun hmore => hmany ⟨other, hmem, hmore⟩
        have hfew' : ∀ other ∈ (dist.entry sid).sids, other ≠ sid →
            ((dist.entry sid).buckets other).card ≤ 1 := by
          intro other _ _
          rw [entry_buckets]
          exact hfew other
        rw [levelLoop_few baseSid (Nat.le_trans (Nat.mod_le _ _)
          (hfew baseSid)) fun other hmem =>
            hfew' other ((List.dropWhile_sublist _).mem hmem)] at hlevel
        cases hlevel
        obtain ⟨⟨last, more⟩, hloop, hlast⟩ := Option.bind_eq_some_iff.mp hadd
        cases hlast
        rw [roundLoop_few hfew' hfew' hloop]
        exact entry_few hfew sid

/-- A server that is known stays as it is. -/
theorem addServer_known (hknown : sid ∈ dist.sids) : ∃ next, dist.addServer sid = some (next, []) ∧
    next.sids = dist.sids ∧ ∀ other, next.buckets other = dist.buckets other := by
  have hsome := (mem_sids dist sid).mp hknown
  unfold addServer
  split
  · refine ⟨_, rfl, sids_eq fun other => ?_, entry_buckets dist sid⟩
    rw [mem_sids, mem_sids, entry, OrderedMap.find_set, Function.update_apply]
    split
    next hsame => exact iff_of_true rfl (hsame ▸ hsome)
    next => rfl
  · exact ⟨dist, rfl, rfl, fun _ => rfl⟩

/-- After `Add_Server` the numbers of buckets are as close together as before, unless they
were of the kind that it leaves uneven. -/
theorem addServer_balanced_iff (hdist : Consistent dist) (hbalanced : Balanced dist) (sid : Nat) :
    ∃ next redirects, dist.addServer sid = some (next, redirects) ∧
      (Balanced next ↔ ¬ (sid ∉ dist.sids ∧ Uneven dist.sizes)) := by
  by_cases hnew : sid ∈ dist.sids
  · obtain ⟨next, hadd, hsids, hbuckets⟩ := addServer_known hnew
    refine ⟨next, [], hadd, iff_of_true ?_ fun huneven => huneven.1 hnew⟩
    intro one hone other hother
    rw [hbuckets, hbuckets]
    exact hbalanced one (hsids ▸ hone) other (hsids ▸ hother)
  · obtain ⟨next, redirects, hadd, hnext⟩ := addServer_new hdist hbalanced hnew
    refine ⟨next, redirects, hadd, ?_⟩
    rw [hnext, and_iff_right hnew]

/-- Three servers, of which the second has a bucket less than the others. -/
def secondLess : BucketDist where
  sidBucksMap := ⟨[(1, {1, 2, 3}), (2, {4, 5}), (3, {6, 7, 8})], by decide⟩
  buckSidMap := ⟨[(1, 1), (2, 1), (3, 1), (4, 2), (5, 2), (6, 3), (7, 3), (8, 3)], by decide⟩

theorem secondLess_addServer : ∃ next redirects,
    secondLess.addServer 4 = some (next, redirects) ∧ Balanced next := by
  obtain ⟨next, redirects, hadd, hnext⟩ := addServer_balanced_iff
    (consistent_of_entries secondLess (by decide) (by decide))
    (by unfold Balanced; decide) 4
  refine ⟨next, redirects, hadd, hnext.mpr ?_⟩
  rintro ⟨-, -, htaken, -⟩
  exact absurd htaken (by decide)

/-- Three servers, of which the third has a bucket less than the others. -/
def thirdLess : BucketDist where
  sidBucksMap := ⟨[(1, {1, 2, 3}), (2, {4, 5, 6}), (3, {7, 8})], by decide⟩
  buckSidMap := ⟨[(1, 1), (2, 1), (3, 1), (4, 2), (5, 2), (6, 2), (7, 3), (8, 3)], by decide⟩

/-- The first server gives a bucket for the third and one more in the first round, and
has one where the second has three. -/
theorem thirdLess_addServer : Consistent thirdLess ∧ Balanced thirdLess ∧ ∃ next redirects,
    thirdLess.addServer 4 = some (next, redirects) ∧ ¬ Balanced next := by
  have hdist : Consistent thirdLess := consistent_of_entries thirdLess (by decide) (by decide)
  have hbalanced : Balanced thirdLess := by
    unfold Balanced
    decide
  obtain ⟨next, redirects, hadd, hnext⟩ := addServer_new hdist hbalanced
    (show 4 ∉ thirdLess.sids by decide)
  refine ⟨hdist, hbalanced, next, redirects, hadd, fun hagain => hnext.mp hagain ?_⟩
  exact ⟨rfl, by decide, by decide⟩

end BucketDist

end ServiceFrame
