import Mathlib.Data.List.Dedup
import Mathlib.Data.List.Perm.Subperm
import ServiceFrame.ServerLib.ServerSelector

/-! # Several servers of a circle

`CConsistentHash::GetMultiValueByKey`: the servers met first on the way clockwise from
the place of a key. It steps from the place where the search for the key's point ended,
also when that is behind the last point, and where the circle has fewer points than the
servers asked for would have, it takes the number of servers from the number of points.
-/

namespace ServiceFrame

open Foundation

/-! ## First occurrences -/

section Firsts

variable {Elem : Type} [DecidableEq Elem]

/-- The elements of a list, each where it comes first. -/
def firsts (elems : List Elem) : List Elem := elems.reverse.dedup.reverse

@[simp] theorem mem_firsts {elem : Elem} {elems : List Elem} :
    elem ∈ firsts elems ↔ elem ∈ elems := by
  simp [firsts]

theorem nodup_firsts (elems : List Elem) : (firsts elems).Nodup :=
  List.nodup_reverse.mpr (List.nodup_dedup _)

theorem firsts_concat (elems : List Elem) (elem : Elem) :
    firsts (elems ++ [elem]) = if elem ∈ elems then firsts elems else firsts elems ++ [elem] := by
  unfold firsts
  rw [List.reverse_append, List.reverse_singleton, List.singleton_append]
  split
  next hmem => rw [List.dedup_cons_of_mem (List.mem_reverse.mpr hmem)]
  next hout =>
    rw [List.dedup_cons_of_notMem (by simpa using hout), List.reverse_cons]

theorem firsts_prefix (elems more : List Elem) : firsts elems <+: firsts (elems ++ more) := by
  induction more using List.reverseRecOn with
  | nil => simp
  | append_singleton front elem ih =>
      rw [← List.append_assoc, firsts_concat]
      split
      · exact ih
      · exact ih.trans (List.prefix_append _ _)

end Firsts

namespace UIntSet

theorem mem_values {set : UIntSet} {value : Nat} :
    value ∈ set.values ↔ (set.find value).isSome := by
  rw [values, List.mem_map, Option.isSome_iff_exists]
  constructor
  · rintro ⟨entry, hmem, rfl⟩
    exact ⟨entry.2, OrderedMap.mem_entries.mp hmem⟩
  · rintro ⟨mark, hfind⟩
    exact ⟨(value, mark), OrderedMap.mem_entries.mpr hfind, rfl⟩

theorem values_nodup (set : UIntSet) : set.values.Nodup :=
  List.pairwise_map.mpr (set.sorted.imp fun hless => Nat.ne_of_lt hless)

/-- A set that has the ids of these servers has as many elements. -/
theorem length_of_servers {set : UIntSet} {servers : List UInt32} (hnodup : servers.Nodup)
    (hvalues : ∀ value, value ∈ set.values ↔ ∃ server ∈ servers, server.toNat = value) :
    set.entries.length = servers.length := by
  have hids : (servers.map UInt32.toNat).Nodup := hnodup.map fun _ _ => UInt32.toNat_inj.mp
  have hperm : set.values.Perm (servers.map UInt32.toNat) := by
    refine (List.perm_ext_iff_of_nodup set.values_nodup hids).mpr fun value => ?_
    rw [hvalues value, List.mem_map]
  have hlength := hperm.length_eq
  rwa [values, List.length_map, List.length_map] at hlength

end UIntSet

namespace ConsistentHash

/-- The number of servers that are looked for. -/
def uGetCount (ring : ConsistentHash) (uValueCount : UInt32) : Nat :=
  let size := ring.serverCircle.entries.length
  if size < uValueCount.toNat * ring.numberOfReplicas % 2 ^ 32 then
    size / ring.numberOfReplicas % 2 ^ 32
  else uValueCount.toNat

/-- The values of the caller's set stay in it. -/
def getMultiValueByKey (ring : ConsistentHash) (uKey uValueCount : UInt32) (setValues : UIntSet) :
    Option (Bool × UIntSet) :=
  match ring.serverCircle.entries with
  | [] => some (false, setValues)
  | first :: rest => do
      let entries := first :: rest
      let it := ring.serverCircle.lowerIndex (ring.hash.key uKey).toNat
      let setValues := setValues.set (entries[it]?.getD first).2.toNat ()
      let setValues ← CServerSelectorImp.moreValues entries (ring.uGetCount uValueCount)
        (entries.length + 1) it setValues
      some (true, setValues)

/-- The selector's lookup is this one on its circle. -/
theorem getMultiValueByKey_onCircle (md5 : List UInt8 → UInt32) (circle : Circle)
    (emFuncType : EHashFuntcionType) (uKey uValueCount : UInt32)
    (hless : circle.entries.length < 2 ^ 32) :
    CServerSelectorImp.getMultiValueByKey md5 circle emFuncType uKey uValueCount =
      ((onCircle md5 emFuncType circle).getMultiValueByKey uKey uValueCount .empty).map
        fun found => if found.1 then some found.2 else none := by
  have hcount : (if circle.entries.length.toUInt32 < uValueCount * 200 then
      circle.entries.length.toUInt32 / 200 else uValueCount).toNat =
      (onCircle md5 emFuncType circle).uGetCount uValueCount := by
    have hsize : circle.entries.length.toUInt32.toNat = circle.entries.length :=
      Nat.mod_eq_of_lt hless
    have hproduct : (uValueCount * 200).toNat = uValueCount.toNat * 200 % 2 ^ 32 :=
      UInt32.toNat_mul _ _
    change _ = if circle.entries.length < uValueCount.toNat * 200 % 2 ^ 32 then
      circle.entries.length / 200 % 2 ^ 32 else uValueCount.toNat
    simp only [UInt32.lt_iff_toNat_lt, hsize, hproduct]
    split
    next =>
      rw [UInt32.toNat_div, hsize]
      exact (Nat.mod_eq_of_lt ((Nat.div_le_self _ _).trans_lt hless)).symm
    next => rfl
  revert hcount
  unfold CServerSelectorImp.getMultiValueByKey getMultiValueByKey
  have hcircle : (onCircle md5 emFuncType circle).serverCircle = circle := rfl
  have hhash : (onCircle md5 emFuncType circle).hash = .ofType md5 emFuncType := rfl
  rw [hcircle, hhash]
  cases circle.entries with
  | nil => exact fun _ => rfl
  | cons first rest =>
      intro hcount
      dsimp only
      rw [hcount]
      cases CServerSelectorImp.moreValues (first :: rest)
          ((onCircle md5 emFuncType circle).uGetCount uValueCount) ((first :: rest).length + 1)
          (circle.lowerIndex ((CircleHash.ofType md5 emFuncType).key uKey).toNat)
          (OrderedMap.set .empty ((first :: rest)[circle.lowerIndex
            ((CircleHash.ofType md5 emFuncType).key uKey).toNat]?.getD first).2.toNat ()) with
      | none => rfl
      | some setValues => rfl

/-- The servers on the circle, in the order in which they are met from a place on. -/
def serversFrom (ring : ConsistentHash) (start : Nat) : List UInt32 :=
  firsts ((ring.serverCircle.circle start).map Prod.snd)

/-! ## The walk -/

/-- The set has the servers of the points met so far. -/
def Met (points : List (Nat × UInt32)) (setValues : UIntSet) : Prop :=
  ∀ value : Nat, (setValues.find value).isSome ↔ ∃ point ∈ points, point.2.toNat = value

theorem Met.size {points : List (Nat × UInt32)} {setValues : UIntSet}
    (hmet : Met points setValues) :
    setValues.entries.length = (firsts (points.map Prod.snd)).length := by
  apply UIntSet.length_of_servers (nodup_firsts _)
  intro value
  rw [UIntSet.mem_values, hmet]
  simp only [mem_firsts, List.mem_map]
  constructor
  · rintro ⟨point, hmem, hvalue⟩
    exact ⟨point.2, ⟨point, hmem, rfl⟩, hvalue⟩
  · rintro ⟨_, ⟨point, hmem, rfl⟩, hvalue⟩
    exact ⟨point, hmem, hvalue⟩

theorem Met.step {points : List (Nat × UInt32)} {setValues : UIntSet} (hmet : Met points setValues)
    (point : Nat × UInt32) : Met (points ++ [point]) (setValues.set point.2.toNat ()) := by
  intro value
  rw [OrderedMap.find_set, Function.update_apply]
  split
  next hsame => simp [hsame]
  next hdiff => simp [hmet value, Ne.symm hdiff]

/-- Their servers are the first ones of the whole way. -/
theorem Met.values {points : List (Nat × UInt32)} {more : Nat} {setValues : UIntSet}
    (hmet : Met (points.take more) setValues) (value : Nat) :
    value ∈ setValues.values ↔
      ∃ server ∈ (firsts (points.map Prod.snd)).take setValues.entries.length,
        server.toNat = value := by
  have hprefix := firsts_prefix ((points.take more).map Prod.snd) ((points.drop more).map Prod.snd)
  rw [← List.map_append, List.take_append_drop] at hprefix
  rw [hmet.size, ← List.prefix_iff_eq_take.mp hprefix, UIntSet.mem_values, hmet]
  simp only [mem_firsts, List.mem_map]
  constructor
  · rintro ⟨point, hmem, hvalue⟩
    exact ⟨point.2, ⟨point, hmem, rfl⟩, hvalue⟩
  · rintro ⟨_, ⟨point, hmem, rfl⟩, hvalue⟩
    exact ⟨point, hmem, hvalue⟩

theorem next_place {length : Nat} (place : Nat) (hlength : 1 < length) :
    (if place % length + 1 = length then 0 else place % length + 1) = (place + 1) % length := by
  have hless := Nat.mod_lt place (Nat.lt_of_succ_lt hlength)
  rw [Nat.add_mod, Nat.mod_eq_of_lt hlength]
  split
  next hend => rw [hend, Nat.mod_self]
  next hmore =>
    have hnext : place % length + 1 < length := by omega
    exact (Nat.mod_eq_of_lt hnext).symm

/-- The loop ends, at the first point that gives it enough servers. -/
theorem moreValues_met {entries : List (Nat × UInt32)} {start uGetCount fuel met : Nat}
    {setValues : UIntSet} (hmet : Met ((entries.rotate start).take (met + 1)) setValues)
    (hless : met < entries.length)
    (henough : uGetCount ≤ (firsts ((entries.rotate start).map Prod.snd)).length)
    (hsize : setValues.entries.length ≤ max 1 uGetCount) (hfuel : entries.length - met ≤ fuel) :
    ∃ last more, CServerSelectorImp.moreValues entries uGetCount fuel
        ((start + met) % entries.length) setValues = some last ∧
      Met ((entries.rotate start).take more) last ∧ met < more ∧
      uGetCount ≤ last.entries.length ∧ last.entries.length ≤ max 1 uGetCount := by
  induction fuel generalizing met setValues with
  | zero => omega
  | succ fuel ih =>
      have hin : (start + met) % entries.length < entries.length := Nat.mod_lt _ (by omega)
      unfold CServerSelectorImp.moreValues
      split
      next hfew =>
        have hrest : met + 1 < entries.length := by
          by_contra hall
          rw [hmet.size, List.take_of_length_le (by rw [List.length_rotate]; omega)] at hfew
          omega
        have hrotate : met + 1 < (entries.rotate start).length := by
          rwa [List.length_rotate]
        have hpoint : entries[(start + met + 1) % entries.length]? =
            some (entries.rotate start)[met + 1] := by
          rw [Nat.add_assoc, Nat.add_comm start, ← List.getElem?_rotate hrest,
            List.getElem?_eq_getElem hrotate]
        have hmet' := hmet.step (entries.rotate start)[met + 1]
        rw [List.take_append_getElem hrotate] at hmet'
        have hgrow : (setValues.set (entries.rotate start)[met + 1].2.toNat ()).entries.length ≤
            setValues.entries.length + 1 := OrderedMap.length_set_le _ _ _
        dsimp only
        rw [next_place _ (by omega), hpoint, Option.bind_eq_bind, Option.bind_some]
        obtain ⟨last, more, hloop, hlast, hmore, hbounds⟩ :=
          ih hmet' hrest (by omega) (by omega)
        exact ⟨last, more, hloop, hlast, Nat.lt_of_succ_lt hmore, hbounds⟩
      next hmany =>
        exact ⟨setValues, met + 1, rfl, hmet, Nat.lt_succ_self met, Nat.le_of_not_lt hmany, hsize⟩

/-! ## The points of the servers -/

/-- A server has no more points than there are replicas. -/
theorem points_le (numberOfReplicas : Nat) (hash : CircleHash) (ops : List Op) (start : Nat) :
    ((new numberOfReplicas hash).after ops).serverCircle.entries.length ≤
      (((new numberOfReplicas hash).after ops).serversFrom start).length * numberOfReplicas := by
  have hpoints : ((new numberOfReplicas hash).after ops).serverCircle.entries.map Prod.fst ⊆
      (((new numberOfReplicas hash).after ops).serversFrom start).flatMap
        (new numberOfReplicas hash).points := by
    intro position hmem
    obtain ⟨⟨_, owner⟩, hentry, rfl⟩ := List.mem_map.mp hmem
    have hfind := OrderedMap.mem_entries.mp hentry
    obtain ⟨-, howner⟩ := after_owner numberOfReplicas hash ops hfind
    refine List.mem_flatMap.mpr ⟨owner, ?_, howner⟩
    rw [serversFrom, mem_firsts]
    exact List.mem_map.mpr ⟨_, OrderedMap.mem_circle.mpr hfind, rfl⟩
  have hnodup : (((new numberOfReplicas hash).after ops).serverCircle.entries.map Prod.fst).Nodup :=
    List.pairwise_map.mpr (OrderedMap.sorted _ |>.imp fun hless => Nat.ne_of_lt hless)
  have hlength := (List.subperm_of_subset hnodup hpoints).length_le
  rw [List.length_map, List.length_flatMap] at hlength
  simpa [points, new] using hlength

/-! ## The lookup -/

/-- The servers that the lookup is meant to find: as many as wanted, or all, of those met
first from the place of the key. -/
def FindsFirst (ring : ConsistentHash) (uKey uValueCount : UInt32) : Prop :=
  ∃ setValues, ring.getMultiValueByKey uKey uValueCount .empty =
      some (!ring.serverCircle.isEmpty, setValues) ∧
    setValues.entries.length =
      min uValueCount.toNat (ring.serversFrom (ring.hash.key uKey).toNat).length ∧
    ∀ value : Nat, value ∈ setValues.values ↔
      ∃ server ∈ (ring.serversFrom (ring.hash.key uKey).toNat).take uValueCount.toNat,
        server.toNat = value

/-- The first server met is the one of the single lookup. -/
theorem serversFrom_head (ring : ConsistentHash) (uKey : UInt32)
    (hsome : ¬ ring.serverCircle.isEmpty) :
    (ring.serversFrom (ring.hash.key uKey).toNat).head? = some (ring.getServer uKey) := by
  rw [getServer_eq, ← OrderedMap.head_circle]
  unfold serversFrom
  cases hcircle : ring.serverCircle.circle (ring.hash.key uKey).toNat with
  | nil =>
      have hlength := ring.serverCircle.length_circle (ring.hash.key uKey).toNat
      rw [hcircle, List.length_nil, eq_comm, List.length_eq_zero_iff] at hlength
      exact absurd (by rw [OrderedMap.isEmpty, hlength]; rfl) hsome
  | cons point rest =>
      obtain ⟨more, hmore⟩ := firsts_prefix [point.2] (rest.map Prod.snd)
      rw [List.map_cons, ← List.singleton_append, ← hmore]
      rfl

/-- The first server is the one at the place, or the first one of the circle. -/
theorem first_met {first : Nat × UInt32} {rest : List (Nat × UInt32)} {it : Nat}
    (hle : it ≤ (first :: rest).length) :
    Met (((first :: rest).rotate it).take (0 + 1))
      (OrderedMap.set .empty ((first :: rest)[it]?.getD first).2.toNat ()) := by
  have hlength : 0 < (first :: rest).length := Nat.succ_pos _
  have hhead : ((first :: rest).rotate it)[0]? = some ((first :: rest)[it]?.getD first) := by
    rw [List.getElem?_rotate hlength, Nat.zero_add]
    rcases Nat.eq_or_lt_of_le hle with hend | hin
    · rw [hend, Nat.mod_self, List.getElem?_eq_none (Nat.le_refl _)]
      rfl
    · rw [Nat.mod_eq_of_lt hin, List.getElem?_eq_getElem hin]
      rfl
  intro value
  rw [List.take_add_one, hhead, List.take_zero, OrderedMap.find_set, Function.update_apply]
  split
  next hsame => simp [hsame]
  next hdiff => simp [Ne.symm hdiff]

/-- From a point, or for one server, the walk takes as many servers as it looks for, one at
least. -/
theorem moreValues_walk {first : Nat × UInt32} {rest : List (Nat × UInt32)} {start look : Nat}
    (hle : start ≤ (first :: rest).length)
    (hends : look ≤ 1 ∨ start < (first :: rest).length ∧
      look ≤ (firsts (((first :: rest).rotate start).map Prod.snd)).length) :
    ∃ last, CServerSelectorImp.moreValues (first :: rest) look ((first :: rest).length + 1) start
        (OrderedMap.set .empty ((first :: rest)[start]?.getD first).2.toNat ()) = some last ∧
      ∀ value : Nat, value ∈ last.values ↔
        ∃ server ∈ (firsts (((first :: rest).rotate start).map Prod.snd)).take (max 1 look),
          server.toNat = value := by
  have hmet := first_met hle
  have hsize : (OrderedMap.set .empty ((first :: rest)[start]?.getD first).2.toNat () :
      UIntSet).entries.length = 1 := rfl
  by_cases hone : look ≤ 1
  · have hstop : ¬1 < look := Nat.not_lt.mpr hone
    rw [CServerSelectorImp.moreValues, hsize, if_neg hstop]
    refine ⟨_, rfl, fun value => ?_⟩
    rw [hmet.values, hsize, Nat.max_eq_left hone]
  · obtain ⟨hin, henough⟩ := hends.resolve_left hone
    have hplace : (start + 0) % (first :: rest).length = start := Nat.mod_eq_of_lt hin
    have hfuel : (first :: rest).length - 0 ≤ (first :: rest).length + 1 := Nat.le_succ _
    obtain ⟨last, more, hloop, hlast, -, hmany, hmost⟩ :=
      moreValues_met hmet (Nat.succ_pos _) henough (by omega) hfuel
    rw [hplace] at hloop
    refine ⟨last, hloop, fun value => ?_⟩
    rw [hlast.values, show last.entries.length = max 1 look by omega]

/-- Behind the last point, the loop would step on from the end of the circle. -/
theorem moreValues_behind {entries : List (Nat × UInt32)} {start look value : Nat}
    (hbehind : entries.length ≤ start) (hmany : 1 < look) :
    CServerSelectorImp.moreValues entries look (entries.length + 1) start
      (OrderedMap.set .empty value ()) = none := by
  have hsize : (OrderedMap.set .empty value () : UIntSet).entries.length = 1 := rfl
  rw [CServerSelectorImp.moreValues, hsize, if_pos hmany, if_neg (Nat.not_lt_of_le hbehind)]

theorem getMultiValueByKey_walk (ring : ConsistentHash) (uKey uValueCount : UInt32)
    (hsome : ¬ ring.serverCircle.isEmpty)
    (henough : ring.uGetCount uValueCount ≤
      (ring.serversFrom (ring.hash.key uKey).toNat).length)
    (hstart : ring.serverCircle.lowerIndex (ring.hash.key uKey).toNat <
      ring.serverCircle.entries.length ∨ ring.uGetCount uValueCount ≤ 1) :
    ∃ setValues, ring.getMultiValueByKey uKey uValueCount .empty = some (true, setValues) ∧
      ∀ value : Nat, value ∈ setValues.values ↔
        ∃ server ∈ (ring.serversFrom (ring.hash.key uKey).toNat).take
          (max 1 (ring.uGetCount uValueCount)), server.toNat = value := by
  have hle := ring.serverCircle.lowerIndex_le (ring.hash.key uKey).toNat
  unfold getMultiValueByKey
  rw [serversFrom, OrderedMap.circle_eq_rotate] at henough ⊢
  split
  next hnone => exact absurd (by rw [OrderedMap.isEmpty, hnone]; rfl) hsome
  next first rest hentries =>
    rw [hentries] at henough hle hstart ⊢
    dsimp only
    obtain ⟨last, hloop, hvalues⟩ :=
      moreValues_walk hle (hstart.symm.imp_right fun hin => ⟨hin, henough⟩)
    rw [hloop]
    exact ⟨last, rfl, hvalues⟩

theorem getMultiValueByKey_behind (ring : ConsistentHash) (uKey uValueCount : UInt32)
    (hsome : ¬ ring.serverCircle.isEmpty)
    (hbehind : ring.serverCircle.entries.length ≤
      ring.serverCircle.lowerIndex (ring.hash.key uKey).toNat)
    (hmany : 1 < ring.uGetCount uValueCount) :
    ring.getMultiValueByKey uKey uValueCount .empty = none := by
  unfold getMultiValueByKey
  split
  next hnone => exact absurd (by rw [OrderedMap.isEmpty, hnone]; rfl) hsome
  next first rest hentries =>
    rw [hentries] at hbehind
    dsimp only
    rw [moreValues_behind hbehind hmany]
    rfl

theorem uGetCount_eq (ring : ConsistentHash) (uValueCount : UInt32)
    (hproduct : uValueCount.toNat * ring.numberOfReplicas < 2 ^ 32) :
    ring.uGetCount uValueCount =
      if ring.serverCircle.entries.length < uValueCount.toNat * ring.numberOfReplicas then
        ring.serverCircle.entries.length / ring.numberOfReplicas
      else uValueCount.toNat := by
  unfold uGetCount
  rw [Nat.mod_eq_of_lt hproduct]
  dsimp only
  split
  next hfew =>
    have hdiv := Nat.div_lt_of_lt_mul (Nat.mul_comm _ _ ▸ hfew)
    exact Nat.mod_eq_of_lt (hdiv.trans uValueCount.toNat_lt)
  next => rfl

/-- Of two first parts of a list of servers that are the same as sets, one is as long as
the other. -/
theorem take_eq_iff {servers : List UInt32} (hnodup : servers.Nodup) (some more : Nat) :
    (∀ value : Nat, (∃ server ∈ servers.take some, server.toNat = value) ↔
      ∃ server ∈ servers.take more, server.toNat = value) ↔
        min some servers.length = min more servers.length := by
  rw [← List.take_eq_take_iff]
  constructor
  · intro hsame
    have hperm : (servers.take some).Perm (servers.take more) := by
      refine (List.perm_ext_iff_of_nodup (hnodup.sublist (List.take_sublist _ _))
        (hnodup.sublist (List.take_sublist _ _))).mpr fun server => ?_
      have hserver := hsame server.toNat
      simpa only [UInt32.toNat_inj, exists_eq_right] using hserver
    have hlength := hperm.length_eq
    rw [List.length_take, List.length_take] at hlength
    exact List.take_eq_take_iff.mpr hlength
  · intro htake value
    rw [htake]

/-- On a circle with points, what decides is how many servers the lookup looks for. -/
theorem findsFirst_count (ring : ConsistentHash) (uKey uValueCount : UInt32)
    (hsome : ¬ ring.serverCircle.isEmpty)
    (henough : ring.uGetCount uValueCount ≤
      (ring.serversFrom (ring.hash.key uKey).toNat).length)
    (hstart : ring.serverCircle.lowerIndex (ring.hash.key uKey).toNat <
      ring.serverCircle.entries.length ∨ ring.uGetCount uValueCount ≤ 1) :
    FindsFirst ring uKey uValueCount ↔
      min (max 1 (ring.uGetCount uValueCount))
          (ring.serversFrom (ring.hash.key uKey).toNat).length =
        min uValueCount.toNat (ring.serversFrom (ring.hash.key uKey).toNat).length := by
  obtain ⟨setValues, hlookup, hvalues⟩ :=
    ring.getMultiValueByKey_walk uKey uValueCount hsome henough hstart
  have hfound : (!ring.serverCircle.isEmpty) = true := by simpa using hsome
  have hnodup : (ring.serversFrom (ring.hash.key uKey).toNat).Nodup := nodup_firsts _
  rw [← take_eq_iff hnodup, FindsFirst, hfound, hlookup]
  constructor
  · rintro ⟨_, heq, -, hfirst⟩ value
    cases heq
    rw [← hfirst value, hvalues value]
  · intro hsame
    have hwanted := fun value => (hvalues value).trans (hsame value)
    refine ⟨setValues, rfl, ?_, hwanted⟩
    rw [UIntSet.length_of_servers (hnodup.sublist (List.take_sublist _ _)) hwanted,
      List.length_take]

/-- How many servers are looked for, against how many there are. -/
theorem look_count {wanted servers points replicas : Nat} (hwanted : 1 ≤ wanted)
    (hservers : 1 ≤ servers) (hreplicas : 0 < replicas) (hpoints : points ≤ servers * replicas) :
    let look := if points < wanted * replicas then points / replicas else wanted
    look ≤ servers ∧ (look ≤ 1 ∨ 1 < wanted ∧ 1 < servers) ∧
      (min (max 1 look) servers = min wanted servers ↔ wanted = 1 ∨ servers ≤ 1 ∨
        wanted * replicas ≤ points ∨ points = servers * replicas) := by
  dsimp only
  split
  next hfew =>
    have hless : points / replicas < wanted := Nat.div_lt_of_lt_mul (Nat.mul_comm _ _ ▸ hfew)
    have hle : points / replicas ≤ servers := Nat.div_le_of_le_mul (Nat.mul_comm _ _ ▸ hpoints)
    have hall : points / replicas = servers ↔ points = servers * replicas := by
      constructor
      · intro hdiv
        have hmul := Nat.div_mul_le_self points replicas
        rw [hdiv] at hmul
        exact Nat.le_antisymm hpoints hmul
      · intro heq
        rw [heq, Nat.mul_div_cancel _ hreplicas]
    omega
  next hmany =>
    have hle : wanted ≤ servers :=
      Nat.le_of_mul_le_mul_right ((Nat.le_of_not_lt hmany).trans hpoints) hreplicas
    omega

theorem findsFirst_of_points (ring : ConsistentHash) (uKey uValueCount : UInt32)
    (hcount : 1 ≤ uValueCount.toNat)
    (hproduct : uValueCount.toNat * ring.numberOfReplicas < 2 ^ 32)
    (hpoints : ring.serverCircle.entries.length ≤
      (ring.serversFrom (ring.hash.key uKey).toNat).length * ring.numberOfReplicas) :
    FindsFirst ring uKey uValueCount ↔
      uValueCount.toNat = 1 ∨ (ring.serversFrom (ring.hash.key uKey).toNat).length ≤ 1 ∨
        ring.serverCircle.lowerIndex (ring.hash.key uKey).toNat <
            ring.serverCircle.entries.length ∧
          (uValueCount.toNat * ring.numberOfReplicas ≤ ring.serverCircle.entries.length ∨
            ring.serverCircle.entries.length =
              (ring.serversFrom (ring.hash.key uKey).toNat).length * ring.numberOfReplicas) := by
  by_cases hempty : ring.serverCircle.isEmpty
  · have hentries : ring.serverCircle.entries = [] := List.isEmpty_iff.mp hempty
    have hnone : ring.serversFrom (ring.hash.key uKey).toNat = [] := by
      have hlength := ring.serverCircle.length_circle (ring.hash.key uKey).toNat
      rw [hentries, List.length_nil, List.length_eq_zero_iff] at hlength
      rw [serversFrom, hlength]
      rfl
    refine iff_of_true ⟨.empty, ?_, ?_, fun value => ?_⟩ (Or.inr (Or.inl (by simp [hnone])))
    · rw [getMultiValueByKey, hentries, hempty]
      rfl
    · rw [hnone, List.length_nil, Nat.min_zero]
      rfl
    · simp [hnone, UIntSet.mem_values]
  · have hservers : 1 ≤ (ring.serversFrom (ring.hash.key uKey).toNat).length :=
      List.length_pos_of_mem (List.mem_of_mem_head? (ring.serversFrom_head uKey hempty))
    have hpos : 0 < ring.serverCircle.entries.length := by
      rw [List.length_pos_iff]
      exact fun hnone => hempty (List.isEmpty_iff.mpr hnone)
    have hreplicas : 0 < ring.numberOfReplicas := by
      rw [Nat.pos_iff_ne_zero]
      intro hzero
      rw [hzero, Nat.mul_zero] at hpoints
      omega
    obtain ⟨henough, hone, hright⟩ := look_count hcount hservers hreplicas hpoints
    rw [← ring.uGetCount_eq uValueCount hproduct] at henough hone hright
    by_cases hstart : ring.serverCircle.lowerIndex (ring.hash.key uKey).toNat <
        ring.serverCircle.entries.length ∨ ring.uGetCount uValueCount ≤ 1
    · rw [ring.findsFirst_count uKey uValueCount hempty henough hstart, hright]
      omega
    · refine iff_of_false ?_ (by omega)
      rintro ⟨setValues, hlookup, -⟩
      rw [ring.getMultiValueByKey_behind uKey uValueCount hempty (by omega) (by omega)] at hlookup
      cases hlookup

/-- The lookup finds the servers met first when one is wanted, or one is all there are;
or when the place of the key is not behind the last point, and the circle has at least as
many points as the servers wanted can have, or all points of its servers. -/
theorem findsFirst_iff (numberOfReplicas : Nat) (hash : CircleHash) (ops : List Op)
    (uKey uValueCount : UInt32) (hcount : 1 ≤ uValueCount)
    (hproduct : uValueCount.toNat * numberOfReplicas < 2 ^ 32) :
    let ring := (new numberOfReplicas hash).after ops
    let place := (ring.hash.key uKey).toNat
    let points := ring.serverCircle.entries.length
    (¬ ring.serverCircle.isEmpty → (ring.serversFrom place).head? = some (ring.getServer uKey)) ∧
    (FindsFirst ring uKey uValueCount ↔
      uValueCount = 1 ∨ (ring.serversFrom place).length ≤ 1 ∨
        (∃ point ∈ ring.serverCircle.entries, place ≤ point.1) ∧
          (uValueCount.toNat * numberOfReplicas ≤ points ∨
            points = (ring.serversFrom place).length * numberOfReplicas)) := by
  intro ring place points
  have hreplicas : ring.numberOfReplicas = numberOfReplicas :=
    ((new numberOfReplicas hash).after_fixed ops).2
  have hfinds := ring.findsFirst_of_points uKey uValueCount (UInt32.le_iff_toNat_le.mp hcount)
    (hreplicas ▸ hproduct) (hreplicas ▸ points_le numberOfReplicas hash ops place)
  refine ⟨ring.serversFrom_head uKey, ?_⟩
  rw [hfinds, hreplicas, OrderedMap.lowerIndex_lt, ← UInt32.toNat_inj]
  rfl

/-- The points of a server are five apart, so that two servers can share one. -/
def sharedPoint : CircleHash where
  server serverid i := serverid + 5 * i.toUInt32
  key uid := uid

theorem findsFirst_two : FindsFirst ((new 2 sharedPoint).after [.add 10, .add 20]) 12 2 := by
  refine ((findsFirst_iff 2 sharedPoint [.add 10, .add 20] 12 2 ?_ ?_).2).mpr ?_
  · decide
  · decide
  · decide

/-- Behind the last point the loop steps on from the end; and with a point that is of two
servers the second of them is not looked for. -/
theorem not_findsFirst :
    ((new 2 sharedPoint).after [.add 10, .add 20]).getMultiValueByKey 26 2 .empty = none ∧
    ¬ FindsFirst ((new 2 sharedPoint).after [.add 10, .add 20]) 26 2 ∧
    ¬ FindsFirst ((new 2 sharedPoint).after [.add 10, .add 15]) 12 2 := by
  refine ⟨rfl, ?_, ?_⟩
  · rintro ⟨setValues, hlookup, -⟩
    cases hlookup
  · rintro ⟨setValues, hlookup, hsize, -⟩
    cases hlookup
    exact absurd hsize (by decide)

end ConsistentHash

end ServiceFrame
