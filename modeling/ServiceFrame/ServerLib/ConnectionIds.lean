import ServiceFrame.ServerLib.NameChannel

/-! # Connections by server id

`sid2cid` of `DaemonClient` over whole runs: what `eraseConnect` takes out of it, and what
becomes of it when the counter of the connection ids, which has 32 bits, comes round to a
connection that is still there.
-/

namespace ServiceFrame

open Foundation

open DaemonClient (NONE_SERVER_ID)

namespace ChannelClient

variable {client next : ChannelClient} {id : Nat} {network : Network}

/-- No server has the id that the next connection will get. -/
def Unmapped (client : ChannelClient) : Prop :=
  ∀ id, client.sid2cid.find id ≠ some ((client.cid + 1) % 2 ^ 32)

/-- What `sid2cid` names is in the table, and was made for the server; what was erased is
not named. -/
structure NotDangling (client : ChannelClient) : Prop where
  there : ∀ id cid, client.sid2cid.find id = some cid → (client.connects.find cid).isSome
  erased : ∀ cid id, (client.eraseConnect cid).sid2cid.find id ≠ some cid
  own : ∀ id cid conn, client.sid2cid.find id = some cid → client.connects.find cid = some conn →
    conn.serverId = id
  reached : ∀ id network server, (client.dispatchByServerIdSV id network).2.reached = some server →
    server = id

theorem erased_of_linked (hlinked : Linked client) (cid id : Nat) :
    (client.eraseConnect cid).sid2cid.find id ≠ some cid := by
  intro hfind
  obtain ⟨conn, hconn, -⟩ := eraseConnect_linked hlinked cid id cid hfind
  unfold eraseConnect at hconn
  split at hconn
  next =>
    change (client.connects.erase cid).find cid = some conn at hconn
    rw [OrderedMap.find_erase, Function.update_self] at hconn
    cases hconn
  next hnone =>
    rw [hconn] at hnone
    exact hnone rfl

theorem reached_of_linked (hlinked : Linked client) {server : Nat}
    (hreached : (client.dispatchByServerIdSV id network).2.reached = some server) :
    server = id := by
  rcases client.dispatchByServerIdSV_cases hlinked id network with
    ⟨cid, conn, -, -, hsame⟩ | ⟨-, hsame⟩ | ⟨-, -, hsame⟩
  · rw [hsame] at hreached
    split at hreached
    · cases hreached
    · dsimp only at hreached
      split at hreached
      · exact (Option.some.inj hreached).symm
      · cases hreached
  · rw [hsame] at hreached
    dsimp only at hreached
    split at hreached
    · cases hreached
    · exact (Option.some.inj hreached).symm
  · rw [hsame] at hreached
    cases hreached

theorem notDangling_iff : NotDangling client ↔ Linked client := by
  constructor
  · intro hsafe id cid hcid
    obtain ⟨conn, hconn⟩ := Option.isSome_iff_exists.mp (hsafe.there id cid hcid)
    exact ⟨conn, hconn, hsafe.own id cid conn hcid hconn⟩
  · intro hlinked
    refine ⟨?_, erased_of_linked hlinked, ?_, fun id network server => reached_of_linked hlinked⟩
    · intro id cid hcid
      obtain ⟨conn, hconn, -⟩ := hlinked id cid hcid
      rw [hconn]
      rfl
    · intro id cid conn hcid hconn
      obtain ⟨found, hfound, hserver⟩ := hlinked id cid hcid
      rw [hconn] at hfound
      cases hfound
      exact hserver

/-! ## What a new connection takes over -/

/-- A connection that is made goes between a server and its own when the id is the same. -/
theorem onConnCreate_linked_iff (hlinked : Linked client) (hnew : client.sid2cid.find id = none) :
    Linked (client.onConnCreate id) ↔ Unmapped client := by
  have hsid2cid : (client.onConnCreate id).sid2cid.find =
      Function.update client.sid2cid.find id (some ((client.cid + 1) % 2 ^ 32)) :=
    OrderedMap.find_set ..
  have hconnects : (client.onConnCreate id).connects.find =
      Function.update client.connects.find ((client.cid + 1) % 2 ^ 32) (some ⟨id, true⟩) :=
    OrderedMap.find_set ..
  constructor
  · intro hafter other hother
    have hne : other ≠ id := by
      rintro rfl
      rw [hnew] at hother
      cases hother
    obtain ⟨conn, hconn, hserver⟩ :=
      hafter other ((client.cid + 1) % 2 ^ 32)
        (by rw [hsid2cid, Function.update_of_ne hne, hother])
    rw [hconnects, Function.update_self] at hconn
    cases hconn
    exact hne hserver.symm
  · intro hunmapped other cid hcid
    rw [hsid2cid, Function.update_apply] at hcid
    rw [hconnects]
    split at hcid
    next hother =>
      cases hcid
      exact ⟨⟨id, true⟩, Function.update_self _ _ _, hother.symm⟩
    next =>
      obtain ⟨conn, hconn, hserver⟩ := hlinked other cid hcid
      have hdiff : cid ≠ (client.cid + 1) % 2 ^ 32 := fun hsame =>
        hunmapped other (hsame ▸ hcid)
      exact ⟨conn, by rw [Function.update_of_ne hdiff, hconn], hserver⟩

theorem disable_linked (hlinked : Linked client) (cid : Nat) : Linked (client.disable cid) :=
  setEnable_linked hlinked cid false

theorem find_of_not_connected (hunconnected : ¬ client.Connected id) :
    client.sid2cid.find id = none :=
  Option.not_isSome_iff_eq_none.mp hunconnected

theorem connectable_not_connected {connects : Bool} (hmade : client.Connectable id connects) :
    client.sid2cid.find id = none :=
  find_of_not_connected hmade.1

theorem dispatchByServerIdSV_linked_iff (hlinked : Linked client) (id : Nat) (network : Network) :
    Linked (client.dispatchByServerIdSV id network).1 ↔
      (client.Connectable id network.connects → client.Unmapped) := by
  rcases client.dispatchByServerIdSV_cases hlinked id network with
    ⟨cid, conn, hcid, -, hsame⟩ | ⟨hmade, hsame⟩ | ⟨-, hunmade, hsame⟩
  · rw [hsame]
    refine iff_of_true ?_ ?_
    · split
      · exact disable_linked hlinked cid
      · exact hlinked
    · intro hmade
      rw [connectable_not_connected hmade] at hcid
      cases hcid
  · rw [hsame]
    exact (onConnCreate_linked_iff hlinked (connectable_not_connected hmade)).trans
      ⟨fun hunmapped _ => hunmapped, fun hunmapped => hunmapped hmade⟩
  · rw [hsame]
    exact iff_of_true hlinked fun hmade => absurd hmade hunmade

/-- A dispatch that failed at most disabled a connection. -/
theorem dispatchByServerIdSV_failed (hlinked : Linked client)
    (hfailed : (client.dispatchByServerIdSV id network).2.outcome = .failure) :
    (client.dispatchByServerIdSV id network).1 = client ∨
      ∃ cid, (client.dispatchByServerIdSV id network).1 = client.disable cid := by
  rcases client.dispatchByServerIdSV_cases hlinked id network with
    ⟨cid, conn, -, -, hsame⟩ | ⟨-, hsame⟩ | ⟨-, -, hsame⟩
  · rw [hsame]
    split
    · exact Or.inr ⟨cid, rfl⟩
    · exact Or.inl rfl
  · rw [hsame] at hfailed
    dsimp only at hfailed
    split at hfailed
    · cases hfailed
    · cases hfailed
  · rw [hsame]
    exact Or.inl rfl

/-- Disabling a connection leaves the ids alone. -/
theorem disable_ids (client : ChannelClient) (cid : Nat) :
    (client.disable cid).daemon = client.daemon ∧ (client.disable cid).cid = client.cid ∧
      (client.disable cid).sid2cid = client.sid2cid := by
  obtain ⟨connects, hsame, -⟩ := client.setEnable_frame cid false
  rw [disable, hsame]
  exact ⟨rfl, rfl, rfl⟩

/-! ## Which steps are safe -/

/-- The connection that a send makes, at the first try or at the second, gets an id that no
server has. -/
structure SafeSend (client : ChannelClient) (rn : String) (id : Nat) (first : Network) (pick : Nat)
    (second : Network) : Prop where
  choice : client.Connectable id first.connects → client.Unmapped
  retry : client.Refuses id first → client.randomServer rn id pick ≠ NONE_SERVER_ID →
    client.Connectable (client.randomServer rn id pick) second.connects → client.Unmapped

def SafeIds (client : ChannelClient) : Event → Prop
  | .dispatchToServerRandom name created first pick second =>
      client.SafeSend (routeName name) (client.firstChoice (routeName name) created) first pick
        second
  | .dispatchByServerIdSV serverId network =>
      client.Connectable serverId network.connects → client.Unmapped
  | _ => True

/-- The choice of a dispatch depends on the servers only. -/
theorem connectable_congr (hdaemon : next.daemon = client.daemon)
    (hsid2cid : next.sid2cid = client.sid2cid) (id : Nat) (connects : Bool) :
    next.Connectable id connects ↔ client.Connectable id connects := by
  unfold Connectable Connected
  rw [hdaemon, hsid2cid]

theorem unmapped_congr (hcid : next.cid = client.cid) (hsid2cid : next.sid2cid = client.sid2cid) :
    next.Unmapped ↔ client.Unmapped := by
  unfold Unmapped
  rw [hcid, hsid2cid]

/-- After a failure the second try starts from the same ids. -/
theorem failed_ids (hlinked : Linked client)
    (hfailed : (client.dispatchByServerIdSV id network).2.outcome = .failure) :
    (client.dispatchByServerIdSV id network).1.daemon = client.daemon ∧
      (client.dispatchByServerIdSV id network).1.cid = client.cid ∧
      (client.dispatchByServerIdSV id network).1.sid2cid = client.sid2cid := by
  rcases dispatchByServerIdSV_failed hlinked hfailed with hsame | ⟨cid, hsame⟩
  · rw [hsame]
    exact ⟨rfl, rfl, rfl⟩
  · rw [hsame]
    exact disable_ids client cid

theorem send_linked_iff (hlinked : Linked client) (rn : String) (id : Nat) (first : Network)
    (pick : Nat) (second : Network) :
    Linked (client.send rn id first pick second).1 ↔ client.SafeSend rn id first pick second := by
  have hchoice := dispatchByServerIdSV_linked_iff hlinked id first
  have hrefuses := attempt_refuses hlinked id first
  unfold send
  dsimp only
  split
  next hfailed =>
    have hrefused := hrefuses.mp hfailed
    have hunmade : ¬ client.Connectable id first.connects := by
      intro hmade
      rcases hrefused with ⟨hconnected, -⟩ | ⟨-, hunmade⟩
      · exact hmade.1 hconnected
      · exact hunmade hmade
    obtain ⟨hdaemon, hcid, hsid2cid⟩ := failed_ids hlinked hfailed
    have hnext : Linked (client.dispatchByServerIdSV id first).1 :=
      hchoice.mpr fun hmade => absurd hmade hunmade
    rw [randomServer_congr hdaemon]
    split
    next hdrawn =>
      -- the channel remembers the server that was drawn, which no id depends on
      have hnamed : Linked { (client.dispatchByServerIdSV id first).1 with
          ncs := (client.dispatchByServerIdSV id first).1.ncs.set rn
            (client.randomServer rn id pick) } := hnext
      apply (dispatchByServerIdSV_linked_iff hnamed _ second).trans
      have hconnectable := connectable_congr hdaemon hsid2cid (client.randomServer rn id pick)
        second.connects
      have hunmapped := unmapped_congr hcid hsid2cid
      constructor
      · intro hsafe
        refine ⟨fun hmade => absurd hmade hunmade, fun _ _ hmade => ?_⟩
        exact hunmapped.mp (hsafe (hconnectable.mpr hmade))
      · intro hsafe hmade
        exact hunmapped.mpr (hsafe.retry hrefused hdrawn (hconnectable.mp hmade))
    next hundrawn =>
      refine iff_of_true hnext ⟨fun hmade => absurd hmade hunmade, ?_⟩
      intro _ hdrawn
      exact absurd hdrawn hundrawn
  next hother =>
    refine hchoice.trans ⟨fun hsafe => ⟨hsafe, ?_⟩, fun hsafe => hsafe.choice⟩
    intro hrefused
    exact absurd (hrefuses.mpr hrefused) hother

theorem step_linked_iff {event : Event} (hlinked : Linked client)
    (hnext : client.step event = some next) : Linked next ↔ client.SafeIds event := by
  cases event with
  | dispatchToServerRandom name created first pick second =>
      cases hnext
      have hnamed : Linked { client with
          ncs := client.ncs.set (routeName name) (client.firstChoice (routeName name) created) } :=
        hlinked
      -- a channel that is new or renewed leaves the ids alone
      refine (send_linked_iff hnamed _ _ first pick second).trans ⟨fun hsafe => ?_, fun hsafe => ?_⟩
      · exact ⟨hsafe.choice, hsafe.retry⟩
      · exact ⟨hsafe.choice, hsafe.retry⟩
  | dispatchByServerIdSV serverId network =>
      cases hnext
      exact dispatchByServerIdSV_linked_iff hlinked serverId network
  | server _ | checkRuning _ _ | randomServer _ _ | eraseConnect _ | delayDelConn _
  | setEnable _ _ | handle =>
      refine iff_of_true (step_linked hlinked ?_ hnext) trivial
      trivial

/-- Only what the daemon says may have no step. -/
theorem safeIds_of_none {event : Event} (hnone : client.step event = none) :
    client.SafeIds event := by
  cases event with
  | dispatchToServerRandom name created first pick second => cases hnone
  | dispatchByServerIdSV serverId network => cases hnone
  | _ => trivial

/-- In a run whose new connections get ids that no server has, and in no other, what `sid2cid`
names is in every state a connection of the table that was made for the server. -/
theorem notDangling_iff_safeIds (serverGroupId : Option Nat) (events : List Event) :
    Throughout step NotDangling (new serverGroupId) events ↔
      Along step SafeIds (new serverGroupId) events := by
  refine throughout_iff_along Linked ?_ ?_ ?_ (new_linked serverGroupId) events
  · intro client event next hlinked hsafe hnext
    exact (step_linked_iff hlinked hnext).mpr hsafe
  · intro client hlinked
    exact notDangling_iff.mpr hlinked
  · intro client event hlinked
    constructor
    · intro hgood
      cases hnext : client.step event with
      | none => exact safeIds_of_none hnext
      | some next =>
          exact (step_linked_iff hlinked hnext).mp (notDangling_iff.mp (hgood next hnext))
    · intro hsafe next hnext
      exact notDangling_iff.mpr ((step_linked_iff hlinked hnext).mpr hsafe)

/-! ## The counter comes round -/

theorem eraseConnect_find {cid : Nat} (hthere : (client.connects.find cid).isSome) (id : Nat) :
    (client.eraseConnect cid).sid2cid.find id =
      if client.sid2cid.find id = some cid then none else client.sid2cid.find id := by
  unfold eraseConnect
  rw [if_pos hthere]
  change (List.foldl OrderedMap.erase client.sid2cid _).find id = _
  rw [OrderedMap.foldl_find OrderedMap.find_erase]
  refine if_congr ?_ rfl rfl
  rw [List.mem_map]
  constructor
  · rintro ⟨⟨sid, found⟩, hmem, rfl⟩
    obtain ⟨hentry, hfound⟩ := List.mem_filter.mp hmem
    exact (OrderedMap.mem_entries.mp hentry).trans (congrArg some (of_decide_eq_true hfound))
  · intro hfind
    exact ⟨(id, cid), List.mem_filter.mpr ⟨OrderedMap.mem_entries.mpr hfind, by simp⟩, rfl⟩

/-- Server 2 is dispatched to and its connection closed, `count` times. -/
def reconnects : Nat → List Event
  | 0 => []
  | count + 1 => reconnects count ++
      [.dispatchByServerIdSV 2 ⟨true, false⟩, .eraseConnect ((count + 2) % 2 ^ 32)]

/-- Two servers become known, and the first is dispatched to. -/
def firstConnects : List Event :=
  [.server (.onServerAddSV ⟨"online", 1, 2, 3, 1, 1, .RUNNING⟩),
    .server (.onServerAddSV ⟨"online", 1, 2, 3, 2, 1, .RUNNING⟩),
    .dispatchByServerIdSV 1 ⟨true, false⟩]

/-- Server 1 keeps the first connection while the second one's came and went. -/
structure Round (count : Nat) (client : ChannelClient) : Prop where
  cid : client.cid = (count + 1) % 2 ^ 32
  first : client.sid2cid.find 1 = some 1
  second : client.sid2cid.find 2 = none
  known : client.daemon.sid2FavorSV.find 2 = some ⟨"online", 1, 2, 3, 2, 1, .RUNNING⟩
  mapped : (client.connects.find 1).isSome

theorem Round.connects {count : Nat} (hround : Round count client) :
    client.step (.dispatchByServerIdSV 2 ⟨true, false⟩) = some (client.onConnCreate 2) := by
  rw [step, dispatchByServerIdSV, hround.second]
  dsimp only
  rw [connectServerIdSV, hround.known]
  rfl

theorem Round.again {count : Nat} (hround : Round count client) (hcount : count + 1 < 2 ^ 32) :
    ∃ next, run step client
        [.dispatchByServerIdSV 2 ⟨true, false⟩, .eraseConnect ((count + 2) % 2 ^ 32)] =
      some next ∧ Round (count + 1) next := by
  have hcid : (client.cid + 1) % 2 ^ 32 = (count + 2) % 2 ^ 32 := by
    rw [hround.cid]
    omega
  have hnew : (count + 2) % 2 ^ 32 ≠ 1 := by omega
  refine ⟨(client.onConnCreate 2).eraseConnect ((count + 2) % 2 ^ 32), ?_, ?_⟩
  · rw [run_cons, hround.connects]
    rfl
  · have hsid2cid : (client.onConnCreate 2).sid2cid.find =
        Function.update client.sid2cid.find 2 (some ((count + 2) % 2 ^ 32)) := by
      rw [← hcid]
      exact OrderedMap.find_set ..
    have hconnects : (client.onConnCreate 2).connects.find =
        Function.update client.connects.find ((count + 2) % 2 ^ 32) (some ⟨2, true⟩) := by
      rw [← hcid]
      exact OrderedMap.find_set ..
    have hthere : ((client.onConnCreate 2).connects.find ((count + 2) % 2 ^ 32)).isSome := by
      rw [hconnects, Function.update_self]
      rfl
    refine ⟨?_, ?_, ?_, ?_, ?_⟩
    · rw [eraseConnect, if_pos hthere]
      exact hcid
    · rw [eraseConnect_find hthere, hsid2cid, Function.update_of_ne (by decide), hround.first,
        if_neg]
      intro hsame
      exact hnew (Option.some.inj hsame).symm
    · rw [eraseConnect_find hthere, hsid2cid, Function.update_self, if_pos rfl]
    · rw [eraseConnect, if_pos hthere]
      exact hround.known
    · rw [eraseConnect, if_pos hthere]
      change (((client.onConnCreate 2).connects.erase _).find 1).isSome
      rw [OrderedMap.find_erase, Function.update_of_ne hnew.symm, hconnects,
        Function.update_of_ne hnew.symm]
      exact hround.mapped

theorem Round.reconnects (hround : Round 0 client) (count : Nat) (hcount : count < 2 ^ 32) :
    ∃ next, run step client (reconnects count) = some next ∧ Round count next := by
  induction count with
  | zero => exact ⟨client, rfl, hround⟩
  | succ count ih =>
      obtain ⟨middle, hmiddle, hround'⟩ := ih (Nat.lt_of_succ_lt hcount)
      obtain ⟨next, hnext, hnextRound⟩ := hround'.again hcount
      refine ⟨next, ?_, hnextRound⟩
      rw [ChannelClient.reconnects, run_append, hmiddle]
      exact hnext

/-- After 2^32 - 1 connections to server 2 the next one gets the id that server 1 has: a
dispatch to server 1 then goes to server 2. -/
theorem comeRound_dangles :
    ¬ Throughout step NotDangling (new none)
      (firstConnects ++ reconnects (2 ^ 32 - 1) ++ [.dispatchByServerIdSV 2 ⟨true, false⟩]) := by
  obtain ⟨first, hfirst, hround⟩ :
      ∃ first, run step (new none) firstConnects = some first ∧ Round 0 first :=
    ⟨_, rfl, rfl, rfl, rfl, rfl, rfl⟩
  obtain ⟨last, hlast, hround⟩ := hround.reconnects (2 ^ 32 - 1) (by omega)
  have hrun : run step (new none)
      (firstConnects ++ reconnects (2 ^ 32 - 1) ++ [.dispatchByServerIdSV 2 ⟨true, false⟩]) =
        some (last.onConnCreate 2) := by
    rw [run_append, run_append, hfirst, Option.bind_some, hlast, Option.bind_some, run_cons,
      hround.connects]
    rfl
  intro hall
  have hown := (hall.final hrun).own 1 1 ⟨2, true⟩
  have hcid : (last.cid + 1) % 2 ^ 32 = 1 := by
    rw [hround.cid]
    rfl
  have hsid2cid : (last.onConnCreate 2).sid2cid.find 1 = some 1 := by
    change (last.sid2cid.set 2 _).find 1 = some 1
    rw [OrderedMap.find_set, Function.update_of_ne (by decide), hround.first]
  have hconnects : (last.onConnCreate 2).connects.find 1 = some ⟨2, true⟩ := by
    change (last.connects.set ((last.cid + 1) % 2 ^ 32) ⟨2, true⟩).find 1 = some ⟨2, true⟩
    rw [hcid, OrderedMap.find_set, Function.update_self]
  have htwo := hown hsid2cid hconnects
  cases htwo

end ChannelClient

end ServiceFrame
