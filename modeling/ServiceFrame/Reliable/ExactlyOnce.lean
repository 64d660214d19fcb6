import Mathlib.Data.List.Induction
import ServiceFrame.Reliable.AppContext

/-! # The receiver delivers once and in order

Any SYNCs in any order, from any sources, are fed to a receiver. For each source
the accepted RESETs cut what it sends into windows, and within a window the
handler is given the continuation of the RESET's sequence id, one by one.
-/

namespace ServiceFrame

namespace ReliableAppContext

variable {Load : Type}

/-- The context after the messages. -/
def feed (ctx : ReliableAppContext) (arrivals : List (Arrival Load)) : ReliableAppContext :=
  arrivals.foldl (fun ctx arrival => (ctx.onSyncRouter arrival).ctx) ctx

/-- The reset time kept for the source of a RESET becomes another by it. -/
def accepts (ctx : ReliableAppContext) (arrival : Arrival Load) : Bool :=
  decide (arrival.sync.enType = .reset) &&
    decide (((ctx.onSyncRouter arrival).ctx.writerInfo arrival.sync.srcId).lastRestTime ≠
      (ctx.writerInfo arrival.sync.srcId).lastRestTime)

def hands (ctx : ReliableAppContext) (arrival : Arrival Load) : Bool :=
  (ctx.onSyncRouter arrival).handed.isSome

/-- The messages of `src` that `pick` picks, each in the context it meets. -/
def picked (pick : ReliableAppContext → Arrival Load → Bool) (src : UInt32) :
    ReliableAppContext → List (Arrival Load) → List (PSS_SyncRouter Load)
  | _, [] => []
  | ctx, arrival :: rest =>
      (if arrival.sync.srcId = src ∧ pick ctx arrival then [arrival.sync] else []) ++
        picked pick src (ctx.onSyncRouter arrival).ctx rest

/-- The RESETs of `src` that are accepted. -/
def accepted (src : UInt32) : ReliableAppContext → List (Arrival Load) →
    List (PSS_SyncRouter Load) :=
  picked accepts src

/-- The messages of `src` whose load is handed to the handler. -/
def handed (src : UInt32) : ReliableAppContext → List (Arrival Load) →
    List (PSS_SyncRouter Load) :=
  picked hands src

/-- The messages that `src` sent. -/
def ownMessages (src : UInt32) (arrivals : List (Arrival Load)) : List (Arrival Load) :=
  arrivals.filter (fun arrival => arrival.sync.srcId = src)

theorem feed_append (ctx : ReliableAppContext) (first second : List (Arrival Load)) :
    ctx.feed (first ++ second) = (ctx.feed first).feed second :=
  List.foldl_append

theorem picked_append (pick : ReliableAppContext → Arrival Load → Bool) (src : UInt32)
    (ctx : ReliableAppContext) (first second : List (Arrival Load)) :
    picked pick src ctx (first ++ second) =
      picked pick src ctx first ++ picked pick src (ctx.feed first) second := by
  induction first generalizing ctx with
  | nil => rfl
  | cons arrival rest ih =>
      simp only [List.cons_append, picked, ih, List.append_assoc]
      rfl

theorem picked_singleton (pick : ReliableAppContext → Arrival Load → Bool) (src : UInt32)
    (ctx : ReliableAppContext) (arrival : Arrival Load) :
    picked pick src ctx [arrival] =
      if arrival.sync.srcId = src ∧ pick ctx arrival then [arrival.sync] else [] := by
  simp [picked]

/-! ## One message -/

theorem Opens.not_continues {ctx : ReliableAppContext} {sync : PSS_SyncRouter Load}
    (hopens : Opens ctx sync) : ¬ Continues ctx sync := by
  intro hcontinues
  have hdata := hcontinues.1
  rw [hopens.1] at hdata
  cases hdata

theorem accepts_iff (ctx : ReliableAppContext) (arrival : Arrival Load) :
    accepts ctx arrival = true ↔ Opens ctx arrival.sync := by
  simp only [accepts, Bool.and_eq_true, decide_eq_true_eq]
  obtain ⟨hopens, -, hafter⟩ | ⟨hcontinues, -, hafter⟩ | ⟨hopens, -, -, hafter⟩ :=
    onSyncRouter_cases ctx arrival
  · rw [hafter]
    exact ⟨fun _ => hopens, fun _ => ⟨hopens.1, (UInt64.ne_of_lt hopens.2.2).symm⟩⟩
  · rw [hafter]
    exact ⟨fun hmoved => absurd rfl hmoved.2, fun hopens => absurd hcontinues hopens.not_continues⟩
  · rw [hafter]
    exact ⟨fun hmoved => absurd rfl hmoved.2, fun hall => absurd hall hopens⟩

theorem hands_iff (ctx : ReliableAppContext) (arrival : Arrival Load) :
    hands ctx arrival = true ↔ Continues ctx arrival.sync := by
  unfold hands
  obtain ⟨hopens, hhanded, -⟩ | ⟨hcontinues, hhanded, -⟩ | ⟨-, hcontinues, hhanded, -⟩ :=
    onSyncRouter_cases ctx arrival
  · simp [hhanded, hopens.not_continues]
  · simp [hhanded, hcontinues]
  · simp [hhanded, hcontinues]

/-- What a message does to the window of `src`: it opens one, continues it by
one, or leaves it. -/
theorem window_step (src : UInt32) (ctx : ReliableAppContext) (arrival : Arrival Load) :
    let before := ctx.writerInfo src
    let after := (ctx.onSyncRouter arrival).ctx.writerInfo src
    (accepted src ctx [arrival] = [arrival.sync] ∧ handed src ctx [arrival] = [] ∧
      before.lastRestTime < after.lastRestTime ∧
      after.lastRestTime = arrival.sync.sendTime ∧ after.expectSeqId = arrival.sync.seqId) ∨
    (accepted src ctx [arrival] = [] ∧ handed src ctx [arrival] = [arrival.sync] ∧
      before.lastRestTime ≠ 0 ∧ arrival.sync.seqId = before.expectSeqId + 1 ∧
      after.lastRestTime = before.lastRestTime ∧ after.expectSeqId = before.expectSeqId + 1) ∨
    (accepted src ctx [arrival] = [] ∧ handed src ctx [arrival] = [] ∧
      after.lastRestTime = before.lastRestTime ∧ after.expectSeqId = before.expectSeqId) := by
  have haccepts := accepts_iff ctx arrival
  have hhands := hands_iff ctx arrival
  simp only [accepted, handed, picked_singleton]
  by_cases hsrc : arrival.sync.srcId = src
  · subst hsrc
    obtain ⟨hopens, -, hafter⟩ | ⟨hcontinues, -, hafter⟩ | ⟨hopens, hcontinues, -, hafter⟩ :=
      onSyncRouter_cases ctx arrival
    · rw [hafter]
      exact Or.inl ⟨if_pos ⟨rfl, haccepts.mpr hopens⟩,
        if_neg fun hall => hopens.not_continues (hhands.mp hall.2), hopens.2.2, rfl, rfl⟩
    · rw [hafter]
      exact Or.inr (Or.inl
        ⟨if_neg fun hall => (haccepts.mp hall.2).not_continues hcontinues,
        if_pos ⟨rfl, hhands.mpr hcontinues⟩, hcontinues.2.1, hcontinues.2.2, rfl,
        hcontinues.2.2⟩)
    · rw [hafter]
      exact Or.inr (Or.inr ⟨if_neg fun hall => hopens (haccepts.mp hall.2),
        if_neg fun hall => hcontinues (hhands.mp hall.2), rfl, rfl⟩)
  · have hagree := (onSyncRouter_other ctx arrival (Ne.symm hsrc)).writerInfo
    rw [← hagree]
    exact Or.inr (Or.inr ⟨if_neg fun hall => hsrc hall.1, if_neg fun hall => hsrc hall.1,
      rfl, rfl⟩)

/-! ## Windows -/

/-- The reset time kept for a source is that of its last accepted RESET, which
is the latest of them. -/
theorem lastRestTime_feed (src : UInt32) (arrivals : List (Arrival Load)) :
    let time := ((init.feed arrivals).writerInfo src).lastRestTime
    (∀ reset ∈ accepted src init arrivals, reset.sendTime ≤ time) ∧
      (time = 0 ∧ accepted src init arrivals = [] ∧ handed src init arrivals = [] ∨
        time ≠ 0 ∧ ∃ reset ∈ accepted src init arrivals, reset.sendTime = time) := by
  induction arrivals using List.reverseRecOn with
  | nil => exact ⟨by simp [accepted, picked], Or.inl ⟨rfl, rfl, rfl⟩⟩
  | append_singleton past arrival ih =>
      obtain ⟨hle, hlast⟩ := ih
      have hnext : init.feed (past ++ [arrival]) =
          ((init.feed past).onSyncRouter arrival).ctx := feed_append init past [arrival]
      simp only [accepted, handed, picked_append, hnext] at hle hlast ⊢
      obtain ⟨haccepted, hhanded, hless, htime, -⟩ | ⟨haccepted, hhanded, hopen, -, htime, -⟩ |
          ⟨haccepted, hhanded, htime, -⟩ := window_step src (init.feed past) arrival
      · -- the new RESET is the latest, since a RESET is accepted only when it is later
        simp only [accepted, handed] at haccepted hhanded
        rw [haccepted, hhanded]
        refine ⟨?_, Or.inr ⟨?_, arrival.sync, by simp, htime.symm⟩⟩
        · intro reset hreset
          simp only [List.mem_append, List.mem_singleton] at hreset
          obtain hold | rfl := hreset
          · exact UInt64.le_trans (hle reset hold) (UInt64.le_of_lt hless)
          · exact htime ▸ UInt64.le_refl _
        · exact (UInt64.ne_of_lt (UInt64.lt_of_le_of_lt UInt64.zero_le hless)).symm
      · simp only [accepted, handed] at haccepted hhanded
        rw [haccepted, hhanded, htime, List.append_nil]
        refine ⟨hle, Or.inr ?_⟩
        obtain ⟨hzero, -⟩ | hlast := hlast
        · exact absurd hzero hopen
        · exact hlast
      · simp only [accepted, handed] at haccepted hhanded
        rw [haccepted, hhanded, htime, List.append_nil, List.append_nil]
        exact ⟨hle, hlast⟩

/-- While no RESET is accepted, an open window stays open, and what is handed
over continues it. -/
theorem window_feed {src : UInt32} {ctx : ReliableAppContext} {since : List (Arrival Load)}
    (hopen : (ctx.writerInfo src).lastRestTime ≠ 0) (hsince : accepted src ctx since = []) :
    ((ctx.feed since).writerInfo src).lastRestTime ≠ 0 ∧
      ((ctx.feed since).writerInfo src).expectSeqId =
        (ctx.writerInfo src).expectSeqId + UInt32.ofNat (handed src ctx since).length ∧
      (handed src ctx since).map PSS_SyncRouter.seqId =
        (List.range (handed src ctx since).length).map
          (fun k => (ctx.writerInfo src).expectSeqId + UInt32.ofNat (k + 1)) := by
  induction since using List.reverseRecOn with
  | nil => exact ⟨hopen, by simp [feed, handed, picked], rfl⟩
  | append_singleton past arrival ih =>
      simp only [accepted, picked_append, List.append_eq_nil_iff] at hsince
      obtain ⟨hstill, hexpect, hids⟩ := ih hsince.1
      have hnext : ctx.feed (past ++ [arrival]) =
          ((ctx.feed past).onSyncRouter arrival).ctx := feed_append ctx past [arrival]
      simp only [handed, picked_append, hnext] at hexpect hids ⊢
      obtain ⟨haccepted, -⟩ | ⟨-, hhanded, -, hseq, htime, hafter⟩ |
          ⟨-, hhanded, htime, hafter⟩ := window_step src (ctx.feed past) arrival
      · rw [accepted, hsince.2] at haccepted
        cases haccepted
      · rw [handed] at hhanded
        have hcount : (ctx.writerInfo src).expectSeqId +
            UInt32.ofNat (picked hands src ctx past).length + 1 =
              (ctx.writerInfo src).expectSeqId +
                UInt32.ofNat ((picked hands src ctx past).length + 1) := by
          rw [UInt32.ofNat_add, UInt32.add_assoc]
          rfl
        rw [hhanded, htime, hafter, hexpect]
        refine ⟨hstill, by rw [hcount]; simp, ?_⟩
        simp only [List.map_append, List.map_singleton, List.length_append,
          List.length_singleton, List.range_succ, hids, hseq, hexpect, hcount]
      · rw [handed] at hhanded
        rw [hhanded, htime, hafter, List.append_nil]
        exact ⟨hstill, hexpect, hids⟩

/-- What a source's own messages leave for it, and which of them are accepted
and handed over, is all there is to what any messages do. -/
theorem feed_own (src : UInt32) (arrivals : List (Arrival Load)) :
    AgreeOn src (init.feed arrivals) (init.feed (ownMessages src arrivals)) ∧
      accepted src init arrivals = accepted src init (ownMessages src arrivals) ∧
      handed src init arrivals = handed src init (ownMessages src arrivals) := by
  induction arrivals using List.reverseRecOn with
  | nil => exact ⟨.refl _, rfl, rfl⟩
  | append_singleton past arrival ih =>
      obtain ⟨hagree, haccepted, hhanded⟩ := ih
      have hnext : ∀ past : List (Arrival Load), init.feed (past ++ [arrival]) =
          ((init.feed past).onSyncRouter arrival).ctx := fun past => feed_append init past [arrival]
      by_cases hsrc : arrival.sync.srcId = src
      · have hown : ownMessages src (past ++ [arrival]) = ownMessages src past ++ [arrival] := by
          simp [ownMessages, hsrc]
        rw [hown]
        simp only [accepted, handed, picked_append, hnext, picked_singleton] at *
        subst hsrc
        obtain ⟨hafter, houtcome, -⟩ := onSyncRouter_congr arrival hagree
        refine ⟨hafter, ?_, ?_⟩
        · rw [haccepted]
          simp only [accepts, hagree.writerInfo, hafter.writerInfo]
        · rw [hhanded]
          simp only [hands, houtcome]
      · have hown : ownMessages src (past ++ [arrival]) = ownMessages src past := by
          simp [ownMessages, hsrc]
        rw [hown]
        simp only [accepted, handed, picked_append, hnext, picked_singleton] at *
        refine ⟨(onSyncRouter_other _ arrival (Ne.symm hsrc)).symm.trans hagree, ?_, ?_⟩
        · rw [if_neg (fun hall => hsrc hall.1), List.append_nil]
          exact haccepted
        · rw [if_neg (fun hall => hsrc hall.1), List.append_nil]
          exact hhanded

/-! ## Exactly once -/

/-- A RESET is accepted when its time counts and is later than that of every
RESET accepted before. -/
theorem accepts_feed {src : UInt32} (past : List (Arrival Load)) {arrival : Arrival Load}
    (hsrc : arrival.sync.srcId = src) (hreset : arrival.sync.enType = .reset) :
    accepts (init.feed past) arrival = true ↔
      arrival.sync.sendTime ≠ 0 ∧
        ∀ earlier ∈ accepted src init past, earlier.sendTime < arrival.sync.sendTime := by
  obtain ⟨hle, hlast⟩ := lastRestTime_feed src past
  rw [accepts_iff]
  subst hsrc
  constructor
  · rintro ⟨-, htime, hless⟩
    exact ⟨htime, fun earlier hearlier => UInt64.lt_of_le_of_lt (hle earlier hearlier) hless⟩
  · rintro ⟨htime, hall⟩
    refine ⟨hreset, htime, ?_⟩
    obtain ⟨hzero, -⟩ | ⟨-, last, hmem, hlast⟩ := hlast
    · rw [hzero]
      exact UInt64.pos_iff_ne_zero.mpr htime
    · rw [← hlast]
      exact hall last hmem

/-- An accepted RESET opens a window at its sequence id. -/
theorem opened_window {src : UInt32} {ctx : ReliableAppContext} {reset : Arrival Load}
    (hsrc : reset.sync.srcId = src) (haccepts : accepts ctx reset = true) :
    ((ctx.feed [reset]).writerInfo src).lastRestTime ≠ 0 ∧
      ((ctx.feed [reset]).writerInfo src).expectSeqId = reset.sync.seqId := by
  subst hsrc
  have hopens := (accepts_iff ctx reset).mp haccepts
  change ((ctx.onSyncRouter reset).ctx.writerInfo reset.sync.srcId).lastRestTime ≠ 0 ∧
    ((ctx.onSyncRouter reset).ctx.writerInfo reset.sync.srcId).expectSeqId = reset.sync.seqId
  obtain ⟨-, -, hafter⟩ | ⟨hcontinues, -⟩ | ⟨hno, -⟩ := onSyncRouter_cases ctx reset
  · rw [hafter]
    exact ⟨hopens.2.1, rfl⟩
  · exact absurd hcontinues hopens.not_continues
  · exact absurd hopens hno

/-- In an open window the next message is handed over exactly when it carries
the next sequence id. -/
theorem hands_window {src : UInt32} {opened : ReliableAppContext} {since : List (Arrival Load)}
    (hopen : (opened.writerInfo src).lastRestTime ≠ 0) (hsince : accepted src opened since = [])
    {arrival : Arrival Load} (harrival : arrival.sync.srcId = src) :
    hands (opened.feed since) arrival = true ↔
      arrival.sync.enType.isData = true ∧ arrival.sync.seqId =
        (opened.writerInfo src).expectSeqId +
          UInt32.ofNat ((handed src opened since).length + 1) := by
  obtain ⟨hstill, hexpect, -⟩ := window_feed hopen hsince
  rw [hands_iff, Continues, harrival, hexpect, UInt32.ofNat_add, ← UInt32.add_assoc]
  exact ⟨fun hall => ⟨hall.1, hall.2.2⟩, fun hall => ⟨hall.1, hstill, hall.2⟩⟩

/-- For every source: nothing is handed over before a RESET is accepted; a RESET
is accepted exactly when its time is not zero and later than that of every RESET
accepted before; from one accepted RESET to the next the ids handed over are the
continuation of its id, and each is the first match that came; and what is kept,
accepted and handed over depends on the source's own messages only. -/
theorem delivers_exactly_once (src : UInt32) (arrivals : List (Arrival Load)) :
    (accepted src init arrivals = [] → handed src init arrivals = []) ∧
    (∀ before reset after, arrivals = before ++ reset :: after →
      reset.sync.srcId = src → reset.sync.enType = .reset →
      (accepts (init.feed before) reset = true ↔ reset.sync.sendTime ≠ 0 ∧
        ∀ earlier ∈ accepted src init before, earlier.sendTime < reset.sync.sendTime)) ∧
    (∀ before reset since after opened, arrivals = before ++ reset :: (since ++ after) →
      reset.sync.srcId = src → accepts (init.feed before) reset = true →
      opened = init.feed (before ++ [reset]) →
      accepted src opened since = [] →
      (handed src opened since).map PSS_SyncRouter.seqId =
        (List.range (handed src opened since).length).map
          (fun k => reset.sync.seqId + UInt32.ofNat (k + 1)) ∧
      (∀ past arrival later, since = past ++ arrival :: later → arrival.sync.srcId = src →
        (hands (opened.feed past) arrival = true ↔
          arrival.sync.enType.isData = true ∧ arrival.sync.seqId =
            reset.sync.seqId + UInt32.ofNat ((handed src opened past).length + 1))) ∧
      (∀ past idle arrival later, since = past ++ idle ++ arrival :: later →
        arrival.sync.srcId = src → hands (opened.feed (past ++ idle)) arrival = true →
        handed src (opened.feed past) idle = [] →
        ∀ earlier ∈ idle, earlier.sync.srcId = src → earlier.sync.enType.isData = true →
          earlier.sync.seqId ≠ arrival.sync.seqId)) ∧
    (AgreeOn src (init.feed arrivals) (init.feed (ownMessages src arrivals)) ∧
      accepted src init arrivals = accepted src init (ownMessages src arrivals) ∧
      handed src init arrivals = handed src init (ownMessages src arrivals)) := by
  refine ⟨?_, ?_, ?_, feed_own src arrivals⟩
  · intro hnone
    obtain ⟨-, -, hhanded⟩ | ⟨-, reset, hmem, -⟩ := (lastRestTime_feed src arrivals).2
    · exact hhanded
    · rw [hnone] at hmem
      cases hmem
  · intro before reset after _ hsrc hreset
    exact accepts_feed before hsrc hreset
  · intro before reset since after opened _ hsrc haccepts hopened hsince
    rw [feed_append] at hopened
    have hwindow := opened_window hsrc haccepts
    rw [← hopened] at hwindow
    -- every prefix of the window is one
    have hearly : ∀ past later, since = past ++ later → accepted src opened past = [] := by
      intro past later hsplit
      rw [hsplit, accepted, picked_append, List.append_eq_nil_iff] at hsince
      exact hsince.1
    refine ⟨?_, ?_, ?_⟩
    · rw [← hwindow.2]
      exact (window_feed hwindow.1 hsince).2.2
    · intro past arrival later hsplit harrival
      rw [← hwindow.2]
      exact hands_window hwindow.1 (hearly past _ hsplit) harrival
    · intro past idle arrival later hsplit harrival hhands hidle earlier hmem hearlier hdata hsame
      obtain ⟨front, back, rfl⟩ := List.append_of_mem hmem
      have hfront : handed src (opened.feed past) front = [] := by
        rw [handed, picked_append, List.append_eq_nil_iff] at hidle
        exact hidle.1
      have hnext := (hands_window hwindow.1 (hearly _ _ hsplit) harrival).mp hhands
      have hfirst : hands (opened.feed (past ++ front)) earlier = true := by
        refine (hands_window hwindow.1 (hearly (past ++ front)
          (earlier :: back ++ arrival :: later) (by simp [hsplit])) hearlier).mpr ⟨hdata, ?_⟩
        rw [hsame, hnext.2]
        simp only [handed, picked_append] at hidle hfront ⊢
        rw [hidle, hfront]
      rw [handed, picked_append, List.append_eq_nil_iff] at hidle
      have hmissed := hidle.2
      rw [picked, if_pos ⟨hearlier, by rw [← feed_append]; exact hfirst⟩] at hmissed
      cases hmissed

end ReliableAppContext

end ServiceFrame
