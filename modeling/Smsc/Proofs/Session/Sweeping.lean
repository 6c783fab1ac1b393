import Smsc.Proofs.Session.Deadlines

/-!
# Smsc.Proofs.Session.Sweeping — how old a request of the server gets

A request leaves the window by a sweep once it has its age, and the reader sweeps only while it waits.
The plan for the next sweep is never further away than one interval, neither from now nor from the
deadline of any entry, however late the last sweep was.

* `Dates s t`: what comes into the window bears the time and the patience of `s`; `stepCall_dates`,
  `step_dates`: every step;
* `step_nextSweep`: only a sweep changes the plan; `sweep_nextSweep`: how far it puts it off;
* `Scheduled s`, `step_scheduled`: the invariant that links the plan with every deadline;
* `Session.Swept`, `swept_in_time`: no entry goes early, and none is left behind.
-/

namespace Smsc

/-- An entry that the call still has to get will have so much time. -/
def CallStage.Patient (d : Duration) : CallStage → Prop
  | .queued _ p => p.expireTimeout = d
  | _ => True

namespace Session

open Window

variable {s t u : Session} {x : Step} {xs : List Step} {c : Call}

/-! ## What leaves the window -/

theorem disconnect_subset (hw : s.window.Sound) : s.disconnect.1.window.entries ⊆ s.window.entries := by
  show (if s.status = .closed then s.window else s.window.close.1).entries ⊆ _
  split
  · exact List.Subset.refl _
  · rw [close_entries hw]
    exact List.nil_subset _

theorem conclude_subset (hw : s.window.Sound) (c : Call) (r : Except SessionError Received) :
    (s.conclude c r).window.entries ⊆ s.window.entries := by
  have hends := disconnect_subset hw
  unfold conclude
  split
  · exact List.Subset.refl _
  · exact List.Subset.refl _
  · exact List.Subset.refl _
  · generalize s.disconnect = ur at hends
    obtain ⟨u, _ | _⟩ := ur <;> exact hends

theorem dropCall_subset (hw : s.window.Sound) (c : Call) :
    (s.dropCall c).window.entries ⊆ s.window.entries := by
  unfold dropCall
  split
  · exact List.Subset.refl _
  · exact List.Subset.refl _
  · exact (withdraw_turns _ hw _).subset
  · exact (withdraw_turns _ hw _).subset
  · exact List.Subset.refl _

/-- Nothing comes into the window when nobody gets a place in it. -/
theorem Passes.subset {old : Option Stake} (h : s.Passes t old none) (hw : s.window.Sound)
    (follows : s.window.Follows t.window) : t.window.entries ⊆ s.window.entries := by
  intro e he
  rcases follows.old e he with hold | hnew
  · exact hold
  · rcases h.trades.has (.entry e.id) ⟨e, he, rfl⟩ with hgot | ⟨⟨a, ha, hid⟩, -⟩
    · cases hgot
    · have hlt := hw.id_lt a ha
      omega

/-! ## What comes into the window -/

/-- From `s` to `t` entries leave, or come with the time and the patience of `s`. -/
def Dates (s t : Session) : Prop :=
  ∀ e ∈ t.window.entries, e ∈ s.window.entries ∨
    e.offeredAt = s.now ∧ e.expireAt = s.now + s.settings.expireTimeout.nanos

theorem Dates.of_subset (h : t.window.entries ⊆ s.window.entries) : s.Dates t := fun _ he => .inl (h he)

theorem Dates.leave (h : s.Dates t) (hleave : u.window.entries ⊆ t.window.entries) : s.Dates u :=
  fun e he => h e (hleave he)

theorem Dates.of_offering {key : UInt32} {frame : Frame} {o : Offered Frame}
    (h : s.window.Offering t.window s.now key frame s.settings.expireTimeout o) : s.Dates t := by
  cases h with
  | admitted e turns key_eq request_eq offeredAt_eq expireAt_eq =>
    intro a ha
    rcases turns.mem_iff.mp ha with ⟨ha, -⟩ | hfresh
    · exact .inl ha
    · obtain rfl := Option.some.inj hfresh
      exact .inr ⟨offeredAt_eq, expireAt_eq⟩
  | refused err turns => exact .of_subset turns.subset
  | waiting p turns => exact .of_subset turns.subset

/-- From `s` to `t` the call goes on, and what it offers has the patience of the settings. -/
structure CallDates (s : Session) (c : Call) (t : Session) : Prop where
  dates : s.Dates t
  offers : ∃ stage, t.calls = (s.setCall c.id stage).calls ∧ stage.Patient s.settings.expireTimeout

theorem conclude_dates (sound : t.window.Sound) (dates : s.Dates t) (calls : t.calls = s.calls)
    (r : Except SessionError Received) : s.CallDates c (t.conclude c r) := by
  obtain ⟨result, hcalls⟩ := conclude_calls t c r
  refine ⟨dates.leave (conclude_subset sound c r), .finished result, ?_, trivial⟩
  rw [hcalls, setCall, calls]
  rfl

theorem afterOffer_dates (hw : s.window.Sound) {key : UInt32} {request : Frame} {o : Offered Frame}
    (offering : s.window.Offering t.window s.now key request s.settings.expireTimeout o)
    (calls : t.calls = s.calls) (frame : Frame) : s.CallDates c (t.afterOffer c frame o) := by
  have hdates := Dates.of_offering offering
  cases offering with
  | admitted e => exact ⟨hdates, .writing frame e.id, by simp [afterOffer, setCall, measure, note, calls], trivial⟩
  | refused err turns => exact conclude_dates (t := t.measure _) (turns.sound hw) hdates calls _
  | waiting p turns key_eq request_eq expireTimeout_eq =>
    exact ⟨hdates, .queued frame p, by simp [afterOffer, setCall, calls], expireTimeout_eq⟩

theorem startCall_dates (hw : s.window.Sound) (c : Call) : s.CallDates c (s.startCall c) := by
  unfold startCall sendRequest offerFrame
  split
  · split
    · obtain ⟨hnow, hsettings⟩ := (sequenceFor_beside s c).timeless
      have hcalls := sequenceFor_calls s c
      have hwindow := sequenceFor_window s c
      generalize s.sequenceFor c = un at hnow hsettings hcalls hwindow ⊢
      obtain ⟨u, n⟩ := un
      dsimp only at hnow hsettings hcalls hwindow ⊢
      split
      · exact conclude_dates (hwindow ▸ hw) (.of_subset (by rw [hwindow]; exact List.Subset.refl _)) hcalls _
      · rename_i frame _
        have offering := offer_offering (w := u.window) u.now n frame u.settings.expireTimeout
          u.settings.offerTimeout
        generalize u.window.offer u.now n frame u.settings.offerTimeout u.settings.expireTimeout = wo
          at offering ⊢
        rw [hwindow, hnow, hsettings] at offering
        exact afterOffer_dates (t := { u with window := wo.1 }) hw offering hcalls frame
    · exact conclude_dates hw (.of_subset (List.Subset.refl _)) rfl _
  · exact conclude_dates hw (.of_subset (List.Subset.refl _)) rfl _

theorem writeCall_dates (hw : s.window.Sound) (c : Call) (frame : Frame) (entry : Nat) :
    s.CallDates c (s.writeCall c frame entry) := by
  obtain ⟨new, hsame, -⟩ := transmit_eq s frame
  have hwithdraws := withdraw_turns frame.sequence hw entry
  unfold writeCall
  generalize s.transmit frame = tr at hsame ⊢
  obtain ⟨u, e | _⟩ := tr
  all_goals
    dsimp only at hsame ⊢
    subst hsame
  · refine conclude_dates ?_ (.of_subset ?_) ?_ _
    · exact hwithdraws.sound hw
    · exact hwithdraws.subset
    · rfl
  · exact ⟨.of_subset (List.Subset.refl _), .awaiting frame _ _, rfl, trivial⟩

theorem awaitCall_dates (hs : s.Orderly) (hc : c ∈ s.calls) {frame : Frame} {since : Instant} {w : Waiter}
    (stage : c.stage = .awaiting frame since w) : s.CallDates c (s.awaitCall c frame since w) := by
  have hw := hs.sound
  have hcollecting := collect_collecting hw s.now w
  unfold awaitCall
  generalize s.window.collect s.now w = wr at hcollecting ⊢
  obtain ⟨window, found⟩ := wr
  dsimp only at hcollecting
  cases hcollecting with
  | waiting pending early same =>
    subst same
    refine ⟨.of_subset (List.Subset.refl _), c.stage, (setCall_self hs.call_ids hc).symm, ?_⟩
    rw [stage]
    trivial
  | released settled same =>
    subst same
    exact conclude_dates hw (.of_subset (List.Subset.refl _)) rfl _
  | missing pending late gone same =>
    subst same
    exact conclude_dates hw (.of_subset (List.Subset.refl _)) rfl _
  | timedOut e mem key_eq id_eq late turns =>
    refine conclude_dates ?_ (.of_subset ?_) ?_ _
    · exact turns.sound hw
    · exact turns.subset
    · rfl
  | response r settled same =>
    subst same
    dsimp only
    unfold respondCall
    split
    · refine conclude_dates ?_ (.of_subset ?_) ?_ _
      · exact (disconnect_keeps (s := s.measure _) hw fun _ => False).sound
      · exact disconnect_subset (s := s.measure _) hw
      · rfl
    · refine conclude_dates ?_ (.of_subset ?_) ?_ _
      · exact hw
      · exact List.Subset.refl _
      · rfl

theorem stepCall_dates (hs : s.Orderly) (hc : c ∈ s.calls) (patient : c.stage.Patient s.settings.expireTimeout) :
    s.CallDates c (s.stepCall c) := by
  unfold stepCall
  split
  · exact startCall_dates hs.sound c
  · rename_i frame p stage
    have offering := resume_offering (w := s.window) s.now p
    rw [stage] at patient
    rw [show p.expireTimeout = _ from patient] at offering
    exact afterOffer_dates (t := { s with window := (s.window.resume s.now p).1 }) hs.sound offering rfl frame
  · exact writeCall_dates hs.sound c _ _
  · exact awaitCall_dates hs hc ‹_›
  · rename_i result stage
    refine ⟨.of_subset (List.Subset.refl _), c.stage, (setCall_self hs.call_ids hc).symm, ?_⟩
    rw [stage]
    trivial

/-! ## Every step -/

theorem feel_subset (hw : s.window.Sound) (y : Stimulus) : (s.feel y).window.entries ⊆ s.window.entries := by
  have hfeels := feel_feels s y
  generalize s.feel y = t at hfeels
  cases hfeels with
  | aside _ same =>
    rw [same]
    exact List.Subset.refl _
  | drops c mem => exact dropCall_subset hw c
  | forgets a mem =>
    unfold dropAnswer
    split <;> exact List.Subset.refl _
  | ends => exact disconnect_subset hw
  | begins | answers | works => exact List.Subset.refl _

/-- Entries come with the steps of calls only, and bear the time and the patience of the settings. -/
theorem step_dates (hs : s.Orderly) (ha : s.window.Accounted)
    (patient : ∀ c ∈ s.calls, c.stage.Patient s.settings.expireTimeout) (x : Step) : s.Dates (s.step x) := by
  have hfollows := (step_turn hs x).follows hs
  cases x with
  | feel y => exact .of_subset (feel_subset hs.sound y)
  | move m =>
    have hmoves := step_moves s m
    generalize s.step (.move m) = t at hfollows hmoves ⊢
    cases hmoves with
    | reader m can => exact .of_subset (((moveReader_turn can).passes hs.sound ha).subset hs.sound hfollows)
    | call id c found mem => exact (stepCall_dates hs mem (patient c mem)).dates
    | answer id a => exact .of_subset (((stepAnswer_turn s a).passes hs.sound ha).subset hs.sound hfollows)
    | nothing => exact .of_subset (List.Subset.refl _)

theorem step_patient (hs : s.Orderly) (patient : ∀ c ∈ s.calls, c.stage.Patient s.settings.expireTimeout)
    (x : Step) : ∀ c ∈ (s.step x).calls, c.stage.Patient s.settings.expireTimeout := by
  intro b hb
  rcases mem_calls_step hs hb with hold | ⟨-, starting, -⟩ | ⟨c, hc, -, -, -, hstep⟩
  · exact patient b hold
  · rw [starting]
    trivial
  · obtain ⟨stage, hcalls, hstage⟩ := (stepCall_dates hs hc (patient c hc)).offers
    rw [hstep, hcalls] at hb
    rcases mem_setCall hs.call_ids hc hb with rfl | ⟨hb, -⟩
    · exact hstage
    · exact patient b hb

/-! ## The plan for the next sweep -/

theorem Beside.nextSweep {P : SessionEvent → Prop} (h : s.Beside P t) : t.nextSweep = s.nextSweep := by
  rw [h.same]

theorem Settles.nextSweep (h : s.Settles t) : t.nextSweep = s.nextSweep := by rw [h.same]

theorem feel_nextSweep (hw : s.window.Sound) (y : Stimulus) : (s.feel y).nextSweep = s.nextSweep := by
  have hfeels := feel_feels s y
  generalize s.feel y = t at hfeels
  cases hfeels with
  | aside _ same => rw [same]
  | drops c mem => exact (dropCall_step hw c).1.nextSweep
  | forgets a mem =>
    unfold dropAnswer
    split <;> rfl
  | ends | begins | answers | works => rfl

theorem ReaderTurn.nextSweep {m : ReaderMove} (h : s.ReaderTurn m t) (hm : m ≠ .sweep) :
    t.nextSweep = s.nextSweep := by
  cases h with
  | stops | wakes => rfl
  | reads stage _ reads =>
    cases reads with
    | frame f rest input handles => cases handles <;> rfl
    | fault | ends => rfl
  | sweeps => exact absurd rfl hm
  | refuses f stage u sends =>
    subst sends
    exact (Beside.transmit s f).nextSweep
  | answers f k plan stage u closes =>
    subst closes
    exact (closeReply_beside s k f).nextSweep
  | works k plan stage _ works =>
    cases works with
    | ends u same => rcases same with rfl | ⟨m, rfl⟩ <;> rfl
    | pauses | holds => rfl
    | answers u plan f settles | refused u plan settles => exact settles.nextSweep

theorem AnswerTurn.nextSweep {a : Answer} (h : s.AnswerTurn a t) : t.nextSweep = s.nextSweep := by
  cases h with
  | opens stage u f settles | refused stage u settles => exact settles.nextSweep
  | closes f stage u closes =>
    subst closes
    exact (closeReply_beside s a.responder f).nextSweep
  | rests => rfl

/-- Nothing but a sweep changes the plan for the next one. -/
theorem step_nextSweep (hs : s.Orderly) (hx : x ≠ .move (.reader .sweep)) :
    (s.step x).nextSweep = s.nextSweep := by
  cases x with
  | feel y => exact feel_nextSweep hs.sound y
  | move m =>
    have hhappens := hs.happens (.move m)
    generalize s.step (.move m) = t at hhappens
    cases hhappens with
    | reader m can _ turn => exact turn.nextSweep fun hm => hx (by rw [hm])
    | call id c mem _ step => exact step.beside.nextSweep
    | answer id a mem _ turn => exact turn.nextSweep
    | nothing => rfl

theorem can_sweep_iff : s.can (.reader .sweep) = true ↔ s.reader = .waiting ∧ s.nextSweep ≤ s.now := by
  cases hr : s.reader <;> simp [Session.can, readerCan, hr]

theorem step_sweep (can : s.can (.reader .sweep) = true) : s.step (.move (.reader .sweep)) = s.sweep := by
  rw [step_reader can]
  simp only [moveReader, (can_sweep_iff.mp can).1]

theorem sweep_window (s : Session) : s.sweep.window = (s.window.expire s.now).1 := by
  unfold sweep
  dsimp only
  split <;> rfl

/-- A sweep that is due puts the next one off by an interval at most, however late it is itself. -/
theorem sweep_nextSweep (due : s.nextSweep ≤ s.now) : s.sweep.nextSweep ≤ s.now + sweepInterval.nanos := by
  have hplan : s.sweep.nextSweep = if s.nextSweep + sweepTolerance.nanos < s.now
      then s.now + sweepInterval.nanos else s.nextSweep + sweepInterval.nanos := by
    unfold sweep
    dsimp only
    split <;> rfl
  rw [hplan]
  split
  · exact Nat.le_refl _
  · exact Nat.add_le_add_right due _

/-- A sweep takes the entries whose deadline has come, and no others. -/
theorem mem_sweep (hw : s.window.Sound) {e : Entry Frame} :
    e ∈ s.sweep.window.entries ↔ e ∈ s.window.entries ∧ s.now < e.expireAt := by
  rw [sweep_window, (expire_turns s.now hw).mem_iff]
  simp

theorem step_now_le (hs : s.Orderly) (x : Step) : s.now ≤ (s.step x).now := by
  by_cases helapse : ∃ d, x = .feel (.elapse d)
  · obtain ⟨d, rfl⟩ := helapse
    exact Nat.le_add_right _ _
  · exact Nat.le_of_eq (step_timeless hs fun d hx => helapse ⟨d, hx⟩).now.symm

/-! ## The invariant -/

/-- The plan for the next sweep reaches every deadline within an interval. -/
structure Scheduled (s : Session) : Prop where
  patient : ∀ c ∈ s.calls, c.stage.Patient s.settings.expireTimeout
  offered : ∀ e ∈ s.window.entries, e.offeredAt ≤ s.now
  deadline : ∀ e ∈ s.window.entries, e.expireAt = e.offeredAt + s.settings.expireTimeout.nanos
  soon : s.nextSweep ≤ s.now + sweepInterval.nanos
  reaches : ∀ e ∈ s.window.entries, s.nextSweep ≤ e.expireAt + sweepInterval.nanos

theorem fresh_scheduled (id : UInt32) (peer : Option SocketAddress) (serverSystemId : String)
    (settings : SessionSettings) (processor : Nat) (now : Instant) :
    (fresh id peer serverSystemId settings processor now).Scheduled where
  patient := by simp [fresh]
  offered := by simp [fresh, ofCapacity]
  deadline := by simp [fresh, ofCapacity]
  soon := Nat.le_add_right _ _
  reaches := by simp [fresh, ofCapacity]

/-- After a sweep the plan counts from now, and every deadline that is left is still to come. -/
theorem sweep_scheduled (hw : s.window.Sound) (h : s.Scheduled) (due : s.nextSweep ≤ s.now) :
    s.sweep.Scheduled := by
  obtain ⟨hnow, hsettings⟩ : s.Timeless s.sweep := by
    unfold sweep
    dsimp only
    split <;> exact ⟨rfl, rfl⟩
  have hplan := sweep_nextSweep due
  refine ⟨?_, fun e he => ?_, fun e he => ?_, ?_, fun e he => ?_⟩
  · rw [(sweep_calls s).1, hsettings]
    exact h.patient
  · rw [hnow]
    exact h.offered e ((mem_sweep hw).mp he).1
  · rw [hsettings]
    exact h.deadline e ((mem_sweep hw).mp he).1
  · rw [hnow]
    exact hplan
  · exact Nat.le_trans hplan (Nat.add_le_add_right (Nat.le_of_lt ((mem_sweep hw).mp he).2) _)

/-- Without a sweep the plan stays. An entry that comes has its deadline still before it. -/
theorem Scheduled.keep (hs : s.Orderly) (ha : s.window.Accounted) (h : s.Scheduled)
    (hx : x ≠ .move (.reader .sweep)) : (s.step x).Scheduled := by
  have hdates := step_dates hs ha h.patient x
  have hpatient := step_patient hs h.patient x
  have hnow := step_now_le hs x
  have hplan := step_nextSweep hs hx
  have hsettings := step_settings hs x
  refine ⟨by rw [hsettings]; exact hpatient, fun e he => ?_, fun e he => ?_, ?_, fun e he => ?_⟩
  · rcases hdates e he with hold | ⟨hoffered, -⟩
    · exact Nat.le_trans (h.offered e hold) hnow
    · rw [hoffered]
      exact hnow
  · rw [hsettings]
    rcases hdates e he with hold | ⟨hoffered, hexpires⟩
    · exact h.deadline e hold
    · rw [hoffered, hexpires]
  · rw [hplan]
    exact Nat.le_trans h.soon (Nat.add_le_add_right hnow _)
  · rw [hplan]
    rcases hdates e he with hold | ⟨-, hexpires⟩
    · exact h.reaches e hold
    · refine Nat.le_trans h.soon (Nat.add_le_add_right ?_ _)
      rw [hexpires]
      exact Nat.le_add_right _ _

theorem step_scheduled (hs : s.Orderly) (ha : s.window.Accounted) (h : s.Scheduled) (x : Step) :
    (s.step x).Scheduled := by
  by_cases hx : x = .move (.reader .sweep)
  · subst hx
    by_cases can : s.can (.reader .sweep) = true
    · rw [step_sweep can]
      exact sweep_scheduled hs.sound h (can_sweep_iff.mp can).2
    · rw [step, if_neg can]
      exact h
  · exact h.keep hs ha hx

theorem before_scheduled (hs : s.Orderly) (hc : s.Covered) (h : s.Scheduled) (k : Nat) :
    (s.before xs k).Scheduled := by
  refine (before_induct (P := fun t => t.Covered ∧ t.Scheduled) hs (fun t ht h x => ?_) (Nat.zero_le k)
    ⟨hc, h⟩).2
  exact ⟨step_covered ht h.1 x, step_scheduled ht h.1.accounted h.2 x⟩

/-! ## Along a run -/

/-- How old the requests of the server get along a run. -/
structure Swept (s : Session) (xs : List Step) : Prop where
  /-- A request that comes into the window was offered at that instant. -/
  offered : ∀ k, ∀ e ∈ (s.before xs (k + 1)).window.entries, e ∉ (s.before xs k).window.entries →
    e.offeredAt = (s.before xs k).now
  /-- A sweep takes exactly those that have waited for the expire timeout. -/
  never_early : ∀ k, xs[k]? = some (.move (.reader .sweep)) → (s.before xs k).can (.reader .sweep) = true →
    ∀ e, e ∈ (s.before xs (k + 1)).window.entries ↔ e ∈ (s.before xs k).window.entries ∧
      (s.before xs k).now < e.offeredAt + s.settings.expireTimeout.nanos
  /-- When nothing is left to do and the reader waits, none has waited for a second more than that. -/
  in_time : ∀ k, (s.before xs k).AtRest → (s.before xs k).reader = .waiting →
    ∀ e ∈ (s.before xs k).window.entries,
      (s.before xs k).now < e.offeredAt + s.settings.expireTimeout.nanos + (Duration.ofMillis 1000).nanos

/-- **Sweeping**: requests without response are reclaimed within one interval, and never early, however
long a processor keeps the reader from its sweeps. -/
theorem swept_in_time (id : UInt32) (peer : Option SocketAddress) (serverSystemId : String)
    (settings : SessionSettings) (processor : Nat) (now : Instant) (xs : List Step) :
    (fresh id peer serverSystemId settings processor now).Swept xs := by
  have hs := fresh_orderly id peer serverSystemId settings processor now
  have hc := fresh_covered id peer serverSystemId settings processor now
  have h := fresh_scheduled id peer serverSystemId settings processor now
  generalize fresh id peer serverSystemId settings processor now = s at hs hc h
  have scheduled (k : Nat) : (s.before xs k).Scheduled := before_scheduled hs hc h k
  refine ⟨fun k e he hnew => ?_, fun k hx can e => ?_, fun k rest waiting e he => ?_⟩
  · cases hx : xs[k]? with
    | none =>
      rw [before_succ_of_none hx] at he
      exact absurd he hnew
    | some x =>
      rw [before_succ hx] at he
      have hdates := step_dates (before_orderly hs k) (before_covered hs hc k).accounted (scheduled k).patient x
      exact ((hdates e he).resolve_left hnew).1
  · have hsettings : (s.before xs k).settings = s.settings := before_settings hs k
    rw [before_succ hx, step_sweep can, mem_sweep (before_orderly hs k).sound, ← hsettings]
    refine and_congr_right fun he => ?_
    rw [(scheduled k).deadline e he]
  · have undue : (s.before xs k).now < (s.before xs k).nextSweep := by
      rw [← Nat.not_le]
      intro due
      have can := can_sweep_iff.mpr ⟨waiting, due⟩
      rw [rest (.reader .sweep)] at can
      cases can
    have hreaches := (scheduled k).reaches e he
    rw [(scheduled k).deadline e he, before_settings hs k] at hreaches
    exact Nat.lt_of_lt_of_le undue hreaches

/-- The interval is needed. A processor keeps the reader for ten seconds, and the late sweep puts the next
one off by a full second; a request offered right after it, with no time at all, outlives it by a second but
a nanosecond. -/
example :
    let s := fresh 1 none "smsc" ⟨10, ⟨1000⟩, ⟨0⟩, ⟨1000⟩⟩ 0 0
    let late := s.after (greeting ++ [.feel (.arrive [0, 0, 0, 16, 0, 0, 0, 21, 0, 0, 0, 0, 0, 0, 0, 2]),
      .move (.reader .read), .feel (.begin ⟨[.pause (.ofSeconds 10)], .handled⟩), .move (.reader .proceed),
      .feel (.elapse (.ofSeconds 10)), .move (.reader .proceed), .move (.reader .proceed),
      .move (.reader .sweep), .feel (.send ⟨some 7, .enquireLink⟩ (.ofSeconds 5)), .move (.call 1),
      .move (.call 1), .feel (.elapse ⟨999999999⟩)])
    late.AtRest ∧ late.reader = .waiting ∧ late.window.entries.map (·.offeredAt) = [10000000000] ∧
      late.now = 10000000000 + 0 + 999999999 := by
  decide +kernel

end Session

end Smsc
