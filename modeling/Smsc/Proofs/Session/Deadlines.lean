import Smsc.Proofs.Session.Closing
import Smsc.Proofs.Window.Queue

/-!
# Smsc.Proofs.Session.Deadlines — how long a close takes

A close sends its unbind like any other request: it waits for capacity up to the offer timeout, and only
then for the response, up to its own timeout. Both deadlines are fixed when the wait begins, so that the
instant by which a call is over never moves back.

* `Timeless s t`, `step_timeless`: no step takes time but the one in which time passes;
* `Proceeds s c stage`, `stepCall_proceeds`: what a step of a call does to its deadline; `exists_wait`: a call
  always comes to a wait;
* `Session.overBy`: when a call is over at the latest; `InTime s c`: its deadline is still to come;
* `OnTime s id x`: in the step `x` no more time passes than the call has to wait; `step_inTime`: such a step
  leaves the call in time, and does not put `overBy` off; `Bounded`, `before_bounded`: nor does a run;
* `ClosesInTime s xs i`, `close_in_time`: every run in which the close goes on as soon as it can;
* `close_overdue`: with a full window the unbind timeout alone is no bound.
-/

namespace Smsc

/-- How many steps a call has before it at most. -/
def CallStage.rank : CallStage → Nat
  | .starting => 4
  | .queued .. => 3
  | .writing .. => 2
  | .awaiting .. => 1
  | .finished _ => 0

theorem CallStage.rank_le (stage : CallStage) : stage.rank ≤ 4 := by cases stage <;> simp [rank]

/-- The call waits for capacity. -/
def CallStage.IsQueued (stage : CallStage) : Prop := ∃ frame p, stage = .queued frame p

/-- The call has come to its end. -/
def CallStage.IsFinished (stage : CallStage) : Prop := ∃ result, stage = .finished result

instance (stage : CallStage) : Decidable stage.IsFinished :=
  match stage with
  | .finished result => isTrue ⟨result, rfl⟩
  | .starting | .queued .. | .writing .. | .awaiting .. => isFalse (by rintro ⟨_, ⟨⟩⟩)

namespace Session

open Window

variable {s t u : Session} {x : Step} {xs : List Step} {c : Call} {patience : Nat}

instance (s : Session) (id : Nat) : Decidable (s.IsOver id) :=
  inferInstanceAs (Decidable (∃ c ∈ s.calls, c.id = id ∧ c.stage.IsFinished))

/-! ## Time -/

/-- From `s` to `t` no time passes, and the settings stay. -/
structure Timeless (s t : Session) : Prop where
  now : t.now = s.now
  settings : t.settings = s.settings

theorem Beside.timeless {P : SessionEvent → Prop} (h : s.Beside P t) : s.Timeless t :=
  ⟨by rw [h.same], by rw [h.same]⟩

theorem Settles.timeless (h : s.Settles t) : s.Timeless t := ⟨by rw [h.same], by rw [h.same]⟩

theorem ReaderTurn.timeless {m : ReaderMove} (h : s.ReaderTurn m t) : s.Timeless t := by
  cases h with
  | stops | wakes => exact ⟨rfl, rfl⟩
  | reads stage _ reads =>
    cases reads with
    | frame f rest input handles => cases handles <;> exact ⟨rfl, rfl⟩
    | fault | ends => exact ⟨rfl, rfl⟩
  | sweeps =>
    unfold sweep
    dsimp only
    split <;> exact ⟨rfl, rfl⟩
  | refuses f stage u sends =>
    subst sends
    obtain ⟨now, settings⟩ := (Beside.transmit s f).timeless
    exact ⟨now, settings⟩
  | answers f k plan stage u closes =>
    subst closes
    obtain ⟨now, settings⟩ := (closeReply_beside s k f).timeless
    exact ⟨now, settings⟩
  | works k plan stage _ works =>
    cases works with
    | ends u same => rcases same with rfl | ⟨m, rfl⟩ <;> exact ⟨rfl, rfl⟩
    | pauses | holds => exact ⟨rfl, rfl⟩
    | answers u plan f settles | refused u plan settles => exact ⟨settles.timeless.now, settles.timeless.settings⟩

theorem AnswerTurn.timeless {a : Answer} (h : s.AnswerTurn a t) : s.Timeless t := by
  cases h with
  | opens stage u f settles | refused stage u settles => exact ⟨settles.timeless.now, settles.timeless.settings⟩
  | closes f stage u closes =>
    subst closes
    obtain ⟨now, settings⟩ := (closeReply_beside s a.responder f).timeless
    exact ⟨now, settings⟩
  | rests => exact ⟨rfl, rfl⟩

theorem feel_timeless (hw : s.window.Sound) {y : Stimulus} (still : ∀ d, y ≠ .elapse d) :
    s.Timeless (s.feel y) := by
  cases y with
  | elapse d => exact absurd rfl (still d)
  | drop id =>
    rw [feel]
    split
    · exact (dropCall_step hw _).1.timeless
    · exact ⟨rfl, rfl⟩
  | arrive | endInput | begin =>
    simp only [feel, beginWork]
    split <;> exact ⟨rfl, rfl⟩
  | forget id =>
    simp only [feel, dropAnswer]
    split
    · split <;> exact ⟨rfl, rfl⟩
    · exact ⟨rfl, rfl⟩
  | _ => exact ⟨rfl, rfl⟩

/-- No step takes time but the one in which time passes. -/
theorem step_timeless (hs : s.Orderly) (still : ∀ d, x ≠ .feel (.elapse d)) : s.Timeless (s.step x) := by
  cases x with
  | feel y => exact feel_timeless hs.sound fun d hy => still d (by rw [hy])
  | move m =>
    have hhappens := hs.happens (.move m)
    generalize s.step (.move m) = t at hhappens
    cases hhappens with
    | reader m can _ turn => exact turn.timeless
    | call id c mem _ step => exact step.beside.timeless
    | answer id a mem _ turn => exact turn.timeless
    | nothing => exact ⟨rfl, rfl⟩

theorem step_settings (hs : s.Orderly) (x : Step) : (s.step x).settings = s.settings := by
  by_cases helapse : ∃ d, x = .feel (.elapse d)
  · obtain ⟨d, rfl⟩ := helapse
    rfl
  · exact (step_timeless hs fun d hx => helapse ⟨d, hx⟩).settings

/-! ## Deadlines -/

/-- Where a step leads a call, and what becomes of its deadline. -/
inductive Proceeds (s : Session) (c : Call) : CallStage → Prop where
  | stays (waits : s.callIsReady c = false) : Proceeds s c c.stage
  | queues (frame : Frame) (p : PendingOffer Frame) (starting : c.stage = .starting)
      (deadline : p.deadline = s.now + s.settings.offerTimeout.nanos) : Proceeds s c (.queued frame p)
  | admits (frame : Frame) (entry : Nat) (unplaced : c.stage.IsUnplaced) :
      Proceeds s c (.writing frame entry)
  | writes (frame : Frame) (entry : Nat) (stage : c.stage = .writing frame entry) :
      Proceeds s c (.awaiting frame s.now ⟨frame.sequence, entry, s.now + c.timeout.nanos⟩)
  | ends (result : CallResult) : Proceeds s c (.finished result)

/-- An offer that still waits is as it was, and there was nothing for it yet. -/
theorem resume_waiting {w : Window Frame Frame} {now : Instant} {p q : PendingOffer Frame}
    (h : (w.resume now p).2 = .waiting q) : q = p ∧ p.isReady w now = false := by
  have hresuming := resume_resuming w now p
  generalize w.resume now p = wo at hresuming h
  cases hresuming with
  | waiting unclosed queued early =>
    refine ⟨(Offered.waiting.inj h).symm, ?_⟩
    simp [PendingOffer.isReady, Permits.isSettled, unclosed, queued, early]
  | closed | admitted | keyTaken | timedOut => cases h

theorem offer_waiting {w : Window Frame Frame} {now : Instant} {key : UInt32} {frame : Frame}
    {offerTimeout expireTimeout : Duration} {p : PendingOffer Frame}
    (h : (w.offer now key frame offerTimeout expireTimeout).2 = .waiting p) :
    p.deadline = now + offerTimeout.nanos := by
  unfold offer at h
  split at h
  · cases h
  · split at h
    · simp only [placeOffer] at h
      split at h <;> cases h
    · cases h
    · rw [(resume_waiting h).1]

/-- From `s` to `t` the call proceeds. -/
def CallProceeds (s : Session) (c : Call) (t : Session) : Prop :=
  ∃ stage, t.calls = (s.setCall c.id stage).calls ∧ s.Proceeds c stage

theorem conclude_proceeds (calls : u.calls = s.calls) (r : Except SessionError Received) :
    s.CallProceeds c (u.conclude c r) := by
  obtain ⟨result, hcalls⟩ := conclude_calls u c r
  exact ⟨.finished result, by rw [hcalls, setCall, calls]; rfl, .ends result⟩

theorem afterOffer_proceeds (calls : u.calls = s.calls) (frame : Frame) {o : Offered Frame}
    (unplaced : c.stage.IsUnplaced) (waits : ∀ p, o = .waiting p → s.Proceeds c (.queued frame p)) :
    s.CallProceeds c (u.afterOffer c frame o) := by
  cases o with
  | admitted entry =>
    exact ⟨.writing frame entry, by simp [afterOffer, setCall, measure, note, calls], .admits frame entry unplaced⟩
  | refused e => exact conclude_proceeds (u := u.measure (.windowOffer "rejected")) calls _
  | waiting p => exact ⟨.queued frame p, by simp [afterOffer, setCall, calls], waits p rfl⟩

theorem startCall_proceeds (starting : c.stage = .starting) : s.CallProceeds c (s.startCall c) := by
  unfold startCall sendRequest offerFrame
  split
  · split
    · obtain ⟨hnow, hsettings⟩ := (sequenceFor_beside s c).timeless
      have hcalls := sequenceFor_calls s c
      generalize s.sequenceFor c = un at hnow hsettings hcalls ⊢
      obtain ⟨u, n⟩ := un
      dsimp only at hnow hsettings hcalls ⊢
      split
      · exact conclude_proceeds hcalls _
      · rename_i frame _
        generalize hoffer : u.window.offer u.now n frame u.settings.offerTimeout u.settings.expireTimeout = wo
        refine afterOffer_proceeds (u := { u with window := wo.1 }) hcalls frame (.inl starting) fun p hp => ?_
        have hdeadline := offer_waiting (by rw [hoffer]; exact hp)
        exact .queues frame p starting (by rw [hdeadline, hnow, hsettings])
    · exact conclude_proceeds rfl _
  · exact conclude_proceeds rfl _

theorem writeCall_proceeds {frame : Frame} {entry : Nat} (stage : c.stage = .writing frame entry) :
    s.CallProceeds c (s.writeCall c frame entry) := by
  obtain ⟨new, hsame, -⟩ := transmit_eq s frame
  unfold writeCall
  generalize s.transmit frame = tr at hsame ⊢
  obtain ⟨u, _ | _⟩ := tr
  all_goals
    dsimp only at hsame ⊢
    subst hsame
  · refine conclude_proceeds ?_ _
    rfl
  · exact ⟨_, rfl, .writes frame entry stage⟩

theorem awaitCall_proceeds (hs : s.Orderly) (hc : c ∈ s.calls) {frame : Frame} {since : Instant} {w : Waiter}
    (stage : c.stage = .awaiting frame since w) : s.CallProceeds c (s.awaitCall c frame since w) := by
  have hcollecting := collect_collecting hs.sound s.now w
  unfold awaitCall
  generalize s.window.collect s.now w = wr at hcollecting ⊢
  obtain ⟨window, found⟩ := wr
  dsimp only at hcollecting
  cases hcollecting with
  | waiting pending early =>
    have unready : s.callIsReady c = false := by simp [callIsReady, stage, Waiter.isReady, pending, early]
    exact ⟨c.stage, (setCall_self hs.call_ids hc).symm, .stays unready⟩
  | released | missing =>
    refine conclude_proceeds ?_ _
    rfl
  | timedOut =>
    refine conclude_proceeds ?_ _
    rfl
  | response r =>
    dsimp only
    unfold respondCall
    refine conclude_proceeds ?_ _
    split <;> rfl

theorem stepCall_proceeds (hs : s.Orderly) (hc : c ∈ s.calls) : s.CallProceeds c (s.stepCall c) := by
  unfold stepCall
  split
  · exact startCall_proceeds ‹_›
  · rename_i frame p stage
    generalize hresume : s.window.resume s.now p = wo
    obtain ⟨w, o⟩ := wo
    dsimp only
    refine afterOffer_proceeds (s := s) (u := { s with window := w }) rfl frame (.inr ⟨frame, p, stage⟩)
      fun q hq => ?_
    obtain ⟨rfl, unready⟩ : q = p ∧ p.isReady s.window s.now = false :=
      resume_waiting (by rw [hresume]; exact hq)
    rw [← stage]
    exact .stays (by rw [callIsReady, stage]; exact unready)
  · exact writeCall_proceeds ‹_›
  · exact awaitCall_proceeds hs hc ‹_›
  · rename_i result stage
    exact ⟨c.stage, (setCall_self hs.call_ids hc).symm, .stays (by simp [callIsReady, stage])⟩

/-! ## When a call is over -/

/-- When the call is over at the latest, if it waits for capacity no longer than `patience` from now. -/
def overBy (s : Session) (patience : Nat) (c : Call) : Instant :=
  match c.stage with
  | .starting => s.now + patience + c.timeout.nanos
  | .queued _ p => p.deadline + c.timeout.nanos
  | .writing .. => s.now + c.timeout.nanos
  | .awaiting _ _ w => w.deadline
  | .finished _ => s.now

/-- The deadline of the call is still to come, and no response is awaited for longer than its timeout. -/
structure InTime (s : Session) (c : Call) : Prop where
  queued : ∀ f p, c.stage = .queued f p → s.now ≤ p.deadline
  awaiting : ∀ f since w, c.stage = .awaiting f since w →
    s.now ≤ w.deadline ∧ w.deadline ≤ s.now + c.timeout.nanos

theorem InTime.of_starting (stage : c.stage = .starting) : s.InTime c := ⟨by simp [stage], by simp [stage]⟩

theorem InTime.of_finished (h : c.stage.IsFinished) : s.InTime c := by
  obtain ⟨result, stage⟩ := h
  exact ⟨by simp [stage], by simp [stage]⟩

theorem InTime.now_le (h : s.InTime c) : s.now ≤ s.overBy patience c := by
  unfold overBy
  split
  · lia
  · have := h.queued _ _ ‹_›
    lia
  · lia
  · exact (h.awaiting _ _ _ ‹_›).1
  · exact Nat.le_refl _

/-- A call without capacity has its whole timeout before it. -/
theorem InTime.now_le_of_unplaced (h : s.InTime c) (patience : Nat) (unplaced : c.stage.IsUnplaced) :
    s.now + c.timeout.nanos ≤ s.overBy patience c := by
  unfold overBy
  rcases unplaced with stage | ⟨f, p, stage⟩ <;> rw [stage]
  · dsimp only
    lia
  · have := h.queued f p stage
    dsimp only
    lia

/-- A call that has capacity has no more than its timeout before it. -/
theorem InTime.overBy_le_of_placed (h : s.InTime c) (patience : Nat) (placed : ¬ c.stage.IsUnplaced) :
    s.overBy patience c ≤ s.now + c.timeout.nanos := by
  unfold overBy
  split
  · exact absurd (.inl ‹_›) placed
  · exact absurd (.inr ⟨_, _, ‹_›⟩) placed
  · exact Nat.le_refl _
  · exact (h.awaiting _ _ _ ‹_›).2
  · lia

theorem Timeless.inTime (h : s.Timeless t) (hc : s.InTime c) : t.InTime c := by
  refine ⟨?_, ?_⟩ <;> rw [h.now]
  · exact hc.queued
  · exact hc.awaiting

theorem Timeless.overBy (h : s.Timeless t) : t.overBy patience c = s.overBy patience c := by
  unfold Session.overBy
  rw [h.now]

namespace Proceeds

variable {stage : CallStage}

theorem inTime (h : s.Proceeds c stage) (hc : s.InTime c) : s.InTime { c with stage } := by
  cases h with
  | stays => exact hc
  | queues frame p starting deadline =>
    refine ⟨?_, by simp⟩
    rintro f q ⟨⟩
    lia
  | writes frame entry stage =>
    refine ⟨by simp, ?_⟩
    rintro f since w ⟨⟩
    exact ⟨Nat.le_add_right _ _, Nat.le_refl _⟩
  | admits | ends => exact ⟨by simp, by simp⟩

theorem overBy_le (h : s.Proceeds c stage) (hc : s.InTime c) (going : ¬ stage.IsFinished)
    (patient : stage.IsQueued → s.settings.offerTimeout.nanos ≤ patience) :
    s.overBy patience { c with stage } ≤ s.overBy patience c := by
  cases h with
  | stays => exact Nat.le_refl _
  | queues frame p starting deadline =>
    have hpatience := patient ⟨frame, p, rfl⟩
    simp only [overBy, starting, deadline]
    lia
  | admits frame entry unplaced => exact hc.now_le_of_unplaced patience unplaced
  | writes frame entry stage => simp [overBy, stage]
  | ends result => exact absurd ⟨result, rfl⟩ going

/-- A call that is able to go on gets further. -/
theorem rank_lt (h : s.Proceeds c stage) (ready : s.callIsReady c = true) : stage.rank < c.stage.rank := by
  cases h with
  | stays waits => simp [waits] at ready
  | queues frame p starting => simp [CallStage.rank, starting]
  | admits frame entry unplaced =>
    rcases unplaced with starting | ⟨f, p, queued⟩
    · simp [CallStage.rank, starting]
    · simp [CallStage.rank, queued]
  | writes frame entry writing => simp [CallStage.rank, writing]
  | ends result => cases hstage : c.stage <;> simp [CallStage.rank, callIsReady, hstage] at ready ⊢

end Proceeds

/-- A possible move of a call brings it further. -/
theorem step_rank (hs : s.Orderly) {id : Nat} (can : s.can (.call id) = true) :
    ∃ c ∈ s.calls, c.id = id ∧ 0 < c.stage.rank ∧
      ∀ b ∈ (s.step (.move (.call id))).calls, b.id = id → b.stage.rank < c.stage.rank := by
  cases found : s.findCall? id with
  | none => simp [Session.can, found] at can
  | some c =>
    have hc : c ∈ s.calls := List.mem_of_find?_eq_some found
    have hid : c.id = id := by simpa using List.find?_some found
    have ready : s.callIsReady c = true := by simpa [Session.can, found] using can
    obtain ⟨stage, hcalls, hproceeds⟩ := stepCall_proceeds hs hc
    have hless := hproceeds.rank_lt ready
    refine ⟨c, hc, hid, Nat.zero_lt_of_lt hless, fun b hb hbid => ?_⟩
    rw [step_call found can, hcalls] at hb
    rcases mem_setCall hs.call_ids hc hb with rfl | ⟨-, hne⟩
    · exact hless
    · exact absurd (hbid.trans hid.symm) hne

/-- A call does not go on for ever: after four steps at the latest it has to wait for somebody else. -/
theorem exists_wait (hs : s.Orderly) (id : Nat) :
    ∃ n ≤ 4, (s.after (List.replicate n (.move (.call id)))).can (.call id) = false := by
  suffices hrank : ∀ r, ∀ t : Session, t.Orderly → (∀ c ∈ t.calls, c.id = id → c.stage.rank ≤ r) →
      ∃ n ≤ r, (t.after (List.replicate n (.move (.call id)))).can (.call id) = false from
    hrank 4 s hs fun c _ _ => c.stage.rank_le
  intro r
  induction r with
  | zero =>
    intro t ht hrank
    refine ⟨0, Nat.le_refl _, Bool.eq_false_iff.mpr fun can => ?_⟩
    obtain ⟨c, hc, hid, hpos, -⟩ := step_rank ht can
    exact Nat.not_lt_of_le (hrank c hc hid) hpos
  | succ r ih =>
    intro t ht hrank
    by_cases can : t.can (.call id) = true
    · obtain ⟨c, hc, hid, -, hless⟩ := step_rank ht can
      obtain ⟨n, hn, hwaits⟩ := ih (t.step (.move (.call id))) (step_orderly ht _) fun b hb hbid =>
        Nat.le_of_lt_succ (Nat.lt_of_lt_of_le (hless b hb hbid) (hrank c hc hid))
      exact ⟨n + 1, Nat.succ_le_succ hn, hwaits⟩
    · exact ⟨0, Nat.zero_le _, Bool.eq_false_iff.mpr can⟩

/-! ## Steps -/

/-- The time that passes in a step. -/
def Step.elapsed? : Step → Option Duration
  | .feel (.elapse d) => some d
  | _ => none

/-- No time passes in the step while writes hang, and no more of it than the call `id` has to wait. -/
def OnTime (s : Session) (id : Nat) (x : Step) : Prop :=
  ∀ d ∈ x.elapsed?, s.channel.isStalled = false ∧ ∀ n < d.nanos, (s.feel (.elapse ⟨n⟩)).can (.call id) = false

instance (s : Session) (id : Nat) (x : Step) : Decidable (s.OnTime id x) :=
  inferInstanceAs (Decidable (∀ d ∈ x.elapsed?, _))

/-- No more time passes than up to the instant at which the call is able to go on. -/
theorem OnTime.le {d : Duration} (h : s.OnTime c.id (.feel (.elapse d))) (hs : s.Orderly) (hc : c ∈ s.calls)
    {due : Instant} (early : s.now ≤ due)
    (ready : ∀ n, due ≤ s.now + n → (s.feel (.elapse ⟨n⟩)).callIsReady c = true) :
    s.now + d.nanos ≤ due := by
  by_contra late
  -- Time would have passed although the call was able to go on at `due`.
  have hcan := (h d rfl).2 (due - s.now) (by lia)
  have hfound : (s.feel (.elapse ⟨due - s.now⟩)).findCall? c.id = some c := findCall?_of_mem hs.call_ids hc
  rw [can, hfound] at hcan
  rw [Option.any_some, ready (due - s.now) (by lia)] at hcan
  cases hcan

/-- Time passes, and no deadline of the call with it. -/
theorem elapse_inTime (hs : s.Orderly) (hc : c ∈ s.calls) (patience : Nat) {d : Duration}
    (onTime : s.OnTime c.id (.feel (.elapse d))) (h : s.InTime c) (going : ¬ c.stage.IsFinished) :
    (s.feel (.elapse d)).InTime c ∧ (s.feel (.elapse d)).overBy patience c ≤ s.overBy patience c := by
  have hnow : (s.feel (.elapse d)).now = s.now + d.nanos := rfl
  cases stage : c.stage with
  | starting =>
    have hle := onTime.le hs hc (Nat.le_refl _) fun n _ => by simp [callIsReady, stage]
    refine ⟨.of_starting stage, ?_⟩
    simp only [overBy, stage, hnow]
    lia
  | queued f p =>
    have hle := onTime.le hs hc (h.queued f p stage) fun n hn => by
      simp [feel, callIsReady, stage, PendingOffer.isReady, hn]
    refine ⟨⟨?_, by simp [stage]⟩, by simp [overBy, stage]⟩
    intro f' p' stage'
    obtain ⟨-, rfl⟩ : f = f' ∧ p = p' := by simpa [stage] using stage'
    exact hle
  | writing f n =>
    have hle := onTime.le hs hc (Nat.le_refl _) fun n _ => by
      simp [feel, callIsReady, stage, (onTime d rfl).1]
    refine ⟨⟨by simp [stage], by simp [stage]⟩, ?_⟩
    simp only [overBy, stage, hnow]
    lia
  | awaiting f since w =>
    obtain ⟨hdue, hlimit⟩ := h.awaiting f since w stage
    have hle := onTime.le hs hc hdue fun n hn => by
      simp [feel, callIsReady, stage, Waiter.isReady, hn]
    refine ⟨⟨by simp [stage], ?_⟩, by simp [overBy, stage]⟩
    intro f' since' w' stage'
    obtain ⟨-, -, rfl⟩ : f = f' ∧ since = since' ∧ w = w' := by simpa [stage] using stage'
    exact ⟨hle, by rw [hnow]; lia⟩
  | finished result => exact absurd ⟨result, stage⟩ going

/-- Whatever happens, a call stays in time, and is over no later than it would have been. -/
theorem step_inTime (hs : s.Orderly) (hc : c ∈ s.calls) (onTime : s.OnTime c.id x) (h : s.InTime c) {b : Call}
    (hb : b ∈ (s.step x).calls) (hid : b.id = c.id) (going : ¬ b.stage.IsFinished)
    (patient : b.stage.IsQueued → s.settings.offerTimeout.nanos ≤ patience) :
    (s.step x).InTime b ∧ (s.step x).overBy patience b ≤ s.overBy patience c ∧ b.timeout = c.timeout := by
  rcases eq_or_own_step hs hc hb hid with rfl | ⟨hx, -, hstep⟩
  -- The call is left alone: only the clock can bring its deadline nearer.
  · by_cases helapse : ∃ d, x = .feel (.elapse d)
    · obtain ⟨d, rfl⟩ := helapse
      obtain ⟨hintime, hover⟩ := elapse_inTime hs hc patience onTime h going
      exact ⟨hintime, hover, rfl⟩
    · have htimeless := step_timeless hs fun d hx => helapse ⟨d, hx⟩
      exact ⟨htimeless.inTime h, Nat.le_of_eq htimeless.overBy, rfl⟩
  · have htimeless := step_timeless (x := x) hs (by simp [hx])
    obtain ⟨stage, hcalls, hproceeds⟩ := stepCall_proceeds hs hc
    rw [hstep, hcalls] at hb
    rcases mem_setCall hs.call_ids hc hb with rfl | ⟨-, hne⟩
    · refine ⟨htimeless.inTime (hproceeds.inTime h), ?_, rfl⟩
      rw [htimeless.overBy]
      exact hproceeds.overBy_le h going patient
    · exact absurd hid hne

/-- A call that is not over was not over before. -/
theorem going_of_step (hs : s.Orderly) (hc : c ∈ s.calls) {b : Call} (hb : b ∈ (s.step x).calls)
    (hid : b.id = c.id) (going : ¬ b.stage.IsFinished) : ¬ c.stage.IsFinished := by
  rintro ⟨result, stage⟩
  rcases eq_or_own_step hs hc hb hid with rfl | ⟨-, ready, -⟩
  · exact going ⟨result, stage⟩
  · simp [callIsReady, stage] at ready

/-- Unless it has ended, the call `id` is in time, and over by `limit` at the latest. -/
def Bounded (s : Session) (patience id : Nat) (timeout : Duration) (limit : Instant) : Prop :=
  ∀ c ∈ s.calls, c.id = id → ¬ c.stage.IsFinished →
    s.InTime c ∧ s.overBy patience c ≤ limit ∧ c.timeout = timeout

theorem step_bounded (hs : s.Orderly) {id : Nat} {timeout : Duration} {limit : Instant}
    (old : id < s.nextTask) (onTime : s.OnTime id x)
    (patient : ∀ b ∈ (s.step x).calls, b.id = id → b.stage.IsQueued →
      s.settings.offerTimeout.nanos ≤ patience)
    (h : s.Bounded patience id timeout limit) : (s.step x).Bounded patience id timeout limit := by
  intro b hb hid going
  -- The id is not new, so the call was there before the step.
  obtain ⟨a, ha, haid⟩ := exists_previous hs hb (by rw [hid]; exact old)
  obtain ⟨hintime, hover, htimeout⟩ := h a ha (haid.trans hid) (going_of_step hs ha hb haid.symm going)
  have honTime : s.OnTime a.id x := by rwa [haid, hid]
  obtain ⟨hintime', hover', htimeout'⟩ :=
    step_inTime hs ha honTime hintime hb haid.symm going (patient b hb hid)
  exact ⟨hintime', Nat.le_trans hover' hover, htimeout'.trans htimeout⟩

/-- A call is there until it is given up. -/
theorem step_keeps (hs : s.Orderly) (hc : c ∈ s.calls) (kept : x ≠ .feel (.drop c.id)) :
    ∃ b ∈ (s.step x).calls, b.id = c.id ∧ b.purpose = c.purpose := by
  have same (t : Session) (calls : t.calls = s.calls) : ∃ b ∈ t.calls, b.id = c.id ∧ b.purpose = c.purpose :=
    ⟨c, by rw [calls]; exact hc, rfl, rfl⟩
  cases x with
  | feel y =>
    cases y with
    | send | close => exact ⟨c, List.mem_append_left _ hc, rfl, rfl⟩
    | drop id =>
      have hne : c.id ≠ id := fun h => kept (by rw [h])
      show ∃ b ∈ (s.feel (.drop id)).calls, _
      rw [feel]
      cases found : s.findCall? id with
      | none => exact same _ rfl
      | some d =>
        have hid : d.id = id := by simpa using List.find?_some found
        dsimp only
        rw [(dropCall_step hs.sound d).2.1, hid]
        exact ⟨c, List.mem_filter.mpr ⟨hc, by simpa using hne⟩, rfl, rfl⟩
    | arrive | endInput | begin =>
      refine same _ ?_
      simp only [step, feel, beginWork]
      split <;> rfl
    | forget id =>
      refine same _ ?_
      simp only [step, feel, dropAnswer]
      split
      · split <;> rfl
      · rfl
    | _ => exact same _ rfl
  | move m =>
    have hmoves := step_moves s m
    generalize s.step (.move m) = t at hmoves
    cases hmoves with
    | reader m can => exact same _ (moveReader_turn can).calls
    | call id d found mem id_eq ready =>
      obtain ⟨stage, hcalls, -⟩ := stepCall_proceeds hs mem
      rw [hcalls]
      refine ⟨_, List.mem_map.mpr ⟨c, hc, rfl⟩, ?_⟩
      split <;> exact ⟨rfl, rfl⟩
    | answer id a => exact same _ (stepAnswer_turn s a).calls
    | nothing => exact same _ rfl

/-! ## Runs -/

/-- From the step `i` of the run `xs` on, writes do not hang, and the call `id` goes on as soon as it can. -/
def Punctual (s : Session) (xs : List Step) (i id : Nat) : Prop :=
  ∀ k, (h : k < xs.length) → i ≤ k → (s.before xs k).OnTime id xs[k]

instance (s : Session) (xs : List Step) (i id : Nat) : Decidable (s.Punctual xs i id) :=
  inferInstanceAs (Decidable (∀ k, (_ : k < xs.length) → _))

/-- The call `id` is not given up between the steps `i` and `j` of the run `xs`. -/
def Undropped (xs : List Step) (i j id : Nat) : Prop := ∀ k, i ≤ k → k < j → xs[k]? ≠ some (.feel (.drop id))

theorem before_settings (hs : s.Orderly) (k : Nat) : (s.before xs k).settings = s.settings :=
  before_induct (P := fun t => t.settings = s.settings) hs
    (fun _ ht h x => (step_settings ht x).trans h) (Nat.zero_le k) rfl

/-- A call that goes on as soon as it can is over no later than it would have been at any time before. -/
theorem before_bounded (hs : s.Orderly) (patience : Nat) {i j : Nat} (hij : i ≤ j)
    (hc : c ∈ (s.before xs i).calls) (h : (s.before xs i).InTime c) (punctual : s.Punctual xs i c.id)
    (patient : ∀ k, i < k → k ≤ j → ∀ b ∈ (s.before xs k).calls, b.id = c.id → b.stage.IsQueued →
      s.settings.offerTimeout.nanos ≤ patience) :
    (s.before xs j).Bounded patience c.id c.timeout ((s.before xs i).overBy patience c) := by
  have hi : (s.before xs i).Orderly := before_orderly hs i
  have hbegins : (s.before xs i).Bounded patience c.id c.timeout ((s.before xs i).overBy patience c) := by
    intro b hb hid _
    obtain rfl : b = c := List.inj_on_of_nodup_map hi.call_ids hb hc hid
    exact ⟨h, Nat.le_refl _, rfl⟩
  suffices hboth : c.id < (s.before xs j).nextTask ∧
      (s.before xs j).Bounded patience c.id c.timeout ((s.before xs i).overBy patience c) from hboth.2
  refine stateAt_induct (P := fun t : Session => c.id < t.nextTask ∧
    t.Bounded patience c.id c.timeout ((s.before xs i).overBy patience c)) hij
    (fun k x hik hkj hx ih => ?_) ⟨hi.call_lt c hc, hbegins⟩
  have ht : (s.before xs k).Orderly := before_orderly hs k
  have honTime : (s.before xs k).OnTime c.id x := by
    obtain ⟨hk, rfl⟩ := List.getElem?_eq_some_iff.mp hx
    exact punctual k hk hik
  have hpatient := patient (k + 1) (by omega) hkj
  rw [before_succ hx, ← before_settings hs k] at hpatient
  exact ⟨Nat.lt_of_lt_of_le ih.1 (step_turn ht x).tasks, step_bounded ht ih.1 honTime hpatient ih.2⟩

theorem before_keeps (hs : s.Orderly) {i j : Nat} (hij : i ≤ j) (hc : c ∈ (s.before xs i).calls)
    (kept : Undropped xs i j c.id) : ∃ b ∈ (s.before xs j).calls, b.id = c.id ∧ b.purpose = c.purpose := by
  refine stateAt_induct (P := fun t : Session => ∃ b ∈ t.calls, b.id = c.id ∧ b.purpose = c.purpose) hij
    (fun k x hik hkj hx ih => ?_) ⟨c, hc, rfl, rfl⟩
  obtain ⟨a, ha, haid, hapurpose⟩ := ih
  obtain ⟨b, hb, hid, hpurpose⟩ := step_keeps (before_orderly hs k) ha (x := x) fun h => by
    rw [haid] at h
    exact kept k hik hkj (by rw [hx, h])
  exact ⟨b, hb, hid.trans haid, hpurpose.trans hapurpose⟩

/-- The close `id` has come to its end, and the session with it. -/
def HasClosed (s : Session) (id : Nat) : Prop := s.IsOver id ∧ s.status = .closed

instance (s : Session) (id : Nat) : Decidable (s.HasClosed id) := inferInstanceAs (Decidable (_ ∧ _))

/-- In the run `xs` from `s` the close that begins with the step `i` ends in time. -/
structure ClosesInTime (s : Session) (xs : List Step) (i : Nat) : Prop where
  /-- At any time it is able to go on for four steps at most, and then has to wait. -/
  rests : ∀ j, ∃ n ≤ 4, ((s.before xs j).after
    (List.replicate n (.move (.call (s.before xs i).nextTask)))).can (.call (s.before xs i).nextTask) = false
  /-- It waits for capacity up to the offer timeout, -/
  waits : ∀ j, i < j → ∀ c ∈ (s.before xs j).calls, c.id = (s.before xs i).nextTask →
    c.stage.IsUnplaced → (s.before xs j).now ≤ (s.before xs i).now + s.settings.offerTimeout.nanos
  /-- and once it has capacity, it is over within the unbind timeout, and so is the session. -/
  answers : ∀ l j, i < l → l ≤ j → Undropped xs i j (s.before xs i).nextTask →
    (∀ c ∈ (s.before xs l).calls, c.id = (s.before xs i).nextTask → ¬ c.stage.IsUnplaced) →
    (s.before xs l).now + s.settings.unbindTimeout.nanos < (s.before xs j).now →
    (s.before xs j).HasClosed (s.before xs i).nextTask
  /-- If it never has to wait for capacity, all that takes no longer than the unbind timeout. -/
  direct : ∀ j, i < j → Undropped xs i j (s.before xs i).nextTask →
    (∀ k, i < k → k ≤ j → ∀ c ∈ (s.before xs k).calls, c.id = (s.before xs i).nextTask →
      ¬ c.stage.IsQueued) →
    (s.before xs i).now + s.settings.unbindTimeout.nanos < (s.before xs j).now →
    (s.before xs j).HasClosed (s.before xs i).nextTask
  /-- In any case it takes no longer than both timeouts together. -/
  bounded : ∀ j, i < j → Undropped xs i j (s.before xs i).nextTask →
    (s.before xs i).now + s.settings.offerTimeout.nanos + s.settings.unbindTimeout.nanos <
      (s.before xs j).now →
    (s.before xs j).HasClosed (s.before xs i).nextTask

section Close

variable (hs : s.Orderly) {i j : Nat} (hx : xs[i]? = some (.feel .close))
  (punctual : s.Punctual xs i (s.before xs i).nextTask)
include hs hx

/-- A close has the unbind timeout, and has not begun to wait. -/
theorem close_begins : ∃ c ∈ (s.before xs (i + 1)).calls, c.id = (s.before xs i).nextTask ∧
    c.purpose = .close ∧ c.timeout = s.settings.unbindTimeout ∧ c.stage = .starting := by
  rw [before_succ hx, ← before_settings hs i]
  exact ⟨_, List.mem_append_right _ (List.mem_singleton.mpr rfl), rfl, rfl, rfl, rfl⟩

theorem hasClosed_of_late (h : s.Obeys) (hij : i < j) (kept : Undropped xs i j (s.before xs i).nextTask)
    {limit : Instant} (late : limit < (s.before xs j).now)
    (going : ∀ b ∈ (s.before xs j).calls, b.id = (s.before xs i).nextTask → ¬ b.stage.IsFinished →
      (s.before xs j).now ≤ limit) : (s.before xs j).HasClosed (s.before xs i).nextTask := by
  have obeys : (s.before xs j).Obeys :=
    before_induct (P := Obeys) hs (fun _ ht h x => step_obeys ht h x) (Nat.zero_le j) h
  obtain ⟨c, hc, hid, close, -⟩ := close_begins hs hx
  obtain ⟨b, hb, hbid, hpurpose⟩ := before_keeps hs hij hc fun k hik hkj => by
    rw [hid]
    exact kept k (Nat.le_of_succ_le hik) hkj
  by_cases finished : b.stage.IsFinished
  · obtain ⟨result, stage⟩ := finished
    exact ⟨⟨b, hb, hbid.trans hid, result, stage⟩, (obeys b hb (hpurpose.trans close)).2 result stage⟩
  · exact absurd late (Nat.not_lt_of_le (going b hb (hbid.trans hid) finished))

include punctual

/-- How long a close takes that waits for capacity no longer than `patience`. -/
theorem close_bounded (patience : Nat) (hij : i < j)
    (patient : ∀ k, i < k → k ≤ j → ∀ b ∈ (s.before xs k).calls, b.id = (s.before xs i).nextTask →
      b.stage.IsQueued → s.settings.offerTimeout.nanos ≤ patience) :
    (s.before xs j).Bounded patience (s.before xs i).nextTask s.settings.unbindTimeout
      ((s.before xs i).now + patience + s.settings.unbindTimeout.nanos) := by
  obtain ⟨c, hc, hid, -, htimeout, starting⟩ := close_begins hs hx
  have hnow : (s.before xs (i + 1)).now = (s.before xs i).now := by
    rw [before_succ hx]
    rfl
  have hover : (s.before xs (i + 1)).overBy patience c =
      (s.before xs i).now + patience + s.settings.unbindTimeout.nanos := by
    simp only [overBy, starting, hnow, htimeout]
  rw [← hid] at punctual patient ⊢
  rw [← hover, ← htimeout]
  exact before_bounded hs patience hij hc (.of_starting starting) (fun k hk hik => punctual k hk (by omega))
    fun k hik => patient k (by omega)

/-- A close that has capacity is over within the unbind timeout. -/
theorem now_le_of_placed {l : Nat} (hil : i < l) (hlj : l ≤ j)
    (kept : Undropped xs i l (s.before xs i).nextTask)
    (placed : ∀ c ∈ (s.before xs l).calls, c.id = (s.before xs i).nextTask → ¬ c.stage.IsUnplaced) {b : Call}
    (hb : b ∈ (s.before xs j).calls) (hid : b.id = (s.before xs i).nextTask) (going : ¬ b.stage.IsFinished) :
    (s.before xs j).now ≤ (s.before xs l).now + s.settings.unbindTimeout.nanos := by
  have bounded {k : Nat} (hik : i < k) := close_bounded hs hx punctual s.settings.offerTimeout.nanos hik
    fun _ _ _ _ _ _ _ => Nat.le_refl _
  -- The call that has capacity at `l` is the one that is under way at `j`.
  obtain ⟨c, hc, hcid, -⟩ := close_begins hs hx
  obtain ⟨a, ha, haid, -⟩ := before_keeps hs (j := l) hil hc fun k hik hkl => by
    rw [hcid]
    exact kept k (Nat.le_of_succ_le hik) hkl
  rw [hcid] at haid
  have haintime : (s.before xs l).InTime a := by
    by_cases finished : a.stage.IsFinished
    · exact .of_finished finished
    · exact (bounded hil a ha haid finished).1
  have punctual' : s.Punctual xs l a.id := fun k hk hlk => by
    rw [haid]
    exact punctual k hk (by omega)
  obtain ⟨hintime, hover, htimeout⟩ := before_bounded hs s.settings.offerTimeout.nanos hlj ha haintime punctual'
    (fun _ _ _ _ _ _ _ => Nat.le_refl _) b hb (hid.trans haid.symm) going
  have hplaced := haintime.overBy_le_of_placed s.settings.offerTimeout.nanos (placed a ha haid)
  rw [← htimeout, (bounded (by omega) b hb hid going).2.2] at hplaced
  exact Nat.le_trans hintime.now_le (Nat.le_trans hover hplaced)

end Close

/-- **Closing takes its time**: in every run in which time passes only as long as a close has to wait, it
is over within the offer timeout and the unbind timeout. -/
theorem close_in_time (id : UInt32) (peer : Option SocketAddress) (serverSystemId : String)
    (settings : SessionSettings) (processor : Nat) (now : Instant) (xs : List Step) (i : Nat)
    (hx : xs[i]? = some (.feel .close))
    (punctual : (fresh id peer serverSystemId settings processor now).Punctual xs i
      ((fresh id peer serverSystemId settings processor now).before xs i).nextTask) :
    (fresh id peer serverSystemId settings processor now).ClosesInTime xs i := by
  have hs := fresh_orderly id peer serverSystemId settings processor now
  have hobeys : (fresh id peer serverSystemId settings processor now).Obeys := by simp [Obeys, fresh]
  generalize fresh id peer serverSystemId settings processor now = s at hs hobeys punctual
  have bounded {j : Nat} (hij : i < j) := close_bounded hs hx punctual s.settings.offerTimeout.nanos hij
    fun _ _ _ _ _ _ _ => Nat.le_refl _
  refine ⟨fun j => exists_wait (before_orderly hs j) _, fun j hij c hc hid unplaced => ?_,
    fun l j hil hlj kept placed late => ?_, fun j hij kept unqueued late => ?_, fun j hij kept late => ?_⟩
  · have going : ¬ c.stage.IsFinished := by
      rintro ⟨result, stage⟩
      rcases unplaced with h | ⟨f, p, h⟩ <;> simp [stage] at h
    obtain ⟨hintime, hover, htimeout⟩ := bounded hij c hc hid going
    have hrest := hintime.now_le_of_unplaced s.settings.offerTimeout.nanos unplaced
    rw [htimeout] at hrest
    lia
  · refine hasClosed_of_late hs hx hobeys (by omega) kept late fun b hb hid going => ?_
    exact now_le_of_placed hs hx punctual hil hlj (fun k hik hkl => kept k hik (by omega)) placed hb hid going
  · refine hasClosed_of_late hs hx hobeys hij kept late fun b hb hid going => ?_
    obtain ⟨hintime, hover, -⟩ := close_bounded hs hx punctual 0 hij
      (fun k hik hkj a ha haid queued => absurd queued (unqueued k hik hkj a ha haid)) b hb hid going
    exact Nat.le_trans hintime.now_le hover
  · refine hasClosed_of_late hs hx hobeys hij kept late fun b hb hid going => ?_
    obtain ⟨hintime, hover, -⟩ := bounded hij b hb hid going
    exact Nat.le_trans hintime.now_le hover

/-- A close finds the only place in the window taken. It gets it when the offer timeout is all but over, and
then no response. -/
def longFarewell : List Step :=
  greeting ++ [.feel (.send ⟨some 7, .enquireLink⟩ ⟨4⟩), .move (.call 1), .move (.call 1), .feel .close,
    .move (.call 2), .feel (.elapse ⟨3⟩), .feel (.elapse ⟨1⟩), .move (.call 1), .move (.call 2),
    .move (.call 2), .feel (.elapse ⟨2⟩), .move (.call 2)]

theorem longFarewell_in_time :
    let s := fresh 1 none "smsc" ⟨1, ⟨4⟩, ⟨1000⟩, ⟨2⟩⟩ 0 0
    longFarewell[10]? = some (.feel .close) ∧ s.Punctual longFarewell 10 (s.before longFarewell 10).nextTask ∧
      s.ClosesInTime longFarewell 10 ∧
      (s.before longFarewell 10).now = 0 ∧ (s.before longFarewell 18).now = 6 ∧
      (s.before longFarewell 18).status = .bound ∧ (s.after longFarewell).HasClosed 2 :=
  ⟨rfl, by decide +kernel,
    close_in_time 1 none "smsc" ⟨1, ⟨4⟩, ⟨1000⟩, ⟨2⟩⟩ 0 0 longFarewell 10 rfl (by decide +kernel),
    by decide +kernel, by decide +kernel, by decide +kernel, by decide +kernel⟩

/-- The unbind timeout alone is no bound: it is over, and the session is still bound and at rest, and its
close has not even sent its unbind. -/
theorem close_overdue :
    let s := fresh 1 none "smsc" ⟨1, ⟨4⟩, ⟨1000⟩, ⟨2⟩⟩ 0 0
    longFarewell[10]? = some (.feel .close) ∧ s.Punctual longFarewell 10 (s.before longFarewell 10).nextTask ∧
      (s.before longFarewell 10).status = .bound ∧
      (s.before longFarewell 10).now + s.settings.unbindTimeout.nanos < (s.before longFarewell 13).now ∧
      (s.before longFarewell 13).AtRest ∧ (s.before longFarewell 13).status = .bound ∧
      ¬ (s.before longFarewell 13).IsOver (s.before longFarewell 10).nextTask := by
  decide +kernel

end Session

end Smsc
