import Smsc.Proofs.Session.Correlation
import Smsc.Proofs.Session.Ending
import Smsc.Proofs.Window.Capacity

/-!
# Smsc.Proofs.Session.Places — who has a place in the window

Entries and tickets belong to calls. A call gives up what it has when it ends, however it ends, and a
session that ends closes its window.

* `CallStage.stake?`: what a call has in the window;
* `Passes s t old new`: from `s` to `t` a caller gives `old` up and gets `new`, and a session that ends
  closes its window; `stepCall_passes`, `dropCall_passes`;
* `Shifts s t`, `step_shifts`: every step; `mem_calls_step`: a call changes in its own steps only;
* `Covered s`, `before_covered`: every entry and every ticket has its call, in every state of a run.
-/

namespace Smsc

/-- What a call has in the window. -/
def CallStage.stake? : CallStage → Option Stake
  | .queued _ p => some (.ticket p.ticket)
  | .writing _ entry => some (.entry entry)
  | .awaiting _ _ x => some (.entry x.id)
  | _ => none

theorem CallStage.stake?_eq_entry {stage : CallStage} {n : Nat} :
    stage.stake? = some (.entry n) ↔ ∃ f, stage.entry? = some (f, n) := by
  cases stage <;> simp [stake?, entry?]

/-- The call is begun by the step. A close asks for an unbind. -/
inductive Call.AskedBy (c : Call) : Session.Step → Prop where
  | send (purpose : c.purpose = .request) : AskedBy c (.feel (.send c.request c.timeout))
  | close (purpose : c.purpose = .close) (request : c.request = .unbind) : AskedBy c (.feel .close)

namespace Session

open Window

variable {s t u : Session} {old mid new : Option Stake}

/-- From `s` to `t` a caller gives `old` up and gets `new`. A session that ends tells its channel to
disconnect, and leaves a window that is closed and empty. -/
structure Passes (s t : Session) (old new : Option Stake) : Prop where
  sound : t.window.Sound
  trades : s.window.Trades t.window old new
  disconnects : s.channel.disconnects ≤ t.channel.disconnects
  ends : t.status = .closed → s.status = .closed ∨
    t.window.entries = [] ∧ t.window.permits.isClosed = true ∧ 0 < t.channel.disconnects

namespace Passes

/-- The window changes, and the session goes on. -/
theorem of_trades (sound : t.window.Sound) (trades : s.window.Trades t.window old new)
    (disconnects : t.channel.disconnects = s.channel.disconnects) (status : t.status = s.status) :
    s.Passes t old new :=
  ⟨sound, trades, Nat.le_of_eq disconnects.symm, fun closed => .inl (status.symm.trans closed)⟩

/-- Neither the window nor the end of the session is touched. -/
theorem keep {r : Option Stake} (hw : s.window.Sound) (ha : s.window.Accounted) (window : t.window = s.window)
    (disconnects : t.channel.disconnects = s.channel.disconnects) (status : t.status = s.status) :
    s.Passes t r r where
  sound := by rw [window]; exact hw
  trades := by rw [window]; exact .keep ha r
  disconnects := Nat.le_of_eq disconnects.symm
  ends closed := .inl (status.symm.trans closed)

theorem trans (h : s.Passes t old mid) (h' : t.Passes u mid new) : s.Passes u old new where
  sound := h'.sound
  trades := h.trades.trans h'.trades
  disconnects := Nat.le_trans h.disconnects h'.disconnects
  ends closed := by
    rcases h'.ends closed with hclosed | hended
    · rcases h.ends hclosed with hclosed | ⟨hempty, hshut, hcut⟩
      · exact .inl hclosed
      · exact .inr ⟨h'.trades.empty hshut hempty, (h'.trades.closed hshut).1,
          Nat.lt_of_lt_of_le hcut h'.disconnects⟩
    · exact .inr hended

theorem disconnect (hw : s.window.Sound) (ha : s.window.Accounted) :
    s.Passes s.disconnect.1 none none := by
  have hdisconnects : s.disconnect.1.channel.disconnects = s.channel.disconnects + 1 := rfl
  by_cases hclosed : s.status = .closed
  · have hwindow : s.disconnect.1.window = s.window := if_pos hclosed
    refine ⟨by rw [hwindow]; exact hw, by rw [hwindow]; exact .keep ha none, by omega, fun _ => .inl hclosed⟩
  · have hwindow : s.disconnect.1.window = s.window.close.1 := if_neg hclosed
    refine ⟨?_, ?_, by omega, fun _ => .inr ⟨?_, ?_, by omega⟩⟩
    · rw [hwindow]
      exact (close_turns hw).sound hw
    · rw [hwindow]
      exact close_trades hw ha
    · rw [hwindow, close_entries hw]
    · rw [hwindow, close_isClosed hw ha]

theorem accounted (h : s.Passes t old new) : t.window.Accounted := h.trades.accounted

/-- What happens beside the window and the end of the session does not count. -/
theorem aside (h : s.Passes t old new) (window : u.window = t.window)
    (disconnects : u.channel.disconnects = t.channel.disconnects) (status : u.status = t.status) :
    s.Passes u old new :=
  h.trans (.keep h.sound h.accounted window disconnects status)

end Passes

/-! ## A step of a call -/

/-- The call goes on to another stage, and to what it has there. -/
def CallPasses (s : Session) (c : Call) (t : Session) : Prop :=
  ∃ stage, t.calls = (s.setCall c.id stage).calls ∧ s.Passes t c.stage.stake? stage.stake?

/-- A call that ends gives up what it has. -/
theorem conclude_passes {c : Call} {e : SessionError} (h : s.Passes t c.stage.stake? none)
    (calls : t.calls = s.calls) : s.CallPasses c (t.conclude c (.error e)) := by
  have hends : s.Passes t.disconnect.1 c.stage.stake? none := h.trans (.disconnect h.sound h.accounted)
  unfold conclude
  split
  · exact absurd ‹Except.error e = .ok _› (by simp)
  · rename_i e' _ _
    exact ⟨.finished (.failed e'), by simp [setCall, calls], h.aside rfl rfl rfl⟩
  · exact absurd ‹Except.error e = .ok _› (by simp)
  · split
    · rename_i v hv
      obtain rfl : v = t.disconnect.1 := by rw [hv]
      exact ⟨.finished .closed, by simp [setCall, disconnect, calls], hends.aside rfl rfl rfl⟩
    · rename_i v e hv
      obtain rfl : v = t.disconnect.1 := by rw [hv]
      exact ⟨.finished (.failed (.channel e)), by simp [setCall, disconnect, calls], hends.aside rfl rfl rfl⟩

theorem afterOffer_passes {c : Call} {o : Offered Frame} (h : s.Passes t c.stage.stake? o.stake?)
    (calls : t.calls = s.calls) (frame : Frame) : s.CallPasses c (t.afterOffer c frame o) := by
  cases o with
  | admitted entry =>
    exact ⟨.writing frame entry, by simp [afterOffer, setCall, measure, note, calls],
      h.aside rfl rfl rfl⟩
  | refused e =>
    have hmeasured : s.Passes (t.measure (.windowOffer "rejected")) c.stage.stake? none :=
      h.aside rfl rfl rfl
    exact conclude_passes hmeasured calls
  | waiting p =>
    exact ⟨.queued frame p, by simp [afterOffer, setCall, calls], h.aside rfl rfl rfl⟩

theorem startCall_passes (hw : s.window.Sound) (ha : s.window.Accounted) {c : Call}
    (starting : c.stage = .starting) : s.CallPasses c (s.startCall c) := by
  have hnothing : c.stage.stake? = none := by rw [starting]; rfl
  have hfails (u : Session) (window : u.window = s.window) (channel : u.channel = s.channel)
      (status : u.status = s.status) (calls : u.calls = s.calls) {e : SessionError} :
      s.CallPasses c (u.conclude c (.error e)) := by
    refine conclude_passes ?_ calls
    rw [hnothing]
    exact .keep hw ha window (by rw [channel]) status
  unfold startCall sendRequest offerFrame
  split
  · split
    · have hsame : (s.sequenceFor c).1 = { s with lastSequence := (s.sequenceFor c).1.lastSequence } := by
        unfold sequenceFor
        split <;> rfl
      generalize s.sequenceFor c = un at hsame ⊢
      obtain ⟨u, n⟩ := un
      dsimp only at hsame ⊢
      split
      · exact hfails u (by rw [hsame]) (by rw [hsame]) (by rw [hsame]) (by rw [hsame])
      · rename_i frame _
        have hwindow : u.window = s.window := by rw [hsame]
        have offering := offer_offering (w := u.window) u.now n frame u.settings.expireTimeout
          u.settings.offerTimeout
        have trades := offer_trades (w := u.window) u.now n frame u.settings.expireTimeout
          (by rw [hwindow]; exact ha) u.settings.offerTimeout
        generalize u.window.offer u.now n frame u.settings.offerTimeout u.settings.expireTimeout = wo
          at offering trades ⊢
        obtain ⟨w, o⟩ := wo
        rw [hwindow] at offering trades
        have hsound : w.Sound := by
          cases offering with
          | admitted e turns => exact turns.sound hw
          | refused err turns => exact turns.sound hw
          | waiting p turns => exact turns.sound hw
        refine afterOffer_passes (t := { u with window := w }) ?_ (by rw [hsame]) frame
        rw [hnothing]
        exact .of_trades hsound trades (by rw [hsame]) (by rw [hsame])
    · exact hfails s rfl rfl rfl rfl
  · exact hfails s rfl rfl rfl rfl

theorem writeCall_passes (hs : s.Orderly) (ha : s.window.Accounted) {c : Call} (hc : c ∈ s.calls)
    {frame : Frame} {entry : Nat} (stage : c.stage = .writing frame entry) :
    s.CallPasses c (s.writeCall c frame entry) := by
  have hw := hs.sound
  have hstake : c.stage.stake? = some (.entry entry) := by rw [stage]; rfl
  have hkey : ∀ e ∈ s.window.entries, e.id = entry → e.key = frame.sequence := fun e he hid =>
    (hs.entry_key c hc frame entry (by rw [stage]; rfl) e he hid).1
  obtain ⟨log, hsame, -⟩ := transmit_eq s frame
  unfold writeCall
  generalize s.transmit frame = tr at hsame ⊢
  obtain ⟨u, _ | _⟩ := tr
  all_goals
    dsimp only at hsame ⊢
    subst hsame
  · refine conclude_passes ?_ rfl
    rw [hstake]
    exact .of_trades ((withdraw_turns frame.sequence hw entry).sound hw)
      (withdraw_trades frame.sequence hw ha hkey) rfl rfl
  · refine ⟨.awaiting frame s.now ⟨frame.sequence, entry, s.now + c.timeout.nanos⟩, rfl, ?_⟩
    rw [hstake]
    show s.Passes _ (some (.entry entry)) (some (.entry entry))
    exact .keep hw ha rfl rfl rfl

theorem collect_sound (hw : s.window.Sound) (x : Waiter) : (s.window.collect s.now x).1.Sound := by
  have hcol := collect_collecting hw s.now x
  generalize s.window.collect s.now x = wr at hcol ⊢
  obtain ⟨w, r⟩ := wr
  dsimp only at hcol ⊢
  cases hcol with
  | response _ _ same | released _ same | missing _ _ _ same | waiting _ _ same => rw [same]; exact hw
  | timedOut e he hk hid hlate turns => exact turns.sound hw

theorem awaitCall_passes (hs : s.Orderly) (ha : s.window.Accounted) {c : Call} (hc : c ∈ s.calls)
    {frame : Frame} {since : Instant} {x : Waiter} (stage : c.stage = .awaiting frame since x) :
    s.CallPasses c (s.awaitCall c frame since x) := by
  have hstake : c.stage.stake? = some (.entry x.id) := by rw [stage]; rfl
  have hkey : ∀ e ∈ s.window.entries, e.id = x.id → e.key = x.key := by
    intro e he hid
    rw [(hs.entry_key c hc frame x.id (by rw [stage]; rfl) e he hid).1]
    exact ((hs.fits c hc).waiter frame since x stage).symm
  have trades := collect_trades hs.sound ha s.now hkey
  have hsound := collect_sound hs.sound x
  rw [← hstake] at trades
  unfold awaitCall
  generalize s.window.collect s.now x = wr at trades hsound ⊢
  obtain ⟨w, _ | found⟩ := wr
  · refine ⟨c.stage, (setCall_self hs.call_ids hc).symm, .of_trades hsound ?_ rfl rfl⟩
    rw [hstake] at trades ⊢
    exact trades
  · have hgives : s.Passes { s with window := w } c.stage.stake? none := .of_trades hsound trades rfl rfl
    cases found with
    | error e =>
      cases e with
      | timeout key =>
        exact conclude_passes (t := measure { s with window := w } _) (hgives.aside rfl rfl rfl) rfl
      | _ => exact conclude_passes hgives rfl
    | ok response =>
      dsimp only
      unfold respondCall
      rw [conclude_ok]
      have hmeasured : s.Passes (measure { s with window := w }
          (.requestDuration frame.command.name (.between since s.now))) c.stage.stake? none :=
        hgives.aside rfl rfl rfl
      refine ⟨.finished (c.purpose.resultOf (.ofFrame response)), ?_, ?_⟩
      · split <;> simp [setCall, disconnect, measure, note]
      · split
        · exact (hmeasured.trans (.disconnect hmeasured.sound hmeasured.accounted)).aside rfl rfl rfl
        · exact hmeasured.aside rfl rfl rfl

theorem stepCall_passes (hs : s.Orderly) (ha : s.window.Accounted) {c : Call} (hc : c ∈ s.calls) :
    s.CallPasses c (s.stepCall c) := by
  unfold stepCall
  split
  · rename_i stage
    exact startCall_passes hs.sound ha stage
  · rename_i frame p stage
    have hstake : c.stage.stake? = some (.ticket p.ticket) := by rw [stage]; rfl
    have offering := resume_offering (w := s.window) s.now p
    have trades := resume_trades s.now ha p
    rw [← hstake] at trades
    generalize s.window.resume s.now p = wo at offering trades ⊢
    obtain ⟨w, o⟩ := wo
    have hsound : w.Sound := by
      cases offering with
      | admitted e turns => exact turns.sound hs.sound
      | refused err turns => exact turns.sound hs.sound
      | waiting p turns => exact turns.sound hs.sound
    exact afterOffer_passes (t := { s with window := w }) (.of_trades hsound trades rfl rfl) rfl frame
  · rename_i frame entry stage
    exact writeCall_passes hs ha hc stage
  · rename_i frame since x stage
    exact awaitCall_passes hs ha hc stage
  · exact ⟨c.stage, (setCall_self hs.call_ids hc).symm, .keep hs.sound ha rfl rfl rfl⟩

/-- A call that is dropped gives up what it has at once. -/
theorem dropCall_passes (hs : s.Orderly) (ha : s.window.Accounted) {c : Call} (hc : c ∈ s.calls) :
    s.Passes (s.dropCall c) c.stage.stake? none := by
  have hw := hs.sound
  have hwithdraw {frame : Frame} {n : Nat} (hentry : c.stage.entry? = some (frame, n)) :
      s.Passes { s with
        calls := s.calls.filter (·.id ≠ c.id), window := (s.window.withdraw frame.sequence n).1 }
        (some (.entry n)) none :=
    .of_trades ((withdraw_turns frame.sequence hw n).sound hw)
      (withdraw_trades frame.sequence hw ha fun e he hid => (hs.entry_key c hc frame n hentry e he hid).1)
      rfl rfl
  unfold dropCall
  dsimp only
  split
  · rename_i stage
    rw [stage]
    exact .keep hw ha rfl rfl rfl
  · rename_i frame p stage
    rw [stage]
    exact .of_trades ((abandon_turns p).sound hw) (abandon_trades ha p) rfl rfl
  · rename_i frame entry stage
    rw [stage]
    exact hwithdraw (by rw [stage]; rfl)
  · rename_i frame since x stage
    rw [stage]
    exact hwithdraw (by rw [stage]; rfl)
  · rename_i result stage
    rw [stage]
    exact .keep hw ha rfl rfl rfl

/-! ## Every step -/

/-- A step as the places in the window see it. -/
inductive Shifts (s t : Session) : Prop where
  | apart (calls : t.calls = s.calls) (passes : s.Passes t none none)
  | begins (c : Call) (stage : c.stage = .starting) (calls : t.calls = s.calls ++ [c])
      (passes : s.Passes t none none)
  | drops (c : Call) (mem : c ∈ s.calls) (calls : t.calls = s.calls.filter (·.id ≠ c.id))
      (passes : s.Passes t c.stage.stake? none)
  | goes (c : Call) (mem : c ∈ s.calls) (stage : CallStage) (calls : t.calls = (s.setCall c.id stage).calls)
      (passes : s.Passes t c.stage.stake? stage.stake?)

theorem Shifts.passes (h : s.Shifts t) : ∃ old new, s.Passes t old new := by
  cases h with
  | apart calls passes => exact ⟨_, _, passes⟩
  | begins c stage calls passes => exact ⟨_, _, passes⟩
  | drops c mem calls passes => exact ⟨_, _, passes⟩
  | goes c mem stage calls passes => exact ⟨_, _, passes⟩

section Step

variable (hw : s.window.Sound) (ha : s.window.Accounted)
include hw ha

theorem Settles.passes (h : s.Settles u) (window : t.window = u.window) (channel : t.channel = u.channel)
    (status : t.status = u.status) : s.Passes t none none := by
  have hwindow : t.window = s.window := window.trans h.window
  have hdisconnects : t.channel.disconnects = s.channel.disconnects := by rw [channel, h.same]
  refine ⟨by rw [hwindow]; exact hw, by rw [hwindow]; exact .keep ha none, Nat.le_of_eq hdisconnects.symm,
    fun closed => .inl ?_⟩
  rcases h.status with hstatus | ⟨-, hbound⟩
  · rw [← hstatus, ← status, closed]
  · rw [status, hbound] at closed
    cases closed

theorem transmit_passes (f : Frame) : s.Passes (s.transmit f).1 none none := by
  obtain ⟨log, hsame, -⟩ := transmit_eq s f
  rw [hsame]
  exact .keep hw ha rfl rfl rfl

theorem closeReply_passes (k : Nat) (f : Frame) : s.Passes (s.closeReply k f) none none := by
  have htransmit := transmit_passes hw ha f
  rcases closeReply_cases s k f with h | h <;> rw [h]
  · exact htransmit
  · exact htransmit.trans (.disconnect htransmit.sound htransmit.accounted)

theorem sweep_passes : s.Passes s.sweep none none := by
  have hexpires : s.Passes { s with window := (s.window.expire s.now).1 } none none :=
    .of_trades ((expire_turns s.now hw).sound hw) (expire_trades s.now hw ha) rfl rfl
  unfold sweep
  dsimp only
  split <;> exact hexpires.aside rfl rfl rfl

theorem Handles.passes {f : Frame} {rest : List UInt8} (h : { s with input := rest }.Handles f t) :
    s.Passes t none none := by
  cases h with
  | drops m closed =>
    exact ⟨hw, .keep ha none, Nat.le_succ _, fun _ => .inl closed⟩
  | completes m going kind =>
    exact .of_trades ((complete_turns s.now f.sequence hw f).sound hw)
      (complete_trades s.now f.sequence hw ha f) rfl rfl
  | rejects | dispatches => exact .keep hw ha rfl rfl rfl

theorem ReaderTurn.passes {m : ReaderMove} (h : s.ReaderTurn m t) : s.Passes t none none := by
  cases h with
  | stops stage => exact (Passes.disconnect hw ha).aside rfl rfl rfl
  | reads stage _ reads =>
    cases reads with
    | frame f rest input handles => exact handles.passes hw ha
    | fault rest m =>
      have hfault : s.Passes (measure { s with input := rest } m) none none := .keep hw ha rfl rfl rfl
      exact (hfault.trans (.disconnect hw ha)).aside rfl rfl rfl
    | ends => exact (Passes.disconnect hw ha).aside rfl rfl rfl
  | sweeps stage => exact sweep_passes hw ha
  | refuses f stage u sends =>
    subst sends
    exact (transmit_passes hw ha f).aside rfl rfl rfl
  | answers f k plan stage u closes =>
    subst closes
    exact (closeReply_passes hw ha k f).aside rfl rfl rfl
  | works k plan stage _ works =>
    cases works with
    | ends u same => rcases same with rfl | ⟨m, rfl⟩ <;> exact .keep hw ha rfl rfl rfl
    | pauses | holds => exact .keep hw ha rfl rfl rfl
    | answers u plan f settles => exact settles.passes hw ha rfl rfl rfl
    | refused u plan settles => exact settles.passes hw ha rfl rfl rfl
  | wakes => exact .keep hw ha rfl rfl rfl

theorem AnswerTurn.passes {a : Answer} (h : s.AnswerTurn a t) : s.Passes t none none := by
  cases h with
  | opens stage u f settles => exact settles.passes hw ha rfl rfl rfl
  | refused stage u settles => exact settles.passes hw ha rfl rfl rfl
  | closes f stage u closes =>
    subst closes
    exact (closeReply_passes hw ha a.responder f).aside rfl rfl rfl
  | rests => exact .keep hw ha rfl rfl rfl

end Step

theorem ReaderTurn.calls {m : ReaderMove} (h : s.ReaderTurn m t) : t.calls = s.calls := by
  cases h with
  | stops | wakes => rfl
  | reads stage _ reads =>
    cases reads with
    | frame f rest input handles => cases handles <;> rfl
    | fault | ends => rfl
  | sweeps stage => exact (sweep_calls s).1
  | refuses f stage u sends =>
    subst sends
    exact transmit_calls s f
  | answers f k plan stage u closes =>
    subst closes
    exact closeReply_calls s k f
  | works k plan stage _ works =>
    cases works with
    | ends u same => rcases same with rfl | ⟨m, rfl⟩ <;> rfl
    | pauses | holds => rfl
    | answers u plan f settles => exact settles.calls
    | refused u plan settles => exact settles.calls

theorem AnswerTurn.calls {a : Answer} (h : s.AnswerTurn a t) : t.calls = s.calls := by
  cases h with
  | opens stage u f settles => exact settles.calls
  | refused stage u settles => exact settles.calls
  | closes f stage u closes =>
    subst closes
    exact closeReply_calls s a.responder f
  | rests => rfl

theorem feel_shifts (hs : s.Orderly) (ha : s.window.Accounted) (y : Stimulus) : s.Shifts (s.feel y) := by
  have hw := hs.sound
  cases y with
  | arrive | endInput =>
    rw [feel]
    split <;> exact .apart rfl (.keep hw ha rfl rfl rfl)
  | send request timeout => exact .begins _ rfl rfl (.keep hw ha rfl rfl rfl)
  | close => exact .begins _ rfl rfl (.keep hw ha rfl rfl rfl)
  | drop id =>
    rw [feel]
    split
    · rename_i c hc
      have hmem : c ∈ s.calls := List.mem_of_find?_eq_some hc
      exact .drops c hmem (dropCall_step hw c).2.1 (dropCall_passes hs ha hmem)
    · exact .apart rfl (.keep hw ha rfl rfl rfl)
  | forget =>
    rw [feel]
    split
    · unfold dropAnswer
      split <;> exact .apart rfl (.keep hw ha rfl rfl rfl)
    · exact .apart rfl (.keep hw ha rfl rfl rfl)
  | disconnect => exact .apart rfl (.disconnect hw ha)
  | begin plan =>
    rw [feel, beginWork]
    split <;> exact .apart rfl (.keep hw ha rfl rfl rfl)
  | _ => exact .apart rfl (.keep hw ha rfl rfl rfl)

theorem step_shifts (hs : s.Orderly) (ha : s.window.Accounted) (x : Step) : s.Shifts (s.step x) := by
  cases x with
  | feel y => exact feel_shifts hs ha y
  | move m =>
    have hmoves := step_moves s m
    generalize s.step (.move m) = t at hmoves ⊢
    cases hmoves with
    | reader m can =>
      have hturn := moveReader_turn can
      exact .apart hturn.calls (hturn.passes hs.sound ha)
    | call id c found mem =>
      obtain ⟨stage, calls, passes⟩ := stepCall_passes hs ha mem
      exact .goes c mem stage calls passes
    | answer id a =>
      have hturn := stepAnswer_turn s a
      exact .apart hturn.calls (hturn.passes hs.sound ha)
    | nothing => exact .apart rfl (.keep hs.sound ha rfl rfl rfl)

/-- A stimulus begins a call, or leaves the calls that are there alone. -/
theorem mem_calls_feel (hs : s.Orderly) {y : Stimulus} {b : Call} (hb : b ∈ (s.feel y).calls) :
    b ∈ s.calls ∨ b.id = s.nextTask ∧ b.stage = .starting ∧ b.AskedBy (.feel y) := by
  have of_addCall {purpose : CallPurpose} {request : Request} {timeout : Duration}
      (asked : Call.AskedBy ⟨s.nextTask, purpose, request, timeout, .starting⟩ (.feel y))
      (hb : b ∈ (s.addCall purpose request timeout).calls) :
      b ∈ s.calls ∨ b.id = s.nextTask ∧ b.stage = .starting ∧ b.AskedBy (.feel y) := by
    rcases List.mem_append.mp hb with hb | hb
    · exact .inl hb
    · obtain rfl := List.mem_singleton.mp hb
      exact .inr ⟨rfl, rfl, asked⟩
  cases y with
  | send request timeout => exact of_addCall (.send rfl) hb
  | close => exact of_addCall (.close rfl rfl) hb
  | drop id =>
    rw [feel] at hb
    split at hb
    · rw [(dropCall_step hs.sound _).2.1] at hb
      exact .inl (List.mem_of_mem_filter hb)
    · exact .inl hb
  | arrive | endInput =>
    rw [feel] at hb
    split at hb <;> exact .inl hb
  | forget id =>
    rw [feel] at hb
    unfold dropAnswer at hb
    split at hb
    · split at hb <;> exact .inl hb
    · exact .inl hb
  | begin plan =>
    rw [feel, beginWork] at hb
    split at hb <;> exact .inl hb
  | _ => exact .inl hb

/-- A call changes in its own steps only. One that begins has done nothing yet. -/
theorem mem_calls_step (hs : s.Orderly) {x : Step} {b : Call} (hb : b ∈ (s.step x).calls) :
    b ∈ s.calls ∨ (b.id = s.nextTask ∧ b.stage = .starting ∧ b.AskedBy x) ∨
      ∃ c ∈ s.calls, (∃ stage, b = { c with stage }) ∧ x = .move (.call c.id) ∧
        s.callIsReady c = true ∧ s.step x = s.stepCall c := by
  cases x with
  | feel y => exact (mem_calls_feel hs hb).imp_right .inl
  | move m =>
    have hmoves := step_moves s m
    generalize s.step (.move m) = t at hb hmoves ⊢
    cases hmoves with
    | reader m can =>
      rw [(moveReader_turn can).calls] at hb
      exact .inl hb
    | call id c found mem id_eq ready =>
      obtain ⟨-, stage, hcalls, -⟩ := stepCall_step hs.sound hs.call_ids mem (hs.fits c mem)
      rw [hcalls] at hb
      rcases mem_setCall hs.call_ids mem hb with hb | ⟨hb, -⟩
      · exact .inr (.inr ⟨c, mem, ⟨stage, hb⟩, by rw [id_eq], ready, rfl⟩)
      · exact .inl hb
    | answer id a =>
      rw [(stepAnswer_turn s a).calls] at hb
      exact .inl hb
    | nothing => exact .inl hb

/-- A call that was there is as it was, or the step is its own. -/
theorem eq_or_own_step (hs : s.Orderly) {x : Step} {c : Call} (hc : c ∈ s.calls) {b : Call}
    (hb : b ∈ (s.step x).calls) (hid : b.id = c.id) :
    b = c ∨ x = .move (.call c.id) ∧ s.callIsReady c = true ∧ s.step x = s.stepCall c := by
  rcases mem_calls_step hs hb with hb | ⟨hnew, -⟩ | ⟨a, ha, ⟨stage, rfl⟩, hx, ready, hstep⟩
  · exact .inl (List.inj_on_of_nodup_map hs.call_ids hb hc hid)
  · have hlt := hs.call_lt c hc
    omega
  · obtain rfl : a = c := List.inj_on_of_nodup_map hs.call_ids ha hc hid
    exact .inr ⟨hx, ready, hstep⟩

/-- A call that is not new was there. -/
theorem exists_previous (hs : s.Orderly) {x : Step} {b : Call} (hb : b ∈ (s.step x).calls)
    (old : b.id < s.nextTask) : ∃ a ∈ s.calls, a.id = b.id := by
  rcases mem_calls_step hs hb with hb | ⟨hnew, -⟩ | ⟨a, ha, ⟨stage, rfl⟩, -⟩
  · exact ⟨b, hb, rfl⟩
  · omega
  · exact ⟨a, ha, rfl⟩

/-! ## The invariant -/

/-- Every entry and every ticket has its call, and every call that was admitted has its entry or is
settled. The window of a closed session is closed and empty, and the channel was told to disconnect. -/
structure Covered (s : Session) : Prop where
  accounted : s.window.Accounted
  owner : ∀ r, s.window.Has r → ∃ c ∈ s.calls, c.stage.stake? = some r
  held : ∀ c ∈ s.calls, ∀ f n, c.stage.entry? = some (f, n) → s.window.Held f.sequence n
  closed : s.status = .closed →
    s.window.entries = [] ∧ s.window.permits.isClosed = true ∧ 0 < s.channel.disconnects

/-- What somebody has after a step, it had before, or it is the caller of the step. -/
theorem Shifts.owner (h : s.Shifts t) (hids : (s.calls.map (·.id)).Nodup)
    (hs : ∀ r, s.window.Has r → ∃ c ∈ s.calls, c.stage.stake? = some r) (r : Stake) (hr : t.window.Has r) :
    ∃ c ∈ t.calls, c.stage.stake? = some r := by
  have hother {c : Call} (hc : c ∈ s.calls) {b : Call} (hb : b ∈ s.calls)
      (hb' : b.stage.stake? = some r) (hne : c.stage.stake? ≠ some r) : b.id ≠ c.id := by
    intro hid
    rw [List.inj_on_of_nodup_map hids hb hc hid] at hb'
    exact hne hb'
  cases h with
  | apart calls passes =>
    obtain ⟨hold, -⟩ := (passes.trades.has r hr).resolve_left (by simp)
    rw [calls]
    exact hs r hold
  | begins c stage calls passes =>
    obtain ⟨hold, -⟩ := (passes.trades.has r hr).resolve_left (by simp)
    obtain ⟨b, hb, hstake⟩ := hs r hold
    exact ⟨b, by rw [calls]; exact List.mem_append_left _ hb, hstake⟩
  | drops c mem calls passes =>
    obtain ⟨hold, hne⟩ := (passes.trades.has r hr).resolve_left (by simp)
    obtain ⟨b, hb, hstake⟩ := hs r hold
    refine ⟨b, ?_, hstake⟩
    rw [calls]
    exact List.mem_filter.mpr ⟨hb, by simpa using hother mem hb hstake hne⟩
  | goes c mem stage calls passes =>
    rw [calls]
    rcases passes.trades.has r hr with hnew | ⟨hold, hne⟩
    · exact ⟨{ c with stage }, List.mem_map.mpr ⟨c, mem, if_pos rfl⟩, hnew⟩
    · obtain ⟨b, hb, hstake⟩ := hs r hold
      exact ⟨b, List.mem_map.mpr ⟨b, hb, if_neg (hother mem hb hstake hne)⟩, hstake⟩

/-- Nobody but the caller of a step loses an entry without being settled. -/
theorem CallTurn.held (hs : s.Orderly) {c : Call} (hc : c ∈ s.calls) {stage : CallStage}
    (turn : s.CallTurn c t stage) {b : Call} (hb : b ∈ s.calls) (hne : b.id ≠ c.id) {f : Frame} {n : Nat}
    (hentry : b.stage.entry? = some (f, n)) (hk : s.window.Held f.sequence n) :
    t.window.Held f.sequence n := by
  cases turn with
  | waits same | writes _ _ _ _ same => rwa [same]
  | queues frame p unplaced makes key_eq request_eq turns => exact turns.held hk (by simp)
  | admits frame e unplaced makes key_eq request_eq turns => exact turns.held hk (by simp)
  | gets frame since x response stage_eq settled keeps => exact keeps.held _ _ not_false hk
  | fails result none_received keeps =>
    refine keeps.held _ _ (fun howns => hne ?_) hk
    exact hs.entry_own b hb c hc n ⟨f, hentry⟩ howns

/-- The caller of a step that comes to have an entry has it in the table. -/
theorem CallTurn.holds {c : Call} {stage : CallStage} (turn : s.CallTurn c t stage)
    (hheld : ∀ f n, c.stage.entry? = some (f, n) → s.window.Held f.sequence n) {f : Frame} {n : Nat}
    (hentry : stage.entry? = some (f, n)) : t.window.Held f.sequence n := by
  cases turn with
  | waits same =>
    rw [same]
    exact hheld f n hentry
  | queues | gets | fails => cases hentry
  | admits frame e unplaced makes key_eq request_eq turns =>
    cases hentry
    exact .inl ⟨e, turns.mem_iff.mpr (.inr rfl), key_eq, rfl⟩
  | writes frame entry deadline stage_eq same sent =>
    cases hentry
    rw [same]
    exact hheld _ _ (by rw [stage_eq]; rfl)

theorem Turn.held (hs : s.Orderly) {x : Step} (turn : s.Turn x t)
    (hheld : ∀ c ∈ s.calls, ∀ f n, c.stage.entry? = some (f, n) → s.window.Held f.sequence n)
    (c : Call) (hc : c ∈ t.calls) (f : Frame) (n : Nat) (hentry : c.stage.entry? = some (f, n)) :
    t.window.Held f.sequence n := by
  cases turn with
  | apart tasks calls keeps =>
    rw [calls] at hc
    exact keeps.held _ _ not_false (hheld c hc f n hentry)
  | completes g rest _ _ _ _ _ tasks calls window =>
    rw [calls] at hc
    rw [window]
    exact (complete_turns s.now g.sequence hs.sound g).held (hheld c hc f n hentry) (by simp)
  | begins b id_eq lt stage calls window =>
    rw [calls] at hc
    rw [window]
    rcases List.mem_append.mp hc with hc | hc
    · exact hheld c hc f n hentry
    · obtain rfl := List.mem_singleton.mp hc
      simp [stage, CallStage.entry?] at hentry
  | drops b mem tasks calls keeps =>
    rw [calls] at hc
    obtain ⟨hc, hne⟩ := List.mem_filter.mp hc
    refine keeps.held _ _ (fun howns => ?_) (hheld c hc f n hentry)
    have hid : c.id = b.id := hs.entry_own c hc b mem n ⟨f, hentry⟩ howns
    simp [hid] at hne
  | goes b mem stage tasks calls turn =>
    rw [calls] at hc
    rcases mem_setCall hs.call_ids mem hc with rfl | ⟨hc, hne⟩
    · exact turn.holds (hheld b mem) hentry
    · exact turn.held hs mem hc hne hentry (hheld c hc f n hentry)

theorem Passes.closed (h : s.Passes t old new)
    (hs : s.status = .closed →
      s.window.entries = [] ∧ s.window.permits.isClosed = true ∧ 0 < s.channel.disconnects)
    (closed : t.status = .closed) :
    t.window.entries = [] ∧ t.window.permits.isClosed = true ∧ 0 < t.channel.disconnects := by
  rcases h.ends closed with hclosed | hended
  · obtain ⟨hempty, hshut, hcut⟩ := hs hclosed
    exact ⟨h.trades.empty hshut hempty, (h.trades.closed hshut).1, Nat.lt_of_lt_of_le hcut h.disconnects⟩
  · exact hended

theorem step_covered (hs : s.Orderly) (h : s.Covered) (x : Step) : (s.step x).Covered := by
  have hshifts := step_shifts hs h.accounted x
  obtain ⟨old, new, hpasses⟩ := hshifts.passes
  exact ⟨hpasses.accounted, hshifts.owner hs.call_ids h.owner, (step_turn hs x).held hs h.held,
    hpasses.closed h.closed⟩

theorem fresh_covered (id : UInt32) (peer : Option SocketAddress) (serverSystemId : String)
    (settings : SessionSettings) (processor : Nat) (now : Instant) :
    (fresh id peer serverSystemId settings processor now).Covered where
  accounted := accounted_ofCapacity settings.windowSize
  owner r hr := by
    cases r with
    | entry n => simp [fresh, Window.Has, Window.ofCapacity] at hr
    | ticket t => simp [fresh, Window.Has, Window.ofCapacity, Permits.ofCapacity, Permits.tickets] at hr
  held := by simp [fresh]
  closed := by simp [fresh]

variable {xs : List Step}

theorem before_covered (hs : s.Orderly) (h : s.Covered) (i : Nat) : (s.before xs i).Covered :=
  before_induct (P := Covered) hs (fun _ ht h x => step_covered ht h x) (Nat.zero_le i) h

end Session

end Smsc
