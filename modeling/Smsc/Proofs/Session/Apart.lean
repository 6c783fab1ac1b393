import Smsc.Proofs.Session.Balance
import Smsc.Proofs.Session.Leaks

/-!
# Smsc.Proofs.Session.Apart — what a call does to others until its request is out

Until its frame is on the channel a call only asks the window for a place, waits for it, and puts an entry in or
takes it out again. That concerns nobody else.

* `CallStage.isRefused`, `CallStage.isPast`: refused, or past the point where that may happen;
* `Quietly s c u`: from `s` to `u` the window may change, and little else;
* `Apart s id t`, `Untouched s c t`: a step of a call concerns nobody else, or has left nothing behind;
* `ApartOrPast s c t`, `Acts.apart_or_past`: what a step of a call does is apart, or brings it past that point;
* `attempt`, `endClose`, `stepCall_eq`: a close is its request, and a disconnect if that fails.
-/

namespace Smsc

/-- The request was not sent: the session, the window or the encoder refuses it. -/
def SessionError.isRefusal : SessionError → Bool
  | .illegalState _ | .illegalArgument _ | .channel (.encode _) => true
  | .window (.offerTimeout _) | .window (.duplicateKey _) | .window .closed => true
  | _ => false

def CallStage.isRefused : CallStage → Bool
  | .finished (.failed e) => e.isRefusal
  | _ => false

/-- The call has got so far that it is not refused any more. -/
def CallStage.isPast : CallStage → Bool
  | .awaiting .. => true
  | .finished (.failed e) => !e.isRefusal
  | .finished _ => true
  | _ => false

theorem CallStage.isPast_of_isRefused {stage : CallStage} (h : stage.isRefused = true) : stage.isPast = false := by
  unfold isRefused at h
  split at h
  · simp [isPast, h]
  · simp at h

/-- A call that was to send a request, and was refused. -/
structure Call.Refused (c : Call) : Prop where
  request : c.purpose = .request
  stage : c.stage.isRefused = true

theorem Call.Refused.stake? {c : Call} (h : c.Refused) : c.stage.stake? = none := by
  have hstage := h.stage
  unfold CallStage.isRefused at hstage
  split at hstage
  · rename_i finished
    rw [finished]
    rfl
  · cases hstage

/-- The call as one that sends its request, and no more. -/
abbrev Call.asRequest (c : Call) : Call := { c with purpose := .request }

namespace Session

open Window

variable {s t u : Session} {c : Call} {purpose : CallPurpose}

/-- From `s` to `t` nothing is put down but what instruments count. -/
def OnlyCounts (s t : Session) : Prop := ∃ new, t.log = new ++ s.log ∧ ∀ e ∈ new, ∃ m, e = .measured m

/-- From `s` to `u` the window may change, a number may be drawn for the call, and instruments count. -/
structure Quietly (s : Session) (c : Call) (u : Session) : Prop where
  same : ∃ v, s.Draws c v ∧ u = { v with window := u.window, log := u.log }
  silent : s.OnlyCounts u

/-- What a call does from `s` to `t` concerns nobody but itself. -/
structure Apart (s : Session) (id : Nat) (t : Session) : Prop where
  /-- The status, the bind and the channel stay as they are. -/
  same : t = { s with
    window := t.window, lastSequence := t.lastSequence, calls := t.calls, log := t.log }
  /-- Nothing goes out. -/
  silent : s.OnlyCounts t
  others : t.calls.filter (·.id ≠ id) = s.calls.filter (·.id ≠ id)
  /-- No waiter is settled, and no entry leaves or changes but the one of the call. -/
  turns : ∃ gone fresh, s.window.Turns t.window gone none fresh ∧
    ∀ e ∈ s.window.entries, gone e = true → ∃ c ∈ s.calls, c.id = id ∧ c.holds e = true

/-- A step of a call from `s` to `t` concerns nobody else, or brings the call past the point where it may be
refused. -/
inductive ApartOrPast (s : Session) (c : Call) (t : Session) : Prop where
  | apart (unpast : c.stage.isPast = false) (apart : s.Apart c.id t)
  | past (stage : CallStage) (calls : t.calls = (s.setCall c.id stage).calls) (past : stage.isPast = true)

/-- From `s` to `t` nothing happens but that the call ends, a number may be drawn for it, and instruments
count. The names for entries and tickets are drawn anew each time, and nobody sees them. -/
structure Untouched (s : Session) (c : Call) (t : Session) : Prop where
  same : ∃ u, s.Draws c u ∧ t = { u with window := t.window, calls := t.calls, log := t.log }
  silent : s.OnlyCounts t
  others : t.calls.filter (·.id ≠ c.id) = s.calls.filter (·.id ≠ c.id)
  window : t.window = { s.window with
    nextId := t.window.nextId
    permits := { s.window.permits with nextTicket := t.window.permits.nextTicket } }

theorem OnlyCounts.refl (s : Session) : s.OnlyCounts s := ⟨[], rfl, by simp⟩

theorem setCall_others (s : Session) (id : Nat) (stage : CallStage) :
    (s.setCall id stage).calls.filter (·.id ≠ id) = s.calls.filter (·.id ≠ id) := by
  unfold setCall
  dsimp only
  induction s.calls with
  | nil => rfl
  | cons b bs ih =>
    by_cases hid : b.id = id
    · simpa [hid] using ih
    · simpa [hid] using ih

theorem stage_of_setCall (hids : (s.calls.map (·.id)).Nodup) (hc : c ∈ s.calls) {stage : CallStage}
    (calls : t.calls = (s.setCall c.id stage).calls) {b : Call} (hb : b ∈ t.calls) (hid : b.id = c.id) :
    b.stage = stage := by
  rw [calls] at hb
  rcases mem_setCall hids hc hb with rfl | ⟨-, hne⟩
  · rfl
  · exact absurd hid hne

theorem Apart.refl (s : Session) (id : Nat) : s.Apart id s :=
  ⟨rfl, .refl s, rfl, fun _ => false, none, .of_eq rfl rfl (Nat.le_refl _), by simp⟩

namespace Quietly

theorem of_draws (draws : s.Draws c u) : s.Quietly c u := by
  refine ⟨⟨u, draws, rfl⟩, ?_⟩
  rw [draws.same]
  exact .refl s

theorem of_window (h : s.Quietly c u) (w : Window Frame Frame) : s.Quietly c { u with window := w } where
  same := by
    obtain ⟨v, draws, same⟩ := h.same
    refine ⟨v, draws, ?_⟩
    rw [same]
  silent := h.silent

theorem measure (h : s.Quietly c u) (m : Measurement) : s.Quietly c (u.measure m) where
  same := by
    obtain ⟨v, draws, same⟩ := h.same
    refine ⟨v, draws, ?_⟩
    rw [same]
    rfl
  silent := by
    obtain ⟨new, hlog, hnew⟩ := h.silent
    exact ⟨.measured m :: new, by simp [Session.measure, note, hlog], by simpa using hnew⟩

theorem beside (h : s.Quietly c u) :
    u = { s with window := u.window, lastSequence := u.lastSequence, log := u.log } := by
  obtain ⟨v, draws, same⟩ := h.same
  rw [same, draws.same]

theorem calls (h : s.Quietly c u) : u.calls = s.calls := by rw [h.beside]

theorem apart (h : s.Quietly c u) (hc : { c with purpose } ∈ s.calls) {gone : Entry Frame → Bool}
    {fresh : Option (Entry Frame)} (turns : s.window.Turns u.window gone none fresh)
    (own : ∀ e ∈ s.window.entries, gone e = true → c.holds e = true) (stage : CallStage) :
    s.Apart c.id (u.setCall c.id stage) where
  same := by
    rw [h.beside]
    rfl
  silent := h.silent
  others := by rw [setCall_others, h.calls]
  turns := ⟨gone, fresh, turns, fun e he hgone => ⟨_, hc, rfl, own e he hgone⟩⟩

theorem untouched (h : s.Quietly c u) (window : u.window = { s.window with
      nextId := u.window.nextId
      permits := { s.window.permits with nextTicket := u.window.permits.nextTicket } }) (stage : CallStage) :
    s.Untouched c (u.setCall c.id stage) where
  same := by
    obtain ⟨v, draws, same⟩ := h.same
    refine ⟨v, draws, ?_⟩
    rw [same]
    rfl
  silent := h.silent
  others := by rw [setCall_others, h.calls]
  window := window

end Quietly

/-! ## One step -/

/-- A call that ends without a response has failed with that, unless it is a close, which has disconnected. -/
theorem conclude_failed (u : Session) (c : Call) (e : SessionError) :
    u.conclude c (.error e) = u.setCall c.id (.finished (.failed e)) ∨
      ∃ stage, (u.conclude c (.error e)).calls = (u.setCall c.id stage).calls ∧ stage.isPast = true := by
  cases hpurpose : c.purpose with
  | request => exact .inl (conclude_request hpurpose u e)
  | close =>
    right
    unfold conclude
    rw [hpurpose]
    cases hfails : u.channel.failsDisconnects with
    | true => exact ⟨.finished (.failed (.channel .closed)), by simp [disconnect, hfails, setCall], rfl⟩
    | false => exact ⟨.finished .closed, by simp [disconnect, hfails, setCall], rfl⟩

section OneStep

variable (hc : { c with purpose } ∈ s.calls)
include hc

theorem Quietly.fails (quietly : s.Quietly c u) (unpast : c.stage.isPast = false)
    {gone : Entry Frame → Bool} {fresh : Option (Entry Frame)} (turns : s.window.Turns u.window gone none fresh)
    (own : ∀ e ∈ s.window.entries, gone e = true → c.holds e = true) (e : SessionError) :
    s.ApartOrPast c (u.conclude c (.error e)) := by
  rcases conclude_failed u c e with h | ⟨stage, calls, past⟩
  · rw [h]
    exact .apart unpast (quietly.apart hc turns own _)
  · exact .past stage (by rw [calls, setCall, setCall, quietly.calls]) past

theorem afterOffer_apart_or_past (quietly : s.Quietly c u) (unpast : c.stage.isPast = false)
    {key : UInt32} {frame offered : Frame} {expireTimeout : Duration} {o : Offered Frame}
    (offering : s.window.Offering u.window s.now key offered expireTimeout o) :
    s.ApartOrPast c (u.afterOffer c frame o) := by
  cases offering with
  | admitted e turns =>
    exact .apart unpast ((quietly.measure (.windowOffer "accepted")).apart hc turns (by simp) _)
  | refused err turns =>
    exact (quietly.measure (.windowOffer "rejected")).fails hc unpast turns (by simp) (.window err)
  | waiting p turns => exact .apart unpast (quietly.apart hc turns (by simp) _)

/-- What a step of a call does. The call in the session may be for something else. -/
theorem Acts.apart_or_past (h : s.Acts c t) (hs : s.Orderly) : s.ApartOrPast c t := by
  have hself : s.calls = (s.setCall c.id c.stage).calls := (setCall_self hs.call_ids hc).symm
  have other (w : Session) (calls : w.calls = s.calls) (e : SessionError) (unrefused : e.isRefusal = false) :
      s.ApartOrPast c (w.conclude c (.error e)) := by
    rcases conclude_failed w c e with h | ⟨stage, hcalls, past⟩
    · rw [h]
      exact .past (.finished (.failed e)) (by rw [setCall, setCall, calls]) (by simp [CallStage.isPast, unrefused])
    · exact .past stage (by rw [hcalls, setCall, setCall, calls]) past
  cases h with
  | declines starting u draws e =>
    have hwindow : s.window.Turns u.window (fun _ => false) none none := by
      rw [draws.same]
      exact .of_eq rfl rfl (Nat.le_refl _)
    exact (Quietly.of_draws draws).fails hc (by rw [starting]; rfl) hwindow (by simp) e
  | offers starting u draws frame w o offered =>
    have offering := offer_offering (w := s.window) s.now frame.sequence frame s.settings.expireTimeout
      s.settings.offerTimeout
    rw [offered] at offering
    exact afterOffer_apart_or_past hc ((Quietly.of_draws draws).of_window w) (by rw [starting]; rfl) offering
  | resumes frame p queued w o resumed =>
    have offering := resume_offering (w := s.window) s.now p
    rw [resumed] at offering
    exact afterOffer_apart_or_past hc ((Quietly.of_draws .keeps).of_window w) (by rw [queued]; rfl) offering
  | writes frame entry writing u sent =>
    exact .past _ (by rw [setCall, setCall, sent.same]) rfl
  | fails frame entry writing u e failed =>
    cases failed with
    | fails => exact other _ (by rfl) (.channel .closed) rfl
    | overflows cause encode =>
      have hentry : c.stage.entry? = some (frame, entry) := by rw [writing]; rfl
      have hquietly : s.Quietly c (s.measure (.pduError "encode")) := (Quietly.of_draws .keeps).measure _
      have hturns := withdraw_turns frame.sequence hs.sound entry
      refine (hquietly.of_window _).fails hc (by rw [writing]; rfl) hturns (fun e he hgone => ?_) _
      obtain ⟨-, hid⟩ : e.key = frame.sequence ∧ e.id = entry := by simpa using hgone
      simpa [Call.holds_of_entry hentry] using hid
  | waits frame since x awaiting none_yet => exact .past c.stage hself (by rw [awaiting]; rfl)
  | gets frame since x awaiting response found =>
    refine .past (.finished (c.purpose.resultOf (.ofFrame response))) ?_ (by cases c.purpose <;> rfl)
    unfold respondCall
    rw [conclude_ok]
    split <;> rfl
  | timesOut frame => exact other _ (by rfl) (.timeout frame.sequence c.timeout) rfl
  | lapses frame since x awaiting key => exact other _ (by rfl) (.window (.expired key)) rfl
  | rests result finished =>
    cases hpast : c.stage.isPast with
    | false => exact .apart hpast (.refl s c.id)
    | true => exact .past c.stage hself hpast

end OneStep

/-! ## A close and its request -/

/-- Where the call with that id has got to. -/
def stage? (s : Session) (id : Nat) : Option CallStage := (s.findCall? id).map (·.stage)

/-- What the request of a call does with its next step. -/
def attempt (s : Session) (c : Call) : Session := s.stepCall c.asRequest

/-- What a close does when its request has come to an end. If that has failed, it disconnects. -/
def endClose (s : Session) (c : Call) : Session :=
  match s.stage? c.id with
  | some (.finished (.received r)) => s.conclude c (.ok r)
  | some (.finished (.failed e)) => s.conclude c (.error e)
  | _ => s

theorem setCall_setCall (s : Session) (id : Nat) (first second : CallStage) :
    (s.setCall id first).setCall id second = s.setCall id second := by
  have hcalls : ((s.setCall id first).setCall id second).calls = (s.setCall id second).calls := by
    simp only [setCall, List.map_map]
    refine List.map_congr_left fun b _ => ?_
    by_cases hid : b.id = id <;> simp [hid]
  exact congrArg (fun calls => { s with calls }) hcalls

theorem stage?_setCall (hc : c ∈ s.calls) (stage : CallStage) :
    (s.setCall c.id stage).stage? c.id = some stage := by
  have hfound : (s.calls.find? (·.id = c.id)).isSome = true := List.find?_isSome.mpr ⟨c, hc, by simp⟩
  obtain ⟨b, hb⟩ := Option.isSome_iff_exists.mp hfound
  have hid : b.id = c.id := by simpa using List.find?_some hb
  have hsame : (fun b : Call => decide (b.id = c.id)) ∘
      (fun b => if b.id = c.id then { b with stage } else b) = fun b => decide (b.id = c.id) := by
    funext b
    by_cases h : b.id = c.id <;> simp [h]
  rw [stage?, findCall?, setCall, List.find?_map, hsame, hb]
  simp [hid]

section Closing

variable (hc : c ∈ s.calls)
include hc

/-- A request that has not come to an end is that of a close that has not, either. -/
theorem setCall_endClose {stage : CallStage} (going : ∀ result, stage ≠ .finished result) :
    (s.setCall c.id stage).endClose c = s.setCall c.id stage := by
  unfold endClose
  rw [stage?_setCall hc]
  cases stage with
  | finished result => exact absurd rfl (going result)
  | starting | queued | writing | awaiting => rfl

theorem conclude_endClose (r : Except SessionError Received) :
    (s.conclude c.asRequest r).endClose c = s.conclude c r := by
  have hconclude (result : CallResult) (r : Except SessionError Received) :
      (s.setCall c.id (.finished result)).conclude c r = s.conclude c r := by
    have hends : (s.setCall c.id (.finished result)).disconnect =
      (s.disconnect.1.setCall c.id (.finished result), s.disconnect.2) := rfl
    unfold conclude
    rw [hends]
    generalize s.disconnect = ended
    obtain ⟨u, _ | _⟩ := ended <;> split <;> exact setCall_setCall ..
  cases r with
  | ok r =>
    rw [conclude_ok]
    unfold endClose
    rw [show c.asRequest.id = c.id from rfl, stage?_setCall hc]
    exact hconclude _ _
  | error e =>
    rw [conclude_request rfl]
    unfold endClose
    rw [show c.asRequest.id = c.id from rfl, stage?_setCall hc]
    exact hconclude _ _

theorem afterOffer_endClose (frame : Frame) (o : Offered Frame) :
    (s.afterOffer c.asRequest frame o).endClose c = s.afterOffer c frame o := by
  cases o with
  | admitted entry => exact setCall_endClose (s := s.measure (.windowOffer "accepted")) hc (by simp)
  | refused e => exact conclude_endClose (s := s.measure (.windowOffer "rejected")) hc _
  | waiting offer => exact setCall_endClose hc (by simp)

theorem startCall_endClose : (s.startCall c.asRequest).endClose c = s.startCall c := by
  unfold startCall sendRequest offerFrame
  split
  · split
    · have hcalls : (s.sequenceFor c).1.calls = s.calls := by rw [(sequenceFor_draws s c).same]
      rw [show s.sequenceFor c.asRequest = s.sequenceFor c from rfl]
      generalize s.sequenceFor c = un at hcalls ⊢
      obtain ⟨u, n⟩ := un
      have hu : c ∈ u.calls := by rwa [hcalls]
      dsimp only
      split
      · exact conclude_endClose hu _
      · refine afterOffer_endClose ?_ _ _
        exact hu
    · exact conclude_endClose hc _
  · exact conclude_endClose hc _

theorem writeCall_endClose (frame : Frame) (entry : Nat) :
    (s.writeCall c.asRequest frame entry).endClose c = s.writeCall c frame entry := by
  have hcalls : (s.transmit frame).1.calls = s.calls := by rw [(transmit_transmits s frame).same]
  unfold writeCall
  generalize s.transmit frame = tr at hcalls ⊢
  obtain ⟨u, _ | _⟩ := tr
  · refine conclude_endClose ?_ _
    rwa [← hcalls] at hc
  · dsimp only at hcalls ⊢
    exact setCall_endClose (by rwa [hcalls]) (by simp)

theorem respondCall_endClose (frame : Frame) (since : Instant) (response : Frame) :
    (s.respondCall c.asRequest frame since response).endClose c = s.respondCall c frame since response := by
  unfold respondCall
  dsimp only
  refine conclude_endClose ?_ _
  split <;> exact hc

theorem awaitCall_endClose (hids : (s.calls.map (·.id)).Nodup) {frame : Frame} {since : Instant} {x : Waiter}
    (awaiting : c.stage = .awaiting frame since x) :
    (s.awaitCall c.asRequest frame since x).endClose c = s.awaitCall c frame since x := by
  unfold awaitCall
  split
  · rename_i window _
    have hfound := findCall?_of_mem (s := { s with window }) hids hc
    have hstage : stage? { s with window } c.id = some (.awaiting frame since x) := by
      rw [stage?, hfound, Option.map_some, awaiting]
    rw [endClose, hstage]
  · refine respondCall_endClose ?_ frame since _
    exact hc
  · refine conclude_endClose ?_ _
    exact hc
  · refine conclude_endClose ?_ _
    exact hc

/-- A close goes on as its request does, and ends when that has come to an end. -/
theorem stepCall_eq (hids : (s.calls.map (·.id)).Nodup) (going : ∀ result, c.stage ≠ .finished result) :
    s.stepCall c = (s.attempt c).endClose c := by
  unfold attempt stepCall
  rw [show c.asRequest.stage = c.stage from rfl]
  cases hstage : c.stage with
  | starting => exact (startCall_endClose hc).symm
  | queued frame offer =>
    refine (afterOffer_endClose ?_ frame _).symm
    exact hc
  | writing frame entry => exact (writeCall_endClose hc frame entry).symm
  | awaiting frame since x => exact (awaitCall_endClose hc hids hstage).symm
  | finished result => exact absurd hstage (going result)

end Closing

end Session

end Smsc
