import Smsc.Proofs.Session.Status

/-!
# Smsc.Proofs.Session.Ending — what ends a session

* `SeesOff s k f x`: in the step `x` the reply `f` through the responder `k` is seen off, written or not;
* `CallGoes s c t`, `stepCall_goes`: a call goes on, fails, or has its response;
* `Moves s m t`, `step_moves`: who makes a move, and what it does;
* `Ends s t x`: the step `x` from `s` to `t` is one that ends the session, and why;
* `Ends.closed`: such a step leaves it closed.
-/

namespace Smsc.Session

variable {s t u : Session} {x : Step}

/-- In the step `x` the reply `f` through the responder `k` is seen off. -/
inductive SeesOff (s : Session) (k : Nat) (f : Frame) : Step → Prop where
  | atWork (plan : Plan) (stage : s.reader = .answering f k plan) (flows : s.channel.isStalled = false) :
      SeesOff s k f (.move (.reader .proceed))
  | late (id : Nat) (a : Answer) (found : s.findAnswer? id = some a) (responder : a.responder = k)
      (stage : a.stage = .writing f) (flows : s.channel.isStalled = false) :
      SeesOff s k f (.move (.answer id))

/-! ## A step of a call -/

/-- The call finds the response to its frame. -/
def Finds (s : Session) (c : Call) (frame : Frame) : Prop :=
  ∃ since x response, c.stage = .awaiting frame since x ∧
    (s.window.collect s.now x).2 = some (.ok response)

/-- What a step of a call comes to for the session. -/
inductive CallGoes (s : Session) (c : Call) : Session → Prop where
  | goes (t : Session) (stage : CallStage) (going : ∀ result, stage ≠ .finished result)
      (status : t.status = s.status) (calls : t.calls = (s.setCall c.id stage).calls)
      (alone : ∀ frame, ¬ s.Finds c frame) : CallGoes s c t
  | fails (u : Session) (e : SessionError) (status : u.status = s.status) (calls : u.calls = s.calls)
      (alone : ∀ frame, ¬ s.Finds c frame) : CallGoes s c (u.conclude c (.error e))
  | responds (u : Session) (frame : Frame) (since : Instant) (response : Frame)
      (status : u.status = s.status) (finds : s.Finds c frame) :
      CallGoes s c (u.respondCall c frame since response)
  | rests (result : CallResult) (stage : c.stage = .finished result) : CallGoes s c s

theorem afterOffer_goes {c : Call} (status : u.status = s.status) (calls : u.calls = s.calls)
    (alone : ∀ frame, ¬ s.Finds c frame) (frame : Frame) (o : Offered Frame) :
    s.CallGoes c (u.afterOffer c frame o) := by
  cases o with
  | admitted entry =>
    exact .goes _ (.writing frame entry) (by simp) status
      (by simp [afterOffer, setCall, measure, note, calls]) alone
  | refused e => exact .fails _ _ status calls alone
  | waiting offer =>
    exact .goes _ (.queued frame offer) (by simp) status (by simp [afterOffer, setCall, calls]) alone

theorem startCall_goes {c : Call} (alone : ∀ frame, ¬ s.Finds c frame) : s.CallGoes c (s.startCall c) := by
  unfold startCall sendRequest offerFrame
  split
  · split
    · have hstatus : (s.sequenceFor c).1.status = s.status := by
        unfold sequenceFor
        split <;> rfl
      have hcalls := sequenceFor_calls s c
      generalize s.sequenceFor c = un at hstatus hcalls ⊢
      obtain ⟨u, n⟩ := un
      dsimp only at hstatus hcalls ⊢
      split
      · exact .fails u _ hstatus hcalls alone
      · rename_i frame _
        generalize u.window.offer u.now n frame u.settings.offerTimeout u.settings.expireTimeout = wo
        exact afterOffer_goes (s := s) (u := { u with window := wo.1 }) hstatus hcalls alone frame wo.2
    · exact .fails _ _ rfl rfl alone
  · exact .fails _ _ rfl rfl alone

theorem writeCall_goes {c : Call} {frame : Frame} {entry : Nat} (alone : ∀ frame, ¬ s.Finds c frame) :
    s.CallGoes c (s.writeCall c frame entry) := by
  obtain ⟨new, hsame, -⟩ := transmit_eq s frame
  unfold writeCall
  generalize s.transmit frame = tr at hsame ⊢
  obtain ⟨u, _ | _⟩ := tr
  all_goals
    dsimp only at hsame ⊢
    subst hsame
  · exact .fails _ _ rfl rfl alone
  · exact .goes _ (.awaiting _ _ _) (by simp) rfl rfl alone

theorem awaitCall_goes (hids : (s.calls.map (·.id)).Nodup) {c : Call} (hc : c ∈ s.calls) {frame : Frame}
    {since : Instant} {w : Waiter} (stage : c.stage = .awaiting frame since w) :
    s.CallGoes c (s.awaitCall c frame since w) := by
  have alone (h : ∀ response, (s.window.collect s.now w).2 ≠ some (.ok response)) (frame : Frame) :
      ¬ s.Finds c frame := by
    rintro ⟨since', w', response, hstage, hfound⟩
    obtain ⟨-, -, rfl⟩ : _ ∧ _ ∧ w = w' := by simpa [stage] using hstage
    exact h response hfound
  have finds (response : Frame) (h : (s.window.collect s.now w).2 = some (.ok response)) :
      s.Finds c frame := ⟨since, w, response, stage, h⟩
  unfold awaitCall
  generalize s.window.collect s.now w = wr at alone finds ⊢
  obtain ⟨window, _ | found⟩ := wr
  · exact .goes _ c.stage (by simp [stage]) rfl (setCall_self hids hc).symm (alone (by simp))
  · cases found with
    | error e =>
      have unanswered := alone (by simp)
      cases e with
      | timeout key => exact .fails (measure { s with window } _) _ rfl rfl unanswered
      | _ => exact .fails { s with window } _ rfl rfl unanswered
    | ok response => exact .responds { s with window } frame since response rfl (finds response rfl)

theorem stepCall_goes (hids : (s.calls.map (·.id)).Nodup) {c : Call} (hc : c ∈ s.calls) :
    s.CallGoes c (s.stepCall c) := by
  have alone (h : ∀ frame since w, c.stage ≠ .awaiting frame since w) (frame : Frame) :
      ¬ s.Finds c frame := by
    rintro ⟨since, w, -, hstage, -⟩
    exact h frame since w hstage
  unfold stepCall
  split
  · rename_i stage
    exact startCall_goes (alone (by simp [stage]))
  · rename_i frame offer stage
    exact afterOffer_goes (s := s) (u := { s with window := (s.window.resume s.now offer).1 }) rfl rfl
      (alone (by simp [stage])) _ _
  · rename_i frame entry stage
    exact writeCall_goes (alone (by simp [stage]))
  · rename_i frame since w stage
    exact awaitCall_goes hids hc stage
  · rename_i result stage
    exact .rests result stage

/-! ## The end of a session -/

/-- The call under the id has come to its end. -/
def IsOver (s : Session) (id : Nat) : Prop := ∃ c ∈ s.calls, c.id = id ∧ ∃ result, c.stage = .finished result

/-- The step `x` from `s` to `t` ends the session. -/
inductive Ends (s t : Session) : Step → Prop where
  /-- It is told to disconnect. -/
  | told : Ends s t (.feel .disconnect)
  /-- The reader heeds the shutdown. -/
  | stops (can : s.can (.reader .stop) = true) : Ends s t (.move (.reader .stop))
  /-- The input has ended, or what it gives is no frame. -/
  | reads (can : s.can (.reader .read) = true) (none : ∀ f rest, s.nextInput ≠ .frame f rest) :
      Ends s t (.move (.reader .read))
  /-- The reply to an unbind of the client is seen off, whatever it says and whether it is written. -/
  | unbinds (x : Step) (k : Nat) (f : Frame) (r : Responder) (seesOff : s.SeesOff k f x)
      (responder : s.responders[k]? = some r) (unbind : r.request.command = .unbind) : Ends s t x
  /-- A call finds the response to an unbind of the server, whatever it says. -/
  | answered (id : Nat) (c : Call) (frame : Frame) (found : s.findCall? id = some c)
      (can : s.can (.call id) = true) (finds : s.Finds c frame) (unbind : frame.command = .unbind) :
      Ends s t (.move (.call id))
  /-- A close comes to its end without a response. -/
  | givesUp (id : Nat) (c : Call) (found : s.findCall? id = some c) (can : s.can (.call id) = true)
      (close : c.purpose = .close) (alone : ∀ frame, ¬ s.Finds c frame) (ended : t.IsOver c.id) :
      Ends s t (.move (.call id))

theorem closeReply_unbind {k : Nat} {r : Responder} (responder : s.responders[k]? = some r)
    (unbind : r.request.command = .unbind) (f : Frame) : (s.closeReply k f).status = .closed := by
  have hresponder : (s.transmit f).1.responder? k = some r := by
    rw [responder?, (Beside.transmit s f).responders, responder]
  unfold closeReply
  dsimp only
  rw [hresponder]
  dsimp only
  rw [if_pos unbind]
  rfl

theorem step_call {id : Nat} {c : Call} (found : s.findCall? id = some c) (can : s.can (.call id) = true) :
    s.step (.move (.call id)) = s.stepCall c := by
  rw [step, if_pos can, move, found]

theorem step_answer {id : Nat} {a : Answer} (found : s.findAnswer? id = some a)
    (can : s.can (.answer id) = true) : s.step (.move (.answer id)) = s.stepAnswer a := by
  rw [step, if_pos can, move, found]

/-- What a move does, by who makes it. -/
inductive Moves (s : Session) : Move → Session → Prop where
  | reader (m : ReaderMove) (can : s.can (.reader m) = true) : Moves s (.reader m) (s.moveReader m)
  | call (id : Nat) (c : Call) (found : s.findCall? id = some c) (mem : c ∈ s.calls) (id_eq : c.id = id)
      (ready : s.callIsReady c = true) : Moves s (.call id) (s.stepCall c)
  | answer (id : Nat) (a : Answer) (found : s.findAnswer? id = some a) (ready : s.answerIsReady a = true) :
      Moves s (.answer id) (s.stepAnswer a)
  /-- The move is not possible. -/
  | nothing (m : Move) : Moves s m s

theorem step_moves (s : Session) (m : Move) : s.Moves m (s.step (.move m)) := by
  by_cases can : s.can m = true
  · cases m with
    | reader m =>
      rw [step_reader can]
      exact .reader m can
    | call id =>
      cases found : s.findCall? id with
      | none => simp [Session.can, found] at can
      | some c =>
        have hid : c.id = id := by simpa using List.find?_some found
        rw [step_call found can]
        exact .call id c found (List.mem_of_find?_eq_some found) hid (by simpa [Session.can, found] using can)
    | answer id =>
      cases found : s.findAnswer? id with
      | none => simp [Session.can, found] at can
      | some a =>
        rw [step_answer found can]
        exact .answer id a found (by simpa [Session.can, found] using can)
  · rw [step, if_neg can]
    exact .nothing m

theorem SeesOff.step_status {k : Nat} {f : Frame} (h : s.SeesOff k f x) :
    (s.step x).status = (s.closeReply k f).status := by
  cases h with
  | atWork plan stage flows =>
    have can : s.can (.reader .proceed) = true := by simp [can, readerCan, stage, flows]
    rw [step_reader can]
    simp only [moveReader, stage]
    rfl
  | late id a found responder stage flows =>
    have can : s.can (.answer id) = true := by simp [can, found, answerIsReady, stage, flows]
    rw [step_answer found can, stepAnswer, stage, ← responder]
    rfl

theorem Finds.unique {c : Call} {frame frame' : Frame} (h : s.Finds c frame) (h' : s.Finds c frame') :
    frame = frame' := by
  obtain ⟨since, w, -, hstage, -⟩ := h
  obtain ⟨since', w', -, hstage', -⟩ := h'
  rw [hstage] at hstage'
  cases hstage'
  rfl

theorem Finds.unfinished {c : Call} {frame : Frame} (h : s.Finds c frame) (result : CallResult) :
    c.stage ≠ .finished result := by
  obtain ⟨since, w, -, hstage, -⟩ := h
  simp [hstage]

theorem respondCall_status (u : Session) (c : Call) (frame : Frame) (since : Instant) (response : Frame) :
    (u.respondCall c frame since response).status =
      if frame.command = .unbind then .closed else u.status := by
  unfold respondCall
  rw [conclude_ok]
  split <;> rfl

theorem conclude_close {c : Call} (close : c.purpose = .close) (u : Session) (e : SessionError) :
    (u.conclude c (.error e)).status = .closed ∧
      ∃ result, (u.conclude c (.error e)).calls = (u.setCall c.id (.finished result)).calls := by
  unfold conclude
  rw [close]
  dsimp only
  cases hdisconnect : u.disconnect with
  | mk v r =>
    have hv : v = u.disconnect.1 := by rw [hdisconnect]
    subst hv
    cases r with
    | ok _ => exact ⟨rfl, _, rfl⟩
    | error e => exact ⟨rfl, _, rfl⟩

/-- A call that is concluded is over. -/
theorem conclude_calls (u : Session) (c : Call) (r : Except SessionError Received) :
    ∃ result, (u.conclude c r).calls = (u.setCall c.id (.finished result)).calls := by
  cases r with
  | ok r => exact ⟨_, by rw [conclude_ok]⟩
  | error e =>
    cases hpurpose : c.purpose with
    | request =>
      refine ⟨.failed e, ?_⟩
      unfold conclude
      rw [hpurpose]
    | close => exact (conclude_close hpurpose u e).2

/-- The steps that end a session leave it closed. -/
theorem Ends.closed (hs : s.Orderly) (h : s.Ends (s.step x) x) : (s.step x).status = .closed := by
  generalize ht : s.step x = t at h
  cases h with
  | told =>
    subst ht
    rfl
  | stops can =>
    have hturn := moveReader_turn can
    rw [step_reader can] at ht
    rw [ht] at hturn
    cases hturn
    rfl
  | reads can none =>
    have hturn := moveReader_turn can
    rw [step_reader can] at ht
    rw [ht] at hturn
    cases hturn with
    | reads stage _ reads =>
      cases reads with
      | frame f rest input => exact absurd input (none f rest)
      | fault | ends => rfl
  | unbinds x k f r seesOff responder unbind =>
    rw [← ht, seesOff.step_status, closeReply_unbind responder unbind]
  | answered id c frame found can finds unbind =>
    rw [step_call found can] at ht
    have hgoes := stepCall_goes hs.call_ids (List.mem_of_find?_eq_some found)
    rw [ht] at hgoes
    cases hgoes with
    | goes _ stage going status calls alone => exact absurd finds (alone frame)
    | fails u e status calls alone => exact absurd finds (alone frame)
    | responds u frame' since response status finds' =>
      rw [respondCall_status, finds'.unique finds, if_pos unbind]
    | rests result stage => exact absurd stage (finds.unfinished result)
  | givesUp id c found can close alone ended =>
    rw [step_call found can] at ht
    have hc := List.mem_of_find?_eq_some found
    have hgoes := stepCall_goes hs.call_ids hc
    rw [ht] at hgoes
    cases hgoes with
    | goes _ stage going status calls =>
      -- The call that is over is this one, and it goes on.
      obtain ⟨c', hc', hid, result, hstage⟩ := ended
      rw [calls] at hc'
      rcases mem_setCall hs.call_ids hc hc' with rfl | ⟨-, hne⟩
      · exact absurd hstage (going result)
      · exact absurd hid hne
    | fails u e => exact (conclude_close close u e).1
    | responds u frame since response status finds => exact absurd finds (alone frame)
    | rests result stage => simp [Session.can, found, callIsReady, stage] at can

/-- A step of a call closes the session only if it ends it. -/
theorem stepCall_status (hs : s.Orderly) {id : Nat} {c : Call} (found : s.findCall? id = some c)
    (can : s.can (.call id) = true) : (s.stepCall c).status = s.status ∨
      (s.stepCall c).status = .closed ∧ s.Ends (s.stepCall c) (.move (.call id)) := by
  have hc := List.mem_of_find?_eq_some found
  have hgoes := stepCall_goes hs.call_ids hc
  generalize s.stepCall c = t at hgoes
  cases hgoes with
  | goes _ stage going status => exact .inl status
  | fails u e status calls alone =>
    cases hpurpose : c.purpose with
    | request =>
      left
      simpa [conclude, hpurpose, setCall] using status
    | close =>
      obtain ⟨hclosed, result, hcalls⟩ := conclude_close hpurpose u e
      refine .inr ⟨hclosed, .givesUp id c found can hpurpose alone
        ⟨{ c with stage := .finished result }, ?_, rfl, result, rfl⟩⟩
      rw [hcalls, setCall, calls]
      exact List.mem_map.mpr ⟨c, hc, if_pos rfl⟩
  | responds u frame since response status finds =>
    rw [respondCall_status]
    by_cases hunbind : frame.command = .unbind
    · exact .inr ⟨if_pos hunbind, .answered id c frame found can finds hunbind⟩
    · exact .inl (by rw [if_neg hunbind, status])
  | rests => exact .inl rfl

end Smsc.Session
