import Smsc.Session.Run

/-!
# Smsc.Proofs.Session.Veil — what a session does not look at

Two sessions that differ only behind a veil do the same. What a veil may hide is where the reader has got
to, what comes in, the time, and some events of the log; an operation that does not look there, nor change
anything there, may as well be done behind the veil.

* `Veil`, `Session.veil`: what is hidden, and a session without it;
* `transmit_veil`, `disconnect_veil`, `openReply_veil`, `closeReply_veil`: frames that leave, replies, and
  the end of a session, behind any veil; `sweep_veil`: behind one that does not hide the time;
* `Veil.Plain`, `handleFrame_veil`: frames that come in, behind a veil that leaves the reader its stages.
-/

namespace Smsc

/-- Does the event count a failure of a processor? -/
def SessionEvent.isFailure : SessionEvent → Bool
  | .measured m => m.instrument = .processorErrorsTotal
  | _ => false

/-- What is hidden of a session. Of its log only failures of processors may be. -/
structure Veil where
  stage : Reader.Stage → Reader.Stage
  sees : SessionEvent → Bool
  input : List UInt8 → List UInt8
  inputEnded : Bool → Bool
  time : Instant → Instant
  keeps : ∀ e, e.isFailure = false → sees e = true

/-- The reader keeps the stages that do not belong to a call of a processor. -/
structure Veil.Plain (v : Veil) : Prop where
  waiting : v.stage .waiting = .waiting
  rejecting : ∀ f, v.stage (.rejecting f) = .rejecting f
  calling : ∀ k p request, v.stage (.calling k p request) = .calling k p request
  finished : v.stage .finished = .finished

namespace Session

/-- The session behind a veil. -/
def veil (s : Session) (v : Veil) : Session :=
  { s with
    reader := v.stage s.reader
    log := s.log.filter v.sees
    input := v.input s.input
    inputEnded := v.inputEnded s.inputEnded
    now := v.time s.now
    nextSweep := v.time s.nextSweep }

variable {v : Veil} {s : Session}

theorem note_veil (s : Session) {e : SessionEvent} (he : e.isFailure = false) :
    (s.note e).veil v = (s.veil v).note e := by
  simp only [veil, note, List.filter_cons, v.keeps e he, if_true]

theorem measure_veil (s : Session) {m : Measurement} (hm : m.instrument ≠ .processorErrorsTotal) :
    (s.measure m).veil v = (s.veil v).measure m :=
  note_veil s (by simpa [SessionEvent.isFailure] using hm)

theorem transmit_veil (s : Session) (f : Frame) :
    (s.veil v).transmit f = ((s.transmit f).1.veil v, (s.transmit f).2) := by
  have hchannel : (s.veil v).channel = s.channel := rfl
  unfold transmit
  rw [hchannel]
  cases f.encode with
  | error e => simp only [measure_veil s (m := .pduError "encode") (by nofun)]
  | ok octets =>
    by_cases hrefuses : s.channel.refuses = true
    · simp only [hrefuses, if_true, measure_veil _ (m := .pduError "write") (by nofun),
        note_veil s (e := .writeFailed f) rfl]
    · simp only [hrefuses, Bool.false_eq_true, if_false, measure_veil _ (m := .pduSent f.command.name) (by nofun),
        note_veil s (e := .wrote f octets) rfl]

theorem disconnect_veil (s : Session) :
    (s.veil v).disconnect = (s.disconnect.1.veil v, s.disconnect.2) := rfl

theorem settleStatus_veil (s : Session) (request : Frame) (status : Status) :
    (s.veil v).settleStatus request status =
      ((s.settleStatus request status).1.veil v, (s.settleStatus request status).2) := by
  have hstatus : (s.veil v).status = s.status := rfl
  unfold settleStatus markBound
  rw [hstatus]
  cases hkind : request.kind with
  | bind type =>
    by_cases hok : status.isOk = true
    · cases hs : s.status with
      | opened =>
        simp only [hok, if_true]
        rw [measure_veil _ (by nofun)]
        rfl
      | bound | closed => simp [hok]
    · simp only [hok, Bool.false_eq_true, if_false]
      rw [measure_veil _ (by nofun)]
  | request | response => rfl

theorem openReply_veil (s : Session) (k : Nat) (reply : Reply) :
    (s.veil v).openReply k reply = ((s.openReply k reply).1.veil v, (s.openReply k reply).2) := by
  have hresponder : (s.veil v).responder? k = s.responder? k := rfl
  unfold openReply
  rw [hresponder]
  cases hr : s.responder? k with
  | none => rfl
  | some r =>
    by_cases hsent : r.isSent = true
    · simp only [hsent, if_true, measure_veil s (m := .duplicateResponse) (by nofun)]
    · have hspend : { s.veil v with responders := (s.veil v).responders.set k { r with isSent := true } } =
          ({ s with responders := s.responders.set k { r with isSent := true } } : Session).veil v := rfl
      simp only [hsent, Bool.false_eq_true, if_false, hspend, settleStatus_veil]
      rfl

theorem closeReply_veil (s : Session) (k : Nat) (f : Frame) :
    (s.veil v).closeReply k f = (s.closeReply k f).veil v := by
  unfold closeReply
  rw [transmit_veil]
  have hresponder : ((s.transmit f).1.veil v).responder? k = (s.transmit f).1.responder? k := rfl
  dsimp only
  rw [hresponder]
  cases hr : (s.transmit f).1.responder? k with
  | none => rfl
  | some r => by_cases hunbind : r.request.command = .unbind <;> simp [hunbind, disconnect_veil]

theorem sweep_veil (htime : ∀ x, v.time x = x) (s : Session) : s.sweep.veil v = (s.veil v).sweep := by
  have hnow : (s.veil v).now = s.now := htime _
  have hnext : (s.veil v).nextSweep = s.nextSweep := htime _
  have hwindow : (s.veil v).window = s.window := rfl
  simp only [sweep, hnow, hnext, hwindow]
  generalize s.window.expire s.now = expiry
  obtain ⟨w, expired⟩ := expiry
  dsimp only
  split
  · simp only [veil, htime]
  · rw [measure_veil _ (by nofun)]
    simp only [veil, htime]

/-! ## Frames that come in -/

theorem rest_veil (h : v.Plain) (s : Session) : s.rest.veil v = (s.veil v).rest := by
  simp only [rest, veil, h.waiting]

theorem receive_veil (s : Session) (f : Frame) : (s.receive f).veil v = (s.veil v).receive f := by
  rw [receive, measure_veil _ (by nofun), note_veil s rfl]
  rfl

theorem handleResponse_veil (s : Session) (f : Frame) :
    (s.handleResponse f).veil v = (s.veil v).handleResponse f := by
  have hwindow : (s.veil v).window = s.window := rfl
  unfold handleResponse Window.complete
  rw [hwindow]
  cases s.window.find? f.sequence with
  | none => exact measure_veil s (by nofun)
  | some e => rfl

theorem reject_veil (h : v.Plain) (s : Session) (request : Frame) (status : Status) :
    (s.reject request status).veil v = (s.veil v).reject request status := by
  have hmeasure := measure_veil (v := v) s (m := .stateRejection status.name) (by nofun)
  simp only [reject, ← hmeasure]
  simp only [veil, h.rejecting]

theorem dispatch_veil (h : v.Plain) (s : Session) (f : Frame) :
    (s.dispatch f).veil v = (s.veil v).dispatch f := by
  simp only [dispatch, note, veil, h.calling, List.filter_cons,
    v.keeps (.called s.responders.length s.processor (.ofFrame f)) rfl, if_true]

theorem handleFrame_veil (h : v.Plain) (s : Session) (f : Frame) :
    (s.handleFrame f).veil v = (s.veil v).handleFrame f := by
  have hstatus : ((s.veil v).receive f).status = (s.receive f).status := rfl
  simp only [handleFrame, hstatus]
  cases (s.receive f).status with
  | closed =>
    show (s.receive f).disconnect.1.veil v = _
    rw [← receive_veil]
    rfl
  | opened | bound =>
    cases f.kind with
    | response =>
      show ((s.receive f).handleResponse f).veil v = ((s.veil v).receive f).handleResponse f
      rw [handleResponse_veil, receive_veil]
    | bind type | request =>
      -- Binds are dispatched before the session is bound, and requests when it is.
      dsimp only
      first
        | rw [dispatch_veil h, receive_veil]
        | rw [reject_veil h, receive_veil]

end Session

end Smsc
