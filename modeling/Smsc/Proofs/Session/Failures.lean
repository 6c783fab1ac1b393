import Smsc.Proofs.Session.Veil

/-!
# Smsc.Proofs.Session.Failures — failures of processors are counted once

* `Session.failures`: the failures that were counted; nothing adds to them but the end of a call;
* `Session.ended?`, `Session.ended`: the calls of a processor that end in a step, and in a run;
* `step_failures`, `after_failures`: what is counted is how the calls have ended.
-/

namespace Smsc

/-- What is counted when a call of a processor ends so. -/
def Verdict.failure? : Verdict → Option Measurement
  | .handled => none
  | .failed _ => some (.processorError "error")
  | .panicked => some (.processorError "panic")

namespace Session

variable {s t : Session}

/-- The failures of processors that were counted, the newest first. -/
def failures (s : Session) : List SessionEvent := s.log.filter (·.isFailure)

theorem note_failures {e : SessionEvent} (he : e.isFailure = false) : (s.note e).failures = s.failures := by
  simp [failures, note, he]

theorem transmit_failures (s : Session) (f : Frame) : (s.transmit f).1.failures = s.failures := by
  unfold transmit
  split
  · rfl
  · split <;> rfl

theorem openReply_failures (s : Session) (k : Nat) (reply : Reply) :
    (s.openReply k reply).1.failures = s.failures := by
  by_cases unsent : ∃ q, s.responders[k]? = some ⟨q, false⟩
  · obtain ⟨q, unsent⟩ := unsent
    unfold openReply settleStatus markBound
    simp only [responder?, unsent, Bool.false_eq_true, if_false]
    cases q.kind with
    | bind type =>
      by_cases hok : reply.status.isOk = true
      · cases hs : s.status <;> simp [hok] <;> rfl
      · simp only [hok, Bool.false_eq_true, if_false]
        rfl
    | request | response => rfl
  · unfold openReply
    split
    · rfl
    · rename_i r hr
      obtain ⟨q, _ | _⟩ := r
      · exact absurd ⟨q, hr⟩ unsent
      · rfl

theorem closeReply_failures (s : Session) (k : Nat) (f : Frame) :
    (s.closeReply k f).failures = s.failures := by
  refine Eq.trans ?_ (transmit_failures s f)
  unfold closeReply
  dsimp only
  split
  · split <;> rfl
  · rfl

theorem conclude_failures (s : Session) (c : Call) (r : Except SessionError Received) :
    (s.conclude c r).failures = s.failures := by
  have hdisconnect : s.disconnect.1.failures = s.failures := rfl
  unfold conclude
  cases c.purpose with
  | request => cases r <;> rfl
  | close =>
    cases r with
    | ok r => rfl
    | error e =>
      generalize s.disconnect = d at hdisconnect
      obtain ⟨u, _ | _⟩ := d <;> exact hdisconnect

theorem afterOffer_failures (s : Session) (c : Call) (frame : Frame) (o : Offered Frame) :
    (s.afterOffer c frame o).failures = s.failures := by
  cases o with
  | refused e => exact conclude_failures (s.measure _) c _
  | admitted entry | waiting offer => rfl

theorem stepCall_failures (s : Session) (c : Call) : (s.stepCall c).failures = s.failures := by
  unfold stepCall
  cases c.stage with
  | starting =>
    dsimp only
    unfold startCall sendRequest offerFrame
    split
    · split
      · have hsequence : (s.sequenceFor c).1.failures = s.failures := by
          unfold sequenceFor
          split <;> rfl
        refine Eq.trans ?_ hsequence
        dsimp only
        generalize (s.sequenceFor c).1 = u
        split
        · exact conclude_failures u c _
        · exact afterOffer_failures { u with window := _ } c _ _
      · exact conclude_failures s c _
    · exact conclude_failures s c _
  | queued frame offer => exact afterOffer_failures { s with window := _ } c frame _
  | writing frame entry =>
    have htransmit := transmit_failures s frame
    dsimp only
    unfold writeCall
    generalize s.transmit frame = tr at htransmit
    obtain ⟨u, _ | _⟩ := tr
    · exact (conclude_failures { u with window := _ } c _).trans htransmit
    · exact htransmit
  | awaiting frame since x =>
    dsimp only
    unfold awaitCall respondCall
    split
    · rfl
    · refine (conclude_failures _ c _).trans ?_
      split <;> rfl
    · exact conclude_failures _ c _
    · exact conclude_failures { s with window := _ } c _
  | finished result => rfl

theorem dropCall_failures (s : Session) (c : Call) : (s.dropCall c).failures = s.failures := by
  unfold dropCall
  split <;> rfl

theorem stepAnswer_failures (s : Session) (a : Answer) : (s.stepAnswer a).failures = s.failures := by
  unfold stepAnswer
  cases a.stage with
  | starting =>
    have hopen := openReply_failures s a.responder a.reply
    dsimp only
    generalize s.openReply a.responder a.reply = uo at hopen
    obtain ⟨u, _ | _⟩ := uo <;> exact hopen
  | writing response => exact closeReply_failures s a.responder response
  | finished sent => rfl

theorem handleFrame_failures (s : Session) (f : Frame) : (s.handleFrame f).failures = s.failures := by
  unfold handleFrame
  dsimp only
  split
  · rfl
  · unfold handleResponse
    split <;> rfl
  · rfl
  · rfl
  · rfl

theorem readInput_failures (s : Session) : s.readInput.failures = s.failures := by
  unfold readInput
  split
  · rename_i f rest _
    exact handleFrame_failures { s with input := rest } f
  · rfl
  · rfl

theorem sweep_failures (s : Session) : s.sweep.failures = s.failures := by
  unfold sweep
  dsimp only
  split <;> rfl

theorem feel_failures (s : Session) (x : Stimulus) : (s.feel x).failures = s.failures := by
  unfold feel
  split
  · split <;> rfl
  · split <;> rfl
  · rfl
  · rfl
  · rfl
  · split
    · exact dropCall_failures s _
    · rfl
  · rfl
  · split
    · unfold dropAnswer
      split <;> rfl
    · rfl
  · rfl
  · rfl
  · unfold beginWork
    split <;> rfl
  · rfl
  · rfl
  · rfl
  · rfl

/-! ## Calls that end -/

/-- The call of a processor that a step ends, if it does: its responder and its verdict. -/
def ended? (s : Session) (x : Step) : Option (Nat × Verdict) :=
  match x, s.reader with
  | .move (.reader .proceed), .working k ⟨[], verdict⟩ => some (k, verdict)
  | _, _ => none

/-- The calls of a processor that end in a run, the oldest first. -/
def ended (s : Session) : List Step → List (Nat × Verdict)
  | [] => []
  | x :: xs => (s.ended? x).toList ++ (s.step x).ended xs

/-- What is counted for calls that have ended, the newest first. -/
def failuresOf (calls : List (Nat × Verdict)) : List SessionEvent :=
  (calls.filterMap (·.2.failure?)).reverse.map .measured

theorem failuresOf_append (calls more : List (Nat × Verdict)) :
    failuresOf (calls ++ more) = failuresOf more ++ failuresOf calls := by
  simp only [failuresOf, List.filterMap_append, List.reverse_append, List.map_append]

theorem work_failures (s : Session) (k : Nat) (plan : Plan) (hstage : s.reader = .working k plan) :
    (s.work k plan).failures = failuresOf (s.ended? (.move (.reader .proceed))).toList ++ s.failures := by
  obtain ⟨actions, verdict⟩ := plan
  simp only [ended?, hstage]
  cases actions with
  | nil => cases verdict <;> rfl
  | cons action actions =>
    cases action with
    | pause d | hold => rfl
    | send reply =>
      have hopen := openReply_failures s k reply
      unfold work
      dsimp only
      generalize s.openReply k reply = uo at hopen
      obtain ⟨u, _ | _⟩ := uo <;> exact hopen

theorem moveReader_failures (s : Session) (m : ReaderMove) :
    (s.moveReader m).failures = failuresOf (s.ended? (.move (.reader m))).toList ++ s.failures := by
  cases hstage : s.reader with
  | waiting =>
    cases m <;> simp only [moveReader, ended?, hstage]
    case read => exact readInput_failures s
    case sweep => exact sweep_failures s
    all_goals rfl
  | rejecting f =>
    cases m <;> simp only [moveReader, ended?, hstage]
    case proceed => exact transmit_failures s f
    all_goals rfl
  | answering f k plan =>
    cases m <;> simp only [moveReader, ended?, hstage]
    case proceed => exact (note_failures rfl).trans (closeReply_failures s k f)
    all_goals rfl
  | working k plan =>
    cases m
    case proceed =>
      rw [← work_failures s k plan hstage]
      simp only [moveReader, hstage]
    all_goals simp only [moveReader, ended?, hstage]; rfl
  | pausing wake k plan | calling k p request | finished =>
    cases m <;> simp only [moveReader, ended?, hstage] <;> rfl

theorem step_failures (s : Session) (x : Step) :
    (s.step x).failures = failuresOf (s.ended? x).toList ++ s.failures := by
  cases x with
  | feel x => exact feel_failures s x
  | move m =>
    cases m with
    | reader m =>
      by_cases can : s.can (.reader m) = true
      · rw [step, if_pos can]
        exact moveReader_failures s m
      · -- A call that has nothing left to do can always end.
        have hended : s.ended? (.move (.reader m)) = none := by
          unfold ended?
          split
          · rename_i k verdict hmove hstage
            cases hmove
            simp [Session.can, readerCan, hstage] at can
          · rfl
        rw [step, if_neg can, hended]
        rfl
    | call id =>
      rw [step]
      split
      · rw [move]
        split
        · exact stepCall_failures s _
        · rfl
      · rfl
    | answer id =>
      rw [step]
      split
      · rw [move]
        split
        · exact stepAnswer_failures s _
        · rfl
      · rfl

/-- What a run counts is how the calls in it have ended. -/
theorem after_failures (s : Session) (xs : List Step) :
    (s.after xs).failures = failuresOf (s.ended xs) ++ s.failures := by
  induction xs generalizing s with
  | nil => rfl
  | cons x xs ih =>
    show ((s.step x).after xs).failures = _
    rw [ih, step_failures, ended, failuresOf_append, List.append_assoc]

end Session

end Smsc
