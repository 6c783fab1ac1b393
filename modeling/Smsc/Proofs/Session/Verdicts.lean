import Smsc.Proofs.Session.Failures
import Smsc.Proofs.Session.Sending
import Smsc.Proofs.Session.Veil

/-!
# Smsc.Proofs.Session.Verdicts — how the calls of a processor end

Nothing but a counter depends on the verdict of a processor: behind a veil over verdicts and failures every
step is the same, so two runs that differ in verdicts alone stay the same there.

* `blind`: the veil; `step_blind`: a step behind it; `eq_of_blind`: what the veil leaves to be seen;
* `Session.Unanswered`: nobody has replied through a responder;
* `Undisturbed`, `verdicts_disturb_nothing`: two runs that differ in verdicts alone.
-/

namespace Smsc

/-! ## The veil -/

/-- The plan, whatever comes of it. -/
def Plan.blind (p : Plan) : Plan := { p with verdict := .handled }

/-- The stage, whatever will come of the processor's call. -/
def Reader.Stage.blind : Reader.Stage → Reader.Stage
  | .working k plan => .working k plan.blind
  | .pausing wake k plan => .pausing wake k plan.blind
  | .answering f k plan => .answering f k plan.blind
  | stage => stage

/-- The stimulus, whatever will come of a processor's call that begins with it. -/
def Stimulus.blind : Stimulus → Stimulus
  | .begin plan => .begin plan.blind
  | x => x

def Session.Step.blind : Session.Step → Session.Step
  | .feel x => .feel x.blind
  | .move m => .move m

/-- A veil over verdicts and over the failures that are counted. -/
def blind : Veil where
  stage := Reader.Stage.blind
  sees e := !e.isFailure
  input := id
  inputEnded := id
  time := id
  keeps e he := by simp [he]

theorem blind_plain : blind.Plain := ⟨rfl, fun _ => rfl, fun _ _ _ => rfl, rfl⟩

namespace Session

variable {s t : Session}

/-! ## Calls behind the veil -/

theorem conclude_blind (s : Session) (c : Call) (r : Except SessionError Received) :
    (s.conclude c r).veil blind = (s.veil blind).conclude c r := by
  unfold conclude
  rw [disconnect_veil]
  cases c.purpose with
  | request => cases r <;> rfl
  | close =>
    cases r with
    | ok r => rfl
    | error e =>
      generalize hd : s.disconnect = d
      obtain ⟨u, _ | _⟩ := d <;> rfl

theorem afterOffer_blind (s : Session) (c : Call) (frame : Frame) (o : Offered Frame) :
    (s.afterOffer c frame o).veil blind = (s.veil blind).afterOffer c frame o := by
  cases o with
  | admitted entry =>
    have hmeasure := measure_veil (v := blind) s (m := .windowOffer "accepted") (by decide)
    simp only [afterOffer, ← hmeasure]
    rfl
  | refused e =>
    have hmeasure := measure_veil (v := blind) s (m := .windowOffer "rejected") (by decide)
    simp only [afterOffer, ← hmeasure, conclude_blind]
  | waiting p => rfl

theorem startCall_blind (s : Session) (c : Call) :
    (s.startCall c).veil blind = (s.veil blind).startCall c := by
  have hsequence : (s.veil blind).sequenceFor c = ((s.sequenceFor c).1.veil blind, (s.sequenceFor c).2) := by
    unfold sequenceFor
    cases c.request.sequence <;> rfl
  have hoffer (u : Session) (n : UInt32) : (u.offerFrame c n).veil blind = (u.veil blind).offerFrame c n := by
    unfold offerFrame
    cases c.request.toFrame? n with
    | none => exact conclude_blind u c _
    | some frame => exact afterOffer_blind { u with window := _ } c frame _
  have hbound : (s.veil blind).isBound = s.isBound := rfl
  unfold startCall sendRequest
  rw [hbound, hsequence]
  by_cases hb : s.isBound = true
  · by_cases hmay : maySend c.request.command = true
    · simp only [hb, hmay, if_true, hoffer]
    · simp only [hb, hmay, if_true, Bool.false_eq_true, if_false, conclude_blind]
  · simp only [hb, Bool.false_eq_true, if_false, conclude_blind]

theorem writeCall_blind (s : Session) (c : Call) (frame : Frame) (entry : Nat) :
    (s.writeCall c frame entry).veil blind = (s.veil blind).writeCall c frame entry := by
  unfold writeCall
  rw [transmit_veil]
  generalize s.transmit frame = tr
  obtain ⟨u, _ | _⟩ := tr
  · exact conclude_blind { u with window := _ } c _
  · rfl

theorem respondCall_blind (s : Session) (c : Call) (frame : Frame) (since : Instant) (response : Frame) :
    (s.respondCall c frame since response).veil blind = (s.veil blind).respondCall c frame since response := by
  have hmeasure := measure_veil (v := blind) s
    (m := .requestDuration frame.command.name (.between since s.now)) (by nofun)
  unfold respondCall
  rw [conclude_blind]
  by_cases hunbind : frame.command = .unbind
  · simp only [hunbind, if_true]
    rw [hunbind] at hmeasure
    exact congrArg (fun u : Session => u.disconnect.1.conclude c _) hmeasure
  · simp only [hunbind, if_false, hmeasure]
    rfl

theorem awaitCall_blind (s : Session) (c : Call) (frame : Frame) (since : Instant) (x : Waiter) :
    (s.awaitCall c frame since x).veil blind = (s.veil blind).awaitCall c frame since x := by
  have hwindow : (s.veil blind).window.collect (s.veil blind).now x = s.window.collect s.now x := rfl
  unfold awaitCall
  rw [hwindow]
  generalize s.window.collect s.now x = wr
  obtain ⟨w, _ | r⟩ := wr
  · rfl
  cases r with
  | ok response => exact respondCall_blind { s with window := w } c frame since response
  | error e =>
    cases e with
    | timeout key =>
      have hmeasure := measure_veil (v := blind) { s with window := w } (m := .windowTimeout frame.command.name)
        (by nofun)
      exact (conclude_blind _ c _).trans (congrArg (fun u : Session => u.conclude c _) hmeasure)
    | offerTimeout d | duplicateKey key | expired key | closed =>
      exact conclude_blind { s with window := w } c _

theorem stepCall_blind (s : Session) (c : Call) :
    (s.stepCall c).veil blind = (s.veil blind).stepCall c := by
  unfold stepCall
  cases c.stage with
  | starting => exact startCall_blind s c
  | queued frame offer => exact afterOffer_blind { s with window := _ } c frame _
  | writing frame entry => exact writeCall_blind s c frame entry
  | awaiting frame since x => exact awaitCall_blind s c frame since x
  | finished result => rfl

theorem dropCall_blind (s : Session) (c : Call) : (s.dropCall c).veil blind = (s.veil blind).dropCall c := by
  unfold dropCall
  cases c.stage <;> rfl

/-! ## Replies from outside the reader -/

theorem stepAnswer_blind (s : Session) (a : Answer) :
    (s.stepAnswer a).veil blind = (s.veil blind).stepAnswer a := by
  unfold stepAnswer
  cases a.stage with
  | starting =>
    dsimp only
    rw [openReply_veil]
    generalize s.openReply a.responder a.reply = uo
    obtain ⟨u, _ | _⟩ := uo <;> rfl
  | writing response =>
    dsimp only
    rw [closeReply_veil]
    rfl
  | finished sent => rfl

theorem dropAnswer_blind (s : Session) (a : Answer) :
    (s.dropAnswer a).veil blind = (s.veil blind).dropAnswer a := by
  unfold dropAnswer
  cases a.stage <;> rfl

/-! ## The reader -/

theorem readInput_blind (s : Session) : s.readInput.veil blind = (s.veil blind).readInput := by
  have hinput : (s.veil blind).nextInput = s.nextInput := rfl
  unfold readInput
  rw [hinput]
  cases s.nextInput with
  | frame f rest => exact handleFrame_veil blind_plain { s with input := rest } f
  | fault e rest =>
    have hmeasure := measure_veil (v := blind) { s with input := rest } (m := .pduError "decode") (by nofun)
    exact congrArg finishReader hmeasure
  | incomplete => rfl

/-- The verdict is the one thing that does not show. -/
theorem endProcessing_blind (s : Session) (verdict : Verdict) :
    (s.endProcessing verdict).veil blind = (s.veil blind).endProcessing .handled := by
  cases verdict <;> rfl

theorem work_blind (s : Session) (k : Nat) (plan : Plan) :
    (s.work k plan).veil blind = (s.veil blind).work k plan.blind := by
  unfold work
  have hactions : plan.blind.actions = plan.actions := rfl
  rw [hactions]
  cases plan.actions with
  | nil => exact endProcessing_blind s plan.verdict
  | cons action actions =>
    cases action with
    | pause d | hold => rfl
    | send reply =>
      dsimp only
      rw [openReply_veil]
      generalize s.openReply k reply = uo
      obtain ⟨u, _ | _⟩ := uo <;> rfl

theorem readerCan_blind (s : Session) (m : ReaderMove) : (s.veil blind).readerCan m = s.readerCan m := by
  have hreader : (s.veil blind).reader = s.reader.blind := rfl
  have hinput : (s.veil blind).nextInput = s.nextInput := rfl
  unfold readerCan
  rw [hreader, hinput]
  cases m <;> cases s.reader <;> rfl

theorem moveReader_blind (s : Session) (m : ReaderMove) :
    (s.moveReader m).veil blind = (s.veil blind).moveReader m := by
  have hreader : (s.veil blind).reader = s.reader.blind := rfl
  unfold moveReader
  rw [hreader]
  cases hstage : s.reader with
  | waiting =>
    cases m with
    | stop => rfl
    | read => exact readInput_blind s
    | sweep => exact sweep_veil (fun _ => rfl) s
    | proceed => rfl
  | rejecting f =>
    cases m with
    | proceed =>
      show ((s.transmit f).1.rest).veil blind = ((s.veil blind).transmit f).1.rest
      rw [rest_veil blind_plain, transmit_veil]
    | stop | read | sweep => rfl
  | answering f k plan =>
    cases m with
    | proceed =>
      simp only [Reader.Stage.blind, closeReply_veil]
      rfl
    | stop | read | sweep => rfl
  | working k plan =>
    cases m with
    | proceed => exact work_blind s k plan
    | stop | read | sweep => rfl
  | pausing wake k plan | calling k p request | finished => cases m <;> rfl

theorem beginWork_blind (s : Session) (plan : Plan) :
    (s.beginWork plan).veil blind = (s.veil blind).beginWork plan.blind := by
  have hreader : (s.veil blind).reader = s.reader.blind := rfl
  unfold beginWork
  rw [hreader]
  cases s.reader <;> rfl

/-! ## Steps -/

theorem feel_blind (s : Session) (x : Stimulus) : (s.feel x).veil blind = (s.veil blind).feel x.blind := by
  cases x with
  | arrive octets | endInput =>
    have hlistens : (s.veil blind).listens = s.listens := by
      have hreader : (s.veil blind).reader = s.reader.blind := rfl
      unfold listens
      rw [hreader]
      cases s.reader <;> rfl
    simp only [feel, Stimulus.blind, hlistens]
    by_cases hl : s.listens = true
    · simp only [hl, if_true]
      rfl
    · simp only [hl, Bool.false_eq_true, if_false]
  | drop id =>
    have hfind : (s.veil blind).findCall? id = s.findCall? id := rfl
    simp only [feel, Stimulus.blind, hfind]
    cases s.findCall? id with
    | none => rfl
    | some c => exact dropCall_blind s c
  | forget id =>
    have hfind : (s.veil blind).findAnswer? id = s.findAnswer? id := rfl
    simp only [feel, Stimulus.blind, hfind]
    cases s.findAnswer? id with
    | none => rfl
    | some a => exact dropAnswer_blind s a
  | begin plan => exact beginWork_blind s plan
  | elapse | send | close | answer | disconnect | install | failWrites | stallWrites | lingerWrites
  | failDisconnects => rfl

theorem move_blind (s : Session) (m : Move) : (s.move m).veil blind = (s.veil blind).move m := by
  cases m with
  | reader m => exact moveReader_blind s m
  | call id =>
    have hfind : (s.veil blind).findCall? id = s.findCall? id := rfl
    simp only [move, hfind]
    cases s.findCall? id with
    | none => rfl
    | some c => exact stepCall_blind s c
  | answer id =>
    have hfind : (s.veil blind).findAnswer? id = s.findAnswer? id := rfl
    simp only [move, hfind]
    cases s.findAnswer? id with
    | none => rfl
    | some a => exact stepAnswer_blind s a

/-- A step behind the veil is the step of what is behind the veil. -/
theorem step_blind (s : Session) (x : Step) : (s.step x).veil blind = (s.veil blind).step x.blind := by
  cases x with
  | feel y => exact feel_blind s y
  | move m =>
    have hcan : (s.veil blind).can m = s.can m := by
      cases m with
      | reader m => exact readerCan_blind s m
      | call id | answer id => rfl
    simp only [step, Step.blind, hcan]
    by_cases can : s.can m = true
    · simp only [can, if_true, move_blind]
    · simp only [can, Bool.false_eq_true, if_false]

theorem after_blind (s : Session) (xs : List Step) :
    (s.after xs).veil blind = (s.veil blind).after (xs.map Step.blind) := by
  induction xs generalizing s with
  | nil => rfl
  | cons x xs ih =>
    show ((s.step x).after xs).veil blind = ((s.veil blind).step x.blind).after (xs.map Step.blind)
    rw [ih, step_blind]

/-! ## Two runs -/

theorem before_blind (s : Session) (xs : List Step) (i : Nat) :
    (s.before xs i).veil blind = (s.veil blind).before (xs.map Step.blind) i := by
  rw [before, after_blind, List.map_take, before]

theorem can_blind (s : Session) (m : Move) : (s.veil blind).can m = s.can m := by
  cases m with
  | reader m => exact readerCan_blind s m
  | call id | answer id => rfl

/-- Behind the veil the same calls end. -/
theorem ended?_blind (s : Session) (x : Step) :
    ((s.veil blind).ended? x.blind).map (·.1) = (s.ended? x).map (·.1) := by
  have hreader : (s.veil blind).reader = s.reader.blind := rfl
  cases x with
  | feel x => rfl
  | move m =>
    simp only [ended?, Step.blind, hreader]
    cases s.reader with
    | working k plan =>
      obtain ⟨_ | ⟨action, actions⟩, verdict⟩ := plan
      · rcases m with (_ | _ | _ | _) | id | id <;> rfl
      · rcases m with (_ | _ | _ | _) | id | id <;> rfl
    | waiting | rejecting f | calling k p request | pausing wake k plan | answering f k plan | finished =>
      rcases m with (_ | _ | _ | _) | id | id <;> rfl

theorem ended_blind (s : Session) (xs : List Step) :
    ((s.veil blind).ended (xs.map Step.blind)).map (·.1) = (s.ended xs).map (·.1) := by
  induction xs generalizing s with
  | nil => rfl
  | cons x xs ih =>
    have hfirst := congrArg Option.toList (ended?_blind s x)
    rw [Option.toList_map, Option.toList_map] at hfirst
    simp only [List.map_cons, ended, List.map_append, hfirst, ← step_blind, ih]

/-- What two sessions have in common that are the same behind the veil. -/
theorem eq_of_blind (h : t.veil blind = s.veil blind) :
    t = { s with reader := t.reader, log := t.log } ∧ t.reader.blind = s.reader.blind ∧
      t.log.filter (!·.isFailure) = s.log.filter (!·.isFailure) := by
  cases s
  cases t
  simp only [veil, blind, mk.injEq] at h
  simp only [mk.injEq, true_and, and_true]
  tauto

/-! ## Requests that nobody answers -/

/-- Nobody replies through the responder `k` in the first `i` steps. -/
def Unanswered (s : Session) (xs : List Step) (k i : Nat) : Prop :=
  ∀ j < i, ∀ x, xs[j]? = some x → ∀ q reply, ¬ (s.before xs j).Sends k q reply x

variable {xs : List Step} {k i : Nat}

/-- Then no reply through it is on its way. -/
theorem Unanswered.not_mem_due (hs : s.Orderly) (hn : s.Numbered) (hdue : s.due = [])
    (h : s.Unanswered xs k i) (f : Frame) : (k, f) ∉ (s.before xs i).due := by
  intro hmem
  have hsource : ∃ j < i, ∃ x, xs[j]? = some x ∧ ∃ q reply, (s.before xs j).Sends k q reply x := by
    refine stateAt_source (P := fun t : Session => (k, f) ∈ t.due) (fun j x _ _ hstep => ?_)
      (by simp [hdue]) hmem
    have horderly : (s.before xs j).Orderly := before_orderly hs j
    have hnumbered : (s.before xs j).Numbered := before_numbered hs hn j
    rcases (step_deals horderly hnumbered x).mem_due (step_serves horderly hnumbered x).replies hstep with
      hold | ⟨q, reply, u, status, hsends, -⟩
    · exact .inl hold
    · exact .inr ⟨q, reply, hsends⟩
  obtain ⟨j, hji, x, hx, q, reply, hsends⟩ := hsource
  exact h j hji x hx q reply hsends

/-- What is written instead are replies through other responders, and refusals. -/
theorem Unanswered.writes (hs : s.Orderly) (hn : s.Numbered) (hdue : s.due = [])
    (h : s.Unanswered xs k i) {x : Step} {f : Frame} (hwrites : (s.before xs i).Writes x f)
    (hf : f.isResponse = true) :
    (∃ l, l ≠ k ∧ (s.before xs i).SeesOff l f x) ∨ (s.before xs i).reader = .rejecting f := by
  have hdeals : (s.before xs i).Deals x _ := step_deals (before_orderly hs i) (before_numbered hs hn i) x
  rcases hdeals.posts with quiet | ⟨l, g, hseesOff, hposts⟩ | ⟨g, hstage, hposts⟩
  · exact absurd hwrites (quiet.not_writes hf)
  · obtain ⟨rfl, -⟩ := hposts.writes hf hwrites
    refine .inl ⟨l, ?_, hseesOff⟩
    rintro rfl
    exact h.not_mem_due hs hn hdue f hseesOff.mem_due
  · obtain ⟨rfl, -⟩ := hposts.writes hf hwrites
    exact .inr hstage

/-! ## What becomes of two runs -/

/-- What two runs from `s` that differ in verdicts alone have in common after `i` steps, and what not. -/
structure Undisturbed (s : Session) (xs ys : List Step) (i : Nat) : Prop where
  /-- Everything is the same but for the verdict that is to come and the log. -/
  state : s.before ys i =
    { s.before xs i with reader := (s.before ys i).reader, log := (s.before ys i).log }
  reader : (s.before ys i).reader.blind = (s.before xs i).reader.blind
  /-- The same has been read, called and written, and everything is counted alike but failures. -/
  log : (s.before ys i).log.filter (!·.isFailure) = (s.before xs i).log.filter (!·.isFailure)
  /-- The same moves are possible. -/
  can : ∀ m, (s.before ys i).can m = (s.before xs i).can m
  /-- The same calls of processors have ended. -/
  calls : (s.ended (ys.take i)).map (·.1) = (s.ended (xs.take i)).map (·.1)
  /-- Each call that has failed is counted once. -/
  failures : ∀ zs ∈ [xs, ys], (s.before zs i).failures = failuresOf (s.ended (zs.take i))
  /-- Through a responder that nobody has used nothing is written. -/
  silent : ∀ zs ∈ [xs, ys], ∀ k, s.Unanswered zs k i → ∀ x f,
    ¬ (s.before zs i).SeesOff k f x ∧ ((s.before zs i).Writes x f → f.isResponse = true →
      (∃ l, l ≠ k ∧ (s.before zs i).SeesOff l f x) ∨ (s.before zs i).reader = .rejecting f)

/-- However the calls of a processor end, and whatever it has sent until then: the session goes on as if
each of them had succeeded, but that failures are counted. -/
theorem verdicts_disturb_nothing (id : UInt32) (peer : Option SocketAddress) (serverSystemId : String)
    (settings : SessionSettings) (processor : Nat) (now : Instant) (xs ys : List Step)
    (same : xs.map Step.blind = ys.map Step.blind) (i : Nat) :
    (fresh id peer serverSystemId settings processor now).Undisturbed xs ys i := by
  have hs := fresh_orderly id peer serverSystemId settings processor now
  have hn := fresh_numbered id peer serverSystemId settings processor now
  have hdue : (fresh id peer serverSystemId settings processor now).due = [] := rfl
  have hnone : (fresh id peer serverSystemId settings processor now).failures = [] := rfl
  generalize fresh id peer serverSystemId settings processor now = s at hs hn hdue hnone
  have hveil : (s.before ys i).veil blind = (s.before xs i).veil blind := by
    rw [before_blind, before_blind, same]
  obtain ⟨hstate, hreader, hlog⟩ := eq_of_blind hveil
  refine ⟨hstate, hreader, hlog, fun m => ?_, ?_, fun zs _ => ?_, fun zs _ k hk x f => ⟨fun hoff => ?_, ?_⟩⟩
  · rw [← can_blind, hveil, can_blind]
  · rw [← ended_blind s (ys.take i), ← ended_blind s (xs.take i), List.map_take, List.map_take, same]
  · rw [before, after_failures, hnone, List.append_nil]
  · exact hk.not_mem_due hs hn hdue f hoff.mem_due
  · exact hk.writes hs hn hdue

/-- A client is bound, and asks again. The processor accepts the bind and leaves the second request. -/
def twoCalls (first second : Verdict) : List Step :=
  [.feel (.arrive [0, 0, 0, 24, 0, 0, 0, 9, 0, 0, 0, 0, 0, 0, 0, 1, 97, 0, 0, 0, 0x34, 0, 0, 0]),
    .move (.reader .read), .feel (.begin ⟨[.send .ok], first⟩), .move (.reader .proceed),
    .move (.reader .proceed), .move (.reader .proceed),
    .feel (.arrive [0, 0, 0, 16, 0, 0, 0, 0x15, 0, 0, 0, 0, 0, 0, 0, 2]), .move (.reader .read),
    .feel (.begin ⟨[], second⟩), .move (.reader .proceed)]

/-- It panics when the client is bound already, and then fails: two failures, and nothing else changes. -/
theorem twoCalls_undisturbed :
    let s := fresh 1 none "smsc" ⟨10, ⟨1000⟩, ⟨1000⟩, ⟨1000⟩⟩ 0 0
    let failing := twoCalls .panicked (.failed (.other "late"))
    (twoCalls .handled .handled).map Step.blind = failing.map Step.blind ∧ (s.after failing).isBound = true ∧
      (s.after failing).failures =
        [.measured (.processorError "error"), .measured (.processorError "panic")] ∧
      s.Undisturbed (twoCalls .handled .handled) failing 10 := by
  refine ⟨rfl, ?_, ?_, verdicts_disturb_nothing 1 none "smsc" ⟨10, ⟨1000⟩, ⟨1000⟩, ⟨1000⟩⟩ 0 0
    (twoCalls .handled .handled) (twoCalls .panicked (.failed (.other "late"))) rfl 10⟩
  all_goals decide +kernel

end Session

end Smsc
