import Smsc.Proofs.Session.Intake
import Smsc.Proofs.Session.Veil

/-!
# Smsc.Proofs.Session.Conversation — a client and a processor

If nobody but the client and a processor has a part in a session, then what is written and who is called
follows from the frames alone: it does not matter when they arrive, nor how long anything takes.

* `Session.through π`: the session when the reader is through with what it has in hand;
* `Session.converse π`, `Session.heard π`: frames handled one after the other, until the session is closed;
* `Attends π s x`: a step in which only the client, the clock and the processor `π` have a part;
* `Follows π s xs`, `Follows.step`: a run of such steps, as the conversation sees it.
-/

namespace Smsc

/-- The request that a processor was called with. -/
def SessionEvent.request? : SessionEvent → Option Request
  | .called _ _ request => some request
  | _ => none

/-- Is it more than a frame that comes in, or a number? -/
def SessionEvent.isOutward : SessionEvent → Bool
  | .received _ | .measured _ => false
  | _ => true

/-- A veil over the stage of the reader. -/
def parked : Veil := ⟨fun _ => .waiting, fun _ => true, id, id, id, fun _ _ => rfl⟩

/-- A veil over what comes in, and over the time. -/
def unseen : Veil := ⟨id, fun _ => true, fun _ => [], fun _ => false, fun _ => 0, fun _ _ => rfl⟩

theorem unseen_plain : unseen.Plain := ⟨rfl, fun _ => rfl, fun _ _ _ => rfl, rfl⟩

namespace Session

variable {s t : Session} {π : List Request → Plan}

/-- The requests that processors were called with, the oldest first. -/
def asked (s : Session) : List Request := (s.log.filterMap (·.request?)).reverse

/-- What was written, who was called, and how replies were taken, the newest first. -/
def outward (s : Session) : List SessionEvent := s.log.filter (·.isOutward)

/-! ## Frames one after the other -/

/-- A processor's plan, carried out at once. -/
def carryOut (s : Session) (k : Nat) (verdict : Verdict) : List ProcessorAction → Session
  | [] => s.endProcessing verdict
  | .pause _ :: actions => carryOut s k verdict actions
  | .hold :: actions => carryOut (s.note (.held k)) k verdict actions
  | .send reply :: actions =>
    match s.openReply k reply with
    | (s, some response) => carryOut ((s.closeReply k response).note (.replied k true)) k verdict actions
    | (s, none) => carryOut (s.note (.replied k false)) k verdict actions

/-- The session when the reader is through with what it has in hand. -/
def through (π : List Request → Plan) (s : Session) : Session :=
  match s.reader with
  | .waiting | .finished => s
  | .rejecting response => (s.rest.transmit response).1
  | .calling k _ _ => s.rest.carryOut k (π s.asked).verdict (π s.asked).actions
  | .working k plan | .pausing _ k plan => s.rest.carryOut k plan.verdict plan.actions
  | .answering response k plan =>
    ((s.rest.closeReply k response).note (.replied k true)).carryOut k plan.verdict plan.actions

/-- What frames come to, handled one after the other until the session is closed. -/
def converse (π : List Request → Plan) (s : Session) : List Frame → Session
  | [] => s
  | f :: fs => if s.status = .closed then s else converse π (through π (s.handleFrame f)) fs

/-- The frames that are handled until the session is closed. -/
def heard (π : List Request → Plan) (s : Session) : List Frame → List Frame
  | [] => []
  | f :: fs => if s.status = .closed then [] else f :: heard π (through π (s.handleFrame f)) fs

theorem converse_of_closed (closed : s.status = .closed) (fs : List Frame) : s.converse π fs = s := by
  cases fs with
  | nil => rfl
  | cons f fs => rw [converse, if_pos closed]

theorem heard_of_closed (closed : s.status = .closed) (fs : List Frame) : s.heard π fs = [] := by
  cases fs with
  | nil => rfl
  | cons f fs => rw [heard, if_pos closed]

theorem converse_append (s : Session) (fs gs : List Frame) :
    s.converse π (fs ++ gs) = (s.converse π fs).converse π gs := by
  induction fs generalizing s with
  | nil => rfl
  | cons f fs ih =>
    rw [List.cons_append, converse, converse]
    split
    · rename_i closed
      exact (converse_of_closed closed gs).symm
    · exact ih _

theorem heard_append (s : Session) (fs gs : List Frame) :
    s.heard π (fs ++ gs) = s.heard π fs ++ (s.converse π fs).heard π gs := by
  induction fs generalizing s with
  | nil => rfl
  | cons f fs ih =>
    rw [List.cons_append, heard, heard, converse]
    split
    · rename_i closed
      exact (heard_of_closed closed gs).symm
    · rw [ih, List.cons_append]

/-! ## What does not matter -/

theorem veil_parked (s : Session) : s.veil parked = s.rest := by
  simp [veil, parked, rest]

theorem transmit_rest (s : Session) (f : Frame) :
    s.rest.transmit f = ((s.transmit f).1.rest, (s.transmit f).2) := by
  simpa only [veil_parked] using transmit_veil (v := parked) s f

theorem openReply_rest (s : Session) (k : Nat) (reply : Reply) :
    s.rest.openReply k reply = ((s.openReply k reply).1.rest, (s.openReply k reply).2) := by
  simpa only [veil_parked] using openReply_veil (v := parked) s k reply

theorem closeReply_rest (s : Session) (k : Nat) (f : Frame) :
    s.rest.closeReply k f = (s.closeReply k f).rest := by
  simpa only [veil_parked] using closeReply_veil (v := parked) s k f

theorem measure_unseen (s : Session) (m : Measurement) :
    (s.measure m).veil unseen = (s.veil unseen).measure m := by
  simp [veil, unseen, measure, note]

theorem carryOut_unseen (s : Session) (k : Nat) (verdict : Verdict) (actions : List ProcessorAction) :
    (s.carryOut k verdict actions).veil unseen = (s.veil unseen).carryOut k verdict actions := by
  induction actions generalizing s with
  | nil =>
    cases verdict with
    | handled => exact rest_veil unseen_plain s
    | failed e => exact (rest_veil unseen_plain _).trans (congrArg rest (measure_unseen s _))
    | panicked => exact (rest_veil unseen_plain _).trans (congrArg rest (measure_unseen s _))
  | cons action actions ih =>
    cases action with
    | pause d => exact ih s
    | hold => exact (ih _).trans (congrArg (carryOut · k verdict actions) (note_veil s rfl))
    | send reply =>
      rw [carryOut, carryOut, openReply_veil]
      generalize s.openReply k reply = uo
      obtain ⟨u, _ | response⟩ := uo
      · exact (ih _).trans (congrArg (carryOut · k verdict actions) (note_veil u rfl))
      · dsimp only
        rw [ih, note_veil _ rfl, closeReply_veil]

theorem through_unseen (s : Session) : (through π s).veil unseen = through π (s.veil unseen) := by
  have hreader : (s.veil unseen).reader = s.reader := rfl
  have hasked : (s.veil unseen).asked = s.asked := by simp [asked, veil, unseen]
  unfold through
  rw [hreader, hasked, ← rest_veil unseen_plain]
  cases s.reader with
  | waiting | finished => rfl
  | rejecting response => simp only [transmit_veil]
  | calling k p request | working k plan | pausing wake k plan => exact carryOut_unseen _ _ _ _
  | answering response k plan =>
    dsimp only
    rw [carryOut_unseen, note_veil _ rfl, closeReply_veil]

/-- Sessions that differ in what comes in and in the time alone come to the same with a frame. -/
theorem through_handleFrame_unseen (h : t.veil unseen = s.veil unseen) (f : Frame) :
    (through π (t.handleFrame f)).veil unseen = (through π (s.handleFrame f)).veil unseen := by
  rw [through_unseen, through_unseen, handleFrame_veil unseen_plain, handleFrame_veil unseen_plain, h]

/-! ## Steps in which only the client, the clock and a processor have a part -/

/-- Only the client, the clock, the processor `π` and the session itself have a part in the step. -/
def Attends (π : List Request → Plan) (s : Session) : Step → Prop
  | .feel (.arrive _) | .feel .endInput | .feel (.elapse _) | .move _ => True
  | .feel (.begin plan) => plan = π s.asked
  | .feel _ => False

instance (s : Session) (x : Step) : Decidable (s.Attends π x) :=
  match x with
  | .feel (.begin plan) => inferInstanceAs (Decidable (plan = π s.asked))
  | .feel (.arrive _) | .feel .endInput | .feel (.elapse _) | .move _ => .isTrue trivial
  | .feel (.send ..) | .feel .close | .feel (.drop _) | .feel (.answer ..) | .feel (.forget _)
  | .feel .disconnect | .feel (.install _) | .feel (.failWrites _) | .feel (.stallWrites _)
  | .feel (.lingerWrites _) | .feel (.failDisconnects _) => .isFalse not_false

/-- The server asks for nothing itself, and nobody replies later. -/
structure Alone (s : Session) : Prop where
  calls : s.calls = []
  answers : s.answers = []

theorem ReaderTurn.answers_eq {m : ReaderMove} (h : s.ReaderTurn m t) : t.answers = s.answers := by
  cases h with
  | stops | wakes => rfl
  | reads stage _ reads =>
    cases reads with
    | frame f rest input handles => cases handles <;> rfl
    | fault | ends => rfl
  | sweeps stage =>
    unfold sweep
    dsimp only
    split <;> rfl
  | refuses f stage u sends =>
    subst sends
    exact (Beside.transmit s f).answers
  | answers f k plan stage u closes =>
    subst closes
    exact (closeReply_beside s k f).answers
  | works k plan stage _ works =>
    cases works with
    | ends u same => rcases same with rfl | ⟨m, rfl⟩ <;> rfl
    | pauses | holds => rfl
    | answers u plan f settles | refused u plan settles => exact settles.answers

/-- Then only the reader moves. -/
theorem Alone.move_eq (h : s.Alone) {m : Move} (can : s.can m = true) :
    ∃ r, m = .reader r ∧ s.step (.move m) = s.moveReader r := by
  cases m with
  | reader r => exact ⟨r, rfl, step_reader can⟩
  | call id => simp [Session.can, findCall?, h.calls] at can
  | answer id => simp [Session.can, findAnswer?, h.answers] at can

theorem Alone.step (h : s.Alone) {x : Step} (attends : s.Attends π x) : (s.step x).Alone := by
  cases x with
  | feel y =>
    cases y with
    | arrive | endInput =>
      rw [Session.step, feel]
      split <;> exact ⟨h.calls, h.answers⟩
    | begin plan =>
      rw [Session.step, feel, beginWork]
      split <;> exact ⟨h.calls, h.answers⟩
    | elapse => exact ⟨h.calls, h.answers⟩
    | send | close | drop | answer | forget | disconnect | install | failWrites | stallWrites | lingerWrites
    | failDisconnects => exact attends.elim
  | move m =>
    by_cases can : s.can m = true
    · obtain ⟨r, rfl, hstep⟩ := h.move_eq can
      have hturn := moveReader_turn can
      rw [hstep]
      exact ⟨hturn.calls.trans h.calls, hturn.answers_eq.trans h.answers⟩
    · rwa [Session.step, if_neg can]

/-- Without calls of the server the window is empty. -/
theorem Alone.entries (h : s.Alone) (covered : s.Covered) : s.window.entries = [] := by
  refine List.eq_nil_iff_forall_not_mem.mpr fun e he => ?_
  obtain ⟨c, hc, -⟩ := covered.owner (.entry e.id) ⟨e, he, rfl⟩
  rw [h.calls] at hc
  cases hc

theorem sweep_unseen (entries : s.window.entries = []) : s.sweep.veil unseen = s.veil unseen := by
  simp [sweep, Window.expire, Window.releaseAll, entries, veil, unseen]

/-- Whatever comes in, and however much time passes: what the reader has in hand comes to the same. -/
theorem feel_through {y : Stimulus} (attends : s.Attends π (.feel y)) :
    (through π (s.feel y)).veil unseen = (through π s).veil unseen := by
  cases y with
  | arrive | endInput =>
    rw [through_unseen, through_unseen, feel]
    split <;> rfl
  | elapse d =>
    rw [through_unseen, through_unseen]
    rfl
  | begin plan =>
    obtain rfl : plan = π s.asked := attends
    rw [feel, beginWork]
    split
    · rename_i k p request stage
      simp only [through, stage]
      rfl
    · rfl
  | send | close | drop | answer | forget | disconnect | install | failWrites | stallWrites | lingerWrites
  | failDisconnects => exact attends.elim

/-- The reader gets on with what it has in hand, and that comes to the same. -/
theorem proceed_through (can : s.can (.reader .proceed) = true) :
    through π (s.moveReader .proceed) = through π s := by
  cases hstage : s.reader with
  | waiting | calling k p request | finished => simp [Session.can, readerCan, hstage] at can
  | rejecting response =>
    simp only [moveReader, through, hstage, transmit_rest]
    rfl
  | pausing wake k plan =>
    simp only [moveReader, through, hstage]
    rfl
  | answering response k plan =>
    simp only [moveReader, through, hstage, closeReply_rest]
    rfl
  | working k plan =>
    obtain ⟨actions, verdict⟩ := plan
    simp only [moveReader, through, hstage]
    cases actions with
    | nil => cases verdict <;> rfl
    | cons action actions =>
      cases action with
      | pause d | hold => rfl
      | send reply =>
        simp only [work, carryOut, openReply_rest]
        generalize s.openReply k reply = uo
        obtain ⟨u, _ | response⟩ := uo <;> rfl

/-! ## When the conversation is over -/

/-- The session is closed, and the reader has nothing in hand. -/
structure Over (s : Session) : Prop where
  closed : s.status = .closed
  idle : s.reader = .waiting ∨ s.reader = .finished

theorem finishReader_over (s : Session) : s.finishReader.Over := ⟨rfl, .inr rfl⟩

/-- A closed session drops the frames that still come in. -/
theorem readInput_over (h : s.Over) : s.readInput.Over ∧ s.readInput.outward = s.outward := by
  unfold readInput
  split
  · rename_i f rest _
    have hclosed : ({ s with input := rest }.receive f).status = .closed := h.closed
    simp only [handleFrame, hclosed]
    exact ⟨⟨rfl, h.idle⟩, rfl⟩
  · exact ⟨finishReader_over _, rfl⟩
  · exact ⟨finishReader_over _, rfl⟩

theorem sweep_over (h : s.Over) : s.sweep.Over ∧ s.sweep.outward = s.outward := by
  unfold sweep
  dsimp only
  split <;> exact ⟨⟨h.closed, h.idle⟩, rfl⟩

theorem Over.step (h : s.Over) (alone : s.Alone) {x : Step} (attends : s.Attends π x) :
    (s.step x).Over ∧ (s.step x).outward = s.outward := by
  cases x with
  | feel y =>
    cases y with
    | arrive | endInput =>
      rw [Session.step, feel]
      split <;> exact ⟨⟨h.closed, h.idle⟩, rfl⟩
    | elapse => exact ⟨⟨h.closed, h.idle⟩, rfl⟩
    | begin plan =>
      rw [Session.step, feel, beginWork]
      split
      · rename_i stage
        rcases h.idle with idle | idle <;> simp [stage] at idle
      · exact ⟨h, rfl⟩
    | send | close | drop | answer | forget | disconnect | install | failWrites | stallWrites | lingerWrites
    | failDisconnects => exact attends.elim
  | move m =>
    by_cases can : s.can m = true
    · obtain ⟨r, rfl, hstep⟩ := alone.move_eq can
      rw [hstep]
      rcases h.idle with idle | idle
      · cases r with
        | stop =>
          simp only [moveReader, idle]
          exact ⟨finishReader_over s, rfl⟩
        | read =>
          simp only [moveReader, idle]
          exact readInput_over h
        | sweep =>
          simp only [moveReader, idle]
          exact sweep_over h
        | proceed => simp [Session.can, readerCan, idle] at can
      · cases r <;> simp [Session.can, readerCan, idle] at can
    · rw [Session.step, if_neg can]
      exact ⟨h, rfl⟩

/-! ## A run and the conversation -/

/-- How far a run `xs` from `s` has got with the conversation. -/
inductive Follows (π : List Request → Plan) (s : Session) (xs : List Step) : Prop where
  /-- When the reader is through with what it has in hand, the frames handled so far are dealt with. -/
  | talks (same : (through π (s.after xs)).veil unseen = (s.converse π (s.handled xs)).veil unseen)
  /-- There is nothing more to say: the session has been closed, or no frame is left. -/
  | ends (settled : (s.after xs).Over) (outward : (s.after xs).outward = (s.converse π (s.handled xs)).outward)
      (last : (s.converse π (s.handled xs)).status = .closed ∨
        ∀ ys, (Frame.drain (arrivals (xs ++ ys))).frames = s.handled xs)

theorem outward_of_unseen (h : t.veil unseen = s.veil unseen) : t.outward = s.outward := by
  have hlog : t.log = s.log := by simpa [veil, unseen] using congrArg Session.log h
  rw [outward, outward, hlog]

theorem status_of_unseen (h : t.veil unseen = s.veil unseen) : t.status = s.status := by
  have hstatus : (t.veil unseen).status = (s.veil unseen).status := by rw [h]
  exact hstatus

section Run

variable {xs : List Step} {x : Step}

/-- Nothing is taken in the step, and the reader gets on with what it has in hand, if anything. -/
theorem Follows.talks_on
    (same : (through π (s.after xs)).veil unseen = (s.converse π (s.handled xs)).veil unseen)
    (unread : (s.after xs).handled? x = none)
    (keeps : (through π ((s.after xs).step x)).veil unseen = (through π (s.after xs)).veil unseen) :
    s.Follows π (xs ++ [x]) := by
  refine .talks ?_
  rw [after_concat, handled_concat, unread, Option.toList_none, List.append_nil, keeps, same]

/-- The conversation is over, and stays so. -/
theorem Follows.ends_on (settled : ((s.after xs).step x).Over)
    (outward : ((s.after xs).step x).outward = (s.converse π (s.handled xs)).outward)
    (unread : (s.after xs).handled? x = none)
    (last : (s.converse π (s.handled xs)).status = .closed ∨
      ∀ ys, (Frame.drain (arrivals (xs ++ ys))).frames = s.handled xs) : s.Follows π (xs ++ [x]) := by
  have hhandled : s.handled (xs ++ [x]) = s.handled xs := by
    rw [handled_concat, unread, Option.toList_none, List.append_nil]
  refine .ends (by rwa [after_concat]) (by rw [after_concat, hhandled, outward]) ?_
  rw [hhandled]
  exact last.imp_right fun all ys => by rw [List.append_assoc]; exact all ([x] ++ ys)

/-- A session is told to shut down when it is closed, and not before. -/
def ShutsLast (s : Session) : Prop := s.isShutDown = true → s.status = .closed

theorem Advances.shutsLast (h : s.Advances t) (hs : s.ShutsLast) : t.ShutsLast := by
  intro hshut
  rcases h with ⟨hstatus, hsame, -⟩ | ⟨closed, -⟩
  · have closed := hs (hsame ▸ hshut)
    rcases hstatus with hstatus | ⟨opened, -⟩
    · rw [hstatus, closed]
    · rw [closed] at opened
      cases opened
  · exact closed

variable (hs : s.Orderly) (hinput : s.input = []) (hopen : s.inputEnded = false)
  (hends : ∀ xs, (s.after xs).reader = .finished → (s.after xs).status = .closed)
include hs hinput hopen hends

/-- The reader takes what the input gives. -/
theorem Follows.reads
    (same : (through π (s.after xs)).veil unseen = (s.converse π (s.handled xs)).veil unseen)
    (stage : (s.after xs).reader = .waiting) (can : (s.after xs).can (.reader .read) = true) :
    s.Follows π (xs ++ [.move (.reader .read)]) := by
  have hstep : (s.after xs).step (.move (.reader .read)) = (s.after xs).readInput := by
    rw [step_reader can]
    simp only [moveReader, stage]
  have hthrough : through π (s.after xs) = s.after xs := by rw [through, stage]
  rw [hthrough] at same
  have hstatus := status_of_unseen same
  have houtward := outward_of_unseen same
  by_cases closed : (s.after xs).status = .closed
  · obtain ⟨settled, still⟩ := readInput_over ⟨closed, .inl stage⟩
    exact .ends_on (by rwa [hstep]) (by rw [hstep, still, houtward]) (handled?_of_closed closed _)
      (.inl (hstatus.symm.trans closed))
  cases next : (s.after xs).nextInput with
  | frame f rest =>
    have htaken : (s.after xs).handled? (.move (.reader .read)) = some f :=
      handled?_eq_some.mpr ⟨rfl, can, closed, rest, next⟩
    obtain ⟨rest, -, hread⟩ := step_of_handled htaken
    have hone (u : Session) (going : u.status ≠ .closed) : u.converse π [f] = through π (u.handleFrame f) := by
      simp only [converse, going, if_false]
    refine .talks ?_
    rw [after_concat, hread, handled_concat, htaken, Option.toList_some, converse_append,
      hone _ (hstatus ▸ closed)]
    have hsame : { s.after xs with input := rest }.veil unseen =
        (s.converse π (s.handled xs)).veil unseen := same
    exact through_handleFrame_unseen hsame f
  | fault e rest | incomplete =>
    have hnone : ∀ f rest, (s.after xs).nextInput ≠ .frame f rest := by simp [next]
    have hall := handled_all hs hinput hopen hends closed can hnone
    refine .ends_on ?_ ?_ (handled?_of_no_frame hnone _) (.inr fun ys => (hall ys).symm)
    all_goals
      rw [hstep]
      simp only [readInput, next]
    · exact finishReader_over _
    · exact houtward

/-- Every step of a run gets on with the conversation, or leaves it where it is. -/
theorem Follows.step (h : s.Follows π xs) (alone : (s.after xs).Alone) (covered : (s.after xs).Covered)
    (shuts : (s.after xs).ShutsLast) (attends : (s.after xs).Attends π x) : s.Follows π (xs ++ [x]) := by
  cases h with
  | ends settled outward last =>
    obtain ⟨settled', still⟩ := settled.step alone attends
    exact .ends_on settled' (still.trans outward) (handled?_of_closed settled.closed x) last
  | talks same =>
    cases x with
    | feel y => exact .talks_on same (by simp [handled?]) (feel_through attends)
    | move m =>
      by_cases can : (s.after xs).can m = true
      · obtain ⟨r, rfl, hstep⟩ := alone.move_eq can
        have hstage := waiting_of_can can
        cases r with
        | read => exact .reads hs hinput hopen hends same (hstage (by decide)) can
        | proceed =>
          refine .talks_on same (by simp [handled?]) ?_
          rw [hstep, proceed_through can]
        | sweep =>
          have hswept : (s.after xs).moveReader .sweep = (s.after xs).sweep := by
            simp only [moveReader, hstage (by decide)]
          refine .talks_on same (by simp [handled?]) ?_
          rw [hstep, hswept, through_unseen, through_unseen, sweep_unseen (alone.entries covered)]
        | stop =>
          have hstopped : (s.after xs).moveReader .stop = (s.after xs).finishReader := by
            simp only [moveReader, hstage (by decide)]
          have closed : (s.after xs).status = .closed :=
            shuts (by simpa [Session.can, readerCan, hstage (by decide)] using can)
          have hthrough : through π (s.after xs) = s.after xs := by rw [through, hstage (by decide)]
          rw [hthrough] at same
          have houtward := outward_of_unseen same
          refine .ends_on ?_ ?_ (by simp [handled?]) (.inl ((status_of_unseen same).symm.trans closed))
          all_goals rw [hstep, hstopped]
          · exact finishReader_over _
          · exact houtward
      · refine .talks_on same ?_ ?_
        · exact handled?_of_unread fun hcan hread => can (by cases hread; exact hcan)
        · rw [Session.step, if_neg can]

end Run

end Session

end Smsc
