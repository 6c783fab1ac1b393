import Smsc.Proofs.Session.Ending
import Smsc.Proofs.Session.OneReply

/-!
# Smsc.Proofs.Session.Sending — which steps send, write and call

A reply takes two steps, whether the processor at work sends it or somebody who kept the responder. The
first one settles its status and uses the responder up, the second one sees it off.

* `Settling s q status u status'`: what becomes of a status, `settleStatus_settling`;
* `Sends s k q reply x`: in the step `x` the reply is the first through its responder, `Sends.step`;
* `SeesOff.step`: the second step of a reply;
* `Deals s x t`, `step_deals`: a step sends a reply, sees one off, takes a frame, writes a refusal, or
  spares all that; `Deals.mem_due`, `Deals.refused`: where replies and refusals come from;
* `Writes s x f`, `Deals.posts`: what a step writes.
-/

namespace Smsc

/-- Neither is a response written, nor a processor called. -/
def SessionEvent.IsCalm : SessionEvent → Prop
  | .wrote f _ => f.isResponse = false
  | .called .. => False
  | _ => True

theorem SessionEvent.OfCall.isCalm {e : SessionEvent} (h : e.OfCall) : e.IsCalm := by
  cases e with
  | wrote f octets => exact h.1.isResponse
  | called => exact h.elim
  | _ => trivial

theorem SessionEvent.IsCalm.isQuiet {e : SessionEvent} (h : e.IsCalm) : e.IsQuiet := by
  cases e <;> first | exact h | trivial

namespace Session

variable {s t u : Session} {x : Step}

/-! ## The status of a reply -/

/-- What the status of a reply to `q` does to the session, and what becomes of it. -/
inductive Settling (s : Session) (q : Frame) (status : Status) : Session → Status → Prop where
  /-- An OK to a bind binds an open session. -/
  | binds (type : BindType) (m : Measurement) (kind : q.kind = .bind type) (ok : status = .ok)
      (opened : s.status = .opened) :
      Settling s q status
        (measure { s with status := .bound, binding := some ⟨type, boundSystemId q⟩ } m) .ok
  /-- Another bind was faster. -/
  | tooLate (type : BindType) (kind : q.kind = .bind type) (ok : status = .ok) (bound : s.status = .bound) :
      Settling s q status s .alreadyBound
  | leaves (new : List SessionEvent) (measured : ∀ e ∈ new, ∃ m, e = .measured m)
      (plain : (∀ type, q.kind = .bind type → status ≠ .ok) ∨ s.status = .closed) :
      Settling s q status { s with log := new ++ s.log } status

theorem settleStatus_settling (s : Session) (q : Frame) (status : Status) :
    s.Settling q status (s.settleStatus q status).1 (s.settleStatus q status).2 := by
  unfold settleStatus
  split
  · rename_i type kind
    split
    · rename_i hok
      obtain rfl : status = .ok := by cases status <;> first | rfl | cases hok
      cases hs : s.status with
      | opened =>
        simp only [markBound, hs, if_true]
        exact .binds type _ kind rfl hs
      | bound =>
        simp only [markBound, hs, reduceCtorEq, if_false]
        exact .tooLate type kind rfl hs
      | closed =>
        simp only [markBound, hs, reduceCtorEq, if_false]
        exact .leaves [] (by simp) (.inr hs)
    · rename_i hok
      refine .leaves [.measured _] (by simp) (.inl ?_)
      rintro _ - rfl
      exact hok rfl
  · rename_i kind
    exact .leaves [] (by simp) (.inl fun type h => absurd h (kind type))

namespace Settling

variable {q : Frame} {status status' : Status}

/-- Who is bound may change, and nothing else. -/
theorem same (h : s.Settling q status u status') :
    u = { s with status := u.status, binding := u.binding, log := u.log } := by
  cases h <;> rfl

theorem logs (h : s.Settling q status u status') :
    ∃ new, u.log = new ++ s.log ∧ ∀ e ∈ new, ∃ m, e = .measured m := by
  cases h with
  | binds type m => exact ⟨[.measured m], rfl, by simp⟩
  | tooLate => exact ⟨[], rfl, by simp⟩
  | leaves new measured => exact ⟨new, rfl, measured⟩

theorem of_opened {type : BindType} (h : s.Settling q status u status') (opened : s.status = .opened)
    (kind : q.kind = .bind type) (ok : status = .ok) :
    u.status = .bound ∧ u.binding = some ⟨type, boundSystemId q⟩ ∧ status' = .ok := by
  cases h with
  | binds type' m kind' =>
    obtain rfl : type = type' := by simpa [kind] using kind'
    exact ⟨rfl, rfl, rfl⟩
  | tooLate type' kind' ok' bound => simp [opened] at bound
  | leaves new measured plain =>
    rcases plain with plain | closed
    · exact absurd ok (plain type kind)
    · simp [opened] at closed

theorem of_bound {type : BindType} (h : s.Settling q status u status') (bound : s.status = .bound)
    (kind : q.kind = .bind type) (ok : status = .ok) : status' = .alreadyBound := by
  cases h with
  | binds type' m kind' ok' opened => simp [bound] at opened
  | tooLate => rfl
  | leaves new measured plain =>
    rcases plain with plain | closed
    · exact absurd ok (plain type kind)
    · simp [bound] at closed

/-- A reply goes out with the status it was given. Only an OK to a bind may come too late. -/
theorem status_eq (h : s.Settling q status u status') :
    status' = status ∨
      status' = .alreadyBound ∧ status = .ok ∧ s.status = .bound ∧ ∃ type, q.kind = .bind type := by
  cases h with
  | binds type m kind ok => exact .inl ok.symm
  | tooLate type kind ok bound => exact .inr ⟨rfl, ok, bound, type, kind⟩
  | leaves => exact .inl rfl

end Settling

/-! ## The first step of a reply -/

/-- In the step `x` the reply to `q` is the first one through the responder `k`. -/
inductive Sends (s : Session) (k : Nat) (q : Frame) (reply : Reply) : Step → Prop where
  | atWork (plan : Plan) (actions : List ProcessorAction) (stage : s.reader = .working k plan)
      (next : plan.actions = .send reply :: actions) (unsent : s.responders[k]? = some ⟨q, false⟩) :
      Sends s k q reply (.move (.reader .proceed))
  | late (id : Nat) (a : Answer) (found : s.findAnswer? id = some a) (responder : a.responder = k)
      (reply_eq : a.reply = reply) (stage : a.stage = .starting)
      (unsent : s.responders[k]? = some ⟨q, false⟩) : Sends s k q reply (.move (.answer id))

/-- The session with the responder `k` used up. -/
def spend (s : Session) (k : Nat) (q : Frame) : Session :=
  { s with responders := s.responders.set k ⟨q, true⟩ }

theorem Sends.unsent {k : Nat} {q : Frame} {reply : Reply} (h : s.Sends k q reply x) :
    s.responders[k]? = some ⟨q, false⟩ := by
  cases h with
  | atWork plan actions stage next unsent => exact unsent
  | late id a found responder reply_eq stage unsent => exact unsent

theorem Settling.quiet {k : Nat} {q : Frame} {status status' : Status}
    (h : (s.spend k q).Settling q status u status')
    (same : t = { u with reader := t.reader, answers := t.answers }) : s.Quiet t := by
  obtain ⟨new, log, measured⟩ := h.logs
  refine ⟨new, by rw [same]; exact log, fun e he => ?_⟩
  obtain ⟨m, rfl⟩ := measured e he
  trivial

theorem openReply_unsent {k : Nat} {q : Frame} (unsent : s.responders[k]? = some ⟨q, false⟩) (reply : Reply) :
    ∃ u status, (s.spend k q).Settling q reply.status u status ∧
      s.openReply k reply = (u, some (responseFrame s.serverSystemId q status reply.messageId)) := by
  have hsettling := settleStatus_settling (s.spend k q) q reply.status
  refine ⟨_, _, hsettling, ?_⟩
  have hserver : ((s.spend k q).settleStatus q reply.status).1.serverSystemId = s.serverSystemId := by
    rw [hsettling.same]
    rfl
  rw [← hserver]
  simp only [openReply, responder?, unsent, Bool.false_eq_true, if_false]
  rfl

theorem openReply_refused {k : Nat} (refused : ∀ q, s.responders[k]? ≠ some ⟨q, false⟩) (reply : Reply) :
    ∃ new, s.openReply k reply = ({ s with log := new ++ s.log }, none) ∧
      ∀ e ∈ new, ∃ m, e = SessionEvent.measured m := by
  unfold openReply
  cases hr : s.responder? k with
  | none => exact ⟨[], rfl, by simp⟩
  | some r =>
    obtain ⟨q, _ | _⟩ := r
    · exact absurd hr (refused q)
    · exact ⟨[.measured .duplicateResponse], rfl, by simp⟩

theorem Sends.step {k : Nat} {q : Frame} {reply : Reply} (h : s.Sends k q reply x) (hs : s.Numbered) :
    ∃ u status, (s.spend k q).Settling q reply.status u status ∧
      s.step x = { u with reader := (s.step x).reader, answers := (s.step x).answers } ∧
      (s.step x).due.Perm ((k, responseFrame s.serverSystemId q status reply.messageId) :: s.due) ∧
      (s.step x).reader.refusal? = s.reader.refusal? := by
  cases h with
  | atWork plan actions stage next unsent =>
    obtain ⟨u, status, hsettling, hopens⟩ := openReply_unsent unsent reply
    have hstep : s.step (.move (.reader .proceed)) = { u with
        reader := .answering (responseFrame s.serverSystemId q status reply.messageId) k
          { plan with actions } } := by
      have can : s.can (.reader .proceed) = true := by simp [can, readerCan, stage]
      rw [step_reader can]
      simp only [moveReader, stage, work, next, hopens]
    refine ⟨u, status, hsettling, by rw [hstep], ?_, by rw [hstep, stage]; rfl⟩
    have hanswers : u.answers = s.answers := by
      rw [hsettling.same]
      rfl
    rw [hstep, due, due, stage]
    show ([(k, _)] ++ u.answers.flatMap Answer.due).Perm _
    rw [hanswers]
    exact .refl _
  | late id a found responder reply_eq stage unsent =>
    subst responder reply_eq
    obtain ⟨u, status, hsettling, hopens⟩ := openReply_unsent unsent a.reply
    have ha : a ∈ s.answers := List.mem_of_find?_eq_some found
    have hstep : s.step (.move (.answer id)) =
        u.setAnswer a.id (.writing (responseFrame s.serverSystemId q status a.reply.messageId)) := by
      have can : s.can (.answer id) = true := by simp [can, found, answerIsReady, stage]
      rw [step_answer found can]
      simp only [stepAnswer, stage, hopens]
    have hanswers : u.answers = s.answers := by
      rw [hsettling.same]
      rfl
    have hreader : u.reader = s.reader := by
      rw [hsettling.same]
      rfl
    have htask : u.nextTask = s.nextTask := by
      rw [hsettling.same]
      rfl
    have hu : u.Numbered := hs.of_eq (Nat.le_of_eq htask.symm) hanswers
    refine ⟨u, status, hsettling, by rw [hstep]; rfl, ?_, by rw [hstep, ← hreader]; rfl⟩
    have hdue := due_setAnswer hu (hanswers ▸ ha)
      (.writing (responseFrame s.serverSystemId q status a.reply.messageId))
    rw [Answer.due, stage, due, hreader, hanswers] at hdue
    rw [hstep]
    exact hdue.symm

/-! ## The second step of a reply -/

theorem SeesOff.step {k : Nat} {f : Frame} (h : s.SeesOff k f x) (hs : s.Numbered) :
    ∃ done, s.step x = { s.closeReply k f with
        reader := (s.step x).reader, answers := (s.step x).answers, log := done ++ (s.closeReply k f).log } ∧
      (∀ e ∈ done, e = .replied k true) ∧ s.due.Perm ((k, f) :: (s.step x).due) ∧
      (s.step x).reader.refusal? = s.reader.refusal? := by
  have hbeside := closeReply_beside s k f
  cases h with
  | atWork plan stage flows =>
    have hstep : s.step (.move (.reader .proceed)) =
        { (s.closeReply k f).note (.replied k true) with reader := .working k plan } := by
      have can : s.can (.reader .proceed) = true := by simp [can, readerCan, stage, flows]
      rw [step_reader can]
      simp only [moveReader, stage]
    refine ⟨[.replied k true], by rw [hstep]; rfl, by simp, ?_, by rw [hstep, stage]; rfl⟩
    rw [hstep, due, due, stage]
    show ([(k, f)] ++ _).Perm ((k, f) :: ([] ++ (s.closeReply k f).answers.flatMap Answer.due))
    rw [hbeside.answers]
    exact .refl _
  | late id a found responder stage flows =>
    subst responder
    have ha : a ∈ s.answers := List.mem_of_find?_eq_some found
    have hstep : s.step (.move (.answer id)) =
        (s.closeReply a.responder f).setAnswer a.id (.finished true) := by
      have can : s.can (.answer id) = true := by simp [can, found, answerIsReady, stage, flows]
      rw [step_answer found can]
      simp only [stepAnswer, stage]
    have hu : (s.closeReply a.responder f).Numbered :=
      hs.of_eq (Nat.le_of_eq hbeside.nextTask.symm) hbeside.answers
    refine ⟨[], by rw [hstep]; rfl, by simp, ?_, by rw [hstep, ← hbeside.reader]; rfl⟩
    have hdue := due_setAnswer hu (hbeside.answers ▸ ha) (.finished true)
    rw [Answer.due, stage, due, hbeside.reader, hbeside.answers] at hdue
    rw [hstep]
    exact hdue

theorem SeesOff.mem_due {k : Nat} {f : Frame} (h : s.SeesOff k f x) : (k, f) ∈ s.due := by
  cases h with
  | atWork plan stage flows => simp [due, stage, Reader.Stage.due]
  | late id a found responder stage flows =>
    refine List.mem_append_right _ (List.mem_flatMap.mpr ⟨a, List.mem_of_find?_eq_some found, ?_⟩)
    simp [Answer.due, stage, responder, AnswerStage.due]

/-! ## Every step -/

/-- From `s` to `t` no reply is sent or seen off, no frame taken, and no refusal written. -/
structure Spares (s t : Session) (x : Step) : Prop where
  binding : t.binding = s.binding
  server : t.serverSystemId = s.serverSystemId
  status : t.status = s.status ∨ t.status = .closed ∧ s.Ends t x
  responders : t.responders = s.responders
  refusal : t.reader.refusal? = s.reader.refusal?
  logs : ∃ new, t.log = new ++ s.log ∧ ∀ e ∈ new, e.IsCalm

/-- What a step has to do with replies and frames. -/
inductive Deals (s : Session) (x : Step) (t : Session) : Prop where
  | sends (k : Nat) (q : Frame) (reply : Reply) (sends : s.Sends k q reply x) (u : Session) (status : Status)
      (settling : (s.spend k q).Settling q reply.status u status)
      (same : t = { u with reader := t.reader, answers := t.answers })
      (due : t.due.Perm ((k, responseFrame s.serverSystemId q status reply.messageId) :: s.due))
      (refusal : t.reader.refusal? = s.reader.refusal?)
  | seesOff (k : Nat) (f : Frame) (seesOff : s.SeesOff k f x) (done : List SessionEvent)
      (same : t = { s.closeReply k f with
        reader := t.reader, answers := t.answers, log := done ++ (s.closeReply k f).log })
      (replied : ∀ e ∈ done, e = .replied k true) (due : s.due.Perm ((k, f) :: t.due))
      (refusal : t.reader.refusal? = s.reader.refusal?)
  | takes (f : Frame) (rest : List UInt8) (x_eq : x = .move (.reader .read))
      (can : s.can (.reader .read) = true) (input : s.nextInput = .frame f rest)
      (handles : { s with input := rest }.Handles f t)
  | denies (f : Frame) (stage : s.reader = .rejecting f) (x_eq : x = .move (.reader .proceed))
      (flows : s.channel.isStalled = false) (same : t = (s.transmit f).1.rest)
  | spares (spares : s.Spares t x)

theorem Spares.refl (s : Session) (x : Step) : s.Spares s x :=
  ⟨rfl, rfl, .inl rfl, rfl, rfl, [], rfl, by simp⟩

/-- What can be seen of the replies is as it was. -/
theorem Spares.of_eq (binding : t.binding = s.binding) (server : t.serverSystemId = s.serverSystemId)
    (status : t.status = s.status) (responders : t.responders = s.responders)
    (refusal : t.reader.refusal? = s.reader.refusal?) (log : t.log = s.log) : s.Spares t x :=
  ⟨binding, server, .inl status, responders, refusal, [], log, by simp⟩

theorem Beside.spares {P : SessionEvent → Prop} (h : s.Beside P t) (calm : ∀ e, P e → e.IsCalm)
    (status : t.status = s.status ∨ t.status = .closed ∧ s.Ends t x) : s.Spares t x :=
  ⟨by rw [h.same], by rw [h.same], status, h.responders, by rw [h.reader], (h.mono calm).logs⟩

theorem dropCall_status (s : Session) (c : Call) : (s.dropCall c).status = s.status := by
  unfold dropCall
  dsimp only
  split <;> rfl

theorem feel_spares (hs : s.Orderly) (y : Stimulus) : s.Spares (s.feel y) (.feel y) := by
  cases y with
  | arrive | endInput =>
    rw [feel]
    split <;> exact .of_eq rfl rfl rfl rfl rfl rfl
  | drop id =>
    rw [feel]
    split
    · rename_i c hc
      exact (dropCall_step hs.sound c).1.spares (fun _ => SessionEvent.OfCall.isCalm)
        (.inl (dropCall_status s c))
    · exact .refl s _
  | forget id =>
    rw [feel]
    split
    · unfold dropAnswer
      split <;> exact .of_eq rfl rfl rfl rfl rfl rfl
    · exact .refl s _
  | begin plan =>
    rw [feel, beginWork]
    split
    · rename_i stage
      exact .of_eq rfl rfl rfl rfl (by rw [stage]; rfl) rfl
    · exact .refl s _
  | disconnect => exact ⟨rfl, rfl, .inr ⟨rfl, .told⟩, rfl, rfl, [], rfl, by simp⟩
  | _ => exact .of_eq rfl rfl rfl rfl rfl rfl

/-- The processor at work does something else than to send the first reply. -/
theorem work_spares {k : Nat} {plan : Plan} (stage : s.reader = .working k plan)
    (idle : ∀ q reply, ¬ s.Sends k q reply (.move (.reader .proceed))) :
    s.Spares (s.work k plan) (.move (.reader .proceed)) := by
  have hrefusal : s.reader.refusal? = none := by rw [stage]; rfl
  unfold work
  split
  · unfold endProcessing
    split
    · exact .of_eq rfl rfl rfl rfl hrefusal.symm rfl
    · exact ⟨rfl, rfl, .inl rfl, rfl, hrefusal.symm, [.measured _], rfl, by simp [SessionEvent.IsCalm]⟩
    · exact ⟨rfl, rfl, .inl rfl, rfl, hrefusal.symm, [.measured _], rfl, by simp [SessionEvent.IsCalm]⟩
  · exact .of_eq rfl rfl rfl rfl hrefusal.symm rfl
  · exact ⟨rfl, rfl, .inl rfl, rfl, hrefusal.symm, [.held k], rfl, by simp [SessionEvent.IsCalm]⟩
  · rename_i reply actions next
    obtain ⟨new, hopens, measured⟩ := openReply_refused
      (fun q unsent => idle q reply (.atWork plan actions stage next unsent)) reply
    rw [hopens]
    refine ⟨rfl, rfl, .inl rfl, rfl, hrefusal.symm, .replied k false :: new, rfl, fun e he => ?_⟩
    rcases List.mem_cons.mp he with rfl | he
    · trivial
    · obtain ⟨m, rfl⟩ := measured e he
      trivial

theorem reader_deals (hn : s.Numbered) {m : ReaderMove} (can : s.can (.reader m) = true) :
    s.Deals (.move (.reader m)) (s.step (.move (.reader m))) := by
  have hturn := moveReader_turn can
  have hstep : s.step (.move (.reader m)) = s.moveReader m := step_reader can
  rw [← hstep] at hturn
  generalize ht : s.step (.move (.reader m)) = t at hturn ⊢
  cases hturn with
  | stops stage =>
    exact .spares ⟨rfl, rfl, .inr ⟨rfl, .stops can⟩, rfl, by rw [stage]; rfl, [], rfl, by simp⟩
  | reads stage _ reads =>
    cases reads with
    | frame f rest input handles => exact .takes f rest rfl can input handles
    | fault rest m none =>
      exact .spares ⟨rfl, rfl, .inr ⟨rfl, .reads can none⟩, rfl, by rw [stage]; rfl, [.measured m], rfl, by
        simp [SessionEvent.IsCalm]⟩
    | ends none =>
      exact .spares ⟨rfl, rfl, .inr ⟨rfl, .reads can none⟩, rfl, by rw [stage]; rfl, [], rfl, by simp⟩
  | sweeps stage =>
    unfold sweep
    dsimp only
    split
    · exact .spares (.of_eq rfl rfl rfl rfl rfl rfl)
    · exact .spares ⟨rfl, rfl, .inl rfl, rfl, rfl, [.measured _], rfl, by simp [SessionEvent.IsCalm]⟩
  | refuses f stage u sends =>
    have flows : s.channel.isStalled = false := by simpa [Session.can, readerCan, stage] using can
    exact .denies f stage rfl flows (by rw [sends])
  | answers f k plan stage u closes =>
    have flows : s.channel.isStalled = false := by simpa [Session.can, readerCan, stage] using can
    have hseesOff : s.SeesOff k f (.move (.reader .proceed)) := .atWork plan stage flows
    obtain ⟨done, hsame, hreplied, hdue, hrefusal⟩ := hseesOff.step hn
    rw [ht] at hsame hdue hrefusal
    exact .seesOff k f hseesOff done hsame hreplied hdue hrefusal
  | works k plan stage _ works =>
    -- A plan may send through a responder that somebody else has used up.
    by_cases hsends : ∃ q reply, s.Sends k q reply (.move (.reader .proceed))
    · obtain ⟨q, reply, hsends⟩ := hsends
      obtain ⟨u, status, hsettling, hsame, hdue, hrefusal⟩ := hsends.step hn
      rw [ht] at hsame hdue hrefusal
      exact .sends k q reply hsends u status hsettling hsame hdue hrefusal
    · rw [← ht, hstep]
      simp only [moveReader, stage]
      exact .spares (work_spares stage fun q reply h => hsends ⟨q, reply, h⟩)
  | wakes wake k plan stage => exact .spares (.of_eq rfl rfl rfl rfl (by rw [stage]; rfl) rfl)

theorem answer_deals (hn : s.Numbered) {id : Nat} (can : s.can (.answer id) = true) :
    s.Deals (.move (.answer id)) (s.step (.move (.answer id))) := by
  cases found : s.findAnswer? id with
  | none => simp [Session.can, found] at can
  | some a =>
    have hstep : s.step (.move (.answer id)) = s.stepAnswer a := step_answer found can
    have hready : s.answerIsReady a = true := by simpa [Session.can, found] using can
    cases stage : a.stage with
    | starting =>
      by_cases hunsent : ∃ q, s.responders[a.responder]? = some ⟨q, false⟩
      · obtain ⟨q, unsent⟩ := hunsent
        have hsends : s.Sends a.responder q a.reply (.move (.answer id)) :=
          .late id a found rfl rfl stage unsent
        obtain ⟨u, status, hsettling, hsame, hdue, hrefusal⟩ := hsends.step hn
        exact .sends _ q _ hsends u status hsettling hsame hdue hrefusal
      · obtain ⟨new, hopens, measured⟩ := openReply_refused (fun q h => hunsent ⟨q, h⟩) a.reply
        rw [hstep]
        simp only [stepAnswer, stage, hopens]
        refine .spares ⟨rfl, rfl, .inl rfl, rfl, rfl, new, rfl, fun e he => ?_⟩
        obtain ⟨m, rfl⟩ := measured e he
        trivial
    | writing f =>
      have flows : s.channel.isStalled = false := by simpa [answerIsReady, stage] using hready
      have hseesOff : s.SeesOff a.responder f (.move (.answer id)) := .late id a found rfl stage flows
      obtain ⟨done, hsame, hreplied, hdue, hrefusal⟩ := hseesOff.step hn
      exact .seesOff _ f hseesOff done hsame hreplied hdue hrefusal
    | finished sent => simp [answerIsReady, stage] at hready

/-- One step of a session as replies and frames see it. -/
theorem step_deals (hs : s.Orderly) (hn : s.Numbered) (x : Step) : s.Deals x (s.step x) := by
  cases x with
  | feel y => exact .spares (feel_spares hs y)
  | move m =>
    by_cases can : s.can m = true
    · cases m with
      | reader m => exact reader_deals hn can
      | call id =>
        cases found : s.findCall? id with
        | none => simp [Session.can, found] at can
        | some c =>
          have hc := List.mem_of_find?_eq_some found
          have hbeside := (stepCall_step hs.sound hs.call_ids hc (hs.fits c hc)).beside
          rw [step_call found can]
          exact .spares (hbeside.spares (fun _ => SessionEvent.OfCall.isCalm) (stepCall_status hs found can))
      | answer id => exact answer_deals hn can
    · rw [step, if_neg can]
      exact .spares (.refl s _)

/-- A reply that is due was due before, or is sent now. -/
theorem Deals.mem_due (h : s.Deals x t) (replies : s.Replies t) {k : Nat} {f : Frame} (hf : (k, f) ∈ t.due) :
    (k, f) ∈ s.due ∨ ∃ q reply u status, s.Sends k q reply x ∧
      (s.spend k q).Settling q reply.status u status ∧
      f = responseFrame s.serverSystemId q status reply.messageId := by
  cases h with
  | sends l q reply sends u status settling same due =>
    rcases List.mem_cons.mp (due.subset hf) with heq | hold
    · obtain ⟨rfl, rfl⟩ : k = l ∧ f = responseFrame s.serverSystemId q status reply.messageId := by
        simpa using heq
      exact .inr ⟨q, reply, u, status, sends, settling, rfl⟩
    · exact .inl hold
  | seesOff l g seesOff done same replied due =>
    exact .inl (due.symm.subset (List.mem_cons_of_mem _ hf))
  | takes g rest x_eq can input handles => exact .inl ((replies.due_subperm handles.unsent).subset hf)
  | denies g stage x_eq flows same =>
    obtain ⟨new, htransmit, -⟩ := transmit_eq s g
    rw [htransmit] at same
    exact .inl ((replies.due_subperm fun l q hl => by rw [same]; exact hl).subset hf)
  | spares spares =>
    exact .inl ((replies.due_subperm fun l q hl => by rw [spares.responders, hl]).subset hf)

/-- The refusal of the request `q`. -/
inductive Refuses (q : Frame) : Status → Prop where
  /-- Somebody is bound already. -/
  | bind (type : BindType) (kind : q.kind = .bind type) : Refuses q .alreadyBound
  /-- Nobody is bound yet. -/
  | request (kind : q.kind = .request) : Refuses q .invalidBindStatus

/-- A refusal that the reader has in hand it had before, or it takes the request now. -/
theorem Deals.refused (h : s.Deals x t) {f : Frame} (hf : t.reader.refusal? = some f) :
    s.reader.refusal? = some f ∨
      ∃ q status, .received q ∈ t.log ∧ Refuses q status ∧ f = .responseFor q status := by
  cases h with
  | sends l q reply sends u status settling same due refusal => exact .inl (refusal ▸ hf)
  | seesOff l g seesOff done same replied due refusal => exact .inl (refusal ▸ hf)
  | takes g rest x_eq can input handles =>
    cases handles with
    | drops | completes => exact .inl hf
    | rejects m m' status rule =>
      obtain rfl : Frame.responseFor g status = f := by simpa [Reader.Stage.refusal?] using hf
      refine .inr ⟨g, status, by simp, ?_, rfl⟩
      rcases rule with ⟨-, rfl, type, kind⟩ | ⟨-, rfl, kind⟩
      · exact .bind type kind
      · exact .request kind
    | dispatches => simp [Reader.Stage.refusal?] at hf
  | denies g stage x_eq flows same =>
    rw [same] at hf
    cases hf
  | spares spares => exact .inl (spares.refusal ▸ hf)

/-! ## What a step writes -/

theorem posts_of_closeReply {k : Nat} {f : Frame} {done : List SessionEvent}
    (log : t.log = done ++ (s.closeReply k f).log) (replied : ∀ e ∈ done, e = .replied k true) :
    Posts f s t := by
  refine (closeReply_posts s k f).trans ⟨done, log, fun e he => ?_⟩
  rw [replied e he]
  trivial

/-- What is written is a reply that is seen off, or a refusal. -/
theorem Deals.posts (h : s.Deals x t) : s.Quiet t ∨ (∃ k f, s.SeesOff k f x ∧ Posts f s t) ∨
    ∃ f, s.reader = .rejecting f ∧ Posts f s t := by
  cases h with
  | sends k q reply sends u status settling same due refusal => exact .inl (settling.quiet same)
  | seesOff k f seesOff done same replied due refusal =>
    exact .inr (.inl ⟨k, f, seesOff, posts_of_closeReply (by rw [same]) replied⟩)
  | takes f rest x_eq can input handles => exact .inl handles.quiet
  | denies f stage x_eq flows same =>
    exact .inr (.inr ⟨f, stage, (transmit_posts s f).trans (.of_log (by rw [same]; rfl))⟩)
  | spares spares =>
    obtain ⟨new, log, calm⟩ := spares.logs
    exact .inl ⟨new, log, fun e he => (calm e he).isQuiet⟩

/-- The step `x` writes the frame. -/
def Writes (s : Session) (x : Step) (f : Frame) : Prop :=
  ∃ new octets, (s.step x).log = new ++ s.log ∧ .wrote f octets ∈ new

theorem Quiet.not_writes (h : s.Quiet (s.step x)) {f : Frame} (hf : f.isResponse = true) :
    ¬ s.Writes x f := by
  rintro ⟨new, octets, log, mem⟩
  obtain ⟨new', log', quiet⟩ := h
  obtain rfl := List.append_cancel_right (log.symm.trans log')
  have hquiet : f.isResponse = false := quiet _ mem
  simp [hf] at hquiet

theorem Posts.writes {f g : Frame} (h : Posts g s (s.step x)) (hf : f.isResponse = true)
    (writes : s.Writes x f) : f = g ∧ s.channel.refuses = false := by
  rcases h with quiet | ⟨post, octets', -, accepts, log', quiet⟩
  · exact absurd writes (quiet.not_writes hf)
  · obtain ⟨new, octets, log, mem⟩ := writes
    rw [log, ← List.singleton_append, ← List.append_assoc] at log'
    obtain rfl := List.append_cancel_right log'
    rcases List.mem_append.mp mem with mem | mem
    · have hquiet : f.isResponse = false := quiet _ mem
      simp [hf] at hquiet
    · obtain ⟨rfl, -⟩ : f = g ∧ octets = octets' := by simpa using mem
      exact ⟨rfl, accepts⟩

/-- The server's name does not change. -/
theorem Deals.server (h : s.Deals x t) : t.serverSystemId = s.serverSystemId := by
  cases h with
  | sends k q reply sends u status settling same due refusal => rw [same, settling.same]; rfl
  | seesOff k f seesOff done same replied due refusal => rw [same, (closeReply_beside s k f).same]
  | takes f rest x_eq can input handles => cases handles <;> rfl
  | denies f stage x_eq flows same => rw [same, rest, (Beside.transmit s f).same]
  | spares spares => exact spares.server

/-! ## Runs -/

theorem before_server {xs : List Step} (hs : s.Orderly) (hn : s.Numbered) (i : Nat) :
    (s.before xs i).serverSystemId = s.serverSystemId := by
  refine (before_induct (P := fun t => t.Numbered ∧ t.serverSystemId = s.serverSystemId) hs
    (fun t ht h x => ?_) (Nat.zero_le i) ⟨hn, rfl⟩).2
  exact ⟨(step_serves ht h.1 x).numbered, (step_deals ht h.1 x).server.trans h.2⟩

end Session

end Smsc
