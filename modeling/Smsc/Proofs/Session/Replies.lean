import Smsc.Proofs.Pdu.Answer
import Smsc.Proofs.Session.Beside

/-!
# Smsc.Proofs.Session.Replies — a reply, from the responder to the channel

A reply is opened, which uses the responder up, and closed, which writes it. In between other things
may happen.

* `Opens s k t o`: what `Session.openReply` does, `openReply_opens`;
* `Posts f s t`: the log gains at most one write, that of `f`;
* `closeReply_beside`, `closeReply_posts`, `closeReply_keeps`: what `Session.closeReply` does;
* `AnswerTurn s a t`, `stepAnswer_turn`: a move of a late reply.
-/

namespace Smsc

/-- No response is written. -/
def SessionEvent.IsQuiet : SessionEvent → Prop
  | .wrote f _ => f.isResponse = false
  | _ => True

namespace Session

open Window

variable {s t u : Session}

/-- The log goes on without a response. -/
def Quiet (s t : Session) : Prop := ∃ new, t.log = new ++ s.log ∧ ∀ e ∈ new, e.IsQuiet

/-- The log goes on with at most one response, the frame `f`, if the channel takes it. -/
def Posts (f : Frame) (s t : Session) : Prop :=
  s.Quiet t ∨ ∃ post octets, f.encode = .ok octets ∧ s.channel.refuses = false ∧
    t.log = post ++ .wrote f octets :: s.log ∧ ∀ e ∈ post, e.IsQuiet

theorem Quiet.trans (h : s.Quiet t) (h' : t.Quiet u) : s.Quiet u := by
  obtain ⟨new, hnew, hall⟩ := h
  obtain ⟨new', hnew', hall'⟩ := h'
  refine ⟨new' ++ new, by rw [hnew', hnew, List.append_assoc], fun e he => ?_⟩
  exact (List.mem_append.mp he).elim (hall' e) (hall e)

theorem Quiet.of_log (h : t.log = s.log) : s.Quiet t := ⟨[], h, by simp⟩

theorem Quiet.note (s : Session) {e : SessionEvent} (he : e.IsQuiet) : s.Quiet (s.note e) :=
  ⟨[e], rfl, by simpa using he⟩

theorem Posts.trans {f : Frame} (h : Posts f s t) (h' : t.Quiet u) : Posts f s u := by
  rcases h with h | ⟨post, octets, hoctets, haccepts, hlog, hall⟩
  · exact .inl (h.trans h')
  · obtain ⟨new, hnew, hall'⟩ := h'
    refine .inr ⟨new ++ post, octets, hoctets, haccepts, by rw [hnew, hlog, List.append_assoc],
      fun e he => ?_⟩
    exact (List.mem_append.mp he).elim (hall' e) (hall e)

theorem transmit_posts (s : Session) (f : Frame) : Posts f s (s.transmit f).1 := by
  obtain ⟨new, heq, hnew⟩ := transmit_eq s f
  rw [heq]
  rcases hnew with ⟨m, rfl⟩ | ⟨m, rfl⟩ | ⟨m, octets, hoctets, haccepts, rfl⟩
  · exact .inl ⟨[.measured m], rfl, by simp [SessionEvent.IsQuiet]⟩
  · exact .inl ⟨[.measured m, .writeFailed f], rfl, by simp [SessionEvent.IsQuiet]⟩
  · exact .inr ⟨[.measured m], octets, hoctets, haccepts, rfl, by simp [SessionEvent.IsQuiet]⟩

/-! ## Opening a reply -/

/-- A reply through the responder `k` leads from `s` to `t`, and to a frame unless it is refused. -/
inductive Opens (s : Session) (k : Nat) (t : Session) : Option Frame → Prop where
  | refused (responders_eq : t.responders = s.responders) : Opens s k t none
  | opened (q f : Frame) (unsent : s.responders[k]? = some ⟨q, false⟩)
      (responders_eq : t.responders = s.responders.set k ⟨q, true⟩) (sequence_eq : f.sequence = q.sequence)
      (command_eq : f.command = q.pdu.response.command) (body_eq : f.pdu.command = f.command) :
      Opens s k t (some f)

/-- From `s` to `t` a reply may bind the session and use its responder up. -/
structure Settles (s t : Session) : Prop where
  same : t = { s with
    status := t.status, binding := t.binding, responders := t.responders, log := t.log }
  status : t.status = s.status ∨ s.status = .opened ∧ t.status = .bound
  logs : ∃ new, t.log = new ++ s.log ∧ ∀ e ∈ new, ∃ m, e = .measured m

namespace Settles

theorem calls (h : s.Settles t) : t.calls = s.calls := by rw [h.same]

theorem window (h : s.Settles t) : t.window = s.window := by rw [h.same]

theorem answers (h : s.Settles t) : t.answers = s.answers := by rw [h.same]

theorem reader (h : s.Settles t) : t.reader = s.reader := by rw [h.same]

theorem nextTask (h : s.Settles t) : t.nextTask = s.nextTask := by rw [h.same]

end Settles

theorem settleStatus_settles (s : Session) (q : Frame) (status : Status) :
    s.Settles (s.settleStatus q status).1 ∧ (s.settleStatus q status).1.responders = s.responders := by
  unfold settleStatus
  split
  · split
    · by_cases hs : s.status = .opened
      · simp only [markBound, hs, if_true]
        exact ⟨⟨rfl, .inr ⟨hs, rfl⟩, [_], rfl, by simp⟩, rfl⟩
      · simp only [markBound, hs, if_false]
        cases s.status <;> exact ⟨⟨rfl, .inl rfl, [], rfl, by simp⟩, rfl⟩
    · exact ⟨⟨rfl, .inl rfl, [_], rfl, by simp⟩, rfl⟩
  · exact ⟨⟨rfl, .inl rfl, [], rfl, by simp⟩, rfl⟩

theorem responseFrame_matches (serverSystemId : String) (q : Frame) (status : Status)
    (messageId : Option String) :
    (responseFrame serverSystemId q status messageId).sequence = q.sequence ∧
      (responseFrame serverSystemId q status messageId).command = q.pdu.response.command ∧
      (responseFrame serverSystemId q status messageId).pdu.command =
        (responseFrame serverSystemId q status messageId).command := by
  unfold responseFrame
  dsimp only [Frame.responseFor, Frame.make]
  split
  · rename_i type r h
    exact ⟨rfl, rfl, by simp [Frame.command, h, Pdu.command]⟩
  · rename_i r h
    exact ⟨rfl, rfl, by simp [Frame.command, h, Pdu.command]⟩
  · exact ⟨rfl, rfl, rfl⟩

theorem openReply_opens (s : Session) (k : Nat) (reply : Reply) :
    s.Settles (s.openReply k reply).1 ∧ s.Opens k (s.openReply k reply).1 (s.openReply k reply).2 := by
  unfold openReply
  split
  · exact ⟨⟨rfl, .inl rfl, [], rfl, by simp⟩, .refused rfl⟩
  · rename_i r hr
    split
    · exact ⟨⟨rfl, .inl rfl, [_], rfl, by simp⟩, .refused rfl⟩
    · rename_i hsent
      obtain ⟨q, sent⟩ := r
      obtain rfl : sent = false := by simpa using hsent
      obtain ⟨hsettles, hresponders⟩ := settleStatus_settles
        { s with responders := s.responders.set k ⟨q, true⟩ } q reply.status
      obtain ⟨hsequence, hcommand, hbody⟩ := responseFrame_matches
        (settleStatus { s with responders := s.responders.set k ⟨q, true⟩ } q reply.status).1.serverSystemId
        q (settleStatus { s with responders := s.responders.set k ⟨q, true⟩ } q reply.status).2
        reply.messageId
      refine ⟨⟨?_, hsettles.status, hsettles.logs⟩,
        .opened q _ hr hresponders hsequence hcommand hbody⟩
      rw [hsettles.same]

/-! ## Closing a reply -/

theorem closeReply_cases (s : Session) (k : Nat) (f : Frame) :
    s.closeReply k f = (s.transmit f).1 ∨ s.closeReply k f = (s.transmit f).1.disconnect.1 := by
  unfold closeReply
  dsimp only
  split
  · split
    · exact .inr rfl
    · exact .inl rfl
  · exact .inl rfl

theorem closeReply_beside (s : Session) (k : Nat) (f : Frame) :
    s.Beside (SessionEvent.OfWriting f) (s.closeReply k f) := by
  rcases closeReply_cases s k f with h | h <;> rw [h]
  · exact .transmit s f
  · exact (Beside.transmit s f).trans (.disconnect _)

theorem closeReply_calls (s : Session) (k : Nat) (f : Frame) : (s.closeReply k f).calls = s.calls := by
  rcases closeReply_cases s k f with h | h <;> rw [h]
  · exact transmit_calls s f
  · exact transmit_calls s f

theorem closeReply_keeps (hw : s.window.Sound) (k : Nat) (f : Frame) (own : Nat → Prop) :
    s.window.Keeps (s.closeReply k f).window own := by
  rcases closeReply_cases s k f with h | h <;> rw [h]
  · rw [transmit_window]
    exact .refl hw
  · have hkeeps := disconnect_keeps (s := (s.transmit f).1) (by rwa [transmit_window]) own
    rwa [transmit_window] at hkeeps

theorem closeReply_posts (s : Session) (k : Nat) (f : Frame) : Posts f s (s.closeReply k f) := by
  rcases closeReply_cases s k f with h | h <;> rw [h]
  · exact transmit_posts s f
  · exact (transmit_posts s f).trans (.of_log rfl)

/-! ## A late reply -/

/-- A possible move of a late reply. -/
inductive AnswerTurn (s : Session) (a : Answer) : Session → Prop where
  | opens (stage : a.stage = .starting) (u : Session) (f : Frame) (settles : s.Settles u)
      (opens : s.Opens a.responder u (some f)) : AnswerTurn s a (u.setAnswer a.id (.writing f))
  | refused (stage : a.stage = .starting) (u : Session) (settles : s.Settles u)
      (opens : s.Opens a.responder u none) : AnswerTurn s a (u.setAnswer a.id (.finished false))
  | closes (f : Frame) (stage : a.stage = .writing f) (u : Session)
      (closes : u = s.closeReply a.responder f) : AnswerTurn s a (u.setAnswer a.id (.finished true))
  | rests : AnswerTurn s a s

theorem stepAnswer_turn (s : Session) (a : Answer) : s.AnswerTurn a (s.stepAnswer a) := by
  unfold stepAnswer
  cases hstage : a.stage with
  | starting =>
    obtain ⟨hsettles, hopens⟩ := openReply_opens s a.responder a.reply
    dsimp only
    generalize s.openReply a.responder a.reply = uo at hsettles hopens ⊢
    obtain ⟨u, _ | f⟩ := uo
    · exact .refused hstage u hsettles hopens
    · exact .opens hstage u f hsettles hopens
  | writing f => exact .closes f hstage _ rfl
  | finished result => exact .rests

end Session

end Smsc
