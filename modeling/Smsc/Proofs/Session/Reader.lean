import Smsc.Proofs.Session.Replies

/-!
# Smsc.Proofs.Session.Reader — what the reader can do

* `Handles s f t`, `handleFrame_handles`: the rules for a frame, one constructor for each;
* `Reads s t`, `readInput_reads`: what taking the next input comes to;
* `Works s k t`, `work_works`: what the next thing of a processor's plan comes to;
* `ReaderTurn s m t`, `moveReader_turn`: a possible move of the reader;
* `step_handles`, `step_response`: the step that takes a frame, or a response.
-/

namespace Smsc.Session

/-- What the handling of a frame comes to. -/
inductive Handles (s : Session) (f : Frame) : Session → Prop where
  /-- A closed session only disconnects again. -/
  | drops (m : Measurement) (closed : s.status = .closed) :
      Handles s f { s with
        isShutDown := true
        channel := { s.channel with isConnected := false, disconnects := s.channel.disconnects + 1 }
        log := .measured m :: .received f :: s.log }
  | completes (m : Measurement) (going : s.status ≠ .closed) (kind : f.kind = .response) :
      Handles s f { s with
        window := (s.window.complete s.now f.sequence f).1
        log := (if s.window.contains f.sequence then [] else [.measured .windowUnmatched]) ++
          .measured m :: .received f :: s.log }
  | rejects (m m' : Measurement) (status : Status)
      (rule : (s.status = .bound ∧ status = .alreadyBound ∧ ∃ type, f.kind = .bind type) ∨
        (s.status = .opened ∧ status = .invalidBindStatus ∧ f.kind = .request)) :
      Handles s f { s with
        reader := .rejecting (Frame.responseFor f status)
        log := .measured m' :: .measured m :: .received f :: s.log }
  | dispatches (m : Measurement) (rule : (s.status = .opened ∧ ∃ type, f.kind = .bind type) ∨
        (s.status = .bound ∧ f.kind = .request)) :
      Handles s f { s with
        responders := s.responders ++ [⟨f, false⟩]
        reader := .calling s.responders.length s.processor (.ofFrame f)
        log := .called s.responders.length s.processor (.ofFrame f) :: .measured m :: .received f ::
          s.log }

theorem disconnect_receive {s : Session} (hs : s.status = .closed) (f : Frame) :
    (s.receive f).disconnect.1 = { s with
      isShutDown := true
      channel := { s.channel with isConnected := false, disconnects := s.channel.disconnects + 1 }
      log := .measured (.pduReceived f.command.name) :: .received f :: s.log } := by
  simp only [disconnect, receive, measure, note, hs, if_true]

theorem handleResponse_receive (s : Session) (f : Frame) :
    (s.receive f).handleResponse f = { s with
      window := (s.window.complete s.now f.sequence f).1
      log := (if s.window.contains f.sequence then [] else [.measured .windowUnmatched]) ++
        .measured (.pduReceived f.command.name) :: .received f :: s.log } := by
  cases hf : s.window.find? f.sequence <;>
    simp [handleResponse, receive, measure, note, Window.complete, Window.contains, hf]

theorem reject_receive (s : Session) (f : Frame) (status : Status) :
    (s.receive f).reject f status = { s with
      reader := .rejecting (Frame.responseFor f status)
      log := .measured (.stateRejection status.name) :: .measured (.pduReceived f.command.name) ::
        .received f :: s.log } := by
  simp only [reject, receive, measure, note]

theorem dispatch_receive (s : Session) (f : Frame) :
    (s.receive f).dispatch f = { s with
      responders := s.responders ++ [⟨f, false⟩]
      reader := .calling s.responders.length s.processor (.ofFrame f)
      log := .called s.responders.length s.processor (.ofFrame f) ::
        .measured (.pduReceived f.command.name) :: .received f :: s.log } := by
  simp only [dispatch, receive, measure, note]

theorem handleFrame_handles (s : Session) (f : Frame) : s.Handles f (s.handleFrame f) := by
  have hstatus : (s.receive f).status = s.status := rfl
  simp only [handleFrame, hstatus]
  cases hs : s.status with
  | closed =>
    simp only [disconnect_receive hs]
    exact .drops _ hs
  | opened =>
    cases hk : f.kind with
    | response =>
      simp only [handleResponse_receive]
      exact .completes _ (by simp [hs]) hk
    | bind type =>
      simp only [dispatch_receive]
      exact .dispatches _ (.inl ⟨hs, type, hk⟩)
    | request =>
      simp only [reject_receive]
      exact .rejects _ _ _ (.inr ⟨hs, rfl, hk⟩)
  | bound =>
    cases hk : f.kind with
    | response =>
      simp only [handleResponse_receive]
      exact .completes _ (by simp [hs]) hk
    | bind type =>
      simp only [reject_receive]
      exact .rejects _ _ _ (.inl ⟨hs, rfl, type, hk⟩)
    | request =>
      simp only [dispatch_receive]
      exact .dispatches _ (.inr ⟨hs, hk⟩)

theorem Handles.quiet {s t : Session} {f : Frame} {rest : List UInt8}
    (h : { s with input := rest }.Handles f t) : s.Quiet t := by
  cases h with
  | drops m closed => exact ⟨[.measured m, .received f], rfl, by simp [SessionEvent.IsQuiet]⟩
  | completes m going kind =>
    refine ⟨(if s.window.contains f.sequence then [] else [.measured .windowUnmatched]) ++
      [.measured m, .received f], by rw [List.append_assoc]; rfl, ?_⟩
    split <;> simp [SessionEvent.IsQuiet]
  | rejects m m' => exact ⟨[.measured m', .measured m, .received f], rfl, by simp [SessionEvent.IsQuiet]⟩
  | dispatches m => exact ⟨[.called _ _ _, .measured m, .received f], rfl, by simp [SessionEvent.IsQuiet]⟩

theorem Handles.unsent {s t : Session} {f : Frame} {rest : List UInt8}
    (h : { s with input := rest }.Handles f t) (k : Nat) (q : Frame)
    (hk : s.responders[k]? = some ⟨q, false⟩) : t.responders[k]? = some ⟨q, false⟩ := by
  cases h with
  | drops | completes | rejects => exact hk
  | dispatches m =>
    show (s.responders ++ _)[k]? = _
    rw [List.getElem?_append_left (List.getElem?_eq_some_iff.mp hk).1, hk]

/-- What the next input comes to: a frame, or the end of the reader. -/
inductive Reads (s : Session) : Session → Prop where
  | frame (f : Frame) (rest : List UInt8) (input : s.nextInput = .frame f rest) {t : Session}
      (handles : { s with input := rest }.Handles f t) : Reads s t
  | fault (rest : List UInt8) (m : Measurement) (input : ∀ f rest', s.nextInput ≠ .frame f rest') :
      Reads s ({ s with input := rest }.measure m).finishReader
  | ends (input : ∀ f rest', s.nextInput ≠ .frame f rest') : Reads s s.finishReader

theorem readInput_reads (s : Session) : s.Reads s.readInput := by
  unfold readInput
  split
  · exact .frame _ _ ‹_› (handleFrame_handles _ _)
  · rename_i h
    exact .fault _ _ (by simp [h])
  · rename_i h
    exact .ends (by simp [h])

theorem isRead_of_nextInput {s : Session} {f : Frame} {rest : List UInt8}
    (h : s.nextInput = .frame f rest) : f.IsRead := by
  unfold nextInput at h
  split at h
  · exact Frame.isRead_of_takeEnd? h
  · exact Frame.isRead_of_take? h

/-- What the next thing of a plan comes to. -/
inductive Works (s : Session) (k : Nat) : Session → Prop where
  /-- The call of the processor ends. -/
  | ends (t : Session) (same : t = s ∨ ∃ m, t = s.measure m) : Works s k t.rest
  | pauses (wake : Instant) (plan : Plan) : Works s k { s with reader := .pausing wake k plan }
  | holds (plan : Plan) : Works s k { s.note (.held k) with reader := .working k plan }
  | answers (u : Session) (plan : Plan) (f : Frame) (settles : s.Settles u) (opens : s.Opens k u (some f)) :
      Works s k { u with reader := .answering f k plan }
  | refused (u : Session) (plan : Plan) (settles : s.Settles u) (opens : s.Opens k u none) :
      Works s k { u.note (.replied k false) with reader := .working k plan }

theorem work_works (s : Session) (k : Nat) (plan : Plan) : s.Works k (s.work k plan) := by
  unfold work
  split
  · unfold endProcessing
    split
    · exact .ends s (.inl rfl)
    · exact .ends _ (.inr ⟨_, rfl⟩)
    · exact .ends _ (.inr ⟨_, rfl⟩)
  · exact .pauses _ _
  · exact .holds _
  · rename_i reply actions _
    obtain ⟨hsettles, hopens⟩ := openReply_opens s k reply
    generalize s.openReply k reply = uo at hsettles hopens ⊢
    obtain ⟨u, _ | f⟩ := uo
    · exact .refused u _ hsettles hopens
    · exact .answers u _ f hsettles hopens

/-- A possible move of the reader. -/
inductive ReaderTurn (s : Session) : ReaderMove → Session → Prop where
  | stops (stage : s.reader = .waiting) : ReaderTurn s .stop s.finishReader
  | reads (stage : s.reader = .waiting) (t : Session) (reads : s.Reads t) : ReaderTurn s .read t
  | sweeps (stage : s.reader = .waiting) : ReaderTurn s .sweep s.sweep
  | refuses (f : Frame) (stage : s.reader = .rejecting f) (u : Session) (sends : u = (s.transmit f).1) :
      ReaderTurn s .proceed u.rest
  | answers (f : Frame) (k : Nat) (plan : Plan) (stage : s.reader = .answering f k plan) (u : Session)
      (closes : u = s.closeReply k f) :
      ReaderTurn s .proceed { u.note (.replied k true) with reader := .working k plan }
  | works (k : Nat) (plan : Plan) (stage : s.reader = .working k plan) (t : Session)
      (works : s.Works k t) : ReaderTurn s .proceed t
  | wakes (wake : Instant) (k : Nat) (plan : Plan) (stage : s.reader = .pausing wake k plan) :
      ReaderTurn s .proceed { s with reader := .working k plan }

theorem moveReader_turn {s : Session} {m : ReaderMove} (h : s.readerCan m = true) :
    s.ReaderTurn m (s.moveReader m) := by
  cases m <;> cases hr : s.reader <;> simp only [readerCan, hr, Bool.false_eq_true] at h <;>
    simp only [moveReader, hr]
  · exact .stops hr
  · exact .reads hr _ (readInput_reads s)
  · exact .sweeps hr
  · exact .refuses _ hr _ rfl
  · exact .works _ _ hr _ (work_works s _ _)
  · exact .wakes _ _ _ hr
  · exact .answers _ _ _ hr _ rfl

theorem step_reader {s : Session} {m : ReaderMove} (can : s.can (.reader m) = true) :
    s.step (.move (.reader m)) = s.moveReader m := by
  rw [step, if_pos can, move]

/-- The step that takes a frame. -/
theorem step_handles {s : Session} {f : Frame} {rest : List UInt8} (can : s.can (.reader .read) = true)
    (input : s.nextInput = .frame f rest) :
    { s with input := rest }.Handles f (s.step (.move (.reader .read))) := by
  have hturn := moveReader_turn can
  rw [step_reader can]
  generalize s.moveReader .read = t at hturn
  cases hturn with
  | reads stage _ reads =>
    cases reads with
    | frame g rest' input' handles =>
      rw [input] at input'
      cases input'
      exact handles
    | fault _ _ none => exact absurd input (none f rest)
    | ends none => exact absurd input (none f rest)

/-- What the step that takes a response does, whether a call waits for it or not. -/
theorem step_response {s : Session} {f : Frame} {rest : List UInt8} (can : s.can (.reader .read) = true)
    (input : s.nextInput = .frame f rest) (hf : f.isResponse = true) :
    ∃ m, s.status = .closed ∧ s.step (.move (.reader .read)) = { s with
        input := rest
        isShutDown := true
        channel := { s.channel with isConnected := false, disconnects := s.channel.disconnects + 1 }
        log := .measured m :: .received f :: s.log } ∨
      s.status ≠ .closed ∧ s.step (.move (.reader .read)) = { s with
        input := rest
        window := (s.window.complete s.now f.sequence f).1
        log := (if s.window.contains f.sequence then [] else [.measured .windowUnmatched]) ++
          .measured m :: .received f :: s.log } := by
  have hkind := Frame.kind_eq_response.mpr hf
  have handles := step_handles can input
  generalize s.step (.move (.reader .read)) = t at handles
  cases handles with
  | drops m closed => exact ⟨m, .inl ⟨closed, rfl⟩⟩
  | completes m going kind => exact ⟨m, .inr ⟨going, rfl⟩⟩
  | rejects m m' status rule =>
    rcases rule with ⟨-, -, type, h⟩ | ⟨-, -, h⟩ <;> simp [hkind] at h
  | dispatches m rule =>
    rcases rule with ⟨-, type, h⟩ | ⟨-, h⟩ <;> simp [hkind] at h

end Smsc.Session
