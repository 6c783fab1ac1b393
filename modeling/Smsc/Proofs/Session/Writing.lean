import Smsc.Proofs.Session.Sending

/-!
# Smsc.Proofs.Session.Writing — where a frame comes from that is written

Three kinds of frames go out: replies that are seen off, the refusal in the reader's hands, and the
requests of calls. Each of them goes out once, in a step of its own.

* `Emits s f x`: in the step `x` the frame `f` is on its way out;
* `Puts P s t`: what is written from `s` to `t` is picked by `P`, has octets, and finds a channel that takes
  it; `Silent s t`: nothing is written;
* `step_puts`: what a step writes, it emits; `Writes.emits`; `source_of_wrote`: along a run;
* `Emits.transmits`, `Emits.writes_iff`: what is on its way out is encoded, and written if it can be.
-/

namespace Smsc.Session

variable {s t u : Session} {x : Step} {P Q : Frame → Prop}

/-- In the step `x` the frame is on its way out. -/
inductive Emits (s : Session) (f : Frame) : Step → Prop where
  | reply (x : Step) (k : Nat) (seesOff : s.SeesOff k f x) : Emits s f x
  | refusal (stage : s.reader = .rejecting f) (flows : s.channel.isStalled = false) :
      Emits s f (.move (.reader .proceed))
  | request (id : Nat) (c : Call) (found : s.findCall? id = some c) (n : Nat)
      (stage : c.stage = .writing f n) (flows : s.channel.isStalled = false) : Emits s f (.move (.call id))

/-- From `s` to `t` nothing is written. -/
def Silent (s t : Session) : Prop := ∃ new, t.log = new ++ s.log ∧ ∀ f octets, .wrote f octets ∉ new

/-- From `s` to `t` only frames are written that `P` picks, and that the channel takes. -/
def Puts (P : Frame → Prop) (s t : Session) : Prop :=
  ∃ new, t.log = new ++ s.log ∧ ∀ f octets, .wrote f octets ∈ new →
    P f ∧ f.encode = .ok octets ∧ s.channel.refuses = false

namespace Silent

theorem of_log (log : t.log = s.log) : s.Silent t := ⟨[], log, by simp⟩

theorem measure (h : s.Silent t) (m : Measurement) : s.Silent (t.measure m) := by
  obtain ⟨new, log, silent⟩ := h
  refine ⟨.measured m :: new, by rw [Session.measure, note, log]; rfl, fun f octets hmem => ?_⟩
  have hmem : .wrote f octets ∈ new := by simpa using hmem
  exact silent f octets hmem

theorem trans (h : s.Silent t) (h' : t.Silent u) : s.Silent u := by
  obtain ⟨new, log, silent⟩ := h
  obtain ⟨new', log', silent'⟩ := h'
  refine ⟨new' ++ new, by rw [log', log, List.append_assoc], fun f octets hmem => ?_⟩
  rcases List.mem_append.mp hmem with hmem | hmem
  · exact silent' f octets hmem
  · exact silent f octets hmem

theorem puts (h : s.Silent t) : Puts P s t := by
  obtain ⟨new, log, silent⟩ := h
  exact ⟨new, log, fun f octets hmem => absurd hmem (silent f octets)⟩

end Silent

namespace Puts

theorem mono (h : Puts P s t) (hPQ : ∀ f, P f → Q f) : Puts Q s t := by
  obtain ⟨new, log, wrote⟩ := h
  refine ⟨new, log, fun f octets hmem => ?_⟩
  obtain ⟨hf, hencode, haccepts⟩ := wrote f octets hmem
  exact ⟨hPQ f hf, hencode, haccepts⟩

/-- Afterwards nothing is written. -/
theorem trans (h : Puts P s t) (h' : t.Silent u) : Puts P s u := by
  obtain ⟨new, log, wrote⟩ := h
  obtain ⟨new', log', silent⟩ := h'
  refine ⟨new' ++ new, by rw [log', log, List.append_assoc], fun f octets hmem => ?_⟩
  rcases List.mem_append.mp hmem with hmem | hmem
  · exact absurd hmem (silent f octets)
  · exact wrote f octets hmem

/-- A channel that refuses takes nothing. -/
theorem silent (h : Puts P s t) (refuses : s.channel.refuses = true) : s.Silent t := by
  obtain ⟨new, log, wrote⟩ := h
  refine ⟨new, log, fun f octets hmem => ?_⟩
  have haccepts := (wrote f octets hmem).2.2
  simp [refuses] at haccepts

end Puts

/-! ## Operations -/

theorem transmit_puts (s : Session) (f : Frame) : Puts (· = f) s (s.transmit f).1 := by
  obtain ⟨new, hsame, hnew⟩ := transmit_eq s f
  rw [hsame]
  refine ⟨new, rfl, fun g octets hmem => ?_⟩
  rcases hnew with ⟨m, rfl⟩ | ⟨m, rfl⟩ | ⟨m, octets', hencode, haccepts, rfl⟩
  · simp at hmem
  · simp at hmem
  · obtain ⟨rfl, rfl⟩ : g = f ∧ octets = octets' := by simpa using hmem
    exact ⟨rfl, hencode, haccepts⟩

theorem closeReply_puts (s : Session) (k : Nat) (f : Frame) : Puts (· = f) s (s.closeReply k f) := by
  rcases closeReply_cases s k f with h | h <;> rw [h]
  · exact transmit_puts s f
  · exact (transmit_puts s f).trans (.of_log rfl)

theorem Settles.silent (h : s.Settles t) : s.Silent t := by
  obtain ⟨new, log, measured⟩ := h.logs
  refine ⟨new, log, fun f octets hmem => ?_⟩
  obtain ⟨m, hm⟩ := measured _ hmem
  cases hm

theorem conclude_log (u : Session) (c : Call) (r : Except SessionError Received) :
    (u.conclude c r).log = u.log := by
  unfold conclude
  split
  · rfl
  · rfl
  · rfl
  · split
    · rename_i v hv
      obtain rfl : v = u.disconnect.1 := by rw [hv]
      rfl
    · rename_i v e hv
      obtain rfl : v = u.disconnect.1 := by rw [hv]
      rfl

theorem afterOffer_silent (u : Session) (c : Call) (frame : Frame) (o : Offered Frame) :
    u.Silent (u.afterOffer c frame o) := by
  cases o with
  | admitted entry => exact ((Silent.of_log rfl).measure _).trans (.of_log rfl)
  | refused e => exact ((Silent.of_log rfl).measure _).trans (.of_log (conclude_log ..))
  | waiting offer => exact .of_log rfl

theorem startCall_silent (s : Session) (c : Call) : s.Silent (s.startCall c) := by
  have hlog : (s.sequenceFor c).1.log = s.log := by
    unfold sequenceFor
    split <;> rfl
  unfold startCall sendRequest offerFrame
  split
  · split
    · dsimp only
      split
      · exact .of_log ((conclude_log ..).trans hlog)
      · refine Silent.trans (t := (s.sequenceFor c).1) (.of_log hlog) (Silent.trans (.of_log ?_)
          (afterOffer_silent ..))
        rfl
    · exact .of_log (conclude_log ..)
  · exact .of_log (conclude_log ..)

theorem writeCall_puts (s : Session) (c : Call) (frame : Frame) (entry : Nat) :
    Puts (· = frame) s (s.writeCall c frame entry) := by
  have htransmit := transmit_puts s frame
  unfold writeCall
  generalize s.transmit frame = tr at htransmit ⊢
  obtain ⟨u, _ | _⟩ := tr
  · exact htransmit.trans (.of_log (conclude_log ..))
  · exact htransmit.trans (.of_log rfl)

theorem awaitCall_silent (s : Session) (c : Call) (frame : Frame) (since : Instant) (w : Waiter) :
    s.Silent (s.awaitCall c frame since w) := by
  unfold awaitCall
  split
  · exact .of_log rfl
  · unfold respondCall
    rw [conclude_ok]
    split <;>
      exact ⟨[.measured (.requestDuration frame.command.name (.between since s.now))], rfl, by simp⟩
  · exact Silent.trans ((Silent.of_log rfl).measure _) (.of_log (conclude_log ..))
  · exact .of_log (conclude_log ..)

/-- A call writes its request, and nothing else. -/
theorem stepCall_puts (s : Session) (c : Call) :
    Puts (fun f => ∃ n, c.stage = .writing f n) s (s.stepCall c) := by
  unfold stepCall
  split
  · exact (startCall_silent s c).puts
  · exact (Silent.trans (.of_log rfl) (afterOffer_silent ..)).puts
  · rename_i frame entry stage
    refine (writeCall_puts s c frame entry).mono fun f hf => ?_
    exact ⟨entry, by rw [hf, stage]⟩
  · exact (awaitCall_silent ..).puts
  · exact Silent.puts (.of_log rfl)

/-! ## Every step -/

theorem feel_log (s : Session) (y : Stimulus) : (s.feel y).log = s.log := by
  cases y with
  | arrive | endInput =>
    rw [feel]
    split <;> rfl
  | drop id =>
    rw [feel]
    split
    · unfold dropCall
      dsimp only
      split <;> rfl
    · rfl
  | forget id =>
    rw [feel]
    split
    · unfold dropAnswer
      split <;> rfl
    · rfl
  | begin plan =>
    rw [feel, beginWork]
    split <;> rfl
  | _ => rfl

theorem Handles.silent {f : Frame} {rest : List UInt8} (h : { s with input := rest }.Handles f t) :
    s.Silent t := by
  cases h with
  | drops m closed => exact ⟨[.measured m, .received f], rfl, by simp⟩
  | completes m going kind =>
    refine ⟨(if s.window.contains f.sequence then [] else [.measured .windowUnmatched]) ++
      [.measured m, .received f], by rw [List.append_assoc]; rfl, fun g octets => ?_⟩
    split <;> simp
  | rejects m m' status rule => exact ⟨[.measured m', .measured m, .received f], rfl, by simp⟩
  | dispatches m rule => exact ⟨[.called _ _ _, .measured m, .received f], rfl, by simp⟩

theorem Works.silent {k : Nat} (h : s.Works k t) : s.Silent t := by
  cases h with
  | ends u same =>
    rcases same with rfl | ⟨m, rfl⟩
    · exact .of_log rfl
    · exact ⟨[.measured m], rfl, by simp⟩
  | pauses wake plan => exact .of_log rfl
  | holds plan => exact ⟨[.held k], rfl, by simp⟩
  | answers u plan f settles opens => exact settles.silent.trans (.of_log rfl)
  | refused u plan settles opens => exact settles.silent.trans ⟨[.replied k false], rfl, by simp⟩

theorem ReaderTurn.puts {m : ReaderMove} (h : s.ReaderTurn m t) (can : s.can (.reader m) = true) :
    Puts (fun f => s.Emits f (.move (.reader m))) s t := by
  cases h with
  | stops stage => exact Silent.puts (.of_log rfl)
  | reads stage _ reads =>
    cases reads with
    | frame f rest input handles => exact handles.silent.puts
    | fault rest m => exact Silent.puts ⟨[.measured m], rfl, by simp⟩
    | ends => exact Silent.puts (.of_log rfl)
  | sweeps stage =>
    unfold sweep
    dsimp only
    split
    · exact Silent.puts (.of_log rfl)
    · exact Silent.puts ⟨[.measured _], rfl, by simp⟩
  | refuses f stage u sends =>
    subst sends
    have flows : s.channel.isStalled = false := by simpa [Session.can, readerCan, stage] using can
    refine ((transmit_puts s f).trans (.of_log rfl)).mono ?_
    rintro g rfl
    exact .refusal stage flows
  | answers f k plan stage u closes =>
    subst closes
    have flows : s.channel.isStalled = false := by simpa [Session.can, readerCan, stage] using can
    refine ((closeReply_puts s k f).trans ⟨[.replied k true], rfl, by simp⟩).mono ?_
    rintro g rfl
    exact .reply _ k (.atWork plan stage flows)
  | works k plan stage _ works => exact works.silent.puts
  | wakes wake k plan stage => exact Silent.puts (.of_log rfl)

theorem answer_puts {id : Nat} {a : Answer} (found : s.findAnswer? id = some a)
    (ready : s.answerIsReady a = true) :
    Puts (fun f => s.Emits f (.move (.answer id))) s (s.stepAnswer a) := by
  have hturn := stepAnswer_turn s a
  generalize s.stepAnswer a = t at hturn
  cases hturn with
  | opens stage u f settles opens => exact (settles.silent.trans (.of_log rfl)).puts
  | refused stage u settles opens => exact (settles.silent.trans (.of_log rfl)).puts
  | closes f stage u closes =>
    subst closes
    have flows : s.channel.isStalled = false := by simpa [answerIsReady, stage] using ready
    refine ((closeReply_puts s a.responder f).trans (.of_log rfl)).mono ?_
    rintro g rfl
    exact .reply _ a.responder (.late id a found rfl stage flows)
  | rests => exact Silent.puts (.of_log rfl)

/-- What a step writes was on its way out. -/
theorem step_puts (s : Session) (x : Step) : Puts (fun f => s.Emits f x) s (s.step x) := by
  cases x with
  | feel y => exact (Silent.of_log (feel_log s y)).puts
  | move m =>
    have hmoves := step_moves s m
    generalize s.step (.move m) = t at hmoves ⊢
    cases hmoves with
    | reader m can => exact (moveReader_turn can).puts can
    | call id c found mem id_eq ready =>
      refine (stepCall_puts s c).mono ?_
      rintro f ⟨n, stage⟩
      have flows : s.channel.isStalled = false := by simpa [callIsReady, stage] using ready
      exact .request id c found n stage flows
    | answer id a found ready => exact answer_puts found ready
    | nothing => exact Silent.puts (.of_log rfl)

theorem Writes.emits {f : Frame} (h : s.Writes x f) : s.Emits f x ∧ s.channel.refuses = false := by
  obtain ⟨new, octets, log, hmem⟩ := h
  obtain ⟨new', log', wrote⟩ := step_puts s x
  obtain rfl := List.append_cancel_right (log.symm.trans log')
  obtain ⟨hemits, -, haccepts⟩ := wrote f octets hmem
  exact ⟨hemits, haccepts⟩

/-! ## What is on its way out -/

theorem transmit_of_error {f : Frame} {e : CodecError} (h : f.encode = .error e) :
    (s.transmit f).1.log = .measured (.pduError "encode") :: s.log := by
  simp only [transmit, h]
  rfl

/-- A frame on its way out is encoded, and written if there is anything to write. Nothing else is. -/
theorem Emits.transmits {f : Frame} (h : s.Emits f x) (hn : s.Numbered) : (s.transmit f).1.Silent (s.step x) := by
  cases h with
  | reply x k seesOff =>
    obtain ⟨done, same, replied, -⟩ := seesOff.step hn
    have hcloses : (s.closeReply k f).log = (s.transmit f).1.log := by
      rcases closeReply_cases s k f with h | h <;> rw [h]
      rfl
    refine ⟨done, by rw [same, ← hcloses], fun g octets hmem => ?_⟩
    cases replied _ hmem
  | refusal stage flows =>
    have can : s.can (.reader .proceed) = true := by simp [Session.can, readerCan, stage, flows]
    rw [step_reader can]
    simp only [moveReader, stage]
    exact .of_log rfl
  | request id c found n stage flows =>
    have can : s.can (.call id) = true := by simp [Session.can, found, callIsReady, stage, flows]
    rw [step_call found can, stepCall, stage]
    dsimp only
    unfold writeCall
    generalize s.transmit f = tr
    obtain ⟨u, _ | _⟩ := tr
    · exact .of_log (conclude_log ..)
    · exact .of_log rfl

/-- A frame on its way out is written if it has octets and the channel takes them, and only then. -/
theorem Emits.writes_iff {f : Frame} (h : s.Emits f x) (hn : s.Numbered) :
    s.Writes x f ↔ (∃ octets, f.encode = .ok octets) ∧ s.channel.refuses = false := by
  constructor
  · rintro ⟨new, octets, log, hmem⟩
    obtain ⟨new', log', wrote⟩ := step_puts s x
    obtain rfl := List.append_cancel_right (log.symm.trans log')
    obtain ⟨-, encodes, accepts⟩ := wrote f octets hmem
    exact ⟨⟨octets, encodes⟩, accepts⟩
  · rintro ⟨⟨octets, encodes⟩, accepts⟩
    obtain ⟨done, log, -⟩ := h.transmits hn
    have hwrote : (s.transmit f).1.log = [.measured (.pduSent f.command.name), .wrote f octets] ++ s.log := by
      simp only [transmit, encodes, accepts]
      rfl
    refine ⟨done ++ [.measured (.pduSent f.command.name), .wrote f octets], octets, ?_, by simp⟩
    rw [log, hwrote, List.append_assoc]

/-! ## Runs -/

/-- Everything that was written along a run was written by one of its steps. -/
theorem source_of_wrote {xs : List Step} (hs : s.log = []) {j : Nat} {f : Frame} {octets : List UInt8}
    (h : .wrote f octets ∈ (s.before xs j).log) :
    ∃ i < j, ∃ x, xs[i]? = some x ∧ (s.before xs i).Emits f x ∧ f.encode = .ok octets := by
  refine stateAt_source (P := fun t : Session => .wrote f octets ∈ t.log) (fun i x _ _ hstep => ?_)
    (by simp [hs]) h
  obtain ⟨new, log, wrote⟩ := step_puts (s.before xs i) x
  have hstep : .wrote f octets ∈ new ++ (s.before xs i).log := log ▸ hstep
  rcases List.mem_append.mp hstep with hnew | hold
  · obtain ⟨hemits, hencode, -⟩ := wrote f octets hnew
    exact .inr ⟨hemits, hencode⟩
  · exact .inl hold

end Smsc.Session
