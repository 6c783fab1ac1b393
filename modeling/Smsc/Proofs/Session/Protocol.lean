import Smsc.Proofs.Session.Sending

/-!
# Smsc.Proofs.Session.Protocol — a session follows the protocol

Kind of frame and status of the session decide what becomes of the frame. The status itself moves when a
reply to a bind is sent, and at the end.

* `SessionStatus.reaction`: the table of the protocol;
* `Reacts s f t r`: what each reaction changes, and what it leaves alone;
* `Attempts s f t`: a refusal is written, or fails to be;
* `Binds s x`, `Ends s t x`: the steps that move the status;
* `FollowsProtocol`, `follows_protocol`: every step of every run.
-/

namespace Smsc

/-- What becomes of a frame. -/
inductive Reaction where
  | drop
  /-- The request that it answers is completed. -/
  | complete
  | refuse (status : Status)
  /-- The processor is called. -/
  | process
  deriving DecidableEq, Repr

/-- The table of the protocol. -/
def SessionStatus.reaction : SessionStatus → FrameKind → Reaction
  | .closed, _ => .drop
  | .opened, .response => .complete
  | .opened, .bind _ => .process
  | .opened, .request => .refuse .invalidBindStatus
  | .bound, .response => .complete
  | .bound, .bind _ => .refuse .alreadyBound
  | .bound, .request => .process

/-- A response with nothing filled in has octets. -/
theorem Frame.encode_responseFor (q : Frame) (status : Status) :
    ∃ octets, (Frame.responseFor q status).encode = .ok octets := by
  unfold Frame.responseFor
  cases q.pdu with
  | bind type b => cases type <;> exact ⟨_, rfl⟩
  | _ => exact ⟨_, rfl⟩

theorem Reader.Stage.refusal?_eq_some {stage : Reader.Stage} {f : Frame} :
    stage.refusal? = some f ↔ stage = .rejecting f := by
  cases stage <;> simp [refusal?]

namespace Session

variable {s t : Session} {x : Step}

/-! ## Reactions -/

/-- From `s` to `t` at most one request of the window is completed, that under the number of `f`. -/
def Delivers (s : Session) (f : Frame) (t : Session) : Prop :=
  (∀ e ∈ s.window.entries, e.key ≠ f.sequence) ∧ t.window = s.window ∨
    ∃ e ∈ s.window.entries, e.key = f.sequence ∧ t.window.outcome? e.id = some (.response f) ∧
      t.window.entries = s.window.entries.filter (·.id ≠ e.id) ∧
      ∀ i, i ≠ e.id → t.window.outcome? i = s.window.outcome? i

/-- From `s` to `t` neither the status nor the requests of the server change, nor the late replies. -/
def Leaves (s t : Session) : Prop :=
  t.status = s.status ∧ t.binding = s.binding ∧ t.window = s.window ∧ t.calls = s.calls ∧
    t.answers = s.answers

/-- From `s` to `t` the frame `f` was taken off the input, with a certain reaction. -/
def Reacts (s : Session) (f : Frame) (t : Session) : Reaction → Prop
  | .drop => s.TakesIn t f ∧ s.Leaves t
  | .complete => s.TakesIn t f ∧ t.status = s.status ∧ t.binding = s.binding ∧ s.Delivers f t
  | .refuse status => s.Leaves t ∧ t.responders = s.responders ∧
      t.reader = .rejecting (Frame.responseFor f status) ∧
      ∃ m m', t.log = .measured m' :: .measured m :: .received f :: s.log
  | .process => s.Leaves t ∧ t.responders = s.responders ++ [⟨f, false⟩] ∧
      t.reader = .calling s.responders.length s.processor (.ofFrame f) ∧
      ∃ m, t.log = .called s.responders.length s.processor (.ofFrame f) :: .measured m :: .received f :: s.log

theorem delivers_complete (hw : s.window.Sound) (now : Instant) (f : Frame)
    (window : t.window = (s.window.complete now f.sequence f).1) : s.Delivers f t := by
  cases hf : s.window.find? f.sequence with
  | none =>
    refine .inl ⟨Window.find?_eq_none.mp hf, ?_⟩
    rw [window, Window.complete, hf]
  | some e =>
    obtain ⟨he, hkey⟩ := (Window.find?_eq_some hw).mp hf
    refine .inr ⟨e, he, hkey, ?_⟩
    rw [window, Window.complete, hf]
    refine ⟨by rw [Window.outcome?_deliver, if_pos rfl], rfl, fun i hi => ?_⟩
    rw [Window.outcome?_deliver, if_neg hi]
    rfl

theorem Handles.reacts {rest : List UInt8} {f : Frame} (hw : s.window.Sound)
    (h : { s with input := rest }.Handles f t) : s.Reacts f t (s.status.reaction f.kind) := by
  cases h with
  | drops m closed =>
    have hreaction : s.status.reaction f.kind = .drop := by
      rw [show s.status = .closed from closed, SessionStatus.reaction]
    rw [hreaction]
    exact ⟨⟨rfl, rfl, rfl, rfl, [.measured m], rfl, by simp⟩, rfl, rfl, rfl, rfl, rfl⟩
  | completes m going kind =>
    have hreaction : s.status.reaction f.kind = .complete := by
      have hgoing : s.status ≠ .closed := going
      rw [kind]
      cases hs : s.status <;> first | rfl | exact absurd hs hgoing
    rw [hreaction]
    refine ⟨⟨rfl, rfl, rfl, rfl, (if s.window.contains f.sequence then [] else
      [.measured .windowUnmatched]) ++ [.measured m], by rw [List.append_assoc]; rfl, ?_⟩, rfl, rfl,
      delivers_complete hw s.now f rfl⟩
    split <;> simp
  | rejects m m' status rule =>
    have hreaction : s.status.reaction f.kind = .refuse status := by
      rcases rule with ⟨hs, rfl, type, hk⟩ | ⟨hs, rfl, hk⟩
      · rw [show s.status = .bound from hs, hk, SessionStatus.reaction]
      · rw [show s.status = .opened from hs, hk, SessionStatus.reaction]
    rw [hreaction]
    exact ⟨⟨rfl, rfl, rfl, rfl, rfl⟩, rfl, rfl, m, m', rfl⟩
  | dispatches m rule =>
    have hreaction : s.status.reaction f.kind = .process := by
      rcases rule with ⟨hs, type, hk⟩ | ⟨hs, hk⟩
      · rw [show s.status = .opened from hs, hk, SessionStatus.reaction]
      · rw [show s.status = .bound from hs, hk, SessionStatus.reaction]
    rw [hreaction]
    exact ⟨⟨rfl, rfl, rfl, rfl, rfl⟩, rfl, rfl, m, rfl⟩

/-! ## Refusals -/

/-- From `s` to `t` there is one attempt to write the refusal in the reader's hands. -/
def Attempts (s : Session) (f : Frame) (t : Session) : Prop :=
  t = { s with reader := .waiting, log := t.log } ∧
    ∃ m octets, f.encode = .ok octets ∧
      (s.channel.refuses = false ∧ t.log = .measured m :: .wrote f octets :: s.log ∨
        s.channel.refuses = true ∧ t.log = .measured m :: .writeFailed f :: s.log)

/-- A refusal in the reader's hands can be written. -/
def Expresses (s : Session) : Prop := ∀ f, s.reader = .rejecting f → ∃ octets, f.encode = .ok octets

theorem attempts_transmit {f : Frame} {octets : List UInt8} (h : f.encode = .ok octets) :
    s.Attempts f (s.transmit f).1.rest := by
  unfold transmit
  rw [h]
  dsimp only
  cases hrefuses : s.channel.refuses with
  | false => exact ⟨rfl, _, octets, h, .inl ⟨hrefuses, rfl⟩⟩
  | true => exact ⟨rfl, _, octets, h, .inr ⟨hrefuses, rfl⟩⟩

theorem Deals.expresses (h : s.Deals x t) (hs : s.Expresses) : t.Expresses := by
  have of_refusal (refusal : t.reader.refusal? = s.reader.refusal?) : t.Expresses := by
    intro f hf
    rw [← Reader.Stage.refusal?_eq_some, refusal, Reader.Stage.refusal?_eq_some] at hf
    exact hs f hf
  cases h with
  | sends k q reply sends u status settling same due refusal => exact of_refusal refusal
  | seesOff k f seesOff done same replied due refusal => exact of_refusal refusal
  | takes f rest x_eq can input handles =>
    cases handles with
    | drops | completes => exact hs
    | rejects m m' status rule =>
      rintro g hg
      cases hg
      exact Frame.encode_responseFor f status
    | dispatches m rule =>
      intro g hg
      cases hg
  | denies f stage x_eq flows same =>
    rw [same]
    intro g hg
    cases hg
  | spares spares => exact of_refusal spares.refusal

/-- A refusal is written as soon as the channel flows and the reader goes on; until then it stays. -/
theorem Deals.attempts (h : s.Deals x (s.step x)) (hs : s.Expresses) {f : Frame}
    (hf : s.reader = .rejecting f) :
    x = .move (.reader .proceed) ∧ s.channel.isStalled = false ∧ s.Attempts f (s.step x) ∨
      ¬ (x = .move (.reader .proceed) ∧ s.channel.isStalled = false) ∧ (s.step x).reader = .rejecting f := by
  have hrefusal := Reader.Stage.refusal?_eq_some.mpr hf
  have of_refusal (refusal : (s.step x).reader.refusal? = s.reader.refusal?) :
      (s.step x).reader = .rejecting f := by
    rwa [← Reader.Stage.refusal?_eq_some, refusal]
  by_cases hproceeds : x = .move (.reader .proceed) ∧ s.channel.isStalled = false
  · obtain ⟨rfl, flows⟩ := hproceeds
    obtain ⟨octets, encodes⟩ := hs f hf
    have can : s.can (.reader .proceed) = true := by simp [can, readerCan, hf, flows]
    have hstep : s.step (.move (.reader .proceed)) = (s.transmit f).1.rest := by
      rw [step_reader can]
      simp only [moveReader, hf]
    refine .inl ⟨rfl, flows, ?_⟩
    rw [hstep]
    exact attempts_transmit encodes
  -- The refusal is nobody else's business.
  · refine .inr ⟨hproceeds, ?_⟩
    cases h with
    | sends k q reply sends u status settling same due refusal => exact of_refusal refusal
    | seesOff k f seesOff done same replied due refusal => exact of_refusal refusal
    | takes g rest x_eq can input handles => simp [Session.can, readerCan, hf] at can
    | denies g stage x_eq flows same => exact absurd ⟨x_eq, flows⟩ hproceeds
    | spares spares => exact of_refusal spares.refusal

/-! ## The status -/

/-- The step sends an OK to a bind while the session is open. -/
def Binds (s : Session) (x : Step) : Prop :=
  s.status = .opened ∧
    ∃ k q reply type, s.Sends k q reply x ∧ q.kind = .bind type ∧ reply.status = .ok

theorem Binds.bound (h : s.Binds x) (hn : s.Numbered) : (s.step x).status = .bound := by
  obtain ⟨opened, k, q, reply, type, sends, kind, ok⟩ := h
  obtain ⟨u, status, settling, same, -⟩ := sends.step hn
  rw [same]
  exact (settling.of_opened opened kind ok).1

theorem closeReply_status (s : Session) (k : Nat) (f : Frame) : (s.closeReply k f).status = s.status ∨
    ∃ r, s.responders[k]? = some r ∧ r.request.command = .unbind := by
  have hresponder : (s.transmit f).1.responder? k = s.responders[k]? := by
    rw [responder?, (Beside.transmit s f).responders]
  obtain ⟨new, htransmit, -⟩ := transmit_eq s f
  unfold closeReply
  dsimp only
  rw [hresponder]
  split
  · rename_i r hr
    split
    · rename_i hunbind
      exact .inr ⟨r, hr, hunbind⟩
    · left
      rw [htransmit]
  · left
    rw [htransmit]

/-- Nothing else moves the status. -/
theorem Deals.stays (h : s.Deals x t) (ends : ¬ s.Ends t x) (binds : ¬ s.Binds x) :
    t.status = s.status := by
  cases h with
  | sends k q reply sends u status settling same due refusal =>
    rw [same]
    show u.status = s.status
    cases settling with
    | binds type m kind ok opened => exact absurd ⟨opened, k, q, reply, type, sends, kind, ok⟩ binds
    | tooLate | leaves => rfl
  | seesOff k f seesOff done same replied due refusal =>
    rw [same]
    rcases closeReply_status s k f with h | ⟨r, responder, unbind⟩
    · exact h
    · exact absurd (.unbinds x k f r seesOff responder unbind) ends
  | takes f rest x_eq can input handles => cases handles <;> rfl
  | denies f stage x_eq flows same =>
    obtain ⟨new, htransmit, -⟩ := transmit_eq s f
    rw [same, htransmit]
    rfl
  | spares spares =>
    rcases spares.status with h | ⟨-, h⟩
    · exact h
    · exact absurd h ends

/-! ## Calls of the processor -/

/-- In the step `x` the processor in charge is called for a frame. -/
inductive Calls (s : Session) : Step → SessionEvent → Prop where
  | calls (f : Frame) (rest : List UInt8) (can : s.can (.reader .read) = true)
      (input : s.nextInput = .frame f rest) (reaction : s.status.reaction f.kind = .process) :
      Calls s (.move (.reader .read)) (.called s.responders.length s.processor (.ofFrame f))

/-- A processor is called for nothing else. -/
theorem Deals.calls (h : s.Deals x t) : ∃ new, t.log = new ++ s.log ∧
    ∀ k p request, .called k p request ∈ new → s.Calls x (.called k p request) := by
  cases h with
  | sends k q reply sends u status settling same due refusal =>
    obtain ⟨new, log, measured⟩ := settling.logs
    refine ⟨new, by rw [same]; exact log, fun k p request he => ?_⟩
    obtain ⟨m, hm⟩ := measured _ he
    cases hm
  | seesOff k f seesOff done same replied due refusal =>
    obtain ⟨new, log, ofWriting⟩ := (closeReply_beside s k f).logs
    refine ⟨done ++ new, by rw [same, List.append_assoc, ← log], fun k p request he => ?_⟩
    rcases List.mem_append.mp he with he | he
    · cases replied _ he
    · exact (ofWriting _ he).elim
  | takes f rest x_eq can input handles =>
    subst x_eq
    cases handles with
    | drops m closed => exact ⟨[.measured m, .received f], rfl, by simp⟩
    | completes m going kind =>
      refine ⟨(if s.window.contains f.sequence then [] else [.measured .windowUnmatched]) ++
        [.measured m, .received f], by rw [List.append_assoc]; rfl, ?_⟩
      split <;> simp
    | rejects m m' status rule => exact ⟨[.measured m', .measured m, .received f], rfl, by simp⟩
    | dispatches m rule =>
      refine ⟨[.called s.responders.length s.processor (.ofFrame f), .measured m, .received f], rfl,
        fun k p request he => ?_⟩
      obtain ⟨rfl, rfl, rfl⟩ : k = s.responders.length ∧ p = s.processor ∧ request = .ofFrame f := by
        simpa using he
      refine .calls f rest can input ?_
      rcases rule with ⟨hs, type, hk⟩ | ⟨hs, hk⟩
      · rw [show s.status = .opened from hs, hk, SessionStatus.reaction]
      · rw [show s.status = .bound from hs, hk, SessionStatus.reaction]
  | denies f stage x_eq flows same =>
    obtain ⟨new, log, ofWriting⟩ := (Beside.transmit s f).logs
    exact ⟨new, by rw [same, ← log]; rfl, fun k p request he => (ofWriting _ he).elim⟩
  | spares spares =>
    obtain ⟨new, log, calm⟩ := spares.logs
    exact ⟨new, log, fun k p request he => (calm _ he).elim⟩

/-! ## Runs -/

/-- The step `x` from `s` to `t` follows the protocol. -/
structure FollowsProtocol (s : Session) (x : Step) (t : Session) : Prop where
  /-- A frame that is taken off the input meets with what the table says. -/
  reacts : ∀ f rest, x = .move (.reader .read) → s.can (.reader .read) = true →
    s.nextInput = .frame f rest → s.Reacts f t (s.status.reaction f.kind)
  /-- A refusal is attempted once, by the next move of the reader; only a channel that stalls delays it. -/
  attempts : ∀ f, s.reader = .rejecting f →
    x = .move (.reader .proceed) ∧ s.channel.isStalled = false ∧ s.Attempts f t ∨
      ¬ (x = .move (.reader .proceed) ∧ s.channel.isStalled = false) ∧ t.reader = .rejecting f
  /-- No processor is called but for a frame that the table gives it. -/
  calls : ∃ new, t.log = new ++ s.log ∧
    ∀ k p request, .called k p request ∈ new → s.Calls x (.called k p request)
  ends : s.Ends t x → t.status = .closed
  binds : s.Binds x → t.status = .bound
  stays : ¬ s.Ends t x → ¬ s.Binds x → t.status = s.status

theorem Deals.followsProtocol (h : s.Deals x (s.step x)) (hs : s.Orderly) (hn : s.Numbered)
    (he : s.Expresses) : s.FollowsProtocol x (s.step x) where
  reacts f rest x_eq can input := by
    subst x_eq
    exact (step_handles can input).reacts hs.sound
  attempts f := h.attempts he
  calls := h.calls
  ends ends := ends.closed hs
  binds binds := binds.bound hn
  stays := h.stays

/-- **The protocol**: in every run every step follows it. -/
theorem follows_protocol (id : UInt32) (peer : Option SocketAddress) (serverSystemId : String)
    (settings : SessionSettings) (processor : Nat) (now : Instant) (xs : List Step) (x : Step) :
    ((fresh id peer serverSystemId settings processor now).after xs).FollowsProtocol x
      (((fresh id peer serverSystemId settings processor now).after xs).step x) := by
  have horderly := fresh_orderly id peer serverSystemId settings processor now
  have hnumbered := fresh_numbered id peer serverSystemId settings processor now
  have hexpresses : (fresh id peer serverSystemId settings processor now).Expresses := by
    intro f hf
    cases hf
  generalize fresh id peer serverSystemId settings processor now = s at horderly hnumbered hexpresses
  rw [← before_length]
  obtain ⟨hn, he⟩ : (s.before xs xs.length).Numbered ∧ (s.before xs xs.length).Expresses := by
    refine before_induct (P := fun t => t.Numbered ∧ t.Expresses) horderly (fun t ht h x => ?_)
      (Nat.zero_le xs.length) ⟨hnumbered, hexpresses⟩
    exact ⟨(step_serves ht h.1 x).numbered, (step_deals ht h.1 x).expresses h.2⟩
  have hs : (s.before xs xs.length).Orderly := before_orderly horderly xs.length
  exact (step_deals hs hn x).followsProtocol hs hn he

end Session

end Smsc
