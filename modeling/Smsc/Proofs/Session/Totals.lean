import Mathlib.Algebra.GroupWithZero.Nat
import Smsc.Proofs.Session.Acts
import Smsc.Proofs.Session.Intake
import Smsc.Proofs.Session.Protocol

/-!
# Smsc.Proofs.Session.Totals — what the counters of a session come to

Every step puts its measurements down in the log. What a counter has come to is the sum over them.

* `Session.total s i attributes`: the sum of an instrument over the series that have the attributes;
* `Tells l s t`: only some instruments are read, every write stands next to its counter, and nobody is
  bound; `Greets s t`: the session is bound, and that is counted;
* `step_tells`, `step_total`: which instruments a step reads;
* `WritesCounted`, `BindsCounted`: what the writes and the binds come to in every state;
* `taken?`, `step_incoming`: frames that come in; `sweep_expired`: requests that expire;
* `tally`, `after_tally`: what the steps of a run come to.
-/

namespace Smsc

/-- How much a reading adds up to. A duration counts as one. -/
def Reading.amount : Reading → Nat
  | .add n => n
  | .set _ => 0
  | .lasted _ => 1

/-- The frame is refused. -/
def Reaction.isRefusal : Reaction → Bool
  | .refuse _ => true
  | _ => false

theorem Reaction.isRefusal_eq_false {r : Reaction} (h : ∀ status, r ≠ .refuse status) : r.isRefusal = false := by
  cases r with
  | refuse status => exact absurd rfl (h status)
  | _ => rfl

namespace SessionEvent

/-- How much an event adds to an instrument, over the series that have the attributes. -/
def adds (i : Instrument) (attributes : List (String × String)) : SessionEvent → Nat
  | .measured m => if m.instrument = i ∧ attributes ⊆ m.attributes then m.reading.amount else 0
  | _ => 0

def isWrite : SessionEvent → Bool
  | .wrote .. => true
  | _ => false

def isFailedWrite : SessionEvent → Bool
  | .writeFailed _ => true
  | _ => false

theorem adds_of_ne {i : Instrument} {attributes : List (String × String)} {m : Measurement}
    (h : m.instrument ≠ i) : (measured m).adds i attributes = 0 :=
  if_neg fun hm => h hm.1

end SessionEvent

namespace Session

variable {s t u : Session} {x : Step} {l k : List Instrument} {i : Instrument}
  {attributes : List (String × String)}

/-- What an instrument has come to, over the series that have the attributes. -/
def total (s : Session) (i : Instrument) (attributes : List (String × String)) : Nat :=
  (s.log.map (·.adds i attributes)).sum

/-- The attribute of binds that succeeded. -/
abbrev success : List (String × String) := [("result", "success")]

/-- The attribute of errors on the way out of a frame. -/
abbrev writing : List (String × String) := [("kind", "write")]

theorem total_append (new : List SessionEvent) (log : t.log = new ++ s.log) :
    t.total i attributes = s.total i attributes + (new.map (·.adds i attributes)).sum := by
  rw [total, total, log, List.map_append, List.sum_append, Nat.add_comm]

theorem total_measure (s : Session) (m : Measurement) :
    (s.measure m).total i attributes = s.total i attributes + SessionEvent.adds i attributes (.measured m) :=
  total_append [.measured m] rfl

/-! ## Which instruments are read -/

/-- Every write, and every failed one, stands next to its counter. -/
structure Paired (new : List SessionEvent) : Prop where
  writes : (new.map (·.adds .pduSentTotal [])).sum = new.countP (·.isWrite)
  failures : (new.map (·.adds .pduErrorsTotal writing)).sum = new.countP (·.isFailedWrite)

theorem Paired.append {new new' : List SessionEvent} (h : Paired new) (h' : Paired new') : Paired (new ++ new') := by
  constructor <;> simp only [List.map_append, List.sum_append, List.countP_append]
  · rw [h.writes, h'.writes]
  · rw [h.failures, h'.failures]

/-- From `s` to `t` only these instruments are read, and so are writes. No bind succeeds. -/
structure Tells (l : List Instrument) (s t : Session) : Prop where
  logs : ∃ new, t.log = new ++ s.log ∧ Paired new ∧ (new.map (·.adds .bindsTotal success)).sum = 0 ∧
    ∀ m, .measured m ∈ new → m.instrument ∈ l
  binding : t.binding = s.binding
  status : t.status = s.status ∨ t.status = .closed

namespace Tells

/-- Nothing is put down. -/
theorem of_log (log : t.log = s.log) (binding : t.binding = s.binding)
    (status : t.status = s.status ∨ t.status = .closed) : Tells l s t :=
  ⟨⟨[], log, ⟨rfl, rfl⟩, rfl, by simp⟩, binding, status⟩

theorem refl (s : Session) : Tells l s s := .of_log rfl rfl (.inl rfl)

theorem of_alike (h : Tells l t u) (log : t.log = s.log) (binding : t.binding = s.binding)
    (status : t.status = s.status) : Tells l s u := by
  obtain ⟨logs, hbinding, hstatus⟩ := h
  rw [log] at logs
  exact ⟨logs, hbinding.trans binding, status ▸ hstatus⟩

theorem of_new (new : List SessionEvent) (log : t.log = new ++ s.log) (paired : Paired new)
    (binds : (new.map (·.adds .bindsTotal success)).sum = 0)
    (among : ∀ m, .measured m ∈ new → m.instrument ∈ l) (binding : t.binding = s.binding)
    (status : t.status = s.status) : Tells l s t :=
  ⟨⟨new, log, paired, binds, among⟩, binding, .inl status⟩

theorem trans (h : Tells l s t) (h' : Tells l t u) : Tells l s u := by
  obtain ⟨new, log, paired, binds, among⟩ := h.logs
  obtain ⟨new', log', paired', binds', among'⟩ := h'.logs
  refine ⟨⟨new' ++ new, by rw [log', log, List.append_assoc], paired'.append paired, ?_, fun m hm => ?_⟩,
    h'.binding.trans h.binding, ?_⟩
  · rw [List.map_append, List.sum_append, binds, binds']
  · rcases List.mem_append.mp hm with hm | hm
    · exact among' m hm
    · exact among m hm
  · rcases h'.status with status | closed
    · rw [status]
      exact h.status
    · exact .inr closed

theorem mono (h : Tells l s t) (sub : l ⊆ k) : Tells k s t := by
  obtain ⟨new, log, paired, binds, among⟩ := h.logs
  exact ⟨⟨new, log, paired, binds, fun m hm => sub (among m hm)⟩, h.binding, h.status⟩

/-- An instrument that is not read stays as it is. -/
theorem total_eq (h : Tells l s t) (unread : i ∉ l) : t.total i attributes = s.total i attributes := by
  obtain ⟨new, log, -, -, among⟩ := h.logs
  have hzero : (new.map (·.adds i attributes)).sum = 0 := by
    refine List.sum_eq_zero_iff_forall_eq_nat.mpr fun n hn => ?_
    obtain ⟨e, he, rfl⟩ := List.mem_map.mp hn
    cases e with
    | measured m => exact SessionEvent.adds_of_ne fun hm => unread (hm ▸ among m he)
    | _ => rfl
  rw [total_append new log, hzero, Nat.add_zero]

theorem measure (s : Session) {m : Measurement} (mem : m.instrument ∈ l)
    (plain : m.instrument ∉ [.pduSentTotal, .pduErrorsTotal, .bindsTotal]) : Tells l s (s.measure m) := by
  simp only [List.mem_cons, List.not_mem_nil, or_false, not_or] at plain
  obtain ⟨hsent, herrors, hbinds⟩ := plain
  refine .of_new [.measured m] rfl ⟨?_, ?_⟩ ?_ (by simpa using mem) rfl rfl
  · exact SessionEvent.adds_of_ne hsent
  · exact SessionEvent.adds_of_ne herrors
  · exact SessionEvent.adds_of_ne hbinds

theorem disconnect (s : Session) : Tells l s s.disconnect.1 := .of_log rfl rfl (.inr rfl)

end Tells

theorem Transmits.tells {f : Frame} {r : Except ChannelError Unit} (h : s.Transmits f t r) :
    Tells [.pduSentTotal, .pduErrorsTotal] s t := by
  cases h with
  | writes octets =>
    exact .of_new [.measured (.pduSent f.command.name), .wrote f octets] rfl ⟨rfl, rfl⟩ rfl
      (by simp [Measurement.pduSent, Measurement.count]) rfl rfl
  | fails octets =>
    exact .of_new [.measured (.pduError "write"), .writeFailed f] rfl ⟨rfl, rfl⟩ rfl
      (by simp [Measurement.pduError, Measurement.count]) rfl rfl
  | overflows e =>
    exact .of_new [.measured (.pduError "encode")] rfl ⟨rfl, rfl⟩ rfl
      (by simp [Measurement.pduError, Measurement.count]) rfl rfl

theorem transmit_tells (s : Session) (f : Frame) :
    Tells [.pduSentTotal, .pduErrorsTotal] s (s.transmit f).1 :=
  (transmit_transmits s f).tells

theorem closeReply_tells (s : Session) (k : Nat) (f : Frame) :
    Tells [.pduSentTotal, .pduErrorsTotal] s (s.closeReply k f) := by
  rcases closeReply_cases s k f with h | h <;> rw [h]
  · exact transmit_tells s f
  · exact (transmit_tells s f).trans (.disconnect _)

/-! ## What comes in -/

/-- The instruments that are read when a frame comes in. -/
def incoming : List Instrument := [.pduReceivedTotal, .stateRejectionsTotal, .windowUnmatchedTotal, .pduErrorsTotal]

/-- What a frame leaves in the log. -/
inductive Leads (s : Session) (f : Frame) : List SessionEvent → Prop where
  | refuses (status : Status) (refused : s.status.reaction f.kind = .refuse status) :
      Leads s f [.measured (.stateRejection status.name)]
  | quiet (allowed : ∀ status, s.status.reaction f.kind ≠ .refuse status) : Leads s f []
  | unmatched (allowed : ∀ status, s.status.reaction f.kind ≠ .refuse status) :
      Leads s f [.measured .windowUnmatched]
  | calls (allowed : ∀ status, s.status.reaction f.kind ≠ .refuse status) (k p : Nat) (request : Request) :
      Leads s f [.called k p request]

theorem handleFrame_log (s : Session) (f : Frame) : ∃ new, s.Leads f new ∧
    (s.handleFrame f).log = new ++ .measured (.pduReceived f.command.name) :: .received f :: s.log := by
  have hresponse (allowed : ∀ status, s.status.reaction f.kind ≠ .refuse status) : ∃ new, s.Leads f new ∧
      ((s.receive f).handleResponse f).log =
        new ++ .measured (.pduReceived f.command.name) :: .received f :: s.log := by
    rw [handleResponse_receive]
    by_cases hfound : s.window.contains f.sequence = true
    · exact ⟨[], .quiet allowed, by simp [hfound]⟩
    · exact ⟨[.measured .windowUnmatched], .unmatched allowed, by simp [hfound]⟩
  have hstatus : (s.receive f).status = s.status := rfl
  unfold handleFrame
  simp only [hstatus]
  cases hs : s.status with
  | closed => exact ⟨[], .quiet (by simp [hs, SessionStatus.reaction]), rfl⟩
  | opened =>
    cases hk : f.kind with
    | response => exact hresponse (by simp [hs, hk, SessionStatus.reaction])
    | bind type => exact ⟨_, .calls (by simp [hs, hk, SessionStatus.reaction]) _ _ _, rfl⟩
    | request => exact ⟨_, .refuses .invalidBindStatus (by rw [hs, hk, SessionStatus.reaction]), rfl⟩
  | bound =>
    cases hk : f.kind with
    | response => exact hresponse (by simp [hs, hk, SessionStatus.reaction])
    | bind type => exact ⟨_, .refuses .alreadyBound (by rw [hs, hk, SessionStatus.reaction]), rfl⟩
    | request => exact ⟨_, .calls (by simp [hs, hk, SessionStatus.reaction]) _ _ _, rfl⟩

theorem handleFrame_tells (s : Session) (f : Frame) : Tells incoming s (s.handleFrame f) := by
  obtain ⟨new, leads, log⟩ := handleFrame_log s f
  have hsame : (s.handleFrame f).binding = s.binding ∧ (s.handleFrame f).status = s.status := by
    have handles := handleFrame_handles s f
    generalize s.handleFrame f = t at handles
    cases handles <;> exact ⟨rfl, rfl⟩
  refine .of_new (new ++ [.measured (.pduReceived f.command.name), .received f]) (by simp [log]) ?_ ?_ ?_
    hsame.1 hsame.2
  · cases leads <;> exact ⟨rfl, rfl⟩
  · cases leads <;> rfl
  · cases leads <;> simp [incoming, Measurement.pduReceived, Measurement.stateRejection,
      Measurement.windowUnmatched, Measurement.count]

/-- A frame that comes in is counted, and so is a refusal. -/
theorem handleFrame_totals (s : Session) (f : Frame) :
    (s.handleFrame f).total .pduReceivedTotal [] = s.total .pduReceivedTotal [] + 1 ∧
      (s.handleFrame f).total .stateRejectionsTotal [] =
        s.total .stateRejectionsTotal [] + (s.status.reaction f.kind).isRefusal.toNat := by
  obtain ⟨new, leads, log⟩ := handleFrame_log s f
  have hlog : (s.handleFrame f).log = (new ++ [.measured (.pduReceived f.command.name), .received f]) ++ s.log := by
    simp [log]
  rw [total_append _ hlog, total_append _ hlog]
  cases leads with
  | refuses status refused =>
    rw [refused]
    exact ⟨rfl, rfl⟩
  | quiet allowed | unmatched allowed | calls allowed =>
    rw [Reaction.isRefusal_eq_false allowed]
    exact ⟨rfl, rfl⟩

theorem readInput_tells (s : Session) : Tells incoming s s.readInput := by
  unfold readInput
  split
  · rename_i f rest _
    exact (handleFrame_tells { s with input := rest } f).of_alike rfl rfl rfl
  · rename_i rest _
    have hfault : Tells incoming s ({ s with input := rest }.measure (.pduError "decode")) :=
      .of_new [.measured (.pduError "decode")] rfl ⟨rfl, rfl⟩ rfl
        (by simp [incoming, Measurement.pduError, Measurement.count]) rfl rfl
    exact hfault.trans (.of_log rfl rfl (.inr rfl))
  · exact .of_log rfl rfl (.inr rfl)

/-! ## Replies -/

/-- The instruments that are read when a reply or a refusal goes out. -/
def outgoing : List Instrument :=
  [.pduSentTotal, .pduErrorsTotal, .processorErrorsTotal, .duplicateResponsesTotal, .bindsTotal]

/-- From `s` to `t` an open session is bound, and that is counted. -/
structure Greets (s t : Session) : Prop where
  log : ∃ type : BindType, t.log = .measured (.bind type.name "success") :: s.log
  opened : s.status = .opened
  bound : t.status = .bound
  binding : t.binding.isSome = true

theorem settleStatus_tells (s : Session) (q : Frame) (status : Status) :
    Tells outgoing s (s.settleStatus q status).1 ∨ s.Greets (s.settleStatus q status).1 := by
  unfold settleStatus
  split
  · rename_i type _
    split
    · by_cases hopened : s.status = .opened
      · simp only [markBound, hopened, if_true]
        exact .inr ⟨⟨type, rfl⟩, hopened, rfl, rfl⟩
      · simp only [markBound, hopened, if_false]
        cases s.status <;> exact .inl (.refl s)
    · refine .inl (.of_new [.measured (.bind type.name "rejected")] rfl ⟨rfl, rfl⟩ ?_
        (by simp [outgoing, Measurement.bind, Measurement.count]) rfl rfl)
      simp [SessionEvent.adds, Measurement.bind, Measurement.count]
  · exact .inl (.refl s)

/-- The session is bound only by a reply that goes out. -/
theorem openReply_tells (s : Session) (k : Nat) (reply : Reply) : Tells outgoing s (s.openReply k reply).1 ∨
    s.Greets (s.openReply k reply).1 ∧ (s.openReply k reply).2.isSome = true := by
  unfold openReply
  split
  · exact .inl (.refl s)
  · rename_i r _
    split
    · exact .inl (.measure s (by simp [outgoing, Measurement.duplicateResponse, Measurement.count])
        (by simp [Measurement.duplicateResponse, Measurement.count]))
    · have hsettles := settleStatus_tells
        { s with responders := s.responders.set k { r with isSent := true } } r.request reply.status
      dsimp only
      generalize settleStatus _ r.request reply.status = settled at hsettles
      obtain ⟨u, status⟩ := settled
      rcases hsettles with tells | greets
      · exact .inl (tells.of_alike rfl rfl rfl)
      · exact .inr ⟨⟨greets.log, greets.opened, greets.bound, greets.binding⟩, rfl⟩

theorem endProcessing_tells (s : Session) (verdict : Verdict) : Tells outgoing s (s.endProcessing verdict) := by
  have hfails (kind : String) : Tells outgoing s (s.measure (.processorError kind)) :=
    .measure s (by simp [outgoing, Measurement.processorError, Measurement.count])
      (by simp [Measurement.processorError, Measurement.count])
  unfold endProcessing
  split
  · exact .of_log rfl rfl (.inl rfl)
  · exact (hfails "error").trans (.of_log rfl rfl (.inl rfl))
  · exact (hfails "panic").trans (.of_log rfl rfl (.inl rfl))

theorem work_tells (s : Session) (k : Nat) (plan : Plan) :
    Tells outgoing s (s.work k plan) ∨ s.Greets (s.work k plan) := by
  unfold work
  split
  · exact .inl (endProcessing_tells s plan.verdict)
  · exact .inl (.of_log rfl rfl (.inl rfl))
  · exact .inl (.of_new [.held k] rfl ⟨rfl, rfl⟩ rfl (by simp) rfl rfl)
  · rename_i reply actions _
    have hopens := openReply_tells s k reply
    generalize s.openReply k reply = uo at hopens
    obtain ⟨u, _ | response⟩ := uo
    · have tells : Tells outgoing s u := by simpa using hopens
      exact .inl (tells.trans (.of_new [.replied k false] rfl ⟨rfl, rfl⟩ rfl (by simp) rfl rfl))
    · rcases hopens with tells | ⟨greets, -⟩
      · exact .inl (tells.trans (.of_log rfl rfl (.inl rfl)))
      · exact .inr ⟨greets.log, greets.opened, greets.bound, greets.binding⟩

theorem stepAnswer_tells (s : Session) (a : Answer) :
    Tells outgoing s (s.stepAnswer a) ∨ s.Greets (s.stepAnswer a) := by
  unfold stepAnswer
  split
  · have hopens := openReply_tells s a.responder a.reply
    generalize s.openReply a.responder a.reply = uo at hopens
    obtain ⟨u, _ | response⟩ := uo
    · have tells : Tells outgoing s u := by simpa using hopens
      exact .inl (tells.trans (.of_log rfl rfl (.inl rfl)))
    · rcases hopens with tells | ⟨greets, -⟩
      · exact .inl (tells.trans (.of_log rfl rfl (.inl rfl)))
      · exact .inr ⟨greets.log, greets.opened, greets.bound, greets.binding⟩
  · rename_i response _
    have hcloses : Tells outgoing s (s.closeReply a.responder response) :=
      (closeReply_tells s a.responder response).mono (by simp [outgoing])
    exact .inl (hcloses.trans (.of_log rfl rfl (.inl rfl)))
  · exact .inl (.refl s)

/-! ## Every step -/

theorem sweep_tells (s : Session) : Tells [.windowExpiredTotal] s s.sweep := by
  unfold sweep
  dsimp only
  split
  · exact .of_log rfl rfl (.inl rfl)
  · have hexpires (u : Session) (n : Nat) : Tells [.windowExpiredTotal] u (u.measure (.windowExpired n)) :=
      .measure u (by simp [Measurement.windowExpired]) (by simp [Measurement.windowExpired])
    exact (hexpires { s with window := _, nextSweep := _ } _).of_alike rfl rfl rfl

/-- The instruments that a step may read. -/
def Step.readings : Step → List Instrument
  | .feel _ | .move (.reader .stop) => []
  | .move (.reader .read) => incoming
  | .move (.reader .sweep) => [.windowExpiredTotal]
  | .move (.reader .proceed) | .move (.answer _) => outgoing
  | .move (.call _) => [.windowOffersTotal, .pduSentTotal, .pduErrorsTotal, .requestDuration, .windowTimeoutsTotal]

theorem moveReader_tells {m : ReaderMove} (can : s.can (.reader m) = true) :
    Tells (Step.move (.reader m)).readings s (s.moveReader m) ∨ m = .proceed ∧ s.Greets (s.moveReader m) := by
  cases m with
  | stop =>
    simp only [moveReader, waiting_of_can can (by decide)]
    exact .inl (.of_log rfl rfl (.inr rfl))
  | read =>
    simp only [moveReader, waiting_of_can can (by decide)]
    exact .inl (readInput_tells s)
  | sweep =>
    simp only [moveReader, waiting_of_can can (by decide)]
    exact .inl (sweep_tells s)
  | proceed =>
    cases hreader : s.reader with
    | rejecting response =>
      simp only [moveReader, hreader]
      exact .inl (((transmit_tells s response).mono (by simp [Step.readings, outgoing])).trans
        (.of_log rfl rfl (.inl rfl)))
    | answering response k plan =>
      simp only [moveReader, hreader]
      exact .inl (((closeReply_tells s k response).mono (by simp [Step.readings, outgoing])).trans
        (.of_new [.replied k true] rfl ⟨rfl, rfl⟩ rfl (by simp) rfl rfl))
    | working k plan =>
      simp only [moveReader, hreader]
      exact (work_tells s k plan).imp_right fun greets => ⟨trivial, greets⟩
    | pausing wake k plan =>
      simp only [moveReader, hreader]
      exact .inl (.of_log rfl rfl (.inl rfl))
    | waiting | calling | finished => simp [Session.can, readerCan, hreader] at can

theorem conclude_tells (s : Session) (c : Call) (r : Except SessionError Received) :
    Tells l s (s.conclude c r) := by
  obtain ⟨u, result, hu, same, -⟩ := conclude_ends s c r
  rw [same]
  rcases hu with rfl | rfl
  · exact .of_log rfl rfl (.inl rfl)
  · exact .of_log rfl rfl (.inr rfl)

theorem afterOffer_tells (s : Session) (c : Call) (frame : Frame) (o : Offered Frame) :
    Tells [.windowOffersTotal] s (s.afterOffer c frame o) := by
  have hoffers (result : String) : Tells [.windowOffersTotal] s (s.measure (.windowOffer result)) :=
    .measure s (by simp [Measurement.windowOffer, Measurement.count])
      (by simp [Measurement.windowOffer, Measurement.count])
  cases o with
  | admitted entry => exact (hoffers "accepted").trans (.of_log rfl rfl (.inl rfl))
  | refused e => exact (hoffers "rejected").trans (conclude_tells _ c _)
  | waiting p => exact .of_log rfl rfl (.inl rfl)

theorem Acts.tells {c : Call} (h : s.Acts c t) (id : Nat) : Tells (Step.move (.call id)).readings s t := by
  cases h with
  | declines starting u draws e =>
    exact (conclude_tells u c _).of_alike (by rw [draws.same]) (by rw [draws.same]) (by rw [draws.same])
  | offers starting u draws frame w o offered =>
    have hoffers : Tells [.windowOffersTotal] { u with window := w } _ := afterOffer_tells _ c frame o
    exact (hoffers.mono (by simp [Step.readings])).of_alike (by rw [draws.same]) (by rw [draws.same])
      (by rw [draws.same])
  | resumes frame p queued w o resumed =>
    have hoffers : Tells [.windowOffersTotal] { s with window := w } _ := afterOffer_tells _ c frame o
    exact (hoffers.mono (by simp [Step.readings])).of_alike rfl rfl rfl
  | writes frame entry writing u sent =>
    exact (sent.tells.mono (by simp [Step.readings])).trans (.of_log rfl rfl (.inl rfl))
  | fails frame entry writing u e failed =>
    refine Tells.mono (l := [.pduSentTotal, .pduErrorsTotal]) (failed.tells.trans ?_) (by simp [Step.readings])
    exact (conclude_tells { u with window := _ } c _).of_alike rfl rfl rfl
  | waits => exact .refl s
  | gets frame since x awaiting response found =>
    have hlasts : Tells [.requestDuration] s
        (s.measure (.requestDuration frame.command.name (.between since s.now))) :=
      .measure s (by simp [Measurement.requestDuration]) (by simp [Measurement.requestDuration])
    refine Tells.mono (l := [.requestDuration]) (hlasts.trans ?_) (by simp [Step.readings])
    unfold respondCall
    dsimp only
    split
    · exact (Tells.disconnect _).trans (conclude_tells _ c _)
    · exact conclude_tells _ c _
  | timesOut frame since x awaiting key late held =>
    have htimesOut : Tells [.windowTimeoutsTotal] { s with window := (s.window.withdraw x.key x.id).1 } _ :=
      .measure (m := .windowTimeout frame.command.name) _ (by simp [Measurement.windowTimeout, Measurement.count])
        (by simp [Measurement.windowTimeout, Measurement.count])
    refine Tells.mono (l := [.windowTimeoutsTotal]) ?_ (by simp [Step.readings])
    exact (htimesOut.trans (conclude_tells _ c _)).of_alike rfl rfl rfl
  | lapses frame since x awaiting key lapsed => exact conclude_tells s c _
  | rests => exact .refl s

theorem feel_tells (s : Session) (y : Stimulus) : Tells l s (s.feel y) := by
  have hfeels := feel_feels s y
  generalize s.feel y = t at hfeels
  cases hfeels with
  | aside _ same => exact .of_log (by rw [same]) (by rw [same]) (.inl (by rw [same]))
  | begins | answers | works => exact .of_log rfl rfl (.inl rfl)
  | ends => exact .disconnect s
  | drops c mem =>
    unfold dropCall
    dsimp only
    split <;> exact .of_log rfl rfl (.inl rfl)
  | forgets a mem =>
    unfold dropAnswer
    split <;> exact .of_log rfl rfl (.inl rfl)

/-- A step reads its instruments, unless a reply to a bind binds the session. -/
theorem step_tells (s : Session) (x : Step) :
    Tells x.readings s (s.step x) ∨ .bindsTotal ∈ x.readings ∧ s.Greets (s.step x) := by
  cases x with
  | feel y => exact .inl (feel_tells s y)
  | move m =>
    have hmoves := step_moves s m
    generalize s.step (.move m) = t at hmoves
    cases hmoves with
    | reader m can =>
      refine (moveReader_tells can).imp_right ?_
      rintro ⟨rfl, greets⟩
      exact ⟨by simp [Step.readings, outgoing], greets⟩
    | call id c => exact .inl ((stepCall_acts s c).tells id)
    | answer id a =>
      exact (stepAnswer_tells s a).imp_right fun greets => ⟨by simp [Step.readings, outgoing], greets⟩
    | nothing m => exact .inl (.refl s)

theorem step_total (unread : i ∉ x.readings) :
    (s.step x).total i attributes = s.total i attributes := by
  rcases step_tells s x with tells | ⟨mem, greets⟩
  · exact tells.total_eq unread
  · obtain ⟨type, log⟩ := greets.log
    have hne : Instrument.bindsTotal ≠ i := fun h => unread (h ▸ mem)
    rw [total_append [.measured _] log]
    simp [SessionEvent.adds_of_ne (m := .bind type.name "success") hne]

/-! ## Writes -/

/-- Every write of the session is counted, and every failed one. -/
structure WritesCounted (s : Session) : Prop where
  writes : s.total .pduSentTotal [] = s.log.countP (·.isWrite)
  failures : s.total .pduErrorsTotal writing = s.log.countP (·.isFailedWrite)

theorem WritesCounted.append (new : List SessionEvent) (h : s.WritesCounted) (log : t.log = new ++ s.log)
    (paired : Paired new) : t.WritesCounted := by
  constructor <;> rw [total_append new log, log, List.countP_append, Nat.add_comm]
  · rw [paired.writes, h.writes]
  · rw [paired.failures, h.failures]

theorem step_writesCounted (h : s.WritesCounted) (x : Step) : (s.step x).WritesCounted := by
  rcases step_tells s x with tells | ⟨-, greets⟩
  · obtain ⟨new, log, paired, -⟩ := tells.logs
    exact h.append new log paired
  · obtain ⟨type, log⟩ := greets.log
    exact h.append [.measured _] log ⟨rfl, rfl⟩

/-! ## Binds -/

/-- The binds that succeeded say whether somebody is bound. -/
structure BindsCounted (s : Session) : Prop where
  binds : s.total .bindsTotal success = if s.binding.isSome then 1 else 0
  opened : s.status = .opened → s.binding = none
  bound : s.status = .bound → s.binding.isSome = true

theorem step_bindsCounted (h : s.BindsCounted) (x : Step) : (s.step x).BindsCounted := by
  rcases step_tells s x with tells | ⟨-, greets⟩
  · obtain ⟨new, log, -, binds, -⟩ := tells.logs
    refine ⟨by rw [total_append new log, binds, tells.binding, h.binds, Nat.add_zero], fun opened => ?_,
      fun bound => ?_⟩
    · rw [tells.binding]
      refine h.opened (tells.status.elim (fun status => status ▸ opened) fun closed => ?_)
      simp [opened] at closed
    · rw [tells.binding]
      refine h.bound (tells.status.elim (fun status => status ▸ bound) fun closed => ?_)
      simp [bound] at closed
  · obtain ⟨type, log⟩ := greets.log
    refine ⟨?_, fun opened => ?_, fun _ => greets.binding⟩
    · rw [total_append [.measured _] log, h.binds, h.opened greets.opened, if_pos greets.binding]
      simp [SessionEvent.adds, Measurement.bind, Measurement.count, Reading.amount]
    · simp [greets.bound] at opened

/-- Who has been bound stays bound. -/
theorem step_binding (h : s.binding.isSome = true) (x : Step) : (s.step x).binding.isSome = true := by
  rcases step_tells s x with tells | ⟨-, greets⟩
  · rwa [tells.binding]
  · exact greets.binding

/-- Somebody is bound by the step that binds the session. -/
theorem bound_of_step_binding (h : (s.step x).binding.isSome = true) (unbound : s.binding.isSome = false) :
    (s.step x).status = .bound := by
  rcases step_tells s x with tells | ⟨-, greets⟩
  · rw [tells.binding, unbound] at h
    cases h
  · exact greets.bound

/-! ## What comes in, and what expires -/

theorem readInput_totals (s : Session) (f : Frame) (rest : List UInt8) (input : s.nextInput = .frame f rest) :
    s.readInput.total .pduReceivedTotal [] = s.total .pduReceivedTotal [] + 1 ∧
      s.readInput.total .stateRejectionsTotal [] =
        s.total .stateRejectionsTotal [] + (s.status.reaction f.kind).isRefusal.toNat := by
  unfold readInput
  rw [input]
  exact handleFrame_totals { s with input := rest } f

/-- The frame that a step takes off the input, of a closed session too. -/
def taken? (s : Session) (x : Step) : Option Frame :=
  if x = .move (.reader .read) ∧ s.can (.reader .read) = true then
    match s.nextInput with
    | .frame f _ => some f
    | _ => none
  else none

/-- How many frames a step takes. -/
def takes (s : Session) (x : Step) : Nat := (s.taken? x).isSome.toNat

/-- How many frames are refused that a step takes, for the state of the session. -/
def rejects (s : Session) (x : Step) : Nat :=
  ((s.taken? x).any fun f => (s.status.reaction f.kind).isRefusal).toNat

theorem taken?_of_ne (h : x ≠ .move (.reader .read)) : s.taken? x = none := if_neg fun hx => h hx.1

theorem unread_of_ne (h : x ≠ .move (.reader .read)) :
    .pduReceivedTotal ∉ x.readings ∧ .stateRejectionsTotal ∉ x.readings := by
  unfold Step.readings
  split
  case h_3 => exact absurd rfl h
  all_goals decide

theorem step_incoming (s : Session) (x : Step) :
    (s.step x).total .pduReceivedTotal [] = s.total .pduReceivedTotal [] + s.takes x ∧
      (s.step x).total .stateRejectionsTotal [] = s.total .stateRejectionsTotal [] + s.rejects x := by
  by_cases hread : x = .move (.reader .read)
  · subst hread
    by_cases can : s.can (.reader .read) = true
    · have hstep : s.step (.move (.reader .read)) = s.readInput := by
        rw [step_reader can]
        simp only [moveReader, waiting_of_can can (by decide)]
      cases input : s.nextInput with
      | frame f rest =>
        have htaken : s.taken? (.move (.reader .read)) = some f := by simp [taken?, can, input]
        rw [hstep, takes, rejects, htaken]
        exact readInput_totals s f rest input
      | fault e rest =>
        have htaken : s.taken? (.move (.reader .read)) = none := by simp [taken?, can, input]
        rw [hstep, takes, rejects, htaken, readInput, input]
        exact ⟨total_append [.measured (.pduError "decode")] rfl,
          total_append [.measured (.pduError "decode")] rfl⟩
      | incomplete =>
        have htaken : s.taken? (.move (.reader .read)) = none := by simp [taken?, can, input]
        rw [hstep, takes, rejects, htaken, readInput, input]
        exact ⟨rfl, rfl⟩
    · have htaken : s.taken? (.move (.reader .read)) = none := if_neg fun h => can h.2
      rw [takes, rejects, htaken, step, if_neg can]
      exact ⟨rfl, rfl⟩
  · obtain ⟨received, rejections⟩ := unread_of_ne hread
    rw [takes, rejects, taken?_of_ne hread, step_total received, step_total rejections]
    exact ⟨rfl, rfl⟩

/-- A sweep counts the requests that it reclaims. -/
theorem sweep_expired (s : Session) : s.sweep.total .windowExpiredTotal [] =
    s.total .windowExpiredTotal [] + s.window.entries.countP (·.expireAt ≤ s.now) := by
  have hlength : (s.window.expire s.now).2.length = s.window.entries.countP (·.expireAt ≤ s.now) := by
    simp [Window.expire, List.countP_eq_length_filter]
  unfold sweep
  dsimp only
  rw [← hlength]
  split
  · rename_i hempty
    rw [List.isEmpty_iff.mp hempty]
    rfl
  · exact total_append [.measured (.windowExpired _)] rfl

/-! ## Runs -/

/-- What the steps of a run come to, one added to the other. -/
def tally (count : Session → Step → Nat) (s : Session) : List Step → Nat
  | [] => 0
  | x :: xs => count s x + tally count (s.step x) xs

variable {f g : Session → Step → Nat} {xs : List Step}

theorem tally_add : tally (fun s x => f s x + g s x) s xs = tally f s xs + tally g s xs := by
  induction xs generalizing s with
  | nil => rfl
  | cons x xs ih =>
    simp only [tally, ih]
    omega

/-- What every step of an orderly session keeps with the tally, every run keeps. -/
theorem after_tally (xs : List Step) {P : Nat → Session → Prop} (hs : s.Orderly) (hc : s.Covered)
    (step : ∀ t : Session, t.Orderly → t.Covered → ∀ n x, P n t → P (n + f t x) (t.step x)) {n : Nat}
    (first : P n s) : P (n + tally f s xs) (s.after xs) := by
  induction xs generalizing s n with
  | nil => exact first
  | cons x xs ih =>
    have hrun := ih (step_orderly hs x) (step_covered hs hc x) (step s hs hc n x first)
    rwa [Nat.add_assoc] at hrun

end Session

end Smsc
