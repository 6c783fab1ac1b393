import Smsc.Proofs.Session.Leaks
import Smsc.Proofs.Session.Protocol
import Smsc.Proofs.Session.Writing

/-!
# Smsc.Proofs.Session.Closing — the end of a session is final

Once a session is closed nothing can be done with it any more: no frame is written, no processor called,
no request admitted. What the calls that are still there come to is settled by the end itself; they only
have to find out.

* `Call.fate w c`: what a request comes to on a closed session, `stepCall_fate`; `step_fate`: no step
  changes it, `before_fate`;
* `SessionEvent.IsMute`, `step_mute`: a closed session neither writes nor calls a processor;
* `Obeys s`, `step_obeys`: a close that is over has closed the session;
* `Final s xs`, `closed_is_final`: every run in which writes fail after a disconnect.
-/

namespace Smsc

/-- What is reported for a frame that a channel does not take. -/
def Frame.unsent (f : Frame) : ChannelError :=
  match f.encode with
  | .error e => .encode e
  | .ok _ => .closed

/-- What a request comes to on a closed session. -/
def Call.fate (w : Window Frame Frame) (c : Call) : CallResult :=
  match c.stage with
  | .starting => .failed .notBound
  | .queued .. => .failed (.window .closed)
  | .writing frame _ => .failed (.channel frame.unsent)
  | .awaiting _ _ x =>
    match w.outcome? x.id with
    | some (.response r) => .received (.ofFrame r)
    | _ => .failed (.window (.expired x.key))
  | .finished result => result

/-- The frame of an unbind is an unbind. -/
theorem Call.Makes.unbind {c : Call} {f : Frame} (h : c.Makes f) (request : c.request = .unbind) :
    f.command = .unbind := by
  have hframe := h.frame
  rw [request] at hframe
  have hf : Frame.request f.sequence .unbind = f := Option.some.inj hframe
  rw [← hf]
  rfl

/-- Nothing is written, and no processor called. -/
def SessionEvent.IsMute : SessionEvent → Prop
  | .wrote .. | .called .. => False
  | _ => True

namespace Session

open Window

variable {s t : Session} {x : Step} {xs : List Step}

/-! ## What calls come to on a closed session -/

theorem transmit_of_refuses (refuses : s.channel.refuses = true) (f : Frame) :
    (s.transmit f).2 = .error f.unsent := by
  unfold transmit Frame.unsent
  cases f.encode with
  | error e => rfl
  | ok octets =>
    dsimp only
    rw [if_pos refuses]

theorem resume_of_closed {w : Window Frame Frame} (closed : w.permits.isClosed = true) (now : Instant)
    (p : PendingOffer Frame) : (w.resume now p).2 = .refused .closed := by
  simp [resume, Permits.poll, closed]

/-- The table of a closed session is empty, so that whoever had an entry is settled. -/
theorem Covered.settled (h : s.Covered) (closed : s.status = .closed) {c : Call} (hc : c ∈ s.calls)
    {f : Frame} {n : Nat} (hentry : c.stage.entry? = some (f, n)) : ∃ o, s.window.outcome? n = some o := by
  obtain ⟨hempty, -⟩ := h.closed closed
  rcases h.held c hc f n hentry with ⟨e, he, -⟩ | hsome
  · rw [hempty] at he
    cases he
  · exact Option.isSome_iff_exists.mp hsome

/-- A request that goes on after the end of the session meets its fate. -/
theorem stepCall_fate (h : s.Covered) (closed : s.status = .closed) (refuses : s.channel.refuses = true)
    {c : Call} (hc : c ∈ s.calls) (request : c.purpose = .request) (ready : s.callIsReady c = true) :
    (s.stepCall c).calls = (s.setCall c.id (.finished (c.fate s.window))).calls := by
  have of_error (u : Session) (calls : u.calls = s.calls) (e : SessionError) :
      (u.conclude c (.error e)).calls = (s.setCall c.id (.finished (.failed e))).calls := by
    unfold conclude
    rw [request]
    simp only [setCall, calls]
  unfold stepCall Call.fate
  cases stage : c.stage with
  | starting =>
    have hbound : s.isBound = false := by simp [isBound, closed]
    simp only [startCall, hbound, Bool.false_eq_true, if_false]
    exact of_error s rfl _
  | queued frame p =>
    obtain ⟨-, hshut, -⟩ := h.closed closed
    dsimp only
    rw [resume_of_closed hshut s.now p]
    exact of_error (measure { s with window := (s.window.resume s.now p).1 } (.windowOffer "rejected")) rfl
      (.window .closed)
  | writing frame entry =>
    have hunsent := transmit_of_refuses refuses frame
    have hcalls := transmit_calls s frame
    dsimp only
    unfold writeCall
    generalize s.transmit frame = tr at hunsent hcalls ⊢
    obtain ⟨u, r⟩ := tr
    dsimp only at hunsent hcalls ⊢
    subst hunsent
    exact of_error { u with window := (u.window.withdraw frame.sequence entry).1 } hcalls
      (.channel frame.unsent)
  | awaiting frame since x =>
    obtain ⟨o, ho⟩ := h.settled closed hc (by rw [stage]; rfl)
    dsimp only
    unfold awaitCall collect
    rw [ho]
    cases o with
    | response r =>
      dsimp only
      unfold respondCall
      rw [conclude_ok, request]
      split <;> rfl
    | released =>
      dsimp only
      exact of_error _ rfl _
  | finished result => simp [callIsReady, stage] at ready

/-- What a waiter has found stays there. -/
theorem CallTurn.outcome (hw : s.window.Sound) {c : Call} {stage : CallStage} (turn : s.CallTurn c t stage)
    {n : Nat} {o : Outcome Frame} (ho : s.window.outcome? n = some o) : t.window.outcome? n = some o := by
  cases turn with
  | waits same | writes _ _ _ _ same => rwa [same]
  | queues frame p unplaced makes key_eq request_eq turns => exact turns.outcome_of_some hw ho
  | admits frame e unplaced makes key_eq request_eq turns => exact turns.outcome_of_some hw ho
  | gets frame since x response stage_eq settled keeps => exact keeps.outcome n o ho
  | fails result none_received keeps => exact keeps.outcome n o ho

theorem Turn.outcome (hs : s.Orderly) (turn : s.Turn x t) {n : Nat} {o : Outcome Frame}
    (ho : s.window.outcome? n = some o) : t.window.outcome? n = some o := by
  cases turn with
  | apart tasks calls keeps => exact keeps.outcome n o ho
  | completes f rest _ _ _ _ _ tasks calls window =>
    rw [window]
    exact (complete_turns s.now f.sequence hs.sound f).outcome_of_some hs.sound ho
  | begins c id_eq lt stage calls window => rwa [window]
  | drops c mem tasks calls keeps => exact keeps.outcome n o ho
  | goes c mem stage tasks calls turn => exact turn.outcome hs.sound ho

/-- On a closed session the fate of a call is settled. -/
theorem Turn.fate (hs : s.Orderly) (h : s.Covered) (closed : s.status = .closed) (turn : s.Turn x t)
    {c : Call} (hc : c ∈ s.calls) : c.fate t.window = c.fate s.window := by
  unfold Call.fate
  cases stage : c.stage with
  | awaiting frame since w =>
    obtain ⟨o, ho⟩ := h.settled closed hc (by rw [stage]; rfl)
    dsimp only
    rw [ho, turn.outcome hs ho]
  | starting | queued | writing | finished => rfl

/-- No step changes what a request comes to once the session is closed. -/
theorem step_fate (hs : s.Orderly) (h : s.Covered) (closed : s.status = .closed)
    (refuses : s.channel.refuses = true) (x : Step) {c : Call} (hc : c ∈ s.calls)
    (request : c.purpose = .request) {b : Call} (hb : b ∈ (s.step x).calls) (hid : b.id = c.id) :
    b.purpose = .request ∧ b.fate (s.step x).window = c.fate s.window := by
  rcases eq_or_own_step hs hc hb hid with rfl | ⟨-, ready, hstep⟩
  · exact ⟨request, (step_turn hs x).fate hs h closed hc⟩
  · have hcalls := stepCall_fate h closed refuses hc request ready
    rw [hstep] at hb ⊢
    rw [hcalls] at hb
    rcases mem_setCall hs.call_ids hc hb with rfl | ⟨-, hne⟩
    · exact ⟨request, rfl⟩
    · exact absurd hid hne

/-! ## Silence -/

/-- A closed session neither writes nor calls a processor. -/
theorem step_mute (hs : s.Orderly) (hn : s.Numbered) (closed : s.status = .closed)
    (refuses : s.channel.refuses = true) (x : Step) :
    ∃ new, (s.step x).log = new ++ s.log ∧ ∀ e ∈ new, e.IsMute := by
  obtain ⟨new, log, silent⟩ := (step_puts s x).silent refuses
  obtain ⟨new', log', calls⟩ := (step_deals hs hn x).calls
  obtain rfl : new = new' := List.append_cancel_right (log.symm.trans log')
  refine ⟨new, log, fun e he => ?_⟩
  cases e with
  | wrote f octets => exact silent f octets he
  | called k p request =>
    cases calls k p request he with
    | calls f rest can input reaction =>
      rw [closed, SessionStatus.reaction] at reaction
      cases reaction
  | _ => trivial

/-! ## Closes -/

/-- A close asks for an unbind, and once it is over the session is closed. -/
def Obeys (s : Session) : Prop :=
  ∀ c ∈ s.calls, c.purpose = .close →
    c.request = .unbind ∧ ∀ result, c.stage = .finished result → s.status = .closed

/-- A close that comes to its end leaves the session closed. -/
theorem stepCall_closes (hs : s.Orderly) {c : Call} (hc : c ∈ s.calls) (close : c.purpose = .close)
    (request : c.request = .unbind) (ready : s.callIsReady c = true) {b : Call}
    (hb : b ∈ (s.stepCall c).calls) (hid : b.id = c.id) {result : CallResult}
    (finished : b.stage = .finished result) : (s.stepCall c).status = .closed := by
  have hgoes := stepCall_goes hs.call_ids hc
  generalize s.stepCall c = t at hb hgoes
  cases hgoes with
  | goes _ stage going status calls alone =>
    rw [calls] at hb
    rcases mem_setCall hs.call_ids hc hb with rfl | ⟨-, hne⟩
    · exact absurd finished (going result)
    · exact absurd hid hne
  | fails u e => exact (conclude_close close u e).1
  | responds u frame since response status finds =>
    obtain ⟨_, w, _, hstage, -⟩ := finds
    have makes : c.Makes frame := (hs.fits c hc).makes frame (by rw [hstage]; rfl)
    rw [respondCall_status, if_pos (makes.unbind request)]
  | rests result stage => simp [callIsReady, stage] at ready

theorem step_obeys (hs : s.Orderly) (h : s.Obeys) (x : Step) : (s.step x).Obeys := by
  intro b hb close
  have hcloses (closed : s.status = .closed) : (s.step x).status = .closed :=
    (step_advances hs x).closed closed
  rcases mem_calls_step hs hb with hold | ⟨-, starting, asked⟩ | ⟨c, hc, ⟨stage, rfl⟩, -, ready, hstep⟩
  · obtain ⟨request, closes⟩ := h b hold close
    exact ⟨request, fun result stage => hcloses (closes result stage)⟩
  · refine ⟨?_, fun result stage => ?_⟩
    · cases asked with
      | send purpose => simp [close] at purpose
      | close purpose request => exact request
    · rw [starting] at stage
      cases stage
  · obtain ⟨request, -⟩ := h c hc close
    rw [hstep] at hb ⊢
    exact ⟨request, fun result finished => stepCall_closes hs hc close request ready hb rfl finished⟩

/-! ## The step that closes a session -/

/-- A response that a call finds has been settled for its entry. -/
theorem Finds.settled (hw : s.window.Sound) {c : Call} {frame : Frame} (h : s.Finds c frame) :
    ∃ since w r, c.stage = .awaiting frame since w ∧ s.window.outcome? w.id = some (.response r) := by
  obtain ⟨since, w, r, stage, found⟩ := h
  have hcollecting := collect_collecting hw s.now w
  rw [found] at hcollecting
  cases hcollecting with
  | response r settled same => exact ⟨since, w, r, stage, settled⟩

/-- A call that has not written its frame, or whose entry is in the table, finds nothing. -/
theorem not_finds_of_pending (hw : s.window.Sound) {c : Call}
    (pending : ∀ f since w, c.stage = .awaiting f since w → ∃ e ∈ s.window.entries, e.id = w.id)
    (frame : Frame) : ¬ s.Finds c frame := by
  intro hfinds
  obtain ⟨since, w, r, stage, settled⟩ := hfinds.settled hw
  obtain ⟨e, he, hid⟩ := pending frame since w stage
  rw [← hid, hw.pending e he] at settled
  cases settled

/-- A request that finds no response does not close the session. -/
theorem stepCall_status_of_request (hs : s.Orderly) {c : Call} (hc : c ∈ s.calls)
    (request : c.purpose = .request) (alone : ∀ frame, ¬ s.Finds c frame) :
    (s.stepCall c).status = s.status := by
  have hgoes := stepCall_goes hs.call_ids hc
  generalize s.stepCall c = t at hgoes
  cases hgoes with
  | goes _ stage going status => exact status
  | fails u e status =>
    unfold conclude
    rw [request]
    exact status
  | responds u frame since response status finds => exact absurd finds (alone frame)
  | rests => rfl

/-- The end of a session leaves a request as it is that has found no response. -/
theorem stays_of_end (hs : s.Orderly) (going : s.status ≠ .closed) (closed : (s.step x).status = .closed)
    {c : Call} (hc : c ∈ s.calls) (request : c.purpose = .request) (alone : ∀ frame, ¬ s.Finds c frame)
    {b : Call} (hb : b ∈ (s.step x).calls) (hid : b.id = c.id) : b = c := by
  rcases eq_or_own_step hs hc hb hid with h | ⟨-, -, hstep⟩
  · exact h
  · rw [hstep, stepCall_status_of_request hs hc request alone] at closed
    exact absurd closed going

/-- The end of a session completes nobody. -/
theorem outcome_of_end (hs : s.Orderly) (going : s.status ≠ .closed) (closed : (s.step x).status = .closed)
    {n : Nat} (pending : s.window.outcome? n = none) (r : Frame) :
    (s.step x).window.outcome? n ≠ some (.response r) := by
  intro hresponse
  rcases (step_turn hs x).response hs hresponse with hold | ⟨rfl, can, -, ⟨rest, input⟩, isResponse, -⟩
  · rw [pending] at hold
    cases hold
  · obtain ⟨m, ⟨hclosed, -⟩ | ⟨-, hstep⟩⟩ := step_response can input isResponse
    · exact going hclosed
    · rw [hstep] at closed
      exact going closed

/-- A request whose response is pending is released by the end of the session. -/
theorem fate_of_pending (hs : s.Orderly) (going : s.status ≠ .closed) (closed : (s.step x).status = .closed)
    {c : Call} (hc : c ∈ s.calls) {f : Frame} {since : Instant} {w : Waiter}
    (stage : c.stage = .awaiting f since w) (pending : ∃ e ∈ s.window.entries, e.id = w.id) :
    c.fate (s.step x).window = .failed (.window (.expired f.sequence)) := by
  obtain ⟨e, he, hid⟩ := pending
  have hnone : s.window.outcome? w.id = none := by rw [← hid, hs.sound.pending e he]
  have hkey : w.key = f.sequence := (hs.fits c hc).waiter f since w stage
  unfold Call.fate
  rw [stage]
  dsimp only
  split
  · rename_i r hresponse
    exact absurd hresponse (outcome_of_end hs going closed hnone r)
  · rw [hkey]

/-! ## Runs -/

/-- In the run `xs` from `s` the end of the session is final. -/
structure Final (s : Session) (xs : List Step) : Prop where
  /-- At rest a closed session has an empty window that is closed, and its channel was told to disconnect.
  Every call is over, but for those whose write does not come to an end. -/
  rest : ∀ j, (s.before xs j).status = .closed → (s.before xs j).AtRest →
    (s.before xs j).window.permits.isClosed = true ∧ (s.before xs j).window.entries = [] ∧
      0 < (s.before xs j).channel.disconnects ∧ (s.before xs j).channel.isConnected = false ∧
      ∀ c ∈ (s.before xs j).calls, (∃ result, c.stage = .finished result) ∨
        (∃ f n, c.stage = .writing f n) ∧ (s.before xs j).channel.isStalled = true
  /-- A request whose response was pending when the session was closed has ended with that. -/
  expired : ∀ i j, i < j → (s.before xs i).status ≠ .closed → (s.before xs (i + 1)).status = .closed →
    (s.before xs j).AtRest → ∀ c ∈ (s.before xs i).calls, c.purpose = .request →
    ∀ f since w, c.stage = .awaiting f since w → (∃ e ∈ (s.before xs i).window.entries, e.id = w.id) →
    ∀ b ∈ (s.before xs j).calls, b.id = c.id →
      b.stage = .finished (.failed (.window (.expired f.sequence)))
  /-- So has a request that was waiting for capacity, -/
  refused : ∀ i j, i < j → (s.before xs i).status ≠ .closed → (s.before xs (i + 1)).status = .closed →
    (s.before xs j).AtRest → ∀ c ∈ (s.before xs i).calls, c.purpose = .request →
    ∀ f p, c.stage = .queued f p → ∀ b ∈ (s.before xs j).calls, b.id = c.id →
      b.stage = .finished (.failed (.window .closed))
  /-- and one whose frame was on its way out, once the write comes to an end. -/
  unsent : ∀ i j, i < j → (s.before xs i).status ≠ .closed → (s.before xs (i + 1)).status = .closed →
    (s.before xs j).AtRest → ∀ c ∈ (s.before xs i).calls, c.purpose = .request →
    ∀ f n, c.stage = .writing f n → ∀ b ∈ (s.before xs j).calls, b.id = c.id →
      b.stage = .finished (.failed (.channel f.unsent)) ∨
        b.stage = .writing f n ∧ (s.before xs j).channel.isStalled = true
  /-- A closed session stays closed. It takes no request in, writes nothing and calls no processor. -/
  final : ∀ i j, i ≤ j → (s.before xs i).status = .closed →
    (s.before xs j).status = .closed ∧ (s.before xs j).window.entries = [] ∧
      ∃ new, (s.before xs j).log = new ++ (s.before xs i).log ∧ ∀ e ∈ new, e.IsMute
  /-- A close that is over has closed the session, whatever it returned. -/
  closes : ∀ j, ∀ c ∈ (s.before xs j).calls, c.purpose = .close → ∀ result, c.stage = .finished result →
    (s.before xs j).status = .closed
  /-- So has a disconnect. -/
  disconnects : ∀ i, xs[i]? = some (.feel .disconnect) → (s.before xs (i + 1)).status = .closed

/-- At rest a call of a closed session is over, or its write does not come to an end. -/
theorem AtRest.callsOver (rest : s.AtRest) (hs : s.Orderly) (h : s.Covered) (closed : s.status = .closed)
    {c : Call} (hc : c ∈ s.calls) : (∃ result, c.stage = .finished result) ∨
      (∃ f n, c.stage = .writing f n) ∧ s.channel.isStalled = true := by
  have ready := rest.call hs hc
  cases stage : c.stage with
  | starting => simp [callIsReady, stage] at ready
  | queued frame p =>
    obtain ⟨-, hshut, -⟩ := h.closed closed
    simp [callIsReady, stage, PendingOffer.isReady, Permits.isSettled, hshut] at ready
  | writing frame entry => exact .inr ⟨⟨frame, entry, rfl⟩, by simpa [callIsReady, stage] using ready⟩
  | awaiting frame since w =>
    obtain ⟨o, ho⟩ := h.settled closed hc (by rw [stage]; rfl)
    rw [rest.unsettled hs hc stage] at ho
    cases ho
  | finished result => exact .inl ⟨result, rfl⟩

theorem before_closed (hs : s.Orderly) {i j : Nat} (hij : i ≤ j) (closed : (s.before xs i).status = .closed) :
    (s.before xs j).status = .closed :=
  before_induct (P := fun t => t.status = .closed) hs (fun _ ht h x => (step_advances ht x).closed h) hij
    closed

/-- Some step closes a session that is closed later. -/
theorem exists_step_of_end {i : Nat} (going : (s.before xs i).status ≠ .closed)
    (closed : (s.before xs (i + 1)).status = .closed) : ∃ x, xs[i]? = some x := by
  cases hx : xs[i]? with
  | none =>
    rw [before_succ_of_none hx] at closed
    exact absurd closed going
  | some x => exact ⟨x, rfl⟩

theorem before_mute (hs : s.Orderly) (hn : s.Numbered)
    (refuses : ∀ i, (s.before xs i).status = .closed → (s.before xs i).channel.refuses = true) {i j : Nat}
    (hij : i ≤ j) (closed : (s.before xs i).status = .closed) :
    ∃ new, (s.before xs j).log = new ++ (s.before xs i).log ∧ ∀ e ∈ new, e.IsMute := by
  refine stateAt_induct (P := fun t : Session => ∃ new, t.log = new ++ (s.before xs i).log ∧
    ∀ e ∈ new, e.IsMute) hij (fun k x hik _ _ ih => ?_) ⟨[], rfl, by simp⟩
  have hclosed : (s.before xs k).status = .closed := before_closed hs hik closed
  obtain ⟨new, log, mute⟩ := ih
  obtain ⟨new', log', mute'⟩ := step_mute (before_orderly hs k) (before_numbered hs hn k) hclosed
    (refuses k hclosed) x
  refine ⟨new' ++ new, log'.trans ?_, fun e he => ?_⟩
  · rw [List.append_assoc, ← log]
    rfl
  · rcases List.mem_append.mp he with he | he
    · exact mute' e he
    · exact mute e he

section Refusing

-- The channel takes nothing once the session is closed.
variable (hs : s.Orderly) (h : s.Covered)
  (refuses : ∀ i, (s.before xs i).status = .closed → (s.before xs i).channel.refuses = true)
include hs h refuses

/-- What a request comes to is settled from the end of the session on. -/
theorem before_fate {i j : Nat} (hij : i ≤ j) (closed : (s.before xs i).status = .closed) {id : Nat}
    {result : CallResult} (drawn : id < (s.before xs i).nextTask)
    (settled : ∀ c ∈ (s.before xs i).calls, c.id = id →
      c.purpose = .request ∧ c.fate (s.before xs i).window = result) :
    id < (s.before xs j).nextTask ∧ ∀ b ∈ (s.before xs j).calls, b.id = id →
      b.purpose = .request ∧ b.fate (s.before xs j).window = result := by
  refine stateAt_induct (P := fun t : Session => id < t.nextTask ∧ ∀ b ∈ t.calls, b.id = id →
    b.purpose = .request ∧ b.fate t.window = result) hij (fun k x hik _ _ ih => ?_) ⟨drawn, settled⟩
  have ht : (s.before xs k).Orderly := before_orderly hs k
  have hcovered : (s.before xs k).Covered := before_covered hs h k
  have hclosed : (s.before xs k).status = .closed := before_closed hs hik closed
  refine ⟨Nat.lt_of_lt_of_le ih.1 (step_turn ht x).tasks, fun b hb hid => ?_⟩
  obtain ⟨a, ha, haid⟩ := exists_previous ht hb (by rw [hid]; exact ih.1)
  obtain ⟨request, hresult⟩ := ih.2 a ha (haid.trans hid)
  obtain ⟨hrequest, hfate⟩ := step_fate ht hcovered hclosed (refuses k hclosed) x ha request hb haid.symm
  exact ⟨hrequest, hfate.trans hresult⟩

/-- What a request has come to at rest, if it had found no response when the session was closed. -/
theorem fate_of_end {i j : Nat} (hij : i < j) (going : (s.before xs i).status ≠ .closed)
    (closed : (s.before xs (i + 1)).status = .closed) (rest : (s.before xs j).AtRest) {c : Call}
    (hc : c ∈ (s.before xs i).calls) (request : c.purpose = .request)
    (alone : ∀ frame, ¬ (s.before xs i).Finds c frame) {b : Call} (hb : b ∈ (s.before xs j).calls)
    (hid : b.id = c.id) :
    b.stage = .finished (c.fate (s.before xs (i + 1)).window) ∨
      (∃ f n, b.stage = .writing f n ∧ c.fate (s.before xs (i + 1)).window = .failed (.channel f.unsent)) ∧
        (s.before xs j).channel.isStalled = true := by
  have ht : (s.before xs i).Orderly := before_orderly hs i
  have hu : (s.before xs j).Orderly := before_orderly hs j
  have htasks : c.id < (s.before xs (i + 1)).nextTask := by
    have hlt : c.id < (s.before xs i).nextTask := ht.call_lt c hc
    exact before_induct (P := fun t => c.id < t.nextTask) hs
      (fun t ht h x => Nat.lt_of_lt_of_le h (step_turn ht x).tasks) (Nat.le_succ i) hlt
  have hstays : ∀ a ∈ (s.before xs (i + 1)).calls, a.id = c.id →
      a.purpose = .request ∧ a.fate (s.before xs (i + 1)).window = c.fate (s.before xs (i + 1)).window := by
    intro a ha haid
    obtain ⟨x, hx⟩ := exists_step_of_end going closed
    obtain rfl : a = c := by
      rw [before_succ hx] at ha closed
      exact stays_of_end ht going closed hc request alone ha haid
    exact ⟨request, rfl⟩
  obtain ⟨-, hfates⟩ := before_fate hs h refuses hij closed htasks hstays
  obtain ⟨-, hfate⟩ := hfates b hb hid
  have hclosed : (s.before xs j).status = .closed := before_closed hs hij closed
  rcases rest.callsOver hu (before_covered hs h j) hclosed hb with ⟨result, stage⟩ | ⟨⟨f, n, stage⟩, stalled⟩
  · left
    rw [← hfate, stage, Call.fate, stage]
  · right
    refine ⟨⟨f, n, stage, ?_⟩, stalled⟩
    rw [← hfate, Call.fate, stage]

/-- So it has ended, unless it had its frame on its way out. -/
theorem finished_of_end {i j : Nat} (hij : i < j) (going : (s.before xs i).status ≠ .closed)
    (closed : (s.before xs (i + 1)).status = .closed) (rest : (s.before xs j).AtRest) {c : Call}
    (hc : c ∈ (s.before xs i).calls) (request : c.purpose = .request)
    (alone : ∀ frame, ¬ (s.before xs i).Finds c frame) {e : WindowError}
    (fate : c.fate (s.before xs (i + 1)).window = .failed (.window e)) {b : Call}
    (hb : b ∈ (s.before xs j).calls) (hid : b.id = c.id) : b.stage = .finished (.failed (.window e)) := by
  rcases fate_of_end hs h refuses hij going closed rest hc request alone hb hid with stage | ⟨⟨f, n, -, hf⟩, -⟩
  · rw [stage, fate]
  · rw [fate] at hf
    cases hf

end Refusing

/-- **The end**: in every run in which writes fail after a disconnect, a closed session is over for good,
and so are its calls. -/
theorem closed_is_final (id : UInt32) (peer : Option SocketAddress) (serverSystemId : String)
    (settings : SessionSettings) (processor : Nat) (now : Instant) (xs : List Step)
    (plain : ∀ x ∈ xs, x ≠ .feel (.lingerWrites true)) :
    (fresh id peer serverSystemId settings processor now).Final xs := by
  have hs := fresh_orderly id peer serverSystemId settings processor now
  have h := fresh_covered id peer serverSystemId settings processor now
  have hn := fresh_numbered id peer serverSystemId settings processor now
  have hobeys : (fresh id peer serverSystemId settings processor now).Obeys := by simp [Obeys, fresh]
  have hshut : (fresh id peer serverSystemId settings processor now).Shut := by simp [Shut, fresh]
  have hcut : (fresh id peer serverSystemId settings processor now).channel.lingers = false := rfl
  generalize fresh id peer serverSystemId settings processor now = s at hs h hn hobeys hshut hcut
  have orderly (i : Nat) : (s.before xs i).Orderly := before_orderly hs i
  have covered (i : Nat) : (s.before xs i).Covered := before_covered hs h i
  have shut (i : Nat) : (s.before xs i).Shut := before_shut hs hshut i
  have refuses (i : Nat) (closed : (s.before xs i).status = .closed) :
      (s.before xs i).channel.refuses = true :=
    (shut i).refuses (before_lingers hs hcut plain i) closed
  have obeys (i : Nat) : (s.before xs i).Obeys :=
    before_induct (P := Obeys) hs (fun _ ht h x => step_obeys ht h x) (Nat.zero_le i) hobeys
  refine ⟨fun j closed rest => ?_, ?_, ?_, ?_, fun i j hij closed => ?_, fun j c hc close result stage => ?_,
    fun i hx => ?_⟩
  · obtain ⟨hempty, hclosed, hcut⟩ := (covered j).closed closed
    exact ⟨hclosed, hempty, hcut, (shut j closed).2, fun c hc => rest.callsOver (orderly j) (covered j) closed hc⟩
  · intro i j hij going closed rest c hc request f since w stage pending b hb hid
    have alone := not_finds_of_pending (orderly i).sound (c := c) fun g since' w' stage' => by
      obtain ⟨-, -, rfl⟩ : f = g ∧ since = since' ∧ w = w' := by simpa [stage] using stage'
      exact pending
    have hfate : c.fate (s.before xs (i + 1)).window = .failed (.window (.expired f.sequence)) := by
      obtain ⟨x, hx⟩ := exists_step_of_end going closed
      rw [before_succ hx] at closed ⊢
      exact fate_of_pending (orderly i) going closed hc stage pending
    exact finished_of_end hs h refuses hij going closed rest hc request alone hfate hb hid
  · intro i j hij going closed rest c hc request f p stage b hb hid
    have alone := not_finds_of_pending (orderly i).sound (c := c) (by simp [stage])
    have hfate : c.fate (s.before xs (i + 1)).window = .failed (.window .closed) := by rw [Call.fate, stage]
    exact finished_of_end hs h refuses hij going closed rest hc request alone hfate hb hid
  · intro i j hij going closed rest c hc request f n stage b hb hid
    have alone := not_finds_of_pending (orderly i).sound (c := c) (by simp [stage])
    have hfate : c.fate (s.before xs (i + 1)).window = .failed (.channel f.unsent) := by rw [Call.fate, stage]
    rcases fate_of_end hs h refuses hij going closed rest hc request alone hb hid with
      hover | ⟨⟨g, m, hstage, -⟩, stalled⟩
    · exact .inl (by rw [hover, hfate])
    · right
      have hentry := entry_stays hs (Nat.le_of_lt hij) hc (by rw [stage]; rfl) b hb hid
      obtain ⟨rfl, rfl⟩ : g = f ∧ m = n := by simpa [hstage, CallStage.entry?] using hentry
      exact ⟨hstage, stalled⟩
  · have hclosed : (s.before xs j).status = .closed := before_closed hs hij closed
    exact ⟨hclosed, ((covered j).closed hclosed).1, before_mute hs hn refuses hij closed⟩
  · exact (obeys j c hc close).2 result stage
  · rw [before_succ hx]
    rfl

/-- A response is awaited and another request waits for capacity, when the session is disconnected. A close
comes too late. -/
def farewell : List Step :=
  greeting ++ [.feel (.send ⟨some 7, .enquireLink⟩ ⟨1000⟩), .move (.call 1), .move (.call 1),
    .feel (.send ⟨some 8, .enquireLink⟩ ⟨1000⟩), .move (.call 2), .feel .close, .feel .disconnect,
    .move (.call 1), .move (.call 2), .move (.call 3), .move (.reader .stop)]

theorem farewell_final :
    let s := fresh 1 none "smsc" ⟨1, ⟨1000⟩, ⟨1000⟩, ⟨1000⟩⟩ 0 0
    (∀ x ∈ farewell, x ≠ .feel (.lingerWrites true)) ∧ s.Final farewell ∧
      (s.before farewell 14).status = .closed ∧ (s.before farewell 13).status = .bound ∧
      (s.before farewell 13).window.size = 1 ∧ (s.after farewell).AtRest ∧
      (s.after farewell).calls.map (·.stage) = [.finished (.failed (.window (.expired 7))),
        .finished (.failed (.window .closed)), .finished .closed] :=
  ⟨by decide, closed_is_final 1 none "smsc" _ 0 0 farewell (by decide), by decide +kernel, by decide +kernel,
    by decide +kernel, by decide +kernel, by decide +kernel⟩

end Session

end Smsc
