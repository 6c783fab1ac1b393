import Smsc.Proofs.Packet.Wire
import Smsc.Proofs.Session.Beside

/-!
# Smsc.Proofs.Session.Calls — what a call can do

A call acts beside the reader and the replies: it changes its own stage, the window, and what comes
with the end of the session.

* `SessionEvent.OfCall`: what a call may leave in the log;
* `CallStage.frame?`, `CallStage.entry?`: the frame a call has made, the window entry it holds;
* `Call.Fits`: the frame of a call is that of its request;
* `CallTurn`, `stepCall_turn`: where a call can get to in one step, and what it does to the window.
-/

namespace Smsc

/-! ## Frames of the server's requests -/

/-- A frame that is a request of the server. -/
def Frame.IsOutbound (f : Frame) : Prop := Session.maySend f.command = true ∧ f.pdu.command = f.command

theorem Frame.IsOutbound.isResponse {f : Frame} (h : f.IsOutbound) : f.isResponse = false := by
  have hmay := h.1
  unfold Frame.isResponse
  cases hc : f.command <;> simp [Session.maySend, hc] at hmay <;> rfl

/-- What a call may leave in the log. -/
def SessionEvent.OfCall : SessionEvent → Prop
  | .wrote f octets => f.IsOutbound ∧ f.encode = .ok octets
  | .writeFailed f => f.IsOutbound
  | .measured _ => True
  | _ => False

/-- The frame that a call has made of its request. -/
def CallStage.frame? : CallStage → Option Frame
  | .queued frame _ | .writing frame _ | .awaiting frame _ _ => some frame
  | _ => none

/-- The window entry that a call holds, and its frame. -/
def CallStage.entry? : CallStage → Option (Frame × Nat)
  | .writing frame entry => some (frame, entry)
  | .awaiting frame _ x => some (frame, x.id)
  | _ => none

/-- The frame of the call has no place in the window yet. -/
def CallStage.IsUnplaced (stage : CallStage) : Prop :=
  stage = .starting ∨ ∃ frame p, stage = .queued frame p

theorem CallStage.IsUnplaced.entry? {stage : CallStage} (h : stage.IsUnplaced) : stage.entry? = none := by
  rcases h with rfl | ⟨frame, p, rfl⟩ <;> rfl

/-- The frame is the call's request, under the number the caller chose or a number drawn for it. -/
structure Call.Makes (c : Call) (f : Frame) : Prop where
  may : Session.maySend c.request.command = true
  frame : c.request.toFrame? f.sequence = some f
  chosen : ∀ n, c.request.sequence = some n → f.sequence = n

theorem Call.Makes.at {c : Call} {f : Frame} (h : c.Makes f) (stage : CallStage) :
    Call.Makes { c with stage } f := ⟨h.may, h.frame, h.chosen⟩

theorem Call.Makes.isOutbound {c : Call} {f : Frame} (h : c.Makes f) : f.IsOutbound := by
  obtain ⟨pdu, hpdu, hf⟩ := Option.map_eq_some_iff.mp h.frame
  rw [← hf]
  refine ⟨?_, rfl⟩
  show Session.maySend pdu.command = true
  rw [RequestBody.command_of_toPdu? hpdu]
  exact h.may

/-- Whatever a call holds was made of its request. -/
structure Call.Fits (c : Call) : Prop where
  makes : ∀ f, c.stage.frame? = some f → c.Makes f
  offer : ∀ f p, c.stage = .queued f p → p.key = f.sequence ∧ p.request = f
  waiter : ∀ f since x, c.stage = .awaiting f since x → x.key = f.sequence

/-- What a call comes to that has a response. -/
def CallPurpose.resultOf : CallPurpose → Received → CallResult
  | .request, r => .received r
  | .close, _ => .closed

/-- The window entry that a call may give up. -/
def Call.Owns (c : Call) (i : Nat) : Prop := ∃ f, c.stage.entry? = some (f, i)

namespace Session

open Window

variable {s t u : Session}

/-- The frame has been written. -/
def Sent (s : Session) (f : Frame) : Prop := ∃ octets, f.encode = .ok octets ∧ .wrote f octets ∈ s.log

theorem transmit_sent {f : Frame} (h : s.transmit f = (t, .ok ())) : t.Sent f := by
  unfold transmit at h
  split at h
  · simp at h
  · rename_i octets hoctets
    split at h
    · simp at h
    · obtain ⟨rfl, -⟩ := Prod.mk.inj h
      exact ⟨octets, hoctets, by simp [measure, note]⟩

/-- A frame of a call goes out. -/
theorem transmit_beside (s : Session) {f : Frame} (hf : f.IsOutbound) :
    s.Beside SessionEvent.OfCall (s.transmit f).1 := by
  refine (Beside.transmit s f).mono fun e he => ?_
  cases e with
  | wrote g octets => exact he.1 ▸ ⟨hf, he.2⟩
  | writeFailed g => exact he ▸ hf
  | measured m => trivial
  | _ => exact he.elim

/-! ## Where a call gets to -/

/-- One step of a call from `s` to `t`, from where `c` is to another stage. -/
inductive CallTurn (s : Session) (c : Call) (t : Session) : CallStage → Prop where
  /-- There is nothing to do yet, or no more. -/
  | waits (same : t.window = s.window) : CallTurn s c t c.stage
  /-- The frame waits for capacity. -/
  | queues (frame : Frame) (p : PendingOffer Frame) (unplaced : c.stage.IsUnplaced) (makes : c.Makes frame)
      (key_eq : p.key = frame.sequence) (request_eq : p.request = frame)
      (turns : s.window.Turns t.window (fun _ => false) none none) : CallTurn s c t (.queued frame p)
  /-- The frame gets an entry in the window. -/
  | admits (frame : Frame) (e : Entry Frame) (unplaced : c.stage.IsUnplaced) (makes : c.Makes frame)
      (key_eq : e.key = frame.sequence) (request_eq : e.request = frame)
      (turns : s.window.Turns t.window (fun _ => false) none (some e)) :
      CallTurn s c t (.writing frame e.id)
  /-- The frame has been written. -/
  | writes (frame : Frame) (entry : Nat) (deadline : Instant) (stage_eq : c.stage = .writing frame entry)
      (same : t.window = s.window) (sent : t.Sent frame) :
      CallTurn s c t (.awaiting frame s.now ⟨frame.sequence, entry, deadline⟩)
  /-- The response is there. -/
  | gets (frame : Frame) (since : Instant) (x : Waiter) (response : Frame)
      (stage_eq : c.stage = .awaiting frame since x)
      (settled : s.window.outcome? x.id = some (.response response))
      (keeps : s.window.Keeps t.window (fun _ => False)) :
      CallTurn s c t (.finished (c.purpose.resultOf (.ofFrame response)))
  /-- The call ends without a response, and gives up what it holds. -/
  | fails (result : CallResult) (none_received : ∀ r, result ≠ .received r)
      (keeps : s.window.Keeps t.window c.Owns) : CallTurn s c t (.finished result)

/-- From `s` to `t` the call `c` takes one step. -/
structure CallStep (s : Session) (c : Call) (t : Session) : Prop where
  beside : s.Beside SessionEvent.OfCall t
  turn : ∃ stage, t.calls = (s.setCall c.id stage).calls ∧ s.CallTurn c t stage

theorem conclude_ok (s : Session) (c : Call) (r : Received) :
    s.conclude c (.ok r) = s.setCall c.id (.finished (c.purpose.resultOf r)) := by
  unfold conclude
  cases c.purpose <;> rfl

/-- A call that ends without a response only loses what it holds. -/
theorem conclude_error (h : s.Beside SessionEvent.OfCall t) (hcalls : t.calls = s.calls) {c : Call}
    (keeps : s.window.Keeps t.window c.Owns) (e : SessionError) :
    s.CallStep c (t.conclude c (.error e)) := by
  have step (u : Session) (result : CallResult) (hresult : ∀ r, result ≠ .received r)
      (hu : t.Beside SessionEvent.OfCall u) (hcu : u.calls = t.calls)
      (ku : t.window.Keeps u.window c.Owns) :
      s.CallStep c (u.setCall c.id (.finished result)) :=
    ⟨h.trans (hu.trans (.setCall u _ _)), .finished result, by simp [setCall, hcu, hcalls],
      .fails result hresult (keeps.trans ku)⟩
  unfold conclude
  split
  · exact absurd ‹Except.error e = .ok _› (by simp)
  · exact step t _ (by simp) (.refl t) rfl (.refl keeps.sound)
  · exact absurd ‹Except.error e = .ok _› (by simp)
  · split
    · rename_i u hu
      have hu' : u = t.disconnect.1 := by rw [hu]
      subst hu'
      exact step _ _ (by simp) (.disconnect t) rfl (disconnect_keeps keeps.sound _)
    · rename_i u e hu
      have hu' : u = t.disconnect.1 := by rw [hu]
      subst hu'
      exact step _ _ (by simp) (.disconnect t) rfl (disconnect_keeps keeps.sound _)

/-- What comes of the offer of a frame that the call has made. -/
theorem afterOffer_step (h : s.Beside SessionEvent.OfCall t) (hcalls : t.calls = s.calls) {c : Call}
    {frame : Frame} (hw : s.window.Sound) (hoffers : c.stage.IsUnplaced) (makes : c.Makes frame)
    {expireTimeout : Duration} {o : Offered Frame}
    (offering : s.window.Offering t.window s.now frame.sequence frame expireTimeout o) :
    s.CallStep c (t.afterOffer c frame o) := by
  cases offering with
  | admitted e turns hkey hrequest =>
    exact ⟨h.trans ((Beside.measure t trivial).trans (.setCall _ _ _)), .writing frame e.id,
      by simp [afterOffer, setCall, measure, note, hcalls],
      .admits frame e hoffers makes hkey hrequest turns⟩
  | refused err turns =>
    exact conclude_error (h.trans (.measure t trivial)) hcalls (turns.keeps hw (by simp) (by simp)) _
  | waiting p turns hkey hrequest =>
    exact ⟨h.trans (.setCall t _ _), .queued frame p, by simp [afterOffer, setCall, hcalls],
      .queues frame p hoffers makes hkey hrequest turns⟩

theorem sequenceFor_beside (s : Session) (c : Call) : s.Beside SessionEvent.OfCall (s.sequenceFor c).1 := by
  unfold sequenceFor
  split
  · exact .refl s
  · exact ⟨rfl, .inl ⟨rfl, rfl, rfl⟩, [], rfl, by simp⟩

theorem sequenceFor_calls (s : Session) (c : Call) : (s.sequenceFor c).1.calls = s.calls := by
  unfold sequenceFor
  split <;> rfl

theorem sequenceFor_window (s : Session) (c : Call) : (s.sequenceFor c).1.window = s.window := by
  unfold sequenceFor
  split <;> rfl

theorem sequenceFor_chosen (s : Session) (c : Call) (n : UInt32) (hn : c.request.sequence = some n) :
    (s.sequenceFor c).2 = n := by
  simp [sequenceFor, hn]

theorem offerFrame_step (h : s.Beside SessionEvent.OfCall t) (hcalls : t.calls = s.calls)
    (hwindow : t.window = s.window) (hw : s.window.Sound) {c : Call} (hoffers : c.stage.IsUnplaced)
    {n : UInt32} (hmay : maySend c.request.command = true)
    (hchosen : ∀ m, c.request.sequence = some m → n = m) : s.CallStep c (t.offerFrame c n) := by
  unfold offerFrame
  split
  · exact conclude_error h hcalls (by rw [hwindow]; exact .refl hw) _
  · rename_i frame hframe
    have hseq : frame.sequence = n := by
      obtain ⟨pdu, -, rfl⟩ := Option.map_eq_some_iff.mp hframe
      rfl
    subst hseq
    have hnow : t.now = s.now := by rw [h.same]
    have offering := offer_offering (w := t.window) t.now frame.sequence frame
      t.settings.expireTimeout t.settings.offerTimeout
    generalize t.window.offer t.now frame.sequence frame t.settings.offerTimeout
      t.settings.expireTimeout = wo at offering ⊢
    obtain ⟨w, o⟩ := wo
    rw [hwindow, hnow] at offering
    exact afterOffer_step (t := { t with window := w }) (h.trans (.of_window t w)) hcalls hw hoffers
      ⟨hmay, hframe, hchosen⟩ offering

theorem sendRequest_step (hw : s.window.Sound) {c : Call} (hoffers : c.stage.IsUnplaced) :
    s.CallStep c (s.sendRequest c) := by
  unfold sendRequest
  split
  · exact offerFrame_step (sequenceFor_beside s c) (sequenceFor_calls s c) (sequenceFor_window s c) hw
      hoffers ‹_› (sequenceFor_chosen s c)
  · exact conclude_error (.refl s) rfl (.refl hw) _

theorem startCall_step (hw : s.window.Sound) {c : Call} (hoffers : c.stage.IsUnplaced) :
    s.CallStep c (s.startCall c) := by
  unfold startCall
  split
  · exact sendRequest_step hw hoffers
  · exact conclude_error (.refl s) rfl (.refl hw) _

/-- A call that gives up its entry takes nobody else's. -/
theorem withdraw_keeps (hw : s.window.Sound) (key : UInt32) {c : Call} {i : Nat} (hi : c.Owns i) :
    s.window.Keeps (s.window.withdraw key i).1 c.Owns := by
  refine (withdraw_turns key hw i).keeps hw (by simp) fun _ e _ hg => ?_
  obtain ⟨-, rfl⟩ : e.key = key ∧ e.id = i := by simpa using hg
  exact hi

theorem writeCall_step (hw : s.window.Sound) {c : Call} {frame : Frame} {entry : Nat}
    (hstage : c.stage = .writing frame entry) (makes : c.Makes frame) :
    s.CallStep c (s.writeCall c frame entry) := by
  have hbeside := transmit_beside s makes.isOutbound
  have hwindow := transmit_window s frame
  have hcalls := transmit_calls s frame
  unfold writeCall
  generalize htr : s.transmit frame = tr at hbeside hwindow hcalls ⊢
  obtain ⟨t, r⟩ := tr
  dsimp only at hbeside hwindow hcalls
  have hnow : t.now = s.now := by rw [hbeside.same]
  cases r with
  | ok u =>
    have hsent : t.Sent frame := transmit_sent htr
    dsimp only
    rw [hnow]
    exact ⟨hbeside.trans (.setCall t _ _),
      .awaiting frame s.now ⟨frame.sequence, entry, s.now + c.timeout.nanos⟩,
      by simp only [setCall, hcalls], .writes frame entry _ hstage hwindow hsent⟩
  | error e =>
    refine conclude_error (t := { t with window := (t.window.withdraw frame.sequence entry).1 })
      (hbeside.trans (.of_window t _)) hcalls ?_ _
    rw [hwindow]
    exact withdraw_keeps hw _ ⟨frame, by rw [hstage]; rfl⟩

theorem respondCall_step (h : s.Beside SessionEvent.OfCall t) (hcalls : t.calls = s.calls)
    (hwindow : t.window = s.window) (hw : s.window.Sound) {c : Call} {frame : Frame} {since : Instant}
    {x : Waiter} {response : Frame} (hstage : c.stage = .awaiting frame since x)
    (settled : s.window.outcome? x.id = some (.response response)) :
    s.CallStep c (t.respondCall c frame since response) := by
  unfold respondCall
  rw [conclude_ok]
  split
  · refine ⟨h.trans ((Beside.measure t trivial).trans ((Beside.disconnect _).trans (.setCall _ _ _))), _,
      by simp [setCall, disconnect, measure, note, hcalls],
      .gets frame since x response hstage settled ?_⟩
    rw [← hwindow]
    exact disconnect_keeps (s := t.measure _) (hwindow ▸ hw) _
  · refine ⟨h.trans ((Beside.measure t trivial).trans (.setCall _ _ _)), _,
      by simp [setCall, measure, note, hcalls], .gets frame since x response hstage settled ?_⟩
    rw [← hwindow]
    exact .refl (hwindow ▸ hw)

/-- A call that has nothing to do stays where it is. -/
theorem setCall_self (hids : (s.calls.map (·.id)).Nodup) {c : Call} (hc : c ∈ s.calls) :
    (s.setCall c.id c.stage).calls = s.calls := by
  show s.calls.map _ = s.calls
  refine (List.map_congr_left fun a ha => ?_).trans (List.map_id _)
  by_cases hid : a.id = c.id
  · rw [List.inj_on_of_nodup_map hids ha hc hid]
    simp
  · simp [hid]

theorem awaitCall_step (hw : s.window.Sound) (hids : (s.calls.map (·.id)).Nodup) {c : Call}
    (hc : c ∈ s.calls) {frame : Frame} {since : Instant} {x : Waiter}
    (hstage : c.stage = .awaiting frame since x) : s.CallStep c (s.awaitCall c frame since x) := by
  have hown : c.Owns x.id := ⟨frame, by rw [hstage]; rfl⟩
  have hcol := collect_collecting hw s.now x
  unfold awaitCall
  generalize s.window.collect s.now x = wr at hcol ⊢
  obtain ⟨w, r⟩ := wr
  dsimp only at hcol
  cases hcol with
  | response r settled same =>
    subst same
    exact respondCall_step (.of_window s _) rfl rfl hw hstage settled
  | released settled same =>
    subst same
    exact conclude_error (.of_window s _) rfl (.refl hw) _
  | timedOut e he hk hid hlate turns =>
    refine conclude_error ((Beside.of_window s w).trans (.measure _ trivial)) rfl
      (turns.keeps hw (by simp) fun _ a _ hg => ?_) _
    rw [show a.id = x.id by simpa using hg]
    exact hown
  | missing hnone hlate hno same =>
    subst same
    exact conclude_error (.of_window s _) rfl (.refl hw) _
  | waiting hnone hearly same =>
    subst same
    exact ⟨.of_window s _, c.stage, (setCall_self hids hc).symm, .waits rfl⟩

/-- What one step of a call does. -/
theorem stepCall_step (hw : s.window.Sound) (hids : (s.calls.map (·.id)).Nodup) {c : Call}
    (hc : c ∈ s.calls) (hfits : c.Fits) : s.CallStep c (s.stepCall c) := by
  unfold stepCall
  split
  · rename_i hstage
    exact startCall_step hw (.inl hstage)
  · rename_i frame p hstage
    obtain ⟨hkey, hrequest⟩ := hfits.offer frame p hstage
    have offering := resume_offering (w := s.window) s.now p
    rw [hkey, hrequest] at offering
    generalize s.window.resume s.now p = wo at offering ⊢
    obtain ⟨w, o⟩ := wo
    exact afterOffer_step (t := { s with window := w }) (.of_window s w) rfl hw
      (.inr ⟨frame, p, hstage⟩) (hfits.makes frame (by rw [hstage]; rfl)) offering
  · rename_i frame entry hstage
    exact writeCall_step hw hstage (hfits.makes frame (by rw [hstage]; rfl))
  · rename_i frame since x hstage
    exact awaitCall_step hw hids hc hstage
  · exact ⟨.refl s, c.stage, (setCall_self hids hc).symm, .waits rfl⟩

/-- A call that is dropped only loses what it holds. -/
theorem dropCall_step (hw : s.window.Sound) (c : Call) :
    s.Beside SessionEvent.OfCall (s.dropCall c) ∧
      (s.dropCall c).calls = s.calls.filter (·.id ≠ c.id) ∧
      s.window.Keeps (s.dropCall c).window c.Owns := by
  have hbeside (w : Window Frame Frame) :
      s.Beside SessionEvent.OfCall { s with calls := s.calls.filter (·.id ≠ c.id), window := w } :=
    ⟨rfl, .inl ⟨rfl, rfl, rfl⟩, [], rfl, by simp⟩
  unfold dropCall
  dsimp only
  split
  · exact ⟨hbeside _, rfl, .refl hw⟩
  · exact ⟨hbeside _, rfl, (abandon_turns _).keeps hw (by simp) (by simp)⟩
  · rename_i frame entry hstage
    exact ⟨hbeside _, rfl, withdraw_keeps hw _ ⟨frame, by rw [hstage]; rfl⟩⟩
  · rename_i frame since x hstage
    exact ⟨hbeside _, rfl, withdraw_keeps hw _ ⟨frame, by rw [hstage]; rfl⟩⟩
  · exact ⟨hbeside _, rfl, .refl hw⟩

end Session

end Smsc
