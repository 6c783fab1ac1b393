import Smsc.Proofs.Session.Ending
import Smsc.Proofs.Session.Numbers

/-!
# Smsc.Proofs.Session.Acts — everything a call can do next

The step of a call is opened here once, with all it says: what the window answered, what was put down in the
log, and with which error a call ends.

* `Transmits s f u r`: what the way out of a frame comes to;
* `Draws s c u`: a number is drawn for a request that has none;
* `Acts s c t`, `stepCall_acts`: a step of a call, one constructor for each outcome;
* `Halts s t`: the session may end, and nothing else happens to it; `disconnect_halts`, `conclude_halts`,
  `respondCall_halts`, `closeReply_halts`.
-/

namespace Smsc.Session

open Window

variable {s t u : Session} {c : Call}

/-- What the way out of a frame comes to. -/
inductive Transmits (s : Session) (f : Frame) : Session → Except ChannelError Unit → Prop where
  | writes (octets : List UInt8) (encode : f.encode = .ok octets) (accepts : s.channel.refuses = false) :
      Transmits s f ((s.note (.wrote f octets)).measure (.pduSent f.command.name)) (.ok ())
  | fails (octets : List UInt8) (encode : f.encode = .ok octets) (refuses : s.channel.refuses = true) :
      Transmits s f ((s.note (.writeFailed f)).measure (.pduError "write")) (.error .closed)
  | overflows (e : CodecError) (encode : f.encode = .error e) :
      Transmits s f (s.measure (.pduError "encode")) (.error (.encode e))

theorem transmit_transmits (s : Session) (f : Frame) :
    s.Transmits f (s.transmit f).1 (s.transmit f).2 := by
  unfold transmit
  split
  · rename_i e encode
    exact .overflows e encode
  · rename_i octets encode
    split
    · rename_i refuses
      exact .fails octets encode refuses
    · rename_i refuses
      exact .writes octets encode (by simpa using refuses)

theorem Transmits.eq {f : Frame} {r : Except ChannelError Unit} (h : s.Transmits f t r) :
    s.transmit f = (t, r) := by
  unfold transmit
  cases h with
  | writes octets encode accepts => simp [encode, accepts]
  | fails octets encode refuses => simp [encode, refuses]
  | overflows e encode => simp [encode]

theorem Transmits.same {f : Frame} {r : Except ChannelError Unit} (h : s.Transmits f t r) :
    t = { s with log := t.log } := by
  cases h <;> rfl

/-- A number is drawn for a request that has none. -/
inductive Draws (s : Session) (c : Call) : Session → Prop where
  | keeps : Draws s c s
  | draws (open_eq : c.request.sequence = none) : Draws s c s.drawSequence.1

theorem Draws.same (h : s.Draws c u) : u = { s with lastSequence := u.lastSequence } := by
  cases h <;> rfl

theorem sequenceFor_draws (s : Session) (c : Call) : s.Draws c (s.sequenceFor c).1 := by
  unfold sequenceFor
  split
  · exact .keeps
  · rename_i hnone
    exact .draws hnone

/-- A step of a call. -/
inductive Acts (s : Session) (c : Call) : Session → Prop where
  /-- It is refused before the window is asked. -/
  | declines (starting : c.stage = .starting) (u : Session) (draws : s.Draws c u) (e : SessionError)
      (reason : e = .notBound ∨ ∃ text, e = .illegalArgument text) : Acts s c (u.conclude c (.error e))
  /-- It asks the window for capacity. -/
  | offers (starting : c.stage = .starting) (u : Session) (draws : s.Draws c u) (frame : Frame)
      (w : Window Frame Frame) (o : Offered Frame)
      (offered : s.window.offer s.now frame.sequence frame s.settings.offerTimeout s.settings.expireTimeout =
        (w, o)) : Acts s c ({ u with window := w }.afterOffer c frame o)
  /-- It has waited for capacity, and looks again. -/
  | resumes (frame : Frame) (p : PendingOffer Frame) (queued : c.stage = .queued frame p)
      (w : Window Frame Frame) (o : Offered Frame) (resumed : s.window.resume s.now p = (w, o)) :
      Acts s c ({ s with window := w }.afterOffer c frame o)
  | writes (frame : Frame) (entry : Nat) (writing : c.stage = .writing frame entry) (u : Session)
      (sent : s.Transmits frame u (.ok ())) :
      Acts s c (u.setCall c.id (.awaiting frame u.now ⟨frame.sequence, entry, u.now + c.timeout.nanos⟩))
  /-- Its frame cannot be written, and its entry is given up. -/
  | fails (frame : Frame) (entry : Nat) (writing : c.stage = .writing frame entry) (u : Session)
      (e : ChannelError) (failed : s.Transmits frame u (.error e)) :
      Acts s c ({ u with window := (s.window.withdraw frame.sequence entry).1 }.conclude c
        (.error (.channel e)))
  | waits (frame : Frame) (since : Instant) (x : Waiter) (awaiting : c.stage = .awaiting frame since x)
      (none_yet : (s.window.collect s.now x).2 = none) : Acts s c s
  | gets (frame : Frame) (since : Instant) (x : Waiter) (awaiting : c.stage = .awaiting frame since x)
      (response : Frame) (found : (s.window.collect s.now x).2 = some (.ok response)) :
      Acts s c (s.respondCall c frame since response)
  | timesOut (frame : Frame) (since : Instant) (x : Waiter) (awaiting : c.stage = .awaiting frame since x)
      (key : UInt32) (late : (s.window.collect s.now x).2 = some (.error (.timeout key)))
      (held : (s.window.withdraw x.key x.id).2 = true) :
      Acts s c (({ s with window := (s.window.withdraw x.key x.id).1 }.measure
        (.windowTimeout frame.command.name)).conclude c (.error (.timeout frame.sequence c.timeout)))
  | lapses (frame : Frame) (since : Instant) (x : Waiter) (awaiting : c.stage = .awaiting frame since x)
      (key : UInt32) (lapsed : (s.window.collect s.now x).2 = some (.error (.expired key))) :
      Acts s c (s.conclude c (.error (.window (.expired key))))
  | rests (result : CallResult) (finished : c.stage = .finished result) : Acts s c s

theorem startCall_acts (starting : c.stage = .starting) : s.Acts c (s.startCall c) := by
  unfold startCall sendRequest offerFrame
  split
  · split
    · have hdraws := sequenceFor_draws s c
      dsimp only
      generalize s.sequenceFor c = un at hdraws ⊢
      obtain ⟨u, n⟩ := un
      dsimp only at hdraws ⊢
      split
      · exact .declines starting u hdraws _ (.inr ⟨_, rfl⟩)
      · rename_i frame hframe
        obtain ⟨pdu, -, rfl⟩ := Option.map_eq_some_iff.mp hframe
        refine .offers starting u hdraws _ _ _ ?_
        rw [hdraws.same]
        rfl
    · exact .declines starting s .keeps _ (.inr ⟨_, rfl⟩)
  · exact .declines starting s .keeps _ (.inl rfl)

/-- A caller whose time is up gives its entry up. If it is gone, somebody else has removed it. -/
theorem collect_of_late {w : Window Frame Frame} {now : Instant} {x : Waiter} (pending : w.outcome? x.id = none)
    (late : x.deadline ≤ now) : w.collect now x = ((w.withdraw x.key x.id).1,
      some (.error (if (w.withdraw x.key x.id).2 then .timeout x.key else .expired x.key))) := by
  simp only [collect, pending, if_pos late]
  generalize w.withdraw x.key x.id = taken
  obtain ⟨w', _ | _⟩ := taken <;> rfl

theorem awaitCall_acts {frame : Frame} {since : Instant} {x : Waiter}
    (awaiting : c.stage = .awaiting frame since x) : s.Acts c (s.awaitCall c frame since x) := by
  unfold awaitCall
  cases ho : s.window.outcome? x.id with
  | some o =>
    cases o with
    | response r =>
      have hfound : s.window.collect s.now x = (s.window, some (.ok r)) := by simp only [collect, ho]
      rw [hfound]
      exact .gets frame since x awaiting r (by rw [hfound])
    | released =>
      have hfound : s.window.collect s.now x = (s.window, some (.error (.expired x.key))) := by
        simp only [collect, ho]
      rw [hfound]
      exact .lapses frame since x awaiting x.key (by rw [hfound])
  | none =>
    by_cases hlate : x.deadline ≤ s.now
    · have hfound := collect_of_late ho hlate
      cases hheld : (s.window.withdraw x.key x.id).2 with
      | true =>
        rw [hheld, if_pos rfl] at hfound
        rw [hfound]
        exact .timesOut frame since x awaiting x.key (by rw [hfound]) hheld
      | false =>
        rw [hheld, withdraw_of_false x.key hheld] at hfound
        rw [hfound]
        exact .lapses frame since x awaiting x.key (by rw [hfound]; rfl)
    · have hfound : s.window.collect s.now x = (s.window, none) := by simp only [collect, ho, if_neg hlate]
      rw [hfound]
      exact .waits frame since x awaiting (by rw [hfound])

/-- What a step of a call does. -/
theorem stepCall_acts (s : Session) (c : Call) : s.Acts c (s.stepCall c) := by
  unfold stepCall
  cases hstage : c.stage with
  | starting => exact startCall_acts hstage
  | queued frame p => exact .resumes frame p hstage _ _ rfl
  | writing frame entry =>
    have htransmits := transmit_transmits s frame
    dsimp only
    unfold writeCall
    generalize s.transmit frame = tr at htransmits
    obtain ⟨u, _ | e⟩ := tr
    · rename_i e
      have hwindow : u.window = s.window := by cases htransmits <;> rfl
      dsimp only
      rw [hwindow]
      exact .fails frame entry hstage u e htransmits
    · exact .writes frame entry hstage u htransmits
  | awaiting frame since x => exact awaitCall_acts hstage
  | finished result => exact .rests result hstage

/-! ## An end that may be one of the session too -/

/-- From `s` to `t` the status and the window stay as they are, unless the session ends and closes its
window. -/
inductive Halts (s t : Session) : Prop where
  | stays (status : t.status = s.status) (window : t.window = s.window)
  | ends (going : s.status ≠ .closed) (closed : t.status = .closed) (window : t.window = s.window.close.1)

/-- What changes neither the status nor the window does not matter. -/
theorem Halts.congr {s' t' : Session} (h : s.Halts t) (status : s'.status = s.status)
    (window : s'.window = s.window) (status' : t'.status = t.status) (window' : t'.window = t.window) :
    s'.Halts t' := by
  cases h with
  | stays hstatus hwindow =>
    exact .stays (by rw [status', hstatus, status]) (by rw [window', hwindow, window])
  | ends going closed hwindow =>
    exact .ends (by rwa [status]) (by rw [status', closed]) (by rw [window', hwindow, window])

theorem disconnect_halts (s : Session) : s.Halts s.disconnect.1 := by
  by_cases hclosed : s.status = .closed
  · exact .stays hclosed.symm (if_pos hclosed)
  · exact .ends hclosed rfl (if_neg hclosed)

theorem conclude_halts (s : Session) (c : Call) (r : Except SessionError Received) :
    s.Halts (s.conclude c r) := by
  obtain ⟨u, result, hu, same, -⟩ := conclude_ends s c r
  rw [same]
  rcases hu with rfl | rfl
  · exact .stays rfl rfl
  · exact (disconnect_halts s).congr rfl rfl rfl rfl

theorem respondCall_halts (s : Session) (c : Call) (frame : Frame) (since : Instant) (response : Frame) :
    s.Halts (s.respondCall c frame since response) := by
  unfold respondCall
  rw [conclude_ok]
  split
  · exact (disconnect_halts (s.measure _)).congr rfl rfl rfl rfl
  · exact .stays rfl rfl

theorem closeReply_halts (s : Session) (k : Nat) (f : Frame) : s.Halts (s.closeReply k f) := by
  obtain ⟨new, same, -⟩ := transmit_eq s f
  rcases closeReply_cases s k f with h | h <;> rw [h, same]
  · exact .stays rfl rfl
  · exact (disconnect_halts _).congr rfl rfl rfl rfl

end Smsc.Session
