import Smsc.Proofs.Window.Table
import Smsc.Session.Run

/-!
# Smsc.Proofs.Session.Beside — operations that leave the reader and the replies alone

* `GoesOn s t`: the session is what it was, or it has ended;
* `Beside P s t`: the input, the reader, the responders and the replies stay as they are, and what comes
  to the log has the property `P`;
* `transmit_eq`: a frame that goes out changes the log only, and how;
* `disconnect_keeps`: the end of a session settles nobody with a response.
-/

namespace Smsc

/-- What the way out of a frame may leave in the log. -/
def SessionEvent.OfWriting (f : Frame) : SessionEvent → Prop
  | .wrote g octets => g = f ∧ f.encode = .ok octets
  | .writeFailed g => g = f
  | .measured _ => True
  | _ => False

namespace Session

open Window

variable {s t u : Session} {P Q : SessionEvent → Prop}

/-- The session goes on with the same channel, or it has ended. -/
def GoesOn (s t : Session) : Prop :=
  (t.status = s.status ∧ t.isShutDown = s.isShutDown ∧ t.channel = s.channel) ∨
    (t.status = .closed ∧ t.isShutDown = true ∧ t.channel.isConnected = false ∧
      t.channel.lingers = s.channel.lingers)

theorem GoesOn.trans (h : s.GoesOn t) (h' : t.GoesOn u) : s.GoesOn u := by
  rcases h' with ⟨hst, hsd, hch⟩ | ⟨hst, hsd, hcon, hlin⟩
  · rcases h with ⟨hst', hsd', hch'⟩ | h
    · exact .inl ⟨hst.trans hst', hsd.trans hsd', hch.trans hch'⟩
    · exact .inr ⟨hst.trans h.1, hsd.trans h.2.1, hch ▸ h.2.2⟩
  · refine .inr ⟨hst, hsd, hcon, hlin.trans ?_⟩
    rcases h with ⟨-, -, hch⟩ | ⟨-, -, -, hlin'⟩
    · rw [hch]
    · exact hlin'

theorem GoesOn.lingers (h : s.GoesOn t) : t.channel.lingers = s.channel.lingers := by
  rcases h with ⟨-, -, hch⟩ | ⟨-, -, -, hlin⟩
  · rw [hch]
  · exact hlin

/-- From `s` to `t` the input, the reader, the responders and the replies stay as they are. -/
structure Beside (P : SessionEvent → Prop) (s t : Session) : Prop where
  same : t = { s with
    status := t.status, window := t.window, lastSequence := t.lastSequence
    isShutDown := t.isShutDown, channel := t.channel, calls := t.calls, log := t.log }
  goesOn : s.GoesOn t
  logs : ∃ new, t.log = new ++ s.log ∧ ∀ e ∈ new, P e

namespace Beside

theorem refl (s : Session) : s.Beside P s := ⟨rfl, .inl ⟨rfl, rfl, rfl⟩, [], rfl, by simp⟩

theorem trans (h : s.Beside P t) (h' : t.Beside P u) : s.Beside P u where
  same := by
    rw [h'.same, h.same]
  goesOn := h.goesOn.trans h'.goesOn
  logs := by
    obtain ⟨new, hnew, hall⟩ := h.logs
    obtain ⟨new', hnew', hall'⟩ := h'.logs
    refine ⟨new' ++ new, by rw [hnew', hnew, List.append_assoc], fun e he => ?_⟩
    exact (List.mem_append.mp he).elim (hall' e) (hall e)

theorem mono (h : s.Beside P t) (hPQ : ∀ e, P e → Q e) : s.Beside Q t where
  same := h.same
  goesOn := h.goesOn
  logs := by
    obtain ⟨new, hnew, hall⟩ := h.logs
    exact ⟨new, hnew, fun e he => hPQ e (hall e he)⟩

theorem reader (h : s.Beside P t) : t.reader = s.reader := by rw [h.same]

theorem responders (h : s.Beside P t) : t.responders = s.responders := by rw [h.same]

theorem answers (h : s.Beside P t) : t.answers = s.answers := by rw [h.same]

theorem nextTask (h : s.Beside P t) : t.nextTask = s.nextTask := by rw [h.same]

theorem of_window (s : Session) (window : Window Frame Frame) : s.Beside P { s with window } :=
  ⟨rfl, .inl ⟨rfl, rfl, rfl⟩, [], rfl, by simp⟩

theorem measure (s : Session) {m : Measurement} (hm : P (.measured m)) : s.Beside P (s.measure m) :=
  ⟨rfl, .inl ⟨rfl, rfl, rfl⟩, [.measured m], rfl, by simpa using hm⟩

theorem setCall (s : Session) (id : Nat) (stage : CallStage) : s.Beside P (s.setCall id stage) :=
  ⟨rfl, .inl ⟨rfl, rfl, rfl⟩, [], rfl, by simp⟩

theorem disconnect (s : Session) : s.Beside P s.disconnect.1 :=
  ⟨rfl, .inr ⟨rfl, rfl, rfl, rfl⟩, [], rfl, by simp⟩

end Beside

/-- A frame that goes out changes the log only: it is written, or there is no trace of a write. -/
theorem transmit_eq (s : Session) (f : Frame) :
    ∃ new, (s.transmit f).1 = { s with log := new ++ s.log } ∧
    ((∃ m, new = [.measured m]) ∨ (∃ m, new = [.measured m, .writeFailed f]) ∨
      ∃ m octets, f.encode = .ok octets ∧ s.channel.refuses = false ∧
        new = [.measured m, .wrote f octets]) := by
  unfold transmit
  split
  · exact ⟨_, rfl, .inl ⟨_, rfl⟩⟩
  · rename_i octets hoctets
    split
    · exact ⟨[.measured _, .writeFailed f], rfl, .inr (.inl ⟨_, rfl⟩)⟩
    · rename_i haccepts
      exact ⟨[.measured _, .wrote f octets], rfl, .inr (.inr ⟨_, _, hoctets, by simpa using haccepts, rfl⟩)⟩

theorem Beside.transmit (s : Session) (f : Frame) :
    s.Beside (SessionEvent.OfWriting f) (s.transmit f).1 := by
  obtain ⟨new, heq, hnew⟩ := transmit_eq s f
  rw [heq]
  refine ⟨rfl, .inl ⟨rfl, rfl, rfl⟩, new, rfl, ?_⟩
  rcases hnew with ⟨m, rfl⟩ | ⟨m, rfl⟩ | ⟨m, octets, hoctets, -, rfl⟩ <;>
    simp [SessionEvent.OfWriting, *]

theorem transmit_window (s : Session) (f : Frame) : (s.transmit f).1.window = s.window := by
  obtain ⟨new, heq, -⟩ := transmit_eq s f
  rw [heq]

theorem transmit_calls (s : Session) (f : Frame) : (s.transmit f).1.calls = s.calls := by
  obtain ⟨new, heq, -⟩ := transmit_eq s f
  rw [heq]

theorem disconnect_keeps (hw : s.window.Sound) (own : Nat → Prop) :
    s.window.Keeps s.disconnect.1.window own := by
  show s.window.Keeps (if s.status = .closed then s.window else s.window.close.1) own
  split
  · exact .refl hw
  · exact (close_turns hw).keeps hw (by simp) (by simp)

end Session

end Smsc
