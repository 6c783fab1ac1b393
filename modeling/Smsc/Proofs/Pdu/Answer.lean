import Smsc.Pdu.Framing

/-!
# Smsc.Proofs.Pdu.Answer — the response that a request calls for

* `Command.answer`: the command of the response, `genericNack` where none is modelled;
* `Frame.IsRead`: a frame taken off a stream; its body is one of its header's command;
* `Frame.Answers`: a response under the number of a request, with the command it calls for;
* `answers_responseFor`: what `Frame.responseFor` makes of a frame that was read.
-/

namespace Smsc

/-- The command of the response to a command. -/
def Command.answer : Command → Command
  | .bindReceiver => .bindReceiverResp
  | .bindTransmitter => .bindTransmitterResp
  | .bindTransceiver => .bindTransceiverResp
  | .submitSm => .submitSmResp
  | .deliverSm => .deliverSmResp
  | .enquireLink => .enquireLinkResp
  | .unbind => .unbindResp
  | _ => .genericNack

namespace Frame

/-- The body was read as one of the header's command. -/
def IsRead (f : Frame) : Prop := ∃ octets rest, Pdu.read f.command octets = .ok (f.pdu, rest)

/-- The frame is a response to the request, with the right number and command. -/
structure Answers (f q : Frame) : Prop where
  sequence : f.sequence = q.sequence
  command : f.command = q.command.answer
  body : f.pdu.command = f.command

theorem eq_of_read_map {α : Type} {g : α → Pdu} {r : Reader α} {octets rest : List UInt8} {p : Pdu}
    (h : (g <$> r) octets = .ok (p, rest)) : ∃ a, p = g a := by
  change (r octets).bind (fun x => .ok (g x.1, x.2)) = .ok (p, rest) at h
  cases hr : r octets with
  | error e => simp [hr, Except.bind] at h
  | ok x =>
    simp only [hr, Except.bind, Except.ok.injEq, Prod.mk.injEq] at h
    exact ⟨x.1, h.1.symm⟩

theorem eq_of_read_pure {a p : Pdu} {octets rest : List UInt8}
    (h : (pure a : Reader Pdu) octets = .ok (p, rest)) : p = a := by
  cases h
  rfl

theorem IsRead.response_command {f : Frame} (h : f.IsRead) :
    f.pdu.response.command = f.command.answer := by
  obtain ⟨octets, rest, h⟩ := h
  generalize f.command = c at h
  generalize f.pdu = p at h
  cases c <;> first
    | (obtain ⟨a, rfl⟩ := eq_of_read_map h; rfl)
    | (obtain rfl := eq_of_read_pure h; rfl)

theorem answers_responseFor {q : Frame} (hq : q.IsRead) (status : Status) :
    (responseFor q status).Answers q :=
  ⟨rfl, hq.response_command, rfl⟩

theorem isRead_of_take? {buffer rest : List UInt8} {f : Frame} (h : take? buffer = .frame f rest) :
    f.IsRead := by
  unfold take? at h
  split at h
  · simp at h
  · split at h
    · simp at h
    · dsimp only at h
      split at h
      · simp at h
      · split at h
        · rename_i hread
          simp only [Taken.frame.injEq] at h
          obtain ⟨rfl, -⟩ := h
          exact ⟨_, _, hread⟩
        · simp at h

theorem isRead_of_takeEnd? {buffer rest : List UInt8} {f : Frame}
    (h : takeEnd? buffer = .frame f rest) : f.IsRead := by
  unfold takeEnd? at h
  split at h
  · split at h <;> simp at h
  · exact isRead_of_take? h

theorem kind_eq_response {f : Frame} : f.kind = .response ↔ f.isResponse = true := by
  unfold kind
  split
  · simp [*]
  · split <;> simp [*]

theorem kind_eq_bind {q : Frame} {type : BindType} :
    q.kind = .bind type ↔ q.isResponse = false ∧ ∃ b, q.pdu = .bind type b := by
  unfold kind
  split
  · simp [*]
  · rename_i hrequest
    cases hpdu : q.pdu <;> simp [hrequest]

end Frame

end Smsc
