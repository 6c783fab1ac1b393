import Smsc.Packet.Mapping
import Smsc.Proofs.Pdu.Answer
import Smsc.Proofs.Pdu.RoundTrip

/-!
# Smsc.Proofs.Packet.Wire — packet values over the wire

A packet value becomes a body, the body a frame, and the frame octets; on the other side the octets
become a packet value again. The body has fields that the value does not know. They are filled in on
the way out and dropped on the way in.

* `RequestBody.texts`: what a NUL ends on the wire;
* `RequestBody.ofPdu_of_toPdu?`: the body of a request is read as that request;
* `Request.wellFormed_iff`: which frames of requests are read back from their octets;
* `Request.travels`: a request from value to octets and back, and what is read of any octets.
-/

namespace Smsc

/-! ## Bodies of requests -/

/-- The texts of a request that a NUL ends on the wire. -/
def RequestBody.texts : RequestBody → List String
  | bind r => [r.systemId, r.password, r.systemType, r.addressRange]
  | submitSm m | deliverSm m => [m.source.address, m.destination.address]
  | enquireLink | unbind | other _ => []

namespace RequestBody

variable {b : RequestBody} {p : Pdu}

theorem toPdu?_eq_none_iff : b.toPdu? = none ↔ ∃ command, b = other command := by
  cases b with
  | other command => exact iff_of_true rfl ⟨command, rfl⟩
  | bind | submitSm | deliverSm | enquireLink | unbind => exact iff_of_false nofun nofun

theorem command_of_toPdu? (h : b.toPdu? = some p) : p.command = b.command := by
  cases b <;> cases h <;> rfl

theorem isResponse_of_toPdu? (h : b.toPdu? = some p) : p.command.isResponse = false := by
  cases b with
  | bind r =>
    cases h
    generalize r.type = type
    cases type <;> rfl
  | other command => cases h
  | submitSm | deliverSm | enquireLink | unbind =>
    cases h
    rfl

/-- Whatever the value does not know is left empty, so that no other text can hold a NUL. -/
theorem nulFree_iff_of_toPdu? (h : b.toPdu? = some p) :
    (∀ s ∈ p.texts, NulFree s) ↔ ∀ s ∈ b.texts, NulFree s := by
  have hempty : NulFree "" := by decide
  cases b with
  | submitSm m | deliverSm m =>
    cases h
    simp only [Pdu.texts, ShortMessage.texts, Message.toShortMessage, texts, List.forall_mem_cons, hempty,
      true_and]
  | bind | enquireLink | unbind =>
    cases h
    exact Iff.rfl
  | other command => cases h

/-- The body of a request is read as the request that it was made of. -/
theorem ofPdu_of_toPdu? (h : b.toPdu? = some p) (n : UInt32) :
    Request.ofFrame (.request n p) = ⟨some n, b⟩ := by
  cases b <;> cases h <;> rfl

end RequestBody

namespace Request

variable {r : Request} {n : UInt32} {f : Frame}

/-! ## Frames of requests -/

theorem toFrame?_eq_none_iff : r.toFrame? n = none ↔ ∃ command, r.body = .other command := by
  rw [toFrame?, Option.map_eq_map, Option.map_eq_none_iff, RequestBody.toPdu?_eq_none_iff]

theorem toFrame?_eq_some_iff : r.toFrame? n = some f ↔ ∃ p, r.body.toPdu? = some p ∧ .request n p = f := by
  rw [toFrame?, Option.map_eq_map, Option.map_eq_some_iff]

theorem ofFrame_of_toFrame? (h : r.toFrame? n = some f) : ofFrame f = { r with sequence := some n } := by
  obtain ⟨p, hp, rfl⟩ := toFrame?_eq_some_iff.mp h
  exact RequestBody.ofPdu_of_toPdu? hp n

/-- Only a NUL in one of the texts keeps the frame of a request from being read back. -/
theorem wellFormed_iff (h : r.toFrame? n = some f) : f.WellFormed ↔ ∀ s ∈ r.body.texts, NulFree s := by
  obtain ⟨p, hp, rfl⟩ := toFrame?_eq_some_iff.mp h
  rw [← RequestBody.nulFree_iff_of_toPdu? hp]
  refine ⟨fun hf => hf.texts, fun htexts => ⟨rfl, fun _ _ => nofun, ?_, htexts⟩⟩
  rintro known - octets rfl
  cases hb : r.body <;> rw [hb] at hp <;> cases hp

/-! ## What is read of a frame -/

/-- A frame that was read off a stream keeps its command, be it modelled or not. -/
theorem command_ofFrame (hf : f.WellFormed) : (ofFrame f).command = f.command := by
  have hcommand := hf.command
  unfold ofFrame command
  cases hp : f.pdu with
  | bind type b | submitSm m | deliverSm m | enquireLink | unbind =>
    rw [hp] at hcommand
    exact hcommand.symm
  | bindResp | submitSmResp | deliverSmResp | enquireLinkResp | unbindResp | genericNack | other => rfl

theorem texts_ofFrame (f : Frame) : ∀ s ∈ (ofFrame f).body.texts, s ∈ f.pdu.texts := by
  unfold ofFrame
  intro s hs
  cases hp : f.pdu with
  | bind type b =>
    rw [hp] at hs
    exact hs
  | submitSm m | deliverSm m =>
    rw [hp] at hs
    simp only [RequestBody.texts, Message.ofShortMessage, List.mem_cons, List.not_mem_nil, or_false] at hs
    simp only [Pdu.texts, ShortMessage.texts, List.mem_cons]
    rcases hs with rfl | rfl
    · exact .inr (.inl rfl)
    · exact .inr (.inr (.inl rfl))
  | enquireLink | unbind | bindResp | submitSmResp | deliverSmResp | enquireLinkResp | unbindResp
  | genericNack | other =>
    rw [hp] at hs
    cases hs

/-! ## There and back -/

/-- A request as it travels under the number `n`. -/
structure Travels (r : Request) (n : UInt32) : Prop where
  /-- It has no frame exactly if it is not modelled. -/
  unframed : r.toFrame? n = none ↔ ∃ command, r.body = .other command
  /-- Its frame is a request with its command and the number. -/
  framed : ∀ f, r.toFrame? n = some f → f.command = r.command ∧ f.sequence = n ∧ f.kind ≠ .response
  /-- From the octets of its frame it is read as it was, under the number, exactly if none of its
  texts holds a NUL. -/
  arrives : ∀ f octets, r.toFrame? n = some f → f.encode = .ok octets →
    ((∃ g, Frame.decode octets = .ok g ∧ ofFrame g = { r with sequence := some n }) ↔
      ∀ s ∈ r.body.texts, NulFree s)

/-- **Over the wire**: a modelled request arrives as it was sent, and whatever arrives keeps its command
and its number. -/
theorem travels : (∀ (r : Request) (n : UInt32), r.Travels n) ∧
    ∀ octets g, Frame.decode octets = .ok g →
      (ofFrame g).command = g.command ∧ (ofFrame g).sequence = some g.sequence := by
  refine ⟨fun r n => ⟨toFrame?_eq_none_iff, ?_, ?_⟩, ?_⟩
  · intro f hf
    obtain ⟨p, hp, rfl⟩ := toFrame?_eq_some_iff.mp hf
    refine ⟨RequestBody.command_of_toPdu? hp, rfl, ?_⟩
    rw [Ne, Frame.kind_eq_response, Bool.not_eq_true]
    exact RequestBody.isResponse_of_toPdu? hp
  · intro f octets hf hencode
    constructor
    · rintro ⟨g, hg, heq⟩ s hs
      apply (Frame.wellFormed_of_decode hg).texts
      apply texts_ofFrame
      rw [heq]
      exact hs
    · intro htexts
      exact ⟨f, Frame.decode_of_encode ((wellFormed_iff hf).mpr htexts) hencode, ofFrame_of_toFrame? hf⟩
  · intro octets g hg
    exact ⟨command_ofFrame (Frame.wellFormed_of_decode hg), rfl⟩

end Request

end Smsc
