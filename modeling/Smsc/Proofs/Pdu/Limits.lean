import Mathlib.Algebra.GroupWithZero.Nat
import Smsc.Proofs.Pdu.Appending

/-!
# Smsc.Proofs.Pdu.Limits — what has octets, and which field is blamed

A body is a row of parts. Most of them fit whatever they hold; a text, the message and a parameter
have a limit of their own, and the whole frame has one that is looked at last.

* `Pdu.parts`: the parts of a body in wire order, each text with its limit;
* `Pdu.Part.Fits`, `Pdu.Part.fault?`: what fits, and the error for what does not;
* `Lays w parts`: `w` writes the octets of the parts, or fails with the first fault among them;
* `Pdu.write_lays`: so does the writer of every body;
* `Frame.bounded`: a frame has octets iff everything fits, and the error names what does not.
-/

namespace Smsc

/-! ## Parts of a body -/

/-- A part of a body, with the limit it has if it has one. -/
inductive Pdu.Part where
  /-- Octets that are written as they are. -/
  | plain (octets : List UInt8)
  /-- A text and the NUL that ends it, which the limit counts. -/
  | text (name : String) (limit : Nat) (s : String)
  /-- The message, behind an octet with its length. -/
  | message (octets : List UInt8)
  /-- An optional parameter. -/
  | tlv (t : Tlv)

namespace Pdu.Part

/-- The octets of a part. -/
def octets : Part → List UInt8
  | plain octets => octets
  | text _ _ s => Utf8.encode s ++ [0]
  | message octets => .ofNat octets.length :: octets
  | tlv t => Octets.ofUInt16 t.tag ++ Octets.ofUInt16 (.ofNat t.value.length) ++ t.value

/-- How many octets a part takes. -/
def length : Part → Nat
  | plain octets => octets.length
  | text _ _ s => s.utf8ByteSize + 1
  | message octets => 1 + octets.length
  | tlv t => 4 + t.value.length

/-- Is the part within its limit? -/
def Fits : Part → Prop
  | plain _ => True
  | text _ limit s => s.utf8ByteSize + 1 ≤ limit
  | message octets => octets.length ≤ 255
  | tlv t => t.value.length ≤ 65535

instance : (p : Part) → Decidable p.Fits
  | plain _ => inferInstanceAs (Decidable True)
  | text .. | message _ | tlv _ => inferInstanceAs (Decidable (_ ≤ _))

/-- What is said of a part that is over its limit. -/
def fault? (p : Part) : Option CodecError :=
  if p.Fits then none
  else
    match p with
    | plain _ => none
    | text name limit _ => some (.fieldTooLong name limit)
    | message _ => some (.fieldTooLong "short_message" 255)
    | tlv t => some (.tlv ("value of tag " ++ Tlv.tagText t.tag ++ " exceeds 65535 bytes"))

theorem fault?_eq_none_iff {p : Part} : p.fault? = none ↔ p.Fits := by
  unfold fault?
  by_cases h : p.Fits
  · rw [if_pos h]
    exact iff_of_true rfl h
  · rw [if_neg h]
    refine iff_of_false (fun hnone => ?_) h
    cases p with
    | plain octets => exact h trivial
    | text | message | tlv => cases hnone

/-- Nothing is blamed for the length of the whole. -/
theorem ofBody_of_fault? {p : Part} {e : CodecError} (h : p.fault? = some e) : e.OfBody := by
  unfold fault? at h
  split at h
  · cases h
  · cases p <;> cases h <;> exact fun _ => nofun

theorem length_octets (p : Part) : p.octets.length = p.length := by
  cases p with
  | plain octets => rfl
  | text name limit s => rw [octets, List.length_append, Utf8.length_encode]; rfl
  | message octets => exact Nat.add_comm ..
  | tlv t => rw [octets, List.length_append]; rfl

end Pdu.Part

open Pdu (Part)

def Address.parts (name : String) (a : Address) : List Part :=
  [.plain [a.ton], .plain [a.npi], .text name 21 a.address]

def TlvMap.parts (m : TlvMap) : List Part := m.entries.map .tlv

def BindParameters.parts (b : BindParameters) : List Part :=
  [.text "system_id" 16 b.systemId, .text "password" 9 b.password, .text "system_type" 13 b.systemType,
    .plain [b.interfaceVersion], .plain [b.addressTon], .plain [b.addressNpi],
    .text "address_range" 41 b.addressRange]

def ShortMessage.parts (m : ShortMessage) : List Part :=
  .text "service_type" 6 m.serviceType :: (m.source.parts "source_addr" ++
    (m.destination.parts "destination_addr" ++
      .plain [m.esmClass] :: .plain [m.protocolId] :: .plain [m.priorityFlag] ::
      .text "schedule_delivery_time" 17 m.scheduleDeliveryTime ::
      .text "validity_period" 17 m.validityPeriod ::
      .plain [m.registeredDelivery] :: .plain [m.replaceIfPresent] :: .plain [m.dataCoding] ::
      .plain [m.defaultMessageId] :: .message m.octets :: m.tlvs.parts))

/-- The parts of a body, in the order in which they stand on the wire. -/
def Pdu.parts : Pdu → List Part
  | .bind _ b => b.parts
  | .bindResp _ r => .text "system_id" 16 r.systemId :: r.tlvs.parts
  | .submitSm m | .deliverSm m => m.parts
  | .submitSmResp r | .deliverSmResp r => .text "message_id" 65 r.messageId :: r.tlvs.parts
  | .other _ octets => [.plain octets]
  | .enquireLink | .enquireLinkResp | .unbind | .unbindResp | .genericNack => []

/-! ## Writing part after part -/

/-- The writer puts the octets of the parts behind the buffer, or stops at the first that does not
fit and fails with what is said of it. -/
def Lays (w : Writer Unit) (parts : List Part) : Prop :=
  match parts.findSome? Part.fault? with
  | none => Appends w (.ok ()) (parts.flatMap Part.octets)
  | some e => ∃ written, Appends w (.error e) written

namespace Lays

variable {w : Writer Unit} {k : Unit → Writer Unit} {ps qs : List Part} {p : Part}

theorem nil : Lays (Pure.pure ()) [] := Appends.pure

/-- One part without a limit. -/
theorem plain (bs : List UInt8) : Lays (Writer.octets bs) [.plain bs] := by
  unfold Lays
  rw [List.flatMap_singleton]
  exact .octets bs

/-- One part, whose limit the writer looks at before it writes anything. -/
theorem guarded {P : Prop} [Decidable P] {e : CodecError} (hP : P ↔ p.Fits) (hw : Appends w (.ok ()) p.octets)
    (he : ¬ p.Fits → p.fault? = some e) : Lays (if P then w else throw e) [p] := by
  unfold Lays
  rw [List.findSome?_singleton, List.flatMap_singleton]
  by_cases h : P
  · rw [if_pos h, Part.fault?_eq_none_iff.mpr (hP.mp h)]
    exact hw
  · rw [if_neg h, he (mt hP.mpr h)]
    exact ⟨_, .throw e⟩

theorem bind (h : Lays w ps) (hk : Lays (k ()) qs) : Lays (w >>= k) (ps ++ qs) := by
  unfold Lays at h hk ⊢
  rw [List.findSome?_append, List.flatMap_append]
  cases hps : ps.findSome? Part.fault? with
  | some e =>
    -- What comes behind is not reached.
    rw [hps] at h
    obtain ⟨written, h⟩ := h
    exact ⟨written, h.bind_error⟩
  | none =>
    rw [hps] at h
    rw [Option.none_or]
    cases hqs : qs.findSome? Part.fault? with
    | none =>
      rw [hqs] at hk
      exact h.bind hk
    | some e =>
      rw [hqs] at hk
      obtain ⟨written, hk⟩ := hk
      exact ⟨_, h.bind hk⟩

end Lays

theorem TextField.write_lays (field : TextField) (s : String) :
    Lays (field.write s) [.text field.name field.limit s] := by
  refine .guarded ?_ (.bind (.octets _) (.octet 0)) fun h => if_neg h
  rw [Fits, Utf8.length_encode]
  rfl

theorem writeShortMessageOctets_lays (octets : List UInt8) :
    Lays (writeShortMessageOctets octets) [.message octets] :=
  .guarded Iff.rfl (.bind (.octet _) (.octets _)) fun h => if_neg h

theorem Tlv.write_lays (t : Tlv) : Lays t.write [.tlv t] := by
  refine .guarded Iff.rfl ?_ fun h => if_neg h
  rw [Part.octets, List.append_assoc]
  exact .bind (.octets _) (.bind (.octets _) (.octets _))

/-! ## Bodies -/

theorem TlvMap.write_lays (m : TlvMap) : Lays m.write m.parts := by
  unfold write parts
  induction m.entries with
  | nil => exact .nil
  | cons t ts ih => exact .bind t.write_lays ih

theorem Address.write_lays (field : TextField) (hlimit : field.limit = 21) (a : Address) :
    Lays (a.write field) (a.parts field.name) := by
  have htext := field.write_lays a.address
  rw [hlimit] at htext
  exact .bind (.plain [a.ton]) (.bind (.plain [a.npi]) htext)

theorem BindParameters.write_lays (b : BindParameters) : Lays b.write b.parts := by
  refine .bind (TextField.write_lays ..) <| .bind (TextField.write_lays ..) <|
    .bind (TextField.write_lays ..) ?_
  exact .bind (.plain _) <| .bind (.plain _) <| .bind (.plain _) (TextField.write_lays ..)

theorem ShortMessage.write_lays (m : ShortMessage) : Lays m.write m.parts := by
  refine .bind (TextField.write_lays ..) <| .bind (Address.write_lays _ rfl _) <|
    .bind (Address.write_lays _ rfl _) ?_
  refine .bind (.plain _) <| .bind (.plain _) <| .bind (.plain _) ?_
  refine .bind (TextField.write_lays ..) <| .bind (TextField.write_lays ..) ?_
  refine .bind (.plain _) <| .bind (.plain _) <| .bind (.plain _) <| .bind (.plain _) ?_
  exact .bind (writeShortMessageOctets_lays _) m.tlvs.write_lays

/-- The writer of every body lays the parts of the body, in their order. -/
theorem Pdu.write_lays (p : Pdu) : Lays p.write p.parts := by
  cases p with
  | bind type b => exact b.write_lays
  | bindResp type r => exact .bind (TextField.write_lays ..) r.tlvs.write_lays
  | submitSm m | deliverSm m => exact m.write_lays
  | submitSmResp r | deliverSmResp r => exact .bind (TextField.write_lays ..) r.tlvs.write_lays
  | other code octets => exact .plain octets
  | enquireLink | enquireLinkResp | unbind | unbindResp | genericNack => exact .nil

/-! ## The first part that does not fit -/

theorem Pdu.Part.findSome?_eq_none_iff {parts : List Part} :
    parts.findSome? fault? = none ↔ ∀ p ∈ parts, p.Fits := by
  simp only [List.findSome?_eq_none_iff, fault?_eq_none_iff]

theorem Pdu.Part.findSome?_eq_some_iff {parts : List Part} {e : CodecError} :
    parts.findSome? fault? = some e ↔ ∃ before p after, parts = before ++ p :: after ∧
      (∀ q ∈ before, q.Fits) ∧ ¬ p.Fits ∧ p.fault? = some e := by
  rw [List.findSome?_eq_some_iff]
  constructor
  · rintro ⟨before, p, after, hparts, hp, hbefore⟩
    refine ⟨before, p, after, hparts, fun q hq => fault?_eq_none_iff.mp (hbefore q hq), fun hfits => ?_, hp⟩
    rw [fault?_eq_none_iff.mpr hfits] at hp
    cases hp
  · rintro ⟨before, p, after, hparts, hbefore, -, hp⟩
    exact ⟨before, p, after, hparts, hp, fun q hq => fault?_eq_none_iff.mpr (hbefore q hq)⟩

namespace Frame

variable {f : Frame}

/-- How many octets a frame takes: those of the header and those of each part. -/
def length (f : Frame) : Nat := 16 + (f.pdu.parts.map Part.length).sum

theorem length_eq (f : Frame) : f.length = headerLength + (f.pdu.parts.flatMap Part.octets).length := by
  rw [List.length_flatMap, funext Part.length_octets]
  rfl

/-- A part that does not fit comes before the length of the whole, whatever that is. -/
theorem encode_of_fault {e : CodecError} (h : f.pdu.parts.findSome? Part.fault? = some e) :
    f.encode = .error e := by
  have hlays := f.pdu.write_lays
  unfold Lays at hlays
  rw [h] at hlays
  obtain ⟨written, hlays⟩ := hlays
  rw [encode, append_of_error hlays]

theorem encode_of_fits (h : ∀ p ∈ f.pdu.parts, p.Fits) :
    f.encode = if f.length ≤ 65536 then .ok (f.octetsWith (f.pdu.parts.flatMap Part.octets))
      else .error (.invalidLength f.length) := by
  have hlays := f.pdu.write_lays
  unfold Lays at hlays
  rw [Part.findSome?_eq_none_iff.mpr h] at hlays
  rw [encode, length_eq]
  by_cases hlength : headerLength + (f.pdu.parts.flatMap Part.octets).length ≤ 65536
  · rw [if_pos hlength, append_of_ok hlays hlength, List.nil_append]
  · rw [if_neg hlength, append_of_long hlays (Nat.lt_of_not_le hlength)]

/-- What is said of the first part that does not fit. -/
def Blames (f : Frame) (e : CodecError) : Prop :=
  ∃ before p after, f.pdu.parts = before ++ p :: after ∧ (∀ q ∈ before, q.Fits) ∧ ¬ p.Fits ∧
    p.fault? = some e

theorem blames_iff {e : CodecError} : f.Blames e ↔ f.pdu.parts.findSome? Part.fault? = some e :=
  Part.findSome?_eq_some_iff.symm

/-- Some part does not fit, and the first of them is blamed. -/
theorem exists_blames (h : ¬ ∀ p ∈ f.pdu.parts, p.Fits) : ∃ e, f.Blames e := by
  simp only [blames_iff]
  apply Option.ne_none_iff_exists'.mp
  rwa [Ne, Part.findSome?_eq_none_iff]

theorem Blames.not_fits {e : CodecError} (h : f.Blames e) : ¬ ∀ p ∈ f.pdu.parts, p.Fits := by
  obtain ⟨before, p, after, hparts, -, hp, -⟩ := h
  intro hfits
  exact hp (hfits p (by rw [hparts]; exact List.mem_append_cons_self))

theorem Blames.ofBody {e : CodecError} (h : f.Blames e) : e.OfBody := by
  obtain ⟨before, p, after, -, -, -, he⟩ := h
  exact Part.ofBody_of_fault? he

theorem encode_ok_iff {octets : List UInt8} : f.encode = .ok octets ↔
    (∀ p ∈ f.pdu.parts, p.Fits) ∧ f.length ≤ 65536 ∧
      octets = f.octetsWith (f.pdu.parts.flatMap Part.octets) := by
  by_cases hfits : ∀ p ∈ f.pdu.parts, p.Fits
  · rw [encode_of_fits hfits]
    by_cases hlength : f.length ≤ 65536
    · rw [if_pos hlength, Except.ok.injEq]
      exact ⟨fun h => ⟨hfits, hlength, h.symm⟩, fun h => h.2.2.symm⟩
    · rw [if_neg hlength]
      exact iff_of_false nofun fun h => hlength h.2.1
  · obtain ⟨e, he⟩ := exists_blames hfits
    rw [encode_of_fault (blames_iff.mp he)]
    exact iff_of_false nofun fun h => hfits h.1

theorem encode_error_iff {e : CodecError} : f.encode = .error e ↔
    f.Blames e ∨ ((∀ p ∈ f.pdu.parts, p.Fits) ∧ 65536 < f.length ∧ e = .invalidLength f.length) := by
  by_cases hfits : ∀ p ∈ f.pdu.parts, p.Fits
  · have hblames : ¬ f.Blames e := fun h => h.not_fits hfits
    rw [encode_of_fits hfits, or_iff_right hblames]
    by_cases hlength : f.length ≤ 65536
    · rw [if_pos hlength]
      exact iff_of_false nofun fun h => absurd hlength (Nat.not_le.mpr h.2.1)
    · rw [if_neg hlength, Except.error.injEq]
      exact ⟨fun h => ⟨hfits, Nat.lt_of_not_le hlength, h.symm⟩, fun h => h.2.2.symm⟩
  · obtain ⟨e', he'⟩ := exists_blames hfits
    rw [or_iff_left fun h => hfits h.1, encode_of_fault (blames_iff.mp he'), blames_iff, blames_iff.mp he',
      Except.error.injEq, Option.some.injEq]

/-- A frame has octets iff each of its parts is within its limit, and the whole is too. -/
theorem encodes_iff : (∃ octets, f.encode = .ok octets) ↔
    (∀ p ∈ f.pdu.parts, p.Fits) ∧ f.length ≤ 65536 := by
  simp only [encode_ok_iff, exists_and_left, exists_eq, and_true]

/-- What a frame must keep to in order to have octets, and what is said if it does not. -/
structure Bounded (f : Frame) : Prop where
  /-- A frame has octets iff each of its parts is within its limit, and the whole is too. -/
  accepts : (∃ octets, f.encode = .ok octets) ↔ (∀ p ∈ f.pdu.parts, p.Fits) ∧ f.length ≤ 65536
  /-- The octets are as many as were counted. Behind the header stand those of the parts, in order. -/
  lays : ∀ octets, f.encode = .ok octets →
    octets.length = f.length ∧ octets.drop 16 = f.pdu.parts.flatMap Part.octets
  /-- The error is that of the first part that does not fit. If all of them fit it is the length. -/
  blames : ∀ e, f.encode = .error e ↔
    f.Blames e ∨ ((∀ p ∈ f.pdu.parts, p.Fits) ∧ 65536 < f.length ∧ e = .invalidLength f.length)
  /-- The length is blamed only for itself, and in full. -/
  long : ∀ n, f.encode = .error (.invalidLength n) ↔
    (∀ p ∈ f.pdu.parts, p.Fits) ∧ 65536 < f.length ∧ n = f.length

/-- **Limits**: a frame has octets exactly when everything in it fits, and otherwise the error names
what does not. -/
theorem bounded (f : Frame) : Bounded f := by
  refine ⟨encodes_iff, ?_, fun e => encode_error_iff, fun n => ?_⟩
  · intro octets h
    obtain ⟨-, -, rfl⟩ := encode_ok_iff.mp h
    exact ⟨by rw [length_octetsWith, length_eq], drop_octetsWith f _⟩
  · have hblames : ¬ f.Blames (.invalidLength n) := fun h => h.ofBody n rfl
    rw [encode_error_iff, or_iff_right hblames, CodecError.invalidLength.injEq]

/-- The limit is one on octets, not on letters: with two letters of two octets each, thirteen letters
leave room for the NUL and fourteen do not. -/
example : (make 1 .ok (.bindResp .receiver ⟨"côté-smsc-esm", .empty⟩)).encode.isOk = true ∧
    (make 1 .ok (.bindResp .receiver ⟨"côté-smsc-esme", .empty⟩)).encode =
      .error (.fieldTooLong "system_id" 16) := by
  decide

end Frame

end Smsc
