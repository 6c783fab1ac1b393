import Smsc.Proofs.Pdu.Bodies
import Smsc.Proofs.Pdu.Taken

/-!
# Smsc.Proofs.Pdu.RoundTrip — which frames are read back from their octets

* `Frame.WellFormed`: header and body agree, nothing with a name is carried as a raw code, and no
  text holds a NUL;
* `Frame.wellFormed_of_decode`: every frame that is read is well-formed;
* `Frame.decode_of_encode`: a well-formed frame is read back;
* `Frame.decode_encode_iff`: no other frame is.
-/

namespace Smsc

/-! ## Raw codes -/

namespace Status

theorem canonical_of_isKnown {s : Status} (h : s.isKnown) : s.Canonical := by
  cases s <;> first | rfl | simp [isKnown] at h

theorem ofCode_eq_other {code : UInt32} (h : ¬ (ofCode code).isKnown) : ofCode code = .other code := by
  unfold ofCode at h ⊢
  split at h <;> first | rfl | exact absurd rfl h

/-- A raw code stands for itself unless it has a name. -/
theorem canonical_other_iff {code : UInt32} :
    (other code).Canonical ↔ ∀ named : Status, named.isKnown → code ≠ named.code := by
  constructor
  · rintro h named hnamed rfl
    have hother : named = other named.code := (canonical_of_isKnown hnamed).symm.trans h
    rw [hother] at hnamed
    cases hnamed
  · intro h
    exact ofCode_eq_other fun hknown => h _ hknown (code_ofCode code).symm

end Status

namespace Command

theorem ofCode_eq_other {code : UInt32} (h : ¬ (ofCode code).isKnown) : ofCode code = .other code := by
  unfold ofCode at h ⊢
  split at h <;> first | rfl | exact absurd rfl h

/-- A raw code stands for itself unless it is modelled. -/
theorem canonical_other_iff {code : UInt32} :
    (other code).Canonical ↔ ∀ known : Command, known.isKnown → code ≠ known.code := by
  constructor
  · rintro h known hknown rfl
    have hother : known = other known.code := (canonical_of_isKnown hknown).symm.trans h
    rw [hother] at hknown
    cases hknown
  · intro h
    exact ofCode_eq_other fun hknown => h _ hknown (code_ofCode code).symm

end Command

theorem Pdu.canonical_command (p : Pdu) : p.command.Canonical := by
  cases p with
  | bind type b | bindResp type r => cases type <;> rfl
  | other code octets => exact Command.canonical_ofCode code
  | _ => rfl

namespace Frame

/-- What a frame must be for its octets to be read as the frame. -/
structure WellFormed (f : Frame) : Prop where
  command : f.command = f.pdu.command
  status : ∀ named : Status, named.isKnown → f.status ≠ .other named.code
  body : ∀ known : Command, known.isKnown → ∀ octets, f.pdu ≠ .other known.code octets
  texts : ∀ s ∈ f.pdu.texts, NulFree s

theorem WellFormed.canonical {f : Frame} (h : f.WellFormed) : f.status.Canonical := by
  cases hs : f.status with
  | other code =>
    refine Status.canonical_other_iff.mpr fun named hnamed hcode => h.status named hnamed ?_
    rw [hs, hcode]
  | _ => rfl

theorem WellFormed.ofCode_eq {f : Frame} (h : f.WellFormed) (code : UInt32) (octets : List UInt8)
    (hpdu : f.pdu = .other code octets) : Command.ofCode code = .other code := by
  refine Command.canonical_other_iff.mpr fun known hknown hcode => h.body known hknown octets ?_
  rw [hpdu, hcode]

/-! ## What is read is well-formed -/

theorem take?_of_decode {octets : List UInt8} {f : Frame} (h : Frame.decode octets = .ok f) :
    ∃ rest, take? octets = .frame f rest := by
  unfold Frame.decode at h
  cases htake : take? octets with
  | frame f' rest =>
    rw [htake] at h
    cases h
    exact ⟨rest, rfl⟩
  | incomplete | fault =>
    rw [htake] at h
    cases h

theorem wellFormed_of_take? {buffer rest : List UInt8} {f : Frame} (h : take? buffer = .frame f rest) :
    f.WellFormed := by
  have htakes := take?_takes buffer
  rw [h] at htakes
  cases htakes with
  | whole length header starts bounds le pdu unread reads =>
    obtain ⟨hcommand, hstatus⟩ := readHeader_canonical starts
    have hfits := (Pdu.gives header.command).ok reads
    refine ⟨(hfits.belongs hcommand).symm, ?_, ?_, hfits.texts⟩
    · intro named hnamed h
      have hother : header.status = .other named.code := h
      rw [hother] at hstatus
      exact Status.canonical_other_iff.mp hstatus named hnamed rfl
    · intro known hknown octets h
      rw [hfits.other _ _ h] at hcommand
      exact Command.canonical_other_iff.mp hcommand known hknown rfl

theorem wellFormed_of_decode {octets : List UInt8} {f : Frame} (h : Frame.decode octets = .ok f) :
    f.WellFormed := by
  obtain ⟨rest, htake⟩ := take?_of_decode h
  exact wellFormed_of_take? htake

/-! ## What is well-formed is read -/

/-- The three numbers of the header behind the length. -/
def numbers (f : Frame) : List UInt8 :=
  Octets.ofUInt32 f.pdu.command.code ++ Octets.ofUInt32 f.status.code ++ Octets.ofUInt32 f.sequence

/-- The octets of a frame, given those of its body. -/
def octetsWith (f : Frame) (body : List UInt8) : List UInt8 :=
  Octets.ofUInt32 (.ofNat (headerLength + body.length)) ++ (f.numbers ++ body)

theorem length_octetsWith (f : Frame) (body : List UInt8) :
    (f.octetsWith body).length = headerLength + body.length := by
  simp [octetsWith, numbers, Octets.ofUInt32, headerLength]
  omega

theorem drop_octetsWith (f : Frame) (body : List UInt8) : (f.octetsWith body).drop headerLength = body := rfl

theorem readHeader_octetsWith (f : Frame) {body : List UInt8}
    (h : headerLength + body.length ≤ maxPduLength) :
    readHeader (f.octetsWith body) =
      some (headerLength + body.length, ⟨.ofCode f.pdu.command.code, .ofCode f.status.code, f.sequence⟩) := by
  have hlength : (UInt32.ofNat (headerLength + body.length)).toNat = headerLength + body.length := by
    rw [UInt32.toNat_ofNat', Nat.mod_eq_of_lt (by unfold maxPduLength at h; omega)]
  simp only [octetsWith, numbers, Octets.ofUInt32, List.cons_append, List.nil_append, readHeader,
    Octets.toUInt32_ofUInt32]
  rw [hlength]

/-- The body goes behind zeros and the numbers, and then the length takes the place of the zeros. -/
theorem write_ok {f : Frame} {buffer out : List UInt8} (h : f.write.run buffer = (.ok (), out)) :
    ∃ written, f.pdu.write.run (buffer ++ ([0, 0, 0, 0] ++ f.numbers)) = (.ok (), written) ∧
      written.length - buffer.length ≤ maxPduLength ∧
      out = written.take buffer.length ++ Octets.ofUInt32 (.ofNat (written.length - buffer.length)) ++
        written.drop (buffer.length + 4) := by
  simp only [write, Writer.run_get_bind, Writer.run_octets_bind] at h
  obtain ⟨_, written, hbody, h⟩ := Writer.bind_ok h
  rw [Writer.run_get_bind] at h
  split at h
  · rename_i hlength
    cases h
    refine ⟨written, ?_, hlength, rfl⟩
    simpa only [numbers, List.append_assoc] using hbody
  · cases h

theorem write_of_encode {f : Frame} {octets : List UInt8} (h : f.encode = .ok octets) :
    f.write.run [] = (.ok (), octets) := by
  unfold encode append at h
  generalize f.write.run [] = result at h ⊢
  obtain ⟨_ | _, written⟩ := result <;> cases h
  rfl

/-- The octets of a well-formed frame hold its body as it is read back. -/
theorem WellFormed.octetsWith_of_encode {f : Frame} {octets : List UInt8} (hf : f.WellFormed)
    (h : f.encode = .ok octets) :
    ∃ body, octets = f.octetsWith body ∧ headerLength + body.length ≤ maxPduLength ∧
      Pdu.read f.command body = .ok (f.pdu, []) := by
  obtain ⟨written, hbody, hlength, rfl⟩ := write_ok (write_of_encode h)
  obtain ⟨body, rfl, hread⟩ := Pdu.undoes hf.texts hf.ofCode_eq _ _ hbody
  have hwritten : ([] ++ ([0, 0, 0, 0] ++ f.numbers) ++ body).length - ([] : List UInt8).length =
      headerLength + body.length := by
    simp [numbers, Octets.ofUInt32, headerLength]
    omega
  rw [hwritten] at hlength ⊢
  refine ⟨body, rfl, hlength, ?_⟩
  rw [hf.command, ← List.append_nil body]
  exact hread [] rfl

theorem take?_octetsWith {f : Frame} {body unread : List UInt8} (hf : f.WellFormed)
    (hlength : headerLength + body.length ≤ maxPduLength)
    (hread : Pdu.read f.command body = .ok (f.pdu, unread)) : take? (f.octetsWith body) = .frame f [] := by
  have hheader : ⟨.ofCode f.pdu.command.code, .ofCode f.status.code, f.sequence⟩ = f.header := by
    rw [Command.ofCode_code f.pdu.canonical_command, ← hf.command, hf.canonical]
    rfl
  have hstarts := readHeader_octetsWith f hlength
  have hwhole := length_octetsWith f body
  rw [hheader] at hstarts
  rw [← hwhole] at hstarts
  have htakes := Takes.whole _ _ hstarts ⟨hwhole ▸ Nat.le_add_right .., hwhole ▸ hlength⟩
    (Nat.le_refl _) f.pdu unread (by rw [List.take_length, drop_octetsWith]; exact hread)
  rw [htakes.eq, List.drop_length]

theorem decode_of_encode {f : Frame} {octets : List UInt8} (hf : f.WellFormed) (h : f.encode = .ok octets) :
    Frame.decode octets = .ok f := by
  obtain ⟨body, rfl, hlength, hread⟩ := hf.octetsWith_of_encode h
  rw [Frame.decode, take?_octetsWith hf hlength hread]

/-- **Round trip**: of the frames that have octets, exactly the well-formed ones are read back from
them. -/
theorem decode_encode_iff {f : Frame} {octets : List UInt8} (h : f.encode = .ok octets) :
    Frame.decode octets = .ok f ↔ f.WellFormed :=
  ⟨wellFormed_of_decode, fun hf => decode_of_encode hf h⟩

/-- A message with texts beyond ASCII, zeros in its octets, a tag that comes twice and a raw status. -/
def accented : Frame :=
  make 0xFFFFFFFF (.other 0x400) <| .submitSm
    { serviceType := "VMA", source := ⟨5, 0, "Café"⟩, destination := ⟨1, 1, "33612345678"⟩, esmClass := 0,
      protocolId := 0, priorityFlag := 3, scheduleDeliveryTime := "", validityPeriod := "€",
      registeredDelivery := 1, replaceIfPresent := 0, dataCoding := 8, defaultMessageId := 0,
      octets := [0, 65, 0, 255], tlvs := ⟨[⟨0x1400, [0, 1]⟩, ⟨0x1400, []⟩, Tlv.interfaceVersion34]⟩ }

theorem accented_decode_encode :
    ∃ octets, accented.encode = .ok octets ∧ Frame.decode octets = .ok accented := by
  refine ⟨_, rfl, (decode_encode_iff rfl).mpr ⟨rfl, ?_, nofun, by decide⟩⟩
  intro named hnamed
  cases named with
  | other code => cases hnamed
  | _ => decide

end Frame

end Smsc
