import Smsc.Pdu.Body
import Smsc.Proofs.Wire.Fields

/-!
# Smsc.Proofs.Pdu.Bodies — bodies are read as they were written

The laws of the fields, carried through the bodies.

* `Pdu.texts`: the texts of a body that a NUL ends;
* `Pdu.undoes`: a body whose texts hold no NUL is read back from what was written for it;
* `Pdu.gives`: a body that is read belongs to the command, its texts hold no NUL, and a fault in a
  body is never one of the length.
-/

namespace Smsc

/-! ## The texts -/

def BindParameters.texts (b : BindParameters) : List String :=
  [b.systemId, b.password, b.systemType, b.addressRange]

def ShortMessage.texts (m : ShortMessage) : List String :=
  [m.serviceType, m.source.address, m.destination.address, m.scheduleDeliveryTime, m.validityPeriod]

/-- The texts of a body that a NUL ends on the wire. -/
def Pdu.texts : Pdu → List String
  | .bind _ b => b.texts
  | .bindResp _ r => [r.systemId]
  | .submitSm m => m.texts
  | .deliverSm m => m.texts
  | .submitSmResp r => [r.messageId]
  | .deliverSmResp r => [r.messageId]
  | _ => []

/-! ## What was written is read -/

variable {R : List UInt8 → Prop}

theorem Address.undoes (field : TextField) {a : Address} (h : NulFree a.address) :
    Undoes R (Address.read field) a (a.write field) :=
  .bind (.octet _ _) <| .bind (.octet _ _) <| .last (field.undoes h) fun _ _ => rfl

theorem BindParameters.undoes {b : BindParameters} (h : ∀ s ∈ b.texts, NulFree s) :
    Undoes R BindParameters.read b b.write := by
  simp only [texts, List.forall_mem_cons] at h
  obtain ⟨systemId, password, systemType, addressRange, -⟩ := h
  refine .bind (TextField.undoes _ systemId) <| .bind (TextField.undoes _ password) <|
    .bind (TextField.undoes _ systemType) ?_
  refine .bind (.octet _ _) <| .bind (.octet _ _) <| .bind (.octet _ _) ?_
  exact .last (TextField.undoes _ addressRange) fun _ _ => rfl

theorem readTextAndTlvs_eq {α : Type} (field : TextField) (make : String → TlvMap → α)
    {octets : List UInt8} (h : octets ≠ []) :
    readTextAndTlvs field make octets = (field.read >>= fun s => make s <$> TlvMap.read) octets := by
  have hempty : ¬ octets.isEmpty = true := by simpa using h
  simp only [readTextAndTlvs, if_neg hempty, seq_eq_bind_map, bind_map_left]

/-- A text is written as at least one octet, so the empty body stands for no written one. -/
theorem textAndTlvs_undoes {α : Type} (field : TextField) (make : String → TlvMap → α) {s : String}
    (h : NulFree s) (tlvs : TlvMap) :
    Undoes (· = []) (readTextAndTlvs field make) (make s tlvs) (do field.write s; tlvs.write) := by
  have hboth : Undoes (· = []) (field.read >>= fun s => make s <$> TlvMap.read) (make s tlvs)
      (do field.write s; tlvs.write) :=
    .bind (field.undoes h) (.map _ (TlvMap.undoes tlvs))
  intro buffer out hout
  obtain ⟨octets, rfl, hread⟩ := hboth buffer out hout
  refine ⟨octets, rfl, fun rest hrest => ?_⟩
  have hall := hread rest hrest
  rwa [readTextAndTlvs_eq]
  -- No writer of a text leaves the body empty, for its reader would find no NUL.
  intro hnil
  rw [hnil] at hall
  cases hall

theorem shortMessageOctets_undoes (message : List UInt8) :
    Undoes R readShortMessageOctets message (writeShortMessageOctets message) := by
  intro buffer out hout
  unfold writeShortMessageOctets at hout
  split at hout
  · rename_i hfits
    cases hout
    refine ⟨.ofNat message.length :: message, by simp, fun rest _ => ?_⟩
    have hlength : (UInt8.ofNat message.length).toNat = message.length := by
      rw [UInt8.toNat_ofNat', Nat.mod_eq_of_lt (by omega)]
    show (if ((message ++ rest).take (UInt8.ofNat message.length).toNat).length <
      (UInt8.ofNat message.length).toNat then _ else _ : Reader _) (message ++ rest) = _
    rw [hlength, List.take_left, if_neg (Nat.lt_irrefl _)]
    show Except.ok ((message ++ rest).take message.length, (message ++ rest).drop message.length) = _
    rw [List.take_left, List.drop_left]
  · cases hout

theorem ShortMessage.undoes {m : ShortMessage} (h : ∀ s ∈ m.texts, NulFree s) :
    Undoes (· = []) ShortMessage.read m m.write := by
  simp only [texts, List.forall_mem_cons] at h
  obtain ⟨serviceType, source, destination, scheduleDeliveryTime, validityPeriod, -⟩ := h
  refine .bind (TextField.undoes _ serviceType) <| .bind (Address.undoes _ source) <|
    .bind (Address.undoes _ destination) ?_
  refine .bind (.octet _ _) <| .bind (.octet _ _) <| .bind (.octet _ _) ?_
  refine .bind (TextField.undoes _ scheduleDeliveryTime) <| .bind (TextField.undoes _ validityPeriod) ?_
  refine .bind (.octet _ _) <| .bind (.octet _ _) <| .bind (.octet _ _) <| .bind (.octet _ _) ?_
  refine .bind (shortMessageOctets_undoes _) ?_
  exact .last (TlvMap.undoes _) fun _ _ => rfl

theorem rest_undoes (octets : List UInt8) : Undoes (· = []) Reader.rest octets (Writer.octets octets) := by
  intro buffer out hout
  cases hout
  refine ⟨octets, rfl, ?_⟩
  rintro _ rfl
  rw [List.append_nil]
  rfl

/-- The reader of the body's command reads the body back. -/
theorem Pdu.undoes {p : Pdu} (h : ∀ s ∈ p.texts, NulFree s)
    (hother : ∀ code octets, p = .other code octets → Command.ofCode code = .other code) :
    Undoes (· = []) (Pdu.read p.command) p p.write := by
  cases p with
  | bind type b => cases type <;> exact .map _ (BindParameters.undoes h)
  | bindResp type r =>
    have hr : NulFree r.systemId := h _ (List.mem_singleton.mpr rfl)
    cases type <;> exact .map _ (textAndTlvs_undoes .systemId BindResponse.mk hr r.tlvs)
  | submitSm m => exact .map _ (ShortMessage.undoes h)
  | deliverSm m => exact .map _ (ShortMessage.undoes h)
  | submitSmResp r =>
    exact .map _ (textAndTlvs_undoes .messageId MessageResponse.mk (h _ (List.mem_singleton.mpr rfl)) r.tlvs)
  | deliverSmResp r =>
    exact .map _ (textAndTlvs_undoes .messageId MessageResponse.mk (h _ (List.mem_singleton.mpr rfl)) r.tlvs)
  | other code octets =>
    rw [command, hother code octets rfl]
    exact .map _ (rest_undoes octets)
  | enquireLink | enquireLinkResp | unbind | unbindResp | genericNack => exact .pure _

/-! ## What is read could have been written -/

theorem Address.gives (field : TextField) : Gives (Address.read field) (fun a => NulFree a.address) := by
  refine .bind (.octet _) fun ton _ => .bind (.octet _) fun npi _ => ?_
  exact .bind field.gives fun address h => .pure h

theorem BindParameters.gives : Gives BindParameters.read (fun b => ∀ s ∈ b.texts, NulFree s) := by
  refine .bind (TextField.gives _) fun systemId h₁ => .bind (TextField.gives _) fun password h₂ =>
    .bind (TextField.gives _) fun systemType h₃ => ?_
  refine .bind (.octet _) fun _ _ => .bind (.octet _) fun _ _ => .bind (.octet _) fun _ _ => ?_
  refine .bind (TextField.gives _) fun addressRange h₄ => .pure ?_
  simp only [texts, List.forall_mem_cons]
  exact ⟨h₁, h₂, h₃, h₄, nofun⟩

theorem textAndTlvs_gives {α : Type} (field : TextField) (make : String → TlvMap → α) :
    Gives (readTextAndTlvs field make) (fun a => ∃ s tlvs, NulFree s ∧ a = make s tlvs) := by
  intro octets
  by_cases hnil : octets = []
  · subst hnil
    exact ⟨"", .empty, by decide, rfl⟩
  · rw [readTextAndTlvs_eq field make hnil]
    refine (Gives.bind field.gives fun s hs => ?_) octets
    exact .map _ (TlvMap.gives.mono fun tlvs _ => ⟨s, tlvs, hs, rfl⟩)

theorem shortMessageOctets_gives : Gives readShortMessageOctets (fun _ => True) := by
  refine .bind (.octet _) fun length _ => .bind .get fun octets _ => ?_
  dsimp only
  split
  · exact .throw fun _ => nofun
  · exact .bind (.set _) fun _ _ => .pure trivial

theorem ShortMessage.gives : Gives ShortMessage.read (fun m => ∀ s ∈ m.texts, NulFree s) := by
  refine .bind (TextField.gives _) fun serviceType h₁ => .bind (Address.gives _) fun source h₂ =>
    .bind (Address.gives _) fun destination h₃ => ?_
  refine .bind (.octet _) fun _ _ => .bind (.octet _) fun _ _ => .bind (.octet _) fun _ _ => ?_
  refine .bind (TextField.gives _) fun scheduleDeliveryTime h₄ =>
    .bind (TextField.gives _) fun validityPeriod h₅ => ?_
  refine .bind (.octet _) fun _ _ => .bind (.octet _) fun _ _ => .bind (.octet _) fun _ _ =>
    .bind (.octet _) fun _ _ => ?_
  refine .bind shortMessageOctets_gives fun _ _ => .bind TlvMap.gives fun _ _ => .pure ?_
  simp only [texts, List.forall_mem_cons]
  exact ⟨h₁, h₂, h₃, h₄, h₅, nofun⟩

/-- A body is one of the command it was read for, and of an unmodelled one only if the command is. -/
structure Pdu.Fits (command : Command) (p : Pdu) : Prop where
  texts : ∀ s ∈ p.texts, NulFree s
  belongs : command.Canonical → p.command = command
  other : ∀ code octets, p = .other code octets → command = .other code

theorem Pdu.gives (command : Command) : Gives (Pdu.read command) (Pdu.Fits command) := by
  cases command with
  | bindTransmitter | bindReceiver | bindTransceiver =>
    exact .map _ (BindParameters.gives.mono fun b h => ⟨h, fun _ => rfl, nofun⟩)
  | bindTransmitterResp | bindReceiverResp | bindTransceiverResp =>
    refine .map _ ((textAndTlvs_gives _ _).mono ?_)
    rintro _ ⟨s, tlvs, hs, rfl⟩
    exact ⟨by simpa [texts] using hs, fun _ => rfl, nofun⟩
  | submitSm | deliverSm => exact .map _ (ShortMessage.gives.mono fun m h => ⟨h, fun _ => rfl, nofun⟩)
  | submitSmResp | deliverSmResp =>
    refine .map _ ((textAndTlvs_gives _ _).mono ?_)
    rintro _ ⟨s, tlvs, hs, rfl⟩
    exact ⟨by simpa [texts] using hs, fun _ => rfl, nofun⟩
  | enquireLink | enquireLinkResp | unbind | unbindResp | genericNack =>
    exact .pure ⟨nofun, fun _ => rfl, nofun⟩
  | other code =>
    refine .map _ (Gives.rest.mono fun octets _ => ⟨nofun, fun h => h, ?_⟩)
    rintro code' octets' h
    cases h
    rfl

end Smsc
