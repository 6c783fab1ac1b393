import Smsc.Text.Numeral

/-!
# Smsc.Pdu.Command — command identifiers

* `Command`: the commands this library models, and `other` for every raw value;
* `Command.ofCode`, `Command.code`: from and to the four octets of the header;
* `Command.isResponse`: bit 31 of the code.

`Command.code_ofCode` says that no code is lost; the other way round `other` hides a modelled code
from `ofCode`, so `ofCode_code` asks for `Canonical`.
-/

namespace Smsc

/-- What a PDU asks for or answers. -/
inductive Command where
  | genericNack
  | bindReceiver
  | bindReceiverResp
  | bindTransmitter
  | bindTransmitterResp
  | submitSm
  | submitSmResp
  | deliverSm
  | deliverSmResp
  | unbind
  | unbindResp
  | bindTransceiver
  | bindTransceiverResp
  | enquireLink
  | enquireLinkResp
  /-- Any command the library carries without modelling it. -/
  | other (code : UInt32)
  deriving DecidableEq, Repr

namespace Command

/-- The command with a given code. -/
def ofCode (code : UInt32) : Command :=
  match code.toNat with
  | 0x80000000 => genericNack
  | 0x00000001 => bindReceiver
  | 0x80000001 => bindReceiverResp
  | 0x00000002 => bindTransmitter
  | 0x80000002 => bindTransmitterResp
  | 0x00000004 => submitSm
  | 0x80000004 => submitSmResp
  | 0x00000005 => deliverSm
  | 0x80000005 => deliverSmResp
  | 0x00000006 => unbind
  | 0x80000006 => unbindResp
  | 0x00000009 => bindTransceiver
  | 0x80000009 => bindTransceiverResp
  | 0x00000015 => enquireLink
  | 0x80000015 => enquireLinkResp
  | _ => other code

/-- The code of a command. -/
def code : Command → UInt32
  | genericNack => 0x80000000
  | bindReceiver => 0x00000001
  | bindReceiverResp => 0x80000001
  | bindTransmitter => 0x00000002
  | bindTransmitterResp => 0x80000002
  | submitSm => 0x00000004
  | submitSmResp => 0x80000004
  | deliverSm => 0x00000005
  | deliverSmResp => 0x80000005
  | unbind => 0x00000006
  | unbindResp => 0x80000006
  | bindTransceiver => 0x00000009
  | bindTransceiverResp => 0x80000009
  | enquireLink => 0x00000015
  | enquireLinkResp => 0x80000015
  | other code => code

/-- Bit 31 of the code marks a response. -/
def isResponse (c : Command) : Bool :=
  0x80000000 ≤ c.code.toNat

/-- Is the command one the library models? -/
def isKnown : Command → Bool
  | other _ => false
  | _ => true

/-- The name used in messages and measurements; a raw code is shown in hexadecimal. -/
def name : Command → String
  | genericNack => "generic_nack"
  | bindReceiver => "bind_receiver"
  | bindReceiverResp => "bind_receiver_resp"
  | bindTransmitter => "bind_transmitter"
  | bindTransmitterResp => "bind_transmitter_resp"
  | submitSm => "submit_sm"
  | submitSmResp => "submit_sm_resp"
  | deliverSm => "deliver_sm"
  | deliverSmResp => "deliver_sm_resp"
  | unbind => "unbind"
  | unbindResp => "unbind_resp"
  | bindTransceiver => "bind_transceiver"
  | bindTransceiverResp => "bind_transceiver_resp"
  | enquireLink => "enquire_link"
  | enquireLinkResp => "enquire_link_resp"
  | other code => Numeral.tagged 8 code.toNat

/-- A command is canonical if its code is read back as the command itself. -/
def Canonical (c : Command) : Prop := ofCode c.code = c

instance (c : Command) : Decidable c.Canonical := inferInstanceAs (Decidable (_ = _))

theorem code_ofCode (code : UInt32) : (ofCode code).code = code := by
  unfold ofCode
  split <;> first
    | rfl
    | (rename_i h; exact UInt32.toNat_inj.1 h.symm)

theorem ofCode_code {c : Command} (h : c.Canonical) : ofCode c.code = c := h

theorem canonical_ofCode (code : UInt32) : (ofCode code).Canonical := by
  simp [Canonical, code_ofCode]

theorem canonical_of_isKnown {c : Command} (h : c.isKnown) : c.Canonical := by
  cases c <;> first | rfl | simp [isKnown] at h

end Command

end Smsc
