import Smsc.Pdu.Command
import Smsc.Pdu.Tlv

/-!
# Smsc.Pdu.Basic — the bodies of PDUs

* `Pdu`: one constructor for each modelled command, and `other` with the raw body;
* `Pdu.command`: the command a body belongs to;
* `BindType`, `Address`, `BindParameters`, `ShortMessage`, …: what the bodies hold.
-/

namespace Smsc

/-- The role a client asks for when it binds. -/
inductive BindType where
  | transmitter
  | receiver
  | transceiver
  deriving DecidableEq, Repr

namespace BindType

def name : BindType → String
  | transmitter => "TRANSMITTER"
  | receiver => "RECEIVER"
  | transceiver => "TRANSCEIVER"

/-- The bind request for the role. -/
def command : BindType → Command
  | transmitter => .bindTransmitter
  | receiver => .bindReceiver
  | transceiver => .bindTransceiver

end BindType

/-- An address: type of number, numbering plan, and the digits or name. -/
structure Address where
  ton : UInt8
  npi : UInt8
  address : String
  deriving DecidableEq, Repr, Inhabited

/-- The three parts with slashes between them. -/
def Address.text (a : Address) : String :=
  toString a.ton.toNat ++ "/" ++ toString a.npi.toNat ++ "/" ++ a.address

/-- What the three bind requests hold. -/
structure BindParameters where
  systemId : String
  password : String
  systemType : String
  interfaceVersion : UInt8
  addressTon : UInt8
  addressNpi : UInt8
  addressRange : String
  deriving DecidableEq, Repr

/-- What the three bind responses hold. -/
structure BindResponse where
  systemId : String
  tlvs : TlvMap
  deriving DecidableEq, Repr

/-- What submit_sm and deliver_sm hold. -/
structure ShortMessage where
  serviceType : String
  source : Address
  destination : Address
  esmClass : UInt8
  protocolId : UInt8
  priorityFlag : UInt8
  scheduleDeliveryTime : String
  validityPeriod : String
  registeredDelivery : UInt8
  replaceIfPresent : UInt8
  dataCoding : UInt8
  defaultMessageId : UInt8
  octets : List UInt8
  tlvs : TlvMap
  deriving DecidableEq, Repr

/-- What submit_sm_resp and deliver_sm_resp hold. -/
structure MessageResponse where
  messageId : String
  tlvs : TlvMap
  deriving DecidableEq, Repr

/-- A bind response that says nothing. -/
def BindResponse.empty : BindResponse := ⟨"", .empty⟩

/-- A message response without an id. -/
def MessageResponse.empty : MessageResponse := ⟨"", .empty⟩

/-- The body of a PDU. -/
inductive Pdu where
  | bind (type : BindType) (body : BindParameters)
  | bindResp (type : BindType) (body : BindResponse)
  | submitSm (body : ShortMessage)
  | submitSmResp (body : MessageResponse)
  | deliverSm (body : ShortMessage)
  | deliverSmResp (body : MessageResponse)
  | enquireLink
  | enquireLinkResp
  | unbind
  | unbindResp
  | genericNack
  /-- A command that is not modelled, with its body as it came. -/
  | other (code : UInt32) (body : List UInt8)
  deriving DecidableEq, Repr

namespace BindType

/-- The bind response for the role. -/
def responseCommand : BindType → Command
  | transmitter => .bindTransmitterResp
  | receiver => .bindReceiverResp
  | transceiver => .bindTransceiverResp

end BindType

/-- The command a body belongs to. -/
def Pdu.command : Pdu → Command
  | .bind type _ => type.command
  | .bindResp type _ => type.responseCommand
  | .submitSm _ => .submitSm
  | .submitSmResp _ => .submitSmResp
  | .deliverSm _ => .deliverSm
  | .deliverSmResp _ => .deliverSmResp
  | .enquireLink => .enquireLink
  | .enquireLinkResp => .enquireLinkResp
  | .unbind => .unbind
  | .unbindResp => .unbindResp
  | .genericNack => .genericNack
  | .other code _ => .ofCode code

end Smsc
