import Smsc.Pdu.Basic

/-!
# Smsc.Pdu.Body — bodies as octets

* `Pdu.read`: the body of a given command, from the octets behind the header;
* `Pdu.write`: the octets of a body.

Three tolerances on reading: octets behind the last field of a bind, a body where none belongs,
and a response without a body.
-/

namespace Smsc

/-- An address, both numbers and the text under one field name. -/
def Address.read (field : TextField) : Reader Address := do
  let ton ← Reader.octet field.name
  let npi ← Reader.octet field.name
  let address ← field.read
  return { ton, npi, address }

def Address.write (field : TextField) (a : Address) : Writer Unit := do
  Writer.octet a.ton
  Writer.octet a.npi
  field.write a.address

/-- The fields of a bind; what follows them is left alone. -/
def BindParameters.read : Reader BindParameters := do
  let systemId ← TextField.systemId.read
  let password ← TextField.password.read
  let systemType ← TextField.systemType.read
  let interfaceVersion ← Reader.octet "interface_version"
  let addressTon ← Reader.octet "addr_ton"
  let addressNpi ← Reader.octet "addr_npi"
  let addressRange ← TextField.addressRange.read
  return { systemId, password, systemType, interfaceVersion, addressTon, addressNpi, addressRange }

def BindParameters.write (b : BindParameters) : Writer Unit := do
  TextField.systemId.write b.systemId
  TextField.password.write b.password
  TextField.systemType.write b.systemType
  Writer.octet b.interfaceVersion
  Writer.octet b.addressTon
  Writer.octet b.addressNpi
  TextField.addressRange.write b.addressRange

/-- A text field and parameters; a body of no octets is read as an empty text. -/
def readTextAndTlvs {α : Type} (field : TextField) (make : String → TlvMap → α) : Reader α := fun octets =>
  if octets.isEmpty then .ok (make "" .empty, [])
  else (make <$> field.read <*> TlvMap.read) octets

def BindResponse.read : Reader BindResponse :=
  readTextAndTlvs .systemId .mk

def BindResponse.write (r : BindResponse) : Writer Unit := do
  TextField.systemId.write r.systemId
  r.tlvs.write

def MessageResponse.read : Reader MessageResponse :=
  readTextAndTlvs .messageId .mk

def MessageResponse.write (r : MessageResponse) : Writer Unit := do
  TextField.messageId.write r.messageId
  r.tlvs.write

/-- The message itself, behind an octet with its length. -/
def readShortMessageOctets : Reader (List UInt8) := do
  let length ← Reader.octet "sm_length"
  let octets ← get
  let message := octets.take length.toNat
  if message.length < length.toNat then
    throw (.truncated "short_message")
  else
    set (octets.drop length.toNat)
    return message

def writeShortMessageOctets (message : List UInt8) : Writer Unit := do
  if message.length ≤ 255 then
    Writer.octet (.ofNat message.length)
    Writer.octets message
  else throw (.fieldTooLong "short_message" 255)

def ShortMessage.read : Reader ShortMessage := do
  let serviceType ← TextField.serviceType.read
  let source ← Address.read .sourceAddress
  let destination ← Address.read .destinationAddress
  let esmClass ← Reader.octet "esm_class"
  let protocolId ← Reader.octet "protocol_id"
  let priorityFlag ← Reader.octet "priority_flag"
  let scheduleDeliveryTime ← TextField.scheduleDeliveryTime.read
  let validityPeriod ← TextField.validityPeriod.read
  let registeredDelivery ← Reader.octet "registered_delivery"
  let replaceIfPresent ← Reader.octet "replace_if_present_flag"
  let dataCoding ← Reader.octet "data_coding"
  let defaultMessageId ← Reader.octet "sm_default_msg_id"
  let octets ← readShortMessageOctets
  let tlvs ← TlvMap.read
  return { serviceType, source, destination, esmClass, protocolId, priorityFlag,
           scheduleDeliveryTime, validityPeriod, registeredDelivery, replaceIfPresent, dataCoding,
           defaultMessageId, octets, tlvs }

def ShortMessage.write (m : ShortMessage) : Writer Unit := do
  TextField.serviceType.write m.serviceType
  m.source.write .sourceAddress
  m.destination.write .destinationAddress
  Writer.octet m.esmClass
  Writer.octet m.protocolId
  Writer.octet m.priorityFlag
  TextField.scheduleDeliveryTime.write m.scheduleDeliveryTime
  TextField.validityPeriod.write m.validityPeriod
  Writer.octet m.registeredDelivery
  Writer.octet m.replaceIfPresent
  Writer.octet m.dataCoding
  Writer.octet m.defaultMessageId
  writeShortMessageOctets m.octets
  m.tlvs.write

namespace Pdu

/-- Reads the body of a command. -/
def read : Command → Reader Pdu
  | .bindTransmitter => bind .transmitter <$> BindParameters.read
  | .bindReceiver => bind .receiver <$> BindParameters.read
  | .bindTransceiver => bind .transceiver <$> BindParameters.read
  | .bindTransmitterResp => bindResp .transmitter <$> BindResponse.read
  | .bindReceiverResp => bindResp .receiver <$> BindResponse.read
  | .bindTransceiverResp => bindResp .transceiver <$> BindResponse.read
  | .submitSm => submitSm <$> ShortMessage.read
  | .deliverSm => deliverSm <$> ShortMessage.read
  | .submitSmResp => submitSmResp <$> MessageResponse.read
  | .deliverSmResp => deliverSmResp <$> MessageResponse.read
  | .enquireLink => pure enquireLink
  | .enquireLinkResp => pure enquireLinkResp
  | .unbind => pure unbind
  | .unbindResp => pure unbindResp
  | .genericNack => pure genericNack
  | .other code => other code <$> Reader.rest

/-- Writes a body. A field that does not fit is an error, and nothing is cut to fit. -/
def write : Pdu → Writer Unit
  | .bind _ b => b.write
  | .bindResp _ r => r.write
  | .submitSm m => m.write
  | .deliverSm m => m.write
  | .submitSmResp r => r.write
  | .deliverSmResp r => r.write
  | .enquireLink => pure ()
  | .enquireLinkResp => pure ()
  | .unbind => pure ()
  | .unbindResp => pure ()
  | .genericNack => pure ()
  | .other _ body => Writer.octets body

end Pdu

end Smsc
