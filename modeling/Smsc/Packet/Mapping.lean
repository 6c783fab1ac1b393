import Smsc.Packet
import Smsc.Pdu.Frame

/-!
# Smsc.Packet.Mapping — between frames and packet values

* `Request.ofFrame`: an inbound request as the processor sees it;
* `Request.toFrame?`: a request to the client as a frame;
* `Received.ofFrame`: the client's response.
-/

namespace Smsc

def BindRequest.ofParameters (type : BindType) (b : BindParameters) : BindRequest :=
  { type, systemId := b.systemId, password := b.password, systemType := b.systemType,
    addressRange := b.addressRange }

/-- A bind of version 3.4 with no type or plan for its address range. -/
def BindRequest.toParameters (r : BindRequest) : BindParameters :=
  { systemId := r.systemId, password := r.password, systemType := r.systemType,
    interfaceVersion := Tlv.version34, addressTon := 0, addressNpi := 0,
    addressRange := r.addressRange }

def Message.ofShortMessage (m : ShortMessage) : Message :=
  { source := m.source, destination := m.destination, esmClass := m.esmClass,
    registeredDelivery := m.registeredDelivery, dataCoding := m.dataCoding, octets := m.octets,
    tlvs := m.tlvs }

/-- A message with every field that `Message` does not know left empty. -/
def Message.toShortMessage (m : Message) : ShortMessage :=
  { serviceType := "", source := m.source, destination := m.destination, esmClass := m.esmClass,
    protocolId := 0, priorityFlag := 0, scheduleDeliveryTime := "", validityPeriod := "",
    registeredDelivery := m.registeredDelivery, replaceIfPresent := 0, dataCoding := m.dataCoding,
    defaultMessageId := 0, octets := m.octets, tlvs := m.tlvs }

/-- A frame as a request; a body that is no modelled request leaves the header's command only. -/
def Request.ofFrame (f : Frame) : Request where
  sequence := some f.sequence
  body :=
    match f.pdu with
    | .bind type b => .bind (.ofParameters type b)
    | .submitSm m => .submitSm (.ofShortMessage m)
    | .deliverSm m => .deliverSm (.ofShortMessage m)
    | .enquireLink => .enquireLink
    | .unbind => .unbind
    | _ => .other f.command

/-- The wire body of a request; a request that is not modelled has none. -/
def RequestBody.toPdu? : RequestBody → Option Pdu
  | .bind r => some (.bind r.type r.toParameters)
  | .submitSm m => some (.submitSm m.toShortMessage)
  | .deliverSm m => some (.deliverSm m.toShortMessage)
  | .enquireLink => some .enquireLink
  | .unbind => some .unbind
  | .other _ => none

/-- A request as a frame under a sequence number. -/
def Request.toFrame? (r : Request) (sequence : UInt32) : Option Frame :=
  (Frame.request sequence ·) <$> r.body.toPdu?

/-- A response frame; an empty message id is none. -/
def Received.ofFrame (f : Frame) : Received where
  command := f.command
  sequence := f.sequence
  status := f.status
  messageId :=
    match f.pdu with
    | .submitSmResp r | .deliverSmResp r =>
      if r.messageId.isEmpty then none else some r.messageId
    | _ => none

end Smsc
