import Smsc.Pdu.Basic
import Smsc.Pdu.Status

/-!
# Smsc.Pdu.Frame — a PDU with its header

* `Frame`: header and body; a frame read or built by `Frame.make` has the command of its body;
* `Frame.kind`: response, bind request, or any other request;
* `Frame.responseFor`: the response to a request, under the request's sequence number.
-/

namespace Smsc

/-- The header, without the length, which follows from the body. -/
structure Header where
  command : Command
  status : Status
  sequence : UInt32
  deriving DecidableEq, Repr

/-- What an inbound frame is to the session. -/
inductive FrameKind where
  /-- Any response, generic_nack among them. -/
  | response
  /-- One of the three bind requests. -/
  | bind (type : BindType)
  /-- Any other request. -/
  | request
  deriving DecidableEq, Repr

/-- A PDU: header and body. -/
structure Frame where
  header : Header
  pdu : Pdu
  deriving DecidableEq, Repr

namespace Frame

/-- A frame whose command follows the body. -/
def make (sequence : UInt32) (status : Status) (pdu : Pdu) : Frame :=
  ⟨⟨pdu.command, status, sequence⟩, pdu⟩

/-- A request; its status is OK. -/
def request (sequence : UInt32) (pdu : Pdu) : Frame := make sequence .ok pdu

def command (f : Frame) : Command := f.header.command

def status (f : Frame) : Status := f.header.status

def sequence (f : Frame) : UInt32 := f.header.sequence

/-- The header's command decides, whatever the body is. -/
def isResponse (f : Frame) : Bool := f.command.isResponse

/-- Sorts a frame for the session. -/
def kind (f : Frame) : FrameKind :=
  if f.isResponse then .response
  else
    match f.pdu with
    | .bind type _ => .bind type
    | _ => .request

end Frame

/-- The body that answers a request; a request without a counterpart is answered by generic_nack. -/
def Pdu.response : Pdu → Pdu
  | .bind type _ => .bindResp type .empty
  | .submitSm _ => .submitSmResp .empty
  | .deliverSm _ => .deliverSmResp .empty
  | .enquireLink => .enquireLinkResp
  | .unbind => .unbindResp
  | _ => .genericNack

/-- The response to a request, with nothing filled in. -/
def Frame.responseFor (request : Frame) (status : Status) : Frame :=
  make request.sequence status request.pdu.response

end Smsc
