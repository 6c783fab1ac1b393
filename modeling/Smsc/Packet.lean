import Smsc.Pdu.Status
import Smsc.Pdu.Basic

/-!
# Smsc.Packet — requests and responses as values

What a packet processor sees: no wire PDUs, only what it can act on.

* `Request`: a request in either direction;
* `Reply`: how a processor answers one;
* `Received`: the client's response to a request of the server.
-/

namespace Smsc

/-- A client asking to be bound. -/
structure BindRequest where
  type : BindType
  systemId : String
  password : String
  systemType : String
  addressRange : String
  deriving DecidableEq, Repr

/-- A short message, to or from the client. -/
structure Message where
  source : Address
  destination : Address
  esmClass : UInt8
  registeredDelivery : UInt8
  dataCoding : UInt8
  octets : List UInt8
  tlvs : TlvMap
  deriving DecidableEq, Repr

/-- What is asked. -/
inductive RequestBody where
  | bind (request : BindRequest)
  | submitSm (message : Message)
  | deliverSm (message : Message)
  | enquireLink
  | unbind
  /-- A request that is not modelled; only its command is kept. -/
  | other (command : Command)
  deriving DecidableEq, Repr

/-- A request. One to the client may leave its number open; the session draws one then. -/
structure Request where
  sequence : Option UInt32
  body : RequestBody
  deriving DecidableEq, Repr

def RequestBody.command : RequestBody → Command
  | bind request => request.type.command
  | submitSm _ => .submitSm
  | deliverSm _ => .deliverSm
  | enquireLink => .enquireLink
  | unbind => .unbind
  | other command => command

def Request.command (r : Request) : Command := r.body.command

/-- An unbind without a number. -/
def Request.unbind : Request := ⟨none, .unbind⟩

/-- The answer of a processor. The message id counts in the answer to submit_sm only. -/
structure Reply where
  status : Status
  messageId : Option String
  deriving DecidableEq, Repr, Inhabited

namespace Reply

def ok : Reply := ⟨.ok, none⟩

def accepted (messageId : String) : Reply := ⟨.ok, some messageId⟩

end Reply

/-- The client's response to a request of the server. -/
structure Received where
  command : Command
  sequence : UInt32
  status : Status
  messageId : Option String
  deriving DecidableEq, Repr

def Received.isOk (r : Received) : Bool := r.status.isOk

end Smsc
