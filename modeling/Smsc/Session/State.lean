import Smsc.Metrics
import Smsc.Packet.Mapping
import Smsc.Pdu.Framing
import Smsc.Processor
import Smsc.Settings.Basic
import Smsc.Window.Offer

/-!
# Smsc.Session.State — everything a session knows

A session is one client's connection. It has a reader, which takes frames off the input one at a
time and hands requests to the processor; calls, by which the server sends requests of its own and
waits for the responses; and answers, by which somebody who kept a responder replies later. Each of
them is data here: where it has got to, and what it waits for.

* `SessionStatus`: open, bound, closed;
* `Session`: the state; `Session.fresh` is a new connection;
* `SessionEvent`: what the outside can see happen; `Session.log` keeps it, the newest first.
-/

namespace Smsc

inductive SessionStatus where
  /-- Connected, and waiting for a bind. -/
  | opened
  | bound
  /-- The end. -/
  | closed
  deriving DecidableEq, Repr

def SessionStatus.name : SessionStatus → String
  | opened => "OPEN"
  | bound => "BOUND"
  | closed => "CLOSED"

/-- Who is bound, and as what. -/
structure Binding where
  type : BindType
  systemId : String
  deriving DecidableEq, Repr

/-- The outbound side of a connection. -/
structure Channel where
  isConnected : Bool
  /-- Writes fail. -/
  failsWrites : Bool
  /-- Writes do not come to an end. -/
  isStalled : Bool
  /-- Writes go through even after it was told to disconnect, as one that was under way may. -/
  lingers : Bool
  /-- Disconnecting reports a failure. -/
  failsDisconnects : Bool
  /-- How often it was told to disconnect. -/
  disconnects : Nat
  deriving DecidableEq, Repr

def Channel.fresh : Channel := ⟨true, false, false, false, false, 0⟩

/-- Does a write fail? -/
def Channel.refuses (c : Channel) : Bool := c.failsWrites || !(c.isConnected || c.lingers)

/-- Through which a request is answered, once. -/
structure Responder where
  request : Frame
  isSent : Bool
  deriving DecidableEq, Repr

/-- What can be seen of a session from outside. -/
inductive SessionEvent where
  /-- A frame was taken off the input. -/
  | received (f : Frame)
  /-- A processor was called. -/
  | called (responder processor : Nat) (request : Request)
  /-- A reply was sent during a call of the processor, or refused. -/
  | replied (responder : Nat) (sent : Bool)
  /-- The processor kept the responder. -/
  | held (responder : Nat)
  /-- A frame went out. -/
  | wrote (f : Frame) (octets : List UInt8)
  /-- A frame was refused by the channel. -/
  | writeFailed (f : Frame)
  | measured (m : Measurement)
  deriving DecidableEq, Repr

/-- Where the reader has got to. -/
inductive Reader.Stage where
  /-- It waits for a frame, the next sweep, or the end. -/
  | waiting
  /-- A refusal is on its way out. -/
  | rejecting (response : Frame)
  /-- A processor is about to be called. -/
  | calling (responder processor : Nat) (request : Request)
  /-- The processor is at work. -/
  | working (responder : Nat) (plan : Plan)
  /-- The processor pauses. -/
  | pausing (wake : Instant) (responder : Nat) (plan : Plan)
  /-- A reply of the processor is on its way out. -/
  | answering (response : Frame) (responder : Nat) (plan : Plan)
  | finished
  deriving DecidableEq, Repr

/-- How a call ends. -/
inductive CallResult where
  | received (r : Received)
  | closed
  | failed (e : SessionError)
  deriving DecidableEq, Repr

/-- What a call is for. -/
inductive CallPurpose where
  /-- A request is sent, and its response returned. -/
  | request
  /-- The session is closed, with an unbind if it is bound. -/
  | close
  deriving DecidableEq, Repr

/-- Where a call has got to. -/
inductive CallStage where
  | starting
  /-- It waits for capacity. -/
  | queued (frame : Frame) (offer : PendingOffer Frame)
  /-- Its frame is on its way out. -/
  | writing (frame : Frame) (entry : Nat)
  /-- It waits for the response. -/
  | awaiting (frame : Frame) (since : Instant) (waiter : Waiter)
  | finished (result : CallResult)
  deriving DecidableEq, Repr

/-- A request of the server on its way to the client and back. -/
structure Call where
  id : Nat
  purpose : CallPurpose
  request : Request
  timeout : Duration
  stage : CallStage
  deriving DecidableEq, Repr

/-- Where a late reply has got to. -/
inductive AnswerStage where
  | starting
  | writing (response : Frame)
  | finished (sent : Bool)
  deriving DecidableEq, Repr

/-- A reply through a responder that was kept. -/
structure Answer where
  id : Nat
  responder : Nat
  reply : Reply
  stage : AnswerStage
  deriving DecidableEq, Repr

/-- One client's connection. -/
structure Session where
  id : UInt32
  peer : Option SocketAddress
  serverSystemId : String
  settings : SessionSettings
  status : SessionStatus
  binding : Option Binding
  window : Window Frame Frame
  /-- The number drawn last for a request of the server. -/
  lastSequence : Nat
  /-- Which processor handles the next request. -/
  processor : Nat
  /-- The reader has been told to stop. -/
  isShutDown : Bool
  channel : Channel
  /-- Octets that have arrived and are not handled yet. -/
  input : List UInt8
  /-- No more octets will arrive. -/
  inputEnded : Bool
  reader : Reader.Stage
  nextSweep : Instant
  responders : List Responder
  calls : List Call
  answers : List Answer
  /-- The id of the next call or answer. -/
  nextTask : Nat
  startedAt : Instant
  now : Instant
  /-- What has happened, the newest first. -/
  log : List SessionEvent
  deriving Repr

namespace Session

/-- A new connection, at a given time. -/
def fresh (id : UInt32) (peer : Option SocketAddress) (serverSystemId : String)
    (settings : SessionSettings) (processor : Nat) (now : Instant) : Session where
  id := id
  peer := peer
  serverSystemId := serverSystemId
  settings := settings
  status := .opened
  binding := none
  window := .ofCapacity settings.windowSize
  lastSequence := 0
  processor := processor
  isShutDown := false
  channel := .fresh
  input := []
  inputEnded := false
  reader := .waiting
  nextSweep := now
  responders := []
  calls := []
  answers := []
  nextTask := 1
  startedAt := now
  now := now
  log := []

/-! ## What can be asked -/

def isBound (s : Session) : Bool := s.status = .bound

/-- Who is bound; an error unless somebody is. -/
def bound? (s : Session) : Except SessionError Binding :=
  match s.status, s.binding with
  | .bound, some b => .ok b
  | _, _ => .error .notBound

def bindType (s : Session) : Except SessionError BindType := (·.type) <$> s.bound?

def systemId (s : Session) : Except SessionError String := (·.systemId) <$> s.bound?

/-- The role for display. -/
def bindTypeText (s : Session) : String :=
  match s.bindType with
  | .ok type => type.name
  | .error _ => "Session not bound"

/-- Requests of the server that await a response. -/
def pending (s : Session) : Nat := s.window.size

def lifetime (s : Session) : Duration := .between s.startedAt s.now

/-- A short description for logs. -/
def debugText (s : Session) : String :=
  let status := match s.status with
    | .opened => "Open"
    | .bound => "Bound"
    | .closed => "Closed"
  let peer := match s.peer with
    | none => "None"
    | some a => "Some(" ++ a.text ++ ")"
  "SmppSession \x7b id: " ++ toString s.id.toNat ++ ", status: " ++ status ++ ", peer_addr: " ++ peer ++
    " \x7d"

def responder? (s : Session) (i : Nat) : Option Responder := s.responders[i]?

/-- A short description of a responder for logs. -/
def responderText (s : Session) (r : Responder) : String :=
  "ResponseSender \x7b session: " ++ toString s.id.toNat ++ ", sequence: " ++
    toString r.request.sequence.toNat ++ ", sent: " ++ toString r.isSent ++ " \x7d"

/-! ## Small changes -/

def note (s : Session) (e : SessionEvent) : Session := { s with log := e :: s.log }

def measure (s : Session) (m : Measurement) : Session := s.note (.measured m)

def setCall (s : Session) (id : Nat) (stage : CallStage) : Session :=
  { s with calls := s.calls.map fun c => if c.id = id then { c with stage } else c }

def setAnswer (s : Session) (id : Nat) (stage : AnswerStage) : Session :=
  { s with answers := s.answers.map fun a => if a.id = id then { a with stage } else a }

end Session

end Smsc
