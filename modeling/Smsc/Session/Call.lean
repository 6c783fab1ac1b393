import Smsc.Session.Output

/-!
# Smsc.Session.Call — requests to the client, and replies from outside the reader

A call offers its request to the window, writes it, and waits for the response. It gives its place
in the window back however it ends.

* `Session.stepCall`: a call goes on to its next wait;
* `Session.dropCall`: a call is given up where it is;
* `Session.stepAnswer`, `Session.dropAnswer`: a late reply goes on, or is given up.
-/

namespace Smsc.Session

/-- The largest number drawn for a request; after it comes 1. -/
def maxSequence : Nat := 0x7FFFFFFF

/-- Draws a number for a request. -/
def drawSequence (s : Session) : Session × UInt32 :=
  let n := if maxSequence ≤ s.lastSequence then 1 else s.lastSequence + 1
  ({ s with lastSequence := n }, .ofNat n)

/-- May the server send the client such a request? -/
def maySend : Command → Bool
  | .deliverSm | .enquireLink | .unbind => true
  | _ => false

/-- Ends a call. A close that could not unbind disconnects. -/
def conclude (s : Session) (c : Call) (r : Except SessionError Received) : Session :=
  match c.purpose, r with
  | .request, .ok r => s.setCall c.id (.finished (.received r))
  | .request, .error e => s.setCall c.id (.finished (.failed e))
  | .close, .ok _ => s.setCall c.id (.finished .closed)
  | .close, .error _ =>
    match s.disconnect with
    | (s, .ok ()) => s.setCall c.id (.finished .closed)
    | (s, .error e) => s.setCall c.id (.finished (.failed (.channel e)))

/-- What follows from where the offer of a call has got to. -/
def afterOffer (s : Session) (c : Call) (frame : Frame) : Offered Frame → Session
  | .admitted entry => (s.measure (.windowOffer "accepted")).setCall c.id (.writing frame entry)
  | .refused e => (s.measure (.windowOffer "rejected")).conclude c (.error (.window e))
  | .waiting offer => s.setCall c.id (.queued frame offer)

/-- The number of a request: the caller's choice, or one drawn for it. -/
def sequenceFor (s : Session) (c : Call) : Session × UInt32 :=
  match c.request.sequence with
  | some sequence => (s, sequence)
  | none => s.drawSequence

/-- Offers the frame of a request to the window. -/
def offerFrame (s : Session) (c : Call) (sequence : UInt32) : Session :=
  match c.request.toFrame? sequence with
  | none =>
    s.conclude c (.error (.illegalArgument (c.request.command.name ++ " has no wire representation")))
  | some frame =>
    let (window, offered) :=
      s.window.offer s.now sequence frame s.settings.offerTimeout s.settings.expireTimeout
    { s with window }.afterOffer c frame offered

/-- Starts a call on a bound session: is it one the client may be sent, and is there room? -/
def sendRequest (s : Session) (c : Call) : Session :=
  if maySend c.request.command then
    let (s, sequence) := s.sequenceFor c
    s.offerFrame c sequence
  else
    s.conclude c (.error (.illegalArgument
      (c.request.command.name ++ " cannot be sent to the client, expected deliver_sm, enquire_link or unbind")))

/-- Starts a call. Only a close does something on a session that is not bound. -/
def startCall (s : Session) (c : Call) : Session :=
  if s.isBound then s.sendRequest c else s.conclude c (.error .notBound)

/-- Writes the frame of a call. If that fails, the entry is given up. -/
def writeCall (s : Session) (c : Call) (frame : Frame) (entry : Nat) : Session :=
  match s.transmit frame with
  | (s, .ok ()) =>
    s.setCall c.id (.awaiting frame s.now ⟨frame.sequence, entry, s.now + c.timeout.nanos⟩)
  | (s, .error e) =>
    { s with window := (s.window.withdraw frame.sequence entry).1 }.conclude c (.error (.channel e))

/-- Ends a call with a response. After an unbind the session is over, whatever the response is. -/
def respondCall (s : Session) (c : Call) (frame : Frame) (since : Instant) (response : Frame) :
    Session :=
  let s := s.measure (.requestDuration frame.command.name (.between since s.now))
  let s := if frame.command = .unbind then s.disconnect.1 else s
  s.conclude c (.ok (.ofFrame response))

/-- Looks for the response of a call. -/
def awaitCall (s : Session) (c : Call) (frame : Frame) (since : Instant) (x : Waiter) : Session :=
  match s.window.collect s.now x with
  | (window, none) => { s with window }
  | (window, some (.ok response)) => { s with window }.respondCall c frame since response
  | (window, some (.error (.timeout _))) =>
    ({ s with window }.measure (.windowTimeout frame.command.name)).conclude c
      (.error (.timeout frame.sequence c.timeout))
  | (window, some (.error e)) => { s with window }.conclude c (.error (.window e))

/-- Is a call able to go on? -/
def callIsReady (s : Session) (c : Call) : Bool :=
  match c.stage with
  | .starting => true
  | .queued _ offer => offer.isReady s.window s.now
  | .writing .. => !s.channel.isStalled
  | .awaiting _ _ x => x.isReady s.window s.now
  | .finished _ => false

/-- A call goes on to its next wait. -/
def stepCall (s : Session) (c : Call) : Session :=
  match c.stage with
  | .starting => s.startCall c
  | .queued frame offer =>
    let (window, offered) := s.window.resume s.now offer
    { s with window }.afterOffer c frame offered
  | .writing frame entry => s.writeCall c frame entry
  | .awaiting frame since x => s.awaitCall c frame since x
  | .finished _ => s

/-- Gives a call up. Its place in the queue or in the window is free at once. -/
def dropCall (s : Session) (c : Call) : Session :=
  let s := { s with calls := s.calls.filter (·.id ≠ c.id) }
  match c.stage with
  | .starting => s
  | .queued _ offer => { s with window := s.window.abandon offer }
  | .writing frame entry => { s with window := (s.window.withdraw frame.sequence entry).1 }
  | .awaiting frame _ x => { s with window := (s.window.withdraw frame.sequence x.id).1 }
  | .finished _ => s

/-- Is a late reply able to go on? -/
def answerIsReady (s : Session) (a : Answer) : Bool :=
  match a.stage with
  | .starting => true
  | .writing _ => !s.channel.isStalled
  | .finished _ => false

/-- A late reply goes on to its next wait. -/
def stepAnswer (s : Session) (a : Answer) : Session :=
  match a.stage with
  | .starting =>
    match s.openReply a.responder a.reply with
    | (s, some response) => s.setAnswer a.id (.writing response)
    | (s, none) => s.setAnswer a.id (.finished false)
  | .writing response => (s.closeReply a.responder response).setAnswer a.id (.finished true)
  | .finished _ => s

/-- Gives a late reply up. One that has ended stays on record, and a responder stays used. -/
def dropAnswer (s : Session) (a : Answer) : Session :=
  match a.stage with
  | .finished _ => s
  | _ => { s with answers := s.answers.filter (·.id ≠ a.id) }

end Smsc.Session
