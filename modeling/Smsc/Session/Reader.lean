import Smsc.Session.Output

/-!
# Smsc.Session.Reader — what comes in

The reader handles one frame at a time and sweeps expired requests once a second. While the
processor is at work on a request, it does neither.

* `Session.handleFrame`: the rules by kind of frame and status of the session;
* `ReaderMove`: what the reader can do next; `Session.readerCan` and `Session.moveReader`.
-/

namespace Smsc

/-- From one sweep to the next. -/
def sweepInterval : Duration := .ofMillis 1000

/-- A sweep that is later than this shifts the ones after it. -/
def sweepTolerance : Duration := .ofMillis 5

namespace Session

/-- Ends a frame's handling. -/
def rest (s : Session) : Session := { s with reader := .waiting }

/-- Completes the request that a response answers. -/
def handleResponse (s : Session) (f : Frame) : Session :=
  match s.window.complete s.now f.sequence f with
  | (window, some _) => { s with window }
  | (_, none) => s.measure .windowUnmatched

/-- Prepares the answer to a request that the state of the session does not allow. -/
def reject (s : Session) (request : Frame) (status : Status) : Session :=
  { s.measure (.stateRejection status.name) with
    reader := .rejecting (Frame.responseFor request status) }

/-- Hands a request to the processor in charge. -/
def dispatch (s : Session) (f : Frame) : Session :=
  let responder := s.responders.length
  let s := { s with responders := s.responders ++ [Responder.mk f false] }
  { s.note (.called responder s.processor (.ofFrame f)) with
    reader := .calling responder s.processor (.ofFrame f) }

/-- Puts a frame down as received. -/
def receive (s : Session) (f : Frame) : Session :=
  (s.note (.received f)).measure (.pduReceived f.command.name)

/-- Handles a frame. A closed session drops it; a response completes a request; a bind while bound
and any other request before the bind are refused; the rest goes to the processor. -/
def handleFrame (s : Session) (f : Frame) : Session :=
  let s := s.receive f
  match s.status, f.kind with
  | .closed, _ => s.disconnect.1
  | _, .response => s.handleResponse f
  | .bound, .bind _ => s.reject f .alreadyBound
  | .opened, .request => s.reject f .invalidBindStatus
  | _, _ => s.dispatch f

/-- Ends the reader, and with it the session. -/
def finishReader (s : Session) : Session := { s.disconnect.1 with reader := .finished }

/-- What the input gives next; at its end, octets that are no whole frame are a fault. -/
def nextInput (s : Session) : Frame.Taken :=
  if s.inputEnded then Frame.takeEnd? s.input else Frame.take? s.input

/-- Takes what the input gives next. A fault or the end of the input ends the reader. -/
def readInput (s : Session) : Session :=
  match s.nextInput with
  | .frame f rest => { s with input := rest }.handleFrame f
  | .fault _ rest => { s with input := rest }.measure (.pduError "decode") |>.finishReader
  | .incomplete => s.finishReader

/-- Reclaims requests that have waited too long, and plans the next sweep. -/
def sweep (s : Session) : Session :=
  let (window, expired) := s.window.expire s.now
  let s := { s with
    window
    nextSweep :=
      if s.nextSweep + sweepTolerance.nanos < s.now then s.now + sweepInterval.nanos
      else s.nextSweep + sweepInterval.nanos }
  if expired.isEmpty then s else s.measure (.windowExpired expired.length)

/-- Ends a call of the processor. -/
def endProcessing (s : Session) : Verdict → Session
  | .handled => s.rest
  | .failed _ => (s.measure (.processorError "error")).rest
  | .panicked => (s.measure (.processorError "panic")).rest

/-- Does the next thing of a processor's plan. -/
def work (s : Session) (responder : Nat) (plan : Plan) : Session :=
  match plan.actions with
  | [] => s.endProcessing plan.verdict
  | .pause d :: actions =>
    { s with reader := .pausing (s.now + d.nanos) responder { plan with actions } }
  | .hold :: actions =>
    { s.note (.held responder) with reader := .working responder { plan with actions } }
  | .send reply :: actions =>
    match s.openReply responder reply with
    | (s, some response) => { s with reader := .answering response responder { plan with actions } }
    | (s, none) =>
      { s.note (.replied responder false) with reader := .working responder { plan with actions } }

end Session

/-- What the reader can do next. Of several that are possible, any may come first. -/
inductive ReaderMove where
  /-- Heed the shutdown. -/
  | stop
  /-- Take what the input gives. -/
  | read
  /-- Reclaim expired requests. -/
  | sweep
  /-- Go on with the frame in hand. -/
  | proceed
  deriving DecidableEq, Repr

namespace Session

/-- Is a move of the reader possible? The call of the processor waits for `Session.beginWork`. -/
def readerCan (s : Session) (m : ReaderMove) : Bool :=
  match m, s.reader with
  | .stop, .waiting => s.isShutDown
  | .read, .waiting => s.inputEnded || s.nextInput ≠ .incomplete
  | .sweep, .waiting => s.nextSweep ≤ s.now
  | .proceed, .rejecting _ => !s.channel.isStalled
  | .proceed, .answering .. => !s.channel.isStalled
  | .proceed, .working .. => true
  | .proceed, .pausing wake _ _ => wake ≤ s.now
  | _, _ => false

/-- Does a move that is possible. -/
def moveReader (s : Session) (m : ReaderMove) : Session :=
  match m, s.reader with
  | .stop, .waiting => s.finishReader
  | .read, .waiting => s.readInput
  | .sweep, .waiting => s.sweep
  | .proceed, .rejecting response => (s.transmit response).1.rest
  | .proceed, .answering response responder plan =>
    { (s.closeReply responder response).note (.replied responder true) with
      reader := .working responder plan }
  | .proceed, .working responder plan => s.work responder plan
  | .proceed, .pausing _ responder plan => { s with reader := .working responder plan }
  | _, _ => s

/-- The processor takes the request in hand and will follow a plan. -/
def beginWork (s : Session) (plan : Plan) : Session :=
  match s.reader with
  | .calling responder _ _ => { s with reader := .working responder plan }
  | _ => s

end Session

end Smsc
