import Smsc.Management.Basic
import Smsc.Session.Run
import Smsc.Simulation.Schedule

/-!
# Smsc.Simulation.Session — a session, its client and its callers

Octets arrive, requests are sent under handles, replies are sent through kept responders, and the
clock moves only on command. Requests of the client are handled by scripted processors.

* `SessionCommand`: what can be asked for; `SessionSimulation.perform` does it and lets reader,
  calls and answers run as far as they get;
* `SessionReport`: what came of it.
-/

namespace Smsc.Simulation

/-- In which form the end of a call is reported. -/
inductive CallForm where
  | plain
  /-- As the end of an operation on the session's object. -/
  | operation
  deriving DecidableEq, Repr

/-- How something under a handle ends. -/
inductive SessionEnding where
  | call (r : CallResult)
  | operation (r : Except ManagementError Unit)
  deriving Repr

/-- A call under a handle. -/
structure NamedCall where
  handle : String
  id : Nat
  form : CallForm
  deriving Repr

/-- A session and what belongs to it. -/
structure SessionSimulation where
  session : Session
  /-- The processors that have been installed, by number. -/
  processors : List ScriptedProcessor
  /-- Responders handed to a standard behaviour, whose replies are not reported. -/
  unreported : List Nat
  /-- Calls under handles that have not ended. -/
  named : List NamedCall
  /-- The newest call of each handle; nothing if it was refused at once. -/
  newest : List (String × Option Nat)
  /-- Responders that were kept, in the order of keeping. -/
  held : List Nat
  deriving Repr

namespace SessionSimulation

/-- A fresh session with one processor. -/
def fresh (id : UInt32) (peer : Option SocketAddress) (serverSystemId : String)
    (settings : SessionSettings) (script : List Behaviour) : SessionSimulation :=
  ⟨.fresh id peer serverSystemId settings 0 0, [.ofScript script], [], [], [], []⟩

/-- The first possible move of the reader. -/
def readerMove? (s : Session) : Option ReaderMove :=
  [ReaderMove.stop, .read, .sweep, .proceed].find? s.readerCan

/-- The move of a task: the reader is task 0, calls and answers have their own numbers. -/
def move? (s : Session) (task : Nat) : Option Move :=
  if task = 0 then (readerMove? s).map .reader
  else if (s.findCall? task).isSome then some (.call task)
  else some (.answer task)

/-- Is the processor about to be called? -/
def isCalling (s : Session) : Bool :=
  match s.reader with
  | .calling .. => true
  | _ => false

def isReady (s : SessionSimulation) (task : Nat) : Bool :=
  (task = 0 && isCalling s.session) || (move? s.session task).any s.session.can

/-- Lets the processor that is called plan its work. -/
def callProcessor (s : SessionSimulation) (responder processor : Nat) (request : Request) :
    SessionSimulation :=
  let p := s.processors[processor]?.getD (.ofScript [])
  let (plan, next) := p.plan request
  { s with
    session := s.session.feel (.begin plan)
    processors := s.processors.set processor next
    unreported := if p.isStandard then responder :: s.unreported else s.unreported }

def step (s : SessionSimulation) (task : Nat) : SessionSimulation :=
  match s.session.reader, task with
  | .calling responder processor request, 0 => s.callProcessor responder processor request
  | _, _ =>
    match move? s.session task with
    | some m => { s with session := s.session.move m }
    | none => s

def machine : Machine SessionSimulation where
  tasks s := 0 :: (s.session.calls.map (·.id) ++ s.session.answers.map (·.id)).mergeSort
  isReady := isReady
  step := step
  elapse s d := { s with session := s.session.feel (.elapse d) }

/-- Starts a call under a handle. -/
def startCall (s : SessionSimulation) (handle : String) (form : CallForm) (x : Stimulus) :
    SessionSimulation :=
  { s with
    session := s.session.feel x
    named := s.named ++ [⟨handle, s.session.nextTask, form⟩]
    newest := (handle, some s.session.nextTask) :: s.newest }

/-- Gives up the newest call of a handle, unless it has ended. -/
def abort (s : SessionSimulation) (handle : String) : SessionSimulation :=
  match s.named.find? fun c => s.newest.lookup handle = some (some c.id) with
  | none => s
  | some c =>
    { s with session := s.session.feel (.drop c.id), named := s.named.filter (·.id ≠ c.id) }

/-- The end of a call, if it has come. -/
def ending? (s : Session) (c : NamedCall) : Option (String × SessionEnding) :=
  match s.findCall? c.id with
  | some { stage := .finished r, .. } =>
    some (c.handle, match c.form with
      | .plain => .call r
      | .operation => .operation r.asOperation)
  | _ => none

/-- Takes the calls that have ended out of the session. -/
def collect (s : SessionSimulation) : SessionSimulation × List (String × SessionEnding) :=
  let (ended, going) := s.named.partition fun c => (ending? s.session c).isSome
  ({ s with
      session := ended.foldl (fun t c => t.feel (.drop c.id)) s.session
      named := going },
    ended.filterMap (ending? s.session))

end SessionSimulation

/-- What can be asked for. -/
inductive SessionCommand where
  | feed (octets : List UInt8)
  | endInput
  | send (handle : String) (request : Request) (timeout : Duration)
  | close (handle : String)
  | disconnect
  | operate (handle operation : String)
  | attributes
  | accessors
  | abort (handle : String)
  | advance (millis : Nat)
  | install (script : List Behaviour)
  | failWrites (on : Bool)
  | failDisconnects (on : Bool)
  | reply (index : Nat) (reply : Reply)
  deriving Repr

/-- The immediate answer to a command. -/
inductive SessionAnswer where
  | nothing
  | disconnected (r : Except ChannelError Unit)
  | attributes (kvs : List (String × String))
  | accessors
  | noSuchResponder
  /-- A reply was sent or refused: what the responder was like before and after. -/
  | replied (wasSent sent isSent : Bool) (debug : String)
  deriving Repr

/-- What came of a command. -/
structure SessionReport where
  answer : SessionAnswer
  writes : List (List UInt8)
  /-- Requests that reached the processor, with their frames. -/
  calls : List (Request × Frame)
  /-- What became of the replies that the processor sent. -/
  sends : List Bool
  ended : List (String × SessionEnding)
  held : Nat
  measurements : List Measurement
  session : Session
  deriving Repr

namespace SessionSimulation

/-- The command itself. Only a reply and the passing of time let anybody go on already. -/
def act (s : SessionSimulation) :
    SessionCommand → SessionSimulation × SessionAnswer × List (String × SessionEnding)
  | .feed octets => ({ s with session := s.session.feel (.arrive octets) }, .nothing, [])
  | .endInput => ({ s with session := s.session.feel .endInput }, .nothing, [])
  | .send handle request timeout => (s.startCall handle .plain (.send request timeout), .nothing, [])
  | .close handle => (s.startCall handle .plain .close, .nothing, [])
  | .disconnect =>
    let (session, r) := s.session.disconnect
    ({ s with session }, .disconnected r, [])
  | .operate handle operation =>
    match SessionOperation.ofName? operation with
    | .ok .close => (s.startCall handle .operation .close, .nothing, [])
    | .error e =>
      ({ s with newest := (handle, none) :: s.newest }, .nothing, [(handle, .operation (.error e))])
  | .attributes => (s, .attributes (s.session.attributes 0), [])
  | .accessors => (s, .accessors, [])
  | .abort handle => (s.abort handle, .nothing, [])
  | .advance millis => (machine.advance millis s, .nothing, [])
  | .install script =>
    ({ s with
        session := s.session.feel (.install s.processors.length)
        processors := s.processors ++ [.ofScript script] }, .nothing, [])
  | .failWrites on => ({ s with session := s.session.feel (.failWrites on) }, .nothing, [])
  | .failDisconnects on => ({ s with session := s.session.feel (.failDisconnects on) }, .nothing, [])
  | .reply index reply =>
    match s.held[index]?.bind fun i => (s.session.responder? i).map (i, ·) with
    | none => (s, .noSuchResponder, [])
    | some (i, before) =>
      let id := s.session.nextTask
      let s := machine.settle { s with session := s.session.feel (.answer i reply) }
      let sent := (s.session.findAnswer? id).any (·.stage = .finished true)
      let after := (s.session.responder? i).getD before
      ({ s with session := { s.session with answers := [] } },
        .replied before.isSent sent after.isSent (s.session.responderText after), [])

def writesOf (es : List SessionEvent) : List (List UInt8) :=
  es.filterMap fun
    | .wrote _ octets => some octets
    | _ => none

def callsOf (s : Session) (es : List SessionEvent) : List (Request × Frame) :=
  es.filterMap fun
    | .called i _ request => (s.responder? i).map fun r => (request, r.request)
    | _ => none

def sendsOf (unreported : List Nat) (es : List SessionEvent) : List Bool :=
  es.filterMap fun
    | .replied i sent => if i ∈ unreported then none else some sent
    | _ => none

def heldOf (es : List SessionEvent) : List Nat :=
  es.filterMap fun
    | .held i => some i
    | _ => none

def measurementsOf (es : List SessionEvent) : List Measurement :=
  es.filterMap fun
    | .measured m => some m
    | _ => none

/-- Does what a command asks for, and lets everybody go on as far as they get. -/
def perform (s : SessionSimulation) (c : SessionCommand) : SessionSimulation × SessionReport :=
  let (s', answer, atOnce) := { s with session := { s.session with log := [] } }.act c
  let (s', ended) := (machine.settle s').collect
  let events := s'.session.log.reverse
  let s' := { s' with held := s'.held ++ heldOf events }
  (s', {
    answer
    writes := writesOf events
    calls := callsOf s'.session events
    sends := sendsOf s'.unreported events
    ended := (atOnce ++ ended).mergeSort fun a b => a.1 ≤ b.1
    held := s'.held.length
    measurements := measurementsOf events
    session := s'.session })

def runFrom (s : SessionSimulation) : List SessionCommand → List SessionReport
  | [] => []
  | c :: cs =>
    let (s, report) := s.perform c
    report :: s.runFrom cs

/-- Starts the reader, then does one command after the other. -/
def run (s : SessionSimulation) (cs : List SessionCommand) : List SessionReport :=
  (machine.settle s).runFrom cs

end SessionSimulation

end Smsc.Simulation
