import Smsc.Server.Run
import Smsc.Simulation.Session
import Smsc.Text.Quoted

/-!
# Smsc.Simulation.Server — a server, its clients and its callers

A server is started and stopped, clients connect and write octets, and published objects are looked
at and operated, on a clock that moves only on command. The host decides whether the address can be
had and whether clients get through to it.

* `Host`; `ServerCommand`: what can be asked for; `ServerSimulation.perform` does it;
* `ServerReport`: what came of it. A client that the network keeps away ends the simulation.
-/

namespace Smsc.Simulation

/-- What server and clients run on. -/
structure Host where
  /-- Why the server's address cannot be had, if it cannot. -/
  bindFault : Option String
  /-- The address that the server gets. -/
  address : SocketAddress
  /-- Why clients do not get through to the server, if they do not. -/
  connectFault : Option String
  deriving Repr

structure Client where
  name : String
  /-- The number of its session, if it got one. -/
  session : Option Nat
  /-- What the server has written since the last report. -/
  received : List (List UInt8)
  /-- The server has closed the connection. -/
  isClosed : Bool
  deriving Repr

/-- A call of a session under a handle. -/
structure ServerCall where
  session : Nat
  call : NamedCall
  deriving Repr

structure ServerSimulation where
  host : Host
  server : Server
  /-- Nobody holds the server any more. -/
  isDropped : Bool
  /-- The directory that the server may be published in. -/
  directory : Directory ManagedObject
  /-- Objects that were kept, by name. -/
  saved : List (String × ManagedObject)
  processors : List ScriptedProcessor
  clients : List Client
  named : List ServerCall
  /-- The server has listened at least once. -/
  hasListened : Bool
  deriving Repr

/-- What can be asked for. -/
inductive ServerCommand where
  | start
  | stop
  | connect (client : String)
  | write (client : String) (octets : List UInt8)
  | hangUp (client : String)
  | install (script : List Behaviour)
  | listen
  | send (index : Nat) (handle : String) (request : Request) (timeout : Duration)
  | close (index : Nat) (handle : String)
  | save (name : String)
  | attributes (name : String)
  | operate (name operation : String)
  | advance (millis : Nat)
  | drop
  deriving Repr

/-- The immediate answer to a command. -/
inductive ServerAnswer where
  | nothing
  | yesOrNo (b : Bool)
  | done (r : Except SessionError Unit)
  | managed (r : Except ManagementError Unit)
  | attributes (kvs : List (String × String))
  | notListening
  | noSuchSession
  | noSuchObject
  | gaveUp
  deriving Repr

/-- What came of a command. -/
structure ServerReport where
  answer : ServerAnswer
  /-- The server, unless it was dropped. -/
  server : Option Server
  clients : List Client
  /-- The names in use in the directory. -/
  names : List String
  ended : List (String × SessionEnding)
  /-- Requests that reached a processor, with the session's id and their frames. -/
  calls : List (UInt32 × Request × Frame)
  /-- What the listener was told. -/
  notices : List String
  measurements : List Measurement
  deriving Repr

end Simulation

/-- A short description for logs. -/
def Server.debugText (s : Server) : String :=
  let status := match s.status with
    | .stopped => "Stopped"
    | .starting => "Starting"
    | .started => "Started"
    | .stopping => "Stopping"
  let address := match s.endpoint with
    | none => "None"
    | some e => "Some(" ++ e.address.text ++ ")"
  "SmppServer \x7b name: " ++ quoted s.settings.name ++ ", status: " ++ status ++ ", local_addr: " ++
    address ++ " \x7d"

/-- The sessions in the registry, in the order in which they came. -/
def Server.current (s : Server) : List (Nat × Session) :=
  s.registered.toList.filterMap fun (_, n) => (s.session? n).map (n, ·)

namespace Simulation.ServerSimulation

/-- A stopped server. It is published in the directory, or nowhere. -/
def fresh (host : Host) (settings : ServerSettings) (sessionSettings : SessionSettings)
    (directory : Directory ManagedObject) (isPublished : Bool) : ServerSimulation :=
  let publication := if isPublished then some directory else none
  ⟨host, .fresh settings sessionSettings publication 0, false, directory, [], [.ofScript []], [], [],
    false⟩

/-- The directory as it is now. -/
def currentDirectory (s : ServerSimulation) : Directory ManagedObject :=
  s.server.publication.getD s.directory

/-! ## Tasks -/

/-- No session has so many tasks. -/
def taskLimit : Nat := 0x100000000

/-- Tasks of a session have odd numbers, tasks of the server even ones. -/
def sessionTask (n task : Nat) : Nat := 2 * (n * taskLimit + task) + 1

/-- What a task is: one of the server, or one of a session. -/
def taskOf (task : Nat) : Nat ⊕ Nat × Nat :=
  if task % 2 = 0 then .inl (task / 2) else .inr (task / 2 / taskLimit, task / 2 % taskLimit)

/-- Does a call of start wait for the host? -/
def asksHost (s : Server) (id : Nat) : Bool :=
  match s.findTask? id with
  | some { activity := .start .binding, .. } | some { activity := .start .naming, .. } => true
  | _ => false

/-- The host answers a call of start. -/
def answerStart (s : ServerSimulation) (id : Nat) : ServerSimulation :=
  match s.server.findTask? id with
  | some { activity := .start .binding, .. } =>
    { s with server := s.server.feel (.bound id (s.host.bindFault.elim (.ok ()) .error)) }
  | some { activity := .start .naming, .. } =>
    { s with server := s.server.feel (.named id (.ok s.host.address)), hasListened := true }
  | _ => s

def isReady (s : ServerSimulation) (task : Nat) : Bool :=
  match taskOf task with
  | .inl id => asksHost s.server id || s.server.can (.task id)
  | .inr (n, k) =>
    match s.server.session? n with
    | none => false
    | some x =>
      (k = 0 && SessionSimulation.isCalling x && s.server.isServed n) ||
        (SessionSimulation.move? x k).any fun m => s.server.can (.session n m)

/-- Lets the processor that a session calls plan its work. -/
def callProcessor (s : ServerSimulation) (n processor : Nat) (request : Request) : ServerSimulation :=
  let (plan, next) := (s.processors[processor]?.getD (.ofScript [])).plan request
  { s with
    server := s.server.feel (.session n (.begin plan))
    processors := s.processors.set processor next }

def step (s : ServerSimulation) (task : Nat) : ServerSimulation :=
  match taskOf task with
  | .inl id =>
    if asksHost s.server id then s.answerStart id else { s with server := s.server.move (.task id) }
  | .inr (n, k) =>
    match s.server.session? n with
    | none => s
    | some x =>
      match x.reader, k with
      | .calling _ processor request, 0 => s.callProcessor n processor request
      | _, _ =>
        match SessionSimulation.move? x k with
        | some m => { s with server := s.server.move (.session n m) }
        | none => s

def tasks (s : ServerSimulation) : List Nat :=
  let ofSession (n : Nat) (x : Session) : List Nat :=
    (0 :: (x.calls.map (·.id) ++ x.answers.map (·.id)).mergeSort).map (sessionTask n)
  s.server.tasks.map (2 * ·.id) ++ (s.server.sessions.mapIdx ofSession).flatten

def machine : Machine ServerSimulation where
  tasks := tasks
  isReady := isReady
  step := step
  elapse s d := { s with server := s.server.feel (.elapse d) }

/-! ## Commands -/

/-- Starts or stops the server, and waits for the end of the call. -/
def operateServer (s : ServerSimulation) (o : ServerOperation) :
    ServerSimulation × Option (Except SessionError Unit) :=
  let id := s.server.nextTask
  let x : ServerStimulus := match o with
    | .start => .start
    | .stop => .stop
  let s := machine.settle { s with server := s.server.feel x }
  (s, match s.server.findTask? id with
    | some { activity := .start (.finished r), .. } => some r
    | some { activity := .stop .finished, .. } => some (.ok ())
    | _ => none)

def client? (s : ServerSimulation) (name : String) : Option Client :=
  s.clients.find? (·.name = name)

/-- Something comes from a client to its session. -/
def feelClient (s : ServerSimulation) (name : String) (x : Stimulus) : ServerSimulation :=
  match (s.client? name).bind (·.session) with
  | some n => machine.settle { s with server := s.server.feel (.session n x) }
  | none => s

/-- A client gets through to the server. -/
def connect (s : ServerSimulation) (name : String) : ServerSimulation :=
  let n := s.server.sessions.length
  let s := match s.server.endpoint, s.isDropped with
    | some e, false =>
      machine.settle { s with server := s.server.feel (.connect e.acceptor ⟨s.host.address, true⟩) }
    | _, _ => s
  let session := if n < s.server.sessions.length then some n else none
  { s with clients := s.clients.filter (·.name ≠ name) ++ [⟨name, session, [], session.isNone⟩] }

/-- Starts a call of a session under a handle. -/
def startCall (s : ServerSimulation) (n : Nat) (x : Session) (handle : String) (form : CallForm)
    (stimulus : Stimulus) : ServerSimulation :=
  { s with
    server := s.server.feel (.session n stimulus)
    named := s.named ++ [⟨n, ⟨handle, x.nextTask, form⟩⟩] }

/-- The object of a name: first among those that were kept. -/
def object? (s : ServerSimulation) (name : String) : Option ManagedObject :=
  (s.saved.lookup name).orElse fun _ => s.currentDirectory.find? name

/-- Does a session's task or anybody else still hold the server? -/
def isHeld (s : ServerSimulation) : Bool :=
  !s.isDropped || s.server.tasks.any fun t =>
    match t.activity with
    | .serve _ _ .finished => false
    | .serve .. => true
    | _ => false

/-- A session, as long as the registry, its task or a call holds it. -/
def heldSession? (s : ServerSimulation) (n : Nat) : Option Session :=
  let isServed := s.server.tasks.any fun t =>
    match t.activity with
    | .serve _ _ .finished => false
    | .serve _ m _ => m = n
    | _ => false
  if isServed || s.server.current.any (·.1 = n) || s.named.any (·.session = n) then
    s.server.session? n
  else none

def attributesOf (s : ServerSimulation) : ManagedObject → List (String × String)
  | .server => if s.isHeld then s.server.attributes else []
  | .session n => (s.heldSession? n).elim [] (·.attributes 0)
  | .other kvs => kvs

/-- Operates an object and waits for the end of the operation. -/
def operate (s : ServerSimulation) (operation : String) :
    ManagedObject → ServerSimulation × ServerAnswer
  | .server =>
    if !s.isHeld then (s, .managed (.error .released))
    else
      match ServerOperation.ofName? operation with
      | .error e => (s, .managed (.error e))
      | .ok o =>
        match s.operateServer o with
        | (s, some (.ok ())) => (s, .managed (.ok ()))
        | (s, some (.error e)) => (s, .managed (.error (.failed e.message)))
        | (s, none) => (s, .gaveUp)
  | .session n =>
    match s.heldSession? n, SessionOperation.ofName? operation with
    | none, _ => (s, .managed (.error .released))
    | some _, .error e => (s, .managed (.error e))
    | some x, .ok .close =>
      let s := machine.settle { s with server := s.server.feel (.session n .close) }
      match (s.server.session? n).bind (·.findCall? x.nextTask) with
      | some { stage := .finished r, .. } => (s, .managed r.asOperation)
      | _ => (s, .gaveUp)
  | .other _ => (s, .managed (.error (.unknownOperation operation)))

/-- The sessions that a holder of the server sees. -/
def visible (s : ServerSimulation) : List (Nat × Session) :=
  if s.isDropped then [] else s.server.current

/-- Operates the server through its holder. -/
def holderOperates (s : ServerSimulation) (o : ServerOperation) : ServerSimulation × ServerAnswer :=
  if s.isDropped then (s, .nothing)
  else
    match s.operateServer o with
    | (s, some r) => (s, .done r)
    | (s, none) => (s, .gaveUp)

/-- The command itself. Nothing can be asked of a server that was dropped. -/
def act (s : ServerSimulation) : ServerCommand → ServerSimulation × ServerAnswer
  | .start => s.holderOperates .start
  | .stop => s.holderOperates .stop
  | .connect name => if s.hasListened then (s.connect name, .nothing) else (s, .notListening)
  | .write name octets => (s.feelClient name (.arrive octets), .nothing)
  | .hangUp name => (s.feelClient name .endInput, .nothing)
  | .install script =>
    if s.isDropped then (s, .nothing)
    else
      ({ s with
          server := s.server.feel (.install s.processors.length)
          processors := s.processors ++ [.ofScript script] }, .yesOrNo true)
  | .listen =>
    (if s.isDropped then s else { s with server := s.server.feel .listen }, .nothing)
  | .send index handle request timeout =>
    match s.visible[index]? with
    | some (n, x) => (s.startCall n x handle .plain (.send request timeout), .nothing)
    | none => (s, .noSuchSession)
  | .close index handle =>
    match s.visible[index]? with
    | some (n, x) => (s.startCall n x handle .plain .close, .nothing)
    | none => (s, .noSuchSession)
  | .save name =>
    match s.currentDirectory.find? name with
    | some o => ({ s with saved := (name, o) :: s.saved }, .nothing)
    | none => (s, .nothing)
  | .attributes name =>
    match s.object? name with
    | some o => (s, .attributes (s.attributesOf o))
    | none => (s, .noSuchObject)
  | .operate name operation =>
    match s.object? name with
    | some o => s.operate operation o
    | none => (s, .noSuchObject)
  | .advance millis => (machine.advance millis s, .nothing)
  | .drop =>
    if s.isDropped then (s, .yesOrNo false)
    else
      let s := { s with isDropped := true }
      (s, .yesOrNo !s.isHeld)

/-! ## Reports -/

/-- Takes the calls that have ended out of their sessions. -/
def collect (s : ServerSimulation) : ServerSimulation × List (String × SessionEnding) :=
  let ending? (c : ServerCall) : Option (String × SessionEnding) :=
    (s.server.session? c.session).bind fun x => SessionSimulation.ending? x c.call
  let (ended, going) := s.named.partition fun c => (ending? c).isSome
  ({ s with
      server := ended.foldl (fun t c => t.feel (.session c.session (.drop c.call.id))) s.server
      named := going },
    ended.filterMap ending?)

/-- What a listener is told, as text. -/
def noticeText? (s : Server) : ServerEvent → Option String
  | .created n status => some ("created " ++ idText n ++ " " ++ status.name)
  | .destroyed n status => some ("destroyed " ++ idText n ++ " " ++ status.name)
  | _ => none
where
  idText (n : Nat) : String := toString ((s.session? n).elim 0 (·.id)).toNat

def measurementsOf (es : List ServerEvent) : List Measurement :=
  es.filterMap fun
    | .measured m => some m
    | _ => none

/-- Forgets what has been reported. -/
def clearLogs (s : ServerSimulation) : ServerSimulation :=
  let clear (x : Session) : Session := { x with log := [] }
  { s with server := { s.server with log := [], sessions := s.server.sessions.map clear } }

/-- A client as it is now, with what its session has written. -/
def refreshClient (s : Server) (c : Client) : Client :=
  match c.session.bind s.session? with
  | none => { c with received := [] }
  | some x =>
    { c with
      received := SessionSimulation.writesOf x.log.reverse
      isClosed := !x.channel.isConnected }

/-- Does what a command asks for, and lets everybody go on as far as they get. The error is the
reason why a client did not get through. -/
def perform (s : ServerSimulation) (c : ServerCommand) :
    Except String (ServerSimulation × ServerReport) :=
  match c, s.hasListened, s.host.connectFault with
  | .connect _, true, some cause => .error cause
  | _, _, _ =>
    let (s, answer) := s.clearLogs.act c
    let (s, ended) := (machine.settle s).collect
    let s := { s with clients := s.clients.map (refreshClient s.server) }
    let events := s.server.log.reverse
    let callsOf (x : Session) : List (UInt32 × Request × Frame) :=
      (SessionSimulation.callsOf x x.log.reverse).map (x.id, ·)
    .ok (s, {
      answer
      server := if s.isDropped then none else some s.server
      clients := s.clients
      names := s.currentDirectory.keys
      ended := ended.mergeSort fun a b => a.1 ≤ b.1
      calls := s.server.sessions.flatMap callsOf
      notices := events.filterMap (noticeText? s.server)
      measurements := measurementsOf events ++
        s.server.sessions.flatMap fun x => SessionSimulation.measurementsOf x.log.reverse })

/-- Does one command after the other. -/
def run (s : ServerSimulation) : List ServerCommand → Except String (List ServerReport)
  | [] => .ok []
  | c :: cs => do
    let (s, report) ← s.perform c
    return report :: (← s.run cs)

end Simulation.ServerSimulation

end Smsc
