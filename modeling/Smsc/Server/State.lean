import Smsc.Management.Basic

/-!
# Smsc.Server.State — everything a server knows

A server listens, makes a session of each connection, and keeps the sessions in a registry until
they are over. What goes on at the same time is a list of tasks: calls of start and stop, loops that
accept connections, and one task for each session. Each task is data: where it has got to.

* `ServerStatus`: stopped, starting, started, stopping;
* `Change`: a session on its way into the registry or out of it;
* `Activity`: what a task does, and where it has got to;
* `Server`: the state; `Server.fresh` is a new one.
-/

namespace Smsc

inductive ServerStatus where
  | stopped
  | starting
  | started
  | stopping
  deriving DecidableEq, Repr

namespace ServerStatus

def name : ServerStatus → String
  | stopped => "STOPPED"
  | starting => "STARTING"
  | started => "STARTED"
  | stopping => "STOPPING"

/-- The status as a measurement. -/
def gauge : ServerStatus → Int
  | stopped => 0
  | starting => 1
  | started => 2
  | stopping => 3

end ServerStatus

/-- What is published under a name. -/
inductive ManagedObject where
  | server
  /-- A session, by number. -/
  | session (n : Nat)
  /-- Somebody else's object, which cannot be operated. -/
  | other (attributes : List (String × String))
  deriving DecidableEq, Repr

/-- A connection that a client has opened. -/
structure Arrival where
  peer : SocketAddress
  /-- Can its socket be set up? -/
  isUsable : Bool
  deriving DecidableEq, Repr

/-- Where a server listens, and the task that accepts connections there. -/
structure Endpoint where
  address : SocketAddress
  acceptor : Nat
  deriving DecidableEq, Repr

/-- What can be seen of a server from outside. -/
inductive ServerEvent where
  | measured (m : Measurement)
  /-- The listener was told of a new session, by number, and of its status. -/
  | created (n : Nat) (status : SessionStatus)
  /-- The listener was told of a session that is over, by number, and of its status. -/
  | destroyed (n : Nat) (status : SessionStatus)
  /-- A connection was dropped because the server was not started. -/
  | turnedAway (peer : SocketAddress)
  deriving DecidableEq, Repr

/-! ## Tasks -/

/-- What is to be done next about a session that has come into the registry or gone out of it. -/
inductive ChangeStage where
  | counting
  | recording (active : Nat)
  | publishing
  | announcing
  deriving DecidableEq, Repr

/-- A session that has come into the registry, or gone out of it. -/
structure Change where
  /-- The number of the session. -/
  session : Nat
  comes : Bool
  stage : ChangeStage
  deriving DecidableEq, Repr

/-- Where a call of start has got to. -/
inductive StartStage where
  | asking
  /-- It waits for the address. -/
  | binding
  /-- It listens, and waits to be told under which address. -/
  | naming
  | spawning (address : SocketAddress)
  | keepingEndpoint (address : SocketAddress) (acceptor : Nat)
  | keepingTime
  | storing
  | recording
  | givingUp (e : SessionError)
  | recordingFailure (e : SessionError)
  | finished (r : Except SessionError Unit)
  deriving Repr

/-- Where a call of stop has got to. It goes through the sessions twice; `rest` are the connections
and sessions still to come, and `isLast` tells the second pass. -/
inductive StopStage where
  | asking
  | listing (isLast : Bool)
  | disconnecting (rest : List (Nat × Nat)) (isLast : Bool)
  /-- The channel of the first of the rest has not closed yet. -/
  | waiting (wake : Instant) (rest : List (Nat × Nat)) (isLast : Bool)
  | removing (rest : List (Nat × Nat)) (isLast : Bool)
  | changing (change : Change) (rest : List (Nat × Nat)) (isLast : Bool)
  | takingEndpoint
  /-- It waits for the loop that accepts connections to end. -/
  | joining (acceptor : Nat)
  | clearingTime
  | storing
  | recording
  | finished
  deriving DecidableEq, Repr

/-- Where a loop that accepts connections has got to. -/
inductive AcceptStage where
  | waiting
  | checking (a : Arrival)
  | inserting (a : Arrival)
  | changing (connection : Nat) (change : Change)
  | finished
  deriving DecidableEq, Repr

/-- A loop that accepts connections. -/
structure Acceptor where
  stage : AcceptStage
  /-- It has been told to stop. -/
  isShutDown : Bool
  /-- Connections that wait to be accepted. -/
  backlog : List Arrival
  deriving DecidableEq, Repr

/-- Where the task of a session has got to. -/
inductive ServeStage where
  /-- The reader of the session is at work. -/
  | reading
  | removing
  | changing (change : Change)
  | finished
  deriving DecidableEq, Repr

/-- What a task does. -/
inductive Activity where
  | start (stage : StartStage)
  | stop (stage : StopStage)
  | accept (acceptor : Acceptor)
  | serve (connection session : Nat) (stage : ServeStage)
  deriving Repr

structure ServerTask where
  id : Nat
  activity : Activity
  deriving Repr

/-! ## Servers -/

structure Server where
  settings : ServerSettings
  sessionSettings : SessionSettings
  status : ServerStatus
  endpoint : Option Endpoint
  /-- When it was last started, while it runs. -/
  startedAt : Option Instant
  /-- Which processor handles the requests of sessions to come. -/
  processor : Nat
  /-- Is anybody told of sessions that come and go? -/
  hasListener : Bool
  /-- All sessions that ever were, in the order in which they came. -/
  sessions : List Session
  /-- The numbers of the sessions that are not over, by connection. -/
  registered : Registry Nat Nat
  publication : Publication ManagedObject
  nextConnection : Nat
  nextSessionId : UInt32
  /-- How many sessions have come. -/
  created : Nat
  /-- How many sessions have gone. -/
  destroyed : Nat
  tasks : List ServerTask
  nextTask : Nat
  now : Instant
  /-- What has happened, the newest first. -/
  log : List ServerEvent
  deriving Repr

namespace Server

/-- A stopped server, published if there is a place to publish it and its name is free there. -/
def fresh (settings : ServerSettings) (sessionSettings : SessionSettings)
    (publication : Publication ManagedObject) (processor : Nat) : Server where
  settings := settings
  sessionSettings := sessionSettings
  status := .stopped
  endpoint := none
  startedAt := none
  processor := processor
  hasListener := false
  sessions := []
  registered := .empty
  publication := (Publication.register publication (serverObjectName settings.name) .server).1
  nextConnection := 1
  nextSessionId := 1
  created := 0
  destroyed := 0
  tasks := []
  nextTask := 0
  now := 0
  log := []

/-! ## What can be asked -/

def uptime (s : Server) : Option Duration := s.startedAt.map (Duration.between · s.now)

/-- How many sessions are registered. -/
def active (s : Server) : Nat := s.registered.size

def session? (s : Server) (n : Nat) : Option Session := s.sessions[n]?

def findTask? (s : Server) (id : Nat) : Option ServerTask := s.tasks.find? (·.id = id)

/-- The loop that a task runs, if it is one that accepts connections. -/
def acceptor? (s : Server) (id : Nat) : Option Acceptor :=
  match s.findTask? id with
  | some { activity := .accept a, .. } => some a
  | _ => none

/-- What can be seen of a server as a managed object. -/
def attributes (s : Server) : List (String × String) :=
  [("activeSessions", toString s.active), ("createdSessions", toString s.created),
    ("destroyedSessions", toString s.destroyed), ("name", s.settings.name),
    ("status", s.status.name), ("uptime", s.uptime.elim "-" fun d => toString d.seconds ++ "s")]

/-! ## Small changes -/

def note (s : Server) (e : ServerEvent) : Server := { s with log := e :: s.log }

def measure (s : Server) (ms : List Measurement) : Server := ms.foldl (fun s m => s.note (.measured m)) s

def setTask (s : Server) (id : Nat) (activity : Activity) : Server :=
  { s with tasks := s.tasks.map fun t => if t.id = id then { t with activity } else t }

/-- Puts a new task in line. -/
def addTask (s : Server) (activity : Activity) : Server :=
  { s with tasks := s.tasks ++ [⟨s.nextTask, activity⟩], nextTask := s.nextTask + 1 }

/-- Lets something happen to a session. -/
def updateSession (s : Server) (n : Nat) (f : Session → Session) : Server :=
  match s.session? n with
  | some x => { s with sessions := s.sessions.set n (f x) }
  | none => s

end Server

/-- What can be done to a server. -/
inductive ServerOperation where
  | start
  | stop
  deriving DecidableEq, Repr

def ServerOperation.ofName? (name : String) : Except ManagementError ServerOperation :=
  if name = "start" then .ok .start
  else if name = "stop" then .ok .stop
  else .error (.unknownOperation name)

end Smsc
