import Smsc.Server.Registration
import Smsc.Session.Output

/-!
# Smsc.Server.Lifecycle — starting, accepting, stopping

Start and stop are refused by a server in the wrong status; the status is tested and changed in one
step, so of several calls one goes on. The status is stored and recorded in two steps elsewhere.

* `Server.transition`: from one status to another, if it is the one;
* `Server.stepStart`, `Server.stepStop`, `Server.stepAccept`, `Server.stepServe`: the next step of a
  task; `Server.taskIsReady` says whether it can take one.
-/

namespace Smsc.Server

/-! ## Status -/

def storeStatus (s : Server) (status : ServerStatus) : Server := { s with status }

def recordStatus (s : Server) (status : ServerStatus) : Server :=
  s.measure (Measurement.serverStatus s.settings.name status.gauge)

/-- Changes the status if it is the one expected, and records it. -/
def transition (s : Server) (expected next : ServerStatus) : Server × Bool :=
  if s.status = expected then ((s.storeStatus next).recordStatus next, true) else (s, false)

/-! ## Start -/

/-- A call of start goes on. While it waits for the address, `Server.bound` and `Server.named` let
it go on. -/
def stepStart (s : Server) (id : Nat) (stage : StartStage) : Server :=
  let goTo (s : Server) (stage : StartStage) : Server := s.setTask id (.start stage)
  match stage with
  | .asking =>
    match s.transition .stopped .starting with
    | (s, true) => goTo s .binding
    | (s, false) => goTo s (.finished (.ok ()))
  | .spawning address =>
    let acceptor := s.nextTask
    goTo (s.addTask (.accept ⟨.waiting, false, []⟩)) (.keepingEndpoint address acceptor)
  | .keepingEndpoint address acceptor =>
    goTo { s with endpoint := some ⟨address, acceptor⟩ } .keepingTime
  | .keepingTime => goTo { s with startedAt := some s.now } .storing
  | .storing => goTo (s.storeStatus .started) .recording
  | .recording => goTo (s.recordStatus .started) (.finished (.ok ()))
  | .givingUp e => goTo (s.storeStatus .stopped) (.recordingFailure e)
  | .recordingFailure e => goTo (s.recordStatus .stopped) (.finished (.error e))
  | .binding | .naming | .finished _ => s

/-- The host gives the address to a call of start, or refuses it. -/
def bound (s : Server) (id : Nat) (r : Except String Unit) : Server :=
  match s.findTask? id with
  | some { activity := .start .binding, .. } =>
    s.setTask id (.start (match r with
      | .ok () => .naming
      | .error cause => .givingUp (.channel (.bind s.settings.address cause))))
  | _ => s

/-- The host says under which address a call of start listens, or fails to. -/
def named (s : Server) (id : Nat) (r : Except String SocketAddress) : Server :=
  match s.findTask? id with
  | some { activity := .start .naming, .. } =>
    s.setTask id (.start (match r with
      | .ok address => .spawning address
      | .error cause => .givingUp (.channel (.io cause))))
  | _ => s

/-! ## Stop -/

/-- Tells a loop that accepts connections to stop. -/
def shutDown (s : Server) (acceptor : Nat) : Server :=
  match s.acceptor? acceptor with
  | some a => s.setTask acceptor (.accept { a with isShutDown := true })
  | none => s

/-- Has such a loop ended? -/
def hasEnded (s : Server) (acceptor : Nat) : Bool :=
  (s.acceptor? acceptor).all (·.stage = .finished)

/-- Is the channel of a session still busy, so that closing it takes time? -/
def isBusy (s : Server) (n : Nat) : Bool := (s.session? n).any (·.channel.isStalled)

/-- Goes on with the rest of a pass through the sessions. -/
def nextOfPass (rest : List (Nat × Nat)) (isLast : Bool) : StopStage :=
  match rest, isLast with
  | [], false => .takingEndpoint
  | [], true => .clearingTime
  | _, _ => .disconnecting rest isLast

/-- A call of stop goes on. The channel of a session that is disconnected may take its time, but no
longer than the server's timeout; then the session is forgotten anyway. -/
def stepStop (s : Server) (id : Nat) (stage : StopStage) : Server :=
  let goTo (s : Server) (stage : StopStage) : Server := s.setTask id (.stop stage)
  match stage with
  | .asking =>
    match s.transition .started .stopping with
    | (s, true) => goTo s (.listing false)
    | (s, false) => goTo s .finished
  | .listing isLast => goTo s (nextOfPass s.registered.toList isLast)
  | .disconnecting [] isLast => goTo s (nextOfPass [] isLast)
  | .disconnecting ((connection, n) :: rest) isLast =>
    let rest := (connection, n) :: rest
    let wake := s.now + s.settings.disconnectTimeout.nanos
    goTo (s.updateSession n fun x => x.disconnect.1)
      (if s.isBusy n then .waiting wake rest isLast else .removing rest isLast)
  | .waiting _ rest isLast => goTo s (.removing rest isLast)
  | .removing [] isLast => goTo s (nextOfPass [] isLast)
  | .removing ((connection, _) :: rest) isLast =>
    match s.remove? connection with
    | some (s, change) => goTo s (.changing change rest isLast)
    | none => goTo s (nextOfPass rest isLast)
  | .changing change rest isLast =>
    match s.stepChange change with
    | (s, some change) => goTo s (.changing change rest isLast)
    | (s, none) => goTo s (nextOfPass rest isLast)
  | .takingEndpoint =>
    match s.endpoint with
    | some e => goTo ({ s with endpoint := none }.shutDown e.acceptor) (.joining e.acceptor)
    | none => goTo s (.listing true)
  | .joining _ => goTo s (.listing true)
  | .clearingTime => goTo { s with startedAt := none } .storing
  | .storing => goTo (s.storeStatus .stopped) .recording
  | .recording => goTo (s.recordStatus .stopped) .finished
  | .finished => s

/-! ## Accepting and serving -/

/-- A loop that accepts connections goes on. It heeds the shutdown before it takes a connection, and
finishes with a connection before it heeds the shutdown. -/
def stepAccept (s : Server) (id : Nat) (a : Acceptor) : Server :=
  let goTo (s : Server) (a : Acceptor) : Server := s.setTask id (.accept a)
  match a.stage with
  | .waiting =>
    if a.isShutDown then goTo s { a with stage := .finished }
    else
      match a.backlog with
      | [] => s
      | x :: backlog =>
        goTo s { a with backlog, stage := if x.isUsable then .checking x else .waiting }
  | .checking x =>
    if s.status = .started then goTo s { a with stage := .inserting x }
    else goTo (s.note (.turnedAway x.peer)) { a with stage := .waiting }
  | .inserting x =>
    let (s, connection, change) := s.enroll (some x.peer)
    goTo s { a with stage := .changing connection change }
  | .changing connection change =>
    match s.stepChange change with
    | (s, some change) => goTo s { a with stage := .changing connection change }
    | (s, none) =>
      goTo (s.addTask (.serve connection change.session .reading)) { a with stage := .waiting }
  | .finished => s

/-- The task of a session goes on. When the reader has ended, the session is forgotten. -/
def stepServe (s : Server) (id connection session : Nat) (stage : ServeStage) : Server :=
  let goTo (s : Server) (stage : ServeStage) : Server := s.setTask id (.serve connection session stage)
  match stage with
  | .reading => goTo s .removing
  | .removing =>
    match s.remove? connection with
    | some (s, change) => goTo s (.changing change)
    | none => goTo s .finished
  | .changing change =>
    match s.stepChange change with
    | (s, some change) => goTo s (.changing change)
    | (s, none) => goTo s .finished
  | .finished => s

/-! ## Tasks -/

/-- Can a task take a step? -/
def taskIsReady (s : Server) : Activity → Bool
  | .start stage =>
    match stage with
    | .binding | .naming | .finished _ => false
    | _ => true
  | .stop stage =>
    match stage with
    | .waiting wake ((_, n) :: _) _ => !s.isBusy n || wake ≤ s.now
    | .joining acceptor => s.hasEnded acceptor
    | .finished => false
    | _ => true
  | .accept a =>
    match a.stage with
    | .waiting => a.isShutDown || !a.backlog.isEmpty
    | .finished => false
    | _ => true
  | .serve _ n stage =>
    match stage with
    | .reading => (s.session? n).all (·.reader = .finished)
    | .finished => false
    | _ => true

def stepTask (s : Server) (t : ServerTask) : Server :=
  match t.activity with
  | .start stage => s.stepStart t.id stage
  | .stop stage => s.stepStop t.id stage
  | .accept a => s.stepAccept t.id a
  | .serve connection n stage => s.stepServe t.id connection n stage

end Smsc.Server
