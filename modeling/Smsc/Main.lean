import Smsc.CommandLine
import Smsc.Logging.Line
import Smsc.Simulation.Server
import Std.Async.Signal
import Std.Async.TCP
import Std.Async.Timer
import Std.Sync.Channel

/-!
# Smsc.Main — the program

Sockets, clock and signals are turned into the commands of a simulated server, and what it writes
goes out on the sockets.

* `Serving`: the server, the sockets of its clients, and how far its clock has been moved;
* `main`: the program.
-/

namespace Smsc.Program

open Simulation

/-- A socket that listens. -/
abbrev Listener := Std.Async.TCP.Socket.Server

/-- A socket of a client. -/
abbrev Socket := Std.Async.TCP.Socket.Client

/-! ## Addresses -/

def toHost : SocketAddress → Std.Net.SocketAddress
  | .v4 ip port => .v4 ⟨.ofParts ip.a ip.b ip.c ip.d, port⟩
  | .v6 groups _ port => .v6 ⟨⟨Vector.ofFn fun i => groups.getD i.val 0⟩, port⟩

def fromHost : Std.Net.SocketAddress → SocketAddress
  | .v4 a => .v4 ⟨a.addr.octets[0], a.addr.octets[1], a.addr.octets[2], a.addr.octets[3]⟩ a.port
  | .v6 a => .v6 a.addr.segments.toList 0 a.port

/-! ## What happens -/

/-- What the program waits for. -/
inductive Occurrence where
  | connected (socket : Socket)
  | received (client : String) (octets : List UInt8)
  | ended (client : String)
  | ticked
  | interrupted

instance : Inhabited Occurrence := ⟨.ticked⟩

abbrev Queue := Std.Channel Occurrence

def post (queue : Queue) (x : Occurrence) : IO Unit := do
  let _ ← IO.wait (← queue.send x)

/-- Lets something go on beside the rest; when it fails it is over. -/
def inBackground (act : Std.Async.Async Unit) : IO Unit := do
  let _ ← act.toIO

partial def acceptAll (queue : Queue) (listener : Listener) : Std.Async.Async Unit := do
  let socket ← listener.accept
  post queue (.connected socket)
  acceptAll queue listener

/-- What a client sends next; none at the end. -/
def receive (socket : Socket) : Std.Async.Async (Option ByteArray) :=
  try socket.recv? 65536 catch _ => return none

partial def readAll (queue : Queue) (client : String) (socket : Socket) :
    Std.Async.Async Unit := do
  match ← receive socket with
  | some octets =>
    post queue (.received client octets.toList)
    readAll queue client socket
  | none => post queue (.ended client)

partial def tickAll (queue : Queue) : Std.Async.Async Unit := do
  Std.Async.sleep 10
  post queue .ticked
  tickAll queue

def awaitInterrupt (queue : Queue) : Std.Async.Async Unit := do
  let waiter ← Std.Async.Signal.Waiter.mk .sigint false
  let _ ← Std.Async.await (← waiter.wait)
  post queue .interrupted

/-! ## Serving -/

/-- The server, the sockets of its clients, and how far its clock has been moved. -/
structure Serving where
  simulation : ServerSimulation
  sockets : List (String × Socket)
  nextClient : Nat
  startedAt : Nat
  millis : Nat

/-- Waits for the end of something, and tells whether it succeeded. -/
def finish (act : Std.Async.Async Unit) : IO Bool := do
  match ← IO.wait (← act.toIO) with
  | .ok _ => return true
  | .error _ => return false

/-- Writes out what the server has written to its clients, and closes what it has closed. -/
def deliver (s : Serving) (clients : List Client) : IO Serving := do
  let mut sockets := s.sockets
  for c in clients do
    if let some socket := sockets.lookup c.name then
      let mut isUsable := !c.isClosed
      for octets in c.received do
        isUsable := (← finish (socket.send ⟨octets.toArray⟩)) && isUsable
      unless isUsable do
        let _ ← finish socket.shutdown
        sockets := sockets.filter (·.1 ≠ c.name)
  return { s with sockets }

/-- Lets the simulated server do something. -/
def perform (s : Serving) (c : ServerCommand) : IO (Serving × ServerAnswer) := do
  match s.simulation.perform c with
  | .error _ => return (s, .nothing)
  | .ok (simulation, report) =>
    return (← deliver { s with simulation } report.clients, report.answer)

/-- Moves the simulated clock up to the real one. -/
def catchUp (s : Serving) : IO Serving := do
  let millis := (← IO.monoMsNow) - s.startedAt
  let (s, _) ← perform s (.advance (millis - s.millis))
  return { s with millis }

partial def serve (queue : Queue) (s : Serving) : IO Serving := do
  let x ← IO.wait (← queue.recv)
  let s ← catchUp s
  match x with
  | .interrupted => return s
  | .ticked => serve queue s
  | .connected socket =>
    let name := toString s.nextClient
    let s := { s with sockets := (name, socket) :: s.sockets, nextClient := s.nextClient + 1 }
    let (s, _) ← perform s (.connect name)
    inBackground (readAll queue name socket)
    serve queue s
  | .received client octets => serve queue (← perform s (.write client octets)).1
  | .ended client => serve queue (← perform s (.hangUp client)).1

/-! ## Runs -/

def complain (text : String) : IO Unit := do
  (← IO.getStderr).putStr text

/-- Prints an entry if the filter shows it. -/
def log (s : Settings) (filter : LogFilter) (e : LogEntry) : IO Unit := do
  if filter.shows e then
    IO.println (if s.telemetry.jsonLogs then e.json else e.plain)
    (← IO.getStdout).flush

/-- Listens on the address of the server, if it can be had. -/
def listen (address : SocketAddress) : IO Listener := do
  let listener ← Std.Async.TCP.Socket.Server.mk
  listener.bind (toHost address)
  listener.listen 128
  listener.noDelay
  return listener

/-- Serves from the start to the interrupt. -/
def runServer (settings : Settings) (filter : LogFilter) : IO UInt32 := do
  let log := log settings filter
  log (CommandLine.startingEntry settings)
  let listener ← (listen settings.server.address).toBaseIO
  let host : Host ← match listener with
    | .ok listener => pure ⟨none, fromHost (← listener.getSockName), none⟩
    | .error e => pure ⟨some (toString e), settings.server.address, none⟩
  let simulation := ServerSimulation.fresh host settings.server settings.session .empty false
  let (s, answer) ← perform ⟨simulation, [], 1, ← IO.monoMsNow, 0⟩ .start
  match listener, answer with
  | .ok listener, .done (.ok ()) =>
    log (CommandLine.startedEntry settings host.address)
    let queue ← Std.Channel.new
    inBackground (awaitInterrupt queue)
    inBackground (acceptAll queue listener)
    inBackground (tickAll queue)
    let s ← serve queue s
    let (_, _) ← perform s .stop
    (CommandLine.stoppedEntries settings).forM log
    return 0
  | _, .done (.error e) =>
    complain ("Error: " ++ (CommandLine.Failure.start e).message ++ "\n")
    return 1
  | _, _ => return 1

/-- Does what the arguments ask for. -/
def run (request : ServeRequest) : IO UInt32 := do
  let octets ← match request.config with
    | some path => do
      match ← (IO.FS.readBinFile path).toBaseIO with
      | .ok octets => pure (some octets.toList)
      | .error _ => pure none
    | none => pure none
  match CommandLine.prepare ⟨fun _ => octets, fun _ => none⟩ request with
  | .error e =>
    complain ("Error: " ++ e.message ++ "\n")
    return 1
  | .ok (settings, filter) =>
    (CommandLine.preparedEntries settings).forM (log settings filter)
    if request.validates then
      log settings filter CommandLine.validEntry
      return 0
    else runServer settings filter

end Smsc.Program

open Smsc in
def main (arguments : List String) : IO UInt32 := do
  match Invocation.parse arguments with
  | .error m =>
    Program.complain m.message
    return 2
  | .ok .help =>
    IO.print CommandLine.helpText
    return 0
  | .ok .version =>
    IO.print CommandLine.versionText
    return 0
  | .ok (.serve request) => Program.run request
