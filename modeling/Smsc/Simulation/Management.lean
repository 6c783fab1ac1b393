import Smsc.Management.Basic
import Smsc.Session.Run

/-!
# Smsc.Simulation.Management — sessions under management, without clients

Fresh sessions are kept under keys and published under names. A session that is no longer kept is
gone, but stays published until its name is taken back.

* `ManagementCommand`: what can be asked for; `ManagementSimulation.perform` does it.
-/

namespace Smsc.Simulation

/-- A session, and how far the wall clock had been set forward when it began. -/
structure KeptSession where
  session : Session
  shift : Int
  deriving Repr

structure ManagementSimulation where
  /-- The sessions in the order of creation; those that are gone are missing. -/
  sessions : List (Option KeptSession)
  /-- Which session is kept under which key. -/
  kept : List (String × Nat)
  directory : Directory Nat
  /-- How far the wall clock was set forward, in milliseconds. -/
  shift : Int
  deriving Repr

/-- What can be asked for. -/
inductive ManagementCommand where
  | create (key : String) (id : UInt32) (peer : Option SocketAddress) (failsDisconnects : Bool)
  | discard (key : String)
  | register (name key : String)
  | unregister (name : String)
  /-- A session is published where there is no directory, and taken back. -/
  | registerNowhere (name key : String)
  | attributes (name : String)
  | operate (name operation : String)
  | shiftWall (millis : Int)
  deriving Repr

inductive ManagementAnswer where
  | nothing
  | yesOrNo (b : Bool)
  | managed (r : Except ManagementError Unit)
  | both (r q : Except ManagementError Unit)
  | attributes (kvs : List (String × String))
  deriving Repr

namespace ManagementSimulation

def start : ManagementSimulation := ⟨[], [], .empty, 0⟩

/-- A session by number, unless it is gone. -/
def session? (m : ManagementSimulation) (n : Nat) : Option KeptSession := m.sessions[n]?.join

/-- Keeps nothing under a key any more. -/
def discard (m : ManagementSimulation) (key : String) : ManagementSimulation × Bool :=
  match m.kept.lookup key with
  | none => (m, false)
  | some n =>
    ({ m with sessions := m.sessions.set n none, kept := m.kept.filter (·.1 ≠ key) }, true)

/-- Keeps a fresh session under a key. -/
def create (m : ManagementSimulation) (key : String) (session : Session) : ManagementSimulation :=
  let m := (m.discard key).1
  { m with
    sessions := m.sessions ++ [some ⟨session, m.shift⟩]
    kept := (key, m.sessions.length) :: m.kept }

/-- Operates a session that nobody else uses. -/
def operateOn (m : ManagementSimulation) (n : Nat) (operation : String) :
    ManagementSimulation × Except ManagementError Unit :=
  match m.session? n, SessionOperation.ofName? operation with
  | none, _ => (m, .error .released)
  | some _, .error e => (m, .error e)
  | some k, .ok .close =>
    let id := k.session.nextTask
    let s := (k.session.feel .close).move (.call id)
    let result := match s.findCall? id with
      | some { stage := .finished r, .. } => r.asOperation
      | _ => .ok ()
    ({ m with sessions := m.sessions.set n (some { k with session := s.feel (.drop id) }) }, result)

/-- Does what a command asks for. -/
def perform (m : ManagementSimulation) :
    ManagementCommand → ManagementSimulation × ManagementAnswer
  | .create key id peer failsDisconnects =>
    let session := Session.fresh id peer "" .standard 0 0
    (m.create key (session.feel (.failDisconnects failsDisconnects)), .nothing)
  | .discard key =>
    let (m, found) := m.discard key
    (m, .yesOrNo found)
  | .register name key =>
    match m.kept.lookup key with
    | none => (m, .nothing)
    | some n =>
      let (directory, r) := m.directory.register name n
      ({ m with directory }, .managed r)
  | .unregister name =>
    let (directory, r) := m.directory.unregister name
    ({ m with directory }, .managed r)
  | .registerNowhere name key =>
    match m.kept.lookup key with
    | none => (m, .nothing)
    | some n =>
      let (nowhere, r) := Publication.register none name n
      (m, .both r (nowhere.unregister name).2)
  | .attributes name =>
    (m, match m.directory.find? name with
      | none => .nothing
      | some n => .attributes ((m.session? n).elim [] fun k => k.session.attributes (m.shift - k.shift)))
  | .operate name operation =>
    match m.directory.find? name with
    | none => (m, .nothing)
    | some n =>
      let (m, r) := m.operateOn n operation
      (m, .managed r)
  | .shiftWall millis => ({ m with shift := m.shift + millis }, .nothing)

/-- Does one command after the other; after each, what came of it and the names in use. -/
def run (m : ManagementSimulation) :
    List ManagementCommand → List (ManagementAnswer × List String)
  | [] => []
  | c :: cs =>
    let (m, answer) := m.perform c
    (answer, m.directory.keys) :: m.run cs

end ManagementSimulation

end Smsc.Simulation
