import Smsc.Server.State

/-!
# Smsc.Server.Registration — sessions come and go

A session comes into the registry in one step, and then is counted, published and announced; it goes
out in one step, and then the same is undone. Whoever takes a session out of the registry does the
rest, so nothing is done twice.

* `Server.enroll`, `Server.remove?`: into the registry and out of it;
* `Server.stepChange`: the next of the steps that follow;
* `Server.registerSession`, `Server.forgetSession`: all steps at once.
-/

namespace Smsc.Server

/-- Makes a session for a connection and puts it into the registry. Gives the number of the
connection, and what is to be done about the session. -/
def enroll (s : Server) (peer : Option SocketAddress) : Server × Nat × Change :=
  let n := s.sessions.length
  let session :=
    Session.fresh s.nextSessionId peer s.settings.systemId s.sessionSettings s.processor s.now
  ({ s with
      sessions := s.sessions ++ [session]
      registered := s.registered.insert s.nextConnection n
      nextConnection := s.nextConnection + 1
      nextSessionId := s.nextSessionId + 1 },
    s.nextConnection, ⟨n, true, .counting⟩)

/-- Takes the session of a connection out of the registry, unless that has been done. -/
def remove? (s : Server) (connection : Nat) : Option (Server × Change) :=
  (s.registered.find? connection).map fun n =>
    ({ s with registered := s.registered.erase connection }, ⟨n, false, .counting⟩)

/-- The name under which a session is published. -/
def objectName (s : Server) (n : Nat) : String :=
  sessionObjectName s.settings.name ((s.session? n).elim 0 (·.id))

/-- Counts a session, and reads how many are registered. -/
def countChange (s : Server) (c : Change) : Server × Nat :=
  (if c.comes then { s with created := s.created + 1 } else { s with destroyed := s.destroyed + 1 },
    s.active)

/-- Records how many sessions were registered. -/
def recordChange (s : Server) (c : Change) (active : Nat) : Server :=
  if c.comes then s.measure (Measurement.sessionCreated s.settings.name active)
  else
    s.measure (Measurement.sessionDestroyed s.settings.name active
      ((s.session? c.session).elim ⟨0⟩ (·.lifetime)))

/-- Publishes a session or takes it back. It does not matter whether that succeeds. -/
def publishChange (s : Server) (c : Change) : Server :=
  let name := s.objectName c.session
  let publication :=
    if c.comes then (Publication.register s.publication name (.session c.session)).1
    else (Publication.unregister s.publication name).1
  { s with publication }

/-- Tells the listener. -/
def announceChange (s : Server) (c : Change) : Server :=
  let status := (s.session? c.session).elim .closed (·.status)
  if !s.hasListener then s
  else if c.comes then s.note (.created c.session status)
  else s.note (.destroyed c.session status)

/-- The next step, and what is left to do after it. -/
def stepChange (s : Server) (c : Change) : Server × Option Change :=
  match c.stage with
  | .counting =>
    let (s, active) := s.countChange c
    (s, some { c with stage := .recording active })
  | .recording active => (s.recordChange c active, some { c with stage := .publishing })
  | .publishing => (s.publishChange c, some { c with stage := .announcing })
  | .announcing => (s.announceChange c, none)

/-- All that follows when a session has come or gone. -/
def finishChange (s : Server) (c : Change) : Server :=
  let (s, active) := s.countChange c
  ((s.recordChange c active).publishChange c).announceChange c

/-- Makes a session for a connection and does all that follows. -/
def registerSession (s : Server) (peer : Option SocketAddress) : Server :=
  let (s, _, c) := s.enroll peer
  s.finishChange c

/-- Takes a session out of the registry and does all that follows, unless that has been done. -/
def forgetSession (s : Server) (connection : Nat) : Server :=
  match s.remove? connection with
  | some (s, c) => s.finishChange c
  | none => s

end Smsc.Server
