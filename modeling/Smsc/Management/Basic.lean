import Smsc.Registry
import Smsc.Session.Age

/-!
# Smsc.Management.Basic — objects that can be looked at and operated

Servers and sessions are published under names. A published object has attributes and operations;
one that is gone has no attributes and refuses every operation.

* `serverObjectName`, `sessionObjectName`: the names;
* `Directory`: what is published; `Directory.register` refuses a name in use,
  `Directory.unregister` a name not in use; `Publication`: the same where there may be no directory;
* `Session.attributes`, `SessionOperation.ofName?`: a session as an object.
-/

namespace Smsc

/-- The name of a server's object. -/
def serverObjectName (server : String) : String :=
  "smppserver:type=Server,name=" ++ server

/-- The name of a session's object. -/
def sessionObjectName (server : String) (id : UInt32) : String :=
  "smppserver:type=Sessions,server=" ++ server ++ ",id=session-" ++ toString id.toNat

/-- Published objects by name. -/
abbrev Directory (α : Type) := Registry String α

namespace Directory

variable {α : Type}

def register (d : Directory α) (name : String) (object : α) :
    Directory α × Except ManagementError Unit :=
  if d.contains name then (d, .error (.alreadyRegistered name))
  else (d.insert name object, .ok ())

def unregister (d : Directory α) (name : String) : Directory α × Except ManagementError Unit :=
  if d.contains name then (d.erase name, .ok ())
  else (d, .error (.notRegistered name))

end Directory

/-- Where objects are published, if anywhere. -/
abbrev Publication (α : Type) := Option (Directory α)

namespace Publication

variable {α : Type}

/-- Nowhere, every name is free. -/
def register (p : Publication α) (name : String) (object : α) :
    Publication α × Except ManagementError Unit :=
  match p with
  | none => (none, .ok ())
  | some d =>
    let (d, r) := d.register name object
    (some d, r)

/-- Nowhere, every name may be taken back. -/
def unregister (p : Publication α) (name : String) : Publication α × Except ManagementError Unit :=
  match p with
  | none => (none, .ok ())
  | some d =>
    let (d, r) := d.unregister name
    (some d, r)

end Publication

/-- What can be seen of a session, on a wall clock set forward by `shift` milliseconds. -/
def Session.attributes (s : Session) (shift : Int) : List (String × String) :=
  [("bindType", s.bindTypeText),
    ("created", ageText (s.age shift)),
    ("id", toString s.id.toNat),
    ("peer", (s.peer.map (·.text)).getD ""),
    ("status", s.status.name),
    ("systemId", s.systemId.toOption.getD "")]

/-- What can be done to a session. -/
inductive SessionOperation where
  | close
  deriving DecidableEq, Repr

def SessionOperation.ofName? (name : String) : Except ManagementError SessionOperation :=
  if name = "close" then .ok .close else .error (.unknownOperation name)

/-- How a close looks to whoever operated the object. -/
def CallResult.asOperation : CallResult → Except ManagementError Unit
  | .failed e => .error (.failed e.message)
  | _ => .ok ()

end Smsc
