import Smsc.Failure
import Smsc.Packet

/-!
# Smsc.Processor — what is done with a client's requests

A processor is handed a request and a responder. It may pause, send replies, keep the responder for
later, and in the end succeed or fail.

* `Plan`: everything one call of a processor does;
* `StandardProcessor`: accepts every request, and numbers the messages it accepts;
* `ScriptedProcessor`: follows a list of behaviours, one for each call.
-/

namespace Smsc

/-- One thing that a processor does. -/
inductive ProcessorAction where
  | pause (d : Duration)
  | send (reply : Reply)
  /-- Keeps the responder. -/
  | hold
  deriving DecidableEq, Repr

/-- How a call of a processor ends. -/
inductive Verdict where
  | handled
  | failed (e : ProcessorError)
  | panicked
  deriving DecidableEq, Repr

/-- What one call of a processor does. -/
structure Plan where
  actions : List ProcessorAction
  verdict : Verdict
  deriving DecidableEq, Repr

/-- Accepts everything. -/
structure StandardProcessor where
  /-- Messages accepted so far; a counter of 64 bits. -/
  accepted : UInt64
  deriving DecidableEq, Repr

namespace StandardProcessor

def fresh : StandardProcessor := ⟨0⟩

/-- The id of the `n`-th message: its number in hexadecimal, at least eight digits. -/
def messageId (n : UInt64) : String := Numeral.hex 8 n.toNat

/-- OK to every request, with the next message id for a submitted message. -/
def reply (p : StandardProcessor) (r : Request) : Reply × StandardProcessor :=
  match r.body with
  | .submitSm _ => (.accepted (messageId (p.accepted + 1)), ⟨p.accepted + 1⟩)
  | _ => (.ok, p)

end StandardProcessor

/-- What a scripted processor does with one request, after a pause. -/
inductive Behaviour where
  /-- What the standard processor does. -/
  | standard (delay : Duration)
  | scripted (delay : Duration) (replies : List Reply) (hold : Bool) (verdict : Verdict)
  deriving DecidableEq, Repr

/-- A processor that follows a script. -/
structure ScriptedProcessor where
  /-- One behaviour for each call; the last one stays in force. -/
  script : List Behaviour
  calls : Nat
  standard : StandardProcessor
  deriving DecidableEq, Repr

namespace ScriptedProcessor

def ofScript (script : List Behaviour) : ScriptedProcessor := ⟨script, 0, .fresh⟩

/-- The behaviour for the next call. A script without behaviours is the standard one. -/
def behaviour (p : ScriptedProcessor) : Behaviour :=
  match p.script[p.calls]? with
  | some b => b
  | none => p.script.getLast?.getD (.standard ⟨0⟩)

/-- A pause, unless it takes no time. -/
def pauseOf (d : Duration) : List ProcessorAction :=
  if d.nanos = 0 then [] else [.pause d]

/-- Does the next call do what the standard processor does? -/
def isStandard (p : ScriptedProcessor) : Bool :=
  match p.behaviour with
  | .standard _ => true
  | .scripted .. => false

/-- What the next call does with a request. -/
def plan (p : ScriptedProcessor) (r : Request) : Plan × ScriptedProcessor :=
  let next := { p with calls := p.calls + 1 }
  match p.behaviour with
  | .standard delay =>
    let (reply, standard) := p.standard.reply r
    (⟨pauseOf delay ++ [.send reply], .handled⟩, { next with standard })
  | .scripted delay replies hold verdict =>
    (⟨pauseOf delay ++ replies.map .send ++ (if hold then [.hold] else []), verdict⟩, next)

end ScriptedProcessor

end Smsc
