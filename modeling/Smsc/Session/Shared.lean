import Smsc.Session.Run

/-!
# Smsc.Session.Shared — sessions that share a processor

One standard processor handles the requests of many sessions, each on its own connection and under a clock of
its own. The sessions know it by a number; a session that has another processor in charge is left alone.

* `Gathering`: the sessions, the processor, and what it has done;
* `Gathering.serve`: the processor is called for the request that a session has in hand;
* `Gathering.Step`, `Gathering.after`: steps of the sessions and calls of the processor, in any order.
-/

namespace Smsc

/-- Is a message submitted? -/
def Request.isSubmit (r : Request) : Bool :=
  match r.body with
  | .submitSm _ => true
  | _ => false

/-- A call of a shared processor. -/
structure Served where
  /-- The session that called it, by number. -/
  session : Nat
  responder : Nat
  request : Request
  reply : Reply
  deriving DecidableEq, Repr

/-- Sessions that share a standard processor. -/
structure Gathering where
  /-- All sessions that ever were, in the order in which they came. -/
  sessions : List Session
  /-- The number under which the sessions know the processor. -/
  number : Nat
  processor : StandardProcessor
  /-- The calls of the processor, the newest first. -/
  served : List Served
  deriving Repr

namespace Gathering

/-- A processor that nobody knows yet. -/
def fresh (number : Nat) : Gathering := ⟨[], number, .fresh, []⟩

def session? (g : Gathering) (n : Nat) : Option Session := g.sessions[n]?

/-- The processor is called for a request of session `n`, and will send its reply. -/
def serve (g : Gathering) (n : Nat) : Gathering :=
  match g.session? n with
  | none => g
  | some x =>
    match x.reader with
    | .calling responder processor request =>
      if processor = g.number then
        let (reply, next) := g.processor.reply request
        { g with
          sessions := g.sessions.set n (x.feel (.begin ⟨[.send reply], .handled⟩))
          processor := next
          served := ⟨n, responder, request, reply⟩ :: g.served }
      else g
    | _ => g

/-- What the shared processor does with a request is not for others to say. -/
def allows (g : Gathering) (x : Session) : Session.Step → Bool
  | .feel (.begin _) =>
    match x.reader with
    | .calling _ processor _ => processor ≠ g.number
    | _ => true
  | _ => true

/-- One step of a gathering. -/
inductive Step where
  /-- Somebody connects. -/
  | join (id : UInt32) (peer : Option SocketAddress) (serverSystemId : String) (settings : SessionSettings)
      (processor : Nat) (now : Instant)
  /-- Something happens to session `n`. -/
  | session (n : Nat) (x : Session.Step)
  | serve (n : Nat)
  deriving Repr

def step (g : Gathering) : Step → Gathering
  | .join id peer serverSystemId settings processor now =>
    { g with sessions := g.sessions ++ [.fresh id peer serverSystemId settings processor now] }
  | .session n x =>
    match g.session? n with
    | some t => if g.allows t x then { g with sessions := g.sessions.set n (t.step x) } else g
    | none => g
  | .serve n => g.serve n

/-- The state after steps, taken one after the other. -/
def after (g : Gathering) (xs : List Step) : Gathering := xs.foldl step g

/-- The messages that were submitted to the processor, in the order in which it was called. -/
def submits (g : Gathering) : List Served := g.served.reverse.filter (·.request.isSubmit)

end Gathering

end Smsc
