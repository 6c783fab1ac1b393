import Smsc.Window.Callers

/-!
# Smsc.Window.Race — operations that overlap on one window

A completion takes its entry out of the table under the table's lock, and sends the response when the
lock is free again. A caller whose time is up asks for its entry under the lock, and looks for a response
afterwards. In between, everybody else may act. Other operations keep the lock and stay whole.

* `Race`: a window and its callers, with the completions and the waits that are half done;
* `Race.Step`: a whole operation, a half of a completion, or a part of a wait that runs out;
* `Race.perform` does one step, `Race.after` one after the other.
-/

namespace Smsc

/-- A completion that has taken its entry out and is still to send the response. -/
structure Flight (β : Type) where
  id : Nat
  response : β
  deriving DecidableEq, Repr

/-- A window, its callers, and what is half done. -/
structure Race (α β : Type) where
  callers : Callers α β
  /-- Completions between their halves. -/
  inFlight : List (Flight β)
  /-- Waiters whose time is up, and that are still to ask for their entry. -/
  fired : List Waiter
  /-- Waiters that found their entry gone, and are still to look for a response. -/
  lost : List Waiter
  deriving Repr

namespace Race

inductive Step (α β : Type) where
  | whole (op : Callers.Op α β)
  /-- The first half of a completion. -/
  | remove (key : UInt32) (response : β)
  /-- The second half. -/
  | send (id : Nat)
  /-- A caller that has no response by its deadline stops waiting. -/
  | fire (id : Nat)
  | cancelSlot (id : Nat)
  | tryRecv (id : Nat)
  deriving DecidableEq, Repr

inductive Answer (α β : Type) where
  | nothing
  | whole (a : Callers.Answer α β)
  /-- What the completion will return once it has sent the response. -/
  | removed (r : Option (α × Duration))
  /-- A wait for a response has ended. -/
  | ended (r : Except WindowError β)

variable {α β : Type}

def ofCapacity (capacity : Nat) : Race α β := ⟨.ofCapacity capacity, [], [], []⟩

/-- What a caller makes of the channel it was promised the response in. -/
def received (key : UInt32) : Option (Outcome β) → Except WindowError β
  | some (.response r) => .ok r
  | _ => .error (.expired key)

/-- Does a step. One that names something which is not there changes nothing. -/
def perform (s : Race α β) : Step α β → Race α β × Answer α β
  | .whole op =>
    let (callers, a) := s.callers.perform op
    ({ s with callers }, .whole a)
  | .remove key response =>
    match s.callers.window.find? key with
    | none => (s, .removed none)
    | some e =>
      ({ s with
          callers.window := s.callers.window.detach e
          inFlight := s.inFlight ++ [⟨e.id, response⟩] },
        .removed (some (e.request, .between e.offeredAt s.callers.now)))
  | .send id =>
    match s.inFlight.find? (·.id = id) with
    | none => (s, .nothing)
    | some f =>
      ({ s with
          callers.window := s.callers.window.deliver id (.response f.response)
          inFlight := s.inFlight.filter (·.id ≠ id) }, .nothing)
  | .fire id =>
    match s.callers.waiters.find? (·.id = id) with
    | none => (s, .nothing)
    | some x =>
      if (s.callers.window.outcome? id).isNone && x.deadline ≤ s.callers.now then
        ({ s with
            callers.waiters := s.callers.waiters.filter (·.id ≠ id)
            fired := s.fired ++ [x] }, .nothing)
      else (s, .nothing)
  | .cancelSlot id =>
    match s.fired.find? (·.id = id) with
    | none => (s, .nothing)
    | some x =>
      let fired := s.fired.filter (·.id ≠ id)
      match s.callers.window.withdraw x.key id with
      | (window, true) =>
        ({ s with callers.window := window, fired }, .ended (.error (.timeout x.key)))
      | (window, false) =>
        ({ s with callers.window := window, fired, lost := s.lost ++ [x] }, .nothing)
  | .tryRecv id =>
    match s.lost.find? (·.id = id) with
    | none => (s, .nothing)
    | some x =>
      ({ s with lost := s.lost.filter (·.id ≠ id) },
        .ended (received x.key (s.callers.window.outcome? id)))

/-- The state after steps, done one after the other. -/
def after (s : Race α β) (steps : List (Step α β)) : Race α β :=
  steps.foldl (fun s step => (s.perform step).1) s

/-- The state before the `k`-th of some steps, from a window that nobody uses. -/
def before (capacity : Nat) (steps : List (Step α β)) (k : Nat) : Race α β :=
  (ofCapacity capacity).after (steps.take k)

/-- The step ends the wait for the response to the entry drawn as `id`. -/
def Ends (s : Race α β) (step : Step α β) (id : Nat) (r : Except WindowError β) : Prop :=
  step = .whole (.look id) ∧ (s.perform step).2 = .whole (.ended r) ∨
    (step = .cancelSlot id ∨ step = .tryRecv id) ∧ (s.perform step).2 = .ended r

/-- Some caller awaits the response to the entry drawn as `id`. -/
def Awaits (s : Race α β) (id : Nat) : Prop :=
  ∃ x, (x ∈ s.callers.waiters ∨ x ∈ s.fired ∨ x ∈ s.lost) ∧ x.id = id

/-- The second half of the completion of the entry drawn as `id` comes between two steps. -/
def SentBetween (steps : List (Step α β)) (id k j : Nat) : Prop :=
  ∃ d, k < d ∧ d < j ∧ steps[d]? = some (.send id)

end Race

end Smsc
