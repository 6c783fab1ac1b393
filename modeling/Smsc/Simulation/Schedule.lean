import Smsc.Time

/-!
# Smsc.Simulation.Schedule — running tasks on a clock that only the caller moves

A machine is made of numbered tasks. A task that is ready is run until it has to wait; tasks that
become ready meanwhile queue up behind it. Time stands still while any task is ready.

* `Machine.settle`: runs tasks until none is ready;
* `Machine.advance`: lets milliseconds pass one by one, settling after each.
-/

namespace Smsc.Simulation

/-- A state made of tasks. -/
structure Machine (σ : Type) where
  /-- The tasks, in the order in which they queue up when several become ready at once. -/
  tasks : σ → List Nat
  isReady : σ → Nat → Bool
  /-- Runs a task up to its next wait, or a part of the way there. -/
  step : σ → Nat → σ
  /-- Lets time pass. -/
  elapse : σ → Duration → σ

namespace Machine

variable {σ : Type}

/-- Puts tasks that have become ready at the end of the queue. -/
def enqueue (m : Machine σ) (queue : List Nat) (s : σ) : List Nat :=
  queue ++ (m.tasks s).filter fun t => !queue.contains t && m.isReady s t

/-- Runs the head of the queue for as long as it is ready, then the next; at most `fuel` steps. -/
def settleFrom (m : Machine σ) : (fuel : Nat) → List Nat → σ → σ
  | 0, _, s => s
  | fuel + 1, queue, s =>
    match m.enqueue queue s with
    | [] => s
    | t :: rest =>
      if m.isReady s t then m.settleFrom fuel (t :: rest) (m.step s t)
      else m.settleFrom fuel rest s

/-- Steps that no simulation comes near. -/
def settleLimit : Nat := 1000000

/-- Runs tasks until none is ready. -/
def settle (m : Machine σ) (s : σ) : σ := m.settleFrom settleLimit [] s

/-- Lets `n` milliseconds pass; after each, everything runs that it has made ready. -/
def advance (m : Machine σ) : (n : Nat) → σ → σ
  | 0, s => s
  | n + 1, s => m.advance n (m.settle (m.elapse s (.ofMillis 1)))

end Machine

end Smsc.Simulation
