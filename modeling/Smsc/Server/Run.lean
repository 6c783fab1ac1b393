import Smsc.Server.Lifecycle
import Smsc.Session.Run

/-!
# Smsc.Server.Run — runs of a server

As runs of a session, runs of a server are made of stimuli from outside and of moves of its own;
what happens to a session is part of both. Nothing is said here about who goes first.

* `ServerStimulus`, `Server.feel`; `ServerMove`, `Server.can`, `Server.move`;
* `Server.Runs`: from one state to another by stimuli and possible moves;
* `Server.Step`, `Server.after`, `Server.before`: the same step by step.
-/

namespace Smsc

/-- What comes to a server from outside. -/
inductive ServerStimulus where
  | start
  | stop
  /-- The host gives the address to a call of start, or refuses it. -/
  | bound (task : Nat) (r : Except String Unit)
  /-- The host says under which address a call of start listens, or fails to. -/
  | named (task : Nat) (r : Except String SocketAddress)
  /-- A client connects to the loop that a task runs. -/
  | connect (acceptor : Nat) (a : Arrival)
  | elapse (d : Duration)
  | install (processor : Nat)
  /-- Somebody wants to be told of sessions that come and go. -/
  | listen
  /-- Something comes to a session; time passes for all at once, by `elapse`. -/
  | session (n : Nat) (x : Stimulus)
  deriving Repr

/-- What a server does by itself. -/
inductive ServerMove where
  | task (id : Nat)
  | session (n : Nat) (m : Move)
  deriving DecidableEq, Repr

namespace Server

/-- What a stimulus changes at once. -/
def feel (s : Server) : ServerStimulus → Server
  | .start => s.addTask (.start .asking)
  | .stop => s.addTask (.stop .asking)
  | .bound task r => s.bound task r
  | .named task r => s.named task r
  | .connect acceptor a =>
    match s.acceptor? acceptor with
    | some x => s.setTask acceptor (.accept { x with backlog := x.backlog ++ [a] })
    | none => s
  | .elapse d =>
    { s with now := s.now + d.nanos, sessions := s.sessions.map fun x => x.feel (.elapse d) }
  | .install processor => { s with processor }
  | .listen => { s with hasListener := true }
  | .session n x =>
    match x with
    | .elapse _ => s
    | x => s.updateSession n fun t => t.feel x

/-- Is the reader of a session at work? -/
def isServed (s : Server) (n : Nat) : Bool :=
  s.tasks.any fun t =>
    match t.activity with
    | .serve _ m .reading => m = n
    | _ => false

/-- Is a move possible? -/
def can (s : Server) : ServerMove → Bool
  | .task id => (s.findTask? id).any fun t => s.taskIsReady t.activity
  | .session n m =>
    (s.session? n).any (·.can m) &&
      match m with
      | .reader _ => s.isServed n
      | _ => true

/-- Does a move. -/
def move (s : Server) : ServerMove → Server
  | .task id =>
    match s.findTask? id with
    | some t => s.stepTask t
    | none => s
  | .session n m => s.updateSession n fun x => x.move m

/-- From `s` to the second state by stimuli and possible moves, in any order. -/
inductive Runs (s : Server) : Server → Prop where
  | refl : Runs s s
  | feel {t : Server} (x : ServerStimulus) : Runs s t → Runs s (t.feel x)
  | move {t : Server} (m : ServerMove) : Runs s t → t.can m = true → Runs s (t.move m)

/-- One step of a run. -/
inductive Step where
  | feel (x : ServerStimulus)
  | move (m : ServerMove)
  deriving Repr

/-- Takes a step. A move that is not possible changes nothing. -/
def step (s : Server) : Step → Server
  | .feel x => s.feel x
  | .move m => if s.can m then s.move m else s

/-- The state after steps, taken one after the other. -/
def after (s : Server) (xs : List Step) : Server := xs.foldl step s

theorem after_append (s : Server) (xs ys : List Step) : s.after (xs ++ ys) = (s.after xs).after ys := by
  simp [after]

/-- The state before the `k`-th step of a run. -/
def before (s : Server) (xs : List Step) (k : Nat) : Server := s.after (xs.take k)

theorem Runs.trans {s t u : Server} (h : s.Runs t) (h' : t.Runs u) : s.Runs u := by
  induction h' with
  | refl => exact h
  | feel x _ ih => exact .feel x ih
  | move m _ hm ih => exact .move m ih hm

theorem runs_step (s : Server) (x : Step) : s.Runs (s.step x) := by
  cases x with
  | feel x => exact .feel x .refl
  | move m =>
    by_cases hm : s.can m = true
    · simpa [step, hm] using Runs.move m .refl hm
    · simpa [step, hm] using Runs.refl (s := s)

/-- Every sequence of steps is a run. -/
theorem runs_after (s : Server) (xs : List Step) : s.Runs (s.after xs) := by
  induction xs generalizing s with
  | nil => exact .refl
  | cons x xs ih => exact (runs_step s x).trans (ih (s.step x))

end Server

end Smsc
