import Smsc.Session.Call
import Smsc.Session.Reader

/-!
# Smsc.Session.Run — runs of a session

A run is made of stimuli, which come from outside, and of moves, which the session makes itself
whenever they are possible. Nothing is said here about who goes first.

* `Stimulus`, `Session.feel`; `Move`, `Session.can`, `Session.move`;
* `Session.Runs`: from one state to another by stimuli and possible moves;
* `Session.Step`, `Session.after`: the same step by step;
* `Session.AtRest`: no move is possible.
-/

namespace Smsc

/-- What comes to a session from outside. -/
inductive Stimulus where
  /-- Octets arrive. -/
  | arrive (octets : List UInt8)
  /-- The client sends no more. -/
  | endInput
  /-- Time passes. -/
  | elapse (d : Duration)
  /-- A request is to be sent to the client. -/
  | send (request : Request) (timeout : Duration)
  /-- The session is to be closed. -/
  | close
  /-- A call is given up. -/
  | drop (id : Nat)
  /-- Somebody who kept a responder replies. -/
  | answer (responder : Nat) (reply : Reply)
  /-- A late reply is given up. -/
  | forget (id : Nat)
  /-- The session is to be disconnected. -/
  | disconnect
  /-- Another processor handles the requests from now on. -/
  | install (processor : Nat)
  /-- The processor takes a request in hand. -/
  | begin (plan : Plan)
  /-- Writes fail from now on, or no longer. -/
  | failWrites (on : Bool)
  /-- Writes hang from now on, or no longer. -/
  | stallWrites (on : Bool)
  /-- Writes go through after a disconnect from now on, or no longer. -/
  | lingerWrites (on : Bool)
  /-- Disconnecting reports a failure from now on, or no longer. -/
  | failDisconnects (on : Bool)
  deriving DecidableEq, Repr

/-- What a session does by itself. -/
inductive Move where
  | reader (m : ReaderMove)
  | call (id : Nat)
  | answer (id : Nat)
  deriving DecidableEq, Repr

namespace Session

def findCall? (s : Session) (id : Nat) : Option Call := s.calls.find? (·.id = id)

def findAnswer? (s : Session) (id : Nat) : Option Answer := s.answers.find? (·.id = id)

/-- Puts a new call in line. -/
def addCall (s : Session) (purpose : CallPurpose) (request : Request) (timeout : Duration) : Session :=
  { s with
    calls := s.calls ++ [⟨s.nextTask, purpose, request, timeout, .starting⟩]
    nextTask := s.nextTask + 1 }

/-- Puts a new reply in line. -/
def addAnswer (s : Session) (responder : Nat) (reply : Reply) : Session :=
  { s with
    answers := s.answers ++ [⟨s.nextTask, responder, reply, .starting⟩]
    nextTask := s.nextTask + 1 }

/-- Octets and the end of the input count only while the reader is there and the input goes on. -/
def listens (s : Session) : Bool := !s.inputEnded && s.reader ≠ .finished

/-- What a stimulus changes at once. -/
def feel (s : Session) : Stimulus → Session
  | .arrive octets => if s.listens then { s with input := s.input ++ octets } else s
  | .endInput => if s.listens then { s with inputEnded := true } else s
  | .elapse d => { s with now := s.now + d.nanos }
  | .send request timeout => s.addCall .request request timeout
  | .close => s.addCall .close .unbind s.settings.unbindTimeout
  | .drop id =>
    match s.findCall? id with
    | some c => s.dropCall c
    | none => s
  | .answer responder reply => s.addAnswer responder reply
  | .forget id =>
    match s.findAnswer? id with
    | some a => s.dropAnswer a
    | none => s
  | .disconnect => s.disconnect.1
  | .install processor => { s with processor }
  | .begin plan => s.beginWork plan
  | .failWrites on => { s with channel := { s.channel with failsWrites := on } }
  | .stallWrites on => { s with channel := { s.channel with isStalled := on } }
  | .lingerWrites on => { s with channel := { s.channel with lingers := on } }
  | .failDisconnects on => { s with channel := { s.channel with failsDisconnects := on } }

/-- Is a move possible? -/
def can (s : Session) : Move → Bool
  | .reader m => s.readerCan m
  | .call id => (s.findCall? id).any s.callIsReady
  | .answer id => (s.findAnswer? id).any s.answerIsReady

/-- Does a move. -/
def move (s : Session) : Move → Session
  | .reader m => s.moveReader m
  | .call id =>
    match s.findCall? id with
    | some c => s.stepCall c
    | none => s
  | .answer id =>
    match s.findAnswer? id with
    | some a => s.stepAnswer a
    | none => s

/-- From `s` to the second state by stimuli and possible moves, in any order. -/
inductive Runs (s : Session) : Session → Prop where
  | refl : Runs s s
  | feel {t : Session} (x : Stimulus) : Runs s t → Runs s (t.feel x)
  | move {t : Session} (m : Move) : Runs s t → t.can m = true → Runs s (t.move m)

/-- One step of a run. -/
inductive Step where
  | feel (x : Stimulus)
  | move (m : Move)
  deriving DecidableEq, Repr

/-- Takes a step. A move that is not possible changes nothing. -/
def step (s : Session) : Step → Session
  | .feel x => s.feel x
  | .move m => if s.can m then s.move m else s

/-- The state after steps, taken one after the other. -/
def after (s : Session) (xs : List Step) : Session := xs.foldl step s

@[simp] theorem after_nil (s : Session) : s.after [] = s := rfl

theorem after_concat (s : Session) (xs : List Step) (x : Step) :
    s.after (xs ++ [x]) = (s.after xs).step x := by
  simp [after]

theorem Runs.trans {s t u : Session} (h : s.Runs t) (h' : t.Runs u) : s.Runs u := by
  induction h' with
  | refl => exact h
  | feel x _ ih => exact .feel x ih
  | move m _ hm ih => exact .move m ih hm

theorem runs_step (s : Session) (x : Step) : s.Runs (s.step x) := by
  cases x with
  | feel x => exact .feel x .refl
  | move m =>
    by_cases hm : s.can m = true
    · simpa [step, hm] using Runs.move m .refl hm
    · simpa [step, hm] using Runs.refl (s := s)

theorem runs_after (s : Session) (xs : List Step) : s.Runs (s.after xs) := by
  induction xs generalizing s with
  | nil => exact .refl
  | cons x xs ih => exact (runs_step s x).trans (ih (s.step x))

/-- The runs are the sequences of steps. -/
theorem runs_iff {s t : Session} : s.Runs t ↔ ∃ xs, s.after xs = t := by
  constructor
  · intro h
    induction h with
    | refl => exact ⟨[], rfl⟩
    | feel x _ ih =>
      obtain ⟨xs, rfl⟩ := ih
      exact ⟨xs ++ [.feel x], by rw [after_concat]; rfl⟩
    | move m _ hm ih =>
      obtain ⟨xs, rfl⟩ := ih
      exact ⟨xs ++ [.move m], by rw [after_concat]; simp [step, hm]⟩
  · rintro ⟨xs, rfl⟩
    exact runs_after s xs

/-- Nothing happens unless something comes from outside. -/
def AtRest (s : Session) : Prop := ∀ m, s.can m = false

end Session

end Smsc
