import Smsc.Simulation.Schedule
import Smsc.Window.Offer

/-!
# Smsc.Simulation.Window — named callers at a window

Callers offer requests and await responses under handles of their choice, while the clock moves
only on command. Requests are texts, responses whole numbers.

* `WindowCommand`: what can be asked for; `WindowSimulation.perform` does it and lets every caller
  run as far as it gets;
* `WindowReport`: what came of it.
-/

namespace Smsc.Simulation

/-- What a caller in the background is at. -/
inductive WindowWork where
  | starting (key : UInt32) (request : String) (offerTimeout expireTimeout : Duration)
  | offering (p : PendingOffer String)
  | awaiting (x : Waiter)
  deriving Repr

/-- How a call in the background ends. -/
inductive WindowEnding where
  | offered (key : UInt32)
  | response (n : Int)
  | failed (e : WindowError)
  deriving DecidableEq, Repr

/-- A call in the background. -/
structure WindowCall where
  id : Nat
  handle : String
  work : WindowWork
  deriving Repr

/-- A window, its callers, and the handles of admitted offers that nobody awaits yet. -/
structure WindowSimulation where
  window : Window String Int
  now : Instant
  calls : List WindowCall
  nextCall : Nat
  /-- The newest call of each handle, whether or not it has ended. -/
  newest : List (String × Nat)
  /-- Admitted offers by handle: key and entry. -/
  kept : List (String × UInt32 × Nat)
  /-- Calls that ended since the last report. -/
  ended : List (String × WindowEnding)
  deriving Repr

namespace WindowSimulation

def ofCapacity (capacity : Nat) : WindowSimulation :=
  ⟨.ofCapacity capacity, 0, [], 0, [], [], []⟩

/-- Is the call able to go on? -/
def isReady (s : WindowSimulation) (id : Nat) : Bool :=
  match s.calls.find? (·.id = id) with
  | none => false
  | some c =>
    match c.work with
    | .starting .. => true
    | .offering p => p.isReady s.window s.now
    | .awaiting x => x.isReady s.window s.now

def setWork (s : WindowSimulation) (id : Nat) (work : WindowWork) : WindowSimulation :=
  { s with calls := s.calls.map fun c => if c.id = id then { c with work } else c }

def finish (s : WindowSimulation) (c : WindowCall) (e : WindowEnding) : WindowSimulation :=
  { s with calls := s.calls.filter (·.id ≠ c.id), ended := s.ended ++ [(c.handle, e)] }

/-- Gives up the admitted offer kept under a handle. -/
def dropKept (s : WindowSimulation) (handle : String) : WindowSimulation × Bool :=
  match s.kept.lookup handle with
  | none => (s, false)
  | some (key, id) =>
    ({ s with window := (s.window.withdraw key id).1, kept := s.kept.filter (·.1 ≠ handle) }, true)

/-- Keeps an admitted offer under its caller's handle, in place of an older one. -/
def keep (s : WindowSimulation) (handle : String) (key : UInt32) (id : Nat) : WindowSimulation :=
  let s := (s.dropKept handle).1
  { s with kept := (handle, key, id) :: s.kept }

/-- What follows from where an offer has got to. -/
def afterOffer (s : WindowSimulation) (c : WindowCall) (key : UInt32) :
    Window String Int × Offered String → WindowSimulation
  | (window, .admitted id) => ({ s with window }.keep c.handle key id).finish c (.offered key)
  | (window, .refused e) => { s with window }.finish c (.failed e)
  | (window, .waiting p) => { s with window }.setWork c.id (.offering p)

/-- Lets one call look at the window. -/
def step (s : WindowSimulation) (id : Nat) : WindowSimulation :=
  match s.calls.find? (·.id = id) with
  | none => s
  | some c =>
    match c.work with
    | .starting key request offerTimeout expireTimeout =>
      s.afterOffer c key (s.window.offer s.now key request offerTimeout expireTimeout)
    | .offering p => s.afterOffer c p.key (s.window.resume s.now p)
    | .awaiting x =>
      match s.window.collect s.now x with
      | (window, none) => { s with window }
      | (window, some (.ok n)) => { s with window }.finish c (.response n)
      | (window, some (.error e)) => { s with window }.finish c (.failed e)

def machine : Machine WindowSimulation where
  tasks s := s.calls.map (·.id)
  isReady := isReady
  step := step
  elapse s d := { s with now := s.now + d.nanos }

def start (s : WindowSimulation) (handle : String) (work : WindowWork) : WindowSimulation :=
  { s with
    calls := s.calls ++ [⟨s.nextCall, handle, work⟩]
    nextCall := s.nextCall + 1
    newest := (handle, s.nextCall) :: s.newest }

/-- Ends the newest call of a handle without a result, unless it has ended by itself. -/
def abort (s : WindowSimulation) (handle : String) : WindowSimulation :=
  match s.calls.find? fun c => s.newest.lookup handle = some c.id with
  | none => s
  | some c =>
    let s := { s with calls := s.calls.filter (·.id ≠ c.id) }
    match c.work with
    | .starting .. => s
    | .offering p => { s with window := s.window.abandon p }
    | .awaiting x => { s with window := (s.window.withdraw x.key x.id).1 }

end WindowSimulation

/-- What can be asked for. -/
inductive WindowCommand where
  | offer (handle : String) (key : UInt32) (request : String) (offerTimeout expireTimeout : Duration)
  | await (handle : String) (timeout : Duration)
  | drop (handle : String)
  | abort (handle : String)
  | complete (key : UInt32) (response : Int)
  | cancel (key : UInt32)
  | expire
  | close
  | contains (key : UInt32)
  | advance (millis : Nat)
  deriving Repr

/-- The immediate answer to a command. -/
inductive WindowAnswer where
  | nothing
  | noSuchHandle
  | yesOrNo (b : Bool)
  | count (n : Nat)
  | request (r : Option String)
  | completed (r : Option (String × Duration))
  | expired (es : List (UInt32 × String))
  deriving DecidableEq, Repr

/-- What came of a command: its answer, the calls that ended, and the entries left. -/
structure WindowReport where
  answer : WindowAnswer
  ended : List (String × WindowEnding)
  size : Nat
  deriving Repr

namespace WindowSimulation

/-- The command itself, before any caller goes on. -/
def act (s : WindowSimulation) : WindowCommand → WindowSimulation × WindowAnswer
  | .offer handle key request offerTimeout expireTimeout =>
    (s.start handle (.starting key request offerTimeout expireTimeout), .nothing)
  | .await handle timeout =>
    match s.kept.lookup handle with
    | none => (s, .noSuchHandle)
    | some (key, id) =>
      ({ s with kept := s.kept.filter (·.1 ≠ handle) }.start handle
        (.awaiting ⟨key, id, s.now + timeout.nanos⟩), .nothing)
  | .drop handle => (s.dropKept handle).map id .yesOrNo
  | .abort handle => (s.abort handle, .nothing)
  | .complete key response =>
    let (window, r) := s.window.complete s.now key response
    ({ s with window }, .completed r)
  | .cancel key =>
    let (window, r) := s.window.cancel key
    ({ s with window }, .request r)
  | .expire =>
    let (window, es) := s.window.expire s.now
    ({ s with window }, .expired (es.mergeSort fun a b => a.1 ≤ b.1))
  | .close =>
    let (window, n) := s.window.close
    ({ s with window }, .count n)
  | .contains key => (s, .yesOrNo (s.window.contains key))
  | .advance millis => (machine.advance millis s, .nothing)

/-- Does what a command asks for, and lets every caller go on as far as it gets. -/
def perform (s : WindowSimulation) (c : WindowCommand) : WindowSimulation × WindowReport :=
  let (s, answer) := { s with ended := [] }.act c
  let s := machine.settle s
  (s, { answer, ended := s.ended.mergeSort fun a b => a.1 ≤ b.1, size := s.window.size })

/-- Does one command after the other. -/
def run (s : WindowSimulation) : List WindowCommand → List WindowReport
  | [] => []
  | c :: cs =>
    let (s, report) := s.perform c
    report :: s.run cs

end WindowSimulation

end Smsc.Simulation
