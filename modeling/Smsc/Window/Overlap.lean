import Smsc.Window.Race

/-!
# Smsc.Window.Overlap — offers and closes that overlap on one window

An offer looks for its key, asks for a permit, and only then looks again and inserts under the table's
lock. A close first closes the permits and then clears the table under the lock. In between, everybody
else may act.

* `Bid`: an offer that is between its parts;
* `Overlap`: a window in use, with the offers and the closes that are half done;
* `Overlap.Step`: a step of everybody else, a part of an offer, or a half of a close;
* `Overlap.perform` does one step, `Overlap.after` one after the other.
-/

namespace Smsc

/-- An offer between its parts. -/
structure Bid (α : Type) where
  /-- Tells the offers apart. -/
  number : Nat
  key : UInt32
  request : α
  offerTimeout : Duration
  expireTimeout : Duration
  deriving DecidableEq, Repr

/-- A window in use, and what is half done to it. -/
structure Overlap (α β : Type) where
  race : Race α β
  /-- Offers that found their key free, and are still to ask for a permit. -/
  asking : List (Bid α)
  /-- Offers that have a permit, and are still to insert. -/
  entering : List (Bid α)
  /-- The number of the next offer. -/
  nextBid : Nat
  /-- How many closes are between their halves. -/
  closing : Nat
  deriving Repr

namespace Overlap

inductive Step (α β : Type) where
  | race (step : Race.Step α β)
  /-- An offer looks for its key for the first time. -/
  | look (key : UInt32) (request : α) (offerTimeout expireTimeout : Duration)
  /-- It asks for a permit. -/
  | acquire (number : Nat)
  /-- An offer that waits for a permit looks for it. -/
  | pick (ticket : Nat)
  /-- An offer with a permit looks for its key again, and inserts its request. -/
  | insert (number : Nat)
  /-- The first half of a close. -/
  | shut
  /-- The second half. -/
  | clear
  deriving DecidableEq, Repr

inductive Answer (α β : Type) where
  | nothing
  | race (a : Race.Answer α β)
  | offered (o : Offered α)
  | closed (released : Nat)

variable {α β : Type}

def ofCapacity (capacity : Nat) : Overlap α β := ⟨.ofCapacity capacity, [], [], 0, 0⟩

def window (s : Overlap α β) : Window α β := s.race.callers.window

def setWindow (s : Overlap α β) (w : Window α β) : Overlap α β :=
  { s with race.callers.window := w }

/-- Does a step. One that names something which is not there changes nothing. -/
def perform (s : Overlap α β) : Step α β → Overlap α β × Answer α β
  | .race step =>
    let (race, a) := s.race.perform step
    ({ s with race }, .race a)
  | .look key request offerTimeout expireTimeout =>
    if s.window.contains key then (s, .offered (.refused (.duplicateKey key)))
    else
      ({ s with
          asking := s.asking ++ [⟨s.nextBid, key, request, offerTimeout, expireTimeout⟩]
          nextBid := s.nextBid + 1 }, .nothing)
  | .acquire number =>
    match s.asking.find? (·.number = number) with
    | none => (s, .nothing)
    | some b =>
      let s := { s with asking := s.asking.filter (·.number ≠ number) }
      match s.window.permits.acquire with
      | (permits, .permit) =>
        ({ s.setWindow { s.window with permits } with entering := s.entering ++ [b] }, .nothing)
      | (permits, .closed) => (s.setWindow { s.window with permits }, .offered (.refused .closed))
      | (permits, .queued ticket) =>
        let p : PendingOffer α := ⟨ticket, b.key, b.request, b.offerTimeout, b.expireTimeout,
          s.race.callers.now + b.offerTimeout.nanos⟩
        ({ s with race.callers := { s.race.callers with
              window := { s.window with permits }
              offers := s.race.callers.offers ++ [p] } }, .offered (.waiting p))
  | .pick ticket =>
    match s.race.callers.offers.find? (·.ticket = ticket) with
    | none => (s, .nothing)
    | some p =>
      let left := { s with
        race.callers.offers := s.race.callers.offers.filter (·.ticket ≠ ticket) }
      match s.window.permits.poll ticket with
      | (permits, .permit) =>
        ({ left.setWindow { s.window with permits } with
            entering := s.entering ++
              [⟨s.nextBid, p.key, p.request, p.offerTimeout, p.expireTimeout⟩]
            nextBid := s.nextBid + 1 }, .nothing)
      | (permits, .closed) => (left.setWindow { s.window with permits }, .offered (.refused .closed))
      | (permits, .waiting) =>
        if p.deadline ≤ s.race.callers.now then
          (left.setWindow { s.window with permits := permits.withdraw ticket },
            .offered (.refused (.offerTimeout p.offerTimeout)))
        else (s.setWindow { s.window with permits }, .offered (.waiting p))
  | .insert number =>
    match s.entering.find? (·.number = number) with
    | none => (s, .nothing)
    | some b =>
      let r := s.window.placeOffer s.race.callers.now b.key b.request b.expireTimeout
      ({ s with
          race.callers := (s.race.callers.noteOffer b.key r).1
          entering := s.entering.filter (·.number ≠ number) }, .offered r.2)
  | .shut => ({ s.setWindow s.window.stopAdmission with closing := s.closing + 1 }, .nothing)
  | .clear =>
    if s.closing = 0 then (s, .nothing)
    else ({ s.setWindow s.window.clear with closing := s.closing - 1 }, .closed s.window.size)

/-- The state after steps, done one after the other. -/
def after (s : Overlap α β) (steps : List (Step α β)) : Overlap α β :=
  steps.foldl (fun s step => (s.perform step).1) s

/-- The state before the `k`-th of some steps, from a window that nobody uses. -/
def before (capacity : Nat) (steps : List (Step α β)) (k : Nat) : Overlap α β :=
  (ofCapacity capacity).after (steps.take k)

/-- What an offer is told at its end, if an answer ends one. -/
def Answer.ending? : Answer α β → Option (Except WindowError Nat)
  | .offered (.admitted id) | .race (.whole (.offered (.admitted id))) => some (.ok id)
  | .offered (.refused e) | .race (.whole (.offered (.refused e))) => some (.error e)
  | _ => none

/-- With the step a close returns, a whole one or one done by halves. -/
def Closes (s : Overlap α β) (step : Step α β) : Prop :=
  step = .race (.whole .close) ∨ step = .clear ∧ 0 < s.closing

end Overlap

end Smsc
