/-!
# Smsc.Window.Permits — capacity, handed out in order of arrival

A fixed number of permits. Whoever finds none waits under a ticket; a permit that comes back goes
to the ticket that has waited longest, and its owner picks it up later.

* `Permits.acquire`: take a permit, join the queue, or be refused;
* `Permits.poll`: what a ticket has got so far;
* `Permits.release`, `Permits.withdraw`, `Permits.close`.

`Permits.Conserved` says that no permit is lost or made; every operation keeps it.
-/

namespace Smsc

/-- Permits and the tickets that wait for one. -/
structure Permits where
  /-- Permits that nobody has. -/
  free : Nat
  /-- No permit is given any more. -/
  isClosed : Bool
  /-- Tickets without a permit, the longest waiting first. -/
  queue : List Nat
  /-- Tickets whose permit has not been picked up. -/
  granted : List Nat
  /-- The next ticket to be drawn. -/
  nextTicket : Nat
  deriving DecidableEq, Repr

namespace Permits

def ofCapacity (n : Nat) : Permits := ⟨n, false, [], [], 0⟩

/-- What asking for a permit gives. -/
inductive Acquired where
  | permit
  | closed
  | queued (ticket : Nat)
  deriving DecidableEq, Repr

/-- Takes a permit if one is free, else draws a ticket. -/
def acquire (p : Permits) : Permits × Acquired :=
  if p.isClosed then (p, .closed)
  else if 0 < p.free then ({ p with free := p.free - 1 }, .permit)
  else ({ p with queue := p.queue ++ [p.nextTicket], nextTicket := p.nextTicket + 1 },
    .queued p.nextTicket)

/-- Gives a permit back: to the first ticket of the queue, if there is one. -/
def release (p : Permits) : Permits :=
  match p.queue with
  | [] => { p with free := p.free + 1 }
  | t :: ts => { p with queue := ts, granted := p.granted ++ [t] }

/-- Gives up a ticket. A permit that it was granted goes on to the next. -/
def withdraw (p : Permits) (ticket : Nat) : Permits :=
  if ticket ∈ p.granted then { p with granted := p.granted.erase ticket }.release
  else { p with queue := p.queue.erase ticket }

/-- What a ticket has got so far. -/
inductive Polled where
  | permit
  | closed
  | waiting
  deriving DecidableEq, Repr

/-- Picks up the permit of a ticket. After a close even a granted permit is refused, and goes back. -/
def poll (p : Permits) (ticket : Nat) : Permits × Polled :=
  if p.isClosed then (p.withdraw ticket, .closed)
  else if ticket ∈ p.granted then ({ p with granted := p.granted.erase ticket }, .permit)
  else (p, .waiting)

/-- Would `poll` end the wait of a ticket? -/
def isSettled (p : Permits) (ticket : Nat) : Bool :=
  p.isClosed || ticket ∈ p.granted

/-- No permit is given from now on, and nobody waits. -/
def close (p : Permits) : Permits := { p with isClosed := true, queue := [] }

/-! ## Conservation -/

/-- All permits are free, granted, or among the `held` ones. -/
def Conserved (p : Permits) (capacity held : Nat) : Prop :=
  p.free + p.granted.length + held = capacity

theorem conserved_ofCapacity (n : Nat) : (ofCapacity n).Conserved n 0 := by
  simp [Conserved, ofCapacity]

theorem Conserved.release {p : Permits} {capacity held : Nat} (h : p.Conserved capacity (held + 1)) :
    p.release.Conserved capacity held := by
  unfold Conserved Permits.release at *
  split <;> simp at * <;> omega

end Permits

end Smsc
