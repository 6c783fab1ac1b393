import Smsc.Window.Offer

/-!
# Smsc.Window.Callers — a window and everybody who uses it

Beside the window stand the offers that wait for capacity, the handles of admitted offers that nobody
awaits yet, and the callers that await a response. All share one clock.

* `Callers`: the window, the clock, and who waits for what;
* `Callers.Op`: whole operations; `Callers.perform` does one, and `Callers.after` one after the other;
* `Callers.Admits`, `Callers.Takes`: an operation brings an entry into the table, or takes one out.
-/

namespace Smsc

/-- An admitted offer that nobody awaits yet. -/
structure Handle where
  key : UInt32
  id : Nat
  deriving DecidableEq, Repr

/-- A window and its callers. -/
structure Callers (α β : Type) where
  window : Window α β
  now : Instant
  /-- Offers that wait for capacity. -/
  offers : List (PendingOffer α)
  /-- Admitted offers that nobody awaits yet. -/
  handles : List Handle
  /-- Callers that await a response. -/
  waiters : List Waiter
  deriving Repr

namespace Callers

/-- A whole operation, by the window's owner or by one of its callers. -/
inductive Op (α β : Type) where
  | offer (key : UInt32) (request : α) (offerTimeout expireTimeout : Duration)
  /-- An offer that waits looks for its permit. -/
  | resume (ticket : Nat)
  /-- An offer that waits is given up. -/
  | abandon (ticket : Nat)
  /-- A caller starts to await the response to an admitted offer. -/
  | await (id : Nat) (timeout : Duration)
  /-- The handle of an admitted offer is dropped. -/
  | drop (id : Nat)
  /-- A caller that awaits a response looks for it. -/
  | look (id : Nat)
  /-- A caller that awaits a response is cancelled. -/
  | abort (id : Nat)
  | complete (key : UInt32) (response : β)
  | cancel (key : UInt32)
  | expire
  | close
  | elapse (d : Duration)
  deriving DecidableEq, Repr

/-- What an operation gives to whoever called it. -/
inductive Answer (α β : Type) where
  | nothing
  | offered (o : Offered α)
  /-- A wait for a response has ended. -/
  | ended (r : Except WindowError β)
  | completed (r : Option (α × Duration))
  | cancelled (r : Option α)
  | expired (rs : List (UInt32 × α))
  | closed (released : Nat)

variable {α β : Type}

/-- An empty window that nobody uses. -/
def ofCapacity (capacity : Nat) : Callers α β := ⟨.ofCapacity capacity, 0, [], [], []⟩

/-- Where an offer has got to decides what its caller holds from now on. -/
def noteOffer (c : Callers α β) (key : UInt32) : Window α β × Offered α → Callers α β × Answer α β
  | (window, .admitted id) =>
    ({ c with window, handles := c.handles ++ [⟨key, id⟩] }, .offered (.admitted id))
  | (window, .refused e) => ({ c with window }, .offered (.refused e))
  | (window, .waiting p) => ({ c with window, offers := c.offers ++ [p] }, .offered (.waiting p))

/-- A caller that has found something waits no more. -/
def noteLook (c : Callers α β) (id : Nat) : Window α β × Option (Except WindowError β) →
    Callers α β × Answer α β
  | (window, none) => ({ c with window }, .nothing)
  | (window, some r) => ({ c with window, waiters := c.waiters.filter (·.id ≠ id) }, .ended r)

/-- Gives an entry up. -/
def withdraw (c : Callers α β) (key : UInt32) (id : Nat) : Callers α β :=
  { c with window := (c.window.withdraw key id).1 }

/-- Does an operation. One that names an offer, a handle or a waiter which is not there changes
nothing. -/
def perform (c : Callers α β) : Op α β → Callers α β × Answer α β
  | .offer key request offerTimeout expireTimeout =>
    c.noteOffer key (c.window.offer c.now key request offerTimeout expireTimeout)
  | .resume ticket =>
    match c.offers.find? (·.ticket = ticket) with
    | none => (c, .nothing)
    | some p =>
      { c with offers := c.offers.filter (·.ticket ≠ ticket) }.noteOffer p.key (c.window.resume c.now p)
  | .abandon ticket =>
    match c.offers.find? (·.ticket = ticket) with
    | none => (c, .nothing)
    | some p =>
      ({ c with
          window := c.window.abandon p
          offers := c.offers.filter (·.ticket ≠ ticket) }, .nothing)
  | .await id timeout =>
    match c.handles.find? (·.id = id) with
    | none => (c, .nothing)
    | some h =>
      ({ c with
          handles := c.handles.filter (·.id ≠ id)
          waiters := c.waiters ++ [⟨h.key, id, c.now + timeout.nanos⟩] }, .nothing)
  | .drop id =>
    match c.handles.find? (·.id = id) with
    | none => (c, .nothing)
    | some h => ({ c with handles := c.handles.filter (·.id ≠ id) }.withdraw h.key id, .nothing)
  | .look id =>
    match c.waiters.find? (·.id = id) with
    | none => (c, .nothing)
    | some x => c.noteLook id (c.window.collect c.now x)
  | .abort id =>
    match c.waiters.find? (·.id = id) with
    | none => (c, .nothing)
    | some x => ({ c with waiters := c.waiters.filter (·.id ≠ id) }.withdraw x.key id, .nothing)
  | .complete key response =>
    let (window, r) := c.window.complete c.now key response
    ({ c with window }, .completed r)
  | .cancel key =>
    let (window, r) := c.window.cancel key
    ({ c with window }, .cancelled r)
  | .expire =>
    let (window, rs) := c.window.expire c.now
    ({ c with window }, .expired rs)
  | .close =>
    let (window, released) := c.window.close
    ({ c with window }, .closed released)
  | .elapse d => ({ c with now := c.now + d.nanos }, .nothing)

/-- The state after operations, done one after the other. -/
def after (c : Callers α β) (ops : List (Op α β)) : Callers α β :=
  ops.foldl (fun c op => (c.perform op).1) c

@[simp] theorem after_nil (c : Callers α β) : c.after [] = c := rfl

/-- The operation brings the entry into the table. -/
def Admits (c : Callers α β) (op : Op α β) (e : Entry α) : Prop :=
  e ∉ c.window.entries ∧ e ∈ (c.perform op).1.window.entries

/-- The operation takes the entry out of the table. -/
def Takes (c : Callers α β) (op : Op α β) (e : Entry α) : Prop :=
  e ∈ c.window.entries ∧ e ∉ (c.perform op).1.window.entries

end Callers

end Smsc
