import Smsc.Failure
import Smsc.Window.Permits

/-!
# Smsc.Window.Basic — requests that await a response

A window holds at most `capacity` requests, each under a key. An entry leaves in one of these
ways: a response completes it, its waiter gives it up, it is cancelled or expires, or the window
is closed. What its waiter gets is put down in `outcomes` under the entry's own id, so a key that
is used again never meets an older waiter.

* `Window.detach`, `Window.deliver`: the two halves of a completion;
* `Window.place`: what an offer does once it has a permit;
* `Window.complete`, `Window.cancel`, `Window.expire`, `Window.close`: whole operations;
* `Window.withdraw`: a waiter gives up its entry.
-/

namespace Smsc

/-- A request in the window. -/
structure Entry (α : Type) where
  key : UInt32
  /-- Tells entries under the same key apart. -/
  id : Nat
  request : α
  offeredAt : Instant
  expireAt : Instant
  deriving DecidableEq, Repr

/-- What the waiter of an entry gets once the entry is gone. -/
inductive Outcome (β : Type) where
  | response (r : β)
  /-- Nothing: the entry was cancelled, expired, or released by a close. -/
  | released
  deriving DecidableEq, Repr

/-- Requests of type `α` that await a response of type `β`. -/
structure Window (α β : Type) where
  capacity : Nat
  permits : Permits
  /-- The requests in the window, the oldest first. -/
  entries : List (Entry α)
  /-- The id of the next entry. -/
  nextId : Nat
  /-- What came of entries that left for another reason than their waiter, by id. -/
  outcomes : List (Nat × Outcome β)
  deriving Repr

namespace Window

variable {α β : Type}

/-- A window for at most `capacity` requests. -/
def ofCapacity (capacity : Nat) : Window α β :=
  ⟨capacity, .ofCapacity capacity, [], 1, []⟩

/-- How many requests await a response. -/
def size (w : Window α β) : Nat := w.entries.length

/-- The entry under a key. -/
def find? (w : Window α β) (key : UInt32) : Option (Entry α) := w.entries.find? (·.key = key)

def contains (w : Window α β) (key : UInt32) : Bool := (w.find? key).isSome

/-- What the waiter of an entry gets, if that is settled. -/
def outcome? (w : Window α β) (id : Nat) : Option (Outcome β) := w.outcomes.lookup id

/-! ## Parts of operations -/

/-- Takes an entry out of the table. Its permit and its waiter are still to be seen to. -/
def detach (w : Window α β) (e : Entry α) : Window α β :=
  { w with entries := w.entries.filter (·.id ≠ e.id) }

/-- Settles what the waiter of a detached entry gets, and frees the entry's permit. -/
def deliver (w : Window α β) (id : Nat) (o : Outcome β) : Window α β :=
  { w with outcomes := (id, o) :: w.outcomes, permits := w.permits.release }

/-- Puts a request into the table, for a caller that has a permit. If the key has been taken in
the meantime, the permit goes back. -/
def place (w : Window α β) (now : Instant) (key : UInt32) (request : α) (expireAfter : Duration) :
    Window α β × Except WindowError Nat :=
  if w.contains key then
    ({ w with permits := w.permits.release, nextId := w.nextId + 1 }, .error (.duplicateKey key))
  else
    let entry := ⟨key, w.nextId, request, now, now + expireAfter.nanos⟩
    ({ w with entries := w.entries ++ [entry], nextId := w.nextId + 1 }, .ok w.nextId)

/-! ## Whole operations -/

/-- Resolves the entry under a key with a response: the request, and how long it was pending. -/
def complete (w : Window α β) (now : Instant) (key : UInt32) (response : β) :
    Window α β × Option (α × Duration) :=
  match w.find? key with
  | none => (w, none)
  | some e =>
    ((w.detach e).deliver e.id (.response response), some (e.request, .between e.offeredAt now))

/-- Removes the entry under a key without a response. -/
def cancel (w : Window α β) (key : UInt32) : Window α β × Option α :=
  match w.find? key with
  | none => (w, none)
  | some e => ((w.detach e).deliver e.id .released, some e.request)

/-- Removes entries without a response. -/
def releaseAll (w : Window α β) (es : List (Entry α)) : Window α β :=
  es.foldl (fun w e => (w.detach e).deliver e.id .released) w

/-- Removes every entry whose deadline has passed. -/
def expire (w : Window α β) (now : Instant) : Window α β × List (UInt32 × α) :=
  let due := w.entries.filter (·.expireAt ≤ now)
  (w.releaseAll due, due.map fun e => (e.key, e.request))

/-- No offer is admitted from now on. -/
def stopAdmission (w : Window α β) : Window α β := { w with permits := w.permits.close }

/-- Removes every entry without a response. -/
def clear (w : Window α β) : Window α β := w.releaseAll w.entries

/-- Closes the window: how many entries it released. -/
def close (w : Window α β) : Window α β × Nat := (w.stopAdmission.clear, w.size)

/-- Gives up an entry, if it is still the one under its key. -/
def withdraw (w : Window α β) (key : UInt32) (id : Nat) : Window α β × Bool :=
  match w.find? key with
  | some e =>
    if e.id = id then ({ w.detach e with permits := w.permits.release }, true) else (w, false)
  | none => (w, false)

end Window

end Smsc
