import Smsc.Window.Basic

/-!
# Smsc.Window.Offer — callers that wait for capacity, and for a response

An offer that finds the window full waits for a permit, up to a deadline. Once it is admitted, its
caller may wait for the response, up to a deadline again. Both waits are data here: `resume` and
`collect` say what a waiting caller finds when it looks.

* `Window.offer`, `Window.resume`: from the offer to admission or refusal;
* `Window.collect`: from admission to the response;
* `PendingOffer.isReady`, `Waiter.isReady`: would looking end the wait?
-/

namespace Smsc

/-- An offer that waits for a permit. -/
structure PendingOffer (α : Type) where
  ticket : Nat
  key : UInt32
  request : α
  offerTimeout : Duration
  expireTimeout : Duration
  /-- When the wait for a permit ends. -/
  deadline : Instant
  deriving DecidableEq, Repr

/-- Where an offer has got to. -/
inductive Offered (α : Type) where
  | admitted (id : Nat)
  | refused (e : WindowError)
  | waiting (p : PendingOffer α)
  deriving DecidableEq, Repr

/-- The caller of an admitted offer, waiting for the response. -/
structure Waiter where
  key : UInt32
  id : Nat
  /-- When the wait for the response ends. -/
  deadline : Instant
  deriving DecidableEq, Repr

namespace Window

variable {α β : Type}

/-- Admission of a caller that has a permit, as the end of an offer. -/
def placeOffer (w : Window α β) (now : Instant) (key : UInt32) (request : α)
    (expireTimeout : Duration) : Window α β × Offered α :=
  match w.place now key request expireTimeout with
  | (w, .ok id) => (w, .admitted id)
  | (w, .error e) => (w, .refused e)

/-- Looks whether a waiting offer has its permit. A permit wins over a deadline that has passed. -/
def resume (w : Window α β) (now : Instant) (p : PendingOffer α) : Window α β × Offered α :=
  match w.permits.poll p.ticket with
  | (permits, .permit) => { w with permits }.placeOffer now p.key p.request p.expireTimeout
  | (permits, .closed) => ({ w with permits }, .refused .closed)
  | (permits, .waiting) =>
    if p.deadline ≤ now then
      ({ w with permits := permits.withdraw p.ticket }, .refused (.offerTimeout p.offerTimeout))
    else ({ w with permits }, .waiting p)

/-- Offers a request under a key. A key in use is refused before a permit is asked for. -/
def offer (w : Window α β) (now : Instant) (key : UInt32) (request : α)
    (offerTimeout expireTimeout : Duration) : Window α β × Offered α :=
  if w.contains key then (w, .refused (.duplicateKey key))
  else
    match w.permits.acquire with
    | (permits, .permit) => { w with permits }.placeOffer now key request expireTimeout
    | (permits, .closed) => ({ w with permits }, .refused .closed)
    | (permits, .queued ticket) =>
      { w with permits }.resume now
        { ticket, key, request, offerTimeout, expireTimeout,
          deadline := now + offerTimeout.nanos }

/-- Gives up a waiting offer. -/
def abandon (w : Window α β) (p : PendingOffer α) : Window α β :=
  { w with permits := w.permits.withdraw p.ticket }

/-- Looks whether the response is there. A response wins over a deadline that has passed; nothing
means that the wait goes on. -/
def collect (w : Window α β) (now : Instant) (x : Waiter) :
    Window α β × Option (Except WindowError β) :=
  match w.outcome? x.id with
  | some (.response r) => (w, some (.ok r))
  | some .released => (w, some (.error (.expired x.key)))
  | none =>
    if x.deadline ≤ now then
      match w.withdraw x.key x.id with
      | (w, true) => (w, some (.error (.timeout x.key)))
      | (w, false) => (w, some (.error (.expired x.key)))
    else (w, none)

end Window

variable {α β : Type}

/-- Would `Window.resume` end the wait? -/
def PendingOffer.isReady (p : PendingOffer α) (w : Window α β) (now : Instant) : Bool :=
  w.permits.isSettled p.ticket || p.deadline ≤ now

/-- Would `Window.collect` end the wait? -/
def Waiter.isReady (x : Waiter) (w : Window α β) (now : Instant) : Bool :=
  (w.outcome? x.id).isSome || x.deadline ≤ now

end Smsc
