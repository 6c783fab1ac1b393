import Smsc.Proofs.Window.Queue

/-!
# Smsc.Proofs.Window.Refusals — what a refused offer leaves behind

An offer may be refused before it has anything, while it waits, or with a permit in its hands. Whatever it
has had goes back.

* `Permits.Hands p p'`: a permit goes to whoever has waited longest; `release_hands`, `withdraw_hands`;
* `Window.Bids`, `offer_bids`: what an offer comes to at once, without waiting;
* `withdraw_permits`, `withdraw_of_absent`, `withdraw_admitted`: what it is to give an entry up.
-/

namespace Smsc

/-- A permit comes back: it goes to the ticket that has waited longest, or is free if there is none. -/
structure Permits.Hands (p p' : Permits) : Prop where
  next : ∀ t ts, p.queue = t :: ts → p'.queue = ts ∧ p'.free = p.free ∧ t ∈ p'.granted
  idle : p.queue = [] → p'.queue = [] ∧ p'.free = p.free + 1
  isClosed : p'.isClosed = p.isClosed

theorem Permits.release_hands (p : Permits) : p.Hands p.release where
  next t ts hqueue := by
    rw [release_of_cons hqueue]
    exact ⟨rfl, rfl, by simp⟩
  idle hqueue := by
    rw [release_of_nil hqueue]
    exact ⟨hqueue, rfl⟩
  isClosed := release_isClosed p

theorem Permits.withdraw_hands (p : Permits) {ticket : Nat} (granted : ticket ∈ p.granted) :
    p.Hands (p.withdraw ticket) where
  next t ts hqueue := by
    obtain ⟨hqueue', hgranted, hfree⟩ := (GivesUp.withdraw p ticket).passes granted t ts hqueue
    exact ⟨hqueue', hfree, by simp [hgranted]⟩
  idle hqueue := by
    obtain ⟨hqueue', -, hfree⟩ := (GivesUp.withdraw p ticket).frees granted hqueue
    exact ⟨hqueue', hfree⟩
  isClosed := withdraw_isClosed p ticket

namespace Window

variable {α β : Type} {w : Window α β}

theorem resume_inTurn (h : w.permits.InTurn) (now : Instant) (p : PendingOffer α) :
    (w.resume now p).1.permits.InTurn := by
  have hresuming := resume_resuming w now p
  generalize w.resume now p = wo at hresuming ⊢
  cases hresuming with
  | closed | timedOut => exact h.withdraw p.ticket
  | admitted => exact h.pick p.ticket
  | keyTaken => exact (h.pick p.ticket).release
  | waiting => exact h

/-- What an offer comes to at once. One that is refused leaves nothing behind, but that its ticket is not
drawn again. -/
inductive Bids (w : Window α β) (now : Instant) (key : UInt32) (request : α) (expireTimeout : Duration) :
    Window α β × Offered α → Prop where
  | refused (e : WindowError) (nextTicket : Nat) :
    Bids w now key request expireTimeout ({ w with permits := { w.permits with nextTicket } }, .refused e)
  | admitted (untaken : w.contains key = false) (free : 0 < w.permits.free) :
    Bids w now key request expireTimeout ({ w with
      permits := { w.permits with free := w.permits.free - 1 }
      entries := w.entries ++ [⟨key, w.nextId, request, now, now + expireTimeout.nanos⟩]
      nextId := w.nextId + 1 }, .admitted w.nextId)
  | waiting (permits : Permits) (p : PendingOffer α) (unready : p.isReady { w with permits } now = false) :
    Bids w now key request expireTimeout ({ w with permits }, .waiting p)

/-- An offer that finds no permit draws a ticket, and looks whether it waits at all. -/
theorem resume_bids (h : w.permits.InTurn) (unclosed : w.permits.isClosed = false) (now : Instant) (key : UInt32)
    (request : α) (expireTimeout : Duration) {p : PendingOffer α} (ticket : p.ticket = w.permits.nextTicket) :
    w.Bids now key request expireTimeout (resume { w with permits := { w.permits with
      queue := w.permits.queue ++ [w.permits.nextTicket]
      nextTicket := w.permits.nextTicket + 1 } } now p) := by
  -- The ticket is new, so that it has not been granted, and nobody else queues under it.
  have hnew : w.permits.nextTicket ∉ w.permits.tickets := fun hmem => Nat.lt_irrefl _ (h.drawn _ hmem)
  have hungranted : p.ticket ∉ w.permits.granted := by
    rw [ticket]
    exact fun hmem => hnew (List.mem_append_right _ hmem)
  have hunqueued : w.permits.nextTicket ∉ w.permits.queue := fun hmem => hnew (List.mem_append_left _ hmem)
  have hleaves : (w.permits.queue ++ [w.permits.nextTicket]).erase p.ticket = w.permits.queue := by
    rw [ticket, List.erase_append_right _ hunqueued, List.erase_cons_head, List.append_nil]
  generalize hw : ({ w with permits := { w.permits with
    queue := w.permits.queue ++ [w.permits.nextTicket]
    nextTicket := w.permits.nextTicket + 1 } } : Window α β) = w'
  have hresuming := resume_resuming w' now p
  generalize w'.resume now p = wo at hresuming ⊢
  subst hw
  cases hresuming with
  | closed closed => exact absurd closed (by simp [unclosed])
  | admitted _ granted | keyTaken _ granted => exact absurd granted hungranted
  | timedOut =>
    simp only [Permits.withdraw, if_neg hungranted, hleaves]
    exact .refused _ _
  | waiting _ _ early =>
    refine .waiting _ p ?_
    simp [PendingOffer.isReady, Permits.isSettled, unclosed, hungranted, early]

theorem offer_bids (h : w.permits.InTurn) (now : Instant) (key : UInt32) (request : α)
    (offerTimeout expireTimeout : Duration) :
    w.Bids now key request expireTimeout (w.offer now key request offerTimeout expireTimeout) := by
  unfold offer Permits.acquire
  by_cases htaken : w.contains key = true
  · rw [if_pos htaken]
    exact .refused _ w.permits.nextTicket
  · rw [if_neg htaken]
    by_cases hclosed : w.permits.isClosed = true
    · rw [if_pos hclosed]
      exact .refused _ w.permits.nextTicket
    · rw [if_neg hclosed]
      by_cases hfree : 0 < w.permits.free
      · rw [if_pos hfree]
        have hplace : ¬ Window.contains { w with
            permits := { w.permits with free := w.permits.free - 1 } } key = true := htaken
        simp only [placeOffer, place, if_neg hplace]
        exact .admitted (by simpa using htaken) hfree
      · rw [if_neg hfree]
        exact resume_bids h (by simpa using hclosed) now key request expireTimeout rfl

/-- An entry that is given up makes room. -/
theorem withdraw_permits (hw : w.Sound) {e : Entry α} (he : e ∈ w.entries) :
    (w.withdraw e.key e.id).1.permits = w.permits.release := by
  unfold withdraw
  rw [(find?_eq_some hw).mpr ⟨he, rfl⟩]
  dsimp only
  rw [if_pos rfl]

/-- There is nothing to be given up. -/
theorem withdraw_of_absent (key : UInt32) {id : Nat} (absent : ∀ e ∈ w.entries, e.id ≠ id) :
    (w.withdraw key id).1 = w := by
  unfold withdraw
  split
  · rename_i e hfound
    rw [if_neg (absent e (List.mem_of_find?_eq_some hfound))]
  · rfl

/-- A request that was admitted and is given up again leaves the window as it was. -/
theorem withdraw_admitted (hw : w.Sound) (hin : w.permits.InTurn) {key : UInt32}
    (untaken : w.contains key = false) (free : 0 < w.permits.free) (request : α) (offeredAt expireAt : Instant) :
    (withdraw { w with
      permits := { w.permits with free := w.permits.free - 1 }
      entries := w.entries ++ [⟨key, w.nextId, request, offeredAt, expireAt⟩]
      nextId := w.nextId + 1 } key w.nextId).1 = { w with nextId := w.nextId + 1 } := by
  have hnone : w.entries.find? (·.key = key) = none := by
    simpa [contains, find?] using untaken
  have hidle : w.permits.queue = [] := by
    by_contra hbusy
    have := hin.busy hbusy
    omega
  have hothers : ∀ e ∈ w.entries, ¬ e.id = w.nextId := fun e he => Nat.ne_of_lt (hw.id_lt e he)
  have hpermits : ({ w.permits with free := w.permits.free - 1 } : Permits).release = w.permits := by
    have hrelease := Permits.release_of_nil (p := { w.permits with free := w.permits.free - 1 }) hidle
    rw [hrelease]
    simp only [Nat.sub_add_cancel free]
  simpa [withdraw, find?, hnone, detach, hpermits] using hothers

end Window

end Smsc
