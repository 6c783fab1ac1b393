import Smsc.Proofs.Window.Outcome
import Smsc.Proofs.Window.Queue

/-!
# Smsc.Proofs.Window.Fairness — capacity goes round, in the order of arrival

An offer that finds the window full waits, and it waits only as long as there is nothing to be had. Permits are
handed to those who wait in the order of their arrival; who is handed one is admitted when he picks it up.

* `Callers.Seated`: the offers that wait are those whose tickets are out; `perform_served` says what one
  operation does to both;
* `Callers.Leaving`, `perform_leaving`: how the wait of an offer ends;
* `granted_of_admitted`, `free_of_admitted`: where the permit of an admitted offer comes from;
  `resume_admits`, `offer_admits`: with a permit and a key that is free an offer is admitted;
* `Callers.AtRest`: nobody who waits would find anything by looking;
* `left_or_granted`: permits are handed out in the order of arrival; `later_admitted_first`: they need not be
  picked up in that order;
* `Callers.Fair`, `Callers.fair`: all of it for any history.
-/

namespace Smsc

namespace Callers

open Window

variable {α β : Type} {c c' : Callers α β} {old new : Option Nat}

/-! ## Offers and their tickets -/

/-- The offers that wait are those whose tickets are out; after a close they have yet to find out. -/
structure Seated (c : Callers α β) : Prop where
  inTurn : c.window.permits.InTurn
  nodup : (c.offers.map (·.ticket)).Nodup
  drawn : ∀ t ∈ c.offers.map (·.ticket), t < c.window.permits.nextTicket
  owned : ∀ t ∈ c.window.permits.tickets, t ∈ c.offers.map (·.ticket)
  out : c.window.permits.isClosed = false → ∀ t ∈ c.offers.map (·.ticket), t ∈ c.window.permits.tickets

theorem seated_ofCapacity (n : Nat) : (ofCapacity n : Callers α β).Seated :=
  ⟨Permits.inTurn_ofCapacity n, List.nodup_nil, by simp [ofCapacity],
    by simp [ofCapacity, Window.ofCapacity, Permits.tickets, Permits.ofCapacity], by simp [ofCapacity]⟩

/-- From `c` to `c'` one caller gives the ticket `old` up and gets `new`, and the list of offers says so. -/
structure Served (c c' : Callers α β) (old new : Option Nat) : Prop where
  serves : c.window.permits.Serves c'.window.permits old new
  mem_iff : ∀ t, t ∈ c'.offers.map (·.ticket) ↔
    new = some t ∨ t ∈ c.offers.map (·.ticket) ∧ old ≠ some t
  nodup : (c'.offers.map (·.ticket)).Nodup

theorem Seated.step (h : c.Seated) (hserved : c.Served c' old new) : c'.Seated where
  inTurn := hserved.serves.inTurn
  nodup := hserved.nodup
  drawn t ht := by
    rcases (hserved.mem_iff t).mp ht with hnew | ⟨hmem, -⟩
    · exact (hserved.serves.fresh t hnew).2
    · exact Nat.lt_of_lt_of_le (h.drawn t hmem) hserved.serves.nextTicket_le
  owned t ht := by
    rcases hserved.serves.comes t ht with hnew | ⟨hmem, hne⟩
    · exact (hserved.mem_iff t).mpr (.inl hnew)
    · exact (hserved.mem_iff t).mpr (.inr ⟨h.owned t hmem, hne⟩)
  out hopen t ht := by
    have hopen' : c.window.permits.isClosed = false := by
      by_contra hclosed
      have := hserved.serves.closed (by simpa using hclosed)
      rw [hopen] at this
      cases this
    rcases (hserved.mem_iff t).mp ht with hnew | ⟨hmem, hne⟩
    · exact hserved.serves.seats hopen t hnew
    · exact hserved.serves.stays hopen t (h.out hopen' t hmem) hne

namespace Served

/-- The offers that wait stay as they are. -/
theorem same (h : c.Seated) (serves : c.window.permits.Serves c'.window.permits none none)
    (offers : c'.offers = c.offers) : c.Served c' none none where
  serves := serves
  mem_iff := by simp [offers]
  nodup := by rw [offers]; exact h.nodup

/-- An offer looks, and waits on or not. -/
theorem noteOffer (h : c.Seated) {rest : List (PendingOffer α)} (hsub : rest.Sublist c.offers)
    (hrest : ∀ t, t ∈ rest.map (·.ticket) ↔ t ∈ c.offers.map (·.ticket) ∧ old ≠ some t)
    {r : Window α β × Offered α} (serves : c.window.permits.Serves r.1.permits old r.2.ticket?) (key : UInt32) :
    c.Served ({ c with offers := rest }.noteOffer key r).1 old r.2.ticket? := by
  have hnodup : (rest.map (·.ticket)).Nodup := h.nodup.sublist (hsub.map _)
  obtain ⟨w, o⟩ := r
  cases o with
  | admitted id => exact ⟨serves, fun t => (hrest t).trans (by simp [Offered.ticket?]), hnodup⟩
  | refused e => exact ⟨serves, fun t => (hrest t).trans (by simp [Offered.ticket?]), hnodup⟩
  | waiting p =>
    -- A ticket that was just drawn is nobody else's, and one that was kept has been taken off the list.
    have hfresh : p.ticket ∉ rest.map (·.ticket) := by
      intro hmem
      obtain ⟨hmem, hne⟩ := (hrest p.ticket).mp hmem
      have := h.drawn _ hmem
      obtain ⟨hold | hle, -⟩ := serves.fresh p.ticket rfl
      · exact hne hold
      · omega
    refine ⟨serves, fun t => ?_, ?_⟩
    · show t ∈ (rest ++ [p]).map (·.ticket) ↔ _
      rw [List.map_append, List.mem_append, hrest]
      simp only [Offered.ticket?, List.map_cons, List.map_nil, List.mem_singleton, Option.some.injEq]
      tauto
    · show ((rest ++ [p]).map (·.ticket)).Nodup
      rw [List.map_append]
      exact List.nodup_append.mpr ⟨hnodup, List.nodup_singleton _, fun t ht u hu heq => by
        obtain rfl : u = p.ticket := by simpa using hu
        exact hfresh (heq ▸ ht)⟩

end Served

theorem find?_offer {ticket : Nat} {p : PendingOffer α} (hf : c.offers.find? (·.ticket = ticket) = some p) :
    p ∈ c.offers ∧ p.ticket = ticket :=
  ⟨List.mem_of_find?_eq_some hf, by simpa using List.find?_some hf⟩

theorem mem_filter_tickets (offers : List (PendingOffer α)) (ticket t : Nat) :
    t ∈ (offers.filter (·.ticket ≠ ticket)).map (·.ticket) ↔
      t ∈ offers.map (·.ticket) ∧ some ticket ≠ some t := by
  simp only [List.mem_map, List.mem_filter, decide_eq_true_eq, ne_eq, Option.some.injEq]
  constructor
  · rintro ⟨p, ⟨hp, hne⟩, rfl⟩
    exact ⟨⟨p, hp, rfl⟩, fun heq => hne heq.symm⟩
  · rintro ⟨⟨p, hp, rfl⟩, hne⟩
    exact ⟨p, ⟨hp, fun heq => hne heq.symm⟩, rfl⟩

/-- Whatever is done, at most one offer gives its ticket up or gets one. -/
theorem perform_served (h : c.Seated) (op : Op α β) : ∃ old new, c.Served (c.perform op).1 old new := by
  have hsame : c.Served c none none := .same h (.refl h.inTurn) rfl
  cases op with
  | offer key request offerTimeout expireTimeout =>
    exact ⟨_, _, .noteOffer h (List.Sublist.refl _) (by simp)
      (offer_serves h.inTurn c.now key request offerTimeout expireTimeout) key⟩
  | resume ticket =>
    rw [perform]
    split
    · exact ⟨_, _, hsame⟩
    · rename_i p hf
      obtain ⟨hp, rfl⟩ := find?_offer hf
      have hserves := resume_serves h.inTurn c.now fun hopen => h.out hopen _ (List.mem_map_of_mem hp)
      exact ⟨_, _, .noteOffer h List.filter_sublist (mem_filter_tickets c.offers p.ticket) hserves p.key⟩
  | abandon ticket =>
    rw [perform]
    split
    · exact ⟨_, _, hsame⟩
    · rename_i p hf
      obtain ⟨hp, rfl⟩ := find?_offer hf
      exact ⟨some p.ticket, none, .withdraw h.inTurn p.ticket,
        by simpa using mem_filter_tickets c.offers p.ticket, h.nodup.sublist (List.filter_sublist.map _)⟩
  | await id timeout =>
    rw [perform]
    split
    · exact ⟨_, _, hsame⟩
    · exact ⟨_, _, .same h (.refl h.inTurn) rfl⟩
  | drop id | abort id =>
    rw [perform]
    split
    · exact ⟨_, _, hsame⟩
    · exact ⟨_, _, .same h (withdraw_serves h.inTurn _ id) rfl⟩
  | look id =>
    rw [perform]
    split
    · exact ⟨_, _, hsame⟩
    · rename_i x hf
      have hserves := collect_serves h.inTurn c.now x
      generalize c.window.collect c.now x = wr at hserves ⊢
      obtain ⟨w, r⟩ := wr
      cases r with
      | none => exact ⟨_, _, .same h hserves rfl⟩
      | some r => exact ⟨_, _, .same h hserves rfl⟩
  | complete key r => exact ⟨_, _, .same h (complete_serves h.inTurn c.now key r) rfl⟩
  | cancel key => exact ⟨_, _, .same h (cancel_serves h.inTurn key) rfl⟩
  | expire => exact ⟨_, _, .same h (releaseAll_serves h.inTurn _) rfl⟩
  | close => exact ⟨_, _, .same h (close_serves h.inTurn) rfl⟩
  | elapse d => exact ⟨_, _, .same h (.refl h.inTurn) rfl⟩

theorem perform_seated (h : c.Seated) (op : Op α β) : (c.perform op).1.Seated := by
  obtain ⟨old, new, hserved⟩ := perform_served h op
  exact h.step hserved

/-! ## Capacity -/

/-- Whatever is done, what one caller gives up and what one gets is all that changes hands. -/
theorem perform_trades (hc : c.Kept) (ha : c.window.Accounted) (op : Op α β) :
    ∃ old new, c.window.Trades (c.perform op).1.window old new := by
  have hsame : c.window.Trades c.window none none := .keep ha none
  cases op with
  | offer key request offerTimeout expireTimeout =>
    rw [perform, noteOffer_window]
    exact ⟨_, _, offer_trades c.now key request expireTimeout ha offerTimeout⟩
  | resume ticket =>
    rw [perform]
    split
    · exact ⟨_, _, hsame⟩
    · rename_i p hf
      rw [noteOffer_window]
      exact ⟨_, _, resume_trades c.now ha p⟩
  | abandon ticket =>
    rw [perform]
    split
    · exact ⟨_, _, hsame⟩
    · exact ⟨_, _, abandon_trades ha _⟩
  | await id timeout =>
    rw [perform]
    split <;> exact ⟨_, _, hsame⟩
  | drop id =>
    rw [perform]
    split
    · exact ⟨_, _, hsame⟩
    · rename_i a hf
      obtain ⟨hmem, rfl⟩ := find?_handle hf
      have hkey := key_eq_of_held hc.sound (hc.handle_held a hmem).1
      exact ⟨_, _, withdraw_trades a.key hc.sound ha hkey⟩
  | abort id =>
    rw [perform]
    split
    · exact ⟨_, _, hsame⟩
    · rename_i x hf
      obtain ⟨hmem, rfl⟩ := find?_waiter hf
      have hkey := key_eq_of_held hc.sound (hc.waiter_held x hmem).1
      exact ⟨_, _, withdraw_trades x.key hc.sound ha hkey⟩
  | look id =>
    rw [perform]
    split
    · exact ⟨_, _, hsame⟩
    · rename_i x hf
      obtain ⟨hmem, rfl⟩ := find?_waiter hf
      have hkey := key_eq_of_held hc.sound (hc.waiter_held x hmem).1
      rw [noteLook_window]
      exact ⟨_, _, collect_trades hc.sound ha c.now hkey⟩
  | complete key r => exact ⟨_, _, complete_trades c.now key hc.sound ha r⟩
  | cancel key => exact ⟨_, _, cancel_trades key hc.sound ha⟩
  | expire => exact ⟨_, _, expire_trades c.now hc.sound ha⟩
  | close => exact ⟨_, _, close_trades hc.sound ha⟩
  | elapse d => exact ⟨_, _, hsame⟩

/-! ## The end of a wait -/

/-- How an operation ends the wait of an offer. One that is not admitted gives its ticket up, and so hands
on the permit that it may have been granted. -/
inductive Leaving (c : Callers α β) (p : PendingOffer α) : Op α β → Callers α β × Answer α β → Prop where
  | admitted (c' : Callers α β) (id : Nat) (granted : p.ticket ∈ c.window.permits.granted) :
    Leaving c p (.resume p.ticket) (c', .offered (.admitted id))
  | timedOut (c' : Callers α β) (late : p.deadline ≤ c.now)
    (gives : c.window.permits.GivesUp c'.window.permits p.ticket) :
    Leaving c p (.resume p.ticket) (c', .offered (.refused (.offerTimeout p.offerTimeout)))
  | keyTaken (c' : Callers α β) (granted : p.ticket ∈ c.window.permits.granted)
    (taken : c.window.contains p.key = true)
    (gives : c.window.permits.GivesUp c'.window.permits p.ticket) :
    Leaving c p (.resume p.ticket) (c', .offered (.refused (.duplicateKey p.key)))
  | closed (c' : Callers α β) (closed : c.window.permits.isClosed = true)
    (gives : c.window.permits.GivesUp c'.window.permits p.ticket) :
    Leaving c p (.resume p.ticket) (c', .offered (.refused .closed))
  | aborted (c' : Callers α β) (gives : c.window.permits.GivesUp c'.window.permits p.ticket) :
    Leaving c p (.abandon p.ticket) (c', .nothing)

theorem Seated.find?_offers (h : c.Seated) {p : PendingOffer α} (hp : p ∈ c.offers) :
    c.offers.find? (·.ticket = p.ticket) = some p :=
  find?_of_nodup h.nodup hp

theorem mem_noteOffer {rest : List (PendingOffer α)} {p : PendingOffer α} (hp : p ∈ rest) (key : UInt32)
    (r : Window α β × Offered α) : p ∈ ({ c with offers := rest }.noteOffer key r).1.offers := by
  obtain ⟨w, o⟩ := r
  cases o with
  | admitted id => exact hp
  | refused e => exact hp
  | waiting q => exact List.mem_append_left _ hp

/-- An offer that waits no more was told why, or was given up. -/
theorem perform_leaving (h : c.Seated) {p : PendingOffer α} (hp : p ∈ c.offers) {op : Op α β}
    (hgone : p ∉ (c.perform op).1.offers) : c.Leaving p op (c.perform op) := by
  cases op with
  | offer key request offerTimeout expireTimeout => exact absurd (mem_noteOffer hp key _) hgone
  | resume ticket =>
    by_cases hticket : p.ticket = ticket
    · subst hticket
      rw [perform, h.find?_offers hp] at hgone ⊢
      dsimp only at hgone ⊢
      have hresuming := resume_resuming c.window c.now p
      generalize c.window.resume c.now p = wr at hresuming hgone ⊢
      cases hresuming with
      | closed closed => exact .closed _ closed (.withdraw _ _)
      | admitted unclosed granted untaken entries => exact .admitted _ _ granted
      | keyTaken unclosed granted taken =>
        have hgives := Permits.GivesUp.withdraw c.window.permits p.ticket
        rw [Permits.withdraw, if_pos granted] at hgives
        exact .keyTaken _ granted taken hgives
      | timedOut unclosed queued late => exact .timedOut _ late (.withdraw _ _)
      | waiting unclosed queued early => exact absurd (List.mem_append_right _ (List.mem_singleton.mpr rfl)) hgone
    · rw [perform] at hgone
      split at hgone
      · exact absurd hp hgone
      · refine absurd (mem_noteOffer (List.mem_filter.mpr ⟨hp, ?_⟩) _ _) hgone
        simpa using hticket
  | abandon ticket =>
    by_cases hticket : p.ticket = ticket
    · subst hticket
      rw [perform, h.find?_offers hp]
      exact .aborted _ (.withdraw _ _)
    · rw [perform] at hgone
      split at hgone
      · exact absurd hp hgone
      · refine absurd (List.mem_filter.mpr ⟨hp, ?_⟩) hgone
        simpa using hticket
  | look id =>
    rw [perform] at hgone
    split at hgone
    · exact absurd hp hgone
    · generalize c.window.collect c.now _ = wr at hgone
      obtain ⟨w, r⟩ := wr
      cases r <;> exact absurd hp hgone
  | await id timeout | drop id | abort id =>
    rw [perform] at hgone
    split at hgone <;> exact absurd hp hgone
  | complete key r | cancel key | expire | close | elapse d => exact absurd hp hgone

/-! ## Admission -/

/-- Whoever is admitted after a wait has its permit. -/
theorem granted_of_admitted {ticket id : Nat} (h : (c.perform (.resume ticket)).2 = .offered (.admitted id)) :
    c.window.permits.isClosed = false ∧ ticket ∈ c.window.permits.granted := by
  rw [perform] at h
  split at h
  · cases h
  · rename_i p hf
    obtain ⟨-, rfl⟩ := find?_offer hf
    rw [noteOffer_snd] at h
    have hresuming := resume_resuming c.window c.now p
    generalize c.window.resume c.now p = wr at hresuming h
    cases hresuming with
    | admitted unclosed granted untaken entries => exact ⟨unclosed, granted⟩
    | closed | keyTaken | timedOut | waiting => cases h

/-- Whoever is admitted at once finds a permit that is free. -/
theorem free_of_admitted (hin : c.window.permits.InTurn) {key : UInt32} {request : α}
    {offerTimeout expireTimeout : Duration} {id : Nat}
    (h : (c.perform (.offer key request offerTimeout expireTimeout)).2 = .offered (.admitted id)) :
    c.window.permits.isClosed = false ∧ 0 < c.window.permits.free := by
  rw [perform, noteOffer_snd] at h
  unfold Window.offer Permits.acquire at h
  by_cases hc : c.window.contains key = true
  · rw [if_pos hc] at h
    cases h
  · rw [if_neg hc] at h
    by_cases hclosed : c.window.permits.isClosed = true
    · rw [if_pos hclosed] at h
      cases h
    · rw [if_neg hclosed] at h
      by_cases hfree : 0 < c.window.permits.free
      · exact ⟨by simpa using hclosed, hfree⟩
      · -- The ticket has just been drawn, so no permit can have been granted to it.
        rw [if_neg hfree] at h
        dsimp only at h
        generalize hw : ({ c.window with permits := _ } : Window α β) = w at h
        generalize hp : ({ ticket := c.window.permits.nextTicket, .. } : PendingOffer α) = p at h
        have hresuming := resume_resuming w c.now p
        generalize w.resume c.now p = wr at hresuming h
        cases hresuming with
        | admitted unclosed granted untaken entries =>
          subst hw hp
          exact absurd (hin.drawn _ (List.mem_append_right _ granted)) (Nat.lt_irrefl _)
        | closed | keyTaken | timedOut | waiting => cases h

/-- A request that has a permit is put into the table if its key is free. -/
theorem placeOffer_admits {w : Window α β} {key : UInt32} (untaken : ∀ e ∈ w.entries, e.key ≠ key) (now : Instant)
    (request : α) (expireTimeout : Duration) :
    (w.placeOffer now key request expireTimeout).2 = .admitted w.nextId := by
  have hno : w.contains key = false := by simp [contains, find?_eq_none.mpr untaken]
  simp [placeOffer, place, hno]

/-- An offer that has been handed its permit is admitted when it looks. -/
theorem resume_admits (h : c.Seated) {p : PendingOffer α} (hp : p ∈ c.offers)
    (unclosed : c.window.permits.isClosed = false) (granted : p.ticket ∈ c.window.permits.granted)
    (untaken : ∀ e ∈ c.window.entries, e.key ≠ p.key) :
    ∃ id, (c.perform (.resume p.ticket)).2 = .offered (.admitted id) := by
  simp only [perform, h.find?_offers hp, noteOffer_snd, resume, Permits.poll, unclosed, if_pos granted]
  exact ⟨_, congrArg Answer.offered (placeOffer_admits (by exact untaken) _ _ _)⟩

/-- An offer that finds a permit is admitted at once. -/
theorem offer_admits {key : UInt32} (unclosed : c.window.permits.isClosed = false)
    (free : 0 < c.window.permits.free) (untaken : ∀ e ∈ c.window.entries, e.key ≠ key) (request : α)
    (offerTimeout expireTimeout : Duration) :
    ∃ id, (c.perform (.offer key request offerTimeout expireTimeout)).2 = .offered (.admitted id) := by
  have hno : c.window.contains key = false := by simp [contains, find?_eq_none.mpr untaken]
  simp only [perform, noteOffer_snd, Window.offer, hno, Permits.acquire, unclosed, if_pos free]
  exact ⟨_, congrArg Answer.offered (placeOffer_admits (by exact untaken) _ _ _)⟩

/-! ## Whole histories -/

/-- Nobody who waits would find anything by looking. -/
def AtRest (c : Callers α β) : Prop :=
  (∀ p ∈ c.offers, p.isReady c.window c.now = false) ∧ ∀ x ∈ c.waiters, x.isReady c.window c.now = false

section History

variable (capacity : Nat) (ops : List (Op α β))

theorem before_seated (k : Nat) : (before capacity ops k).Seated :=
  before_induct (k := 0) (P := Seated) (fun _ _ h op => perform_seated h op) (Nat.zero_le k)
    (seated_ofCapacity capacity)

theorem before_accounted (k : Nat) :
    (before capacity ops k).window.Accounted ∧ (before capacity ops k).window.capacity = capacity := by
  refine before_induct (k := 0) (P := fun c => c.window.Accounted ∧ c.window.capacity = capacity)
    (fun c hc h op => ?_) (Nat.zero_le k) ⟨accounted_ofCapacity capacity, rfl⟩
  obtain ⟨old, new, htrades⟩ := perform_trades hc h.1 op
  exact ⟨htrades.accounted, htrades.capacity.trans h.2⟩

theorem before_total (k : Nat) :
    (before capacity ops k).window.permits.free + (before capacity ops k).window.permits.granted.length +
      (before capacity ops k).window.size = capacity := by
  obtain ⟨haccounted, hcapacity⟩ := before_accounted capacity ops k
  exact haccounted.conserved.trans hcapacity

variable {capacity ops}

/-- Tickets are drawn upwards. -/
theorem nextTicket_mono {k l : Nat} (hkl : k ≤ l) :
    (before capacity ops k).window.permits.nextTicket ≤ (before capacity ops l).window.permits.nextTicket := by
  refine (before_induct (P := fun c => c.Seated ∧
    (before capacity ops k).window.permits.nextTicket ≤ c.window.permits.nextTicket)
    (fun c _ h op => ?_) hkl ⟨before_seated capacity ops k, Nat.le_refl _⟩).2
  obtain ⟨old, new, hserved⟩ := perform_served h.1 op
  exact ⟨h.1.step hserved, Nat.le_trans h.2 hserved.serves.nextTicket_le⟩

/-- A window that is open was never closed. -/
theorem open_before {k l : Nat} (hkl : k ≤ l)
    (hopen : (before capacity ops l).window.permits.isClosed = false) :
    (before capacity ops k).window.permits.isClosed = false := by
  by_contra hclosed
  have hlater := (before_induct (P := fun c => c.Seated ∧ c.window.permits.isClosed = true)
    (fun c _ h op => ?_) hkl ⟨before_seated capacity ops k, by simpa using hclosed⟩).2
  · rw [hopen] at hlater
    cases hlater
  · obtain ⟨old, new, hserved⟩ := perform_served h.1 op
    exact ⟨h.1.step hserved, hserved.serves.closed h.2⟩

/-- The operation at `a` is an offer that finds the window full, and waits as `p`. -/
def Arrives (capacity : Nat) (ops : List (Op α β)) (a : Nat) (p : PendingOffer α) : Prop :=
  ∃ key request offerTimeout expireTimeout, ops[a]? = some (.offer key request offerTimeout expireTimeout) ∧
    ((before capacity ops a).perform (.offer key request offerTimeout expireTimeout)).2 =
      .offered (.waiting p)

/-- Between `a` and `k` the offer `p` was admitted, timed out, found its key taken or was aborted. -/
def HasLeft (capacity : Nat) (ops : List (Op α β)) (a k : Nat) (p : PendingOffer α) : Prop :=
  ∃ j op, a < j ∧ j < k ∧ ops[j]? = some op ∧
    (before capacity ops j).Leaving p op ((before capacity ops j).perform op) ∧
    (before capacity ops j).window.permits.isClosed = false

/-- An offer that comes to wait has the ticket that was next, and is on the list. -/
theorem Arrives.waits {a : Nat} {p : PendingOffer α} (h : Arrives capacity ops a p) :
    (before capacity ops a).window.permits.nextTicket ≤ p.ticket ∧
      p.ticket < (before capacity ops (a + 1)).window.permits.nextTicket ∧
      p ∈ (before capacity ops (a + 1)).offers := by
  obtain ⟨key, request, offerTimeout, expireTimeout, hop, hanswer⟩ := h
  have hserves := offer_serves (before_seated capacity ops a).inTurn
    (before capacity ops a).now key request offerTimeout expireTimeout
  rw [before_succ hop]
  rw [perform, noteOffer_snd] at hanswer
  rw [perform]
  generalize (before capacity ops a).window.offer (before capacity ops a).now key request offerTimeout
    expireTimeout = wr at hserves hanswer ⊢
  obtain ⟨w, o⟩ := wr
  cases hanswer
  obtain ⟨hold | hlow, hlt⟩ := hserves.fresh p.ticket rfl
  · cases hold
  · exact ⟨hlow, hlt, List.mem_append_right _ (List.mem_singleton.mpr rfl)⟩

/-- Those that arrive later have later tickets. -/
theorem Arrives.ticket_lt {a b : Nat} {p q : PendingOffer α} (hp : Arrives capacity ops a p)
    (hq : Arrives capacity ops b q) (hab : a < b) : p.ticket < q.ticket := by
  obtain ⟨-, hlt, -⟩ := hp.waits
  obtain ⟨hle, -⟩ := hq.waits
  have hmono : (before capacity ops (a + 1)).window.permits.nextTicket ≤
      (before capacity ops b).window.permits.nextTicket := nextTicket_mono (Nat.succ_le_of_lt hab)
  omega

/-- An offer that waited and waits no more has left in between. -/
theorem left_of_not_mem {i k : Nat} {p : PendingOffer α} (hik : i ≤ k)
    (hp : p ∈ (before capacity ops i).offers) (hgone : p ∉ (before capacity ops k).offers) :
    ∃ j op, i ≤ j ∧ j < k ∧ ops[j]? = some op ∧
      (before capacity ops j).Leaving p op ((before capacity ops j).perform op) := by
  have huntil := stateAt_until (P := fun c : Callers α β => p ∈ c.offers)
    (Q := fun j op => (before capacity ops j).Leaving p op ((before capacity ops j).perform op)) hik
    (fun j op _ _ _ hj => or_iff_not_imp_left.mpr (perform_leaving (before_seated capacity ops j) hj)) hp
  exact huntil.resolve_left hgone

/-- When an offer has been handed its permit, every offer that arrived before it has left or has been handed its
own. -/
theorem left_or_granted {a b k : Nat} {p q : PendingOffer α} (hp : Arrives capacity ops a p)
    (hq : Arrives capacity ops b q) (hab : a < b)
    (hopen : (before capacity ops k).window.permits.isClosed = false)
    (hgranted : q.ticket ∈ (before capacity ops k).window.permits.granted) :
    HasLeft capacity ops a k p ∨
      p ∈ (before capacity ops k).offers ∧ p.ticket ∈ (before capacity ops k).window.permits.granted := by
  have hk := before_seated capacity ops k
  -- The ticket of `q` is drawn by `b` only, so a state in which it has been served comes later.
  have hbk : b < k := by
    by_contra hkb
    have hmono : (before capacity ops k).window.permits.nextTicket ≤
        (before capacity ops b).window.permits.nextTicket := nextTicket_mono (Nat.le_of_not_lt hkb)
    have hdrawn := hk.inTurn.drawn q.ticket (List.mem_append_right _ hgranted)
    have := hq.waits.1
    omega
  by_cases hmem : p ∈ (before capacity ops k).offers
  · have hout := hk.out hopen p.ticket (List.mem_map_of_mem hmem)
    exact .inr ⟨hmem, hk.inTurn.granted_of_lt hout hgranted (hp.ticket_lt hq hab)⟩
  · obtain ⟨j, op, haj, hjk, hjop, hleaving⟩ :=
      left_of_not_mem (Nat.succ_le_of_lt (Nat.lt_trans hab hbk)) hp.waits.2.2 hmem
    exact .inl ⟨j, op, haj, hjk, hjop, hleaving, open_before (Nat.le_of_lt hjk) hopen⟩

/-- How capacity goes round at a window, through a history. -/
structure Fair (capacity : Nat) (ops : List (Op α β)) : Prop where
  /-- No permit is lost or made. One that was granted to an offer is its own until it looks. -/
  total : ∀ k, (before capacity ops k).window.permits.free +
    (before capacity ops k).window.permits.granted.length + (before capacity ops k).window.size = capacity
  /-- At rest every permit is free, or an entry's. -/
  rest : ∀ k, (before capacity ops k).AtRest →
    (before capacity ops k).window.permits.free + (before capacity ops k).window.size = capacity
  /-- The keys of the entries are distinct. -/
  keys : ∀ k, ((before capacity ops k).window.entries.map (·.key)).Nodup
  /-- At rest an offer waits only while the window is full and open. -/
  blocked : ∀ k, (before capacity ops k).AtRest → ∀ p ∈ (before capacity ops k).offers,
    (before capacity ops k).window.size = capacity ∧ (before capacity ops k).window.permits.isClosed = false
  /-- At any time an offer without a permit waits only while none is free. -/
  busy : ∀ k, (before capacity ops k).window.permits.isClosed = false →
    ∀ p ∈ (before capacity ops k).offers, p.ticket ∉ (before capacity ops k).window.permits.granted →
      (before capacity ops k).window.permits.free = 0
  /-- An offer that waits no more was admitted with its permit, timed out, found its key taken or the window
  closed, or was aborted; if it was not admitted, it has handed on the permit that it may have had. -/
  leaves : ∀ k op p, ops[k]? = some op → p ∈ (before capacity ops k).offers →
    p ∉ (before capacity ops (k + 1)).offers →
      (before capacity ops k).Leaving p op ((before capacity ops k).perform op)
  /-- Permits are handed out in the order of arrival: when an offer has been handed one, every offer that arrived
  before it has left, or has been handed its own. -/
  handed : ∀ a b k p q, Arrives capacity ops a p → Arrives capacity ops b q → a < b →
    (before capacity ops k).window.permits.isClosed = false →
    q.ticket ∈ (before capacity ops k).window.permits.granted →
      HasLeft capacity ops a k p ∨ p ∈ (before capacity ops k).offers ∧
        p.ticket ∈ (before capacity ops k).window.permits.granted
  /-- An offer that has been handed its permit is admitted when it picks it up, if its key is free by then. -/
  picksUp : ∀ k p, p ∈ (before capacity ops k).offers →
    (before capacity ops k).window.permits.isClosed = false →
    p.ticket ∈ (before capacity ops k).window.permits.granted →
    (∀ e ∈ (before capacity ops k).window.entries, e.key ≠ p.key) →
      ∃ id, ((before capacity ops k).perform (.resume p.ticket)).2 = .offered (.admitted id)
  /-- When an offer is admitted that has waited, every offer that arrived before it has left. Or it has its
  permit too and is yet to pick it up, which is not so if permits are picked up in the order in which they
  were granted. -/
  inOrder : ∀ a b k p q id, Arrives capacity ops a p → Arrives capacity ops b q → a < b →
    ops[k]? = some (.resume q.ticket) →
    ((before capacity ops k).perform (.resume q.ticket)).2 = .offered (.admitted id) →
      HasLeft capacity ops a k p ∨ p ∈ (before capacity ops k).offers ∧
        p.ticket ∈ (before capacity ops k).window.permits.granted ∧
        (before capacity ops k).window.permits.granted.head? ≠ some q.ticket
  /-- An offer that comes when a permit is free is admitted at once, if its key is free. -/
  welcome : ∀ k key request offerTimeout expireTimeout, (before capacity ops k).window.permits.isClosed = false →
    0 < (before capacity ops k).window.permits.free →
    (∀ e ∈ (before capacity ops k).window.entries, e.key ≠ key) →
      ∃ id, ((before capacity ops k).perform (.offer key request offerTimeout expireTimeout)).2 =
        .offered (.admitted id)
  /-- When an offer is admitted at once, every offer that waits has its permit. -/
  newcomer : ∀ k key request offerTimeout expireTimeout id,
    ((before capacity ops k).perform (.offer key request offerTimeout expireTimeout)).2 =
      .offered (.admitted id) →
    ∀ p ∈ (before capacity ops k).offers, p.ticket ∈ (before capacity ops k).window.permits.granted

/-- An offer that waits at an open window and has no permit is in the queue, so none is free. -/
theorem Seated.free_eq_zero (h : c.Seated) (hopen : c.window.permits.isClosed = false) {p : PendingOffer α}
    (hp : p ∈ c.offers) (hnot : p.ticket ∉ c.window.permits.granted) : c.window.permits.free = 0 := by
  have hout := h.out hopen p.ticket (List.mem_map_of_mem hp)
  have hqueue : p.ticket ∈ c.window.permits.queue := (List.mem_append.mp hout).resolve_right hnot
  exact h.inTurn.busy (List.ne_nil_of_mem hqueue)

/-- At rest no permit lies around. -/
theorem Seated.granted_eq_nil (h : c.Seated) (hrest : c.AtRest) : c.window.permits.granted = [] := by
  refine List.eq_nil_iff_forall_not_mem.mpr fun t ht => ?_
  obtain ⟨p, hp, rfl⟩ := List.mem_map.mp (h.owned t (List.mem_append_right _ ht))
  have hready := hrest.1 p hp
  simp [PendingOffer.isReady, Permits.isSettled, ht] at hready

/-- **Capacity**: it is conserved, never left unused while somebody waits, and handed out in the order of
arrival. -/
theorem fair (capacity : Nat) (ops : List (Op α β)) : Fair capacity ops := by
  have hblocked {k : Nat} (hrest : (before capacity ops k).AtRest) {p : PendingOffer α}
      (hp : p ∈ (before capacity ops k).offers) :
      (before capacity ops k).window.permits.isClosed = false ∧
        p.ticket ∉ (before capacity ops k).window.permits.granted := by
    have hready := hrest.1 p hp
    simp only [PendingOffer.isReady, Permits.isSettled, Bool.or_eq_false_iff, decide_eq_false_iff_not] at hready
    exact hready.1
  constructor
  case total => exact before_total capacity ops
  case rest =>
    intro k hrest
    have htotal := before_total capacity ops k
    rw [(before_seated capacity ops k).granted_eq_nil hrest, List.length_nil] at htotal
    exact htotal
  case keys => exact fun k => (before_kept k).sound.keys
  case blocked =>
    intro k hrest p hp
    have htotal := before_total capacity ops k
    obtain ⟨hopen, hnot⟩ := hblocked hrest hp
    have hfree := (before_seated capacity ops k).free_eq_zero hopen hp hnot
    rw [(before_seated capacity ops k).granted_eq_nil hrest, hfree] at htotal
    exact ⟨by simpa using htotal, hopen⟩
  case busy =>
    intro k hopen p hp hnot
    exact (before_seated capacity ops k).free_eq_zero hopen hp hnot
  case leaves =>
    intro k op p hop hp hgone
    rw [before_succ hop] at hgone
    exact perform_leaving (before_seated capacity ops k) hp hgone
  case handed =>
    intro a b k p q hp hq hab hopen hgranted
    exact left_or_granted hp hq hab hopen hgranted
  case picksUp =>
    intro k p hp hopen hgranted untaken
    exact resume_admits (before_seated capacity ops k) hp hopen hgranted untaken
  case inOrder =>
    intro a b k p q id hp hq hab hop hanswer
    have hk := before_seated capacity ops k
    obtain ⟨hopen, hgranted⟩ := granted_of_admitted hanswer
    refine (left_or_granted hp hq hab hopen hgranted).imp_right fun ⟨hmem, hpgranted⟩ => ?_
    refine ⟨hmem, hpgranted, fun hhead => ?_⟩
    exact hk.inTurn.notMem_of_lt_head hhead (hp.ticket_lt hq hab) (List.mem_append_right _ hpgranted)
  case welcome =>
    intro k key request offerTimeout expireTimeout hopen hfree untaken
    exact offer_admits hopen hfree untaken request offerTimeout expireTimeout
  case newcomer =>
    intro k key request offerTimeout expireTimeout id hanswer p hp
    by_contra hnot
    obtain ⟨hopen, hfree⟩ := free_of_admitted (before_seated capacity ops k).inTurn hanswer
    have := (before_seated capacity ops k).free_eq_zero hopen hp hnot
    omega

/-! ## Picking up late -/

/-- Offers that have waited are admitted in the order of their arrival: when one is, every offer that arrived
before it has left. -/
def AdmitsInOrder (capacity : Nat) (ops : List (Op α β)) : Prop :=
  ∀ a b k p q id, Arrives capacity ops a p → Arrives capacity ops b q → a < b →
    ops[k]? = some (.resume q.ticket) →
    ((before capacity ops k).perform (.resume q.ticket)).2 = .offered (.admitted id) →
      HasLeft capacity ops a k p

end History

/-- Two offers wait. Two entries are completed, and each offer is handed a permit; the later offer is the first to
pick its own up. -/
def latePickUp : List (Op Unit Unit) :=
  let offer (key : UInt32) : Op Unit Unit := .offer key () (.ofSeconds 5) (.ofSeconds 60)
  [offer 1, offer 2, offer 10, offer 11, .complete 1 (), .complete 2 (), .resume 1]

theorem later_admitted_first : ¬ AdmitsInOrder 2 latePickUp := by
  intro inOrder
  have hleft := inOrder 2 3 6 ⟨0, 10, (), .ofSeconds 5, .ofSeconds 60, 5000000000⟩
    ⟨1, 11, (), .ofSeconds 5, .ofSeconds 60, 5000000000⟩ 3 ⟨10, (), _, _, rfl, rfl⟩
    ⟨11, (), _, _, rfl, rfl⟩ (by decide) rfl rfl
  obtain ⟨j, op, hlow, hhigh, hop, hleaving, -⟩ := hleft
  -- In between there are an offer and two completions, and none of these ends a wait.
  obtain rfl | rfl | rfl : j = 3 ∨ j = 4 ∨ j = 5 := by omega
  all_goals
    cases hop
    cases hleaving

end Callers

end Smsc
