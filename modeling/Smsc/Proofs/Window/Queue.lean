import Smsc.Proofs.Window.Capacity

/-!
# Smsc.Proofs.Window.Queue — tickets are served in the order in which they were drawn

* `Permits.InTurn`: those that were served came before those that queue, and nobody queues while a permit
  is free;
* `Permits.GivesUp`: what becomes of a permit whose owner does not want it any more;
* `Permits.Serves p p' old new`: from `p` to `p'` one caller gives the ticket `old` up and gets `new`, and
  all others keep their places; `Serves.trans`;
* `Window.Resuming`: what a waiting offer finds when it looks;
* one lemma for each operation of a window, from `withdraw_serves` to `offer_serves`.
-/

namespace Smsc

/-- The ticket that the caller of an offer waits with. -/
def Offered.ticket? {α : Type} : Offered α → Option Nat
  | .waiting p => some p.ticket
  | _ => none

namespace Permits

variable {p p' p'' : Permits} {old mid new : Option Nat}

/-! ## In turn -/

theorem release_of_nil (h : p.queue = []) : p.release = { p with free := p.free + 1 } := by
  simp only [release, h]

theorem release_of_cons {t : Nat} {ts : List Nat} (h : p.queue = t :: ts) :
    p.release = { p with queue := ts, granted := p.granted ++ [t] } := by
  simp only [release, h]

/-- Tickets are served as they were drawn, and nobody queues while a permit is free. -/
structure InTurn (p : Permits) : Prop where
  /-- Those that have been served first, and in order. -/
  increasing : (p.granted ++ p.queue).Pairwise (· < ·)
  busy : p.queue ≠ [] → p.free = 0
  closed : p.isClosed = true → p.queue = []
  drawn : ∀ t ∈ p.tickets, t < p.nextTicket

theorem inTurn_ofCapacity (n : Nat) : (ofCapacity n).InTurn :=
  ⟨.nil, fun h => absurd rfl h, fun _ => rfl, by simp [tickets, ofCapacity]⟩

namespace InTurn

theorem nodup (h : p.InTurn) : p.tickets.Nodup := by
  have hperm : p.tickets.Perm (p.granted ++ p.queue) := List.perm_append_comm
  exact hperm.nodup_iff.mpr (h.increasing.imp Nat.ne_of_lt)

/-- Whoever was drawn before a served ticket has been served. -/
theorem granted_of_lt (h : p.InTurn) {t u : Nat} (ht : t ∈ p.tickets) (hu : u ∈ p.granted) (hlt : t < u) :
    t ∈ p.granted := by
  rcases List.mem_append.mp ht with hqueue | hgranted
  · have := (List.pairwise_append.mp h.increasing).2.2 u hu t hqueue
    omega
  · exact hgranted

/-- Before the first of the served tickets no ticket is out. -/
theorem notMem_of_lt_head (h : p.InTurn) {t u : Nat} (hu : p.granted.head? = some u) (hlt : t < u) :
    t ∉ p.tickets := by
  intro ht
  obtain ⟨us, hgranted⟩ := List.head?_eq_some_iff.mp hu
  have hmem := h.granted_of_lt ht (by simp [hgranted]) hlt
  have hfirst := (List.pairwise_append.mp h.increasing).1
  rw [hgranted] at hmem hfirst
  rcases List.mem_cons.mp hmem with rfl | hmem
  · exact Nat.lt_irrefl _ hlt
  · have := (List.pairwise_cons.mp hfirst).1 t hmem
    omega

theorem release (h : p.InTurn) : p.release.InTurn := by
  have hdrawn : ∀ t ∈ p.release.tickets, t < p.release.nextTicket := by
    intro t ht
    rw [release_nextTicket]
    exact h.drawn t ((release_tickets p).mem_iff.mp ht)
  cases hqueue : p.queue with
  | nil =>
    rw [release_of_nil hqueue] at hdrawn ⊢
    exact ⟨h.increasing, fun hne => absurd hqueue hne, fun _ => hqueue, hdrawn⟩
  | cons t ts =>
    have hincreasing := h.increasing
    have hfree := h.busy (by simp [hqueue])
    rw [hqueue] at hincreasing
    rw [release_of_cons hqueue] at hdrawn ⊢
    refine ⟨?_, fun _ => hfree, fun hclosed => ?_, hdrawn⟩
    · show ((p.granted ++ [t]) ++ ts).Pairwise (· < ·)
      rwa [List.append_assoc]
    · have := h.closed hclosed
      rw [hqueue] at this
      cases this

theorem pick (h : p.InTurn) (ticket : Nat) : InTurn { p with granted := p.granted.erase ticket } where
  increasing := h.increasing.sublist (List.erase_sublist.append_right p.queue)
  busy := h.busy
  closed := h.closed
  drawn t ht := h.drawn t ((List.erase_sublist.append_left p.queue).subset ht)

theorem stepOut (h : p.InTurn) (ticket : Nat) : InTurn { p with queue := p.queue.erase ticket } where
  increasing := h.increasing.sublist (List.erase_sublist.append_left p.granted)
  busy hne := h.busy fun hqueue => hne (by simp [hqueue])
  closed hclosed := by simp [h.closed hclosed]
  drawn t ht := h.drawn t ((List.erase_sublist.append_right p.granted).subset ht)

theorem withdraw (h : p.InTurn) (ticket : Nat) : (p.withdraw ticket).InTurn := by
  unfold Permits.withdraw
  split
  · exact (h.pick ticket).release
  · exact h.stepOut ticket

theorem take (h : p.InTurn) (hfree : 0 < p.free) : InTurn { p with free := p.free - 1 } where
  increasing := h.increasing
  busy hne := by
    have := h.busy hne
    omega
  closed := h.closed
  drawn := h.drawn

theorem join (h : p.InTurn) (hfree : p.free = 0) (hopen : p.isClosed = false) :
    InTurn { p with queue := p.queue ++ [p.nextTicket], nextTicket := p.nextTicket + 1 } where
  increasing := by
    rw [← List.append_assoc]
    refine List.pairwise_append.mpr ⟨h.increasing, List.pairwise_singleton .., fun t ht u hu => ?_⟩
    obtain rfl := List.mem_singleton.mp hu
    exact h.drawn t (List.perm_append_comm.mem_iff.mp ht)
  busy _ := hfree
  closed hclosed := by
    rw [hopen] at hclosed
    cases hclosed
  drawn t ht := by
    rcases List.mem_append.mp ht with ht | ht
    · rcases List.mem_append.mp ht with ht | ht
      · exact Nat.lt_succ_of_lt (h.drawn t (List.mem_append_left _ ht))
      · obtain rfl := List.mem_singleton.mp ht
        exact Nat.lt_succ_self _
    · exact Nat.lt_succ_of_lt (h.drawn t (List.mem_append_right _ ht))

theorem close (h : p.InTurn) : p.close.InTurn where
  increasing := h.increasing.sublist ((List.nil_sublist p.queue).append_left p.granted)
  busy hne := absurd rfl hne
  closed _ := rfl
  drawn t ht := h.drawn t (List.mem_append_right _ ht)

end InTurn

/-- A ticket is given up. A permit that it was granted goes to the ticket that has waited longest, or is
free again if there is none; a place in the queue is left, and the others keep theirs. -/
structure GivesUp (p p' : Permits) (ticket : Nat) : Prop where
  passes : ticket ∈ p.granted → ∀ t ts, p.queue = t :: ts →
    p'.queue = ts ∧ p'.granted = p.granted.erase ticket ++ [t] ∧ p'.free = p.free
  frees : ticket ∈ p.granted → p.queue = [] →
    p'.queue = [] ∧ p'.granted = p.granted.erase ticket ∧ p'.free = p.free + 1
  leaves : ticket ∉ p.granted →
    p'.queue = p.queue.erase ticket ∧ p'.granted = p.granted ∧ p'.free = p.free

theorem GivesUp.withdraw (p : Permits) (ticket : Nat) : p.GivesUp (p.withdraw ticket) ticket where
  passes hgranted t ts hqueue := by
    have hrelease := release_of_cons (p := { p with granted := p.granted.erase ticket }) hqueue
    rw [Permits.withdraw, if_pos hgranted, hrelease]
    exact ⟨rfl, rfl, rfl⟩
  frees hgranted hqueue := by
    have hrelease := release_of_nil (p := { p with granted := p.granted.erase ticket }) hqueue
    rw [Permits.withdraw, if_pos hgranted, hrelease]
    exact ⟨hqueue, rfl, rfl⟩
  leaves hqueued := by
    rw [Permits.withdraw, if_neg hqueued]
    exact ⟨rfl, rfl, rfl⟩

/-! ## One caller at a time -/

/-- From `p` to `p'` one caller gives the ticket `old` up and gets `new`. As long as there are permits to be
had, nobody else loses a ticket. -/
structure Serves (p p' : Permits) (old new : Option Nat) : Prop where
  inTurn : p'.InTurn
  nextTicket_le : p.nextTicket ≤ p'.nextTicket
  closed : p.isClosed = true → p'.isClosed = true
  comes : ∀ t ∈ p'.tickets, new = some t ∨ t ∈ p.tickets ∧ old ≠ some t
  stays : p'.isClosed = false → ∀ t ∈ p.tickets, old ≠ some t → t ∈ p'.tickets
  seats : p'.isClosed = false → ∀ t, new = some t → t ∈ p'.tickets
  fresh : ∀ t, new = some t → (old = some t ∨ p.nextTicket ≤ t) ∧ t < p'.nextTicket

namespace Serves

theorem keep (h : p.InTurn) (hout : ∀ t, old = some t → t ∈ p.tickets) : p.Serves p old old where
  inTurn := h
  nextTicket_le := Nat.le_refl _
  closed := id
  comes t ht := by
    by_cases heq : old = some t
    · exact .inl heq
    · exact .inr ⟨ht, heq⟩
  stays _ _ ht _ := ht
  seats _ := hout
  fresh t ht := ⟨.inl ht, h.drawn t (hout t ht)⟩

theorem refl (h : p.InTurn) : p.Serves p none none := keep h (by simp)

theorem trans (hp : p.InTurn) (h : p.Serves p' old mid) (h' : p'.Serves p'' mid new) : p.Serves p'' old new where
  inTurn := h'.inTurn
  nextTicket_le := Nat.le_trans h.nextTicket_le h'.nextTicket_le
  closed hclosed := h'.closed (h.closed hclosed)
  comes t ht := by
    rcases h'.comes t ht with hnew | ⟨hmid, hne⟩
    · exact .inl hnew
    · exact .inr ((h.comes t hmid).resolve_left hne)
  stays hopen t ht hold := by
    have hopen' : p'.isClosed = false := by
      by_contra hclosed
      rw [h'.closed (by simpa using hclosed)] at hopen
      cases hopen
    refine h'.stays hopen t (h.stays hopen' t ht hold) fun hmid => ?_
    rcases (h.fresh t hmid).1 with heq | hle
    · exact hold heq
    · exact Nat.lt_irrefl _ (Nat.lt_of_lt_of_le (hp.drawn t ht) hle)
  seats := h'.seats
  fresh t ht := by
    obtain ⟨hmid | hlow, hlt⟩ := h'.fresh t ht
    · exact ⟨(h.fresh t hmid).1, hlt⟩
    · exact ⟨.inr (Nat.le_trans h.nextTicket_le hlow), hlt⟩

theorem release (h : p.InTurn) : p.Serves p.release none none where
  inTurn := h.release
  nextTicket_le := Nat.le_of_eq (release_nextTicket p).symm
  closed hclosed := by rw [release_isClosed, hclosed]
  comes t ht := .inr ⟨(release_tickets p).mem_iff.mp ht, by simp⟩
  stays _ t ht _ := (release_tickets p).mem_iff.mpr ht
  seats := by simp
  fresh := by simp

theorem withdraw (h : p.InTurn) (ticket : Nat) : p.Serves (p.withdraw ticket) (some ticket) none where
  inTurn := h.withdraw ticket
  nextTicket_le := Nat.le_of_eq (withdraw_nextTicket p ticket).symm
  closed hclosed := by rw [withdraw_isClosed, hclosed]
  comes t ht := by
    obtain ⟨hne, hmem⟩ := h.nodup.mem_erase_iff.mp ((withdraw_tickets p ticket).mem_iff.mp ht)
    refine .inr ⟨hmem, ?_⟩
    rintro ⟨⟩
    exact hne rfl
  stays _ t ht hne := by
    refine (withdraw_tickets p ticket).mem_iff.mpr (h.nodup.mem_erase_iff.mpr ⟨?_, ht⟩)
    rintro rfl
    exact hne rfl
  seats := by simp
  fresh := by simp

theorem pick (h : p.InTurn) {ticket : Nat} (hgranted : ticket ∈ p.granted) :
    p.Serves { p with granted := p.granted.erase ticket } (some ticket) none := by
  have hperm : (p.queue ++ p.granted.erase ticket).Perm (p.tickets.erase ticket) := by
    have hne : ticket ∉ p.queue := by
      intro hqueue
      exact (List.nodup_append.mp h.nodup).2.2 ticket hqueue ticket hgranted rfl
    rw [tickets, List.erase_append_right _ hne]
  refine ⟨h.pick ticket, Nat.le_refl _, id, fun t ht => ?_, fun _ t ht hne => ?_, by simp, by simp⟩
  · obtain ⟨hne, hmem⟩ := h.nodup.mem_erase_iff.mp (hperm.mem_iff.mp ht)
    refine .inr ⟨hmem, ?_⟩
    rintro ⟨⟩
    exact hne rfl
  · refine hperm.mem_iff.mpr (h.nodup.mem_erase_iff.mpr ⟨?_, ht⟩)
    rintro rfl
    exact hne rfl

theorem take (h : p.InTurn) (hfree : 0 < p.free) : p.Serves { p with free := p.free - 1 } none none where
  inTurn := h.take hfree
  nextTicket_le := Nat.le_refl _
  closed := id
  comes t ht := .inr ⟨ht, by simp⟩
  stays _ _ ht _ := ht
  seats := by simp
  fresh := by simp

theorem join (h : p.InTurn) (hfree : p.free = 0) (hopen : p.isClosed = false) :
    p.Serves { p with queue := p.queue ++ [p.nextTicket], nextTicket := p.nextTicket + 1 } none
      (some p.nextTicket) := by
  have hmem (t : Nat) : t ∈ (p.queue ++ [p.nextTicket]) ++ p.granted ↔ t = p.nextTicket ∨ t ∈ p.tickets := by
    simp only [tickets, List.mem_append, List.mem_singleton]
    tauto
  refine ⟨h.join hfree hopen, Nat.le_succ _, id, fun t ht => ?_, fun _ t ht _ => ?_, fun _ t ht => ?_, ?_⟩
  · rcases (hmem t).mp ht with rfl | ht
    · exact .inl rfl
    · exact .inr ⟨ht, by simp⟩
  · exact (hmem t).mpr (.inr ht)
  · cases ht
    exact (hmem _).mpr (.inl rfl)
  · rintro t ⟨⟩
    exact ⟨.inr (Nat.le_refl _), Nat.lt_succ_self _⟩

theorem close (h : p.InTurn) : p.Serves p.close none none where
  inTurn := h.close
  nextTicket_le := Nat.le_refl _
  closed _ := rfl
  comes t ht := .inr ⟨List.mem_append_right _ ht, by simp⟩
  stays hopen := absurd hopen (by simp [Permits.close])
  seats := by simp
  fresh := by simp

end Serves

end Permits

namespace Window

variable {α β : Type} {w : Window α β} {old : Option Nat}

/-! ## The operations of a window -/

theorem withdraw_serves (h : w.permits.InTurn) (key : UInt32) (id : Nat) :
    w.permits.Serves (w.withdraw key id).1.permits none none := by
  unfold withdraw
  split
  · split
    · exact .release h
    · exact .refl h
  · exact .refl h

theorem complete_serves (h : w.permits.InTurn) (now : Instant) (key : UInt32) (r : β) :
    w.permits.Serves (w.complete now key r).1.permits none none := by
  unfold complete
  split
  · exact .refl h
  · exact .release h

theorem cancel_serves (h : w.permits.InTurn) (key : UInt32) :
    w.permits.Serves (w.cancel key).1.permits none none := by
  unfold cancel
  split
  · exact .refl h
  · exact .release h

theorem releaseAll_serves (h : w.permits.InTurn) (es : List (Entry α)) :
    w.permits.Serves (w.releaseAll es).permits none none := by
  induction es generalizing w with
  | nil => exact .refl h
  | cons e es ih =>
    have hfirst : w.permits.Serves ((w.detach e).deliver e.id .released).permits none none := .release h
    exact hfirst.trans h (ih hfirst.inTurn)

theorem close_serves (h : w.permits.InTurn) : w.permits.Serves w.close.1.permits none none := by
  have hstop : w.permits.Serves w.stopAdmission.permits none none := .close h
  exact hstop.trans h (releaseAll_serves hstop.inTurn _)

theorem collect_serves (h : w.permits.InTurn) (now : Instant) (x : Waiter) :
    w.permits.Serves (w.collect now x).1.permits none none := by
  unfold collect
  split
  · exact .refl h
  · exact .refl h
  · split
    · have hwithdraw := withdraw_serves h x.key x.id
      split
      · rename_i heq
        rwa [heq] at hwithdraw
      · rename_i heq
        rwa [heq] at hwithdraw
    · exact .refl h

/-- What a waiting offer finds when it looks. -/
inductive Resuming (w : Window α β) (now : Instant) (p : PendingOffer α) : Window α β × Offered α → Prop where
  | closed (closed : w.permits.isClosed = true) :
    Resuming w now p ({ w with permits := w.permits.withdraw p.ticket }, .refused .closed)
  | admitted (unclosed : w.permits.isClosed = false) (granted : p.ticket ∈ w.permits.granted)
    (untaken : w.contains p.key = false) (entries : List (Entry α)) :
    Resuming w now p ({ w with
        permits := { w.permits with granted := w.permits.granted.erase p.ticket }
        entries
        nextId := w.nextId + 1 }, .admitted w.nextId)
  | keyTaken (unclosed : w.permits.isClosed = false) (granted : p.ticket ∈ w.permits.granted)
    (taken : w.contains p.key = true) :
    Resuming w now p ({ w with
        permits := Permits.release { w.permits with granted := w.permits.granted.erase p.ticket }
        nextId := w.nextId + 1 }, .refused (.duplicateKey p.key))
  | timedOut (unclosed : w.permits.isClosed = false) (queued : p.ticket ∉ w.permits.granted)
    (late : p.deadline ≤ now) :
    Resuming w now p ({ w with permits := w.permits.withdraw p.ticket },
      .refused (.offerTimeout p.offerTimeout))
  | waiting (unclosed : w.permits.isClosed = false) (queued : p.ticket ∉ w.permits.granted)
    (early : now < p.deadline) : Resuming w now p (w, .waiting p)

theorem resume_resuming (w : Window α β) (now : Instant) (p : PendingOffer α) :
    w.Resuming now p (w.resume now p) := by
  unfold resume Permits.poll
  by_cases hclosed : w.permits.isClosed = true
  · rw [if_pos hclosed]
    exact .closed hclosed
  · have hopen : w.permits.isClosed = false := by simpa using hclosed
    rw [if_neg hclosed]
    by_cases hgranted : p.ticket ∈ w.permits.granted
    · rw [if_pos hgranted]
      by_cases htaken : w.contains p.key = true
      · have hplace : Window.contains { w with
            permits := { w.permits with granted := w.permits.granted.erase p.ticket } } p.key = true := htaken
        simp only [placeOffer, place, if_pos hplace]
        exact .keyTaken hopen hgranted htaken
      · have hplace : ¬ Window.contains { w with
            permits := { w.permits with granted := w.permits.granted.erase p.ticket } } p.key = true := htaken
        simp only [placeOffer, place, if_neg hplace]
        exact .admitted hopen hgranted (by simpa using htaken) _
    · rw [if_neg hgranted]
      by_cases hlate : p.deadline ≤ now
      · simp only [if_pos hlate]
        exact .timedOut hopen hgranted hlate
      · simp only [if_neg hlate]
        exact .waiting hopen hgranted (Nat.lt_of_not_le hlate)

theorem resume_serves (h : w.permits.InTurn) (now : Instant) {p : PendingOffer α}
    (hout : w.permits.isClosed = false → p.ticket ∈ w.permits.tickets) :
    w.permits.Serves (w.resume now p).1.permits (some p.ticket) (w.resume now p).2.ticket? := by
  have hresuming := resume_resuming w now p
  generalize w.resume now p = wr at hresuming ⊢
  cases hresuming with
  | closed closed => exact .withdraw h p.ticket
  | admitted unclosed granted untaken entries => exact .pick h granted
  | keyTaken unclosed granted taken =>
    have hpick := Permits.Serves.pick h granted
    exact hpick.trans h (.release hpick.inTurn)
  | timedOut unclosed queued late => exact .withdraw h p.ticket
  | waiting unclosed queued early =>
    refine .keep h ?_
    rintro t ⟨⟩
    exact hout unclosed

theorem placeOffer_serves {permits : Permits} (h : w.permits.Serves permits old none)
    (hin : w.permits.InTurn) (now : Instant) (key : UInt32) (request : α) (expireTimeout : Duration) :
    w.permits.Serves ({ w with permits }.placeOffer now key request expireTimeout).1.permits old
      ({ w with permits }.placeOffer now key request expireTimeout).2.ticket? := by
  by_cases hc : Window.contains { w with permits } key = true
  · simp only [placeOffer, place, if_pos hc]
    exact h.trans hin (.release h.inTurn)
  · simp only [placeOffer, place, if_neg hc]
    exact h

theorem offer_serves (h : w.permits.InTurn) (now : Instant) (key : UInt32) (request : α)
    (offerTimeout expireTimeout : Duration) :
    w.permits.Serves (w.offer now key request offerTimeout expireTimeout).1.permits none
      (w.offer now key request offerTimeout expireTimeout).2.ticket? := by
  unfold offer Permits.acquire
  by_cases hc : w.contains key = true
  · rw [if_pos hc]
    exact .refl h
  · rw [if_neg hc]
    by_cases hclosed : w.permits.isClosed = true
    · rw [if_pos hclosed]
      exact .refl h
    · rw [if_neg hclosed]
      by_cases hfree : 0 < w.permits.free
      · rw [if_pos hfree]
        exact placeOffer_serves (.take h hfree) h now key request expireTimeout
      · rw [if_neg hfree]
        have hjoin := Permits.Serves.join h (by omega) (by simpa using hclosed)
        refine hjoin.trans h (resume_serves (w := { w with permits := _ }) hjoin.inTurn now fun hopen => ?_)
        exact hjoin.seats hopen _ rfl

end Window

end Smsc
