import Smsc.Proofs.Window.Table

/-!
# Smsc.Proofs.Window.Capacity — who has capacity, and who waits for it

A permit is free, or an entry has it, or it is granted to a ticket that is still to be called for. So
capacity is lost only where an entry or a ticket is left behind, and every operation is looked at for what
its caller gives up and what it gets.

* `Stake`, `Window.Has w r`: what a caller may have in a window, an entry or a ticket;
* `Accounted w`: no permit is lost, and tickets are told apart;
* `Trades w w' old new`: from `w` to `w'` a caller gives `old` up and gets `new`, and nobody else gets
  anything; `Trades.trans`;
* one lemma for each operation, from `complete_trades` to `collect_trades`.
-/

namespace Smsc

/-- What a caller may have in a window. -/
inductive Stake where
  | entry (id : Nat)
  /-- A place in the queue, or a permit that has not been picked up. -/
  | ticket (ticket : Nat)
  deriving DecidableEq, Repr

/-- What the caller of an offer has got. -/
def Offered.stake? {α : Type} : Offered α → Option Stake
  | .admitted id => some (.entry id)
  | .refused _ => none
  | .waiting p => some (.ticket p.ticket)

namespace Permits

variable {p : Permits}

/-- The tickets that are out. -/
def tickets (p : Permits) : List Nat := p.queue ++ p.granted

theorem release_tickets (p : Permits) : p.release.tickets.Perm p.tickets := by
  unfold release tickets
  split
  · exact .refl _
  · rename_i t ts hqueue
    show (ts ++ (p.granted ++ [t])).Perm _
    rw [hqueue, ← List.append_assoc]
    exact List.perm_append_singleton t (ts ++ p.granted)

theorem release_isClosed (p : Permits) : p.release.isClosed = p.isClosed := by
  unfold release
  split <;> rfl

theorem release_nextTicket (p : Permits) : p.release.nextTicket = p.nextTicket := by
  unfold release
  split <;> rfl

/-- A ticket that is given up is out no more. -/
theorem withdraw_tickets (p : Permits) (ticket : Nat) :
    (p.withdraw ticket).tickets.Perm (p.tickets.erase ticket) := by
  unfold withdraw
  split
  · rename_i hgranted
    refine (release_tickets _).trans ?_
    have hcomm : p.tickets.Perm (p.granted ++ p.queue) := List.perm_append_comm
    have herase := hcomm.erase ticket
    rw [List.erase_append_left _ hgranted] at herase
    exact List.perm_append_comm.trans herase.symm
  · rename_i hgranted
    unfold tickets
    by_cases hqueue : ticket ∈ p.queue
    · rw [List.erase_append_left _ hqueue]
    · rw [List.erase_append_right _ hqueue, List.erase_of_not_mem hqueue, List.erase_of_not_mem hgranted]

theorem withdraw_isClosed (p : Permits) (ticket : Nat) : (p.withdraw ticket).isClosed = p.isClosed := by
  unfold withdraw
  split
  · exact release_isClosed _
  · rfl

theorem withdraw_nextTicket (p : Permits) (ticket : Nat) :
    (p.withdraw ticket).nextTicket = p.nextTicket := by
  unfold withdraw
  split
  · exact release_nextTicket _
  · rfl

/-- A granted permit that nobody picks up goes on. -/
theorem Conserved.withdraw {capacity held : Nat} (h : p.Conserved capacity held) (ticket : Nat) :
    (p.withdraw ticket).Conserved capacity held := by
  unfold Permits.withdraw
  split
  · rename_i hgranted
    have hlength := List.length_erase_of_mem hgranted
    have hpos := List.length_pos_of_mem hgranted
    refine Conserved.release ?_
    unfold Conserved at h ⊢
    show p.free + (p.granted.erase ticket).length + (held + 1) = capacity
    omega
  · exact h

/-- No permit is lost, and tickets are told apart. -/
structure Accounts (p : Permits) (capacity held : Nat) : Prop where
  conserved : p.Conserved capacity held
  nodup : p.tickets.Nodup
  lt : ∀ t ∈ p.tickets, t < p.nextTicket

namespace Accounts

variable {capacity held : Nat}

theorem release (h : p.Accounts capacity (held + 1)) : p.release.Accounts capacity held where
  conserved := h.conserved.release
  nodup := (release_tickets p).nodup_iff.mpr h.nodup
  lt t ht := by
    rw [release_nextTicket]
    exact h.lt t ((release_tickets p).mem_iff.mp ht)

theorem withdraw (h : p.Accounts capacity held) (ticket : Nat) :
    (p.withdraw ticket).Accounts capacity held where
  conserved := h.conserved.withdraw ticket
  nodup := (withdraw_tickets p ticket).nodup_iff.mpr (h.nodup.erase ticket)
  lt t ht := by
    rw [withdraw_nextTicket]
    exact h.lt t (List.mem_of_mem_erase ((withdraw_tickets p ticket).mem_iff.mp ht))

/-- A permit that is picked up is held. -/
theorem pick (h : p.Accounts capacity held) {ticket : Nat} (hgranted : ticket ∈ p.granted) :
    Accounts { p with granted := p.granted.erase ticket } capacity (held + 1) where
  conserved := by
    have hlength := List.length_erase_of_mem hgranted
    have hpos := List.length_pos_of_mem hgranted
    have hconserved := h.conserved
    unfold Conserved at hconserved ⊢
    show p.free + (p.granted.erase ticket).length + (held + 1) = capacity
    omega
  nodup := h.nodup.sublist (List.erase_sublist.append_left p.queue)
  lt t ht := h.lt t ((List.erase_sublist.append_left p.queue).subset ht)

/-- Nobody waits any more, and what is granted stays so. -/
theorem close (h : p.Accounts capacity held) : p.close.Accounts capacity held where
  conserved := h.conserved
  nodup := h.nodup.sublist (List.sublist_append_right p.queue p.granted)
  lt t ht := h.lt t (List.mem_append_right p.queue ht)

end Accounts

theorem accounts_ofCapacity (n : Nat) : (ofCapacity n).Accounts n 0 :=
  ⟨conserved_ofCapacity n, List.nodup_nil, by simp [tickets, ofCapacity]⟩

end Permits

namespace Window

variable {α β : Type} {w w' w'' : Window α β} {old mid new : Option Stake}

/-- The entry is in the table, or the ticket is out. -/
def Has (w : Window α β) : Stake → Prop
  | .entry id => ∃ e ∈ w.entries, e.id = id
  | .ticket t => t ∈ w.permits.tickets

/-- No permit is lost: it is free, or granted to a ticket that is out, or an entry has it. -/
def Accounted (w : Window α β) : Prop := w.permits.Accounts w.capacity w.size

theorem accounted_ofCapacity (n : Nat) : (ofCapacity n : Window α β).Accounted :=
  Permits.accounts_ofCapacity n

/-- From `w` to `w'` a caller gives `old` up and gets `new`. Others may lose what they have, but get
nothing. A closed window stays closed, and takes no entry. -/
structure Trades (w w' : Window α β) (old new : Option Stake) : Prop where
  accounted : w'.Accounted
  capacity : w'.capacity = w.capacity
  has : ∀ r, w'.Has r → new = some r ∨ w.Has r ∧ old ≠ some r
  closed : w.permits.isClosed = true →
    w'.permits.isClosed = true ∧ ∀ id, w'.Has (.entry id) → w.Has (.entry id)

namespace Trades

/-- What a caller does not give up it still has. -/
theorem keep (ha : w.Accounted) (r : Option Stake) : w.Trades w r r where
  accounted := ha
  capacity := rfl
  has r' hr := by
    by_cases heq : r = some r'
    · exact .inl heq
    · exact .inr ⟨hr, heq⟩
  closed h := ⟨h, fun _ he => he⟩

/-- What is gone is given up without more ado. -/
theorem forget (ha : w.Accounted) {r : Stake} (gone : ¬ w.Has r) : w.Trades w (some r) none where
  accounted := ha
  capacity := rfl
  has r' hr := by
    refine .inr ⟨hr, ?_⟩
    rintro ⟨⟩
    exact gone hr
  closed h := ⟨h, fun _ he => he⟩

theorem trans (h : w.Trades w' old mid) (h' : w'.Trades w'' mid new) : w.Trades w'' old new where
  accounted := h'.accounted
  capacity := h'.capacity.trans h.capacity
  has r hr := by
    rcases h'.has r hr with hnew | ⟨hmid, hne⟩
    · exact .inl hnew
    · exact .inr ((h.has r hmid).resolve_left hne)
  closed hw := by
    obtain ⟨hclosed, hold⟩ := h.closed hw
    obtain ⟨hclosed', hold'⟩ := h'.closed hclosed
    exact ⟨hclosed', fun id hid => hold id (hold' id hid)⟩

/-- A window that is closed and empty stays empty. -/
theorem empty (h : w.Trades w' old new) (closed : w.permits.isClosed = true) (empty : w.entries = []) :
    w'.entries = [] := by
  refine List.eq_nil_iff_forall_not_mem.mpr fun e he => ?_
  obtain ⟨a, ha, -⟩ := (h.closed closed).2 e.id ⟨e, he, rfl⟩
  rw [empty] at ha
  exact List.not_mem_nil ha

/-- The table stays what it is, and of the tickets at most some go. -/
theorem of_permits {permits : Permits} (accounts : permits.Accounts w.capacity w.size)
    (closed : permits.isClosed = true ∨ permits.isClosed = w.permits.isClosed)
    (entry : ∀ id, old ≠ some (.entry id))
    (tickets : ∀ t ∈ permits.tickets, t ∈ w.permits.tickets ∧ old ≠ some (.ticket t)) :
    w.Trades { w with permits } old none where
  accounted := accounts
  capacity := rfl
  has r hr := by
    cases r with
    | entry id => exact .inr ⟨hr, entry id⟩
    | ticket t => exact .inr (tickets t hr)
  closed h := by
    refine ⟨?_, fun _ he => he⟩
    rcases closed with hclosed | hclosed
    · exact hclosed
    · exact hclosed.trans h

end Trades

/-! ## Ways out -/

section Out

variable (now : Instant) (key : UInt32)

theorem size_detach (hw : w.Sound) {e : Entry α} (he : e ∈ w.entries) : w.size = (w.detach e).size + 1 := by
  have hone : w.entries.countP (·.id = e.id) = 1 := by
    have hcount := List.count_eq_one_of_mem hw.ids (List.mem_map_of_mem he)
    rwa [List.count, List.countP_map] at hcount
  have hsplit := List.length_eq_countP_add_countP (fun a : Entry α => decide (a.id = e.id)) (l := w.entries)
  have hrest : (w.detach e).size = w.entries.countP fun a => ¬ decide (a.id = e.id) = true := by
    rw [size, detach, ← List.countP_eq_length_filter]
    simp
  rw [hrest, size, hsplit, hone, Nat.add_comm]

/-- One entry leaves, and its permit is free again. -/
theorem detach_trades (hw : w.Sound) (ha : w.Accounted) {e : Entry α} (he : e ∈ w.entries)
    (entries : w'.entries = (w.detach e).entries) (permits : w'.permits = w.permits.release)
    (capacity : w'.capacity = w.capacity) : w.Trades w' (some (.entry e.id)) none where
  accounted := by
    have hsize : w.size = w'.size + 1 := by
      rw [size_detach hw he, size, size, entries]
    rw [Accounted, permits, capacity]
    exact Permits.Accounts.release (by rw [← hsize]; exact ha)
  capacity := capacity
  has r hr := by
    cases r with
    | entry id =>
      obtain ⟨a, hmem, rfl⟩ := hr
      rw [entries] at hmem
      obtain ⟨hmem, hid⟩ := List.mem_filter.mp hmem
      have hne : a.id ≠ e.id := by simpa using hid
      refine .inr ⟨⟨a, hmem, rfl⟩, fun heq => ?_⟩
      have hsame : e.id = a.id := by simpa using heq
      exact hne hsame.symm
    | ticket t =>
      have ht : t ∈ w'.permits.tickets := hr
      rw [permits] at ht
      exact .inr ⟨(Permits.release_tickets w.permits).mem_iff.mp ht, by simp⟩
  closed h := by
    refine ⟨by rw [permits, Permits.release_isClosed, h], fun id hid => ?_⟩
    obtain ⟨a, hmem, rfl⟩ := hid
    rw [entries] at hmem
    exact ⟨a, (List.mem_filter.mp hmem).1, rfl⟩

/-- Whoever gives nothing up may lose what it has. -/
theorem Trades.loses (h : w.Trades w' old new) : w.Trades w' none new where
  accounted := h.accounted
  capacity := h.capacity
  has r hr := (h.has r hr).imp_right fun hold => ⟨hold.1, by simp⟩
  closed := h.closed

theorem deliver_trades (hw : w.Sound) (ha : w.Accounted) {e : Entry α} (he : e ∈ w.entries)
    (o : Outcome β) : w.Trades ((w.detach e).deliver e.id o) none none :=
  have trades : w.Trades ((w.detach e).deliver e.id o) (some (.entry e.id)) none :=
    detach_trades hw ha he rfl rfl rfl
  trades.loses

theorem complete_trades (hw : w.Sound) (ha : w.Accounted) (r : β) :
    w.Trades (w.complete now key r).1 none none := by
  unfold complete
  split
  · exact .keep ha none
  · rename_i e he
    exact deliver_trades hw ha ((find?_eq_some hw).mp he).1 _

theorem cancel_trades (hw : w.Sound) (ha : w.Accounted) : w.Trades (w.cancel key).1 none none := by
  unfold cancel
  split
  · exact .keep ha none
  · rename_i e he
    exact deliver_trades hw ha ((find?_eq_some hw).mp he).1 _

theorem releaseAll_trades (hw : w.Sound) (ha : w.Accounted) {es : List (Entry α)}
    (hes : ∀ e ∈ es, e ∈ w.entries) (hnd : es.Nodup) : w.Trades (w.releaseAll es) none none := by
  induction es generalizing w with
  | nil => exact .keep ha none
  | cons e es ih =>
    obtain ⟨hnot, hnd⟩ := List.nodup_cons.mp hnd
    have he : e ∈ w.entries := hes e (by simp)
    have turns := deliver_turns he .released
    have trades := deliver_trades hw ha he .released
    refine trades.trans (ih (turns.sound hw) trades.accounted (fun a ha => ?_) hnd)
    have hmem : a ∈ w.entries := hes a (by simp [ha])
    have hne : a.id ≠ e.id := fun hid => hnot (hw.eq_of_id hmem he hid ▸ ha)
    exact turns.mem_iff.mpr (.inl ⟨hmem, by simpa using hne⟩)

theorem expire_trades (hw : w.Sound) (ha : w.Accounted) : w.Trades (w.expire now).1 none none :=
  releaseAll_trades hw ha (fun _ he => (List.mem_filter.mp he).1) (hw.nodup.filter _)

theorem close_trades (hw : w.Sound) (ha : w.Accounted) : w.Trades w.close.1 none none := by
  have hstop : w.Trades w.stopAdmission none none :=
    .of_permits (Permits.Accounts.close ha) (.inl rfl) (by simp) fun t ht =>
      ⟨List.mem_append_right w.permits.queue ht, by simp⟩
  have hsound : w.stopAdmission.Sound := ⟨hw.id_lt, hw.ids, hw.keys, hw.outcome_lt, hw.pending⟩
  exact hstop.trans (releaseAll_trades hsound hstop.accounted (fun _ he => he) hsound.nodup)

/-- A closed window is empty. -/
theorem close_entries (hw : w.Sound) : w.close.1.entries = [] := by
  rw [(close_turns hw).entries]
  simp

theorem close_isClosed (hw : w.Sound) (ha : w.Accounted) : w.close.1.permits.isClosed = true := by
  have hsound : w.stopAdmission.Sound := ⟨hw.id_lt, hw.ids, hw.keys, hw.outcome_lt, hw.pending⟩
  have haccounted : w.stopAdmission.Accounted := Permits.Accounts.close ha
  exact ((releaseAll_trades hsound haccounted (fun _ he => he) hsound.nodup).closed rfl).1

/-- A caller gives its entry up, whether it is still there or not. -/
theorem withdraw_trades (hw : w.Sound) (ha : w.Accounted) {id : Nat}
    (hkey : ∀ e ∈ w.entries, e.id = id → e.key = key) :
    w.Trades (w.withdraw key id).1 (some (.entry id)) none := by
  unfold withdraw
  split
  · rename_i e he
    obtain ⟨hmem, rfl⟩ := (find?_eq_some hw).mp he
    split
    · rename_i hid
      subst hid
      exact detach_trades hw ha hmem rfl rfl rfl
    · rename_i hid
      refine .forget ha ?_
      rintro ⟨a, hamem, rfl⟩
      exact hid (by rw [hw.eq_of_key hamem hmem (hkey a hamem rfl)])
  · rename_i hnone
    refine .forget ha ?_
    rintro ⟨a, hamem, rfl⟩
    exact find?_eq_none.mp hnone a hamem (hkey a hamem rfl)

end Out

/-! ## The way in -/

section In

variable (now : Instant) (key : UInt32) (request : α) (expireTimeout : Duration)

/-- A caller with a permit in hand, which it gets an entry for or gives back. -/
theorem placeOffer_trades {permits : Permits} (accounts : permits.Accounts w.capacity (w.size + 1))
    (unclosed : w.permits.isClosed = false) (entry : ∀ id, old ≠ some (.entry id))
    (tickets : ∀ t ∈ permits.tickets, t ∈ w.permits.tickets ∧ old ≠ some (.ticket t)) :
    w.Trades ({ w with permits }.placeOffer now key request expireTimeout).1 old
      ({ w with permits }.placeOffer now key request expireTimeout).2.stake? := by
  by_cases hc : { w with permits }.contains key = true
  · simp only [placeOffer, place, hc, if_true]
    refine ⟨accounts.release, rfl, fun r hr => ?_, by simp [unclosed]⟩
    cases r with
    | entry id => exact .inr ⟨hr, entry id⟩
    | ticket t => exact .inr (tickets t ((Permits.release_tickets permits).mem_iff.mp hr))
  · simp only [placeOffer, place, hc]
    refine ⟨?_, rfl, fun r hr => ?_, by simp [unclosed]⟩
    · show permits.Accounts w.capacity (w.entries ++ [_]).length
      rw [List.length_append]
      exact accounts
    · cases r with
      | entry id =>
        obtain ⟨e, he, rfl⟩ := hr
        rcases List.mem_append.mp he with he | he
        · exact .inr ⟨⟨e, he, rfl⟩, entry e.id⟩
        · obtain rfl := List.mem_singleton.mp he
          exact .inl rfl
      | ticket t => exact .inr (tickets t hr)

theorem mem_withdraw_tickets {p : Permits} (hp : p.tickets.Nodup) {ticket t : Nat}
    (ht : t ∈ (p.withdraw ticket).tickets) : t ∈ p.tickets ∧ some (Stake.ticket ticket) ≠ some (.ticket t) := by
  obtain ⟨hne, hmem⟩ := hp.mem_erase_iff.mp ((Permits.withdraw_tickets p ticket).mem_iff.mp ht)
  refine ⟨hmem, ?_⟩
  rintro ⟨⟩
  exact hne rfl

/-- A caller gives its ticket up. -/
theorem abandon_trades (ha : w.Accounted) (p : PendingOffer α) :
    w.Trades (w.abandon p) (some (.ticket p.ticket)) none :=
  .of_permits (ha.withdraw p.ticket) (.inr (Permits.withdraw_isClosed _ _)) (by simp)
    fun _ ht => mem_withdraw_tickets ha.nodup ht

theorem resume_trades (ha : w.Accounted) (p : PendingOffer α) :
    w.Trades (w.resume now p).1 (some (.ticket p.ticket)) (w.resume now p).2.stake? := by
  unfold resume Permits.poll
  by_cases hclosed : w.permits.isClosed = true
  · rw [if_pos hclosed]
    exact abandon_trades ha p
  · rw [if_neg hclosed]
    by_cases hgranted : p.ticket ∈ w.permits.granted
    · rw [if_pos hgranted]
      refine placeOffer_trades now p.key p.request p.expireTimeout (ha.pick hgranted) (by simpa using hclosed)
        (by simp) fun t ht => ?_
      -- The ticket is in one place only, so it is out no more once it is taken from there.
      have hperm : (p.ticket :: (w.permits.queue ++ w.permits.granted.erase p.ticket)).Perm
          w.permits.tickets :=
        List.perm_middle.symm.trans ((List.perm_cons_erase hgranted).symm.append_left _)
      have hnodup := List.nodup_cons.mp (hperm.nodup_iff.mpr ha.nodup)
      refine ⟨hperm.subset (List.mem_cons_of_mem _ ht), ?_⟩
      rintro ⟨⟩
      exact hnodup.1 ht
    · rw [if_neg hgranted]
      by_cases hlate : p.deadline ≤ now
      · simp only [if_pos hlate]
        exact abandon_trades ha p
      · simp only [if_neg hlate]
        exact .keep ha _

theorem offer_trades (ha : w.Accounted) (offerTimeout : Duration) :
    w.Trades (w.offer now key request offerTimeout expireTimeout).1 none
      (w.offer now key request offerTimeout expireTimeout).2.stake? := by
  unfold offer Permits.acquire
  by_cases hc : w.contains key = true
  · rw [if_pos hc]
    exact .keep ha none
  · rw [if_neg hc]
    by_cases hclosed : w.permits.isClosed = true
    · rw [if_pos hclosed]
      exact .keep ha none
    · rw [if_neg hclosed]
      by_cases hfree : 0 < w.permits.free
      · rw [if_pos hfree]
        refine placeOffer_trades now key request expireTimeout ⟨?_, ha.nodup, ha.lt⟩ (by simpa using hclosed)
          (by simp) fun t ht => ⟨ht, by simp⟩
        have hconserved := ha.conserved
        unfold Permits.Conserved at hconserved ⊢
        show w.permits.free - 1 + w.permits.granted.length + (w.size + 1) = w.capacity
        omega
      · rw [if_neg hfree]
        have hperm : ((w.permits.queue ++ [w.permits.nextTicket]) ++ w.permits.granted).Perm
            (w.permits.nextTicket :: w.permits.tickets) := by
          rw [List.append_assoc, List.singleton_append]
          exact List.perm_middle
        have hqueues : w.Trades { w with permits := { w.permits with
            queue := w.permits.queue ++ [w.permits.nextTicket], nextTicket := w.permits.nextTicket + 1 } }
            none (some (.ticket w.permits.nextTicket)) := by
          refine ⟨⟨ha.conserved, hperm.nodup_iff.mpr (List.nodup_cons.mpr ⟨fun h => ?_, ha.nodup⟩),
            fun t ht => ?_⟩, rfl, fun r hr => ?_, fun h => absurd h hclosed⟩
          · exact Nat.lt_irrefl _ (ha.lt _ h)
          · rcases List.mem_cons.mp (hperm.mem_iff.mp ht) with rfl | ht
            · exact Nat.lt_succ_self _
            · exact Nat.lt_succ_of_lt (ha.lt t ht)
          · cases r with
            | entry id => exact .inr ⟨hr, by simp⟩
            | ticket t =>
              rcases List.mem_cons.mp (hperm.mem_iff.mp hr) with rfl | ht
              · exact .inl rfl
              · exact .inr ⟨ht, by simp⟩
        exact hqueues.trans (resume_trades now hqueues.accounted _)

end In

/-! ## A look for the response -/

/-- What the caller of an entry still has after a look. -/
def stakeAfter (x : Waiter) : Option (Except WindowError β) → Option Stake
  | none => some (.entry x.id)
  | some _ => none

theorem collect_trades (hw : w.Sound) (ha : w.Accounted) (now : Instant) {x : Waiter}
    (hkey : ∀ e ∈ w.entries, e.id = x.id → e.key = x.key) :
    w.Trades (w.collect now x).1 (some (.entry x.id)) (stakeAfter x (w.collect now x).2) := by
  have settled {o : Outcome β} (ho : w.outcome? x.id = some o) : ¬ w.Has (.entry x.id) := by
    rintro ⟨e, he, hid⟩
    rw [← hid, hw.pending e he] at ho
    cases ho
  unfold collect
  split
  · exact .forget ha (settled ‹_›)
  · exact .forget ha (settled ‹_›)
  · split
    · have trades := withdraw_trades x.key hw ha hkey
      split
      · rename_i hwithdraw
        rw [hwithdraw] at trades
        exact trades
      · rename_i hwithdraw
        rw [hwithdraw] at trades
        exact trades
    · exact .keep ha _

end Window

end Smsc
