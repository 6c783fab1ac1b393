import Smsc.Proofs.History
import Smsc.Proofs.Window.Callers
import Smsc.Proofs.Window.Capacity
import Smsc.Window.Overlap

/-!
# Smsc.Proofs.Window.Overlap — a close against the offers under way

A close that has returned leaves an empty window behind, and whoever asks for a permit from then on is
refused. An offer that had its permit before asks nobody again: it inserts its request into the closed
window.

* `Shut w w'`: from `w` to `w'` a closed window stays closed and gets no entry; every operation does so,
  and every step but the second half of an offer (`perform_cases`);
* `offer_eq`, `close_eq`: the parts of an operation, one right after the other, are the operation;
* `close_may_be_overtaken`: a schedule in which a closed window has an entry;
* `only_entrants_after_close`: whatever comes into a closed window is the request of an offer that had its
  permit before, and every other offer is refused;
* `close_final_without_entrants`: a close is final if there is no such offer.
-/

namespace Smsc

/-! ## What an operation does to a closed window -/

namespace Window

variable {α β : Type} {w w' w'' : Window α β} {now : Instant} {key : UInt32}

/-- A closed window stays closed, and gets no entry. -/
structure Shut (w w' : Window α β) : Prop where
  closed : w.permits.isClosed = true → w'.permits.isClosed = true
  entries : w.permits.isClosed = true → w'.entries ⊆ w.entries

namespace Shut

theorem of_entries_eq (hc : w.permits.isClosed = true → w'.permits.isClosed = true)
    (he : w'.entries = w.entries) : w.Shut w' :=
  ⟨hc, fun _ => by rw [he]; exact List.Subset.refl _⟩

theorem refl (w : Window α β) : w.Shut w := of_entries_eq id rfl

theorem trans (h : w.Shut w') (h' : w'.Shut w'') : w.Shut w'' where
  closed hc := h'.closed (h.closed hc)
  entries hc := List.Subset.trans (h'.entries (h.closed hc)) (h.entries hc)

end Shut

theorem detach_shut (e : Entry α) : w.Shut (w.detach e) :=
  ⟨id, fun _ => List.filter_subset_self _⟩

theorem deliver_shut (id : Nat) (o : Outcome β) : w.Shut (w.deliver id o) :=
  .of_entries_eq (fun hc => by rw [deliver, Permits.release_isClosed]; exact hc) rfl

theorem complete_shut (r : β) : w.Shut (w.complete now key r).1 := by
  unfold complete
  split
  · exact .refl w
  · exact (detach_shut _).trans (deliver_shut _ _)

theorem cancel_shut : w.Shut (w.cancel key).1 := by
  unfold cancel
  split
  · exact .refl w
  · exact (detach_shut _).trans (deliver_shut _ _)

theorem releaseAll_shut (es : List (Entry α)) : w.Shut (w.releaseAll es) := by
  induction es generalizing w with
  | nil => exact .refl w
  | cons e es ih => exact ((detach_shut e).trans (deliver_shut _ _)).trans ih

theorem stopAdmission_shut : w.Shut w.stopAdmission := .of_entries_eq (fun _ => rfl) rfl

theorem withdraw_shut (key : UInt32) (id : Nat) : w.Shut (w.withdraw key id).1 := by
  unfold withdraw
  split
  · split
    · refine (detach_shut _).trans (.of_entries_eq (fun hc => ?_) rfl)
      rw [Permits.release_isClosed]
      exact hc
    · exact .refl w
  · exact .refl w

theorem collect_shut (x : Waiter) : w.Shut (w.collect now x).1 := by
  have hwithdraw := withdraw_shut (w := w) x.key x.id
  unfold collect
  split
  · exact .refl w
  · exact .refl w
  · split
    · split
      all_goals
        rename_i h
        rw [h] at hwithdraw
        exact hwithdraw
    · exact .refl w

theorem abandon_shut (p : PendingOffer α) : w.Shut (w.abandon p) :=
  .of_entries_eq (fun hc => (Permits.withdraw_isClosed _ _).trans hc) rfl

/-- A permit cannot be picked up any more. -/
theorem resume_of_closed (hc : w.permits.isClosed = true) (p : PendingOffer α) :
    w.resume now p = (w.abandon p, .refused .closed) := by
  simp [resume, Permits.poll, hc, abandon]

/-- Nor can one be asked for. -/
theorem offer_of_closed (hc : w.permits.isClosed = true) (now : Instant) (key : UInt32) (request : α)
    (offerTimeout expireTimeout : Duration) :
    ∃ e, w.offer now key request offerTimeout expireTimeout = (w, .refused e) := by
  unfold offer
  split
  · exact ⟨_, rfl⟩
  · simp [Permits.acquire, hc]

/-- A clear that follows a stop of the admission leaves nothing behind. -/
theorem clear_entries (w : Window α β) : w.clear.entries = [] := by
  have mem (es : List (Entry α)) : ∀ w : Window α β, ∀ a ∈ (w.releaseAll es).entries,
      a ∈ w.entries ∧ a ∉ es := by
    induction es with
    | nil => exact fun w a ha => ⟨ha, List.not_mem_nil⟩
    | cons e es ih =>
      intro w a ha
      obtain ⟨ha, hes⟩ := ih _ a ha
      obtain ⟨ha, hne⟩ := List.mem_filter.mp ha
      refine ⟨ha, fun h => ?_⟩
      rcases List.mem_cons.mp h with rfl | h
      · simp at hne
      · exact hes h
  refine List.eq_nil_iff_forall_not_mem.mpr fun a ha => ?_
  obtain ⟨ha, hno⟩ := mem w.entries w a ha
  exact hno ha

theorem clear_closed (hc : w.permits.isClosed = true) : w.clear.permits.isClosed = true :=
  (releaseAll_shut w.entries).closed hc

end Window

/-! ## Everybody but the offers and closes that are half done -/

namespace Callers

variable {α β : Type} {c : Callers α β}

theorem perform_shut (op : Op α β) : c.window.Shut (c.perform op).1.window := by
  cases op with
  | offer key request offerTimeout expireTimeout =>
    by_cases hc : c.window.permits.isClosed = true
    · obtain ⟨e, he⟩ := Window.offer_of_closed hc c.now key request offerTimeout expireTimeout
      simpa only [perform, noteOffer_window, he] using .refl _
    · exact ⟨fun h => absurd h hc, fun h => absurd h hc⟩
  | resume ticket =>
    by_cases hc : c.window.permits.isClosed = true
    · simp only [perform]
      split
      · exact .refl _
      · rw [noteOffer_window, Window.resume_of_closed hc]
        exact Window.abandon_shut _
    · exact ⟨fun h => absurd h hc, fun h => absurd h hc⟩
  | abandon ticket =>
    simp only [perform]
    split
    · exact .refl _
    · exact Window.abandon_shut _
  | await id timeout =>
    simp only [perform]
    split <;> exact .refl _
  | drop id =>
    simp only [perform]
    split
    · exact .refl _
    · exact Window.withdraw_shut _ _
  | look id =>
    simp only [perform]
    split
    · exact .refl _
    · rw [noteLook_window]
      exact Window.collect_shut _
  | abort id =>
    simp only [perform]
    split
    · exact .refl _
    · exact Window.withdraw_shut _ _
  | complete key r => exact Window.complete_shut r
  | cancel key => exact Window.cancel_shut
  | expire => exact Window.releaseAll_shut _
  | close => exact Window.stopAdmission_shut.trans (Window.releaseAll_shut _)
  | elapse d => exact .refl _

/-- No offer is admitted into a closed window. -/
theorem not_admitted_of_closed (hc : c.window.permits.isClosed = true) (op : Op α β) (id : Nat) :
    (c.perform op).2 ≠ .offered (.admitted id) := by
  cases op with
  | offer key request offerTimeout expireTimeout =>
    obtain ⟨e, he⟩ := Window.offer_of_closed hc c.now key request offerTimeout expireTimeout
    simp [perform, noteOffer_snd, he]
  | resume ticket =>
    simp only [perform]
    split
    · simp
    · rw [noteOffer_snd, Window.resume_of_closed hc]
      simp
  | look i =>
    simp only [perform]
    split
    · simp
    · rw [noteLook_snd]
      cases (c.window.collect c.now _).2 <;> simp
  | abandon ticket | await i timeout | drop i | abort i =>
    simp only [perform]
    split <;> simp
  | complete key r | cancel key | expire | close | elapse d => simp [perform]

end Callers

namespace Race

variable {α β : Type} {s : Race α β}

theorem perform_shut (step : Step α β) : s.callers.window.Shut (s.perform step).1.callers.window := by
  cases step with
  | whole op => exact Callers.perform_shut op
  | remove key r =>
    simp only [perform]
    split
    · exact .refl _
    · exact Window.detach_shut _
  | send id =>
    simp only [perform]
    split
    · exact .refl _
    · exact Window.deliver_shut _ _
  | fire id =>
    simp only [perform]
    split
    · exact .refl _
    · split <;> exact .refl _
  | cancelSlot id =>
    simp only [perform]
    split
    · exact .refl _
    · rename_i x _
      have hwithdraw := Window.withdraw_shut (w := s.callers.window) x.key id
      split
      all_goals
        rename_i h
        rw [h] at hwithdraw
        exact hwithdraw
  | tryRecv id =>
    simp only [perform]
    split <;> exact .refl _

end Race

namespace Overlap

variable {α β : Type} {s : Overlap α β} {capacity : Nat} {steps : List (Step α β)}

/-! ## One step -/

theorem find?_bid {number : Nat} {bids : List (Bid α)} {b : Bid α}
    (hf : bids.find? (·.number = number) = some b) : b ∈ bids ∧ b.number = number :=
  ⟨List.mem_of_find?_eq_some hf, by simpa using List.find?_some hf⟩

theorem find?_bid_isSome {bids : List (Bid α)} {b : Bid α} (hb : b ∈ bids) :
    ∃ a, bids.find? (·.number = b.number) = some a :=
  Option.isSome_iff_exists.mp (List.find?_isSome.mpr ⟨b, hb, by simp⟩)

theorem find?_last {bids : List (Bid α)} {b : Bid α} (h : ∀ a ∈ bids, a.number ≠ b.number) :
    (bids ++ [b]).find? (·.number = b.number) = some b := by
  rw [List.find?_append, List.find?_eq_none.mpr (by simpa using h)]
  simp

theorem filter_last {bids : List (Bid α)} {b : Bid α} (h : ∀ a ∈ bids, a.number ≠ b.number) :
    (bids ++ [b]).filter (·.number ≠ b.number) = bids := by
  rw [List.filter_append, List.filter_eq_self.mpr (by simpa using h)]
  simp

/-- A race ends no offer but with a refusal once the window is closed. -/
theorem race_ending (hc : s.window.permits.isClosed = true) (step : Race.Step α β) (id : Nat) :
    (Answer.race (s.race.perform step).2).ending? ≠ some (.ok id) := by
  cases step with
  | whole op =>
    have hno := Callers.not_admitted_of_closed (c := s.race.callers) hc op
    simp only [Race.perform]
    unfold Answer.ending?
    split <;> simp_all
  | remove key r | send id | fire id | cancelSlot id | tryRecv id =>
    simp only [Race.perform]
    repeat' split
    all_goals simp [Answer.ending?]

/-- An offer with a permit gets its entry, or finds its key taken. -/
theorem mem_placeOffer {w : Window α β} {now : Instant} {key : UInt32} {request : α}
    {expireTimeout : Duration} {e : Entry α}
    (he : e ∈ (w.placeOffer now key request expireTimeout).1.entries) :
    e ∈ w.entries ∨ e.key = key ∧ e.request = request := by
  unfold Window.placeOffer Window.place at he
  by_cases hc : w.contains key = true
  · rw [if_pos hc] at he
    exact .inl he
  · rw [if_neg hc] at he
    rcases List.mem_append.mp he with he | he
    · exact .inl he
    · obtain rfl := List.mem_singleton.mp he
      exact .inr ⟨rfl, rfl⟩

theorem placeOffer_isClosed (w : Window α β) (now : Instant) (key : UInt32) (request : α)
    (expireTimeout : Duration) :
    (w.placeOffer now key request expireTimeout).1.permits.isClosed = w.permits.isClosed := by
  unfold Window.placeOffer Window.place
  by_cases hc : w.contains key = true
  · rw [if_pos hc]
    exact Permits.release_isClosed _
  · rw [if_neg hc]

/-- A step leaves a closed window alone, but for what operations take out, and admits nobody, or it is
the second half of an offer that had its permit before. -/
theorem perform_cases (hc : s.window.permits.isClosed = true) (step : Step α β) :
    (s.window.Shut (s.perform step).1.window ∧ (s.perform step).1.entering = s.entering ∧
        ∀ id, (s.perform step).2.ending? ≠ some (.ok id)) ∨
      ∃ b ∈ s.entering, step = .insert b.number ∧
        (s.perform step).1.window = (s.window.placeOffer s.race.callers.now b.key b.request b.expireTimeout).1 ∧
        (s.perform step).1.entering = s.entering.filter (·.number ≠ b.number) := by
  cases step with
  | race step => exact .inl ⟨Race.perform_shut step, rfl, race_ending hc step⟩
  | look key request offerTimeout expireTimeout =>
    refine .inl ?_
    simp only [perform]
    split
    · exact ⟨.refl _, rfl, by simp [Answer.ending?]⟩
    · exact ⟨.refl _, rfl, by simp [Answer.ending?]⟩
  | acquire number =>
    refine .inl ?_
    cases hf : s.asking.find? (·.number = number) with
    | none =>
      simp only [perform, hf]
      exact ⟨.refl _, trivial, by simp [Answer.ending?]⟩
    | some b =>
      have hclosed : s.race.callers.window.permits.isClosed = true := hc
      rw [perform, hf]
      simp only [window, setWindow, Permits.acquire, hclosed, if_true]
      exact ⟨.refl _, trivial, by simp [Answer.ending?]⟩
  | pick ticket =>
    refine .inl ?_
    cases hf : s.race.callers.offers.find? (·.ticket = ticket) with
    | none =>
      simp only [perform, hf]
      exact ⟨.refl _, trivial, by simp [Answer.ending?]⟩
    | some p =>
      have hclosed : s.race.callers.window.permits.isClosed = true := hc
      rw [perform, hf]
      simp only [window, setWindow, Permits.poll, hclosed, if_true]
      refine ⟨.of_entries_eq (fun _ => ?_) rfl, trivial, by simp [Answer.ending?]⟩
      exact (Permits.withdraw_isClosed _ _).trans hclosed
  | insert number =>
    cases hf : s.entering.find? (·.number = number) with
    | none =>
      simp only [perform, hf]
      exact .inl ⟨.refl _, trivial, by simp [Answer.ending?]⟩
    | some b =>
      obtain ⟨hb, rfl⟩ := find?_bid hf
      refine .inr ⟨b, hb, rfl, ?_, ?_⟩
      · simp only [perform, hf, window, Callers.noteOffer_window]
      · simp only [perform, hf]
  | shut => exact .inl ⟨Window.stopAdmission_shut, rfl, by simp [perform, Answer.ending?]⟩
  | clear =>
    refine .inl ?_
    simp only [perform]
    split
    · exact ⟨.refl _, rfl, by simp [Answer.ending?]⟩
    · exact ⟨Window.releaseAll_shut _, rfl, by simp [Answer.ending?]⟩

theorem perform_isClosed (hc : s.window.permits.isClosed = true) (step : Step α β) :
    (s.perform step).1.window.permits.isClosed = true := by
  rcases perform_cases hc step with ⟨hshut, -, -⟩ | ⟨b, -, -, hw, -⟩
  · exact hshut.closed hc
  · rw [hw, placeOffer_isClosed]
    exact hc

theorem perform_entering (hc : s.window.permits.isClosed = true) (step : Step α β) :
    (s.perform step).1.entering ⊆ s.entering := by
  rcases perform_cases hc step with ⟨-, hsame, -⟩ | ⟨b, -, -, -, hfilter⟩
  · rw [hsame]
    exact List.Subset.refl _
  · rw [hfilter]
    exact List.filter_subset_self _

/-- A close that is between its halves has closed the permits. -/
def ShutsFirst (s : Overlap α β) : Prop := 0 < s.closing → s.window.permits.isClosed = true

theorem perform_closing (step : Step α β) : step = .shut ∨ (s.perform step).1.closing ≤ s.closing := by
  cases step with
  | shut => exact .inl rfl
  | race step => exact .inr (Nat.le_refl _)
  | look key request offerTimeout expireTimeout | acquire number | pick ticket | insert number | clear =>
    refine .inr ?_
    simp only [perform, setWindow]
    repeat' split
    all_goals first | exact Nat.le_refl _ | exact Nat.sub_le _ _

theorem perform_shutsFirst (h : s.ShutsFirst) (step : Step α β) : (s.perform step).1.ShutsFirst := by
  intro hpos
  rcases perform_closing (s := s) step with rfl | hle
  · rfl
  · exact perform_isClosed (h (Nat.lt_of_lt_of_le hpos hle)) step

/-- A close leaves a closed and empty window behind. -/
theorem closes_empty (h : s.ShutsFirst) {step : Step α β} (hclose : s.Closes step) :
    (s.perform step).1.window.permits.isClosed = true ∧ (s.perform step).1.window.entries = [] := by
  rcases hclose with rfl | ⟨rfl, hpos⟩
  · exact ⟨Window.clear_closed rfl, Window.clear_entries _⟩
  · simp only [perform, if_neg (Nat.ne_of_gt hpos)]
    exact ⟨Window.clear_closed (h hpos), Window.clear_entries _⟩

/-! ## Whole operations from their parts -/

/-- The halves of a close, one right after the other, are the close. -/
theorem close_eq (s : Overlap α β) : s.after [.shut, .clear] = s.after [.race (.whole .close)] := rfl

/-- The parts of an offer, one right after the other, are the offer. -/
theorem offer_eq {key : UInt32} (request : α) (offerTimeout expireTimeout : Duration)
    (hkey : s.window.contains key = false) (hopen : s.window.permits.isClosed = false)
    (hfree : 0 < s.window.permits.free) (hasking : ∀ b ∈ s.asking, b.number ≠ s.nextBid)
    (hentering : ∀ b ∈ s.entering, b.number ≠ s.nextBid) :
    s.after [.look key request offerTimeout expireTimeout, .acquire s.nextBid, .insert s.nextBid] =
      { s.after [.race (.whole (.offer key request offerTimeout expireTimeout))] with
        nextBid := s.nextBid + 1 } := by
  have hcontains : s.race.callers.window.contains key = false := hkey
  have hclosed : s.race.callers.window.permits.isClosed = false := hopen
  have hpermit : 0 < s.race.callers.window.permits.free := hfree
  let b : Bid α := ⟨s.nextBid, key, request, offerTimeout, expireTimeout⟩
  have hlook : (s.perform (.look key request offerTimeout expireTimeout)).1 =
      { s with asking := s.asking ++ [b], nextBid := s.nextBid + 1 } := by
    simp only [perform, window, hcontains]
    rfl
  have hfirst : (s.asking ++ [b]).find? (·.number = s.nextBid) = some b := find?_last (b := b) hasking
  have hsecond : (s.entering ++ [b]).find? (·.number = s.nextBid) = some b := find?_last (b := b) hentering
  have hasked : (s.asking ++ [b]).filter (·.number ≠ s.nextBid) = s.asking := filter_last (b := b) hasking
  have hentered : (s.entering ++ [b]).filter (·.number ≠ s.nextBid) = s.entering := filter_last (b := b) hentering
  simp only [after, List.foldl_cons, List.foldl_nil, hlook]
  simp only [perform, window, setWindow, hfirst, hasked, Permits.acquire, hclosed, hpermit, if_true,
    Bool.false_eq_true, if_false]
  simp only [hsecond, hentered, Race.perform, Callers.perform, Window.offer, hcontains, Permits.acquire, hclosed,
    hpermit, if_true, Bool.false_eq_true, if_false]
  rfl

/-! ## Along a schedule -/

theorem before_succ {k : Nat} {step : Step α β} (hk : steps[k]? = some step) :
    before capacity steps (k + 1) = ((before capacity steps k).perform step).1 :=
  stateAt_succ hk

theorem before_shutsFirst (k : Nat) : (before capacity steps k).ShutsFirst :=
  stateAt_induct (Nat.zero_le k) (fun _ step _ _ _ h => perform_shutsFirst h step)
    (fun h => absurd h (Nat.lt_irrefl 0))

/-- A closed window stays closed, and no further offer gets a permit. -/
theorem closed_stays {i j : Nat} (hij : i ≤ j)
    (hc : (before capacity steps i).window.permits.isClosed = true) :
    (before capacity steps j).window.permits.isClosed = true ∧
      (before capacity steps j).entering ⊆ (before capacity steps i).entering := by
  refine stateAt_induct
    (P := fun s : Overlap α β =>
      s.window.permits.isClosed = true ∧ s.entering ⊆ (before capacity steps i).entering) hij
    (fun _ step _ _ _ h => ?_) ⟨hc, List.Subset.refl _⟩
  exact ⟨perform_isClosed h.1 step, List.Subset.trans (perform_entering h.1 step) h.2⟩

/-- The entry was inserted between two steps by an offer that has its permit in `s`. -/
def InsertedBetween (s : Overlap α β) (steps : List (Step α β)) (k j : Nat) (e : Entry α) : Prop :=
  ∃ i b, k < i ∧ i < j ∧ steps[i]? = some (.insert b.number) ∧ b ∈ s.entering ∧
    e.key = b.key ∧ e.request = b.request

/-- What comes into an empty closed window is inserted by an offer that has its permit already. -/
theorem inserted_of_mem {k j : Nat} (hkj : k < j)
    (hc : (before capacity steps (k + 1)).window.permits.isClosed = true)
    (hempty : (before capacity steps (k + 1)).window.entries = []) :
    ∀ e ∈ (before capacity steps j).window.entries,
      (before capacity steps (k + 1)).InsertedBetween steps k j e := by
  intro e he
  have hnone : e ∉ (before capacity steps (k + 1)).window.entries := by simp [hempty]
  have hsource : ∃ i step, k < i ∧ i < j ∧ steps[i]? = some step ∧ ∃ b, step = .insert b.number ∧
      b ∈ (before capacity steps (k + 1)).entering ∧ e.key = b.key ∧ e.request = b.request := by
    refine (stateAt_until (P := fun s : Overlap α β => e ∉ s.window.entries) hkj
      (fun i step hki _ _ hi => ?_) hnone).resolve_left (absurd he)
    obtain ⟨hclosed, hsub⟩ := closed_stays hki hc
    refine or_iff_not_imp_left.mpr fun hnot => ?_
    have hcomes : e ∈ ((before capacity steps i).perform step).1.window.entries := not_not.mp hnot
    rcases perform_cases hclosed step with ⟨hshut, -, -⟩ | ⟨b, hb, rfl, hw, -⟩
    · exact absurd (hshut.entries hclosed hcomes) hi
    · rw [hw] at hcomes
      rcases mem_placeOffer hcomes with hold | ⟨hkey, hrequest⟩
      · exact absurd hold hi
      · exact ⟨b, rfl, hsub hb, hkey, hrequest⟩
  obtain ⟨i, _, hki, hij, hstep, b, rfl, hb, hkey, hrequest⟩ := hsource
  exact ⟨i, b, hki, hij, hstep, hb, hkey, hrequest⟩

/-- The offers that have no permit yet, and what they are told when they ask a closed window. -/
theorem refused_of_closed (hc : s.window.permits.isClosed = true) :
    (∀ b ∈ s.asking, (s.perform (.acquire b.number)).2 = .offered (.refused .closed)) ∧
      ∀ p ∈ s.race.callers.offers, (s.perform (.pick p.ticket)).2 = .offered (.refused .closed) ∧
        (s.perform (.race (.whole (.resume p.ticket)))).2 =
          .race (.whole (.offered (.refused .closed))) := by
  have hclosed : s.race.callers.window.permits.isClosed = true := hc
  refine ⟨fun b hb => ?_, fun p hp => ?_⟩
  · obtain ⟨a, ha⟩ := find?_bid_isSome hb
    simp only [perform, ha, window, setWindow, Permits.acquire, hclosed, if_true]
  · obtain ⟨q, hq⟩ := Option.isSome_iff_exists.mp (List.find?_isSome.mpr ⟨p, hp, by simp⟩ :
      (s.race.callers.offers.find? (·.ticket = p.ticket)).isSome)
    refine ⟨?_, ?_⟩
    · simp only [perform, hq, window, setWindow, Permits.poll, hclosed, if_true]
    · simp only [perform, Race.perform, Callers.perform, hq, Callers.noteOffer_snd,
        Window.resume_of_closed hclosed]

/-! ## After a close -/

/-- A close is final: once one has returned, the window is empty for good, and no offer is admitted. -/
def CloseIsFinal (α β : Type) : Prop :=
  ∀ (capacity : Nat) (steps : List (Step α β)) (k j : Nat) (step : Step α β),
    steps[k]? = some step → (before capacity steps k).Closes step → k < j →
    (before capacity steps j).window.entries = [] ∧
      ∀ step' id, steps[j]? = some step' →
        ((before capacity steps j).perform step').2.ending? ≠ some (.ok id)

/-- An offer has its permit when the window is closed, and inserts its request afterwards. -/
def overtaken : List (Step Unit Nat) :=
  [.look 7 () (.ofSeconds 1) (.ofSeconds 60), .acquire 0, .shut, .clear, .insert 0]

/-- By the end of that schedule the closed window has an entry. -/
theorem close_may_be_overtaken : ¬ CloseIsFinal Unit Nat := by
  intro final
  have hempty := (final 1 overtaken 3 5 .clear rfl (.inr ⟨rfl, by decide⟩) (by decide)).1
  exact absurd hempty (by decide)

/-- Once a close has returned, the window is empty, whatever comes in again was inserted by an offer that
had its permit before the permits were closed, and no other offer is admitted: those that have none yet are
refused when they ask for it. -/
theorem only_entrants_after_close (capacity : Nat) (steps : List (Step α β)) {k : Nat} {step : Step α β}
    (hk : steps[k]? = some step) (hclose : (before capacity steps k).Closes step) :
    (before capacity steps (k + 1)).window.entries = [] ∧
    (∀ i ≤ k + 1, (before capacity steps i).window.permits.isClosed = true →
      (before capacity steps (k + 1)).entering ⊆ (before capacity steps i).entering) ∧
    ∀ j, k < j →
      (∀ e ∈ (before capacity steps j).window.entries,
        (before capacity steps (k + 1)).InsertedBetween steps k j e) ∧
      (∀ step' id, steps[j]? = some step' →
        ((before capacity steps j).perform step').2.ending? = some (.ok id) →
        ∃ b ∈ (before capacity steps (k + 1)).entering, step' = .insert b.number) ∧
      (∀ b ∈ (before capacity steps j).asking,
        ((before capacity steps j).perform (.acquire b.number)).2 = .offered (.refused .closed)) ∧
      ∀ p ∈ (before capacity steps j).race.callers.offers,
        ((before capacity steps j).perform (.pick p.ticket)).2 = .offered (.refused .closed) ∧
          ((before capacity steps j).perform (.race (.whole (.resume p.ticket)))).2 =
            .race (.whole (.offered (.refused .closed))) := by
  obtain ⟨hc, hempty⟩ := closes_empty (before_shutsFirst k) hclose
  rw [← before_succ hk] at hc hempty
  refine ⟨hempty, fun i hi hci => (closed_stays hi hci).2, fun j hkj => ?_⟩
  obtain ⟨hcj, hsub⟩ := closed_stays (Nat.succ_le_of_lt hkj) hc
  refine ⟨inserted_of_mem hkj hc hempty, fun step' id _ hok => ?_, refused_of_closed hcj⟩
  rcases perform_cases hcj step' with ⟨-, -, hno⟩ | ⟨b, hb, rfl, -, -⟩
  · exact absurd hok (hno id)
  · exact ⟨b, hsub hb, rfl⟩

/-- The entry of the schedule above is that of the offer that had its permit. -/
theorem overtaken_inserted :
    (before 1 overtaken 4).InsertedBetween overtaken 3 5 ⟨7, 1, (), 0, 60000000000⟩ :=
  ((only_entrants_after_close 1 overtaken rfl (.inr ⟨rfl, by decide⟩)).2.2 5 (by decide)).1
    ⟨7, 1, (), 0, 60000000000⟩ (List.mem_singleton.mpr rfl)

/-- A close that finds no offer between its permit and its entry is final. -/
theorem close_final_without_entrants {k j : Nat} {step : Step α β} (hk : steps[k]? = some step)
    (hclose : (before capacity steps k).Closes step) (hnone : (before capacity steps (k + 1)).entering = [])
    (hkj : k < j) :
    (before capacity steps j).window.entries = [] ∧
      ∀ step' id, ((before capacity steps j).perform step').2.ending? ≠ some (.ok id) := by
  obtain ⟨hc, hempty⟩ := closes_empty (before_shutsFirst k) hclose
  rw [← before_succ hk] at hc hempty
  obtain ⟨hcj, hsub⟩ := closed_stays (Nat.succ_le_of_lt hkj) hc
  refine ⟨List.eq_nil_iff_forall_not_mem.mpr fun e he => ?_, fun step' id hok => ?_⟩
  · obtain ⟨-, b, -, -, -, hb, -⟩ := inserted_of_mem hkj hc hempty e he
    exact absurd (hnone ▸ hb) List.not_mem_nil
  · rcases perform_cases hcj step' with ⟨-, -, hno⟩ | ⟨b, hb, -⟩
    · exact hno id hok
    · exact absurd (hnone ▸ hsub hb) List.not_mem_nil

end Overlap

end Smsc
