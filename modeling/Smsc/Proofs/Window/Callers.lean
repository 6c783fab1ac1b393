import Smsc.Proofs.Window.Table
import Smsc.Window.Callers

/-!
# Smsc.Proofs.Window.Callers — what one operation does for everybody at a window

* `Kept c`: the table is sound, and every handle and every waiter holds an entry of its own;
* `Op.outcome?`, `leaves`: what an operation settles, and which entries it takes out;
* `perform_turns`: an operation as a turn of the table; `perform_kept`: it keeps the invariant;
* `takes_iff`, `admits_iff`: who takes what, who brings what; `Taker`, `takes_iff_taker`: the same by name;
* `handle_of_admits`, `waiter_of_await`, `handle_stays`, `waiter_stays`: what a caller holds, and for how long;
* `perform_owns`, `perform_offers`: nobody comes to hold an entry, or to wait for a permit, but by
  an offer.
-/

namespace Smsc.Callers

open Window

variable {α β : Type} {c : Callers α β}

/-! ## The invariant -/

/-- Every handle and every waiter holds an entry of its own. -/
structure Kept (c : Callers α β) : Prop where
  sound : c.window.Sound
  handle_held : ∀ h ∈ c.handles, c.window.Held h.key h.id ∧ h.id < c.window.nextId
  waiter_held : ∀ x ∈ c.waiters, c.window.Held x.key x.id ∧ x.id < c.window.nextId
  handle_ids : (c.handles.map (·.id)).Nodup
  waiter_ids : (c.waiters.map (·.id)).Nodup
  apart : ∀ h ∈ c.handles, ∀ x ∈ c.waiters, h.id ≠ x.id

theorem kept_ofCapacity (n : Nat) : (ofCapacity n : Callers α β).Kept where
  sound := sound_ofCapacity n
  handle_held := by simp [ofCapacity]
  waiter_held := by simp [ofCapacity]
  handle_ids := by simp [ofCapacity]
  waiter_ids := by simp [ofCapacity]
  apart := by simp [ofCapacity]

/-- If numbers tell elements apart, the first with a number is the only one. -/
theorem find?_of_nodup {γ : Type} {f : γ → Nat} {xs : List γ} (hn : (xs.map f).Nodup) {x : γ} (hx : x ∈ xs) :
    xs.find? (fun y => f y = f x) = some x := by
  cases hf : xs.find? (fun y => f y = f x) with
  | none =>
    have := List.find?_eq_none.mp hf x hx
    simp at this
  | some y =>
    have hy : f y = f x := by simpa using List.find?_some hf
    rw [List.inj_on_of_nodup_map hn (List.mem_of_find?_eq_some hf) hx hy]

theorem find?_handle {id : Nat} {h : Handle} (hf : c.handles.find? (·.id = id) = some h) :
    h ∈ c.handles ∧ h.id = id :=
  ⟨List.mem_of_find?_eq_some hf, by simpa using List.find?_some hf⟩

theorem find?_waiter {xs : List Waiter} {id : Nat} {x : Waiter}
    (hf : xs.find? (·.id = id) = some x) : x ∈ xs ∧ x.id = id :=
  ⟨List.mem_of_find?_eq_some hf, by simpa using List.find?_some hf⟩

/-- Whoever holds an entry by its id has the right key. -/
theorem key_eq_of_held (h : c.window.Sound) {key : UInt32} {id : Nat} (hk : c.window.Held key id) :
    ∀ e ∈ c.window.entries, e.id = id → e.key = key := by
  rintro e he rfl
  obtain ⟨a, ha, rfl, hid⟩ := hk.found (h.pending e he)
  rw [h.eq_of_id he ha hid.symm]

namespace Kept

theorem find?_of_handle (h : c.Kept) {a : Handle} (ha : a ∈ c.handles) :
    c.handles.find? (·.id = a.id) = some a :=
  find?_of_nodup h.handle_ids ha

theorem find?_of_waiter (h : c.Kept) {x : Waiter} (hx : x ∈ c.waiters) :
    c.waiters.find? (·.id = x.id) = some x :=
  find?_of_nodup h.waiter_ids hx

/-- Entries leave, and with them the handles and waiters that took them. -/
theorem shrink (h : c.Kept) {w : Window α β} {gone : Entry α → Bool} {o : Option (Outcome β)}
    (turns : c.window.Turns w gone o none) {hs : List Handle} {xs : List Waiter}
    (hhs : hs.Sublist c.handles) (hxs : xs.Sublist c.waiters)
    (hown : o = none → ∀ e ∈ c.window.entries, gone e = true →
      (∀ a ∈ hs, e.id ≠ a.id) ∧ ∀ x ∈ xs, e.id ≠ x.id)
    (now : Instant) (offers : List (PendingOffer α)) : Kept ⟨w, now, offers, hs, xs⟩ where
  sound := turns.sound h.sound
  handle_held a ha := by
    obtain ⟨hk, hlt⟩ := h.handle_held a (hhs.subset ha)
    exact ⟨turns.held hk fun ho e he hg => (hown ho e he hg).1 a ha,
      Nat.lt_of_lt_of_le hlt turns.nextId_le⟩
  waiter_held x hx := by
    obtain ⟨hk, hlt⟩ := h.waiter_held x (hxs.subset hx)
    exact ⟨turns.held hk fun ho e he hg => (hown ho e he hg).2 x hx,
      Nat.lt_of_lt_of_le hlt turns.nextId_le⟩
  handle_ids := h.handle_ids.sublist (hhs.map _)
  waiter_ids := h.waiter_ids.sublist (hxs.map _)
  apart a ha x hx := h.apart a (hhs.subset ha) x (hxs.subset hx)

/-- What settles waiters leaves every handle and every waiter where it is. -/
theorem settle (h : c.Kept) {w : Window α β} {gone : Entry α → Bool} {o : Outcome β}
    (turns : c.window.Turns w gone (some o) none) : Kept { c with window := w } :=
  h.shrink turns (List.Sublist.refl _) (List.Sublist.refl _) (by simp) _ _

/-- A caller gives up the entry of its handle. -/
theorem dropHandle (h : c.Kept) {id : Nat} {w : Window α β} {a : Handle} (ha : a ∈ c.handles)
    (hid : a.id = id) (turns : c.window.Turns w (·.id = id) none none) :
    Kept { c with window := w, handles := c.handles.filter (·.id ≠ id) } := by
  refine h.shrink turns List.filter_sublist (List.Sublist.refl _) (fun _ e _ hg => ⟨?_, ?_⟩) _ _
  · intro b hb hb'
    have : e.id = id := by simpa using hg
    simp [← hb', this] at hb
  · intro x hx hx'
    have : e.id = id := by simpa using hg
    exact h.apart a ha x hx (by rw [hid, ← this, hx'])

/-- A caller stops waiting, with its entry or without. -/
theorem dropWaiter (h : c.Kept) {id : Nat} {w : Window α β} {x : Waiter} (hx : x ∈ c.waiters)
    (hid : x.id = id) {gone : Entry α → Bool} (hgone : ∀ e, gone e = true → e.id = id)
    (turns : c.window.Turns w gone none none) :
    Kept { c with window := w, waiters := c.waiters.filter (·.id ≠ id) } := by
  refine h.shrink turns (List.Sublist.refl _) List.filter_sublist (fun _ e _ hg => ⟨?_, ?_⟩) _ _
  · intro b hb hb'
    exact h.apart b hb x hx (by rw [hid, ← hgone e hg, hb'])
  · intro y hy hy'
    simp [← hy', hgone e hg] at hy

/-- A handle turns into a waiter. -/
theorem await (h : c.Kept) {a : Handle} (ha : a ∈ c.handles) (deadline : Instant) :
    Kept { c with
      handles := c.handles.filter (·.id ≠ a.id)
      waiters := c.waiters ++ [⟨a.key, a.id, deadline⟩] } where
  sound := h.sound
  handle_held b hb := h.handle_held b (List.mem_of_mem_filter hb)
  waiter_held x hx := by
    rcases List.mem_append.mp hx with hx | hx
    · exact h.waiter_held x hx
    · obtain rfl : x = _ := by simpa using hx
      exact h.handle_held a ha
  handle_ids := h.handle_ids.sublist (List.filter_sublist.map _)
  waiter_ids := by
    rw [List.map_append, List.nodup_append]
    refine ⟨h.waiter_ids, by simp, ?_⟩
    intro i hi j hj hij
    obtain ⟨x, hx, rfl⟩ := List.mem_map.mp hi
    obtain rfl : j = a.id := by simpa using hj
    exact h.apart a ha x hx hij.symm
  apart b hb x hx := by
    obtain ⟨hb, hne⟩ := List.mem_filter.mp hb
    rcases List.mem_append.mp hx with hx | hx
    · exact h.apart b hb x hx
    · obtain rfl : x = _ := by simpa using hx
      simpa using hne

/-- An admitted offer comes with a handle. -/
theorem enters (h : c.Kept) {w : Window α β} {e : Entry α}
    (turns : c.window.Turns w (fun _ => false) none (some e)) :
    Kept { c with window := w, handles := c.handles ++ [⟨e.key, e.id⟩] } := by
  obtain ⟨hid, hlt⟩ := turns.fresh_id e rfl
  have hle := turns.nextId_le
  refine ⟨turns.sound h.sound, ?_, ?_, ?_, h.waiter_ids, ?_⟩
  · intro a ha
    rcases List.mem_append.mp ha with ha | ha
    · obtain ⟨hk, hlt⟩ := h.handle_held a ha
      exact ⟨turns.held hk (by simp), Nat.lt_of_lt_of_le hlt hle⟩
    · obtain rfl : a = _ := by simpa using ha
      exact ⟨.inl ⟨e, turns.mem_iff.mpr (.inr rfl), rfl, rfl⟩, hid ▸ hlt⟩
  · intro x hx
    obtain ⟨hk, hlt⟩ := h.waiter_held x hx
    exact ⟨turns.held hk (by simp), Nat.lt_of_lt_of_le hlt hle⟩
  · rw [List.map_append, List.nodup_append]
    refine ⟨h.handle_ids, by simp, ?_⟩
    intro i hi j hj hij
    obtain ⟨a, ha, rfl⟩ := List.mem_map.mp hi
    obtain rfl : j = e.id := by simpa using hj
    have := (h.handle_held a ha).2
    omega
  · intro a ha x hx
    have := (h.waiter_held x hx).2
    rcases List.mem_append.mp ha with ha | ha
    · exact h.apart a ha x hx
    · obtain rfl : a = _ := by simpa using ha
      show e.id ≠ x.id
      omega

theorem noteOffer (h : c.Kept) {w : Window α β} {now : Instant} {key : UInt32} {request : α}
    {expireTimeout : Duration} {o : Offered α}
    (offering : c.window.Offering w now key request expireTimeout o) :
    (c.noteOffer key (w, o)).1.Kept := by
  have hsame (turns : c.window.Turns w (fun _ => false) none none) (offers : List (PendingOffer α)) :
      Kept { c with window := w, offers } :=
    h.shrink turns (List.Sublist.refl _) (List.Sublist.refl _) (by simp) _ _
  cases offering with
  | admitted e turns hk => exact hk ▸ h.enters turns
  | refused err turns => exact hsame turns _
  | waiting p turns => exact hsame turns _

end Kept

/-! ## One operation -/

/-- What the waiters get whose entries an operation takes out. A waiter that gives up gets nothing. -/
def Op.outcome? : Op α β → Option (Outcome β)
  | .complete _ r => some (.response r)
  | .cancel _ | .expire | .close => some .released
  | _ => none

/-- The entries that an operation takes out. -/
def leaves (c : Callers α β) : Op α β → Entry α → Bool
  | .complete key _, e | .cancel key, e => e.key = key
  | .expire, e => e.expireAt ≤ c.now
  | .close, _ => true
  | .drop id, e => (c.handles.find? (·.id = id)).any (e.key = ·.key) && e.id = id
  | .abort id, e => (c.waiters.find? (·.id = id)).any (e.key = ·.key) && e.id = id
  | .look id, e =>
    (c.waiters.find? (·.id = id)).any (fun x => x.deadline ≤ c.now && e.key = x.key) && e.id = id
  | _, _ => false

/-- The operation admits a request as the entry `e`: one offered now, or one that has waited. -/
def Places (c : Callers α β) (op : Op α β) (e : Entry α) : Prop :=
  e.offeredAt = c.now ∧
  ((∃ offerTimeout expireTimeout, op = .offer e.key e.request offerTimeout expireTimeout ∧
      e.expireAt = c.now + expireTimeout.nanos) ∨
    ∃ p ∈ c.offers, op = .resume p.ticket ∧ p.key = e.key ∧ p.request = e.request ∧
      e.expireAt = c.now + p.expireTimeout.nanos)

theorem noteOffer_window (key : UInt32) (r : Window α β × Offered α) :
    (c.noteOffer key r).1.window = r.1 := by
  obtain ⟨w, o⟩ := r
  cases o <;> rfl

theorem noteOffer_snd (key : UInt32) (r : Window α β × Offered α) :
    (c.noteOffer key r).2 = .offered r.2 := by
  obtain ⟨w, o⟩ := r
  cases o <;> rfl

theorem noteLook_window (id : Nat) (r : Window α β × Option (Except WindowError β)) :
    (c.noteLook id r).1.window = r.1 := by
  obtain ⟨w, r⟩ := r
  cases r <;> rfl

theorem noteLook_snd (id : Nat) (r : Window α β × Option (Except WindowError β)) :
    (c.noteLook id r).2 = r.2.elim .nothing .ended := by
  obtain ⟨w, r⟩ := r
  cases r <;> rfl

/-- Nothing in the table changes when an operation finds nobody to act for. -/
theorem turns_refl : c.window.Turns c.window (fun _ => false) none none :=
  .of_eq rfl rfl (Nat.le_refl _)

/-- An offer that is looked at brings its entry, or nothing. -/
theorem offering_turns {w : Window α β} {key : UInt32} {request : α} {expireTimeout : Duration}
    {o : Offered α} (h : c.window.Offering w c.now key request expireTimeout o) :
    ∃ fresh, c.window.Turns w (fun _ => false) none fresh ∧
      (∀ e, fresh = some e → e.offeredAt = c.now ∧ e.key = key ∧ e.request = request ∧
        e.expireAt = c.now + expireTimeout.nanos) ∧
      ∀ id, o = .admitted id ↔ ∃ e, fresh = some e ∧ e.id = id := by
  cases h with
  | admitted e turns hk hr ho he =>
    refine ⟨some e, turns, ?_, ?_⟩
    · rintro _ ⟨⟩
      exact ⟨ho, hk, hr, he⟩
    · simp
  | refused err turns => exact ⟨none, turns, by simp, by simp⟩
  | waiting p turns => exact ⟨none, turns, by simp, by simp⟩

/-- A look takes an entry out only if it is the waiter's own and the wait is over. -/
theorem look_turns (h : c.window.Sound) {x : Waiter} (hf : c.waiters.find? (·.id = x.id) = some x) :
    c.window.Turns (c.window.collect c.now x).1 (c.leaves (.look x.id)) none none := by
  -- a settled waiter has no entry in the table, so nothing of its own can leave
  have hgone (o : Outcome β) (ho : c.window.outcome? x.id = some o) :
      ∀ e ∈ c.window.entries, c.leaves (.look x.id) e = false := by
    intro e he
    have : e.id ≠ x.id := fun hid => by simp [← hid, h.pending e he] at ho
    simp [leaves, this]
  have hcol := collect_collecting h c.now x
  generalize c.window.collect c.now x = wr at hcol ⊢
  obtain ⟨w', r⟩ := wr
  dsimp only at hcol ⊢
  cases hcol with
  | response r hr same => exact same ▸ turns_refl.congr (hgone _ hr)
  | released hr same => exact same ▸ turns_refl.congr (hgone _ hr)
  | timedOut e he hk hid hlate turns =>
    refine turns.congr fun a ha => ?_
    by_cases hida : a.id = x.id
    · simp [leaves, hf, hlate, ← hk, h.eq_of_id ha he (hida.trans hid.symm)]
    · simp [leaves, hida]
  | missing hnone hlate hno same =>
    subst same
    exact turns_refl.congr fun e he => by simpa [leaves, hf, hlate] using hno e he
  | waiting hnone hearly same =>
    subst same
    have hlate : ¬ x.deadline ≤ c.now := Nat.not_le.mpr hearly
    exact turns_refl.congr (by simp [leaves, hf, hlate])

/-- What one operation does to the table, and that it says so if it admits a request. -/
theorem perform_turns (h : c.window.Sound) (op : Op α β) :
    ∃ fresh, c.window.Turns (c.perform op).1.window (c.leaves op) op.outcome? fresh ∧
      (∀ e, fresh = some e → c.Places op e) ∧
      ∀ id, (c.perform op).2 = .offered (.admitted id) ↔ ∃ e, fresh = some e ∧ e.id = id := by
  have quiet {w : Window α β} (a : Answer α β) {gone : Entry α → Bool} {o : Option (Outcome β)}
      (turns : c.window.Turns w gone o none) (ha : ∀ id, a ≠ .offered (.admitted id)) :
      ∃ fresh, c.window.Turns w gone o fresh ∧ (∀ e, fresh = some e → c.Places op e) ∧
        ∀ id, a = .offered (.admitted id) ↔ ∃ e, fresh = some e ∧ e.id = id :=
    ⟨none, turns, by simp, by simp [ha]⟩
  cases op with
  | offer key request ot et =>
    obtain ⟨fresh, turns, hfresh, hid⟩ :=
      offering_turns (offer_offering (w := c.window) c.now key request et ot)
    refine ⟨fresh, ?_, ?_, ?_⟩
    · rw [perform, noteOffer_window]
      exact turns
    · intro e he
      obtain ⟨ho, rfl, rfl, hx⟩ := hfresh e he
      exact ⟨ho, .inl ⟨ot, et, rfl, hx⟩⟩
    · simpa [perform, noteOffer_snd] using hid
  | resume ticket =>
    rw [perform]
    split
    · exact quiet _ turns_refl (by simp)
    · rename_i p hp
      obtain ⟨fresh, turns, hfresh, hid⟩ := offering_turns (resume_offering (w := c.window) c.now p)
      refine ⟨fresh, ?_, ?_, ?_⟩
      · rw [noteOffer_window]
        exact turns
      · intro e he
        obtain ⟨ho, hk, hr, hx⟩ := hfresh e he
        have ht : p.ticket = ticket := by simpa using List.find?_some hp
        exact ⟨ho, .inr ⟨p, List.mem_of_find?_eq_some hp, by rw [ht], hk.symm, hr.symm, hx⟩⟩
      · simpa [noteOffer_snd] using hid
  | abandon ticket =>
    rw [perform]
    split
    · exact quiet _ turns_refl (by simp)
    · exact quiet _ (abandon_turns _) (by simp)
  | await id timeout =>
    rw [perform]
    split
    · exact quiet _ turns_refl (by simp)
    · exact quiet _ turns_refl (by simp)
  | drop id =>
    rw [perform]
    split
    · rename_i hf
      exact quiet _ (turns_refl.congr (by simp [leaves, hf])) (by simp)
    · rename_i a hf
      obtain ⟨ha, rfl⟩ := find?_handle hf
      exact quiet _ ((withdraw_turns a.key h a.id).congr (by simp [leaves, hf])) (by simp)
  | look id =>
    rw [perform]
    split
    · rename_i hf
      exact quiet _ (turns_refl.congr (by simp [leaves, hf])) (by simp)
    · rename_i x hf
      obtain ⟨hx, rfl⟩ := find?_waiter hf
      refine quiet (w := (c.noteLook x.id (c.window.collect c.now x)).1.window) _ ?_ ?_
      · rw [noteLook_window]
        exact look_turns h hf
      · intro id
        rw [noteLook_snd]
        cases (c.window.collect c.now x).2 <;> simp
  | abort id =>
    rw [perform]
    split
    · rename_i hf
      exact quiet _ (turns_refl.congr (by simp [leaves, hf])) (by simp)
    · rename_i x hf
      obtain ⟨hx, rfl⟩ := find?_waiter hf
      exact quiet _ ((withdraw_turns x.key h x.id).congr (by simp [leaves, hf])) (by simp)
  | complete key r => exact quiet _ (complete_turns c.now key h r) (by simp [perform])
  | cancel key => exact quiet _ (cancel_turns key h) (by simp [perform])
  | expire => exact quiet _ (expire_turns c.now h) (by simp [perform])
  | close => exact quiet _ (close_turns h) (by simp [perform])
  | elapse d => exact quiet _ turns_refl (by simp [perform])

/-- One operation keeps what every handle and every waiter holds. -/
theorem perform_kept (h : c.Kept) (op : Op α β) : (c.perform op).1.Kept := by
  cases op with
  | offer key request ot et => exact h.noteOffer (offer_offering c.now key request et ot)
  | resume ticket =>
    rw [perform]
    split
    · exact h
    · rename_i p hp
      have h' : Kept { c with offers := c.offers.filter (·.ticket ≠ ticket) } :=
        ⟨h.sound, h.handle_held, h.waiter_held, h.handle_ids, h.waiter_ids, h.apart⟩
      exact h'.noteOffer (resume_offering c.now p)
  | abandon ticket =>
    rw [perform]
    split
    · exact h
    · exact h.shrink (abandon_turns _) (List.Sublist.refl _) (List.Sublist.refl _) (by simp) _ _
  | await id timeout =>
    rw [perform]
    split
    · exact h
    · rename_i a hf
      obtain ⟨ha, rfl⟩ := find?_handle hf
      exact h.await ha _
  | drop id =>
    rw [perform]
    split
    · exact h
    · rename_i a hf
      obtain ⟨ha, rfl⟩ := find?_handle hf
      exact h.dropHandle ha rfl (withdraw_turns_held a.key h.sound (h.handle_held a ha).1)
  | look id =>
    rw [perform]
    split
    · exact h
    · rename_i x hf
      obtain ⟨hx, rfl⟩ := find?_waiter hf
      have hcol := collect_collecting h.sound c.now x
      generalize c.window.collect c.now x = wr at hcol ⊢
      obtain ⟨w', r⟩ := wr
      dsimp only at hcol
      cases hcol with
      | response r hr same => exact same ▸ h.dropWaiter hx rfl (by simp) turns_refl
      | released hr same => exact same ▸ h.dropWaiter hx rfl (by simp) turns_refl
      | timedOut e he hk hid hlate turns => exact h.dropWaiter hx rfl (by simp) turns
      | missing hnone hlate hno same => exact same ▸ h.dropWaiter hx rfl (by simp) turns_refl
      | waiting hnone hearly same => exact same ▸ h
  | abort id =>
    rw [perform]
    split
    · exact h
    · rename_i x hf
      obtain ⟨hx, rfl⟩ := find?_waiter hf
      exact h.dropWaiter hx rfl (by simp)
        (withdraw_turns_held x.key h.sound (h.waiter_held x hx).1)
  | complete key r => exact h.settle (complete_turns c.now key h.sound r)
  | cancel key => exact h.settle (cancel_turns key h.sound)
  | expire => exact h.settle (expire_turns c.now h.sound)
  | close => exact h.settle (close_turns h.sound)
  | elapse d => exact ⟨h.sound, h.handle_held, h.waiter_held, h.handle_ids, h.waiter_ids, h.apart⟩

/-! ## Who takes what, who brings what -/

theorem takes_iff (h : c.window.Sound) {op : Op α β} {e : Entry α} :
    c.Takes op e ↔ e ∈ c.window.entries ∧ c.leaves op e = true := by
  obtain ⟨fresh, turns, -, -⟩ := perform_turns h op
  refine and_congr_right fun he => ?_
  rw [turns.mem_iff]
  constructor
  · intro hno
    by_contra hg
    exact hno (.inl ⟨he, by simpa using hg⟩)
  · rintro hg (⟨-, hg'⟩ | hf)
    · rw [hg] at hg'
      exact absurd hg' (by simp)
    · have := (turns.fresh_id e hf).1
      have := h.id_lt e he
      omega

/-- An operation admits an entry exactly if it says so; the entry has the next id. -/
theorem admits_iff (h : c.window.Sound) {op : Op α β} {e : Entry α} :
    c.Admits op e ↔
      e ∈ (c.perform op).1.window.entries ∧ (c.perform op).2 = .offered (.admitted e.id) := by
  obtain ⟨fresh, turns, -, hid⟩ := perform_turns h op
  have hnew : ∀ a, fresh = some a → a ∉ c.window.entries := by
    intro a ha hmem
    have := (turns.fresh_id a ha).1
    have := h.id_lt a hmem
    omega
  rw [Admits, and_comm, hid]
  refine and_congr_right fun he => ⟨fun hno => ?_, ?_⟩
  · rcases turns.mem_iff.mp he with ⟨hmem, -⟩ | hf
    · exact absurd hmem hno
    · exact ⟨e, hf, rfl⟩
  · rintro ⟨a, ha, haid⟩ hmem
    have := (turns.fresh_id a ha).1
    have := h.id_lt e hmem
    omega

theorem Admits.places (h : c.window.Sound) {op : Op α β} {e : Entry α} (ha : c.Admits op e) :
    c.Places op e ∧ e.id = c.window.nextId ∧ e.id < (c.perform op).1.window.nextId := by
  obtain ⟨fresh, turns, hplaces, -⟩ := perform_turns h op
  rcases turns.mem_iff.mp ha.2 with ⟨hmem, -⟩ | hf
  · exact absurd hmem ha.1
  · obtain ⟨hid, hlt⟩ := turns.fresh_id e hf
    exact ⟨hplaces e hf, hid, hid ▸ hlt⟩

/-- The operations that take an entry out of the table, if it is there. A handle and a waiter take only their
own, the waiter when its time is up. -/
inductive Taker (c : Callers α β) (e : Entry α) : Op α β → Prop where
  | complete (r : β) : Taker c e (.complete e.key r)
  | cancel : Taker c e (.cancel e.key)
  | expire (due : e.expireAt ≤ c.now) : Taker c e .expire
  | close : Taker c e .close
  | drop (h : Handle) (mem : h ∈ c.handles) (own : h.id = e.id) : Taker c e (.drop e.id)
  | abort (x : Waiter) (mem : x ∈ c.waiters) (own : x.id = e.id) : Taker c e (.abort e.id)
  | timer (x : Waiter) (mem : x ∈ c.waiters) (own : x.id = e.id) (late : x.deadline ≤ c.now) :
    Taker c e (.look e.id)

theorem taker_of_leaves {op : Op α β} {e : Entry α} (hg : c.leaves op e = true) : c.Taker e op := by
  cases op with
  | complete key r =>
    obtain rfl : e.key = key := by simpa [leaves] using hg
    exact .complete r
  | cancel key =>
    obtain rfl : e.key = key := by simpa [leaves] using hg
    exact .cancel
  | expire => exact .expire (by simpa [leaves] using hg)
  | close => exact .close
  | drop id =>
    obtain ⟨hs, rfl⟩ :
        (c.handles.find? (·.id = id)).any (e.key = ·.key) = true ∧ e.id = id := by
      simpa only [leaves, Bool.and_eq_true, decide_eq_true_eq] using hg
    obtain ⟨a, ha, -⟩ := (Option.any_eq_true _ _).mp hs
    exact .drop a (find?_handle ha).1 (find?_handle ha).2
  | abort id =>
    obtain ⟨hs, rfl⟩ :
        (c.waiters.find? (·.id = id)).any (e.key = ·.key) = true ∧ e.id = id := by
      simpa only [leaves, Bool.and_eq_true, decide_eq_true_eq] using hg
    obtain ⟨x, hx, -⟩ := (Option.any_eq_true _ _).mp hs
    exact .abort x (find?_waiter hx).1 (find?_waiter hx).2
  | look id =>
    obtain ⟨hs, rfl⟩ : (c.waiters.find? (·.id = id)).any
        (fun x => x.deadline ≤ c.now && e.key = x.key) = true ∧ e.id = id := by
      simpa only [leaves, Bool.and_eq_true, decide_eq_true_eq] using hg
    obtain ⟨x, hx, hlate⟩ := (Option.any_eq_true _ _).mp hs
    obtain ⟨hlate, -⟩ : x.deadline ≤ c.now ∧ e.key = x.key := by simpa using hlate
    exact .timer x (find?_waiter hx).1 (find?_waiter hx).2 hlate
  | _ => simp [leaves] at hg

theorem leaves_of_taker (h : c.Kept) {op : Op α β} {e : Entry α} (he : e ∈ c.window.entries)
    (ht : c.Taker e op) : c.leaves op e = true := by
  cases ht with
  | complete r | cancel => simp [leaves]
  | expire due => simpa [leaves] using due
  | close => rfl
  | drop a ha own =>
    have hkey := key_eq_of_held h.sound (h.handle_held a ha).1 e he own.symm
    simp [leaves, ← own, h.find?_of_handle ha, hkey]
  | abort x hx own =>
    have hkey := key_eq_of_held h.sound (h.waiter_held x hx).1 e he own.symm
    simp [leaves, ← own, h.find?_of_waiter hx, hkey]
  | timer x hx own late =>
    have hkey := key_eq_of_held h.sound (h.waiter_held x hx).1 e he own.symm
    simp [leaves, ← own, h.find?_of_waiter hx, hkey, late]

/-- Exactly these operations take an entry out. -/
theorem takes_iff_taker (h : c.Kept) {op : Op α β} {e : Entry α} :
    c.Takes op e ↔ e ∈ c.window.entries ∧ c.Taker e op :=
  (takes_iff h.sound).trans (and_congr_right fun he => ⟨taker_of_leaves, leaves_of_taker h he⟩)

/-! ## How long a caller holds what it holds -/

theorem mem_noteOffer_handles {a : Handle} (ha : a ∈ c.handles) (key : UInt32) (r : Window α β × Offered α) :
    a ∈ (c.noteOffer key r).1.handles := by
  obtain ⟨w, o⟩ := r
  cases o with
  | admitted id => exact List.mem_append_left _ ha
  | refused | waiting => exact ha

theorem noteOffer_handle {key : UInt32} {r : Window α β × Offered α} {id : Nat}
    (h : (c.noteOffer key r).2 = .offered (.admitted id)) : ⟨key, id⟩ ∈ (c.noteOffer key r).1.handles := by
  obtain ⟨w, o⟩ := r
  rw [noteOffer_snd] at h
  cases h
  exact List.mem_append_right _ (List.mem_singleton.mpr rfl)

/-- The caller of an admitted offer gets a handle for its entry. -/
theorem handle_of_admits (h : c.Kept) {op : Op α β} {e : Entry α} (hadm : c.Admits op e) :
    ⟨e.key, e.id⟩ ∈ (c.perform op).1.handles := by
  have hanswer := ((admits_iff h.sound).mp hadm).2
  have hnoted : ∃ key, ⟨key, e.id⟩ ∈ (c.perform op).1.handles := by
    rcases (hadm.places h.sound).1.2 with ⟨_, _, rfl, -⟩ | ⟨p, -, rfl, -⟩
    · exact ⟨_, noteOffer_handle hanswer⟩
    · cases hf : c.offers.find? (·.ticket = p.ticket) with
      | none => simp [perform, hf] at hanswer
      | some q =>
        simp only [perform, hf] at hanswer ⊢
        exact ⟨_, noteOffer_handle hanswer⟩
  obtain ⟨key, hmem⟩ := hnoted
  have hkept := perform_kept h op
  rwa [key_eq_of_held hkept.sound (hkept.handle_held _ hmem).1 e hadm.2 rfl]

/-- Whoever awaits waits from then on, and for as long as he has said. -/
theorem waiter_of_await (h : c.Kept) {a : Handle} (ha : a ∈ c.handles) (timeout : Duration) :
    ⟨a.key, a.id, c.now + timeout.nanos⟩ ∈ (c.perform (.await a.id timeout)).1.waiters := by
  simp [perform, h.find?_of_handle ha]

/-- A handle is there until it is dropped or awaited. -/
theorem handle_stays {a : Handle} (ha : a ∈ c.handles) (op : Op α β) :
    a ∈ (c.perform op).1.handles ∨ op = .drop a.id ∨ ∃ timeout, op = .await a.id timeout := by
  have others {id : Nat} (hid : a.id ≠ id) : a ∈ c.handles.filter (·.id ≠ id) :=
    List.mem_filter.mpr ⟨ha, by simpa using hid⟩
  cases op with
  | offer key request ot et => exact .inl (mem_noteOffer_handles ha _ _)
  | resume ticket =>
    rw [perform]
    split
    · exact .inl ha
    · exact .inl (mem_noteOffer_handles (c := { c with offers := c.offers.filter (·.ticket ≠ ticket) }) ha _ _)
  | abandon ticket =>
    rw [perform]
    split <;> exact .inl ha
  | await id timeout =>
    by_cases hid : a.id = id
    · exact .inr (.inr ⟨timeout, by rw [hid]⟩)
    · rw [perform]
      split
      · exact .inl ha
      · exact .inl (others hid)
  | drop id =>
    by_cases hid : a.id = id
    · exact .inr (.inl (by rw [hid]))
    · rw [perform]
      split
      · exact .inl ha
      · exact .inl (others hid)
  | look id =>
    rw [perform]
    split
    · exact .inl ha
    · rename_i x hf
      generalize c.window.collect c.now x = wr
      obtain ⟨w, r⟩ := wr
      cases r <;> exact .inl ha
  | abort id =>
    rw [perform]
    split <;> exact .inl ha
  | complete | cancel | expire | close | elapse => exact .inl ha

/-- A waiter is there until it is cancelled or finds something. -/
theorem waiter_stays {x : Waiter} (hx : x ∈ c.waiters) (op : Op α β) :
    x ∈ (c.perform op).1.waiters ∨ op = .abort x.id ∨
      op = .look x.id ∧ ∃ r, (c.perform op).2 = .ended r := by
  have others {id : Nat} (hid : x.id ≠ id) : x ∈ c.waiters.filter (·.id ≠ id) :=
    List.mem_filter.mpr ⟨hx, by simpa using hid⟩
  have offered (c' : Callers α β) (hc : c'.waiters = c.waiters) (key : UInt32) (r : Window α β × Offered α) :
      x ∈ (c'.noteOffer key r).1.waiters := by
    obtain ⟨w, o⟩ := r
    cases o <;> exact hc ▸ hx
  cases op with
  | offer key request ot et => exact .inl (offered c rfl _ _)
  | resume ticket =>
    rw [perform]
    split
    · exact .inl hx
    · exact .inl (offered { c with offers := c.offers.filter (·.ticket ≠ ticket) } rfl _ _)
  | abandon ticket | drop id =>
    rw [perform]
    split <;> exact .inl hx
  | await id timeout =>
    rw [perform]
    split
    · exact .inl hx
    · exact .inl (List.mem_append_left _ hx)
  | look id =>
    rw [perform]
    split
    · exact .inl hx
    · rename_i y hf
      generalize c.window.collect c.now y = wr
      obtain ⟨w, r⟩ := wr
      cases r with
      | none => exact .inl hx
      | some r =>
        by_cases hid : x.id = id
        · exact .inr (.inr ⟨by rw [hid], r, rfl⟩)
        · exact .inl (others hid)
  | abort id =>
    by_cases hid : x.id = id
    · exact .inr (.inl (by rw [hid]))
    · rw [perform]
      split
      · exact .inl hx
      · exact .inl (others hid)
  | complete | cancel | expire | close | elapse => exact .inl hx

/-! ## Who holds what -/

/-- A handle or a waiter stands for the entry drawn as `id` under `key`. -/
def Owns (c : Callers α β) (key : UInt32) (id : Nat) : Prop :=
  (∃ h ∈ c.handles, h.key = key ∧ h.id = id) ∨ ∃ x ∈ c.waiters, x.key = key ∧ x.id = id

theorem Owns.of_sublist {key : UInt32} {id : Nat} {c' : Callers α β} (h : c'.Owns key id)
    (hh : c'.handles.Sublist c.handles) (hx : c'.waiters.Sublist c.waiters) : c.Owns key id := by
  rcases h with ⟨a, ha, hk⟩ | ⟨x, hx', hk⟩
  · exact .inl ⟨a, hh.subset ha, hk⟩
  · exact .inr ⟨x, hx.subset hx', hk⟩

theorem noteOffer_owns (hc : c.window.Sound) {w : Window α β} {now : Instant} {key key' : UInt32}
    {request : α} {expireTimeout : Duration} {o : Offered α} {id : Nat}
    (offering : c.window.Offering w now key request expireTimeout o)
    (h : (c.noteOffer key (w, o)).1.Owns key' id) :
    c.Owns key' id ∨ ∃ e ∈ w.entries, e ∉ c.window.entries ∧ e.key = key' ∧ e.id = id := by
  cases offering with
  | admitted e turns hk =>
    rcases h with ⟨a, ha, hkey, hid⟩ | hx
    · rcases List.mem_append.mp ha with ha | ha
      · exact .inl (.inl ⟨a, ha, hkey, hid⟩)
      · obtain rfl : a = ⟨key, e.id⟩ := by simpa using ha
        refine .inr ⟨e, turns.mem_iff.mpr (.inr rfl), fun hmem => ?_, hk.trans hkey, hid⟩
        have := (turns.fresh_id e rfl).1
        have := hc.id_lt e hmem
        omega
    · exact .inl (.inr hx)
  | refused err turns => exact .inl h
  | waiting p turns => exact .inl h

/-- Whoever holds an entry has held it before, or it comes by this operation. -/
theorem perform_owns (hc : c.window.Sound) {op : Op α β} {key : UInt32} {id : Nat}
    (h : (c.perform op).1.Owns key id) :
    c.Owns key id ∨ ∃ e, c.Admits op e ∧ e.key = key ∧ e.id = id := by
  cases op with
  | offer k request ot et =>
    refine (noteOffer_owns hc (offer_offering c.now k request et ot) h).imp_right ?_
    rintro ⟨e, he, hno, hk⟩
    exact ⟨e, ⟨hno, by rwa [perform, noteOffer_window]⟩, hk⟩
  | resume ticket =>
    cases hf : c.offers.find? (·.ticket = ticket) with
    | none => exact .inl (by simpa only [perform, hf] using h)
    | some p =>
      simp only [perform, hf] at h
      refine (noteOffer_owns (c := { c with offers := c.offers.filter (·.ticket ≠ ticket) }) hc
        (resume_offering c.now p) h).imp_right ?_
      rintro ⟨e, he, hno, hk⟩
      exact ⟨e, ⟨hno, by simpa only [perform, hf, noteOffer_window] using he⟩, hk⟩
  | await i timeout =>
    cases hf : c.handles.find? (·.id = i) with
    | none => exact .inl (by simpa only [perform, hf] using h)
    | some a =>
      obtain ⟨ha, rfl⟩ := find?_handle hf
      simp only [perform, hf] at h
      rcases h with ⟨b, hb, hk⟩ | ⟨x, hx, hk⟩
      · exact .inl (.inl ⟨b, List.mem_of_mem_filter hb, hk⟩)
      · rcases List.mem_append.mp hx with hx | hx
        · exact .inl (.inr ⟨x, hx, hk⟩)
        · obtain rfl : x = _ := by simpa using hx
          exact .inl (.inl ⟨a, ha, hk⟩)
  | abandon ticket =>
    rw [perform] at h
    split at h <;> exact .inl h
  | drop i =>
    rw [perform] at h
    split at h
    · exact .inl h
    · exact .inl (Owns.of_sublist h List.filter_sublist (List.Sublist.refl _))
  | look i =>
    rw [perform] at h
    split at h
    · exact .inl h
    · rename_i x hf
      generalize c.window.collect c.now x = wr at h
      obtain ⟨w, r⟩ := wr
      cases r with
      | none => exact .inl h
      | some r => exact .inl (Owns.of_sublist h (List.Sublist.refl _) List.filter_sublist)
  | abort i =>
    rw [perform] at h
    split at h
    · exact .inl h
    · exact .inl (Owns.of_sublist h (List.Sublist.refl _) List.filter_sublist)
  | _ => exact .inl h

theorem noteOffer_offers {w : Window α β} {now : Instant} {key : UInt32} {request : α}
    {expireTimeout : Duration} {o : Offered α} {p : PendingOffer α}
    (offering : c.window.Offering w now key request expireTimeout o)
    (h : p ∈ (c.noteOffer key (w, o)).1.offers) :
    p ∈ c.offers ∨ p.key = key ∧ p.request = request ∧ p.expireTimeout = expireTimeout := by
  cases offering with
  | admitted e turns => exact .inl h
  | refused err turns => exact .inl h
  | waiting q turns hk hr he =>
    rcases List.mem_append.mp h with h | h
    · exact .inl h
    · obtain rfl : p = q := by simpa using h
      exact .inr ⟨hk, hr, he⟩

/-- Whoever waits for a permit has waited before, or offers now. -/
theorem perform_offers {op : Op α β} {p : PendingOffer α} (h : p ∈ (c.perform op).1.offers) :
    (∃ q ∈ c.offers, q.key = p.key ∧ q.request = p.request ∧ q.expireTimeout = p.expireTimeout) ∨
      ∃ offerTimeout, op = .offer p.key p.request offerTimeout p.expireTimeout := by
  have old (hp : p ∈ c.offers) : ∃ q ∈ c.offers,
      q.key = p.key ∧ q.request = p.request ∧ q.expireTimeout = p.expireTimeout :=
    ⟨p, hp, rfl, rfl, rfl⟩
  cases op with
  | offer k request ot et =>
    rcases noteOffer_offers (offer_offering c.now k request et ot) h with h | ⟨rfl, rfl, rfl⟩
    · exact .inl (old h)
    · exact .inr ⟨ot, rfl⟩
  | resume ticket =>
    rw [perform] at h
    split at h
    · exact .inl (old h)
    · rename_i q hq
      refine .inl ?_
      rcases noteOffer_offers
        (c := { c with offers := c.offers.filter (·.ticket ≠ ticket) }) (resume_offering c.now q) h with
        h | ⟨hk, hr, he⟩
      · exact old (List.mem_of_mem_filter h)
      · exact ⟨q, List.mem_of_find?_eq_some hq, hk.symm, hr.symm, he.symm⟩
  | abandon ticket =>
    rw [perform] at h
    split at h
    · exact .inl (old h)
    · exact .inl (old (List.mem_of_mem_filter h))
  | await i timeout | drop i | abort i =>
    rw [perform] at h
    split at h <;> exact .inl (old h)
  | look i =>
    rw [perform] at h
    split at h
    · exact .inl (old h)
    · rename_i x hf
      generalize c.window.collect c.now x = wr at h
      obtain ⟨w, r⟩ := wr
      cases r <;> exact .inl (old h)
  | _ => exact .inl (old h)

end Smsc.Callers
