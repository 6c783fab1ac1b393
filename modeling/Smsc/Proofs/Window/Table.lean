import Mathlib.Data.List.Nodup
import Smsc.Window.Offer

/-!
# Smsc.Proofs.Window.Table — what an operation can do to the table

Whatever an operation does, some entries leave and at most one comes.

* `Sound w`: ids and keys tell entries apart, and no entry in the table is settled;
* `Turns w w' gone o fresh`: from `w` to `w'` the entries picked by `gone` leave, their waiters get `o`
  if it is something, and `fresh` comes;
* `complete_turns`, `cancel_turns`, `expire_turns`, `close_turns`, `withdraw_turns`: one lemma for each
  way out; `Offering`, with `offer_offering` and `resume_offering`, for the way in;
* `Turns.sound`, `Turns.held`: what follows for any operation.
-/

namespace Smsc.Window

variable {α β : Type} {w w' w'' : Window α β}

/-! ## The invariant -/

/-- Ids and keys tell the entries apart, and the waiter of an entry in the table has nothing yet. -/
structure Sound (w : Window α β) : Prop where
  id_lt : ∀ e ∈ w.entries, e.id < w.nextId
  ids : (w.entries.map (·.id)).Nodup
  keys : (w.entries.map (·.key)).Nodup
  outcome_lt : ∀ i o, w.outcome? i = some o → i < w.nextId
  pending : ∀ e ∈ w.entries, w.outcome? e.id = none

/-- The entry drawn as `id` is in the table under `key`, or its waiter is settled. -/
def Held (w : Window α β) (key : UInt32) (id : Nat) : Prop :=
  (∃ e ∈ w.entries, e.key = key ∧ e.id = id) ∨ (w.outcome? id).isSome

/-- An entry that is held and not settled is in the table. -/
theorem Held.found {key : UInt32} {id : Nat} (h : w.Held key id) (pending : w.outcome? id = none) :
    ∃ e ∈ w.entries, e.key = key ∧ e.id = id :=
  h.resolve_right (by simp [pending])

theorem sound_ofCapacity (n : Nat) : (ofCapacity n : Window α β).Sound where
  id_lt := by simp [ofCapacity]
  ids := by simp [ofCapacity]
  keys := by simp [ofCapacity]
  outcome_lt := by simp [ofCapacity, outcome?]
  pending := by simp [ofCapacity]

namespace Sound

theorem eq_of_id (h : w.Sound) {a b : Entry α} (ha : a ∈ w.entries) (hb : b ∈ w.entries)
    (hid : a.id = b.id) : a = b :=
  List.inj_on_of_nodup_map h.ids ha hb hid

theorem eq_of_key (h : w.Sound) {a b : Entry α} (ha : a ∈ w.entries) (hb : b ∈ w.entries)
    (hkey : a.key = b.key) : a = b :=
  List.inj_on_of_nodup_map h.keys ha hb hkey

theorem nodup (h : w.Sound) : w.entries.Nodup := h.ids.of_map _

end Sound

theorem find?_eq_some (h : w.Sound) {key : UInt32} {e : Entry α} :
    w.find? key = some e ↔ e ∈ w.entries ∧ e.key = key := by
  constructor
  · intro hf
    exact ⟨List.mem_of_find?_eq_some hf, by simpa using List.find?_some hf⟩
  · rintro ⟨he, rfl⟩
    cases hf : w.find? e.key with
    | none =>
      have := List.find?_eq_none.mp hf e he
      simp at this
    | some a =>
      have hk : a.key = e.key := by simpa using List.find?_some hf
      rw [h.eq_of_key (List.mem_of_find?_eq_some hf) he hk]

theorem find?_eq_none {key : UInt32} : w.find? key = none ↔ ∀ e ∈ w.entries, e.key ≠ key := by
  simp [find?]

/-! ## One relation for every operation -/

/-- From `w` to `w'` the entries that `gone` picks leave, with `o` for their waiters if it is
something, and `fresh` comes. -/
structure Turns (w w' : Window α β) (gone : Entry α → Bool) (o : Option (Outcome β))
    (fresh : Option (Entry α)) : Prop where
  entries : w'.entries = w.entries.filter (fun e => !gone e) ++ fresh.toList
  settled : ∀ e ∈ w.entries, gone e = true → ∀ x, o = some x → w'.outcome? e.id = some x
  kept : ∀ i, (o = none ∨ ∀ e ∈ w.entries, gone e = true → e.id ≠ i) → w'.outcome? i = w.outcome? i
  nextId_le : w.nextId ≤ w'.nextId
  fresh_id : ∀ e, fresh = some e → e.id = w.nextId ∧ w.nextId < w'.nextId
  fresh_key : ∀ e, fresh = some e → ∀ a ∈ w.entries, a.key ≠ e.key

namespace Turns

variable {gone : Entry α → Bool} {o : Option (Outcome β)} {fresh : Option (Entry α)}

/-- Nothing happens to the table. -/
theorem of_eq (he : w'.entries = w.entries) (ho : w'.outcomes = w.outcomes)
    (hn : w.nextId ≤ w'.nextId) : w.Turns w' (fun _ => false) none none where
  entries := by simp [he]
  settled := by simp
  kept i _ := by simp [outcome?, ho]
  nextId_le := hn
  fresh_id := by simp
  fresh_key := by simp

/-- Permits do not matter. -/
theorem of_permits {permits : Permits} (h : Turns { w with permits } w' gone o fresh) :
    w.Turns w' gone o fresh :=
  ⟨h.entries, h.settled, h.kept, h.nextId_le, h.fresh_id, h.fresh_key⟩

/-- Only the picks among the entries count. -/
theorem congr (h : w.Turns w' gone o fresh) {gone' : Entry α → Bool}
    (hg : ∀ e ∈ w.entries, gone' e = gone e) : w.Turns w' gone' o fresh where
  entries := by
    rw [h.entries, List.filter_congr]
    intro e he
    rw [hg e he]
  settled e he hx := h.settled e he (by rw [← hg e he, hx])
  kept i hi := h.kept i (hi.imp id fun H e he hx => H e he (by rw [hg e he, hx]))
  nextId_le := h.nextId_le
  fresh_id := h.fresh_id
  fresh_key := h.fresh_key

theorem mem_iff (h : w.Turns w' gone o fresh) {e : Entry α} :
    e ∈ w'.entries ↔ (e ∈ w.entries ∧ gone e = false) ∨ fresh = some e := by
  rw [h.entries, List.mem_append, List.mem_filter, Option.mem_toList]
  simp

theorem mem_of_mem (h : w.Turns w' gone o none) {e : Entry α} (he : e ∈ w'.entries) :
    e ∈ w.entries ∧ gone e = false := by
  simpa using h.mem_iff.mp he

theorem subset (h : w.Turns w' gone o none) : w'.entries ⊆ w.entries := fun _ he => (h.mem_of_mem he).1

/-- An operation after another that does the same to other entries. -/
theorem trans (hw : w.Sound) {gone' : Entry α → Bool} (h : w.Turns w' gone o none)
    (h' : w'.Turns w'' gone' o none) :
    w.Turns w'' (fun e => gone e || gone' e) o none where
  entries := by
    rw [h'.entries, h.entries]
    simp [List.filter_filter, Bool.and_comm]
  settled e he hx x ho := by
    by_cases hg : gone e = true
    · rw [h'.kept]
      · exact h.settled e he hg x ho
      · refine Or.inr fun a ha _ hid => ?_
        obtain ⟨ha, hga⟩ := h.mem_of_mem ha
        rw [hw.eq_of_id ha he hid, hg] at hga
        exact absurd hga (by simp)
    · have : e ∈ w'.entries := h.mem_iff.mpr (.inl ⟨he, by simpa using hg⟩)
      exact h'.settled e this (by simpa [hg] using hx) x ho
  kept i hi := by
    rw [h'.kept, h.kept]
    · exact hi.imp id fun H e he hx => H e he (by simp [hx])
    · exact hi.imp id fun H e he hx => H e (h.mem_of_mem he).1 (by simp [hx])
  nextId_le := Nat.le_trans h.nextId_le h'.nextId_le
  fresh_id := by simp
  fresh_key := by simp

/-- Every operation keeps the table sound. -/
theorem sound (h : w.Turns w' gone o fresh) (hw : w.Sound) : w'.Sound := by
  have hold : ∀ e, e ∈ w.entries.filter (fun e => !gone e) → e ∈ w.entries :=
    fun e he => (List.mem_filter.mp he).1
  refine ⟨?_, ?_, ?_, ?_, ?_⟩
  · intro e he
    rcases h.mem_iff.mp he with ⟨he, -⟩ | hf
    · exact Nat.lt_of_lt_of_le (hw.id_lt e he) h.nextId_le
    · have := h.fresh_id e hf
      omega
  · rw [h.entries, List.map_append, List.nodup_append]
    refine ⟨hw.ids.sublist (List.filter_sublist.map _), by cases fresh <;> simp, ?_⟩
    intro i hi j hj hij
    obtain ⟨a, ha, rfl⟩ := List.mem_map.mp hi
    obtain ⟨e, he, rfl⟩ := List.mem_map.mp hj
    have := h.fresh_id e (by simpa using he)
    have := hw.id_lt a (hold a ha)
    omega
  · rw [h.entries, List.map_append, List.nodup_append]
    refine ⟨hw.keys.sublist (List.filter_sublist.map _), by cases fresh <;> simp, ?_⟩
    intro i hi j hj hij
    obtain ⟨a, ha, rfl⟩ := List.mem_map.mp hi
    obtain ⟨e, he, rfl⟩ := List.mem_map.mp hj
    exact h.fresh_key e (by simpa using he) a (hold a ha) hij
  · intro i x hx
    by_cases hi : ∃ e ∈ w.entries, gone e = true ∧ e.id = i
    · obtain ⟨e, he, -, rfl⟩ := hi
      exact Nat.lt_of_lt_of_le (hw.id_lt e he) h.nextId_le
    · push Not at hi
      rw [h.kept i (.inr hi)] at hx
      exact Nat.lt_of_lt_of_le (hw.outcome_lt i x hx) h.nextId_le
  · intro e he
    have hnew : w.outcome? e.id = none := by
      rcases h.mem_iff.mp he with ⟨he, -⟩ | hf
      · exact hw.pending e he
      · cases hx : w.outcome? e.id with
        | none => rfl
        | some x =>
          have := hw.outcome_lt _ _ hx
          have := h.fresh_id e hf
          omega
    rw [h.kept _ (.inr fun a ha hga hid => ?_), hnew]
    rcases h.mem_iff.mp he with ⟨he, hge⟩ | hf
    · rw [hw.eq_of_id ha he hid, hge] at hga
      exact absurd hga (by simp)
    · have := hw.id_lt a ha
      have := h.fresh_id e hf
      omega

/-- An entry that was held stays held, unless its own waiter takes it. -/
theorem held (h : w.Turns w' gone o fresh) {key : UInt32} {id : Nat} (hk : w.Held key id)
    (hown : o = none → ∀ e ∈ w.entries, gone e = true → e.id ≠ id) : w'.Held key id := by
  rcases hk with ⟨e, he, rfl, rfl⟩ | hx
  · by_cases hg : gone e = true
    · cases o with
      | none => exact absurd rfl (hown rfl e he hg)
      | some x => exact .inr (by simp [h.settled e he hg x rfl])
    · exact .inl ⟨e, h.mem_iff.mpr (.inl ⟨he, by simpa using hg⟩), rfl, rfl⟩
  · by_cases hi : o = none ∨ ∀ e ∈ w.entries, gone e = true → e.id ≠ id
    · exact .inr (by rwa [h.kept id hi])
    · push Not at hi
      obtain ⟨hne, e, he, hg, rfl⟩ := hi
      obtain ⟨x, rfl⟩ := Option.ne_none_iff_exists'.mp hne
      exact .inr (by simp [h.settled e he hg x rfl])

/-- What a settled waiter has, it keeps. -/
theorem outcome_of_some (h : w.Turns w' gone o fresh) (hw : w.Sound) {id : Nat} {x : Outcome β}
    (hx : w.outcome? id = some x) : w'.outcome? id = some x := by
  rw [h.kept id (.inr fun e he _ hid => ?_), hx]
  rw [← hid, hw.pending e he] at hx
  exact absurd hx (by simp)

/-- A waiter is settled by the operation that takes its entry, or was so before. -/
theorem outcome_cases (h : w.Turns w' gone o fresh) {id : Nat} {x : Outcome β}
    (hx : w'.outcome? id = some x) :
    w.outcome? id = some x ∨ o = some x ∧ ∃ e ∈ w.entries, gone e = true ∧ e.id = id := by
  by_cases hi : o = none ∨ ∀ e ∈ w.entries, gone e = true → e.id ≠ id
  · exact .inl (by rwa [← h.kept id hi])
  · push Not at hi
    obtain ⟨hne, e, he, hg, rfl⟩ := hi
    obtain ⟨y, rfl⟩ := Option.ne_none_iff_exists'.mp hne
    rw [h.settled e he hg y rfl] at hx
    exact .inr ⟨hx, e, he, hg, rfl⟩

end Turns

/-! ## Ways out -/

section Out

variable (now : Instant) (key : UInt32)

theorem outcome?_deliver (id : Nat) (o : Outcome β) (i : Nat) :
    (w.deliver id o).outcome? i = if i = id then some o else w.outcome? i := by
  by_cases hi : i = id
  · simp [deliver, outcome?, hi]
  · have hne : (i == id) = false := by simpa using hi
    simp [deliver, outcome?, List.lookup_cons, hne, hi]

/-- One entry leaves the table, and nothing is settled. -/
theorem detach_turns (e : Entry α) (permits : Permits) :
    w.Turns { w.detach e with permits } (·.id = e.id) none none where
  entries := by simp [detach]
  settled := by simp
  kept _ _ := rfl
  nextId_le := Nat.le_refl _
  fresh_id := by simp
  fresh_key := by simp

/-- One entry leaves, and its waiter is settled. -/
theorem deliver_turns {e : Entry α} (he : e ∈ w.entries) (o : Outcome β) :
    w.Turns ((w.detach e).deliver e.id o) (·.id = e.id) (some o) none where
  entries := by simp [deliver, detach]
  settled a ha hid x hx := by
    obtain rfl : o = x := by simpa using hx
    rw [outcome?_deliver, if_pos (by simpa using hid)]
  kept i hi := by
    have hne : e.id ≠ i := (hi.resolve_left (by simp)) e he (by simp)
    rw [outcome?_deliver, if_neg hne.symm]
    rfl
  nextId_le := Nat.le_refl _
  fresh_id := by simp
  fresh_key := by simp

theorem deliver_turns_key (hw : w.Sound) {e : Entry α} (he : w.find? key = some e) (o : Outcome β) :
    w.Turns ((w.detach e).deliver e.id o) (·.key = key) (some o) none := by
  obtain ⟨hmem, rfl⟩ := (find?_eq_some hw).mp he
  refine (deliver_turns hmem o).congr fun a ha => ?_
  rw [decide_eq_decide]
  exact ⟨fun hk => by rw [hw.eq_of_key ha hmem hk], fun hi => by rw [hw.eq_of_id ha hmem hi]⟩

theorem none_turns (hk : w.find? key = none) (o : Option (Outcome β)) :
    w.Turns w (·.key = key) o none := by
  have hno : ∀ e ∈ w.entries, decide (e.key = key) = false := by
    simpa using find?_eq_none.mp hk
  refine ⟨?_, ?_, fun _ _ => rfl, Nat.le_refl _, by simp, by simp⟩
  · rw [List.filter_eq_self.mpr fun e he => by rw [hno e he]; rfl]
    simp
  · intro e he hx
    rw [hno e he] at hx
    exact absurd hx (by simp)

theorem complete_turns (hw : w.Sound) (r : β) :
    w.Turns (w.complete now key r).1 (·.key = key) (some (.response r)) none := by
  unfold complete
  split
  · rename_i hk
    exact none_turns key hk _
  · rename_i e he
    exact deliver_turns_key key hw he _

theorem cancel_turns (hw : w.Sound) :
    w.Turns (w.cancel key).1 (·.key = key) (some .released) none := by
  unfold cancel
  split
  · rename_i hk
    exact none_turns key hk _
  · rename_i e he
    exact deliver_turns_key key hw he _

/-- Entries of the table, each once, are released one after the other. -/
theorem releaseAll_turns (hw : w.Sound) {es : List (Entry α)} (hes : ∀ e ∈ es, e ∈ w.entries)
    (hnd : es.Nodup) :
    w.Turns (w.releaseAll es) (fun a => es.any (·.id = a.id)) (some .released) none := by
  induction es generalizing w with
  | nil => exact ⟨by simp [releaseAll], by simp, fun _ _ => rfl, Nat.le_refl _, by simp, by simp⟩
  | cons e es ih =>
    obtain ⟨hnot, hnd⟩ := List.nodup_cons.mp hnd
    have he : e ∈ w.entries := hes e (by simp)
    have h1 := deliver_turns he .released
    have h2 := ih (h1.sound hw) (fun a ha => h1.mem_iff.mpr (.inl ⟨hes a (by simp [ha]), ?_⟩)) hnd
    · refine (h1.trans hw h2).congr fun a _ => ?_
      simp [List.any_cons, eq_comm]
    · have hne : a ≠ e := fun h => hnot (h ▸ ha)
      have : a.id ≠ e.id := fun h => hne (hw.eq_of_id (hes a (by simp [ha])) he h)
      simpa using this

theorem releaseAll_filter_turns (hw : w.Sound) (due : Entry α → Bool) :
    w.Turns (w.releaseAll (w.entries.filter due)) due (some .released) none := by
  refine (releaseAll_turns hw (fun e he => (List.mem_filter.mp he).1) (hw.nodup.filter _)).congr
    fun a ha => ?_
  rw [Bool.eq_iff_iff, List.any_eq_true]
  constructor
  · intro hd
    exact ⟨a, List.mem_filter.mpr ⟨ha, hd⟩, by simp⟩
  · rintro ⟨e, he, hid⟩
    obtain ⟨he, hd⟩ := List.mem_filter.mp he
    rwa [← hw.eq_of_id he ha (by simpa using hid)]

theorem expire_turns (hw : w.Sound) :
    w.Turns (w.expire now).1 (·.expireAt ≤ now) (some .released) none :=
  releaseAll_filter_turns hw _

theorem close_turns (hw : w.Sound) :
    w.Turns w.close.1 (fun _ => true) (some .released) none := by
  have h := releaseAll_filter_turns (w := w.stopAdmission) ⟨hw.id_lt, hw.ids, hw.keys, hw.outcome_lt,
    hw.pending⟩ (fun _ => true)
  rw [List.filter_true] at h
  exact ⟨h.entries, h.settled, h.kept, h.nextId_le, h.fresh_id, h.fresh_key⟩

theorem withdraw_turns (hw : w.Sound) (id : Nat) :
    w.Turns (w.withdraw key id).1 (fun e => e.key = key && e.id = id) none none := by
  have hstay (H : ∀ e ∈ w.entries, (e.key = key && e.id = id : Bool) = false) :
      w.Turns w (fun e => e.key = key && e.id = id) none none :=
    (Turns.of_eq rfl rfl (Nat.le_refl _)).congr H
  unfold withdraw
  split
  · rename_i e he
    obtain ⟨hmem, rfl⟩ := (find?_eq_some hw).mp he
    split
    · rename_i hid
      subst hid
      refine (detach_turns e _).congr fun a ha => ?_
      by_cases hid : a.id = e.id
      · simp [hw.eq_of_id ha hmem hid]
      · simp [hid]
    · rename_i hid
      refine hstay fun a ha => ?_
      by_cases hk : a.key = e.key
      · simp [hw.eq_of_key ha hmem hk, hid]
      · simp [hk]
  · rename_i hk
    exact hstay fun a ha => by simp [find?_eq_none.mp hk a ha]

/-- A waiter that gives up takes its entry, if it is there. -/
theorem withdraw_snd (hw : w.Sound) (id : Nat) :
    (w.withdraw key id).2 = true ↔ ∃ e ∈ w.entries, e.key = key ∧ e.id = id := by
  unfold withdraw
  split
  · rename_i e he
    obtain ⟨hmem, rfl⟩ := (find?_eq_some hw).mp he
    split
    · rename_i hid
      exact ⟨fun _ => ⟨e, hmem, rfl, hid⟩, fun _ => rfl⟩
    · rename_i hid
      refine ⟨by simp, ?_⟩
      rintro ⟨a, ha, hk, rfl⟩
      exact absurd (by rw [hw.eq_of_key ha hmem hk]) hid
  · rename_i hk
    refine ⟨by simp, ?_⟩
    rintro ⟨a, ha, hka, -⟩
    exact absurd hka (find?_eq_none.mp hk a ha)

/-- A waiter that finds another entry under its key, or none, changes nothing. -/
theorem withdraw_of_false {id : Nat} (h : (w.withdraw key id).2 = false) :
    (w.withdraw key id).1 = w := by
  unfold withdraw at h ⊢
  split
  · rename_i e he
    rw [he] at h
    split
    · rename_i hid
      simp [hid] at h
    · rfl
  · rfl

/-- With a held entry in hand, only that entry can leave. -/
theorem withdraw_turns_held (hw : w.Sound) {id : Nat} (hk : w.Held key id) :
    w.Turns (w.withdraw key id).1 (·.id = id) none none := by
  refine (withdraw_turns key hw id).congr fun a ha => ?_
  by_cases hid : a.id = id
  · subst hid
    rcases hk with ⟨e, he, rfl, hid⟩ | hx
    · simp [hw.eq_of_id he ha hid]
    · rw [hw.pending a ha] at hx
      exact absurd hx (by simp)
  · simp [hid]

end Out

/-! ## The way in -/

/-- What has come of an offer: an entry in the table, a refusal, or a wait. -/
inductive Offering (w w' : Window α β) (now : Instant) (key : UInt32) (request : α)
    (expireTimeout : Duration) : Offered α → Prop where
  | admitted (e : Entry α) (turns : w.Turns w' (fun _ => false) none (some e)) (key_eq : e.key = key)
      (request_eq : e.request = request) (offeredAt_eq : e.offeredAt = now)
      (expireAt_eq : e.expireAt = now + expireTimeout.nanos) :
      Offering w w' now key request expireTimeout (.admitted e.id)
  | refused (err : WindowError) (turns : w.Turns w' (fun _ => false) none none) :
      Offering w w' now key request expireTimeout (.refused err)
  | waiting (p : PendingOffer α) (turns : w.Turns w' (fun _ => false) none none) (key_eq : p.key = key)
      (request_eq : p.request = request) (expireTimeout_eq : p.expireTimeout = expireTimeout) :
      Offering w w' now key request expireTimeout (.waiting p)

theorem Offering.of_permits {permits : Permits} {now : Instant} {key : UInt32} {request : α}
    {expireTimeout : Duration} {o : Offered α}
    (h : Offering { w with permits } w' now key request expireTimeout o) :
    w.Offering w' now key request expireTimeout o := by
  cases h with
  | admitted e turns hk hr ho he => exact .admitted e turns.of_permits hk hr ho he
  | refused err turns => exact .refused err turns.of_permits
  | waiting p turns hk hr he => exact .waiting p turns.of_permits hk hr he

section In

variable (now : Instant) (key : UInt32) (request : α) (expireTimeout : Duration)

theorem placeOffer_offering (permits : Permits) :
    w.Offering ({ w with permits }.placeOffer now key request expireTimeout).1 now key request
      expireTimeout ({ w with permits }.placeOffer now key request expireTimeout).2 := by
  by_cases hc : { w with permits }.contains key = true
  · simp only [placeOffer, place, hc, if_true]
    exact .refused _ (.of_eq rfl rfl (Nat.le_succ _))
  · have hfree : ∀ a ∈ w.entries, a.key ≠ key :=
      (find?_eq_none (w := { w with permits })).mp (by simpa [contains] using hc)
    simp only [placeOffer, place, hc]
    refine .admitted ⟨key, w.nextId, request, now, now + expireTimeout.nanos⟩
      ⟨by simp, by simp, fun _ _ => rfl, Nat.le_succ _, ?_, ?_⟩ rfl rfl rfl rfl
    · rintro e ⟨⟩
      exact ⟨rfl, Nat.lt_succ_self _⟩
    · rintro e ⟨⟩
      exact hfree

theorem resume_offering (p : PendingOffer α) :
    w.Offering (w.resume now p).1 now p.key p.request p.expireTimeout (w.resume now p).2 := by
  unfold resume
  split
  · exact placeOffer_offering now p.key p.request p.expireTimeout _
  · exact .refused _ (.of_eq rfl rfl (Nat.le_refl _))
  · split
    · exact .refused _ (.of_eq rfl rfl (Nat.le_refl _))
    · exact .waiting p (.of_eq rfl rfl (Nat.le_refl _)) rfl rfl rfl

theorem offer_offering (offerTimeout : Duration) :
    w.Offering (w.offer now key request offerTimeout expireTimeout).1 now key request expireTimeout
      (w.offer now key request offerTimeout expireTimeout).2 := by
  unfold offer
  split
  · exact .refused _ (.of_eq rfl rfl (Nat.le_refl _))
  · split
    · exact placeOffer_offering now key request expireTimeout _
    · exact .refused _ (.of_eq rfl rfl (Nat.le_refl _))
    · rename_i permits ticket _
      exact (resume_offering (w := { w with permits }) now
        ⟨ticket, key, request, offerTimeout, expireTimeout, now + offerTimeout.nanos⟩).of_permits

theorem abandon_turns (p : PendingOffer α) : w.Turns (w.abandon p) (fun _ => false) none none :=
  .of_eq rfl rfl (Nat.le_refl _)

end In

/-! ## What operations keep -/

/-- From `w` to `w'` the table stays sound, and what is new in it has a new id. -/
structure Follows (w w' : Window α β) : Prop where
  sound : w'.Sound
  nextId_le : w.nextId ≤ w'.nextId
  old : ∀ e ∈ w'.entries, e ∈ w.entries ∨ w.nextId ≤ e.id

/-- Nobody gets a response besides, and only entries that `own` names may be given up. -/
structure Keeps (w w' : Window α β) (own : Nat → Prop) : Prop extends Follows w w' where
  outcome : ∀ i o, w.outcome? i = some o → w'.outcome? i = some o
  response : ∀ i r, w'.outcome? i = some (.response r) → w.outcome? i = some (.response r)
  held : ∀ key i, ¬ own i → w.Held key i → w'.Held key i

theorem Follows.refl (hw : w.Sound) : w.Follows w := ⟨hw, Nat.le_refl _, fun _ he => .inl he⟩

theorem Turns.follows {gone : Entry α → Bool} {o : Option (Outcome β)} {fresh : Option (Entry α)}
    (h : w.Turns w' gone o fresh) (hw : w.Sound) : w.Follows w' where
  sound := h.sound hw
  nextId_le := h.nextId_le
  old e he := by
    rcases h.mem_iff.mp he with ⟨he, -⟩ | hf
    · exact .inl he
    · exact .inr (Nat.le_of_eq (h.fresh_id e hf).1.symm)

namespace Keeps

variable {own : Nat → Prop}

theorem refl (hw : w.Sound) : w.Keeps w own :=
  ⟨.refl hw, fun _ _ h => h, fun _ _ h => h, fun _ _ _ h => h⟩

theorem trans (h : w.Keeps w' own) (h' : w'.Keeps w'' own) : w.Keeps w'' own where
  sound := h'.sound
  nextId_le := Nat.le_trans h.nextId_le h'.nextId_le
  old e he := by
    rcases h'.old e he with he | hlt
    · exact h.old e he
    · exact .inr (Nat.le_trans h.nextId_le hlt)
  outcome i o ho := h'.outcome i o (h.outcome i o ho)
  response i r hr := h.response i r (h'.response i r hr)
  held key i hi hk := h'.held key i hi (h.held key i hi hk)

end Keeps

theorem Turns.keeps {gone : Entry α → Bool} {o : Option (Outcome β)} {fresh : Option (Entry α)}
    (h : w.Turns w' gone o fresh) (hw : w.Sound) (ho : ∀ r, o ≠ some (.response r))
    {own : Nat → Prop} (hown : o = none → ∀ e ∈ w.entries, gone e = true → own e.id) :
    w.Keeps w' own where
  toFollows := h.follows hw
  outcome _ _ hx := h.outcome_of_some hw hx
  response _ r hr := (h.outcome_cases hr).resolve_right fun H => ho r H.1
  held _ _ hi hk := h.held hk fun hnone e he hg hid => hi (hid ▸ hown hnone e he hg)

/-! ## A look for the response -/

/-- What a caller finds that looks for the response to its entry. -/
inductive Collecting (w w' : Window α β) (now : Instant) (x : Waiter) :
    Option (Except WindowError β) → Prop where
  | response (r : β) (settled : w.outcome? x.id = some (.response r)) (same : w' = w) :
      Collecting w w' now x (some (.ok r))
  | released (settled : w.outcome? x.id = some .released) (same : w' = w) :
      Collecting w w' now x (some (.error (.expired x.key)))
  | timedOut (e : Entry α) (mem : e ∈ w.entries) (key_eq : e.key = x.key) (id_eq : e.id = x.id)
      (late : x.deadline ≤ now) (turns : w.Turns w' (·.id = x.id) none none) :
      Collecting w w' now x (some (.error (.timeout x.key)))
  | missing (pending : w.outcome? x.id = none) (late : x.deadline ≤ now)
      (gone : ∀ e ∈ w.entries, e.key = x.key → e.id ≠ x.id) (same : w' = w) :
      Collecting w w' now x (some (.error (.expired x.key)))
  | waiting (pending : w.outcome? x.id = none) (early : now < x.deadline) (same : w' = w) :
      Collecting w w' now x none

theorem collect_collecting (hw : w.Sound) (now : Instant) (x : Waiter) :
    w.Collecting (w.collect now x).1 now x (w.collect now x).2 := by
  unfold collect
  split
  · rename_i r hr
    exact .response r hr rfl
  · rename_i hr
    exact .released hr rfl
  · rename_i hnone
    split
    · rename_i hlate
      have hsnd := withdraw_snd x.key hw x.id
      by_cases hx : ∃ e ∈ w.entries, e.key = x.key ∧ e.id = x.id
      · have hturns := withdraw_turns_held x.key hw (.inl hx)
        obtain ⟨e, he, hk, hid⟩ := hx
        split
        · rename_i w' hw'
          rw [hw'] at hturns
          exact .timedOut e he hk hid hlate hturns
        · rename_i w' hw'
          rw [hw'] at hsnd
          exact absurd (hsnd.mpr ⟨e, he, hk, hid⟩) (by simp)
      · split
        · rename_i w' hw'
          rw [hw'] at hsnd
          exact absurd (hsnd.mp rfl) hx
        · rename_i w' hw'
          have hsame : (w.withdraw x.key x.id).1 = w := withdraw_of_false _ (by rw [hw'])
          rw [hw'] at hsame
          exact .missing hnone hlate (fun e he hk hid => hx ⟨e, he, hk, hid⟩) hsame
    · rename_i hlate
      exact .waiting hnone (Nat.lt_of_not_le hlate) rfl

end Smsc.Window
