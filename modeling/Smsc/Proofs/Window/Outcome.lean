import Smsc.Proofs.History
import Smsc.Proofs.Window.Callers

/-!
# Smsc.Proofs.Window.Outcome — one outcome for every entry

Over a whole history, an entry leaves the table once, and what took it out decides what its waiter
gets, whether the waiter looks for it before or after.

* `before capacity ops k`: the state before the `k`-th operation of a history;
* `gone_stays`: an id that was drawn and is not in the table does not come back;
* `takes_once`, `outcome_iff_taken`: the two halves of the argument;
* `OneOutcome`, `one_outcome_per_entry`: all of it for any history.
-/

namespace Smsc.Callers

open Window

variable {α β : Type} {c : Callers α β} {capacity : Nat} {ops : List (Op α β)}

/-! ## Histories -/

/-- The state before the `k`-th operation of a history. -/
def before (capacity : Nat) (ops : List (Op α β)) (k : Nat) : Callers α β :=
  (ofCapacity capacity).after (ops.take k)

theorem before_succ {k : Nat} {op : Op α β} (hk : ops[k]? = some op) :
    before capacity ops (k + 1) = ((before capacity ops k).perform op).1 :=
  stateAt_succ hk

theorem before_succ_of_none {k : Nat} (hk : ops[k]? = none) :
    before capacity ops (k + 1) = before capacity ops k :=
  stateAt_succ_of_none hk

theorem before_kept (k : Nat) : (before capacity ops k).Kept :=
  stateAt_induct (Nat.zero_le k) (fun _ op _ _ _ h => perform_kept h op) (kept_ofCapacity capacity)

/-- What every operation keeps, every stretch of a history keeps. -/
theorem before_induct {P : Callers α β → Prop}
    (step : ∀ c : Callers α β, c.Kept → P c → ∀ op, P (c.perform op).1) {k l : Nat} (hkl : k ≤ l)
    (h : P (before capacity ops k)) : P (before capacity ops l) :=
  stateAt_induct hkl (fun i op _ _ _ hi => step _ (before_kept i) hi op) h

/-- An id that was drawn and is not in the table does not come back. -/
theorem gone_stays {i k l : Nat} (hkl : k ≤ l)
    (h : i < (before capacity ops k).window.nextId ∧
      ∀ e ∈ (before capacity ops k).window.entries, e.id ≠ i) :
    i < (before capacity ops l).window.nextId ∧
      ∀ e ∈ (before capacity ops l).window.entries, e.id ≠ i := by
  refine before_induct (P := fun c => i < c.window.nextId ∧ ∀ e ∈ c.window.entries, e.id ≠ i)
    (fun c hc hi op => ?_) hkl h
  obtain ⟨fresh, turns, -, -⟩ := perform_turns hc.sound op
  refine ⟨Nat.lt_of_lt_of_le hi.1 turns.nextId_le, fun e he => ?_⟩
  rcases turns.mem_iff.mp he with ⟨he, -⟩ | hf
  · exact hi.2 e he
  · have := (turns.fresh_id e hf).1
    omega

/-- An id that was drawn is not drawn again. -/
theorem drawn_stays {i k l : Nat} (hkl : k ≤ l) (h : i < (before capacity ops k).window.nextId) :
    i < (before capacity ops l).window.nextId := by
  refine before_induct (P := fun c => i < c.window.nextId) (fun c hc hi op => ?_) hkl h
  obtain ⟨fresh, turns, -, -⟩ := perform_turns hc.sound op
  exact Nat.lt_of_lt_of_le hi turns.nextId_le

/-- After an entry is taken out, no entry in the table has its id. -/
theorem gone_of_takes (h : c.window.Sound) {op : Op α β} {e : Entry α} (ht : c.Takes op e) :
    e.id < (c.perform op).1.window.nextId ∧
      ∀ a ∈ (c.perform op).1.window.entries, a.id ≠ e.id := by
  obtain ⟨fresh, turns, -, -⟩ := perform_turns h op
  have hlt := h.id_lt e ht.1
  refine ⟨Nat.lt_of_lt_of_le hlt turns.nextId_le, fun a ha hid => ?_⟩
  rcases turns.mem_iff.mp ha with ⟨hmem, -⟩ | hf
  · exact ht.2 (h.eq_of_id hmem ht.1 hid ▸ ha)
  · have := (turns.fresh_id a hf).1
    omega

theorem gone_after_takes {k l : Nat} {op : Op α β} {e : Entry α} (hk : ops[k]? = some op)
    (ht : (before capacity ops k).Takes op e) (hkl : k < l) :
    ∀ a ∈ (before capacity ops l).window.entries, a.id ≠ e.id := by
  have h := gone_of_takes (before_kept k).sound ht
  rw [← before_succ hk] at h
  exact (gone_stays hkl h).2

/-- An entry is taken out at most once. -/
theorem takes_once {k l : Nat} {op op' : Op α β} {e : Entry α} (hk : ops[k]? = some op)
    (hl : ops[l]? = some op') (ht : (before capacity ops k).Takes op e)
    (ht' : (before capacity ops l).Takes op' e) : k = l := by
  rcases Nat.lt_trichotomy k l with hlt | heq | hlt
  · exact absurd rfl (gone_after_takes hk ht hlt e ht'.1)
  · exact heq
  · exact absurd rfl (gone_after_takes hl ht' hlt e ht.1)

/-- An entry in the table was admitted. -/
theorem admitted_of_mem {k : Nat} {e : Entry α} (he : e ∈ (before capacity ops k).window.entries) :
    ∃ a < k, ∃ op, ops[a]? = some op ∧ (before capacity ops a).Admits op e := by
  refine stateAt_source (P := fun c : Callers α β => e ∈ c.window.entries) (fun a op _ _ hstep => ?_)
    (by simp [ofCapacity, Window.ofCapacity]) he
  exact or_iff_not_imp_left.mpr fun hno => ⟨hno, hstep⟩

/-- An entry that is in the table and later is not was taken out in between. -/
theorem taken_of_not_mem {k l : Nat} {e : Entry α} (hkl : k ≤ l)
    (he : e ∈ (before capacity ops k).window.entries)
    (hno : e ∉ (before capacity ops l).window.entries) :
    ∃ j, k ≤ j ∧ j < l ∧ ∃ op, ops[j]? = some op ∧ (before capacity ops j).Takes op e := by
  have huntil := stateAt_until (P := fun c : Callers α β => e ∈ c.window.entries)
    (Q := fun j op => (before capacity ops j).Takes op e) hkl
    (fun j op _ _ _ hj => or_iff_not_imp_left.mpr fun hgone => ⟨hj, hgone⟩) he
  obtain ⟨j, op, hkj, hjl, hop, htakes⟩ := huntil.resolve_left hno
  exact ⟨j, hkj, hjl, op, hop, htakes⟩

/-- A waiter is settled by the operation that took its entry out, and by no other. -/
theorem outcome_iff_taken {k i : Nat} {o : Outcome β} :
    (before capacity ops k).window.outcome? i = some o ↔
      ∃ j < k, ∃ op e, ops[j]? = some op ∧ (before capacity ops j).Takes op e ∧ e.id = i ∧
        op.outcome? = some o := by
  induction k with
  | zero => simp [before, ofCapacity, Window.ofCapacity, Window.outcome?]
  | succ k ih =>
    cases hk : ops[k]? with
    | none =>
      rw [before_succ_of_none hk, ih]
      constructor
      · rintro ⟨j, hj, h⟩
        exact ⟨j, by omega, h⟩
      · rintro ⟨j, hj, op, e, hop, h⟩
        have : j ≠ k := by rintro rfl; simp [hk] at hop
        exact ⟨j, by omega, op, e, hop, h⟩
    | some op =>
      have hkept : (before capacity ops k).Kept := before_kept k
      obtain ⟨fresh, turns, -, -⟩ := perform_turns hkept.sound op
      rw [before_succ hk]
      constructor
      · intro ho
        rcases turns.outcome_cases ho with ho | ⟨hop, e, he, hg, rfl⟩
        · obtain ⟨j, hj, h⟩ := ih.mp ho
          exact ⟨j, by omega, h⟩
        · exact ⟨k, by omega, op, e, hk, (takes_iff hkept.sound).mpr ⟨he, hg⟩, rfl, hop⟩
      · rintro ⟨j, hj, op', e, hop, ht, rfl, ho⟩
        rcases Nat.lt_succ_iff_lt_or_eq.mp hj with hlt | rfl
        · exact turns.outcome_of_some hkept.sound (ih.mpr ⟨j, hlt, op', e, hop, ht, rfl, ho⟩)
        · obtain rfl : op = op' := by rw [hk] at hop; exact Option.some.inj hop
          obtain ⟨he, hg⟩ := (takes_iff hkept.sound).mp ht
          exact turns.settled e he hg o ho

/-- Two admissions under one id are one admission. -/
theorem admitted_unique {a b : Nat} {op op' : Op α β} {e e' : Entry α} (ha : ops[a]? = some op)
    (hb : ops[b]? = some op') (hadm : (before capacity ops a).Admits op e)
    (hadm' : (before capacity ops b).Admits op' e') (hid : e.id = e'.id) : e = e' := by
  have later {a b : Nat} {op op' : Op α β} {e e' : Entry α} (ha : ops[a]? = some op) (hlt : a < b)
      (hadm : (before capacity ops a).Admits op e)
      (hadm' : (before capacity ops b).Admits op' e') : e.id ≠ e'.id := by
    have hnext : e.id < (before capacity ops (a + 1)).window.nextId := by
      rw [before_succ ha]
      exact (hadm.places (before_kept a).sound).2.2
    have := drawn_stays hlt hnext
    have := (hadm'.places (before_kept b).sound).2.1
    omega
  rcases Nat.lt_trichotomy a b with hlt | rfl | hlt
  · exact absurd hid (later ha hlt hadm hadm')
  · obtain rfl : op = op' := by rw [ha] at hb; exact Option.some.inj hb
    exact (perform_kept (before_kept a) op).sound.eq_of_id hadm.2 hadm'.2 hid
  · exact absurd hid.symm (later hb hlt hadm' hadm)

/-- In the table, an id that was admitted stands for the entry that was admitted. -/
theorem eq_of_admitted {a k : Nat} {op : Op α β} {e e' : Entry α} (ha : ops[a]? = some op)
    (hadm : (before capacity ops a).Admits op e) (he : e' ∈ (before capacity ops k).window.entries)
    (hid : e'.id = e.id) : e' = e := by
  obtain ⟨b, -, op', hb, hadm'⟩ := admitted_of_mem he
  exact admitted_unique hb ha hadm' hadm hid

/-- What the waiter of an admitted entry has is what that entry was taken out by. -/
theorem outcome_iff_of_admitted {a k : Nat} {op : Op α β} {e : Entry α} {o : Outcome β}
    (ha : ops[a]? = some op) (hadm : (before capacity ops a).Admits op e) :
    (before capacity ops k).window.outcome? e.id = some o ↔
      ∃ j < k, ∃ op', ops[j]? = some op' ∧ (before capacity ops j).Takes op' e ∧
        op'.outcome? = some o := by
  rw [outcome_iff_taken]
  constructor
  · rintro ⟨j, hj, op', e', hop, ht, hid, ho⟩
    obtain rfl := eq_of_admitted ha hadm ht.1 hid
    exact ⟨j, hj, op', hop, ht, ho⟩
  · rintro ⟨j, hj, op', hop, ht, ho⟩
    exact ⟨j, hj, op', e, hop, ht, rfl, ho⟩

/-! ## Handles and offers through a history -/

/-- Whoever holds an entry has it from an admission. -/
theorem admitted_of_owns {k i : Nat} {key : UInt32} (h : (before capacity ops k).Owns key i) :
    ∃ a < k, ∃ op e, ops[a]? = some op ∧ (before capacity ops a).Admits op e ∧ e.key = key ∧
      e.id = i := by
  have hsource : ∃ a < k, ∃ op, ops[a]? = some op ∧ ∃ e, (before capacity ops a).Admits op e ∧
      e.key = key ∧ e.id = i :=
    stateAt_source (P := fun c : Callers α β => c.Owns key i)
      (fun a op _ _ hstep => perform_owns (before_kept a).sound hstep) (by simp [ofCapacity, Owns]) h
  obtain ⟨a, hak, op, hop, e, hadmits⟩ := hsource
  exact ⟨a, hak, op, e, hop, hadmits⟩

/-- An entry that nobody holds any more is never held again. -/
theorem disowned_stays {i k l : Nat} (hkl : k ≤ l)
    (h : i < (before capacity ops k).window.nextId ∧
      ∀ key, ¬ (before capacity ops k).Owns key i) :
    ∀ key, ¬ (before capacity ops l).Owns key i := by
  refine (before_induct (P := fun c => i < c.window.nextId ∧ ∀ key, ¬ c.Owns key i)
    (fun c hc hi op => ⟨?_, fun key hown => ?_⟩) hkl h).2
  · obtain ⟨fresh, turns, -, -⟩ := perform_turns hc.sound op
    exact Nat.lt_of_lt_of_le hi.1 turns.nextId_le
  · rcases perform_owns hc.sound hown with hown | ⟨e, hadm, -, rfl⟩
    · exact hi.2 key hown
    · have := (hadm.places hc.sound).2.1
      omega

/-- A request that waits for a permit was offered. -/
theorem offered_of_waiting {k : Nat} {p : PendingOffer α}
    (h : p ∈ (before capacity ops k).offers) :
    ∃ b < k, ∃ offerTimeout, ops[b]? = some (.offer p.key p.request offerTimeout p.expireTimeout) := by
  induction k generalizing p with
  | zero => simp [before, ofCapacity] at h
  | succ k ih =>
    cases hk : ops[k]? with
    | none =>
      rw [before_succ_of_none hk] at h
      obtain ⟨b, hb, hop⟩ := ih h
      exact ⟨b, by omega, hop⟩
    | some op =>
      rw [before_succ hk] at h
      rcases perform_offers h with ⟨q, hq, hkey, hreq, hexp⟩ | ⟨ot, rfl⟩
      · obtain ⟨b, hb, ot, hop⟩ := ih hq
        exact ⟨b, by omega, ot, by rw [hop, hkey, hreq, hexp]⟩
      · exact ⟨k, by omega, ot, hk⟩

/-! ## The result of a wait -/

/-- A wait that ends: the response of a completion, an expiry, or the end of the wait itself. -/
theorem perform_look_ended (h : c.Kept) {i : Nat} {r : Except WindowError β}
    (hr : (c.perform (.look i)).2 = .ended r) :
    ∃ x ∈ c.waiters, x.id = i ∧ c.window.Collecting (c.perform (.look i)).1.window c.now x (some r) ∧
      ∀ key, ¬ (c.perform (.look i)).1.Owns key i := by
  cases hf : c.waiters.find? (·.id = i) with
  | none => simp [perform, hf] at hr
  | some x =>
    obtain ⟨hx, rfl⟩ := find?_waiter hf
    have hcol := collect_collecting h.sound c.now x
    simp only [perform, hf] at hr ⊢
    generalize c.window.collect c.now x = wr at hr hcol ⊢
    obtain ⟨w, o⟩ := wr
    cases o with
    | none => simp [noteLook] at hr
    | some r' =>
      obtain rfl : r' = r := by simpa [noteLook] using hr
      refine ⟨x, hx, rfl, hcol, ?_⟩
      rintro key (⟨a, ha, -, hid⟩ | ⟨y, hy, -, hid⟩)
      · exact h.apart a ha x hx hid
      · simp [noteLook, hid] at hy

theorem outcome?_response {op : Op α β} {r : β} (h : op.outcome? = some (.response r)) :
    ∃ key, op = .complete key r := by
  cases op <;> simp [Op.outcome?] at h
  subst h
  exact ⟨_, rfl⟩

theorem takes_response {op : Op α β} {e : Entry α} {r : β} (h : c.window.Sound) (ht : c.Takes op e)
    (ho : op.outcome? = some (.response r)) : op = .complete e.key r := by
  obtain ⟨key, rfl⟩ := outcome?_response ho
  obtain rfl : e.key = key := by simpa [leaves] using ((takes_iff h).mp ht).2
  rfl

theorem takes_released {op : Op α β} {e : Entry α} (h : c.window.Sound) (ht : c.Takes op e)
    (ho : op.outcome? = some .released) : op = .cancel e.key ∨ op = .expire ∨ op = .close := by
  cases taker_of_leaves ((takes_iff h).mp ht).2 <;> simp [Op.outcome?] at ho ⊢

/-- The result of a wait that ends at step `j` is decided by what took its entry out. -/
structure Decided (capacity : Nat) (ops : List (Op α β)) (j : Nat) (e : Entry α)
    (r : Except WindowError β) : Prop where
  shape : (∃ y, r = .ok y) ∨ r = .error (.timeout e.key) ∨ r = .error (.expired e.key)
  ok : ∀ y, r = .ok y ↔ ∃ k < j, ops[k]? = some (.complete e.key y) ∧
    (before capacity ops k).Takes (.complete e.key y) e
  timeout : r = .error (.timeout e.key) ↔ (before capacity ops j).Takes (.look e.id) e
  expired : r = .error (.expired e.key) ↔ ∃ k < j, ∃ op, ops[k]? = some op ∧
    (op = .cancel e.key ∨ op = .expire ∨ op = .close) ∧ (before capacity ops k).Takes op e

/-- The result in terms of what the waiter has when it looks. -/
theorem Decided.of_outcome {a j : Nat} {op : Op α β} {e : Entry α} {r : Except WindowError β}
    (ha : ops[a]? = some op) (hadm : (before capacity ops a).Admits op e)
    (shape : (∃ y, r = .ok y) ∨ r = .error (.timeout e.key) ∨ r = .error (.expired e.key))
    (ok : ∀ y, r = .ok y ↔ (before capacity ops j).window.outcome? e.id = some (.response y))
    (timeout : r = .error (.timeout e.key) ↔ (before capacity ops j).Takes (.look e.id) e)
    (expired : r = .error (.expired e.key) ↔
      (before capacity ops j).window.outcome? e.id = some .released) :
    Decided capacity ops j e r where
  shape := shape
  ok y := by
    rw [ok, outcome_iff_of_admitted ha hadm]
    constructor
    · rintro ⟨k, hk, op', hop, ht, ho⟩
      obtain rfl := takes_response (before_kept k).sound ht ho
      exact ⟨k, hk, hop, ht⟩
    · rintro ⟨k, hk, hop, ht⟩
      exact ⟨k, hk, _, hop, ht, rfl⟩
  timeout := timeout
  expired := by
    rw [expired, outcome_iff_of_admitted ha hadm]
    constructor
    · rintro ⟨k, hk, op', hop, ht, ho⟩
      exact ⟨k, hk, op', hop, takes_released (before_kept k).sound ht ho, ht⟩
    · rintro ⟨k, hk, op', hop, rfl | rfl | rfl, ht⟩ <;> exact ⟨k, hk, _, hop, ht, rfl⟩

/-- A settled waiter's entry is not in the table, so its own look takes nothing out. -/
theorem not_takes_of_settled (h : c.window.Sound) {op : Op α β} {e : Entry α} {o : Outcome β}
    (ho : c.window.outcome? e.id = some o) : ¬ c.Takes op e := by
  intro ht
  rw [h.pending e ht.1] at ho
  exact absurd ho (by simp)

/-- A wait that ends has an admitted entry, and the entry's end decides its result. -/
theorem decided_of_ended {j id : Nat} {r : Except WindowError β}
    (hr : ((before capacity ops j).perform (.look id)).2 = .ended r) :
    ∃ a < j, ∃ op e, ops[a]? = some op ∧ (before capacity ops a).Admits op e ∧ e.id = id ∧
      Decided capacity ops j e r := by
  have hkept : (before capacity ops j).Kept := before_kept j
  obtain ⟨x, hx, rfl, hcol, -⟩ := perform_look_ended hkept hr
  obtain ⟨a, haj, op, e, ha, hadm, hkey, hid⟩ := admitted_of_owns (.inr ⟨x, hx, rfl, rfl⟩)
  refine ⟨a, haj, op, e, ha, hadm, hid, ?_⟩
  cases hcol with
  | missing hnone _ hno same =>
    obtain ⟨e', he', hk', hid'⟩ := (hkept.waiter_held x hx).1.found hnone
    exact absurd hid' (hno e' he' hk')
  | response y hy same =>
    rw [← hid] at hy
    refine .of_outcome ha hadm (.inl ⟨y, rfl⟩) (by simp [hy]) ?_ (by simp [hy])
    simpa using not_takes_of_settled hkept.sound hy
  | released hy same =>
    rw [← hid] at hy
    refine .of_outcome ha hadm (.inr (.inr (by rw [hkey]))) (by simp [hy]) ?_ (by simp [hy, hkey])
    simpa using not_takes_of_settled hkept.sound hy
  | timedOut e' hmem hkey' hid' hlate turns =>
    obtain rfl := eq_of_admitted ha hadm hmem (hid'.trans hid.symm)
    have hnone := hkept.sound.pending e' hmem
    refine .of_outcome ha hadm (.inr (.inl (by rw [hkey]))) (by simp [hnone]) ?_ (by simp [hnone])
    have htakes : (before capacity ops j).Takes (.look x.id) e' :=
      ⟨hmem, fun h => by simpa [hid'] using (turns.mem_of_mem h).2⟩
    simpa [hkey, hid'] using htakes

/-- A wait ends once. -/
theorem ended_once {j l id : Nat} {r r' : Except WindowError β} (hj : ops[j]? = some (.look id))
    (hl : ops[l]? = some (.look id))
    (hr : ((before capacity ops j).perform (.look id)).2 = .ended r)
    (hr' : ((before capacity ops l).perform (.look id)).2 = .ended r') : l = j := by
  have later {j l : Nat} {r r' : Except WindowError β} (hj : ops[j]? = some (.look id)) (hlt : j < l)
      (hr : ((before capacity ops j).perform (.look id)).2 = .ended r)
      (hr' : ((before capacity ops l).perform (.look id)).2 = .ended r') : False := by
    obtain ⟨x, hx, hid, -, hfree⟩ := perform_look_ended (before_kept j) hr
    obtain ⟨y, hy, hid', -, -⟩ := perform_look_ended (before_kept l) hr'
    have hdrawn : id < (before capacity ops (j + 1)).window.nextId :=
      drawn_stays (Nat.le_succ j) (hid ▸ ((before_kept j).waiter_held x hx).2)
    rw [← before_succ hj] at hfree
    exact disowned_stays hlt ⟨hdrawn, hfree⟩ y.key (.inr ⟨y, hy, rfl, hid'⟩)
  rcases Nat.lt_trichotomy j l with hlt | heq | hlt
  · exact (later hj hlt hr hr').elim
  · exact heq.symm
  · exact (later hl hlt hr' hr).elim

/-- A look ends the wait as soon as the waiter is settled or its time is up. -/
theorem look_ends_iff (h : c.Kept) {x : Waiter} (hx : x ∈ c.waiters) :
    (∃ r, (c.perform (.look x.id)).2 = .ended r) ↔
      x.deadline ≤ c.now ∨ (c.window.outcome? x.id).isSome := by
  have hf := h.find?_of_waiter hx
  have hcol := collect_collecting h.sound c.now x
  simp only [perform, hf, noteLook_snd]
  generalize c.window.collect c.now x = wr at hcol
  obtain ⟨w, o⟩ := wr
  dsimp only at hcol ⊢
  cases hcol with
  | response y hy same => simp [hy]
  | released hy same => simp [hy]
  | timedOut e hmem hkey hid hlate turns => simp [hlate]
  | missing hnone hlate hno same => simp [hlate]
  | waiting hnone hearly same => simpa [hnone] using hearly

/-- A caller that waits is settled exactly if its entry was taken out: had its own handle or its own
wait taken it, nobody would wait. -/
theorem settled_iff_taken {j : Nat} {x : Waiter} (hx : x ∈ (before capacity ops j).waiters) :
    ((before capacity ops j).window.outcome? x.id).isSome ↔
      ∃ k < j, ∃ op e, ops[k]? = some op ∧ (before capacity ops k).Takes op e ∧ e.id = x.id := by
  constructor
  · intro hsome
    obtain ⟨o, ho⟩ := Option.isSome_iff_exists.mp hsome
    obtain ⟨k, hk, op, e, hop, ht, hid, -⟩ := outcome_iff_taken.mp ho
    exact ⟨k, hk, op, e, hop, ht, hid⟩
  · rintro ⟨k, hk, op, e, hop, ht, hid⟩
    refine ((before_kept j).waiter_held x hx).1.resolve_left ?_
    rintro ⟨a, ha, -, haid⟩
    exact gone_after_takes hop ht hk a ha (haid.trans hid.symm)

/-! ## What is returned -/

/-- Under a key there is one entry, which is taken out, or none. -/
theorem find?_takes (h : c.window.Sound) (op : Op α β) {key : UInt32}
    (hop : ∀ e, c.leaves op e = decide (e.key = key)) :
    (∃ e, c.window.find? key = some e ∧ e.key = key ∧ ∀ a, c.Takes op a ↔ a = e) ∨
      c.window.find? key = none ∧ (∀ a ∈ c.window.entries, a.key ≠ key) ∧ ∀ a, ¬ c.Takes op a := by
  simp only [takes_iff h, hop, decide_eq_true_eq]
  cases hf : c.window.find? key with
  | none =>
    have hno := find?_eq_none.mp hf
    exact .inr ⟨rfl, hno, fun a ⟨ha, hk⟩ => hno a ha hk⟩
  | some e =>
    obtain ⟨he, hkey⟩ := (find?_eq_some h).mp hf
    refine .inl ⟨e, rfl, hkey, fun a => ⟨fun ⟨ha, hk⟩ => ?_, ?_⟩⟩
    · exact h.eq_of_key ha he (hk.trans hkey.symm)
    · rintro rfl
      exact ⟨he, hkey⟩

/-- A completion returns the request of the entry under its key and takes that entry out, if there is one. -/
theorem perform_complete (h : c.window.Sound) (key : UInt32) (r : β) :
    (∃ e, (c.perform (.complete key r)).2 =
        .completed (some (e.request, .between e.offeredAt c.now)) ∧ e.key = key ∧
        ∀ a, c.Takes (.complete key r) a ↔ a = e) ∨
      (c.perform (.complete key r)).2 = .completed none ∧ (∀ a ∈ c.window.entries, a.key ≠ key) ∧
        ∀ a, ¬ c.Takes (.complete key r) a := by
  rcases find?_takes h (.complete key r) (fun e => rfl) with ⟨e, hf, hk⟩ | ⟨hf, hno⟩
  · exact .inl ⟨e, by simp [perform, complete, hf], hk⟩
  · exact .inr ⟨by simp [perform, complete, hf], hno⟩

theorem perform_cancel (h : c.window.Sound) (key : UInt32) :
    (∃ e, (c.perform (.cancel key)).2 = .cancelled (some e.request) ∧ e.key = key ∧
        ∀ a, c.Takes (.cancel key) a ↔ a = e) ∨
      (c.perform (.cancel key)).2 = .cancelled none ∧ (∀ a ∈ c.window.entries, a.key ≠ key) ∧
        ∀ a, ¬ c.Takes (.cancel key) a := by
  rcases find?_takes h (.cancel key) (fun e => rfl) with ⟨e, hf, hk⟩ | ⟨hf, hno⟩
  · exact .inl ⟨e, by simp [perform, cancel, hf], hk⟩
  · exact .inr ⟨by simp [perform, cancel, hf], hno⟩

theorem perform_expire (h : c.window.Sound) :
    ∃ es : List (Entry α), (c.perform .expire).2 = .expired (es.map fun e => (e.key, e.request)) ∧
      es.Nodup ∧ ∀ e, (c.Takes .expire e ↔ e ∈ es) ∧
        (e ∈ es ↔ e ∈ c.window.entries ∧ e.expireAt ≤ c.now) := by
  refine ⟨c.window.entries.filter (·.expireAt ≤ c.now), rfl, h.nodup.filter _, fun e => ?_⟩
  rw [takes_iff h, List.mem_filter, leaves, decide_eq_true_eq]
  exact ⟨Iff.rfl, Iff.rfl⟩

/-- A close takes everything out. -/
theorem perform_close (h : c.window.Sound) :
    (c.perform .close).2 = .closed c.window.entries.length ∧ (c.perform .close).1.window.entries = [] := by
  refine ⟨rfl, List.eq_nil_iff_forall_not_mem.mpr fun e he => ?_⟩
  obtain ⟨fresh, turns, -, hid⟩ := perform_turns h .close
  rcases turns.mem_iff.mp he with ⟨-, hstays⟩ | hfresh
  · cases hstays
  · exact absurd ((hid e.id).mpr ⟨e, hfresh, rfl⟩) nofun

/-! ## The whole -/

/-- Every entry of a history has one outcome, and whoever takes it out decides it alone. -/
structure OneOutcome (capacity : Nat) (ops : List (Op α β)) : Prop where
  /-- An accepted offer has an entry in the table, with the request that was offered, and its caller has a
  handle for it. -/
  accepted : ∀ a op id, ops[a]? = some op →
    ((before capacity ops a).perform op).2 = .offered (.admitted id) →
    ∃ e, e.id = id ∧ (before capacity ops a).Admits op e ∧
      ⟨e.key, e.id⟩ ∈ (before capacity ops (a + 1)).handles ∧
      ∃ b ≤ a, ∃ offerTimeout expireTimeout,
        ops[b]? = some (.offer e.key e.request offerTimeout expireTimeout) ∧
        e.expireAt = (before capacity ops a).now + expireTimeout.nanos
  /-- The handle is there until it is dropped or awaited. -/
  handle : ∀ k op h, ops[k]? = some op → h ∈ (before capacity ops k).handles →
    h ∈ (before capacity ops (k + 1)).handles ∨ op = .drop h.id ∨ ∃ timeout, op = .await h.id timeout
  /-- Whoever awaits it waits from then on, for as long as he has said. -/
  awaited : ∀ k h timeout, ops[k]? = some (.await h.id timeout) → h ∈ (before capacity ops k).handles →
    ⟨h.key, h.id, (before capacity ops k).now + timeout.nanos⟩ ∈ (before capacity ops (k + 1)).waiters
  /-- He waits until he is cancelled or his wait ends. -/
  waiter : ∀ k op x, ops[k]? = some op → x ∈ (before capacity ops k).waiters →
    x ∈ (before capacity ops (k + 1)).waiters ∨ op = .abort x.id ∨
      op = .look x.id ∧ ∃ r, ((before capacity ops k).perform op).2 = .ended r
  /-- The entry is there until an operation takes it out. -/
  stays : ∀ a k op e, ops[a]? = some op → (before capacity ops a).Admits op e → a < k →
    (e ∈ (before capacity ops k).window.entries ↔
      ¬ ∃ j < k, ∃ op', ops[j]? = some op' ∧ (before capacity ops j).Takes op' e)
  /-- No two operations take the same entry out. -/
  once : ∀ k l op op' e, ops[k]? = some op → ops[l]? = some op' →
    (before capacity ops k).Takes op e → (before capacity ops l).Takes op' e → k = l
  /-- Exactly these operations take an entry out that is there, and a handle or a waiter only its own. -/
  taker : ∀ k op e, ops[k]? = some op → ((before capacity ops k).Takes op e ↔
    e ∈ (before capacity ops k).window.entries ∧ (before capacity ops k).Taker e op)
  /-- A handle or a waiter whose entry is gone takes nothing out, whatever is stored by now. -/
  stale : ∀ j k op op' e, ops[j]? = some op → (before capacity ops j).Takes op e → j < k →
    ops[k]? = some op' → op' = .drop e.id ∨ op' = .look e.id ∨ op' = .abort e.id →
    ((before capacity ops k).perform op').1.window.entries = (before capacity ops k).window.entries
  /-- A wait that ends has an accepted offer, and the end of that offer's entry decides the result. -/
  result : ∀ j id r, ops[j]? = some (.look id) →
    ((before capacity ops j).perform (.look id)).2 = .ended r →
    ∃ a < j, ∃ op e, ops[a]? = some op ∧ (before capacity ops a).Admits op e ∧ e.id = id ∧
      Decided capacity ops j e r
  /-- A wait ends once. -/
  ended_once : ∀ j l id r r', ops[j]? = some (.look id) → ops[l]? = some (.look id) →
    ((before capacity ops j).perform (.look id)).2 = .ended r →
    ((before capacity ops l).perform (.look id)).2 = .ended r' → l = j
  /-- A look ends the wait if the entry is gone or the time is up, and only then. -/
  ends : ∀ j x, ops[j]? = some (.look x.id) → x ∈ (before capacity ops j).waiters →
    ((∃ r, ((before capacity ops j).perform (.look x.id)).2 = .ended r) ↔
      x.deadline ≤ (before capacity ops j).now ∨
        ∃ k < j, ∃ op e, ops[k]? = some op ∧ (before capacity ops k).Takes op e ∧ e.id = x.id)
  /-- A completion takes the entry under its key out and returns its request, unless there is none. -/
  completed : ∀ k key x, ops[k]? = some (.complete key x) →
    (∃ e, ((before capacity ops k).perform (.complete key x)).2 =
        .completed (some (e.request, .between e.offeredAt (before capacity ops k).now)) ∧
        e.key = key ∧ ∀ a, (before capacity ops k).Takes (.complete key x) a ↔ a = e) ∨
      ((before capacity ops k).perform (.complete key x)).2 = .completed none ∧
        (∀ a ∈ (before capacity ops k).window.entries, a.key ≠ key) ∧
        ∀ a, ¬ (before capacity ops k).Takes (.complete key x) a
  /-- So does a cancellation. -/
  cancelled : ∀ k key, ops[k]? = some (.cancel key) →
    (∃ e, ((before capacity ops k).perform (.cancel key)).2 = .cancelled (some e.request) ∧
        e.key = key ∧ ∀ a, (before capacity ops k).Takes (.cancel key) a ↔ a = e) ∨
      ((before capacity ops k).perform (.cancel key)).2 = .cancelled none ∧
        (∀ a ∈ (before capacity ops k).window.entries, a.key ≠ key) ∧
        ∀ a, ¬ (before capacity ops k).Takes (.cancel key) a
  /-- A sweep takes out exactly the entries that are due, and returns their requests. -/
  expired : ∀ k, ops[k]? = some .expire →
    ∃ es : List (Entry α), ((before capacity ops k).perform .expire).2 =
        .expired (es.map fun e => (e.key, e.request)) ∧ es.Nodup ∧
      ∀ e, ((before capacity ops k).Takes .expire e ↔ e ∈ es) ∧
        (e ∈ es ↔ e ∈ (before capacity ops k).window.entries ∧
          e.expireAt ≤ (before capacity ops k).now)
  /-- A close takes every entry out, and counts them. -/
  closed : ∀ k, ops[k]? = some .close →
    ((before capacity ops k).perform .close).2 = .closed (before capacity ops k).window.entries.length ∧
      (before capacity ops (k + 1)).window.entries = []

theorem accepted_of_answer {a id : Nat} {op : Op α β} (ha : ops[a]? = some op)
    (hans : ((before capacity ops a).perform op).2 = .offered (.admitted id)) :
    ∃ e, e.id = id ∧ (before capacity ops a).Admits op e ∧
      ⟨e.key, e.id⟩ ∈ (before capacity ops (a + 1)).handles ∧
      ∃ b ≤ a, ∃ offerTimeout expireTimeout,
        ops[b]? = some (.offer e.key e.request offerTimeout expireTimeout) ∧
        e.expireAt = (before capacity ops a).now + expireTimeout.nanos := by
  have hkept : (before capacity ops a).Kept := before_kept a
  obtain ⟨fresh, turns, -, hid⟩ := perform_turns hkept.sound op
  obtain ⟨e, rfl, rfl⟩ := (hid id).mp hans
  have hadm : (before capacity ops a).Admits op e :=
    (admits_iff hkept.sound).mpr ⟨turns.mem_iff.mpr (.inr rfl), hans⟩
  refine ⟨e, rfl, hadm, by rw [before_succ ha]; exact handle_of_admits hkept hadm, ?_⟩
  rcases (hadm.places hkept.sound).1.2 with ⟨ot, et, rfl, hexp⟩ | ⟨p, hp, rfl, hkey, hreq, hexp⟩
  · exact ⟨a, Nat.le_refl a, ot, et, ha, hexp⟩
  · obtain ⟨b, hb, ot, hop⟩ := offered_of_waiting hp
    exact ⟨b, by omega, ot, p.expireTimeout, by rw [hop, hkey, hreq], hexp⟩

theorem mem_iff_not_taken {a k : Nat} {op : Op α β} {e : Entry α} (ha : ops[a]? = some op)
    (hadm : (before capacity ops a).Admits op e) (hak : a < k) :
    e ∈ (before capacity ops k).window.entries ↔
      ¬ ∃ j < k, ∃ op', ops[j]? = some op' ∧ (before capacity ops j).Takes op' e := by
  constructor
  · rintro hmem ⟨j, hj, op', hop, ht⟩
    exact gone_after_takes hop ht hj e hmem rfl
  · intro hno
    by_contra hmem
    have he : e ∈ (before capacity ops (a + 1)).window.entries := by
      rw [before_succ ha]
      exact hadm.2
    obtain ⟨j, -, hj, op', hop⟩ := taken_of_not_mem hak he hmem
    exact hno ⟨j, hj, op', hop⟩

theorem entries_of_stale {j k : Nat} {op op' : Op α β} {e : Entry α} (hj : ops[j]? = some op)
    (ht : (before capacity ops j).Takes op e) (hjk : j < k)
    (hop : op' = .drop e.id ∨ op' = .look e.id ∨ op' = .abort e.id) :
    ((before capacity ops k).perform op').1.window.entries = (before capacity ops k).window.entries := by
  have hkept : (before capacity ops k).Kept := before_kept k
  obtain ⟨fresh, turns, hplaces, -⟩ := perform_turns hkept.sound op'
  have hfresh : fresh = none := by
    cases hf : fresh with
    | none => rfl
    | some a =>
      rcases (hplaces a hf).2 with ⟨_, _, h, -⟩ | ⟨_, -, h, -⟩ <;> subst h <;> simp at hop
  have hstay : ∀ a ∈ (before capacity ops k).window.entries,
      (before capacity ops k).leaves op' a = false := by
    intro a ha
    have hne : a.id ≠ e.id := gone_after_takes hj ht hjk a ha
    rcases hop with rfl | rfl | rfl <;> simp [leaves, hne]
  rw [turns.entries, hfresh, List.filter_eq_self.mpr fun a ha => by rw [hstay a ha]; rfl]
  simp

/-- Every entry of every history has one outcome. -/
theorem one_outcome_per_entry (capacity : Nat) (ops : List (Op α β)) : OneOutcome capacity ops where
  accepted _ _ _ ha hans := accepted_of_answer ha hans
  handle k op h hop hh := by
    rw [before_succ hop]
    exact handle_stays hh op
  awaited k h timeout hop hh := by
    rw [before_succ hop]
    exact waiter_of_await (before_kept k) hh timeout
  waiter k op x hop hx := by
    rw [before_succ hop]
    exact waiter_stays hx op
  stays _ _ _ _ ha hadm hak := mem_iff_not_taken ha hadm hak
  once _ _ _ _ _ hk hl ht ht' := takes_once hk hl ht ht'
  taker k _ _ _ := takes_iff_taker (before_kept k)
  stale _ _ _ _ _ hj ht hjk _ hop := entries_of_stale hj ht hjk hop
  result _ _ _ _ hr := decided_of_ended hr
  ended_once _ _ _ _ _ hj hl hr hr' := ended_once hj hl hr hr'
  ends j _ _ hx := (look_ends_iff (before_kept j) hx).trans (or_congr_right (settled_iff_taken hx))
  completed k key x _ := perform_complete (before_kept k).sound key x
  cancelled k key _ := perform_cancel (before_kept k).sound key
  expired k _ := perform_expire (before_kept k).sound
  closed k hop := by
    rw [before_succ hop]
    exact perform_close (before_kept k).sound

end Smsc.Callers
