import Smsc.Proofs.History
import Smsc.Proofs.Window.Callers
import Smsc.Window.Race

/-!
# Smsc.Proofs.Window.Race — a completion against the deadline of its waiter

Between the halves of a completion the entry is out of the table and the response is nowhere its waiter
could find it. A waiter whose time is up just then is told that the request expired.

* `Tidy s`: the table is sound, and whatever is in flight is neither in it nor settled;
* `Removed s e`: the entry `e` has left for good; `perform_removed` keeps it;
* `complete_eq`, `look_eq`: the parts of an operation, one right after the other, are the operation;
* `completed_may_expire`: a schedule in which a completed request is reported as expired;
* `completed_gets_response_iff_sent`: this happens exactly if the wait ends between the halves.
-/

namespace Smsc.Race

open Window

variable {α β : Type} {s : Race α β} {capacity : Nat} {steps : List (Step α β)}

/-! ## The invariant -/

/-- Somebody stands for the entry drawn as `id` under `key`, as a handle or at some point of a wait. -/
def Owns (s : Race α β) (key : UInt32) (id : Nat) : Prop :=
  s.callers.Owns key id ∨ ∃ x, (x ∈ s.fired ∨ x ∈ s.lost) ∧ x.key = key ∧ x.id = id

/-- The table is sound, everybody knows the key of its entry, and what is in flight is not in the
table and not settled. -/
structure Tidy (s : Race α β) : Prop where
  sound : s.callers.window.Sound
  owned_lt : ∀ key id, s.Owns key id → id < s.callers.window.nextId
  owned_key : ∀ key id, s.Owns key id → ∀ e ∈ s.callers.window.entries, e.id = id → e.key = key
  flight_lt : ∀ f ∈ s.inFlight, f.id < s.callers.window.nextId
  flight_gone : ∀ f ∈ s.inFlight, ∀ e ∈ s.callers.window.entries, e.id ≠ f.id
  flight_pending : ∀ f ∈ s.inFlight, s.callers.window.outcome? f.id = none
  flight_ids : (s.inFlight.map (·.id)).Nodup

theorem tidy_ofCapacity (n : Nat) : (ofCapacity n : Race α β).Tidy where
  sound := sound_ofCapacity n
  owned_lt := by simp [ofCapacity, Owns, Callers.Owns, Callers.ofCapacity]
  owned_key := by simp [ofCapacity, Owns, Callers.Owns, Callers.ofCapacity]
  flight_lt := by simp [ofCapacity]
  flight_gone := by simp [ofCapacity]
  flight_pending := by simp [ofCapacity]
  flight_ids := by simp [ofCapacity]

/-- The parts of a state that the invariant reads, and how they may change while nothing is sent: the
table turns, nobody comes to own an entry but by its admission, and a flight begins with its entry. -/
structure Moves (s t : Race α β) : Prop where
  turns : ∃ gone o fresh, s.callers.window.Turns t.callers.window gone o fresh
  owns : ∀ key id, t.Owns key id → s.Owns key id ∨
    ∃ e ∈ t.callers.window.entries, e ∉ s.callers.window.entries ∧ e.key = key ∧ e.id = id
  inFlight : t.inFlight = s.inFlight ∨ ∃ e ∈ s.callers.window.entries, ∃ r : β,
    t.inFlight = s.inFlight ++ [⟨e.id, r⟩] ∧ (∀ a ∈ t.callers.window.entries, a.id ≠ e.id) ∧
      t.callers.window.outcome? e.id = none

/-- An entry has left the table, and whoever stands for it knows its key. -/
structure Removed (s : Race α β) (e : Entry α) : Prop where
  lt : e.id < s.callers.window.nextId
  gone : ∀ a ∈ s.callers.window.entries, a.id ≠ e.id
  owned_key : ∀ key, s.Owns key e.id → e.key = key

namespace Moves

variable {t : Race α β}

theorem fresh_id (h : s.Moves t) {e : Entry α} (he : e ∈ t.callers.window.entries)
    (hno : e ∉ s.callers.window.entries) : e.id = s.callers.window.nextId := by
  obtain ⟨gone, o, fresh, turns⟩ := h.turns
  rcases turns.mem_iff.mp he with ⟨he, -⟩ | hf
  · exact absurd he hno
  · exact (turns.fresh_id e hf).1

theorem nextId_le (h : s.Moves t) : s.callers.window.nextId ≤ t.callers.window.nextId := by
  obtain ⟨gone, o, fresh, turns⟩ := h.turns
  exact turns.nextId_le

theorem gone (h : s.Moves t) {i : Nat} (hi : i < s.callers.window.nextId)
    (hgone : ∀ e ∈ s.callers.window.entries, e.id ≠ i) :
    ∀ e ∈ t.callers.window.entries, e.id ≠ i := by
  intro e he hid
  by_cases hmem : e ∈ s.callers.window.entries
  · exact hgone e hmem hid
  · have := h.fresh_id he hmem
    omega

theorem pending (h : s.Moves t) {i : Nat} (hgone : ∀ e ∈ s.callers.window.entries, e.id ≠ i) :
    t.callers.window.outcome? i = s.callers.window.outcome? i := by
  obtain ⟨g, o, fresh, turns⟩ := h.turns
  exact turns.kept i (.inr fun e he _ => hgone e he)

theorem tidy (h : s.Moves t) (hs : s.Tidy) : t.Tidy := by
  have hsound : t.callers.window.Sound := by
    obtain ⟨gone, o, fresh, turns⟩ := h.turns
    exact turns.sound hs.sound
  refine ⟨hsound, ?_, ?_, ?_, ?_, ?_, ?_⟩
  · intro key id hown
    rcases h.owns key id hown with hown | ⟨e, he, -, -, rfl⟩
    · exact Nat.lt_of_lt_of_le (hs.owned_lt key id hown) h.nextId_le
    · exact hsound.id_lt e he
  · intro key id hown a ha hid
    rcases h.owns key id hown with hown | ⟨e, he, -, rfl, rfl⟩
    · by_cases hmem : a ∈ s.callers.window.entries
      · exact hs.owned_key key id hown a hmem hid
      · have := h.fresh_id ha hmem
        have := hs.owned_lt key id hown
        omega
    · rw [hsound.eq_of_id ha he hid]
  · intro f hf
    rcases h.inFlight with hin | ⟨e, he, r, hin, -, -⟩
    · exact Nat.lt_of_lt_of_le (hs.flight_lt f (hin ▸ hf)) h.nextId_le
    · rcases List.mem_append.mp (hin ▸ hf) with hf | hf
      · exact Nat.lt_of_lt_of_le (hs.flight_lt f hf) h.nextId_le
      · obtain rfl : f = ⟨e.id, r⟩ := by simpa using hf
        exact Nat.lt_of_lt_of_le (hs.sound.id_lt e he) h.nextId_le
  · intro f hf
    rcases h.inFlight with hin | ⟨e, he, r, hin, hgone, -⟩
    · exact h.gone (hs.flight_lt f (hin ▸ hf)) (hs.flight_gone f (hin ▸ hf))
    · rcases List.mem_append.mp (hin ▸ hf) with hf | hf
      · exact h.gone (hs.flight_lt f hf) (hs.flight_gone f hf)
      · obtain rfl : f = ⟨e.id, r⟩ := by simpa using hf
        exact hgone
  · intro f hf
    rcases h.inFlight with hin | ⟨e, he, r, hin, -, hnone⟩
    · rw [h.pending (hs.flight_gone f (hin ▸ hf))]
      exact hs.flight_pending f (hin ▸ hf)
    · rcases List.mem_append.mp (hin ▸ hf) with hf | hf
      · rw [h.pending (hs.flight_gone f hf)]
        exact hs.flight_pending f hf
      · obtain rfl : f = ⟨e.id, r⟩ := by simpa using hf
        exact hnone
  · rcases h.inFlight with hin | ⟨e, he, r, hin, -, -⟩
    · rw [hin]
      exact hs.flight_ids
    · rw [hin, List.map_append, List.nodup_append]
      refine ⟨hs.flight_ids, by simp, ?_⟩
      intro i hi j hj hij
      obtain ⟨f, hf, rfl⟩ := List.mem_map.mp hi
      obtain rfl : j = e.id := by simpa using hj
      exact hs.flight_gone f hf e he hij.symm

theorem removed (h : s.Moves t) {e : Entry α} (he : s.Removed e) : t.Removed e where
  lt := Nat.lt_of_lt_of_le he.lt h.nextId_le
  gone := h.gone he.lt he.gone
  owned_key key hown := by
    rcases h.owns key e.id hown with hown | ⟨a, ha, hno, -, hid⟩
    · exact he.owned_key key hown
    · have := h.fresh_id ha hno
      have := he.lt
      omega

end Moves

/-! ## One step -/

theorem find?_flight {id : Nat} {f : Flight β} (hf : s.inFlight.find? (·.id = id) = some f) :
    f ∈ s.inFlight ∧ f.id = id :=
  ⟨List.mem_of_find?_eq_some hf, by simpa using List.find?_some hf⟩

/-- The second half of a completion. -/
def sent (s : Race α β) (f : Flight β) : Race α β :=
  { s with
    callers.window := s.callers.window.deliver f.id (.response f.response)
    inFlight := s.inFlight.filter (·.id ≠ f.id) }

theorem moves_refl (s : Race α β) : s.Moves s where
  turns := ⟨_, _, _, .of_eq rfl rfl (Nat.le_refl _)⟩
  owns _ _ h := .inl h
  inFlight := .inl rfl

theorem whole_moves (hs : s.Tidy) (op : Callers.Op α β) : s.Moves (s.perform (.whole op)).1 where
  turns := by
    obtain ⟨fresh, turns, -, -⟩ := Callers.perform_turns hs.sound op
    exact ⟨_, _, fresh, turns⟩
  owns key id h := by
    rcases h with h | h
    · rcases Callers.perform_owns hs.sound h with h | ⟨e, hadm, hk⟩
      · exact .inl (.inl h)
      · exact .inr ⟨e, hadm.2, hadm.1, hk⟩
    · exact .inl (.inr h)
  inFlight := .inl rfl

theorem remove_moves (hs : s.Tidy) (key : UInt32) (r : β) :
    s.Moves (s.perform (.remove key r)).1 := by
  cases hf : s.callers.window.find? key with
  | none => simpa only [perform, hf] using moves_refl s
  | some e =>
    obtain ⟨he, -⟩ := (find?_eq_some hs.sound).mp hf
    have turns := detach_turns (w := s.callers.window) e s.callers.window.permits
    simp only [perform, hf]
    refine ⟨⟨_, _, _, turns⟩, fun _ _ h => .inl h, .inr ⟨e, he, r, rfl, ?_, ?_⟩⟩
    · intro a ha
      simpa using (turns.mem_of_mem ha).2
    · exact hs.sound.pending e he

theorem fire_moves (id : Nat) : s.Moves (s.perform (.fire id)).1 := by
  cases hf : s.callers.waiters.find? (·.id = id) with
  | none => simpa only [perform, hf] using moves_refl s
  | some x =>
    simp only [perform, hf]
    split
    · refine ⟨⟨_, _, _, .of_eq rfl rfl (Nat.le_refl _)⟩, fun key i h => .inl ?_, .inl rfl⟩
      rcases h with h | ⟨y, hy | hy, hk⟩
      · exact .inl (h.of_sublist (List.Sublist.refl _) List.filter_sublist)
      · rcases List.mem_append.mp hy with hy | hy
        · exact .inr ⟨y, .inl hy, hk⟩
        · obtain rfl : y = x := by simpa using hy
          exact .inl (.inr ⟨y, (Callers.find?_waiter hf).1, hk⟩)
      · exact .inr ⟨y, .inr hy, hk⟩
    · exact moves_refl s

theorem cancelSlot_moves (hs : s.Tidy) (id : Nat) : s.Moves (s.perform (.cancelSlot id)).1 := by
  cases hf : s.fired.find? (·.id = id) with
  | none => simpa only [perform, hf] using moves_refl s
  | some x =>
    have turns := withdraw_turns x.key hs.sound id
    simp only [perform, hf]
    split
    · rename_i w hw
      rw [hw] at turns
      refine ⟨⟨_, _, _, turns⟩, fun key i h => .inl ?_, .inl rfl⟩
      rcases h with h | ⟨y, hy | hy, hk⟩
      · exact .inl h
      · exact .inr ⟨y, .inl (List.mem_of_mem_filter hy), hk⟩
      · exact .inr ⟨y, .inr hy, hk⟩
    · rename_i w hw
      rw [hw] at turns
      refine ⟨⟨_, _, _, turns⟩, fun key i h => .inl ?_, .inl rfl⟩
      rcases h with h | ⟨y, hy | hy, hk⟩
      · exact .inl h
      · exact .inr ⟨y, .inl (List.mem_of_mem_filter hy), hk⟩
      · rcases List.mem_append.mp hy with hy | hy
        · exact .inr ⟨y, .inr hy, hk⟩
        · obtain rfl : y = x := by simpa using hy
          exact .inr ⟨y, .inl (Callers.find?_waiter hf).1, hk⟩

theorem tryRecv_moves (id : Nat) : s.Moves (s.perform (.tryRecv id)).1 := by
  rw [perform]
  split
  · exact moves_refl s
  · refine ⟨⟨_, _, _, .of_eq rfl rfl (Nat.le_refl _)⟩, fun key i h => .inl ?_, .inl rfl⟩
    rcases h with h | ⟨y, hy | hy, hk⟩
    · exact .inl h
    · exact .inr ⟨y, .inl hy, hk⟩
    · exact .inr ⟨y, .inr (List.mem_of_mem_filter hy), hk⟩

/-- A step moves the table, or it is the second half of a completion. -/
theorem perform_cases (hs : s.Tidy) (step : Step α β) :
    s.Moves (s.perform step).1 ∨
      ∃ f ∈ s.inFlight, step = .send f.id ∧ (s.perform step).1 = s.sent f := by
  cases step with
  | whole op => exact .inl (whole_moves hs op)
  | remove key r => exact .inl (remove_moves hs key r)
  | send id =>
    cases hf : s.inFlight.find? (·.id = id) with
    | none => exact .inl (by simpa only [perform, hf] using moves_refl s)
    | some f =>
      obtain ⟨hmem, rfl⟩ := find?_flight hf
      exact .inr ⟨f, hmem, rfl, by simp only [perform, hf, sent]⟩
  | fire id => exact .inl (fire_moves id)
  | cancelSlot id => exact .inl (cancelSlot_moves hs id)
  | tryRecv id => exact .inl (tryRecv_moves id)

/-! ## What a step keeps -/

theorem sent_outcome? (f : Flight β) (i : Nat) :
    (s.sent f).callers.window.outcome? i =
      if i = f.id then some (.response f.response) else s.callers.window.outcome? i :=
  outcome?_deliver f.id _ i

theorem sent_tidy (hs : s.Tidy) {f : Flight β} (hf : f ∈ s.inFlight) : (s.sent f).Tidy where
  sound := by
    refine ⟨hs.sound.id_lt, hs.sound.ids, hs.sound.keys, fun i o ho => ?_, fun e he => ?_⟩
    · rw [sent_outcome?] at ho
      by_cases hi : i = f.id
      · exact hi ▸ hs.flight_lt f hf
      · exact hs.sound.outcome_lt i o (by simpa [hi] using ho)
    · rw [sent_outcome?, if_neg (hs.flight_gone f hf e he)]
      exact hs.sound.pending e he
  owned_lt := hs.owned_lt
  owned_key := hs.owned_key
  flight_lt g hg := hs.flight_lt g (List.mem_of_mem_filter hg)
  flight_gone g hg := hs.flight_gone g (List.mem_of_mem_filter hg)
  flight_pending g hg := by
    obtain ⟨hg, hne⟩ := List.mem_filter.mp hg
    rw [sent_outcome?, if_neg (by simpa using hne)]
    exact hs.flight_pending g hg
  flight_ids := hs.flight_ids.sublist (List.filter_sublist.map _)

theorem perform_tidy (hs : s.Tidy) (step : Step α β) : (s.perform step).1.Tidy := by
  rcases perform_cases hs step with h | ⟨f, hf, -, heq⟩
  · exact h.tidy hs
  · exact heq ▸ sent_tidy hs hf

/-- An entry that has left stays away, whatever comes to stand under its key. -/
theorem perform_removed (hs : s.Tidy) {e : Entry α} (he : s.Removed e) (step : Step α β) :
    (s.perform step).1.Removed e := by
  rcases perform_cases hs step with h | ⟨f, hf, -, heq⟩
  · exact h.removed he
  · rw [heq]
    exact ⟨he.lt, he.gone, he.owned_key⟩

/-- What is in flight stays in flight until it is sent, and then its waiter has the response. -/
theorem perform_flight (hs : s.Tidy) {f : Flight β} (hf : f ∈ s.inFlight) (step : Step α β) :
    step ≠ .send f.id ∧ f ∈ (s.perform step).1.inFlight ∨
      step = .send f.id ∧
        (s.perform step).1.callers.window.outcome? f.id = some (.response f.response) := by
  by_cases hstep : step = .send f.id
  · refine .inr ⟨hstep, ?_⟩
    obtain ⟨g, hg⟩ := Option.isSome_iff_exists.mp
      (List.find?_isSome.mpr ⟨f, hf, by simp⟩ : (s.inFlight.find? (·.id = f.id)).isSome)
    obtain ⟨hmem, hid⟩ := find?_flight hg
    obtain rfl : g = f := List.inj_on_of_nodup_map hs.flight_ids hmem hf hid
    simp only [hstep, perform, hg, outcome?_deliver, if_true]
  · refine .inl ⟨hstep, ?_⟩
    rcases perform_cases hs step with h | ⟨g, hg, rfl, heq⟩
    · rcases h.inFlight with hin | ⟨e, -, r, hin, -, -⟩
      · rwa [hin]
      · exact hin ▸ List.mem_append_left _ hf
    · rw [heq]
      refine List.mem_filter.mpr ⟨hf, ?_⟩
      have : f.id ≠ g.id := fun hid => hstep (by rw [hid])
      simpa using this

/-- What a waiter has it keeps. -/
theorem perform_outcome? (hs : s.Tidy) {i : Nat} {o : Outcome β}
    (ho : s.callers.window.outcome? i = some o) (step : Step α β) :
    (s.perform step).1.callers.window.outcome? i = some o := by
  rcases perform_cases hs step with h | ⟨f, hf, -, heq⟩
  · obtain ⟨gone, o', fresh, turns⟩ := h.turns
    exact turns.outcome_of_some hs.sound ho
  · have hne : i ≠ f.id := fun hi => by simp [hi, hs.flight_pending f hf] at ho
    rw [heq, sent_outcome?, if_neg hne, ho]

/-! ## Whole operations from their parts -/

/-- The halves of a completion, one right after the other, are the completion. -/
theorem complete_eq (hs : s.Tidy) {key : UInt32} {e : Entry α}
    (hf : s.callers.window.find? key = some e) (r : β) :
    s.after [.remove key r, .send e.id] = s.after [.whole (.complete key r)] := by
  have he := ((find?_eq_some hs.sound).mp hf).1
  have hno : ∀ f ∈ s.inFlight, f.id ≠ e.id := fun f hf hid => hs.flight_gone f hf e he hid.symm
  have hnone : s.inFlight.find? (·.id = e.id) = none := List.find?_eq_none.mpr (by simpa using hno)
  have hfilter : s.inFlight.filter (·.id ≠ e.id) = s.inFlight :=
    List.filter_eq_self.mpr (by simpa using hno)
  simp only [after, List.foldl_cons, List.foldl_nil, perform, Callers.perform, complete, hf,
    List.find?_append, hnone, List.filter_append, hfilter]
  simp

/-- The parts of a wait that runs out, one right after the other, are the last look of the wait. -/
theorem look_eq {x : Waiter} (hx : s.callers.waiters.find? (·.id = x.id) = some x)
    (hpending : s.callers.window.outcome? x.id = none) (hlate : x.deadline ≤ s.callers.now)
    (hfired : ∀ y ∈ s.fired, y.id ≠ x.id) (hlost : ∀ y ∈ s.lost, y.id ≠ x.id) :
    s.after [.fire x.id, .cancelSlot x.id, .tryRecv x.id] = s.after [.whole (.look x.id)] := by
  have hfind (ys : List Waiter) (hys : ∀ y ∈ ys, y.id ≠ x.id) :
      (ys ++ [x]).find? (·.id = x.id) = some x := by
    rw [List.find?_append, List.find?_eq_none.mpr (by simpa using hys)]
    simp
  have hnone : s.lost.find? (·.id = x.id) = none := List.find?_eq_none.mpr (by simpa using hlost)
  simp only [after, List.foldl_cons, List.foldl_nil, perform, Callers.perform, hx, collect, hpending,
    hlate, Option.isNone_none, decide_true, Bool.and_true, if_true, hfind s.fired hfired]
  generalize hw : s.callers.window.withdraw x.key x.id = wb
  obtain ⟨w, b⟩ := wb
  cases b with
  | true => simpa [Callers.noteLook, hnone] using hfired
  | false => simpa [Callers.noteLook, hfind s.lost hlost] using And.intro hfired hlost

/-! ## Along a schedule -/

theorem before_succ {k : Nat} {step : Step α β} (hk : steps[k]? = some step) :
    before capacity steps (k + 1) = ((before capacity steps k).perform step).1 :=
  stateAt_succ hk

theorem before_succ_of_none {k : Nat} (hk : steps[k]? = none) :
    before capacity steps (k + 1) = before capacity steps k :=
  stateAt_succ_of_none hk

theorem before_tidy (k : Nat) : (before capacity steps k).Tidy :=
  stateAt_induct (Nat.zero_le k) (fun _ step _ _ _ h => perform_tidy h step) (tidy_ofCapacity capacity)

/-- The first half of a completion takes the entry out for good and brings the response on its way. -/
theorem remove_removed (hs : s.Tidy) {e : Entry α} (he : e ∈ s.callers.window.entries) (r : β) :
    (s.perform (.remove e.key r)).1.Removed e ∧
      ⟨e.id, r⟩ ∈ (s.perform (.remove e.key r)).1.inFlight := by
  have hf : s.callers.window.find? e.key = some e := (find?_eq_some hs.sound).mpr ⟨he, rfl⟩
  simp only [perform, hf]
  refine ⟨⟨hs.sound.id_lt e he, fun a ha => ?_, fun key hown => ?_⟩, by simp⟩
  · simpa using (List.mem_filter.mp ha).2
  · exact hs.owned_key key e.id hown e he rfl

theorem removed_of_completed {k j : Nat} {e : Entry α} {r : β}
    (hk : steps[k]? = some (.remove e.key r))
    (he : e ∈ (before capacity steps k).callers.window.entries) (hkj : k < j) :
    (before capacity steps j).Removed e := by
  refine stateAt_induct (P := fun s : Race α β => s.Removed e) hkj
    (fun i step _ _ _ h => perform_removed (before_tidy i) h step) ?_
  have h := (remove_removed (before_tidy k) he r).1
  rwa [← before_succ hk] at h

/-- From the first half on, the response is in flight until the second half, and then with the waiter. -/
theorem flight_or_response {k j : Nat} {e : Entry α} {r : β}
    (hk : steps[k]? = some (.remove e.key r))
    (he : e ∈ (before capacity steps k).callers.window.entries) (hkj : k < j) :
    ¬ SentBetween steps e.id k j ∧ ⟨e.id, r⟩ ∈ (before capacity steps j).inFlight ∨
      SentBetween steps e.id k j ∧
        (before capacity steps j).callers.window.outcome? e.id = some (.response r) := by
  induction j, hkj using Nat.le_induction with
  | base =>
    refine .inl ⟨?_, ?_⟩
    · rintro ⟨d, hkd, hd, -⟩
      omega
    · have h := (remove_removed (before_tidy k) he r).2
      rwa [← before_succ hk] at h
  | succ j hkj ih =>
    -- a step other than the second half leaves the flight, and the response, alone
    have hmono : SentBetween steps e.id k j → SentBetween steps e.id k (j + 1) :=
      fun ⟨d, hkd, hd, hs⟩ => ⟨d, hkd, by omega, hs⟩
    have hsplit : SentBetween steps e.id k (j + 1) →
        SentBetween steps e.id k j ∨ steps[j]? = some (.send e.id) := by
      rintro ⟨d, hkd, hd, hs⟩
      rcases Nat.lt_succ_iff_lt_or_eq.mp hd with hlt | rfl
      · exact .inl ⟨d, hkd, hlt, hs⟩
      · exact .inr hs
    have htidy : (before capacity steps j).Tidy := before_tidy j
    cases hj : steps[j]? with
    | none =>
      rw [before_succ_of_none hj]
      rcases ih with ⟨hno, hf⟩ | ⟨hsent, ho⟩
      · exact .inl ⟨fun h => (hsplit h).elim hno (by simp [hj]), hf⟩
      · exact .inr ⟨hmono hsent, ho⟩
    | some step =>
      rw [before_succ hj]
      rcases ih with ⟨hno, hf⟩ | ⟨hsent, ho⟩
      · rcases perform_flight htidy hf step with ⟨hne, hf'⟩ | ⟨rfl, ho⟩
        · exact .inl ⟨fun h => (hsplit h).elim hno fun h => hne (Option.some.inj (hj ▸ h)), hf'⟩
        · exact .inr ⟨⟨j, by omega, by omega, hj⟩, ho⟩
      · exact .inr ⟨hmono hsent, perform_outcome? htidy ho step⟩

/-! ## The end of a wait -/

/-- Once an entry has left, its wait ends with what the waiter is found to have. -/
theorem ends_of_removed (hs : s.Tidy) {e : Entry α} (he : s.Removed e) {step : Step α β}
    {res : Except WindowError β} (h : s.Ends step e.id res) :
    res = received e.key (s.callers.window.outcome? e.id) := by
  rcases h with ⟨rfl, h⟩ | ⟨rfl | rfl, h⟩
  · cases hf : s.callers.waiters.find? (·.id = e.id) with
    | none => simp [perform, Callers.perform, hf] at h
    | some x =>
      obtain ⟨hx, hid⟩ := Callers.find?_waiter hf
      have hkey : e.key = x.key := he.owned_key x.key (.inl (.inr ⟨x, hx, rfl, hid⟩))
      have hcol := collect_collecting hs.sound s.callers.now x
      simp only [perform, Callers.perform, hf, Callers.noteLook_snd, Answer.whole.injEq] at h
      generalize s.callers.window.collect s.callers.now x = wr at h hcol
      obtain ⟨w, o⟩ := wr
      dsimp only at h hcol
      rw [← hid, hkey]
      cases hcol with
      | response y hy same => simpa [hy, received] using h.symm
      | released hy same => simpa [hy, received] using h.symm
      | timedOut a ha _ haid _ _ => exact absurd (haid.trans hid) (he.gone a ha)
      | missing hnone _ _ same => simpa [hnone, received] using h.symm
      | waiting => simp at h
  · cases hf : s.fired.find? (·.id = e.id) with
    | none => simp [perform, hf] at h
    | some x =>
      have hsnd := withdraw_snd x.key hs.sound e.id
      simp only [perform, hf] at h
      split at h
      · rename_i w hw
        rw [hw] at hsnd
        obtain ⟨a, ha, -, hid⟩ := hsnd.mp rfl
        exact absurd hid (he.gone a ha)
      · simp at h
  · cases hf : s.lost.find? (·.id = e.id) with
    | none => simp [perform, hf] at h
    | some x =>
      obtain ⟨hx, hid⟩ := Callers.find?_waiter hf
      have hkey : e.key = x.key := he.owned_key x.key (.inr ⟨x, .inr hx, rfl, hid⟩)
      simp only [perform, hf, Answer.ended.injEq] at h
      rw [← h, hkey]

/-- A caller that looks once the response is there gets it. -/
theorem ends_with_response {x : Waiter} {r : β}
    (ho : s.callers.window.outcome? x.id = some (.response r)) :
    (x ∈ s.callers.waiters → s.Ends (.whole (.look x.id)) x.id (.ok r)) ∧
      (x ∈ s.lost → s.Ends (.tryRecv x.id) x.id (.ok r)) := by
  constructor
  · intro hx
    obtain ⟨y, hy⟩ := Option.isSome_iff_exists.mp
      (List.find?_isSome.mpr ⟨x, hx, by simp⟩ : (s.callers.waiters.find? (·.id = x.id)).isSome)
    have hid := (Callers.find?_waiter hy).2
    refine .inl ⟨rfl, ?_⟩
    simp [perform, Callers.perform, hy, collect, hid, ho, Callers.noteLook]
  · intro hx
    obtain ⟨y, hy⟩ := Option.isSome_iff_exists.mp
      (List.find?_isSome.mpr ⟨x, hx, by simp⟩ : (s.lost.find? (·.id = x.id)).isSome)
    exact .inr ⟨.inr rfl, by simp [perform, hy, ho, received]⟩

/-- A waiter that asks for its entry in vain goes on to look for the response. -/
theorem cancelSlot_lost (hs : s.Tidy) {e : Entry α} (he : s.Removed e) {x : Waiter}
    (hx : x ∈ s.fired) (hid : x.id = e.id) :
    ∃ y ∈ (s.perform (.cancelSlot e.id)).1.lost, y.id = e.id := by
  obtain ⟨y, hy⟩ := Option.isSome_iff_exists.mp
    (List.find?_isSome.mpr ⟨x, hx, by simpa using hid⟩ : (s.fired.find? (·.id = e.id)).isSome)
  have hsnd := withdraw_snd y.key hs.sound e.id
  simp only [perform, hy]
  split
  · rename_i w hw
    rw [hw] at hsnd
    obtain ⟨a, ha, -, haid⟩ := hsnd.mp rfl
    exact absurd haid (he.gone a ha)
  · exact ⟨y, by simp, (Callers.find?_waiter hy).2⟩

/-! ## What becomes of a completed request -/

/-- A completed request is never reported as failed: if the first half of its completion finds it with
a caller waiting, and the second half comes as well, then the wait ends with the response. -/
def NeverFailsOnceCompleted (α β : Type) : Prop :=
  ∀ (capacity : Nat) (steps : List (Step α β)) (k j : Nat) (e : Entry α) (r : β) (step : Step α β)
    (res : Except WindowError β),
    steps[k]? = some (.remove e.key r) → e ∈ (before capacity steps k).callers.window.entries →
    (before capacity steps k).Awaits e.id → (∃ d, k < d ∧ steps[d]? = some (.send e.id)) →
    k < j → steps[j]? = some step → (before capacity steps j).Ends step e.id res → res = .ok r

/-- The waiter's time is up while the completion is between its halves. -/
def lateSchedule : List (Step Unit Nat) :=
  [.whole (.offer 7 () (.ofSeconds 1) (.ofSeconds 60)), .whole (.await 1 (.ofSeconds 1)),
    .whole (.elapse (.ofSeconds 1)), .remove 7 700, .fire 1, .cancelSlot 1, .tryRecv 1, .send 1]

/-- The completion of that schedule takes out the request that awaits a response, and its waiter is told
that the request expired. -/
theorem completed_may_expire : ¬ NeverFailsOnceCompleted Unit Nat := by
  intro never
  have hfails := never 1 lateSchedule 3 6 ⟨7, 1, (), 0, 60000000000⟩ 700 (.tryRecv 1)
    (.error (.expired 7)) rfl (List.mem_singleton.mpr rfl) ⟨⟨7, 1, 1000000000⟩, .inl (by decide), rfl⟩
    ⟨7, by decide, rfl⟩ (by decide) rfl (.inr ⟨.inr rfl, rfl⟩)
  exact absurd hfails (by simp)

/-- For a request that a completion has taken out of the table: a wait for it ends with the response
exactly if it ends after the second half of the completion, and otherwise as expired, never as timed
out. After the second half, each part of a wait leads to the response. -/
theorem completed_gets_response_iff_sent (capacity : Nat) (steps : List (Step α β)) (k : Nat)
    (e : Entry α) (r : β) (hk : steps[k]? = some (.remove e.key r))
    (he : e ∈ (before capacity steps k).callers.window.entries) :
    (∀ j step res, k < j → steps[j]? = some step → (before capacity steps j).Ends step e.id res →
      (res = .ok r ↔ SentBetween steps e.id k j) ∧ (res = .ok r ∨ res = .error (.expired e.key))) ∧
    ∀ j x, SentBetween steps e.id k j → x.id = e.id →
      (x ∈ (before capacity steps j).callers.waiters →
        (before capacity steps j).Ends (.whole (.look e.id)) e.id (.ok r)) ∧
      (x ∈ (before capacity steps j).fired →
        ∃ y ∈ ((before capacity steps j).perform (.cancelSlot e.id)).1.lost, y.id = e.id) ∧
      (x ∈ (before capacity steps j).lost →
        (before capacity steps j).Ends (.tryRecv e.id) e.id (.ok r)) := by
  constructor
  · intro j step res hkj _ hends
    have hres := ends_of_removed (before_tidy j) (removed_of_completed hk he hkj) hends
    rcases flight_or_response hk he hkj with ⟨hno, hf⟩ | ⟨hsent, ho⟩
    · rw [(before_tidy j).flight_pending _ hf] at hres
      subst hres
      exact ⟨by simp [received, hno], .inr rfl⟩
    · rw [ho] at hres
      subst hres
      exact ⟨by simp [received, hsent], .inl rfl⟩
  · intro j x hsent hid
    have hkj : k < j := by
      obtain ⟨d, hkd, hdj, -⟩ := hsent
      omega
    have ho := (flight_or_response hk he hkj).resolve_left fun h => h.1 hsent
    have hends := ends_with_response (x := x) (by rw [hid]; exact ho.2)
    rw [hid] at hends
    exact ⟨hends.1, fun hx => cancelSlot_lost (before_tidy j) (removed_of_completed hk he hkj) hx hid,
      hends.2⟩

/-- In the schedule above the wait ends before the second half. -/
theorem lateSchedule_expires :
    (Except.error (.expired 7) = (.ok 700 : Except WindowError Nat) ↔ SentBetween lateSchedule 1 3 6) ∧
      ¬ SentBetween lateSchedule 1 3 6 := by
  have h := ((completed_gets_response_iff_sent 1 lateSchedule 3 ⟨7, 1, (), 0, 60000000000⟩ 700 rfl
    (List.mem_singleton.mpr rfl)).1 6 (.tryRecv 1) (.error (.expired 7)) (by decide) rfl
    (.inr ⟨.inr rfl, rfl⟩)).1
  exact ⟨h, fun hsent => by simpa using h.mpr hsent⟩

end Smsc.Race
