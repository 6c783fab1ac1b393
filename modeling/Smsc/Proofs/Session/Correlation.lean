import Smsc.Proofs.Session.Duties
import Smsc.Proofs.Session.Status

/-!
# Smsc.Proofs.Session.Correlation — responses and the calls they are for

A response completes the entry under its number. What the call finds later is that response, however
long it takes the call to look, and whatever has come to stand under the number since.

* `Resolves s xs k id f`: the `k`-th step of a run takes the response `f`, which completes the entry
  that the call `id` holds;
* `response_source`: a response that a waiter finds was taken while its entry was in the table;
* `entry_history`: a call has held its entry ever since the entry was drawn;
* `Correlated`, `responses_correlated`: all of it for any run.
-/

namespace Smsc.Session

open Window

variable {s t : Session} {xs : List Step}

/-! ## One step -/

theorem CallTurn.response {c : Call} {stage : CallStage} (turn : s.CallTurn c t stage) {n : Nat} {f : Frame}
    (h : t.window.outcome? n = some (.response f)) :
    s.window.outcome? n = some (.response f) := by
  cases turn with
  | waits same => rwa [← same]
  | queues frame p unplaced makes key_eq request_eq turns =>
    exact (turns.outcome_cases h).resolve_right fun H => by simp at H
  | admits frame e unplaced makes key_eq request_eq turns =>
    exact (turns.outcome_cases h).resolve_right fun H => by simp at H
  | writes frame entry deadline stage_eq same sent => rwa [← same]
  | gets frame since x response stage_eq settled keeps => exact keeps.response n f h
  | fails result none_received keeps => exact keeps.response n f h

/-- The step takes the response `f`, while the entry drawn as `n` is in the table under its number. -/
def Completes (s : Session) (x : Step) (f : Frame) (n : Nat) : Prop :=
  x = .move (.reader .read) ∧ s.can (.reader .read) = true ∧ s.status ≠ .closed ∧
    (∃ rest, s.nextInput = .frame f rest) ∧ f.isResponse = true ∧
    ∃ e ∈ s.window.entries, e.id = n ∧ e.key = f.sequence

/-- A waiter finds a response only after the step that takes it, with the entry in the table. -/
theorem Turn.response (hs : s.Orderly) {x : Step} (turn : s.Turn x t) {n : Nat} {f : Frame}
    (h : t.window.outcome? n = some (.response f)) :
    s.window.outcome? n = some (.response f) ∨ s.Completes x f n := by
  cases turn with
  | apart tasks calls keeps => exact .inl (keeps.response n f h)
  | completes g rest step_eq can input response going tasks calls window =>
    rw [window] at h
    rcases (complete_turns s.now g.sequence hs.sound g).outcome_cases h with h | ⟨ho, e, he, hkey, hid⟩
    · exact .inl h
    · obtain rfl : g = f := by simpa using ho
      exact .inr ⟨step_eq, can, going, ⟨rest, input⟩, response, e, he, hid, by simpa using hkey⟩
  | begins c id_eq lt stage calls window => exact .inl (window ▸ h)
  | drops c mem tasks calls keeps => exact .inl (keeps.response n f h)
  | goes c mem stage tasks calls turn => exact .inl (turn.response h)

/-- A call holds an entry that it held before, or one drawn by this step. -/
theorem Turn.entry (hs : s.Orderly) {x : Step} (turn : s.Turn x t) {c : Call} (hc : c ∈ t.calls)
    {frame : Frame} {n : Nat} (hentry : c.stage.entry? = some (frame, n)) :
    (∃ b ∈ s.calls, b.id = c.id ∧ b.stage.entry? = some (frame, n)) ∨
      s.window.nextId ≤ n ∧ ∀ b ∈ s.calls, b.id = c.id → b.stage.IsUnplaced := by
  rcases turn.call hs hc with hc | ⟨hstage, -⟩ | ⟨b, hb, stage, rfl, turn⟩
  · exact .inl ⟨c, hc, rfl, hentry⟩
  · simp [hstage, CallStage.entry?] at hentry
  · cases turn with
    | waits same => exact .inl ⟨b, hb, rfl, hentry⟩
    | admits frame' e unplaced makes key_eq request_eq turns =>
      obtain ⟨rfl, rfl⟩ : frame' = frame ∧ e.id = n := by simpa [CallStage.entry?] using hentry
      refine .inr ⟨Nat.le_of_eq (turns.fresh_id e rfl).1.symm, fun a ha hid => ?_⟩
      rw [List.inj_on_of_nodup_map hs.call_ids ha hb hid]
      exact unplaced
    | writes frame' entry deadline stage_eq same sent =>
      refine .inl ⟨b, hb, rfl, ?_⟩
      rw [stage_eq]
      exact hentry
    | _ => simp [CallStage.entry?] at hentry

/-- A call that has ended with a response ended so before, or finds the response now. -/
theorem Turn.finished (hs : s.Orderly) {x : Step} (turn : s.Turn x t) {c : Call} (hc : c ∈ t.calls)
    {r : Received} (hstage : c.stage = .finished (.received r)) :
    c ∈ s.calls ∨ ∃ b ∈ s.calls, ∃ stage, c = { b with stage } ∧ ∃ frame since w f,
      b.stage = .awaiting frame since w ∧ s.window.outcome? w.id = some (.response f) ∧ r = .ofFrame f := by
  rcases turn.call hs hc with hc | ⟨hstart, -⟩ | ⟨b, hb, stage, rfl, turn⟩
  · exact .inl hc
  · simp [hstart] at hstage
  · cases turn with
    | waits same => exact .inl hb
    | gets frame since w response stage_eq settled keeps =>
      refine .inr ⟨b, hb, _, rfl, frame, since, w, response, stage_eq, settled, ?_⟩
      cases hp : b.purpose <;> simp [hp, CallPurpose.resultOf] at hstage
      exact hstage.symm
    | fails result none_received keeps => exact absurd (by simpa using hstage) (none_received r)
    | _ => simp at hstage

/-- The frames of calls that wait for responses have been written. -/
def Posted (s : Session) : Prop :=
  ∀ c ∈ s.calls, ∀ frame since w, c.stage = .awaiting frame since w → s.Sent frame

theorem Turn.posted (hs : s.Orderly) {x : Step} (turn : s.Turn x t)
    (log : ∃ new, t.log = new ++ s.log) (h : s.Posted) : t.Posted := by
  intro c hc frame since w hstage
  have still (hc : c ∈ s.calls) : t.Sent frame := by
    obtain ⟨octets, hoctets, hmem⟩ := h c hc frame since w hstage
    obtain ⟨new, log⟩ := log
    exact ⟨octets, hoctets, log ▸ List.mem_append_right _ hmem⟩
  rcases turn.call hs hc with hc | ⟨hstart, -⟩ | ⟨b, hb, stage, rfl, turn⟩
  · exact still hc
  · simp [hstart] at hstage
  · cases turn with
    | waits same => exact still hb
    | writes frame' entry deadline stage_eq same sent =>
      obtain ⟨rfl, -⟩ : frame' = frame ∧ _ := by simpa using hstage
      exact sent
    | _ => simp at hstage

/-- A call keeps the entry it has been given, or comes to its end. -/
theorem Turn.keeps_entry (hs : s.Orderly) {x : Step} (turn : s.Turn x t) {id n : Nat} {frame : Frame}
    (hid : id < s.nextTask)
    (h : ∀ b ∈ s.calls, b.id = id →
      b.stage.entry? = some (frame, n) ∨ ∃ result, b.stage = .finished result) :
    ∀ c ∈ t.calls, c.id = id →
      c.stage.entry? = some (frame, n) ∨ ∃ result, c.stage = .finished result := by
  intro c hc hcid
  rcases turn.call hs hc with hc | ⟨-, hnew⟩ | ⟨b, hb, stage, rfl, turn⟩
  · exact h c hc hcid
  · omega
  · have hno (hu : b.stage.IsUnplaced) : False := by
      rcases h b hb hcid with h | ⟨result, h⟩
      · simp [hu.entry?] at h
      · rcases hu with hu | ⟨f, p, hu⟩ <;> simp [h] at hu
    cases turn with
    | waits same => exact h b hb hcid
    | queues f p unplaced => exact (hno unplaced).elim
    | admits f e unplaced => exact (hno unplaced).elim
    | writes f entry deadline stage_eq same sent =>
      rcases h b hb hcid with h | ⟨result, h⟩
      · rw [stage_eq] at h
        exact .inl h
      · simp [h] at stage_eq
    | gets => exact .inr ⟨_, rfl⟩
    | fails => exact .inr ⟨_, rfl⟩

/-! ## Along a run -/

theorem nextId_mono (hs : s.Orderly) {k l : Nat} (hkl : k ≤ l) :
    (s.before xs k).window.nextId ≤ (s.before xs l).window.nextId :=
  before_induct (P := fun t => (s.before xs k).window.nextId ≤ t.window.nextId) hs
    (fun _ ht h x => Nat.le_trans h ((step_turn ht x).follows ht).nextId_le) hkl (Nat.le_refl _)

/-- An entry that is gone does not come back. -/
theorem gone_stays (hs : s.Orderly) {k l n : Nat} (hkl : k ≤ l)
    (hn : n < (s.before xs k).window.nextId) (h : ∀ e ∈ (s.before xs k).window.entries, e.id ≠ n) :
    ∀ e ∈ (s.before xs l).window.entries, e.id ≠ n := by
  refine (before_induct (P := fun t => n < t.window.nextId ∧ ∀ e ∈ t.window.entries, e.id ≠ n) hs
    (fun t ht h x => ?_) hkl ⟨hn, h⟩).2
  have follows := (step_turn ht x).follows ht
  refine ⟨Nat.lt_of_lt_of_le h.1 follows.nextId_le, fun e he => ?_⟩
  rcases follows.old e he with he | hle
  · exact h.2 e he
  · omega

/-- What a waiter finds was taken by an earlier step, while the entry was in the table. -/
theorem response_source (hs : s.Orderly) (hnone : ∀ n, s.window.outcome? n = none) {j n : Nat} {f : Frame}
    (h : (s.before xs j).window.outcome? n = some (.response f)) :
    ∃ i < j, ∃ x, xs[i]? = some x ∧ (s.before xs i).Completes x f n := by
  refine stateAt_source (P := fun t : Session => t.window.outcome? n = some (.response f))
    (fun i x _ _ hstep => ?_) (by simp [hnone]) h
  have horderly : (s.before xs i).Orderly := before_orderly hs i
  exact (step_turn horderly x).response horderly hstep

/-- A call has held its entry ever since it was drawn. -/
theorem entry_history (hs : s.Orderly) {j : Nat} {c : Call} (hc : c ∈ (s.before xs j).calls)
    {frame : Frame} {n : Nat} (hentry : c.stage.entry? = some (frame, n)) {i : Nat} (hij : i ≤ j)
    (hn : n < (s.before xs i).window.nextId) :
    ∃ b ∈ (s.before xs i).calls, b.id = c.id ∧ b.stage.entry? = some (frame, n) := by
  induction j, hij using Nat.le_induction generalizing c with
  | base => exact ⟨c, hc, rfl, hentry⟩
  | succ j hij ih =>
    cases hj : xs[j]? with
    | none =>
      rw [before_succ_of_none hj] at hc
      exact ih hc hentry
    | some x =>
      rw [before_succ hj] at hc
      have horderly : (s.before xs j).Orderly := before_orderly hs j
      rcases (step_turn horderly x).entry horderly hc hentry with ⟨b, hb, hid, hentry⟩ | ⟨hle, -⟩
      · obtain ⟨a, ha, haid, hentry⟩ := ih hb hentry
        exact ⟨a, ha, haid.trans hid, hentry⟩
      · have hmono : (s.before xs i).window.nextId ≤ (s.before xs j).window.nextId := nextId_mono hs hij
        omega

/-- A call keeps the entry it holds until its end. -/
theorem entry_stays (hs : s.Orderly) {i j : Nat} (hij : i ≤ j) {c : Call}
    (hc : c ∈ (s.before xs i).calls) {frame : Frame} {n : Nat}
    (hentry : c.stage.entry? = some (frame, n)) :
    ∀ b ∈ (s.before xs j).calls, b.id = c.id →
      b.stage.entry? = some (frame, n) ∨ ∃ result, b.stage = .finished result := by
  refine (before_induct (P := fun t => c.id < t.nextTask ∧ ∀ b ∈ t.calls, b.id = c.id →
      b.stage.entry? = some (frame, n) ∨ ∃ result, b.stage = .finished result) hs
    (fun t ht h x => ?_) hij ⟨(before_orderly hs i).call_lt c hc, fun b hb hid => ?_⟩).2
  · have turn := step_turn ht x
    exact ⟨Nat.lt_of_lt_of_le h.1 turn.tasks, turn.keeps_entry ht h.1 h.2⟩
  · rw [List.inj_on_of_nodup_map (before_orderly hs i).call_ids hb hc hid]
    exact .inl hentry

theorem before_posted (hs : s.Orderly) (hn : s.Numbered) (h : s.Posted) (k : Nat) :
    (s.before xs k).Posted := by
  refine (before_induct (P := fun t => t.Numbered ∧ t.Posted) hs (fun t ht h x => ?_) (Nat.zero_le k)
    ⟨hn, h⟩).2
  have hserves := step_serves ht h.1 x
  exact ⟨hserves.numbered, (step_turn ht x).posted ht hserves.replies.log h.2⟩

/-! ## Correlation -/

/-- Step `i` of a run takes the response `f`, and completes the entry that the call `id` holds for its
frame. -/
def Resolves (s : Session) (xs : List Step) (i id : Nat) (frame f : Frame) : Prop :=
  frame.sequence = f.sequence ∧ ∃ x, xs[i]? = some x ∧ ∃ c ∈ (s.before xs i).calls, c.id = id ∧
    ∃ n, c.stage.entry? = some (frame, n) ∧ (s.before xs i).Completes x f n

/-- From `s` to `t` the response `f` is taken off the input, and forgotten. A closed session disconnects
once more. -/
def Forgets (s t : Session) (f : Frame) (rest : List UInt8) : Prop :=
  t = { s with input := rest, channel := t.channel, log := t.log } ∧
    (t.channel = s.channel ∨
      s.status = .closed ∧ t.channel = { s.channel with disconnects := s.channel.disconnects + 1 }) ∧
    ∃ new, t.log = new ++ .received f :: s.log ∧ ∀ e ∈ new, ∃ m, e = .measured m

/-- Along a run every call gets the response that is for it, and no other. -/
structure Correlated (s : Session) (xs : List Step) : Prop where
  /-- What a call returns has completed the entry of the frame that the call has sent. -/
  source : ∀ j, ∀ c ∈ (s.before xs j).calls, ∀ r, c.stage = .finished (.received r) →
    ∃ i < j, ∃ frame f, c.Makes frame ∧ (s.before xs j).Sent frame ∧ s.Resolves xs i c.id frame f ∧
      r = .ofFrame f
  /-- A response resolves at most one call. -/
  once : ∀ i a b frame frame' f f', s.Resolves xs i a frame f → s.Resolves xs i b frame' f' → a = b
  /-- A call is resolved at most once. -/
  alone : ∀ i j a frame frame' f f', s.Resolves xs i a frame f → s.Resolves xs j a frame' f' → i = j
  /-- A response that no call waits for changes nothing. -/
  stray : ∀ i f rest, xs[i]? = some (.move (.reader .read)) →
    (s.before xs i).can (.reader .read) = true → (s.before xs i).nextInput = .frame f rest →
    f.isResponse = true → (s.before xs i).window.contains f.sequence = false →
    (s.before xs i).Forgets (s.before xs (i + 1)) f rest

/-- What was written stays written. -/
theorem sent_step (hs : s.Orderly) (hn : s.Numbered) (x : Step) {f : Frame} (h : s.Sent f) :
    (s.step x).Sent f := by
  obtain ⟨octets, hoctets, hmem⟩ := h
  obtain ⟨new, log⟩ := (step_serves hs hn x).replies.log
  exact ⟨octets, hoctets, log ▸ List.mem_append_right _ hmem⟩

/-- A call that finds a response holds the entry that the response has completed. -/
theorem resolves_of_settled (hs : s.Orderly) (hnone : ∀ n, s.window.outcome? n = none) {j : Nat}
    {c : Call} (hc : c ∈ (s.before xs j).calls) {frame : Frame} {n : Nat}
    (hentry : c.stage.entry? = some (frame, n)) {f : Frame}
    (settled : (s.before xs j).window.outcome? n = some (.response f)) :
    ∃ i < j, s.Resolves xs i c.id frame f := by
  obtain ⟨i, hij, x, hx, hcompletes⟩ := response_source hs hnone settled
  have ⟨_, _, _, _, _, e, he, hid, hkey⟩ := hcompletes
  have horderly : (s.before xs i).Orderly := before_orderly hs i
  have hlt : n < (s.before xs i).window.nextId := hid ▸ horderly.sound.id_lt e he
  obtain ⟨b, hb, hbid, hbentry⟩ := entry_history hs hc hentry (Nat.le_of_lt hij) hlt
  have hsequence := (horderly.entry_key b hb frame n hbentry e he hid).1
  exact ⟨i, hij, hsequence.symm.trans hkey, x, hx, b, hb, hbid, n, hbentry, hcompletes⟩

theorem resolves_of_finished (hs : s.Orderly) (hn : s.Numbered) (hcalls : s.calls = [])
    (hnone : ∀ n, s.window.outcome? n = none) {j : Nat} {c : Call} (hc : c ∈ (s.before xs j).calls)
    {r : Received} (hstage : c.stage = .finished (.received r)) :
    ∃ i < j, ∃ frame f, c.Makes frame ∧ (s.before xs j).Sent frame ∧ s.Resolves xs i c.id frame f ∧
      r = .ofFrame f := by
  induction j with
  | zero =>
    have hc : c ∈ s.calls := hc
    simp [hcalls] at hc
  | succ j ih =>
    cases hj : xs[j]? with
    | none =>
      rw [before_succ_of_none hj] at hc ⊢
      obtain ⟨i, hij, h⟩ := ih hc
      exact ⟨i, by omega, h⟩
    | some x =>
      rw [before_succ hj] at hc ⊢
      have horderly : (s.before xs j).Orderly := before_orderly hs j
      have hnumbered : (s.before xs j).Numbered := before_numbered hs hn j
      rcases (step_turn horderly x).finished horderly hc hstage with
        hc | ⟨b, hb, stage, rfl, frame, since, w, f, hwait, settled, hr⟩
      · obtain ⟨i, hij, frame, f, makes, sent, h⟩ := ih hc
        exact ⟨i, by omega, frame, f, makes, sent_step horderly hnumbered x sent, h⟩
      · obtain ⟨i, hij, h⟩ := resolves_of_settled hs hnone hb (by rw [hwait]; rfl) settled
        have makes := (horderly.fits b hb).makes frame (by rw [hwait]; rfl)
        have posted : (s.before xs j).Posted := before_posted hs hn (by simp [Posted, hcalls]) j
        have sent := posted b hb frame since w hwait
        exact ⟨i, by omega, frame, f, makes.at stage, sent_step horderly hnumbered x sent, h, hr⟩

theorem Resolves.eq (hs : s.Orderly) {i a b : Nat} {frame frame' f f' : Frame}
    (h : s.Resolves xs i a frame f) (h' : s.Resolves xs i b frame' f') : a = b := by
  obtain ⟨-, x, -, c, hc, rfl, n, hentry, -, -, -, ⟨rest, input⟩, -, e, he, rfl, hkey⟩ := h
  obtain ⟨-, x', -, d, hd, rfl, n', hentry', -, -, -, ⟨rest', input'⟩, -, e', he', rfl, hkey'⟩ := h'
  have horderly : (s.before xs i).Orderly := before_orderly hs i
  obtain ⟨rfl, -⟩ : f = f' ∧ rest = rest' := by simpa [input] using input'
  obtain rfl := horderly.sound.eq_of_key he he' (hkey.trans hkey'.symm)
  exact horderly.entry_own c hc d hd e.id ⟨frame, hentry⟩ ⟨frame', hentry'⟩

/-- What has been completed is gone. -/
theorem Completes.gone (hs : s.Orderly) {x : Step} {f : Frame} {n : Nat} (h : s.Completes x f n) :
    ∀ e ∈ (s.step x).window.entries, e.id ≠ n := by
  obtain ⟨rfl, can, going, ⟨rest, input⟩, response, d, hd, rfl, hkey⟩ := h
  obtain ⟨m, ⟨closed, -⟩ | ⟨-, hstep⟩⟩ := step_response can input response
  · exact absurd closed going
  · intro e he hid
    rw [hstep] at he
    obtain ⟨he, hne⟩ := (complete_turns s.now f.sequence hs.sound f).mem_of_mem he
    rw [hs.sound.eq_of_id he hd hid] at hne
    simp [hkey] at hne

theorem Resolves.not_lt (hs : s.Orderly) {i j a : Nat} {frame frame' f f' : Frame}
    (h : s.Resolves xs i a frame f) (h' : s.Resolves xs j a frame' f') : ¬ i < j := by
  intro hij
  obtain ⟨-, x, hx, c, hc, rfl, n, hentry, hcompletes⟩ := h
  obtain ⟨-, x', -, d, hd, hid, n', hentry', -, -, -, -, -, e, he, rfl, -⟩ := h'
  have horderly : (s.before xs i).Orderly := before_orderly hs i
  have hn := horderly.entry_lt c hc frame n hentry
  -- The call still holds the entry that was completed, but the table does not.
  have hsame : e.id = n := by
    rcases entry_stays hs (Nat.le_of_lt hij) hc hentry d hd hid with h | ⟨result, h⟩
    · rw [h] at hentry'
      simpa using (Prod.mk.inj (Option.some.inj hentry')).2.symm
    · simp [h, CallStage.entry?] at hentry'
  have hgone := hcompletes.gone horderly
  rw [← before_succ hx] at hgone
  have hmono : (s.before xs i).window.nextId ≤ (s.before xs (i + 1)).window.nextId :=
    nextId_mono hs (Nat.le_succ i)
  exact gone_stays hs hij (Nat.lt_of_lt_of_le hn hmono) hgone e he hsame

theorem forgets_of_stray (hs : s.Shut) {f : Frame} {rest : List UInt8}
    (can : s.can (.reader .read) = true) (input : s.nextInput = .frame f rest) (hf : f.isResponse = true)
    (stray : s.window.contains f.sequence = false) :
    s.Forgets (s.step (.move (.reader .read))) f rest := by
  obtain ⟨m, ⟨closed, hstep⟩ | ⟨-, hstep⟩⟩ := step_response can input hf
  · obtain ⟨shut, cut⟩ := hs closed
    rw [hstep]
    refine ⟨?_, .inr ⟨closed, ?_⟩, [.measured m], rfl, by simp⟩
    · rw [← shut]
    · rw [← cut]
  · have hwindow : (s.window.complete s.now f.sequence f).1 = s.window := by
      have hnone : s.window.find? f.sequence = none := by simpa [contains] using stray
      rw [complete, hnone]
    rw [hstep, hwindow]
    refine ⟨rfl, .inl rfl, [.measured .windowUnmatched, .measured m], ?_, by simp⟩
    simp [stray]

/-- However calls, responses, timeouts, sweeps and disconnects follow one another, every call that returns
a response returns one that came for it. -/
theorem responses_correlated (id : UInt32) (peer : Option SocketAddress) (serverSystemId : String)
    (settings : SessionSettings) (processor : Nat) (now : Instant) (xs : List Step) :
    (fresh id peer serverSystemId settings processor now).Correlated xs where
  source j c hc r hstage :=
    resolves_of_finished (fresh_orderly ..) (fresh_numbered ..) rfl (fun _ => rfl) hc hstage
  once i a b frame frame' f f' h h' := h.eq (fresh_orderly ..) h'
  alone i j a frame frame' f f' h h' := by
    have hij := h.not_lt (fresh_orderly ..) h'
    have hji := h'.not_lt (fresh_orderly ..) h
    omega
  stray i f rest hx can input hf stray := by
    rw [before_succ hx]
    exact forgets_of_stray (before_shut (fresh_orderly ..) (by simp [Shut, fresh]) i) can input hf stray

end Smsc.Session
