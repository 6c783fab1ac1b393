import Smsc.Proofs.History
import Smsc.Proofs.Session.Steps

/-!
# Smsc.Proofs.Session.Tasks — what one step does to the calls and the window

* `Orderly s`: the table is sound, tasks have ids of their own, and every call knows its entry;
* `Turn s x t`: the step `x` from `s` to `t` as the calls and the window see it;
* `step_turn`, `step_orderly`: one step of a session;
* `Session.before s xs k`, `before_orderly`, `before_induct`: along a run.
-/

namespace Smsc.Session

open Window

variable {s t : Session}

/-- Ids tell the calls apart, the table is sound, and every call knows its entry. -/
structure Orderly (s : Session) : Prop where
  sound : s.window.Sound
  call_ids : (s.calls.map (·.id)).Nodup
  call_lt : ∀ c ∈ s.calls, c.id < s.nextTask
  fits : ∀ c ∈ s.calls, c.Fits
  entry_lt : ∀ c ∈ s.calls, ∀ f i, c.stage.entry? = some (f, i) → i < s.window.nextId
  entry_key : ∀ c ∈ s.calls, ∀ f i, c.stage.entry? = some (f, i) →
    ∀ e ∈ s.window.entries, e.id = i → e.key = f.sequence ∧ e.request = f
  entry_own : ∀ a ∈ s.calls, ∀ b ∈ s.calls, ∀ i, a.Owns i → b.Owns i → a.id = b.id

/-- A step as the calls and the window see it. -/
inductive Turn (s : Session) (x : Step) (t : Session) : Prop where
  /-- The calls are left alone, and nobody gets a response. -/
  | apart (tasks : s.nextTask ≤ t.nextTask) (calls : t.calls = s.calls)
      (keeps : s.window.Keeps t.window (fun _ => False))
  /-- A response completes the request under its number, if there is one. -/
  | completes (f : Frame) (rest : List UInt8) (step_eq : x = .move (.reader .read))
      (can : s.can (.reader .read) = true) (input : s.nextInput = .frame f rest)
      (response : f.isResponse = true) (going : s.status ≠ .closed) (tasks : s.nextTask ≤ t.nextTask)
      (calls : t.calls = s.calls) (window : t.window = (s.window.complete s.now f.sequence f).1)
  | begins (c : Call) (id_eq : c.id = s.nextTask) (lt : s.nextTask < t.nextTask)
      (stage : c.stage = .starting) (calls : t.calls = s.calls ++ [c]) (window : t.window = s.window)
  | drops (c : Call) (mem : c ∈ s.calls) (tasks : s.nextTask ≤ t.nextTask)
      (calls : t.calls = s.calls.filter (·.id ≠ c.id))
      (keeps : s.window.Keeps t.window c.Owns)
  | goes (c : Call) (mem : c ∈ s.calls) (stage : CallStage) (tasks : s.nextTask ≤ t.nextTask)
      (calls : t.calls = (s.setCall c.id stage).calls) (turn : s.CallTurn c t stage)

/-! ## One step -/

theorem Handles.turn (hw : s.window.Sound) {f : Frame} {rest : List UInt8}
    (can : s.can (.reader .read) = true) (input : s.nextInput = .frame f rest)
    (h : { s with input := rest }.Handles f t) : s.Turn (.move (.reader .read)) t := by
  cases h with
  | drops m closed => exact .apart (Nat.le_refl _) rfl (.refl hw)
  | completes m going kind =>
    exact .completes f rest rfl can input (Frame.kind_eq_response.mp kind) going (Nat.le_refl _) rfl rfl
  | rejects m m' status rule => exact .apart (Nat.le_refl _) rfl (.refl hw)
  | dispatches m rule => exact .apart (Nat.le_refl _) rfl (.refl hw)

theorem Settles.turn {u : Session} (h : s.Settles u) (hw : s.window.Sound) (x : Step)
    (tasks : t.nextTask = u.nextTask) (calls : t.calls = u.calls) (window : t.window = u.window) :
    s.Turn x t := by
  refine .apart (Nat.le_of_eq (tasks.trans h.nextTask).symm) (calls.trans h.calls) ?_
  rw [window, h.window]
  exact .refl hw

theorem Works.turn (hw : s.window.Sound) {k : Nat} (h : s.Works k t) (x : Step) : s.Turn x t := by
  cases h with
  | ends u same => rcases same with rfl | ⟨m, rfl⟩ <;> exact .apart (Nat.le_refl _) rfl (.refl hw)
  | pauses wake plan => exact .apart (Nat.le_refl _) rfl (.refl hw)
  | holds plan => exact .apart (Nat.le_refl _) rfl (.refl hw)
  | answers u plan f settles => exact settles.turn hw x rfl rfl rfl
  | refused u plan settles => exact settles.turn hw x rfl rfl rfl

theorem sweep_keeps (hw : s.window.Sound) : s.window.Keeps s.sweep.window (fun _ => False) := by
  have hkeeps : s.window.Keeps (s.window.expire s.now).1 (fun _ => False) :=
    (expire_turns s.now hw).keeps hw (by simp) (by simp)
  unfold sweep
  dsimp only
  split <;> exact hkeeps

theorem sweep_calls (s : Session) : s.sweep.calls = s.calls ∧ s.sweep.nextTask = s.nextTask := by
  unfold sweep
  dsimp only
  split <;> exact ⟨rfl, rfl⟩

theorem closeReply_turn {u : Session} (hw : s.window.Sound) (k : Nat) (f : Frame) {x : Step}
    (closes : u = s.closeReply k f) (tasks : t.nextTask = u.nextTask) (calls : t.calls = u.calls)
    (window : t.window = u.window) : s.Turn x t := by
  subst closes
  refine .apart (Nat.le_of_eq ?_) (calls.trans (closeReply_calls s k f)) ?_
  · rw [tasks, (closeReply_beside s k f).nextTask]
  · rw [window]
    exact closeReply_keeps hw k f _

theorem ReaderTurn.turn {m : ReaderMove} (h : s.ReaderTurn m t) (hw : s.window.Sound)
    (can : s.can (.reader m) = true) : s.Turn (.move (.reader m)) t := by
  cases h with
  | stops stage => exact .apart (Nat.le_refl _) rfl (disconnect_keeps hw _)
  | reads stage _ reads =>
    cases reads with
    | frame f rest input handles => exact handles.turn hw can input
    | fault rest m => exact .apart (Nat.le_refl _) rfl (disconnect_keeps (s := measure _ m) hw _)
    | ends => exact .apart (Nat.le_refl _) rfl (disconnect_keeps hw _)
  | sweeps stage => exact .apart (Nat.le_of_eq (sweep_calls s).2.symm) (sweep_calls s).1 (sweep_keeps hw)
  | refuses f stage u sends =>
    subst sends
    refine .apart (Nat.le_of_eq (Beside.transmit s f).nextTask.symm) (transmit_calls s f) ?_
    show s.window.Keeps (s.transmit f).1.window _
    rw [transmit_window]
    exact .refl hw
  | answers f k plan stage u closes => exact closeReply_turn hw k f closes rfl rfl rfl
  | works k plan stage _ works => exact works.turn hw _
  | wakes wake k plan stage => exact .apart (Nat.le_refl _) rfl (.refl hw)

theorem AnswerTurn.turn {a : Answer} (h : s.AnswerTurn a t) (hw : s.window.Sound) (x : Step) :
    s.Turn x t := by
  cases h with
  | opens stage u f settles => exact settles.turn hw x rfl rfl rfl
  | refused stage u settles => exact settles.turn hw x rfl rfl rfl
  | closes f stage u closes => exact closeReply_turn hw a.responder f closes rfl rfl rfl
  | rests => exact .apart (Nat.le_refl _) rfl (.refl hw)

theorem Feels.turn (h : s.Feels t) (hs : s.Orderly) (x : Step) : s.Turn x t := by
  have hw := hs.sound
  cases h with
  | aside _ same =>
    rw [same]
    exact .apart (Nat.le_refl _) rfl (.refl hw)
  | begins purpose request timeout => exact .begins _ rfl (Nat.lt_succ_self _) rfl rfl rfl
  | drops c mem =>
    obtain ⟨hbeside, hcalls, hkeeps⟩ := dropCall_step hw c
    exact .drops c mem (Nat.le_of_eq hbeside.nextTask.symm) hcalls hkeeps
  | answers k reply => exact .apart (Nat.le_succ _) rfl (.refl hw)
  | forgets a mem =>
    unfold dropAnswer
    split <;> exact .apart (Nat.le_refl _) rfl (.refl hw)
  | ends => exact .apart (Nat.le_refl _) rfl (disconnect_keeps hw _)
  | works k p request plan stage => exact .apart (Nat.le_refl _) rfl (.refl hw)

theorem Orderly.happens (h : s.Orderly) (x : Step) : s.Happens x (s.step x) :=
  step_happens h.sound h.call_ids h.fits x

/-- One step of a session as the calls and the window see it. -/
theorem step_turn (h : s.Orderly) (x : Step) : s.Turn x (s.step x) := by
  have hhappens := h.happens x
  generalize s.step x = t at hhappens
  cases hhappens with
  | feels x _ feels => exact feels.turn h _
  | reader m can _ turn => exact turn.turn h.sound can
  | call id c mem _ step =>
    obtain ⟨hbeside, stage, hcalls, hturn⟩ := step
    exact .goes c mem stage (Nat.le_of_eq hbeside.nextTask.symm) hcalls hturn
  | answer id a mem _ turn => exact turn.turn h.sound _
  | nothing m => exact .apart (Nat.le_refl _) rfl (.refl h.sound)

/-! ## What every step keeps -/

theorem mem_setCall (hids : (s.calls.map (·.id)).Nodup) {c : Call} (hc : c ∈ s.calls) {stage : CallStage}
    {b : Call} (hb : b ∈ (s.setCall c.id stage).calls) :
    b = { c with stage } ∨ b ∈ s.calls ∧ b.id ≠ c.id := by
  obtain ⟨a, ha, rfl⟩ := List.mem_map.mp hb
  by_cases hid : a.id = c.id
  · obtain rfl := List.inj_on_of_nodup_map hids ha hc hid
    simp
  · exact .inr (by simpa [hid] using ha)

theorem setCall_ids (s : Session) (id : Nat) (stage : CallStage) :
    (s.setCall id stage).calls.map (·.id) = s.calls.map (·.id) := by
  show (s.calls.map _).map _ = _
  rw [List.map_map]
  refine List.map_congr_left fun a _ => ?_
  by_cases hid : a.id = id <;> simp [hid]

namespace Orderly

/-- Calls may go, and entries of calls that stay keep their keys. -/
theorem shrink (h : s.Orderly) (tasks : s.nextTask ≤ t.nextTask) (calls : t.calls.Sublist s.calls)
    (follows : s.window.Follows t.window) : t.Orderly where
  sound := follows.sound
  call_ids := h.call_ids.sublist (calls.map _)
  call_lt c hc := Nat.lt_of_lt_of_le (h.call_lt c (calls.subset hc)) tasks
  fits c hc := h.fits c (calls.subset hc)
  entry_lt c hc f i hi := Nat.lt_of_lt_of_le (h.entry_lt c (calls.subset hc) f i hi) follows.nextId_le
  entry_key c hc f i hi e he hid := by
    rcases follows.old e he with he | hle
    · exact h.entry_key c (calls.subset hc) f i hi e he hid
    · have := h.entry_lt c (calls.subset hc) f i hi
      omega
  entry_own a ha b hb := h.entry_own a (calls.subset ha) b (calls.subset hb)

theorem begins (h : s.Orderly) {c : Call} (id_eq : c.id = s.nextTask) (lt : s.nextTask < t.nextTask)
    (stage : c.stage = .starting) (calls : t.calls = s.calls ++ [c]) (window : t.window = s.window) :
    t.Orderly := by
  have hmem : ∀ b ∈ t.calls, b ∈ s.calls ∨ b = c := by
    intro b hb
    simpa [calls] using hb
  have hnone : ∀ f i, c.stage.entry? ≠ some (f, i) := by simp [stage, CallStage.entry?]
  refine ⟨window ▸ h.sound, ?_, ?_, ?_, ?_, ?_, ?_⟩
  · rw [calls, List.map_append, List.nodup_append]
    refine ⟨h.call_ids, by simp, ?_⟩
    intro i hi j hj hij
    obtain ⟨b, hb, rfl⟩ := List.mem_map.mp hi
    obtain rfl : j = c.id := by simpa using hj
    have := h.call_lt b hb
    omega
  · intro b hb
    rcases hmem b hb with hb | rfl
    · exact Nat.lt_trans (h.call_lt b hb) lt
    · omega
  · intro b hb
    rcases hmem b hb with hb | rfl
    · exact h.fits b hb
    · exact ⟨by simp [stage, CallStage.frame?], by simp [stage], by simp [stage]⟩
  · intro b hb f i hi
    rcases hmem b hb with hb | rfl
    · exact window ▸ h.entry_lt b hb f i hi
    · exact absurd hi (hnone f i)
  · intro b hb f i hi
    rcases hmem b hb with hb | rfl
    · exact window ▸ h.entry_key b hb f i hi
    · exact absurd hi (hnone f i)
  · rintro a ha b hb i ⟨f, hi⟩ ⟨g, hj⟩
    rcases hmem a ha with ha | rfl
    · rcases hmem b hb with hb | rfl
      · exact h.entry_own a ha b hb i ⟨f, hi⟩ ⟨g, hj⟩
      · exact absurd hj (hnone g i)
    · exact absurd hi (hnone f i)

/-- A call that goes on holds the entry it held, or a new one that nobody else holds. -/
theorem goes (h : s.Orderly) {c : Call} (hc : c ∈ s.calls) {stage : CallStage}
    (tasks : s.nextTask ≤ t.nextTask) (calls : t.calls = (s.setCall c.id stage).calls)
    (follows : s.window.Follows t.window) (fits : Call.Fits { c with stage })
    (entry : ∀ f i, stage.entry? = some (f, i) → c.stage.entry? = some (f, i) ∨
      i = s.window.nextId ∧ i < t.window.nextId ∧
        ∀ e ∈ t.window.entries, e.id = i → e.key = f.sequence ∧ e.request = f) : t.Orderly := by
  have hmem : ∀ b ∈ t.calls, b = { c with stage } ∨ b ∈ s.calls ∧ b.id ≠ c.id := by
    intro b hb
    rw [calls] at hb
    exact mem_setCall h.call_ids hc hb
  have hlt : ∀ b ∈ s.calls, ∀ f i, b.stage.entry? = some (f, i) → i < t.window.nextId :=
    fun b hb f i hi => Nat.lt_of_lt_of_le (h.entry_lt b hb f i hi) follows.nextId_le
  have hkey : ∀ b ∈ s.calls, ∀ f i, b.stage.entry? = some (f, i) →
      ∀ e ∈ t.window.entries, e.id = i → e.key = f.sequence ∧ e.request = f := by
    intro b hb f i hi e he hid
    rcases follows.old e he with he | hle
    · exact h.entry_key b hb f i hi e he hid
    · have := h.entry_lt b hb f i hi
      omega
  have hother : ∀ b ∈ s.calls, b.id ≠ c.id → ∀ f g i, stage.entry? = some (f, i) →
      b.stage.entry? = some (g, i) → False := by
    intro b hb hne f g i hi hj
    rcases entry f i hi with hi | ⟨rfl, -, -⟩
    · exact hne (h.entry_own b hb c hc i ⟨g, hj⟩ ⟨f, hi⟩)
    · exact Nat.lt_irrefl _ (h.entry_lt b hb g _ hj)
  refine ⟨follows.sound, by rw [calls, setCall_ids]; exact h.call_ids, ?_, ?_, ?_, ?_, ?_⟩
  · intro b hb
    rcases hmem b hb with rfl | ⟨hb, -⟩
    · exact Nat.lt_of_lt_of_le (h.call_lt c hc) tasks
    · exact Nat.lt_of_lt_of_le (h.call_lt b hb) tasks
  · intro b hb
    rcases hmem b hb with rfl | ⟨hb, -⟩
    · exact fits
    · exact h.fits b hb
  · intro b hb f i hi
    rcases hmem b hb with rfl | ⟨hb, -⟩
    · exact (entry f i hi).elim (hlt c hc f i) (·.2.1)
    · exact hlt b hb f i hi
  · intro b hb f i hi
    rcases hmem b hb with rfl | ⟨hb, -⟩
    · exact (entry f i hi).elim (hkey c hc f i) (·.2.2)
    · exact hkey b hb f i hi
  · rintro a ha b hb i ⟨f, hi⟩ ⟨g, hj⟩
    rcases hmem a ha with rfl | ⟨ha, hane⟩
    · rcases hmem b hb with rfl | ⟨hb, hbne⟩
      · rfl
      · exact (hother b hb hbne f g i hi hj).elim
    · rcases hmem b hb with rfl | ⟨hb, hbne⟩
      · exact (hother a ha hane g f i hj hi).elim
      · exact h.entry_own a ha b hb i ⟨f, hi⟩ ⟨g, hj⟩

end Orderly

theorem CallTurn.follows (hw : s.window.Sound) {c : Call} {stage : CallStage}
    (turn : s.CallTurn c t stage) : s.window.Follows t.window := by
  cases turn with
  | waits same =>
    rw [same]
    exact .refl hw
  | queues frame p unplaced makes key_eq request_eq turns => exact turns.follows hw
  | admits frame e unplaced makes key_eq request_eq turns => exact turns.follows hw
  | writes frame entry deadline stage_eq same sent =>
    rw [same]
    exact .refl hw
  | gets frame since x response stage_eq settled keeps => exact keeps.toFollows
  | fails result none_received keeps => exact keeps.toFollows

theorem Turn.follows (hs : s.Orderly) {x : Step} (turn : s.Turn x t) : s.window.Follows t.window := by
  cases turn with
  | apart tasks calls keeps => exact keeps.toFollows
  | completes f rest _ _ _ _ _ tasks calls window =>
    rw [window]
    exact (complete_turns s.now f.sequence hs.sound f).follows hs.sound
  | begins c id_eq lt stage calls window =>
    rw [window]
    exact .refl hs.sound
  | drops c mem tasks calls keeps => exact keeps.toFollows
  | goes c mem stage tasks calls turn => exact turn.follows hs.sound

theorem Turn.tasks {x : Step} (turn : s.Turn x t) : s.nextTask ≤ t.nextTask := by
  cases turn with
  | apart tasks | completes _ _ _ _ _ _ _ tasks | drops _ _ tasks | goes _ _ _ tasks => exact tasks
  | begins c id_eq lt => exact Nat.le_of_lt lt

/-- A call was there before, begins, or has gone on. -/
theorem Turn.call (hs : s.Orderly) {x : Step} (turn : s.Turn x t) {c : Call} (hc : c ∈ t.calls) :
    c ∈ s.calls ∨ (c.stage = .starting ∧ c.id = s.nextTask) ∨
      ∃ b ∈ s.calls, ∃ stage, c = { b with stage } ∧ s.CallTurn b t stage := by
  cases turn with
  | apart tasks calls keeps => exact .inl (calls ▸ hc)
  | completes g rest step_eq can input response going tasks calls window => exact .inl (calls ▸ hc)
  | begins b id_eq lt stage calls window =>
    rcases List.mem_append.mp (calls ▸ hc) with hc | hc
    · exact .inl hc
    · obtain rfl : c = b := by simpa using hc
      exact .inr (.inl ⟨stage, id_eq⟩)
  | drops b mem tasks calls keeps =>
    rw [calls] at hc
    exact .inl (List.mem_of_mem_filter hc)
  | goes b mem stage tasks calls turn =>
    rw [calls] at hc
    rcases mem_setCall hs.call_ids mem hc with rfl | ⟨hc, -⟩
    · exact .inr (.inr ⟨b, mem, stage, rfl, turn⟩)
    · exact .inl hc

/-- A call without an entry, or at its end, fits. -/
theorem fits_finished (c : Call) (result : CallResult) : Call.Fits { c with stage := .finished result } :=
  ⟨by simp [CallStage.frame?], by simp, by simp⟩

theorem CallTurn.orderly (h : s.Orderly) {c : Call} (hc : c ∈ s.calls) {stage : CallStage}
    (tasks : s.nextTask ≤ t.nextTask) (calls : t.calls = (s.setCall c.id stage).calls)
    (turn : s.CallTurn c t stage) : t.Orderly := by
  have hfits := h.fits c hc
  have follows := turn.follows h.sound
  cases turn with
  | waits same =>
    exact h.goes hc tasks calls follows hfits fun f i hi => .inl hi
  | queues frame p unplaced makes key_eq request_eq turns =>
    refine h.goes hc tasks calls follows ⟨?_, ?_, by simp⟩ (by simp [CallStage.entry?])
    · rintro f ⟨⟩
      exact makes.at _
    · rintro f q ⟨⟩
      exact ⟨key_eq, request_eq⟩
  | admits frame e unplaced makes key_eq request_eq turns =>
    obtain ⟨hid, hlt⟩ := turns.fresh_id e rfl
    have hsound := turns.sound h.sound
    refine h.goes hc tasks calls follows ⟨?_, by simp, by simp⟩ ?_
    · rintro f ⟨⟩
      exact makes.at _
    · rintro f i ⟨⟩
      refine .inr ⟨hid, hid ▸ hlt, fun a ha haid => ?_⟩
      rw [hsound.eq_of_id ha (turns.mem_iff.mpr (.inr rfl)) haid]
      exact ⟨key_eq, request_eq⟩
  | writes frame entry deadline stage_eq same sent =>
    refine h.goes hc tasks calls follows ⟨?_, by simp, ?_⟩ ?_
    · rintro f ⟨⟩
      exact (hfits.makes frame (by rw [stage_eq]; rfl)).at _
    · rintro f since x ⟨⟩
      rfl
    · rintro f i ⟨⟩
      exact .inl (by rw [stage_eq]; rfl)
  | gets frame since x response stage_eq settled keeps =>
    exact h.goes hc tasks calls follows (fits_finished c _) (by simp [CallStage.entry?])
  | fails result none_received keeps =>
    exact h.goes hc tasks calls follows (fits_finished c _) (by simp [CallStage.entry?])

theorem Turn.orderly (h : s.Orderly) {x : Step} (turn : s.Turn x t) : t.Orderly := by
  have follows := turn.follows h
  cases turn with
  | apart tasks calls keeps => exact h.shrink tasks (by rw [calls]) follows
  | completes f rest _ _ _ _ _ tasks calls window => exact h.shrink tasks (by rw [calls]) follows
  | begins c id_eq lt stage calls window => exact h.begins id_eq lt stage calls window
  | drops c mem tasks calls keeps =>
    exact h.shrink tasks (by rw [calls]; exact List.filter_sublist) follows
  | goes c mem stage tasks calls turn => exact turn.orderly h mem tasks calls

theorem step_orderly (h : s.Orderly) (x : Step) : (s.step x).Orderly := (step_turn h x).orderly h

theorem fresh_orderly (id : UInt32) (peer : Option SocketAddress) (serverSystemId : String)
    (settings : SessionSettings) (processor : Nat) (now : Instant) :
    (fresh id peer serverSystemId settings processor now).Orderly where
  sound := sound_ofCapacity _
  call_ids := by simp [fresh]
  call_lt := by simp [fresh]
  fits := by simp [fresh]
  entry_lt := by simp [fresh]
  entry_key := by simp [fresh]
  entry_own := by simp [fresh]

/-! ## Runs -/

/-- The state before the `k`-th step of a run. -/
def before (s : Session) (xs : List Step) (k : Nat) : Session := s.after (xs.take k)

variable {xs : List Step} {k : Nat}

theorem before_succ {x : Step} (hk : xs[k]? = some x) :
    s.before xs (k + 1) = (s.before xs k).step x :=
  stateAt_succ hk

theorem before_succ_of_none (hk : xs[k]? = none) : s.before xs (k + 1) = s.before xs k :=
  stateAt_succ_of_none hk

theorem before_length (s : Session) (xs : List Step) : s.before xs xs.length = s.after xs :=
  stateAt_length

theorem before_orderly (h : s.Orderly) (k : Nat) : (s.before xs k).Orderly :=
  stateAt_induct (Nat.zero_le k) (fun _ x _ _ _ h => step_orderly h x) h

/-- What every step of an orderly session keeps, every stretch of a run keeps. -/
theorem before_induct {P : Session → Prop} (h : s.Orderly)
    (step : ∀ t : Session, t.Orderly → P t → ∀ x, P (t.step x)) {l : Nat} (hkl : k ≤ l)
    (hk : P (s.before xs k)) : P (s.before xs l) :=
  stateAt_induct hkl (fun i x _ _ _ hi => step _ (before_orderly h i) hi x) hk

end Smsc.Session
