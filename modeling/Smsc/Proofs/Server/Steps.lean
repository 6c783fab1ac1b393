import Smsc.Proofs.Server.Tasks

/-!
# Smsc.Proofs.Server.Steps — what a step of a server can do

* `SessionsRun s t`: every session of `s` has come to its state in `t` by a run of its own;
* `Feels s t`, `feel_feels`: what a stimulus changes at once; `Felt`: what that means for a task;
* `Happens s x t`, `step_happens`: a step of a server, one constructor for each kind. Whatever is kept by
  every step is proved over it;
* `Awaits`, `step_awaits`: what becomes of a task in a step of others; `Fresh`, `step_fresh`: of one that
  has come with it;
* `before_induct`, `after_induct`: along a run.
-/

namespace Smsc.Server

variable {s t u : Server} {id : Nat} {a b : Activity}

/-! ## Sessions go on -/

/-- From `s` to `t` the sessions are the same, and each of them went on by itself. -/
structure SessionsRun (s t : Server) : Prop where
  length : t.sessions.length = s.sessions.length
  runs : ∀ n x, s.session? n = some x → ∃ y, t.session? n = some y ∧ x.Runs y

theorem SessionsRun.of_eq (same : t.sessions = s.sessions) : s.SessionsRun t :=
  ⟨by rw [same], fun n x hx => ⟨x, by rw [session?, same]; exact hx, .refl⟩⟩

theorem updateSession_sessionsRun (s : Server) (n : Nat) {f : Session → Session}
    (runs : ∀ x, s.session? n = some x → x.Runs (f x)) : s.SessionsRun (s.updateSession n f) := by
  unfold updateSession
  split
  · rename_i x hx
    refine ⟨by simp, fun m y hy => ?_⟩
    unfold session? at *
    by_cases hm : n = m
    · subst hm
      obtain rfl : x = y := Option.some.inj (hx.symm.trans hy)
      exact ⟨f x, by simp [(List.getElem?_eq_some_iff.mp hx).1], runs x hx⟩
    · exact ⟨y, by simpa [List.getElem?_set_ne hm] using hy, .refl⟩
  · exact .of_eq rfl

/-! ## Stimuli -/

/-- A call of start that waits for the host has its answer. -/
inductive StartAnswered (s : Server) : StartStage → StartStage → Prop where
  | bound : StartAnswered s .binding .naming
  | unbound (cause : String) :
      StartAnswered s .binding (.givingUp (.channel (.bind s.settings.address cause)))
  | named (address : SocketAddress) : StartAnswered s .naming (.spawning address)
  | unnamed (cause : String) : StartAnswered s .naming (.givingUp (.channel (.io cause)))

/-- What a stimulus changes at once. -/
inductive Feels (s : Server) : Server → Prop where
  | asks (a : Activity) (asking : a = .start .asking ∨ a = .stop .asking) : Feels s (s.addTask a)
  | answers (id : Nat) (stage next : StartStage) (found : s.activity? id = some (.start stage))
      (answered : s.StartAnswered stage next) : Feels s (s.setTask id (.start next))
  | connects (id : Nat) (x : Acceptor) (found : s.activity? id = some (.accept x))
      (backlog : List Arrival) : Feels s (s.setTask id (.accept { x with backlog }))
  /-- The time, the processor, the listener, or something that concerns a session. -/
  | aside (t : Server) (same : t = { s with
        now := t.now, processor := t.processor, hasListener := t.hasListener, sessions := t.sessions })
      (listener : s.hasListener = true → t.hasListener = true) (sessions : s.SessionsRun t) : Feels s t

theorem Feels.refl (s : Server) : s.Feels s := .aside s rfl id (.of_eq rfl)

theorem bound_feels (s : Server) (id : Nat) (r : Except String Unit) : s.Feels (s.bound id r) := by
  unfold bound
  split
  · rename_i i found
    have hfound : s.activity? id = some (.start .binding) := by rw [activity?, found]; rfl
    cases r with
    | ok _ => exact .answers id _ _ hfound .bound
    | error cause => exact .answers id _ _ hfound (.unbound cause)
  · exact .refl s

theorem named_feels (s : Server) (id : Nat) (r : Except String SocketAddress) : s.Feels (s.named id r) := by
  unfold named
  split
  · rename_i i found
    have hfound : s.activity? id = some (.start .naming) := by rw [activity?, found]; rfl
    cases r with
    | ok address => exact .answers id _ _ hfound (.named address)
    | error cause => exact .answers id _ _ hfound (.unnamed cause)
  · exact .refl s

theorem feel_feels (s : Server) (x : ServerStimulus) : s.Feels (s.feel x) := by
  cases x with
  | start => exact .asks _ (.inl rfl)
  | stop => exact .asks _ (.inr rfl)
  | bound id r => exact bound_feels s id r
  | named id r => exact named_feels s id r
  | connect id a =>
    rw [feel]
    split
    · rename_i x found
      exact .connects id x (acceptor?_eq_some.mp found) _
    · exact .refl s
  | elapse d =>
    refine .aside _ rfl (fun h => h) ⟨by simp [feel], fun n x hx => ?_⟩
    exact ⟨x.feel (.elapse d), by simpa [feel, session?] using ⟨x, hx, rfl⟩, .feel _ .refl⟩
  | install | listen => exact .aside _ rfl (by simp [feel]) (.of_eq rfl)
  | session n x =>
    have hupdate : s.Feels (s.updateSession n fun y => y.feel x) :=
      .aside _ (by rw [updateSession_same]) (by rw [updateSession_same]; exact fun h => h)
        (updateSession_sessionsRun s n fun y _ => .feel x .refl)
    cases x with
    | elapse d => exact .refl s
    | _ => exact hupdate

/-- What a task may be about after a stimulus. -/
inductive Felt (s : Server) (j : Nat) : Activity → Prop where
  | stays {c : Activity} (found : s.activity? j = some c) : Felt s j c
  | asked {c : Activity} (asking : c = .start .asking ∨ c = .stop .asking) : Felt s j c
  | answered {stage next : StartStage} (found : s.activity? j = some (.start stage))
      (answered : s.StartAnswered stage next) : Felt s j (.start next)
  | connected {x : Acceptor} (found : s.activity? j = some (.accept x)) (backlog : List Arrival) :
      Felt s j (.accept { x with backlog })

theorem Feels.activity? (feels : s.Feels t) (h : s.Numbered) {j : Nat} {c : Activity}
    (hj : t.activity? j = some c) : s.Felt j c := by
  cases feels with
  | asks a asking =>
    rw [activity?_addTask h] at hj
    split at hj
    · obtain rfl := Option.some.inj hj
      exact .asked asking
    · exact .stays hj
  | answers id stage next found answered =>
    rw [activity?_setTask] at hj
    split at hj
    · rename_i hid
      obtain ⟨_, -, rfl⟩ := Option.map_eq_some_iff.mp hj
      exact .answered (hid ▸ found) answered
    · exact .stays hj
  | connects id x found backlog =>
    rw [activity?_setTask] at hj
    split at hj
    · rename_i hid
      obtain ⟨_, -, rfl⟩ := Option.map_eq_some_iff.mp hj
      exact .connected (hid ▸ found) backlog
    · exact .stays hj
  | aside t same => exact .stays ((activity?_congr (by rw [same]) j).symm.trans hj)

/-! ## Steps -/

/-- A step of a server. -/
inductive Happens (s : Server) : Step → Server → Prop where
  | feels (x : ServerStimulus) (t : Server) (feels : s.Feels t) : Happens s (.feel x) t
  | task (id : Nat) (a : Activity) (found : s.activity? id = some a) (u : Server) (b : Activity)
      (turn : s.Turn a u b) : Happens s (.move (.task id)) (u.setTask id b)
  | session (n : Nat) (m : Move) (t : Server) (same : t = { s with sessions := t.sessions })
      (sessions : s.SessionsRun t) : Happens s (.move (.session n m)) t
  /-- A move that is not possible. -/
  | nothing (m : ServerMove) : Happens s (.move m) s

theorem step_happens (s : Server) (x : Step) : s.Happens x (s.step x) := by
  cases x with
  | feel x => exact .feels x _ (feel_feels s x)
  | move m =>
    rw [step]
    split
    · rename_i can
      cases m with
      | task id =>
        cases found : s.findTask? id with
        | none => simp [Server.can, found] at can
        | some t =>
          obtain ⟨u, b, turn, heq⟩ := stepTask_turn (by simpa [Server.can, found] using can)
          rw [move, found]
          dsimp only
          rw [heq, findTask?_id found]
          exact .task id t.activity (by rw [activity?, found]; rfl) u b turn
      | session n m =>
        rw [move, updateSession_same]
        refine .session n m _ rfl ?_
        rw [← updateSession_same]
        refine updateSession_sessionsRun s n fun x hx => .move m .refl ?_
        simp only [Server.can, hx, Option.any_some, Bool.and_eq_true] at can
        exact can.1
    · exact .nothing m

theorem Numbered.step (h : s.Numbered) (x : Step) : (s.step x).Numbered := by
  have hhappens := step_happens s x
  generalize s.step x = t at hhappens
  cases hhappens with
  | feels x t feels =>
    cases feels with
    | asks a asking => exact h.addTask a
    | answers id | connects id => exact h.setTask id _
    | aside t same => exact h.congr (by rw [same]) (by rw [same])
  | task id a found u b turn => exact (turn.numbered h).setTask id b
  | session n m t same => exact h.congr (by rw [same]) (by rw [same])
  | nothing m => exact h

/-! ## While others go on -/

/-- What becomes of a task while others go on. -/
inductive Awaits (s : Server) : Activity → Activity → Prop where
  | same (c : Activity) : Awaits s c c
  /-- A loop is told to stop, or has more connections that wait. -/
  | loop (x : Acceptor) (isShutDown : Bool) (backlog : List Arrival) :
      Awaits s (.accept x) (.accept { x with isShutDown, backlog })
  | answered {stage next : StartStage} (answered : s.StartAnswered stage next) :
      Awaits s (.start stage) (.start next)

theorem Feels.awaits (feels : s.Feels t) (h : s.Numbered) {j : Nat} {c : Activity}
    (found : s.activity? j = some c) : ∃ d, t.activity? j = some d ∧ s.Awaits c d := by
  cases feels with
  | asks a asking =>
    rw [activity?_addTask h, if_neg (Nat.ne_of_lt (h.lt_of_activity? found))]
    exact ⟨c, found, .same c⟩
  | answers id stage next there answered =>
    by_cases hj : j = id
    · subst hj
      obtain rfl := Option.some.inj (found.symm.trans there)
      exact ⟨_, activity?_setTask_self found _, .answered answered⟩
    · exact ⟨c, (activity?_setTask_of_ne hj _).trans found, .same c⟩
  | connects id x there backlog =>
    by_cases hj : j = id
    · subst hj
      obtain rfl := Option.some.inj (found.symm.trans there)
      exact ⟨_, activity?_setTask_self found _, .loop x x.isShutDown backlog⟩
    · exact ⟨c, (activity?_setTask_of_ne hj _).trans found, .same c⟩
  | aside t same => exact ⟨c, (activity?_congr (by rw [same]) j).trans found, .same c⟩

theorem step_awaits (h : s.Numbered) {x : Step} {j : Nat} {c : Activity} (others : x ≠ .move (.task j))
    (found : s.activity? j = some c) : ∃ d, (s.step x).activity? j = some d ∧ s.Awaits c d := by
  have hhappens := step_happens s x
  generalize s.step x = t at hhappens
  cases hhappens with
  | feels x t feels => exact feels.awaits h found
  | task id a there u b turn =>
    have hj : j ≠ id := fun hj => others (by rw [hj])
    rcases turn.stays h hj found with hstays | ⟨x, rfl, htold⟩
    · exact ⟨c, hstays, .same c⟩
    · exact ⟨_, htold, .loop x true x.backlog⟩
  | session n m t same => exact ⟨c, (activity?_congr (by rw [same]) j).trans found, .same c⟩
  | nothing m => exact ⟨c, found, .same c⟩

/-- What a task is about that has come with a step. -/
inductive Fresh : Activity → Prop where
  | asked (a : Activity) (asking : a = .start .asking ∨ a = .stop .asking) : Fresh a
  | spawned : Fresh (.accept ⟨.waiting, false, []⟩)
  | served (connection n : Nat) : Fresh (.serve connection n .reading)

theorem step_fresh (h : s.Numbered) {x : Step} {j : Nat} {c : Activity} (new : s.activity? j = none)
    (found : (s.step x).activity? j = some c) : Fresh c := by
  have not_before {d : Activity} (there : s.activity? j = some d) : Fresh c := by simp [new] at there
  have hhappens := step_happens s x
  generalize s.step x = t at hhappens found
  cases hhappens with
  | feels x t feels =>
    cases feels.activity? h found with
    | stays there | answered there | connected there => exact not_before there
    | asked asking => exact .asked c asking
  | task id a there u b turn =>
    rcases turn.activity? h found with ⟨rfl, -⟩ | ⟨-, hbeside⟩
    · exact not_before there
    · cases hbeside with
      | stays there | told there => exact not_before there
      | spawned => exact .spawned
      | served => exact .served ..
  | session n m t same => exact not_before ((activity?_congr (by rw [same]) j).symm.trans found)
  | nothing m => exact not_before found

/-! ## Runs -/

variable {xs : List Step} {k l : Nat}

theorem before_length (s : Server) (xs : List Step) : s.before xs xs.length = s.after xs := stateAt_length

theorem fresh_numbered (settings : ServerSettings) (sessionSettings : SessionSettings)
    (publication : Publication ManagedObject) (processor : Nat) :
    (fresh settings sessionSettings publication processor).Numbered :=
  ⟨nofun⟩

/-- What every step keeps, every stretch of a run keeps. -/
theorem before_induct {P : Server → Prop} (step : ∀ (t : Server) (x : Step), P t → P (t.step x))
    (hkl : k ≤ l) (hk : P (s.before xs k)) : P (s.before xs l) :=
  stateAt_induct hkl (fun _ x _ _ _ h => step _ x h) hk

/-- What every step keeps, every run keeps. -/
theorem after_induct {P : Server → Prop} (step : ∀ (t : Server) (x : Step), P t → P (t.step x))
    (hs : P s) (xs : List Step) : P (s.after xs) :=
  before_length s xs ▸ before_induct step (Nat.zero_le _) hs

end Smsc.Server
