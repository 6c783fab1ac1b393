import Smsc.Proofs.Server.Lifecycle
import Smsc.Proofs.Server.Sessions

/-!
# Smsc.Proofs.Server.Whole — sessions that come and go in one step

The registry, the counters, the directory and the listener learn of a session one after the other. Where
it does not matter what happens between, `Server.registerSession` and `Server.forgetSession` do it all at
once.

* `wholeStep`, `wholeAfter`: steps that do; `wholeStep_after`: each of them is some of the usual ones;
* `Whole s`: no session is on its way;
* `Quiet s t`, `WholeHappens s t`, `Whole.happens`: such a step registers a session, forgets one, or
  concerns neither;
* `Counted s`: how many sessions have come and gone, against those that are registered.
-/

namespace Smsc

/-- The session that a task has on its way into the registry or out of it. -/
def Activity.change? : Activity → Option Change
  | .start _ => none
  | .stop stage =>
    match stage with
    | .changing c _ _ => some c
    | _ => none
  | .accept x =>
    match x.stage with
    | .changing _ c => some c
    | _ => none
  | .serve _ _ stage =>
    match stage with
    | .changing c => some c
    | _ => none

/-- Is a task about to put a session into the registry, or to take one out? -/
def Activity.isAtOnce : Activity → Bool
  | .accept ⟨.inserting _, _, _⟩ | .stop (.removing (_ :: _) _) | .serve _ _ .removing => true
  | _ => false

/-- Was the listener told? -/
def ServerEvent.isTold : ServerEvent → Bool
  | .created .. | .destroyed .. => true
  | _ => false

namespace Server

variable {s t u : Server} {id connection n : Nat} {a b : Activity}

/-- A task goes on. What it begins to do about a session that comes or goes, it finishes. -/
def wholeTask (s : Server) (id : Nat) : Activity → Server
  | .accept ⟨.inserting a, isShutDown, backlog⟩ =>
    ((s.registerSession (some a.peer)).addTask (.serve s.nextConnection s.sessions.length .reading)).setTask id
      (.accept ⟨.waiting, isShutDown, backlog⟩)
  | .stop (.removing ((connection, _) :: rest) isLast) =>
    (s.forgetSession connection).setTask id (.stop (nextOfPass rest isLast))
  | .serve connection n .removing => (s.forgetSession connection).setTask id (.serve connection n .finished)
  | a => s.stepTask ⟨id, a⟩

/-- A step in which sessions come and go as a whole. -/
def wholeStep (s : Server) : Step → Server
  | .move (.task id) =>
    match s.activity? id with
    | some a => if s.taskIsReady a then s.wholeTask id a else s
    | none => s
  | x => s.step x

def wholeAfter (s : Server) (xs : List Step) : Server := xs.foldl wholeStep s

/-- What the listener was told, the newest first. -/
def told (s : Server) : List ServerEvent := s.log.filter (·.isTold)

/-! ## Some of the usual steps -/

theorem setTask_setTask (s : Server) (id : Nat) (a b : Activity) : (s.setTask id a).setTask id b = s.setTask id b := by
  unfold setTask
  dsimp only
  rw [List.map_map]
  congr 2
  funext t
  dsimp only [Function.comp_apply]
  split <;> simp_all

theorem addTask_setTask (s : Server) (id : Nat) (a b c : Activity) :
    ((s.setTask id a).addTask b).setTask id c = (s.addTask b).setTask id c := by
  have h := congrArg tasks (setTask_setTask s id a c)
  unfold setTask addTask at *
  dsimp only at *
  rw [List.map_append, h, List.map_append]

/-- What follows when a session has come or gone does not depend on the tasks. -/
theorem stepChange_setTask (s : Server) (id : Nat) (a : Activity) (c : Change) :
    (s.setTask id a).stepChange c = ((s.stepChange c).1.setTask id a, (s.stepChange c).2) := by
  obtain ⟨n, comes, stage⟩ := c
  cases stage with
  | counting | recording => cases comes <;> rfl
  | publishing => rfl
  | announcing =>
    cases hlistener : s.hasListener <;> cases comes <;>
      simp [stepChange, announceChange, setTask, hlistener, note, session?]

theorem setTask_step_task (found : s.activity? id = some a) (b : Activity)
    (ready : (s.setTask id b).taskIsReady b = true) :
    (s.setTask id b).step (.move (.task id)) = (s.setTask id b).stepTask ⟨id, b⟩ :=
  step_task (activity?_setTask_self found b) ready

/-- A task that has a session on its way finishes with it in four steps. -/
theorem finish_after (A : ChangeStage → Activity) (done : Server → Server) {n : Nat} {comes : Bool}
    (found : s.activity? id = some a) (ready : ∀ t stage, Server.taskIsReady t (A stage) = true)
    (goes : ∀ t u stage stage', stepChange t ⟨n, comes, stage⟩ = (u, some ⟨n, comes, stage'⟩) →
      t.stepTask ⟨id, A stage⟩ = u.setTask id (A stage'))
    (ends : ∀ t u stage, stepChange t ⟨n, comes, stage⟩ = (u, none) → t.stepTask ⟨id, A stage⟩ = done u)
    (forgets : ∀ t stage, done (t.setTask id (A stage)) = done t) :
    (s.setTask id (A .counting)).after (List.replicate 4 (.move (.task id))) =
      done (s.finishChange ⟨n, comes, .counting⟩) := by
  have next (t u : Server) (stage stage' : ChangeStage) (tasks : t.tasks = s.tasks)
      (changed : t.stepChange ⟨n, comes, stage⟩ = (u, some ⟨n, comes, stage'⟩)) :
      (t.setTask id (A stage)).step (.move (.task id)) = u.setTask id (A stage') := by
    rw [setTask_step_task ((activity?_congr tasks id).trans found) _ (ready _ _),
      goes _ (u.setTask id (A stage)) stage stage' (by rw [stepChange_setTask, changed]), setTask_setTask]
  have last (t u : Server) (stage : ChangeStage) (tasks : t.tasks = s.tasks)
      (changed : t.stepChange ⟨n, comes, stage⟩ = (u, none)) :
      (t.setTask id (A stage)).step (.move (.task id)) = done u := by
    rw [setTask_step_task ((activity?_congr tasks id).trans found) _ (ready _ _),
      ends _ (u.setTask id (A stage)) stage (by rw [stepChange_setTask, changed]), forgets]
  have tasks {t u : Server} {c : Change} {next : Option Change} (ht : t.tasks = s.tasks)
      (changed : t.stepChange c = (u, next)) : u.tasks = s.tasks := by rw [stepChange_same changed, ht]
  cases hcount : s.countChange ⟨n, comes, .counting⟩ with | mk s₁ active =>
  have h₁ : s.stepChange ⟨n, comes, .counting⟩ = (s₁, some ⟨n, comes, .recording active⟩) := by
    simp [stepChange, hcount]
  have h₂ : s₁.stepChange ⟨n, comes, .recording active⟩ =
      (s₁.recordChange ⟨n, comes, .counting⟩ active, some ⟨n, comes, .publishing⟩) := rfl
  generalize hs₂ : s₁.recordChange ⟨n, comes, .counting⟩ active = s₂ at h₂
  have h₃ : s₂.stepChange ⟨n, comes, .publishing⟩ =
      (s₂.publishChange ⟨n, comes, .counting⟩, some ⟨n, comes, .announcing⟩) := rfl
  generalize hs₃ : s₂.publishChange ⟨n, comes, .counting⟩ = s₃ at h₃
  have h₄ : s₃.stepChange ⟨n, comes, .announcing⟩ = (s₃.announceChange ⟨n, comes, .counting⟩, none) := rfl
  simp only [List.replicate, after, List.foldl]
  rw [next s s₁ _ _ rfl h₁, next s₁ s₂ _ _ (tasks rfl h₁) h₂, next s₂ s₃ _ _ (tasks (tasks rfl h₁) h₂) h₃,
    last s₃ _ _ (tasks (tasks (tasks rfl h₁) h₂) h₃) h₄, finishChange, hcount]
  dsimp only
  rw [hs₂, hs₃]

/-- What a task does first, and then the rest at once. -/
theorem first_after (found : s.activity? id = some a) (ready : s.taskIsReady a = true) {t u : Server}
    (first : s.stepTask ⟨id, a⟩ = t) (rest : t.after (List.replicate 4 (.move (.task id))) = u) :
    u = s.after (.move (.task id) :: List.replicate 4 (.move (.task id))) := by
  show u = (s.step (.move (.task id))).after _
  rw [step_task found ready, first, rest]

/-- A task that takes a session out of the registry finishes with it in four steps, if it is there. -/
theorem forget_after (changing : Change → Activity) {next : Activity} (found : s.activity? id = some a)
    (ready : s.taskIsReady a = true)
    (missing : s.remove? connection = none → s.stepTask ⟨id, a⟩ = s.setTask id next)
    (removed : ∀ u c, s.remove? connection = some (u, c) → s.stepTask ⟨id, a⟩ = u.setTask id (changing c))
    (isReady : ∀ t c, Server.taskIsReady t (changing c) = true)
    (goes : ∀ t u c c', stepChange t c = (u, some c') → t.stepTask ⟨id, changing c⟩ = u.setTask id (changing c'))
    (ends : ∀ t u c, stepChange t c = (u, none) → t.stepTask ⟨id, changing c⟩ = u.setTask id next) :
    ∃ xs, (s.forgetSession connection).setTask id next = s.after xs := by
  cases hremoved : s.remove? connection with
  | none =>
    refine ⟨[.move (.task id)], ?_⟩
    show _ = s.step (.move (.task id))
    rw [step_task found ready, missing hremoved, forgetSession, hremoved]
  | some uc =>
    obtain ⟨u, c⟩ := uc
    have hforget : s.forgetSession connection = u.finishChange c := by rw [forgetSession, hremoved]
    have hfirst := removed u c hremoved
    obtain ⟨n, -, rfl, rfl⟩ := remove?_eq_some.mp hremoved
    refine ⟨_, first_after found ready hfirst ?_⟩
    rw [hforget]
    exact finish_after (fun stage => changing ⟨n, false, stage⟩) (fun u => u.setTask id next) found
      (fun t stage => isReady t _) (fun t v _ _ changed => goes t v _ _ changed)
      (fun t v _ changed => ends t v _ changed) fun t _ => setTask_setTask ..

/-- A loop that makes a session for a connection finishes with it in four steps. -/
theorem register_after {peer : Arrival} {isShutDown : Bool} {backlog : List Arrival}
    (found : s.activity? id = some (.accept ⟨.inserting peer, isShutDown, backlog⟩)) :
    ∃ xs, s.wholeTask id (.accept ⟨.inserting peer, isShutDown, backlog⟩) = s.after xs := by
  refine ⟨_, first_after found rfl rfl ?_⟩
  have hfound : (s.enroll (some peer.peer)).1.activity? id =
      some (.accept ⟨.inserting peer, isShutDown, backlog⟩) := found
  exact finish_after
    (fun stage => .accept ⟨.changing s.nextConnection ⟨s.sessions.length, true, stage⟩, isShutDown, backlog⟩)
    (fun u => (u.addTask (.serve s.nextConnection s.sessions.length .reading)).setTask id
      (.accept ⟨.waiting, isShutDown, backlog⟩)) hfound (fun _ _ => rfl)
    (fun t v _ _ changed => by simp [stepTask, stepAccept, changed])
    (fun t v _ changed => by simp [stepTask, stepAccept, changed]) fun t _ => addTask_setTask ..

theorem wholeTask_after (found : s.activity? id = some a) (ready : s.taskIsReady a = true) :
    ∃ xs, s.wholeTask id a = s.after xs := by
  have once (h : s.wholeTask id a = s.stepTask ⟨id, a⟩) : ∃ xs, s.wholeTask id a = s.after xs :=
    ⟨[.move (.task id)], by rw [h, ← step_task found ready]; rfl⟩
  cases a with
  | start stage => exact once rfl
  | stop stage =>
    cases stage with
    | removing rest isLast =>
      match rest with
      | [] => exact once rfl
      | (connection, m) :: rest =>
        exact forget_after (fun c => .stop (.changing c rest isLast)) found ready
          (fun missing => by simp [stepTask, stepStop, missing])
          (fun u c removed => by simp [stepTask, stepStop, removed]) (fun _ _ => rfl)
          (fun t u c c' changed => by simp [stepTask, stepStop, changed])
          (fun t u c changed => by simp [stepTask, stepStop, changed])
    | _ => exact once rfl
  | accept x =>
    obtain ⟨stage, isShutDown, backlog⟩ := x
    cases stage with
    | inserting peer => exact register_after found
    | _ => exact once rfl
  | serve connection m stage =>
    cases stage with
    | removing =>
      exact forget_after (fun c => .serve connection m (.changing c)) found ready
        (fun missing => by simp [stepTask, stepServe, missing])
        (fun u c removed => by simp [stepTask, stepServe, removed]) (fun _ _ => rfl)
        (fun t u c c' changed => by simp [stepTask, stepServe, changed])
        (fun t u c changed => by simp [stepTask, stepServe, changed])
    | _ => exact once rfl

/-- A whole step is some of the usual ones. -/
theorem wholeStep_after (s : Server) (x : Step) : ∃ xs, s.wholeStep x = s.after xs := by
  cases x with
  | feel x => exact ⟨[.feel x], rfl⟩
  | move m =>
    cases m with
    | session n m => exact ⟨[.move (.session n m)], rfl⟩
    | task id =>
      rw [wholeStep]
      split
      · rename_i a found
        split
        · rename_i ready
          exact wholeTask_after found ready
        · exact ⟨[], rfl⟩
      · exact ⟨[], rfl⟩

theorem wholeAfter_after (s : Server) (xs : List Step) : ∃ ys, s.wholeAfter xs = s.after ys := by
  induction xs generalizing s with
  | nil => exact ⟨[], rfl⟩
  | cons x xs ih =>
    obtain ⟨ys, hys⟩ := wholeStep_after s x
    obtain ⟨zs, hzs⟩ := ih (s.wholeStep x)
    exact ⟨ys ++ zs, by rw [after_append, ← hys, ← hzs]; rfl⟩

/-! ## What a whole step does -/

/-- The registry, the counters, the directory and the listener learn of no session. -/
structure Quiet (s t : Server) : Prop where
  same : t = { s with
    status := t.status, endpoint := t.endpoint, startedAt := t.startedAt, processor := t.processor,
    hasListener := t.hasListener, sessions := t.sessions, tasks := t.tasks, nextTask := t.nextTask,
    now := t.now, log := t.log }
  sessions : s.SessionsRun t
  told : t.told = s.told
  listener : s.hasListener = true → t.hasListener = true

/-- A whole step registers a session, forgets one, or concerns neither. -/
inductive WholeHappens (s t : Server) : Prop where
  | quiet (quiet : s.Quiet t)
  | registers (peer : Option SocketAddress) (quiet : (s.registerSession peer).Quiet t)
  | forgets (connection : Nat) (quiet : (s.forgetSession connection).Quiet t)

/-- No session is on its way. -/
def Whole (s : Server) : Prop := ∀ id a, s.activity? id = some a → a.change? = none

/-- What is read off what the listener was told. -/
theorem filterMap_log {α : Type} (s : Server) (f : ServerEvent → Option α)
    (untold : ∀ e, e.isTold = false → f e = none) : s.log.filterMap f = s.told.filterMap f := by
  rw [told, List.filterMap_filter]
  congr
  funext e
  cases he : e.isTold with
  | true => rfl
  | false => exact untold e he

@[simp] theorem told_note (s : Server) (e : ServerEvent) :
    (s.note e).told = if e.isTold then e :: s.told else s.told := by
  simp [told, note, List.filter_cons]

@[simp] theorem told_measure (s : Server) (ms : List Measurement) : (s.measure ms).told = s.told := by
  unfold measure
  induction ms generalizing s with
  | nil => rfl
  | cons m ms ih => rw [List.foldl_cons, ih, told_note]; rfl

theorem measure_same (s : Server) (ms : List Measurement) : s.measure ms = { s with log := (s.measure ms).log } := by
  unfold measure
  induction ms generalizing s with
  | nil => rfl
  | cons m ms ih => rw [List.foldl_cons, ih]; rfl

theorem recordChange_same (s : Server) (c : Change) (active : Nat) :
    s.recordChange c active = { s with log := (s.recordChange c active).log } := by
  unfold recordChange
  split <;> exact measure_same ..

/-- All that follows when a session has come or gone, as one change. -/
theorem finishChange_same (s : Server) (c : Change) :
    s.finishChange c = { s with
      created := if c.comes then s.created + 1 else s.created
      destroyed := if c.comes then s.destroyed else s.destroyed + 1
      publication := (s.publishChange c).publication
      log := (s.finishChange c).log } := by
  obtain ⟨n, comes, stage⟩ := c
  unfold finishChange countChange recordChange announceChange
  cases comes
  · simp only [Bool.false_eq_true, if_false]
    rw [measure_same]
    split <;> rfl
  · simp only [if_true]
    rw [measure_same]
    split <;> rfl

/-- What the listener is told of a session that has come or gone. -/
def announcement (s : Server) (c : Change) : ServerEvent :=
  let status := (s.session? c.session).elim .closed (·.status)
  if c.comes then .created c.session status else .destroyed c.session status

theorem announceChange_told (s : Server) (c : Change) :
    (s.announceChange c).told = if s.hasListener then s.announcement c :: s.told else s.told := by
  obtain ⟨n, comes, stage⟩ := c
  unfold announceChange announcement
  cases s.hasListener <;> cases comes <;> rfl

theorem recordChange_told (s : Server) (c : Change) (active : Nat) : (s.recordChange c active).told = s.told := by
  unfold recordChange
  split <;> exact told_measure ..

theorem finishChange_told (s : Server) (c : Change) :
    (s.finishChange c).told = if s.hasListener then s.announcement c :: s.told else s.told := by
  cases hcount : s.countChange c with | mk t active =>
  obtain ⟨htold, hlistener, hsessions⟩ :
      t.told = s.told ∧ t.hasListener = s.hasListener ∧ t.sessions = s.sessions := by
    obtain rfl : (s.countChange c).1 = t := by rw [hcount]
    unfold countChange
    dsimp only
    split <;> exact ⟨rfl, rfl, rfl⟩
  have hpublished : ((t.recordChange c active).publishChange c).told = s.told :=
    (recordChange_told t c active).trans htold
  rw [finishChange, hcount]
  dsimp only
  rw [announceChange_told, hpublished]
  rw [recordChange_same, publishChange, announcement, announcement, session?, session?]
  dsimp only
  rw [hlistener, hsessions]

theorem registerSession_eq (s : Server) (peer : Option SocketAddress) :
    s.registerSession peer = (s.enroll peer).1.finishChange ⟨s.sessions.length, true, .counting⟩ := rfl

theorem forgetSession_eq (h : s.registered.find? connection = some n) :
    s.forgetSession connection =
      finishChange { s with registered := s.registered.erase connection } ⟨n, false, .counting⟩ := by
  rw [forgetSession, remove?_eq_some.mpr ⟨n, h, rfl, rfl⟩]

theorem forgetSession_of_none (h : s.registered.find? connection = none) : s.forgetSession connection = s := by
  simp [forgetSession, remove?, h]

theorem registerSession_tasks (s : Server) (peer : Option SocketAddress) :
    (s.registerSession peer).tasks = s.tasks ∧ (s.registerSession peer).nextTask = s.nextTask := by
  rw [registerSession_eq, finishChange_same]
  exact ⟨rfl, rfl⟩

theorem forgetSession_tasks (s : Server) (connection : Nat) :
    (s.forgetSession connection).tasks = s.tasks ∧ (s.forgetSession connection).nextTask = s.nextTask := by
  cases h : s.registered.find? connection with
  | none =>
    rw [forgetSession_of_none h]
    exact ⟨rfl, rfl⟩
  | some n =>
    rw [forgetSession_eq h, finishChange_same]
    exact ⟨rfl, rfl⟩

theorem registerSession_settings (s : Server) (peer : Option SocketAddress) :
    (s.registerSession peer).settings = s.settings := by
  rw [registerSession_eq, finishChange_same, enroll_eq]

theorem registerSession_length (s : Server) (peer : Option SocketAddress) :
    (s.registerSession peer).sessions.length = s.sessions.length + 1 := by
  rw [registerSession_eq, finishChange_same, enroll_eq]
  simp

theorem forgetSession_sessions (s : Server) (connection : Nat) :
    (s.forgetSession connection).sessions = s.sessions ∧ (s.forgetSession connection).settings = s.settings := by
  cases h : s.registered.find? connection with
  | none =>
    rw [forgetSession_of_none h]
    exact ⟨rfl, rfl⟩
  | some n =>
    rw [forgetSession_eq h, finishChange_same]
    exact ⟨rfl, rfl⟩

theorem WholeHappens.settings (h : s.WholeHappens t) : t.settings = s.settings := by
  cases h with
  | quiet quiet => rw [quiet.same]
  | registers peer quiet => rw [quiet.same, registerSession_settings]
  | forgets connection quiet => rw [quiet.same, (forgetSession_sessions s connection).2]

theorem WholeHappens.length_le (h : s.WholeHappens t) : s.sessions.length ≤ t.sessions.length := by
  cases h with
  | quiet quiet => exact Nat.le_of_eq quiet.sessions.length.symm
  | registers peer quiet =>
    rw [quiet.sessions.length, registerSession_length]
    exact Nat.le_succ _
  | forgets connection quiet =>
    exact Nat.le_of_eq (by rw [quiet.sessions.length, (forgetSession_sessions s connection).1])

namespace Quiet

theorem refl (s : Server) : s.Quiet s := ⟨rfl, .of_eq rfl, rfl, id⟩

theorem setTask (h : s.Quiet t) (id : Nat) (a : Activity) : s.Quiet (t.setTask id a) where
  same := by
    rw [Server.setTask, h.same]
  sessions := ⟨h.sessions.length, h.sessions.runs⟩
  told := h.told
  listener := h.listener

theorem addTask (h : s.Quiet t) (a : Activity) : s.Quiet (t.addTask a) where
  same := by
    rw [Server.addTask, h.same]
  sessions := ⟨h.sessions.length, h.sessions.runs⟩
  told := h.told
  listener := h.listener

theorem storeStatus (s : Server) (status : ServerStatus) : s.Quiet (s.storeStatus status) :=
  ⟨rfl, .of_eq rfl, rfl, id⟩

theorem recordStatus (h : s.Quiet t) (status : ServerStatus) : s.Quiet (t.recordStatus status) where
  same := by
    rw [Server.recordStatus, measure_same, h.same]
  sessions := by
    rw [Server.recordStatus, measure_same]
    exact ⟨h.sessions.length, h.sessions.runs⟩
  told := by rw [Server.recordStatus, told_measure, h.told]
  listener := by
    rw [Server.recordStatus, measure_same]
    exact h.listener

end Quiet

theorem wholeTask_eq (s : Server) (id : Nat) (small : a.isAtOnce = false) : s.wholeTask id a = s.stepTask ⟨id, a⟩ := by
  unfold wholeTask
  split <;> first | rfl | cases small

theorem nextOfPass_change? (rest : List (Nat × Nat)) (isLast : Bool) :
    (Activity.stop (nextOfPass rest isLast)).change? = none := by
  cases rest <;> cases isLast <;> rfl

theorem StopTurn.quiet {stage next : StopStage} (turn : s.StopTurn stage u next)
    (noChange : (Activity.stop stage).change? = none) (small : (Activity.stop stage).isAtOnce = false) :
    s.Quiet u ∧ (Activity.stop next).change? = none := by
  have stays : s.Quiet s := .refl s
  cases turn with
  | begins => exact ⟨(Quiet.storeStatus s _).recordStatus _, rfl⟩
  | lists | passes => exact ⟨stays, nextOfPass_change? ..⟩
  | disconnects connection m rest isLast next waits =>
    refine ⟨⟨by rw [updateSession_same], updateSession_sessionsRun s m fun x _ => .feel .disconnect .refl, ?_, ?_⟩, ?_⟩
    · rw [updateSession_same]
      rfl
    · rw [updateSession_same]
      exact fun h => h
    · rcases waits with ⟨wake, rfl⟩ | rfl <;> rfl
  | removes | misses => cases small
  | changes | announces => cases noChange
  | takesEndpoint e =>
    refine ⟨?_, rfl⟩
    unfold shutDown
    split
    · exact (⟨rfl, .of_eq rfl, rfl, fun h => h⟩ : s.Quiet { s with endpoint := none }).setTask _ _
    · exact ⟨rfl, .of_eq rfl, rfl, fun h => h⟩
  | clearsTime => exact ⟨⟨rfl, .of_eq rfl, rfl, fun h => h⟩, rfl⟩
  | stores => exact ⟨.storeStatus s _, rfl⟩
  | records => exact ⟨stays.recordStatus _, rfl⟩
  | _ => exact ⟨stays, rfl⟩

theorem Turn.quiet (turn : s.Turn a u b) (noChange : a.change? = none) (small : a.isAtOnce = false) :
    s.Quiet u ∧ b.change? = none := by
  have stays : s.Quiet s := .refl s
  cases turn with
  | start turn =>
    refine ⟨?_, rfl⟩
    cases turn with
    | begins => exact (Quiet.storeStatus s _).recordStatus _
    | spawns => exact stays.addTask _
    | keepsEndpoint | keepsTime => exact ⟨rfl, .of_eq rfl, rfl, fun h => h⟩
    | stores | givesUp => exact .storeStatus s _
    | records | recordsFailure => exact stays.recordStatus _
    | refused => exact stays
  | stop turn => exact turn.quiet noChange small
  | accept turn =>
    rename_i x next
    obtain ⟨stage, isShutDown, backlog⟩ := x
    cases turn with
    | finishes | admits => exact ⟨stays, rfl⟩
    | takes waiting going backlog stage taken =>
      exact ⟨stays, by rcases taken with ⟨peer, rfl⟩ | rfl <;> rfl⟩
    | turnsAway => exact ⟨⟨rfl, .of_eq rfl, by simp [ServerEvent.isTold], fun h => h⟩, rfl⟩
    | enrolls peer inserting =>
      obtain rfl : stage = _ := inserting
      cases small
    | changes connection c changing | announces connection c changing =>
      obtain rfl : stage = _ := changing
      cases noChange
  | serve turn =>
    cases turn with
    | leaves => exact ⟨stays, rfl⟩
    | removes | misses => cases small
    | changes | announces => cases noChange

theorem Feels.quiet (feels : s.Feels t) : s.Quiet t := by
  cases feels with
  | asks a => exact (Quiet.refl s).addTask a
  | answers id | connects id => exact (Quiet.refl s).setTask id _
  | aside t same listener sessions =>
    exact ⟨by rw [same], sessions, by rw [told, told, same], listener⟩

/-- After a whole step of a task no session is on its way. -/
theorem Whole.setTask (hw : s.Whole) (tasks : u.tasks = s.tasks) (hb : b.change? = none) : (u.setTask id b).Whole := by
  intro j c hj
  rw [activity?_setTask] at hj
  split at hj
  · obtain ⟨_, -, rfl⟩ := Option.map_eq_some_iff.mp hj
    exact hb
  · exact hw j c ((activity?_congr tasks j).symm.trans hj)

theorem Whole.addTask (hw : s.Whole) (hn : s.Numbered) (ha : a.change? = none) : (s.addTask a).Whole := by
  intro j c hj
  rw [activity?_addTask hn] at hj
  split at hj
  · obtain rfl := Option.some.inj hj
    exact ha
  · exact hw j c hj

theorem Whole.congr (hw : s.Whole) (tasks : t.tasks = s.tasks) : t.Whole := fun j c hj =>
  hw j c ((activity?_congr tasks j).symm.trans hj)

/-- What a task does in a whole step, and that it leaves no session on its way. -/
theorem wholeTask_happens (found : s.activity? id = some a) (ready : s.taskIsReady a = true) (hn : s.Numbered)
    (hw : s.Whole) : s.WholeHappens (s.wholeTask id a) ∧ (s.wholeTask id a).Whole := by
  have hnone := hw id a found
  have small (hsmall : a.isAtOnce = false) : s.WholeHappens (s.wholeTask id a) ∧ (s.wholeTask id a).Whole := by
    obtain ⟨u, b, turn, heq⟩ := stepTask_turn (t := ⟨id, a⟩) ready
    obtain ⟨quiet, hb⟩ := turn.quiet hnone hsmall
    rw [wholeTask_eq s id hsmall, heq]
    refine ⟨.quiet (quiet.setTask id b), fun j c hj => ?_⟩
    rcases turn.activity? hn hj with ⟨-, rfl⟩ | ⟨-, hbeside⟩
    · exact hb
    · cases hbeside with
      | stays found => exact hw j c found
      | told found => exact (hw j _ found :)
      | spawned | served => rfl
  cases a with
  | start => exact small rfl
  | stop stage =>
    cases stage with
    | removing rest isLast =>
      match rest with
      | [] => exact small rfl
      | (connection, m) :: rest =>
        exact ⟨.forgets connection ((Quiet.refl _).setTask ..),
          hw.setTask (forgetSession_tasks s connection).1 (nextOfPass_change? ..)⟩
    | _ => exact small rfl
  | accept x =>
    obtain ⟨stage, isShutDown, backlog⟩ := x
    cases stage with
    | inserting peer =>
      obtain ⟨tasks, nextTask⟩ := registerSession_tasks s (some peer.peer)
      refine ⟨.registers (some peer.peer) (((Quiet.refl _).addTask _).setTask ..), Whole.setTask ?_ rfl rfl⟩
      exact (hw.congr tasks).addTask (hn.congr tasks nextTask) rfl
    | _ => exact small rfl
  | serve connection m stage =>
    cases stage with
    | removing =>
      exact ⟨.forgets connection ((Quiet.refl _).setTask ..), hw.setTask (forgetSession_tasks s connection).1 rfl⟩
    | _ => exact small rfl

theorem Whole.step (hw : s.Whole) (hn : s.Numbered) (x : Step) :
    s.WholeHappens (s.wholeStep x) ∧ (s.wholeStep x).Whole := by
  have stays : s.WholeHappens s ∧ s.Whole := ⟨.quiet (.refl s), hw⟩
  cases x with
  | feel x =>
    refine ⟨.quiet (feel_feels s x).quiet, fun j c hj => ?_⟩
    have hfelt := (feel_feels s x).activity? hn hj
    cases hfelt with
    | stays found => exact hw j c found
    | asked asking => rcases asking with rfl | rfl <;> rfl
    | answered => rfl
    | connected found => exact (hw j _ found :)
  | move m =>
    cases m with
    | session n m =>
      rw [show s.wholeStep (.move (.session n m)) = s.step (.move (.session n m)) from rfl]
      have hhappens := step_happens s (.move (.session n m))
      generalize s.step (.move (.session n m)) = t at hhappens
      cases hhappens with
      | session n m t same sessions =>
        have quiet : s.Quiet t := ⟨by rw [same], sessions, by rw [told, told, same], by rw [same]; exact fun h => h⟩
        exact ⟨.quiet quiet, hw.congr (by rw [same])⟩
      | nothing => exact stays
    | task id =>
      rw [wholeStep]
      split
      · rename_i a found
        split
        · rename_i ready
          exact wholeTask_happens found ready hn hw
        · exact stays
      · exact stays

/-! ## Counts -/

/-- Every session has been counted when it came, and when it went. -/
structure Counted (s : Server) : Prop where
  created : s.created = s.sessions.length
  destroyed : s.destroyed + s.registered.size = s.sessions.length

theorem Counted.quiet (h : s.Counted) (quiet : s.Quiet t) : t.Counted where
  created := by
    rw [quiet.sessions.length, ← h.created, quiet.same]
  destroyed := by
    rw [quiet.sessions.length, ← h.destroyed, quiet.same]

theorem Counted.registers (h : s.Counted) (hf : s.Filed) (peer : Option SocketAddress) :
    (s.registerSession peer).Counted := by
  rw [registerSession_eq, finishChange_same, enroll_eq]
  refine ⟨?_, ?_⟩
  · show s.created + 1 = (s.sessions ++ [_]).length
    rw [List.length_append, h.created]
    rfl
  · show s.destroyed + (s.registered.insert s.nextConnection s.sessions.length).size = (s.sessions ++ [_]).length
    rw [Registry.size_insert hf.fresh, List.length_append, ← Nat.add_assoc, h.destroyed]
    rfl

theorem Counted.forgets (h : s.Counted) (hf : s.Filed) (connection : Nat) :
    (s.forgetSession connection).Counted := by
  cases found : s.registered.find? connection with
  | none =>
    rw [forgetSession_of_none found]
    exact h
  | some n =>
    rw [forgetSession_eq found, finishChange_same]
    refine ⟨h.created, ?_⟩
    show s.destroyed + 1 + (s.registered.erase connection).size = s.sessions.length
    have hsize := Registry.size_erase hf.distinct ((Registry.find?_eq_some hf.distinct).mp found)
    have := h.destroyed
    omega

theorem Counted.happens (h : s.Counted) (hf : s.Filed) (happens : s.WholeHappens t) : t.Counted := by
  cases happens with
  | quiet quiet => exact h.quiet quiet
  | registers peer quiet => exact (h.registers hf peer).quiet quiet
  | forgets connection quiet => exact (h.forgets hf connection).quiet quiet

end Server

end Smsc
