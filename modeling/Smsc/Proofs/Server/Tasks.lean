import Smsc.Proofs.History
import Smsc.Server.Run

/-!
# Smsc.Proofs.Server.Tasks — what a task of a server can do

* `Server.activity? s id`: what a task does; `Numbered s`: the id of the next task is not in use;
* `StartTurn`, `StopTurn`, `AcceptTurn`, `ServeTurn`: what a task of each kind does next, one constructor
  for each step, with what it changes besides itself and where it has got to then;
* `Turn`, `stepTask_turn`: the same for all kinds;
* `Crew`, `Turn.crew`: what becomes of the other tasks; `Turn.activity?`, `Turn.stays`: one by one.
-/

namespace Smsc.Server

variable {s t u : Server} {id : Nat} {a b : Activity}

/-! ## Activities -/

/-- What a task does. -/
def activity? (s : Server) (id : Nat) : Option Activity := (s.findTask? id).map (·.activity)

theorem findTask?_setTask (s : Server) (id : Nat) (a : Activity) (j : Nat) :
    (s.setTask id a).findTask? j =
      (s.findTask? j).map fun t => if t.id = id then { t with activity := a } else t := by
  unfold setTask findTask?
  dsimp only
  rw [List.find?_map]
  congr 2
  funext t
  dsimp only [Function.comp_apply]
  split <;> rfl

theorem findTask?_id {t : ServerTask} (found : s.findTask? id = some t) : t.id = id := by
  simpa using List.find?_some found

theorem activity?_setTask (s : Server) (id : Nat) (a : Activity) (j : Nat) :
    (s.setTask id a).activity? j = if j = id then (s.activity? j).map fun _ => a else s.activity? j := by
  unfold activity?
  rw [findTask?_setTask]
  cases hj : s.findTask? j with
  | none => split <;> rfl
  | some t =>
    simp only [Option.map_some, findTask?_id hj]
    split <;> rfl

theorem activity?_setTask_self (found : s.activity? id = some a) (b : Activity) :
    (s.setTask id b).activity? id = some b := by
  rw [activity?_setTask, if_pos rfl, found, Option.map_some]

theorem activity?_setTask_of_ne {id j : Nat} (h : j ≠ id) (a : Activity) :
    (s.setTask id a).activity? j = s.activity? j := by
  rw [activity?_setTask, if_neg h]

/-- The id of the next task is not in use. -/
structure Numbered (s : Server) : Prop where
  lt : ∀ t ∈ s.tasks, t.id < s.nextTask

namespace Numbered

theorem lt_of_activity? (h : s.Numbered) (found : s.activity? id = some a) : id < s.nextTask := by
  obtain ⟨t, ht, -⟩ := Option.map_eq_some_iff.mp found
  exact findTask?_id ht ▸ h.lt t (List.mem_of_find?_eq_some ht)

theorem activity?_nextTask (h : s.Numbered) : s.activity? s.nextTask = none := by
  cases found : s.activity? s.nextTask with
  | none => rfl
  | some a => exact absurd (h.lt_of_activity? found) (Nat.lt_irrefl _)

theorem setTask (h : s.Numbered) (id : Nat) (a : Activity) : (s.setTask id a).Numbered := by
  refine ⟨fun t ht => ?_⟩
  obtain ⟨u, hu, rfl⟩ := List.mem_map.mp ht
  have := h.lt u hu
  show (if u.id = id then _ else u).id < s.nextTask
  split <;> exact this

/-- Only the tasks matter. -/
theorem congr (h : s.Numbered) (tasks : t.tasks = s.tasks) (nextTask : t.nextTask = s.nextTask) :
    t.Numbered :=
  ⟨tasks ▸ nextTask ▸ h.lt⟩

theorem addTask (h : s.Numbered) (a : Activity) : (s.addTask a).Numbered := by
  refine ⟨fun t ht => ?_⟩
  show t.id < s.nextTask + 1
  rcases List.mem_append.mp ht with ht | ht
  · exact Nat.lt_succ_of_lt (h.lt t ht)
  · obtain rfl : t = ⟨s.nextTask, a⟩ := by simpa using ht
    exact Nat.lt_succ_self _

end Numbered

theorem activity?_addTask (h : s.Numbered) (a : Activity) (j : Nat) :
    (s.addTask a).activity? j = if j = s.nextTask then some a else s.activity? j := by
  have hfind : (s.addTask a).findTask? j =
      (s.findTask? j).or (if j = s.nextTask then some ⟨s.nextTask, a⟩ else none) := by
    unfold addTask findTask?
    dsimp only
    rw [List.find?_append]
    congr 1
    by_cases hj : s.nextTask = j
    · simp [hj]
    · simp [hj, Ne.symm hj]
  unfold activity?
  rw [hfind]
  split
  · rename_i hj
    have hnone := h.activity?_nextTask
    rw [activity?, Option.map_eq_none_iff] at hnone
    rw [hj, hnone]
    rfl
  · rw [Option.or_none]

theorem acceptor?_eq_some {x : Acceptor} : s.acceptor? id = some x ↔ s.activity? id = some (.accept x) := by
  unfold acceptor? activity?
  cases s.findTask? id with
  | none => simp
  | some t =>
    obtain ⟨i, a⟩ := t
    cases a <;> simp

theorem shutDown_eq {x : Acceptor} (found : s.activity? id = some (.accept x)) :
    s.shutDown id = s.setTask id (.accept { x with isShutDown := true }) := by
  rw [shutDown, acceptor?_eq_some.mpr found]

theorem activity?_shutDown {x : Acceptor} (found : s.activity? id = some (.accept x)) (j : Nat) :
    (s.shutDown id).activity? j =
      if j = id then some (.accept { x with isShutDown := true }) else s.activity? j := by
  rw [shutDown_eq found, activity?_setTask]
  split
  · rename_i hj
    rw [hj, found]
    rfl
  · rfl

theorem hasEnded_of_accept {x : Acceptor} (ended : s.hasEnded id = true)
    (found : s.activity? id = some (.accept x)) : x.stage = .finished := by
  simpa [hasEnded, acceptor?_eq_some.mpr found] using ended

/-! ## Sessions that come and go -/

/-- What an update of a session changes. -/
theorem updateSession_same (s : Server) (n : Nat) (f : Session → Session) :
    s.updateSession n f = { s with sessions := (s.updateSession n f).sessions } := by
  unfold updateSession
  split <;> rfl

theorem activity?_congr (tasks : t.tasks = s.tasks) (id : Nat) : t.activity? id = s.activity? id := by
  rw [activity?, findTask?, tasks]
  rfl

theorem enroll_eq (s : Server) (peer : Option SocketAddress) :
    s.enroll peer = ({ s with
      sessions := s.sessions ++
        [.fresh s.nextSessionId peer s.settings.systemId s.sessionSettings s.processor s.now]
      registered := s.registered.insert s.nextConnection s.sessions.length
      nextConnection := s.nextConnection + 1
      nextSessionId := s.nextSessionId + 1 }, s.nextConnection, ⟨s.sessions.length, true, .counting⟩) :=
  rfl

theorem remove?_eq_some {connection : Nat} {c : Change} :
    s.remove? connection = some (u, c) ↔ ∃ n, s.registered.find? connection = some n ∧
      u = { s with registered := s.registered.erase connection } ∧ c = ⟨n, false, .counting⟩ := by
  unfold remove?
  rw [Option.map_eq_some_iff]
  constructor
  · rintro ⟨n, hn, heq⟩
    obtain ⟨rfl, rfl⟩ := Prod.mk.inj heq
    exact ⟨n, hn, rfl, rfl⟩
  · rintro ⟨n, hn, rfl, rfl⟩
    exact ⟨n, hn, rfl⟩

/-- What follows when a session has come or gone leaves the sessions, the registry and the tasks alone. -/
theorem stepChange_same {c : Change} {next : Option Change} (changed : s.stepChange c = (u, next)) :
    u = { s with
      created := u.created, destroyed := u.destroyed, publication := u.publication, log := u.log } := by
  obtain ⟨n, comes, stage⟩ := c
  obtain rfl : (s.stepChange ⟨n, comes, stage⟩).1 = u := by rw [changed]
  cases stage with
  | counting => cases comes <;> rfl
  | recording active => cases comes <;> rfl
  | publishing => rfl
  | announcing =>
    unfold stepChange announceChange
    dsimp only
    split
    · rfl
    · split <;> rfl

/-- The last of the steps is the announcement, and the one before it tells the directory. -/
theorem stepChange_next {c : Change} {next : Option Change} (changed : s.stepChange c = (u, next)) :
    (c.stage = .announcing ∧ next = none) ∨
      (c.stage ≠ .announcing ∧ ∃ stage, next = some { c with stage } ∧
        (stage = .announcing ↔ c.stage = .publishing)) := by
  obtain ⟨m, comes, stage⟩ := c
  cases stage <;> obtain ⟨rfl, rfl⟩ := Prod.mk.inj changed <;> simp

/-! ## What tasks do next -/

/-- A call of start goes on. -/
inductive StartTurn (s : Server) : StartStage → Server → StartStage → Prop where
  | begins (stopped : s.status = .stopped) :
      StartTurn s .asking ((s.storeStatus .starting).recordStatus .starting) .binding
  | refused (running : s.status ≠ .stopped) : StartTurn s .asking s (.finished (.ok ()))
  | spawns (address : SocketAddress) :
      StartTurn s (.spawning address) (s.addTask (.accept ⟨.waiting, false, []⟩))
        (.keepingEndpoint address s.nextTask)
  | keepsEndpoint (address : SocketAddress) (acceptor : Nat) :
      StartTurn s (.keepingEndpoint address acceptor) { s with endpoint := some ⟨address, acceptor⟩ }
        .keepingTime
  | keepsTime : StartTurn s .keepingTime { s with startedAt := some s.now } .storing
  | stores : StartTurn s .storing (s.storeStatus .started) .recording
  | records : StartTurn s .recording (s.recordStatus .started) (.finished (.ok ()))
  | givesUp (e : SessionError) : StartTurn s (.givingUp e) (s.storeStatus .stopped) (.recordingFailure e)
  | recordsFailure (e : SessionError) :
      StartTurn s (.recordingFailure e) (s.recordStatus .stopped) (.finished (.error e))

theorem stepStart_turn {stage : StartStage} (ready : s.taskIsReady (.start stage) = true) (id : Nat) :
    ∃ u next, s.StartTurn stage u next ∧ s.stepStart id stage = u.setTask id (.start next) := by
  cases stage with
  | asking =>
    by_cases hstopped : s.status = .stopped
    · exact ⟨_, _, .begins hstopped, by simp [stepStart, transition, hstopped]⟩
    · exact ⟨_, _, .refused hstopped, by simp [stepStart, transition, hstopped]⟩
  | binding | naming | finished => cases ready
  | spawning address => exact ⟨_, _, .spawns address, rfl⟩
  | keepingEndpoint address acceptor => exact ⟨_, _, .keepsEndpoint address acceptor, rfl⟩
  | keepingTime => exact ⟨_, _, .keepsTime, rfl⟩
  | storing => exact ⟨_, _, .stores, rfl⟩
  | recording => exact ⟨_, _, .records, rfl⟩
  | givingUp e => exact ⟨_, _, .givesUp e, rfl⟩
  | recordingFailure e => exact ⟨_, _, .recordsFailure e, rfl⟩

/-- A call of stop goes on. -/
inductive StopTurn (s : Server) : StopStage → Server → StopStage → Prop where
  | begins (started : s.status = .started) :
      StopTurn s .asking ((s.storeStatus .stopping).recordStatus .stopping) (.listing false)
  | refused (idle : s.status ≠ .started) : StopTurn s .asking s .finished
  | lists (isLast : Bool) : StopTurn s (.listing isLast) s (nextOfPass s.registered.toList isLast)
  /-- Nothing is left of a pass. -/
  | passes (stage : StopStage) (isLast : Bool)
      (empty : stage = .disconnecting [] isLast ∨ stage = .removing [] isLast) :
      StopTurn s stage s (nextOfPass [] isLast)
  | disconnects (connection n : Nat) (rest : List (Nat × Nat)) (isLast : Bool) (next : StopStage)
      (waits : (∃ wake, next = .waiting wake ((connection, n) :: rest) isLast) ∨
        next = .removing ((connection, n) :: rest) isLast) :
      StopTurn s (.disconnecting ((connection, n) :: rest) isLast)
        (s.updateSession n fun x => x.disconnect.1) next
  | awaits (wake : Instant) (rest : List (Nat × Nat)) (isLast : Bool) :
      StopTurn s (.waiting wake rest isLast) s (.removing rest isLast)
  | removes (connection n : Nat) (rest : List (Nat × Nat)) (isLast : Bool) (u : Server) (c : Change)
      (removed : s.remove? connection = some (u, c)) :
      StopTurn s (.removing ((connection, n) :: rest) isLast) u (.changing c rest isLast)
  | misses (connection n : Nat) (rest : List (Nat × Nat)) (isLast : Bool)
      (missing : s.remove? connection = none) :
      StopTurn s (.removing ((connection, n) :: rest) isLast) s (nextOfPass rest isLast)
  | changes (c : Change) (rest : List (Nat × Nat)) (isLast : Bool) (u : Server) (c' : Change)
      (changed : s.stepChange c = (u, some c')) :
      StopTurn s (.changing c rest isLast) u (.changing c' rest isLast)
  | announces (c : Change) (rest : List (Nat × Nat)) (isLast : Bool) (u : Server)
      (changed : s.stepChange c = (u, none)) :
      StopTurn s (.changing c rest isLast) u (nextOfPass rest isLast)
  | takesEndpoint (e : Endpoint) (endpoint : s.endpoint = some e) :
      StopTurn s .takingEndpoint ({ s with endpoint := none }.shutDown e.acceptor) (.joining e.acceptor)
  | findsNone (endpoint : s.endpoint = none) : StopTurn s .takingEndpoint s (.listing true)
  | joins (acceptor : Nat) (ended : s.hasEnded acceptor = true) :
      StopTurn s (.joining acceptor) s (.listing true)
  | clearsTime : StopTurn s .clearingTime { s with startedAt := none } .storing
  | stores : StopTurn s .storing (s.storeStatus .stopped) .recording
  | records : StopTurn s .recording (s.recordStatus .stopped) .finished

theorem stepStop_turn {stage : StopStage} (ready : s.taskIsReady (.stop stage) = true) (id : Nat) :
    ∃ u next, s.StopTurn stage u next ∧ s.stepStop id stage = u.setTask id (.stop next) := by
  cases stage with
  | asking =>
    by_cases hstarted : s.status = .started
    · exact ⟨_, _, .begins hstarted, by simp [stepStop, transition, hstarted]⟩
    · exact ⟨_, _, .refused hstarted, by simp [stepStop, transition, hstarted]⟩
  | listing isLast => exact ⟨_, _, .lists isLast, rfl⟩
  | disconnecting rest isLast =>
    match rest with
    | [] => exact ⟨_, _, .passes _ isLast (.inl rfl), rfl⟩
    | (connection, n) :: rest =>
      refine ⟨_, _, .disconnects connection n rest isLast _ ?_, rfl⟩
      split
      · exact .inl ⟨_, rfl⟩
      · exact .inr rfl
  | waiting wake rest isLast => exact ⟨_, _, .awaits wake rest isLast, rfl⟩
  | removing rest isLast =>
    match rest with
    | [] => exact ⟨_, _, .passes _ isLast (.inr rfl), rfl⟩
    | (connection, n) :: rest =>
      cases hremoved : s.remove? connection with
      | none => exact ⟨_, _, .misses connection n rest isLast hremoved, by simp [stepStop, hremoved]⟩
      | some uc =>
        exact ⟨_, _, .removes connection n rest isLast uc.1 uc.2 hremoved, by simp [stepStop, hremoved]⟩
  | changing c rest isLast =>
    cases hchanged : s.stepChange c with
    | mk u next =>
      cases next with
      | none => exact ⟨_, _, .announces c rest isLast u hchanged, by simp [stepStop, hchanged]⟩
      | some c' => exact ⟨_, _, .changes c rest isLast u c' hchanged, by simp [stepStop, hchanged]⟩
  | takingEndpoint =>
    cases hendpoint : s.endpoint with
    | none => exact ⟨_, _, .findsNone hendpoint, by simp [stepStop, hendpoint]⟩
    | some e => exact ⟨_, _, .takesEndpoint e hendpoint, by simp [stepStop, hendpoint]⟩
  | joining acceptor => exact ⟨_, _, .joins acceptor ready, rfl⟩
  | clearingTime => exact ⟨_, _, .clearsTime, rfl⟩
  | storing => exact ⟨_, _, .stores, rfl⟩
  | recording => exact ⟨_, _, .records, rfl⟩
  | finished => cases ready

/-- A loop that accepts connections goes on. -/
inductive AcceptTurn (s : Server) (x : Acceptor) : Server → Acceptor → Prop where
  | finishes (waiting : x.stage = .waiting) (told : x.isShutDown = true) :
      AcceptTurn s x s { x with stage := .finished }
  | takes (waiting : x.stage = .waiting) (going : x.isShutDown = false) (backlog : List Arrival)
      (stage : AcceptStage) (taken : (∃ a, stage = .checking a) ∨ stage = .waiting) :
      AcceptTurn s x s { x with backlog, stage }
  | admits (a : Arrival) (checking : x.stage = .checking a) (started : s.status = .started) :
      AcceptTurn s x s { x with stage := .inserting a }
  | turnsAway (a : Arrival) (checking : x.stage = .checking a) (idle : s.status ≠ .started) :
      AcceptTurn s x (s.note (.turnedAway a.peer)) { x with stage := .waiting }
  | enrolls (a : Arrival) (inserting : x.stage = .inserting a) (u : Server) (connection : Nat) (c : Change)
      (enrolled : s.enroll (some a.peer) = (u, connection, c)) :
      AcceptTurn s x u { x with stage := .changing connection c }
  | changes (connection : Nat) (c : Change) (changing : x.stage = .changing connection c) (u : Server)
      (c' : Change) (changed : s.stepChange c = (u, some c')) :
      AcceptTurn s x u { x with stage := .changing connection c' }
  | announces (connection : Nat) (c : Change) (changing : x.stage = .changing connection c) (u : Server)
      (changed : s.stepChange c = (u, none)) :
      AcceptTurn s x (u.addTask (.serve connection c.session .reading)) { x with stage := .waiting }

theorem stepAccept_turn {x : Acceptor} (ready : s.taskIsReady (.accept x) = true) (id : Nat) :
    ∃ u next, s.AcceptTurn x u next ∧ s.stepAccept id x = u.setTask id (.accept next) := by
  obtain ⟨stage, isShutDown, backlog⟩ := x
  cases stage with
  | waiting =>
    cases isShutDown with
    | true => exact ⟨_, _, .finishes rfl rfl, rfl⟩
    | false =>
      cases backlog with
      | nil => cases ready
      | cons a backlog =>
        refine ⟨_, _, .takes rfl rfl backlog (if a.isUsable then .checking a else .waiting) ?_, rfl⟩
        split
        · exact .inl ⟨a, rfl⟩
        · exact .inr rfl
  | checking a =>
    by_cases hstarted : s.status = .started
    · exact ⟨_, _, .admits a rfl hstarted, by simp [stepAccept, hstarted]⟩
    · exact ⟨_, _, .turnsAway a rfl hstarted, by simp [stepAccept, hstarted]⟩
  | inserting a => exact ⟨_, _, .enrolls a rfl _ _ _ rfl, rfl⟩
  | changing connection c =>
    cases hchanged : s.stepChange c with
    | mk u next =>
      cases next with
      | none => exact ⟨_, _, .announces connection c rfl u hchanged, by simp [stepAccept, hchanged]⟩
      | some c' => exact ⟨_, _, .changes connection c rfl u c' hchanged, by simp [stepAccept, hchanged]⟩
  | finished => cases ready

/-- The task of a session goes on. -/
inductive ServeTurn (s : Server) (connection n : Nat) : ServeStage → Server → ServeStage → Prop where
  | leaves (ended : ∀ x, s.session? n = some x → x.reader = .finished) :
      ServeTurn s connection n .reading s .removing
  | removes (u : Server) (c : Change) (removed : s.remove? connection = some (u, c)) :
      ServeTurn s connection n .removing u (.changing c)
  | misses (missing : s.remove? connection = none) : ServeTurn s connection n .removing s .finished
  | changes (c : Change) (u : Server) (c' : Change) (changed : s.stepChange c = (u, some c')) :
      ServeTurn s connection n (.changing c) u (.changing c')
  | announces (c : Change) (u : Server) (changed : s.stepChange c = (u, none)) :
      ServeTurn s connection n (.changing c) u .finished

theorem stepServe_turn {connection n : Nat} {stage : ServeStage}
    (ready : s.taskIsReady (.serve connection n stage) = true) (id : Nat) :
    ∃ u next, s.ServeTurn connection n stage u next ∧
      s.stepServe id connection n stage = u.setTask id (.serve connection n next) := by
  cases stage with
  | reading =>
    refine ⟨_, _, .leaves fun x hx => ?_, rfl⟩
    simpa [taskIsReady, hx] using ready
  | removing =>
    cases hremoved : s.remove? connection with
    | none => exact ⟨_, _, .misses hremoved, by simp [stepServe, hremoved]⟩
    | some uc => exact ⟨_, _, .removes uc.1 uc.2 hremoved, by simp [stepServe, hremoved]⟩
  | changing c =>
    cases hchanged : s.stepChange c with
    | mk u next =>
      cases next with
      | none => exact ⟨_, _, .announces c u hchanged, by simp [stepServe, hchanged]⟩
      | some c' => exact ⟨_, _, .changes c u c' hchanged, by simp [stepServe, hchanged]⟩
  | finished => cases ready

/-- A task goes on: what it does, what that changes besides itself, and what it does then. -/
inductive Turn (s : Server) : Activity → Server → Activity → Prop where
  | start {stage next : StartStage} {u : Server} (turn : s.StartTurn stage u next) :
      Turn s (.start stage) u (.start next)
  | stop {stage next : StopStage} {u : Server} (turn : s.StopTurn stage u next) :
      Turn s (.stop stage) u (.stop next)
  | accept {x next : Acceptor} {u : Server} (turn : s.AcceptTurn x u next) :
      Turn s (.accept x) u (.accept next)
  | serve {connection n : Nat} {stage next : ServeStage} {u : Server}
      (turn : s.ServeTurn connection n stage u next) :
      Turn s (.serve connection n stage) u (.serve connection n next)

theorem stepTask_turn {t : ServerTask} (ready : s.taskIsReady t.activity = true) :
    ∃ u b, s.Turn t.activity u b ∧ s.stepTask t = u.setTask t.id b := by
  obtain ⟨id, a⟩ := t
  cases a with
  | start stage =>
    obtain ⟨u, next, turn, heq⟩ := stepStart_turn ready id
    exact ⟨u, _, .start turn, heq⟩
  | stop stage =>
    obtain ⟨u, next, turn, heq⟩ := stepStop_turn ready id
    exact ⟨u, _, .stop turn, heq⟩
  | accept x =>
    obtain ⟨u, next, turn, heq⟩ := stepAccept_turn ready id
    exact ⟨u, _, .accept turn, heq⟩
  | serve connection n stage =>
    obtain ⟨u, next, turn, heq⟩ := stepServe_turn ready id
    exact ⟨u, _, .serve turn, heq⟩

/-! ## The other tasks -/

/-- What becomes of the tasks, apart from the one that goes on, which did `a`. -/
inductive Crew (s : Server) (a : Activity) (u : Server) : Prop where
  | same (tasks : u.tasks = s.tasks) (next : u.nextTask = s.nextTask)
  /-- A start has a loop, or a loop a session. -/
  | added (c : Activity) (new : (∃ stage, a = .start stage) ∧ c = .accept ⟨.waiting, false, []⟩ ∨
        ∃ x connection d, a = .accept x ∧ x.stage = .changing connection d ∧ d.stage = .announcing ∧
          c = .serve connection d.session .reading)
      (tasks : u.tasks = (s.addTask c).tasks) (next : u.nextTask = (s.addTask c).nextTask)
  /-- A stop has told a loop to stop. -/
  | told (k : Nat) (x : Acceptor) (there : s.activity? k = some (.accept x)) (ends : a = .stop .takingEndpoint)
      (tasks : u.tasks = (s.setTask k (.accept { x with isShutDown := true })).tasks) (next : u.nextTask = s.nextTask)

theorem Crew.of_change {c : Change} {next : Option Change} (changed : s.stepChange c = (u, next)) : s.Crew a u :=
  .same (by rw [stepChange_same changed]) (by rw [stepChange_same changed])

theorem Crew.of_remove {connection : Nat} {c : Change} (removed : s.remove? connection = some (u, c)) :
    s.Crew a u := by
  obtain ⟨m, -, rfl, -⟩ := remove?_eq_some.mp removed
  exact .same rfl rfl

theorem Turn.crew (turn : s.Turn a u b) : s.Crew a u := by
  cases turn with
  | start turn =>
    cases turn with
    | spawns address => exact .added _ (.inl ⟨⟨_, rfl⟩, rfl⟩) rfl rfl
    | _ => exact .same rfl rfl
  | stop turn =>
    cases turn with
    | disconnects => exact .same (by rw [updateSession_same]) (by rw [updateSession_same])
    | removes connection n rest isLast _ c removed => exact .of_remove removed
    | changes c rest isLast u c' changed => exact .of_change changed
    | announces c rest isLast u changed => exact .of_change changed
    | takesEndpoint e endpoint =>
      cases hx : { s with endpoint := none }.acceptor? e.acceptor with
      | none => exact .same (by rw [shutDown, hx]) (by rw [shutDown, hx])
      | some x =>
        rw [acceptor?_eq_some] at hx
        exact .told e.acceptor x hx rfl (by rw [shutDown_eq hx]; rfl) (by rw [shutDown_eq hx]; rfl)
    | _ => exact .same rfl rfl
  | accept turn =>
    cases turn with
    | enrolls a inserting _ connection c enrolled =>
      obtain rfl := congrArg Prod.fst enrolled
      exact .same rfl rfl
    | changes connection c changing u c' changed => exact .of_change changed
    | announces connection c changing u changed =>
      have hlast : c.stage = .announcing := by
        rcases stepChange_next changed with ⟨hstage, -⟩ | ⟨-, stage, hnext, -⟩
        · exact hstage
        · cases hnext
      refine .added _ (.inr ⟨_, connection, c, rfl, changing, hlast, rfl⟩) ?_ ?_ <;> rw [stepChange_same changed] <;> rfl
    | _ => exact .same rfl rfl
  | serve turn =>
    cases turn with
    | removes _ c removed => exact .of_remove removed
    | changes c u c' changed => exact .of_change changed
    | announces c u changed => exact .of_change changed
    | _ => exact .same rfl rfl

/-- Ids still tell the tasks apart when a task has gone on. -/
theorem Turn.numbered (turn : s.Turn a u b) (h : s.Numbered) : u.Numbered := by
  cases turn.crew with
  | same tasks next => exact h.congr tasks next
  | added c new tasks next => exact (h.addTask c).congr tasks next
  | told k x there ends tasks next => exact (h.setTask k _).congr tasks next

/-- What a task may be about when another one, which did `a`, has gone on. -/
inductive Beside (s : Server) (a : Activity) (j : Nat) : Activity → Prop where
  | stays {c : Activity} (found : s.activity? j = some c) : Beside s a j c
  | told {x : Acceptor} (found : s.activity? j = some (.accept x)) (ends : a = .stop .takingEndpoint) :
      Beside s a j (.accept { x with isShutDown := true })
  | spawned (starts : ∃ stage, a = .start stage) : Beside s a j (.accept ⟨.waiting, false, []⟩)
  | served {x : Acceptor} {connection : Nat} {c : Change} (accepts : a = .accept x)
      (changing : x.stage = .changing connection c) (announces : c.stage = .announcing) :
      Beside s a j (.serve connection c.session .reading)

theorem Turn.beside (turn : s.Turn a u b) (h : s.Numbered) {j : Nat} {c : Activity}
    (hj : u.activity? j = some c) : s.Beside a j c := by
  cases turn.crew with
  | same tasks next => exact .stays ((activity?_congr tasks j).symm.trans hj)
  | added d new tasks next =>
    rw [activity?_congr tasks, activity?_addTask h] at hj
    split at hj
    · obtain rfl := Option.some.inj hj
      rcases new with ⟨starts, rfl⟩ | ⟨x, connection, d, accepts, changing, announces, rfl⟩
      · exact .spawned starts
      · exact .served accepts changing announces
    · exact .stays hj
  | told k x there ends tasks next =>
    rw [activity?_congr tasks, activity?_setTask] at hj
    split at hj
    · rename_i heq
      rw [heq, there, Option.map_some, Option.some.injEq] at hj
      subst hj
      exact .told (heq ▸ there) ends
    · exact .stays hj

/-- After a turn, a task does what the turn came to, or it is another one. -/
theorem Turn.activity? (turn : s.Turn a u b) (h : s.Numbered) {j : Nat} {c : Activity}
    (hj : (u.setTask id b).activity? j = some c) : j = id ∧ c = b ∨ j ≠ id ∧ s.Beside a j c := by
  rw [activity?_setTask] at hj
  split at hj
  · rename_i hid
    obtain ⟨_, -, rfl⟩ := Option.map_eq_some_iff.mp hj
    exact .inl ⟨hid, rfl⟩
  · rename_i hid
    exact .inr ⟨hid, turn.beside h hj⟩

/-- The task itself does what the turn came to. -/
theorem Turn.own (turn : s.Turn a u b) (h : s.Numbered) (found : s.activity? id = some a) :
    (u.setTask id b).activity? id = some b := by
  have there : (u.activity? id).isSome := by
    cases turn.crew with
    | same tasks next => rw [activity?_congr tasks, found, Option.isSome_some]
    | added d new tasks next =>
      rw [activity?_congr tasks, activity?_addTask h, if_neg (Nat.ne_of_lt (h.lt_of_activity? found)), found,
        Option.isSome_some]
    | told k x there ends tasks next =>
      rw [activity?_congr tasks, activity?_setTask, found]
      split <;> rfl
  obtain ⟨c, hc⟩ := Option.isSome_iff_exists.mp there
  exact activity?_setTask_self hc b

/-- The other tasks stay what they are, but a loop may be told to stop. -/
theorem Turn.stays (turn : s.Turn a u b) (h : s.Numbered) {j : Nat} {c : Activity} (hj : j ≠ id)
    (found : s.activity? j = some c) : (u.setTask id b).activity? j = some c ∨
      ∃ x, c = .accept x ∧ (u.setTask id b).activity? j = some (.accept { x with isShutDown := true }) := by
  rw [activity?_setTask_of_ne hj]
  cases turn.crew with
  | same tasks next => exact .inl ((activity?_congr tasks j).trans found)
  | added d new tasks next =>
    rw [activity?_congr tasks, activity?_addTask h, if_neg (Nat.ne_of_lt (h.lt_of_activity? found))]
    exact .inl found
  | told k x there ends tasks next =>
    rw [activity?_congr tasks, activity?_setTask]
    split
    · rename_i heq
      obtain rfl : c = .accept x := Option.some.inj (found.symm.trans (heq ▸ there))
      exact .inr ⟨x, rfl, by rw [found]; rfl⟩
    · exact .inl found

end Smsc.Server
