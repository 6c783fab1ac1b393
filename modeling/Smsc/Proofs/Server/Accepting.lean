import Smsc.Proofs.Server.Stop

/-!
# Smsc.Proofs.Server.Accepting — what becomes of a connection that a loop accepts

A loop accepts a connection, looks at the status, and makes a session for the connection if the server is
started. A start makes the loop before it stores the status, so that the loop may look too early.

* `Server.Accepts s k a`: in its next turn loop `k` accepts the connection `a`;
* `Server.IsStarting s k`, `Server.IsStopping s`: the start that has made loop `k` is still to store the
  status, or a stop has moved it on; `In.of_checking`: a server with a connection in hand that is not
  started is in one of these states;
* `Server.Serves s n a`: session `n` is registered for `a`;
* `Server.Welcomes s k a excuse`: the connection gets its session, unless there is an excuse;
* `turned_away_while_starting`: a stop is not the only excuse; `accepted_gets_session`: an early look is the
  only other one.
-/

namespace Smsc

/-- The loop that a start has made and not told the status of yet, if it has made one. -/
def StartStage.loop? (endpoint : Option Endpoint) : StartStage → Option Nat
  | .keepingEndpoint _ acceptor => some acceptor
  | .keepingTime | .storing => endpoint.map (·.acceptor)
  | _ => none

/-- A start is aside, or in charge in one of four ways. -/
theorem StartStage.part_cases (stage : StartStage) : stage.part = .aside ∨ stage.part = .preparing ∨
    (∃ k, stage.part = .holding k) ∨ stage.part = .listening ∨ stage.part = .opening := by
  cases stage <;> simp [part]

/-- A stop is aside, or in charge in one of four others. -/
theorem StopStage.part_cases (stage : StopStage) : stage.part = .aside ∨ stage.part = .dismissing ∨
    (∃ k, stage.part = .joining k) ∨ stage.part = .clearing ∨ stage.part = .closing := by
  have ofPass (isLast : Bool) : Part.ofPass isLast = .dismissing ∨ Part.ofPass isLast = .clearing := by
    cases isLast <;> simp [Part.ofPass]
  cases stage with
  | listing isLast | disconnecting _ isLast | waiting _ _ isLast | removing _ isLast | changing _ _ isLast =>
    rcases ofPass isLast with h | h <;> simp [part, h]
  | _ => simp [part]

namespace Server

variable {s t u : Server} {p : Phase} {k : Nat} {a : Arrival} {stage : AcceptStage} {ys : List Step}

/-! ## What is said of a connection -/

/-- In its next turn loop `k` accepts the connection `a`, and its socket can be set up. -/
def Accepts (s : Server) (k : Nat) (a : Arrival) : Prop :=
  a.isUsable = true ∧ ∃ backlog, s.activity? k = some (.accept ⟨.waiting, false, a :: backlog⟩)

/-- The start that has made loop `k` is still to store that the server is started. -/
def IsStarting (s : Server) (k : Nat) : Prop :=
  s.status = .starting ∧ ∃ id stage, s.activity? id = some (.start stage) ∧ stage.loop? s.endpoint = some k

/-- A stop has moved the status on, and has not ended. -/
def IsStopping (s : Server) : Prop :=
  s.status = .stopping ∧ ∃ id stage, s.activity? id = some (.stop stage) ∧ (Activity.stop stage).IsInCharge

/-- Session `n` is registered, and it is that of the connection `a`. -/
structure Serves (s : Server) (n : Nat) (a : Arrival) : Prop where
  registered : s.registered.find? (n + 1) = some n
  session : ∃ x, s.session? n = some x ∧ x.peer = some a.peer

/-- Whatever the others do meanwhile, loop `k` looks at the status in the turn after it has accepted the
connection `a`, and in the turn after that it registers a session for it, unless there was an excuse when it
looked. -/
def Welcomes (s : Server) (k : Nat) (a : Arrival) (excuse : Server → Prop) : Prop :=
  ∀ ys zs, Step.move (.task k) ∉ ys → Step.move (.task k) ∉ zs →
    let looking := (s.step (.move (.task k))).after ys
    let registering := (looking.step (.move (.task k))).after zs
    looking.can (.task k) = true ∧
      (excuse looking ∨ registering.can (.task k) = true ∧
        (registering.step (.move (.task k))).Serves registering.sessions.length a)

/-- Whatever happens, every connection that a loop accepts gets its session, unless a stop has moved the status
on when the loop looks. -/
def AlwaysWelcomes : Prop :=
  ∀ (settings : ServerSettings) (sessionSettings : SessionSettings) (publication : Publication ManagedObject)
    (processor : Nat) (xs : List Step) (k : Nat) (a : Arrival),
    ((fresh settings sessionSettings publication processor).after xs).Accepts k a →
      ((fresh settings sessionSettings publication processor).after xs).Welcomes k a IsStopping

/-! ## Where a loop has got to -/

/-- Where loop `k` has got to. -/
def loopStage? (s : Server) (k : Nat) : Option AcceptStage := (s.acceptor? k).map (·.stage)

theorem loopStage?_eq_some :
    s.loopStage? k = some stage ↔ ∃ x, s.activity? k = some (.accept x) ∧ x.stage = stage := by
  unfold loopStage?
  simp only [Option.map_eq_some_iff, acceptor?_eq_some]

/-- A loop stays where it is while others go on. -/
theorem loopStage?_step (hn : s.Numbered) {x : Step} (others : x ≠ .move (.task k))
    (h : s.loopStage? k = some stage) : (s.step x).loopStage? k = some stage := by
  obtain ⟨y, found, hy⟩ := loopStage?_eq_some.mp h
  obtain ⟨d, hd, hawaits⟩ := step_awaits hn others found
  rw [loopStage?_eq_some]
  cases hawaits with
  | same => exact ⟨y, hd, hy⟩
  | loop y isShutDown backlog => exact ⟨_, hd, hy⟩

theorem loopStage?_after (hs : s.Sound) (others : Step.move (.task k) ∉ ys)
    (h : s.loopStage? k = some stage) : (s.after ys).loopStage? k = some stage := by
  induction ys generalizing s with
  | nil => exact h
  | cons y ys ih =>
    rw [List.mem_cons, not_or] at others
    exact ih (hs.step y) others.2 (loopStage?_step hs.orderly.numbered (Ne.symm others.1) h)

/-- A loop with a connection in hand is never held up. -/
theorem can_of_loopStage? (h : s.loopStage? k = some stage) (busy : ∃ a, stage = .checking a ∨ stage = .inserting a) :
    s.can (.task k) = true := by
  obtain ⟨x, found, hx⟩ := loopStage?_eq_some.mp h
  obtain ⟨task, hfind, htask⟩ := Option.map_eq_some_iff.mp found
  rw [Server.can, hfind, Option.any_some, htask]
  obtain ⟨a, rfl | rfl⟩ := busy <;> simp [taskIsReady, hx]

/-! ## The turns of a loop with a connection -/

theorem Accepts.step (h : s.Accepts k a) : (s.step (.move (.task k))).loopStage? k = some (.checking a) := by
  obtain ⟨usable, backlog, found⟩ := h
  rw [step_task found rfl, loopStage?_eq_some]
  refine ⟨⟨.checking a, false, backlog⟩, ?_, rfl⟩
  simpa [stepTask, stepAccept, usable] using activity?_setTask_self found _

/-- A loop that looks at the status of a started server goes on to make a session. -/
theorem step_of_checking (h : s.loopStage? k = some (.checking a)) (started : s.status = .started) :
    (s.step (.move (.task k))).loopStage? k = some (.inserting a) := by
  obtain ⟨x, found, hx⟩ := loopStage?_eq_some.mp h
  rw [step_task found (by simp [taskIsReady, hx]), loopStage?_eq_some]
  refine ⟨{ x with stage := .inserting a }, ?_, rfl⟩
  simpa [stepTask, stepAccept, hx, started] using activity?_setTask_self found _

/-- A loop that makes a session for a connection registers it. -/
theorem serves_of_inserting (hf : s.Filed) (h : s.loopStage? k = some (.inserting a)) :
    (s.step (.move (.task k))).Serves s.sessions.length a := by
  obtain ⟨x, found, hx⟩ := loopStage?_eq_some.mp h
  have heq : s.step (.move (.task k)) = (s.enroll (some a.peer)).1.setTask k
      (.accept { x with stage := .changing s.nextConnection ⟨s.sessions.length, true, .counting⟩ }) := by
    rw [step_task found (by simp [taskIsReady, hx])]
    simp [stepTask, stepAccept, hx, enroll_eq]
  rw [heq]
  constructor
  · show (s.enroll (some a.peer)).1.registered.find? (s.sessions.length + 1) = some s.sessions.length
    rw [(hf.enroll _).find?_iff]
    exact ⟨rfl, (hf.mem_enroll _).mpr (.inl rfl)⟩
  · exact ⟨_, session?_enroll_self s (some a.peer), rfl⟩

/-! ## Excuses -/

/-- Which start has made a loop and not told it the status yet, from its part. -/
theorem loop?_of_part {stage : StartStage} {endpoint : Option Endpoint} (h : stage.part = .holding k ∨
      endpoint.map (·.acceptor) = some k ∧ (stage.part = .listening ∨ stage.part = .opening)) :
    stage.loop? endpoint = some k := by
  cases stage <;> simp_all [StartStage.part, StartStage.loop?]

theorem In.isStarting (h : s.In p) {i : Nat} {r : Part} (call : p.call? = some (i, r)) (status : p.status = .starting)
    (hr : r = .holding k ∨ p.endpoint? = some k ∧ (r = .listening ∨ r = .opening)) : s.IsStarting k := by
  obtain ⟨c, found, hc⟩ := activity?_of_part (h.call i r call) (by rintro rfl; simp at hr)
  rw [← hc, ← h.endpoint] at hr
  refine ⟨h.status.trans status, i, ?_⟩
  cases c with
  | start stage => exact ⟨stage, found, loop?_of_part hr⟩
  | stop stage =>
    rw [Activity.part] at hr
    rcases stage.part_cases with hstage | hstage | ⟨_, hstage⟩ | hstage | hstage <;> simp [hstage] at hr
  | accept | serve => simp [Activity.part] at hr

theorem In.isStopping (h : s.In p) {i : Nat} {r : Part} (call : p.call? = some (i, r)) (status : p.status = .stopping)
    (hr : r = .dismissing ∨ r = .joining k) : s.IsStopping := by
  have charge : r.IsInCharge := by rcases hr with rfl | rfl <;> trivial
  obtain ⟨c, found, hc⟩ := activity?_of_part (h.call i r call) (by rintro rfl; exact charge)
  refine ⟨h.status.trans status, i, ?_⟩
  rw [← hc] at hr charge
  cases c with
  | stop stage => exact ⟨stage, found, charge⟩
  | start stage =>
    rw [Activity.part] at hr
    rcases stage.part_cases with hstage | hstage | ⟨_, hstage⟩ | hstage | hstage <;> simp [hstage] at hr
  | accept | serve => simp [Activity.part] at hr

/-- A server that is not started while a loop has a connection in hand has a call in charge: the start that has
made the loop, or a stop. -/
theorem In.of_checking (h : s.In p) (hk : s.loopStage? k = some (.checking a)) (idle : s.status ≠ .started) :
    s.IsStarting k ∨ s.IsStopping := by
  obtain ⟨x, found, hx⟩ := loopStage?_eq_some.mp hk
  have hpart : s.part k = .loop x.isShutDown false := by
    rw [part_of_activity? found, Activity.part, hx]
    rfl
  have hloop : p.loop? = some k ∨ p.joined? = some k := by
    rcases h.others k _ _ hpart with hloop | ⟨-, hended | hjoined⟩
    · exact .inl hloop
    · cases hended
    · exact .inr hjoined
  cases p with
  | stopped | preparing | clearing | closing => rcases hloop with h | h <;> cases h
  | holding i l =>
    obtain rfl : l = k := by simpa [Phase.loop?, Phase.joined?] using hloop
    exact .inl (h.isStarting rfl rfl (.inl rfl))
  | listening i l =>
    obtain rfl : l = k := by simpa [Phase.loop?, Phase.joined?] using hloop
    exact .inl (h.isStarting rfl rfl (.inr ⟨rfl, .inl rfl⟩))
  | opening i l =>
    obtain rfl : l = k := by simpa [Phase.loop?, Phase.joined?] using hloop
    exact .inl (h.isStarting rfl rfl (.inr ⟨rfl, .inr rfl⟩))
  | started l => exact absurd h.status idle
  | dismissing i l => exact .inr (h.isStopping (k := l) rfl rfl (.inl rfl))
  | joining i l => exact .inr (h.isStopping rfl rfl (.inr rfl))

/-! ## Every connection -/

/-- A start has made its loop when a client connects, and is still to store the endpoint, the time and the
status. -/
def earlyClient : List Step :=
  let go (id : Nat) : Step := .move (.task id)
  [.feel .start, go 0, .feel (.bound 0 (.ok ())), .feel (.named 0 (.ok (.v4 ⟨0, 0, 0, 0⟩ 2775))), go 0,
    .feel (.connect 1 ⟨.v4 ⟨127, 0, 0, 1⟩ 5000, true⟩)]

theorem earlyClient_accepts : (idleServer.after earlyClient).Accepts 1 ⟨.v4 ⟨127, 0, 0, 1⟩ 5000, true⟩ :=
  ⟨rfl, [], rfl⟩

/-- The loop accepts the connection and looks at the status at once; then the start goes on to its end. The
server is started, and the client has been turned away. -/
theorem earlyClient_turned_away :
    let looking := (idleServer.after earlyClient).step (.move (.task 1))
    let started := (looking.step (.move (.task 1))).after (List.replicate 4 (.move (.task 0)))
    looking.status = .starting ∧ started.status = .started ∧ started.sessions.length = 0 ∧
      started.can (.task 1) = false ∧ .turnedAway (.v4 ⟨127, 0, 0, 1⟩ 5000) ∈ started.log := by
  decide +kernel

theorem turned_away_while_starting : ¬ AlwaysWelcomes := by
  intro always
  have hwelcomes := always _ _ (some .empty) 0 earlyClient 1 _ earlyClient_accepts
  obtain ⟨starting, -, -, waits, -⟩ := earlyClient_turned_away
  obtain ⟨-, stopping | ⟨goes, -⟩⟩ :=
    hwelcomes [] (List.replicate 4 (.move (.task 0))) List.not_mem_nil (by simp)
  · exact absurd (starting.symm.trans stopping.1) nofun
  · exact absurd (waits.symm.trans goes) nofun

/-- In every run, a connection that a loop accepts gets its session, unless the start that has made the loop is
still to store the status when the loop looks, or a stop has moved it on. -/
theorem accepted_gets_session (settings : ServerSettings) (sessionSettings : SessionSettings)
    (publication : Publication ManagedObject) (processor : Nat) (xs : List Step) (k : Nat) (a : Arrival)
    (accepts : ((fresh settings sessionSettings publication processor).after xs).Accepts k a) :
    ((fresh settings sessionSettings publication processor).after xs).Welcomes k a
      fun t => t.IsStarting k ∨ t.IsStopping := by
  have hs := (fresh_sound settings sessionSettings publication processor).after xs
  generalize (fresh settings sessionSettings publication processor).after xs = s at hs accepts
  intro ys zs hys hzs looking registering
  have hlooking : looking.Sound := (hs.step _).after ys
  have hchecking : looking.loopStage? k = some (.checking a) := loopStage?_after (hs.step _) hys accepts.step
  refine ⟨can_of_loopStage? hchecking ⟨a, .inl rfl⟩, ?_⟩
  by_cases started : looking.status = .started
  · have hinserting : registering.loopStage? k = some (.inserting a) :=
      loopStage?_after (hlooking.step _) hzs (step_of_checking hchecking started)
    have hregistering : registering.Sound := (hlooking.step _).after zs
    exact .inr ⟨can_of_loopStage? hinserting ⟨a, .inr rfl⟩,
      serves_of_inserting hregistering.matched.toFiled hinserting⟩
  · obtain ⟨p, hp⟩ := hlooking.orderly.phase
    exact .inl (hp.of_checking hchecking started)

/-- The same client is lucky when the start stores the status before the loop looks. A stop that begins after
that makes no difference. -/
def luckyClient : List Step :=
  earlyClient ++ [.move (.task 1)] ++ List.replicate 3 (.move (.task 0)) ++ [.move (.task 1)] ++
    [.feel .stop, .move (.task 2)] ++ [.move (.task 1)]

theorem luckyClient_gets_session :
    (idleServer.after earlyClient).Accepts 1 ⟨.v4 ⟨127, 0, 0, 1⟩ 5000, true⟩ ∧
      (idleServer.after luckyClient).status = .stopping ∧
      (idleServer.after luckyClient).Serves 0 ⟨.v4 ⟨127, 0, 0, 1⟩ 5000, true⟩ := by
  have started : (((idleServer.after earlyClient).step (.move (.task 1))).after
      (List.replicate 3 (.move (.task 0)))).status = .started := by decide +kernel
  refine ⟨earlyClient_accepts, by decide +kernel, ?_⟩
  obtain ⟨-, (starting | stopping) | ⟨-, serves⟩⟩ := accepted_gets_session _ _ (some .empty) 0 earlyClient 1 _
    earlyClient_accepts (List.replicate 3 (.move (.task 0))) [.feel .stop, .move (.task 2)] (by simp) (by simp)
  · exact absurd (started.symm.trans starting.1) nofun
  · exact absurd (started.symm.trans stopping.1) nofun
  · rw [luckyClient]
    simp only [after_append]
    exact serves

end Server

end Smsc
