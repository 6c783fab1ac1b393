import Smsc.Proofs.Server.Stop

/-!
# Smsc.Proofs.Server.Gauges — what the gauges of a server show in the end

Two gauges show how many sessions are registered and what the status is. Whoever changes one of these reads
the new value and records it later, while others may change it and record it too. So a gauge may be left with
a value that was overtaken.

* `Gauge`; `Server.truth s g`: what a gauge should show; `Server.shown? s g`: what was last recorded of it;
* `Debt`, `Activity.debt?`: what a task has still to record; `Server.records? s g x`: what a step records;
* `Tells s g a u b`, `Turn.tells`: what a turn of a task does to a gauge; `step_marks`: what a step does;
* `truth_step`, `debt?_step`: who changes something without recording it owes the record until it is made;
  `truth_of_read`, `records?_eq_some`: what is recorded was true when it was read;
* `Overtaken s xs g task r i j`: the last record of a run is of a value that somebody else has changed since a
  task read it;
* `gauges_may_lie`: a run after which both gauges are wrong; `wrong_iff_overtaken`: when a gauge is wrong.
-/

namespace Smsc

/-- What a server keeps showing. -/
inductive Gauge where
  /-- How many sessions are registered. -/
  | sessions
  | status
  deriving DecidableEq, Repr

def Gauge.instrument : Gauge → Instrument
  | sessions => .sessionsActive
  | status => .serverStatus

/-- The value to which an event sets a gauge. -/
def ServerEvent.sets? (g : Gauge) : ServerEvent → Option Int
  | .measured ⟨instrument, _, .set v⟩ => if instrument = g.instrument then some v else none
  | _ => none

/-- What a task has still to record. -/
inductive Debt where
  /-- It has changed what a gauge should show, and not read it since. -/
  | unread
  | read (v : Int)

def Debt.read? : Debt → Option Int
  | unread => none
  | read v => some v

def Change.debt? (c : Change) : Option Debt :=
  match c.stage with
  | .counting => some .unread
  | .recording active => some (.read active)
  | .publishing | .announcing => none

/-- What a task has still to record of a gauge. -/
def Activity.debt? : Gauge → Activity → Option Debt
  | .sessions, a => a.change?.bind (·.debt?)
  | .status, .start .recording => some (.read (ServerStatus.gauge .started))
  | .status, .start (.recordingFailure _) | .status, .stop .recording =>
    some (.read (ServerStatus.gauge .stopped))
  | .status, _ => none

/-- Is this a call of start or stop, or about a session that comes or goes, that has begun and not ended? -/
def Activity.isUnderWay : Activity → Bool
  | .start .asking | .start (.finished _) | .stop .asking | .stop .finished => false
  | .start _ | .stop _ => true
  | a => a.change?.isSome

theorem Activity.debt?_of_idle {a : Activity} (idle : a.isUnderWay = false) (g : Gauge) : a.debt? g = none := by
  have hchange : a.change? = none := by
    cases a with
    | start => rfl
    | stop stage => cases stage <;> first | rfl | cases idle
    | accept | serve => simpa [isUnderWay] using idle
  cases g with
  | sessions => rw [debt?, hchange]; rfl
  | status =>
    cases a with
    | start stage | stop stage => cases stage <;> first | rfl | cases idle
    | accept | serve => rfl

namespace Server

variable {s t u : Server} {id j k l : Nat} {a b : Activity} {g : Gauge} {v : Int} {xs : List Step}

/-! ## What is said of a gauge -/

/-- What a gauge should show. -/
def truth (s : Server) : Gauge → Int
  | .sessions => s.active
  | .status => s.status.gauge

/-- What was last recorded of a gauge. -/
def shown? (s : Server) (g : Gauge) : Option Int := s.log.findSome? (·.sets? g)

/-- Every call has ended that has begun. -/
def Idle (s : Server) : Prop := ∀ t ∈ s.tasks, t.activity.isUnderWay = false

instance (s : Server) : Decidable s.Idle := inferInstanceAs (Decidable (∀ t ∈ s.tasks, _))

/-- What was last recorded of a gauge is not what it should show. -/
def IsWrong (s : Server) (g : Gauge) : Prop := ∃ v, s.shown? g = some v ∧ v ≠ s.truth g

/-- Once all calls have ended, what was last recorded of a gauge is what it should show. -/
def AlwaysTrue (g : Gauge) : Prop :=
  ∀ (settings : ServerSettings) (sessionSettings : SessionSettings) (publication : Publication ManagedObject)
    (processor : Nat) (xs : List Step), ((fresh settings sessionSettings publication processor).after xs).Idle →
    ¬ ((fresh settings sessionSettings publication processor).after xs).IsWrong g

/-- What a task has still to record of a gauge, if there is such a task. -/
def debt? (s : Server) (id : Nat) (g : Gauge) : Option Debt := (s.activity? id).bind (·.debt? g)

/-- What a task that does `a` records of a gauge in its next turn. A call that changes the status from one that
it expects records the new one in the same turn. -/
def nextRecord? (s : Server) : Gauge → Activity → Option Int
  | .status, .start .asking => if s.status = .stopped then some (ServerStatus.gauge .starting) else none
  | .status, .stop .asking => if s.status = .started then some (ServerStatus.gauge .stopping) else none
  | g, a => (a.debt? g).bind (·.read?)

/-- What a step records of a gauge. -/
def records? (s : Server) (g : Gauge) : Step → Option Int
  | .move (.task id) => (s.activity? id).bind (s.nextRecord? g)
  | _ => none

/-! ## The log -/

theorem shown?_note (s : Server) (e : ServerEvent) (g : Gauge) :
    (s.note e).shown? g = (e.sets? g).or (s.shown? g) := by
  rw [shown?, note, List.findSome?_cons]
  cases e.sets? g <;> rfl

theorem shown?_recordStatus (s : Server) (status : ServerStatus) (g : Gauge) :
    (s.recordStatus status).shown? g = if g = .status then some status.gauge else s.shown? g := by
  cases g <;> simp [recordStatus, measure, Measurement.serverStatus, shown?_note, ServerEvent.sets?, Gauge.instrument]

theorem shown?_recordChange (s : Server) (c : Change) (active : Nat) (g : Gauge) :
    (s.recordChange c active).shown? g = if g = .sessions then some (active : Int) else s.shown? g := by
  obtain ⟨n, comes, stage⟩ := c
  cases comes <;> cases g <;>
    simp [recordChange, measure, Measurement.sessionCreated, Measurement.sessionDestroyed, Measurement.count,
      Measurement.sessionsActive, shown?_note, ServerEvent.sets?, Gauge.instrument]

theorem shown?_announceChange (s : Server) (c : Change) (g : Gauge) : (s.announceChange c).shown? g = s.shown? g := by
  unfold announceChange
  dsimp only
  split
  · rfl
  · split <;> rw [shown?_note] <;> rfl

/-! ## What a turn does to a gauge -/

theorem nextRecord?_of_debt (s : Server) (h : a.debt? g = some (.read v)) : s.nextRecord? g a = some v := by
  unfold nextRecord?
  split
  · cases h
  · cases h
  · rw [h]
    rfl

/-- What a turn of a task does to a gauge. -/
inductive Tells (s : Server) (g : Gauge) (a : Activity) (u : Server) (b : Activity) : Prop where
  /-- Nothing is recorded. Whoever changes what the gauge should show has it to record then, and what is read is
  what the gauge should show. -/
  | silent (still : s.nextRecord? g a = none) (shown : u.shown? g = s.shown? g)
      (truth : u.truth g = s.truth g ∨ (b.debt? g).isSome = true)
      (debt : (a.debt? g).isSome = true → (b.debt? g).isSome = true)
      (read : ∀ v, b.debt? g = some (.read v) → v = u.truth g)
  /-- What was read before is recorded. -/
  | records (v : Int) (read : a.debt? g = some (.read v)) (shown : u.shown? g = some v)
      (truth : u.truth g = s.truth g) (debt : b.debt? g = none)
  /-- A change is recorded at once. -/
  | switches (v : Int) (record : s.nextRecord? g a = some v) (shown : u.shown? g = some v) (truth : u.truth g = v)
      (debt : b.debt? g = none)

theorem Tells.quiet (still : s.nextRecord? g a = none) (shown : u.shown? g = s.shown? g)
    (truth : u.truth g = s.truth g) (before : a.debt? g = none) (after : b.debt? g = none) : s.Tells g a u b :=
  .silent still shown (.inl truth) (by simp [before]) (by simp [after])

theorem Tells.addTask (h : s.Tells g a u b) (c : Activity) : s.Tells g a (u.addTask c) b := by
  cases h with
  | silent still shown truth debt read => exact .silent still shown truth debt read
  | records v read shown truth debt => exact .records v read shown truth debt
  | switches v record shown truth debt => exact .switches v record shown truth debt

theorem stepChange_shown? {c : Change} {next : Option Change} (changed : s.stepChange c = (u, next)) (g : Gauge) :
    u.shown? g = if g = .sessions then (c.debt?.bind (·.read?)).or (s.shown? g) else s.shown? g := by
  obtain ⟨n, comes, stage⟩ := c
  obtain rfl : (s.stepChange ⟨n, comes, stage⟩).1 = u := by rw [changed]
  cases stage with
  | counting => cases comes <;> cases g <;> rfl
  | recording active =>
    rw [stepChange, shown?_recordChange]
    cases g <;> rfl
  | publishing => cases g <;> rfl
  | announcing =>
    rw [stepChange, shown?_announceChange]
    cases g <;> rfl

/-- What a task does about a session that has come or gone. -/
theorem Tells.of_change {c : Change} {next : Option Change} (changed : s.stepChange c = (u, next))
    (before : a.change? = some c) (after : b.change? = next) (calm : s.nextRecord? .status a = none)
    (beforeStatus : a.debt? .status = none) (afterStatus : b.debt? .status = none) (g : Gauge) :
    s.Tells g a u b := by
  have hshown := stepChange_shown? changed g
  have htruth : u.truth g = s.truth g := by
    rw [stepChange_same changed]
    cases g <;> rfl
  cases g with
  | status => exact .quiet calm hshown htruth beforeStatus afterStatus
  | sessions =>
    have hdebt : a.debt? .sessions = c.debt? := by rw [Activity.debt?, before, Option.bind_some]
    have hnext : b.debt? .sessions = next.bind (·.debt?) := by rw [Activity.debt?, after]
    have hrecord : s.nextRecord? .sessions a = c.debt?.bind (·.read?) := by
      rw [← hdebt]
      rfl
    obtain ⟨n, comes, stage⟩ := c
    cases stage with
    | counting =>
      have hread : next = some ⟨n, comes, .recording s.active⟩ := by
        cases comes <;> exact (congrArg Prod.snd changed).symm
      subst hread
      refine .silent hrecord hshown (.inl htruth) (fun _ => by rw [hnext]; rfl) fun v hv => ?_
      rw [htruth]
      exact (Debt.read.inj (Option.some.inj (hnext.symm.trans hv))).symm
    | recording active =>
      obtain rfl : _ = next := congrArg Prod.snd changed
      exact .records active hdebt hshown htruth hnext
    | publishing =>
      obtain rfl : _ = next := congrArg Prod.snd changed
      exact .quiet hrecord hshown htruth hdebt hnext
    | announcing =>
      obtain rfl : _ = next := congrArg Prod.snd changed
      exact .quiet hrecord hshown htruth hdebt hnext

theorem StartTurn.tells {stage next : StartStage} (turn : s.StartTurn stage u next) (g : Gauge) :
    s.Tells g (.start stage) u (.start next) := by
  cases g with
  | sessions => cases turn <;> exact .quiet rfl rfl rfl rfl rfl
  | status =>
    cases turn with
    | begins stopped =>
      exact .switches (ServerStatus.gauge .starting) (by simp [nextRecord?, stopped]) (shown?_recordStatus ..) rfl rfl
    | refused running => exact .quiet (by simp [nextRecord?, running]) rfl rfl rfl rfl
    | stores | givesUp =>
      exact .silent rfl rfl (.inr rfl) nofun fun v hv => (Debt.read.inj (Option.some.inj hv)).symm
    | records | recordsFailure => exact .records _ rfl (shown?_recordStatus ..) rfl rfl
    | _ => exact .quiet rfl rfl rfl rfl rfl

theorem nextOfPass_debt? (rest : List (Nat × Nat)) (isLast : Bool) (g : Gauge) :
    (Activity.stop (nextOfPass rest isLast)).debt? g = none := by
  cases g <;> cases rest <;> cases isLast <;> rfl

theorem gauge_updateSession (s : Server) (n : Nat) (f : Session → Session) (g : Gauge) :
    (s.updateSession n f).shown? g = s.shown? g ∧ (s.updateSession n f).truth g = s.truth g := by
  rw [updateSession_same]
  cases g <;> exact ⟨rfl, rfl⟩

theorem gauge_shutDown (s : Server) (k : Nat) (g : Gauge) :
    (s.shutDown k).shown? g = s.shown? g ∧ (s.shutDown k).truth g = s.truth g := by
  unfold shutDown
  split <;> cases g <;> exact ⟨rfl, rfl⟩

theorem StopTurn.tells {stage next : StopStage} (turn : s.StopTurn stage u next) (g : Gauge) :
    s.Tells g (.stop stage) u (.stop next) := by
  cases turn with
  | begins started =>
    cases g with
    | sessions => exact .quiet rfl (shown?_recordStatus ..) rfl rfl rfl
    | status =>
      exact .switches (ServerStatus.gauge .stopping) (by simp [nextRecord?, started]) (shown?_recordStatus ..) rfl rfl
  | refused idle =>
    cases g with
    | sessions => exact .quiet rfl rfl rfl rfl rfl
    | status => exact .quiet (by simp [nextRecord?, idle]) rfl rfl rfl rfl
  | lists isLast => cases g <;> exact .quiet rfl rfl rfl rfl (nextOfPass_debt? ..)
  | passes stage isLast empty =>
    rcases empty with rfl | rfl <;> cases g <;> exact .quiet rfl rfl rfl rfl (nextOfPass_debt? ..)
  | disconnects connection n rest isLast next waits =>
    obtain ⟨hshown, htruth⟩ := gauge_updateSession s n (fun x => x.disconnect.1) g
    rcases waits with ⟨wake, rfl⟩ | rfl <;> cases g <;> exact .quiet rfl hshown htruth rfl rfl
  | removes connection n rest isLast u c removed =>
    obtain ⟨m, -, rfl, rfl⟩ := remove?_eq_some.mp removed
    cases g with
    | sessions => exact .silent rfl rfl (.inr rfl) nofun nofun
    | status => exact .quiet rfl rfl rfl rfl rfl
  | misses => cases g <;> exact .quiet rfl rfl rfl rfl (nextOfPass_debt? ..)
  | changes c rest isLast u c' changed => exact .of_change changed rfl rfl rfl rfl rfl g
  | announces c rest isLast u changed =>
    exact .of_change changed rfl (nextOfPass_change? ..) rfl rfl (nextOfPass_debt? ..) g
  | takesEndpoint e =>
    obtain ⟨hshown, htruth⟩ := gauge_shutDown { s with endpoint := none } e.acceptor g
    cases g <;> exact .quiet rfl hshown htruth rfl rfl
  | stores =>
    cases g with
    | sessions => exact .quiet rfl rfl rfl rfl rfl
    | status => exact .silent rfl rfl (.inr rfl) nofun fun v hv => (Debt.read.inj (Option.some.inj hv)).symm
  | records =>
    cases g with
    | sessions => exact .quiet rfl (shown?_recordStatus ..) rfl rfl rfl
    | status => exact .records _ rfl (shown?_recordStatus ..) rfl rfl
  | _ => cases g <;> exact .quiet rfl rfl rfl rfl rfl

theorem AcceptTurn.tells {x next : Acceptor} (turn : s.AcceptTurn x u next) (g : Gauge) :
    s.Tells g (.accept x) u (.accept next) := by
  obtain ⟨stage, isShutDown, backlog⟩ := x
  cases turn with
  | finishes waiting =>
    obtain rfl : stage = _ := waiting
    cases g <;> exact .quiet rfl rfl rfl rfl rfl
  | takes waiting going backlog next taken =>
    obtain rfl : stage = _ := waiting
    rcases taken with ⟨a, rfl⟩ | rfl <;> cases g <;> exact .quiet rfl rfl rfl rfl rfl
  | admits a checking =>
    obtain rfl : stage = _ := checking
    cases g <;> exact .quiet rfl rfl rfl rfl rfl
  | turnsAway a checking =>
    obtain rfl : stage = _ := checking
    cases g <;> exact .quiet rfl rfl rfl rfl rfl
  | enrolls a inserting u connection c enrolled =>
    obtain rfl : stage = _ := inserting
    rw [enroll_eq] at enrolled
    obtain ⟨rfl, rfl, rfl⟩ := by simpa using enrolled
    cases g with
    | sessions => exact .silent rfl rfl (.inr rfl) nofun nofun
    | status => exact .quiet rfl rfl rfl rfl rfl
  | changes connection c changing u c' changed =>
    obtain rfl : stage = _ := changing
    exact .of_change changed rfl rfl rfl rfl rfl g
  | announces connection c changing u changed =>
    obtain rfl : stage = _ := changing
    exact (Tells.of_change changed rfl rfl rfl rfl rfl g).addTask _

theorem ServeTurn.tells {connection n : Nat} {stage next : ServeStage}
    (turn : s.ServeTurn connection n stage u next) (g : Gauge) :
    s.Tells g (.serve connection n stage) u (.serve connection n next) := by
  cases turn with
  | leaves | misses => cases g <;> exact .quiet rfl rfl rfl rfl rfl
  | removes u c removed =>
    obtain ⟨m, -, rfl, rfl⟩ := remove?_eq_some.mp removed
    cases g with
    | sessions => exact .silent rfl rfl (.inr rfl) nofun nofun
    | status => exact .quiet rfl rfl rfl rfl rfl
  | changes c u c' changed => exact .of_change changed rfl rfl rfl rfl rfl g
  | announces c u changed => exact .of_change changed rfl rfl rfl rfl rfl g

theorem Turn.tells (turn : s.Turn a u b) (g : Gauge) : s.Tells g a u b := by
  cases turn with
  | start turn => exact turn.tells g
  | stop turn => exact turn.tells g
  | accept turn => exact turn.tells g
  | serve turn => exact turn.tells g

/-! ## What a step does to a gauge -/

theorem debt?_step_of_ne (hn : s.Numbered) {x : Step} (others : x ≠ .move (.task j)) (g : Gauge) :
    (s.step x).debt? j g = s.debt? j g := by
  unfold debt?
  cases found : s.activity? j with
  | some c =>
    obtain ⟨d, hd, hawaits⟩ := step_awaits hn others found
    rw [hd]
    cases hawaits with
    | same => rfl
    | loop => cases g <;> rfl
    | answered answered => cases answered <;> cases g <;> rfl
  | none =>
    cases hd : (s.step x).activity? j with
    | none => rfl
    | some d =>
      cases step_fresh hn found hd with
      | asked d asking => rcases asking with rfl | rfl <;> cases g <;> rfl
      | spawned | served => cases g <;> rfl

/-- A task that cannot go on has nothing to record. -/
theorem nextRecord?_of_not_ready (waits : s.taskIsReady a = false) (g : Gauge) : s.nextRecord? g a = none := by
  cases a with
  | start stage => cases stage <;> first | (cases g <;> rfl) | cases waits
  | stop stage => cases stage <;> first | (cases g <;> rfl) | cases waits
  | accept x =>
    obtain ⟨stage, isShutDown, backlog⟩ := x
    cases stage <;> first | (cases g <;> rfl) | cases waits
  | serve connection n stage => cases stage <;> first | (cases g <;> rfl) | cases waits

/-- What a step does to a gauge. -/
inductive Marks (s : Server) (g : Gauge) (x : Step) (t : Server) : Prop where
  | aside (still : s.records? g x = none) (shown : t.shown? g = s.shown? g) (truth : t.truth g = s.truth g)
      (debt : ∀ id, t.debt? id g = s.debt? id g)
  | turn (id : Nat) (a : Activity) (u : Server) (b : Activity) (step : x = .move (.task id))
      (found : s.activity? id = some a) (tells : s.Tells g a u b) (shown : t.shown? g = u.shown? g)
      (truth : t.truth g = u.truth g) (debt : t.debt? id g = b.debt? g)

theorem step_marks (hn : s.Numbered) (x : Step) (g : Gauge) : s.Marks g x (s.step x) := by
  have others (hx : ∀ id, x ≠ .move (.task id)) (still : s.records? g x = none)
      (same : (s.step x).shown? g = s.shown? g ∧ (s.step x).truth g = s.truth g) : s.Marks g x (s.step x) :=
    .aside still same.1 same.2 fun id => debt?_step_of_ne hn (hx id) g
  cases x with
  | feel x =>
    refine others (by simp) rfl ?_
    have hfeels := feel_feels s x
    rw [step]
    generalize s.feel x = t at hfeels
    cases hfeels with
    | aside t same => rw [same]; cases g <;> exact ⟨rfl, rfl⟩
    | _ => cases g <;> exact ⟨rfl, rfl⟩
  | move m =>
    cases m with
    | session n m =>
      refine others (by simp) rfl ?_
      rw [step]
      split
      · exact gauge_updateSession s n _ g
      · exact ⟨rfl, rfl⟩
    | task id =>
      have stays (hstep : s.step (.move (.task id)) = s)
          (hnone : ∀ a, s.activity? id = some a → s.nextRecord? g a = none) :
          s.Marks g (.move (.task id)) (s.step (.move (.task id))) := by
        rw [hstep]
        exact .aside (Option.bind_eq_none_iff.mpr hnone) rfl rfl fun _ => rfl
      cases found : s.activity? id with
      | none =>
        refine stays ?_ (by simp [found])
        rw [activity?, Option.map_eq_none_iff] at found
        simp [step, Server.can, found]
      | some a =>
        cases ready : s.taskIsReady a with
        | true =>
          obtain ⟨u, b, turn, heq⟩ := stepTask_turn (t := ⟨id, a⟩) ready
          have hstep : s.step (.move (.task id)) = u.setTask id b := (step_task found ready).trans heq
          refine .turn id a u b rfl found (turn.tells g) (by rw [hstep]; rfl) (by rw [hstep]; cases g <;> rfl) ?_
          rw [hstep, debt?, turn.own hn found, Option.bind_some]
        | false =>
          obtain ⟨task, hfind, htask⟩ := Option.map_eq_some_iff.mp found
          refine stays (by simp [step, Server.can, hfind, htask, ready]) fun c hc => ?_
          obtain rfl := Option.some.inj (found.symm.trans hc)
          exact nextRecord?_of_not_ready ready g

theorem records?_of_found (found : s.activity? id = some a) (g : Gauge) :
    s.records? g (.move (.task id)) = s.nextRecord? g a := by
  rw [records?, found, Option.bind_some]

/-- A gauge shows what was last recorded of it. -/
theorem shown?_step (hn : s.Numbered) (x : Step) (g : Gauge) :
    (s.step x).shown? g = (s.records? g x).or (s.shown? g) := by
  cases step_marks hn x g with
  | aside still shown => rw [still, shown]; rfl
  | turn id a u b step found tells shown =>
    subst step
    rw [shown, records?_of_found found]
    cases tells with
    | silent still shown => rw [still, shown]; rfl
    | records v read shown => rw [nextRecord?_of_debt s read, shown]; rfl
    | switches v record shown => rw [record, shown]; rfl

/-- If nothing is recorded while what a gauge should show changes, somebody has it to record then. -/
theorem truth_step (hn : s.Numbered) {x : Step} (still : s.records? g x = none) :
    (s.step x).truth g = s.truth g ∨ ∃ id, ((s.step x).debt? id g).isSome = true := by
  cases step_marks hn x g with
  | aside _ _ truth => exact .inl truth
  | turn id a u b step found tells shown truth debt =>
    subst step
    rw [records?_of_found found] at still
    cases tells with
    | silent _ _ changes => exact changes.imp truth.trans fun owes => ⟨id, by rw [debt]; exact owes⟩
    | records v read => simp [nextRecord?_of_debt s read] at still
    | switches v record => simp [record] at still

/-- Whoever has something to record has it to record until he does. -/
theorem debt?_step (hn : s.Numbered) {x : Step} (still : s.records? g x = none) (owes : (s.debt? j g).isSome = true) :
    ((s.step x).debt? j g).isSome = true := by
  by_cases others : x = .move (.task j)
  · subst others
    cases step_marks hn (.move (.task j)) g with
    | aside _ _ _ debt => rwa [debt]
    | turn id a u b step found tells shown truth debt =>
      obtain rfl : j = id := by injection step with hm; injection hm
      rw [records?_of_found found] at still
      rw [debt?, found, Option.bind_some] at owes
      rw [debt]
      cases tells with
      | silent _ _ _ stays => exact stays owes
      | records v read => simp [nextRecord?_of_debt s read] at still
      | switches v record => simp [record] at still
  · rwa [debt?_step_of_ne hn others]

theorem records?_of_debt? (reads : s.debt? j g = some (.read v)) : s.records? g (.move (.task j)) = some v := by
  obtain ⟨a, found, ha⟩ := Option.bind_eq_some_iff.mp reads
  rw [records?_of_found found, nextRecord?_of_debt s ha]

/-- What a task reads is what the gauge should show. -/
theorem truth_of_read (hn : s.Numbered) (reads : (s.step (.move (.task j))).debt? j g = some (.read v)) :
    v = (s.step (.move (.task j))).truth g := by
  cases step_marks hn (.move (.task j)) g with
  | aside still _ _ debt =>
    rw [debt] at reads
    simp [records?_of_debt? reads] at still
  | turn id a u b step found tells shown truth debt =>
    obtain rfl : j = id := by injection step with hm; injection hm
    rw [debt] at reads
    cases tells with
    | silent _ _ _ _ read => exact (read v reads).trans truth.symm
    | records _ _ _ _ paid => simp [paid] at reads
    | switches _ _ _ _ paid => simp [paid] at reads

/-- What is recorded is what the gauge should show, or was read in an earlier step. -/
theorem records?_eq_some (hn : s.Numbered) {x : Step} (records : s.records? g x = some v) :
    (s.step x).truth g = v ∨
      ∃ id, x = .move (.task id) ∧ s.debt? id g = some (.read v) ∧ (s.step x).truth g = s.truth g := by
  cases step_marks hn x g with
  | aside still => simp [still] at records
  | turn id a u b step found tells shown truth debt =>
    subst step
    rw [records?_of_found found] at records
    cases tells with
    | silent still => simp [still] at records
    | records w read _ same =>
      obtain rfl : w = v := by simpa [nextRecord?_of_debt s read] using records
      exact .inr ⟨id, rfl, by rw [debt?, found, Option.bind_some, read], truth.trans same⟩
    | switches w record _ now =>
      obtain rfl : w = v := by simpa [record] using records
      exact .inl (truth.trans now)

/-! ## Along a run -/

/-- From the `k`-th step on nothing is recorded of a gauge. -/
def SilentFrom (s : Server) (xs : List Step) (g : Gauge) (k : Nat) : Prop :=
  ∀ l x, k ≤ l → xs[l]? = some x → (s.before xs l).records? g x = none

/-- In the `r`-th step a task reads what a gauge should show, and is still to record it. -/
def ReadsAt (s : Server) (xs : List Step) (g : Gauge) (task r : Nat) : Prop :=
  xs[r]? = some (.move (.task task)) ∧
    (s.before xs (r + 1)).debt? task g = some (.read ((s.before xs (r + 1)).truth g))

/-- In the `i`-th step somebody else changes what a gauge should show. -/
def ChangesAt (s : Server) (xs : List Step) (g : Gauge) (task i : Nat) : Prop :=
  (∃ x, xs[i]? = some x ∧ x ≠ .move (.task task)) ∧ (s.before xs (i + 1)).truth g ≠ (s.before xs i).truth g

/-- The last record of a gauge is of what a task read in the `r`-th step. Somebody else changed it in the `i`-th,
and it had not changed back when it was recorded in the `j`-th. -/
structure Overtaken (s : Server) (xs : List Step) (g : Gauge) (task r i j : Nat) : Prop where
  order : r < i ∧ i < j
  reads : s.ReadsAt xs g task r
  changes : s.ChangesAt xs g task i
  records : xs[j]? = some (.move (.task task)) ∧
    (s.before xs j).records? g (.move (.task task)) = some ((s.before xs (r + 1)).truth g)
  stale : (s.before xs (j + 1)).truth g ≠ (s.before xs (r + 1)).truth g
  last : s.SilentFrom xs g (j + 1)

theorem before_numbered (hn : s.Numbered) (xs : List Step) (k : Nat) : (s.before xs k).Numbered :=
  before_induct (fun _ x h => h.step x) (Nat.zero_le k) hn

theorem shown?_of_silentFrom (hn : s.Numbered) (silent : s.SilentFrom xs g k) (hkl : k ≤ l) :
    (s.before xs l).shown? g = (s.before xs k).shown? g := by
  refine stateAt_induct (P := fun t : Server => t.shown? g = (s.before xs k).shown? g) hkl
    (fun i x hki _ hx h => ?_) rfl
  have hstep := shown?_step (before_numbered hn xs i) x g
  rw [silent i x hki hx, Option.none_or] at hstep
  exact hstep.trans h

theorem debt?_of_idle (idle : s.Idle) (id : Nat) (g : Gauge) : s.debt? id g = none := by
  rw [debt?, Option.bind_eq_none_iff]
  intro a found
  obtain ⟨task, hfind, rfl⟩ := Option.map_eq_some_iff.mp found
  exact Activity.debt?_of_idle (idle task (List.mem_of_find?_eq_some hfind)) g

/-- If nothing is recorded any more and all calls end, nothing changes either. -/
theorem truth_of_silentFrom (hn : s.Numbered) (silent : s.SilentFrom xs g k) (hk : k ≤ xs.length)
    (idle : (s.after xs).Idle) : (s.after xs).truth g = (s.before xs k).truth g := by
  have hend : (s.before xs xs.length).truth g = (s.before xs k).truth g ∨
      ∃ id, ((s.before xs xs.length).debt? id g).isSome = true := by
    refine stateAt_induct (P := fun t : Server => t.truth g = (s.before xs k).truth g ∨
      ∃ id, (t.debt? id g).isSome = true) hk (fun i x hki _ hx h => ?_) (.inl rfl)
    have hni := before_numbered hn xs i
    have still := silent i x hki hx
    rcases h with same | ⟨id, owes⟩
    · exact (truth_step hni still).imp_left (·.trans same)
    · exact .inr ⟨id, debt?_step hni still owes⟩
  rw [before_length] at hend
  refine hend.resolve_right ?_
  rintro ⟨id, owes⟩
  simp [debt?_of_idle idle] at owes

/-- What a gauge shows has been recorded in some step, and nothing has been since. -/
theorem last_record (hn : s.Numbered) (first : s.shown? g = none) (shown : (s.after xs).shown? g = some v) :
    ∃ j x, xs[j]? = some x ∧ (s.before xs j).records? g x = some v ∧ s.SilentFrom xs g (j + 1) := by
  -- By induction on the length `k` of a stretch; that nothing is recorded any more is said of the stretch only.
  have hbefore (k : Nat) (hk : (s.before xs k).shown? g = some v) : ∃ j x, xs[j]? = some x ∧
      (s.before xs j).records? g x = some v ∧
      ∀ l y, j + 1 ≤ l → l < k → xs[l]? = some y → (s.before xs l).records? g y = none := by
    induction k with
    | zero => exact absurd (first.symm.trans hk) nofun
    | succ k ih =>
      cases hx : xs[k]? with
      | none =>
        have hsame : s.before xs (k + 1) = s.before xs k := stateAt_succ_of_none hx
        obtain ⟨j, x, hj, records, since⟩ := ih (by rwa [hsame] at hk)
        refine ⟨j, x, hj, records, fun l y hjl hlk hy => ?_⟩
        rcases Nat.lt_succ_iff_lt_or_eq.mp hlk with hlk | rfl
        · exact since l y hjl hlk hy
        · simp [hx] at hy
      | some x =>
        have hstep : s.before xs (k + 1) = (s.before xs k).step x := stateAt_succ hx
        rw [hstep, shown?_step (before_numbered hn xs k)] at hk
        cases records : (s.before xs k).records? g x with
        | some w =>
          obtain rfl : w = v := by simpa [records] using hk
          exact ⟨k, x, hx, records, fun l y hkl hlk => by omega⟩
        | none =>
          rw [records, Option.none_or] at hk
          obtain ⟨j, y, hj, hrecords, since⟩ := ih hk
          refine ⟨j, y, hj, hrecords, fun l z hjl hlk hz => ?_⟩
          rcases Nat.lt_succ_iff_lt_or_eq.mp hlk with hlk | rfl
          · exact since l z hjl hlk hz
          · obtain rfl : x = z := Option.some.inj (hx.symm.trans hz)
            exact records
  obtain ⟨j, x, hj, records, since⟩ := hbefore xs.length (by rwa [before_length])
  exact ⟨j, x, hj, records, fun l y hjl hy => since l y hjl (List.getElem?_eq_some_iff.mp hy).1 hy⟩

/-- What a task has read it read in a step, and it is still so unless somebody else has changed it since. -/
theorem read_source (hn : s.Numbered) (first : s.debt? id g = none)
    (reads : (s.before xs l).debt? id g = some (.read v)) :
    ∃ r < l, s.ReadsAt xs g id r ∧ v = (s.before xs (r + 1)).truth g ∧
      (v = (s.before xs l).truth g ∨ ∃ i, r < i ∧ i < l ∧ s.ChangesAt xs g id i) := by
  induction l with
  | zero => exact absurd (first.symm.trans reads) nofun
  | succ l ih =>
    cases hx : xs[l]? with
    | none =>
      have hsame : s.before xs (l + 1) = s.before xs l := stateAt_succ_of_none hx
      rw [hsame] at reads ⊢
      obtain ⟨r, hr, hreads, hv, hfate⟩ := ih reads
      exact ⟨r, by omega, hreads, hv, hfate.imp_right fun ⟨i, hri, hil, h⟩ => ⟨i, hri, by omega, h⟩⟩
    | some x =>
      have hstep : s.before xs (l + 1) = (s.before xs l).step x := stateAt_succ hx
      have hnl := before_numbered hn xs l
      -- A step of its own is a new reading, whatever the task had read before; others leave the old one.
      by_cases own : x = .move (.task id)
      · have hv : v = (s.before xs (l + 1)).truth g := by
          rw [hstep, own] at reads ⊢
          exact truth_of_read hnl reads
        exact ⟨l, by omega, ⟨by rw [hx, own], by rw [reads, ← hv]⟩, hv, .inl hv⟩
      · obtain ⟨r, hr, hreads, hv, hfate⟩ := ih (by rwa [hstep, debt?_step_of_ne hnl own] at reads)
        refine ⟨r, by omega, hreads, hv, ?_⟩
        rcases hfate with still | ⟨i, hri, hil, changes⟩
        · by_cases same : (s.before xs (l + 1)).truth g = (s.before xs l).truth g
          · exact .inl (still.trans same.symm)
          · exact .inr ⟨l, hr, by omega, ⟨x, hx, own⟩, same⟩
        · exact .inr ⟨i, hri, by omega, changes⟩

/-! ## Wrong gauges -/

/-- A start stores that the server is started, and does not record it yet. Two clients come. While a stop
disconnects the first, its task forgets its session and counts one session that is left, and does not record it
yet. The stop forgets the other one, counts none, records this, and ends. At last the two values are recorded. -/
def lateRecords : List Step :=
  let go (id : Nat) : Step := .move (.task id)
  let arrival (port : UInt16) : Arrival := ⟨.v4 ⟨127, 0, 0, 1⟩ port, true⟩
  let hangsUp (n : Nat) : Step := .move (.session n (.reader .stop))
  [.feel .start, go 0, .feel (.bound 0 (.ok ())), .feel (.named 0 (.ok (.v4 ⟨0, 0, 0, 0⟩ 2775)))] ++
    List.replicate 4 (go 0) ++ [.feel (.connect 1 (arrival 5000)), .feel (.connect 1 (arrival 5001))] ++
    List.replicate 14 (go 1) ++ [.feel .stop] ++ List.replicate 3 (go 4) ++ [hangsUp 0] ++ List.replicate 3 (go 2) ++
    List.replicate 10 (go 4) ++ [hangsUp 1, go 1] ++ List.replicate 5 (go 4) ++ List.replicate 2 (go 3) ++
    List.replicate 3 (go 2) ++ [go 0]

theorem lateRecords_idle : (idleServer.after lateRecords).Idle := by
  decide +kernel

theorem lateRecords_wrong : (idleServer.after lateRecords).IsWrong .sessions ∧
    (idleServer.after lateRecords).IsWrong .status :=
  ⟨⟨1, by decide +kernel, by decide +kernel⟩, 2, by decide +kernel, by decide +kernel⟩

theorem gauges_may_lie : ¬ AlwaysTrue .sessions ∧ ¬ AlwaysTrue .status :=
  ⟨fun always => always _ _ (some .empty) 0 lateRecords lateRecords_idle lateRecords_wrong.1,
    fun always => always _ _ (some .empty) 0 lateRecords lateRecords_idle lateRecords_wrong.2⟩

/-- In every run in the end of which all calls have ended, a gauge is wrong if and only if its last record was
overtaken. -/
theorem wrong_iff_overtaken (settings : ServerSettings) (sessionSettings : SessionSettings)
    (publication : Publication ManagedObject) (processor : Nat) (xs : List Step) (g : Gauge)
    (idle : ((fresh settings sessionSettings publication processor).after xs).Idle) :
    ((fresh settings sessionSettings publication processor).after xs).IsWrong g ↔
      ∃ task r i j, (fresh settings sessionSettings publication processor).Overtaken xs g task r i j := by
  have hn := fresh_numbered settings sessionSettings publication processor
  have hshown : (fresh settings sessionSettings publication processor).shown? g = none := rfl
  have hdebt (id : Nat) : (fresh settings sessionSettings publication processor).debt? id g = none := rfl
  generalize fresh settings sessionSettings publication processor = s at hn hshown hdebt idle
  constructor
  · rintro ⟨v, shown, wrong⟩
    obtain ⟨j, x, hx, records, last⟩ := last_record hn hshown shown
    have hj : j < xs.length := (List.getElem?_eq_some_iff.mp hx).1
    have hstep : s.before xs (j + 1) = (s.before xs j).step x := stateAt_succ hx
    rw [truth_of_silentFrom hn last hj idle] at wrong
    rcases records?_eq_some (before_numbered hn xs j) records with now | ⟨task, rfl, reads, same⟩
    · exact absurd (by rw [hstep, now]) wrong
    obtain ⟨r, hrj, hreads, rfl, still | ⟨i, hri, hij, changes⟩⟩ := read_source hn (hdebt task) reads
    · exact absurd (by rw [hstep, same, still]) wrong
    · exact ⟨task, r, i, j, ⟨hri, hij⟩, hreads, changes, ⟨hx, records⟩, wrong.symm, last⟩
  · rintro ⟨task, r, i, j, -, -, -, ⟨hx, records⟩, stale, last⟩
    have hj : j < xs.length := (List.getElem?_eq_some_iff.mp hx).1
    have hstep : s.before xs (j + 1) = (s.before xs j).step (.move (.task task)) := stateAt_succ hx
    refine ⟨(s.before xs (r + 1)).truth g, ?_, ?_⟩
    · rw [← before_length, shown?_of_silentFrom hn last hj, hstep, shown?_step (before_numbered hn xs j), records,
        Option.some_or]
    · rw [truth_of_silentFrom hn last hj idle]
      exact stale.symm

theorem lateRecords_overtaken : (idleServer.after lateRecords).Idle ∧
    (∃ task r i j, idleServer.Overtaken lateRecords .sessions task r i j) ∧
    ∃ task r i j, idleServer.Overtaken lateRecords .status task r i j :=
  ⟨lateRecords_idle,
    (wrong_iff_overtaken _ _ (some .empty) 0 lateRecords .sessions lateRecords_idle).mp lateRecords_wrong.1,
    (wrong_iff_overtaken _ _ (some .empty) 0 lateRecords .status lateRecords_idle).mp lateRecords_wrong.2⟩

end Server

end Smsc
