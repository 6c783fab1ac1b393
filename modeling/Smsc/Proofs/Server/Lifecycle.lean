import Smsc.Proofs.Server.Phases

/-!
# Smsc.Proofs.Server.Lifecycle — one call at a time governs a server

Any number of calls of start and stop may be under way at the same time, each at its own stage, and the
host may answer each of them as it likes.

* `Activity.IsInCharge`: a call between its first change of the status and its last;
* `Moves s x status`: the changes of the status, one constructor for each, with what causes it;
* `Governed s`: what the calls may do to each other; `governed`: in every state of every run.
-/

namespace Smsc

/-- Is this a call that has changed the status, and will change it again? -/
def Activity.IsInCharge (a : Activity) : Prop := a.part.IsInCharge

/-- The host refused an address, or could not tell it. -/
def SessionError.IsFromHost : SessionError → Prop
  | .channel (.bind ..) | .channel (.io _) => True
  | _ => False

namespace Server

variable {s t u : Server} {p : Phase} {id : Nat} {a b : Activity}

/-- A step changes the status of the server. -/
inductive Moves (s : Server) : Step → ServerStatus → Prop where
  | begins (id : Nat) (asking : s.activity? id = some (.start .asking)) (stopped : s.status = .stopped) :
      Moves s (.move (.task id)) .starting
  | succeeds (id : Nat) (storing : s.activity? id = some (.start .storing)) (starting : s.status = .starting) :
      Moves s (.move (.task id)) .started
  | fails (id : Nat) (e : SessionError) (failed : s.activity? id = some (.start (.givingUp e)))
      (host : e.IsFromHost) (starting : s.status = .starting) : Moves s (.move (.task id)) .stopped
  | stops (id : Nat) (asking : s.activity? id = some (.stop .asking)) (started : s.status = .started) :
      Moves s (.move (.task id)) .stopping
  | finishes (id : Nat) (storing : s.activity? id = some (.stop .storing)) (stopping : s.status = .stopping) :
      Moves s (.move (.task id)) .stopped

/-- What the calls of start and stop may do to each other. -/
structure Governed (s : Server) : Prop where
  moves : ∀ x, (s.step x).status = s.status ∨ s.Moves x (s.step x).status
  alone : ∀ i j a b, s.activity? i = some a → s.activity? j = some b → a.IsInCharge → b.IsInCharge → i = j
  oneLoop : ∀ i j x y, s.activity? i = some (.accept x) → s.activity? j = some (.accept y) →
    x.isShutDown = false → y.isShutDown = false → i = j
  started : s.status = .started → ∃ e since, s.endpoint = some e ∧ s.uptime = some since
  stopped : s.status = .stopped → s.endpoint = none ∧ s.uptime = none
  /-- A call of start that does not find a stopped server changes nothing but where it has got to itself. -/
  refusedStart : ∀ id, s.activity? id = some (.start .asking) → s.status ≠ .stopped →
    s.step (.move (.task id)) = s.setTask id (.start (.finished (.ok ())))
  refusedStop : ∀ id, s.activity? id = some (.stop .asking) → s.status ≠ .started →
    s.step (.move (.task id)) = s.setTask id (.stop .finished)

/-! ## Failures -/

/-- A start gives up only if the host has failed it. -/
def FailedByHost (s : Server) : Prop :=
  ∀ id e, s.activity? id = some (.start (.givingUp e)) → e.IsFromHost

theorem FailedByHost.step (h : s.FailedByHost) (hn : s.Numbered) (x : Step) : (s.step x).FailedByHost := by
  intro id e found
  have hhappens := step_happens s x
  generalize s.step x = t at hhappens found
  cases hhappens with
  | feels x t feels =>
    have hfelt := feels.activity? hn found
    generalize hc : Activity.start (.givingUp e) = c at hfelt
    cases hfelt with
    | stays earlier => exact h id e (hc ▸ earlier)
    | asked asking => rcases asking with rfl | rfl <;> cases hc
    | answered _ answered => cases answered <;> cases hc <;> trivial
    | connected => cases hc
  | task i a there u b turn =>
    rcases turn.activity? hn found with ⟨-, rfl⟩ | ⟨-, hbeside⟩
    · cases turn with
      | start turn => cases turn
    · cases hbeside with
      | stays earlier => exact h id e earlier
  | session n m t same => exact h id e ((activity?_congr (by rw [same]) id).symm.trans found)
  | nothing m => exact h id e found

/-! ## Changes of the status -/

/-- What goes on with a session leaves the status alone. -/
theorem stepChange_status {c : Change} {next : Option Change} (changed : s.stepChange c = (u, next)) :
    u.status = s.status := by
  rw [stepChange_same changed]

theorem shutDown_status (s : Server) (k : Nat) : (s.shutDown k).status = s.status := by
  unfold shutDown
  split <;> rfl

/-- The status of a phase, from the part of whoever is in charge. -/
theorem In.status_of_opening (h : s.In p) (hi : s.part id = .opening) : s.status = .starting := by
  obtain ⟨k, rfl⟩ := h.eq_opening hi
  exact h.status

theorem In.status_of_preparing (h : s.In p) (hi : s.part id = .preparing) : s.status = .starting := by
  obtain rfl := h.eq_preparing hi
  exact h.status

theorem In.status_of_closing (h : s.In p) (hi : s.part id = .closing) : s.status = .stopping := by
  obtain rfl := h.eq_closing hi
  exact h.status

theorem Turn.moves (turn : s.Turn a u b) (h : s.In p) (hf : s.FailedByHost)
    (found : s.activity? id = some a) :
    u.status = s.status ∨ s.Moves (.move (.task id)) u.status := by
  have hpart := part_of_activity? found
  cases turn with
  | start turn =>
    cases turn with
    | begins stopped => exact .inr (.begins id found stopped)
    | stores => exact .inr (.succeeds id found (h.status_of_opening hpart))
    | givesUp e => exact .inr (.fails id e found (hf id e found) (h.status_of_preparing hpart))
    | _ => exact .inl rfl
  | stop turn =>
    cases turn with
    | begins started => exact .inr (.stops id found started)
    | stores => exact .inr (.finishes id found (h.status_of_closing hpart))
    | disconnects => exact .inl (by rw [updateSession_same])
    | removes connection n rest isLast u c removed =>
      obtain ⟨m, -, rfl, -⟩ := remove?_eq_some.mp removed
      exact .inl rfl
    | changes c rest isLast u c' changed => exact .inl (stepChange_status changed)
    | announces c rest isLast u changed => exact .inl (stepChange_status changed)
    | takesEndpoint e => exact .inl (shutDown_status _ _)
    | _ => exact .inl rfl
  | accept turn =>
    cases turn with
    | enrolls a inserting u connection c enrolled =>
      obtain rfl := congrArg Prod.fst enrolled
      exact .inl rfl
    | changes connection c changing u c' changed => exact .inl (stepChange_status changed)
    | announces connection c changing u changed => exact .inl (stepChange_status changed :)
    | _ => exact .inl rfl
  | serve turn =>
    cases turn with
    | removes u c removed =>
      obtain ⟨m, -, rfl, -⟩ := remove?_eq_some.mp removed
      exact .inl rfl
    | changes c u c' changed => exact .inl (stepChange_status changed)
    | announces c u changed => exact .inl (stepChange_status changed)
    | _ => exact .inl rfl

theorem In.moves (h : s.In p) (hf : s.FailedByHost) (x : Step) :
    (s.step x).status = s.status ∨ s.Moves x (s.step x).status := by
  have hhappens := step_happens s x
  generalize s.step x = t at hhappens
  cases hhappens with
  | feels x t feels =>
    cases feels with
    | aside t same => exact .inl (by rw [same])
    | _ => exact .inl rfl
  | task id a found u b turn => exact turn.moves h hf found
  | session n m t same => exact .inl (by rw [same])
  | nothing m => exact .inl rfl

/-! ## Every state -/

/-- A step of a task that can take one. -/
theorem step_task (found : s.activity? id = some a) (ready : s.taskIsReady a = true) :
    s.step (.move (.task id)) = s.stepTask ⟨id, a⟩ := by
  obtain ⟨⟨i, a'⟩, hfind, heq⟩ := Option.map_eq_some_iff.mp found
  obtain rfl : a' = a := heq
  obtain rfl : i = id := findTask?_id hfind
  have hcan : s.can (.task i) = true := by
    rw [Server.can, hfind]
    exact ready
  rw [step, if_pos hcan, move, hfind]

theorem In.alone_eq (h : s.In p) {i j : Nat} (hi : (s.part i).IsInCharge) (hj : (s.part j).IsInCharge) :
    i = j := by
  obtain ⟨r, hr⟩ := h.alone i hi
  obtain ⟨r', hr'⟩ := h.alone j hj
  exact congrArg Prod.fst (Option.some.inj (hr.symm.trans hr'))

theorem In.loop_eq (h : s.In p) {x : Acceptor} (found : s.activity? id = some (.accept x))
    (going : x.isShutDown = false) : p.loop? = some id := by
  rcases h.others id false _ (by rw [part_of_activity? found, Activity.part, going]) with hloop | ⟨told, -⟩
  · exact hloop
  · cases told

theorem In.isGoverned (h : s.In p) (hf : s.FailedByHost) : s.Governed where
  moves := h.moves hf
  alone i j a b hi hj chargeA chargeB := by
    refine h.alone_eq ?_ ?_
    · rwa [part_of_activity? hi]
    · rwa [part_of_activity? hj]
  oneLoop i j x y hi hj goingX goingY :=
    Option.some.inj ((h.loop_eq hi goingX).symm.trans (h.loop_eq hj goingY))
  started hstarted := by
    obtain ⟨k, rfl⟩ := h.eq_started hstarted
    obtain ⟨e, he, -⟩ := Option.map_eq_some_iff.mp h.endpoint
    obtain ⟨since, hsince⟩ := Option.isSome_iff_exists.mp h.isTimed
    exact ⟨e, _, he, by rw [uptime, hsince, Option.map_some]⟩
  stopped hstopped := by
    obtain rfl := h.eq_stopped hstopped
    refine ⟨Option.map_eq_none_iff.mp h.endpoint, ?_⟩
    rw [uptime, Option.map_eq_none_iff, ← Option.not_isSome_iff_eq_none, h.isTimed]
    nofun
  refusedStart id found running := by
    rw [step_task found rfl]
    simp [stepTask, stepStart, transition, running]
  refusedStop id found idle := by
    rw [step_task found rfl]
    simp [stepTask, stepStop, transition, idle]

/-- In every state of every run, one call at a time governs the server: the status goes around in the one
direction only, and each change has its one cause. -/
theorem governed (settings : ServerSettings) (sessionSettings : SessionSettings)
    (publication : Publication ManagedObject) (processor : Nat) (xs : List Step) :
    ((fresh settings sessionSettings publication processor).after xs).Governed := by
  have hrun := after_induct (P := fun t => t.Orderly ∧ t.FailedByHost)
    (fun t x ht => ⟨ht.1.step x, ht.2.step ht.1.numbered x⟩)
    ⟨fresh_orderly settings sessionSettings publication processor, nofun⟩ xs
  obtain ⟨p, hp⟩ := hrun.1.phase
  exact hp.isGoverned hrun.2

end Server

end Smsc
