import Smsc.Proofs.Server.Places

/-!
# Smsc.Proofs.Server.Hooks — when the listener and the directory learn of a session

A session can be taken out of the registry as soon as it is in. A stop that does so does not ask whether the
session has been published and announced by then, so it may be taken back and announced as gone first.

* `InOrder s n`: the listener was told of session `n` in the right order, and nothing of it is left in the
  directory of a stopped server;
* `isTimely`: a run in which no stop overtakes a session; `Traced s n`: what such a run keeps;
* `hooks_out_of_order`: a run in which a stop overtakes one; `hooks_in_order`: all other runs.
-/

namespace Smsc.Server

variable {s : Server} {id n : Nat}

/-! ## Order -/

/-- Whenever the listener was told that session `n` has gone, it had been told before that it has come. -/
def CreatedFirst (s : Server) (n : Nat) : Prop :=
  ∀ newer older, s.hooks n = newer ++ .destroyed :: older → .created ∈ older

/-- The task of a session has taken session `n` out of the registry, and is still to take it back from the
directory. -/
def TakesBack (s : Server) (n : Nat) : Prop := ∃ id connection m stage,
  s.activity? id = some (.serve connection m (.changing ⟨n, false, stage⟩)) ∧ stage ≠ .announcing

/-- The listener was told in the right order, and a stopped server has left nothing in the directory. -/
structure InOrder (s : Server) (n : Nat) : Prop where
  hooks : s.CreatedFirst n
  left : s.status = .stopped → ∀ d name, s.publication = some d → (name, .session n) ∈ d.entries →
    s.TakesBack n

/-- In a run no stop overtakes session `n`. -/
def isTimely (s : Server) (n : Nat) : List Step → Bool
  | [] => true
  | x :: xs => !s.overtakes n x && (s.step x).isTimely n xs

/-! ## Runs -/

/-- Session `n` has got somewhere, and somebody is told how far. -/
structure Traced (s : Server) (n : Nat) : Prop where
  sound : s.Sound
  listener : s.hasListener = true
  place : ∃ p, s.At n p

theorem Traced.step (h : s.Traced n) (x : Step) (timely : s.overtakes n x = false) : (s.step x).Traced n := by
  obtain ⟨p, hp⟩ := h.place
  exact ⟨h.sound.step x, step_listener h.listener x, hp.step h.sound h.listener x timely⟩

theorem Traced.after (h : s.Traced n) (xs : List Step) (timely : s.isTimely n xs = true) : (s.after xs).Traced n := by
  induction xs generalizing s with
  | nil => exact h
  | cons x xs ih =>
    rw [isTimely, Bool.and_eq_true, Bool.not_eq_true'] at timely
    exact ih (h.step x timely.1) timely.2

/-- A new server, and somebody who wants to be told of its sessions. -/
def watched (settings : ServerSettings) (sessionSettings : SessionSettings)
    (publication : Publication ManagedObject) (processor : Nat) : Server :=
  (fresh settings sessionSettings publication processor).step (.feel .listen)

theorem watched_traced (settings : ServerSettings) (sessionSettings : SessionSettings)
    (publication : Publication ManagedObject) (processor : Nat)
    (unknown : ∀ d name, publication = some d → (name, .session n) ∉ d.entries) :
    (watched settings sessionSettings publication processor).Traced n := by
  refine ⟨(fresh_sound settings sessionSettings publication processor).step _, rfl, .unborn,
    ⟨⟨nofun, nofun⟩, ⟨nofun, nofun⟩, rfl, fun d name hd hmem => ?_⟩, fun _ _ _ => ⟨nofun, nofun⟩,
    nofun⟩
  rcases Publication.mem_register hd hmem with heq | ⟨d, there, hmem⟩
  · cases congrArg Prod.snd heq
  · exact absurd hmem (unknown d name there)

/-- A stopped server has nobody on its way but what the tasks of sessions have. -/
theorem Sound.serves_of_stopped (h : s.Sound) (stopped : s.status = .stopped) {c : Change}
    (changes : s.Changes id c) : ∃ connection m, s.activity? id = some (.serve connection m (.changing c)) := by
  obtain ⟨p, hp⟩ := h.orderly.phase
  obtain ⟨a, found, hc⟩ := changes
  cases a with
  | start => cases hc
  | stop stage =>
    -- A stop that has one is in charge of a server that is stopping.
    obtain rfl := hp.eq_stopped stopped
    have hpart : s.part id = stage.part := part_of_activity? found
    cases stage with
    | changing d rest isLast =>
      have hcall := hp.call?_eq hpart (by cases isLast <;> trivial)
      cases hcall
    | _ => cases hc
  | accept x =>
    have hfinished := hp.deaf_of_stopped stopped id x found
    simp [Activity.change?, hfinished] at hc
  | serve connection m stage =>
    cases stage with
    | changing d =>
      obtain rfl := Option.some.inj hc
      exact ⟨connection, m, found⟩
    | _ => cases hc

theorem Traced.inOrder (h : s.Traced n) : s.InOrder n := by
  obtain ⟨p, hp⟩ := h.place
  refine ⟨fun newer older split => ?_, fun stopped d name hd hmem => ?_⟩
  · have hsuffix : .destroyed :: older <:+ [.destroyed, .created] :=
      List.IsSuffix.trans ⟨newer, split.symm⟩ (hp.hooks ▸ p.hooks_suffix)
    rcases List.suffix_cons_iff.mp hsuffix with heq | hsuffix
    · obtain ⟨-, rfl⟩ := List.cons.inj heq
      exact List.mem_singleton.mpr rfl
    · simp [List.suffix_cons_iff] at hsuffix
  · have hplace := (hp.published d name hd hmem).2
    have hregistered : (n + 1, n) ∉ s.registered.entries := by
      rw [h.sound.cleared.stopped stopped]
      exact List.not_mem_nil
    rw [hp.registered] at hregistered
    cases p with
    | going id stage =>
      obtain ⟨connection, m, found⟩ := h.sound.serves_of_stopped stopped ((hp.changes id _ rfl).mpr rfl)
      exact ⟨id, connection, m, stage, found, by simpa [Place.isPublished] using hplace⟩
    | coming | here => exact absurd rfl hregistered
    | unborn | gone => cases hplace

/-! ## Stops that do not wait -/

/-- Whatever happens, the listener is told in the right order, and nothing is left in the directory. -/
def AlwaysInOrder : Prop :=
  ∀ (settings : ServerSettings) (sessionSettings : SessionSettings) (publication : Publication ManagedObject)
    (processor n : Nat) (xs : List Step), (∀ d name, publication = some d → (name, .session n) ∉ d.entries) →
    ((watched settings sessionSettings publication processor).after xs).InOrder n

/-- A server that has not been started yet, and somebody who wants to be told of its sessions. -/
def watchedServer : Server :=
  watched ⟨"a", .v4 ⟨0, 0, 0, 0⟩ 2775, "smsc", ⟨1000⟩⟩ ⟨10, ⟨1000⟩, ⟨1000⟩, ⟨1000⟩⟩ (some .empty) 0

/-- A server is started, a client comes, and the loop goes on for `turns`. -/
def arrival (turns : Nat) : List Step :=
  let go (id : Nat) : Step := .move (.task id)
  [.feel .start, go 0, .feel (.bound 0 (.ok ())), .feel (.named 0 (.ok (.v4 ⟨0, 0, 0, 0⟩ 2775)))] ++
    List.replicate 5 (go 0) ++ [.feel (.connect 1 ⟨.v4 ⟨127, 0, 0, 1⟩ 5000, true⟩)] ++
    List.replicate turns (go 1)

/-- The loop has put a session into the registry, and not even counted it, when a stop lists the sessions. The
stop forgets the session and waits for the loop then, which publishes and announces it only now. -/
def hastyStop : List Step :=
  arrival 3 ++ [.feel .stop] ++ List.replicate 9 (.move (.task 2)) ++ List.replicate 5 (.move (.task 1)) ++
    List.replicate 5 (.move (.task 2))

theorem not_takesBack (h : s.tasks.all (·.activity.change?.isNone) = true) : ¬ s.TakesBack n := by
  rintro ⟨id, connection, m, stage, found, -⟩
  obtain ⟨t, ht, htask⟩ := Option.map_eq_some_iff.mp found
  have hnone := List.all_eq_true.mp h t (List.mem_of_find?_eq_some ht)
  simp [htask, Activity.change?] at hnone

/-- The listener is told that the session has gone before it is told that it has come, and the session stays in
the directory of the stopped server, as no task has it in hand any more. -/
theorem hastyStop_ends : (watchedServer.after hastyStop).hooks 0 = [.created, .destroyed] ∧
    (watchedServer.after hastyStop).status = .stopped ∧
    (watchedServer.after hastyStop).publication.any
      (fun d => ("smppserver:type=Sessions,server=a,id=session-1", .session 0) ∈ d.entries) = true ∧
    ¬ (watchedServer.after hastyStop).TakesBack 0 := by
  refine ⟨by decide +kernel, by decide +kernel, by decide +kernel, not_takesBack (by decide +kernel)⟩

theorem hooks_out_of_order : ¬ AlwaysInOrder := by
  intro always
  have horder : (watchedServer.after hastyStop).InOrder 0 :=
    always _ _ (some .empty) 0 0 hastyStop (by rintro d name ⟨⟩; exact List.not_mem_nil)
  exact absurd (horder.hooks [.created] [] hastyStop_ends.1) List.not_mem_nil

/-- As long as no stop takes a session out of the registry whose registration is under way, the listener is
told in the right order, and nothing is left in the directory. -/
theorem hooks_in_order (settings : ServerSettings) (sessionSettings : SessionSettings)
    (publication : Publication ManagedObject) (processor n : Nat) (xs : List Step)
    (unknown : ∀ d name, publication = some d → (name, .session n) ∉ d.entries)
    (timely : (watched settings sessionSettings publication processor).isTimely n xs = true) :
    ((watched settings sessionSettings publication processor).after xs).InOrder n :=
  ((watched_traced settings sessionSettings publication processor unknown).after xs timely).inOrder

/-- The stop lists the sessions when the loop has done with the session. While it disconnects the session, the
task of the session takes it out of the registry. -/
def patientStop : List Step :=
  arrival 7 ++ [.feel .stop] ++ List.replicate 3 (.move (.task 3)) ++ [.move (.session 0 (.reader .stop))] ++
    List.replicate 2 (.move (.task 2)) ++ List.replicate 2 (.move (.task 3)) ++ [.move (.task 1)] ++
    List.replicate 5 (.move (.task 3)) ++ List.replicate 4 (.move (.task 2))

theorem patientStop_inOrder : watchedServer.isTimely 0 patientStop = true ∧
    (watchedServer.after patientStop).hooks 0 = [.destroyed, .created] ∧
    (watchedServer.after patientStop).status = .stopped ∧ (watchedServer.after patientStop).InOrder 0 := by
  have timely : watchedServer.isTimely 0 patientStop = true := by decide +kernel
  refine ⟨timely, by decide +kernel, by decide +kernel, ?_⟩
  exact hooks_in_order _ _ (some .empty) 0 0 patientStop (by rintro d name ⟨⟩; exact List.not_mem_nil) timely

end Smsc.Server
