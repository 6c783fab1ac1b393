import Smsc.Proofs.Server.Clearing
import Smsc.Proofs.Server.Whole

/-!
# Smsc.Proofs.Server.Stop — what a stop leaves behind

Sessions come and go while a stop is under way, each in one step: a loop may have let a connection in
before the stop began and make the session afterwards, and the tasks of sessions forget what the stop is
about to forget.

* `WholeSound s`: what every whole step keeps; `WholeSound.after`;
* `Down s`: nothing of a server is left; `stop_complete`: so it is when a stop stores the status.
-/

namespace Smsc.Server

variable {s : Server}

/-! ## Whole runs -/

/-- What every whole step of a server keeps. -/
structure WholeSound (s : Server) : Prop where
  sound : s.Sound
  whole : s.Whole
  counted : s.Counted

theorem WholeSound.step (h : s.WholeSound) (x : Step) : (s.wholeStep x).WholeSound := by
  obtain ⟨happens, whole⟩ := h.whole.step h.sound.orderly.numbered x
  obtain ⟨xs, hxs⟩ := wholeStep_after s x
  exact ⟨hxs ▸ h.sound.after xs, whole, h.counted.happens h.sound.matched.toFiled happens⟩

theorem WholeSound.after (h : s.WholeSound) (xs : List Step) : (s.wholeAfter xs).WholeSound := by
  induction xs generalizing s with
  | nil => exact h
  | cons x xs ih => exact ih (h.step x)

theorem fresh_wholeSound (settings : ServerSettings) (sessionSettings : SessionSettings)
    (publication : Publication ManagedObject) (processor : Nat) :
    (fresh settings sessionSettings publication processor).WholeSound :=
  ⟨fresh_sound .., nofun, rfl, rfl⟩

/-! ## Down -/

/-- Nothing of a server is left but what it remembers. -/
structure Down (s : Server) : Prop where
  status : s.status = .stopped
  registered : s.registered.entries = []
  sessions : ∀ x ∈ s.sessions, x.status = .closed
  counted : s.created = s.destroyed
  loops : ∀ id x, s.activity? id = some (.accept x) → x.stage = .finished
  endpoint : s.endpoint = none
  uptime : s.uptime = none

/-- A stopped server with an empty registry in which every session has been counted is down. -/
theorem Sound.down (h : s.Sound) (counted : s.Counted) (stopped : s.status = .stopped) : s.Down := by
  obtain ⟨p, hp⟩ := h.orderly.phase
  have hempty := h.cleared.stopped stopped
  refine ⟨stopped, hempty, fun x hx => ?_, ?_, hp.deaf_of_stopped stopped, ?_, ?_⟩
  · obtain ⟨n, hn⟩ := List.mem_iff_getElem?.mp hx
    exact h.settled.gone n (by simp [hempty]) x hn
  · have hsize : s.registered.size = 0 := by simp [Registry.size, hempty]
    have := counted.destroyed
    rw [counted.created, ← this, hsize, Nat.add_zero]
  · exact ((hp.isGoverned h.failed).stopped stopped).1
  · exact ((hp.isGoverned h.failed).stopped stopped).2

/-- When a stop stores the status, nothing of the server is left: whatever the sessions, the clients, the
loop and other calls have done meanwhile, and however each session took its disconnection. -/
theorem stop_complete (settings : ServerSettings) (sessionSettings : SessionSettings)
    (publication : Publication ManagedObject) (processor : Nat) (xs : List Step) (id : Nat)
    (storing : ((fresh settings sessionSettings publication processor).wholeAfter xs).activity? id =
      some (.stop .storing)) :
    (((fresh settings sessionSettings publication processor).wholeAfter xs).wholeStep
      (.move (.task id))).Down := by
  have hrun := (fresh_wholeSound settings sessionSettings publication processor).after xs
  generalize (fresh settings sessionSettings publication processor).wholeAfter xs = s at hrun storing
  have hnext := hrun.step (.move (.task id))
  refine hnext.sound.down hnext.counted ?_
  rw [wholeStep, storing]
  rfl

/-- Two clients come; the second is let in before the stop begins, and its session is made when the first
has been forgotten. -/
def lateArrival : List Step :=
  let go (id : Nat) : Step := .move (.task id)
  let arrival (port : UInt16) : Arrival := ⟨.v4 ⟨127, 0, 0, 1⟩ port, true⟩
  [.feel .start, go 0, .feel (.bound 0 (.ok ())), .feel (.named 0 (.ok (.v4 ⟨0, 0, 0, 0⟩ 2775)))] ++
    List.replicate 5 (go 0) ++ [.feel (.connect 1 (arrival 5000)), .feel (.connect 1 (arrival 5001))] ++
    List.replicate 5 (go 1) ++ [.feel .stop] ++ List.replicate 6 (go 3) ++ List.replicate 2 (go 1) ++
    List.replicate 5 (go 3)

/-- A server that has not been started yet. -/
def idleServer : Server :=
  fresh ⟨"a", .v4 ⟨0, 0, 0, 0⟩ 2775, "smsc", ⟨1000⟩⟩ ⟨10, ⟨1000⟩, ⟨1000⟩, ⟨1000⟩⟩ (some .empty) 0

theorem lateArrival_down : (idleServer.wholeAfter lateArrival).sessions.length = 2 ∧
    (idleServer.wholeAfter lateArrival).activity? 3 = some (.stop .storing) ∧
    ((idleServer.wholeAfter lateArrival).wholeStep (.move (.task 3))).Down :=
  ⟨by decide +kernel, by rfl, stop_complete _ _ _ _ lateArrival 3 (by rfl)⟩

end Smsc.Server
