import Smsc.Proofs.Server.Lifecycle
import Smsc.Proofs.Server.Sessions

/-!
# Smsc.Proofs.Server.Clearing — nobody is left in the registry of a stopped server

A session may come while a stop goes through the sessions the first time. The second time no loop is open,
so every session that is registered is among those still to come.

* `Deaf s`: no loop is open; `Deaf.subset`: then nobody comes;
* `StopStage.toClear?`: what is still to come in the second pass;
* `Cleared s`: the registry holds no more than that, and nothing in a stopped server;
* `Sound s`: all that every step of a server keeps; `fresh_sound`, `Sound.after`.
-/

namespace Smsc

/-- What a stop has still to take out of the registry, from the start of its second pass on. -/
def StopStage.toClear? : StopStage → Option (List (Nat × Nat))
  | .disconnecting rest true | .waiting _ rest true | .removing rest true | .changing _ rest true => some rest
  | .clearingTime | .storing => some []
  | _ => none

theorem Server.nextOfPass_toClear? (rest : List (Nat × Nat)) : (Server.nextOfPass rest true).toClear? = some rest := by
  cases rest <;> rfl

theorem Server.isLast_of_toClear? {rest rest' : List (Nat × Nat)} {isLast : Bool}
    (h : (Server.nextOfPass rest isLast).toClear? = some rest') : isLast = true ∧ rest' = rest := by
  cases isLast with
  | true => exact ⟨rfl, Option.some.inj (h.symm.trans (nextOfPass_toClear? rest))⟩
  | false => cases rest <;> cases h

theorem StopStage.part_of_toClear? {stage : StopStage} {rest : List (Nat × Nat)} (h : stage.toClear? = some rest) :
    stage.part = .clearing ∨ stage.part = .closing := by
  cases stage with
  | disconnecting rest isLast | waiting _ rest isLast | removing rest isLast | changing _ rest isLast =>
    cases isLast with
    | true => exact .inl rfl
    | false => cases h
  | clearingTime => exact .inl rfl
  | storing => exact .inr rfl
  | _ => cases h

namespace Server

variable {s t u : Server} {p : Phase} {id n : Nat} {a b : Activity}

/-! ## Nobody comes -/

/-- No loop is open. -/
def Deaf (s : Server) : Prop := ∀ id x, s.activity? id = some (.accept x) → x.stage = .finished

theorem In.deaf (h : s.In p) (loop : p.loop? = none) (joined : p.joined? = none) : s.Deaf := by
  intro id x found
  rcases h.others id x.isShutDown (x.stage = .finished) (part_of_activity? found) with hloop | ⟨-, ended | hjoined⟩
  · rw [loop] at hloop
    cases hloop
  · exact of_decide_eq_true ended
  · rw [joined] at hjoined
    cases hjoined

theorem In.deaf_of_stopped (h : s.In p) (stopped : s.status = .stopped) : s.Deaf := by
  obtain rfl := h.eq_stopped stopped
  exact h.deaf rfl rfl

theorem In.deaf_of_preparing (h : s.In p) (hi : s.part id = .preparing) : s.Deaf := by
  obtain rfl := h.eq_preparing hi
  exact h.deaf rfl rfl

theorem In.deaf_of_toClear (h : s.In p) {stage : StopStage} {rest : List (Nat × Nat)}
    (found : s.activity? id = some (.stop stage)) (toClear : stage.toClear? = some rest) : s.Deaf := by
  have hpart : s.part id = stage.part := part_of_activity? found
  rcases StopStage.part_of_toClear? toClear with hstage | hstage
  · obtain rfl := h.eq_clearing (hpart.trans hstage)
    exact h.deaf rfl rfl
  · obtain rfl := h.eq_closing (hpart.trans hstage)
    exact h.deaf rfl rfl

theorem Registers.subset (h : s.Registers a u b) (deaf : s.Deaf) (found : s.activity? id = some a) :
    u.registered.entries ⊆ s.registered.entries := by
  cases h with
  | keeps same => rw [same]; exact List.Subset.refl _
  | enrolls x peer accepts inserting =>
    rw [deaf id x (accepts ▸ found)] at inserting
    cases inserting
  | removes connection m n there removed =>
    rw [removed]
    exact fun e he => (Registry.mem_erase.mp he).1

theorem Deaf.subset (h : s.Deaf) (x : Step) : (s.step x).registered.entries ⊆ s.registered.entries := by
  have hhappens := step_happens s x
  generalize s.step x = t at hhappens
  cases hhappens with
  | feels x t feels => rw [feels.registered.1]; exact List.Subset.refl _
  | task id a found u b turn => exact turn.registers.subset h found
  | session n m t same => rw [same]; exact List.Subset.refl _
  | nothing m => exact List.Subset.refl _

/-! ## The second pass -/

/-- What is registered is still to come in the second pass, and nothing is registered in a stopped server. -/
structure Cleared (s : Server) : Prop where
  pass : ∀ id stage rest, s.activity? id = some (.stop stage) → stage.toClear? = some rest →
    s.registered.entries ⊆ rest
  stopped : s.status = .stopped → s.registered.entries = []
  preparing : ∀ id, s.part id = .preparing → s.registered.entries = []

/-- A stop goes on with its second pass. -/
theorem StopTurn.clears {stage next : StopStage} {rest' : List (Nat × Nat)} (turn : s.StopTurn stage u next)
    (hc : s.Cleared) (found : s.activity? id = some (.stop stage)) (toClear : next.toClear? = some rest') :
    u.registered.entries ⊆ rest' := by
  have pass {rest : List (Nat × Nat)} (h : stage.toClear? = some rest) := hc.pass id stage rest found h
  cases turn with
  | lists isLast =>
    obtain ⟨rfl, rfl⟩ := isLast_of_toClear? toClear
    exact List.Subset.refl _
  | passes _ isLast empty =>
    obtain ⟨rfl, rfl⟩ := isLast_of_toClear? toClear
    rcases empty with rfl | rfl <;> exact pass rfl
  | disconnects connection n rest isLast next waits =>
    rw [updateSession_same]
    rcases waits with ⟨wake, rfl⟩ | rfl <;> cases isLast <;> cases toClear <;> exact pass rfl
  | awaits wake rest isLast =>
    cases isLast <;> cases toClear
    exact pass rfl
  | removes connection n rest isLast u c removed =>
    obtain ⟨m, -, rfl, -⟩ := remove?_eq_some.mp removed
    cases isLast <;> cases toClear
    intro e he
    obtain ⟨hmem, hne⟩ := Registry.mem_erase.mp he
    exact (List.mem_cons.mp (pass rfl hmem)).resolve_left fun heq => hne (congrArg Prod.fst heq)
  | misses connection n rest isLast missing =>
    obtain ⟨rfl, rfl⟩ := isLast_of_toClear? toClear
    rw [remove?, Option.map_eq_none_iff, Registry.find?_eq_none] at missing
    intro e he
    refine (List.mem_cons.mp (pass rfl he)).resolve_left fun heq => missing ?_
    subst heq
    exact Registry.mem_keys he
  | changes c rest isLast u c' changed =>
    rw [stepChange_same changed]
    cases isLast <;> cases toClear
    exact pass rfl
  | announces c rest isLast u changed =>
    rw [stepChange_same changed]
    obtain ⟨rfl, rfl⟩ := isLast_of_toClear? toClear
    exact pass rfl
  | clearsTime =>
    cases toClear
    exact pass rfl
  | _ => cases toClear

theorem Cleared.pass_step (h : s.Cleared) (ho : s.Orderly) (x : Step) {stage : StopStage}
    {rest : List (Nat × Nat)} (found : (s.step x).activity? id = some (.stop stage))
    (toClear : stage.toClear? = some rest) : (s.step x).registered.entries ⊆ rest := by
  obtain ⟨p, hp⟩ := ho.phase
  -- A stop that takes no turn was there before, so nobody can have come.
  have stays (earlier : s.activity? id = some (.stop stage)) : (s.step x).registered.entries ⊆ rest :=
    List.Subset.trans ((hp.deaf_of_toClear earlier toClear).subset x) (h.pass id stage rest earlier toClear)
  have hhappens := step_happens s x
  generalize s.step x = t at hhappens found stays ⊢
  cases hhappens with
  | feels x t feels =>
    have hfelt := feels.activity? ho.numbered found
    generalize hc : Activity.stop stage = c at hfelt
    cases hfelt with
    | stays earlier => exact stays (hc ▸ earlier)
    | asked asking =>
      rcases asking with rfl | rfl
      · cases hc
      · obtain rfl := Activity.stop.inj hc
        cases toClear
    | answered | connected => cases hc
  | task i a there u b turn =>
    rcases turn.activity? ho.numbered found with ⟨rfl, rfl⟩ | ⟨-, hbeside⟩
    · cases turn with
      | stop turn => exact turn.clears h there toClear
    · cases hbeside with
      | stays earlier => exact stays earlier
  | session n m t same => exact stays ((activity?_congr (by rw [same]) id).symm.trans found)
  | nothing m => exact stays found

/-- A start prepares that has just begun, or has prepared before. -/
theorem preparing_step (ho : s.Orderly) (x : Step) (hi : (s.step x).part id = .preparing) :
    s.part id = .preparing ∨ s.status = .stopped := by
  obtain ⟨c, found, hc⟩ := activity?_of_part hi nofun
  have hhappens := step_happens s x
  generalize s.step x = t at hhappens found
  have stays (earlier : s.activity? id = some c) : s.part id = .preparing :=
    (part_of_activity? earlier).trans hc
  cases hhappens with
  | feels x t feels =>
    have hfelt := feels.activity? ho.numbered found
    cases hfelt with
    | stays earlier => exact .inl (stays earlier)
    | asked asking => rcases asking with rfl | rfl <;> cases hc
    | answered earlier answered =>
      refine .inl ((part_of_activity? earlier).trans ?_)
      cases answered <;> rfl
    | connected => cases hc
  | task i a there u b turn =>
    rcases turn.activity? ho.numbered found with ⟨rfl, rfl⟩ | ⟨-, hbeside⟩
    · cases turn with
      | start turn =>
        cases turn with
        | begins stopped => exact .inr stopped
        | _ => cases hc
      | stop turn =>
        -- No stop prepares.
        rename_i stage next
        cases next with
        | listing isLast | disconnecting _ isLast | waiting _ _ isLast | removing _ isLast | changing _ _ isLast =>
          cases isLast <;> cases hc
        | _ => cases hc
      | accept | serve => cases hc
    · cases hbeside with
      | stays earlier => exact .inl (stays earlier)
      | told | spawned | served => cases hc
  | session n m t same => exact .inl (stays ((activity?_congr (by rw [same]) id).symm.trans found))
  | nothing m => exact .inl (stays found)

theorem Cleared.step (h : s.Cleared) (ho : s.Orderly) (hf : s.FailedByHost) (x : Step) :
    (s.step x).Cleared := by
  obtain ⟨p, hp⟩ := ho.phase
  have empty (deaf : s.Deaf) (none : s.registered.entries = []) : (s.step x).registered.entries = [] :=
    List.subset_nil.mp (none ▸ deaf.subset x)
  have emptyStopped (stopped : s.status = .stopped) : (s.step x).registered.entries = [] :=
    empty (hp.deaf_of_stopped stopped) (h.stopped stopped)
  have emptyPreparing {i : Nat} (hi : s.part i = .preparing) : (s.step x).registered.entries = [] :=
    empty (hp.deaf_of_preparing hi) (h.preparing i hi)
  refine ⟨fun i stage rest found toClear => h.pass_step ho x found toClear, fun stopped => ?_, fun i hi => ?_⟩
  · rcases hp.moves hf x with hstays | hmoves
    · exact emptyStopped (hstays.symm.trans stopped)
    · rw [stopped] at hmoves
      cases hmoves with
      | fails i e failed => exact emptyPreparing (part_of_activity? failed)
      | finishes i storing =>
        exact empty (hp.deaf_of_toClear storing rfl) (List.subset_nil.mp (h.pass i _ _ storing rfl))
  · rcases preparing_step ho x hi with earlier | stopped
    · exact emptyPreparing earlier
    · exact emptyStopped stopped

/-! ## Runs -/

/-- What every step of a server keeps. -/
structure Sound (s : Server) : Prop where
  orderly : s.Orderly
  failed : s.FailedByHost
  matched : s.Matched
  settled : s.Settled
  cleared : s.Cleared

theorem Sound.step (h : s.Sound) (x : Step) : (s.step x).Sound where
  orderly := h.orderly.step x
  failed := h.failed.step h.orderly.numbered x
  matched := h.matched.step h.orderly.numbered x
  settled := h.settled.step h.matched h.orderly.numbered x
  cleared := h.cleared.step h.orderly h.failed x

theorem Sound.after (h : s.Sound) (xs : List Step) : (s.after xs).Sound :=
  after_induct (fun _ x ht => ht.step x) h xs

theorem fresh_sound (settings : ServerSettings) (sessionSettings : SessionSettings)
    (publication : Publication ManagedObject) (processor : Nat) :
    (fresh settings sessionSettings publication processor).Sound := by
  have noSession (n : Nat) (x : Session) (hx : ([] : List Session)[n]? = some x) : False := by simp at hx
  refine ⟨fresh_orderly .., nofun, ⟨⟨rfl, fun e he => absurd he List.not_mem_nil, .nil⟩, nofun⟩,
    ⟨fun n x hx => (noSession n x hx).elim, fun n _ x hx => (noSession n x hx).elim, nofun⟩,
    nofun, fun _ => rfl, fun _ _ => rfl⟩

end Server

end Smsc
