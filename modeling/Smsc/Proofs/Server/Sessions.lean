import Smsc.Proofs.Registry
import Smsc.Proofs.Server.Phases
import Smsc.Proofs.Session.Lasting

/-!
# Smsc.Proofs.Server.Sessions — who is in the registry

Connections are numbered from one and sessions from zero, so session `n` is registered under `n + 1` until
somebody takes it out. Whoever does has closed it first, or found its reader at an end.

* `Registers s a u b`, `Turn.registers`: a task leaves the registry alone, puts a session in, or takes one
  out;
* `Matched s`: the numbers fit, in the registry and in the hands of every task;
* `Settled s`: a session is closed unless it is registered.
-/

namespace Smsc

/-! ## In the hands of a task -/

/-- A connection and the number of its session, of which there are so many. -/
def Pairs (count : Nat) (e : Nat × Nat) : Prop := e.1 = e.2 + 1 ∧ e.2 < count

theorem Pairs.mono {count count' : Nat} {e : Nat × Nat} (h : Pairs count e) (le : count ≤ count') :
    Pairs count' e :=
  ⟨h.1, Nat.lt_of_lt_of_le h.2 le⟩

/-- The connections and sessions that are still to come in a pass. -/
def StopStage.rest : StopStage → List (Nat × Nat)
  | .disconnecting rest _ | .waiting _ rest _ | .removing rest _ | .changing _ rest _ => rest
  | _ => []

theorem Server.nextOfPass_rest (rest : List (Nat × Nat)) (isLast : Bool) :
    (Server.nextOfPass rest isLast).rest = rest := by
  cases rest <;> cases isLast <;> rfl

/-- The numbers that a task has in hand fit. -/
def Activity.Fits (count : Nat) : Activity → Prop
  | .start _ => True
  | .stop stage => ∀ e ∈ stage.rest, Pairs count e
  | .accept x => ∀ connection c, x.stage = .changing connection c → Pairs count (connection, c.session)
  | .serve connection n _ => Pairs count (connection, n)

theorem Activity.Fits.mono {count count' : Nat} {a : Activity} (h : a.Fits count) (le : count ≤ count') :
    a.Fits count' := by
  cases a with
  | start => trivial
  | stop stage => exact fun e he => (h e he).mono le
  | accept x => exact fun connection c hx => (h connection c hx).mono le
  | serve => exact Pairs.mono h le

/-- The session that a task has done with, and is about to take out of the registry. -/
def Activity.dismissed? : Activity → Option Nat
  | .stop (.waiting _ ((_, n) :: _) _) | .stop (.removing ((_, n) :: _) _) => some n
  | .serve _ n .removing => some n
  | _ => none

namespace Server

variable {s t u : Server} {p : Phase} {id connection n : Nat} {a b : Activity}

/-! ## What a task does to the registry -/

/-- What a task that goes on does to the registry. -/
inductive Registers (s : Server) (a : Activity) (u : Server) (b : Activity) : Prop where
  | keeps (same : u = { s with
        status := u.status, endpoint := u.endpoint, startedAt := u.startedAt, sessions := u.sessions,
        publication := u.publication, created := u.created, destroyed := u.destroyed, tasks := u.tasks,
        nextTask := u.nextTask, log := u.log })
      (sessions : s.SessionsRun u)
  /-- A loop makes a session for a connection. -/
  | enrolls (x : Acceptor) (peer : Arrival) (accepts : a = .accept x) (inserting : x.stage = .inserting peer)
      (enrolled : u = (s.enroll (some peer.peer)).1)
      (next : b = .accept { x with
        stage := .changing s.nextConnection ⟨s.sessions.length, true, .counting⟩ })
  /-- A session that has been dismissed is taken out. -/
  | removes (connection m n : Nat) (there : s.registered.find? connection = some n)
      (removed : u = { s with registered := s.registered.erase connection })
      (next : (∃ rest isLast, a = .stop (.removing ((connection, m) :: rest) isLast) ∧
          b = .stop (.changing ⟨n, false, .counting⟩ rest isLast)) ∨
        a = .serve connection m .removing ∧ b = .serve connection m (.changing ⟨n, false, .counting⟩))

theorem Registers.of_same {a b : Activity} (same : u = { s with
      status := u.status, endpoint := u.endpoint, startedAt := u.startedAt, publication := u.publication,
      created := u.created, destroyed := u.destroyed, tasks := u.tasks, nextTask := u.nextTask,
      log := u.log }) : s.Registers a u b := by
  refine .keeps ?_ (.of_eq (by rw [same]))
  rw [same]

theorem Registers.of_change {a b : Activity} {c : Change} {next : Option Change}
    (changed : s.stepChange c = (u, next)) : s.Registers a u b := by
  refine .of_same ?_
  rw [stepChange_same changed]

theorem StartTurn.registers {stage next : StartStage} (turn : s.StartTurn stage u next) :
    s.Registers (.start stage) u (.start next) := by
  cases turn <;> exact .of_same rfl

theorem StopTurn.registers {stage next : StopStage} (turn : s.StopTurn stage u next) :
    s.Registers (.stop stage) u (.stop next) := by
  cases turn with
  | disconnects connection n rest isLast =>
    refine .keeps (by rw [updateSession_same]) (updateSession_sessionsRun s n fun x _ => ?_)
    exact .feel .disconnect .refl
  | removes connection m rest isLast u c removed =>
    obtain ⟨n, hn, rfl, rfl⟩ := remove?_eq_some.mp removed
    exact .removes connection m n hn rfl (.inl ⟨rest, isLast, rfl, rfl⟩)
  | changes c rest isLast u c' changed => exact .of_change changed
  | announces c rest isLast u changed => exact .of_change changed
  | takesEndpoint e endpoint =>
    refine .of_same ?_
    unfold shutDown
    split <;> rfl
  | _ => exact .of_same rfl

theorem AcceptTurn.registers {x next : Acceptor} (turn : s.AcceptTurn x u next) :
    s.Registers (.accept x) u (.accept next) := by
  cases turn with
  | enrolls peer inserting u connection c enrolled =>
    rw [enroll_eq] at enrolled
    obtain ⟨rfl, rfl, rfl⟩ := by simpa using enrolled
    exact .enrolls x peer rfl inserting rfl rfl
  | changes connection c changing u c' changed => exact .of_change changed
  | announces connection c changing u changed =>
    refine .of_same ?_
    rw [stepChange_same changed]
    rfl
  | _ => exact .of_same rfl

theorem ServeTurn.registers {connection m : Nat} {stage next : ServeStage}
    (turn : s.ServeTurn connection m stage u next) :
    s.Registers (.serve connection m stage) u (.serve connection m next) := by
  cases turn with
  | removes u c removed =>
    obtain ⟨n, hn, rfl, rfl⟩ := remove?_eq_some.mp removed
    exact .removes connection m n hn rfl (.inr ⟨rfl, rfl⟩)
  | changes c u c' changed => exact .of_change changed
  | announces c u changed => exact .of_change changed
  | _ => exact .of_same rfl

theorem Turn.registers (turn : s.Turn a u b) : s.Registers a u b := by
  cases turn with
  | start turn => exact turn.registers
  | stop turn => exact turn.registers
  | accept turn => exact turn.registers
  | serve turn => exact turn.registers

/-- The sessions go on, and there may be one more. -/
theorem Registers.length_le (h : s.Registers a u b) : s.sessions.length ≤ u.sessions.length := by
  cases h with
  | keeps same sessions => exact Nat.le_of_eq sessions.length.symm
  | enrolls x peer accepts inserting enrolled =>
    rw [enrolled, enroll_eq]
    simp
  | removes connection m n there removed => exact Nat.le_of_eq (by rw [removed])

/-! ## Numbers -/

/-- The numbers in the registry fit. -/
structure Filed (s : Server) : Prop where
  next : s.nextConnection = s.sessions.length + 1
  pairs : ∀ e ∈ s.registered.entries, Pairs s.sessions.length e
  distinct : s.registered.Distinct

namespace Filed

theorem congr (h : s.Filed) (length : t.sessions.length = s.sessions.length)
    (registered : t.registered = s.registered) (next : t.nextConnection = s.nextConnection) : t.Filed :=
  ⟨by rw [next, length, h.next], by rw [registered, length]; exact h.pairs, by rw [registered]; exact h.distinct⟩

theorem fresh (h : s.Filed) : s.nextConnection ∉ s.registered.keys := fun hmem => by
  obtain ⟨e, he, heq⟩ := List.mem_map.mp hmem
  obtain ⟨hpair, hlt⟩ := h.pairs e he
  have := h.next
  omega

theorem find?_iff (h : s.Filed) : s.registered.find? connection = some n ↔
    connection = n + 1 ∧ (n + 1, n) ∈ s.registered.entries := by
  rw [Registry.find?_eq_some h.distinct]
  constructor
  · intro hmem
    obtain rfl : connection = n + 1 := (h.pairs _ hmem).1
    exact ⟨rfl, hmem⟩
  · rintro ⟨rfl, hmem⟩
    exact hmem

/-- The registry after a session has come. -/
theorem mem_enroll (h : s.Filed) (peer : Option SocketAddress) {e : Nat × Nat} :
    e ∈ (s.enroll peer).1.registered.entries ↔
      e = (s.sessions.length + 1, s.sessions.length) ∨ e ∈ s.registered.entries := by
  rw [enroll_eq]
  show e ∈ (s.registered.insert s.nextConnection s.sessions.length).entries ↔ _
  rw [Registry.mem_insert h.fresh, h.next]

theorem enroll (h : s.Filed) (peer : Option SocketAddress) : (s.enroll peer).1.Filed where
  next := by simp [enroll_eq, h.next]
  pairs e he := by
    have hlength : (s.enroll peer).1.sessions.length = s.sessions.length + 1 := by simp [enroll_eq]
    rw [hlength]
    rcases (h.mem_enroll peer).mp he with rfl | he
    · exact ⟨rfl, Nat.lt_succ_self _⟩
    · exact (h.pairs e he).mono (Nat.le_succ _)
  distinct := h.distinct.insert h.fresh _

theorem erase (h : s.Filed) (connection : Nat) :
    Filed { s with registered := s.registered.erase connection } :=
  ⟨h.next, fun e he => h.pairs e (Registry.mem_erase.mp he).1, h.distinct.erase connection⟩

end Filed

theorem Registers.filed (h : s.Registers a u b) (hs : s.Filed) : u.Filed := by
  cases h with
  | keeps same sessions => exact hs.congr sessions.length (by rw [same]) (by rw [same])
  | enrolls x peer accepts inserting enrolled =>
    rw [enrolled]
    exact hs.enroll _
  | removes connection m n there removed =>
    rw [removed]
    exact hs.erase connection

/-- The numbers fit, in the registry and in the hands of every task. -/
structure Matched (s : Server) : Prop extends s.Filed where
  tasks : ∀ id a, s.activity? id = some a → a.Fits s.sessions.length

theorem StopTurn.fits {stage next : StopStage} (turn : s.StopTurn stage u next) (h : s.Filed)
    (fits : (Activity.stop stage).Fits s.sessions.length) : (Activity.stop next).Fits s.sessions.length := by
  have rest (stage : StopStage) (hrest : ∀ e ∈ stage.rest, Pairs s.sessions.length e) :
      (Activity.stop stage).Fits s.sessions.length := hrest
  cases turn with
  | lists isLast => exact rest _ (by rw [nextOfPass_rest]; exact h.pairs)
  | passes stage isLast empty => exact rest _ (by rw [nextOfPass_rest]; nofun)
  | disconnects connection n l isLast next waits =>
    rcases waits with ⟨wake, rfl⟩ | rfl <;> exact fits
  | awaits | changes => exact fits
  | removes connection n l isLast => exact fun e he => fits e (List.mem_cons_of_mem _ he)
  | misses connection n l isLast =>
    exact rest _ (by rw [nextOfPass_rest]; exact fun e he => fits e (List.mem_cons_of_mem _ he))
  | announces c l isLast => exact rest _ (by rw [nextOfPass_rest]; exact fits)
  | _ => exact rest _ nofun

theorem AcceptTurn.fits {x next : Acceptor} (turn : s.AcceptTurn x u next) (h : s.Filed)
    (fits : (Activity.accept x).Fits s.sessions.length) : (Activity.accept next).Fits u.sessions.length := by
  have hle := turn.registers.length_le
  cases turn with
  | takes waiting going backlog stage taken =>
    rintro connection c rfl
    rcases taken with ⟨peer, hstage⟩ | hstage <;> cases hstage
  | enrolls peer inserting u connection c enrolled =>
    rw [enroll_eq] at enrolled
    obtain ⟨rfl, rfl, rfl⟩ := by simpa using enrolled
    rintro _ _ hx
    obtain ⟨rfl, rfl⟩ := AcceptStage.changing.inj hx
    exact ⟨h.next, by simp⟩
  | changes connection c changing u c' changed =>
    rintro _ _ hx
    obtain ⟨rfl, rfl⟩ := AcceptStage.changing.inj hx
    have hsession : c'.session = c.session := by
      obtain ⟨n, comes, stage⟩ := c
      cases stage <;> cases changed <;> rfl
    rw [hsession]
    exact (fits connection c changing).mono hle
  | _ => nofun

theorem Turn.fits (turn : s.Turn a u b) (h : s.Filed) (fits : a.Fits s.sessions.length) :
    b.Fits u.sessions.length := by
  have hle := turn.registers.length_le
  cases turn with
  | start => trivial
  | stop turn => exact (turn.fits h fits).mono hle
  | accept turn => exact turn.fits h fits
  | serve => exact Pairs.mono fits hle

theorem Beside.fits {j : Nat} {c : Activity} (h : s.Beside a j c) (hs : s.Matched)
    (fits : a.Fits s.sessions.length) : c.Fits s.sessions.length := by
  cases h with
  | stays found => exact hs.tasks j c found
  | told found => exact (hs.tasks j _ found :)
  | spawned => nofun
  | served accepts changing =>
    subst accepts
    exact fits _ _ changing

theorem Felt.fits {j : Nat} {c : Activity} (h : s.Felt j c) (hs : s.Matched) : c.Fits s.sessions.length := by
  cases h with
  | stays found => exact hs.tasks j c found
  | asked asking => rcases asking with rfl | rfl <;> first | trivial | nofun
  | answered => trivial
  | connected found => exact (hs.tasks j _ found :)

theorem Feels.registered (feels : s.Feels t) : t.registered = s.registered ∧
    t.nextConnection = s.nextConnection ∧ s.SessionsRun t := by
  cases feels with
  | aside t same listener sessions => exact ⟨by rw [same], by rw [same], sessions⟩
  | _ => exact ⟨rfl, rfl, .of_eq rfl⟩

theorem Matched.step (h : s.Matched) (hn : s.Numbered) (x : Step) : (s.step x).Matched := by
  have hhappens := step_happens s x
  generalize s.step x = t at hhappens
  cases hhappens with
  | feels x t feels =>
    obtain ⟨registered, next, sessions⟩ := feels.registered
    refine ⟨h.toFiled.congr sessions.length registered next, fun j c hj => ?_⟩
    rw [sessions.length]
    exact (feels.activity? hn hj).fits h
  | task id a found u b turn =>
    have hfits := h.tasks id a found
    refine ⟨(turn.registers.filed h.toFiled).congr rfl rfl rfl, fun j c hj => ?_⟩
    rcases turn.activity? hn hj with ⟨-, rfl⟩ | ⟨-, hbeside⟩
    · exact turn.fits h.toFiled hfits
    · exact (hbeside.fits h hfits).mono turn.registers.length_le
  | session n m t same sessions =>
    refine ⟨h.toFiled.congr sessions.length (by rw [same]) (by rw [same]), fun j c hj => ?_⟩
    rw [sessions.length]
    exact h.tasks j c ((activity?_congr (by rw [same]) j).symm.trans hj)
  | nothing m => exact h

/-! ## Sessions that are over -/

/-- A session has come to its state from its beginning. -/
def Lives (x : Session) : Prop :=
  ∃ id peer serverSystemId settings processor now,
    (Session.fresh id peer serverSystemId settings processor now).Runs x

namespace Lives

variable {x y : Session}

theorem orderly (h : Lives x) : x.Orderly := by
  obtain ⟨id, peer, serverSystemId, settings, processor, now, runs⟩ := h
  exact runs.orderly (Session.fresh_orderly ..)

theorem runs (h : Lives x) (runs : x.Runs y) : Lives y := by
  obtain ⟨id, peer, serverSystemId, settings, processor, now, earlier⟩ := h
  exact ⟨id, peer, serverSystemId, settings, processor, now, earlier.trans runs⟩

theorem closed (h : Lives x) (ended : x.reader = .finished) : x.status = .closed := by
  obtain ⟨id, peer, serverSystemId, settings, processor, now, runs⟩ := h
  exact Session.closed_of_finished runs ended

end Lives

/-- Session `n` is over. -/
def IsOver (s : Server) (n : Nat) : Prop := ∀ x, s.session? n = some x → x.status = .closed

/-- A session is closed unless it is registered. -/
structure Settled (s : Server) : Prop where
  lives : ∀ n x, s.session? n = some x → Lives x
  gone : ∀ n, (n + 1, n) ∉ s.registered.entries → s.IsOver n
  dismissed : ∀ id a n, s.activity? id = some a → a.dismissed? = some n → s.IsOver n

theorem SessionsRun.back (h : s.SessionsRun t) {y : Session} (hy : t.session? n = some y) :
    ∃ x, s.session? n = some x ∧ x.Runs y := by
  have hlt : n < s.sessions.length := h.length ▸ (List.getElem?_eq_some_iff.mp hy).1
  obtain ⟨y', hy', runs⟩ := h.runs n s.sessions[n] (List.getElem?_eq_getElem hlt)
  obtain rfl : y' = y := Option.some.inj (hy'.symm.trans hy)
  exact ⟨_, List.getElem?_eq_getElem hlt, runs⟩

theorem SessionsRun.lives (h : s.SessionsRun t) (lives : ∀ n x, s.session? n = some x → Lives x) :
    ∀ n x, t.session? n = some x → Lives x := fun n y hy => by
  obtain ⟨x, hx, runs⟩ := h.back hy
  exact (lives n x hx).runs runs

theorem SessionsRun.isOver (h : s.SessionsRun t) (lives : ∀ n x, s.session? n = some x → Lives x)
    (gone : s.IsOver n) : t.IsOver n := fun y hy => by
  obtain ⟨x, hx, runs⟩ := h.back hy
  exact runs.closed (lives n x hx).orderly (gone x hx)

/-- One session more does not concern the others. -/
theorem session?_enroll (s : Server) (peer : Option SocketAddress) (hn : n ≠ s.sessions.length) :
    (s.enroll peer).1.session? n = s.session? n := by
  rw [enroll_eq]
  show (s.sessions ++ [_])[n]? = s.sessions[n]?
  rcases Nat.lt_or_gt_of_ne hn with hlt | hgt
  · exact List.getElem?_append_left hlt
  · rw [List.getElem?_eq_none (by simp; omega), List.getElem?_eq_none (by omega)]

theorem session?_enroll_self (s : Server) (peer : Option SocketAddress) :
    (s.enroll peer).1.session? s.sessions.length =
      some (.fresh s.nextSessionId peer s.settings.systemId s.sessionSettings s.processor s.now) := by
  rw [enroll_eq]
  exact List.getElem?_concat_length

theorem Registers.lives (h : s.Registers a u b) (hs : s.Settled) : ∀ n x, u.session? n = some x → Lives x := by
  cases h with
  | keeps same sessions => exact sessions.lives hs.lives
  | enrolls x peer accepts inserting enrolled =>
    intro n y hy
    rw [enrolled] at hy
    by_cases hn : n = s.sessions.length
    · subst hn
      rw [session?_enroll_self] at hy
      obtain rfl := Option.some.inj hy
      exact ⟨_, _, _, _, _, _, .refl⟩
    · rw [session?_enroll s _ hn] at hy
      exact hs.lives n y hy
  | removes connection m n there removed =>
    rw [removed]
    exact hs.lives

/-- What is over stays over. -/
theorem Registers.isOver (h : s.Registers a u b) (hs : s.Settled) (hlt : n < s.sessions.length)
    (gone : s.IsOver n) : u.IsOver n := by
  cases h with
  | keeps same sessions => exact sessions.isOver hs.lives gone
  | enrolls x peer accepts inserting enrolled =>
    intro y hy
    rw [enrolled, session?_enroll s _ (Nat.ne_of_lt hlt)] at hy
    exact gone y hy
  | removes connection m n there removed =>
    rw [removed]
    exact gone

theorem lt_of_dismissed {count : Nat} (h : a.Fits count) (dismissed : a.dismissed? = some n) :
    n < count := by
  cases a with
  | start | accept => cases dismissed
  | stop stage =>
    cases stage with
    | waiting wake rest isLast =>
      match rest, dismissed with
      | (connection, m) :: rest, rfl => exact (h _ List.mem_cons_self).2
    | removing rest isLast =>
      match rest, dismissed with
      | (connection, m) :: rest, rfl => exact (h _ List.mem_cons_self).2
    | _ => cases dismissed
  | serve connection m stage =>
    cases stage with
    | removing =>
      obtain rfl := Option.some.inj dismissed
      exact h.2
    | _ => cases dismissed

theorem Registers.gone (h : s.Registers a u b) (hm : s.Matched) (hs : s.Settled)
    (found : s.activity? id = some a) (n : Nat) (out : (n + 1, n) ∉ u.registered.entries) : u.IsOver n := by
  have hstays := h
  cases h with
  | keeps same sessions =>
    rw [same] at out
    exact sessions.isOver hs.lives (hs.gone n out)
  | enrolls x peer accepts inserting enrolled =>
    rw [enrolled, hm.toFiled.mem_enroll] at out
    intro y hy
    rw [enrolled] at hy
    have hn : n ≠ s.sessions.length := fun heq => out (.inl (by rw [heq]))
    rw [session?_enroll s _ hn] at hy
    exact hs.gone n (fun hmem => out (.inr hmem)) y hy
  | removes connection m k there removed next =>
    by_cases hmem : (n + 1, n) ∈ s.registered.entries
    · -- It is the one that is taken out, so it is the one that was dismissed.
      have hconnection : connection = n + 1 := by
        by_contra hne
        exact out (removed ▸ Registry.mem_erase.mpr ⟨hmem, Ne.symm hne⟩)
      have hdismissed : a.dismissed? = some n := by
        have hfits := hm.tasks id a found
        rcases next with ⟨rest, isLast, rfl, -⟩ | ⟨rfl, -⟩
        · have hpair : connection = m + 1 := (hfits (connection, m) List.mem_cons_self).1
          obtain rfl : m = n := by omega
          rfl
        · have hpair : connection = m + 1 := hfits.1
          obtain rfl : m = n := by omega
          rfl
      exact hstays.isOver hs (hm.pairs _ hmem).2 (hs.dismissed id a n found hdismissed)
    · rw [removed]
      exact hs.gone n hmem

/-- A session that is disconnected is over. -/
theorem updateSession_isOver (s : Server) (n : Nat) : (s.updateSession n fun x => x.disconnect.1).IsOver n := by
  intro y hy
  unfold updateSession at hy
  split at hy
  · rename_i x hx
    have hlt := (List.getElem?_eq_some_iff.mp hx).1
    obtain rfl : x.disconnect.1 = y := by simpa [session?, hlt] using hy
    rfl
  · rename_i hnone
    rw [hnone] at hy
    cases hy

theorem nextOfPass_dismissed? (rest : List (Nat × Nat)) (isLast : Bool) :
    (Activity.stop (nextOfPass rest isLast)).dismissed? = none := by
  cases rest <;> cases isLast <;> rfl

/-- Whoever dismisses a session has closed it, or found its reader at an end. -/
theorem Turn.dismissed (turn : s.Turn a u b) (hs : s.Settled)
    (found : s.activity? id = some a) (dismissed : b.dismissed? = some n) : u.IsOver n := by
  cases turn with
  | start | accept => cases dismissed
  | stop turn =>
    cases turn with
    | disconnects connection m rest isLast next waits =>
      obtain rfl : m = n := by rcases waits with ⟨wake, rfl⟩ | rfl <;> exact Option.some.inj dismissed
      exact updateSession_isOver s m
    | awaits wake rest isLast =>
      refine hs.dismissed id _ n found ?_
      match rest, dismissed with
      | (connection, m) :: rest, rfl => rfl
    | lists | passes | misses | announces => simp [nextOfPass_dismissed?] at dismissed
    | _ => cases dismissed
  | serve turn =>
    cases turn with
    | leaves ended =>
      obtain rfl := Option.some.inj dismissed
      exact fun x hx => (hs.lives _ x hx).closed (ended x hx)
    | _ => cases dismissed

theorem Settled.step (h : s.Settled) (hm : s.Matched) (hn : s.Numbered) (x : Step) : (s.step x).Settled := by
  have hhappens := step_happens s x
  generalize s.step x = t at hhappens
  cases hhappens with
  | feels x t feels =>
    obtain ⟨registered, -, sessions⟩ := feels.registered
    refine ⟨sessions.lives h.lives, fun n out => sessions.isOver h.lives (h.gone n (registered ▸ out)),
      fun j c n hj dismissed => ?_⟩
    have hfelt := feels.activity? hn hj
    cases hfelt with
    | stays found => exact sessions.isOver h.lives (h.dismissed j c n found dismissed)
    | asked asking => rcases asking with rfl | rfl <;> cases dismissed
    | answered | connected => cases dismissed
  | task id a found u b turn =>
    have hregisters := turn.registers
    refine ⟨hregisters.lives h, hregisters.gone hm h found, fun j c n hj dismissed => ?_⟩
    rcases turn.activity? hn hj with ⟨-, rfl⟩ | ⟨-, hbeside⟩
    · exact turn.dismissed h found dismissed
    · cases hbeside with
      | stays there =>
        have hlt : n < s.sessions.length := lt_of_dismissed (hm.tasks j c there) dismissed
        exact hregisters.isOver h hlt (h.dismissed j c n there dismissed)
      | told | spawned | served => cases dismissed
  | session n m t same sessions =>
    refine ⟨sessions.lives h.lives, fun n out => sessions.isOver h.lives (h.gone n ?_),
      fun j c n hj dismissed => sessions.isOver h.lives (h.dismissed j c n ?_ dismissed)⟩
    · rwa [same] at out
    · exact (activity?_congr (by rw [same]) j).symm.trans hj
  | nothing m => exact h

end Server

end Smsc
