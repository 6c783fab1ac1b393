import Smsc.Proofs.Management.Names
import Smsc.Proofs.Server.Clearing
import Smsc.Proofs.Server.Whole

/-!
# Smsc.Proofs.Server.Places — how far a session has got

A session is put into the registry, counted, published and announced, and later taken out of the registry and
the rest undone. As long as it is not taken out before it has been announced, one task at a time has it on its
way, and the registry, the directory and the listener know what they should.

* `Server.hooks s n`: what the listener was told of session `n`;
* `Server.overtakes s n x`: a stop takes a session out whose registration is under way;
* `Place`, `Server.Stands s n p`, `Server.At s n p`: how far session `n` has got;
* `Conveys`: what a turn of a task does about the sessions that come and go;
* `At.step`: a session goes from place to place, unless a stop overtakes it.
-/

namespace Smsc

/-- What a listener is told of a session. -/
inductive Hook where
  | created
  | destroyed
  deriving DecidableEq, Repr

/-- What an event tells of session `n`. -/
def ServerEvent.hook? (n : Nat) : ServerEvent → Option Hook
  | .created m _ => if m = n then some .created else none
  | .destroyed m _ => if m = n then some .destroyed else none
  | _ => none

/-- How far a session has got, and the task that has it on its way. -/
inductive Place where
  | unborn
  | coming (task : Nat) (stage : ChangeStage)
  | here
  | going (task : Nat) (stage : ChangeStage)
  | gone

namespace Place

def change? (n : Nat) : Place → Option (Nat × Change)
  | coming task stage => some (task, ⟨n, true, stage⟩)
  | going task stage => some (task, ⟨n, false, stage⟩)
  | _ => none

def isBorn : Place → Bool
  | unborn => false
  | _ => true

def isRegistered : Place → Bool
  | coming .. | here => true
  | _ => false

/-- What the listener has been told, the newest first. -/
def hooks : Place → List Hook
  | unborn | coming .. => []
  | here | going .. => [.created]
  | gone => [.destroyed, .created]

theorem hooks_suffix (p : Place) : p.hooks <:+ [.destroyed, .created] := by
  cases p <;> simp [hooks, List.suffix_cons_iff]

/-- Is the session in the directory, if there is one and it was let in? -/
def isPublished : Place → Bool
  | coming _ .announcing | here => true
  | going _ stage => stage ≠ .announcing
  | _ => false

end Place

/-- The place of a session that a task has on its way. -/
def Change.place (c : Change) (id : Nat) : Place := if c.comes then .coming id c.stage else .going id c.stage

/-- The place it gets to. -/
def Change.goal (c : Change) : Place := if c.comes then .here else .gone

namespace Change

variable (c : Change) (id : Nat)

theorem change?_eq_some {c : Change} {id n : Nat} {p : Place} :
    p.change? n = some (id, c) ↔ p = c.place id ∧ c.session = n := by
  obtain ⟨m, comes, stage⟩ := c
  cases p <;> cases comes <;> simp [Place.change?, place, and_left_comm, and_comm, eq_comm]

theorem goal_change? (n : Nat) : c.goal.change? n = none := by
  cases h : c.comes <;> simp [goal, h, Place.change?]

@[simp] theorem place_isBorn : (c.place id).isBorn = true := by
  cases h : c.comes <;> simp [place, h, Place.isBorn]

@[simp] theorem goal_isBorn : c.goal.isBorn = true := by
  cases h : c.comes <;> simp [goal, h, Place.isBorn]

@[simp] theorem place_isRegistered : (c.place id).isRegistered = c.comes := by
  cases h : c.comes <;> simp [place, h, Place.isRegistered]

@[simp] theorem goal_isRegistered : c.goal.isRegistered = c.comes := by
  cases h : c.comes <;> simp [goal, h, Place.isRegistered]

theorem place_hooks : (c.place id).hooks = if c.comes then [] else [.created] := by
  cases h : c.comes <;> simp [place, h, Place.hooks]

theorem goal_hooks : c.goal.hooks = (if c.comes then .created else .destroyed) :: (c.place id).hooks := by
  cases h : c.comes <;> simp [goal, place, h, Place.hooks]

/-- It is in the directory from the time it is announced, or until then. -/
theorem place_isPublished : (c.place id).isPublished = true ↔ (c.comes = true ↔ c.stage = .announcing) := by
  obtain ⟨m, comes, stage⟩ := c
  cases comes <;> cases stage <;> simp [place, Place.isPublished]

theorem goal_isPublished : c.goal.isPublished = c.comes := by
  cases h : c.comes <;> simp [goal, h, Place.isPublished]

end Change

namespace Server

variable {s t u : Server} {id n : Nat} {a b : Activity} {p q : Place}

/-- What the listener was told of session `n`, the newest first. -/
def hooks (s : Server) (n : Nat) : List Hook := s.log.filterMap (·.hook? n)

/-- A task has a session on its way. -/
def Changes (s : Server) (id : Nat) (c : Change) : Prop := ∃ a, s.activity? id = some a ∧ a.change? = some c

/-- The registration of session `n` is under way. -/
def isComing (s : Server) (n : Nat) : Bool :=
  s.tasks.any fun t => t.activity.change?.any fun c => c.comes && c.session = n

/-- A stop takes session `n` out of the registry while its registration is under way. -/
def overtakes (s : Server) (n : Nat) : Step → Bool
  | .move (.task id) =>
    match s.activity? id with
    | some (.stop (.removing ((_, m) :: _) _)) => m = n && s.isComing n
    | _ => false
  | _ => false

/-- The registry, the directory and the listener know of session `n` what they should at a place. -/
structure Stands (s : Server) (n : Nat) (p : Place) : Prop where
  born : n < s.sessions.length ↔ p.isBorn
  registered : (n + 1, n) ∈ s.registered.entries ↔ p.isRegistered
  hooks : s.hooks n = p.hooks
  published : ∀ d name, s.publication = some d → (name, .session n) ∈ d.entries →
    name = s.objectName n ∧ p.isPublished

/-- Session `n` is at a place: the one task that should has it on its way, and it has no task of its own before
it is announced. -/
structure At (s : Server) (n : Nat) (p : Place) : Prop extends s.Stands n p where
  changes : ∀ id c, c.session = n → (s.Changes id c ↔ p.change? n = some (id, c))
  served : ∀ id connection stage, s.activity? id = some (.serve connection n stage) → p.hooks ≠ []

theorem Changes.isComing {stage : ChangeStage} (h : s.Changes id ⟨n, true, stage⟩) : s.isComing n = true := by
  obtain ⟨a, found, hc⟩ := h
  obtain ⟨t, ht, rfl⟩ := Option.map_eq_some_iff.mp found
  exact List.any_eq_true.mpr ⟨t, List.mem_of_find?_eq_some ht, by simp [hc]⟩

theorem hooks_eq (s : Server) (n : Nat) : s.hooks n = s.told.filterMap (·.hook? n) :=
  s.filterMap_log _ fun e he => by cases e <;> first | rfl | cases he

/-! ## What a task does about the sessions -/

/-- A task goes on: it has no session on its way, takes one in hand, or goes on with it. -/
inductive Conveys (s : Server) (a : Activity) (u : Server) (b : Activity) : Prop where
  | quiet (quiet : s.Quiet u) (before : a.change? = none) (after : b.change? = none)
  | enrolls (peer : Option SocketAddress) (enrolled : u = (s.enroll peer).1) (before : a.change? = none)
      (after : b.change? = some ⟨s.sessions.length, true, .counting⟩)
  | removes (connection m k : Nat) (found : s.registered.find? connection = some m)
      (removed : u = { s with registered := s.registered.erase connection })
      (remover : (∃ rest isLast, a = .stop (.removing ((connection, k) :: rest) isLast)) ∨
        a = .serve connection k .removing) (after : b.change? = some ⟨m, false, .counting⟩)
  | changes (c : Change) (v : Server) (next : Option Change) (before : a.change? = some c)
      (changed : s.stepChange c = (v, next)) (same : v.Quiet u) (after : b.change? = next)

theorem StopTurn.conveys {stage next : StopStage} (turn : s.StopTurn stage u next) :
    s.Conveys (.stop stage) u (.stop next) := by
  have hturn := turn
  cases turn with
  | passes stage isLast empty =>
    exact .quiet (.refl s) (by rcases empty with rfl | rfl <;> rfl) (nextOfPass_change? ..)
  | removes connection m rest isLast u c removed =>
    obtain ⟨n, found, rfl, rfl⟩ := remove?_eq_some.mp removed
    exact .removes connection n m found rfl (.inl ⟨rest, isLast, rfl⟩) rfl
  | misses => exact .quiet (.refl s) rfl (nextOfPass_change? ..)
  | changes c rest isLast u c' changed => exact .changes c u _ rfl changed (.refl u) rfl
  | announces c rest isLast u changed => exact .changes c u _ rfl changed (.refl u) (nextOfPass_change? ..)
  | _ =>
    obtain ⟨quiet, after⟩ := hturn.quiet rfl rfl
    exact .quiet quiet rfl after

theorem AcceptTurn.conveys {x next : Acceptor} (turn : s.AcceptTurn x u next) :
    s.Conveys (.accept x) u (.accept next) := by
  have hturn := turn
  obtain ⟨stage, isShutDown, backlog⟩ := x
  cases turn with
  | enrolls peer inserting u connection c enrolled =>
    obtain rfl : stage = _ := inserting
    rw [enroll_eq] at enrolled
    obtain ⟨rfl, rfl, rfl⟩ := by simpa using enrolled
    exact .enrolls (some peer.peer) rfl rfl rfl
  | changes connection c changing u c' changed =>
    obtain rfl : stage = _ := changing
    exact .changes c u _ rfl changed (.refl u) rfl
  | announces connection c changing u changed =>
    obtain rfl : stage = _ := changing
    exact .changes c u _ rfl changed ((Quiet.refl u).addTask _) rfl
  | finishes stopped | takes stopped | admits _ stopped | turnsAway _ stopped =>
    obtain rfl : stage = _ := stopped
    obtain ⟨quiet, after⟩ := (Turn.accept hturn).quiet rfl rfl
    exact .quiet quiet rfl after

theorem ServeTurn.conveys {connection m : Nat} {stage next : ServeStage}
    (turn : s.ServeTurn connection m stage u next) :
    s.Conveys (.serve connection m stage) u (.serve connection m next) := by
  cases turn with
  | leaves => exact .quiet (.refl s) rfl rfl
  | removes u c removed =>
    obtain ⟨n, found, rfl, rfl⟩ := remove?_eq_some.mp removed
    exact .removes connection n m found rfl (.inr rfl) rfl
  | misses => exact .quiet (.refl s) rfl rfl
  | changes c u c' changed => exact .changes c u _ rfl changed (.refl u) rfl
  | announces c u changed => exact .changes c u _ rfl changed (.refl u) rfl

theorem Turn.conveys (turn : s.Turn a u b) : s.Conveys a u b := by
  cases turn with
  | start turn =>
    obtain ⟨quiet, after⟩ := (Turn.start turn).quiet rfl rfl
    exact .quiet quiet rfl after
  | stop turn => exact turn.conveys
  | accept turn => exact turn.conveys
  | serve turn => exact turn.conveys

/-- Which sessions are on their way when a task has gone on. -/
theorem Turn.changes_iff (turn : s.Turn a u b) (hn : s.Numbered) (found : s.activity? id = some a) {j : Nat}
    {c : Change} : (u.setTask id b).Changes j c ↔ if j = id then b.change? = some c else s.Changes j c := by
  split
  · rename_i hj
    subst hj
    rw [Changes, turn.own hn found]
    simp
  · rename_i hj
    constructor
    · rintro ⟨c', there, hc⟩
      rcases turn.activity? hn there with ⟨hid, -⟩ | ⟨-, hbeside⟩
      · exact absurd hid hj
      · cases hbeside with
        | stays earlier => exact ⟨c', earlier, hc⟩
        | told earlier => exact ⟨_, earlier, hc⟩
        | spawned | served => cases hc
    · rintro ⟨c', there, hc⟩
      rcases turn.stays hn hj there with hstays | ⟨x, rfl, htold⟩
      · exact ⟨c', hstays, hc⟩
      · exact ⟨_, htold, hc⟩

/-! ## From place to place -/

/-- A task goes on, and session `n` is at a place afterwards. -/
theorem At.turn (h : s.At n p) (turn : s.Turn a u b) (hn : s.Numbered) (found : s.activity? id = some a)
    (stands : u.Stands n q) (own : ∀ c, c.session = n → (b.change? = some c ↔ q.change? n = some (id, c)))
    (others : ∀ j c, j ≠ id → (q.change? n = some (j, c) ↔ p.change? n = some (j, c)))
    (grows : p.hooks ≠ [] → q.hooks ≠ [])
    (announces : ∀ c, a.change? = some c → c.session = n → c.stage = .announcing → q.hooks ≠ []) :
    (u.setTask id b).At n q where
  born := stands.born
  registered := stands.registered
  hooks := stands.hooks
  published := stands.published
  changes j c hc := by
    rw [turn.changes_iff hn found]
    split
    · rename_i hj
      rw [hj]
      exact own c hc
    · rename_i hj
      rw [others j c hj]
      exact h.changes j c hc
  served j connection stage hj := by
    rcases turn.activity? hn hj with ⟨rfl, rfl⟩ | ⟨-, hbeside⟩
    · cases turn with
      | serve turn => exact grows (h.served _ _ _ found)
    · generalize hc : Activity.serve connection n stage = c at hbeside
      cases hbeside with
      | stays earlier => exact grows (h.served j connection stage (hc ▸ earlier))
      | told | spawned => cases hc
      | served accepts changing hlast =>
        obtain ⟨-, hsession, -⟩ := Activity.serve.inj hc
        subst accepts
        exact announces _ (by simp [Activity.change?, changing]) hsession.symm hlast

/-- A task goes on that has nothing to do with session `n`. -/
theorem At.passes (h : s.At n p) (turn : s.Turn a u b) (hn : s.Numbered) (found : s.activity? id = some a)
    (stands : u.Stands n p) (before : ∀ c, a.change? = some c → c.session ≠ n)
    (after : ∀ c, b.change? = some c → c.session ≠ n) : (u.setTask id b).At n p := by
  refine h.turn turn hn found stands (fun c hc => ⟨fun hb => absurd hc (after c hb), fun hp => ?_⟩)
    (fun _ _ _ => .rfl) (fun there => there) fun c hb hc => absurd hc (before c hb)
  obtain ⟨a', found', hb⟩ := (h.changes id c hc).mpr hp
  obtain rfl := Option.some.inj (found.symm.trans found')
  exact absurd hc (before c hb)

/-- A task goes on that has session `n` on its way afterwards, or had it. -/
theorem At.brings (h : s.At n p) (turn : s.Turn a u b) (hn : s.Numbered) (found : s.activity? id = some a)
    (stands : u.Stands n q) (own : q.change? n = b.change?.map fun c => (id, c))
    (alone : ∀ j c, p.change? n = some (j, c) → j = id) (grows : p.hooks ≠ [] → q.hooks ≠ [])
    (announces : ∀ c, a.change? = some c → c.session = n → c.stage = .announcing → q.hooks ≠ []) :
    (u.setTask id b).At n q := by
  refine h.turn turn hn found stands (fun c _ => ?_) (fun j c hj => ⟨fun hq => ?_, fun hp => ?_⟩) grows announces
  · rw [own]
    simp
  · rw [own] at hq
    obtain ⟨_, -, heq⟩ := Option.map_eq_some_iff.mp hq
    exact absurd (congrArg Prod.fst heq).symm hj
  · exact absurd (alone j c hp) hj

/-- The sessions go on, and their names stay. -/
theorem SessionsRun.objectName (h : s.SessionsRun t) (lives : ∀ n x, s.session? n = some x → Lives x)
    (settings : t.settings = s.settings) (n : Nat) : t.objectName n = s.objectName n := by
  unfold Server.objectName
  rw [settings]
  congr 1
  cases hx : s.session? n with
  | none =>
    have hy : t.session? n = none := by
      rw [session?, List.getElem?_eq_none_iff, h.length]
      exact List.getElem?_eq_none_iff.mp hx
    rw [hy]
  | some x =>
    obtain ⟨y, hy, runs⟩ := h.runs n x hx
    rw [hy]
    exact runs.id (lives n x hx).orderly

theorem Quiet.hooks (h : s.Quiet t) (n : Nat) : t.hooks n = s.hooks n := by
  rw [hooks_eq, hooks_eq, h.told]

/-- Nothing happens to any session but what it does by itself. -/
theorem Stands.quiet (h : s.Stands n p) (lives : ∀ m x, s.session? m = some x → Lives x) (quiet : s.Quiet u) :
    u.Stands n p := by
  have hregistered : u.registered = s.registered := by rw [quiet.same]
  have hpublication : u.publication = s.publication := by rw [quiet.same]
  have hname := quiet.sessions.objectName lives (by rw [quiet.same]) n
  refine ⟨?_, ?_, ?_, ?_⟩
  · rw [quiet.sessions.length]
    exact h.born
  · rw [hregistered]
    exact h.registered
  · rw [quiet.hooks]
    exact h.hooks
  · rw [hpublication, hname]
    exact h.published

/-! ### Into the registry -/

theorem Stands.unborn (h : s.Stands s.sessions.length p) : p = .unborn := by
  have hborn := h.born
  cases p <;> simp [Place.isBorn] at hborn
  rfl

/-- Of a session that comes, only the registry knows. -/
theorem Stands.comes (h : s.Stands s.sessions.length .unborn) (hf : s.Filed) (peer : Option SocketAddress)
    (task : Nat) : (s.enroll peer).1.Stands s.sessions.length (.coming task .counting) where
  born := by simp [enroll_eq, Place.isBorn]
  registered := by
    rw [hf.mem_enroll]
    simp [Place.isRegistered]
  hooks := h.hooks
  published d name hd hmem := nomatch (h.published d name hd hmem).2

theorem Stands.comes_other (h : s.Stands n p) (hf : s.Filed) (peer : Option SocketAddress)
    (hn : n ≠ s.sessions.length) : (s.enroll peer).1.Stands n p where
  born := by
    have hlength : (s.enroll peer).1.sessions.length = s.sessions.length + 1 := by simp [enroll_eq]
    rw [hlength, ← h.born]
    omega
  registered := by
    rw [hf.mem_enroll, ← h.registered]
    simp [hn]
  hooks := h.hooks
  published d name hd hmem := by
    obtain ⟨hname, hplace⟩ := h.published d name hd hmem
    refine ⟨?_, hplace⟩
    rw [hname, objectName, objectName, session?_enroll s peer hn]
    rfl

/-- Somebody comes. -/
theorem At.enrolls (h : s.At n p) (hs : s.Sound) (found : s.activity? id = some a) (turn : s.Turn a u b)
    (peer : Option SocketAddress) (enrolled : u = (s.enroll peer).1) (before : a.change? = none)
    (after : b.change? = some ⟨s.sessions.length, true, .counting⟩) : ∃ q, (u.setTask id b).At n q := by
  have hfiled := hs.matched.toFiled
  by_cases hn : n = s.sessions.length
  · subst hn
    obtain rfl := h.toStands.unborn
    have hstands := h.toStands.comes hfiled peer id
    rw [← enrolled] at hstands
    exact ⟨_, h.brings turn hs.orderly.numbered found hstands (by rw [after]; rfl) nofun (fun there => there)
      (by simp [before])⟩
  · have hstands := h.toStands.comes_other hfiled peer hn
    rw [← enrolled] at hstands
    refine ⟨p, h.passes turn hs.orderly.numbered found hstands (by simp [before]) fun c hb hc => ?_⟩
    rw [after] at hb
    exact hn (hc.symm.trans (congrArg Change.session (Option.some.inj hb)).symm)

/-! ### Out of the registry -/

theorem Stands.goes (h : s.Stands n .here) (task : Nat) :
    Stands { s with registered := s.registered.erase (n + 1) } n (.going task .counting) where
  born := h.born
  registered := by
    rw [Registry.mem_erase]
    simp [Place.isRegistered]
  hooks := h.hooks
  published := h.published

theorem Stands.goes_other (h : s.Stands n p) {m : Nat} (hm : m ≠ n) :
    Stands { s with registered := s.registered.erase (m + 1) } n p where
  born := h.born
  registered := by
    rw [Registry.mem_erase, ← h.registered]
    simp [Ne.symm hm]
  hooks := h.hooks
  published := h.published

/-- Who takes a session out of the registry knows its number. -/
theorem Matched.eq_of_remover {connection m k : Nat} (h : s.Matched) (found : s.activity? id = some a)
    (there : s.registered.find? connection = some m)
    (remover : (∃ rest isLast, a = .stop (.removing ((connection, k) :: rest) isLast)) ∨
      a = .serve connection k .removing) : m = k := by
  obtain ⟨rfl, -⟩ := h.toFiled.find?_iff.mp there
  have hfits := h.tasks id a found
  rcases remover with ⟨rest, isLast, rfl⟩ | rfl
  · exact Nat.succ.inj (hfits _ List.mem_cons_self).1
  · exact Nat.succ.inj hfits.1

/-- Somebody is taken out of the registry. -/
theorem At.removes (h : s.At n p) (hs : s.Sound) (found : s.activity? id = some a) (turn : s.Turn a u b)
    {connection m k : Nat} (there : s.registered.find? connection = some m)
    (removed : u = { s with registered := s.registered.erase connection })
    (remover : (∃ rest isLast, a = .stop (.removing ((connection, k) :: rest) isLast)) ∨
      a = .serve connection k .removing) (after : b.change? = some ⟨m, false, .counting⟩)
    (timely : s.overtakes n (.move (.task id)) = false) : ∃ q, (u.setTask id b).At n q := by
  obtain rfl := hs.matched.eq_of_remover found there remover
  obtain ⟨rfl, hentry⟩ := hs.matched.toFiled.find?_iff.mp there
  have before : a.change? = none := by rcases remover with ⟨rest, isLast, rfl⟩ | rfl <;> rfl
  by_cases hm : m = n
  · -- It is the one that goes: it is in the registry, and nobody takes it out while it comes.
    subst hm
    have hplace := h.registered.mp hentry
    cases p with
    | coming task stage =>
      have hcoming := ((h.changes task ⟨m, true, stage⟩ rfl).mpr rfl).isComing
      rcases remover with ⟨rest, isLast, rfl⟩ | rfl
      · simp [overtakes, found, hcoming] at timely
      · exact absurd rfl (h.served id _ _ found)
    | here =>
      have hstands := h.toStands.goes id
      rw [← removed] at hstands
      exact ⟨_, h.brings turn hs.orderly.numbered found hstands (by rw [after]; rfl) nofun (fun there => there)
        (by simp [before])⟩
    | unborn | going | gone => cases hplace
  · have hstands := h.toStands.goes_other hm
    rw [← removed] at hstands
    refine ⟨p, h.passes turn hs.orderly.numbered found hstands (by simp [before]) fun c hb hc => ?_⟩
    rw [after] at hb
    exact hm ((congrArg Change.session (Option.some.inj hb)).trans hc)

/-! ### On its way -/

/-- The names under which sessions stand in a directory are their own ones, before and after one of them
is published or taken back. -/
theorem mem_publishChange {c : Change} {d : Directory ManagedObject} {name : String}
    (published : (s.publishChange c).publication = some d) (hmem : (name, .session n) ∈ d.entries) :
    (c.comes = true ∧ c.session = n ∧ name = s.objectName n) ∨
      ∃ d, s.publication = some d ∧ (name, .session n) ∈ d.entries ∧
        (c.comes = false → name ≠ s.objectName c.session) := by
  unfold publishChange at published
  dsimp only at published
  split at published
  · rename_i comes
    rcases Publication.mem_register published hmem with heq | ⟨d, there, hmem⟩
    · obtain ⟨rfl, hobject⟩ := Prod.mk.inj heq
      obtain rfl := ManagedObject.session.inj hobject
      exact .inl ⟨comes, rfl, rfl⟩
    · exact .inr ⟨d, there, hmem, fun goes => absurd comes (by simp [goes])⟩
  · obtain ⟨hne, d, there, hmem⟩ := Publication.mem_unregister published hmem
    exact .inr ⟨d, there, hmem, fun _ => hne⟩

theorem stepChange_hooks {c : Change} {v : Server} {next : Option Change} (changed : s.stepChange c = (v, next))
    (listener : s.hasListener = true) : v.hooks n =
      if c.stage = .announcing ∧ c.session = n then (if c.comes then .created else .destroyed) :: s.hooks n
      else s.hooks n := by
  obtain ⟨m, comes, stage⟩ := c
  rw [hooks_eq, hooks_eq]
  cases stage with
  | counting =>
    obtain ⟨rfl, rfl⟩ := Prod.mk.inj changed
    cases comes <;> rfl
  | recording active =>
    obtain ⟨rfl, rfl⟩ := Prod.mk.inj changed
    rw [recordChange_told]
    simp
  | publishing =>
    obtain ⟨rfl, rfl⟩ := Prod.mk.inj changed
    rfl
  | announcing =>
    obtain ⟨rfl, rfl⟩ := Prod.mk.inj changed
    rw [announceChange_told, if_pos listener]
    by_cases hm : m = n <;> cases comes <;> simp [announcement, ServerEvent.hook?, hm]

theorem stepChange_publication {c : Change} {v : Server} {next : Option Change}
    (changed : s.stepChange c = (v, next)) :
    v.publication = if c.stage = .publishing then (s.publishChange c).publication else s.publication := by
  obtain ⟨m, comes, stage⟩ := c
  cases stage with
  | counting | recording =>
    obtain ⟨rfl, rfl⟩ := Prod.mk.inj changed
    cases comes <;> rfl
  | publishing =>
    obtain ⟨rfl, rfl⟩ := Prod.mk.inj changed
    rfl
  | announcing =>
    obtain ⟨rfl, rfl⟩ := Prod.mk.inj changed
    show (s.announceChange _).publication = s.publication
    unfold announceChange
    dsimp only
    split
    · rfl
    · split <;> rfl

/-- A session on its way leaves the registry alone, and the names. -/
theorem Stands.of_change {c : Change} {v : Server} {next : Option Change} (changed : s.stepChange c = (v, next))
    (born : n < s.sessions.length ↔ q.isBorn) (registered : (n + 1, n) ∈ s.registered.entries ↔ q.isRegistered)
    (hooks : v.hooks n = q.hooks)
    (published : ∀ d name, v.publication = some d → (name, .session n) ∈ d.entries →
      name = s.objectName n ∧ q.isPublished) : v.Stands n q := by
  have hv := stepChange_same changed
  have hsessions : v.sessions = s.sessions := by rw [hv]
  have hregistered : v.registered = s.registered := by rw [hv]
  have hname : v.objectName n = s.objectName n := by rw [hv]; rfl
  refine ⟨?_, ?_, hooks, ?_⟩
  · rw [hsessions]
    exact born
  · rw [hregistered]
    exact registered
  · rw [hname]
    exact published

/-- Another session is on its way. -/
theorem Stands.changes_other (h : s.Stands n p) (listener : s.hasListener = true) {c : Change} {v : Server}
    {next : Option Change} (changed : s.stepChange c = (v, next)) (hc : c.session ≠ n) : v.Stands n p := by
  refine .of_change changed h.born h.registered ?_ fun d object hd hmem => ?_
  · rw [stepChange_hooks changed listener, if_neg fun both => hc both.2]
    exact h.hooks
  · rw [stepChange_publication changed] at hd
    split at hd
    · rcases mem_publishChange hd hmem with ⟨-, hsession, -⟩ | ⟨d, there, hmem, -⟩
      · exact absurd hsession hc
      · exact h.published d object there hmem
    · exact h.published d object hd hmem

/-- The session is announced, and has got there. -/
theorem Stands.arrives {c : Change} (h : s.Stands n (c.place id)) (listener : s.hasListener = true) {v : Server}
    {next : Option Change} (changed : s.stepChange c = (v, next)) (hc : c.session = n)
    (last : c.stage = .announcing) : v.Stands n c.goal := by
  refine .of_change changed ?_ ?_ ?_ fun d object hd hmem => ?_
  · simpa using h.born
  · simpa using h.registered
  · rw [stepChange_hooks changed listener, if_pos ⟨last, hc⟩, h.hooks, ← Change.goal_hooks]
  · rw [stepChange_publication changed, if_neg (by simp [last])] at hd
    obtain ⟨hname, hplace⟩ := h.published d object hd hmem
    rw [Change.place_isPublished] at hplace
    rw [Change.goal_isPublished]
    exact ⟨hname, hplace.mpr last⟩

/-- The session is to be announced still. It stands in the directory from the time it is published, or until it
is taken back. -/
theorem Stands.proceeds {c : Change} (h : s.Stands n (c.place id)) (listener : s.hasListener = true) {v : Server}
    {next : Option Change} (changed : s.stepChange c = (v, next)) (hc : c.session = n)
    (early : c.stage ≠ .announcing) {stage : ChangeStage}
    (announces : stage = .announcing ↔ c.stage = .publishing) : v.Stands n ({ c with stage }.place id) := by
  refine .of_change changed ?_ ?_ ?_ fun d object hd hmem => ?_
  · simpa using h.born
  · simpa using h.registered
  · rw [stepChange_hooks changed listener, if_neg fun both => early both.1, h.hooks, Change.place_hooks,
      Change.place_hooks]
  · rw [stepChange_publication changed] at hd
    rw [Change.place_isPublished]
    dsimp only
    rw [announces]
    split at hd
    · rename_i publishing
      rcases mem_publishChange hd hmem with ⟨comes, -, hname⟩ | ⟨d, there, hmem, hne⟩
      · exact ⟨hname, by simp [comes, publishing]⟩
      · obtain ⟨hname, hplace⟩ := h.published d object there hmem
        refine ⟨hname, ?_⟩
        cases hcomes : c.comes with
        | true => simp [publishing]
        | false => exact absurd (hc ▸ hname) (hne hcomes)
    · rename_i publishing
      obtain ⟨hname, hplace⟩ := h.published d object hd hmem
      rw [Change.place_isPublished] at hplace
      exact ⟨hname, by simp [publishing, hplace, early]⟩

/-- A task goes on with the session that it has on its way. -/
theorem At.carries (h : s.At n p) (hs : s.Sound) (found : s.activity? id = some a) (turn : s.Turn a u b)
    (listener : s.hasListener = true) {c : Change} {v : Server} {next : Option Change} (before : a.change? = some c)
    (changed : s.stepChange c = (v, next)) (same : v.Quiet u) (after : b.change? = next) :
    ∃ q, (u.setTask id b).At n q := by
  have hn := hs.orderly.numbered
  have hlives : ∀ m x, v.session? m = some x → Lives x := fun m x hx =>
    hs.settled.lives m x (by rwa [stepChange_same changed] at hx)
  by_cases hc : c.session = n
  · -- It is session `n`, so the place is that of what is to be done about it.
    have hp : p.change? n = some (id, c) := (h.changes id c hc).mp ⟨a, found, before⟩
    obtain ⟨rfl, -⟩ := Change.change?_eq_some.mp hp
    have alone : ∀ j d, (c.place id).change? n = some (j, d) → j = id := fun j d hd =>
      congrArg Prod.fst (Option.some.inj (hd.symm.trans hp))
    rcases stepChange_next changed with ⟨last, rfl⟩ | ⟨early, stage, rfl, announces⟩
    · have hgoal : c.goal.hooks ≠ [] := by simp [Change.goal_hooks c id]
      have hstands := (h.toStands.arrives listener changed hc last).quiet hlives same
      exact ⟨_, h.brings turn hn found hstands (by rw [after, Change.goal_change?]; rfl) alone (fun _ => hgoal)
        fun _ _ _ _ => hgoal⟩
    · have hstands := (h.toStands.proceeds listener changed hc early announces).quiet hlives same
      refine ⟨_, h.brings turn hn found hstands ?_ alone (fun there => ?_) fun d hb _ last => ?_⟩
      · rw [after]
        exact Change.change?_eq_some.mpr ⟨rfl, hc⟩
      · rwa [Change.place_hooks, ← Change.place_hooks c id]
      · obtain rfl := Option.some.inj (before.symm.trans hb)
        exact absurd last early
  · have hstands := (h.toStands.changes_other listener changed hc).quiet hlives same
    refine ⟨p, h.passes turn hn found hstands (fun d hb => ?_) fun d hb => ?_⟩
    · obtain rfl := Option.some.inj (before.symm.trans hb)
      exact hc
    · rw [after] at hb
      rcases stepChange_next changed with ⟨-, rfl⟩ | ⟨-, stage, rfl, -⟩
      · cases hb
      · obtain rfl := Option.some.inj hb
        exact hc

/-- A task goes on, and session `n` with it. -/
theorem At.goes (h : s.At n p) (hs : s.Sound) (listener : s.hasListener = true) (found : s.activity? id = some a)
    (turn : s.Turn a u b) (timely : s.overtakes n (.move (.task id)) = false) : ∃ q, (u.setTask id b).At n q := by
  cases turn.conveys with
  | quiet quiet before after =>
    exact ⟨p, h.passes turn hs.orderly.numbered found (h.toStands.quiet hs.settled.lives quiet) (by simp [before])
      (by simp [after])⟩
  | enrolls peer enrolled before after => exact h.enrolls hs found turn peer enrolled before after
  | removes connection m k there removed remover after =>
    exact h.removes hs found turn there removed remover after timely
  | changes c v next before changed same after =>
    exact h.carries hs found turn listener before changed same after

theorem changes_congr (tasks : t.tasks = s.tasks) {c : Change} : t.Changes id c ↔ s.Changes id c := by
  rw [Changes, Changes, activity?_congr tasks]

/-- After a stimulus the same tasks have the same sessions on their way. -/
theorem Feels.changes_iff (feels : s.Feels t) (hn : s.Numbered) {c : Change} : t.Changes id c ↔ s.Changes id c := by
  cases feels with
  | asks a asking =>
    have hnone : a.change? = none := by rcases asking with rfl | rfl <;> rfl
    rw [Changes, Changes, activity?_addTask hn]
    split
    · rename_i hid
      subst hid
      simp [hn.activity?_nextTask, hnone]
    · rfl
  | answers i stage next found answered =>
    rw [Changes, Changes, activity?_setTask]
    split
    · rename_i hid
      subst hid
      simp [found, Activity.change?]
    · rfl
  | connects i x found backlog =>
    rw [Changes, Changes, activity?_setTask]
    split
    · rename_i hid
      subst hid
      simp [found, Activity.change?]
    · rfl
  | aside t same => exact changes_congr (by rw [same])

/-- After a stimulus there are no other tasks of sessions. -/
theorem Feels.serves (feels : s.Feels t) (hn : s.Numbered) {connection : Nat} {stage : ServeStage}
    (found : t.activity? id = some (.serve connection n stage)) :
    s.activity? id = some (.serve connection n stage) := by
  have hfelt := feels.activity? hn found
  generalize hc : Activity.serve connection n stage = c at hfelt
  cases hfelt with
  | stays earlier => exact hc ▸ earlier
  | asked asking => rcases asking with rfl | rfl <;> cases hc
  | answered | connected => cases hc

theorem At.step (h : s.At n p) (hs : s.Sound) (listener : s.hasListener = true) (x : Step)
    (timely : s.overtakes n x = false) : ∃ q, (s.step x).At n q := by
  have hhappens := step_happens s x
  generalize s.step x = t at hhappens
  cases hhappens with
  | feels x t feels =>
    exact ⟨p, h.toStands.quiet hs.settled.lives feels.quiet,
      fun id c hc => (feels.changes_iff hs.orderly.numbered).trans (h.changes id c hc),
      fun id connection stage found => h.served id connection stage (feels.serves hs.orderly.numbered found)⟩
  | task id a found u b turn => exact h.goes hs listener found turn timely
  | session m move t same sessions =>
    have quiet : s.Quiet t := ⟨by rw [same], sessions, by rw [told, told, same], by rw [same]; exact fun h => h⟩
    have tasks : t.tasks = s.tasks := by rw [same]
    exact ⟨p, h.toStands.quiet hs.settled.lives quiet, fun id c hc => (changes_congr tasks).trans (h.changes id c hc),
      fun id connection stage found => h.served id connection stage ((activity?_congr tasks id).symm.trans found)⟩
  | nothing m => exact ⟨p, h⟩

theorem Turn.listener (turn : s.Turn a u b) (listener : s.hasListener = true) : u.hasListener = true := by
  cases turn.conveys with
  | quiet quiet => exact quiet.listener listener
  | enrolls peer enrolled => rw [enrolled]; exact listener
  | removes connection m k there removed => rw [removed]; exact listener
  | changes c v next before changed same => exact same.listener (by rw [stepChange_same changed]; exact listener)

theorem step_listener (listener : s.hasListener = true) (x : Step) : (s.step x).hasListener = true := by
  have hhappens := step_happens s x
  generalize s.step x = t at hhappens
  cases hhappens with
  | feels x t feels => exact feels.quiet.listener listener
  | task id a found u b turn => exact turn.listener listener
  | session m move t same => rw [same]; exact listener
  | nothing m => exact listener

end Server

end Smsc
