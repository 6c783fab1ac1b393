import Smsc.Proofs.Server.Steps

/-!
# Smsc.Proofs.Server.Phases — a server goes through its phases in turn

The status, the endpoint and the time of the start are kept apart from each other and change one after
the other. What holds them together is that one call at a time is in charge.

* `Part`: what a task has to do with the status; `Server.part`: that of each task;
* `Phase`: how far start or stop has got, and by which call; `Server.In s p`: the server is in the phase
  `p`, whoever is in charge is where `p` says, and there is no open loop but that of `p`;
* `In.step`: every step of a server leads from a phase to a phase; `Orderly`: so it is in one.
-/

namespace Smsc

/-! ## Parts -/

/-- What a task has to do with the status of its server, and how far it has got with it. -/
inductive Part where
  | aside
  /-- A start that has no loop yet. -/
  | preparing
  /-- A start whose loop only it knows. -/
  | holding (acceptor : Nat)
  /-- A start that has stored the endpoint. -/
  | listening
  /-- A start that has stored the time too. -/
  | opening
  /-- A stop in its first pass through the sessions. -/
  | dismissing
  | joining (acceptor : Nat)
  /-- A stop in its second pass. -/
  | clearing
  /-- A stop that has cleared the time. -/
  | closing
  /-- A loop that accepts connections. -/
  | loop (isShutDown hasEnded : Bool)
  deriving DecidableEq

/-- Is such a task in charge of the status? -/
def Part.IsInCharge : Part → Prop
  | .aside | .loop .. => False
  | _ => True

def StartStage.part : StartStage → Part
  | .asking | .recording | .recordingFailure _ | .finished _ => .aside
  | .binding | .naming | .spawning _ | .givingUp _ => .preparing
  | .keepingEndpoint _ acceptor => .holding acceptor
  | .keepingTime => .listening
  | .storing => .opening

/-- The part of a stop in one of its passes. -/
def Part.ofPass (isLast : Bool) : Part := if isLast then .clearing else .dismissing

def StopStage.part : StopStage → Part
  | .asking | .recording | .finished => .aside
  | .listing isLast | .disconnecting _ isLast | .waiting _ _ isLast | .removing _ isLast
  | .changing _ _ isLast => .ofPass isLast
  | .takingEndpoint => .dismissing
  | .joining acceptor => .joining acceptor
  | .clearingTime => .clearing
  | .storing => .closing

def Activity.part : Activity → Part
  | .start stage => stage.part
  | .stop stage => stage.part
  | .accept x => .loop x.isShutDown (x.stage = .finished)
  | .serve .. => .aside

theorem StartStage.part_ne_loop (stage : StartStage) (told ended : Bool) : stage.part ≠ .loop told ended := by
  cases stage <;> nofun

theorem StopStage.part_ne_loop (stage : StopStage) (told ended : Bool) : stage.part ≠ .loop told ended := by
  have ofPass (isLast : Bool) : Part.ofPass isLast ≠ .loop told ended := by cases isLast <;> nofun
  cases stage <;> first | exact ofPass _ | nofun

theorem Activity.part_eq_loop {a : Activity} {told ended : Bool} (h : a.part = .loop told ended) :
    ∃ x, a = .accept x ∧ x.isShutDown = told ∧ (x.stage = .finished ↔ ended = true) := by
  cases a with
  | start stage => exact absurd h (stage.part_ne_loop told ended)
  | stop stage => exact absurd h (stage.part_ne_loop told ended)
  | accept x =>
    obtain ⟨rfl, rfl⟩ := Part.loop.inj h
    exact ⟨x, rfl, rfl, by simp⟩
  | serve => cases h

theorem Server.nextOfPass_part (rest : List (Nat × Nat)) (isLast : Bool) :
    (Server.nextOfPass rest isLast).part = .ofPass isLast := by
  cases rest <;> cases isLast <;> rfl

/-! ## Phases -/

/-- How far start or stop has got, by which call and with which loop. -/
inductive Phase where
  | stopped
  | preparing (call : Nat)
  | holding (call acceptor : Nat)
  | listening (call acceptor : Nat)
  | opening (call acceptor : Nat)
  | started (acceptor : Nat)
  | dismissing (call acceptor : Nat)
  | joining (call acceptor : Nat)
  | clearing (call : Nat)
  | closing (call : Nat)

namespace Phase

def status : Phase → ServerStatus
  | stopped => .stopped
  | preparing _ | holding .. | listening .. | opening .. => .starting
  | started _ => .started
  | dismissing .. | joining .. | clearing _ | closing _ => .stopping

/-- The loop under the endpoint. -/
def endpoint? : Phase → Option Nat
  | listening _ k | opening _ k | started k | dismissing _ k => some k
  | _ => none

/-- Is the time of the start known? -/
def isTimed : Phase → Bool
  | opening .. | started _ | dismissing .. | joining .. | clearing _ => true
  | _ => false

/-- The call in charge, and its part. -/
def call? : Phase → Option (Nat × Part)
  | preparing i => some (i, .preparing)
  | holding i k => some (i, .holding k)
  | listening i _ => some (i, .listening)
  | opening i _ => some (i, .opening)
  | dismissing i _ => some (i, .dismissing)
  | joining i k => some (i, .joining k)
  | clearing i => some (i, .clearing)
  | closing i => some (i, .closing)
  | stopped | started _ => none

/-- The loop that has not been told to stop. -/
def loop? : Phase → Option Nat
  | holding _ k | listening _ k | opening _ k | started k | dismissing _ k => some k
  | _ => none

/-- The loop that has been told to stop and may not have ended. -/
def joined? : Phase → Option Nat
  | joining _ k => some k
  | _ => none

theorem eq_stopped {p : Phase} (h : p.status = .stopped) : p = stopped := by
  cases p <;> first | rfl | cases h

theorem eq_started {p : Phase} (h : p.status = .started) : ∃ k, p = started k := by
  cases p <;> first | exact ⟨_, rfl⟩ | cases h

end Phase

namespace Server

variable {s t u : Server} {p q : Phase} {id i k : Nat} {a b : Activity}

/-- The part of a task, `aside` if there is no such task. -/
def part (s : Server) (id : Nat) : Part := (s.activity? id).elim .aside Activity.part

theorem part_of_activity? (found : s.activity? id = some a) : s.part id = a.part := by
  rw [part, found]
  rfl

theorem part_setTask (found : s.activity? id = some a) (b : Activity) (j : Nat) :
    (s.setTask id b).part j = if j = id then b.part else s.part j := by
  unfold part
  rw [activity?_setTask]
  split
  · rename_i hj
    rw [hj, found]
    rfl
  · rfl

theorem part_addTask (h : s.Numbered) (a : Activity) (j : Nat) :
    (s.addTask a).part j = if j = s.nextTask then a.part else s.part j := by
  unfold part
  rw [activity?_addTask h]
  split <;> rfl

theorem activity?_of_part {r : Part} (h : s.part i = r) (there : r ≠ .aside) :
    ∃ a, s.activity? i = some a ∧ a.part = r := by
  cases ha : s.activity? i with
  | none => exact absurd (h.symm.trans (by rw [part, ha]; rfl)) there
  | some a => exact ⟨a, rfl, (part_of_activity? ha).symm.trans h⟩

/-- A loop is the part of a task that accepts connections. -/
theorem acceptor_of_part {told ended : Bool} (h : s.part i = .loop told ended) :
    ∃ x, s.activity? i = some (.accept x) ∧ x.isShutDown = told ∧ (x.stage = .finished ↔ ended = true) := by
  obtain ⟨a, ha, hpart⟩ := activity?_of_part h nofun
  obtain ⟨x, rfl, hx⟩ := Activity.part_eq_loop hpart
  exact ⟨x, ha, hx⟩

theorem Numbered.part_nextTask (h : s.Numbered) : s.part s.nextTask = .aside := by
  rw [part, h.activity?_nextTask]
  rfl

/-- The server is in a phase. -/
structure In (s : Server) (p : Phase) : Prop where
  status : s.status = p.status
  endpoint : s.endpoint.map (·.acceptor) = p.endpoint?
  isTimed : s.startedAt.isSome = p.isTimed
  /-- The call in charge is where the phase says. -/
  call : ∀ i r, p.call? = some (i, r) → s.part i = r
  alone : ∀ i, (s.part i).IsInCharge → ∃ r, p.call? = some (i, r)
  loop : ∀ k, p.loop? = some k → s.part k = .loop false false
  joined : ∀ k, p.joined? = some k → ∃ ended, s.part k = .loop true ended
  /-- Every other loop has been told to stop, and has ended. -/
  others : ∀ k told ended, s.part k = .loop told ended →
    p.loop? = some k ∨ told = true ∧ (ended = true ∨ p.joined? = some k)

namespace In

/-! ### Who is in charge -/

theorem call?_eq (h : s.In p) {r : Part} (hr : s.part i = r) (charge : r.IsInCharge) :
    p.call? = some (i, r) := by
  obtain ⟨r', hr'⟩ := h.alone i (hr ▸ charge)
  rw [hr', ← h.call i r' hr', hr]

theorem eq_preparing (h : s.In p) (hi : s.part i = .preparing) : p = .preparing i := by
  have hcall := h.call?_eq hi trivial
  cases p <;> simp_all [Phase.call?]

theorem eq_holding (h : s.In p) (hi : s.part i = .holding k) : p = .holding i k := by
  have hcall := h.call?_eq hi trivial
  cases p <;> simp_all [Phase.call?]

theorem eq_listening (h : s.In p) (hi : s.part i = .listening) : ∃ k, p = .listening i k := by
  have hcall := h.call?_eq hi trivial
  cases p <;> simp_all [Phase.call?]

theorem eq_opening (h : s.In p) (hi : s.part i = .opening) : ∃ k, p = .opening i k := by
  have hcall := h.call?_eq hi trivial
  cases p <;> simp_all [Phase.call?]

theorem eq_dismissing (h : s.In p) (hi : s.part i = .dismissing) : ∃ k, p = .dismissing i k := by
  have hcall := h.call?_eq hi trivial
  cases p <;> simp_all [Phase.call?]

theorem eq_joining (h : s.In p) (hi : s.part i = .joining k) : p = .joining i k := by
  have hcall := h.call?_eq hi trivial
  cases p <;> simp_all [Phase.call?]

theorem eq_clearing (h : s.In p) (hi : s.part i = .clearing) : p = .clearing i := by
  have hcall := h.call?_eq hi trivial
  cases p <;> simp_all [Phase.call?]

theorem eq_closing (h : s.In p) (hi : s.part i = .closing) : p = .closing i := by
  have hcall := h.call?_eq hi trivial
  cases p <;> simp_all [Phase.call?]

theorem eq_stopped (h : s.In p) (stopped : s.status = .stopped) : p = .stopped :=
  Phase.eq_stopped (h.status.symm.trans stopped)

theorem eq_started (h : s.In p) (started : s.status = .started) : ∃ k, p = .started k :=
  Phase.eq_started (h.status.symm.trans started)

/-! ### From phase to phase -/

/-- What the phases do not read may change. -/
theorem of_same (h : s.In p) (status : t.status = s.status) (endpoint : t.endpoint = s.endpoint)
    (startedAt : t.startedAt = s.startedAt) (part : ∀ j, t.part j = s.part j) : t.In p where
  status := status.trans h.status
  endpoint := by rw [endpoint, h.endpoint]
  isTimed := by rw [startedAt, h.isTimed]
  call i r hr := (part i).trans (h.call i r hr)
  alone i hi := h.alone i (part i ▸ hi)
  loop k hk := (part k).trans (h.loop k hk)
  joined k hk := by
    rw [part]
    exact h.joined k hk
  others k told ended hk := h.others k told ended ((part k).symm.trans hk)

/-- A task goes on whose part is the same afterwards. -/
theorem of_task (h : s.In p) (found : s.activity? id = some a) (status : u.status = s.status)
    (endpoint : u.endpoint = s.endpoint) (startedAt : u.startedAt = s.startedAt)
    (tasks : u.tasks = s.tasks) (part : b.part = a.part) : (u.setTask id b).In p := by
  refine h.of_same status endpoint startedAt fun j => ?_
  rw [part_setTask ((activity?_congr tasks id).trans found)]
  split
  · rename_i hj
    rw [hj, part, part_of_activity? found]
  · rw [Server.part, activity?_congr tasks]
    rfl

/-- A call goes on that is in charge before or after, or both, and nobody else takes charge. -/
theorem charge (h : s.In p) {r : Part} (was : p.call? = none ∨ ∃ r, p.call? = some (id, r))
    (own : t.part id = r) (others : ∀ j, j ≠ id → (t.part j).IsInCharge → (s.part j).IsInCharge)
    (call : q.call? = some (id, r) ∨ q.call? = none ∧ ¬ r.IsInCharge) :
    (∀ i r, q.call? = some (i, r) → t.part i = r) ∧
      ∀ i, (t.part i).IsInCharge → ∃ r, q.call? = some (i, r) := by
  refine ⟨fun i r' hr => ?_, fun i hi => ?_⟩
  · rcases call with hcall | ⟨hnone, -⟩
    · obtain ⟨rfl, rfl⟩ : id = i ∧ r = r' := by simpa [hr] using hcall.symm
      exact own
    · simp [hnone] at hr
  · by_cases hid : i = id
    · subst hid
      rw [own] at hi
      exact call.elim (fun hcall => ⟨_, hcall⟩) fun hnone => absurd hi hnone.2
    · obtain ⟨r', hr⟩ := h.alone i (others i hid hi)
      rcases was with hnone | ⟨r'', hwas⟩
      · simp [hnone] at hr
      · exact absurd (Prod.mk.inj (Option.some.inj (hr.symm.trans hwas))).1 hid

/-- A call goes on that is in charge before or after, or both. The loops stay as they are. -/
theorem of_call (h : s.In p) (found : s.activity? id = some a) (tasks : u.tasks = s.tasks)
    (was : p.call? = none ∨ p.call? = some (id, a.part)) (noLoop : ∀ told ended, a.part ≠ .loop told ended)
    (noLoop' : ∀ told ended, b.part ≠ .loop told ended) (status : u.status = q.status)
    (endpoint : u.endpoint.map (·.acceptor) = q.endpoint?) (isTimed : u.startedAt.isSome = q.isTimed)
    (call : q.call? = some (id, b.part) ∨ q.call? = none ∧ ¬ b.part.IsInCharge)
    (loop : q.loop? = p.loop?) (joined : q.joined? = p.joined?) : (u.setTask id b).In q := by
  have part (j : Nat) : (u.setTask id b).part j = if j = id then b.part else s.part j := by
    rw [part_setTask ((activity?_congr tasks id).trans found), Server.part, activity?_congr tasks]
    rfl
  have other {j : Nat} (hj : j ≠ id) : (u.setTask id b).part j = s.part j := by rw [part, if_neg hj]
  have own : (u.setTask id b).part id = b.part := by rw [part, if_pos rfl]
  have hne {k : Nat} {told ended : Bool} (hk : s.part k = .loop told ended) : k ≠ id := fun hid =>
    noLoop told ended ((part_of_activity? found).symm.trans (hid ▸ hk))
  obtain ⟨hcall, halone⟩ := h.charge (was.imp_right fun hwas => ⟨_, hwas⟩) own
    (fun j hj hpart => other hj ▸ hpart) call
  refine ⟨status, endpoint, isTimed, hcall, halone, fun k hk => ?_, fun k hk => ?_,
    fun k told ended hk => ?_⟩
  · have hpart := h.loop k (loop ▸ hk)
    rw [other (hne hpart), hpart]
  · obtain ⟨ended, hpart⟩ := h.joined k (joined ▸ hk)
    exact ⟨ended, by rw [other (hne hpart), hpart]⟩
  · rw [loop, joined]
    have hid : k ≠ id := by
      rintro rfl
      exact noLoop' told ended (own.symm.trans hk)
    exact h.others k told ended (other hid ▸ hk)

/-! ### Calls of start -/

/-- A loop that is started is told to the call only. -/
theorem spawns (h : s.In (.preparing id)) (hne : k ≠ id) (status : t.status = s.status)
    (endpoint : t.endpoint = s.endpoint) (startedAt : t.startedAt = s.startedAt)
    (part : ∀ j, t.part j = if j = id then .holding k else if j = k then .loop false false else s.part j) :
    t.In (.holding id k) := by
  have others (j : Nat) (hj : j ≠ id) (hpart : (t.part j).IsInCharge) : (s.part j).IsInCharge := by
    rw [part, if_neg hj] at hpart
    split at hpart
    · cases hpart
    · exact hpart
  obtain ⟨hcall, halone⟩ := h.charge (q := .holding id k) (.inr ⟨_, rfl⟩) ((part id).trans (if_pos rfl)) others
    (.inl rfl)
  refine ⟨status.trans h.status, by rw [endpoint]; exact h.endpoint, by rw [startedAt]; exact h.isTimed,
    hcall, halone, fun j hj => ?_, by nofun, fun j told ended hj => ?_⟩
  · obtain rfl := Option.some.inj hj
    rw [part, if_neg hne, if_pos rfl]
  · rw [part] at hj
    split at hj
    · cases hj
    · split at hj
      · rename_i hjk
        exact .inl (congrArg some hjk.symm)
      · rcases h.others j told ended hj with hloop | hended
        · cases hloop
        · exact .inr ⟨hended.1, hended.2.imp_right nofun⟩

theorem start (h : s.In p) (hn : s.Numbered) {stage next : StartStage}
    (found : s.activity? id = some (.start stage)) (turn : s.StartTurn stage u next) :
    ∃ q, (u.setTask id (.start next)).In q := by
  have hpart := part_of_activity? found
  cases turn with
  | begins stopped =>
    obtain rfl := h.eq_stopped stopped
    exact ⟨.preparing id, h.of_call found rfl (.inl rfl) nofun nofun rfl h.endpoint h.isTimed (.inl rfl) rfl
      rfl⟩
  | refused | records | recordsFailure => exact ⟨p, h.of_task found rfl rfl rfl rfl rfl⟩
  | spawns address =>
    obtain rfl := h.eq_preparing hpart
    have hid : id ≠ s.nextTask := Nat.ne_of_lt (hn.lt_of_activity? found)
    have hfound : (s.addTask (.accept ⟨.waiting, false, []⟩)).activity? id = some (.start (.spawning address)) := by
      rw [activity?_addTask hn, if_neg hid, found]
    exact ⟨_, h.spawns hid.symm rfl rfl rfl fun j => by
      rw [part_setTask hfound, part_addTask hn]
      rfl⟩
  | keepsEndpoint address k =>
    obtain rfl := h.eq_holding hpart
    exact ⟨.listening id k, h.of_call found rfl (.inr rfl) nofun nofun h.status rfl h.isTimed (.inl rfl) rfl
      rfl⟩
  | keepsTime =>
    obtain ⟨k, rfl⟩ := h.eq_listening hpart
    exact ⟨.opening id k, h.of_call found rfl (.inr rfl) nofun nofun h.status h.endpoint rfl (.inl rfl) rfl
      rfl⟩
  | stores =>
    obtain ⟨k, rfl⟩ := h.eq_opening hpart
    exact ⟨.started k, h.of_call found rfl (.inr rfl) nofun nofun rfl h.endpoint h.isTimed
      (.inr ⟨rfl, nofun⟩) rfl rfl⟩
  | givesUp e =>
    obtain rfl := h.eq_preparing hpart
    exact ⟨.stopped, h.of_call found rfl (.inr rfl) nofun nofun rfl h.endpoint h.isTimed (.inr ⟨rfl, nofun⟩) rfl
      rfl⟩

/-! ### Calls of stop -/

/-- The loop is told to stop when the endpoint is taken down. -/
theorem takes (h : s.In (.dismissing id k)) (hne : k ≠ id) (status : t.status = s.status)
    (endpoint : t.endpoint = none) (startedAt : t.startedAt = s.startedAt)
    (part : ∀ j, t.part j = if j = id then .joining k else if j = k then .loop true false else s.part j) :
    t.In (.joining id k) := by
  have others (j : Nat) (hj : j ≠ id) (hpart : (t.part j).IsInCharge) : (s.part j).IsInCharge := by
    rw [part, if_neg hj] at hpart
    split at hpart
    · cases hpart
    · exact hpart
  obtain ⟨hcall, halone⟩ := h.charge (q := .joining id k) (.inr ⟨_, rfl⟩) ((part id).trans (if_pos rfl)) others
    (.inl rfl)
  refine ⟨status.trans h.status, by rw [endpoint]; rfl, by rw [startedAt]; exact h.isTimed, hcall, halone,
    by nofun, fun j hj => ?_, fun j told ended hj => ?_⟩
  · obtain rfl := Option.some.inj hj
    exact ⟨false, by rw [part, if_neg hne, if_pos rfl]⟩
  · rw [part] at hj
    split at hj
    · cases hj
    · split at hj
      · rename_i hjk
        obtain ⟨rfl, rfl⟩ := Part.loop.inj hj
        exact .inr ⟨rfl, .inr (congrArg some hjk.symm)⟩
      · rename_i hjk
        rcases h.others j told ended hj with hloop | hended
        · exact absurd (Option.some.inj hloop).symm hjk
        · exact .inr ⟨hended.1, hended.2.imp_right nofun⟩

/-- A stop takes the endpoint down, and tells the loop that it finds there. -/
theorem takesEndpoint (h : s.In p) (found : s.activity? id = some (.stop .takingEndpoint)) {e : Endpoint}
    (endpoint : s.endpoint = some e) :
    (({ s with endpoint := none }.shutDown e.acceptor).setTask id (.stop (.joining e.acceptor))).In
      (.joining id e.acceptor) := by
  obtain ⟨k, rfl⟩ := h.eq_dismissing (part_of_activity? found)
  obtain rfl : e.acceptor = k := by simpa [endpoint, Phase.endpoint?] using h.endpoint
  obtain ⟨x, hx, hopen, hgoing⟩ := acceptor_of_part (h.loop _ rfl)
  have hx' : { s with endpoint := none }.activity? e.acceptor = some (.accept x) := hx
  have hid : id ≠ e.acceptor := by
    rintro rfl
    rw [found] at hx
    cases hx
  have hfound : ({ s with endpoint := none }.shutDown e.acceptor).activity? id = some (.stop .takingEndpoint) := by
    rw [activity?_shutDown hx', if_neg hid]
    exact found
  have hstays : (({ s with endpoint := none }.shutDown e.acceptor).setTask id
      (.stop (.joining e.acceptor))).startedAt = s.startedAt := by
    rw [shutDown_eq hx']
    rfl
  refine h.takes hid.symm (by rw [shutDown_eq hx']; rfl) (by rw [shutDown_eq hx']; rfl) hstays fun j => ?_
  rw [part_setTask hfound, Server.part, activity?_shutDown hx']
  split
  · rfl
  · split
    · simp [Activity.part, hgoing]
    · rfl

/-- Once the loop has ended, there is none. -/
theorem joins (h : s.In (.joining id k)) (ended : s.part k = .loop true true) (status : t.status = s.status)
    (endpoint : t.endpoint = s.endpoint) (startedAt : t.startedAt = s.startedAt)
    (part : ∀ j, t.part j = if j = id then .clearing else s.part j) : t.In (.clearing id) := by
  obtain ⟨hcall, halone⟩ := h.charge (t := t) (q := .clearing id) (.inr ⟨_, rfl⟩)
    ((part id).trans (if_pos rfl)) (fun j hj hpart => by rwa [part, if_neg hj] at hpart) (.inl rfl)
  refine ⟨status.trans h.status, by rw [endpoint]; exact h.endpoint, by rw [startedAt]; exact h.isTimed,
    hcall, halone, by nofun, by nofun, fun j told hasEnded hj => ?_⟩
  rw [part] at hj
  split at hj
  · cases hj
  · rcases h.others j told hasEnded hj with hloop | ⟨htold, hended | hjoined⟩
    · cases hloop
    · exact .inr ⟨htold, .inl hended⟩
    · obtain rfl := Option.some.inj hjoined
      exact .inr ⟨htold, .inl (Part.loop.inj (hj.symm.trans ended)).2⟩

theorem stop (h : s.In p) {stage next : StopStage}
    (found : s.activity? id = some (.stop stage)) (turn : s.StopTurn stage u next) :
    ∃ q, (u.setTask id (.stop next)).In q := by
  have hpart := part_of_activity? found
  cases turn with
  | begins started =>
    obtain ⟨k, rfl⟩ := h.eq_started started
    exact ⟨.dismissing id k, h.of_call found rfl (.inl rfl) nofun nofun rfl h.endpoint h.isTimed (.inl rfl)
      rfl rfl⟩
  | refused | awaits | records => exact ⟨p, h.of_task found rfl rfl rfl rfl rfl⟩
  | lists isLast => exact ⟨p, h.of_task found rfl rfl rfl rfl (nextOfPass_part _ _)⟩
  | passes _ isLast empty =>
    refine ⟨p, h.of_task found rfl rfl rfl rfl ?_⟩
    rcases empty with rfl | rfl <;> exact nextOfPass_part [] isLast
  | disconnects connection n rest isLast _ waits =>
    rw [updateSession_same]
    refine ⟨p, h.of_task found rfl rfl rfl rfl ?_⟩
    rcases waits with ⟨wake, rfl⟩ | rfl <;> rfl
  | removes connection n rest isLast u c removed =>
    obtain ⟨m, -, rfl, -⟩ := remove?_eq_some.mp removed
    exact ⟨p, h.of_task found rfl rfl rfl rfl rfl⟩
  | misses connection n rest isLast =>
    exact ⟨p, h.of_task found rfl rfl rfl rfl (nextOfPass_part rest isLast)⟩
  | changes c rest isLast u c' changed =>
    have hu := stepChange_same changed
    exact ⟨p, h.of_task found (by rw [hu]) (by rw [hu]) (by rw [hu]) (by rw [hu]) rfl⟩
  | announces c rest isLast u changed =>
    have hu := stepChange_same changed
    exact ⟨p, h.of_task found (by rw [hu]) (by rw [hu]) (by rw [hu]) (by rw [hu])
      (nextOfPass_part rest isLast)⟩
  | takesEndpoint e endpoint =>
    exact ⟨_, h.takesEndpoint found endpoint⟩
  | findsNone endpoint =>
    obtain ⟨k, rfl⟩ := h.eq_dismissing hpart
    simpa [endpoint, Phase.endpoint?] using h.endpoint
  | joins k ended =>
    obtain rfl := h.eq_joining hpart
    obtain ⟨hasEnded, hk⟩ := h.joined k rfl
    obtain ⟨x, hx, htold, hfinished⟩ := acceptor_of_part hk
    obtain rfl : hasEnded = true := hfinished.mp (hasEnded_of_accept ended hx)
    exact ⟨_, h.joins hk rfl rfl rfl (part_setTask found _)⟩
  | clearsTime =>
    obtain rfl := h.eq_clearing hpart
    exact ⟨.closing id, h.of_call found rfl (.inr rfl) nofun nofun h.status h.endpoint rfl (.inl rfl) rfl rfl⟩
  | stores =>
    obtain rfl := h.eq_closing hpart
    exact ⟨.stopped, h.of_call found rfl (.inr rfl) nofun nofun rfl h.endpoint h.isTimed (.inr ⟨rfl, nofun⟩)
      rfl rfl⟩

/-! ### Other tasks -/

/-- A loop that has been told to stop ends. -/
theorem ends (h : s.In p) {x : Acceptor} (found : s.activity? id = some (.accept x))
    (told : x.isShutDown = true) : (s.setTask id (.accept { x with stage := .finished })).In p := by
  have own : s.part id = .loop true (x.stage = .finished) := by
    rw [part_of_activity? found, Activity.part, told]
  have part (j : Nat) : (s.setTask id (.accept { x with stage := .finished })).part j =
      if j = id then .loop true true else s.part j := by
    rw [part_setTask found, Activity.part, told]
    rfl
  have hne {j : Nat} {r : Part} (hj : s.part j = r) (hr : ∀ ended, r ≠ .loop true ended) : j ≠ id := fun hid =>
    hr _ (hj.symm.trans (hid ▸ own))
  refine ⟨h.status, h.endpoint, h.isTimed, fun i r hi => ?_, fun i hi => ?_, fun k hk => ?_, fun k hk => ?_,
    fun k isTold ended hk => ?_⟩
  · have hpart := h.call i r hi
    rw [part, if_neg (hne hpart ?_), hpart]
    rintro ended rfl
    cases p <;> simp [Phase.call?] at hi
  · rw [part] at hi
    split at hi
    · cases hi
    · exact h.alone i hi
  · have hpart := h.loop k hk
    rw [part, if_neg (hne hpart nofun), hpart]
  · rw [part]
    split
    · exact ⟨true, rfl⟩
    · exact h.joined k hk
  · rw [part] at hk
    split at hk
    · obtain ⟨rfl, rfl⟩ := Part.loop.inj hk
      exact .inr ⟨rfl, .inl rfl⟩
    · exact h.others k isTold ended hk

theorem adds (h : s.In p) (hn : s.Numbered) {a : Activity} (aside : a.part = .aside) : (s.addTask a).In p := by
  refine h.of_same rfl rfl rfl fun j => ?_
  rw [part_addTask hn]
  split
  · rename_i hj
    rw [hj, aside, hn.part_nextTask]
  · rfl

theorem accept (h : s.In p) (hn : s.Numbered) {x next : Acceptor}
    (found : s.activity? id = some (.accept x)) (turn : s.AcceptTurn x u next) :
    (u.setTask id (.accept next)).In p := by
  have open_ (stage stage' : AcceptStage) (backlog : List Arrival) (hx : x.stage = stage)
      (hs : stage ≠ .finished) (hs' : stage' ≠ .finished) :
      (Activity.accept { x with stage := stage', backlog }).part = (Activity.accept x).part := by
    simp [Activity.part, hx, hs, hs']
  cases turn with
  | finishes waiting told => exact h.ends found told
  | takes waiting going backlog stage taken =>
    refine h.of_task found rfl rfl rfl rfl (open_ _ _ _ waiting nofun ?_)
    rcases taken with ⟨a, rfl⟩ | rfl <;> nofun
  | admits a checking => exact h.of_task found rfl rfl rfl rfl (open_ _ _ _ checking nofun nofun)
  | turnsAway a checking => exact h.of_task found rfl rfl rfl rfl (open_ _ _ _ checking nofun nofun)
  | enrolls a inserting u connection c enrolled =>
    obtain rfl := congrArg Prod.fst enrolled
    exact h.of_task found rfl rfl rfl rfl (open_ _ _ _ inserting nofun nofun)
  | changes connection c changing u c' changed =>
    have hu := stepChange_same changed
    exact h.of_task found (by rw [hu]) (by rw [hu]) (by rw [hu]) (by rw [hu])
      (open_ _ _ _ changing nofun nofun)
  | announces connection c changing u changed =>
    have hu := stepChange_same changed
    have tasks : u.tasks = s.tasks := by rw [hu]
    have hu' : u.In p := h.of_same (by rw [hu]) (by rw [hu]) (by rw [hu]) fun j => by
      rw [part, activity?_congr tasks]
      rfl
    have hnu : u.Numbered := hn.congr tasks (by rw [hu])
    have hid : id ≠ u.nextTask := Nat.ne_of_lt (hnu.lt_of_activity? ((activity?_congr tasks id).trans found))
    have there : (u.addTask (.serve connection c.session .reading)).activity? id = some (.accept x) := by
      rw [activity?_addTask hnu, if_neg hid, activity?_congr tasks, found]
    exact (hu'.adds hnu rfl).of_task there rfl rfl rfl rfl (open_ _ _ _ changing nofun nofun)

theorem serve (h : s.In p) {connection n : Nat} {stage next : ServeStage}
    (found : s.activity? id = some (.serve connection n stage)) (turn : s.ServeTurn connection n stage u next) :
    (u.setTask id (.serve connection n next)).In p := by
  cases turn with
  | leaves | misses => exact h.of_task found rfl rfl rfl rfl rfl
  | removes u c removed =>
    obtain ⟨m, -, rfl, -⟩ := remove?_eq_some.mp removed
    exact h.of_task found rfl rfl rfl rfl rfl
  | changes c u c' changed =>
    have hu := stepChange_same changed
    exact h.of_task found (by rw [hu]) (by rw [hu]) (by rw [hu]) (by rw [hu]) rfl
  | announces c u changed =>
    have hu := stepChange_same changed
    exact h.of_task found (by rw [hu]) (by rw [hu]) (by rw [hu]) (by rw [hu]) rfl

/-! ### Steps -/

theorem turn (h : s.In p) (hn : s.Numbered) (found : s.activity? id = some a) (turn : s.Turn a u b) :
    ∃ q, (u.setTask id b).In q := by
  cases turn with
  | start turn => exact h.start hn found turn
  | stop turn => exact h.stop found turn
  | accept turn => exact ⟨p, h.accept hn found turn⟩
  | serve turn => exact ⟨p, h.serve found turn⟩

theorem feels (h : s.In p) (hn : s.Numbered) (feels : s.Feels t) : t.In p := by
  cases feels with
  | asks a asking => exact h.adds hn (by rcases asking with rfl | rfl <;> rfl)
  | answers id stage next found answered =>
    refine h.of_task found rfl rfl rfl rfl ?_
    cases answered <;> rfl
  | connects id x found backlog => exact h.of_task found rfl rfl rfl rfl rfl
  | aside t same =>
    have tasks : t.tasks = s.tasks := by rw [same]
    exact h.of_same (by rw [same]) (by rw [same]) (by rw [same]) fun j => by
      rw [part, activity?_congr tasks]
      rfl

theorem step (h : s.In p) (hn : s.Numbered) (x : Step) : ∃ q, (s.step x).In q := by
  have hhappens := step_happens s x
  generalize s.step x = t at hhappens
  cases hhappens with
  | feels x t feels => exact ⟨p, h.feels hn feels⟩
  | task id a found u b turn => exact h.turn hn found turn
  | session n m t same =>
    have tasks : t.tasks = s.tasks := by rw [same]
    exact ⟨p, h.of_same (by rw [same]) (by rw [same]) (by rw [same]) fun j => by
      rw [part, activity?_congr tasks]
      rfl⟩
  | nothing m => exact ⟨p, h⟩

end In

/-! ## Runs -/

/-- The tasks can be told apart, and the server is in some phase. -/
structure Orderly (s : Server) : Prop where
  numbered : s.Numbered
  phase : ∃ p, s.In p

theorem Orderly.step (h : s.Orderly) (x : Step) : (s.step x).Orderly := by
  obtain ⟨p, hp⟩ := h.phase
  exact ⟨h.numbered.step x, hp.step h.numbered x⟩

theorem fresh_in (settings : ServerSettings) (sessionSettings : SessionSettings)
    (publication : Publication ManagedObject) (processor : Nat) :
    (fresh settings sessionSettings publication processor).In .stopped :=
  ⟨rfl, rfl, rfl, nofun, fun _ hi => hi.elim, nofun, nofun, nofun⟩

theorem fresh_orderly (settings : ServerSettings) (sessionSettings : SessionSettings)
    (publication : Publication ManagedObject) (processor : Nat) :
    (fresh settings sessionSettings publication processor).Orderly :=
  ⟨fresh_numbered .., _, fresh_in ..⟩

end Server

end Smsc
