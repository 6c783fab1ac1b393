import Smsc.Proofs.Session.Tasks

/-!
# Smsc.Proofs.Session.Status — a session only moves on

A session is opened, may be bound, and is closed for good. Once it is closed its reader has been told
to stop, and its channel to disconnect.

* `Advances s t`: the session stays what it is, is bound, or ends;
* `step_advances`: every step of a session;
* `Shut s`, `before_shut`: a closed session is shut, in every state of a run;
* `step_lingers`, `Shut.refuses`: its channel refuses every write, unless writes linger.
-/

namespace Smsc.Session

variable {s t : Session}

/-- From `s` to `t` the session stays what it is, is bound, or ends. -/
def Advances (s t : Session) : Prop :=
  ((t.status = s.status ∨ s.status = .opened ∧ t.status = .bound) ∧ t.isShutDown = s.isShutDown ∧
      t.channel.isConnected = s.channel.isConnected) ∨
    (t.status = .closed ∧ t.isShutDown = true ∧ t.channel.isConnected = false)

theorem Advances.stays (status_eq : t.status = s.status) (shut_eq : t.isShutDown = s.isShutDown)
    (connected_eq : t.channel.isConnected = s.channel.isConnected) : s.Advances t :=
  .inl ⟨.inl status_eq, shut_eq, connected_eq⟩

theorem Advances.ends (s t : Session) : s.Advances t.disconnect.1 := .inr ⟨rfl, rfl, rfl⟩

theorem GoesOn.advances (h : s.GoesOn t) : s.Advances t := by
  rcases h with ⟨hstatus, hshut, hchannel⟩ | h
  · exact .inl ⟨.inl hstatus, hshut, by rw [hchannel]⟩
  · exact .inr ⟨h.1, h.2.1, h.2.2.1⟩

theorem Settles.advances (h : s.Settles t) : s.Advances t :=
  .inl ⟨h.status, by rw [h.same], by rw [h.same]⟩

/-! ## One step -/

theorem Handles.advances {f : Frame} (h : s.Handles f t) : s.Advances t := by
  cases h with
  | drops m closed => exact .inr ⟨closed, rfl, rfl⟩
  | completes | rejects | dispatches => exact .stays rfl rfl rfl

theorem Works.advances {k : Nat} (h : s.Works k t) : s.Advances t := by
  cases h with
  | ends u same => rcases same with rfl | ⟨m, rfl⟩ <;> exact .stays rfl rfl rfl
  | pauses | holds => exact .stays rfl rfl rfl
  | answers u plan f settles => exact settles.advances
  | refused u plan settles => exact settles.advances

theorem ReaderTurn.advances {m : ReaderMove} (h : s.ReaderTurn m t) : s.Advances t := by
  cases h with
  | stops stage => exact .ends s s
  | reads stage _ reads =>
    cases reads with
    | frame f rest input handles => exact handles.advances
    | fault rest m => exact .ends s (measure { s with input := rest } m)
    | ends => exact .ends s s
  | sweeps stage =>
    unfold sweep
    dsimp only
    split <;> exact .stays rfl rfl rfl
  | refuses f stage u sends =>
    have hsends := sends ▸ (Beside.transmit s f).goesOn.advances
    exact hsends
  | answers f k plan stage u closes =>
    have hcloses := closes ▸ (closeReply_beside s k f).goesOn.advances
    exact hcloses
  | works k plan stage _ works => exact works.advances
  | wakes wake k plan stage => exact .stays rfl rfl rfl

theorem AnswerTurn.advances {a : Answer} (h : s.AnswerTurn a t) : s.Advances t := by
  cases h with
  | opens stage u f settles => exact settles.advances
  | refused stage u settles => exact settles.advances
  | closes f stage u closes =>
    have hcloses := closes ▸ (closeReply_beside s a.responder f).goesOn.advances
    exact hcloses
  | rests => exact .stays rfl rfl rfl

theorem Feels.advances (h : s.Feels t) (hw : s.window.Sound) : s.Advances t := by
  cases h with
  | aside _ same connected => exact .stays (by rw [same]) (by rw [same]) connected
  | begins | answers | works => exact .stays rfl rfl rfl
  | drops c mem => exact (dropCall_step hw c).1.goesOn.advances
  | forgets a mem =>
    unfold dropAnswer
    split <;> exact .stays rfl rfl rfl
  | ends => exact .ends s s

/-- One step of a session moves it on, if anywhere. -/
theorem step_advances (h : s.Orderly) (x : Step) : s.Advances (s.step x) := by
  have hhappens := h.happens x
  generalize s.step x = t at hhappens
  cases hhappens with
  | feels x _ feels => exact feels.advances h.sound
  | reader m can _ turn => exact turn.advances
  | call id c mem _ step => exact step.beside.goesOn.advances
  | answer id a mem _ turn => exact turn.advances
  | nothing m => exact .stays rfl rfl rfl

/-! ## A closed session -/

/-- A closed session has told its reader to stop, and its channel to disconnect. -/
def Shut (s : Session) : Prop :=
  s.status = .closed → s.isShutDown = true ∧ s.channel.isConnected = false

theorem Advances.shut (h : s.Advances t) (hs : s.Shut) : t.Shut := by
  rintro hclosed
  rcases h with ⟨hstatus | ⟨-, hbound⟩, hshut, hconnected⟩ | ⟨-, h⟩
  · rw [hshut, hconnected]
    exact hs (hstatus.symm.trans hclosed)
  · simp [hbound] at hclosed
  · exact h

/-- A closed session is not opened again. -/
theorem Advances.closed (h : s.Advances t) (hs : s.status = .closed) : t.status = .closed := by
  rcases h with ⟨hstatus | ⟨hopened, -⟩, -⟩ | ⟨hclosed, -⟩
  · rw [hstatus, hs]
  · simp [hs] at hopened
  · exact hclosed

theorem before_shut {xs : List Step} (h : s.Orderly) (hs : s.Shut) (k : Nat) : (s.before xs k).Shut :=
  before_induct (P := Shut) h (fun _ ht hshut x => (step_advances ht x).shut hshut) (Nat.zero_le k) hs

/-! ## A channel that is cut -/

theorem ReaderTurn.lingers {m : ReaderMove} (h : s.ReaderTurn m t) :
    t.channel.lingers = s.channel.lingers := by
  cases h with
  | stops | wakes => rfl
  | reads stage _ reads =>
    cases reads with
    | frame f rest input handles => cases handles <;> rfl
    | fault | ends => rfl
  | sweeps stage =>
    unfold sweep
    dsimp only
    split <;> rfl
  | refuses f stage u sends =>
    subst sends
    exact (Beside.transmit s f).goesOn.lingers
  | answers f k plan stage u closes =>
    subst closes
    exact (closeReply_beside s k f).goesOn.lingers
  | works k plan stage _ works =>
    cases works with
    | ends u same => rcases same with rfl | ⟨m, rfl⟩ <;> rfl
    | pauses | holds => rfl
    | answers u plan f settles => rw [settles.same]
    | refused u plan settles => rw [settles.same]; rfl

theorem AnswerTurn.lingers {a : Answer} (h : s.AnswerTurn a t) :
    t.channel.lingers = s.channel.lingers := by
  cases h with
  | opens stage u f settles | refused stage u settles => rw [settles.same]; rfl
  | closes f stage u closes =>
    subst closes
    exact (closeReply_beside s a.responder f).goesOn.lingers
  | rests => rfl

/-- Only a stimulus of its own lets writes go through after a disconnect. -/
theorem step_lingers (hs : s.Orderly) (cut : s.channel.lingers = false)
    (plain : x ≠ .feel (.lingerWrites true)) : (s.step x).channel.lingers = false := by
  cases x with
  | feel y =>
    cases y with
    | lingerWrites on =>
      cases on with
      | false => rfl
      | true => exact absurd rfl plain
    | drop id =>
      rw [step, feel]
      split
      · rw [(dropCall_step hs.sound _).1.goesOn.lingers, cut]
      · exact cut
    | arrive | endInput =>
      rw [step, feel]
      split <;> exact cut
    | forget =>
      rw [step, feel]
      unfold dropAnswer
      split
      · split <;> exact cut
      · exact cut
    | begin plan =>
      rw [step, feel, beginWork]
      split <;> exact cut
    | _ => exact cut
  | move m =>
    have hhappens := hs.happens (.move m)
    generalize s.step (.move m) = t at hhappens
    cases hhappens with
    | reader m can _ turn => rw [turn.lingers, cut]
    | call id c mem _ step => rw [step.beside.goesOn.lingers, cut]
    | answer id a mem _ turn => rw [turn.lingers, cut]
    | nothing m => exact cut

theorem Shut.refuses (h : s.Shut) (cut : s.channel.lingers = false) (closed : s.status = .closed) :
    s.channel.refuses = true := by
  rw [Channel.refuses, (h closed).2, cut]
  simp

theorem before_lingers {xs : List Step} (hs : s.Orderly) (cut : s.channel.lingers = false)
    (plain : ∀ x ∈ xs, x ≠ .feel (.lingerWrites true)) (i : Nat) :
    (s.before xs i).channel.lingers = false :=
  stateAt_induct (P := fun t : Session => t.channel.lingers = false) (Nat.zero_le i)
    (fun j _ _ _ hx h => step_lingers (before_orderly hs j) h (plain _ (List.mem_of_getElem? hx))) cut

end Smsc.Session
