import Smsc.Proofs.Session.Status

/-!
# Smsc.Proofs.Session.Lasting — what lasts along every run of a session

* `Lasts s t`: the session has its id still, and its reader has not ended unless it is closed;
* `step_lasts`: every step of a session;
* `Runs.id`, `Runs.closed`, `Runs.orderly`: along a run; `closed_of_finished`: a session whose reader has
  ended is closed.
-/

namespace Smsc.Session

variable {s t : Session}

/-- From `s` to `t` the session keeps its id, and its reader ends only with the session. -/
structure Lasts (s t : Session) : Prop where
  id : t.id = s.id
  reader : t.reader = .finished → s.reader = .finished ∨ t.status = .closed

theorem Lasts.refl (s : Session) : s.Lasts s := ⟨rfl, .inl⟩

theorem Beside.lasts {P : SessionEvent → Prop} (h : s.Beside P t) : s.Lasts t :=
  ⟨by rw [h.same], fun ended => .inl (h.reader ▸ ended)⟩

theorem Settles.lasts (h : s.Settles t) : s.Lasts t :=
  ⟨by rw [h.same], fun ended => .inl (by rwa [h.same] at ended)⟩

theorem Handles.lasts {f : Frame} (h : s.Handles f t) : s.Lasts t := by
  cases h with
  | drops | completes => exact ⟨rfl, .inl⟩
  | rejects | dispatches => exact ⟨rfl, fun ended => by cases ended⟩

theorem Works.lasts {k : Nat} (h : s.Works k t) : s.Lasts t := by
  cases h with
  | ends u same => rcases same with rfl | ⟨m, rfl⟩ <;> exact ⟨rfl, fun ended => by cases ended⟩
  | pauses | holds => exact ⟨rfl, fun ended => by cases ended⟩
  | answers u plan f settles => exact ⟨settles.lasts.id, fun ended => by cases ended⟩
  | refused u plan settles => exact ⟨settles.lasts.id, fun ended => by cases ended⟩

theorem ReaderTurn.lasts {m : ReaderMove} (h : s.ReaderTurn m t) : s.Lasts t := by
  cases h with
  | stops => exact ⟨rfl, fun _ => .inr rfl⟩
  | reads stage _ reads =>
    cases reads with
    | frame f rest input handles => exact ⟨handles.lasts.id, handles.lasts.reader⟩
    | fault | ends => exact ⟨rfl, fun _ => .inr rfl⟩
  | sweeps stage =>
    unfold sweep
    dsimp only
    split <;> exact ⟨rfl, .inl⟩
  | refuses f stage u sends =>
    exact ⟨(sends ▸ (Beside.transmit s f).lasts.id : u.id = s.id), fun ended => by cases ended⟩
  | answers f k plan stage u closes =>
    exact ⟨(closes ▸ (closeReply_beside s k f).lasts.id : u.id = s.id), fun ended => by cases ended⟩
  | works k plan stage _ works => exact works.lasts
  | wakes => exact ⟨rfl, fun ended => by cases ended⟩

theorem AnswerTurn.lasts {a : Answer} (h : s.AnswerTurn a t) : s.Lasts t := by
  cases h with
  | opens stage u f settles => exact ⟨settles.lasts.id, settles.lasts.reader⟩
  | refused stage u settles => exact ⟨settles.lasts.id, settles.lasts.reader⟩
  | closes f stage u closes =>
    have hcloses := closes ▸ (closeReply_beside s a.responder f).lasts
    exact ⟨hcloses.id, hcloses.reader⟩
  | rests => exact .refl s

theorem Feels.lasts (h : s.Feels t) (hw : s.window.Sound) : s.Lasts t := by
  cases h with
  | aside _ same => exact ⟨by rw [same], fun ended => .inl (by rwa [same] at ended)⟩
  | begins | answers | ends => exact ⟨rfl, .inl⟩
  | works => exact ⟨rfl, fun ended => by cases ended⟩
  | drops c mem => exact (dropCall_step hw c).1.lasts
  | forgets a mem =>
    unfold dropAnswer
    split <;> exact ⟨rfl, .inl⟩

theorem step_lasts (h : s.Orderly) (x : Step) : s.Lasts (s.step x) := by
  have hhappens := h.happens x
  generalize s.step x = t at hhappens
  cases hhappens with
  | feels x _ feels => exact feels.lasts h.sound
  | reader m can _ turn => exact turn.lasts
  | call id c mem _ step => exact step.beside.lasts
  | answer id a mem _ turn => exact turn.lasts
  | nothing m => exact .refl s

/-! ## Along a run -/

/-- What every step of an orderly session keeps, every run keeps. -/
theorem Runs.induct {P : Session → Prop} (h : s.Runs t) (hs : s.Orderly)
    (step : ∀ u : Session, u.Orderly → P u → ∀ x, P (u.step x)) (hP : P s) : t.Orderly ∧ P t := by
  obtain ⟨xs, rfl⟩ := runs_iff.mp h
  rw [← before_length]
  exact ⟨before_orderly hs _, before_induct hs step (Nat.zero_le _) hP⟩

theorem Runs.orderly (h : s.Runs t) (hs : s.Orderly) : t.Orderly :=
  (h.induct (P := fun _ => True) hs (fun _ _ _ _ => trivial) trivial).1

theorem Runs.id (h : s.Runs t) (hs : s.Orderly) : t.id = s.id :=
  (h.induct (P := fun u => u.id = s.id) hs (fun _ hu ih x => (step_lasts hu x).id.trans ih) rfl).2

/-- A closed session stays closed. -/
theorem Runs.closed (h : s.Runs t) (hs : s.Orderly) (closed : s.status = .closed) : t.status = .closed :=
  (h.induct hs (fun _ hu ih x => (step_advances hu x).closed ih) closed).2

/-- A session whose reader has ended is closed. -/
theorem closed_of_finished {id : UInt32} {peer : Option SocketAddress} {serverSystemId : String}
    {settings : SessionSettings} {processor : Nat} {now : Instant}
    (h : (fresh id peer serverSystemId settings processor now).Runs t) (ended : t.reader = .finished) :
    t.status = .closed := by
  refine (h.induct (P := fun u => u.reader = .finished → u.status = .closed)
    (fresh_orderly id peer serverSystemId settings processor now) (fun u hu ih x ended => ?_)
    (fun ended => by cases ended)).2 ended
  rcases (step_lasts hu x).reader ended with earlier | closed
  · exact (step_advances hu x).closed (ih earlier)
  · exact closed

end Smsc.Session
