import Smsc.Proofs.Session.Leaks

/-!
# Smsc.Proofs.Session.Numbers — the numbers of the server's requests

A caller may choose the number of a request. If it does not, the next number of a counter is drawn, and
nobody looks whether a caller has that number pending already.

* `Session.drawn`: the numbers that a run draws; they are 1, 2, 3, … (`drawn_eq`);
* `Session.asks?`: what the window answers to a call that asks it for capacity; `stepCall_numbering` says when
  a call ends because its number is pending;
* `Session.Assigned`: no number was drawn twice, and none is ahead of the counter;
* `drawn_may_collide`, `unbind_may_collide`: a number is drawn while a caller has it pending;
* `numbers_collide_with_chosen`: that is the only way in which a drawn number is refused.
-/

namespace Smsc

open Window

/-! ## When a number is refused -/

namespace Window

variable {α β : Type} {w : Window α β} {now : Instant} {k : UInt32}

theorem contains_iff {key : UInt32} : w.contains key = true ↔ ∃ e ∈ w.entries, e.key = key := by
  simp [contains, find?]

theorem placeOffer_duplicate {key : UInt32} {request : α} {expireTimeout : Duration}
    (h : (w.placeOffer now key request expireTimeout).2 = .refused (.duplicateKey k)) :
    k = key ∧ w.contains key = true := by
  unfold placeOffer place at h
  by_cases hc : w.contains key = true
  · simp only [hc, if_true, Offered.refused.injEq, WindowError.duplicateKey.injEq] at h
    exact ⟨h.symm, hc⟩
  · simp [hc] at h

/-- A waiting offer finds its number pending when it gets capacity, not before. -/
theorem resume_duplicate {p : PendingOffer α}
    (h : (w.resume now p).2 = .refused (.duplicateKey k)) :
    k = p.key ∧ w.contains p.key = true ∧ p.ticket ∈ w.permits.granted := by
  unfold resume Permits.poll at h
  by_cases hclosed : w.permits.isClosed = true
  · simp [hclosed] at h
  · by_cases hgranted : p.ticket ∈ w.permits.granted
    · simp only [hclosed, hgranted, if_true] at h
      obtain ⟨hk, hc⟩ := placeOffer_duplicate h
      exact ⟨hk, hc, hgranted⟩
    · by_cases hlate : p.deadline ≤ now <;> simp [hclosed, hgranted, hlate] at h

theorem offer_duplicate {key : UInt32} {request : α} {offerTimeout expireTimeout : Duration}
    (h : (w.offer now key request offerTimeout expireTimeout).2 = .refused (.duplicateKey k)) :
    k = key ∧ w.contains key = true := by
  unfold offer at h
  by_cases hc : w.contains key = true
  · simp only [hc, if_true, Offered.refused.injEq, WindowError.duplicateKey.injEq] at h
    exact ⟨h.symm, hc⟩
  · rw [if_neg hc] at h
    split at h
    · rename_i permits _
      exact placeOffer_duplicate (w := { w with permits }) h
    · simp at h
    · obtain ⟨hk, hc, -⟩ := resume_duplicate (w := { w with permits := _ }) h
      exact ⟨hk, hc⟩

theorem collect_ne_duplicate (x : Waiter) : (w.collect now x).2 ≠ some (.error (.duplicateKey k)) := by
  unfold collect
  split
  · simp
  · simp
  · split
    · split <;> simp
    · simp

end Window

namespace Session

variable {s t : Session} {xs : List Step}

/-! ## Numbers that are drawn -/

/-- Does the next step of a call draw a number for its request? -/
def drawsFor (s : Session) (c : Call) : Bool :=
  c.stage = .starting && s.isBound && maySend c.request.command && c.request.sequence.isNone

/-- The number that a step draws, if it draws one. -/
def drawn? (s : Session) : Step → Option UInt32
  | .move (.call id) =>
    match s.findCall? id with
    | some c => if s.drawsFor c then some s.drawSequence.2 else none
    | none => none
  | _ => none

/-- The numbers that the steps of a run draw, one after the other. -/
def drawn (s : Session) : List Step → List UInt32
  | [] => []
  | x :: xs => (s.drawn? x).toList ++ (s.step x).drawn xs

theorem transmit_lastSequence (s : Session) (f : Frame) : (s.transmit f).1.lastSequence = s.lastSequence := by
  obtain ⟨new, heq, -⟩ := transmit_eq s f
  rw [heq]

theorem closeReply_lastSequence (s : Session) (k : Nat) (f : Frame) :
    (s.closeReply k f).lastSequence = s.lastSequence := by
  rcases closeReply_cases s k f with h | h <;> rw [h] <;> exact transmit_lastSequence s f

theorem ReaderTurn.lastSequence {m : ReaderMove} (h : s.ReaderTurn m t) :
    t.lastSequence = s.lastSequence := by
  cases h with
  | stops | wakes => rfl
  | reads stage t reads =>
    cases reads with
    | frame f rest input handles => cases handles <;> rfl
    | fault | ends => rfl
  | sweeps =>
    unfold sweep
    dsimp only
    split <;> rfl
  | refuses f stage u sends => exact sends ▸ transmit_lastSequence s f
  | answers f k plan stage u closes => exact closes ▸ closeReply_lastSequence s k f
  | works k plan stage t works =>
    cases works with
    | ends u same =>
      rcases same with rfl | ⟨m, rfl⟩ <;> rfl
    | pauses | holds => rfl
    | answers u plan f settles opens | refused u plan settles opens =>
      show u.lastSequence = _
      rw [settles.same]

theorem AnswerTurn.lastSequence {a : Answer} (h : s.AnswerTurn a t) : t.lastSequence = s.lastSequence := by
  cases h with
  | opens stage u f settles opens | refused stage u settles opens =>
    show u.lastSequence = _
    rw [settles.same]
  | closes f stage u closes => exact closes ▸ closeReply_lastSequence s a.responder f
  | rests => rfl

theorem feel_lastSequence (s : Session) (y : Stimulus) : (s.feel y).lastSequence = s.lastSequence := by
  have hfeels := feel_feels s y
  generalize s.feel y = t at hfeels
  cases hfeels with
  | aside t same => rw [same]
  | begins | answers | ends | works => rfl
  | drops c =>
    unfold dropCall
    dsimp only
    split <;> rfl
  | forgets a =>
    unfold dropAnswer
    split <;> rfl

/-! ## One step of a call -/

/-- What the window answers to a call that asks it for capacity with its next step. -/
def asks? (s : Session) (c : Call) : Option (Offered Frame) :=
  match c.stage with
  | .starting =>
    if s.isBound && maySend c.request.command then
      (c.request.toFrame? (s.sequenceFor c).2).map fun frame =>
        (s.window.offer s.now (s.sequenceFor c).2 frame s.settings.offerTimeout s.settings.expireTimeout).2
    else none
  | .queued _ offer => some (s.window.resume s.now offer).2
  | _ => none

/-- A call that is at its end says that its number was pending if it sent a request for somebody and the
window refused that. -/
theorem conclude_ends (s : Session) (c : Call) (r : Except SessionError Received) :
    ∃ u result, (u = s ∨ u = s.disconnect.1) ∧ s.conclude c r = u.setCall c.id (.finished result) ∧
      ∀ key, result = .failed (.window (.duplicateKey key)) ↔
        c.purpose = .request ∧ r = .error (.window (.duplicateKey key)) := by
  cases hp : c.purpose with
  | request =>
    cases r with
    | ok r => exact ⟨s, .received r, .inl rfl, by simp [conclude, hp], by simp⟩
    | error e => exact ⟨s, .failed e, .inl rfl, by simp [conclude, hp], by simp⟩
  | close =>
    cases r with
    | ok r => exact ⟨s, .closed, .inl rfl, by simp [conclude, hp], by simp⟩
    | error e =>
      by_cases hfails : s.channel.failsDisconnects = true
      · refine ⟨s.disconnect.1, .failed (.channel .closed), .inr rfl, ?_, by simp⟩
        simp [conclude, hp, disconnect, hfails]
      · refine ⟨s.disconnect.1, .closed, .inr rfl, ?_, by simp⟩
        simp [conclude, hp, disconnect, hfails]

/-- A step of a call from `s` to `t`, as far as numbers go: which number its frame has, when its number is
said to be pending, and where the counter is. -/
structure Numbering (s : Session) (c : Call) (t : Session) (stage : CallStage) : Prop where
  calls : t.calls = (s.setCall c.id stage).calls
  frame : ∀ f, stage.frame? = some f → c.stage.frame? = some f ∨
    c.stage = .starting ∧ s.isBound = true ∧ maySend c.request.command = true ∧
      f.sequence = (s.sequenceFor c).2
  ending : ∀ key, stage = .finished (.failed (.window (.duplicateKey key))) ↔
    c.purpose = .request ∧ s.asks? c = some (.refused (.duplicateKey key))
  counter : t.lastSequence = if s.drawsFor c then s.drawSequence.1.lastSequence else s.lastSequence

theorem conclude_numbering {c : Call} {r : Except SessionError Received} (hcalls : t.calls = s.calls)
    (counter : t.lastSequence = if s.drawsFor c then s.drawSequence.1.lastSequence else s.lastSequence)
    (hasks : ∀ key, s.asks? c = some (.refused (.duplicateKey key)) ↔
      r = .error (.window (.duplicateKey key))) :
    ∃ stage, s.Numbering c (t.conclude c r) stage := by
  obtain ⟨u, result, hu, heq, hending⟩ := conclude_ends t c r
  refine ⟨.finished result, ?_, by simp [CallStage.frame?], fun key => ?_, ?_⟩
  · rw [heq]
    rcases hu with rfl | rfl <;> simp [setCall, disconnect, hcalls]
  · rw [hasks, CallStage.finished.injEq]
    exact hending key
  · rw [heq, ← counter]
    rcases hu with rfl | rfl <;> rfl

theorem afterOffer_numbering {c : Call} {frame : Frame} {o : Offered Frame} (hcalls : t.calls = s.calls)
    (counter : t.lastSequence = if s.drawsFor c then s.drawSequence.1.lastSequence else s.lastSequence)
    (hframe : c.stage.frame? = some frame ∨ c.stage = .starting ∧ s.isBound = true ∧
      maySend c.request.command = true ∧ frame.sequence = (s.sequenceFor c).2)
    (hasks : s.asks? c = some o) : ∃ stage, s.Numbering c (t.afterOffer c frame o) stage := by
  cases o with
  | admitted entry =>
    exact ⟨.writing frame entry, by simp [afterOffer, setCall, measure, note, hcalls],
      by rintro f ⟨⟩; exact hframe, by simp [hasks], counter⟩
  | refused e =>
    exact conclude_numbering (t := t.measure _) hcalls counter fun key => by
      simp [hasks]
  | waiting p =>
    exact ⟨.queued frame p, by simp [afterOffer, setCall, hcalls],
      by rintro f ⟨⟩; exact hframe, by simp [hasks], counter⟩

theorem sequenceFor_lastSequence {c : Call} (hstage : c.stage = .starting) (hbound : s.isBound = true)
    (hmay : maySend c.request.command = true) :
    (s.sequenceFor c).1.lastSequence =
      if s.drawsFor c then s.drawSequence.1.lastSequence else s.lastSequence := by
  cases hsequence : c.request.sequence <;>
    simp [sequenceFor, drawsFor, hstage, hbound, hmay, hsequence]

theorem startCall_numbering {c : Call} (hstage : c.stage = .starting) :
    ∃ stage, s.Numbering c (s.startCall c) stage := by
  unfold startCall
  by_cases hbound : s.isBound = true
  · rw [if_pos hbound, sendRequest]
    by_cases hmay : maySend c.request.command = true
    · rw [if_pos hmay]
      have hcounter := sequenceFor_lastSequence hstage hbound hmay
      have hcalls := sequenceFor_calls s c
      have hsame := (sequenceFor_beside s c).same
      have hwindow := sequenceFor_window s c
      dsimp only
      generalize hsn : s.sequenceFor c = sn at hcounter hcalls hsame hwindow
      obtain ⟨u, n⟩ := sn
      dsimp only at hcounter hcalls hsame hwindow ⊢
      unfold offerFrame
      cases hframe : c.request.toFrame? n with
      | none =>
        have hnone : s.asks? c = none := by simp [asks?, hstage, hsn, hframe]
        exact conclude_numbering hcalls hcounter (by simp [hnone])
      | some frame =>
        have hsequence : frame.sequence = n := by
          obtain ⟨pdu, -, rfl⟩ := Option.map_eq_some_iff.mp hframe
          rfl
        have hnow : u.now = s.now := by rw [hsame]
        have hsettings : u.settings = s.settings := by rw [hsame]
        have hasks : s.asks? c = some (u.window.offer u.now n frame u.settings.offerTimeout
            u.settings.expireTimeout).2 := by
          simp only [asks?, hstage, hbound, hmay, Bool.and_self, if_true, hsn, hframe, Option.map_some,
            hwindow, hnow, hsettings]
        dsimp only
        generalize u.window.offer u.now n frame u.settings.offerTimeout u.settings.expireTimeout = wo
          at hasks ⊢
        exact afterOffer_numbering (t := { u with window := wo.1 }) hcalls hcounter
          (.inr ⟨hstage, hbound, hmay, by rw [hsequence, hsn]⟩) hasks
    · rw [if_neg hmay]
      have hnone : s.asks? c = none := by simp [asks?, hstage, hmay]
      exact conclude_numbering rfl (by simp [drawsFor, hmay]) (by simp [hnone])
  · rw [if_neg hbound]
    have hnone : s.asks? c = none := by simp [asks?, hstage, hbound]
    exact conclude_numbering rfl (by simp [drawsFor, hbound]) (by simp [hnone, SessionError.notBound])

theorem stepCall_numbering (hids : (s.calls.map (·.id)).Nodup) {c : Call} (hc : c ∈ s.calls)
    (ready : s.callIsReady c = true) : ∃ stage, s.Numbering c (s.stepCall c) stage := by
  unfold stepCall
  cases hstage : c.stage with
  | starting => exact startCall_numbering hstage
  | queued frame offer =>
    have hasks : s.asks? c = some (s.window.resume s.now offer).2 := by simp [asks?, hstage]
    dsimp only
    generalize s.window.resume s.now offer = wo at hasks ⊢
    exact afterOffer_numbering (t := { s with window := wo.1 }) rfl (by simp [drawsFor, hstage])
      (.inl (by rw [hstage]; rfl)) hasks
  | writing frame entry =>
    have hcounter := transmit_lastSequence s frame
    have hcalls := transmit_calls s frame
    dsimp only
    unfold writeCall
    generalize s.transmit frame = tr at hcounter hcalls ⊢
    obtain ⟨u, r⟩ := tr
    dsimp only at hcounter hcalls ⊢
    cases r with
    | ok v =>
      refine ⟨.awaiting frame u.now ⟨frame.sequence, entry, u.now + c.timeout.nanos⟩, ?_, ?_, ?_, ?_⟩
      · simp only [setCall, hcalls]
      · rintro f ⟨⟩
        exact .inl (by rw [hstage]; rfl)
      · simp [asks?, hstage]
      · simpa [drawsFor, hstage, setCall] using hcounter
    | error e =>
      exact conclude_numbering (t := { u with window := _ }) hcalls (by simpa [drawsFor, hstage] using hcounter)
        (by simp [asks?, hstage])
  | awaiting frame since x =>
    have hno (k : UInt32) : (s.window.collect s.now x).2 ≠ some (.error (.duplicateKey k)) :=
      collect_ne_duplicate x
    have hnone : s.asks? c = none := by simp [asks?, hstage]
    have hcounter : s.lastSequence = if s.drawsFor c then s.drawSequence.1.lastSequence else s.lastSequence := by
      simp [drawsFor, hstage]
    dsimp only
    unfold awaitCall
    generalize s.window.collect s.now x = wr at hno ⊢
    obtain ⟨w, r⟩ := wr
    dsimp only at hno
    split
    · refine ⟨c.stage, ?_, fun f hf => .inl hf, ?_, hcounter⟩
      · rw [setCall_self hids hc]
      · simp [hstage, hnone]
    · rename_i response hr
      unfold respondCall
      dsimp only
      split
      · exact conclude_numbering rfl hcounter (by simp [hnone])
      · exact conclude_numbering rfl hcounter (by simp [hnone])
    · exact conclude_numbering rfl hcounter (by simp [hnone])
    · rename_i e hne heq
      refine conclude_numbering rfl hcounter fun key => ?_
      have hne : e ≠ .duplicateKey key := by
        rintro rfl
        exact hno key (congrArg Prod.snd heq)
      simp [hnone, hne]
  | finished result => simp [callIsReady, hstage] at ready

/-! ## One step of a session -/

theorem ready_of_drawsFor {c : Call} (h : s.drawsFor c = true) : s.callIsReady c = true := by
  have hstage : c.stage = .starting := by
    unfold drawsFor at h
    simp only [Bool.and_eq_true, decide_eq_true_eq] at h
    exact h.1.1.1
  simp [callIsReady, hstage]

/-- The counter goes on exactly when a number is drawn. -/
theorem step_counter (hs : s.Orderly) (x : Step) :
    (s.step x).lastSequence = if (s.drawn? x).isSome then s.drawSequence.1.lastSequence else s.lastSequence := by
  cases x with
  | feel y => exact feel_lastSequence s y
  | move m =>
    by_cases can : s.can m = true
    · have hmoves := step_moves s m
      rw [step, if_pos can] at hmoves ⊢
      cases m with
      | reader m => exact (moveReader_turn can).lastSequence
      | call id =>
        obtain ⟨c, found, ready⟩ : ∃ c, s.findCall? id = some c ∧ s.callIsReady c = true := by
          simpa [Session.can, Option.any_eq_true] using can
        obtain ⟨stage, h⟩ := stepCall_numbering hs.call_ids (List.mem_of_find?_eq_some found) ready
        simp only [move, found, h.counter, drawn?]
        by_cases hdraws : s.drawsFor c = true <;> simp [hdraws]
      | answer id =>
        show (s.move (.answer id)).lastSequence = s.lastSequence
        unfold move
        dsimp only
        split
        · exact (stepAnswer_turn s _).lastSequence
        · rfl
    · have hnone : s.drawn? (.move m) = none := by
        cases m with
        | reader m | answer id => rfl
        | call id =>
          simp only [drawn?]
          split
          · rename_i c found
            refine if_neg fun hdraws => can ?_
            simp [Session.can, found, ready_of_drawsFor hdraws]
          · rfl
      rw [step, if_neg can, hnone]
      rfl

theorem drawSequence_of_lt (h : s.lastSequence < maxSequence) :
    s.drawSequence = ({ s with lastSequence := s.lastSequence + 1 }, .ofNat (s.lastSequence + 1)) := by
  simp [drawSequence, Nat.not_le.mpr h]

/-- A number that is drawn is the next one of the counter. -/
theorem step_drawn (hs : s.Orderly) (few : s.lastSequence < maxSequence) (x : Step) :
    s.drawn? x = none ∧ (s.step x).lastSequence = s.lastSequence ∨
      s.drawn? x = some (.ofNat (s.lastSequence + 1)) ∧ (s.step x).lastSequence = s.lastSequence + 1 := by
  have hcounter := step_counter hs x
  cases hdrawn : s.drawn? x with
  | none =>
    rw [hdrawn] at hcounter
    exact .inl ⟨rfl, hcounter⟩
  | some n =>
    rw [hdrawn, drawSequence_of_lt few] at hcounter
    refine .inr ⟨?_, hcounter⟩
    cases x with
    | feel y => cases hdrawn
    | move m =>
      cases m with
      | reader m | answer id => cases hdrawn
      | call id =>
        simp only [drawn?] at hdrawn
        split at hdrawn
        · split at hdrawn
          · rw [← hdrawn, drawSequence_of_lt few]
          · cases hdrawn
        · cases hdrawn

/-! ## The numbers of a run -/

theorem drawn_append (s : Session) (xs ys : List Step) :
    s.drawn (xs ++ ys) = s.drawn xs ++ (s.after xs).drawn ys := by
  induction xs generalizing s with
  | nil => rfl
  | cons x xs ih => simp only [List.cons_append, drawn, ih, List.append_assoc]; rfl

/-- As long as the counter does not turn over, the numbers drawn follow one another. -/
theorem drawn_eq (hs : s.Orderly) (few : s.lastSequence + (s.drawn xs).length < maxSequence) :
    s.drawn xs = (List.range' (s.lastSequence + 1) (s.drawn xs).length).map UInt32.ofNat ∧
      (s.after xs).lastSequence = s.lastSequence + (s.drawn xs).length := by
  induction xs generalizing s with
  | nil => exact ⟨rfl, rfl⟩
  | cons x xs ih =>
    have hlt : s.lastSequence < maxSequence := by omega
    have hafter : s.after (x :: xs) = (s.step x).after xs := rfl
    rw [hafter]
    rcases step_drawn hs hlt x with ⟨hnone, hsame⟩ | ⟨hsome, hnext⟩
    · have hrest : s.drawn (x :: xs) = (s.step x).drawn xs := by simp [drawn, hnone]
      rw [hrest] at few ⊢
      rw [← hsame] at few ⊢
      exact ih (step_orderly hs x) few
    · have hrest : s.drawn (x :: xs) = .ofNat (s.lastSequence + 1) :: (s.step x).drawn xs := by
        simp [drawn, hsome]
      rw [hrest, List.length_cons] at few ⊢
      obtain ⟨heq, hlast⟩ := ih (step_orderly hs x) (by rw [hnext]; omega)
      refine ⟨?_, by rw [hlast, hnext]; omega⟩
      rw [List.range'_succ, List.map_cons, ← hnext, ← heq]

/-- Where the counter stands before a step. -/
theorem before_counter (hs : s.Orderly) (few : s.lastSequence + (s.drawn xs).length < maxSequence) (k : Nat) :
    (s.before xs k).lastSequence < maxSequence := by
  have hsplit : (s.drawn (xs.take k)).length ≤ (s.drawn xs).length := by
    have happend := drawn_append s (xs.take k) (xs.drop k)
    rw [List.take_append_drop] at happend
    rw [happend, List.length_append]
    exact Nat.le_add_right _ _
  have hlast : (s.after (xs.take k)).lastSequence = s.lastSequence + (s.drawn (xs.take k)).length :=
    (drawn_eq hs (by omega)).2
  rw [before, hlast]
  omega

/-! ## The invariant -/

/-- A drawn number is not ahead of the counter, and no two calls have the same. -/
structure Assigned (s : Session) : Prop where
  le : ∀ c ∈ s.calls, c.request.sequence = none → ∀ f, c.stage.frame? = some f →
    f.sequence.toNat ≤ s.lastSequence
  unique : ∀ a ∈ s.calls, ∀ b ∈ s.calls, a.request.sequence = none → b.request.sequence = none →
    ∀ f g, a.stage.frame? = some f → b.stage.frame? = some g → f.sequence = g.sequence → a.id = b.id

theorem toNat_next (few : s.lastSequence < maxSequence) :
    (UInt32.ofNat (s.lastSequence + 1)).toNat = s.lastSequence + 1 := by
  have hsmall : maxSequence < 2 ^ 32 := by decide
  exact UInt32.toNat_ofNat_of_lt' (by show _ < UInt32.size; unfold UInt32.size; omega)

/-- The frame of a call that chose no number was there before, or its number was just drawn. -/
theorem frame_step (hs : s.Orderly) (few : s.lastSequence < maxSequence) {x : Step} {b : Call}
    (hb : b ∈ (s.step x).calls) (hauto : b.request.sequence = none) {f : Frame}
    (hf : b.stage.frame? = some f) :
    (∃ c ∈ s.calls, c.id = b.id ∧ c.request.sequence = none ∧ c.stage.frame? = some f) ∨
      x = .move (.call b.id) ∧ f.sequence = .ofNat (s.lastSequence + 1) ∧
        (s.step x).lastSequence = s.lastSequence + 1 := by
  rcases mem_calls_step hs hb with hold | ⟨-, hstarting, -⟩ | ⟨c, hc, ⟨stage, rfl⟩, rfl, ready, hstep⟩
  · exact .inl ⟨b, hold, rfl, hauto, hf⟩
  · rw [hstarting] at hf
    cases hf
  · obtain ⟨stage', h⟩ := stepCall_numbering hs.call_ids hc ready
    have hsame : stage = stage' := by
      rw [hstep, h.calls] at hb
      rcases mem_setCall hs.call_ids hc hb with heq | ⟨-, hne⟩
      · exact congrArg Call.stage heq
      · exact absurd rfl hne
    subst hsame
    rcases h.frame f hf with hf | ⟨hstarting, hbound, hmay, hsequence⟩
    · exact .inl ⟨c, hc, rfl, hauto, hf⟩
    · have hdraws : s.drawsFor c = true := by
        simp only [drawsFor, hstarting, hbound, hmay, Bool.and_true, decide_true, Bool.true_and]
        exact Option.isNone_iff_eq_none.mpr hauto
      have hnumber : (s.sequenceFor c).2 = .ofNat (s.lastSequence + 1) := by
        have hnone : c.request.sequence = none := hauto
        simp [sequenceFor, hnone, drawSequence_of_lt few]
      refine .inr ⟨rfl, hsequence.trans hnumber, ?_⟩
      rw [hstep, h.counter, if_pos hdraws, drawSequence_of_lt few]

theorem step_assigned (hs : s.Orderly) (few : s.lastSequence < maxSequence) (h : s.Assigned) (x : Step) :
    (s.step x).Assigned := by
  have hmono : s.lastSequence ≤ (s.step x).lastSequence := by
    rcases step_drawn hs few x with ⟨-, heq⟩ | ⟨-, heq⟩ <;> omega
  -- A number that was just drawn is ahead of all that were there.
  have hahead {c : Call} (hc : c ∈ s.calls) (hauto : c.request.sequence = none) {f g : Frame}
      (hf : c.stage.frame? = some f) (hg : g.sequence = .ofNat (s.lastSequence + 1)) :
      f.sequence ≠ g.sequence := by
    intro heq
    have hle := h.le c hc hauto f hf
    rw [heq, hg, toNat_next few] at hle
    omega
  refine ⟨fun b hb hauto f hf => ?_, fun a ha b hb hauto hbuto f g hf hg heq => ?_⟩
  · rcases frame_step hs few hb hauto hf with ⟨c, hc, -, hcauto, hcf⟩ | ⟨-, hnew, hlast⟩
    · exact Nat.le_trans (h.le c hc hcauto f hcf) hmono
    · exact Nat.le_of_eq (by rw [hnew, toNat_next few, hlast])
  · rcases frame_step hs few ha hauto hf with ⟨c, hc, hca, hcauto, hcf⟩ | ⟨hxa, hnewa, -⟩
    · rcases frame_step hs few hb hbuto hg with ⟨d, hd, hdb, hdauto, hdg⟩ | ⟨-, hnewb, -⟩
      · rw [← hca, ← hdb]
        exact h.unique c hc d hd hcauto hdauto f g hcf hdg heq
      · exact absurd heq (hahead hc hcauto hcf hnewb)
    · rcases frame_step hs few hb hbuto hg with ⟨d, hd, -, hdauto, hdg⟩ | ⟨hxb, -, -⟩
      · exact absurd heq.symm (hahead hd hdauto hdg hnewa)
      · have hmoves := hxa.symm.trans hxb
        simpa using hmoves

theorem before_assigned (hs : s.Orderly) (h : s.Assigned)
    (few : s.lastSequence + (s.drawn xs).length < maxSequence) (k : Nat) : (s.before xs k).Assigned :=
  stateAt_induct (Nat.zero_le k)
    (fun i x _ _ _ h => step_assigned (before_orderly hs i) (before_counter hs few i) h x) h

/-! ## Refusals -/

/-- With the step `x` the call `c` asks for capacity, and is refused because `key` is pending. -/
structure Collides (s : Session) (x : Step) (c : Call) (key : UInt32) : Prop where
  step : x = .move (.call c.id)
  mem : c ∈ s.calls
  ready : s.callIsReady c = true
  refused : s.asks? c = some (.refused (.duplicateKey key))

/-- The number under which a request is refused is its own, and is pending: when the call starts, or when
it gets capacity. -/
theorem Collides.pending (hs : s.Orderly) {x : Step} {c : Call} {key : UInt32} (h : s.Collides x c key) :
    (∃ e ∈ s.window.entries, e.key = key) ∧ (∀ n, c.request.sequence = some n → key = n) ∧
      (c.stage = .starting ∧ key = (s.sequenceFor c).2 ∨
        ∃ frame offer, c.stage = .queued frame offer ∧ key = frame.sequence ∧
          offer.ticket ∈ s.window.permits.granted) := by
  have hrefused := h.refused
  cases hstage : c.stage with
  | starting =>
    simp only [asks?, hstage] at hrefused
    split at hrefused
    · obtain ⟨frame, -, hoffer⟩ := Option.map_eq_some_iff.mp hrefused
      obtain ⟨rfl, hpending⟩ := offer_duplicate hoffer
      exact ⟨contains_iff.mp hpending, fun n hn => sequenceFor_chosen s c n hn, .inl ⟨rfl, rfl⟩⟩
    · cases hrefused
  | queued frame offer =>
    simp only [asks?, hstage, Option.some.injEq] at hrefused
    obtain ⟨rfl, hpending, hgranted⟩ := resume_duplicate hrefused
    have hfits := hs.fits c h.mem
    have hkey := (hfits.offer frame offer hstage).1
    have hmakes := hfits.makes frame (by rw [hstage]; rfl)
    refine ⟨contains_iff.mp hpending, fun n hn => ?_, .inr ⟨frame, offer, rfl, hkey, hgranted⟩⟩
    rw [hkey]
    exact hmakes.chosen n hn
  | writing frame entry | awaiting frame since x | finished result => simp [asks?, hstage] at hrefused

/-- A drawn number is pending only for a call that chose it. -/
theorem Collides.chosen (hs : s.Orderly) (hcovered : s.Covered) (h : s.Assigned)
    (few : s.lastSequence < maxSequence) {x : Step} {c : Call} {key : UInt32} (hcol : s.Collides x c key)
    (hauto : c.request.sequence = none) :
    ∃ b ∈ s.calls, b.request.sequence = some key ∧ b.stage.admitted? = some key := by
  obtain ⟨⟨e, he, rfl⟩, -, hstage⟩ := hcol.pending hs
  obtain ⟨b, hb, f, hentry, hsequence⟩ := hcovered.call hs he
  have hframe : b.stage.frame? = some f := by
    cases hstage : b.stage <;> simp_all [CallStage.entry?, CallStage.frame?]
  refine ⟨b, hb, ?_, CallStage.admitted?_eq_some.mpr ⟨f, e.id, hentry, hsequence⟩⟩
  cases hchosen : b.request.sequence with
  | some n => rw [← hsequence, ((hs.fits b hb).makes f hframe).chosen n hchosen]
  | none =>
    exfalso
    rcases hstage with ⟨-, hkey⟩ | ⟨frame, offer, hqueued, hkey, -⟩
    · have hnext : (s.sequenceFor c).2 = .ofNat (s.lastSequence + 1) := by
        simp [sequenceFor, hauto, drawSequence_of_lt few]
      have hle := h.le b hb hchosen f hframe
      rw [hsequence, hkey, hnext, toNat_next few] at hle
      omega
    · have hid := h.unique b hb c hcol.mem hchosen hauto f frame hframe (by rw [hqueued]; rfl)
        (hsequence.trans hkey)
      obtain rfl := List.inj_on_of_nodup_map hs.call_ids hb hcol.mem hid
      rw [hqueued] at hentry
      cases hentry

/-- A call ends because its number is pending with the step in which it was refused. -/
theorem collides_of_ended (hs : s.Orderly) {x : Step} {b : Call} (hb : b ∈ (s.step x).calls) {key : UInt32}
    (hended : b.stage = .finished (.failed (.window (.duplicateKey key)))) :
    b ∈ s.calls ∨ ∃ c, c.id = b.id ∧ c.purpose = .request ∧ s.Collides x c key := by
  rcases mem_calls_step hs hb with hold | ⟨-, hstarting, -⟩ | ⟨c, hc, ⟨stage, rfl⟩, rfl, ready, hstep⟩
  · exact .inl hold
  · rw [hstarting] at hended
    cases hended
  · obtain ⟨stage', h⟩ := stepCall_numbering hs.call_ids hc ready
    rw [hstep, h.calls] at hb
    rcases mem_setCall hs.call_ids hc hb with heq | ⟨-, hne⟩
    · obtain rfl : stage = stage' := congrArg Call.stage heq
      obtain ⟨hpurpose, hrefused⟩ := (h.ending key).mp hended
      exact .inr ⟨c, rfl, hpurpose, rfl, hc, ready, hrefused⟩
    · exact absurd rfl hne

/-! ## Runs -/

/-- A request whose number was drawn is never refused because that number is pending. -/
def DrawnIsFresh : Prop :=
  ∀ (id : UInt32) (peer : Option SocketAddress) (serverSystemId : String) (settings : SessionSettings)
    (processor : Nat) (now : Instant) (xs : List Step),
    ((fresh id peer serverSystemId settings processor now).drawn xs).length < maxSequence →
    ∀ k x c key, xs[k]? = some x →
      ((fresh id peer serverSystemId settings processor now).before xs k).Collides x c key →
      c.request.sequence ≠ none

/-- A caller has the number 1 pending when another request draws its number. -/
def chosenFirst : List Step :=
  greeting ++ [.feel (.send ⟨some 1, .enquireLink⟩ ⟨1000⟩), .move (.call 1),
    .feel (.send ⟨none, .enquireLink⟩ ⟨1000⟩), .move (.call 2)]

/-- In that run the drawn number is 1 as well, and the request is refused. -/
theorem drawn_may_collide : ¬ DrawnIsFresh := by
  intro never
  refine never 1 none "smsc" ⟨10, ⟨1000⟩, ⟨1000⟩, ⟨1000⟩⟩ 0 0 chosenFirst (by decide +kernel) 10
    (.move (.call 2)) ⟨2, .request, ⟨none, .enquireLink⟩, ⟨1000⟩, .starting⟩ 1 rfl ⟨rfl, ?_, ?_, ?_⟩ rfl
  all_goals decide +kernel

/-- What the numbers of a run `xs` from `s` are, and when a request is refused because of its number. -/
structure NumbersRefused (s : Session) (xs : List Step) : Prop where
  /-- The numbers drawn are 1, 2, 3, … -/
  drawn : s.drawn xs = (List.range' 1 (s.drawn xs).length).map UInt32.ofNat
  /-- A request ends with its number pending in the step in which the window refuses it. -/
  ended : ∀ k x, xs[k]? = some x → ∀ b ∈ (s.before xs (k + 1)).calls, ∀ key,
    b.stage = .finished (.failed (.window (.duplicateKey key))) →
    b ∈ (s.before xs k).calls ∨
      ∃ c, c.id = b.id ∧ c.purpose = .request ∧ (s.before xs k).Collides x c key
  /-- It is refused only if its number is pending when it starts, or when it gets capacity. -/
  pending : ∀ k x c key, xs[k]? = some x → (s.before xs k).Collides x c key →
    (∃ e ∈ (s.before xs k).window.entries, e.key = key) ∧ (∀ n, c.request.sequence = some n → key = n) ∧
      (c.stage = .starting ∧ key = ((s.before xs k).sequenceFor c).2 ∨
        ∃ frame offer, c.stage = .queued frame offer ∧ key = frame.sequence ∧
          offer.ticket ∈ (s.before xs k).window.permits.granted)
  /-- If its number was drawn, then the number is pending for a caller that chose it. -/
  chosen : ∀ k x c key, xs[k]? = some x → (s.before xs k).Collides x c key →
    c.request.sequence = none →
    ∃ b ∈ (s.before xs k).calls, b.request.sequence = some key ∧ b.stage.admitted? = some key

/-- While the counter does not turn over, a drawn number is refused only because a caller chose the same
number and has it pending. This goes for the unbind of a close as well. -/
theorem numbers_collide_with_chosen (id : UInt32) (peer : Option SocketAddress) (serverSystemId : String)
    (settings : SessionSettings) (processor : Nat) (now : Instant) (xs : List Step)
    (few : ((fresh id peer serverSystemId settings processor now).drawn xs).length < maxSequence) :
    (fresh id peer serverSystemId settings processor now).NumbersRefused xs := by
  have hs := fresh_orderly id peer serverSystemId settings processor now
  have hcovered := fresh_covered id peer serverSystemId settings processor now
  have hassigned : (fresh id peer serverSystemId settings processor now).Assigned :=
    ⟨by simp [fresh], by simp [fresh]⟩
  have hzero : (fresh id peer serverSystemId settings processor now).lastSequence = 0 := rfl
  generalize fresh id peer serverSystemId settings processor now = s at few hs hcovered hassigned hzero ⊢
  have hfew : s.lastSequence + (s.drawn xs).length < maxSequence := by omega
  refine ⟨?_, fun k x hk b hb key hended => ?_, fun k x c key _ hcol => hcol.pending (before_orderly hs k),
    fun k x c key _ hcol hauto => ?_⟩
  · have hdrawn := (drawn_eq hs hfew).1
    rwa [hzero] at hdrawn
  · rw [before_succ hk] at hb
    exact collides_of_ended (before_orderly hs k) hb hended
  · exact hcol.chosen (before_orderly hs k) (before_covered hs hcovered k) (before_assigned hs hassigned hfew k)
      (before_counter hs hfew k) hauto

/-- In the run above the number is pending for the caller that chose it. -/
theorem chosenFirst_refused :
    ∃ b ∈ ((fresh 1 none "smsc" ⟨10, ⟨1000⟩, ⟨1000⟩, ⟨1000⟩⟩ 0 0).before chosenFirst 10).calls,
      b.request.sequence = some 1 ∧ b.stage.admitted? = some 1 := by
  refine (numbers_collide_with_chosen 1 none "smsc" ⟨10, ⟨1000⟩, ⟨1000⟩, ⟨1000⟩⟩ 0 0 chosenFirst
    (by decide +kernel)).chosen 10 (.move (.call 2)) ⟨2, .request, ⟨none, .enquireLink⟩, ⟨1000⟩, .starting⟩ 1
    rfl ⟨rfl, ?_, ?_, ?_⟩ rfl
  all_goals decide +kernel

/-- The frame of an unbind went out. -/
def isUnbind : SessionEvent → Bool
  | .wrote f _ => f.command = .unbind
  | _ => false

/-- A close meets the same number, and ends without an unbind. -/
theorem unbind_may_collide :
    let s := fresh 1 none "smsc" ⟨10, ⟨1000⟩, ⟨1000⟩, ⟨1000⟩⟩ 0 0
    let asking := s.after (greeting ++ [.feel (.send ⟨some 1, .enquireLink⟩ ⟨1000⟩), .move (.call 1),
      .move (.call 1), .feel .close])
    let closed := asking.step (.move (.call 2))
    (asking.findCall? 2).bind asking.asks? = some (.refused (.duplicateKey 1)) ∧
      (closed.findCall? 2).map (·.stage) = some (.finished .closed) ∧ closed.status = .closed ∧
      closed.log.any isUnbind = false := by
  decide +kernel

end Session

end Smsc
