import Mathlib.Data.Prod.Lex
import Mathlib.Order.WellFounded
import Smsc.Proofs.Session.Intake

/-!
# Smsc.Proofs.Session.Finishing — the reader comes to its end

Once the client sends no more, everything that the reader does leaves less to do: octets of the input, then
the call of a processor that is due, then what is left of its plan. So it cannot go on for ever, and it
stands still only when it has ended.

* `Session.along`: the states along a run without end;
* `Session.remaining`: what the reader has still to do; `step_remaining`: no step adds to it;
* `Fair s σ`: what a run needs from the outside; `exists_finished`: the reader comes to its end.
-/

namespace Smsc

/-- Is a processor about to be called? -/
def Reader.Stage.isCalling : Reader.Stage → Bool
  | .calling .. => true
  | _ => false

namespace Session

variable {s t : Session} {x : Step} {σ : Nat → Step} {n : Nat}

/-! ## Runs without end -/

/-- The state before the `n`-th step of a run without end. -/
def along (s : Session) (σ : Nat → Step) (n : Nat) : Session := s.after ((List.range n).map σ)

theorem along_succ (s : Session) (σ : Nat → Step) (n : Nat) :
    s.along σ (n + 1) = (s.along σ n).step (σ n) := by
  rw [along, List.range_succ, List.map_append, List.map_singleton, after_concat, along]

theorem along_orderly (hs : s.Orderly) (n : Nat) : (s.along σ n).Orderly := after_orderly hs _

theorem along_induct {P : Session → Prop} {m : Nat} (hmn : m ≤ n)
    (step : ∀ l, m ≤ l → P (s.along σ l) → P ((s.along σ l).step (σ l))) (h : P (s.along σ m)) :
    P (s.along σ n) := by
  induction n, hmn using Nat.le_induction with
  | base => exact h
  | succ l hml ih =>
    rw [along_succ]
    exact step l hml ih

/-! ## What is left to do -/

/-- What the reader has still to do when the input has ended: first the octets, then the call that is due,
then the frame in hand. -/
def remaining (s : Session) : ℕ ×ₗ ℕ ×ₗ ℕ :=
  toLex (s.input.length, toLex (s.reader.isCalling.toNat, s.reader.effort))

theorem remaining_lt_of_input (h : t.input.length < s.input.length) : t.remaining < s.remaining :=
  Prod.Lex.toLex_lt_toLex.mpr (.inl h)

theorem remaining_lt_of_calling (input : t.input.length = s.input.length)
    (calling : s.reader.isCalling = true) (called : t.reader.isCalling = false) :
    t.remaining < s.remaining :=
  Prod.Lex.toLex_lt_toLex.mpr (.inr ⟨input, Prod.Lex.toLex_lt_toLex.mpr (.inl (by simp [calling, called]))⟩)

theorem remaining_lt_of_effort (input : t.input.length = s.input.length)
    (same : t.reader.isCalling = s.reader.isCalling) (effort : t.reader.effort < s.reader.effort) :
    t.remaining < s.remaining :=
  Prod.Lex.toLex_lt_toLex.mpr (.inr ⟨input, Prod.Lex.toLex_lt_toLex.mpr (.inr ⟨congrArg Bool.toNat same, effort⟩)⟩)

/-- Only a frame makes the reader owe a call. -/
theorem isCalling_of_can {m : ReaderMove} (can : s.can (.reader m) = true) : s.reader.isCalling = false := by
  cases hreader : s.reader <;> first | rfl | (cases m <;> simp [Session.can, readerCan, hreader] at can)

/-- After the end of the input a step leaves less to do, or it leaves the reader and the input alone. -/
theorem step_remaining (hs : s.Orderly) (ended : s.inputEnded = true) (x : Step) :
    (s.step x).inputEnded = true ∧ ((s.step x).remaining < s.remaining ∨
      (s.step x).reader = s.reader ∧ (s.step x).input = s.input ∧
        ∀ m, x = .move (.reader m) → s.can (.reader m) = true → m = .sweep) := by
  have hdeaf : s.listens = false := by simp [listens, ended]
  have hintake := step_intake hs x
  generalize s.step x = t at hintake ⊢
  cases hintake with
  | arrives octets _ same listens | ends _ same listens => simp [hdeaf] at listens
  | begins k p request plan stage _ same =>
    subst same
    exact ⟨ended, .inl (remaining_lt_of_calling rfl (by rw [stage]; rfl) rfl)⟩
  | takes f rest can next _ handles inputEnded input =>
    refine ⟨by rw [inputEnded, ended], .inl (remaining_lt_of_input ?_)⟩
    rw [input]
    exact Frame.length_drop_lt_of_take? (nextInput_eq_frame.mp next)
  | quits m m_eq can _ reader status input inputEnded =>
    refine ⟨by rw [inputEnded, ended], .inl ?_⟩
    rcases Nat.lt_or_eq_of_le input with less | same
    · exact remaining_lt_of_input less
    · have hwaiting : s.reader = .waiting := by
        rcases m_eq with rfl | ⟨rfl, -⟩ <;> exact waiting_of_can can (by decide)
      exact remaining_lt_of_effort same (by rw [reader, hwaiting]; rfl)
        (by rw [reader, hwaiting]; exact Nat.zero_lt_one)
  | proceeds can _ effort owes input inputEnded =>
    have hcalled : t.reader.isCalling = false := by
      cases hreader : t.reader with
      | calling k p request => exact absurd hreader (owes k p request)
      | _ => rfl
    refine ⟨by rw [inputEnded, ended], .inl (remaining_lt_of_effort (by rw [input]) ?_ effort)⟩
    rw [hcalled, isCalling_of_can can]
  | rests x apart _ reader input inputEnded =>
    exact ⟨by rw [inputEnded, ended], .inr ⟨reader, input, apart⟩⟩

/-! ## The end -/

/-- What a run without end needs from the outside, for the reader to come to its end. -/
structure Fair (s : Session) (σ : Nat → Step) : Prop where
  /-- The client comes to an end. -/
  ends : ∃ n, σ n = .feel .endInput
  /-- Every call of a processor is taken in hand, and has a plan that ends. -/
  begins : ∀ n k p request, (s.along σ n).reader = .calling k p request →
    ∃ m ≥ n, ∃ plan, σ m = .feel (.begin plan)
  /-- Every pause of a processor is over from some time on. -/
  wakes : ∀ n wake k plan, (s.along σ n).reader = .pausing wake k plan →
    ∃ m ≥ n, ∀ l ≥ m, wake ≤ (s.along σ l).now
  /-- Writes do not hang for ever. -/
  flows : ∃ n, ∀ m ≥ n, (s.along σ m).channel.isStalled = false
  /-- What the reader can do all the time, it does. -/
  moves : ∀ n m, (∀ l ≥ n, (s.along σ l).can (.reader m) = true) → ∃ l ≥ n, σ l = .move (.reader m)

theorem along_inputEnded (hs : s.Orderly) (ended : (s.along σ n).inputEnded = true) {m : Nat} (hnm : n ≤ m) :
    (s.along σ m).inputEnded = true :=
  along_induct (P := fun t => t.inputEnded = true) hnm
    (fun l _ h => (step_remaining (along_orderly hs l) h (σ l)).1) ended

/-- From some time on the reader does nothing any more but sweep. -/
theorem exists_still (hs : s.Orderly) (ended : (s.along σ n).inputEnded = true) :
    ∃ m ≥ n, ∀ l ≥ m, (s.along σ l).reader = (s.along σ m).reader ∧
      (s.along σ l).input = (s.along σ m).input ∧
      ∀ r, σ l = .move (.reader r) → (s.along σ l).can (.reader r) = true → r = .sweep := by
  -- Where the least is left to do, no step can leave less.
  obtain ⟨-, ⟨m, hm, rfl⟩, hleast⟩ := WellFounded.has_min (@wellFounded_lt (ℕ ×ₗ ℕ ×ₗ ℕ) _ _)
    {r | ∃ m ≥ n, (s.along σ m).remaining = r} ⟨_, n, Nat.le_refl n, rfl⟩
  have hkeeps (l : Nat) (hl : m ≤ l) (reader : (s.along σ l).reader = (s.along σ m).reader)
      (input : (s.along σ l).input = (s.along σ m).input) :
      (s.along σ (l + 1)).reader = (s.along σ l).reader ∧ (s.along σ (l + 1)).input = (s.along σ l).input ∧
        ∀ r, σ l = .move (.reader r) → (s.along σ l).can (.reader r) = true → r = .sweep := by
    have hended := along_inputEnded hs ended (Nat.le_trans hm hl)
    rw [along_succ]
    rcases (step_remaining (along_orderly hs l) hended (σ l)).2 with less | same
    · have hsame : (s.along σ l).remaining = (s.along σ m).remaining := by
        rw [remaining, remaining, reader, input]
      rw [hsame, ← along_succ] at less
      exact absurd less (hleast _ ⟨l + 1, by omega, rfl⟩)
    · exact same
  have hstays (l : Nat) (hl : m ≤ l) :
      (s.along σ l).reader = (s.along σ m).reader ∧ (s.along σ l).input = (s.along σ m).input := by
    induction l, hl using Nat.le_induction with
    | base => exact ⟨rfl, rfl⟩
    | succ l hl ih =>
      obtain ⟨reader, input, -⟩ := hkeeps l hl ih.1 ih.2
      exact ⟨reader.trans ih.1, input.trans ih.2⟩
  refine ⟨m, hm, fun l hl => ⟨(hstays l hl).1, (hstays l hl).2, ?_⟩⟩
  exact (hkeeps l hl (hstays l hl).1 (hstays l hl).2).2.2

/-- In a fair run the reader comes to its end. -/
theorem exists_finished (hs : s.Orderly) (fair : s.Fair σ) : ∃ n, (s.along σ n).reader = .finished := by
  obtain ⟨last, hlast⟩ := fair.ends
  by_cases early : (s.along σ last).reader = .finished
  · exact ⟨last, early⟩
  have hended : (s.along σ (last + 1)).inputEnded = true := by
    rw [along_succ, hlast, step, feel]
    split
    · rfl
    · rename_i deaf
      simpa [listens, early] using deaf
  obtain ⟨flow, hflows⟩ := fair.flows
  obtain ⟨m, hm, hstill⟩ := exists_still hs hended
  -- Whatever the reader could still do all the time, it would do.
  have hidle (r : ReaderMove) (l : Nat) (hl : m ≤ l) (ne : r ≠ .sweep)
      (can : ∀ i ≥ l, (s.along σ i).can (.reader r) = true) : False := by
    obtain ⟨i, hi, hmove⟩ := fair.moves l r can
    exact ne ((hstill i (Nat.le_trans hl hi)).2.2 r hmove (can i hi))
  refine ⟨m, ?_⟩
  have hreader (l : Nat) (hl : m ≤ l) : (s.along σ l).reader = (s.along σ m).reader := (hstill l hl).1
  cases hstage : (s.along σ m).reader with
  | finished => rfl
  | waiting =>
    refine (hidle .read m (Nat.le_refl m) (by decide) fun i hi => ?_).elim
    simp [Session.can, readerCan, hreader i hi, hstage, along_inputEnded hs hended (Nat.le_trans hm hi)]
  | rejecting f =>
    refine (hidle .proceed (max m flow) (by omega) (by decide) fun i hi => ?_).elim
    simp [Session.can, readerCan, hreader i (by omega), hstage, hflows i (by omega)]
  | answering f k plan =>
    refine (hidle .proceed (max m flow) (by omega) (by decide) fun i hi => ?_).elim
    simp [Session.can, readerCan, hreader i (by omega), hstage, hflows i (by omega)]
  | working k plan =>
    refine (hidle .proceed m (Nat.le_refl m) (by decide) fun i hi => ?_).elim
    simp [Session.can, readerCan, hreader i hi, hstage]
  | pausing wake k plan =>
    obtain ⟨l, hl, hover⟩ := fair.wakes m wake k plan hstage
    refine (hidle .proceed l hl (by decide) fun i hi => ?_).elim
    simp [Session.can, readerCan, hreader i (by omega), hstage, hover i hi]
  | calling k p request =>
    obtain ⟨l, hl, plan, hbegin⟩ := fair.begins m k p request hstage
    have hcalling := (hreader l hl).trans hstage
    have hworking : (s.along σ (l + 1)).reader = .working k plan := by
      rw [along_succ, hbegin]
      simp only [step, feel, beginWork, hcalling]
    rw [hreader (l + 1) (by omega), hstage] at hworking
    cases hworking

end Session

end Smsc
