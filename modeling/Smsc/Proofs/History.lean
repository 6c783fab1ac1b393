import Mathlib.Data.Nat.Init

/-!
# Smsc.Proofs.History — the states along a list of steps

* `stateAt f s xs k`: the state before the `k`-th of the steps `xs`, from `s`;
* `stateAt_succ`, `stateAt_succ_of_none`: what the `k`-th step does, if there is one;
* `stateAt_until`: what holds goes on to hold until some step ends it; `stateAt_source`: what has come to
  hold was brought about by some step; `stateAt_induct`: what every step keeps, every stretch of steps keeps.
-/

namespace Smsc

variable {σ ι : Type} {f : σ → ι → σ} {s : σ} {xs : List ι} {k l : Nat}

/-- The state before the `k`-th step, or after the last. -/
def stateAt (f : σ → ι → σ) (s : σ) (xs : List ι) (k : Nat) : σ := (xs.take k).foldl f s

theorem stateAt_succ {x : ι} (h : xs[k]? = some x) :
    stateAt f s xs (k + 1) = f (stateAt f s xs k) x := by
  simp [stateAt, List.take_add_one, h]

theorem stateAt_succ_of_none (h : xs[k]? = none) : stateAt f s xs (k + 1) = stateAt f s xs k := by
  simp [stateAt, List.take_add_one, h]

theorem stateAt_length : stateAt f s xs xs.length = xs.foldl f s := by
  rw [stateAt, List.take_length]

/-- What holds before the `k`-th step still holds before the `l`-th, unless a step in between ended it. -/
theorem stateAt_until {P : σ → Prop} {Q : Nat → ι → Prop} (hkl : k ≤ l)
    (step : ∀ i x, k ≤ i → i < l → xs[i]? = some x → P (stateAt f s xs i) →
      P (f (stateAt f s xs i) x) ∨ Q i x)
    (h : P (stateAt f s xs k)) :
    P (stateAt f s xs l) ∨ ∃ i x, k ≤ i ∧ i < l ∧ xs[i]? = some x ∧ Q i x := by
  induction l, hkl using Nat.le_induction with
  | base => exact .inl h
  | succ l hkl ih =>
    rcases ih fun i x hki hil => step i x hki (by omega) with hl | ⟨i, x, hki, hil, hended⟩
    · cases hx : xs[l]? with
      | none => exact .inl (by rwa [stateAt_succ_of_none hx])
      | some x =>
        rcases step l x hkl (by omega) hx hl with hstill | hends
        · exact .inl (by rwa [stateAt_succ hx])
        · exact .inr ⟨l, x, hkl, by omega, hx, hends⟩
    · exact .inr ⟨i, x, hki, by omega, hended⟩

theorem stateAt_induct {P : σ → Prop} (hkl : k ≤ l)
    (step : ∀ i x, k ≤ i → i < l → xs[i]? = some x → P (stateAt f s xs i) →
      P (f (stateAt f s xs i) x))
    (h : P (stateAt f s xs k)) : P (stateAt f s xs l) := by
  have huntil := stateAt_until (Q := fun _ _ => False) hkl
    (fun i x hki hil hx hi => .inl (step i x hki hil hx hi)) h
  simpa using huntil

/-- What does not hold at first and holds before the `l`-th step was brought about by a step before it. -/
theorem stateAt_source {P : σ → Prop} {Q : Nat → ι → Prop}
    (step : ∀ i x, i < l → xs[i]? = some x → P (f (stateAt f s xs i) x) → P (stateAt f s xs i) ∨ Q i x)
    (first : ¬ P s) (h : P (stateAt f s xs l)) : ∃ i < l, ∃ x, xs[i]? = some x ∧ Q i x := by
  have ends (i : Nat) (x : ι) (hil : i < l) (hx : xs[i]? = some x) (hi : ¬ P (stateAt f s xs i)) :
      ¬ P (f (stateAt f s xs i) x) ∨ Q i x := by
    by_cases hstep : P (f (stateAt f s xs i) x)
    · exact .inr ((step i x hil hx hstep).resolve_left hi)
    · exact .inl hstep
  rcases stateAt_until (P := fun t => ¬ P t) (Nat.zero_le l) (fun i x _ => ends i x) first with
    hnot | ⟨i, x, -, hil, hx, hQ⟩
  · exact absurd h hnot
  · exact ⟨i, hil, x, hx, hQ⟩

end Smsc
