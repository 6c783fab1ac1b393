import Mathlib.Data.List.Nodup
import Mathlib.Data.List.Perm.Basic
import Smsc.Registry

/-!
# Smsc.Proofs.Registry — a registry under keys that are all different

* `find?_eq_some`, `find?_eq_none`: looking up is membership;
* `erase_perm`: one less, when the key is there; `insert_perm`: one more, when the key is new. Where it is
  put does not matter for that, nor how keys are compared.
-/

namespace Smsc.Registry

variable {κ α : Type} {r : Registry κ α} {k : κ} {a b : α} {e : κ × α}

/-- No two things are under one key. -/
def Distinct (r : Registry κ α) : Prop := r.keys.Nodup

theorem mem_keys (he : e ∈ r.entries) : e.1 ∈ r.keys := List.mem_map_of_mem he

theorem Distinct.eq (h : r.Distinct) (ha : (k, a) ∈ r.entries) (hb : (k, b) ∈ r.entries) : a = b :=
  congrArg Prod.snd (List.inj_on_of_nodup_map h ha hb rfl)

variable [DecidableEq κ]

/-! ## Looking up -/

theorem find?_eq_some (h : r.Distinct) : r.find? k = some a ↔ (k, a) ∈ r.entries := by
  obtain ⟨es⟩ := r
  show es.lookup k = some a ↔ (k, a) ∈ es
  change (es.map (·.1)).Nodup at h
  induction es with
  | nil => simp
  | cons x xs ih =>
    obtain ⟨l, b⟩ := x
    rw [List.map_cons, List.nodup_cons] at h
    rw [List.lookup_cons, List.mem_cons]
    by_cases hk : k = l
    · subst hk
      have hnot : (k, a) ∉ xs := fun hmem => h.1 (show k ∈ xs.map (·.1) from List.mem_map_of_mem hmem)
      simp [hnot, eq_comm]
    · have hbeq : (k == l) = false := beq_false_of_ne hk
      simp [hbeq, hk, ih h.2]

theorem find?_eq_none : r.find? k = none ↔ k ∉ r.keys := by
  obtain ⟨es⟩ := r
  show es.lookup k = none ↔ k ∉ es.map (·.1)
  induction es with
  | nil => simp
  | cons x xs ih =>
    obtain ⟨l, b⟩ := x
    rw [List.lookup_cons, List.map_cons, List.mem_cons]
    by_cases hk : k = l
    · simp [hk]
    · have hbeq : (k == l) = false := beq_false_of_ne hk
      simp [hbeq, hk, ih]

theorem contains_eq_true : r.contains k = true ↔ k ∈ r.keys := by
  rw [contains, ← not_iff_not, ← find?_eq_none, Bool.not_eq_true, Option.isSome_eq_false_iff,
    Option.isNone_iff_eq_none]

/-! ## Taking out -/

theorem mem_erase : e ∈ (r.erase k).entries ↔ e ∈ r.entries ∧ e.1 ≠ k := by
  simp [erase]

theorem mem_keys_erase {l : κ} : l ∈ (r.erase k).keys ↔ l ∈ r.keys ∧ l ≠ k := by
  unfold keys
  simp only [List.mem_map, mem_erase]
  constructor
  · rintro ⟨e, ⟨he, hne⟩, rfl⟩
    exact ⟨⟨e, he, rfl⟩, hne⟩
  · rintro ⟨⟨e, he, rfl⟩, hne⟩
    exact ⟨e, ⟨he, hne⟩, rfl⟩

theorem Distinct.erase (h : r.Distinct) (k : κ) : (r.erase k).Distinct :=
  List.Nodup.sublist (List.filter_sublist.map _) h

theorem erase_of_notMem (hk : k ∉ r.keys) : r.erase k = r := by
  obtain ⟨es⟩ := r
  refine congrArg Registry.mk (List.filter_eq_self.mpr fun e he => ?_)
  simpa using fun heq : e.1 = k => hk (heq ▸ List.mem_map_of_mem he)

/-- When one thing is taken out, the others are left. -/
theorem erase_perm (h : r.Distinct) (hk : (k, a) ∈ r.entries) :
    r.entries.Perm ((k, a) :: (r.erase k).entries) := by
  obtain ⟨es⟩ := r
  induction es with
  | nil => cases hk
  | cons x xs ih =>
    obtain ⟨l, b⟩ := x
    have hnodup : l ∉ xs.map (·.1) ∧ (xs.map (·.1)).Nodup := List.nodup_cons.mp h
    by_cases hl : l = k
    · subst hl
      obtain rfl := h.eq hk List.mem_cons_self
      have hrest : (erase ⟨xs⟩ l).entries = xs := congrArg entries (erase_of_notMem (r := ⟨xs⟩) hnodup.1)
      have hhead : (erase ⟨(l, a) :: xs⟩ l).entries = (erase ⟨xs⟩ l).entries := by simp [erase]
      rw [hhead, hrest]
    · have hmem : (k, a) ∈ xs := (List.mem_cons.mp hk).resolve_left fun heq => hl (congrArg Prod.fst heq).symm
      have hhead : (erase ⟨(l, b) :: xs⟩ k).entries = (l, b) :: (erase ⟨xs⟩ k).entries := by simp [erase, hl]
      rw [hhead]
      exact ((ih hnodup.2 hmem).cons _).trans (.swap ..)

theorem size_erase (h : r.Distinct) (hk : (k, a) ∈ r.entries) : (r.erase k).size + 1 = r.size :=
  (erase_perm h hk).length_eq.symm

/-! ## Putting in -/

variable [LT κ] [DecidableLT κ]

theorem insertInto_perm (k : κ) (a : α) (es : List (κ × α)) (fresh : ∀ e ∈ es, e.1 ≠ k) :
    (insertInto k a es).Perm ((k, a) :: es) := by
  induction es with
  | nil => exact .refl _
  | cons x xs ih =>
    obtain ⟨l, b⟩ := x
    have hl : l ≠ k := fresh _ List.mem_cons_self
    rw [insertInto, if_neg hl]
    split
    · exact .refl _
    · exact ((ih fun e he => fresh e (List.mem_cons_of_mem _ he)).cons _).trans (.swap ..)

theorem mem_of_mem_insert (h : e ∈ (r.insert k a).entries) : e = (k, a) ∨ e ∈ r.entries := by
  obtain ⟨es⟩ := r
  change e ∈ insertInto k a es at h
  show e = (k, a) ∨ e ∈ es
  induction es with
  | nil => exact .inl (List.mem_singleton.mp h)
  | cons x xs ih =>
    rw [insertInto] at h
    split at h
    · exact (List.mem_cons.mp h).imp_right (List.mem_cons_of_mem _)
    · split at h
      · exact List.mem_cons.mp h
      · rcases List.mem_cons.mp h with rfl | h
        · exact .inr List.mem_cons_self
        · exact (ih h).imp_right (List.mem_cons_of_mem _)

/-- When a thing is put in under a new key, the others stay. -/
theorem insert_perm (fresh : k ∉ r.keys) : (r.insert k a).entries.Perm ((k, a) :: r.entries) :=
  insertInto_perm k a r.entries fun _ he heq => fresh (heq ▸ List.mem_map_of_mem he)

theorem mem_insert (fresh : k ∉ r.keys) : e ∈ (r.insert k a).entries ↔ e = (k, a) ∨ e ∈ r.entries :=
  (insert_perm fresh).mem_iff.trans List.mem_cons

theorem keys_insert (fresh : k ∉ r.keys) : (r.insert k a).keys.Perm (k :: r.keys) :=
  (insert_perm fresh).map _

theorem Distinct.insert (h : r.Distinct) (fresh : k ∉ r.keys) (a : α) : (r.insert k a).Distinct :=
  (keys_insert fresh).nodup_iff.mpr (List.nodup_cons.mpr ⟨fresh, h⟩)

theorem size_insert (fresh : k ∉ r.keys) : (r.insert k a).size = r.size + 1 :=
  (insert_perm fresh).length_eq

end Smsc.Registry
