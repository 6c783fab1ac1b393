import Mathlib.Algebra.GroupWithZero.Nat
import Smsc.Proofs.Text.Utf8
import Smsc.Text.Numeral

/-!
# Smsc.Proofs.Text.Numeral — hexadecimal numbers that are read back

* `ofHex`: the number that digits spell;
* `IsHex width n s`: the text is the number `n`, with zeros in front up to `width` digits and no more;
* `isHex_hex`: such is the text of every number; `hex_injective`: so no two numbers have the same;
* `length_hex_le`, `IsHex.utf8ByteSize_eq`: how long it gets.
-/

namespace Smsc.Numeral

/-- The digits, by their value. -/
def hexDigits : List Char := "0123456789abcdef".toList

/-- The number that digits spell. -/
def ofHex (digits : List Char) : Nat := digits.foldl (fun n c => 16 * n + hexDigits.idxOf c) 0

/-- The text is `n` in lowercase hexadecimal, with zeros in front up to `width` digits and no more. -/
structure IsHex (width n : Nat) (s : String) : Prop where
  digits : ∀ c ∈ s.toList, c ∈ hexDigits
  value : ofHex s.toList = n
  width_le : width ≤ s.length
  /-- A text that is longer than it must be does not start with a zero. -/
  tight : width < s.length → s.toList.head? ≠ some '0'

theorem digitChar_mem {n : Nat} (h : n < 16) : n.digitChar ∈ hexDigits := by
  have hall : ∀ m : Fin 16, m.val.digitChar ∈ hexDigits := by decide
  exact hall ⟨n, h⟩

theorem idxOf_digitChar {n : Nat} (h : n < 16) : hexDigits.idxOf n.digitChar = n := by
  have hall : ∀ m : Fin 16, hexDigits.idxOf m.val.digitChar = m.val := by decide
  exact hall ⟨n, h⟩

theorem digitChar_ne_zero {n : Nat} (h : n < 16) (pos : 0 < n) : n.digitChar ≠ '0' := by
  have hall : ∀ m : Fin 16, 0 < m.val → m.val.digitChar ≠ '0' := by decide
  exact hall ⟨n, h⟩ pos

/-- The digits of a number from its first on: the number without its last digit goes first. -/
theorem toDigits_induct {P : Nat → List Char → Prop}
    (digit : ∀ n < 16, P n [n.digitChar])
    (append : ∀ n d, 0 < n → d < 16 → P n (Nat.toDigits 16 n) →
      P (16 * n + d) (Nat.toDigits 16 n ++ [d.digitChar])) (n : Nat) : P n (Nat.toDigits 16 n) := by
  induction n using Nat.strongRecOn with
  | ind n ih =>
    rw [Nat.toDigits_eq_if (by decide)]
    split
    · exact digit n ‹_›
    · have happend := append (n / 16) (n % 16) (by omega) (Nat.mod_lt n (by decide)) (ih _ (by omega))
      rwa [Nat.div_add_mod] at happend

theorem mem_toDigits {n : Nat} : ∀ c ∈ Nat.toDigits 16 n, c ∈ hexDigits := by
  refine toDigits_induct (P := fun _ cs => ∀ c ∈ cs, c ∈ hexDigits) (fun n h => ?_) (fun n d _ hd ih => ?_) n
  · exact List.forall_mem_singleton.mpr (digitChar_mem h)
  · exact List.forall_mem_append.mpr ⟨ih, List.forall_mem_singleton.mpr (digitChar_mem hd)⟩

theorem ofHex_append_singleton (cs : List Char) (c : Char) :
    ofHex (cs ++ [c]) = 16 * ofHex cs + hexDigits.idxOf c := by
  rw [ofHex, List.foldl_append]
  rfl

theorem ofHex_toDigits (n : Nat) : ofHex (Nat.toDigits 16 n) = n := by
  refine toDigits_induct (P := fun n cs => ofHex cs = n) (fun n h => ?_) (fun n d _ hd ih => ?_) n
  · rw [← List.nil_append [n.digitChar], ofHex_append_singleton, idxOf_digitChar h]
    exact Nat.zero_add n
  · rw [ofHex_append_singleton, ih, idxOf_digitChar hd]

/-- Only zero itself begins with a zero. -/
theorem head?_toDigits {n : Nat} (pos : 0 < n) : (Nat.toDigits 16 n).head? ≠ some '0' := by
  refine toDigits_induct (P := fun n cs => 0 < n → cs.head? ≠ some '0') (fun n h pos => ?_)
    (fun n d hn _ ih _ => ?_) n pos
  · simpa using digitChar_ne_zero h pos
  · have hhead := ih hn
    cases hcs : Nat.toDigits 16 n with
    | nil => exact absurd hcs Nat.toDigits_ne_nil
    | cons c cs => rwa [hcs] at hhead

/-- Zeros in front change nothing. -/
theorem ofHex_replicate (k : Nat) (cs : List Char) : ofHex (List.replicate k '0' ++ cs) = ofHex cs := by
  induction k with
  | zero => rfl
  | succ k ih => exact ih

theorem isHex_hex {width : Nat} (pos : 0 < width) (n : Nat) : IsHex width n (hex width n) := by
  have hlist : (hex width n).toList =
      List.replicate (width - (Nat.toDigits 16 n).length) '0' ++ Nat.toDigits 16 n := String.toList_ofList
  have hlength : (hex width n).length = (hex width n).toList.length := String.length_toList.symm
  rw [hlist, List.length_append, List.length_replicate] at hlength
  refine ⟨?_, ?_, by omega, fun hlong => ?_⟩
  · rw [hlist]
    exact List.forall_mem_append.mpr
      ⟨fun c hc => (List.eq_of_mem_replicate hc) ▸ by decide, mem_toDigits⟩
  · rw [hlist, ofHex_replicate, ofHex_toDigits]
  · have hnone : width - (Nat.toDigits 16 n).length = 0 := by omega
    have hn : 0 < n := by
      rcases Nat.eq_zero_or_pos n with rfl | hn
      · rw [Nat.toDigits_zero, List.length_singleton] at hlength
        omega
      · exact hn
    rw [hlist, hnone]
    exact head?_toDigits hn

/-- Past the width a number gets another digit with each power of sixteen. -/
theorem length_hex_le {width k n : Nat} (hwidth : width ≤ k) (hk : 0 < k) (h : n < 16 ^ k) :
    (hex width n).length ≤ k := by
  have hdigits := (Nat.length_toDigits_le_iff (b := 16) (by decide) hk).mpr h
  have hlength : (hex width n).length = (padded 16 width n).length := String.length_ofList
  rw [hlength, padded, List.leftpad, List.length_append, List.length_replicate]
  omega

/-- A digit takes one octet. -/
theorem IsHex.utf8ByteSize_eq {width n : Nat} {s : String} (h : IsHex width n s) :
    s.utf8ByteSize = s.length := by
  have hall : hexDigits.all (fun c => (Utf8.encodeChar c).length = 1) = true := by decide
  have hone : s.toList.map (fun c => (Utf8.encodeChar c).length) = List.replicate s.toList.length 1 :=
    List.map_eq_replicate_iff.mpr fun c hc => by simpa using List.all_eq_true.mp hall c (h.digits c hc)
  rw [← Utf8.length_encode, Utf8.encode, List.length_flatMap, hone, List.sum_replicate_nat, Nat.mul_one,
    String.length_toList]

/-- Different numbers have different texts, whatever width they are filled up to. -/
theorem hex_injective {width : Nat} (pos : 0 < width) : Function.Injective (hex width) := by
  intro m n h
  rw [← (isHex_hex pos m).value, h, (isHex_hex pos n).value]

/-- The ninth digit comes when eight are no longer enough. -/
example : hex 8 0xFFFFFFFF = "ffffffff" ∧ hex 8 0x100000000 = "100000000" := by decide

end Smsc.Numeral
