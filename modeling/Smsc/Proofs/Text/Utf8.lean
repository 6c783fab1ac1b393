import Smsc.Text.Utf8

/-!
# Smsc.Proofs.Text.Utf8 — texts and octets determine each other

A character has exactly one form in octets: overlong forms and surrogates are no text.

* `Spells c octets`: the four forms, `spells_encodeChar`, `Spells.eq_encodeChar`;
* `decode_encode`: the octets of a text are read as the text;
* `encode_of_decode`: octets that are read are the octets of what was read;
* `zero_mem_encode`: the only character with a zero octet is NUL;
* `length_encode`: how many octets a text takes.
-/

namespace Smsc.Utf8

/-! ## The forms of a character -/

/-- The octets are one of the four forms, and the character is the number the form stands for. -/
inductive Spells (c : Char) : List UInt8 → Prop where
  | one (a : UInt8) (first : a.toNat < 0x80) (value : c.toNat = a.toNat) : Spells c [a]
  | two (a b : UInt8) (first : 0xC2 ≤ a.toNat ∧ a.toNat ≤ 0xDF) (second : isTail b = true)
      (value : c.toNat = (a.toNat - 0xC0) * 0x40 + (b.toNat - 0x80)) : Spells c [a, b]
  | three (a b d : UInt8) (first : 0xE0 ≤ a.toNat ∧ a.toNat ≤ 0xEF) (second : isSecondOfThree a b = true)
      (third : isTail d = true)
      (value : c.toNat = (a.toNat - 0xE0) * 0x1000 + (b.toNat - 0x80) * 0x40 + (d.toNat - 0x80)) :
      Spells c [a, b, d]
  | four (a b d e : UInt8) (first : 0xF0 ≤ a.toNat ∧ a.toNat ≤ 0xF4) (second : isSecondOfFour a b = true)
      (third : isTail d = true) (fourth : isTail e = true)
      (value : c.toNat = (a.toNat - 0xF0) * 0x40000 + (b.toNat - 0x80) * 0x1000 +
        (d.toNat - 0x80) * 0x40 + (e.toNat - 0x80)) : Spells c [a, b, d, e]

theorem isTail_iff {b : UInt8} : isTail b = true ↔ 0x80 ≤ b.toNat ∧ b.toNat ≤ 0xBF := by
  simp [isTail]

theorem isSecondOfThree_iff {a b : UInt8} : isSecondOfThree a b = true ↔
    (a.toNat = 0xE0 → 0xA0 ≤ b.toNat) ∧ (a.toNat = 0xED → b.toNat ≤ 0x9F) ∧
      0x80 ≤ b.toNat ∧ b.toNat ≤ 0xBF := by
  unfold isSecondOfThree isTail
  split
  · simp only [Bool.and_eq_true, decide_eq_true_eq]
    omega
  · split <;> simp only [Bool.and_eq_true, decide_eq_true_eq] <;> omega

theorem isSecondOfFour_iff {a b : UInt8} : isSecondOfFour a b = true ↔
    (a.toNat = 0xF0 → 0x90 ≤ b.toNat) ∧ (a.toNat = 0xF4 → b.toNat ≤ 0x8F) ∧
      0x80 ≤ b.toNat ∧ b.toNat ≤ 0xBF := by
  unfold isSecondOfFour isTail
  split
  · simp only [Bool.and_eq_true, decide_eq_true_eq]
    omega
  · split <;> simp only [Bool.and_eq_true, decide_eq_true_eq] <;> omega

theorem spells_encodeChar (c : Char) : Spells c (encodeChar c) := by
  have hvalid : c.toNat < 0xD800 ∨ 0xDFFF < c.toNat ∧ c.toNat < 0x110000 := c.valid
  unfold encodeChar
  dsimp only
  split
  · refine .one _ ?_ ?_ <;> simp only [UInt8.toNat_ofNat'] <;> omega
  · split
    · refine .two _ _ ?_ (isTail_iff.mpr ?_) ?_ <;> simp only [UInt8.toNat_ofNat'] <;> omega
    · split
      · refine .three _ _ _ ?_ (isSecondOfThree_iff.mpr ?_) (isTail_iff.mpr ?_) ?_ <;>
          simp only [UInt8.toNat_ofNat'] <;> omega
      · refine .four _ _ _ _ ?_ (isSecondOfFour_iff.mpr ?_) (isTail_iff.mpr ?_) (isTail_iff.mpr ?_) ?_ <;>
          simp only [UInt8.toNat_ofNat'] <;> omega

/-- No character is spelled in two ways. -/
theorem Spells.eq_encodeChar {c : Char} {octets : List UInt8} (h : Spells c octets) :
    octets = encodeChar c := by
  -- The number of the character determines each octet of its form.
  have octet {a : UInt8} {n : Nat} (h : a.toNat = n) : a = UInt8.ofNat n := by
    rw [← h, UInt8.ofNat_toNat]
  unfold encodeChar
  cases h with
  | one a first value =>
    rw [if_pos (by omega), octet value.symm]
  | two a b first second value =>
    have := isTail_iff.mp second
    rw [if_neg (by omega), if_pos (by omega)]
    simp only [List.cons.injEq, and_true]
    exact ⟨octet (by omega), octet (by omega)⟩
  | three a b d first second third value =>
    have := isSecondOfThree_iff.mp second
    have := isTail_iff.mp third
    rw [if_neg (by omega), if_neg (by omega), if_pos (by omega)]
    simp only [List.cons.injEq, and_true]
    exact ⟨octet (by omega), octet (by omega), octet (by omega)⟩
  | four a b d e first second third fourth value =>
    have := isSecondOfFour_iff.mp second
    have := isTail_iff.mp third
    have := isTail_iff.mp fourth
    rw [if_neg (by omega), if_neg (by omega), if_neg (by omega)]
    simp only [List.cons.injEq, and_true]
    exact ⟨octet (by omega), octet (by omega), octet (by omega), octet (by omega)⟩

theorem Spells.zero_mem {c : Char} {octets : List UInt8} (h : Spells c octets) (hzero : 0 ∈ octets) :
    c.toNat = 0 := by
  obtain ⟨z, hz, hmem⟩ : ∃ z : UInt8, z.toNat = 0 ∧ z ∈ octets := ⟨0, rfl, hzero⟩
  cases h with
  | one a first value =>
    obtain rfl : z = a := by simpa using hmem
    omega
  | two a b first second value =>
    have := isTail_iff.mp second
    obtain rfl | rfl : z = a ∨ z = b := by simpa using hmem
    all_goals omega
  | three a b d first second third value =>
    have := isSecondOfThree_iff.mp second
    have := isTail_iff.mp third
    obtain rfl | rfl | rfl : z = a ∨ z = b ∨ z = d := by simpa using hmem
    all_goals omega
  | four a b d e first second third fourth value =>
    have := isSecondOfFour_iff.mp second
    have := isTail_iff.mp third
    have := isTail_iff.mp fourth
    obtain rfl | rfl | rfl | rfl : z = a ∨ z = b ∨ z = d ∨ z = e := by simpa using hmem
    all_goals omega

/-! ## Reading -/

/-- What spells a character is read as the character, whatever follows. -/
theorem Spells.decodeFrom_append {c : Char} {octets : List UInt8} (h : Spells c octets) (start : Nat)
    (rest : List UInt8) :
    decodeFrom start (octets ++ rest) = (c :: ·) <$> decodeFrom (start + octets.length) rest := by
  have hc := Char.ofNat_toNat c
  cases h with
  | one a first value =>
    rw [value] at hc
    rw [List.cons_append, decodeFrom.eq_def]
    simp [first, hc]
  | two a b first second value =>
    rw [value] at hc
    rw [List.cons_append, decodeFrom.eq_def]
    simp [first, second, hc, show ¬ a.toNat < 128 by omega]
  | three a b d first second third value =>
    rw [value] at hc
    rw [List.cons_append, decodeFrom.eq_def]
    simp [first, second, third, hc, show ¬ a.toNat < 128 by omega, show ¬ a.toNat ≤ 223 by omega]
  | four a b d e first second third fourth value =>
    rw [value] at hc
    rw [List.cons_append, decodeFrom.eq_def]
    simp [first, second, third, fourth, hc, show ¬ a.toNat < 128 by omega,
      show ¬ a.toNat ≤ 223 by omega, show ¬ a.toNat ≤ 239 by omega]

theorem decodeFrom_flatMap (start : Nat) (cs : List Char) :
    decodeFrom start (cs.flatMap encodeChar) = .ok cs := by
  induction cs generalizing start with
  | nil => simp [decodeFrom]
  | cons c cs ih =>
    rw [List.flatMap_cons, (spells_encodeChar c).decodeFrom_append, ih]
    rfl

theorem toNat_ofNat {n : Nat} (h : n < 0xD800 ∨ 0xDFFF < n ∧ n < 0x110000) : (Char.ofNat n).toNat = n := by
  have hvalid : n.isValidChar := h
  have heq : Char.ofNat n = Char.ofNatAux n hvalid := dif_pos hvalid
  rw [heq]
  rfl

/-- A character was read, and then the rest. -/
theorem flatMap_of_map {start n : Nat} {octets rest : List UInt8} {cs : List Char}
    (h : (Char.ofNat n :: ·) <$> decodeFrom start rest = .ok cs)
    (ih : ∀ {cs : List Char}, decodeFrom start rest = .ok cs → cs.flatMap encodeChar = rest)
    (spells : Spells (Char.ofNat n) octets) : cs.flatMap encodeChar = octets ++ rest := by
  cases hrest : decodeFrom start rest with
  | error e =>
    rw [hrest] at h
    cases h
  | ok ds =>
    rw [hrest] at h
    cases h
    rw [List.flatMap_cons, spells.eq_encodeChar, ih hrest]

/-- Only the cases that go on after a character give a text; their tests make it one of the forms. -/
theorem flatMap_of_decodeFrom {start : Nat} {octets : List UInt8} {cs : List Char}
    (h : decodeFrom start octets = .ok cs) : cs.flatMap encodeChar = octets := by
  fun_induction decodeFrom start octets generalizing cs with
  | case1 start =>
    cases h
    rfl
  | case2 start a rest first ih =>
    exact flatMap_of_map h ih (.one a first (toNat_ofNat (by omega)))
  | case4 start a _ first b rest second ih =>
    have hfirst : 0xC2 ≤ a.toNat ∧ a.toNat ≤ 0xDF := by simpa using first
    have := isTail_iff.mp second
    exact flatMap_of_map h ih (.two a b hfirst second (toNat_ofNat (by omega)))
  | case8 start a _ _ first b second d rest third ih =>
    have hfirst : 0xE0 ≤ a.toNat ∧ a.toNat ≤ 0xEF := by simpa using first
    have := isSecondOfThree_iff.mp second
    have := isTail_iff.mp third
    exact flatMap_of_map h ih (.three a b d hfirst second third (toNat_ofNat (by omega)))
  | case14 start a _ _ _ first b second d third e rest fourth ih =>
    have hfirst : 0xF0 ≤ a.toNat ∧ a.toNat ≤ 0xF4 := by simpa using first
    have := isSecondOfFour_iff.mp second
    have := isTail_iff.mp third
    have := isTail_iff.mp fourth
    exact flatMap_of_map h ih (.four a b d e hfirst second third fourth (toNat_ofNat (by omega)))
  | _ => cases h

/-! ## Texts -/

theorem decode_encode (s : String) : decode (encode s) = .ok s := by
  rw [decode, encode, decodeFrom_flatMap]
  show Except.ok (String.ofList s.toList) = _
  rw [String.ofList_toList]

theorem encode_of_decode {octets : List UInt8} {s : String} (h : decode octets = .ok s) :
    encode s = octets := by
  unfold decode at h
  cases hcs : decodeFrom 0 octets with
  | error e =>
    rw [hcs] at h
    cases h
  | ok cs =>
    rw [hcs] at h
    cases h
    rw [encode, String.toList_ofList, flatMap_of_decodeFrom hcs]

theorem zero_mem_encodeChar {c : Char} : 0 ∈ encodeChar c ↔ c = '\x00' := by
  constructor
  · intro h
    exact Char.toNat_inj.mp ((spells_encodeChar c).zero_mem h)
  · rintro rfl
    decide

theorem zero_mem_encode {s : String} : 0 ∈ encode s ↔ '\x00' ∈ s.toList := by
  simp only [encode, List.mem_flatMap, zero_mem_encodeChar, exists_eq_right]

/-! ## Lengths -/

/-- A character takes as many octets as its number needs. -/
theorem length_encodeChar (c : Char) : (encodeChar c).length = c.utf8Size := by
  have hle (n : UInt32) : c.val ≤ n ↔ c.toNat ≤ n.toNat := UInt32.le_iff_toNat_le
  simp only [Char.utf8Size, hle, encodeChar, UInt32.toNat_ofNatLT]
  by_cases hone : c.toNat < 0x80
  · rw [if_pos hone, if_pos (by omega)]
    rfl
  by_cases htwo : c.toNat < 0x800
  · rw [if_neg hone, if_pos htwo, if_neg (by omega), if_pos (by omega)]
    rfl
  by_cases hthree : c.toNat < 0x10000
  · rw [if_neg hone, if_neg htwo, if_pos hthree, if_neg (by omega), if_neg (by omega), if_pos (by omega)]
    rfl
  · rw [if_neg hone, if_neg htwo, if_neg hthree, if_neg (by omega), if_neg (by omega), if_neg (by omega)]
    rfl

theorem length_encode (s : String) : (encode s).length = s.utf8ByteSize := by
  have hlist (cs : List Char) : (cs.flatMap encodeChar).length = (String.ofList cs).utf8ByteSize := by
    induction cs with
    | nil => rfl
    | cons c cs ih =>
      rw [List.flatMap_cons, List.length_append, length_encodeChar, ih, String.ofList_cons,
        String.utf8ByteSize_append, String.utf8ByteSize_singleton]
  rw [encode, hlist, String.ofList_toList]

end Smsc.Utf8
