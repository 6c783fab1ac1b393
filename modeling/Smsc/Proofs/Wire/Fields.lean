import Smsc.Pdu.Tlv
import Smsc.Proofs.Text.Utf8

/-!
# Smsc.Proofs.Wire.Fields — what is read is what was written

A reader undoes a writer if it takes exactly the octets that the writer appends, and gives the value
they were written for. Bodies are sequences of fields, so both laws pass through sequences.

* `Undoes R r a w`: the reader `r` gives `a` from what `w` appends, before every rest with `R`;
  `Undoes.bind` for sequences;
* `Gives r P`: every value that `r` reads has `P`, and its faults are none of the length; `Gives.bind`;
* `TextField.undoes`, `TextField.gives`, `TlvMap.undoes`, `TlvMap.gives`: the fields themselves.
-/

namespace Smsc

variable {α β : Type}

/-- A text that a NUL can end. -/
def NulFree (s : String) : Prop := '\x00' ∉ s.toList

instance (s : String) : Decidable (NulFree s) := inferInstanceAs (Decidable (¬ _))

/-- A fault in a body; the length of the frame is judged elsewhere. -/
def CodecError.OfBody (e : CodecError) : Prop := ∀ length, e ≠ .invalidLength length

/-! ## Writers -/

theorem Writer.run_bind (w : Writer α) (k : α → Writer β) (buffer : List UInt8) :
    (w >>= k).run buffer = match (w.run buffer).1 with
      | .ok a => (k a).run (w.run buffer).2
      | .error e => (.error e, (w.run buffer).2) := by
  show (ExceptT.bindCont (fun a => k a) (w.run buffer).1 : StateM (List UInt8) _) (w.run buffer).2 = _
  cases (w.run buffer).1 <;> rfl

/-- A sequence that succeeds has succeeded in both parts. -/
theorem Writer.bind_ok {w : Writer α} {k : α → Writer β} {buffer out : List UInt8} {b : β}
    (h : (w >>= k).run buffer = (.ok b, out)) :
    ∃ a mid, w.run buffer = (.ok a, mid) ∧ (k a).run mid = (.ok b, out) := by
  rw [run_bind] at h
  generalize w.run buffer = rm at h ⊢
  obtain ⟨r, mid⟩ := rm
  cases r with
  | error e => cases h
  | ok a => exact ⟨a, mid, rfl, h⟩

theorem Writer.run_get_bind (k : List UInt8 → Writer β) (buffer : List UInt8) :
    (get >>= k).run buffer = (k buffer).run buffer := rfl

theorem Writer.run_octets_bind (octets : List UInt8) (k : Unit → Writer β) (buffer : List UInt8) :
    (Writer.octets octets >>= k).run buffer = (k ()).run (buffer ++ octets) := rfl

/-! ## Readers -/

theorem Reader.run_bind (r : Reader α) (k : α → Reader β) (octets : List UInt8) :
    (r >>= k) octets = match r octets with
      | .ok (a, rest) => k a rest
      | .error e => .error e := by
  change (r octets).bind (fun x => k x.1 x.2) = _
  cases r octets <;> rfl

/-- The reader `r` gives `a` from what the writer `w` appends, before every rest with `R`. -/
def Undoes (R : List UInt8 → Prop) (r : Reader α) (a : α) (w : Writer Unit) : Prop :=
  ∀ buffer out, w.run buffer = (.ok (), out) →
    ∃ octets, out = buffer ++ octets ∧ ∀ rest, R rest → r (octets ++ rest) = .ok (a, rest)

namespace Undoes

variable {R : List UInt8 → Prop} {r : Reader α} {a : α} {b : β} {w w' : Writer Unit}

theorem pure (a : α) : Undoes R (Pure.pure a : Reader α) a (Pure.pure ()) := by
  intro buffer out h
  cases h
  exact ⟨[], by simp, fun rest _ => rfl⟩

/-- One field, then the rest of the body. -/
theorem bind {k : α → Reader β} {k' : Unit → Writer Unit} (h : Undoes (fun _ => True) r a w)
    (hk : Undoes R (k a) b (k' ())) : Undoes R (r >>= k) b (w >>= k') := by
  intro buffer out hout
  obtain ⟨_, mid, hw, hk'⟩ := Writer.bind_ok hout
  obtain ⟨octets, rfl, hread⟩ := h buffer mid hw
  obtain ⟨octets', rfl, hread'⟩ := hk _ out hk'
  refine ⟨octets ++ octets', by rw [List.append_assoc], fun rest hrest => ?_⟩
  rw [Reader.run_bind, List.append_assoc, hread _ trivial]
  exact hread' rest hrest

/-- What is made of the value last read. -/
theorem map (g : α → β) (h : Undoes R r a w) : Undoes R (g <$> r) (g a) w := by
  intro buffer out hout
  obtain ⟨octets, rfl, hread⟩ := h buffer out hout
  refine ⟨octets, rfl, fun rest hrest => ?_⟩
  change (r (octets ++ rest)).bind (fun x => .ok (g x.1, x.2)) = _
  rw [hread rest hrest]
  rfl

/-- The last field: nothing is written after it. -/
theorem last {k : α → Reader β} (h : Undoes R r a w) (hk : ∀ rest, R rest → k a rest = .ok (b, rest)) :
    Undoes R (r >>= k) b w := by
  intro buffer out hout
  obtain ⟨octets, rfl, hread⟩ := h buffer out hout
  refine ⟨octets, rfl, fun rest hrest => ?_⟩
  rw [Reader.run_bind, hread rest hrest]
  exact hk rest hrest

theorem octet (part : String) (b : UInt8) : Undoes R (Reader.octet part) b (Writer.octet b) := by
  intro buffer out hout
  cases hout
  exact ⟨[b], rfl, fun rest _ => rfl⟩

end Undoes

/-- Every value that the reader gives has the property, and no fault of it is one of the length. -/
def Gives (r : Reader α) (P : α → Prop) : Prop :=
  ∀ octets, match r octets with
    | .ok (a, _) => P a
    | .error e => e.OfBody

namespace Gives

variable {r : Reader α} {P : α → Prop} {Q : β → Prop}

theorem ok (h : Gives r P) {octets rest : List UInt8} {a : α} (hr : r octets = .ok (a, rest)) : P a := by
  have := h octets
  rwa [hr] at this

theorem error (h : Gives r P) {octets : List UInt8} {e : CodecError} (hr : r octets = .error e) :
    e.OfBody := by
  have := h octets
  rwa [hr] at this

theorem mono {P' : α → Prop} (h : Gives r P) (hP : ∀ a, P a → P' a) : Gives r P' := by
  intro octets
  cases hr : r octets with
  | error e => exact h.error hr
  | ok x => exact hP x.1 (h.ok hr)

theorem pure {a : α} (h : P a) : Gives (Pure.pure a : Reader α) P := fun _ => h

theorem bind {k : α → Reader β} (h : Gives r P) (hk : ∀ a, P a → Gives (k a) Q) : Gives (r >>= k) Q := by
  intro octets
  rw [Reader.run_bind]
  cases hr : r octets with
  | error e => exact h.error hr
  | ok x => exact hk x.1 (h.ok hr) x.2

theorem map (g : α → β) (h : Gives r (fun a => Q (g a))) : Gives (g <$> r) Q := by
  intro octets
  change match (r octets).bind (fun x => .ok (g x.1, x.2)) with
    | .ok (b, _) => Q b
    | .error e => e.OfBody
  cases hr : r octets with
  | error e => exact h.error hr
  | ok x => exact h.ok hr

theorem octet (part : String) : Gives (Reader.octet part) (fun _ => True) := by
  intro octets
  cases octets with
  | nil => exact fun _ => nofun
  | cons b rest => trivial

theorem rest : Gives Reader.rest (fun _ => True) := fun _ => trivial

theorem get : Gives (get : Reader (List UInt8)) (fun _ => True) := fun _ => trivial

theorem set (octets : List UInt8) : Gives (set octets : Reader PUnit) (fun _ => True) := fun _ => trivial

theorem throw {e : CodecError} (h : e.OfBody) : Gives (throw e : Reader α) P := fun _ => h

end Gives

/-! ## Texts -/

/-- A NUL that follows octets without one ends the text there. -/
theorem takeWhile_nul {octets : List UInt8} (h : 0 ∉ octets) (rest : List UInt8) :
    (octets ++ 0 :: rest).takeWhile (· != 0) = octets ∧
      (octets ++ 0 :: rest).dropWhile (· != 0) = 0 :: rest := by
  have hall : ∀ b ∈ octets, (b != 0) = true := by
    intro b hb
    rw [bne_iff_ne]
    rintro rfl
    exact h hb
  constructor
  · rw [List.takeWhile_append_of_pos hall]
    simp
  · rw [List.dropWhile_append_of_pos hall]
    simp

namespace TextField

variable {R : List UInt8 → Prop} (field : TextField)

theorem undoes {s : String} (hs : NulFree s) : Undoes R (field.read) s (field.write s) := by
  intro buffer out hout
  unfold write at hout
  split at hout
  · rename_i hfits
    obtain ⟨_, mid, hmid, hout⟩ := Writer.bind_ok hout
    cases hmid
    cases hout
    refine ⟨Utf8.encode s ++ [0], List.append_assoc .., fun rest _ => ?_⟩
    have hzero : 0 ∉ Utf8.encode s := fun h => hs (Utf8.zero_mem_encode.mp h)
    obtain ⟨htake, hdrop⟩ := takeWhile_nul hzero rest
    have hlength : ¬ field.limit < (Utf8.encode s).length + 1 := Nat.not_lt.mpr hfits
    rw [List.append_assoc, List.singleton_append]
    simp only [read, htake, hdrop, if_neg hlength, Utf8.decode_encode]
  · cases hout

theorem gives : Gives field.read NulFree := by
  intro octets
  unfold read
  cases octets.dropWhile (· != 0) with
  | nil => exact fun _ => nofun
  | cons b rest =>
    dsimp only
    split
    · rename_i a mid h
      split at h
      · cases h
      · split at h
        · cases h
        · rename_i s hs
          cases h
          intro hnul
          have hzero := Utf8.zero_mem_encode.mpr hnul
          rw [Utf8.encode_of_decode hs] at hzero
          simpa using List.all_eq_true.mp List.all_takeWhile _ hzero
    · rename_i e h
      split at h
      · cases h
        exact fun _ => nofun
      · split at h
        · cases h
          exact fun _ => nofun
        · cases h

end TextField

/-! ## Optional parameters -/

/-- One parameter, whatever follows. -/
theorem TlvMap.parse_append {t : Tlv} (h : t.value.length ≤ 65535) (rest : List UInt8) :
    parse (Octets.ofUInt16 t.tag ++ Octets.ofUInt16 (.ofNat t.value.length) ++ t.value ++ rest) =
      (t :: ·) <$> parse rest := by
  have hlength : (UInt16.ofNat t.value.length).toNat = t.value.length := by
    rw [UInt16.toNat_ofNat', Nat.mod_eq_of_lt (by omega)]
  simp only [Octets.ofUInt16, List.cons_append, List.nil_append]
  rw [parse.eq_def]
  simp only [Octets.toUInt16_ofUInt16]
  simp only [hlength, List.take_left, List.drop_left, Nat.lt_irrefl, if_false]

theorem Tlv.write_ok {t : Tlv} {buffer out : List UInt8} (h : t.write.run buffer = (.ok (), out)) :
    t.value.length ≤ 65535 ∧
      out = buffer ++ (Octets.ofUInt16 t.tag ++ Octets.ofUInt16 (.ofNat t.value.length) ++ t.value) := by
  unfold write at h
  split at h
  · rename_i hlength
    obtain ⟨_, mid, hmid, h⟩ := Writer.bind_ok h
    obtain ⟨_, mid', hmid', h⟩ := Writer.bind_ok h
    cases hmid
    cases hmid'
    cases h
    exact ⟨hlength, by simp only [List.append_assoc]⟩
  · cases h

namespace TlvMap

theorem parse_forM {ts : List Tlv} {buffer out : List UInt8}
    (h : (ts.forM Tlv.write).run buffer = (.ok (), out)) :
    ∃ octets, out = buffer ++ octets ∧ parse octets = .ok ts := by
  induction ts generalizing buffer with
  | nil =>
    cases h
    exact ⟨[], by simp, by rw [parse]⟩
  | cons t ts ih =>
    obtain ⟨_, mid, hmid, h⟩ := Writer.bind_ok h
    obtain ⟨hlength, rfl⟩ := Tlv.write_ok hmid
    obtain ⟨octets, rfl, hparse⟩ := ih h
    refine ⟨_, List.append_assoc .., ?_⟩
    rw [parse_append hlength, hparse]
    rfl

theorem run_read (octets : List UInt8) :
    TlvMap.read octets = match parse octets with
      | .ok ts => .ok (⟨ts⟩, [])
      | .error e => .error e := by
  unfold read
  rw [Reader.run_bind]
  show ((liftM (parse octets) : Reader (List Tlv)) >>= fun ts => Pure.pure (⟨ts⟩ : TlvMap)) [] = _
  rw [Reader.run_bind]
  cases parse octets <;> rfl

/-- Parameters fill the rest of a body. -/
theorem undoes (m : TlvMap) : Undoes (· = []) TlvMap.read m m.write := by
  intro buffer out hout
  obtain ⟨octets, rfl, hparse⟩ := parse_forM hout
  refine ⟨octets, rfl, ?_⟩
  rintro rest rfl
  rw [List.append_nil, run_read, hparse]

theorem parse_error {octets : List UInt8} {e : CodecError} (h : parse octets = .error e) : e.OfBody := by
  fun_induction parse octets with
  | case1 => cases h
  | case2 t₁ t₂ l₁ l₂ rest tag length value hlength =>
    cases h
    exact fun _ => nofun
  | case3 t₁ t₂ l₁ l₂ rest tag length value hlength ih =>
    cases hrest : parse (rest.drop length) with
    | error e' =>
      rw [hrest] at h
      cases h
      exact ih hrest
    | ok ts =>
      rw [hrest] at h
      cases h
  | case4 =>
    cases h
    exact fun _ => nofun

theorem gives : Gives TlvMap.read (fun _ => True) := by
  intro octets
  rw [run_read]
  cases h : parse octets with
  | error e => exact parse_error h
  | ok ts => trivial

end TlvMap

end Smsc
