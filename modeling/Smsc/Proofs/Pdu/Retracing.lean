import Smsc.Proofs.Pdu.Appending

/-!
# Smsc.Proofs.Pdu.Retracing — what is read can be written as it was read

The limits that a reader checks are those that the writer checks, so nothing that was read is refused.

* `Retraces done r w`: the octets that `r` takes are those that `w` puts down for the value read, behind
  what `done` stands for; `Retraces.bind` for sequences;
* `Exhausts`: a reader that leaves nothing;
* `TextField.retraces`, `TlvMap.retraces`, `BindParameters.retraces`, `ShortMessage.retraces`: the fields
  and the bodies made of them.
-/

namespace Smsc

variable {α β : Type}

/-! ## Numbers -/

namespace Octets

theorem ofUInt16_toUInt16 (a b : UInt8) : ofUInt16 (toUInt16 a b) = [a, b] := by
  have ha := a.toNat_lt
  have hb := b.toNat_lt
  have hn : (toUInt16 a b).toNat = a.toNat * 256 + b.toNat := by
    rw [toUInt16, UInt16.toNat_ofNat', Nat.mod_eq_of_lt (by omega)]
  have h₁ : (a.toNat * 256 + b.toNat) / 256 = a.toNat := by omega
  have h₂ : (a.toNat * 256 + b.toNat) % 256 = b.toNat := by omega
  rw [ofUInt16, hn, h₁, h₂, UInt8.ofNat_toNat, UInt8.ofNat_toNat]

theorem ofUInt32_toUInt32 (a b c d : UInt8) : ofUInt32 (toUInt32 a b c d) = [a, b, c, d] := by
  have ha := a.toNat_lt
  have hb := b.toNat_lt
  have hc := c.toNat_lt
  have hd := d.toNat_lt
  have hn : (toUInt32 a b c d).toNat =
      a.toNat * 16777216 + b.toNat * 65536 + c.toNat * 256 + d.toNat := by
    rw [toUInt32, UInt32.toNat_ofNat', Nat.mod_eq_of_lt (by omega)]
  rw [ofUInt32, hn]
  generalize hsum : a.toNat * 16777216 + b.toNat * 65536 + c.toNat * 256 + d.toNat = n
  have h₁ : n / 16777216 = a.toNat := by omega
  have h₂ : n / 65536 % 256 = b.toNat := by omega
  have h₃ : n / 256 % 256 = c.toNat := by omega
  have h₄ : n % 256 = d.toNat := by omega
  rw [h₁, h₂, h₃, h₄, UInt8.ofNat_toNat, UInt8.ofNat_toNat, UInt8.ofNat_toNat, UInt8.ofNat_toNat]

end Octets

/-! ## Readers and writers -/

theorem Reader.bind_ok {r : Reader α} {k : α → Reader β} {octets rest : List UInt8} {b : β}
    (h : (r >>= k) octets = .ok (b, rest)) :
    ∃ a mid, r octets = .ok (a, mid) ∧ k a mid = .ok (b, rest) := by
  rw [run_bind] at h
  cases hr : r octets with
  | error e =>
    rw [hr] at h
    cases h
  | ok x =>
    rw [hr] at h
    exact ⟨x.1, x.2, rfl, h⟩

theorem Reader.octet_ok {part : String} {octets rest : List UInt8} {b : UInt8}
    (h : Reader.octet part octets = .ok (b, rest)) : octets = b :: rest := by
  cases octets with
  | nil => cases h
  | cons b' octets =>
    cases h
    rfl

/-- What the reader takes is what remains to be written for the value that it gives, `done` having
been written for what was read before. -/
def Retraces (done : Writer Unit → Writer Unit) (r : Reader α) (w : α → Writer Unit) : Prop :=
  ∀ octets a rest, r octets = .ok (a, rest) →
    ∃ taken more, octets = taken ++ rest ∧ w a = done more ∧ Appends more (.ok ()) taken

namespace Retraces

variable {done : Writer Unit → Writer Unit} {r : Reader α} {part : α → Writer Unit}
  {whole : β → Writer Unit}

/-- One field, then the rest of the body. -/
theorem bind {k : α → Reader β} (h : Retraces id r part)
    (hk : ∀ a, Retraces (fun more => done (part a >>= fun _ => more)) (k a) whole) :
    Retraces done (r >>= k) whole := by
  intro octets b rest hread
  obtain ⟨a, mid, hr, hrest⟩ := Reader.bind_ok hread
  obtain ⟨taken, _, rfl, rfl, happends⟩ := h octets a mid hr
  obtain ⟨taken', more, rfl, hwhole, hmore⟩ := hk a mid b rest hrest
  exact ⟨taken ++ taken', _, (List.append_assoc ..).symm, hwhole, happends.bind hmore⟩

/-- The last field. -/
theorem last {g : α → β} (h : Retraces id r part) (hg : ∀ a, whole (g a) = done (part a)) :
    Retraces done (r >>= fun a => pure (g a)) whole := by
  intro octets b rest hread
  obtain ⟨a, mid, hr, hrest⟩ := Reader.bind_ok hread
  cases hrest
  obtain ⟨taken, _, hsplit, rfl, happends⟩ := h octets a rest hr
  exact ⟨taken, _, hsplit, hg a, happends⟩

theorem octet (part : String) : Retraces id (Reader.octet part) Writer.octet := by
  intro octets a rest h
  cases octets with
  | nil => cases h
  | cons b octets =>
    cases h
    exact ⟨[a], _, rfl, rfl, .octet a⟩

end Retraces

/-! ## Fields -/

/-- A text is read up to the first NUL. -/
theorem TextField.read_ok {field : TextField} {octets rest : List UInt8} {s : String}
    (h : field.read octets = .ok (s, rest)) :
    field.Fits s ∧ 0 ∉ Utf8.encode s ∧ octets = Utf8.encode s ++ 0 :: rest := by
  have hnul : NulFree s := field.gives.ok h
  have hsplit := List.takeWhile_append_dropWhile (p := (· != 0)) (l := octets)
  have hhead := List.head?_dropWhile_not (· != 0) octets
  unfold read at h
  split at h
  · cases h
  · rename_i b more hdrop
    rw [hdrop] at hsplit hhead
    obtain rfl : b = 0 := by simpa using hhead
    dsimp only at h
    split at h
    · cases h
    · rename_i hlimit
      split at h
      · cases h
      · rename_i s' hs'
        cases h
        rw [← Utf8.encode_of_decode hs'] at hlimit hsplit
        exact ⟨Nat.le_of_not_lt hlimit, fun hzero => hnul (Utf8.zero_mem_encode.mp hzero), hsplit.symm⟩

theorem TextField.write_appends {field : TextField} {s : String} (h : field.Fits s) :
    Appends (field.write s) (.ok ()) (Utf8.encode s ++ [0]) := by
  unfold write
  rw [if_pos h]
  exact .bind (.octets _) (.octet 0)

theorem TextField.retraces (field : TextField) : Retraces id field.read field.write := by
  intro octets s rest h
  obtain ⟨hfits, -, rfl⟩ := TextField.read_ok h
  exact ⟨Utf8.encode s ++ [0], _, List.append_cons .., rfl, write_appends hfits⟩

theorem Address.retraces (field : TextField) :
    Retraces id (Address.read field) fun a => a.write field :=
  .bind (.octet _) fun _ => .bind (.octet _) fun _ => .last field.retraces fun _ => rfl

theorem BindParameters.retraces : Retraces id BindParameters.read BindParameters.write := by
  refine .bind (TextField.retraces _) fun _ => .bind (TextField.retraces _) fun _ =>
    .bind (TextField.retraces _) fun _ => ?_
  refine .bind (.octet _) fun _ => .bind (.octet _) fun _ => .bind (.octet _) fun _ => ?_
  exact .last (TextField.retraces _) fun _ => rfl

theorem shortMessageOctets_retraces : Retraces id readShortMessageOctets writeShortMessageOctets := by
  intro octets message rest h
  cases octets with
  | nil => cases h
  | cons l octets =>
    change (if (octets.take l.toNat).length < l.toNat then throw (.truncated "short_message")
      else (do set (octets.drop l.toNat); return octets.take l.toNat) : Reader (List UInt8)) octets = _ at h
    split at h
    · cases h
    · rename_i hlength
      cases h
      have hl := l.toNat_lt
      have hexact : (octets.take l.toNat).length = l.toNat := by
        rw [List.length_take] at hlength ⊢
        omega
      refine ⟨l :: octets.take l.toNat, writeShortMessageOctets (octets.take l.toNat), ?_, rfl, ?_⟩
      · rw [List.cons_append, List.take_append_drop]
      · unfold writeShortMessageOctets
        rw [if_pos (by omega), hexact, UInt8.ofNat_toNat]
        exact .bind (.octet l) (.octets _)

theorem TlvMap.parse_retraces (octets : List UInt8) :
    ∀ ts, parse octets = .ok ts → Appends (ts.forM Tlv.write) (.ok ()) octets := by
  fun_induction parse octets with
  | case1 =>
    intro ts h
    cases h
    exact .pure
  | case2 | case4 => exact fun ts h => by cases h
  | case3 t₁ t₂ l₁ l₂ rest tag length value hlength ih =>
    intro ts h
    cases hrest : parse (rest.drop length) with
    | error e =>
      rw [hrest] at h
      cases h
    | ok more =>
      rw [hrest] at h
      cases h
      have hl : length < 65536 := (Octets.toUInt16 l₁ l₂).toNat_lt
      have hexact : value.length = length := by
        rw [List.length_take] at hlength ⊢
        omega
      have hcode : UInt16.ofNat value.length = Octets.toUInt16 l₁ l₂ := by rw [hexact, UInt16.ofNat_toNat]
      have hwrite : Appends (Tlv.mk tag value).write (.ok ()) ([t₁, t₂] ++ ([l₁, l₂] ++ value)) := by
        unfold Tlv.write
        dsimp only
        rw [if_pos (by omega), hcode, Octets.ofUInt16_toUInt16, Octets.ofUInt16_toUInt16]
        exact .bind (.octets _) (.bind (.octets _) (.octets _))
      have hall := hwrite.bind (k := fun _ => more.forM Tlv.write) (ih more hrest)
      rw [List.append_assoc, List.append_assoc, List.take_append_drop] at hall
      exact hall

/-- Nothing is left behind what the reader takes. -/
def Exhausts (r : Reader α) : Prop := ∀ octets a rest, r octets = .ok (a, rest) → rest = []

namespace Exhausts

variable {r : Reader α}

theorem bind {k : α → Reader β} (hk : ∀ a, Exhausts (k a)) : Exhausts (r >>= k) := by
  intro octets b rest h
  obtain ⟨a, mid, -, hrest⟩ := Reader.bind_ok h
  exact hk a mid b rest hrest

theorem last {g : α → β} (h : Exhausts r) : Exhausts (r >>= fun a => pure (g a)) := by
  intro octets b rest hread
  obtain ⟨a, mid, hr, hrest⟩ := Reader.bind_ok hread
  cases hrest
  exact h octets a rest hr

end Exhausts

theorem TlvMap.read_ok {octets rest : List UInt8} {m : TlvMap} (h : TlvMap.read octets = .ok (m, rest)) :
    parse octets = .ok m.entries ∧ rest = [] := by
  rw [run_read] at h
  cases hparse : parse octets with
  | error e =>
    rw [hparse] at h
    cases h
  | ok ts =>
    rw [hparse] at h
    cases h
    exact ⟨rfl, rfl⟩

theorem TlvMap.exhausts : Exhausts TlvMap.read := fun _ _ _ h => (TlvMap.read_ok h).2

/-- The parameters of a body are written as they were read, also if a tag comes twice. -/
theorem TlvMap.retraces : Retraces id TlvMap.read TlvMap.write := by
  intro octets m rest h
  obtain ⟨hparse, rfl⟩ := TlvMap.read_ok h
  exact ⟨octets, _, (List.append_nil _).symm, rfl, parse_retraces octets m.entries hparse⟩

theorem ShortMessage.retraces : Retraces id ShortMessage.read ShortMessage.write := by
  refine .bind (TextField.retraces _) fun _ => .bind (Address.retraces _) fun _ =>
    .bind (Address.retraces _) fun _ => ?_
  refine .bind (.octet _) fun _ => .bind (.octet _) fun _ => .bind (.octet _) fun _ => ?_
  refine .bind (TextField.retraces _) fun _ => .bind (TextField.retraces _) fun _ => ?_
  refine .bind (.octet _) fun _ => .bind (.octet _) fun _ => .bind (.octet _) fun _ =>
    .bind (.octet _) fun _ => ?_
  exact .bind shortMessageOctets_retraces fun _ => .last TlvMap.retraces fun _ => rfl

theorem ShortMessage.exhausts : Exhausts ShortMessage.read := by
  refine .bind fun _ => .bind fun _ => .bind fun _ => .bind fun _ => .bind fun _ => .bind fun _ => ?_
  refine .bind fun _ => .bind fun _ => .bind fun _ => .bind fun _ => .bind fun _ => .bind fun _ => ?_
  exact .bind fun _ => .last TlvMap.exhausts

end Smsc
