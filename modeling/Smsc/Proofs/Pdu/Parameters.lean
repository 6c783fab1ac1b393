import Smsc.Proofs.Pdu.Limits

/-!
# Smsc.Proofs.Pdu.Parameters — optional parameters in the order of their coming

Octets may bring a tag twice, and reading keeps both. Inserting looks for the first of its tag, so it
never makes a tag come twice, and never removes a repetition that was read either.

* `TlvMap.Inserts m t m'`: `t` takes the place of the first parameter of its tag, or comes at the end;
  `TlvMap.insert_inserts`, and what follows for tags, sizes, look-ups and the parameters of other tags;
* `TlvMap.insertAll`: one insertion after the other; `TlvMap.get?_insertAll`, `TlvMap.nodup_tags_insertAll`;
* `TlvMap.read_written`: parameters whose values fit come back from their octets, repetitions and all;
* `TlvMap.keeps_order`: all of it, for every map and every sequence of insertions.
-/

namespace Smsc.TlvMap

variable {m m' : TlvMap} {t : Tlv}

/-- The tags of the parameters, in their order. -/
def tags (m : TlvMap) : List UInt16 := m.entries.map (·.tag)

/-- The parameters of all tags but one, in their order. -/
def others (m : TlvMap) (tag : UInt16) : List Tlv := m.entries.filter (·.tag ≠ tag)

/-! ## One insertion -/

/-- From `m` to `m'` the parameter `t` comes in the place of the first of its tag, or at the end. -/
inductive Inserts (m : TlvMap) (t : Tlv) : TlvMap → Prop where
  | replaces (before : List Tlv) (e : Tlv) (after : List Tlv) (entries : m.entries = before ++ e :: after)
      (tag : e.tag = t.tag) (first : ∀ b ∈ before, b.tag ≠ t.tag) :
      Inserts m t ⟨before ++ t :: after⟩
  | appends (absent : ∀ e ∈ m.entries, e.tag ≠ t.tag) : Inserts m t ⟨m.entries ++ [t]⟩

theorem insertInto_inserts (t : Tlv) (es : List Tlv) : Inserts ⟨es⟩ t ⟨insertInto t es⟩ := by
  induction es with
  | nil => exact .appends (m := ⟨[]⟩) (by simp)
  | cons e es ih =>
    unfold insertInto
    by_cases htag : e.tag = t.tag
    · rw [if_pos htag]
      exact .replaces [] e es rfl htag (by simp)
    · rw [if_neg htag]
      generalize insertInto t es = es' at ih
      cases ih with
      | replaces before a after entries tag first =>
        obtain rfl : es = before ++ a :: after := entries
        exact .replaces (e :: before) a after rfl tag (by simpa [htag] using first)
      | appends absent => exact .appends (m := ⟨e :: es⟩) (by simpa [htag] using absent)

theorem insert_inserts (m : TlvMap) (t : Tlv) : m.Inserts t (m.insert t) :=
  insertInto_inserts t m.entries

namespace Inserts

/-- The parameter is found under its tag, and under other tags what was found before. -/
theorem get? (h : m.Inserts t m') (tag : UInt16) :
    m'.get? tag = if t.tag = tag then some t else m.get? tag := by
  unfold TlvMap.get?
  cases h with
  | replaces before e after entries htag first =>
    rw [entries, List.find?_append, List.find?_append, List.find?_cons, List.find?_cons, htag]
    by_cases heq : t.tag = tag
    · have hnone : before.find? (·.tag = tag) = none := by simpa [← heq] using first
      simp [hnone, heq]
    · simp [heq]
  | appends absent =>
    rw [List.find?_append, List.find?_singleton]
    by_cases heq : t.tag = tag
    · have hnone : m.entries.find? (·.tag = tag) = none := by simpa [← heq] using absent
      simp [hnone, heq]
    · simp [heq]

/-- A new tag comes at the end; a tag that is there stays where it is. -/
theorem tags (h : m.Inserts t m') : m'.tags = if t.tag ∈ m.tags then m.tags else m.tags ++ [t.tag] := by
  unfold TlvMap.tags
  cases h with
  | replaces before e after entries htag first => simp [entries, htag]
  | appends absent =>
    have hnew : t.tag ∉ m.entries.map (·.tag) := by simpa using absent
    rw [if_neg hnew, List.map_append]
    rfl

/-- What is not of the inserted tag stays, whatever else is looked at of it. -/
theorem filter (h : m.Inserts t m') {p : Tlv → Bool} (hp : ∀ e, e.tag = t.tag → p e = false) :
    m'.entries.filter p = m.entries.filter p := by
  cases h with
  | replaces before e after entries htag first => simp [entries, hp t rfl, hp e htag]
  | appends absent => simp [hp t rfl]

theorem others (h : m.Inserts t m') : m'.others t.tag = m.others t.tag :=
  h.filter fun e htag => by simp [htag]

theorem size (h : m.Inserts t m') : m'.size = if t.tag ∈ m.tags then m.size else m.size + 1 := by
  have hlength := congrArg List.length h.tags
  unfold TlvMap.tags at hlength ⊢
  rw [List.length_map] at hlength
  rw [TlvMap.size, hlength]
  split <;> simp [TlvMap.size]

theorem nodup_tags (h : m.Inserts t m') (distinct : m.tags.Nodup) : m'.tags.Nodup := by
  rw [h.tags]
  split
  · exact distinct
  · rename_i hnew
    refine List.nodup_append.mpr ⟨distinct, by simp, ?_⟩
    rintro tag hmem _ hsingle rfl
    obtain rfl := List.mem_singleton.mp hsingle
    exact hnew hmem

end Inserts

/-! ## One insertion after the other -/

/-- Inserts parameters one after the other. -/
def insertAll (m : TlvMap) (ts : List Tlv) : TlvMap := ts.foldl insert m

theorem insertAll_cons (m : TlvMap) (t : Tlv) (ts : List Tlv) :
    m.insertAll (t :: ts) = (m.insert t).insertAll ts := rfl

/-- Of a tag the value inserted last is found, or else what was found before. -/
theorem get?_insertAll (m : TlvMap) (ts : List Tlv) (tag : UInt16) :
    (m.insertAll ts).get? tag = (ts.reverse.find? (·.tag = tag)).or (m.get? tag) := by
  induction ts generalizing m with
  | nil => rfl
  | cons t ts ih =>
    rw [insertAll_cons, ih, (m.insert_inserts t).get? tag, List.reverse_cons, List.find?_append,
      List.find?_singleton, Option.or_assoc]
    by_cases heq : t.tag = tag <;> simp [heq]

theorem filter_insertAll (m : TlvMap) (ts : List Tlv) :
    (m.insertAll ts).entries.filter (fun e => ∀ t ∈ ts, e.tag ≠ t.tag) =
      m.entries.filter (fun e => ∀ t ∈ ts, e.tag ≠ t.tag) := by
  -- What is asked of the rest of the tags is weaker, so it is not the same for the induction.
  suffices h : ∀ p : Tlv → Bool, (∀ t ∈ ts, ∀ e, e.tag = t.tag → p e = false) →
      (m.insertAll ts).entries.filter p = m.entries.filter p by
    refine h _ fun t ht e htag => ?_
    simpa using ⟨t, ht, htag⟩
  intro p hp
  induction ts generalizing m with
  | nil => rfl
  | cons t ts ih =>
    rw [insertAll_cons, ih _ fun u hu => hp u (List.mem_cons_of_mem _ hu)]
    exact (m.insert_inserts t).filter (hp t List.mem_cons_self)

theorem nodup_tags_insertAll (distinct : m.tags.Nodup) (ts : List Tlv) : (m.insertAll ts).tags.Nodup := by
  induction ts generalizing m with
  | nil => exact distinct
  | cons t ts ih => exact ih ((m.insert_inserts t).nodup_tags distinct)

/-! ## On the wire -/

/-- Parameters have octets iff every value fits behind a length of two octets. -/
theorem writes_iff (m : TlvMap) :
    (∃ octets, Appends m.write (.ok ()) octets) ↔ ∀ e ∈ m.entries, e.value.length ≤ 65535 := by
  have hlays := m.write_lays
  have hparts : (∀ p ∈ m.parts, p.Fits) ↔ ∀ e ∈ m.entries, e.value.length ≤ 65535 := by
    simp [parts, Pdu.Part.Fits]
  unfold Lays at hlays
  rw [← hparts, ← Pdu.Part.findSome?_eq_none_iff]
  cases hfault : m.parts.findSome? Pdu.Part.fault? with
  | none =>
    rw [hfault] at hlays
    exact iff_of_true ⟨_, hlays⟩ rfl
  | some e =>
    rw [hfault] at hlays
    obtain ⟨written, hlays⟩ := hlays
    refine iff_of_false ?_ nofun
    rintro ⟨octets, hok⟩
    have hends := (hlays []).symm.trans (hok [])
    cases congrArg Prod.fst hends

/-- Octets that parameters were written as are read as the same parameters. -/
theorem read_written {octets : List UInt8} (h : Appends m.write (.ok ()) octets) :
    TlvMap.read octets = .ok (m, []) := by
  obtain ⟨octets', hout, hread⟩ := TlvMap.undoes m [] _ (h [])
  have hsame : octets = octets' := by simpa using hout
  rw [hsame, ← hread [] rfl, List.append_nil]

/-! ## All of it -/

/-- What comes of inserting `ts` into `m`, one after the other, and of one more insertion. -/
structure KeepsOrder (m : TlvMap) (ts : List Tlv) : Prop where
  /-- Of a tag the value inserted last is found, or else the first that was there. -/
  get : ∀ tag, (m.insertAll ts).get? tag =
    (ts.reverse.find? (·.tag = tag)).or (m.entries.find? (·.tag = tag))
  /-- The parameters of tags that were not inserted are the same, in the same order. -/
  untouched : (m.insertAll ts).entries.filter (fun e => ∀ t ∈ ts, e.tag ≠ t.tag) =
    m.entries.filter (fun e => ∀ t ∈ ts, e.tag ≠ t.tag)
  /-- One more takes the place of the first of its tag, or comes at the end if there is none. -/
  next : ∀ t, (m.insertAll ts).Inserts t (m.insertAll (ts ++ [t]))
  /-- It leaves the parameters of other tags alone. -/
  others : ∀ t, (m.insertAll (ts ++ [t])).others t.tag = (m.insertAll ts).others t.tag
  /-- A tag that is new comes behind the others, and then there is one parameter more. -/
  appended : ∀ t, t.tag ∉ (m.insertAll ts).tags →
    (m.insertAll (ts ++ [t])).entries = (m.insertAll ts).entries ++ [t]
  size : ∀ t, (m.insertAll (ts ++ [t])).size =
    if t.tag ∈ (m.insertAll ts).tags then (m.insertAll ts).size else (m.insertAll ts).size + 1
  /-- Tags that differ go on to differ. -/
  distinct : m.tags.Nodup → (m.insertAll ts).tags.Nodup
  /-- The parameters have octets iff all values fit, and then reading those gives them again. -/
  writes : (∃ octets, Appends (m.insertAll ts).write (.ok ()) octets) ↔
    ∀ e ∈ (m.insertAll ts).entries, e.value.length ≤ 65535
  reads : ∀ octets, Appends (m.insertAll ts).write (.ok ()) octets →
    TlvMap.read octets = .ok (m.insertAll ts, [])

/-- **Order**: whatever parameters were read, however often a tag came, and whatever is inserted into
them, they are kept in the order of their coming, on the wire as well. -/
theorem keeps_order (m : TlvMap) (ts : List Tlv) : m.KeepsOrder ts := by
  have hnext (t : Tlv) : (m.insertAll ts).Inserts t (m.insertAll (ts ++ [t])) := by
    have hlast : m.insertAll (ts ++ [t]) = (m.insertAll ts).insert t := List.foldl_append
    rw [hlast]
    exact insert_inserts _ t
  refine ⟨get?_insertAll m ts, filter_insertAll m ts, hnext, fun t => (hnext t).others, fun t hnew => ?_,
    fun t => (hnext t).size, fun distinct => nodup_tags_insertAll distinct ts, writes_iff _,
    fun octets h => read_written h⟩
  have happends := hnext t
  generalize m.insertAll (ts ++ [t]) = m' at happends
  cases happends with
  | replaces before e after entries tag first => simp [TlvMap.tags, entries, tag] at hnew
  | appends absent => rfl

/-- Of two parameters with one tag the first is replaced, and the second stays. -/
example : insertAll ⟨[⟨1, [10]⟩, ⟨2, [20]⟩, ⟨1, [11]⟩]⟩ [⟨3, []⟩, ⟨1, [12]⟩] =
    ⟨[⟨1, [12]⟩, ⟨2, [20]⟩, ⟨1, [11]⟩, ⟨3, []⟩]⟩ := by decide

end Smsc.TlvMap
