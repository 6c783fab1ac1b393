import Smsc.Pdu.Framing

/-!
# Smsc.Proofs.Pdu.Taken — what the front of a buffer gives

* `readHeader_isSome`, `readHeader_append`: a header is there as soon as its octets are;
* `Takes buffer taken`, `take?_takes`: the five things that `Frame.take?` can find;
* `take?_append_frame`, `take?_append_fault`: what is found is found again when more octets follow.
-/

namespace Smsc.Frame

variable {buffer : List UInt8}

/-! ## The header -/

theorem readHeader_length {length : Nat} {header : Header} (h : readHeader buffer = some (length, header)) :
    headerLength ≤ buffer.length := by
  unfold readHeader at h
  split at h
  · simp [headerLength]
  · simp at h

theorem readHeader_isSome (h : headerLength ≤ buffer.length) : (readHeader buffer).isSome = true := by
  unfold headerLength at h
  rcases buffer with _ | ⟨l₁, _ | ⟨l₂, _ | ⟨l₃, _ | ⟨l₄, _ | ⟨c₁, _ | ⟨c₂, _ | ⟨c₃, _ | ⟨c₄, _ |
    ⟨s₁, _ | ⟨s₂, _ | ⟨s₃, _ | ⟨s₄, _ | ⟨n₁, _ | ⟨n₂, _ | ⟨n₃, _ | ⟨n₄, rest⟩⟩⟩⟩⟩⟩⟩⟩⟩⟩⟩⟩⟩⟩⟩⟩
  case cons => rfl
  all_goals simp at h

theorem readHeader_append {length : Nat} {header : Header} (h : readHeader buffer = some (length, header))
    (more : List UInt8) : readHeader (buffer ++ more) = some (length, header) := by
  unfold readHeader at h
  split at h
  · exact h
  · simp at h

theorem readHeader_canonical {length : Nat} {header : Header}
    (h : readHeader buffer = some (length, header)) :
    header.command.Canonical ∧ header.status.Canonical := by
  unfold readHeader at h
  split at h
  · cases h
    exact ⟨Command.canonical_ofCode _, Status.canonical_ofCode _⟩
  · simp at h

/-! ## The five findings -/

/-- The length that a header declares is one a frame may have. -/
def InBounds (length : Nat) : Prop := headerLength ≤ length ∧ length ≤ maxPduLength

/-- What the front of a buffer gives, and why. -/
inductive Takes (buffer : List UInt8) : Taken → Prop where
  /-- The header is not complete. -/
  | short (length : buffer.length < headerLength) : Takes buffer .incomplete
  /-- The header declares a length that no frame has. -/
  | unbounded (length : Nat) (header : Header) (starts : readHeader buffer = some (length, header))
      (bounds : ¬ InBounds length) : Takes buffer (.fault (.invalidLength length) buffer)
  /-- The body is not complete. -/
  | partly (length : Nat) (header : Header) (starts : readHeader buffer = some (length, header))
      (bounds : InBounds length) (lt : buffer.length < length) : Takes buffer .incomplete
  | whole (length : Nat) (header : Header) (starts : readHeader buffer = some (length, header))
      (bounds : InBounds length) (le : length ≤ buffer.length) (pdu : Pdu) (unread : List UInt8)
      (reads : Pdu.read header.command ((buffer.take length).drop headerLength) = .ok (pdu, unread)) :
      Takes buffer (.frame ⟨header, pdu⟩ (buffer.drop length))
  /-- The body is malformed. -/
  | malformed (length : Nat) (header : Header) (starts : readHeader buffer = some (length, header))
      (bounds : InBounds length) (le : length ≤ buffer.length) (e : CodecError)
      (reads : Pdu.read header.command ((buffer.take length).drop headerLength) = .error e) :
      Takes buffer (.fault e (buffer.drop length))

theorem take?_takes (buffer : List UInt8) : Takes buffer (take? buffer) := by
  unfold take?
  split
  · rename_i h
    refine .short (Nat.lt_of_not_le fun hle => ?_)
    have hsome := readHeader_isSome hle
    rw [h] at hsome
    cases hsome
  · rename_i length header h
    split
    · rename_i hbounds
      exact .unbounded length header h (by unfold InBounds; omega)
    · rename_i hbounds
      have hin : InBounds length := by unfold InBounds; omega
      dsimp only
      rw [List.length_take]
      split
      · exact .partly length header h hin (by omega)
      · have hle : length ≤ buffer.length := by omega
        split
        · exact .whole length header h hin hle _ _ ‹_›
        · exact .malformed length header h hin hle _ ‹_›

/-- The findings exclude each other. -/
theorem Takes.eq {taken : Taken} (h : Takes buffer taken) : take? buffer = taken := by
  unfold take?
  cases h with
  | short length =>
    have : readHeader buffer = none := by
      cases h : readHeader buffer with
      | none => rfl
      | some x => exact absurd (readHeader_length h) (by omega)
    rw [this]
  | unbounded length header starts bounds =>
    unfold InBounds at bounds
    rw [starts]
    exact if_pos (by omega)
  | partly length header starts bounds lt =>
    unfold InBounds at bounds
    simp only [starts]
    rw [if_neg (by omega), List.length_take, if_pos (by omega)]
  | whole length header starts bounds le pdu unread reads =>
    unfold InBounds at bounds
    simp only [starts]
    rw [if_neg (by omega), List.length_take, if_neg (by omega), reads]
  | malformed length header starts bounds le e reads =>
    unfold InBounds at bounds
    simp only [starts]
    rw [if_neg (by omega), List.length_take, if_neg (by omega), reads]

/-! ## More octets -/

theorem take?_append_frame {f : Frame} {rest : List UInt8} (h : take? buffer = .frame f rest)
    (more : List UInt8) : take? (buffer ++ more) = .frame f (rest ++ more) := by
  have htakes := take?_takes buffer
  rw [h] at htakes
  cases htakes with
  | whole length header starts bounds le pdu unread reads =>
    rw [← List.drop_append_of_le_length le]
    refine (Takes.whole length header (readHeader_append starts more) bounds ?_ pdu unread ?_).eq
    · rw [List.length_append]
      omega
    · rw [List.take_append_of_le_length le, reads]

theorem take?_append_fault {e : CodecError} {rest : List UInt8} (h : take? buffer = .fault e rest)
    (more : List UInt8) : take? (buffer ++ more) = .fault e (rest ++ more) := by
  have htakes := take?_takes buffer
  rw [h] at htakes
  cases htakes with
  | unbounded length header starts bounds =>
    exact (Takes.unbounded length header (readHeader_append starts more) bounds).eq
  | malformed length header starts bounds le e reads =>
    rw [← List.drop_append_of_le_length le]
    refine (Takes.malformed length header (readHeader_append starts more) bounds ?_ e ?_).eq
    · rw [List.length_append]
      omega
    · rw [List.take_append_of_le_length le, reads]

end Smsc.Frame
