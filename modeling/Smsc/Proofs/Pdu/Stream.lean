import Mathlib.Data.List.Forall2
import Smsc.Proofs.Pdu.Bodies
import Smsc.Proofs.Pdu.Taken

/-!
# Smsc.Proofs.Pdu.Stream — frames do not depend on how a stream is cut

* `Taken.left`, `Taken.toll`: what a call leaves in the buffer, and how many octets it may take;
* `Drained.feed`: a chunk more, looked at only as long as there was no fault;
* `drain_append`: octets that come later are drained as if they had been there from the start;
* `Accounts`: what was fed is what was consumed, frame by frame, and what is left;
* `cutFree`: all of it, for every stream and every way of cutting it.
-/

namespace Smsc.Frame

variable {buffer : List UInt8}

/-! ## One call -/

/-- The number that the first four octets spell. -/
def declaredLength : List UInt8 → Nat
  | a :: b :: c :: d :: _ => (Octets.toUInt32 a b c d).toNat
  | _ => 0

/-- What is in the buffer after a call. -/
def Taken.left (buffer : List UInt8) : Taken → List UInt8
  | .incomplete => buffer
  | .frame _ rest => rest
  | .fault _ rest => rest

/-- How many octets a call consumes. -/
def Taken.toll (buffer : List UInt8) : Taken → Nat
  | .incomplete => 0
  | .fault (.invalidLength _) _ => 0
  | .frame _ _ => declaredLength buffer
  | .fault _ _ => declaredLength buffer

theorem declaredLength_eq {length : Nat} {header : Header} (h : readHeader buffer = some (length, header)) :
    declaredLength buffer = length := by
  unfold readHeader at h
  split at h
  · cases h
    rfl
  · cases h

theorem readHeader_take {length n : Nat} {header : Header} (h : readHeader buffer = some (length, header))
    (hn : headerLength ≤ n) : readHeader (buffer.take n) = some (length, header) := by
  obtain ⟨k, rfl⟩ := Nat.exists_eq_add_of_le' hn
  unfold readHeader at h
  split at h
  · exact h
  · cases h

theorem Taken.toll_of_ofBody {e : CodecError} (h : e.OfBody) (rest : List UInt8) :
    (Taken.fault e rest).toll buffer = declaredLength buffer := by
  cases e with
  | invalidLength length => exact absurd rfl (h length)
  | _ => rfl

/-- A call consumes its toll and nothing else. -/
theorem left_take? (buffer : List UInt8) :
    (take? buffer).left buffer = buffer.drop ((take? buffer).toll buffer) ∧
      (take? buffer).toll buffer ≤ buffer.length := by
  have htakes := take?_takes buffer
  generalize take? buffer = taken at htakes ⊢
  cases htakes with
  | short length | partly length header starts bounds lt => exact ⟨rfl, Nat.zero_le _⟩
  | unbounded length header starts bounds => exact ⟨rfl, Nat.zero_le _⟩
  | whole length header starts bounds le pdu unread reads =>
    rw [Taken.toll, declaredLength_eq starts]
    exact ⟨rfl, le⟩
  | malformed length header starts bounds le e reads =>
    rw [Taken.toll_of_ofBody ((Pdu.gives _).error reads), declaredLength_eq starts]
    exact ⟨rfl, le⟩

theorem headerLength_le_of_take? {f : Frame} {rest : List UInt8} (h : take? buffer = .frame f rest) :
    headerLength ≤ buffer.length := by
  have htakes := take?_takes buffer
  rw [h] at htakes
  cases htakes with
  | whole length header starts bounds le pdu unread reads => exact readHeader_length starts

/-- What a frame was made of makes the frame alone. -/
theorem frame_piece {f : Frame} {rest : List UInt8} (h : take? buffer = .frame f rest) :
    ∃ piece, buffer = piece ++ rest ∧ take? piece = .frame f [] := by
  have htakes := take?_takes buffer
  rw [h] at htakes
  cases htakes with
  | whole length header starts bounds le pdu unread reads =>
    have hlength : (buffer.take length).length = length := List.length_take_of_le le
    refine ⟨buffer.take length, (List.take_append_drop ..).symm, ?_⟩
    have halone := Takes.whole length header (readHeader_take starts bounds.1) bounds
      (Nat.le_of_eq hlength.symm) pdu unread (by rwa [List.take_take, Nat.min_self])
    rw [halone.eq, List.drop_eq_nil_of_le (Nat.le_of_eq hlength)]

/-- A malformed body is consumed with its header, and nothing behind it is. -/
theorem fault_piece {e : CodecError} {rest : List UInt8} (h : take? buffer = .fault e rest) :
    (∃ length, e = .invalidLength length ∧ rest = buffer) ∨
      e.OfBody ∧ ∃ piece, buffer = piece ++ rest ∧ take? piece = .fault e [] := by
  have htakes := take?_takes buffer
  rw [h] at htakes
  cases htakes with
  | unbounded length header starts bounds => exact .inl ⟨length, rfl, rfl⟩
  | malformed length header starts bounds le e reads =>
    have hlength : (buffer.take length).length = length := List.length_take_of_le le
    refine .inr ⟨(Pdu.gives _).error reads, buffer.take length, (List.take_append_drop ..).symm, ?_⟩
    have halone := Takes.malformed length header (readHeader_take starts bounds.1) bounds
      (Nat.le_of_eq hlength.symm) e (by rwa [List.take_take, Nat.min_self])
    rw [halone.eq, List.drop_eq_nil_of_le (Nat.le_of_eq hlength)]

/-! ## Calls until nothing more comes -/

theorem drain_incomplete (h : take? buffer = .incomplete) : drain buffer = ⟨[], none, buffer⟩ := by
  rw [drain]
  split <;> simp_all

theorem drain_fault {e : CodecError} {rest : List UInt8} (h : take? buffer = .fault e rest) :
    drain buffer = ⟨[], some e, rest⟩ := by
  rw [drain]
  split <;> simp_all

theorem drain_frame {f : Frame} {rest : List UInt8} (h : take? buffer = .frame f rest) :
    drain buffer = { drain rest with frames := f :: (drain rest).frames } := by
  rw [drain]
  split <;> simp_all

namespace Drained

/-- Nothing has come yet. -/
def start : Drained := ⟨[], none, []⟩

/-- A chunk goes behind what is left; after a fault it is not looked at. -/
def feed (d : Drained) (chunk : List UInt8) : Drained :=
  match d.fault with
  | some _ => { d with rest := d.rest ++ chunk }
  | none =>
    let more := drain (d.rest ++ chunk)
    { more with frames := d.frames ++ more.frames }

theorem feed_frame (d : Drained) (f : Frame) (chunk : List UInt8) :
    { d with frames := f :: d.frames }.feed chunk =
      { d.feed chunk with frames := f :: (d.feed chunk).frames } := by
  unfold feed
  cases d.fault <;> rfl

end Drained

/-- Octets that come later are drained as if they had been there from the start. -/
theorem drain_append (buffer more : List UInt8) : drain (buffer ++ more) = (drain buffer).feed more := by
  fun_induction drain buffer with
  | case1 buffer h => rfl
  | case2 buffer e rest h => exact drain_fault (take?_append_fault h more)
  | case3 buffer f rest h this more' ih =>
    rw [drain_frame (take?_append_frame h more), ih]
    exact (Drained.feed_frame _ f more).symm

theorem foldl_feed (chunks : List (List UInt8)) (buffer : List UInt8) :
    chunks.foldl Drained.feed (drain buffer) = drain (buffer ++ chunks.flatten) := by
  induction chunks generalizing buffer with
  | nil => rw [List.flatten_nil, List.append_nil, List.foldl_nil]
  | cons chunk chunks ih =>
    rw [List.foldl_cons, ← drain_append, ih, List.flatten_cons, List.append_assoc]

/-- Without a fault the calls end at a buffer that holds no whole frame. -/
theorem take?_rest (buffer : List UInt8) (h : (drain buffer).fault = none) :
    take? (drain buffer).rest = .incomplete := by
  fun_induction drain buffer with
  | case1 buffer hincomplete => exact hincomplete
  | case2 buffer e rest hfault => cases h
  | case3 buffer f rest hframe this more ih => exact ih h

/-! ## Chunk by chunk -/

/-- What the chunks gave, taken together; chunks after the last one that was drained stand behind what
that one left. -/
def gathered (buffer : List UInt8) (chunks : List (List UInt8)) (each : List Drained) : Drained where
  frames := each.flatMap (·.frames)
  fault := each.getLast?.bind (·.fault)
  rest := (each.getLast?.elim buffer (·.rest)) ++ (chunks.drop each.length).flatten

theorem gathered_cons (buffer chunk : List UInt8) (chunks : List (List UInt8)) (d : Drained)
    (each : List Drained) (h : d.fault = none) :
    gathered buffer (chunk :: chunks) (d :: each) =
      { gathered d.rest chunks each with frames := d.frames ++ (gathered d.rest chunks each).frames } := by
  cases each with
  | nil => simp [gathered, h]
  | cons d' each => simp [gathered, List.getLast?_eq_some_getLast]

/-- Draining after every chunk, up to the first fault, gives what draining once gives. -/
theorem gathered_drainEach (chunks : List (List UInt8)) (buffer : List UInt8)
    (h : take? buffer = .incomplete) :
    gathered buffer chunks (drainEach true buffer chunks) = drain (buffer ++ chunks.flatten) := by
  -- What is left before a chunk holds no whole frame: at the start by `h`, later by `take?_rest`.
  induction chunks generalizing buffer with
  | nil => simp [gathered, drainEach, drain_incomplete h]
  | cons chunk chunks ih =>
    rw [List.flatten_cons, ← List.append_assoc, drain_append]
    cases hfault : (drain (buffer ++ chunk)).fault with
    | some e => simp [gathered, drainEach, Drained.feed, hfault]
    | none =>
      have hstalled := take?_rest _ hfault
      have heach : drainEach true buffer (chunk :: chunks) =
          drain (buffer ++ chunk) :: drainEach true (drain (buffer ++ chunk)).rest chunks := by
        simp [drainEach, hfault]
      rw [heach, gathered_cons _ _ _ _ _ hfault, ih _ hstalled]
      simp only [Drained.feed, hfault]

/-! ## Nothing is lost -/

/-- The octets that were fed are pieces, one for each frame, a malformed one if there was, and what is
left. Each piece alone gives what it gave in the stream. -/
structure Accounts (fed : List UInt8) (d : Drained) (pieces : List (List UInt8)) (bad : List UInt8) :
    Prop where
  fed_eq : fed = pieces.flatten ++ bad ++ d.rest
  frames : List.Forall₂ (fun piece f => take? piece = .frame f []) pieces d.frames
  malformed : ∀ e, d.fault = some e → e.OfBody → take? bad = .fault e []
  well : (∀ e, d.fault = some e → ¬ e.OfBody) → bad = []

theorem drain_accounts (buffer : List UInt8) : ∃ pieces bad, Accounts buffer (drain buffer) pieces bad := by
  fun_induction drain buffer with
  | case1 buffer h => exact ⟨[], [], rfl, .nil, nofun, fun _ => rfl⟩
  | case2 buffer e rest h =>
    obtain ⟨length, rfl, rfl⟩ | ⟨hbody, piece, hpiece, halone⟩ := fault_piece h
    · exact ⟨[], [], rfl, .nil, fun e he hbody => by cases he; exact absurd rfl (hbody length), fun _ => rfl⟩
    · refine ⟨[], piece, hpiece, .nil, fun e' he _ => ?_, fun hnone => absurd hbody (hnone e rfl)⟩
      cases he
      exact halone
  | case3 buffer f rest h this more ih =>
    obtain ⟨pieces, bad, ih⟩ := ih
    obtain ⟨piece, hpiece, halone⟩ := frame_piece h
    refine ⟨piece :: pieces, bad, ?_, .cons halone ih.frames, ih.malformed, ih.well⟩
    simp only [hpiece, List.flatten_cons, List.append_assoc]
    rw [ih.fed_eq, List.append_assoc]

theorem Accounts.length_le {fed bad : List UInt8} {d : Drained} {pieces : List (List UInt8)}
    (h : Accounts fed d pieces bad) : headerLength * d.frames.length + d.rest.length ≤ fed.length := by
  obtain ⟨hfed, hframes, -, -⟩ := h
  have hpieces : headerLength * d.frames.length ≤ pieces.flatten.length := by
    clear hfed
    generalize d.frames = frames at hframes
    induction hframes with
    | nil => exact Nat.zero_le _
    | cons halone _ ih =>
      have := headerLength_le_of_take? halone
      rw [List.length_cons, List.flatten_cons, List.length_append, Nat.mul_succ]
      omega
  rw [hfed, List.length_append, List.length_append]
  omega

/-! ## Streams -/

/-- How a stream that comes in chunks is taken apart. -/
structure CutFree (chunks : List (List UInt8)) : Prop where
  /-- The chunks one by one, looked at up to the first fault, give what they give at once. -/
  fed : chunks.foldl Drained.feed .start = drain chunks.flatten
  /-- So do they if those after the first fault are kept back. -/
  drained : gathered [] chunks (drainEach true [] chunks) = drain chunks.flatten
  /-- Every call consumes nothing or what the front of its buffer declares. -/
  calls : ∀ buffer, (take? buffer).left buffer = buffer.drop ((take? buffer).toll buffer) ∧
    (take? buffer).toll buffer ≤ buffer.length
  /-- What is consumed and what is left are what was fed, and no frame pays for another. -/
  accounts : ∃ pieces bad, Accounts chunks.flatten (drain chunks.flatten) pieces bad
  /-- The calls come to an end, for each frame is a header at least. -/
  ends : headerLength * (drain chunks.flatten).frames.length + (drain chunks.flatten).rest.length ≤
    chunks.flatten.length
  /-- If no fault ended them, there is no whole frame left. -/
  stalls : (drain chunks.flatten).fault = none → take? (drain chunks.flatten).rest = .incomplete

/-- **Streams**: how a stream is cut into chunks makes no difference to what is read from it. -/
theorem cutFree (chunks : List (List UInt8)) : CutFree chunks := by
  have hempty : take? [] = .incomplete := rfl
  refine ⟨?_, ?_, left_take?, drain_accounts _, ?_, take?_rest _⟩
  · have hfold := foldl_feed chunks []
    rwa [drain_incomplete hempty, List.nil_append] at hfold
  · exact gathered_drainEach chunks [] hempty
  · obtain ⟨pieces, bad, h⟩ := drain_accounts chunks.flatten
    exact h.length_le

end Smsc.Frame
