import Smsc.Pdu.Body
import Smsc.Pdu.Frame

/-!
# Smsc.Pdu.Framing — frames on a stream of octets

A frame starts with its own length. Reading takes whole frames off the front of a buffer:

* `Frame.take?`: the next frame, if the buffer holds all of it;
* `Frame.drain`: frames until the buffer holds no whole one, or a fault;
* `Frame.drainEach`: the same chunk by chunk;
* `Frame.takeEnd?`: the next frame at the end of the stream, where leftover octets are a fault;
* `Frame.decode`: exactly one frame.

Writing appends to a buffer, and takes back what it wrote if a field or the frame does not fit:

* `Frame.append`, `Frame.encode`.
-/

namespace Smsc

namespace Frame

/-- What the front of a buffer gives. -/
inductive Taken where
  /-- Not enough octets for a whole frame. -/
  | incomplete
  /-- A frame, and the octets behind it. -/
  | frame (f : Frame) (rest : List UInt8)
  /-- A fault, and the octets behind it. -/
  | fault (e : CodecError) (rest : List UInt8)
  deriving DecidableEq, Repr

/-- The length that the first four octets declare, and the twelve header octets behind it. -/
def readHeader (octets : List UInt8) : Option (Nat × Header) :=
  match octets with
  | l₁ :: l₂ :: l₃ :: l₄ :: c₁ :: c₂ :: c₃ :: c₄ :: s₁ :: s₂ :: s₃ :: s₄ :: n₁ :: n₂ :: n₃ :: n₄ :: _ =>
    some ((Octets.toUInt32 l₁ l₂ l₃ l₄).toNat,
      { command := .ofCode (Octets.toUInt32 c₁ c₂ c₃ c₄)
        status := .ofCode (Octets.toUInt32 s₁ s₂ s₃ s₄)
        sequence := Octets.toUInt32 n₁ n₂ n₃ n₄ })
  | _ => none

/-- Takes the next frame. The declared length is judged as soon as a header is there and a length
out of bounds takes nothing; a malformed body is taken as a whole. -/
def take? (buffer : List UInt8) : Taken :=
  match readHeader buffer with
  | none => .incomplete
  | some (length, header) =>
    if length < headerLength ∨ maxPduLength < length then
      .fault (.invalidLength length) buffer
    else
      let octets := buffer.take length
      if octets.length < length then .incomplete
      else
        match Pdu.read header.command (octets.drop headerLength) with
        | .ok (pdu, _) => .frame ⟨header, pdu⟩ (buffer.drop length)
        | .error e => .fault e (buffer.drop length)

/-- One whole frame; what follows it is left alone. -/
def decode (octets : List UInt8) : Except CodecError Frame :=
  match take? octets with
  | .incomplete => .error (.truncated "header")
  | .frame f _ => .ok f
  | .fault e _ => .error e

/-- What a stretch of the stream gave: frames, perhaps a fault after them, and the octets left. -/
structure Drained where
  frames : List Frame
  fault : Option CodecError
  rest : List UInt8
  deriving DecidableEq, Repr

theorem length_drop_lt_of_take? {buffer rest : List UInt8} {f : Frame}
    (h : take? buffer = .frame f rest) : rest.length < buffer.length := by
  unfold take? at h
  split at h
  · simp at h
  · split at h
    · simp at h
    · rename_i length header hr hb
      dsimp only at h
      split at h
      · simp at h
      · rename_i hl
        split at h
        · simp only [Taken.frame.injEq] at h
          obtain ⟨_, rfl⟩ := h
          simp [headerLength, maxPduLength] at hb hl ⊢
          omega
        · simp at h

/-- Takes frames until no whole one is left, or up to a fault. -/
def drain (buffer : List UInt8) : Drained :=
  match h : take? buffer with
  | .incomplete => ⟨[], none, buffer⟩
  | .fault e rest => ⟨[], some e, rest⟩
  | .frame f rest =>
    have := length_drop_lt_of_take? h
    let more := drain rest
    { more with frames := f :: more.frames }
termination_by buffer.length

/-- Drains a buffer after each chunk that is put behind it, perhaps only up to the first fault. -/
def drainEach (stopAtFault : Bool) (buffer : List UInt8) : List (List UInt8) → List Drained
  | [] => []
  | chunk :: chunks =>
    let drained := drain (buffer ++ chunk)
    drained :: if stopAtFault && drained.fault.isSome then [] else
      drainEach stopAtFault drained.rest chunks

/-- The last octets of a stream: a frame, nothing, or a fault if they are no whole frame. -/
def takeEnd? (buffer : List UInt8) : Taken :=
  match take? buffer with
  | .incomplete =>
    if buffer.isEmpty then .incomplete else .fault (.io "bytes remaining on stream") buffer
  | taken => taken

/-- Writes header and body, then puts the length in front. -/
def write (f : Frame) : Writer Unit := do
  let start := (← get).length
  Writer.octets [0, 0, 0, 0]
  Writer.octets (Octets.ofUInt32 f.pdu.command.code)
  Writer.octets (Octets.ofUInt32 f.status.code)
  Writer.octets (Octets.ofUInt32 f.sequence)
  f.pdu.write
  let length := (← get).length - start
  if length ≤ maxPduLength then
    modify fun buffer =>
      buffer.take start ++ Octets.ofUInt32 (.ofNat length) ++ buffer.drop (start + 4)
  else throw (.invalidLength length)

/-- Appends a frame to a buffer. After a failure the buffer is cut back to its former length. -/
def append (f : Frame) (buffer : List UInt8) : Except CodecError Unit × List UInt8 :=
  match f.write.run buffer with
  | (.ok (), written) => (.ok (), written)
  | (.error e, written) => (.error e, written.take buffer.length)

/-- The octets of one frame. -/
def encode (f : Frame) : Except CodecError (List UInt8) :=
  match f.append [] with
  | (.ok (), octets) => .ok octets
  | (.error e, _) => .error e

end Frame

end Smsc
