import Smsc.Proofs.Pdu.RoundTrip
import Smsc.Proofs.Pdu.Stream

/-!
# Smsc.Proofs.Pdu.Appending — frames written one after another into one buffer

A body is written field by field and may fail at any of them; the length is put in front of it
afterwards, at the place where the frame starts in the buffer.

* `Appends w r octets`: whatever the buffer holds, `w` puts `octets` behind it and ends with `r`;
* `Pdu.write_steady`: so does the writer of every body, whether it fails or not;
* `Frame.append_eq`: a frame is put behind the buffer as if it were alone, or not at all;
* `Frame.drain_encoded`: frames that stand one behind the other are read one after the other;
* `Frame.lossless`: all of it, for every buffer and every list of frames.
-/

namespace Smsc

/-! ## Writers -/

/-- Whatever the buffer holds, the writer puts the same octets behind it and ends in the same way. -/
def Appends (w : Writer Unit) (r : Except CodecError Unit) (octets : List UInt8) : Prop :=
  ∀ buffer, w.run buffer = (r, buffer ++ octets)

namespace Appends

variable {w : Writer Unit} {k : Unit → Writer Unit} {r : Except CodecError Unit} {e : CodecError}
  {written more : List UInt8}

theorem pure : Appends (Pure.pure ()) (.ok ()) [] := fun buffer => by
  rw [List.append_nil]
  rfl

theorem octets (bs : List UInt8) : Appends (Writer.octets bs) (.ok ()) bs := fun _ => rfl

theorem octet (b : UInt8) : Appends (Writer.octet b) (.ok ()) [b] := fun _ => rfl

theorem throw (e : CodecError) : Appends (MonadExcept.throw e) (.error e) [] := fun buffer => by
  rw [List.append_nil]
  rfl

theorem bind (h : Appends w (.ok ()) written) (hk : Appends (k ()) r more) :
    Appends (w >>= k) r (written ++ more) := by
  intro buffer
  rw [Writer.run_bind, h buffer, ← List.append_assoc]
  exact hk (buffer ++ written)

theorem bind_error (h : Appends w (.error e) written) : Appends (w >>= k) (.error e) written := by
  intro buffer
  rw [Writer.run_bind, h buffer]

end Appends

/-- What the buffer holds makes no difference to what is written behind it. -/
def Steady (w : Writer Unit) : Prop := ∃ r written, Appends w r written

namespace Steady

variable {w w' : Writer Unit}

theorem octets (bs : List UInt8) : Steady (Writer.octets bs) := ⟨_, _, .octets bs⟩

theorem octet (b : UInt8) : Steady (Writer.octet b) := ⟨_, _, .octet b⟩

theorem pure : Steady (Pure.pure ()) := ⟨_, _, .pure⟩

theorem throw (e : CodecError) : Steady (MonadExcept.throw e) := ⟨_, _, .throw e⟩

theorem bind {k : Unit → Writer Unit} (h : Steady w) (hk : Steady (k ())) : Steady (w >>= k) := by
  obtain ⟨r, written, hw⟩ := h
  cases r with
  | error e => exact ⟨_, _, hw.bind_error⟩
  | ok u =>
    obtain ⟨r, more, hk⟩ := hk
    exact ⟨r, _, hw.bind hk⟩

theorem ite {p : Prop} [Decidable p] (h : Steady w) (h' : Steady w') : Steady (if p then w else w') := by
  by_cases hp : p
  · rwa [if_pos hp]
  · rwa [if_neg hp]

end Steady

/-! ## Fields and bodies -/

theorem TextField.write_steady (field : TextField) (s : String) : Steady (field.write s) :=
  .ite (.bind (.octets _) (.octet 0)) (.throw _)

theorem Tlv.write_steady (t : Tlv) : Steady t.write :=
  .ite (.bind (.octets _) (.bind (.octets _) (.octets _))) (.throw _)

theorem TlvMap.write_steady (m : TlvMap) : Steady m.write := by
  unfold write
  induction m.entries with
  | nil => exact .pure
  | cons t ts ih => exact .bind t.write_steady ih

theorem Address.write_steady (field : TextField) (a : Address) : Steady (a.write field) :=
  .bind (.octet _) (.bind (.octet _) (field.write_steady _))

theorem BindParameters.write_steady (b : BindParameters) : Steady b.write := by
  refine .bind (TextField.write_steady ..) <| .bind (TextField.write_steady ..) <|
    .bind (TextField.write_steady ..) ?_
  exact .bind (.octet _) <| .bind (.octet _) <| .bind (.octet _) (TextField.write_steady ..)

theorem writeShortMessageOctets_steady (message : List UInt8) : Steady (writeShortMessageOctets message) :=
  .ite (.bind (.octet _) (.octets _)) (.throw _)

theorem ShortMessage.write_steady (m : ShortMessage) : Steady m.write := by
  refine .bind (TextField.write_steady ..) <| .bind (Address.write_steady ..) <|
    .bind (Address.write_steady ..) ?_
  refine .bind (.octet _) <| .bind (.octet _) <| .bind (.octet _) ?_
  refine .bind (TextField.write_steady ..) <| .bind (TextField.write_steady ..) ?_
  refine .bind (.octet _) <| .bind (.octet _) <| .bind (.octet _) <| .bind (.octet _) ?_
  exact .bind (writeShortMessageOctets_steady _) m.tlvs.write_steady

/-- A body is written in the same way into every buffer, up to the field that does not fit if there
is one. -/
theorem Pdu.write_steady (p : Pdu) : Steady p.write := by
  cases p with
  | bind type b => exact b.write_steady
  | bindResp type r => exact .bind (TextField.write_steady ..) r.tlvs.write_steady
  | submitSm m | deliverSm m => exact m.write_steady
  | submitSmResp r | deliverSmResp r => exact .bind (TextField.write_steady ..) r.tlvs.write_steady
  | other code octets => exact .octets octets
  | enquireLink | enquireLinkResp | unbind | unbindResp | genericNack => exact .pure

namespace Frame

/-! ## One frame -/

variable {f : Frame} {body : List UInt8} {e : CodecError}

/-- The body goes behind zeros and the numbers. If the whole is not too long, its length takes the
place of the zeros. -/
theorem run_write (h : Appends f.pdu.write (.ok ()) body) (buffer : List UInt8) :
    f.write.run buffer =
      if headerLength + body.length ≤ maxPduLength then (.ok (), buffer ++ f.octetsWith body)
      else (.error (.invalidLength (headerLength + body.length)),
        buffer ++ ([0, 0, 0, 0] ++ f.numbers ++ body)) := by
  have hnumbers : ([0, 0, 0, 0] ++ f.numbers).length = headerLength := rfl
  have hwhole : (buffer ++ ([0, 0, 0, 0] ++ f.numbers ++ body)).length - buffer.length =
      headerLength + body.length := by
    rw [List.length_append, List.length_append, hnumbers]
    omega
  have hbody := h (buffer ++ ([0, 0, 0, 0] ++ f.numbers))
  rw [List.append_assoc buffer] at hbody
  simp only [write, Writer.run_get_bind, Writer.run_octets_bind]
  simp only [numbers, List.append_assoc] at hbody hwhole ⊢
  rw [Writer.run_bind, hbody]
  dsimp only
  rw [Writer.run_get_bind, hwhole]
  split
  · -- The length stands where the frame starts, behind what was in the buffer.
    refine Prod.ext rfl ?_
    show List.take buffer.length (buffer ++ _) ++ (_ ++ List.drop (buffer.length + 4) (buffer ++ _)) = _
    rw [List.take_left, List.drop_length_add_append]
    rfl
  · rfl

theorem append_of_ok (h : Appends f.pdu.write (.ok ()) body)
    (hlength : headerLength + body.length ≤ maxPduLength) (buffer : List UInt8) :
    f.append buffer = (.ok (), buffer ++ f.octetsWith body) := by
  rw [append, run_write h, if_pos hlength]

/-- That the frame is too long is known only after the body has been written. -/
theorem append_of_long (h : Appends f.pdu.write (.ok ()) body)
    (hlength : maxPduLength < headerLength + body.length) (buffer : List UInt8) :
    f.append buffer = (.error (.invalidLength (headerLength + body.length)), buffer) := by
  rw [append, run_write h, if_neg (Nat.not_le.mpr hlength)]
  dsimp only
  rw [List.take_left]

/-- A field does not fit: what was written before it is cut off. -/
theorem append_of_error (h : Appends f.pdu.write (.error e) body) (buffer : List UInt8) :
    f.append buffer = (.error e, buffer) := by
  have hrun : f.write.run buffer = (.error e, buffer ++ ([0, 0, 0, 0] ++ f.numbers ++ body)) := by
    have hbody := h (buffer ++ ([0, 0, 0, 0] ++ f.numbers))
    rw [List.append_assoc buffer] at hbody
    simp only [write, Writer.run_get_bind, Writer.run_octets_bind]
    simp only [numbers, List.append_assoc] at hbody ⊢
    rw [Writer.run_bind, hbody]
  rw [append, hrun]
  dsimp only
  rw [List.take_left]

/-- A frame is put behind the buffer as it is encoded alone, or the buffer stays as it was. -/
theorem append_eq (f : Frame) (buffer : List UInt8) :
    f.append buffer = match f.encode with
      | .ok octets => (.ok (), buffer ++ octets)
      | .error e => (.error e, buffer) := by
  unfold encode
  obtain ⟨_ | _, body, h⟩ := f.pdu.write_steady
  · rw [append_of_error h, append_of_error h]
  · rcases Nat.lt_or_ge maxPduLength (headerLength + body.length) with hlong | hlength
    · rw [append_of_long h hlong, append_of_long h hlong]
    · rw [append_of_ok h hlength, append_of_ok h hlength, List.nil_append]

/-! ## Frame after frame -/

/-- What the buffer holds after frames have been written into it one after another. -/
def appendAll (buffer : List UInt8) (frames : List Frame) : List UInt8 :=
  frames.foldl (fun buffer f => (f.append buffer).2) buffer

/-- Does the frame fit into octets? -/
def fits (f : Frame) : Bool := f.encode.isOk

theorem appendAll_eq (buffer : List UInt8) (frames : List Frame) :
    appendAll buffer frames = buffer ++ (frames.filterMap fun f => f.encode.toOption).flatten := by
  unfold appendAll
  induction frames generalizing buffer with
  | nil => rw [List.foldl_nil, List.filterMap_nil, List.flatten_nil, List.append_nil]
  | cons f frames ih =>
    rw [List.foldl_cons, ih, append_eq, List.filterMap_cons]
    cases f.encode with
    | error e => rfl
    | ok octets => simp only [Except.toOption, List.flatten_cons, List.append_assoc]

/-- A well-formed frame is read from the front of what was written for it, whatever follows. -/
theorem take?_encoded {octets : List UInt8} (hf : f.WellFormed) (h : f.encode = .ok octets)
    (more : List UInt8) : take? (octets ++ more) = .frame f more := by
  obtain ⟨body, rfl, hlength, hread⟩ := hf.octetsWith_of_encode h
  exact take?_append_frame (take?_octetsWith hf hlength hread) more

/-- Frames that stand one behind the other are read one after the other, and nothing is left. -/
theorem drain_encoded {frames : List Frame} (h : ∀ f ∈ frames, f.fits = true → f.WellFormed) :
    drain (frames.filterMap fun f => f.encode.toOption).flatten = ⟨frames.filter fits, none, []⟩ := by
  induction frames with
  | nil => exact drain_incomplete rfl
  | cons f frames ih =>
    have hrest := ih fun f' hf' => h f' (List.mem_cons_of_mem _ hf')
    have hf := h f (List.mem_cons_self ..)
    rw [List.filterMap_cons, List.filter_cons]
    unfold fits at hf ⊢
    cases hencode : f.encode with
    | error e => exact hrest
    | ok octets =>
      rw [hencode] at hf
      rw [Except.toOption, List.flatten_cons, drain_frame (take?_encoded (hf rfl) hencode _), hrest]
      rfl

/-- Frames written one after another into a buffer that holds `held`. -/
structure Lossless (held : List UInt8) (frames : List Frame) : Prop where
  /-- A call that fails leaves the buffer byte for byte as it was, and its frame has no octets. -/
  fails : ∀ k f e, frames[k]? = some f → (f.append (appendAll held (frames.take k))).1 = .error e →
    (f.append (appendAll held (frames.take k))).2 = appendAll held (frames.take k) ∧ f.encode = .error e
  /-- A call that succeeds puts the octets of its frame behind what is there. -/
  succeeds : ∀ k f, frames[k]? = some f → (f.append (appendAll held (frames.take k))).1 = .ok () →
    ∃ octets, f.encode = .ok octets ∧
      (f.append (appendAll held (frames.take k))).2 = appendAll held (frames.take k) ++ octets
  /-- In the end the octets of the frames that have some stand behind what was there, in order. -/
  final : appendAll held frames = held ++ (frames.filterMap fun f => f.encode.toOption).flatten
  /-- If these frames are well-formed, the part behind `held`, cut into chunks in any way, is read as
  exactly these frames in order, without a fault, and nothing of it is left. -/
  reads : (∀ f ∈ frames, f.fits = true → f.WellFormed) →
    ∀ chunks : List (List UInt8), chunks.flatten = (appendAll held frames).drop held.length →
      chunks.foldl Drained.feed .start = ⟨frames.filter fits, none, []⟩

/-- **Shared buffer**: a frame is written as a whole or not at all, and what was written is read back
frame by frame. -/
theorem lossless (held : List UInt8) (frames : List Frame) : Lossless held frames := by
  refine ⟨?_, ?_, appendAll_eq held frames, ?_⟩
  · intro k f e _ h
    rw [append_eq] at h ⊢
    cases hencode : f.encode with
    | ok octets =>
      rw [hencode] at h
      cases h
    | error e' =>
      rw [hencode] at h
      cases h
      exact ⟨rfl, rfl⟩
  · intro k f _ h
    rw [append_eq] at h ⊢
    cases hencode : f.encode with
    | ok octets => exact ⟨octets, rfl, rfl⟩
    | error e =>
      rw [hencode] at h
      cases h
  · intro hwell chunks hchunks
    rw [appendAll_eq, List.drop_left] at hchunks
    have hstart : Drained.start = drain [] := (drain_incomplete rfl).symm
    rw [hstart, foldl_feed, List.nil_append, hchunks, drain_encoded hwell]

end Frame

end Smsc
