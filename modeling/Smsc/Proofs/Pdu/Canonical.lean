import Smsc.Proofs.Pdu.Retracing

/-!
# Smsc.Proofs.Pdu.Canonical — the octets of a frame, and the other ways to spell it

What is read is encoded again, to the octets it was read from but for three tolerances.

* `Tolerance`: the bodies that are read and never written, and what is written in their place;
* `Pdu.retraces`: a body that was read is written as it was, or as a tolerance says;
* `Frame.IsWhole.wire_eq`: the octets of a whole frame are its length, its numbers and its body;
* `Frame.decode_iff_spelling`: everything that a given frame is read from;
* `Frame.spelled`: how a frame that was read is written.
-/

namespace Smsc

variable {α β : Type}

/-! ## Tolerances -/

/-- The fields of a bind as octets, and nothing behind them: three texts, three octets and a text, with
a NUL at the end of each text. -/
def IsBindBody (fields : List UInt8) : Prop :=
  ∃ systemId password systemType addressRange : List UInt8, ∃ version ton npi : UInt8,
    (0 ∉ systemId ∧ 0 ∉ password ∧ 0 ∉ systemType ∧ 0 ∉ addressRange) ∧
      fields = systemId ++ 0 :: (password ++ 0 :: (systemType ++ 0 :: version :: ton :: npi ::
        (addressRange ++ [0])))

/-- Commands whose PDUs have no body. -/
def Command.bodiless : List Command := [.enquireLink, .enquireLinkResp, .unbind, .unbindResp, .genericNack]

/-- Responses whose body starts with a text. -/
def Command.textual : List Command :=
  [.bindTransmitterResp, .bindReceiverResp, .bindTransceiverResp, .submitSmResp, .deliverSmResp]

/-- The bodies of a command that are read and never written, each with what is written in its place. -/
inductive Tolerance : Command → List UInt8 → List UInt8 → Prop where
  /-- Octets behind the last field of a bind are dropped. -/
  | behind (type : BindType) {fields extra : List UInt8} (layout : IsBindBody fields) (some : extra ≠ []) :
    Tolerance type.command (fields ++ extra) fields
  /-- A body where none belongs is dropped. -/
  | bodiless {command : Command} {body : List UInt8} (without : command ∈ Command.bodiless)
    (some : body ≠ []) : Tolerance command body []
  /-- A response without a body gets its text, which is empty. -/
  | bare {command : Command} (response : command ∈ Command.textual) : Tolerance command [] [0]

/-- A NUL ends a text at one place only. -/
theorem split_nul {s s' t t' : List UInt8} (hs : 0 ∉ s) (hs' : 0 ∉ s') (h : s ++ 0 :: t = s' ++ 0 :: t') :
    s = s' ∧ t = t' := by
  have htake := congrArg (List.takeWhile (· != 0)) h
  have hdrop := congrArg (List.dropWhile (· != 0)) h
  rw [(takeWhile_nul hs t).1, (takeWhile_nul hs' t').1] at htake
  rw [(takeWhile_nul hs t).2, (takeWhile_nul hs' t').2] at hdrop
  cases hdrop
  exact ⟨htake, rfl⟩

/-- The fields of a bind end at one place only. -/
theorem IsBindBody.eq_of_append {fields fields' extra extra' : List UInt8} (h : IsBindBody fields)
    (h' : IsBindBody fields') (heq : fields ++ extra = fields' ++ extra') : fields = fields' := by
  obtain ⟨systemId, password, systemType, range, version, ton, npi, ⟨h₁, h₂, h₃, h₄⟩, rfl⟩ := h
  obtain ⟨systemId', password', systemType', range', version', ton', npi', ⟨h₁', h₂', h₃', h₄'⟩, rfl⟩ := h'
  simp only [List.append_assoc, List.cons_append, List.nil_append] at heq
  obtain ⟨hsystemId, hrest⟩ := split_nul h₁ h₁' heq
  obtain ⟨hpassword, hrest⟩ := split_nul h₂ h₂' hrest
  obtain ⟨hsystemType, hrest⟩ := split_nul h₃ h₃' hrest
  simp only [List.cons.injEq] at hrest
  obtain ⟨hversion, hton, hnpi, hrest⟩ := hrest
  obtain ⟨hrange, -⟩ := split_nul h₄ h₄' hrest
  rw [hsystemId, hpassword, hsystemType, hversion, hton, hnpi, hrange]

namespace Tolerance

variable {command : Command} {body written written' : List UInt8}

theorem ne (h : Tolerance command body written) : written ≠ body := by
  cases h with
  | behind type layout some => simpa using Ne.symm some
  | bodiless without some => exact Ne.symm some
  | bare response => exact List.cons_ne_nil 0 []

theorem length_le (h : Tolerance command body written) : written.length ≤ max body.length 1 := by
  cases h with
  | behind type layout some =>
    rw [List.length_append]
    omega
  | bodiless without some => exact Nat.zero_le _
  | bare response => exact Nat.le_refl _

theorem command_notMem (type : BindType) :
    type.command ∉ Command.bodiless ∧ type.command ∉ Command.textual := by
  cases type <;> decide

theorem of_bind {type : BindType} (h : Tolerance type.command body written) :
    IsBindBody written ∧ ∃ extra, extra ≠ [] ∧ body = written ++ extra := by
  generalize hcommand : type.command = command at h
  cases h with
  | behind type' layout some => exact ⟨layout, _, some, rfl⟩
  | bodiless without some => exact absurd (hcommand ▸ without) (command_notMem type).1
  | bare response => exact absurd (hcommand ▸ response) (command_notMem type).2

theorem of_bodiless (hcommand : command ∈ Command.bodiless) (h : Tolerance command body written) :
    body ≠ [] ∧ written = [] := by
  have hdisjoint : ∀ c ∈ Command.bodiless, c ∉ Command.textual := by decide
  cases h with
  | behind type layout some => exact absurd hcommand (command_notMem type).1
  | bodiless without some => exact ⟨some, rfl⟩
  | bare response => exact absurd response (hdisjoint _ hcommand)

theorem of_textual (hcommand : command ∈ Command.textual) (h : Tolerance command body written) :
    body = [] ∧ written = [0] := by
  have hdisjoint : ∀ c ∈ Command.textual, c ∉ Command.bodiless := by decide
  cases h with
  | behind type layout some => exact absurd hcommand (command_notMem type).2
  | bodiless without some => exact absurd without (hdisjoint _ hcommand)
  | bare response => exact ⟨rfl, rfl⟩

/-- There is one thing to be written for a body. -/
theorem unique (h : Tolerance command body written) (h' : Tolerance command body written') :
    written = written' := by
  cases h with
  | behind type layout some =>
    obtain ⟨layout', extra', -, heq⟩ := h'.of_bind
    exact layout.eq_of_append layout' heq
  | bodiless without some => exact (of_bodiless without h').2.symm
  | bare response => exact (of_textual response h').2.symm

/-- Messages and commands that are not modelled have no tolerance. -/
theorem not_message (h : Tolerance command body written) :
    command ≠ .submitSm ∧ command ≠ .deliverSm ∧ ∀ code, command ≠ .other code := by
  have hbodiless : Command.submitSm ∉ Command.bodiless ∧ Command.deliverSm ∉ Command.bodiless := by decide
  have htextual : Command.submitSm ∉ Command.textual ∧ Command.deliverSm ∉ Command.textual := by decide
  cases h with
  | behind type layout some => cases type <;> exact ⟨nofun, nofun, nofun⟩
  | bodiless without some =>
    refine ⟨?_, ?_, ?_⟩
    · exact fun h => hbodiless.1 (h ▸ without)
    · exact fun h => hbodiless.2 (h ▸ without)
    · rintro code rfl
      simp [Command.bodiless] at without
  | bare response =>
    refine ⟨?_, ?_, ?_⟩
    · exact fun h => htextual.1 (h ▸ response)
    · exact fun h => htextual.2 (h ▸ response)
    · rintro code rfl
      simp [Command.textual] at response

end Tolerance

/-- What is written for a body that was read: the body itself if no tolerance applies. -/
def Settles (command : Command) (body written : List UInt8) : Prop :=
  (written = body ∧ ∀ other, ¬ Tolerance command body other) ∨ Tolerance command body written

namespace Settles

variable {command : Command} {body written other : List UInt8}

theorem eq (h : Settles command body written) (hnone : ∀ other, ¬ Tolerance command body other) :
    written = body :=
  h.elim And.left fun ht => absurd ht (hnone written)

theorem eq_of_tolerance (h : Settles command body written) (ht : Tolerance command body other) :
    written = other :=
  h.elim (fun hsame => absurd ht (hsame.2 other)) fun ht' => ht'.unique ht

end Settles

/-! ## Bodies -/

/-- A bind is read up to the NUL of its last text. -/
theorem BindParameters.read_ok {octets rest : List UInt8} {b : BindParameters}
    (h : BindParameters.read octets = .ok (b, rest)) :
    ∃ fields, IsBindBody fields ∧ octets = fields ++ rest := by
  obtain ⟨systemId, _, h₁, h⟩ := Reader.bind_ok h
  obtain ⟨password, _, h₂, h⟩ := Reader.bind_ok h
  obtain ⟨systemType, _, h₃, h⟩ := Reader.bind_ok h
  obtain ⟨version, _, h₄, h⟩ := Reader.bind_ok h
  obtain ⟨ton, _, h₅, h⟩ := Reader.bind_ok h
  obtain ⟨npi, _, h₆, h⟩ := Reader.bind_ok h
  obtain ⟨range, _, h₇, h⟩ := Reader.bind_ok h
  cases h
  obtain ⟨-, hsystemId, rfl⟩ := TextField.read_ok h₁
  obtain ⟨-, hpassword, rfl⟩ := TextField.read_ok h₂
  obtain ⟨-, hsystemType, rfl⟩ := TextField.read_ok h₃
  obtain rfl := Reader.octet_ok h₄
  obtain rfl := Reader.octet_ok h₅
  obtain rfl := Reader.octet_ok h₆
  obtain ⟨-, hrange, rfl⟩ := TextField.read_ok h₇
  refine ⟨_, ⟨_, _, _, _, version, ton, npi, ⟨hsystemId, hpassword, hsystemType, hrange⟩, rfl⟩, ?_⟩
  simp only [List.append_assoc, List.cons_append, List.nil_append]

/-- A text and parameters are written as they were read, unless they were read from nothing. -/
theorem textAndTlvs_retraces {field : TextField} {make : String → TlvMap → α} {octets rest : List UInt8}
    {a : α} (h : readTextAndTlvs field make octets = .ok (a, rest)) (hoctets : octets ≠ []) :
    ∃ s tlvs, a = make s tlvs ∧ Appends (do field.write s; tlvs.write) (.ok ()) octets := by
  rw [readTextAndTlvs_eq field make hoctets] at h
  obtain ⟨s, mid, hs, h⟩ := Reader.bind_ok h
  obtain ⟨tlvs, mid', htlvs, h⟩ := Reader.bind_ok (k := fun tlvs => pure (make s tlvs)) h
  cases h
  obtain ⟨taken, _, rfl, rfl, hwrite⟩ := field.retraces _ _ _ hs
  obtain ⟨taken', _, rfl, rfl, hwrite'⟩ := TlvMap.retraces _ _ _ htlvs
  obtain ⟨-, rfl⟩ := TlvMap.read_ok htlvs
  rw [List.append_nil]
  exact ⟨s, tlvs, rfl, hwrite.bind hwrite'⟩

namespace Pdu

variable {command : Command} {body unread : List UInt8} {p : Pdu}

theorem map_ok {r : Reader α} {g : α → β} {octets rest : List UInt8} {b : β}
    (h : (g <$> r) octets = .ok (b, rest)) : ∃ a, r octets = .ok (a, rest) ∧ b = g a := by
  obtain ⟨a, mid, hr, h⟩ := Reader.bind_ok (k := fun a => pure (g a)) h
  cases h
  exact ⟨a, hr, rfl⟩

theorem bind_retraces (type : BindType) (h : (bind type <$> BindParameters.read) body = .ok (p, unread)) :
    ∃ written, Appends p.write (.ok ()) written ∧ Settles type.command body written := by
  obtain ⟨b, hb, rfl⟩ := map_ok h
  obtain ⟨fields, hlayout, rfl⟩ := BindParameters.read_ok hb
  obtain ⟨taken, _, hsplit, rfl, hwrite⟩ := BindParameters.retraces _ _ _ hb
  obtain rfl := List.append_cancel_right hsplit
  refine ⟨fields, hwrite, ?_⟩
  by_cases hunread : unread = []
  · refine .inl ⟨by rw [hunread, List.append_nil], fun other ht => ?_⟩
    obtain ⟨hlayout', extra, hextra, heq⟩ := ht.of_bind
    obtain rfl := hlayout.eq_of_append hlayout' heq
    exact hextra (List.append_cancel_left heq ▸ hunread)
  · exact .inr (.behind type hlayout hunread)

theorem textual_retraces {field : TextField} {make : String → TlvMap → α} {g : α → Pdu}
    (hcommand : command ∈ Command.textual) (hempty : field.Fits "")
    (hwrite : ∀ s tlvs, (g (make s tlvs)).write = do field.write s; tlvs.write)
    (h : (g <$> readTextAndTlvs field make) body = .ok (p, unread)) :
    ∃ written, Appends p.write (.ok ()) written ∧ Settles command body written := by
  obtain ⟨a, ha, rfl⟩ := map_ok h
  by_cases hbody : body = []
  · subst hbody
    cases ha
    refine ⟨[0], ?_, .inr (.bare hcommand)⟩
    rw [hwrite]
    exact .bind (TextField.write_appends hempty) .pure
  · obtain ⟨s, tlvs, rfl, happends⟩ := textAndTlvs_retraces ha hbody
    rw [hwrite]
    exact ⟨body, happends, .inl ⟨rfl, fun other ht => hbody (Tolerance.of_textual hcommand ht).1⟩⟩

theorem message_retraces {g : ShortMessage → Pdu} (hwrite : ∀ m, (g m).write = m.write)
    (h : (g <$> ShortMessage.read) body = .ok (p, unread)) : Appends p.write (.ok ()) body := by
  obtain ⟨m, hm, rfl⟩ := map_ok h
  obtain ⟨taken, _, hsplit, rfl, happends⟩ := ShortMessage.retraces _ _ _ hm
  rw [ShortMessage.exhausts _ _ _ hm, List.append_nil] at hsplit
  rw [hwrite, hsplit]
  exact happends

theorem bodiless_retraces {q : Pdu} (hcommand : command ∈ Command.bodiless) (hwrite : q.write = pure ())
    (h : (pure q : Reader Pdu) body = .ok (p, unread)) :
    ∃ written, Appends p.write (.ok ()) written ∧ Settles command body written := by
  cases h
  refine ⟨[], hwrite ▸ .pure, ?_⟩
  by_cases hbody : body = []
  · exact .inl ⟨hbody.symm, fun other ht => (Tolerance.of_bodiless hcommand ht).1 hbody⟩
  · exact .inr (.bodiless hcommand hbody)

/-- A body that is read is one that is written, or a tolerance tells what is written for it. -/
theorem retraces (h : Pdu.read command body = .ok (p, unread)) :
    ∃ written, Appends p.write (.ok ()) written ∧ Settles command body written := by
  cases command with
  | bindTransmitter => exact bind_retraces .transmitter h
  | bindReceiver => exact bind_retraces .receiver h
  | bindTransceiver => exact bind_retraces .transceiver h
  | bindTransmitterResp | bindReceiverResp | bindTransceiverResp | submitSmResp | deliverSmResp =>
    exact textual_retraces (by decide) (by decide) (fun _ _ => rfl) h
  | submitSm =>
    exact ⟨body, message_retraces (fun _ => rfl) h, .inl ⟨rfl, fun _ ht => ht.not_message.1 rfl⟩⟩
  | deliverSm =>
    exact ⟨body, message_retraces (fun _ => rfl) h, .inl ⟨rfl, fun _ ht => ht.not_message.2.1 rfl⟩⟩
  | enquireLink | enquireLinkResp | unbind | unbindResp | genericNack =>
    exact bodiless_retraces (by decide) rfl h
  | other code =>
    cases h
    exact ⟨body, .octets body, .inl ⟨rfl, fun _ ht => ht.not_message.2.2 code rfl⟩⟩

theorem read_behind (type : BindType) {fields : List UInt8}
    (h : (bind type <$> BindParameters.read) fields = .ok (p, unread)) (extra : List UInt8) :
    (bind type <$> BindParameters.read) (fields ++ extra) = .ok (p, unread ++ extra) := by
  obtain ⟨b, hb, rfl⟩ := map_ok h
  obtain ⟨taken, _, rfl, rfl, hwrite⟩ := BindParameters.retraces _ _ _ hb
  obtain ⟨octets, hoctets, hread⟩ :=
    BindParameters.undoes (R := fun _ => True) (BindParameters.gives.ok hb) [] taken (hwrite [])
  obtain rfl : taken = octets := hoctets
  have hmore : BindParameters.read (taken ++ (unread ++ extra)) = .ok (b, unread ++ extra) :=
    hread _ trivial
  show (BindParameters.read >>= fun b => pure (bind type b)) (taken ++ unread ++ extra) = _
  rw [Reader.run_bind, List.append_assoc, hmore]
  rfl

/-- A text of no octets and no parameters are read from a NUL as they are read from nothing. -/
theorem read_bare {field : TextField} {make : String → TlvMap → α} {g : α → Pdu} (hempty : field.Fits "")
    (h : (g <$> readTextAndTlvs field make) [0] = .ok (p, unread)) :
    (g <$> readTextAndTlvs field make) [] = .ok (p, []) := by
  have hwrite : Appends (do field.write ""; TlvMap.empty.write) (.ok ()) [0] :=
    .bind (TextField.write_appends hempty) .pure
  obtain ⟨octets, rfl, hread⟩ := textAndTlvs_undoes field make (by decide) .empty [] [0] (hwrite [])
  obtain ⟨a, ha, rfl⟩ := map_ok h
  have hnul := hread [] rfl
  rw [List.append_nil] at hnul
  cases ha.symm.trans hnul
  rfl

/-- What is tolerated is read as what would be written in its place. -/
theorem read_of_tolerance {written : List UInt8} (ht : Tolerance command body written)
    (h : Pdu.read command written = .ok (p, unread)) :
    ∃ unread', Pdu.read command body = .ok (p, unread') := by
  cases ht with
  | behind type layout some =>
    cases type with
    | transmitter => exact ⟨_, read_behind .transmitter h _⟩
    | receiver => exact ⟨_, read_behind .receiver h _⟩
    | transceiver => exact ⟨_, read_behind .transceiver h _⟩
  | bodiless without some =>
    simp only [Command.bodiless, List.mem_cons, List.not_mem_nil, or_false] at without
    obtain rfl | rfl | rfl | rfl | rfl := without <;> cases h <;> exact ⟨body, rfl⟩
  | bare response =>
    simp only [Command.textual, List.mem_cons, List.not_mem_nil, or_false] at response
    obtain rfl | rfl | rfl | rfl | rfl := response <;> exact ⟨[], read_bare (by decide) h⟩

end Pdu

/-! ## Frames -/

namespace Frame

/-- The octets that the front of a buffer declares to be one frame. -/
def wire (buffer : List UInt8) : List UInt8 := buffer.take (declaredLength buffer)

/-- The three numbers of a header behind the length: command, status and sequence. -/
def numbersOf (buffer : List UInt8) : List UInt8 := (buffer.drop 4).take 12

/-- What stands behind the header. -/
def bodyOf (buffer : List UInt8) : List UInt8 := (wire buffer).drop headerLength

/-- A buffer that starts with a whole frame, as its length says, whatever the frame is. -/
def IsWhole (buffer : List UInt8) : Prop :=
  InBounds (declaredLength buffer) ∧ declaredLength buffer ≤ buffer.length

variable {buffer : List UInt8} {f : Frame}

theorem IsWhole.length_wire (h : IsWhole buffer) :
    headerLength + (bodyOf buffer).length = declaredLength buffer := by
  have hheader := h.1.1
  rw [bodyOf, wire, List.length_drop, List.length_take_of_le h.2]
  omega

/-- The octets of a whole frame are its length, its numbers and its body. -/
theorem IsWhole.wire_eq (h : IsWhole buffer) (hnumbers : numbersOf buffer = f.numbers) :
    wire buffer = f.octetsWith (bodyOf buffer) := by
  have hlength := h.length_wire
  have hheader := h.1.1
  rw [octetsWith, hlength, ← hnumbers]
  rcases buffer with _ | ⟨l₁, _ | ⟨l₂, _ | ⟨l₃, _ | ⟨l₄, rest⟩⟩⟩⟩
  case cons =>
    obtain ⟨k, hk⟩ := Nat.exists_eq_add_of_le' (Nat.le_trans (by decide : 4 + 12 ≤ headerLength) hheader)
    have hwire : wire (l₁ :: l₂ :: l₃ :: l₄ :: rest) = l₁ :: l₂ :: l₃ :: l₄ :: rest.take (k + 12) := by
      rw [wire, hk]
      rfl
    have hcode : UInt32.ofNat (declaredLength (l₁ :: l₂ :: l₃ :: l₄ :: rest)) =
        Octets.toUInt32 l₁ l₂ l₃ l₄ := UInt32.ofNat_toNat
    have hbody : bodyOf (l₁ :: l₂ :: l₃ :: l₄ :: rest) = (rest.take (k + 12)).drop 12 := by
      rw [bodyOf, hwire]
      rfl
    have hfront : numbersOf (l₁ :: l₂ :: l₃ :: l₄ :: rest) = (rest.take (k + 12)).take 12 := by
      rw [List.take_take, Nat.min_eq_left (Nat.le_add_left ..)]
      rfl
    rw [hcode, Octets.ofUInt32_toUInt32, hwire, hbody, hfront, List.take_append_drop]
    rfl
  all_goals exact absurd hheader (Nat.not_succ_le_zero _)

theorem octetsWith_injective {body body' : List UInt8} (h : f.octetsWith body = f.octetsWith body') :
    body = body' := by
  rw [← drop_octetsWith f body, h, drop_octetsWith]

theorem isWhole_octetsWith (f : Frame) {body : List UInt8} (h : headerLength + body.length ≤ maxPduLength) :
    IsWhole (f.octetsWith body) ∧ bodyOf (f.octetsWith body) = body := by
  have hlength := length_octetsWith f body
  have hdeclared := declaredLength_eq (readHeader_octetsWith f h)
  refine ⟨⟨?_, ?_⟩, ?_⟩
  · rw [hdeclared]
    exact ⟨Nat.le_add_right .., h⟩
  · exact Nat.le_of_eq (hdeclared.trans hlength.symm)
  · rw [bodyOf, wire, hdeclared, ← hlength, List.take_length]
    exact drop_octetsWith f body

theorem numbersOf_eq {length : Nat} {header : Header} (h : readHeader buffer = some (length, header)) :
    numbersOf buffer = Octets.ofUInt32 header.command.code ++ Octets.ofUInt32 header.status.code ++
      Octets.ofUInt32 header.sequence := by
  unfold readHeader at h
  split at h
  · cases h
    rw [Command.code_ofCode, Status.code_ofCode, Octets.ofUInt32_toUInt32, Octets.ofUInt32_toUInt32,
      Octets.ofUInt32_toUInt32]
    rfl
  · cases h

/-- What the front of a buffer is if a frame is read from it. -/
theorem spelling_of_decode (h : Frame.decode buffer = .ok f) :
    IsWhole buffer ∧ numbersOf buffer = f.numbers ∧
      ∃ unread, Pdu.read f.command (bodyOf buffer) = .ok (f.pdu, unread) := by
  obtain ⟨rest, htake⟩ := take?_of_decode h
  have hwell := wellFormed_of_take? htake
  have htakes := take?_takes buffer
  rw [htake] at htakes
  cases htakes with
  | whole length header starts bounds le pdu unread reads =>
    have hdeclared := declaredLength_eq starts
    refine ⟨⟨hdeclared ▸ bounds, hdeclared ▸ le⟩, ?_, unread, ?_⟩
    · rw [numbers, ← hwell.command]
      exact numbersOf_eq starts
    · rw [bodyOf, wire, hdeclared]
      exact reads

/-- A frame is read from a buffer that starts with its numbers and a body that is read as its own. -/
theorem decode_of_spelling {unread : List UInt8} (hf : f.WellFormed) (hwhole : IsWhole buffer)
    (hnumbers : numbersOf buffer = f.numbers) (hread : Pdu.read f.command (bodyOf buffer) = .ok (f.pdu, unread)) :
    Frame.decode buffer = .ok f := by
  have hlength : headerLength + (bodyOf buffer).length ≤ maxPduLength := hwhole.length_wire ▸ hwhole.1.2
  have halone := take?_octetsWith hf hlength hread
  rw [← hwhole.wire_eq hnumbers] at halone
  have htake := take?_append_frame halone (buffer.drop (declaredLength buffer))
  rw [wire, List.take_append_drop] at htake
  rw [Frame.decode, htake]

/-- A frame that is read has octets of its own: its numbers and a body. -/
theorem encode_of_decode (h : Frame.decode buffer = .ok f) :
    ∃ body, f.encode = .ok (f.octetsWith body) ∧ headerLength + body.length ≤ maxPduLength ∧
      Settles f.command (bodyOf buffer) body := by
  obtain ⟨hwhole, hnumbers, unread, hread⟩ := spelling_of_decode h
  obtain ⟨body, hwrite, hbody⟩ := Pdu.retraces hread
  have hlength : headerLength + body.length ≤ maxPduLength := by
    have hbound := hwhole.1.2
    rw [← hwhole.length_wire] at hbound
    obtain ⟨rfl, -⟩ | ht := hbody
    · exact hbound
    · have := ht.length_le
      unfold headerLength maxPduLength at *
      omega
  refine ⟨body, ?_, hlength, hbody⟩
  rw [encode, append_of_ok hwrite hlength]
  rfl

/-- What one frame may be read from, given the body that is written for it. -/
theorem decode_iff_spelling {body : List UInt8} (h : f.encode = .ok (f.octetsWith body))
    (hlength : headerLength + body.length ≤ maxPduLength) (hf : f.WellFormed) (octets : List UInt8) :
    Frame.decode octets = .ok f ↔ IsWhole octets ∧ numbersOf octets = f.numbers ∧
      (bodyOf octets = body ∨ Tolerance f.command (bodyOf octets) body) := by
  constructor
  · intro hdecode
    obtain ⟨hwhole, hnumbers, -⟩ := spelling_of_decode hdecode
    obtain ⟨body', hencode, -, hbody⟩ := encode_of_decode hdecode
    cases octetsWith_injective (Except.ok.inj (h.symm.trans hencode))
    exact ⟨hwhole, hnumbers, hbody.imp_left fun hsame => hsame.1.symm⟩
  · rintro ⟨hwhole, hnumbers, hbody⟩
    obtain ⟨-, -, unread, hread⟩ := spelling_of_decode (decode_of_encode hf h)
    rw [(isWhole_octetsWith f hlength).2] at hread
    obtain hbody | hbody := hbody
    · exact decode_of_spelling hf hwhole hnumbers (hbody ▸ hread)
    · obtain ⟨unread', hread'⟩ := Pdu.read_of_tolerance hbody hread
      exact decode_of_spelling hf hwhole hnumbers hread'

/-! ## Spellings -/

/-- How a frame that was read from `octets` is written, to `e`, and what else is read as the frame. -/
structure Spelled (octets : List UInt8) (f : Frame) (e : List UInt8) : Prop where
  encoded : f.encode = .ok e
  decoded : Frame.decode e = .ok f
  /-- All header fields but the length are the same. -/
  numbers : numbersOf e = numbersOf octets
  /-- If no tolerance applies, the octets of the frame are written as they came. -/
  same : (∀ written, ¬ Tolerance f.command (bodyOf octets) written) → e = wire octets
  /-- If one applies, they are not, and the body is written as it says. -/
  tolerated : ∀ written, Tolerance f.command (bodyOf octets) written → e ≠ wire octets ∧ bodyOf e = written
  /-- The frame is read from every whole frame with these numbers and this body, or a body for which this
  one is written, and from nothing else. -/
  spellings : ∀ octets', Frame.decode octets' = .ok f ↔ IsWhole octets' ∧ numbersOf octets' = numbersOf e ∧
    (bodyOf octets' = bodyOf e ∨ Tolerance f.command (bodyOf octets') (bodyOf e))
  /-- A message or an unmodelled PDU is read from one sequence of octets only. -/
  alone : f.command = .submitSm ∨ f.command = .deliverSm ∨ (∃ code, f.command = .other code) →
    ∀ octets', Frame.decode octets' = .ok f → wire octets' = wire octets

/-- **Canonical octets**: what is read is written as it was read, but for three tolerances. -/
theorem spelled {octets : List UInt8} {f : Frame} (h : Frame.decode octets = .ok f) :
    ∃ e, Spelled octets f e := by
  have hf := wellFormed_of_decode h
  obtain ⟨body, hencode, hlength, hbody⟩ := encode_of_decode h
  obtain ⟨hwhole, hnumbers, -⟩ := spelling_of_decode h
  obtain ⟨-, hwritten⟩ := isWhole_octetsWith f hlength
  have hspelling := decode_iff_spelling hencode hlength hf
  have hwire := hwhole.wire_eq hnumbers
  refine ⟨f.octetsWith body, hencode, decode_of_encode hf hencode, hnumbers.symm, ?_, ?_, ?_, ?_⟩
  · intro hnone
    rw [hwire, hbody.eq hnone]
  · intro written ht
    obtain rfl := hbody.eq_of_tolerance ht
    refine ⟨fun heq => ?_, hwritten⟩
    rw [hwire] at heq
    exact ht.ne (octetsWith_injective heq)
  · rw [hwritten]
    exact hspelling
  · intro hcommand octets' hdecode
    have hnone : ∀ body written, ¬ Tolerance f.command body written := by
      intro body written ht
      obtain ⟨hsubmit, hdeliver, hother⟩ := ht.not_message
      obtain h | h | ⟨code, h⟩ := hcommand
      · exact hsubmit h
      · exact hdeliver h
      · exact hother code h
    obtain ⟨hwhole', hnumbers', hbody'⟩ := (hspelling octets').mp hdecode
    rw [hwhole'.wire_eq hnumbers', hwire, ← hbody.eq (hnone _), hbody'.resolve_right (hnone _ _)]

/-- A bind with two octets behind its last field, and the start of another frame behind it. -/
def trailing : List UInt8 :=
  [0, 0, 0, 40, 0, 0, 0, 9, 0, 0, 0, 0, 0, 0, 0, 7, 101, 115, 109, 101, 48, 49, 0, 115, 101, 99, 114, 101, 116, 0,
    86, 77, 65, 0, 0x34, 1, 1, 0, 0xDE, 0xAD, 0, 0, 0, 16]

theorem trailing_spelled :
    Frame.decode trailing = .ok (request 7 <| .bind .transceiver ⟨"esme01", "secret", "VMA", 0x34, 1, 1, ""⟩) ∧
      ∃ e, Spelled trailing (request 7 <| .bind .transceiver ⟨"esme01", "secret", "VMA", 0x34, 1, 1, ""⟩) e :=
  ⟨rfl, spelled rfl⟩

end Frame

end Smsc
