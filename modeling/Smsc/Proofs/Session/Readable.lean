import Smsc.Proofs.Pdu.RoundTrip
import Smsc.Proofs.Session.Binding
import Smsc.Proofs.Session.Leaks
import Smsc.Proofs.Session.Writing

/-!
# Smsc.Proofs.Session.Readable — what was written is read back, but for NULs

Every frame on the wire was meant by somebody: a request was refused, a reply was sent through a responder,
or a call was begun. A frame that does not fit the wire is not written. Nobody looks for a NUL in a text,
though. The client takes a text to end there, and reads what follows as something else.

* `Frame.named`: a raw status comes back by its name; `Frame.IsModelled.decode_iff`: which frames come back;
* `Frame.Conveys`: what a reply carries; `Call.Makes.ofFrame_eq`: what a request carries;
* `Means s x f`: the step `x` is the reason for the frame; `MeansAll`, `before_meansAll`: what may still go out;
* `Emits.transmits`: a frame on its way out is encoded, `Emits.countsFault`: or counted;
* `Readable s xs`, `written_readable`: every run; `written_unreadable`: a NUL is let through.
-/

namespace Smsc

/-! ## Frames and their texts -/

namespace Frame

variable {f q : Frame} {octets : List UInt8} {status : Status}

/-- The frame with its status as a reader has it: by its name, if the code has one. -/
def named (f : Frame) : Frame := { f with header := { f.header with status := .ofCode f.status.code } }

theorem encode_named (f : Frame) : f.named.encode = f.encode := by
  have hwrite : f.named.write = f.write := by
    have hcode : f.named.status.code = f.status.code := Status.code_ofCode f.status.code
    unfold write
    rw [hcode]
    rfl
  rw [encode, append, hwrite, encode, append]

/-- The header is that of the body, and the body is modelled. -/
structure IsModelled (f : Frame) : Prop where
  command : f.command = f.pdu.command
  body : ∀ code octets, f.pdu ≠ .other code octets

/-- Of the frames that the server makes, those are read back whose texts hold no NUL. -/
theorem IsModelled.decode_iff (h : f.IsModelled) (encode : f.encode = .ok octets) :
    Frame.decode octets = .ok f.named ↔ ∀ t ∈ f.pdu.texts, NulFree t := by
  have hencode : f.named.encode = .ok octets := by rw [encode_named, encode]
  rw [decode_encode_iff hencode]
  refine ⟨fun wellFormed => wellFormed.texts, fun texts => ⟨h.command, ?_, ?_, texts⟩⟩
  · intro known hknown hstatus
    have hcanonical : f.named.status.Canonical := Status.canonical_ofCode f.status.code
    rw [hstatus] at hcanonical
    exact Status.canonical_other_iff.mp hcanonical known hknown rfl
  · intro known _ octets
    exact h.body known.code octets

theorem isModelled_responseFor (q : Frame) (status : Status) : (responseFor q status).IsModelled := by
  refine ⟨rfl, fun code octets => ?_⟩
  show q.pdu.response ≠ _
  cases q.pdu <;> nofun

/-- A refusal has nothing to say. -/
theorem texts_responseFor (q : Frame) (status : Status) {t : String}
    (h : t ∈ (responseFor q status).pdu.texts) : NulFree t := by
  have h : t ∈ q.pdu.response.texts := h
  cases hpdu : q.pdu <;> rw [hpdu] at h <;> simp [Pdu.response, Pdu.texts] at h <;> subst h <;> decide

/-- What a reply to `q` carries: the server's name and version to a bind, the message's id to a submit_sm. -/
structure Conveys (f q : Frame) (serverSystemId : String) (status : Status) (messageId : Option String) :
    Prop where
  answers : f.Answers q
  status_eq : f.status = status
  bind : ∀ type b, q.pdu = .bind type b →
    f.pdu = .bindResp type ⟨serverSystemId, if status.isOk then ⟨[.interfaceVersion34]⟩ else .empty⟩
  submitSm : ∀ m, q.pdu = .submitSm m → f.pdu = .submitSmResp ⟨messageId.getD "", .empty⟩
  other : (∀ type b, q.pdu ≠ .bind type b) → (∀ m, q.pdu ≠ .submitSm m) → f.pdu = q.pdu.response

variable {serverSystemId : String} {messageId : Option String}

theorem conveys_responseFrame (isRead : q.IsRead) (serverSystemId : String) (status : Status)
    (messageId : Option String) :
    (Session.responseFrame serverSystemId q status messageId).Conveys q serverSystemId status messageId := by
  obtain ⟨hsequence, hcommand, hbody⟩ := Session.responseFrame_matches serverSystemId q status messageId
  refine ⟨⟨hsequence, hcommand.trans isRead.response_command, hbody⟩,
    Session.responseFrame_status serverSystemId q status messageId, ?_, ?_, ?_⟩
  · intro type b hpdu
    simp only [Session.responseFrame, responseFor, make, hpdu, Pdu.response]
    rfl
  · intro m hpdu
    simp only [Session.responseFrame, responseFor, make, hpdu, Pdu.response]
    rfl
  · intro hbind hsubmit
    cases hpdu : q.pdu with
    | bind type b => exact absurd hpdu (hbind type b)
    | submitSm m => exact absurd hpdu (hsubmit m)
    | _ => simp only [Session.responseFrame, responseFor, make, hpdu, Pdu.response]

theorem Conveys.isModelled (h : f.Conveys q serverSystemId status messageId) : f.IsModelled := by
  refine ⟨h.answers.body.symm, fun code octets => ?_⟩
  cases hpdu : q.pdu with
  | bind type b =>
    rw [h.bind type b hpdu]
    nofun
  | submitSm m =>
    rw [h.submitSm m hpdu]
    nofun
  | _ =>
    rw [h.other (by simp [hpdu]) (by simp [hpdu]), hpdu]
    nofun

/-- The texts of a reply are those that were given for it. -/
theorem Conveys.texts (h : f.Conveys q serverSystemId status messageId) (server : NulFree serverSystemId)
    (id : ∀ t, messageId = some t → NulFree t) {t : String} (ht : t ∈ f.pdu.texts) : NulFree t := by
  cases hpdu : q.pdu with
  | bind type b =>
    rw [h.bind type b hpdu] at ht
    obtain rfl : t = serverSystemId := by simpa [Pdu.texts] using ht
    exact server
  | submitSm m =>
    rw [h.submitSm m hpdu] at ht
    obtain rfl : t = messageId.getD "" := by simpa [Pdu.texts] using ht
    cases messageId with
    | none => decide
    | some given => exact id given rfl
  | _ =>
    rw [h.other (by simp [hpdu]) (by simp [hpdu])] at ht
    exact texts_responseFor q status ht

end Frame

namespace Call.Makes

variable {c : Call} {f : Frame}

/-- The client is sent a message, a question whether it is there, or an unbind. -/
theorem body (h : c.Makes f) :
    (∃ m, c.request.body = .deliverSm m ∧ f.pdu = .deliverSm m.toShortMessage) ∨
      c.request.body = .enquireLink ∧ f.pdu = .enquireLink ∨ c.request.body = .unbind ∧ f.pdu = .unbind := by
  obtain ⟨pdu, hpdu, hf⟩ := Option.map_eq_some_iff.mp h.frame
  obtain rfl : f.pdu = pdu := by rw [← hf]; rfl
  have may : Session.maySend c.request.body.command = true := h.may
  cases hbody : c.request.body with
  | bind r =>
    rw [hbody] at may
    cases hr : r.type <;> simp [RequestBody.command, BindType.command, Session.maySend, hr] at may
  | submitSm m => simp [hbody, RequestBody.command, Session.maySend] at may
  | deliverSm m =>
    rw [hbody] at hpdu
    exact .inl ⟨m, rfl, (Option.some.inj hpdu).symm⟩
  | enquireLink =>
    rw [hbody] at hpdu
    exact .inr (.inl ⟨rfl, (Option.some.inj hpdu).symm⟩)
  | unbind =>
    rw [hbody] at hpdu
    exact .inr (.inr ⟨rfl, (Option.some.inj hpdu).symm⟩)
  | other command => simp [hbody, RequestBody.toPdu?] at hpdu

/-- What the client is sent says what the call asks for. -/
theorem ofFrame_eq (h : c.Makes f) : Request.ofFrame f = ⟨some f.sequence, c.request.body⟩ ∧ f.status = .ok := by
  obtain ⟨pdu, -, hf⟩ := Option.map_eq_some_iff.mp h.frame
  refine ⟨?_, by rw [← hf]; rfl⟩
  rw [Request.ofFrame]
  rcases h.body with ⟨m, hbody, hpdu⟩ | ⟨hbody, hpdu⟩ | ⟨hbody, hpdu⟩ <;> rw [hbody, hpdu]
  rfl

theorem isModelled (h : c.Makes f) : f.IsModelled := by
  refine ⟨h.isOutbound.2.symm, fun code octets => ?_⟩
  rcases h.body with ⟨m, -, hpdu⟩ | ⟨-, hpdu⟩ | ⟨-, hpdu⟩ <;> rw [hpdu] <;> nofun

/-- The texts of a request to the client are the addresses of its message. -/
theorem texts (h : c.Makes f)
    (addresses : ∀ m, c.request.body = .deliverSm m → NulFree m.source.address ∧ NulFree m.destination.address)
    {t : String} (ht : t ∈ f.pdu.texts) : NulFree t := by
  rcases h.body with ⟨m, hbody, hpdu⟩ | ⟨-, hpdu⟩ | ⟨-, hpdu⟩ <;> rw [hpdu] at ht
  · obtain ⟨source, destination⟩ := addresses m hbody
    have hempty : NulFree "" := by decide
    simp only [Pdu.texts, ShortMessage.texts, Message.toShortMessage, List.mem_cons, List.not_mem_nil,
      or_false] at ht
    rcases ht with rfl | rfl | rfl | rfl | rfl <;> assumption
  · cases ht
  · cases ht

end Call.Makes

namespace Session

variable {s t : Session} {x : Step} {k : Nat} {f : Frame}

/-! ## Who meant a frame -/

/-- The step `x` is the reason for the frame `f`. -/
inductive Means (s : Session) (x : Step) (f : Frame) : Prop where
  /-- A request is taken, and refused. -/
  | refuses (q : Frame) (received : .received q ∈ (s.step x).log) (status : Status)
      (rule : Refuses q status) (f_eq : f = .responseFor q status)
  /-- A reply is sent to a request, by its processor or by whoever kept the responder. -/
  | replies (k : Nat) (q : Frame) (reply : Reply) (sends : s.Sends k q reply x)
      (received : .received q ∈ s.log) (status : Status)
      (settled : status = reply.status ∨ status = .alreadyBound ∧ reply.status = .ok ∧ s.status = .bound ∧
        ∃ type, q.kind = .bind type)
      (conveys : f.Conveys q s.serverSystemId status reply.messageId)
  /-- A request is to be sent to the client. -/
  | asks (c : Call) (asked : c.AskedBy x) (makes : c.Makes f)
      (carries : Request.ofFrame f = ⟨some f.sequence, c.request.body⟩ ∧ f.status = .ok)

theorem Means.isModelled (h : s.Means x f) : f.IsModelled := by
  cases h with
  | refuses q received status rule f_eq => exact f_eq ▸ Frame.isModelled_responseFor q status
  | replies k q reply sends received status settled conveys => exact conveys.isModelled
  | asks c asked makes => exact makes.isModelled

variable {xs : List Step} {i j : Nat}

/-- A step before the `j`-th is the reason for the frame. The server's name has not changed by then. -/
def Meant (s : Session) (xs : List Step) (j : Nat) (f : Frame) : Prop :=
  ∃ i < j, ∃ x, xs[i]? = some x ∧ (s.before xs i).serverSystemId = s.serverSystemId ∧
    (s.before xs i).Means x f

theorem Meant.later (h : s.Meant xs i f) (hij : i ≤ j) : s.Meant xs j f := by
  obtain ⟨l, hl, hmeant⟩ := h
  exact ⟨l, Nat.lt_of_lt_of_le hl hij, hmeant⟩

/-- Whatever may still go out was meant: the replies that are due, the refusal in the reader's hands, and
the requests of the calls. -/
structure MeansAll (s : Session) (xs : List Step) (j : Nat) : Prop where
  due : ∀ k f, (k, f) ∈ (s.before xs j).due → s.Meant xs j f
  refusal : ∀ f, (s.before xs j).reader.refusal? = some f → s.Meant xs j f
  asked : ∀ c ∈ (s.before xs j).calls, ∀ f, c.Makes f → s.Meant xs j f

theorem MeansAll.later (h : s.MeansAll xs j) (none : xs[j]? = none) : s.MeansAll xs (j + 1) := by
  refine ⟨fun k f hf => ?_, fun f hf => ?_, fun c hc f hf => ?_⟩
  · rw [before_succ_of_none none] at hf
    exact (h.due k f hf).later (Nat.le_succ j)
  · rw [before_succ_of_none none] at hf
    exact (h.refusal f hf).later (Nat.le_succ j)
  · rw [before_succ_of_none none] at hc
    exact (h.asked c hc f hf).later (Nat.le_succ j)

theorem MeansAll.succ (hs : s.Orderly) (hn : s.Numbered) {origin pays : Nat → Nat}
    (hl : s.Ledger origin pays) (h : s.MeansAll xs j) : s.MeansAll xs (j + 1) := by
  cases hx : xs[j]? with
  | none => exact h.later hx
  | some x =>
    have horderly : (s.before xs j).Orderly := before_orderly hs j
    have hnumbered : (s.before xs j).Numbered := before_numbered hs hn j
    have hserver : (s.before xs j).serverSystemId = s.serverSystemId := before_server hs hn j
    obtain ⟨origin, pays, hledger⟩ : ∃ origin pays, (s.before xs j).Ledger origin pays :=
      before_ledger hs hn hl j
    have hdeals := step_deals horderly hnumbered x
    have hreplies := (step_serves horderly hnumbered x).replies
    have now {f : Frame} (means : (s.before xs j).Means x f) : s.Meant xs (j + 1) f :=
      ⟨j, Nat.lt_succ_self j, x, hx, hserver, means⟩
    refine ⟨fun k f hf => ?_, fun f hf => ?_, fun b hb f hf => ?_⟩
    · rw [before_succ hx] at hf
      rcases hdeals.mem_due hreplies hf with hold | ⟨q, reply, u, status, sends, settling, rfl⟩
      · exact (h.due k f hold).later (Nat.le_succ j)
      · obtain ⟨⟨asks, -⟩, isRead⟩ := hledger.owed.request k _ sends.unsent
        have received : .received q ∈ (s.before xs j).log := List.mem_reverse.mp (List.mem_of_getElem? asks)
        exact now (.replies k q reply sends received status settling.status_eq
          (Frame.conveys_responseFrame isRead _ _ _))
    · rw [before_succ hx] at hf
      rcases hdeals.refused hf with hold | ⟨q, status, received, rule, rfl⟩
      · exact (h.refusal f hold).later (Nat.le_succ j)
      · exact now (.refuses q received status rule rfl)
    · rw [before_succ hx] at hb
      rcases mem_calls_step horderly hb with hold | ⟨-, -, asked⟩ | ⟨c, hc, ⟨stage, rfl⟩, -⟩
      · exact (h.asked b hold f hf).later (Nat.le_succ j)
      · exact now (.asks b asked hf hf.ofFrame_eq)
      · exact (h.asked c hc f (hf.at c.stage)).later (Nat.le_succ j)

theorem before_meansAll (hs : s.Orderly) (hn : s.Numbered) {origin pays : Nat → Nat}
    (hl : s.Ledger origin pays) (h : s.MeansAll xs 0) (j : Nat) : s.MeansAll xs j := by
  induction j with
  | zero => exact h
  | succ j ih => exact ih.succ hs hn hl

theorem fresh_meansAll (id : UInt32) (peer : Option SocketAddress) (serverSystemId : String)
    (settings : SessionSettings) (processor : Nat) (now : Instant) (xs : List Step) :
    (fresh id peer serverSystemId settings processor now).MeansAll xs 0 := by
  refine ⟨?_, ?_, ?_⟩ <;> simp [before, fresh, due, Reader.Stage.due, Reader.Stage.refusal?]

/-- What is on its way out was meant. -/
theorem MeansAll.of_emits (hs : (s.before xs j).Orderly) (h : s.MeansAll xs j)
    (emits : (s.before xs j).Emits f x) : s.Meant xs j f := by
  cases emits with
  | reply x k seesOff => exact h.due k f seesOff.mem_due
  | refusal stage flows => exact h.refusal f (by rw [stage]; rfl)
  | request id c found n stage flows =>
    have hc : c ∈ (s.before xs j).calls := List.mem_of_find?_eq_some found
    exact h.asked c hc f ((hs.fits c hc).makes f (by rw [stage]; rfl))

/-! ## Frames that do not fit -/

/-- The step `x` counts a frame that has no octets, and writes nothing. -/
def CountsFault (s : Session) (x : Step) : Prop :=
  ∃ new, (s.step x).log = new ++ s.log ∧ .measured (.pduError "encode") ∈ new ∧
    ∀ f octets, .wrote f octets ∉ new

theorem Emits.countsFault (h : s.Emits f x) (hn : s.Numbered) {e : CodecError} (encode : f.encode = .error e) :
    s.CountsFault x := by
  obtain ⟨new, log, silent⟩ := h.transmits hn
  rw [transmit_of_error encode] at log
  refine ⟨new ++ [.measured (.pduError "encode")], by rw [log, List.append_assoc]; rfl, by simp,
    fun g octets hmem => ?_⟩
  rcases List.mem_append.mp hmem with hmem | hmem
  · exact silent g octets hmem
  · simp at hmem

/-! ## Runs -/

/-- No text that the server is given holds a NUL: its name, the ids of messages, and the addresses in
messages to the client. -/
structure GivenNoNul (s : Session) (xs : List Step) : Prop where
  server : NulFree s.serverSystemId
  replies : ∀ i x, xs[i]? = some x → ∀ k q reply, (s.before xs i).Sends k q reply x →
    ∀ id, reply.messageId = some id → NulFree id
  messages : ∀ request timeout, .feel (.send request timeout) ∈ xs → ∀ m, request.body = .deliverSm m →
    NulFree m.source.address ∧ NulFree m.destination.address

theorem Meant.texts (h : s.Meant xs j f) (given : s.GivenNoNul xs) : ∀ t ∈ f.pdu.texts, NulFree t := by
  intro t ht
  obtain ⟨i, -, x, hx, hserver, hmeans⟩ := h
  cases hmeans with
  | refuses q received status rule f_eq =>
    rw [f_eq] at ht
    exact Frame.texts_responseFor q status ht
  | replies k q reply sends received status settled conveys =>
    exact conveys.texts (hserver ▸ given.server) (given.replies i x hx k q reply sends) ht
  | asks c asked makes =>
    refine makes.texts (fun m hbody => ?_) ht
    cases asked with
    | send purpose => exact given.messages c.request c.timeout (List.mem_of_getElem? hx) m hbody
    | close purpose request =>
      rw [request] at hbody
      cases hbody

/-- What the session writes, and what the client reads of it, in the run `xs` from `s`. -/
structure Readable (s : Session) (xs : List Step) : Prop where
  /-- Every frame on the wire was meant by somebody. -/
  meant : ∀ j f octets, .wrote f octets ∈ (s.before xs j).log →
    s.Meant xs j f ∧ f.encode = .ok octets
  /-- The client reads the frame as it was meant if no text in it holds a NUL, and only then. -/
  read : ∀ j f octets, .wrote f octets ∈ (s.before xs j).log →
    (Frame.decode octets = .ok f.named ↔ ∀ t ∈ f.pdu.texts, NulFree t)
  /-- So it reads every frame, unless the server was given a NUL. -/
  given : s.GivenNoNul xs → ∀ j f octets, .wrote f octets ∈ (s.before xs j).log →
    Frame.decode octets = .ok f.named
  /-- A frame that does not fit the wire is counted as a fault, and not written. -/
  unfit : ∀ i x f e, xs[i]? = some x → (s.before xs i).Emits f x → f.encode = .error e →
    (s.before xs i).CountsFault x

/-- In every run, whatever the server is called, processors reply and calls send, the client reads what was
meant, up to NULs in texts. -/
theorem written_readable (id : UInt32) (peer : Option SocketAddress) (serverSystemId : String)
    (settings : SessionSettings) (processor : Nat) (now : Instant) (xs : List Step) :
    (fresh id peer serverSystemId settings processor now).Readable xs := by
  have hs := fresh_orderly id peer serverSystemId settings processor now
  have hn := fresh_numbered id peer serverSystemId settings processor now
  have hl := fresh_ledger id peer serverSystemId settings processor now
  have hlog : (fresh id peer serverSystemId settings processor now).log = [] := rfl
  have hzero := fresh_meansAll id peer serverSystemId settings processor now xs
  generalize fresh id peer serverSystemId settings processor now = s at hs hn hl hlog hzero
  have means (j : Nat) : s.MeansAll xs j := before_meansAll hs hn hl hzero j
  have hmeant (j : Nat) (f : Frame) (octets : List UInt8) (h : .wrote f octets ∈ (s.before xs j).log) :
      s.Meant xs j f ∧ f.encode = .ok octets := by
    obtain ⟨i, hij, x, hx, emits, encode⟩ := source_of_wrote hlog h
    exact ⟨((means i).of_emits (before_orderly hs i) emits).later (Nat.le_of_lt hij), encode⟩
  have hread (j : Nat) (f : Frame) (octets : List UInt8) (h : .wrote f octets ∈ (s.before xs j).log) :
      Frame.decode octets = .ok f.named ↔ ∀ t ∈ f.pdu.texts, NulFree t := by
    obtain ⟨⟨i, -, x, -, -, hmeans⟩, encode⟩ := hmeant j f octets h
    exact hmeans.isModelled.decode_iff encode
  refine ⟨hmeant, hread, fun given j f octets h => ?_, fun i x f e hx emits encode => ?_⟩
  · exact (hread j f octets h).mpr ((hmeant j f octets h).1.texts given)
  · exact emits.countsFault (before_numbered hs hn i) encode

/-- A NUL in the id of a message is written. The client finds no whole parameters behind it, or some that
nobody meant. -/
theorem written_unreadable :
    let answer (messageId : String) : Session :=
      (fresh 1 none "smsc" ⟨10, ⟨1000⟩, ⟨1000⟩, ⟨1000⟩⟩ 0 0).after (greeting ++
        [.feel (.arrive [0, 0, 0, 33, 0, 0, 0, 4, 0, 0, 0, 0, 0, 0, 0, 2, 0, 0, 0, 0, 0, 0, 0, 0, 0, 0, 0, 0,
          0, 0, 0, 0, 0]), .move (.reader .read), .feel (.begin ⟨[.send (.accepted messageId)], .handled⟩),
          .move (.reader .proceed), .move (.reader .proceed)])
    let response (messageId : String) (tlvs : TlvMap) : Frame := .make 2 .ok (.submitSmResp ⟨messageId, tlvs⟩)
    let garbled : List UInt8 := [0, 0, 0, 20, 0x80, 0, 0, 4, 0, 0, 0, 0, 0, 0, 0, 2, 97, 0, 98, 0]
    let forged : List UInt8 := [0, 0, 0, 23, 0x80, 0, 0, 4, 0, 0, 0, 0, 0, 0, 0, 2, 97, 0, 2, 0x10, 0, 1, 0]
    (.wrote (response "a\x00b" .empty) garbled ∈ (answer "a\x00b").log ∧
        (Frame.decode garbled).toOption = none) ∧
      .wrote (response "a\x00\x02\x10\x00\x01" .empty) forged ∈ (answer "a\x00\x02\x10\x00\x01").log ∧
        Frame.decode forged = .ok (response "a" ⟨[⟨Tlv.interfaceVersionTag, [0]⟩]⟩) := by
  decide +kernel

end Session

end Smsc
