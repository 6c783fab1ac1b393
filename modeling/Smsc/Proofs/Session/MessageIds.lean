import Smsc.Proofs.Pdu.Limits
import Smsc.Proofs.Session.Tasks
import Smsc.Proofs.Text.Numeral
import Smsc.Session.Shared

/-!
# Smsc.Proofs.Session.MessageIds — message ids do not repeat

The standard processor numbers the messages it accepts. The number is drawn once for each message, whichever
sessions the messages come from, and its text in hexadecimal gets longer before it comes round.

* `Frame.Arrives`: a frame has octets, and what is read from them has the same body;
* `HandsOut s t`, `step_handsOut`: a responder stands for one request from its first step to its last;
* `Gathering.Sound`, `step_sound`: every call of the processor was for the request of its responder;
* `Gathering.Counts`, `step_counts`: the numbers are drawn one after the other;
* `Gathering.NumbersMessages`, `numbers_messages`: every run of any number of sessions.
-/

namespace Smsc

/-! ## An id on the wire -/

namespace Frame

open Pdu (Part)

variable {f : Frame} {r : MessageResponse} {id : String}

/-- The frame has octets, and the frame read from them has its body and its number. -/
def Arrives (f : Frame) : Prop :=
  ∃ octets g, f.encode = .ok octets ∧ decode octets = .ok g ∧ g.pdu = f.pdu ∧ g.sequence = f.sequence

/-- The header as it is read back: the command is that of the body, and a code is known by its name. -/
def respelled (f : Frame) : Frame := ⟨⟨f.pdu.command, .ofCode f.status.code, f.sequence⟩, f.pdu⟩

theorem encode_respelled {octets : List UInt8} (h : f.encode = .ok octets) : f.respelled.encode = .ok octets := by
  obtain ⟨hfits, hlength, rfl⟩ := encode_ok_iff.mp h
  refine encode_ok_iff.mpr ⟨hfits, hlength, ?_⟩
  have hcode : f.respelled.status.code = f.status.code := Status.code_ofCode _
  simp only [octetsWith, numbers, hcode]
  rfl

theorem arrives_of_encode (hpdu : f.pdu = .submitSmResp r) (nulFree : NulFree r.messageId)
    {octets : List UInt8} (h : f.encode = .ok octets) : f.Arrives := by
  refine ⟨octets, f.respelled, h, decode_of_encode ⟨rfl, fun named hnamed hstatus => ?_, fun known _ octets => ?_,
    fun s hs => ?_⟩ (encode_respelled h), rfl, rfl⟩
  · have hcanonical : Status.Canonical (.ofCode f.status.code) := Status.canonical_ofCode _
    rw [show Status.ofCode f.status.code = .other named.code from hstatus] at hcanonical
    exact Status.canonical_other_iff.mp hcanonical named hnamed rfl
  · rw [show f.respelled.pdu = _ from hpdu]
    nofun
  · rw [show f.respelled.pdu = _ from hpdu] at hs
    obtain rfl : s = r.messageId := by simpa [Pdu.texts] using hs
    exact nulFree

/-- With an id that fits its field, a response to a message arrives if its parameters fit. -/
theorem arrives_of_fits (hpdu : f.pdu = .submitSmResp r) (nulFree : NulFree r.messageId)
    (short : r.messageId.utf8ByteSize ≤ 64) (tlvs : ∀ t ∈ r.tlvs.entries, t.value.length ≤ 65535)
    (length : f.length ≤ 65536) : f.Arrives := by
  have hfits : ∀ p ∈ f.pdu.parts, p.Fits := by
    rw [hpdu]
    refine List.forall_mem_cons.mpr ⟨Nat.succ_le_succ short, fun p hp => ?_⟩
    obtain ⟨t, ht, rfl⟩ := List.mem_map.mp hp
    exact tlvs t ht
  obtain ⟨octets, h⟩ := encodes_iff.mpr ⟨hfits, length⟩
  exact arrives_of_encode hpdu nulFree h

/-- The text of a number of 64 bits is a text of 16 letters at most. -/
theorem id_fits (n : UInt64) : NulFree (StandardProcessor.messageId n) ∧
    (StandardProcessor.messageId n).utf8ByteSize ≤ 64 := by
  have hhex : Numeral.IsHex 8 n.toNat (StandardProcessor.messageId n) := Numeral.isHex_hex (by decide) n.toNat
  have hlength : (StandardProcessor.messageId n).length ≤ 16 :=
    Numeral.length_hex_le (by decide) (by decide) n.toNat_lt
  refine ⟨fun hnul => absurd (hhex.digits _ hnul) (by decide), ?_⟩
  rw [hhex.utf8ByteSize_eq]
  exact Nat.le_trans hlength (by decide)

end Frame

/-! ## Responders and their requests -/

namespace Session

variable {s t : Session} {x : Step}

/-- The requests that responders stand for. -/
def requests (s : Session) : List Frame := s.responders.map (·.request)

/-- A processor that is about to be called is called with the request of its responder. -/
def Presents (s : Session) : Prop :=
  ∀ k p request, s.reader = .calling k p request →
    ∃ q, s.requests[k]? = some q ∧ request = .ofFrame q

/-- Responders stand for the requests they stood for. At most one is new, and then the processor is to be
called with its request. -/
inductive HandsOut (s t : Session) : Prop where
  | keeps (requests : t.requests = s.requests)
      (calling : ∀ k p request, t.reader = .calling k p request → s.reader = .calling k p request)
  | adds (q : Frame) (requests : t.requests = s.requests ++ [q])
      (reader : t.reader = .calling s.requests.length s.processor (.ofFrame q))

theorem HandsOut.of_same (responders : t.responders = s.responders) (reader : t.reader = s.reader) :
    s.HandsOut t :=
  .keeps (by rw [requests, requests, responders]) fun _ _ _ h => reader ▸ h

/-- The reader has something else to do. -/
theorem HandsOut.of_busy (requests : t.requests = s.requests)
    (busy : ∀ k p request, t.reader ≠ .calling k p request) : s.HandsOut t :=
  .keeps requests fun k p request h => absurd h (busy k p request)

theorem Opens.requests {k : Nat} {o : Option Frame} (h : s.Opens k t o) : t.requests = s.requests := by
  cases h with
  | refused responders_eq => rw [Session.requests, Session.requests, responders_eq]
  | opened q f unsent responders_eq =>
    rw [Session.requests, Session.requests, responders_eq, List.map_set]
    apply List.ext_getElem?
    intro i
    by_cases hi : k = i
    · subst hi
      obtain ⟨hlt, hunsent⟩ := List.getElem?_eq_some_iff.mp unsent
      simp [hlt, hunsent]
    · rw [List.getElem?_set_ne hi]

theorem Handles.handsOut {f : Frame} {rest : List UInt8} (h : { s with input := rest }.Handles f t) : s.HandsOut t := by
  cases h with
  | drops | completes => exact .of_same rfl rfl
  | rejects => exact .of_busy rfl (by rintro _ _ _ ⟨⟩)
  | dispatches m =>
    refine .adds f (by simp [requests]) ?_
    simp [requests]

theorem Works.handsOut {k : Nat} (h : s.Works k t) : s.HandsOut t := by
  cases h with
  | ends u same => rcases same with rfl | ⟨m, rfl⟩ <;> exact .of_busy rfl (by rintro _ _ _ ⟨⟩)
  | pauses | holds => exact .of_busy rfl (by rintro _ _ _ ⟨⟩)
  | answers u plan f settles opens => exact .of_busy opens.requests (by rintro _ _ _ ⟨⟩)
  | refused u plan settles opens => exact .of_busy opens.requests (by rintro _ _ _ ⟨⟩)

theorem ReaderTurn.handsOut {m : ReaderMove} (h : s.ReaderTurn m t) : s.HandsOut t := by
  cases h with
  | stops stage => exact .of_busy rfl (by rintro _ _ _ ⟨⟩)
  | reads stage t reads =>
    cases reads with
    | frame f rest input handles => exact handles.handsOut
    | fault | ends => exact .of_busy rfl (by rintro _ _ _ ⟨⟩)
  | sweeps stage =>
    refine .of_same ?_ ?_ <;> unfold sweep <;> dsimp only <;> split <;> rfl
  | refuses f stage u sends =>
    refine .of_busy ?_ (by rintro _ _ _ ⟨⟩)
    rw [sends]
    exact congrArg (List.map _) (Beside.transmit s f).responders
  | answers f k plan stage u closes =>
    refine .of_busy ?_ (by rintro _ _ _ ⟨⟩)
    rw [closes]
    exact congrArg (List.map _) (closeReply_beside s k f).responders
  | works k plan stage t works => exact works.handsOut
  | wakes => exact .of_busy rfl (by rintro _ _ _ ⟨⟩)

theorem AnswerTurn.handsOut {a : Answer} (h : s.AnswerTurn a t) : s.HandsOut t := by
  cases h with
  | opens stage u f settles opens => exact .keeps opens.requests fun k p request h => settles.reader ▸ h
  | refused stage u settles opens => exact .keeps opens.requests fun k p request h => settles.reader ▸ h
  | closes f stage u closes =>
    have hbeside := closeReply_beside s a.responder f
    exact .of_same (by rw [closes]; exact hbeside.responders) (by rw [closes]; exact hbeside.reader)
  | rests => exact .of_same rfl rfl

theorem Feels.handsOut (h : s.Feels t) (hw : s.window.Sound) : s.HandsOut t := by
  cases h with
  | aside t same => exact .of_same (by rw [same]) (by rw [same])
  | drops c mem =>
    obtain ⟨hbeside, -⟩ := dropCall_step hw c
    exact .of_same hbeside.responders hbeside.reader
  | forgets a mem =>
    unfold dropAnswer
    split <;> exact .of_same rfl rfl
  | works k p request plan stage => exact .of_busy rfl (by rintro _ _ _ ⟨⟩)
  | begins | answers | ends => exact .of_same rfl rfl

theorem step_handsOut (h : s.Orderly) (x : Step) : s.HandsOut (s.step x) := by
  have happens := h.happens x
  generalize s.step x = t at happens ⊢
  cases happens with
  | feels x t feels => exact feels.handsOut h.sound
  | reader m can t turn => exact turn.handsOut
  | call id c mem t step => exact .of_same step.beside.responders step.beside.reader
  | answer id a mem t turn => exact turn.handsOut
  | nothing m => exact .of_same rfl rfl

theorem HandsOut.presents (h : s.HandsOut t) (hs : s.Presents) : t.Presents := by
  intro k p request hcalling
  cases h with
  | keeps requests calling =>
    rw [requests]
    exact hs k p request (calling k p request hcalling)
  | adds q requests reader =>
    obtain ⟨rfl, -, rfl⟩ := Reader.Stage.calling.inj (reader.symm.trans hcalling)
    exact ⟨q, by rw [requests, List.getElem?_concat_length], rfl⟩

theorem HandsOut.stands (h : s.HandsOut t) {k : Nat} {q : Frame} (hq : s.requests[k]? = some q) :
    t.requests[k]? = some q := by
  cases h with
  | keeps requests => rwa [requests]
  | adds p requests =>
    rw [requests, List.getElem?_append_left (List.getElem?_eq_some_iff.mp hq).1, hq]

/-- What is sent through a responder that stands for a submitted message, unless it has been used. -/
theorem openReply_accepted {k : Nat} {q f : Frame} {id : String} (hq : s.requests[k]? = some q)
    (submit : (Request.ofFrame q).isSubmit = true) (h : (s.openReply k (.accepted id)).2 = some f) :
    f = .make q.sequence .ok (.submitSmResp ⟨id, .empty⟩) := by
  obtain ⟨⟨request, sent⟩, hr, rfl⟩ : ∃ r, s.responders[k]? = some r ∧ r.request = q := by
    simpa [requests] using hq
  obtain ⟨m, hpdu⟩ : ∃ m, request.pdu = .submitSm m := by
    unfold Request.isSubmit Request.ofFrame at submit
    cases hpdu : request.pdu <;> simp [hpdu] at submit ⊢
  have hkind (type : BindType) : request.kind ≠ .bind type := by
    unfold Frame.kind
    rw [hpdu]
    split <;> nofun
  unfold openReply at h
  simp only [responder?, hr] at h
  split at h
  · cases h
  · unfold settleStatus at h
    split at h
    · exact absurd ‹_› (hkind _)
    · obtain rfl := Option.some.inj h
      simp only [responseFrame, Frame.responseFor, hpdu, Pdu.response]
      rfl

end Session

/-! ## The processor -/

namespace StandardProcessor

variable {p : StandardProcessor} {r : Request}

theorem reply_submit (h : r.isSubmit = true) :
    p.reply r = (.accepted (messageId (p.accepted + 1)), ⟨p.accepted + 1⟩) := by
  unfold Request.isSubmit at h
  unfold reply
  cases hbody : r.body with
  | submitSm m => rfl
  | _ => simp [hbody] at h

theorem reply_other (h : r.isSubmit = false) : p.reply r = (.ok, p) := by
  unfold Request.isSubmit at h
  unfold reply
  split
  · rename_i m hbody
    rw [hbody] at h
    cases h
  · rfl

end StandardProcessor

namespace Gathering

variable {g : Gathering} {t : Session} {n : Nat}

/-! ## Steps -/

/-- What a step of a gathering can do. -/
inductive Goes (g : Gathering) : Gathering → Prop where
  | joins (id : UInt32) (peer : Option SocketAddress) (serverSystemId : String) (settings : SessionSettings)
      (processor : Nat) (now : Instant) :
      Goes g { g with sessions := g.sessions ++ [.fresh id peer serverSystemId settings processor now] }
  | moves (n : Nat) (t : Session) (found : g.session? n = some t) (x : Session.Step) :
      Goes g { g with sessions := g.sessions.set n (t.step x) }
  | serves (n : Nat) (t : Session) (found : g.session? n = some t) (k : Nat) (request : Request)
      (stage : t.reader = .calling k g.number request) (reply : Reply) (next : StandardProcessor)
      (answer : g.processor.reply request = (reply, next)) :
      Goes g { g with
        sessions := g.sessions.set n (t.step (.feel (.begin ⟨[.send reply], .handled⟩)))
        processor := next
        served := ⟨n, k, request, reply⟩ :: g.served }
  | nothing : Goes g g

theorem step_goes (g : Gathering) (x : Step) : g.Goes (g.step x) := by
  cases x with
  | join => exact .joins ..
  | session n x =>
    cases found : g.session? n with
    | none =>
      simp only [step, found]
      exact .nothing
    | some t =>
      simp only [step, found]
      split
      · exact .moves n t found x
      · exact .nothing
  | serve n =>
    cases found : g.session? n with
    | none =>
      simp only [step, serve, found]
      exact .nothing
    | some t =>
      simp only [step, serve, found]
      split
      · rename_i k processor request stage
        split
        · rename_i known
          exact .serves n t found k request (known ▸ stage) _ _ rfl
        · exact .nothing
      · exact .nothing

/-- The sessions are in order, and every call of the processor was for the request of its responder. -/
structure Sound (g : Gathering) : Prop where
  session : ∀ t ∈ g.sessions, t.Orderly ∧ t.Presents
  known : ∀ v ∈ g.served, ∃ t q, g.session? v.session = some t ∧ t.requests[v.responder]? = some q ∧
    v.request = .ofFrame q

theorem Sound.joins (h : g.Sound) {u : Session} (hu : u.Orderly ∧ u.Presents) :
    Sound { g with sessions := g.sessions ++ [u] } where
  session := List.forall_mem_append.mpr ⟨h.session, List.forall_mem_singleton.mpr hu⟩
  known v hv := by
    obtain ⟨t, q, ht, hq, hrequest⟩ := h.known v hv
    refine ⟨t, q, ?_, hq, hrequest⟩
    show (g.sessions ++ [u])[v.session]? = some t
    rw [List.getElem?_append_left (List.getElem?_eq_some_iff.mp ht).1]
    exact ht

theorem Sound.moves (h : g.Sound) (found : g.session? n = some t) (x : Session.Step) :
    Sound { g with sessions := g.sessions.set n (t.step x) } := by
  have hn : n < g.sessions.length := (List.getElem?_eq_some_iff.mp found).1
  obtain ⟨horderly, hpresents⟩ := h.session t (List.mem_of_getElem? found)
  have handsOut := Session.step_handsOut horderly x
  refine ⟨fun u hu => ?_, fun v hv => ?_⟩
  · rcases List.mem_or_eq_of_mem_set hu with hmem | rfl
    · exact h.session u hmem
    · exact ⟨Session.step_orderly horderly x, handsOut.presents hpresents⟩
  · obtain ⟨u, q, hu, hq, hrequest⟩ := h.known v hv
    by_cases hsame : n = v.session
    · subst hsame
      obtain rfl : u = t := Option.some.inj (hu.symm.trans found)
      exact ⟨u.step x, q, List.getElem?_set_self hn, handsOut.stands hq, hrequest⟩
    · exact ⟨u, q, (List.getElem?_set_ne hsame).trans hu, hq, hrequest⟩

theorem Sound.step (h : g.Sound) (x : Step) : (g.step x).Sound := by
  have hgoes := step_goes g x
  generalize g.step x = u at hgoes
  cases hgoes with
  | joins id peer serverSystemId settings processor now =>
    exact h.joins ⟨Session.fresh_orderly .., nofun⟩
  | moves n t found x => exact h.moves found x
  | serves n t found k request stage reply next answer =>
    have hmoved := h.moves found (.feel (.begin ⟨[.send reply], .handled⟩))
    obtain ⟨horderly, hpresents⟩ := h.session t (List.mem_of_getElem? found)
    obtain ⟨q, hq, hrequest⟩ := hpresents k g.number request stage
    refine ⟨hmoved.session, List.forall_mem_cons.mpr
      ⟨⟨t.step (.feel (.begin ⟨[.send reply], .handled⟩)), q, ?_, ?_, hrequest⟩, hmoved.known⟩⟩
    · exact List.getElem?_set_self (List.getElem?_eq_some_iff.mp found).1
    · exact (Session.step_handsOut horderly _).stands hq
  | nothing => exact h

theorem fresh_sound (number : Nat) : (fresh number).Sound := ⟨by simp [fresh], by simp [fresh]⟩

/-! ## Numbers -/

/-- The processor has counted the messages, and given each the number it had come to. -/
structure Counts (g : Gathering) : Prop where
  accepted : g.processor.accepted = .ofNat g.submits.length
  numbered : ∀ (n : Nat) (v : Served), g.submits[n]? = some v →
    v.reply = .accepted (StandardProcessor.messageId (.ofNat (n + 1)))
  others : ∀ v ∈ g.served, v.request.isSubmit = false → v.reply = .ok

theorem Counts.step (h : g.Counts) (x : Step) : (g.step x).Counts := by
  have hgoes := step_goes g x
  generalize g.step x = u at hgoes
  cases hgoes with
  | joins | moves | nothing => exact ⟨h.accepted, h.numbered, h.others⟩
  | serves n t found k request stage reply next answer =>
    cases submit : request.isSubmit with
    | true =>
      obtain ⟨rfl, rfl⟩ := Prod.mk.inj ((StandardProcessor.reply_submit submit).symm.trans answer)
      generalize g.sessions.set _ _ = sessions
      have hsubmits : submits ⟨sessions, g.number, ⟨g.processor.accepted + 1⟩,
            ⟨n, k, request, .accepted (StandardProcessor.messageId (g.processor.accepted + 1))⟩ :: g.served⟩ =
          g.submits ++ [⟨n, k, request, .accepted (StandardProcessor.messageId (g.processor.accepted + 1))⟩] := by
        simp [submits, submit]
      have hnext : g.processor.accepted + 1 = .ofNat (g.submits.length + 1) := by
        rw [h.accepted, UInt64.ofNat_add]
        rfl
      refine ⟨?_, fun m v hv => ?_, List.forall_mem_cons.mpr ⟨fun hother => ?_, h.others⟩⟩
      · rw [hsubmits, List.length_append, hnext]
        rfl
      · rw [hsubmits] at hv
        rcases Nat.lt_trichotomy m g.submits.length with hlt | rfl | hgt
        · rw [List.getElem?_append_left hlt] at hv
          exact h.numbered m v hv
        · rw [List.getElem?_concat_length] at hv
          rw [← Option.some.inj hv, hnext]
        · rw [List.getElem?_eq_none (by rw [List.length_append]; exact hgt)] at hv
          cases hv
      · rw [submit] at hother
        cases hother
    | false =>
      obtain ⟨rfl, rfl⟩ := Prod.mk.inj ((StandardProcessor.reply_other submit).symm.trans answer)
      generalize g.sessions.set _ _ = sessions
      have hsubmits : submits ⟨sessions, g.number, g.processor, ⟨n, k, request, .ok⟩ :: g.served⟩ = g.submits := by
        simp [submits, submit]
      refine ⟨?_, fun m v hv => ?_, List.forall_mem_cons.mpr ⟨fun _ => rfl, h.others⟩⟩
      · rw [hsubmits]
        exact h.accepted
      · rw [hsubmits] at hv
        exact h.numbered m v hv

theorem fresh_counts (number : Nat) : (fresh number).Counts :=
  ⟨rfl, by simp [submits, fresh], by simp [fresh]⟩

theorem after_induct {P : Gathering → Prop} (step : ∀ g x, P g → P (g.step x)) (h : P g) (xs : List Step) :
    P (g.after xs) := by
  induction xs generalizing g with
  | nil => exact h
  | cons x xs ih => exact ih (step g x h)

/-! ## Ids -/

/-- The ids of the messages that the processor of a gathering has accepted. -/
structure NumbersMessages (g : Gathering) : Prop where
  /-- The `n`-th message gets the number `n` in lowercase hexadecimal, filled up to eight digits. -/
  numbered : ∀ (n : Nat) (v : Served), g.submits[n]? = some v →
    ∃ id, v.reply = .accepted id ∧ Numeral.IsHex 8 (n + 1) id
  /-- No two messages get the same. -/
  distinct : (g.submits.map (·.reply.messageId)).Nodup
  /-- Other requests are accepted without an id. -/
  others : ∀ v ∈ g.served, v.request.isSubmit = false → v.reply = .ok
  /-- A response with such an id is read back with it, whatever else it says. -/
  arrives : ∀ v ∈ g.submits, ∀ (f : Frame) (r : MessageResponse), f.pdu = .submitSmResp r →
    v.reply.messageId = some r.messageId → (∀ t ∈ r.tlvs.entries, t.value.length ≤ 65535) → f.length ≤ 65536 → f.Arrives
  /-- The sessions make such responses, each for the message that got the id. -/
  replied : ∀ v ∈ g.submits, ∃ t q id, g.session? v.session = some t ∧ t.requests[v.responder]? = some q ∧
    v.request = .ofFrame q ∧ v.reply = .accepted id ∧ ∀ f, (t.openReply v.responder v.reply).2 = some f →
      f = .make q.sequence .ok (.submitSmResp ⟨id, .empty⟩) ∧ f.Arrives

theorem Counts.submit (h : g.Counts) {v : Served} (hv : v ∈ g.submits) :
    ∃ n : UInt64, v.reply = .accepted (StandardProcessor.messageId n) := by
  obtain ⟨n, hn⟩ := List.mem_iff_getElem?.mp hv
  exact ⟨_, h.numbered n v hn⟩

/-- **Message ids**: whatever sessions there are and in whatever order they call the processor, the ids it
gives to messages are the numbers from one on, and they arrive. -/
theorem numbers_messages (number : Nat) (xs : List Step)
    (few : ((fresh number).after xs).served.length < 2 ^ 64) :
    ((fresh number).after xs).NumbersMessages := by
  have hsound : ((fresh number).after xs).Sound := after_induct (fun _ x h => h.step x) (fresh_sound number) xs
  have hcounts : ((fresh number).after xs).Counts := after_induct (fun _ x h => h.step x) (fresh_counts number) xs
  generalize (fresh number).after xs = g at few hsound hcounts
  have numbered (n : Nat) (v : Served) (hv : g.submits[n]? = some v) :
      ∃ id, v.reply = .accepted id ∧ Numeral.IsHex 8 (n + 1) id := by
    have hn : n < g.submits.length := (List.getElem?_eq_some_iff.mp hv).1
    have hle : g.submits.length ≤ g.served.length :=
      Nat.le_trans (List.length_filter_le ..) (Nat.le_of_eq List.length_reverse)
    have hsmall : (UInt64.ofNat (n + 1)).toNat = n + 1 := UInt64.toNat_ofNat_of_lt' (by
      show n + 1 < 2 ^ 64
      omega)
    have hhex : Numeral.IsHex 8 _ (StandardProcessor.messageId (.ofNat (n + 1))) :=
      Numeral.isHex_hex (by decide) _
    rw [hsmall] at hhex
    exact ⟨_, hcounts.numbered n v hv, hhex⟩
  have arrives (v : Served) (hv : v ∈ g.submits) (f : Frame) (r : MessageResponse) (hpdu : f.pdu = .submitSmResp r)
      (hid : v.reply.messageId = some r.messageId) (tlvs : ∀ t ∈ r.tlvs.entries, t.value.length ≤ 65535)
      (length : f.length ≤ 65536) : f.Arrives := by
    obtain ⟨n, hn⟩ := hcounts.submit hv
    obtain ⟨nulFree, short⟩ := Frame.id_fits n
    rw [hn] at hid
    obtain hid : StandardProcessor.messageId n = r.messageId := Option.some.inj hid
    exact Frame.arrives_of_fits hpdu (hid ▸ nulFree) (hid ▸ short) tlvs length
  refine ⟨numbered, ?_, hcounts.others, arrives, fun v hv => ?_⟩
  · rw [List.Nodup, List.pairwise_map, List.pairwise_iff_getElem]
    intro i j hi hj hij hsame
    obtain ⟨id, hid, hhex⟩ := numbered i _ (List.getElem?_eq_getElem hi)
    obtain ⟨id', hid', hhex'⟩ := numbered j _ (List.getElem?_eq_getElem hj)
    rw [hid, hid'] at hsame
    obtain rfl : id = id' := Option.some.inj hsame
    have hvalue : i + 1 = j + 1 := hhex.value.symm.trans hhex'.value
    omega
  · obtain ⟨hserved, submit⟩ := List.mem_filter.mp hv
    obtain ⟨t, q, ht, hq, hrequest⟩ := hsound.known v (List.mem_reverse.mp hserved)
    obtain ⟨n, hn⟩ := hcounts.submit hv
    refine ⟨t, q, _, ht, hq, hrequest, hn, fun f hf => ?_⟩
    rw [hn] at hf
    obtain rfl := Session.openReply_accepted hq (hrequest ▸ submit) hf
    refine ⟨rfl, arrives v hv _ _ rfl (by rw [hn]; rfl) nofun ?_⟩
    have hlength : Frame.length (.make q.sequence .ok (.submitSmResp ⟨StandardProcessor.messageId n, .empty⟩)) =
        16 + ((StandardProcessor.messageId n).utf8ByteSize + 1) := rfl
    have hshort := (Frame.id_fits n).2
    omega

/-- A client binds and submits two messages. -/
def twoMessages : List UInt8 :=
  [0, 0, 0, 24, 0, 0, 0, 9, 0, 0, 0, 0, 0, 0, 0, 1, 97, 0, 0, 0, 0x34, 0, 0, 0,
    0, 0, 0, 33, 0, 0, 0, 4, 0, 0, 0, 0, 0, 0, 0, 2, 0, 0, 0, 0, 0, 0, 0, 0, 0, 0, 0, 0, 0, 0, 0, 0, 0,
    0, 0, 0, 33, 0, 0, 0, 4, 0, 0, 0, 0, 0, 0, 0, 3, 0, 0, 0, 0, 0, 0, 0, 0, 0, 0, 0, 0, 0, 0, 0, 0, 0]

/-- The reader of session `n` takes the next frame. -/
def takes (n : Nat) : List Step := [.session n (.move (.reader .read))]

/-- The processor answers session `n`. -/
def answers (n : Nat) : List Step :=
  .serve n :: List.replicate 3 (.session n (.move (.reader .proceed)))

/-- Two clients do so at the same time, and the second is faster. -/
def crossing : List Step :=
  let settings : SessionSettings := ⟨10, ⟨1000⟩, ⟨1000⟩, ⟨1000⟩⟩
  [.join 1 none "smsc" settings 0 0, .join 2 none "smsc" settings 0 0,
    .session 0 (.feel (.arrive twoMessages)), .session 1 (.feel (.arrive twoMessages))] ++
  takes 0 ++ takes 1 ++ answers 1 ++ takes 1 ++ answers 0 ++ takes 0 ++ answers 1 ++ takes 1 ++ answers 0 ++
    takes 0 ++ answers 1 ++ answers 0

theorem crossing_numbersMessages :
    let g := (fresh 0).after crossing
    g.served.length < 2 ^ 64 ∧ g.NumbersMessages ∧ g.served.length = 6 ∧
      g.submits.map (fun v => (v.session, v.reply.messageId)) =
        [(1, some "00000001"), (0, some "00000002"), (1, some "00000003"), (0, some "00000004")] := by
  refine ⟨?_, numbers_messages 0 crossing ?_, ?_, ?_⟩ <;> decide +kernel

end Gathering

end Smsc
