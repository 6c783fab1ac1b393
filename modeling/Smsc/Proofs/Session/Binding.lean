import Smsc.Proofs.Session.Sending

/-!
# Smsc.Proofs.Session.Binding — a session is bound once

Several binds may be with the processor at the same time. The first OK binds the session. An OK to another
one finds it bound and goes out as a refusal; once the session is closed it stays an OK, but the channel
takes no more writes.

* `Frame.bindOk`, `Frame.bindLate`: what the two are told; `Frame.isBindOk`;
* `Acks s`: the OKs to binds that are written or due, `Deals.acks`;
* `before_binding`: who is bound stays bound;
* `BoundOnce s xs`, `bound_once`: every run in which writes fail after a disconnect.
-/

namespace Smsc

namespace Frame

/-- An OK to a bind. A raw status is no OK, whatever its code is. -/
def isBindOk (f : Frame) : Bool :=
  f.status.isOk && match f.command with
    | .bindReceiverResp | .bindTransmitterResp | .bindTransceiverResp => true
    | _ => false

/-- The OK to a bind: the server's system id and one parameter, the interface version. -/
def bindOk (serverSystemId : String) (type : BindType) (sequence : UInt32) : Frame :=
  .make sequence .ok (.bindResp type ⟨serverSystemId, ⟨[⟨Tlv.interfaceVersionTag, [0x34]⟩]⟩⟩)

/-- The answer to a bind that came too late: it has no parameters. -/
def bindLate (serverSystemId : String) (type : BindType) (sequence : UInt32) : Frame :=
  .make sequence .alreadyBound (.bindResp type ⟨serverSystemId, .empty⟩)

variable {f : Frame}

theorem isResponse_of_isBindOk (h : f.isBindOk = true) : f.isResponse = true := by
  rw [isResponse]
  cases hcommand : f.command with
  | bindReceiverResp | bindTransmitterResp | bindTransceiverResp => rfl
  | _ => simp [isBindOk, hcommand] at h

theorem isBindOk_of_request (h : f.isResponse = false) : f.isBindOk = false := by
  rw [← Bool.not_eq_true]
  intro hok
  simp [isResponse_of_isBindOk hok] at h

theorem isBindOk_of_status (h : f.status ≠ .ok) : f.isBindOk = false := by
  rw [isBindOk]
  cases hstatus : f.status <;> first | rfl | exact absurd hstatus h

end Frame

/-- The event is an OK to a bind that was written. -/
def SessionEvent.isBindOk : SessionEvent → Bool
  | .wrote f _ => f.isBindOk
  | _ => false

theorem SessionEvent.IsQuiet.isBindOk {e : SessionEvent} (h : e.IsQuiet) : e.isBindOk = false := by
  cases e with
  | wrote f octets => exact Frame.isBindOk_of_request h
  | _ => rfl

namespace Session

variable {s t : Session} {x : Step}

/-! ## The frame of a reply -/

section ResponseFrame

variable {q : Frame} {type : BindType} {serverSystemId : String} {messageId : Option String}

theorem responseFrame_status (serverSystemId : String) (q : Frame) (status : Status)
    (messageId : Option String) : (responseFrame serverSystemId q status messageId).status = status := by
  unfold responseFrame
  dsimp only
  split <;> rfl

theorem responseFrame_ok (kind : q.kind = .bind type) :
    responseFrame serverSystemId q .ok messageId = .bindOk serverSystemId type q.sequence := by
  obtain ⟨-, b, hpdu⟩ := Frame.kind_eq_bind.mp kind
  simp only [responseFrame, Frame.responseFor, Frame.make, hpdu, Pdu.response]
  rfl

theorem responseFrame_late (kind : q.kind = .bind type) :
    responseFrame serverSystemId q .alreadyBound messageId = .bindLate serverSystemId type q.sequence := by
  obtain ⟨-, b, hpdu⟩ := Frame.kind_eq_bind.mp kind
  simp only [responseFrame, Frame.responseFor, Frame.make, hpdu, Pdu.response]
  rfl

/-- A reply is an OK to a bind only if it says OK, and answers a bind. -/
theorem isBindOk_responseFrame (serverSystemId : String) (messageId : Option String)
    (request : q.isResponse = false) {status : Status} (plain : ∀ type, q.kind = .bind type → status ≠ .ok) :
    (responseFrame serverSystemId q status messageId).isBindOk = false := by
  by_cases hstatus : status = .ok
  · obtain ⟨-, hcommand, -⟩ := responseFrame_matches serverSystemId q status messageId
    rw [Frame.isBindOk, hcommand]
    cases hpdu : q.pdu with
    | bind type b => exact absurd hstatus (plain type (Frame.kind_eq_bind.mpr ⟨request, b, hpdu⟩))
    | _ => simp [Pdu.response, Pdu.command]
  · exact Frame.isBindOk_of_status (by rwa [responseFrame_status])

end ResponseFrame

/-! ## What a step writes -/

/-- How many OKs to binds are written. -/
def acceptances (s : Session) : Nat := s.log.countP (·.isBindOk)

/-- How many OKs to binds are due. -/
def accepting (s : Session) : Nat := s.due.countP (·.2.isBindOk)

theorem Quiet.acceptances (h : s.Quiet t) : t.acceptances = s.acceptances := by
  obtain ⟨new, log, quiet⟩ := h
  have hnew : new.countP (·.isBindOk) = 0 :=
    List.countP_eq_zero.mpr fun e he => by simp [(quiet e he).isBindOk]
  rw [Session.acceptances, log, List.countP_append, hnew, Nat.zero_add, Session.acceptances]

theorem Posts.acceptances {f : Frame} (h : Posts f s t) : t.acceptances = s.acceptances ∨
    s.channel.refuses = false ∧ t.acceptances = s.acceptances + if f.isBindOk then 1 else 0 := by
  rcases h with quiet | ⟨post, octets, -, accepts, log, quiet⟩
  · exact .inl quiet.acceptances
  · refine .inr ⟨accepts, ?_⟩
    have hquiet : (s.note (.wrote f octets)).Quiet t := ⟨post, log, quiet⟩
    rw [hquiet.acceptances]
    exact List.countP_cons

theorem Deals.acceptances_of_refuses (h : s.Deals x t) (refuses : s.channel.refuses = true) :
    t.acceptances = s.acceptances := by
  have of_posts {f : Frame} (h : Posts f s t) : t.acceptances = s.acceptances := by
    rcases h.acceptances with h | ⟨accepts, -⟩
    · exact h
    · simp [refuses] at accepts
  rcases h.posts with quiet | ⟨k, f, -, posts⟩ | ⟨f, -, posts⟩
  · exact quiet.acceptances
  · exact of_posts posts
  · exact of_posts posts

/-! ## The OKs to binds -/

/-- The reply `f` through the responder `k` is the OK to the bind by which the session is bound. -/
def Accepts (s : Session) (k : Nat) (f : Frame) : Prop :=
  ∃ q type b, s.responders[k]? = some ⟨q, true⟩ ∧ q.isResponse = false ∧ q.pdu = .bind type b ∧
    f = .bindOk s.serverSystemId type q.sequence ∧ s.binding = some ⟨type, b.systemId⟩

/-- The OKs to binds, by the status of the session. One that is sent after the end binds nobody and stays
due as an OK, so of a closed session only what is written counts. -/
structure Acks (s : Session) : Prop where
  refusal : ∀ f, s.reader.refusal? = some f → f.isBindOk = false
  written : s.acceptances ≤ 1
  opened : s.status = .opened → s.binding = none ∧ s.acceptances + s.accepting = 0
  bound : s.status = .bound → s.binding.isSome = true ∧ s.acceptances + s.accepting ≤ 1 ∧
    ∀ k f, (k, f) ∈ s.due → f.isBindOk = true → s.Accepts k f

theorem Acks.going (h : s.Acks) (going : s.status ≠ .closed) : s.acceptances + s.accepting ≤ 1 := by
  cases hs : s.status with
  | opened => simp [(h.opened hs).2]
  | bound => exact (h.bound hs).2.1
  | closed => exact absurd hs going

theorem Acks.of_closed (closed : t.status = .closed) (written : t.acceptances ≤ 1)
    (refusal : ∀ f, t.reader.refusal? = some f → f.isBindOk = false) : t.Acks :=
  ⟨refusal, written, by simp [closed], by simp [closed]⟩

/-- There are no more OKs to binds than before, and nobody else is bound. -/
theorem Acks.less (h : s.Acks) (going : s.status ≠ .closed)
    (status : t.status = s.status ∨ t.status = .closed)
    (binding : t.binding = s.binding) (server : t.serverSystemId = s.serverSystemId)
    (used : ∀ (k : Nat) (q : Frame), s.responders[k]? = some ⟨q, true⟩ → t.responders[k]? = some ⟨q, true⟩)
    (due : ∀ k f, (k, f) ∈ t.due → f.isBindOk = true → (k, f) ∈ s.due)
    (refusal : ∀ f, t.reader.refusal? = some f → f.isBindOk = false)
    (count : t.acceptances + t.accepting ≤ s.acceptances + s.accepting) : t.Acks := by
  have hgoing := h.going going
  rcases status with status | closed
  · refine ⟨refusal, by omega, fun ht => ?_, fun ht => ?_⟩
    · obtain ⟨hbinding, hnone⟩ := h.opened (status ▸ ht)
      exact ⟨by rw [binding, hbinding], by omega⟩
    · obtain ⟨hbinding, hone, haccepts⟩ := h.bound (status ▸ ht)
      refine ⟨by rw [binding, hbinding], by omega, fun k f hf hok => ?_⟩
      obtain ⟨q, type, b, hused, hrequest, hpdu, hframe, hbound⟩ := haccepts k f (due k f hf hok) hok
      exact ⟨q, type, b, used k q hused, hrequest, hpdu, by rw [server, hframe], by rw [binding, hbound]⟩
  · exact .of_closed closed (by omega) refusal

/-- The first OK to a bind binds an open session. -/
theorem Acks.binds (h : s.Acks) (opened : s.status = .opened) {k : Nat} {q : Frame} {type : BindType}
    (kind : q.kind = .bind type) (bound : t.status = .bound)
    (binding : t.binding = some ⟨type, boundSystemId q⟩) (server : t.serverSystemId = s.serverSystemId)
    (used : t.responders[k]? = some ⟨q, true⟩)
    (due : t.due.Perm ((k, .bindOk s.serverSystemId type q.sequence) :: s.due))
    (refusal : ∀ f, t.reader.refusal? = some f → f.isBindOk = false)
    (written : t.acceptances = s.acceptances) : t.Acks where
  refusal := refusal
  written := by rw [written]; exact h.written
  opened ht := by simp [bound] at ht
  bound _ := by
    obtain ⟨-, hnone⟩ := h.opened opened
    obtain ⟨hrequest, b, hpdu⟩ := Frame.kind_eq_bind.mp kind
    have hdue : t.accepting ≤ s.accepting + 1 := by
      rw [accepting, due.countP_eq, List.countP_cons]
      exact Nat.add_le_add_left (by split <;> simp) _
    refine ⟨by rw [binding]; rfl, by omega, fun l f hf hok => ?_⟩
    rcases List.mem_cons.mp (due.subset hf) with heq | hf
    · obtain ⟨rfl, rfl⟩ : l = k ∧ f = .bindOk s.serverSystemId type q.sequence := by simpa using heq
      exact ⟨q, type, b, used, hrequest, hpdu, by rw [server], by rw [binding, boundSystemId, hpdu]⟩
    · have hfree : s.accepting = 0 := by omega
      exact absurd hok (List.countP_eq_zero.mp hfree _ hf)

/-- A reply that is no OK to a bind changes nothing about them. -/
theorem Acks.answers (h : s.Acks) (going : s.status ≠ .closed) {k : Nat} {f : Frame}
    (plain : f.isBindOk = false) (due : t.due.Perm ((k, f) :: s.due)) (status : t.status = s.status)
    (binding : t.binding = s.binding) (server : t.serverSystemId = s.serverSystemId)
    (used : ∀ (k : Nat) (q : Frame), s.responders[k]? = some ⟨q, true⟩ → t.responders[k]? = some ⟨q, true⟩)
    (refusal : ∀ f, t.reader.refusal? = some f → f.isBindOk = false)
    (written : t.acceptances = s.acceptances) : t.Acks := by
  have haccepting : t.accepting = s.accepting := by
    rw [accepting, due.countP_eq, List.countP_cons_of_neg (by simp [plain]), accepting]
  refine h.less going (.inl status) binding server used (fun l g hg hok => ?_) refusal (by omega)
  rcases List.mem_cons.mp (due.subset hg) with heq | hg
  · obtain ⟨-, rfl⟩ : l = k ∧ g = f := by simpa using heq
    simp [plain] at hok
  · exact hg

theorem Deals.refusal (h : s.Deals x t) (hs : ∀ f, s.reader.refusal? = some f → f.isBindOk = false)
    (g : Frame) (hg : t.reader.refusal? = some g) : g.isBindOk = false := by
  rcases h.refused hg with hold | ⟨q, status, -, rule, rfl⟩
  · exact hs g hold
  · refine Frame.isBindOk_of_status fun (hok : status = .ok) => ?_
    cases rule <;> cases hok

/-- A step that sends no reply. -/
theorem Acks.rests (h : s.Acks) (going : s.status ≠ .closed) (replies : s.Replies t)
    (status : t.status = s.status ∨ t.status = .closed) (binding : t.binding = s.binding)
    (server : t.serverSystemId = s.serverSystemId)
    (unsent : ∀ (k : Nat) (q : Frame), s.responders[k]? = some ⟨q, false⟩ →
      t.responders[k]? = some ⟨q, false⟩)
    (refusal : ∀ f, t.reader.refusal? = some f → f.isBindOk = false)
    (written : t.acceptances = s.acceptances) : t.Acks := by
  have hdue := replies.due_subperm unsent
  have haccepting : t.accepting ≤ s.accepting := hdue.countP_le _
  exact h.less going status binding server (fun _ _ => replies.used) (fun _ _ hf _ => hdue.subset hf) refusal
    (by omega)

theorem Deals.acks (h : s.Deals x t) (replies : s.Replies t) (ha : s.Acks)
    (requests : ∀ (k : Nat) r, s.responders[k]? = some r → r.request.isResponse = false)
    (closed : s.status = .closed → t.status = .closed ∧ s.channel.refuses = true) : t.Acks := by
  have hrefusal := h.refusal ha.refusal
  -- A closed session writes nothing, so it does not matter which OKs are still due.
  by_cases going : s.status = .closed
  · obtain ⟨ht, hrefuses⟩ := closed going
    exact .of_closed ht (h.acceptances_of_refuses hrefuses ▸ ha.written) hrefusal
  cases h with
  | sends k q reply sends u status settling same due refusal =>
    have hwritten := (settling.quiet same).acceptances
    have hused : t.responders[k]? = some ⟨q, true⟩ := by
      rw [same, settling.same]
      exact List.getElem?_set_self (List.getElem?_eq_some_iff.mp sends.unsent).1
    have hserver : t.serverSystemId = s.serverSystemId := by
      rw [same, settling.same]
      rfl
    cases settling with
    | binds type m kind ok opened =>
      rw [responseFrame_ok kind] at due
      exact ha.binds opened kind (by rw [same]; rfl) (by rw [same]; rfl) hserver hused due hrefusal hwritten
    | tooLate type kind ok bound =>
      have hplain := Frame.isBindOk_of_status
        (f := responseFrame s.serverSystemId q .alreadyBound reply.messageId) (by simp [responseFrame_status])
      exact ha.answers going hplain due (by rw [same]; rfl) (by rw [same]; rfl) hserver
        (fun _ _ => replies.used) hrefusal hwritten
    | leaves new measured plain =>
      have hplain := isBindOk_responseFrame s.serverSystemId reply.messageId (requests k _ sends.unsent)
        (plain.resolve_right going)
      exact ha.answers going hplain due (by rw [same]; rfl) (by rw [same]; rfl) hserver
        (fun _ _ => replies.used) hrefusal hwritten
  | seesOff k f seesOff done same replied due refusal =>
    have hbeside := closeReply_beside s k f
    have hposts : Posts f s t := posts_of_closeReply (by rw [same]) replied
    have hstatus : t.status = s.status ∨ t.status = .closed := by
      rw [same]
      rcases hbeside.goesOn with ⟨hstatus, -⟩ | ⟨hclosed, -⟩
      · exact .inl hstatus
      · exact .inr hclosed
    have haccepting : s.accepting = t.accepting + if f.isBindOk then 1 else 0 := by
      rw [accepting, due.countP_eq, List.countP_cons, accepting]
    refine ha.less going hstatus (by rw [same, hbeside.same]) (by rw [same, hbeside.same])
      (fun _ _ => replies.used) (fun _ _ hg _ => due.symm.subset (List.mem_cons_of_mem _ hg)) hrefusal ?_
    rcases hposts.acceptances with h | ⟨-, h⟩ <;> omega
  | takes f rest x_eq can input handles =>
    have hsame : t.status = s.status ∧ t.binding = s.binding ∧ t.serverSystemId = s.serverSystemId := by
      cases handles <;> exact ⟨rfl, rfl, rfl⟩
    exact ha.rests going replies (.inl hsame.1) hsame.2.1 hsame.2.2 handles.unsent hrefusal
      handles.quiet.acceptances
  | denies f stage x_eq flows same =>
    have hplain := ha.refusal f (by rw [stage]; rfl)
    have hposts : Posts f s t := (transmit_posts s f).trans (.of_log (by rw [same]; rfl))
    have hwritten : t.acceptances = s.acceptances := by
      rcases hposts.acceptances with h | ⟨-, h⟩
      · exact h
      · simpa [hplain] using h
    obtain ⟨new, htransmit, -⟩ := transmit_eq s f
    rw [htransmit] at same
    exact ha.rests going replies (.inl (by rw [same]; rfl)) (by rw [same]; rfl) (by rw [same]; rfl)
      (fun _ _ h => by rw [same]; exact h) hrefusal hwritten
  | spares spares =>
    obtain ⟨new, log, calm⟩ := spares.logs
    have hquiet : s.Quiet t := ⟨new, log, fun e he => (calm e he).isQuiet⟩
    exact ha.rests going replies (spares.status.imp_right And.left) spares.binding spares.server
      (fun _ _ h => by rw [spares.responders, h]) hrefusal hquiet.acceptances

/-- Nobody else is bound later. -/
theorem Deals.binding (h : s.Deals x t) (hs : s.status = .opened → s.binding = none) {b : Binding}
    (bound : s.binding = some b) : t.binding = some b := by
  cases h with
  | sends k q reply sends u status settling same due refusal =>
    rw [same]
    cases settling with
    | binds type m kind ok opened =>
      have hnone := hs opened
      simp [bound] at hnone
    | tooLate | leaves => exact bound
  | seesOff k f seesOff done same replied due refusal =>
    rw [same, (closeReply_beside s k f).same]
    exact bound
  | takes f rest x_eq can input handles => cases handles <;> exact bound
  | denies f stage x_eq flows same =>
    rw [same, rest, (Beside.transmit s f).same]
    exact bound
  | spares spares => rw [spares.binding, bound]

/-! ## Runs -/

section Runs

variable {xs : List Step} {origin pays : Nat → Nat}

/-- In a run in which writes fail after a disconnect. -/
theorem before_acks (hs : s.Orderly) (hn : s.Numbered) (hl : s.Ledger origin pays) (shut : s.Shut)
    (cut : s.channel.lingers = false) (h : s.Acks) (plain : ∀ x ∈ xs, x ≠ .feel (.lingerWrites true))
    (i : Nat) : (s.before xs i).Acks := by
  refine stateAt_induct (P := Acks) (Nat.zero_le i) (fun j x _ _ _ h => ?_) h
  have horderly : (s.before xs j).Orderly := before_orderly hs j
  have hnumbered : (s.before xs j).Numbered := before_numbered hs hn j
  obtain ⟨origin, pays, hledger⟩ : ∃ origin pays, (s.before xs j).Ledger origin pays :=
    before_ledger hs hn hl j
  refine (step_deals horderly hnumbered x).acks (step_serves horderly hnumbered x).replies h
    (fun k r hr => (hledger.owed.request k r hr).1.2) fun closed => ?_
  exact ⟨(step_advances horderly x).closed closed,
    (before_shut hs shut j).refuses (before_lingers hs cut plain j) closed⟩

theorem before_binding (hs : s.Orderly) (hn : s.Numbered) (acks : ∀ i, (s.before xs i).Acks) {i j : Nat}
    (hij : i ≤ j) {b : Binding} (h : (s.before xs i).binding = some b) :
    (s.before xs j).binding = some b := by
  refine stateAt_induct (P := fun t : Session => t.binding = some b) hij (fun l x _ _ _ h => ?_) h
  exact (step_deals (before_orderly hs l) (before_numbered hs hn l) x).binding
    (fun opened => ((acks l).opened opened).1) h

/-- From the `i`-th step on the reply that goes out through the responder `k` is `f`. -/
def GoesOut (s : Session) (xs : List Step) (i k : Nat) (f : Frame) : Prop :=
  (k, f) ∈ (s.before xs (i + 1)).due ∧ ∀ j y g, i < j → (s.before xs j).SeesOff k g y → g = f

/-- Who is bound, and how the binds are answered, in the run `xs` from `s`. -/
structure BoundOnce (s : Session) (xs : List Step) : Prop where
  /-- At most one OK to a bind is written. -/
  once : (s.after xs).acceptances ≤ 1
  /-- If one is written, it answers the bind by which the session is bound from then on. -/
  identity : ∀ i x f, xs[i]? = some x → (s.before xs i).Writes x f → f.isBindOk = true →
    ∃ k q type b, (s.before xs i).SeesOff k f x ∧ (s.before xs i).responders[k]? = some ⟨q, true⟩ ∧
      .received q ∈ (s.before xs i).log ∧ q.pdu = .bind type b ∧
      f = .bindOk s.serverSystemId type q.sequence ∧
      ∀ j, i ≤ j → (s.before xs j).binding = some ⟨type, b.systemId⟩
  /-- Who is bound stays bound, and nobody else is. -/
  stays : ∀ i j, i ≤ j → ∀ b, (s.before xs i).binding = some b → (s.before xs j).binding = some b
  /-- An OK to a bind, sent while the session is open, binds it. -/
  first : ∀ i x, xs[i]? = some x → (s.before xs i).status = .opened → ∀ k q reply type,
    (s.before xs i).Sends k q reply x → q.kind = .bind type → reply.status = .ok →
      (s.before xs (i + 1)).status = .bound ∧
      (s.before xs (i + 1)).binding = some ⟨type, boundSystemId q⟩ ∧
      s.GoesOut xs i k (.bindOk s.serverSystemId type q.sequence)
  /-- An OK to a bind, sent while somebody is bound, goes out as a refusal. -/
  rival : ∀ i x, xs[i]? = some x → (s.before xs i).status = .bound → ∀ k q reply type,
    (s.before xs i).Sends k q reply x → q.kind = .bind type → reply.status = .ok →
      s.GoesOut xs i k (.bindLate s.serverSystemId type q.sequence)
  /-- The session says who is bound as long as it is bound, and only then. -/
  accessors : ∀ i, ((∃ type, (s.before xs i).bindType = .ok type) ↔ (s.before xs i).status = .bound) ∧
    ((∃ id, (s.before xs i).systemId = .ok id) ↔ (s.before xs i).status = .bound)

theorem identity_of_writes (hs : s.Orderly) (hn : s.Numbered) (ha : s.Acks)
    (closed : s.status = .closed → s.channel.refuses = true) {f : Frame} (writes : s.Writes x f)
    (hf : f.isBindOk = true) : ∃ k, s.SeesOff k f x ∧ s.Accepts k f := by
  have hresponse := Frame.isResponse_of_isBindOk hf
  rcases (step_deals hs hn x).posts with quiet | ⟨k, g, seesOff, posts⟩ | ⟨g, stage, posts⟩
  · exact absurd writes (quiet.not_writes hresponse)
  · obtain ⟨rfl, accepts⟩ := posts.writes hresponse writes
    have hdue := seesOff.mem_due
    refine ⟨k, seesOff, ?_⟩
    -- An open session has no OK due, and a closed one writes none.
    cases hstatus : s.status with
    | opened =>
      have hnone : s.accepting = 0 := by
        have := (ha.opened hstatus).2
        omega
      exact absurd hf (List.countP_eq_zero.mp hnone _ hdue)
    | bound => exact (ha.bound hstatus).2.2 k f hdue hf
    | closed => simp [closed hstatus] at accepts
  · obtain ⟨rfl, -⟩ := posts.writes hresponse writes
    simp [ha.refusal f (by rw [stage]; rfl)] at hf

/-- A reply that is sent is the only one that is due through its responder. -/
theorem Sends.due_iff (hn : s.Numbered) (hl : s.Ledger origin pays) {k : Nat} {q : Frame} {reply : Reply}
    (h : s.Sends k q reply x) : ∃ u status, (s.spend k q).Settling q reply.status u status ∧
      s.step x = { u with reader := (s.step x).reader, answers := (s.step x).answers } ∧
      (s.step x).responders[k]? = some ⟨q, true⟩ ∧
      ∀ f, (k, f) ∈ (s.step x).due ↔ f = responseFrame s.serverSystemId q status reply.messageId := by
  have hunsent := h.unsent
  obtain ⟨u, status, settling, same, due, -⟩ := h.step hn
  refine ⟨u, status, settling, same, ?_, fun f => ⟨fun hf => ?_, ?_⟩⟩
  · rw [same, settling.same]
    exact List.getElem?_set_self (List.getElem?_eq_some_iff.mp hunsent).1
  · rcases List.mem_cons.mp (due.subset hf) with heq | hf
    · simpa using heq
    · -- What was due before went through a responder that had been used.
      obtain ⟨p, used, -⟩ := hl.owed.due k f hf
      rw [hunsent] at used
      cases used
  · rintro rfl
    exact due.symm.subset List.mem_cons_self

section Sends

variable {k : Nat} {q : Frame} {reply : Reply} {type : BindType}

theorem Sends.first (hn : s.Numbered) (hl : s.Ledger origin pays) (h : s.Sends k q reply x)
    (opened : s.status = .opened) (kind : q.kind = .bind type) (ok : reply.status = .ok) :
    (s.step x).status = .bound ∧ (s.step x).binding = some ⟨type, boundSystemId q⟩ ∧
      (s.step x).responders[k]? = some ⟨q, true⟩ ∧
      ∀ f, (k, f) ∈ (s.step x).due ↔ f = .bindOk s.serverSystemId type q.sequence := by
  obtain ⟨u, status, settling, same, used, hdue⟩ := h.due_iff hn hl
  obtain ⟨hbound, hbinding, rfl⟩ := settling.of_opened opened kind ok
  rw [responseFrame_ok kind] at hdue
  exact ⟨by rw [same]; exact hbound, by rw [same]; exact hbinding, used, hdue⟩

theorem Sends.rival (hn : s.Numbered) (hl : s.Ledger origin pays) (h : s.Sends k q reply x)
    (bound : s.status = .bound) (kind : q.kind = .bind type) (ok : reply.status = .ok) :
    (s.step x).responders[k]? = some ⟨q, true⟩ ∧
      ∀ f, (k, f) ∈ (s.step x).due ↔ f = .bindLate s.serverSystemId type q.sequence := by
  obtain ⟨u, status, settling, same, used, hdue⟩ := h.due_iff hn hl
  obtain rfl := settling.of_bound bound kind ok
  rw [responseFrame_late kind] at hdue
  exact ⟨used, hdue⟩

end Sends

/-- What is due through a used responder is what goes out. -/
theorem goesOut_of_due (hs : s.Orderly) (hn : s.Numbered) {i k : Nat} {q f : Frame}
    (used : (s.before xs (i + 1)).responders[k]? = some ⟨q, true⟩)
    (hdue : ∀ g, (k, g) ∈ (s.before xs (i + 1)).due ↔ g = f) : s.GoesOut xs i k f :=
  ⟨(hdue f).mpr rfl, fun _ _ g hij seesOff => (hdue g).mp (before_due hs hn hij used seesOff.mem_due)⟩

theorem bound?_isOk (ha : s.Acks) : (∃ b, s.bound? = .ok b) ↔ s.status = .bound := by
  constructor
  · rintro ⟨b, hb⟩
    unfold bound? at hb
    split at hb
    · assumption
    · cases hb
  · intro hs
    obtain ⟨b, hb⟩ := Option.isSome_iff_exists.mp (ha.bound hs).1
    exact ⟨b, by simp only [bound?, hs, hb]⟩

theorem map_isOk {α β ε : Type} (g : α → β) (r : Except ε α) :
    (∃ b, g <$> r = .ok b) ↔ ∃ a, r = .ok a := by
  cases r <;> simp [Functor.map, Except.map]

end Runs

theorem fresh_acks (id : UInt32) (peer : Option SocketAddress) (serverSystemId : String)
    (settings : SessionSettings) (processor : Nat) (now : Instant) :
    (fresh id peer serverSystemId settings processor now).Acks :=
  ⟨by simp [fresh, Reader.Stage.refusal?], by simp [fresh, acceptances],
    by simp [fresh, acceptances, accepting, due, Reader.Stage.due], by simp [fresh]⟩

/-- However many binds are answered, in whatever order, the first OK binds the session for good. No write
goes through after a disconnect. -/
theorem bound_once (id : UInt32) (peer : Option SocketAddress) (serverSystemId : String)
    (settings : SessionSettings) (processor : Nat) (now : Instant) (xs : List Step)
    (plain : ∀ x ∈ xs, x ≠ .feel (.lingerWrites true)) :
    (fresh id peer serverSystemId settings processor now).BoundOnce xs := by
  have hs := fresh_orderly id peer serverSystemId settings processor now
  have hn := fresh_numbered id peer serverSystemId settings processor now
  have hl := fresh_ledger id peer serverSystemId settings processor now
  have ha := fresh_acks id peer serverSystemId settings processor now
  have shut : (fresh id peer serverSystemId settings processor now).Shut := by simp [Shut, fresh]
  have cut : (fresh id peer serverSystemId settings processor now).channel.lingers = false := rfl
  generalize fresh id peer serverSystemId settings processor now = s at hs hn hl ha shut cut
  have acks := before_acks hs hn hl shut cut ha plain
  have ledger (i : Nat) : ∃ origin pays, (s.before xs i).Ledger origin pays := before_ledger hs hn hl i
  refine ⟨before_length s xs ▸ (acks xs.length).written, fun i x f hx writes hf => ?_,
    fun i j hij b h => before_binding hs hn acks hij h, fun i x hx opened k q reply type sends kind ok => ?_,
    fun i x hx bound k q reply type sends kind ok => ?_, fun i => ⟨?_, ?_⟩⟩
  · obtain ⟨k, seesOff, q, type, b, used, hrequest, hpdu, hframe, hbound⟩ :=
      identity_of_writes (before_orderly hs i) (before_numbered hs hn i) (acks i)
        ((before_shut hs shut i).refuses (before_lingers hs cut plain i)) writes hf
    obtain ⟨origin, pays, hledger⟩ := ledger i
    have hreceived := List.mem_reverse.mp (List.mem_of_getElem? (hledger.owed.request k _ used).1.1)
    rw [before_server hs hn] at hframe
    exact ⟨k, q, type, b, seesOff, used, hreceived, hpdu, hframe,
      fun j hij => before_binding hs hn acks hij hbound⟩
  · obtain ⟨origin, pays, hledger⟩ := ledger i
    obtain ⟨hbound, hbinding, used, hdue⟩ := sends.first (before_numbered hs hn i) hledger opened kind ok
    rw [before_server hs hn] at hdue
    rw [← before_succ hx] at hbound hbinding used hdue
    exact ⟨hbound, hbinding, goesOut_of_due hs hn used hdue⟩
  · obtain ⟨origin, pays, hledger⟩ := ledger i
    obtain ⟨used, hdue⟩ := sends.rival (before_numbered hs hn i) hledger bound kind ok
    rw [before_server hs hn] at hdue
    rw [← before_succ hx] at used hdue
    exact goesOut_of_due hs hn used hdue
  · rw [bindType, map_isOk, bound?_isOk (acks i)]
  · rw [systemId, map_isOk, bound?_isOk (acks i)]

/-- A transmitter and a transceiver ask to be bound, and are told OK in the other order. -/
def rivals : List Step :=
  let bind (code sequence name : UInt8) : List UInt8 :=
    [0, 0, 0, 24, 0, 0, 0, code, 0, 0, 0, 0, 0, 0, 0, sequence, name, 0, 0, 0, 0x34, 0, 0, 0]
  let keep : List Step := [.move (.reader .read), .feel (.begin ⟨[.hold], .handled⟩),
    .move (.reader .proceed), .move (.reader .proceed)]
  .feel (.arrive (bind 2 1 97 ++ bind 9 2 98)) :: keep ++ keep ++
    [.feel (.answer 0 .ok), .feel (.answer 1 .ok), .move (.answer 2), .move (.answer 1), .move (.answer 1),
      .move (.answer 2)]

theorem rivals_bound_once :
    let s := fresh 1 none "smsc" ⟨10, ⟨1000⟩, ⟨1000⟩, ⟨1000⟩⟩ 0 0
    (∀ x ∈ rivals, x ≠ .feel (.lingerWrites true)) ∧ s.BoundOnce rivals ∧
      (s.after rivals).acceptances = 1 ∧ (s.after rivals).bindType = .ok .transceiver ∧
      (s.after rivals).systemId = .ok "b" :=
  ⟨by decide, bound_once 1 none "smsc" _ 0 0 rivals (by decide), by decide +kernel, by rfl, by rfl⟩

end Session

end Smsc
