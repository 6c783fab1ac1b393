import Smsc.Proofs.Session.Binding
import Smsc.Proofs.Session.Leaks
import Smsc.Proofs.Session.Writing

/-!
# Smsc.Proofs.Session.Introduced — requests come after an OK to a bind

The server sends requests to a client that is bound. It is bound with the OK to its bind, from the moment
the OK is sent; what the client sees of it is another matter, for the OK may fail to be written, and may be
overtaken while it is on its way out.

* `step_due`: a reply that is due stays due, is seen off, or is given up;
* `Welcomes s k q type x`: the step `x` sends the OK by which the session is bound;
* `Gated s`, `step_gated`: a call has made its frame only if somebody has been bound;
* `Delivery s xs j i k f`: what has become of a reply, `delivery_of_due`;
* `Introduced s xs`, `requests_introduced`: every run; `unintroduced`: the OK need not arrive.
-/

namespace Smsc

theorem Frame.Answers.isResponse {f q : Frame} (h : f.Answers q) : f.isResponse = true := by
  rw [Frame.isResponse, h.command]
  cases q.command <;> rfl

namespace Session

variable {s t u : Session} {x : Step} {k : Nat} {f : Frame}

/-! ## Replies that are due -/

theorem mem_due_of_eq (h : (k, f) ∈ s.due) (reader : t.reader.due = s.reader.due)
    (answers : t.answers = s.answers) : (k, f) ∈ t.due := by
  rw [due, reader, answers]
  exact h

/-- A move of the reader sees off the reply that the reader has in hand, and leaves the others. -/
theorem ReaderTurn.mem_due {m : ReaderMove} (turn : s.ReaderTurn m t) (can : s.can (.reader m) = true)
    (h : (k, f) ∈ s.due) : (k, f) ∈ t.due ∨ s.SeesOff k f (.move (.reader m)) := by
  have of_idle (idle : s.reader.due = []) (answers : t.answers = s.answers) : (k, f) ∈ t.due := by
    rw [due, idle, List.nil_append] at h
    rw [due, answers]
    exact List.mem_append_right _ h
  cases turn with
  | stops stage => exact .inl (of_idle (by rw [stage]; rfl) rfl)
  | reads stage _ reads =>
    have idle : s.reader.due = [] := by rw [stage]; rfl
    cases reads with
    | frame g rest input handles => cases handles <;> exact .inl (of_idle idle rfl)
    | fault | ends => exact .inl (of_idle idle rfl)
  | sweeps stage =>
    refine .inl (of_idle (by rw [stage]; rfl) ?_)
    unfold sweep
    dsimp only
    split <;> rfl
  | refuses g stage u sends =>
    subst sends
    exact .inl (of_idle (by rw [stage]; rfl) (Beside.transmit s g).answers)
  | answers g l plan stage u closes =>
    subst closes
    have flows : s.channel.isStalled = false := by simpa [Session.can, readerCan, stage] using can
    rcases List.mem_append.mp h with hreader | hanswers
    · rw [stage] at hreader
      obtain ⟨rfl, rfl⟩ : k = l ∧ f = g := by simpa [Reader.Stage.due] using hreader
      exact .inr (.atWork plan stage flows)
    · left
      show (k, f) ∈ [] ++ (s.closeReply l g).answers.flatMap Answer.due
      rw [(closeReply_beside s l g).answers]
      exact hanswers
  | works l plan stage _ works =>
    have idle : s.reader.due = [] := by rw [stage]; rfl
    cases works with
    | ends u same => rcases same with rfl | ⟨m, rfl⟩ <;> exact .inl (of_idle idle rfl)
    | pauses | holds => exact .inl (of_idle idle rfl)
    | answers u plan g settles => exact .inl (of_idle idle settles.answers)
    | refused u plan settles => exact .inl (of_idle idle settles.answers)
  | wakes wake l plan stage => exact .inl (of_idle (by rw [stage]; rfl) rfl)

/-- A move of a late reply sees off what it has in hand, and leaves the others. -/
theorem answer_mem_due (hn : s.Numbered) {id : Nat} {a : Answer} (found : s.findAnswer? id = some a)
    (ready : s.answerIsReady a = true) (h : (k, f) ∈ s.due) :
    (k, f) ∈ (s.stepAnswer a).due ∨ s.SeesOff k f (.move (.answer id)) := by
  have ha : a ∈ s.answers := List.mem_of_find?_eq_some found
  -- To change its stage is to change what is due by its part.
  have of_setAnswer (u : Session) (reader : u.reader = s.reader) (answers : u.answers = s.answers)
      (tasks : u.nextTask = s.nextTask) (stage : AnswerStage) :
      (k, f) ∈ a.due ∨ (k, f) ∈ (u.setAnswer a.id stage).due := by
    have hu : u.Numbered := hn.of_eq (Nat.le_of_eq tasks.symm) answers
    have hperm := due_setAnswer hu (answers ▸ ha) stage
    have hmem : (k, f) ∈ u.due := mem_due_of_eq h (by rw [reader]) answers
    exact List.mem_append.mp (hperm.subset (List.mem_append_right _ hmem))
  have hturn := stepAnswer_turn s a
  generalize s.stepAnswer a = t at hturn
  cases hturn with
  | opens stage u g settles =>
    have hnone : a.due = [] := by rw [Answer.due, stage]; rfl
    rcases of_setAnswer u settles.reader settles.answers settles.nextTask (.writing g) with hmem | hmem
    · rw [hnone] at hmem
      cases hmem
    · exact .inl hmem
  | refused stage u settles =>
    have hnone : a.due = [] := by rw [Answer.due, stage]; rfl
    rcases of_setAnswer u settles.reader settles.answers settles.nextTask (.finished false) with hmem | hmem
    · rw [hnone] at hmem
      cases hmem
    · exact .inl hmem
  | closes g stage u closes =>
    subst closes
    have hbeside := closeReply_beside s a.responder g
    have flows : s.channel.isStalled = false := by simpa [answerIsReady, stage] using ready
    rcases of_setAnswer _ hbeside.reader hbeside.answers hbeside.nextTask (.finished true) with hmem | hmem
    · rw [Answer.due, stage] at hmem
      obtain ⟨rfl, rfl⟩ : k = a.responder ∧ f = g := by simpa [AnswerStage.due] using hmem
      exact .inr (.late id a found rfl stage flows)
    · exact .inl hmem
  | rests => exact .inl h

/-- In the step `x` the late reply `f` through the responder `k` is given up. -/
def Gives (s : Session) (k : Nat) (f : Frame) (x : Step) : Prop :=
  ∃ id a, x = .feel (.forget id) ∧ s.findAnswer? id = some a ∧ a.responder = k ∧ a.stage = .writing f

theorem forget_mem_due (hn : s.Numbered) {id : Nat} {a : Answer} (found : s.findAnswer? id = some a)
    (h : (k, f) ∈ s.due) : (k, f) ∈ (s.dropAnswer a).due ∨ s.Gives k f (.feel (.forget id)) := by
  have ha : a ∈ s.answers := List.mem_of_find?_eq_some found
  unfold dropAnswer
  split
  · exact .inl h
  · rcases List.mem_append.mp h with hreader | hanswers
    · exact .inl (List.mem_append_left _ hreader)
    · obtain ⟨b, hb, hdue⟩ := List.mem_flatMap.mp hanswers
      by_cases hid : b.id = a.id
      · obtain rfl : b = a := List.inj_on_of_nodup_map hn.ids hb ha hid
        right
        cases stage : b.stage with
        | writing g =>
          rw [Answer.due, stage] at hdue
          obtain ⟨rfl, rfl⟩ : k = b.responder ∧ f = g := by simpa [AnswerStage.due] using hdue
          exact ⟨id, b, rfl, found, rfl, stage⟩
        | starting | finished => simp [Answer.due, stage, AnswerStage.due] at hdue
      · left
        refine List.mem_append_right _ (List.mem_flatMap.mpr ⟨b, ?_, hdue⟩)
        exact List.mem_filter.mpr ⟨hb, by simpa using hid⟩

/-- A stimulus leaves the replies that are due, but for one that is given up. -/
theorem feel_due (hs : s.Orderly) (hn : s.Numbered) (h : (k, f) ∈ s.due) (y : Stimulus) :
    (k, f) ∈ (s.feel y).due ∨ s.Gives k f (.feel y) := by
  cases y with
  | arrive | endInput =>
    rw [feel]
    split <;> exact .inl h
  | drop id =>
    rw [feel]
    split
    · rename_i c hc
      have hbeside := (dropCall_step hs.sound c).1
      exact .inl (mem_due_of_eq h (by rw [hbeside.reader]) hbeside.answers)
    · exact .inl h
  | answer l reply =>
    left
    show (k, f) ∈ s.reader.due ++ (s.answers ++ [_]).flatMap Answer.due
    rw [List.flatMap_append, ← List.append_assoc]
    exact List.mem_append_left _ h
  | forget id =>
    rw [feel]
    split
    · rename_i a found
      exact forget_mem_due hn found h
    · exact .inl h
  | begin plan =>
    rw [feel, beginWork]
    split
    · rename_i stage
      exact .inl (mem_due_of_eq h (by rw [stage]; rfl) rfl)
    · exact .inl h
  | _ => exact .inl h

/-- A reply that is due stays due until it is seen off, or given up. -/
theorem step_due (hs : s.Orderly) (hn : s.Numbered) (h : (k, f) ∈ s.due) (x : Step) :
    (k, f) ∈ (s.step x).due ∨ s.SeesOff k f x ∨ s.Gives k f x := by
  cases x with
  | feel y => exact (feel_due hs hn h y).imp_right .inr
  | move m =>
    have hmoves := step_moves s m
    generalize s.step (.move m) = t at hmoves ⊢
    cases hmoves with
    | reader m can => exact ((moveReader_turn can).mem_due can h).imp_right .inl
    | call id c found mem =>
      have hbeside := (stepCall_step hs.sound hs.call_ids mem (hs.fits c mem)).beside
      exact .inl (mem_due_of_eq h (by rw [hbeside.reader]) hbeside.answers)
    | answer id a found ready => exact (answer_mem_due hn found ready h).imp_right .inl
    | nothing => exact .inl h

/-! ## Who is bound -/

/-- In the step `x` an OK to the bind `q` is sent through the responder `k`, while the session is open. -/
def Welcomes (s : Session) (k : Nat) (q : Frame) (type : BindType) (x : Step) : Prop :=
  s.status = .opened ∧ q.kind = .bind type ∧ ∃ reply, s.Sends k q reply x ∧ reply.status = .ok

/-- The session is bound by an OK to a bind, and the OK is due. -/
theorem Deals.welcomes (h : s.Deals x t) :
    t.binding = s.binding ∧ (t.status = s.status ∨ t.status = .closed) ∨
      ∃ k q type, s.Welcomes k q type x ∧ t.binding.isSome = true ∧
        (k, .bindOk s.serverSystemId type q.sequence) ∈ t.due := by
  cases h with
  | sends k q reply sends u status settling same due refusal =>
    cases settling with
    | binds type m kind ok opened =>
      refine .inr ⟨k, q, type, ⟨opened, kind, reply, sends, ok⟩, by rw [same]; rfl, ?_⟩
      rw [responseFrame_ok kind] at due
      exact due.symm.subset List.mem_cons_self
    | tooLate | leaves => exact .inl ⟨by rw [same]; rfl, .inl (by rw [same]; rfl)⟩
  | seesOff k f seesOff done same replied due refusal =>
    have hbeside := closeReply_beside s k f
    refine .inl ⟨by rw [same, hbeside.same], ?_⟩
    rw [same]
    rcases hbeside.goesOn with ⟨hstatus, -⟩ | ⟨hclosed, -⟩
    · exact .inl hstatus
    · exact .inr hclosed
  | takes f rest x_eq can input handles => cases handles <;> exact .inl ⟨rfl, .inl rfl⟩
  | denies f stage x_eq flows same =>
    obtain ⟨new, htransmit, -⟩ := transmit_eq s f
    rw [same, htransmit]
    exact .inl ⟨rfl, .inl rfl⟩
  | spares spares => exact .inl ⟨spares.binding, spares.status.imp_right And.left⟩

/-- Somebody has been bound, if the session is bound or a call has made its frame. -/
structure Gated (s : Session) : Prop where
  bound : s.status = .bound → s.binding.isSome = true
  calls : ∀ c ∈ s.calls, c.stage.frame?.isSome = true → s.binding.isSome = true

/-- A call makes its frame on a session that is bound. -/
theorem startCall_bound (hs : s.Orderly) {c : Call} (hc : c ∈ s.calls) {b : Call}
    (hb : b ∈ (s.startCall c).calls) (hid : b.id = c.id) (frame : b.stage.frame?.isSome = true) :
    s.status = .bound := by
  by_contra hstatus
  have hbound : s.isBound = false := by simpa [isBound] using hstatus
  obtain ⟨result, hcalls⟩ := conclude_calls s c (.error .notBound)
  rw [startCall, hbound] at hb
  have hb : b ∈ (s.setCall c.id (.finished result)).calls := hcalls ▸ hb
  rcases mem_setCall hs.call_ids hc hb with rfl | ⟨-, hne⟩
  · simp [CallStage.frame?] at frame
  · exact hne hid

theorem step_gated (hs : s.Orderly) (hn : s.Numbered) (h : s.Gated) (x : Step) : (s.step x).Gated := by
  rcases (step_deals hs hn x).welcomes with ⟨hbinding, hstatus⟩ | ⟨_, _, _, -, hsome, -⟩
  · refine ⟨fun bound => ?_, fun b hb frame => ?_⟩ <;> rw [hbinding]
    · rcases hstatus with hstatus | hclosed
      · exact h.bound (hstatus ▸ bound)
      · rw [hclosed] at bound
        cases bound
    · rcases mem_calls_step hs hb with hold | ⟨-, starting, -⟩ | ⟨c, hc, ⟨next, rfl⟩, -, ready, hstep⟩
      · exact h.calls b hold frame
      · simp [starting, CallStage.frame?] at frame
      · rw [hstep] at hb
        cases stage : c.stage with
        | starting =>
          rw [stepCall, stage] at hb
          exact h.bound (startCall_bound hs hc hb rfl frame)
        | queued | writing | awaiting => exact h.calls c hc (by rw [stage]; rfl)
        | finished result => simp [callIsReady, stage] at ready
  · exact ⟨fun _ => hsome, fun _ _ _ => hsome⟩

/-! ## Runs -/

/-- What has become, by the `i`-th step, of the reply `f` through the responder `k`, which the `j`-th step
sent. -/
inductive Delivery (s : Session) (xs : List Step) (j i k : Nat) (f : Frame) : Prop where
  | written (l : Nat) (x : Step) (after : j < l) (before : l < i) (step : xs[l]? = some x)
      (seesOff : (s.before xs l).SeesOff k f x) (writes : (s.before xs l).Writes x f)
  /-- It was seen off, and not written: it has no octets, or the channel did not take them. -/
  | lost (l : Nat) (x : Step) (after : j < l) (before : l < i) (step : xs[l]? = some x)
      (seesOff : (s.before xs l).SeesOff k f x) (unwritten : ¬ (s.before xs l).Writes x f)
      (cause : (∀ octets, f.encode ≠ .ok octets) ∨ (s.before xs l).channel.refuses = true)
  /-- It is on its way out. -/
  | due (mem : (k, f) ∈ (s.before xs i).due)
  /-- Whoever had kept the responder gave the reply up. -/
  | forgotten (l : Nat) (x : Step) (after : j < l) (before : l < i) (step : xs[l]? = some x)
      (gives : (s.before xs l).Gives k f x)

variable {xs : List Step} {i j : Nat}

theorem delivery_of_due (hs : s.Orderly) (hn : s.Numbered) (hij : j < i)
    (hdue : (k, f) ∈ (s.before xs (j + 1)).due) : s.Delivery xs j i k f := by
  have hfate := stateAt_until (P := fun t : Session => (k, f) ∈ t.due)
    (Q := fun l x => (s.before xs l).SeesOff k f x ∨ (s.before xs l).Gives k f x) hij
    (fun l x _ _ _ hl => step_due (before_orderly hs l) (before_numbered hs hn l) hl x) hdue
  rcases hfate with hstill | ⟨l, x, hjl, hli, hx, hseesOff | hgives⟩
  · exact .due hstill
  · by_cases hwrites : (s.before xs l).Writes x f
    · exact .written l x hjl hli hx hseesOff hwrites
    · refine .lost l x hjl hli hx hseesOff hwrites ?_
      by_cases hrefuses : (s.before xs l).channel.refuses = true
      · exact .inr hrefuses
      · left
        intro octets hencode
        have haccepts : (s.before xs l).channel.refuses = false := by simpa using hrefuses
        have hemits : (s.before xs l).Emits f x := .reply x k hseesOff
        exact hwrites ((hemits.writes_iff (before_numbered hs hn l)).mpr ⟨⟨octets, hencode⟩, haccepts⟩)
  · exact .forgotten l x hjl hli hx hgives

theorem before_gated (hs : s.Orderly) (hn : s.Numbered) (h : s.Gated) (i : Nat) : (s.before xs i).Gated := by
  refine (before_induct (P := fun t => t.Numbered ∧ t.Gated) hs (fun t ht h x => ?_) (Nat.zero_le i)
    ⟨hn, h⟩).2
  exact ⟨(step_serves ht h.1 x).numbered, step_gated ht h.1 h.2 x⟩

/-- Whoever is bound was bound by an OK. -/
theorem source_of_binding (hs : s.Orderly) (hn : s.Numbered) (unbound : s.binding = none)
    (h : (s.before xs i).binding.isSome = true) :
    ∃ j < i, ∃ x k q type, xs[j]? = some x ∧ (s.before xs j).Welcomes k q type x ∧
      (k, .bindOk s.serverSystemId type q.sequence) ∈ (s.before xs (j + 1)).due := by
  have hsource : ∃ j < i, ∃ x, xs[j]? = some x ∧ ∃ k q type, (s.before xs j).Welcomes k q type x ∧
      (k, .bindOk s.serverSystemId type q.sequence) ∈ ((s.before xs j).step x).due := by
    refine stateAt_source (P := fun t : Session => t.binding.isSome = true) (fun j x _ _ hstep => ?_)
      (by simp [unbound]) h
    have hdeals : (s.before xs j).Deals x ((s.before xs j).step x) :=
      step_deals (before_orderly hs j) (before_numbered hs hn j) x
    rcases hdeals.welcomes with ⟨hbinding, -⟩ | ⟨k, q, type, hwelcomes, -, hdue⟩
    · exact .inl (hbinding ▸ hstep)
    · rw [before_server hs hn] at hdue
      exact .inr ⟨k, q, type, hwelcomes, hdue⟩
  obtain ⟨j, hji, x, hx, k, q, type, hwelcomes, hdue⟩ := hsource
  exact ⟨j, hji, x, k, q, type, hx, hwelcomes, by rw [before_succ hx]; exact hdue⟩

/-- A request on the wire is that of a call. -/
theorem Emits.call_of_request {origin pays : Nat → Nat} (h : s.Emits f x) (hl : s.Ledger origin pays)
    (request : f.isResponse = false) : ∃ id c n, x = .move (.call id) ∧ s.findCall? id = some c ∧
      c.stage = .writing f n := by
  cases h with
  | reply x k seesOff =>
    obtain ⟨q, -, answers⟩ := hl.owed.due k f seesOff.mem_due
    rw [answers.isResponse] at request
    cases request
  | refusal stage flows =>
    obtain ⟨p, q, -, answers, -⟩ := hl.refusal f (by rw [stage]; rfl)
    rw [answers.isResponse] at request
    cases request
  | request id c found n stage flows => exact ⟨id, c, n, rfl, found, stage⟩

/-- The requests of the server in the run `xs` from `s`. -/
structure Introduced (s : Session) (xs : List Step) : Prop where
  /-- A request goes out after the OK to a bind was sent. The OK was written before, unless it was lost or
  given up, or is still on its way. -/
  request : ∀ i x f, xs[i]? = some x → (s.before xs i).Writes x f → f.isResponse = false →
    ∃ j < i, ∃ y k q type, xs[j]? = some y ∧ (s.before xs j).Welcomes k q type y ∧
      s.Delivery xs j i k (.bindOk s.serverSystemId type q.sequence)
  /-- Calls write the requests, and nobody else does. -/
  call : ∀ i x f, xs[i]? = some x → (s.before xs i).Writes x f → f.isResponse = false →
    ∃ id c n, x = .move (.call id) ∧ (s.before xs i).findCall? id = some c ∧ c.stage = .writing f n

/-- In every run, whatever the server is called and whichever writes fail, requests go out to a client that
has been bound. -/
theorem requests_introduced (id : UInt32) (peer : Option SocketAddress) (serverSystemId : String)
    (settings : SessionSettings) (processor : Nat) (now : Instant) (xs : List Step) :
    (fresh id peer serverSystemId settings processor now).Introduced xs := by
  have hs := fresh_orderly id peer serverSystemId settings processor now
  have hn := fresh_numbered id peer serverSystemId settings processor now
  have hl := fresh_ledger id peer serverSystemId settings processor now
  have hg : (fresh id peer serverSystemId settings processor now).Gated := ⟨by simp [fresh], by simp [fresh]⟩
  have unbound : (fresh id peer serverSystemId settings processor now).binding = none := rfl
  generalize fresh id peer serverSystemId settings processor now = s at hs hn hl hg unbound
  have ofCall (i : Nat) (x : Step) (f : Frame) (writes : (s.before xs i).Writes x f)
      (request : f.isResponse = false) : ∃ id c n, x = .move (.call id) ∧
        (s.before xs i).findCall? id = some c ∧ c.stage = .writing f n := by
    obtain ⟨origin, pays, hledger⟩ : ∃ origin pays, (s.before xs i).Ledger origin pays :=
      before_ledger hs hn hl i
    exact writes.emits.1.call_of_request hledger request
  refine ⟨fun i x f hx writes request => ?_, fun i x f hx writes request => ofCall i x f writes request⟩
  obtain ⟨id, c, n, -, found, stage⟩ := ofCall i x f writes request
  have hgated : (s.before xs i).Gated := before_gated hs hn hg i
  have hbound : (s.before xs i).binding.isSome = true :=
    hgated.calls c (List.mem_of_find?_eq_some found) (by rw [stage]; rfl)
  obtain ⟨j, hji, y, k, q, type, hy, hwelcomes, hdue⟩ := source_of_binding hs hn unbound hbound
  exact ⟨j, hji, y, k, q, type, hy, hwelcomes, delivery_of_due hs hn hji hdue⟩

/-- A write that fails, or a name that is too long, keeps the OK from the client. A request goes out all the
same. -/
theorem unintroduced :
    let run (serverSystemId : String) (xs : List Step) : Session :=
      (fresh 1 none serverSystemId ⟨10, ⟨1000⟩, ⟨1000⟩, ⟨1000⟩⟩ 0 0).after xs
    let enquire : List Step := [.feel (.send ⟨some 7, .enquireLink⟩ ⟨1000⟩), .move (.call 1), .move (.call 1)]
    let enquiry : SessionEvent :=
      .wrote (.request 7 .enquireLink) [0, 0, 0, 16, 0, 0, 0, 0x15, 0, 0, 0, 0, 0, 0, 0, 7]
    let failing := run "smsc" ([.feel (.failWrites true)] ++ greeting ++ [.feel (.failWrites false)] ++ enquire)
    let nameless := run "a name of sixteen" (greeting ++ enquire)
    (failing.acceptances = 0 ∧ enquiry ∈ failing.log) ∧ nameless.acceptances = 0 ∧ enquiry ∈ nameless.log := by
  decide +kernel

end Session

end Smsc
