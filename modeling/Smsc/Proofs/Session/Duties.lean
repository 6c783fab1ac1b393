import Mathlib.Data.List.Flatten
import Mathlib.Data.List.Perm.Subperm
import Smsc.Proofs.Session.Tasks

/-!
# Smsc.Proofs.Session.Duties — replies that are due

A reply is due from the moment its responder is used up until it is written or fails to be. The reader
has one at most, and so has each late reply. A refusal has no responder.

* `Session.due`: the replies that are due, each with its responder;
* `Session.granted s k`: how often a reply through the responder `k` has been accepted and seen off;
* `Session.Serves s t`: a step as the replies see it, `step_serves`; `Replies.log`: the log only grows;
* `Replies.due_cases`, `before_due`: once a responder is used up, no other reply becomes due through it.
-/

namespace Smsc

/-- The reply that the reader has in hand, with its responder. -/
def Reader.Stage.due : Reader.Stage → List (Nat × Frame)
  | .answering f k _ => [(k, f)]
  | _ => []

/-- The refusal that the reader has in hand. -/
def Reader.Stage.refusal? : Reader.Stage → Option Frame
  | .rejecting f => some f
  | _ => none

/-- The reply that a late one has in hand. -/
def AnswerStage.due (k : Nat) : AnswerStage → List (Nat × Frame)
  | .writing f => [(k, f)]
  | _ => []

def Answer.due (a : Answer) : List (Nat × Frame) := a.stage.due a.responder

/-- The late reply was accepted, and has ended. -/
def Answer.isGranted (k : Nat) (a : Answer) : Bool := a.responder = k ∧ a.stage = .finished true

/-- No response is written, and no reply is seen off. -/
def SessionEvent.IsAside : SessionEvent → Prop
  | .wrote f _ => f.isResponse = false
  | .replied _ sent => sent = false
  | _ => True

theorem SessionEvent.IsAside.isQuiet {e : SessionEvent} (h : e.IsAside) : e.IsQuiet := by
  cases e <;> first | exact h | trivial

theorem SessionEvent.IsAside.ne_replied {e : SessionEvent} (h : e.IsAside) (k : Nat) :
    e ≠ .replied k true := by
  rintro rfl
  simp [IsAside] at h

theorem SessionEvent.OfCall.isAside {e : SessionEvent} (h : e.OfCall) : e.IsAside := by
  cases e with
  | wrote f octets => exact h.1.isResponse
  | replied => exact h.elim
  | _ => trivial

namespace Session

variable {s t u : Session}

/-- The replies on their way out. -/
def due (s : Session) : List (Nat × Frame) := s.reader.due ++ s.answers.flatMap Answer.due

/-- How often a reply through a responder was accepted, of those that have ended. -/
def granted (s : Session) (k : Nat) : Nat :=
  s.log.count (.replied k true) + s.answers.countP (·.isGranted k)

/-- Ids tell the late replies apart. -/
structure Numbered (s : Session) : Prop where
  ids : (s.answers.map (·.id)).Nodup
  id_lt : ∀ a ∈ s.answers, a.id < s.nextTask

/-- From `s` to `t` the log gains `e`, and nothing about replies after it. -/
def Appends (e : SessionEvent) (s t : Session) : Prop :=
  ∃ post, t.log = post ++ e :: s.log ∧ ∀ e ∈ post, e.IsQuiet

/-- A step as the replies see it. -/
inductive Replies (s t : Session) : Prop where
  /-- No reply comes or is seen off; some may be given up. -/
  | rests (logs : s.Quiet t) (responders : t.responders = s.responders) (due : t.due.Subperm s.due)
      (granted : ∀ l, t.granted l = s.granted l) (refusal : t.reader.refusal? = s.reader.refusal?)
  /-- A request is refused. -/
  | refuses (q f : Frame) (logs : Appends (.received q) s t) (isRead : q.IsRead)
      (request : q.isResponse = false) (answers : f.Answers q) (responders : t.responders = s.responders)
      (due : t.due = s.due) (granted : ∀ l, t.granted l = s.granted l)
      (refusal : t.reader.refusal? = some f)
  /-- A request is handed to the processor, with a responder of its own. -/
  | hands (q : Frame) (logs : Appends (.received q) s t) (isRead : q.IsRead)
      (request : q.isResponse = false) (responders : t.responders = s.responders ++ [⟨q, false⟩])
      (due : t.due = s.due) (granted : ∀ l, t.granted l = s.granted l)
      (refusal : t.reader.refusal? = none)
  /-- A responder is used up for a reply. -/
  | opens (k : Nat) (q f : Frame) (logs : s.Quiet t) (unsent : s.responders[k]? = some ⟨q, false⟩)
      (responders : t.responders = s.responders.set k ⟨q, true⟩) (sequence : f.sequence = q.sequence)
      (command : f.command = q.pdu.response.command) (body : f.pdu.command = f.command)
      (due : t.due.Perm ((k, f) :: s.due)) (granted : ∀ l, t.granted l = s.granted l)
      (refusal : t.reader.refusal? = s.reader.refusal?)
  /-- A reply is seen off, written or not. -/
  | closes (k : Nat) (f : Frame) (posts : Posts f s t) (responders : t.responders = s.responders)
      (due : s.due.Perm ((k, f) :: t.due))
      (granted : ∀ l, t.granted l = s.granted l + if k = l then 1 else 0)
      (refusal : t.reader.refusal? = s.reader.refusal?)
  /-- A refusal is seen off, written or not. -/
  | dismisses (f : Frame) (posts : Posts f s t) (responders : t.responders = s.responders)
      (due : t.due = s.due) (granted : ∀ l, t.granted l = s.granted l)
      (refused : s.reader.refusal? = some f) (refusal : t.reader.refusal? = none)

/-- A step as the replies see it, with the ids of the late ones. -/
structure Serves (s t : Session) : Prop where
  replies : s.Replies t
  numbered : t.Numbered

/-! ## Late replies -/

/-- To change the stage under an id is to change that of one late reply. -/
theorem setAnswer_perm (hs : s.Numbered) {a : Answer} (ha : a ∈ s.answers) (stage : AnswerStage) :
    (s.setAnswer a.id stage).answers.Perm ({ a with stage } :: s.answers.erase a) := by
  have hrest : ∀ b ∈ s.answers.erase a, b.id ≠ a.id := by
    intro b hb hid
    obtain ⟨hne, hb⟩ := (hs.ids.of_map _).mem_erase_iff.mp hb
    exact hne (List.inj_on_of_nodup_map hs.ids hb ha hid)
  have hmap : ((s.answers.erase a).map fun b => if b.id = a.id then { b with stage } else b) =
      s.answers.erase a := by
    rw [List.map_congr_left fun b hb => if_neg (hrest b hb), List.map_id']
  have hperm := (List.perm_cons_erase ha).map fun b => if b.id = a.id then { b with stage } else b
  rwa [List.map_cons, hmap, if_pos rfl] at hperm

/-- What the changed one had in hand goes, and what it has in hand now comes. -/
theorem due_setAnswer (hs : s.Numbered) {a : Answer} (ha : a ∈ s.answers) (stage : AnswerStage) :
    (stage.due a.responder ++ s.due).Perm (a.due ++ (s.setAnswer a.id stage).due) := by
  have hold := (List.perm_cons_erase ha).flatMap_right Answer.due
  have hnew := (setAnswer_perm hs ha stage).flatMap_right Answer.due
  refine List.perm_iff_count.mpr fun x => ?_
  have hold := hold.count_eq x
  have hnew := hnew.count_eq x
  simp only [List.flatMap_cons, List.count_append, Answer.due] at hold hnew
  simp only [due, List.count_append, hold, hnew, Answer.due]
  show _ + (s.reader.due.count x + _) = _ + (s.reader.due.count x + _)
  omega

theorem granted_setAnswer (hs : s.Numbered) {a : Answer} (ha : a ∈ s.answers) {stage : AnswerStage}
    (unfinished : ∀ sent, a.stage ≠ .finished sent) (k : Nat) :
    (s.setAnswer a.id stage).granted k =
      s.granted k + if a.responder = k ∧ stage = .finished true then 1 else 0 := by
  have hold : s.answers.countP (·.isGranted k) = (s.answers.erase a).countP (·.isGranted k) := by
    rw [(List.perm_cons_erase ha).countP_eq, List.countP_cons_of_neg]
    simp [Answer.isGranted, unfinished]
  show s.log.count _ + (s.setAnswer a.id stage).answers.countP _ = s.log.count _ + _ + _
  rw [(setAnswer_perm hs ha stage).countP_eq, List.countP_cons, hold, Nat.add_assoc]
  simp only [Answer.isGranted, decide_eq_true_eq]

theorem setAnswer_numbered (hs : s.Numbered) (id : Nat) (stage : AnswerStage) :
    (s.setAnswer id stage).Numbered where
  ids := by
    have hids : (s.setAnswer id stage).answers.map (·.id) = s.answers.map (·.id) := by
      show (s.answers.map _).map _ = _
      rw [List.map_map]
      refine List.map_congr_left fun a _ => ?_
      by_cases hid : a.id = id <;> simp [hid]
    rw [hids]
    exact hs.ids
  id_lt a ha := by
    obtain ⟨b, hb, rfl⟩ := List.mem_map.mp ha
    have := hs.id_lt b hb
    split <;> exact this

theorem Numbered.of_eq (hs : s.Numbered) (tasks : s.nextTask ≤ t.nextTask)
    (answers : t.answers = s.answers) : t.Numbered :=
  ⟨answers ▸ hs.ids, fun a ha => Nat.lt_of_lt_of_le (hs.id_lt a (answers ▸ ha)) tasks⟩

theorem granted_eq (answers : t.answers = s.answers) (new : List SessionEvent) (log : t.log = new ++ s.log)
    {k : Nat} (unreplied : ∀ e ∈ new, e ≠ .replied k true) : t.granted k = s.granted k := by
  have hnew : new.count (.replied k true) = 0 := List.count_eq_zero.mpr fun h => unreplied _ h rfl
  rw [granted, granted, answers, log, List.count_append, hnew, Nat.zero_add]

/-! ## One step -/

/-- A step that leaves the replies alone. -/
theorem serves_aside (hs : s.Numbered) (tasks : s.nextTask ≤ t.nextTask) (answers : t.answers = s.answers)
    (responders : t.responders = s.responders) (due : t.reader.due = s.reader.due)
    (refusal : t.reader.refusal? = s.reader.refusal?)
    (logs : ∃ new, t.log = new ++ s.log ∧ ∀ e ∈ new, e.IsAside) : s.Serves t := by
  obtain ⟨new, log, aside⟩ := logs
  refine ⟨.rests ⟨new, log, fun e he => (aside e he).isQuiet⟩ responders ?_
    (fun k => granted_eq answers new log fun e he => (aside e he).ne_replied k) refusal,
    hs.of_eq tasks answers⟩
  rw [Session.due, Session.due, due, answers]

/-- A step that leaves the log alone, too. -/
theorem serves_idle (hs : s.Numbered) (tasks : s.nextTask ≤ t.nextTask) (answers : t.answers = s.answers)
    (responders : t.responders = s.responders) (due : t.reader.due = s.reader.due)
    (refusal : t.reader.refusal? = s.reader.refusal?) (log : t.log = s.log) : s.Serves t :=
  serves_aside hs tasks answers responders due refusal ⟨[], log, by simp⟩

theorem Beside.granted {f : Frame} (h : s.Beside (SessionEvent.OfWriting f) t) (k : Nat) :
    t.granted k = s.granted k := by
  obtain ⟨new, log, ofWriting⟩ := h.logs
  refine granted_eq h.answers new log ?_
  rintro e he rfl
  exact ofWriting _ he

theorem Beside.serves {P : SessionEvent → Prop} (h : s.Beside P t) (hs : s.Numbered)
    (aside : ∀ e, P e → e.IsAside) : s.Serves t :=
  serves_aside hs (Nat.le_of_eq h.nextTask.symm) h.answers h.responders (by rw [h.reader])
    (by rw [h.reader]) ((h.mono aside).logs)

theorem Handles.serves (hs : s.Numbered) (waiting : s.reader = .waiting) {f : Frame} {rest : List UInt8}
    (isRead : f.IsRead) (h : { s with input := rest }.Handles f t) : s.Serves t := by
  have hdue : ([] : List (Nat × Frame)) = s.reader.due := by rw [waiting]; rfl
  cases h with
  | drops m closed =>
    exact serves_aside hs (Nat.le_refl _) rfl rfl rfl rfl ⟨[.measured m, .received f], rfl, by
      simp [SessionEvent.IsAside]⟩
  | completes m going kind =>
    refine serves_aside hs (Nat.le_refl _) rfl rfl rfl rfl ⟨(if s.window.contains f.sequence then [] else
      [.measured .windowUnmatched]) ++ [.measured m, .received f], by simp, ?_⟩
    split <;> simp [SessionEvent.IsAside]
  | rejects m m' status rule =>
    have hrequest : f.isResponse = false := by
      rw [← Bool.not_eq_true, ← Frame.kind_eq_response]
      rcases rule with ⟨-, -, type, h⟩ | ⟨-, -, h⟩ <;> simp [h]
    have hlogs : ∀ e ∈ [SessionEvent.measured m', .measured m], e.IsQuiet := by
      simp [SessionEvent.IsQuiet]
    refine ⟨.refuses f _ ⟨_, rfl, hlogs⟩ isRead hrequest (Frame.answers_responseFor isRead status) rfl
      ?_ ?_ rfl, hs.of_eq (Nat.le_refl _) rfl⟩
    · rw [due, due, ← hdue]
      rfl
    · intro k
      refine granted_eq ?_ [.measured m', .measured m, .received f] ?_ (by simp) <;> rfl
  | dispatches m rule =>
    have hrequest : f.isResponse = false := by
      rw [← Bool.not_eq_true, ← Frame.kind_eq_response]
      rcases rule with ⟨-, type, h⟩ | ⟨-, h⟩ <;> simp [h]
    have hlogs : ∀ e ∈ [SessionEvent.called s.responders.length s.processor (.ofFrame f), .measured m],
        e.IsQuiet := by
      simp [SessionEvent.IsQuiet]
    refine ⟨.hands f ⟨_, rfl, hlogs⟩ isRead hrequest rfl ?_ ?_ rfl, hs.of_eq (Nat.le_refl _) rfl⟩
    · rw [due, due, ← hdue]
      rfl
    · intro k
      refine granted_eq ?_ [.called s.responders.length s.processor (.ofFrame f), .measured m, .received f]
        ?_ (by simp) <;> rfl

theorem Settles.quiet (h : s.Settles t) : s.Quiet t := by
  obtain ⟨new, log, measured⟩ := h.logs
  refine ⟨new, log, fun e he => ?_⟩
  obtain ⟨m, rfl⟩ := measured e he
  trivial

theorem Settles.granted (h : s.Settles t) (k : Nat) : t.granted k = s.granted k := by
  obtain ⟨new, log, measured⟩ := h.logs
  refine granted_eq h.answers new log fun e he => ?_
  obtain ⟨m, rfl⟩ := measured e he
  simp

theorem Works.serves (hs : s.Numbered) {k : Nat} {plan : Plan} (stage : s.reader = .working k plan)
    (h : s.Works k t) : s.Serves t := by
  have hdue : ([] : List (Nat × Frame)) = s.reader.due := by rw [stage]; rfl
  have hrefusal : none = s.reader.refusal? := by rw [stage]; rfl
  cases h with
  | ends u same =>
    rcases same with rfl | ⟨m, rfl⟩
    · exact serves_idle hs (Nat.le_refl _) rfl rfl hdue hrefusal rfl
    · exact serves_aside hs (Nat.le_refl _) rfl rfl hdue hrefusal
        ⟨[.measured m], rfl, by simp [SessionEvent.IsAside]⟩
  | pauses wake plan =>
    exact serves_idle hs (Nat.le_refl _) rfl rfl hdue hrefusal rfl
  | holds plan =>
    exact serves_aside hs (Nat.le_refl _) rfl rfl hdue hrefusal
      ⟨[.held k], rfl, by simp [SessionEvent.IsAside]⟩
  | answers u plan f settles opens =>
    cases opens with
    | opened q _ unsent responders_eq sequence_eq command_eq body_eq =>
      refine ⟨.opens k q f (settles.quiet.trans (.of_log rfl)) unsent responders_eq sequence_eq command_eq
        body_eq ?_ settles.granted hrefusal, hs.of_eq (Nat.le_of_eq settles.nextTask.symm) settles.answers⟩
      show ([(k, f)] ++ u.answers.flatMap Answer.due).Perm ((k, f) :: (s.reader.due ++ _))
      rw [settles.answers, ← hdue]
      exact .refl _
  | refused u plan settles opens =>
    cases opens with
    | refused responders_eq =>
      obtain ⟨new, log, measured⟩ := settles.logs
      refine serves_aside hs (Nat.le_of_eq settles.nextTask.symm) settles.answers responders_eq hdue hrefusal
        ⟨.replied k false :: new, by simp [note, log], fun e he => ?_⟩
      rcases List.mem_cons.mp he with rfl | he
      · rfl
      · obtain ⟨m, rfl⟩ := measured e he
        trivial

theorem ReaderTurn.serves (hs : s.Numbered) {m : ReaderMove} (h : s.ReaderTurn m t) : s.Serves t := by
  cases h with
  | stops stage =>
    exact serves_idle hs (Nat.le_refl _) rfl rfl (by rw [stage]; rfl) (by rw [stage]; rfl) rfl
  | reads stage _ reads =>
    cases reads with
    | frame f rest input handles => exact handles.serves hs stage (isRead_of_nextInput input)
    | fault rest m =>
      exact serves_aside hs (Nat.le_refl _) rfl rfl (by rw [stage]; rfl) (by rw [stage]; rfl)
        ⟨[.measured m], rfl, by simp [SessionEvent.IsAside]⟩
    | ends =>
      exact serves_idle hs (Nat.le_refl _) rfl rfl (by rw [stage]; rfl) (by rw [stage]; rfl) rfl
  | sweeps stage =>
    unfold sweep
    dsimp only
    split
    · exact serves_idle hs (Nat.le_refl _) rfl rfl rfl rfl rfl
    · exact serves_aside hs (Nat.le_refl _) rfl rfl rfl rfl
        ⟨[.measured _], rfl, by simp [SessionEvent.IsAside]⟩
  | refuses f stage u sends =>
    have hbeside : s.Beside (SessionEvent.OfWriting f) u := sends ▸ .transmit s f
    refine ⟨.dismisses f ?_ hbeside.responders ?_ hbeside.granted (by rw [stage]; rfl) rfl,
      hs.of_eq (Nat.le_of_eq hbeside.nextTask.symm) hbeside.answers⟩
    · exact (sends ▸ transmit_posts s f : Posts f s u).trans (.of_log rfl)
    · show [] ++ u.answers.flatMap Answer.due = s.reader.due ++ _
      rw [hbeside.answers, stage]
      rfl
  | answers f k plan stage u closes =>
    have hbeside : s.Beside (SessionEvent.OfWriting f) u := closes ▸ closeReply_beside s k f
    refine ⟨.closes k f ?_ hbeside.responders ?_ (fun l => ?_) (by rw [stage]; rfl),
      hs.of_eq (Nat.le_of_eq hbeside.nextTask.symm) hbeside.answers⟩
    · exact (closes ▸ closeReply_posts s k f : Posts f s u).trans (.note _ trivial)
    · show (s.reader.due ++ _).Perm ((k, f) :: ([] ++ u.answers.flatMap Answer.due))
      rw [hbeside.answers, stage]
      exact .refl _
    · show (.replied k true :: u.log).count _ + u.answers.countP _ = _
      rw [← hbeside.granted l, granted, List.count_cons]
      simp [Nat.add_right_comm]
  | works k plan stage _ works => exact works.serves hs stage
  | wakes wake k plan stage =>
    exact serves_idle hs (Nat.le_refl _) rfl rfl (by rw [stage]; rfl) (by rw [stage]; rfl) rfl

theorem AnswerTurn.serves (hs : s.Numbered) {a : Answer} (ha : a ∈ s.answers) (h : s.AnswerTurn a t) :
    s.Serves t := by
  cases h with
  | opens stage u f settles opens =>
    have hu : u.Numbered := hs.of_eq (Nat.le_of_eq settles.nextTask.symm) settles.answers
    have hau : a ∈ u.answers := settles.answers ▸ ha
    have hdue := due_setAnswer hu hau (.writing f)
    cases opens with
    | opened q _ unsent responders_eq sequence_eq command_eq body_eq =>
      refine ⟨.opens a.responder q f (settles.quiet.trans (.of_log rfl)) unsent responders_eq sequence_eq
        command_eq body_eq ?_ (fun k => ?_) (by rw [← settles.reader]; rfl), setAnswer_numbered hu _ _⟩
      · rw [Answer.due, stage, due, settles.reader, settles.answers] at hdue
        exact hdue.symm
      · rw [granted_setAnswer hu hau (by simp [stage]), settles.granted]
        simp
  | refused stage u settles opens =>
    have hu : u.Numbered := hs.of_eq (Nat.le_of_eq settles.nextTask.symm) settles.answers
    have hau : a ∈ u.answers := settles.answers ▸ ha
    have hdue := due_setAnswer hu hau (.finished false)
    cases opens with
    | refused responders_eq =>
      refine ⟨.rests (settles.quiet.trans (.of_log rfl)) responders_eq ?_ (fun k => ?_)
        (by rw [← settles.reader]; rfl), setAnswer_numbered hu _ _⟩
      · rw [Answer.due, stage, due, settles.reader, settles.answers] at hdue
        exact hdue.symm.subperm
      · rw [granted_setAnswer hu hau (by simp [stage]), settles.granted]
        simp
  | closes f stage u closes =>
    have hbeside : s.Beside (SessionEvent.OfWriting f) u := closes ▸ closeReply_beside s a.responder f
    have hu : u.Numbered := hs.of_eq (Nat.le_of_eq hbeside.nextTask.symm) hbeside.answers
    have hau : a ∈ u.answers := hbeside.answers ▸ ha
    have hdue := due_setAnswer hu hau (.finished true)
    refine ⟨.closes a.responder f ?_ hbeside.responders ?_ (fun k => ?_) (by rw [← hbeside.reader]; rfl),
      setAnswer_numbered hu _ _⟩
    · exact (closes ▸ closeReply_posts s a.responder f : Posts f s u).trans (.of_log rfl)
    · rw [Answer.due, stage, due, hbeside.reader, hbeside.answers] at hdue
      exact hdue
    · rw [granted_setAnswer hu hau (by simp [stage]), hbeside.granted]
      simp
  | rests => exact serves_idle hs (Nat.le_refl _) rfl rfl rfl rfl rfl

/-- A late reply that comes has nothing in hand yet. -/
theorem addAnswer_serves (hs : s.Numbered) (k : Nat) (reply : Reply) : s.Serves (s.addAnswer k reply) := by
  refine ⟨.rests (.of_log rfl) rfl ?_ (fun l => ?_) rfl, ?_, ?_⟩
  · rw [due, due, addAnswer, List.flatMap_append, List.flatMap_singleton]
    show (s.reader.due ++ (_ ++ [])).Subperm _
    rw [List.append_nil]
  · show s.log.count _ + (s.answers ++ [_]).countP _ = s.log.count _ + s.answers.countP _
    simp [Answer.isGranted]
  · show ((s.answers ++ [_]).map Answer.id).Nodup
    rw [List.map_append, List.nodup_append]
    refine ⟨hs.ids, by simp, fun i hi j hj hij => ?_⟩
    obtain ⟨a, ha, rfl⟩ := List.mem_map.mp hi
    obtain rfl : j = s.nextTask := by simpa using hj
    exact Nat.ne_of_lt (hs.id_lt a ha) hij
  · intro a ha
    rcases List.mem_append.mp ha with ha | ha
    · exact Nat.lt_succ_of_lt (hs.id_lt a ha)
    · obtain rfl := List.mem_singleton.mp ha
      exact Nat.lt_succ_self _

/-- A late reply that is given up has not been seen off. -/
theorem dropAnswer_serves (hs : s.Numbered) {a : Answer} (ha : a ∈ s.answers) :
    s.Serves (s.dropAnswer a) := by
  unfold dropAnswer
  split
  · exact serves_idle hs (Nat.le_refl _) rfl rfl rfl rfl rfl
  · rename_i hstage
    have hsub : (s.answers.filter (·.id ≠ a.id)).Sublist s.answers := List.filter_sublist
    refine ⟨.rests (.of_log rfl) rfl ?_ (fun l => ?_) rfl, hs.ids.sublist (hsub.map _),
      fun b hb => hs.id_lt b (hsub.subset hb)⟩
    · exact ((hsub.flatMap Answer.due).append_left s.reader.due).subperm
    · show s.log.count _ + (s.answers.filter (·.id ≠ a.id)).countP _ = s.log.count _ + s.answers.countP _
      rw [List.countP_filter]
      refine congrArg _ (List.countP_congr fun b hb => ?_)
      suffices b.isGranted l = true → b.id ≠ a.id by simpa using this
      rintro hgranted hid
      obtain rfl := List.inj_on_of_nodup_map hs.ids hb ha hid
      simp only [Answer.isGranted, decide_eq_true_eq] at hgranted
      exact hstage true hgranted.2

theorem Feels.serves (h : s.Orderly) (hs : s.Numbered) (feels : s.Feels t) : s.Serves t := by
  cases feels with
  | aside _ same =>
    rw [same]
    exact serves_idle hs (Nat.le_refl _) rfl rfl rfl rfl rfl
  | begins purpose request timeout => exact serves_idle hs (Nat.le_succ _) rfl rfl rfl rfl rfl
  | drops c mem => exact (dropCall_step h.sound c).1.serves hs fun _ he => SessionEvent.OfCall.isAside he
  | answers k reply => exact addAnswer_serves hs k reply
  | forgets a mem => exact dropAnswer_serves hs mem
  | ends => exact serves_idle hs (Nat.le_refl _) rfl rfl rfl rfl rfl
  | works k p request plan stage =>
    exact serves_idle hs (Nat.le_refl _) rfl rfl (by rw [stage]; rfl) (by rw [stage]; rfl) rfl

/-- One step of a session as the replies see it. -/
theorem step_serves (h : s.Orderly) (hs : s.Numbered) (x : Step) : s.Serves (s.step x) := by
  have hhappens := h.happens x
  generalize s.step x = t at hhappens
  cases hhappens with
  | feels x _ feels => exact feels.serves h hs
  | reader m can _ turn => exact turn.serves hs
  | call id c mem _ step => exact step.beside.serves hs fun _ he => SessionEvent.OfCall.isAside he
  | answer id a mem _ turn => exact turn.serves hs mem
  | nothing m => exact serves_idle hs (Nat.le_refl _) rfl rfl rfl rfl rfl

/-- The log only grows. -/
theorem Replies.log (h : s.Replies t) : ∃ new, t.log = new ++ s.log := by
  have of_quiet (h : s.Quiet t) : ∃ new, t.log = new ++ s.log := by
    obtain ⟨new, log, -⟩ := h
    exact ⟨new, log⟩
  have of_appends {e : SessionEvent} (h : Appends e s t) : ∃ new, t.log = new ++ s.log := by
    obtain ⟨post, log, -⟩ := h
    exact ⟨post ++ [e], by rw [log, List.append_assoc, List.singleton_append]⟩
  have of_posts {f : Frame} (h : Posts f s t) : ∃ new, t.log = new ++ s.log := by
    rcases h with h | ⟨post, octets, -, -, log, quiet⟩
    · exact of_quiet h
    · exact of_appends ⟨post, log, quiet⟩
  cases h with
  | rests logs => exact of_quiet logs
  | refuses q f logs => exact of_appends logs
  | hands q logs => exact of_appends logs
  | opens k q f logs => exact of_quiet logs
  | closes k f posts => exact of_posts posts
  | dismisses f posts => exact of_posts posts

/-! ## Used responders -/

theorem Replies.used (h : s.Replies t) {k : Nat} {q : Frame} (used : s.responders[k]? = some ⟨q, true⟩) :
    t.responders[k]? = some ⟨q, true⟩ := by
  cases h with
  | hands p logs isRead request responders due granted refusal =>
    rw [responders, List.getElem?_append_left (List.getElem?_eq_some_iff.mp used).1, used]
  | opens l p f logs unsent responders sequence command body due granted refusal =>
    have hne : l ≠ k := by
      rintro rfl
      rw [unsent] at used
      cases used
    rw [responders, List.getElem?_set_ne hne, used]
  | rests _ responders | refuses _ _ _ _ _ _ responders | closes _ _ _ responders
  | dismisses _ _ responders =>
    rw [responders, used]

/-- What becomes due does so through a responder that is used up for it. -/
theorem Replies.due_cases (h : s.Replies t) : t.due.Subperm s.due ∨
    ∃ k q f, s.responders[k]? = some ⟨q, false⟩ ∧ t.responders[k]? = some ⟨q, true⟩ ∧
      t.due.Perm ((k, f) :: s.due) := by
  cases h with
  | rests logs responders due => exact .inl due
  | refuses q f logs isRead request answers responders due => exact .inl (due ▸ .refl _)
  | hands q logs isRead request responders due => exact .inl (due ▸ .refl _)
  | opens k q f logs unsent responders sequence command body due =>
    refine .inr ⟨k, q, f, unsent, ?_, due⟩
    rw [responders, List.getElem?_set_self (List.getElem?_eq_some_iff.mp unsent).1]
  | closes k f posts responders due => exact .inl ((List.subperm_cons_self).trans due.symm.subperm)
  | dismisses f posts responders due => exact .inl (due ▸ .refl _)

theorem Replies.due_of_used (h : s.Replies t) {k : Nat} {q f : Frame}
    (used : s.responders[k]? = some ⟨q, true⟩) (mem : (k, f) ∈ t.due) : (k, f) ∈ s.due := by
  rcases h.due_cases with sub | ⟨l, p, g, unsent, -, perm⟩
  · exact sub.subset mem
  · rcases List.mem_cons.mp (perm.subset mem) with heq | mem
    · obtain ⟨rfl, -⟩ : k = l ∧ f = g := by simpa using heq
      rw [used] at unsent
      cases unsent
    · exact mem

/-- A step that sends no reply leaves no more of them due. -/
theorem Replies.due_subperm (h : s.Replies t)
    (unsent : ∀ (k : Nat) (q : Frame), s.responders[k]? = some ⟨q, false⟩ →
      t.responders[k]? = some ⟨q, false⟩) :
    t.due.Subperm s.due := by
  rcases h.due_cases with sub | ⟨k, q, f, hunsent, hused, -⟩
  · exact sub
  · rw [unsent k q hunsent] at hused
    cases hused

/-! ## Runs -/

theorem fresh_numbered (id : UInt32) (peer : Option SocketAddress) (serverSystemId : String)
    (settings : SessionSettings) (processor : Nat) (now : Instant) :
    (fresh id peer serverSystemId settings processor now).Numbered :=
  ⟨by simp [fresh], by simp [fresh]⟩

theorem before_numbered {xs : List Step} (h : s.Orderly) (hs : s.Numbered) (k : Nat) :
    (s.before xs k).Numbered :=
  before_induct (P := Numbered) h (fun _ ht hn x => (step_serves ht hn x).numbered) (Nat.zero_le k) hs

theorem before_due {xs : List Step} (hs : s.Orderly) (hn : s.Numbered) {i j : Nat} (hij : i ≤ j) {k : Nat}
    {q f : Frame} (used : (s.before xs i).responders[k]? = some ⟨q, true⟩)
    (mem : (k, f) ∈ (s.before xs j).due) : (k, f) ∈ (s.before xs i).due := by
  refine (before_induct (P := fun t => t.Numbered ∧ t.responders[k]? = some ⟨q, true⟩ ∧
    ((k, f) ∈ t.due → (k, f) ∈ (s.before xs i).due)) hs (fun t ht h x => ?_) hij
    ⟨before_numbered hs hn i, used, fun h => h⟩).2.2 mem
  obtain ⟨hnumbered, hused, hdue⟩ := h
  have hserves := step_serves ht hnumbered x
  exact ⟨hserves.numbered, hserves.replies.used hused, fun h => hdue (hserves.replies.due_of_used hused h)⟩

end Session

end Smsc
