import Mathlib.Data.List.Induction
import Smsc.Proofs.Pdu.Stream
import Smsc.Proofs.Session.Closing
import Smsc.Proofs.Session.Lasting

/-!
# Smsc.Proofs.Session.Intake — what is taken off the input

Every frame that the client sends is handled once, and in its order, until the session is closed.

* `Intake s x t`, `step_intake`: a step as the input and the reader see it;
* `Frame.Leaves`: what has been taken of a stream, and what is left;
* `Session.arrivals`, `Session.handled`: what the client sends in a run, and what is handled of it;
* `Reading`, `after_reading`: the one against the other, in every run;
* `handled_stays`, `handled_all`: what the end of the session makes of it.
-/

namespace Smsc

/-! ## What is left of a stream -/

namespace Frame

/-- Of the octets `sent` the frames `taken` have been taken, and `left` is still there. -/
def Leaves (sent : List UInt8) (taken : List Frame) (left : List UInt8) : Prop :=
  ∀ more, drain (sent ++ more) =
    { drain (left ++ more) with frames := taken ++ (drain (left ++ more)).frames }

namespace Leaves

variable {sent left : List UInt8} {taken : List Frame}

theorem start : Leaves [] [] [] := fun _ => rfl

theorem arrive (h : Leaves sent taken left) (octets : List UInt8) :
    Leaves (sent ++ octets) taken (left ++ octets) := by
  intro more
  rw [List.append_assoc, List.append_assoc]
  exact h (octets ++ more)

theorem take (h : Leaves sent taken left) {f : Frame} {rest : List UInt8} (next : take? left = .frame f rest) :
    Leaves sent (taken ++ [f]) rest := by
  intro more
  rw [h more, drain_frame (take?_append_frame next more)]
  simp only [List.append_assoc, List.singleton_append]

theorem frames (h : Leaves sent taken left) : (drain sent).frames = taken ++ (drain left).frames := by
  have hnow := congrArg Drained.frames (h [])
  simpa only [List.append_nil] using hnow

/-- What was taken stays in front, whatever comes behind. -/
theorem prefix_frames (h : Leaves sent taken left) (more : List UInt8) :
    taken <+: (drain (sent ++ more)).frames := by
  rw [h more]
  exact List.prefix_append taken _

/-- Behind a fault there is nothing more to take. -/
theorem frames_of_fault (h : Leaves sent taken left) {e : CodecError} {rest : List UInt8}
    (next : take? left = .fault e rest) (more : List UInt8) : (drain (sent ++ more)).frames = taken := by
  rw [h more, drain_fault (take?_append_fault next more)]
  exact List.append_nil taken

theorem frames_of_incomplete (h : Leaves sent taken left) (next : take? left = .incomplete) :
    (drain sent).frames = taken := by
  rw [h.frames, drain_incomplete next]
  exact List.append_nil taken

end Leaves

/-- The end of a stream makes no frame of what was none before. -/
theorem takeEnd?_eq_frame {buffer rest : List UInt8} {f : Frame} :
    takeEnd? buffer = .frame f rest ↔ take? buffer = .frame f rest := by
  unfold takeEnd?
  cases take? buffer with
  | incomplete => cases hbuffer : buffer.isEmpty <;> simp
  | frame g r => rfl
  | fault e r => simp

theorem length_le_of_takeEnd? {buffer rest : List UInt8} {e : CodecError}
    (h : takeEnd? buffer = .fault e rest) : rest.length ≤ buffer.length := by
  have hleft := (left_take? buffer).1
  unfold takeEnd? at h
  cases htake : take? buffer with
  | incomplete =>
    rw [htake] at h
    cases hbuffer : buffer.isEmpty
    · obtain ⟨-, rfl⟩ : _ ∧ buffer = rest := by simpa [hbuffer] using h
      exact Nat.le_refl _
    · simp [hbuffer] at h
  | frame g r => simp [htake] at h
  | fault e' r =>
    rw [htake] at h hleft
    cases h
    rw [show rest = _ from hleft, List.length_drop]
    exact Nat.sub_le _ _

end Frame

/-- How much a stage may still come to, once the processor is at work. -/
def Reader.Stage.effort : Reader.Stage → Nat
  | .finished | .calling .. => 0
  | .waiting => 1
  | .rejecting _ => 2
  | .working _ plan => 3 * plan.actions.length + 2
  | .pausing _ _ plan | .answering _ _ plan => 3 * plan.actions.length + 3

namespace Session

variable {s t : Session} {x : Step} {xs ys : List Step}

theorem nextInput_eq_frame {f : Frame} {rest : List UInt8} :
    s.nextInput = .frame f rest ↔ Frame.take? s.input = .frame f rest := by
  unfold nextInput
  split
  · exact Frame.takeEnd?_eq_frame
  · rfl

theorem length_le_of_nextInput {e : CodecError} {rest : List UInt8} (h : s.nextInput = .fault e rest) :
    rest.length ≤ s.input.length := by
  unfold nextInput at h
  split at h
  · exact Frame.length_le_of_takeEnd? h
  · have hleft := (Frame.left_take? s.input).1
    rw [h] at hleft
    rw [show rest = _ from hleft, List.length_drop]
    exact Nat.sub_le _ _

/-- Between frames the reader waits. -/
theorem waiting_of_can {m : ReaderMove} (can : s.can (.reader m) = true) (hm : m ≠ .proceed) :
    s.reader = .waiting := by
  cases hreader : s.reader <;> cases m <;> simp [Session.can, readerCan, hreader] at can hm ⊢

/-- If a possible read finds no frame, then there is a fault, or the input has ended. -/
theorem take?_of_read (can : s.can (.reader .read) = true) (none : ∀ f rest, s.nextInput ≠ .frame f rest) :
    (∃ e rest, Frame.take? s.input = .fault e rest) ∨
      s.inputEnded = true ∧ Frame.take? s.input = .incomplete := by
  cases htake : Frame.take? s.input with
  | frame f rest => exact absurd (nextInput_eq_frame.mpr htake) (none f rest)
  | fault e rest => exact .inl ⟨e, rest, rfl⟩
  | incomplete =>
    refine .inr ⟨?_, rfl⟩
    by_contra hopen
    simp [Session.can, readerCan, nextInput, waiting_of_can can (by decide), hopen, htake] at can

/-! ## A step as the reader sees it -/

/-- A step as the input and the reader see it. -/
inductive Intake (s : Session) : Step → Session → Prop where
  | arrives (octets : List UInt8) (t : Session) (same : t = { s with input := s.input ++ octets })
      (listens : s.listens = true) : Intake s (.feel (.arrive octets)) t
  | ends (t : Session) (same : t = { s with inputEnded := true }) (listens : s.listens = true) :
      Intake s (.feel .endInput) t
  | begins (k p : Nat) (request : Request) (plan : Plan) (stage : s.reader = .calling k p request)
      (t : Session) (same : t = { s with reader := .working k plan }) : Intake s (.feel (.begin plan)) t
  | takes (f : Frame) (rest : List UInt8) (can : s.can (.reader .read) = true)
      (next : s.nextInput = .frame f rest) (t : Session) (handles : t = { s with input := rest }.handleFrame f)
      (inputEnded : t.inputEnded = s.inputEnded) (input : t.input = rest) :
      Intake s (.move (.reader .read)) t
  /-- It heeds the shutdown, or there is no frame any more. -/
  | quits (m : ReaderMove) (m_eq : m = .stop ∨ m = .read ∧ ∀ f rest, s.nextInput ≠ .frame f rest)
      (can : s.can (.reader m) = true) (t : Session) (reader : t.reader = .finished)
      (status : t.status = .closed) (input : t.input.length ≤ s.input.length)
      (inputEnded : t.inputEnded = s.inputEnded) : Intake s (.move (.reader m)) t
  | proceeds (can : s.can (.reader .proceed) = true) (t : Session)
      (effort : t.reader.effort < s.reader.effort) (owes : ∀ k p request, t.reader ≠ .calling k p request)
      (input : t.input = s.input) (inputEnded : t.inputEnded = s.inputEnded) :
      Intake s (.move (.reader .proceed)) t
  /-- It has no part in the step, but that it may sweep. -/
  | rests (x : Step) (apart : ∀ m, x = .move (.reader m) → s.can (.reader m) = true → m = .sweep)
      (t : Session) (reader : t.reader = s.reader) (input : t.input = s.input)
      (inputEnded : t.inputEnded = s.inputEnded)
      (silent : (x = .feel .endInput ∨ ∃ octets, x = .feel (.arrive octets)) → s.listens = false) :
      Intake s x t

theorem feel_intake (hs : s.Orderly) (y : Stimulus) : s.Intake (.feel y) (s.feel y) := by
  have apart (m : ReaderMove) : Step.feel y = .move (.reader m) → s.can (.reader m) = true → m = .sweep := nofun
  cases y with
  | arrive octets =>
    rw [feel]
    split
    · rename_i listens
      exact .arrives octets _ rfl listens
    · rename_i silent
      exact .rests _ apart s rfl rfl rfl fun _ => by simpa using silent
  | endInput =>
    rw [feel]
    split
    · rename_i listens
      exact .ends _ rfl listens
    · rename_i silent
      exact .rests _ apart s rfl rfl rfl fun _ => by simpa using silent
  | drop id =>
    refine .rests _ apart _ ?_ ?_ ?_ (by simp) <;>
    · rw [feel]
      split
      · rw [(dropCall_step hs.sound _).1.same]
      · rfl
  | forget id =>
    refine .rests _ apart _ ?_ ?_ ?_ (by simp) <;>
    · rw [feel]
      split
      · unfold dropAnswer
        split <;> rfl
      · rfl
  | begin plan =>
    rw [feel, beginWork]
    split
    · rename_i k p request stage
      exact .begins k p request plan stage _ rfl
    · exact .rests _ apart s rfl rfl rfl (by simp)
  | _ => exact .rests _ apart _ rfl rfl rfl (by simp)

theorem Handles.input {f : Frame} (h : s.Handles f t) : t.input = s.input ∧ t.inputEnded = s.inputEnded := by
  cases h <;> exact ⟨rfl, rfl⟩

theorem readInput_intake (can : s.can (.reader .read) = true) : s.Intake (.move (.reader .read)) s.readInput := by
  unfold readInput
  split
  · rename_i f rest next
    obtain ⟨hinput, hended⟩ := (handleFrame_handles { s with input := rest } f).input
    exact .takes f rest can next _ rfl hended hinput
  · rename_i e rest next
    exact .quits .read (.inr ⟨rfl, by simp [next]⟩) can _ rfl rfl (length_le_of_nextInput next) rfl
  · rename_i next
    exact .quits .read (.inr ⟨rfl, by simp [next]⟩) can _ rfl rfl (Nat.le_refl _) rfl

/-- The next thing of a plan leaves less to do. -/
theorem work_intake {k : Nat} {plan : Plan} (stage : s.reader = .working k plan)
    (can : s.can (.reader .proceed) = true) : s.Intake (.move (.reader .proceed)) (s.work k plan) := by
  unfold work
  split
  · have hless : Reader.Stage.waiting.effort < s.reader.effort := by
      rw [stage, Reader.Stage.effort, Reader.Stage.effort]
      omega
    unfold endProcessing
    split <;> exact .proceeds can _ hless nofun rfl rfl
  · rename_i d actions next
    refine .proceeds can _ ?_ nofun rfl rfl
    simp only [stage, Reader.Stage.effort, next, List.length_cons]
    omega
  · rename_i actions next
    refine .proceeds can _ ?_ nofun rfl rfl
    simp only [stage, Reader.Stage.effort, next, List.length_cons]
    omega
  · rename_i reply actions next
    have hsame := (openReply_opens s k reply).1.same
    have hinput : (s.openReply k reply).1.input = s.input := by rw [hsame]
    have hended : (s.openReply k reply).1.inputEnded = s.inputEnded := by rw [hsame]
    clear hsame
    generalize s.openReply k reply = uo at hinput hended
    obtain ⟨u, _ | response⟩ := uo
    all_goals
      refine .proceeds can _ ?_ nofun hinput hended
      simp only [stage, Reader.Stage.effort, next, List.length_cons]
      omega

theorem reader_intake {m : ReaderMove} (can : s.can (.reader m) = true) :
    s.Intake (.move (.reader m)) (s.moveReader m) := by
  cases hstage : s.reader with
  | waiting =>
    cases m with
    | stop =>
      simp only [moveReader, hstage]
      exact .quits .stop (.inl rfl) can _ rfl rfl (Nat.le_refl _) rfl
    | read =>
      simp only [moveReader, hstage]
      exact readInput_intake can
    | sweep =>
      simp only [moveReader, hstage]
      refine .rests _ (by simp) _ ?_ ?_ ?_ (by simp)
      all_goals
        unfold sweep
        dsimp only
        split <;> rfl
    | proceed => simp [Session.can, readerCan, hstage] at can
  | working k plan =>
    cases m with
    | proceed =>
      simp only [moveReader, hstage]
      exact work_intake hstage can
    | stop | read | sweep => simp [Session.can, readerCan, hstage] at can
  | rejecting f =>
    cases m with
    | proceed =>
      have hsame := (Beside.transmit s f).same
      simp only [moveReader, hstage]
      exact .proceeds can _ (by simp [hstage, rest, Reader.Stage.effort]) (by simp [rest]) (by rw [rest, hsame])
        (by rw [rest, hsame])
    | stop | read | sweep => simp [Session.can, readerCan, hstage] at can
  | answering f k plan =>
    cases m with
    | proceed =>
      have hsame := (closeReply_beside s k f).same
      simp only [moveReader, hstage]
      exact .proceeds can _ (by simp [hstage, Reader.Stage.effort]) (by simp) (by rw [note, hsame])
        (by rw [note, hsame])
    | stop | read | sweep => simp [Session.can, readerCan, hstage] at can
  | pausing wake k plan =>
    cases m with
    | proceed =>
      simp only [moveReader, hstage]
      exact .proceeds can _ (by simp [hstage, Reader.Stage.effort]) (by simp) rfl rfl
    | stop | read | sweep => simp [Session.can, readerCan, hstage] at can
  | calling k p request | finished => cases m <;> simp [Session.can, readerCan, hstage] at can

theorem step_intake (hs : s.Orderly) (x : Step) : s.Intake x (s.step x) := by
  cases x with
  | feel y => exact feel_intake hs y
  | move m =>
    by_cases can : s.can m = true
    · cases m with
      | reader m =>
        rw [step_reader can]
        exact reader_intake can
      | call id =>
        cases found : s.findCall? id with
        | none => simp [Session.can, found] at can
        | some c =>
          have hc := List.mem_of_find?_eq_some found
          have hsame := (stepCall_step hs.sound hs.call_ids hc (hs.fits c hc)).beside.same
          rw [step_call found can]
          refine .rests _ (by simp) _ ?_ ?_ ?_ (by simp) <;> rw [hsame]
      | answer id =>
        cases found : s.findAnswer? id with
        | none => simp [Session.can, found] at can
        | some a =>
          have hturn := stepAnswer_turn s a
          rw [step_answer found can]
          refine .rests _ (by simp) _ ?_ ?_ ?_ (by simp)
          all_goals
            generalize s.stepAnswer a = t at hturn ⊢
            cases hturn with
            | opens stage u f settles | refused stage u settles =>
              rw [settles.same]
              rfl
            | closes f stage u closes =>
              rw [closes, (closeReply_beside s a.responder f).same]
              rfl
            | rests => rfl
    · rw [step, if_neg can]
      exact .rests _ (fun m' h hm => by cases h; exact absurd hm can) s rfl rfl rfl (by simp)

/-! ## What is handled in a run -/

/-- What the client sends with a step. -/
def Step.octets : Step → List UInt8
  | .feel (.arrive octets) => octets
  | _ => []

/-- What the client sends in a run, until it sends no more. -/
def arrivals (xs : List Step) : List UInt8 := (xs.takeWhile (· ≠ .feel .endInput)).flatMap Step.octets

theorem arrivals_append (xs ys : List Step) :
    arrivals (xs ++ ys) = if .feel .endInput ∈ xs then arrivals xs else arrivals xs ++ arrivals ys := by
  induction xs with
  | nil => simp [arrivals]
  | cons x xs ih =>
    by_cases hx : x = .feel .endInput
    · simp [arrivals, hx]
    · have hcons (zs : List Step) : arrivals (x :: zs) = x.octets ++ arrivals zs := by simp [arrivals, hx]
      rw [List.cons_append, hcons, hcons, ih]
      by_cases hmem : Step.feel .endInput ∈ xs
      · simp [hmem]
      · simp [hmem, Ne.symm hx, List.append_assoc]

theorem arrivals_prefix (xs ys : List Step) : arrivals xs <+: arrivals (xs ++ ys) := by
  rw [arrivals_append]
  split
  · exact List.prefix_rfl
  · exact List.prefix_append _ _

/-- The frame that a step takes off the input of a session that is not closed. -/
def handled? (s : Session) (x : Step) : Option Frame :=
  if x = .move (.reader .read) ∧ s.can (.reader .read) = true ∧ s.status ≠ .closed then
    match s.nextInput with
    | .frame f _ => some f
    | _ => none
  else none

/-- The frames that are handled in a run, the oldest first. -/
def handled (s : Session) : List Step → List Frame
  | [] => []
  | x :: xs => (s.handled? x).toList ++ handled (s.step x) xs

theorem handled_append (s : Session) (xs ys : List Step) :
    s.handled (xs ++ ys) = s.handled xs ++ (s.after xs).handled ys := by
  induction xs generalizing s with
  | nil => rfl
  | cons x xs ih =>
    rw [List.cons_append, handled, ih, handled, List.append_assoc]
    rfl

theorem handled_concat (s : Session) (xs : List Step) (x : Step) :
    s.handled (xs ++ [x]) = s.handled xs ++ ((s.after xs).handled? x).toList := by
  simp [handled_append, handled]

theorem handled?_eq_some {f : Frame} : s.handled? x = some f ↔ x = .move (.reader .read) ∧
    s.can (.reader .read) = true ∧ s.status ≠ .closed ∧ ∃ rest, s.nextInput = .frame f rest := by
  unfold handled?
  split
  · rename_i hread
    cases hnext : s.nextInput <;> simp [hread]
  · rename_i hread
    simp only [reduceCtorEq, false_iff]
    exact fun ⟨hx, can, going, _⟩ => hread ⟨hx, can, going⟩

/-- A step that is no read takes nothing. -/
theorem handled?_of_unread (unread : s.can (.reader .read) = true → x ≠ .move (.reader .read)) :
    s.handled? x = none := by
  refine Option.eq_none_iff_forall_ne_some.mpr fun f hf => ?_
  obtain ⟨hread, can, -⟩ := handled?_eq_some.mp hf
  exact unread can hread

theorem handled?_of_no_frame (none : ∀ f rest, s.nextInput ≠ .frame f rest) (x : Step) :
    s.handled? x = .none := by
  refine Option.eq_none_iff_forall_ne_some.mpr fun f hf => ?_
  obtain ⟨-, -, -, rest, next⟩ := handled?_eq_some.mp hf
  exact none f rest next

/-- To take a frame is to handle it. -/
theorem step_of_handled {f : Frame} (h : s.handled? x = some f) :
    ∃ rest, s.nextInput = .frame f rest ∧ s.step x = { s with input := rest }.handleFrame f := by
  obtain ⟨rfl, can, -, rest, next⟩ := handled?_eq_some.mp h
  refine ⟨rest, next, ?_⟩
  rw [step_reader can]
  simp only [moveReader, waiting_of_can can (by decide), readInput, next]

theorem handled?_of_closed (closed : s.status = .closed) (x : Step) : s.handled? x = none := by
  simp [handled?, closed]

theorem handled_of_closed (hs : s.Orderly) (closed : s.status = .closed) (xs : List Step) :
    s.handled xs = [] := by
  induction xs generalizing s with
  | nil => rfl
  | cons x xs ih =>
    rw [handled, handled?_of_closed closed, ih (step_orderly hs x) ((step_advances hs x).closed closed)]
    rfl

/-- What has come of what the client sent in the steps `xs`. -/
structure Reading (t : Session) (xs : List Step) (taken : List Frame) : Prop where
  leaves : Frame.Leaves (arrivals xs) taken t.input
  ended : t.inputEnded = true ↔ .feel .endInput ∈ xs

/-- A step that leaves the session open takes the next frame, or none. -/
theorem Reading.step {taken : List Frame} (h : s.Reading xs taken) (hs : s.Orderly)
    (there : s.reader ≠ .finished) (going : s.status ≠ .closed) (open' : (s.step x).status ≠ .closed) :
    (s.step x).Reading (xs ++ [x]) (taken ++ (s.handled? x).toList) := by
  have hlistens : s.listens = !s.inputEnded := by simp [listens, there]
  -- After the end of the input nothing counts, and before it only what arrives.
  have harrivals (quiet : .feel .endInput ∈ xs ∨ x.octets = [] ∧ x ≠ .feel .endInput) :
      arrivals (xs ++ [x]) = arrivals xs ∧ (.feel .endInput ∈ xs ++ [x] ↔ .feel .endInput ∈ xs) := by
    rw [arrivals_append]
    rcases quiet with mem | ⟨octets, last⟩
    · simp [mem]
    · simp [arrivals, octets, last, Ne.symm last]
  have hrest (quiet : .feel .endInput ∈ xs ∨ x.octets = [] ∧ x ≠ .feel .endInput) (none : s.handled? x = none)
      (input : (s.step x).input = s.input) (ended : (s.step x).inputEnded = s.inputEnded) :
      (s.step x).Reading (xs ++ [x]) (taken ++ (s.handled? x).toList) := by
    rw [none, Option.toList_none, List.append_nil]
    exact ⟨by rw [(harrivals quiet).1, input]; exact h.leaves, by rw [ended, h.ended, (harrivals quiet).2]⟩
  have hintake := step_intake hs x
  generalize s.step x = t at hintake hrest open' ⊢
  cases hintake with
  | arrives octets _ same listens =>
    have hopen : Step.feel .endInput ∉ xs := by simpa [hlistens, ← h.ended] using listens
    rw [handled?_of_unread (by simp), Option.toList_none, List.append_nil, same]
    refine ⟨?_, by simpa using h.ended⟩
    rw [arrivals_append, if_neg hopen]
    simpa [arrivals, Step.octets] using h.leaves.arrive octets
  | ends _ same listens =>
    have hopen : Step.feel .endInput ∉ xs := by simpa [hlistens, ← h.ended] using listens
    rw [handled?_of_unread (by simp), Option.toList_none, List.append_nil, same]
    refine ⟨?_, by simp⟩
    rw [arrivals_append, if_neg hopen]
    simpa [arrivals] using h.leaves
  | begins k p request plan stage _ same =>
    exact hrest (.inr ⟨rfl, by simp⟩) (handled?_of_unread (by simp)) (by rw [same]) (by rw [same])
  | takes f rest can next _ handles inputEnded input =>
    have hhandled : s.handled? (.move (.reader .read)) = some f := by simp [handled?, can, going, next]
    obtain ⟨hsent, hends⟩ := harrivals (.inr ⟨rfl, by simp⟩)
    rw [hhandled, Option.toList_some]
    refine ⟨?_, by rw [inputEnded, h.ended, hends]⟩
    rw [hsent, input]
    exact h.leaves.take (nextInput_eq_frame.mp next)
  | quits m m_eq can _ reader status => exact absurd status open'
  | proceeds can _ effort owes input inputEnded =>
    exact hrest (.inr ⟨rfl, by simp⟩) (handled?_of_unread (by simp)) input inputEnded
  | rests x apart _ reader input inputEnded silent =>
    refine hrest ?_ (handled?_of_unread fun can hx => by cases apart .read hx can) input inputEnded
    have hmem (h' : x = .feel .endInput ∨ ∃ octets, x = .feel (.arrive octets)) : .feel .endInput ∈ xs := by
      rw [← h.ended]
      simpa [hlistens] using silent h'
    cases x with
    | move m => exact .inr ⟨rfl, by simp⟩
    | feel y =>
      cases y with
      | arrive octets => exact .inl (hmem (.inr ⟨octets, rfl⟩))
      | endInput => exact .inl (hmem (.inl rfl))
      | _ => exact .inr ⟨rfl, by simp⟩

/-! ## Every run -/

theorem after_orderly (hs : s.Orderly) (xs : List Step) : (s.after xs).Orderly :=
  (runs_after s xs).orderly hs

theorem after_append (s : Session) (xs ys : List Step) : s.after (xs ++ ys) = (s.after xs).after ys :=
  List.foldl_append

theorem after_closed (hs : s.Orderly) (closed : (s.after xs).status = .closed) (ys : List Step) :
    (s.after (xs ++ ys)).status = .closed := by
  rw [after_append]
  exact (runs_after _ ys).closed (after_orderly hs xs) closed

section Run

-- Nothing has come in yet, and the reader ends only with the session.
variable (hs : s.Orderly) (hinput : s.input = []) (hopen : s.inputEnded = false)
  (hends : ∀ xs, (s.after xs).reader = .finished → (s.after xs).status = .closed)
include hs hinput hopen hends

/-- Until the session is closed, what has been handled and what is left make what the client sent. -/
theorem after_reading (going : (s.after xs).status ≠ .closed) : (s.after xs).Reading xs (s.handled xs) := by
  induction xs using List.reverseRecOn with
  | nil =>
    refine ⟨?_, by simp [hopen]⟩
    rw [show (s.after []).input = [] from hinput]
    exact .start
  | append_singleton xs x ih =>
    have earlier : (s.after xs).status ≠ .closed := fun closed => going (after_closed hs closed [x])
    rw [after_concat] at going ⊢
    rw [handled_concat]
    exact (ih earlier).step (after_orderly hs xs) (fun ended => earlier (hends xs ended)) earlier going

theorem handled_frames (going : (s.after xs).status ≠ .closed) :
    (Frame.drain (arrivals xs)).frames = s.handled xs ++ (Frame.drain (s.after xs).input).frames :=
  (after_reading hs hinput hopen hends going).leaves.frames

omit hinput hopen hends in
/-- Once the session is closed no frame is handled any more. -/
theorem handled_stays (closed : (s.after xs).status = .closed) (ys : List Step) :
    s.handled (xs ++ ys) = s.handled xs := by
  rw [handled_append, handled_of_closed (after_orderly hs xs) closed, List.append_nil]

omit hinput hopen hends in
theorem handled_before_closed {i : Nat} (closed : (s.before xs i).status = .closed) :
    s.handled xs = s.handled (xs.take i) := by
  have hstays : s.handled (xs.take i ++ xs.drop i) = s.handled (xs.take i) := handled_stays hs closed _
  rwa [List.take_append_drop] at hstays

/-- What is handled comes first in what the client sends, and in its order. -/
theorem handled_prefix (xs ys : List Step) : s.handled xs <+: (Frame.drain (arrivals (xs ++ ys))).frames := by
  induction xs using List.reverseRecOn generalizing ys with
  | nil => exact List.nil_prefix
  | append_singleton xs x ih =>
    have earlier := ih ([x] ++ ys)
    rw [← List.append_assoc] at earlier
    rw [handled_concat]
    cases hx : (s.after xs).handled? x with
    | none => rwa [Option.toList_none, List.append_nil]
    | some f =>
      obtain ⟨-, -, going, rest, next⟩ := handled?_eq_some.mp hx
      have hleaves := (after_reading hs hinput hopen hends going).leaves.take (nextInput_eq_frame.mp next)
      obtain ⟨more, hmore⟩ := arrivals_prefix xs ([x] ++ ys)
      rw [Option.toList_some, List.append_assoc, ← hmore]
      exact hleaves.prefix_frames more

/-- If a read finds no frame, then every frame that the client sends has been handled. -/
theorem handled_all (going : (s.after xs).status ≠ .closed) (can : (s.after xs).can (.reader .read) = true)
    (none : ∀ f rest, (s.after xs).nextInput ≠ .frame f rest) (ys : List Step) :
    s.handled xs = (Frame.drain (arrivals (xs ++ ys))).frames := by
  have h := after_reading hs hinput hopen hends going
  rcases take?_of_read can none with ⟨e, rest, fault⟩ | ⟨ended, incomplete⟩
  · obtain ⟨more, hmore⟩ := arrivals_prefix xs ys
    rw [← hmore, h.leaves.frames_of_fault fault more]
  · rw [arrivals_append, if_pos (h.ended.mp ended), h.leaves.frames_of_incomplete incomplete]

end Run

end Session

end Smsc
