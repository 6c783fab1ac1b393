import Smsc.Proofs.Session.Conversation
import Smsc.Proofs.Session.Finishing

/-!
# Smsc.Proofs.Session.FramesOnce — every frame once, and in its order

However the octets of a client arrive, the reader handles the frames that they spell, each once and in their
order, until the session is closed, and it comes to its end.

* `FramesOnce s xs`: what is handled in a run of any kind;
* `Attended π s xs`: a run in which only the client, the clock and the processor `π` have a part;
* `New.said`: what such a run comes to when the reader has ended;
* `ReadsAll`, `every_frame_once`: all of it, for a new session.
-/

namespace Smsc.Session

variable {s t : Session} {x : Step} {xs : List Step} {π : List Request → Plan}

/-! ## The end of a session -/

/-- A frame that is handled leaves an open session open. -/
theorem Handles.going {f : Frame} (h : s.Handles f t) (going : s.status ≠ .closed) : t.status ≠ .closed := by
  cases h with
  | drops m closed => exact absurd closed going
  | completes | rejects | dispatches => exact going

/-- A read that closes the session has found no frame. -/
theorem nextInput_of_end (can : s.can (.reader .read) = true) (going : s.status ≠ .closed)
    (closed : (s.step (.move (.reader .read))).status = .closed) : ∀ f rest, s.nextInput ≠ .frame f rest := by
  intro f rest next
  exact (step_handles can next).going going closed

/-- A session that is closed now and was not closed at first was closed in some step. -/
theorem exists_end (going : s.status ≠ .closed) (closed : (s.after xs).status = .closed) :
    ∃ i x, xs[i]? = some x ∧ (s.before xs i).status ≠ .closed ∧ ((s.before xs i).step x).status = .closed := by
  induction xs generalizing s with
  | nil => exact absurd closed going
  | cons x xs ih =>
    by_cases hx : (s.step x).status = .closed
    · exact ⟨0, x, rfl, going, hx⟩
    · obtain ⟨i, y, hy, hgoing, hclosed⟩ := ih hx closed
      exact ⟨i + 1, y, hy, hgoing, hclosed⟩

/-- What is handled of what a client sends, in a run of any kind. -/
structure FramesOnce (s : Session) (xs : List Step) : Prop where
  /-- A step handles one frame at most, the next of the input. -/
  handles : ∀ i x f, xs[i]? = some x → (s.before xs i).handled? x = some f → ∃ rest,
    (s.before xs i).nextInput = .frame f rest ∧
      s.before xs (i + 1) = { s.before xs i with input := rest }.handleFrame f
  /-- They are the first frames of the stream, in their order and each once. -/
  first : ∀ i, s.handled (xs.take i) <+: (Frame.drain (arrivals xs)).frames
  /-- Until the session is closed they are all that has arrived, but for what has not been read. -/
  going : ∀ i, (s.before xs i).status ≠ .closed → (Frame.drain (arrivals (xs.take i))).frames =
    s.handled (xs.take i) ++ (Frame.drain (s.before xs i).input).frames
  /-- Then no frame is handled any more. -/
  closed : ∀ i, (s.before xs i).status = .closed → s.handled xs = s.handled (xs.take i)
  /-- They are all up to the first fault or the end, or something else has closed the session. -/
  last : (s.after xs).status = .closed → s.handled xs = (Frame.drain (arrivals xs)).frames ∨
    ∃ i x, xs[i]? = some x ∧ x ≠ .move (.reader .read) ∧ (s.before xs i).status ≠ .closed ∧
      (s.before xs (i + 1)).status = .closed ∧ s.handled xs = s.handled (xs.take i)
  /-- When the reader has ended, the session is closed, and its channel was told to disconnect. -/
  ended : (s.after xs).reader = .finished → (s.after xs).status = .closed ∧
    (s.after xs).channel.isConnected = false ∧ 0 < (s.after xs).channel.disconnects

/-- A session in which nothing has happened yet. -/
structure New (s : Session) : Prop where
  orderly : s.Orderly
  covered : s.Covered
  alone : s.Alone
  shut : s.Shut
  shutsLast : s.ShutsLast
  opened : s.status = .opened
  waiting : s.reader = .waiting
  input : s.input = []
  inputEnded : s.inputEnded = false
  ends : ∀ xs, (s.after xs).reader = .finished → (s.after xs).status = .closed

theorem fresh_new (id : UInt32) (peer : Option SocketAddress) (serverSystemId : String)
    (settings : SessionSettings) (processor : Nat) (now : Instant) :
    (fresh id peer serverSystemId settings processor now).New where
  orderly := fresh_orderly id peer serverSystemId settings processor now
  covered := fresh_covered id peer serverSystemId settings processor now
  alone := ⟨rfl, rfl⟩
  shut := by simp [Shut, fresh]
  shutsLast := by simp [ShutsLast, fresh]
  opened := rfl
  waiting := rfl
  input := rfl
  inputEnded := rfl
  ends xs := closed_of_finished (runs_after _ xs)

theorem New.after_covered (h : s.New) (xs : List Step) : (s.after xs).Covered :=
  before_length s xs ▸ before_covered h.orderly h.covered xs.length

theorem New.framesOnce (h : s.New) (xs : List Step) : s.FramesOnce xs where
  handles i x f hx hf := by
    rw [before_succ hx]
    exact step_of_handled hf
  first i := by
    have hprefix := handled_prefix h.orderly h.input h.inputEnded h.ends (xs.take i) (xs.drop i)
    rwa [List.take_append_drop] at hprefix
  going i going := handled_frames h.orderly h.input h.inputEnded h.ends going
  closed i closed := handled_before_closed h.orderly closed
  last closed := by
    obtain ⟨i, x, hx, going, closed⟩ := exists_end (by rw [h.opened]; nofun) closed
    have hclosed : (s.before xs (i + 1)).status = .closed := by rwa [before_succ hx]
    have htake : xs.take (i + 1) = xs.take i ++ [x] := by rw [List.take_add_one, hx, Option.toList_some]
    have hstays := handled_before_closed h.orderly hclosed
    rw [htake, handled_concat] at hstays
    have hunread (hx : (s.before xs i).handled? x = none) : s.handled xs = s.handled (xs.take i) := by
      rw [hstays, show (s.after (xs.take i)).handled? x = none from hx]
      exact List.append_nil _
    by_cases hread : x = .move (.reader .read)
    · subst hread
      have can : (s.before xs i).can (.reader .read) = true := by
        by_contra can
        rw [Session.step, if_neg can] at closed
        exact going closed
      have hnone := nextInput_of_end can going closed
      have hall := handled_all h.orderly h.input h.inputEnded h.ends going can hnone (xs.drop i)
      rw [List.take_append_drop] at hall
      left
      rw [← hall]
      exact hunread (handled?_of_no_frame hnone _)
    · exact .inr ⟨i, x, hx, hread, going, hclosed, hunread (handled?_of_unread fun _ => hread)⟩
  ended ended := by
    have closed := h.ends xs ended
    have hcovered := h.after_covered xs
    have hshut : (s.after xs).Shut := before_length s xs ▸ before_shut h.orderly h.shut xs.length
    exact ⟨closed, (hshut closed).2, (hcovered.closed closed).2.2⟩

/-! ## A client and a processor -/

/-- In every step of the run only the client, the clock and the processor `π` have a part. -/
def Attended (π : List Request → Plan) (s : Session) : List Step → Prop
  | [] => True
  | x :: xs => s.Attends π x ∧ Attended π (s.step x) xs

def Attended.decide (s : Session) : (xs : List Step) → Decidable (s.Attended π xs)
  | [] => .isTrue trivial
  | x :: xs =>
    have := Attended.decide (s.step x) xs
    inferInstanceAs (Decidable (s.Attends π x ∧ Attended π (s.step x) xs))

instance (s : Session) (xs : List Step) : Decidable (s.Attended π xs) := Attended.decide s xs

theorem Attended.of_concat (h : s.Attended π (xs ++ [x])) : s.Attended π xs ∧ (s.after xs).Attends π x := by
  induction xs generalizing s with
  | nil => exact ⟨trivial, h.1⟩
  | cons y xs ih =>
    obtain ⟨hearlier, hlast⟩ := ih h.2
    exact ⟨⟨h.1, hearlier⟩, hlast⟩

/-- A frame is taken only while the conversation goes on. -/
theorem Follows.going (h : s.Follows π xs) {f : Frame} (taken : (s.after xs).handled? x = some f) :
    (s.converse π (s.handled xs)).status ≠ .closed := by
  obtain ⟨-, can, going, -⟩ := handled?_eq_some.mp taken
  cases h with
  | talks same =>
    rw [through, waiting_of_can can (by decide)] at same
    exact status_of_unseen same ▸ going
  | ends settled => exact absurd settled.closed going

/-- A run follows the conversation. -/
theorem New.follows (h : s.New) (attended : s.Attended π xs) :
    (s.after xs).Alone ∧ s.Follows π xs ∧ s.heard π (s.handled xs) = s.handled xs := by
  induction xs using List.reverseRecOn with
  | nil =>
    refine ⟨h.alone, .talks ?_, rfl⟩
    rw [show through π (s.after []) = s by rw [after_nil, through, h.waiting]]
    rfl
  | append_singleton xs x ih =>
    obtain ⟨earlier, attends⟩ := attended.of_concat
    obtain ⟨alone, follows, heard_eq⟩ := ih earlier
    have hcovered := h.after_covered xs
    have hshuts : (s.after xs).ShutsLast := by
      rw [← before_length]
      exact before_induct (P := ShutsLast) h.orderly (fun _ ht hshut x => (step_advances ht x).shutsLast hshut)
        (Nat.zero_le _) h.shutsLast
    refine ⟨by rw [after_concat]; exact alone.step attends,
      follows.step h.orderly h.input h.inputEnded h.ends alone hcovered hshuts attends, ?_⟩
    rw [handled_concat, heard_append, heard_eq]
    cases hx : (s.after xs).handled? x with
    | none => rfl
    | some f =>
      have hgoing := follows.going hx
      simp only [Option.toList_some, heard, hgoing, if_false]

/-- When the reader has ended, all has been said that the octets of the client come to. -/
theorem New.said (h : s.New) (attended : s.Attended π xs) (ended : (s.after xs).reader = .finished) :
    s.handled xs = s.heard π (Frame.drain (arrivals xs)).frames ∧
      (s.after xs).outward = (s.converse π (Frame.drain (arrivals xs)).frames).outward := by
  obtain ⟨-, follows, heard_eq⟩ := h.follows attended
  have hprefix := handled_prefix h.orderly h.input h.inputEnded h.ends xs []
  rw [List.append_nil] at hprefix
  obtain ⟨more, hmore⟩ := hprefix
  rw [← hmore, converse_append, heard_append, heard_eq]
  have houtward : (s.after xs).outward = (s.converse π (s.handled xs)).outward := by
    cases follows with
    | talks same => exact outward_of_unseen (by rwa [through, ended] at same)
    | ends settled outward last => exact outward
  -- Either the conversation is over for good, or there are no more frames.
  have hlast : (s.converse π (s.handled xs)).status = .closed ∨ more = [] := by
    cases follows with
    | talks same =>
      rw [through, ended] at same
      exact .inl ((status_of_unseen same).symm.trans (h.ends xs ended))
    | ends settled outward last =>
      refine last.imp_right fun all => ?_
      have hall := all []
      rw [List.append_nil, ← hmore] at hall
      simpa using hall
  rcases hlast with closed | rfl
  · rw [heard_of_closed closed, converse_of_closed closed, List.append_nil]
    exact ⟨rfl, houtward⟩
  · exact ⟨(List.append_nil _).symm, houtward⟩

/-! ## New sessions -/

/-- What a session makes of what a client sends. -/
structure ReadsAll (s : Session) : Prop where
  /-- In every run frames are handled once, and in their order. -/
  once : ∀ xs, s.FramesOnce xs
  /-- In a run without end the reader comes to its end, and so does the session. -/
  finishes : ∀ σ, s.Fair σ → ∃ n, (s.along σ n).reader = .finished ∧ (s.along σ n).status = .closed ∧
    (s.along σ n).channel.isConnected = false ∧ 0 < (s.along σ n).channel.disconnects
  /-- With a processor that goes by the requests, the frames up to the one after which the session is closed
  are handled, and what is written and who is called follows from them. -/
  said : ∀ π xs, s.Attended π xs → (s.after xs).reader = .finished →
    s.handled xs = s.heard π (Frame.drain (arrivals xs)).frames ∧
      (s.after xs).outward = (s.converse π (Frame.drain (arrivals xs)).frames).outward
  /-- So it makes no difference how the octets are cut, and when they arrive. -/
  cut : ∀ π xs ys, s.Attended π xs → s.Attended π ys → (s.after xs).reader = .finished →
    (s.after ys).reader = .finished → arrivals xs = arrivals ys →
    s.handled xs = s.handled ys ∧ (s.after xs).outward = (s.after ys).outward

/-- **Reading**: however the octets of a client arrive, every frame is handled once and in its order, and the
reader comes to its end. -/
theorem every_frame_once (id : UInt32) (peer : Option SocketAddress) (serverSystemId : String)
    (settings : SessionSettings) (processor : Nat) (now : Instant) :
    (fresh id peer serverSystemId settings processor now).ReadsAll := by
  have h := fresh_new id peer serverSystemId settings processor now
  generalize fresh id peer serverSystemId settings processor now = s at h
  refine ⟨h.framesOnce, fun σ fair => ?_, fun π xs attended => h.said attended, ?_⟩
  · obtain ⟨n, ended⟩ := exists_finished h.orderly fair
    exact ⟨n, ended, (h.framesOnce _).ended ended⟩
  intro π xs ys attended attended' ended ended' same
  obtain ⟨hheard, hsaid⟩ := h.said attended ended
  obtain ⟨hheard', hsaid'⟩ := h.said attended' ended'
  exact ⟨by rw [hheard, hheard', same], by rw [hsaid, hsaid', same]⟩

/-! ## Two runs and a third -/

/-- A client binds, unbinds, and asks once more. -/
def hasty : List UInt8 :=
  [0, 0, 0, 24, 0, 0, 0, 9, 0, 0, 0, 0, 0, 0, 0, 1, 97, 0, 0, 0, 0x34, 0, 0, 0,
    0, 0, 0, 16, 0, 0, 0, 6, 0, 0, 0, 0, 0, 0, 0, 2,
    0, 0, 0, 16, 0, 0, 0, 0x15, 0, 0, 0, 0, 0, 0, 0, 3]

/-- The processor accepts everything. -/
def acceptAll (_ : List Request) : Plan := ⟨[.send .ok], .handled⟩

/-- The reader takes a request, and the processor answers it. -/
def served : List Step :=
  [.move (.reader .read), .feel (.begin ⟨[.send .ok], .handled⟩), .move (.reader .proceed),
    .move (.reader .proceed), .move (.reader .proceed)]

/-- Everything is there at once, and the last request is dropped. -/
def hastyAtOnce : List Step :=
  [.feel (.arrive hasty), .feel .endInput] ++ served ++ served ++ [.move (.reader .read), .move (.reader .read)]

/-- The unbind comes in two pieces, and the last request too late. -/
def hastyInPieces : List Step :=
  [.feel (.arrive (hasty.take 30))] ++ served ++ [.feel (.elapse ⟨5⟩), .move (.reader .sweep),
    .feel (.arrive ((hasty.drop 30).take 12))] ++ served ++ [.move (.reader .stop),
    .feel (.arrive (hasty.drop 42))]

/-- A client hangs up at once. -/
def hangUp : Nat → Step
  | 0 => .feel .endInput
  | _ => .move (.reader .read)

theorem hangUp_fair : (fresh 1 none "smsc" ⟨10, ⟨1000⟩, ⟨1000⟩, ⟨1000⟩⟩ 0 0).Fair hangUp := by
  have hlater (n : Nat) (hn : 2 ≤ n) :
      (fresh 1 none "smsc" ⟨10, ⟨1000⟩, ⟨1000⟩, ⟨1000⟩⟩ 0 0).along hangUp n =
        (fresh 1 none "smsc" ⟨10, ⟨1000⟩, ⟨1000⟩, ⟨1000⟩⟩ 0 0).along hangUp 2 := by
    induction n, hn using Nat.le_induction with
    | base => rfl
    | succ n hn ih =>
      obtain ⟨m, rfl⟩ := Nat.exists_eq_add_of_le' hn
      rw [along_succ, ih]
      rfl
  have hended : ((fresh 1 none "smsc" ⟨10, ⟨1000⟩, ⟨1000⟩, ⟨1000⟩⟩ 0 0).along hangUp 2).reader = .finished :=
    rfl
  have hidle (n : Nat) :
      ((fresh 1 none "smsc" ⟨10, ⟨1000⟩, ⟨1000⟩, ⟨1000⟩⟩ 0 0).along hangUp n).reader = .waiting ∨
        ((fresh 1 none "smsc" ⟨10, ⟨1000⟩, ⟨1000⟩, ⟨1000⟩⟩ 0 0).along hangUp n).reader = .finished := by
    match n with
    | 0 | 1 => exact .inl rfl
    | n + 2 => exact .inr (by rw [hlater (n + 2) (by omega), hended])
  refine ⟨⟨0, rfl⟩, fun n k p request stage => ?_, fun n wake k plan stage => ?_, ⟨2, fun m hm => ?_⟩,
    fun n m can => ?_⟩
  · rcases hidle n with h | h <;> simp [stage] at h
  · rcases hidle n with h | h <;> simp [stage] at h
  · rw [hlater m hm]
    rfl
  · have hcan := can (n + 2) (by omega)
    rw [hlater (n + 2) (by omega)] at hcan
    cases m <;> simp [Session.can, readerCan, hended] at hcan

/-- However the octets of the hasty client come, its bind and its unbind are handled and answered, and the
rest is not. -/
theorem hasty_readsAll :
    let s := fresh 1 none "smsc" ⟨10, ⟨1000⟩, ⟨1000⟩, ⟨1000⟩⟩ 0 0
    (s.Attended acceptAll hastyAtOnce ∧ (s.after hastyAtOnce).reader = .finished) ∧
      (s.Attended acceptAll hastyInPieces ∧ (s.after hastyInPieces).reader = .finished) ∧
      (s.handled hastyAtOnce = s.handled hastyInPieces ∧
        (s.after hastyAtOnce).outward = (s.after hastyInPieces).outward) ∧
      (s.handled hastyAtOnce).map (·.sequence) = [1, 2] ∧
      ∃ n, (s.along hangUp n).reader = .finished := by
  have h := every_frame_once 1 none "smsc" ⟨10, ⟨1000⟩, ⟨1000⟩, ⟨1000⟩⟩ 0 0
  obtain ⟨n, ended, -⟩ := h.finishes hangUp hangUp_fair
  refine ⟨⟨?_, ?_⟩, ⟨?_, ?_⟩, h.cut acceptAll hastyAtOnce hastyInPieces ?_ ?_ ?_ ?_ ?_, ?_, n, ended⟩
  all_goals decide +kernel

end Smsc.Session
