import Smsc.Proofs.Session.Calls
import Smsc.Proofs.Session.Reader

/-!
# Smsc.Proofs.Session.Steps — what a step can do

* `Feels s t`, `feel_feels`: what a stimulus changes at once;
* `Happens s x t`, `step_happens`: a step of a session, one constructor for each kind. Whatever is kept by
  every step is proved over it.
-/

namespace Smsc.Session

variable {s t : Session}

/-- What a stimulus changes at once. -/
inductive Feels (s : Session) : Session → Prop where
  /-- What comes in, the time, the processor, or how the channel behaves. -/
  | aside (t : Session) (same : t = { s with
        input := t.input, inputEnded := t.inputEnded, now := t.now
        processor := t.processor, channel := t.channel })
      (connected : t.channel.isConnected = s.channel.isConnected) : Feels s t
  | begins (purpose : CallPurpose) (request : Request) (timeout : Duration) :
      Feels s (s.addCall purpose request timeout)
  | drops (c : Call) (mem : c ∈ s.calls) : Feels s (s.dropCall c)
  | answers (k : Nat) (reply : Reply) : Feels s (s.addAnswer k reply)
  | forgets (a : Answer) (mem : a ∈ s.answers) : Feels s (s.dropAnswer a)
  | ends : Feels s s.disconnect.1
  | works (k p : Nat) (request : Request) (plan : Plan) (stage : s.reader = .calling k p request) :
      Feels s { s with reader := .working k plan }

theorem feel_feels (s : Session) (x : Stimulus) : s.Feels (s.feel x) := by
  cases x with
  | arrive | endInput =>
    rw [feel]
    split <;> exact .aside _ rfl rfl
  | drop id =>
    rw [feel]
    split
    · rename_i c hc
      exact .drops c (List.mem_of_find?_eq_some hc)
    · exact .aside s rfl rfl
  | forget id =>
    rw [feel]
    split
    · rename_i a ha
      exact .forgets a (List.mem_of_find?_eq_some ha)
    · exact .aside s rfl rfl
  | send request timeout => exact .begins .request request timeout
  | close => exact .begins .close .unbind s.settings.unbindTimeout
  | answer k reply => exact .answers k reply
  | disconnect => exact .ends
  | begin plan =>
    rw [feel, beginWork]
    split
    · rename_i k p request stage
      exact .works k p request plan stage
    · exact .aside s rfl rfl
  | _ => exact .aside _ rfl rfl

/-- A step of a session. -/
inductive Happens (s : Session) : Step → Session → Prop where
  | feels (x : Stimulus) (t : Session) (feels : s.Feels t) : Happens s (.feel x) t
  | reader (m : ReaderMove) (can : s.can (.reader m) = true) (t : Session) (turn : s.ReaderTurn m t) :
      Happens s (.move (.reader m)) t
  | call (id : Nat) (c : Call) (mem : c ∈ s.calls) (t : Session) (step : s.CallStep c t) :
      Happens s (.move (.call id)) t
  | answer (id : Nat) (a : Answer) (mem : a ∈ s.answers) (t : Session) (turn : s.AnswerTurn a t) :
      Happens s (.move (.answer id)) t
  /-- A move that is not possible. -/
  | nothing (m : Move) : Happens s (.move m) s

theorem step_happens (hw : s.window.Sound) (hids : (s.calls.map (·.id)).Nodup)
    (hfits : ∀ c ∈ s.calls, c.Fits) (x : Step) : s.Happens x (s.step x) := by
  cases x with
  | feel x => exact .feels x _ (feel_feels s x)
  | move m =>
    rw [step]
    split
    · rename_i can
      cases m with
      | reader m => exact .reader m can _ (moveReader_turn can)
      | call id =>
        rw [move]
        split
        · rename_i c hc
          have hmem : c ∈ s.calls := List.mem_of_find?_eq_some hc
          exact .call id c hmem _ (stepCall_step hw hids hmem (hfits c hmem))
        · exact .nothing _
      | answer id =>
        rw [move]
        split
        · rename_i a ha
          exact .answer id a (List.mem_of_find?_eq_some ha) _ (stepAnswer_turn s a)
        · exact .nothing _
    · exact .nothing m

end Smsc.Session
