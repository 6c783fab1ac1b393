import Smsc.Proofs.Session.Balance
import Smsc.Proofs.Window.Refusals

/-!
# Smsc.Proofs.Session.InTurn — capacity is handed out in turn

The operations of a window keep the order of those that wait for capacity. A session goes through its window
in these operations only, so that it keeps the order as well.

* `Acts.inTurn`, `ReaderTurn.inTurn`, `AnswerTurn.inTurn`, `feel_inTurn`: one for each thing that happens;
* `step_inTurn`, `before_inTurn`: every state of a run.
-/

namespace Smsc.Session

open Window

variable {s t : Session} {c : Call} {xs : List Step}

theorem Halts.inTurn (h : s.Halts t) (hin : s.window.permits.InTurn) : t.window.permits.InTurn := by
  cases h with
  | stays status window => rwa [window]
  | ends going closed window =>
    rw [window]
    exact (close_serves hin).inTurn

theorem ReaderTurn.inTurn {m : ReaderMove} (h : s.ReaderTurn m t) (hin : s.window.permits.InTurn) :
    t.window.permits.InTurn := by
  cases h with
  | stops stage => exact (disconnect_halts s).inTurn hin
  | reads stage _ reads =>
    cases reads with
    | frame f rest input handles =>
      cases handles with
      | completes m going kind => exact (complete_serves hin s.now f.sequence f).inTurn
      | drops | rejects | dispatches => exact hin
    | fault rest m input =>
      exact (disconnect_halts (measure { s with input := rest } m)).inTurn hin
    | ends input => exact (disconnect_halts s).inTurn hin
  | sweeps stage =>
    have hexpires : (s.window.expire s.now).1.permits.InTurn := (releaseAll_serves hin _).inTurn
    unfold sweep
    dsimp only
    split <;> exact hexpires
  | refuses f stage u sends =>
    obtain ⟨new, same, -⟩ := transmit_eq s f
    subst sends
    rw [same]
    exact hin
  | answers f k plan stage u closes =>
    subst closes
    exact (closeReply_halts s k f).inTurn hin
  | works k plan stage _ works =>
    rw [works.kept.2]
    exact hin
  | wakes => exact hin

theorem AnswerTurn.inTurn {a : Answer} (h : s.AnswerTurn a t) (hin : s.window.permits.InTurn) :
    t.window.permits.InTurn := by
  cases h with
  | opens stage u f settles | refused stage u settles =>
    have hkept := settles.kept.2
    exact (congrArg (·.permits.InTurn) hkept).mpr hin
  | closes f stage u closes =>
    subst closes
    exact (closeReply_halts s a.responder f).inTurn hin
  | rests => exact hin

theorem afterOffer_inTurn (hin : s.window.permits.InTurn) (c : Call) (frame : Frame) (o : Offered Frame) :
    (s.afterOffer c frame o).window.permits.InTurn := by
  cases o with
  | admitted entry => exact hin
  | refused e => exact (conclude_halts (s.measure (.windowOffer "rejected")) c _).inTurn hin
  | waiting p => exact hin

theorem Acts.inTurn (h : s.Acts c t) (hin : s.window.permits.InTurn) : t.window.permits.InTurn := by
  cases h with
  | declines starting u draws e =>
    refine (conclude_halts u c _).inTurn ?_
    rw [draws.same]
    exact hin
  | offers starting u draws frame w o offered =>
    have hserves := offer_serves hin s.now frame.sequence frame s.settings.offerTimeout s.settings.expireTimeout
    rw [offered] at hserves
    exact afterOffer_inTurn hserves.inTurn c frame o
  | resumes frame p queued w o resumed =>
    have hresumes := resume_inTurn hin s.now p
    rw [resumed] at hresumes
    exact afterOffer_inTurn hresumes c frame o
  | writes frame entry writing u sent =>
    rw [sent.same]
    exact hin
  | fails frame entry writing u e failed =>
    exact (conclude_halts _ c _).inTurn (withdraw_serves hin frame.sequence entry).inTurn
  | waits | rests => exact hin
  | gets frame since x awaiting response found => exact (respondCall_halts s c frame since response).inTurn hin
  | timesOut frame since x awaiting key late held =>
    exact (conclude_halts (measure { s with window := (s.window.withdraw x.key x.id).1 } _) c _).inTurn
      (withdraw_serves hin x.key x.id).inTurn
  | lapses => exact (conclude_halts s c _).inTurn hin

theorem dropCall_inTurn (hin : s.window.permits.InTurn) (c : Call) : (s.dropCall c).window.permits.InTurn := by
  unfold dropCall
  dsimp only
  split
  · exact hin
  · exact hin.withdraw _
  · exact (withdraw_serves hin _ _).inTurn
  · exact (withdraw_serves hin _ _).inTurn
  · exact hin

theorem feel_inTurn (hin : s.window.permits.InTurn) (y : Stimulus) : (s.feel y).window.permits.InTurn := by
  by_cases hdrop : ∃ id, y = .drop id
  · obtain ⟨id, rfl⟩ := hdrop
    rw [feel]
    split
    · exact dropCall_inTurn hin _
    · exact hin
  · exact (feel_calm s fun id h => hdrop ⟨id, h⟩).2.inTurn hin

/-- Whatever happens, those that wait for capacity are served in turn. -/
theorem step_inTurn (hin : s.window.permits.InTurn) (x : Step) : (s.step x).window.permits.InTurn := by
  cases x with
  | feel y => exact feel_inTurn hin y
  | move m =>
    have hmoves := step_moves s m
    generalize s.step (.move m) = t at hmoves ⊢
    cases hmoves with
    | reader m can => exact (moveReader_turn can).inTurn hin
    | call id c => exact (stepCall_acts s c).inTurn hin
    | answer id a => exact (stepAnswer_turn s a).inTurn hin
    | nothing => exact hin

theorem before_inTurn (hs : s.Orderly) (hin : s.window.permits.InTurn) (k : Nat) :
    (s.before xs k).window.permits.InTurn :=
  before_induct (P := fun t : Session => t.window.permits.InTurn) hs (fun _ _ h x => step_inTurn h x)
    (Nat.zero_le k) hin

end Smsc.Session
