import Smsc.Proofs.Session.Places
import Smsc.Proofs.Session.Totals

/-!
# Smsc.Proofs.Session.Balance — the counters of a session add up

What comes in at an admission goes out in one of a few ways, seen from the call that was admitted and seen
from its entry in the window. Each way is counted by an instrument, or by what the steps do.

* `Parting`, `Session.parting?`: how a call that was admitted ends its wait for a response;
* `Removal`, `Session.removal?`: how an entry leaves the window;
* `Turnover s p gone t`: what a step from `s` to `t` does to both, and to the instruments;
  `step_turnover`, `step_expired`;
* `AddsUp s xs`, `adds_up`: every run.
-/

namespace Smsc

/-- How a call that was admitted ends its wait for a response. -/
inductive Parting where
  | answered
  | timedOut
  /-- Its entry was taken away without a response. -/
  | lapsed
  /-- Its frame could not be written. -/
  | unwritten
  | dropped
  deriving DecidableEq, Repr

/-- How a call that sends a request ends with such a parting. -/
inductive Parting.EndsAs : Parting → CallResult → Prop where
  | answered (r : Received) : EndsAs .answered (.received r)
  | timedOut (sequence : UInt32) (after : Duration) : EndsAs .timedOut (.failed (.timeout sequence after))
  | lapsed (key : UInt32) : EndsAs .lapsed (.failed (.window (.expired key)))
  | unwritten (e : ChannelError) : EndsAs .unwritten (.failed (.channel e))

/-- How an entry leaves the window. -/
inductive Removal where
  | completed
  | expired
  | timedOut
  /-- Its call gives it up, or is given up. -/
  | cancelled
  /-- The session ends. -/
  | released
  deriving DecidableEq, Repr

/-- The call waits for the response to a request in the window. -/
def Call.isWaiting (c : Call) : Bool := c.stage.entry?.isSome

/-- The entry is the one of the call. -/
def Call.holds (c : Call) (e : Entry Frame) : Bool := c.stage.entry?.map (·.2) = some e.id

theorem Call.holds_of_entry {c : Call} {frame : Frame} {i : Nat} (h : c.stage.entry? = some (frame, i))
    (e : Entry Frame) : c.holds e = decide (e.id = i) := by
  rw [holds, h, Option.map_some, decide_eq_decide, Option.some.injEq]
  exact eq_comm

namespace Session

open Window

variable {s t u : Session} {x : Step} {c : Call} {p : Option Parting} {gone : Entry Frame → Bool}

/-- The attribute of offers that were admitted. -/
abbrev accepted : List (String × String) := [("result", "accepted")]

/-- How many calls wait for the response to a request in the window. -/
def waiting (s : Session) : Nat := s.calls.countP (·.isWaiting)

/-- How a call parts with its next step, if it does. -/
def partingOf? (s : Session) (c : Call) : Option Parting :=
  match c.stage with
  | .writing frame _ =>
    match (s.transmit frame).2 with
    | .ok _ => none
    | .error _ => some .unwritten
  | .awaiting _ _ x =>
    match (s.window.collect s.now x).2 with
    | none => none
    | some (.ok _) => some .answered
    | some (.error (.timeout _)) => some .timedOut
    | some (.error _) => some .lapsed
  | _ => none

/-- The call that parts in a step, and how. -/
def parting? (s : Session) : Step → Option (Call × Parting)
  | .move (.call id) =>
    if s.can (.call id) then (s.findCall? id).bind fun c => (s.partingOf? c).map (c, ·) else none
  | .feel (.drop id) => (s.findCall? id).bind fun c => if c.isWaiting then some (c, .dropped) else none
  | _ => none

/-- From `s` to `t` the session ends. -/
def endsBy (s t : Session) : Bool := s.status ≠ .closed && t.status = .closed

/-- The step takes the response to an entry. -/
def answersBy (s : Session) (x : Step) (e : Entry Frame) : Bool :=
  (s.taken? x).any fun f => s.status.reaction f.kind = .complete && e.key = f.sequence

/-- The step is a sweep, and the time of an entry is up. -/
def expiresBy (s : Session) (x : Step) (e : Entry Frame) : Bool :=
  x = .move (.reader .sweep) && s.can (.reader .sweep) && e.expireAt ≤ s.now

/-- How a step takes an entry out of the window, if it does. A call that is answered, or has lapsed, has no
entry any more. -/
def removal? (s : Session) (x : Step) (e : Entry Frame) : Option Removal :=
  match (s.parting? x).filter (·.1.holds e) with
  | some (_, .timedOut) => some .timedOut
  | some _ => some .cancelled
  | none =>
    if s.endsBy (s.step x) then some .released
    else if s.answersBy x e then some .completed
    else if s.expiresBy x e then some .expired
    else none

theorem removal?_isSome (s : Session) (x : Step) (e : Entry Frame) : (s.removal? x e).isSome =
    ((s.parting? x).any (·.1.holds e) || s.endsBy (s.step x) || s.answersBy x e || s.expiresBy x e) := by
  unfold removal?
  cases s.parting? x with
  | none => cases s.endsBy (s.step x) <;> cases s.answersBy x e <;> cases s.expiresBy x e <;> rfl
  | some cp =>
    obtain ⟨c, p⟩ := cp
    cases hholds : c.holds e with
    | true => cases p <;> simp [Option.filter, hholds]
    | false =>
      simp only [Option.filter, hholds, Option.any]
      cases s.endsBy (s.step x) <;> cases s.answersBy x e <;> cases s.expiresBy x e <;> rfl

/-! ## Calls and entries -/

theorem setCall_perm (hs : s.Orderly) (hc : c ∈ s.calls) (stage : CallStage) :
    (s.setCall c.id stage).calls.Perm ({ c with stage } :: s.calls.erase c) := by
  have hrest : ∀ b ∈ s.calls.erase c, b.id ≠ c.id := by
    intro b hb hid
    obtain ⟨hne, hb⟩ := (hs.call_ids.of_map _).mem_erase_iff.mp hb
    exact hne (List.inj_on_of_nodup_map hs.call_ids hb hc hid)
  have hmap : ((s.calls.erase c).map fun b => if b.id = c.id then { b with stage } else b) = s.calls.erase c := by
    rw [List.map_congr_left fun b hb => if_neg (hrest b hb), List.map_id']
  have hperm := (List.perm_cons_erase hc).map fun b => if b.id = c.id then { b with stage } else b
  rwa [List.map_cons, hmap, if_pos rfl] at hperm

theorem waiting_of_mem (hc : c ∈ s.calls) :
    s.waiting = (s.calls.erase c).countP (·.isWaiting) + c.isWaiting.toNat := by
  rw [waiting, (List.perm_cons_erase hc).countP_eq, List.countP_cons]
  cases c.isWaiting <;> rfl

theorem waiting_setCall (hs : s.Orderly) (hc : c ∈ s.calls) (stage : CallStage)
    (calls : t.calls = (s.setCall c.id stage).calls) :
    t.waiting + c.isWaiting.toNat = s.waiting + stage.entry?.isSome.toNat := by
  have hold := waiting_of_mem hc
  have hnew : t.waiting = (s.calls.erase c).countP (·.isWaiting) + stage.entry?.isSome.toNat := by
    rw [waiting, calls, (setCall_perm hs hc stage).countP_eq, List.countP_cons]
    cases hstage : stage.entry? <;> simp [Call.isWaiting, hstage]
  omega

theorem waiting_filter (hs : s.Orderly) (hc : c ∈ s.calls) (calls : t.calls = s.calls.filter (·.id ≠ c.id)) :
    t.waiting + c.isWaiting.toNat = s.waiting := by
  have hsame : s.calls.filter (·.id ≠ c.id) = s.calls.erase c := by
    rw [(hs.call_ids.of_map _).erase_eq_filter]
    refine List.filter_congr fun b hb => ?_
    have hiff : b.id = c.id ↔ b = c :=
      ⟨fun hid => List.inj_on_of_nodup_map hs.call_ids hb hc hid, fun h => by rw [h]⟩
    by_cases h : b = c <;> simp [hiff, h]
  rw [waiting, calls, hsame, waiting_of_mem hc]

/-- A call that gives up its entry takes that one only. -/
theorem withdraw_own (hs : s.Orderly) (hc : c ∈ s.calls) {frame : Frame} {i : Nat}
    (entry : c.stage.entry? = some (frame, i)) {key : UInt32} (key_eq : key = frame.sequence) :
    (s.window.withdraw key i).1.entries = s.window.entries.filter (fun e => !c.holds e) := by
  rw [(withdraw_turns key hs.sound i).entries, Option.toList_none, List.append_nil]
  refine List.filter_congr fun e he => ?_
  rw [Call.holds_of_entry entry]
  by_cases hid : e.id = i
  · simp [hid, key_eq, (hs.entry_key c hc frame i entry e he hid).1]
  · simp [hid]

/-- A call whose entry is gone holds none. -/
theorem entries_of_gone {frame : Frame} {i : Nat} (entry : c.stage.entry? = some (frame, i))
    (absent : ∀ e ∈ s.window.entries, e.id ≠ i) :
    s.window.entries = s.window.entries.filter (fun e => !c.holds e) := by
  refine (List.filter_eq_self.mpr fun e he => ?_).symm
  simp [Call.holds_of_entry entry, absent e he]

/-- The entries of a session that may end. -/
theorem Halts.entries (gone : Entry Frame → Bool) (h : u.Halts t) (hw : u.window.Sound)
    (status : u.status = s.status)
    (entries : u.window.entries = s.window.entries.filter (fun e => !gone e)) :
    t.window.entries = s.window.entries.filter (fun e => !(gone e || s.endsBy t)) := by
  cases h with
  | stays hstatus hwindow =>
    have hends : s.endsBy t = false := by
      rw [endsBy, hstatus, status]
      cases s.status <;> rfl
    rw [hwindow, entries, hends]
    simp only [Bool.or_false]
  | ends going closed hwindow =>
    have hends : s.endsBy t = true := by
      rw [status] at going
      simp [endsBy, going, closed]
    rw [hwindow, close_entries hw, hends]
    simp

/-! ## One step -/

/-- The instruments that count the requests of the server. -/
def requestInstruments : List Instrument := [.windowOffersTotal, .requestDuration, .windowTimeoutsTotal]

/-- What a step from `s` to `t` does to the requests, and to the instruments that count them: a call may
part, entries go, and at most one comes. -/
structure Turnover (s : Session) (p : Option Parting) (gone : Entry Frame → Bool) (t : Session) : Prop where
  fresh : ∃ fresh : Option (Entry Frame),
    t.window.entries = s.window.entries.filter (fun e => !gone e) ++ fresh.toList ∧
    t.total .windowOffersTotal accepted = s.total .windowOffersTotal accepted + fresh.toList.length ∧
    t.waiting + p.toList.length = s.waiting + fresh.toList.length
  answered : t.total .requestDuration [] = s.total .requestDuration [] + p.toList.count .answered
  timedOut : t.total .windowTimeoutsTotal [] = s.total .windowTimeoutsTotal [] + p.toList.count .timedOut

namespace Turnover

theorem congr (h : s.Turnover p gone t) {gone' : Entry Frame → Bool} (same : ∀ e, gone' e = gone e) :
    s.Turnover p gone' t := by
  rwa [funext same]

/-- Nothing that is counted happens to the calls. -/
theorem aside (still : ∀ i ∈ requestInstruments, ∀ attributes, t.total i attributes = s.total i attributes)
    (waiting : t.waiting = s.waiting)
    (entries : t.window.entries = s.window.entries.filter (fun e => !gone e)) : s.Turnover none gone t where
  fresh := ⟨none, by simpa using entries, still _ (by simp [requestInstruments]) _, by simp [waiting]⟩
  answered := still _ (by simp [requestInstruments]) _
  timedOut := still _ (by simp [requestInstruments]) _

end Turnover

/-- The end of a call, that may be one of the session too. -/
theorem turnover_of_end (gone : Entry Frame → Bool) (hs : s.Orderly) (hc : c ∈ s.calls)
    (parts : p.isSome = c.isWaiting)
    (calls : u.calls = s.calls) (status : u.status = s.status) (sound : u.window.Sound)
    (entries : u.window.entries = s.window.entries.filter (fun e => !gone e))
    (offers : u.total .windowOffersTotal accepted = s.total .windowOffersTotal accepted)
    (answered : u.total .requestDuration [] = s.total .requestDuration [] + p.toList.count .answered)
    (timedOut : u.total .windowTimeoutsTotal [] = s.total .windowTimeoutsTotal [] + p.toList.count .timedOut)
    (halts : u.Halts t) (tells : Tells [] u t)
    (ended : ∃ result, t.calls = (u.setCall c.id (.finished result)).calls) :
    s.Turnover p (fun e => gone e || s.endsBy t) t where
  fresh := by
    obtain ⟨result, hcalls⟩ := ended
    have hwaiting := waiting_setCall (t := t) hs hc (.finished result) (by rw [hcalls, setCall, calls]; rfl)
    have hlength : p.toList.length = c.isWaiting.toNat := by
      rw [← parts]
      cases p <;> rfl
    refine ⟨none, ?_, ?_, ?_⟩
    · simpa using halts.entries gone sound status entries
    · rw [tells.total_eq (by simp), offers]
      rfl
    · rw [hlength]
      exact hwaiting
  answered := by rw [tells.total_eq (by simp), answered]
  timedOut := by rw [tells.total_eq (by simp), timedOut]

theorem conclude_turnover (gone : Entry Frame → Bool) (hs : s.Orderly) (hc : c ∈ s.calls)
    (parts : p.isSome = c.isWaiting)
    (calls : u.calls = s.calls) (status : u.status = s.status) (sound : u.window.Sound)
    (entries : u.window.entries = s.window.entries.filter (fun e => !gone e))
    (offers : u.total .windowOffersTotal accepted = s.total .windowOffersTotal accepted)
    (answered : u.total .requestDuration [] = s.total .requestDuration [] + p.toList.count .answered)
    (timedOut : u.total .windowTimeoutsTotal [] = s.total .windowTimeoutsTotal [] + p.toList.count .timedOut)
    (r : Except SessionError Received) :
    s.Turnover p (fun e => gone e || s.endsBy (u.conclude c r)) (u.conclude c r) :=
  turnover_of_end gone hs hc parts calls status sound entries offers answered timedOut (conclude_halts u c r)
    (conclude_tells u c r) (conclude_calls u c r)

theorem afterOffer_turnover (hs : s.Orderly) (hc : c ∈ s.calls) (unplaced : c.stage.IsUnplaced)
    (calls : u.calls = s.calls) (status : u.status = s.status) (log : u.log = s.log) {key : UInt32}
    {request frame : Frame} {expireTimeout : Duration} {o : Offered Frame}
    (offering : s.window.Offering u.window s.now key request expireTimeout o) :
    s.Turnover none (fun _ => s.endsBy (u.afterOffer c frame o)) (u.afterOffer c frame o) := by
  have hstill (i : Instrument) (attributes : List (String × String)) :
      u.total i attributes = s.total i attributes := by rw [total, log, total]
  have hcalm : c.isWaiting = false := by simp [Call.isWaiting, unplaced.entry?]
  cases offering with
  | admitted e turns =>
    have hgoing : s.endsBy (u.afterOffer c frame (.admitted e.id)) = false := by
      rw [endsBy, show (u.afterOffer c frame (.admitted e.id)).status = s.status from status]
      cases s.status <;> rfl
    have hwaiting := waiting_setCall (t := u.afterOffer c frame (.admitted e.id)) hs hc (.writing frame e.id)
      (by rw [afterOffer]; simp [setCall, measure, note, calls])
    have hadmitted (i : Instrument) (attributes : List (String × String)) :
        (u.afterOffer c frame (.admitted e.id)).total i attributes =
          u.total i attributes + SessionEvent.adds i attributes (.measured (.windowOffer "accepted")) :=
      total_measure u _
    refine ⟨⟨some e, ?_, ?_, ?_⟩, ?_, ?_⟩
    · rw [hgoing]
      exact turns.entries
    · rw [hadmitted, hstill]
      rfl
    · rw [hcalm] at hwaiting
      exact hwaiting
    · rw [hadmitted, hstill]
      rfl
    · rw [hadmitted, hstill]
      rfl
  | refused err turns =>
    have hends := conclude_turnover (u := u.measure (.windowOffer "rejected")) (p := none) (fun _ => false) hs hc
      hcalm.symm calls status (turns.sound hs.sound) (turns.entries.trans (List.append_nil _))
      (by rw [total_measure, hstill]; rfl) (by rw [total_measure, hstill]; rfl) (by rw [total_measure, hstill]; rfl)
      (.error (.window err))
    exact hends.congr fun e => (Bool.false_or _).symm
  | waiting offer turns =>
    have hwaiting := waiting_setCall (t := u.afterOffer c frame (.waiting offer)) hs hc (.queued frame offer)
      (by rw [afterOffer]; simp [setCall, calls])
    have hgoing : s.endsBy (u.afterOffer c frame (.waiting offer)) = false := by
      rw [endsBy, show (u.afterOffer c frame (.waiting offer)).status = s.status from status]
      cases s.status <;> rfl
    refine ⟨⟨none, ?_, hstill _ _, ?_⟩, hstill _ _, hstill _ _⟩
    · rw [hgoing]
      exact turns.entries
    · rw [hcalm] at hwaiting
      exact hwaiting

/-- A step of a call. -/
theorem Acts.turnover (h : s.Acts c t) (hs : s.Orderly) (hc : c ∈ s.calls) :
    s.Turnover (s.partingOf? c) (fun e => (s.partingOf? c).isSome && c.holds e || s.endsBy t) t := by
  have hquiet (stage : ∀ frame entry, c.stage ≠ .writing frame entry)
      (stage' : ∀ frame since x, c.stage ≠ .awaiting frame since x) : s.partingOf? c = none := by
    unfold partingOf?
    split
    · rename_i frame entry hstage
      exact absurd hstage (stage frame entry)
    · rename_i frame since x hstage
      exact absurd hstage (stage' frame since x)
    · rfl
  have hrests : s.partingOf? c = none → s.Turnover (s.partingOf? c)
      (fun e => (s.partingOf? c).isSome && c.holds e || s.endsBy s) s := by
    intro hnone
    have hends : s.endsBy s = false := by
      rw [endsBy]
      cases s.status <;> rfl
    rw [hnone, hends]
    exact .aside (fun _ _ _ => rfl) rfl (by simp)
  cases h with
  | declines starting u draws e =>
    rw [hquiet (by simp [starting]) (by simp [starting])]
    refine conclude_turnover (fun _ => false) hs hc (by simp [Call.isWaiting, starting, CallStage.entry?])
      ?_ ?_ ?_ ?_ ?_ ?_ ?_ _ <;> rw [draws.same]
    · exact hs.sound
    · simp
    · rfl
    · rfl
    · rfl
  | offers starting u draws frame w o offered =>
    rw [hquiet (by simp [starting]) (by simp [starting])]
    have offering := offer_offering (w := s.window) s.now frame.sequence frame s.settings.expireTimeout
      s.settings.offerTimeout
    rw [offered] at offering
    exact afterOffer_turnover (u := { u with window := w }) hs hc (.inl starting) (by rw [draws.same])
      (by rw [draws.same]) (by rw [draws.same]) offering
  | resumes frame q queued w o resumed =>
    rw [hquiet (by simp [queued]) (by simp [queued])]
    have offering := resume_offering (w := s.window) s.now q
    rw [resumed] at offering
    exact afterOffer_turnover (u := { s with window := w }) hs hc (.inr ⟨frame, q, queued⟩) rfl rfl rfl offering
  | writes frame entry writing u sent =>
    have hentry : c.stage.entry? = some (frame, entry) := by rw [writing]; rfl
    have hnone : s.partingOf? c = none := by
      simp only [partingOf?, writing, sent.eq]
    generalize hstage : CallStage.awaiting frame u.now ⟨frame.sequence, entry, u.now + c.timeout.nanos⟩ = stage
    have hstill : stage.entry?.isSome = true := by rw [← hstage]; rfl
    have hwaiting := waiting_setCall (t := u.setCall c.id stage) hs hc stage (by rw [setCall, setCall, sent.same])
    have hends : s.endsBy (u.setCall c.id stage) = false := by
      rw [sent.same, endsBy]
      cases s.status <;> rfl
    rw [hnone, hends]
    refine .aside (fun i hi attributes => ?_) ?_ ?_
    · refine sent.tells.total_eq (fun hread => ?_)
      revert hi hread
      cases i <;> decide
    · rw [Call.isWaiting, hentry, hstill] at hwaiting
      exact Nat.add_right_cancel hwaiting
    · rw [sent.same]
      simp [setCall]
  | fails frame entry writing u e failed =>
    have hentry : c.stage.entry? = some (frame, entry) := by rw [writing]; rfl
    have hparting : s.partingOf? c = some .unwritten := by
      simp only [partingOf?, writing, failed.eq]
    rw [hparting]
    refine conclude_turnover (u := { u with window := (s.window.withdraw frame.sequence entry).1 })
      (fun e => c.holds e) hs hc (by simp [Call.isWaiting, hentry]) (by rw [failed.same])
      (by rw [failed.same]) ((withdraw_turns _ hs.sound _).sound hs.sound) (withdraw_own hs hc hentry rfl) ?_ ?_ ?_ _
    · exact failed.tells.total_eq (by simp)
    · exact failed.tells.total_eq (by simp)
    · exact failed.tells.total_eq (by simp)
  | waits frame since x awaiting none_yet =>
    exact hrests (by simp [partingOf?, awaiting, none_yet])
  | gets frame since x awaiting response found =>
    have hentry : c.stage.entry? = some (frame, x.id) := by rw [awaiting]; rfl
    have hparting : s.partingOf? c = some .answered := by
      simp only [partingOf?, awaiting, found]
    -- The response has taken the entry already.
    have habsent : ∀ e ∈ s.window.entries, e.id ≠ x.id := by
      have hcollecting := collect_collecting hs.sound s.now x
      rw [found] at hcollecting
      cases hcollecting with
      | response r settled same =>
        rintro e he hid
        simp [← hid, hs.sound.pending e he] at settled
    rw [hparting]
    refine turnover_of_end (u := s.measure (.requestDuration frame.command.name (.between since s.now)))
      (fun e => c.holds e) hs hc (by simp [Call.isWaiting, hentry]) rfl rfl hs.sound
      (entries_of_gone hentry habsent) ?_ ?_ ?_ ?_ ?_ ?_
    · rw [total_measure]
      rfl
    · rw [total_measure]
      rfl
    · rw [total_measure]
      rfl
    · exact (respondCall_halts s c frame since response).congr rfl rfl rfl rfl
    · unfold respondCall
      dsimp only
      split
      · exact (Tells.disconnect _).trans (conclude_tells _ c _)
      · exact conclude_tells _ c _
    · unfold respondCall
      dsimp only
      split
      · exact conclude_calls _ c _
      · exact conclude_calls _ c _
  | timesOut frame since x awaiting key late held =>
    have hentry : c.stage.entry? = some (frame, x.id) := by rw [awaiting]; rfl
    have hparting : s.partingOf? c = some .timedOut := by
      simp only [partingOf?, awaiting, late]
    rw [hparting]
    refine conclude_turnover (p := some .timedOut)
      (u := { s with window := (s.window.withdraw x.key x.id).1 }.measure (.windowTimeout frame.command.name))
      (fun e => c.holds e) hs hc (by simp [Call.isWaiting, hentry]) rfl rfl
      ((withdraw_turns _ hs.sound _).sound hs.sound)
      (withdraw_own hs hc hentry ((hs.fits c hc).waiter frame since x awaiting)) ?_ ?_ ?_ _
    · rw [total_measure]
      rfl
    · rw [total_measure]
      rfl
    · rw [total_measure]
      rfl
  | lapses frame since x awaiting key lapsed =>
    have hentry : c.stage.entry? = some (frame, x.id) := by rw [awaiting]; rfl
    have hparting : s.partingOf? c = some .lapsed := by
      simp only [partingOf?, awaiting, lapsed]
    -- Somebody else has taken the entry.
    have habsent : ∀ e ∈ s.window.entries, e.id ≠ x.id := by
      have hcollecting := collect_collecting hs.sound s.now x
      rw [lapsed] at hcollecting
      cases hcollecting with
      | released settled same =>
        rintro e he hid
        simp [← hid, hs.sound.pending e he] at settled
      | missing pending late gone same =>
        intro e he hid
        refine gone e he ?_ hid
        rw [(hs.fits c hc).waiter frame since x awaiting]
        exact (hs.entry_key c hc frame x.id hentry e he hid).1
    rw [hparting]
    exact conclude_turnover (u := s) (fun e => c.holds e) hs hc (by simp [Call.isWaiting, hentry]) rfl rfl
      hs.sound (entries_of_gone hentry habsent) rfl rfl rfl _
  | rests result finished => exact hrests (hquiet (by simp [finished]) (by simp [finished]))

/-- A call that is dropped parts, if it waits for a response. -/
theorem dropCall_turnover (hs : s.Orderly) (hc : c ∈ s.calls) :
    s.Turnover (if c.isWaiting then some .dropped else none) (fun e => c.isWaiting && c.holds e) (s.dropCall c) := by
  obtain ⟨hbeside, hcalls, -⟩ := dropCall_step hs.sound c
  have hwaiting := waiting_filter hs hc hcalls
  have hstill (i : Instrument) (attributes : List (String × String)) :
      (s.dropCall c).total i attributes = s.total i attributes := by
    have hlog : (s.dropCall c).log = s.log := by
      unfold dropCall
      dsimp only
      split <;> rfl
    rw [total, hlog, total]
  have hentries : (s.dropCall c).window.entries =
      s.window.entries.filter (fun e => !(c.isWaiting && c.holds e)) := by
    unfold dropCall
    cases hstage : c.stage with
    | starting | queued | finished => simp [Call.isWaiting, hstage, CallStage.entry?, abandon]
    | writing frame entry =>
      have hentry : c.stage.entry? = some (frame, entry) := by rw [hstage]; rfl
      simp only [Call.isWaiting, hentry, Option.isSome_some, Bool.true_and]
      exact withdraw_own hs hc hentry rfl
    | awaiting frame since x =>
      have hentry : c.stage.entry? = some (frame, x.id) := by rw [hstage]; rfl
      simp only [Call.isWaiting, hentry, Option.isSome_some, Bool.true_and]
      exact withdraw_own hs hc hentry rfl
  refine ⟨⟨none, by simpa using hentries, hstill _ _, ?_⟩, ?_, ?_⟩
  · cases hc' : c.isWaiting <;> simpa [hc'] using hwaiting
  · rw [hstill]
    cases c.isWaiting <;> rfl
  · rw [hstill]
    cases c.isWaiting <;> rfl

theorem endsBy_of_status (status : t.status = .closed → s.status = .closed) : s.endsBy t = false := by
  by_cases hclosed : t.status = .closed
  · simp [endsBy, status hclosed]
  · simp [endsBy, hclosed]

/-- Only the status of the session and the kind of the frame decide whether a response is taken. -/
theorem Handles.entries {f : Frame} {rest : List UInt8} (h : { s with input := rest }.Handles f t)
    (hw : s.window.Sound) (can : s.can (.reader .read) = true) (input : s.nextInput = .frame f rest) :
    t.window.entries = s.window.entries.filter (fun e =>
      !(s.endsBy t || s.answersBy (.move (.reader .read)) e || s.expiresBy (.move (.reader .read)) e)) := by
  have htaken : s.taken? (.move (.reader .read)) = some f := by simp [taken?, can, input]
  have hgoing : s.endsBy t = false := endsBy_of_status (by cases h <;> exact fun h => h)
  have hentries : t.window.entries = s.window.entries.filter (fun e =>
      !(s.status.reaction f.kind = .complete && e.key = f.sequence : Bool)) := by
    cases h with
    | drops m closed =>
      have closed : s.status = .closed := closed
      simp [closed, SessionStatus.reaction]
    | completes m going kind =>
      have hreaction : s.status.reaction f.kind = .complete := by
        have going : s.status ≠ .closed := going
        rw [kind]
        cases hs : s.status <;> first | rfl | exact absurd hs going
      simpa [hreaction] using (complete_turns s.now f.sequence hw f).entries
    | rejects m m' status rule =>
      rcases rule with ⟨hs, -, type, kind⟩ | ⟨hs, -, kind⟩
      · have hs : s.status = .bound := hs
        simp [hs, kind, SessionStatus.reaction]
      · have hs : s.status = .opened := hs
        simp [hs, kind, SessionStatus.reaction]
    | dispatches m rule =>
      rcases rule with ⟨hs, type, kind⟩ | ⟨hs, kind⟩
      · have hs : s.status = .opened := hs
        simp [hs, kind, SessionStatus.reaction]
      · have hs : s.status = .bound := hs
        simp [hs, kind, SessionStatus.reaction]
  simpa [hgoing, answersBy, htaken, expiresBy] using hentries

theorem Settles.kept (h : s.Settles t) : s.endsBy t = false ∧ t.window = s.window := by
  refine ⟨endsBy_of_status fun closed => ?_, h.window⟩
  rcases h.status with status | ⟨-, bound⟩
  · rw [← status, closed]
  · simp [bound] at closed

theorem Works.kept {k : Nat} (h : s.Works k t) : s.endsBy t = false ∧ t.window = s.window := by
  cases h with
  | ends u same => rcases same with rfl | ⟨m, rfl⟩ <;> exact ⟨endsBy_of_status fun h => h, rfl⟩
  | pauses | holds => exact ⟨endsBy_of_status fun h => h, rfl⟩
  | answers u plan f settles | refused u plan settles => exact settles.kept

/-- What a possible move of the reader does to the entries. -/
theorem ReaderTurn.entries {m : ReaderMove} (h : s.ReaderTurn m t) (hw : s.window.Sound)
    (can : s.can (.reader m) = true) : t.window.entries = s.window.entries.filter (fun e =>
      !(s.endsBy t || s.answersBy (.move (.reader m)) e || s.expiresBy (.move (.reader m)) e)) := by
  have of_halts (halts : s.Halts t) (untaken : s.taken? (.move (.reader m)) = none) (unswept : m ≠ .sweep) :
      t.window.entries = s.window.entries.filter (fun e =>
        !(s.endsBy t || s.answersBy (.move (.reader m)) e || s.expiresBy (.move (.reader m)) e)) := by
    have hends := halts.entries (fun _ => false) hw rfl (by simp)
    simpa [answersBy, untaken, expiresBy, unswept] using hends
  have untaken (noFrame : ∀ f rest, s.nextInput ≠ .frame f rest) : s.taken? (.move (.reader .read)) = none := by
    unfold taken?
    split
    · cases input : s.nextInput with
      | frame f rest => exact absurd input (noFrame f rest)
      | _ => rfl
    · rfl
  have hend (u : Session) (status : u.status = s.status) (window : u.window = s.window) :
      s.Halts u.finishReader := (disconnect_halts u).congr status.symm window.symm rfl rfl
  cases h with
  | stops stage => exact of_halts (hend s rfl rfl) (taken?_of_ne (by simp)) (by simp)
  | reads stage _ reads =>
    cases reads with
    | frame f rest input handles => exact handles.entries hw can input
    | fault rest m input =>
      exact of_halts (hend _ rfl rfl) (untaken input) (by simp)
    | ends input => exact of_halts (hend s rfl rfl) (untaken input) (by simp)
  | sweeps stage =>
    have hsweep : s.sweep.window = (s.window.expire s.now).1 ∧ s.sweep.status = s.status := by
      unfold sweep
      dsimp only
      split <;> exact ⟨rfl, rfl⟩
    have hgoing : s.endsBy s.sweep = false := endsBy_of_status fun closed => hsweep.2.symm.trans closed
    have hentries := (expire_turns s.now hw).entries
    rw [hsweep.1]
    simpa [hgoing, answersBy, taken?_of_ne, expiresBy, can] using hentries
  | refuses f stage u sends =>
    obtain ⟨new, same, -⟩ := transmit_eq s f
    subst sends
    exact of_halts (.stays (by rw [same]; rfl) (by rw [same]; rfl)) (taken?_of_ne (by simp)) (by simp)
  | answers f k plan stage u closes =>
    subst closes
    exact of_halts ((closeReply_halts s k f).congr rfl rfl rfl rfl) (taken?_of_ne (by simp)) (by simp)
  | works k plan stage _ works =>
    obtain ⟨hgoing, hwindow⟩ := works.kept
    simp [hwindow, hgoing, answersBy, taken?_of_ne, expiresBy]
  | wakes wake k plan stage => exact of_halts (.stays rfl rfl) (taken?_of_ne (by simp)) (by simp)

theorem AnswerTurn.entries {a : Answer} (h : s.AnswerTurn a t) (hw : s.window.Sound) :
    t.window.entries = s.window.entries.filter (fun _ => !s.endsBy t) := by
  have of_kept {u : Session} (kept : s.endsBy u = false ∧ u.window = s.window) (window : t.window = u.window)
      (status : t.status = u.status) :
      t.window.entries = s.window.entries.filter (fun _ => !s.endsBy t) := by
    have hgoing : s.endsBy t = s.endsBy u := by rw [endsBy, endsBy, status]
    simp [window, kept.2, hgoing, kept.1]
  cases h with
  | opens stage u f settles | refused stage u settles => exact of_kept settles.kept rfl rfl
  | closes f stage u closes =>
    subst closes
    have hends : s.Halts ((s.closeReply a.responder f).setAnswer a.id (.finished true)) :=
      (closeReply_halts s a.responder f).congr rfl rfl rfl rfl
    simpa using hends.entries (fun _ => false) hw rfl (by simp)
  | rests => exact of_kept ⟨endsBy_of_status fun h => h, rfl⟩ rfl rfl

/-- What a stimulus does that drops nobody. -/
theorem feel_calm (s : Session) {y : Stimulus} (stays : ∀ id, y ≠ .drop id) :
    (s.feel y).waiting = s.waiting ∧ s.Halts (s.feel y) := by
  cases y with
  | drop id => exact absurd rfl (stays id)
  | arrive | endInput =>
    rw [feel]
    split <;> exact ⟨rfl, .stays rfl rfl⟩
  | send | close =>
    refine ⟨?_, .stays rfl rfl⟩
    simp [feel, addCall, waiting, Call.isWaiting, CallStage.entry?]
  | forget id =>
    rw [feel]
    unfold dropAnswer
    split
    · split <;> exact ⟨rfl, .stays rfl rfl⟩
    · exact ⟨rfl, .stays rfl rfl⟩
  | disconnect => exact ⟨rfl, disconnect_halts s⟩
  | begin plan =>
    rw [feel, beginWork]
    split <;> exact ⟨rfl, .stays rfl rfl⟩
  | _ => exact ⟨rfl, .stays rfl rfl⟩

/-- Only the reader answers and sweeps. -/
theorem untouched_elsewhere (s : Session) (other : ∀ m, x ≠ .move (.reader m)) (e : Entry Frame) :
    s.answersBy x e = false ∧ s.expiresBy x e = false := by
  simp [answersBy, taken?_of_ne (other .read), expiresBy, other .sweep]

theorem step_still (s : Session) (unread : ∀ i ∈ requestInstruments, i ∉ x.readings) (i : Instrument)
    (hi : i ∈ requestInstruments) (attributes : List (String × String)) :
    (s.step x).total i attributes = s.total i attributes :=
  step_total (unread i hi)

theorem drop_turnover (hs : s.Orderly) (id : Nat) :
    s.Turnover ((s.parting? (.feel (.drop id))).map (·.2))
      (fun e => (s.parting? (.feel (.drop id))).any (·.1.holds e) || s.endsBy (s.feel (.drop id)))
      (s.feel (.drop id)) := by
  cases hfound : s.findCall? id with
  | none =>
    have hstep : s.feel (.drop id) = s := by simp only [feel, hfound]
    have hgoing : s.endsBy s = false := endsBy_of_status fun h => h
    rw [hstep]
    simp only [parting?, hfound, hgoing]
    exact .aside (fun _ _ _ => rfl) rfl (by simp)
  | some c =>
    have hstep : s.feel (.drop id) = s.dropCall c := by simp only [feel, hfound]
    have hgoing : s.endsBy (s.dropCall c) = false := endsBy_of_status (by
      unfold dropCall
      dsimp only
      split <;> exact fun h => h)
    have hdrops := dropCall_turnover hs (List.mem_of_find?_eq_some hfound)
    rw [hstep]
    simp only [parting?, hfound, Option.bind_some, hgoing, Bool.or_false]
    cases hwaits : c.isWaiting <;> simpa [hwaits] using hdrops

theorem feel_turnover (hs : s.Orderly) (y : Stimulus) :
    s.Turnover ((s.parting? (.feel y)).map (·.2))
      (fun e => (s.parting? (.feel y)).any (·.1.holds e) || s.endsBy (s.feel y)) (s.feel y) := by
  by_cases hdrop : ∃ id, y = .drop id
  · obtain ⟨id, rfl⟩ := hdrop
    exact drop_turnover hs id
  · have hparting : s.parting? (.feel y) = none := by
      cases y with
      | drop id => exact absurd ⟨id, rfl⟩ hdrop
      | _ => rfl
    obtain ⟨hwaiting, halts⟩ := feel_calm s fun id h => hdrop ⟨id, h⟩
    rw [hparting]
    exact .aside (step_still s (x := .feel y) (by simp [Step.readings])) hwaiting
      (halts.entries (fun _ => false) hs.sound rfl (by simp))

/-- A move that is not possible changes nothing. -/
theorem idle_turnover {m : Move} (idle : ¬ s.can m = true) :
    s.Turnover ((s.parting? (.move m)).map (·.2)) (fun e => (s.removal? (.move m) e).isSome) s := by
  have hstep : s.step (.move m) = s := if_neg idle
  have hparting : s.parting? (.move m) = none := by
    cases m with
    | call id => exact if_neg idle
    | _ => rfl
  have hgoing : s.endsBy s = false := endsBy_of_status fun h => h
  have huntaken : s.taken? (.move m) = none := if_neg (by
    rintro ⟨h, hread⟩
    cases h
    exact idle hread)
  have hunswept (e : Entry Frame) : s.expiresBy (.move m) e = false := by
    unfold expiresBy
    by_cases hsweep : m = .reader .sweep
    · subst hsweep
      simp [idle]
    · simp [hsweep]
  simp only [removal?_isSome, hstep, hparting, Option.any_none, hgoing, answersBy, huntaken, hunswept]
  exact .aside (fun _ _ _ => rfl) rfl (by simp)

theorem move_turnover (hs : s.Orderly) {m : Move} (can : s.can m = true) :
    s.Turnover ((s.parting? (.move m)).map (·.2)) (fun e => (s.removal? (.move m) e).isSome)
      (s.step (.move m)) := by
  simp only [removal?_isSome]
  cases m with
  | reader m =>
    have hturn := moveReader_turn can
    rw [← step_reader can] at hturn
    simp only [parting?, Option.map_none, Option.any_none, Bool.false_or]
    refine .aside (step_still s ?_) (by rw [waiting, hturn.calls, waiting]) (hturn.entries hs.sound can)
    cases m <;> simp [Step.readings, requestInstruments, incoming, outgoing]
  | call id =>
    simp only [untouched_elsewhere s (x := .move (.call id)) (by simp), Bool.or_false]
    cases hfound : s.findCall? id with
    | none => simp [Session.can, hfound] at can
    | some c =>
      have hturnover := (stepCall_acts s c).turnover hs (List.mem_of_find?_eq_some hfound)
      rw [step_call hfound can]
      simp only [parting?, can, if_true, hfound, Option.bind_some]
      cases hparting : s.partingOf? c <;> simpa [hparting] using hturnover
  | answer id =>
    simp only [untouched_elsewhere s (x := .move (.answer id)) (by simp), Bool.or_false]
    cases hfound : s.findAnswer? id with
    | none => simp [Session.can, hfound] at can
    | some a =>
      have hturn := stepAnswer_turn s a
      rw [← step_answer hfound can] at hturn
      simp only [parting?, Option.map_none, Option.any_none, Bool.false_or]
      refine .aside (step_still s ?_) (by rw [waiting, hturn.calls, waiting]) (hturn.entries hs.sound)
      simp [Step.readings, requestInstruments, outgoing]

/-- What a step does to the requests, and to the instruments that count them. -/
theorem step_turnover (hs : s.Orderly) (x : Step) :
    s.Turnover ((s.parting? x).map (·.2)) (fun e => (s.removal? x e).isSome) (s.step x) := by
  cases x with
  | feel y =>
    simp only [removal?_isSome, untouched_elsewhere s (x := .feel y) (by simp), Bool.or_false]
    exact feel_turnover hs y
  | move m =>
    by_cases can : s.can m = true
    · exact move_turnover hs can
    · have hstep : s.step (.move m) = s := if_neg can
      rw [hstep]
      exact idle_turnover can

/-! ## What the steps come to -/

/-- How many calls part in a step in a certain way. -/
def parts (s : Session) (p : Parting) (x : Step) : Nat := ((s.parting? x).map (·.2)).toList.count p

/-- How many entries a step takes out of the window in a certain way. -/
def removes (s : Session) (r : Removal) (x : Step) : Nat := s.window.entries.countP (s.removal? x · = some r)

/-- A sweep counts what it takes out, and nothing else is counted so. -/
theorem step_expired (s : Session) (x : Step) : (s.step x).total .windowExpiredTotal [] =
    s.total .windowExpiredTotal [] + s.removes .expired x := by
  by_cases hsweeps : x = .move (.reader .sweep) ∧ s.can (.reader .sweep) = true
  · obtain ⟨rfl, can⟩ := hsweeps
    have hstep : s.step (.move (.reader .sweep)) = s.sweep := by
      rw [step_reader can]
      simp only [moveReader, waiting_of_can can (by decide)]
    have hgoing : s.endsBy s.sweep = false := endsBy_of_status (by
      unfold sweep
      dsimp only
      split <;> exact fun h => h)
    rw [removes, hstep, sweep_expired]
    congr 1
    refine List.countP_congr fun e _ => ?_
    simp [removal?, parting?, hstep, hgoing, answersBy, taken?_of_ne, expiresBy, can]
  · have hnone : s.removes .expired x = 0 := by
      refine List.countP_eq_zero.mpr fun e _ => ?_
      have hexpires : s.expiresBy x e = false := by
        by_cases hx : x = .move (.reader .sweep)
        · have hcan : ¬ s.can (.reader .sweep) = true := fun can => hsweeps ⟨hx, can⟩
          simp [expiresBy, hcan]
        · simp [expiresBy, hx]
      unfold removal?
      split
      · simp
      · simp
      · split
        · simp
        · split <;> simp [hexpires]
    rw [hnone]
    by_cases hx : x = .move (.reader .sweep)
    · subst hx
      rw [step, if_neg fun can => hsweeps ⟨rfl, can⟩]
      rfl
    · refine step_total ?_
      unfold Step.readings
      split
      case h_4 => exact absurd rfl hx
      all_goals decide

/-- Every entry stays, or leaves in one of the ways. -/
theorem removes_add (s : Session) (x : Step) :
    (s.window.entries.filter fun e => !(s.removal? x e).isSome).length + s.removes .completed x +
      s.removes .expired x + s.removes .timedOut x + s.removes .cancelled x + s.removes .released x =
    s.window.size := by
  simp only [removes, size]
  induction s.window.entries with
  | nil => rfl
  | cons e es ih =>
    simp only [List.filter_cons, List.countP_cons, List.length_cons]
    cases s.removal? x e with
    | none =>
      simp at ih ⊢
      omega
    | some r =>
      cases r <;> simp at ih ⊢ <;> omega

theorem mem_setCall_self (hc : c ∈ s.calls) (stage : CallStage) :
    { c with stage } ∈ (s.setCall c.id stage).calls :=
  List.mem_map.mpr ⟨c, hc, if_pos rfl⟩

/-- A call that sends a request ends with what it comes to. -/
theorem conclude_request (request : c.purpose = .request) (s : Session) (e : SessionError) :
    s.conclude c (.error e) = s.setCall c.id (.finished (.failed e)) := by
  unfold conclude
  rw [request]

/-- How a call parts says how it ends. -/
theorem Acts.result (h : s.Acts c t) (hc : c ∈ s.calls) (request : c.purpose = .request) {p : Parting}
    (parting : s.partingOf? c = some p) :
    ∃ result, p.EndsAs result ∧ { c with stage := .finished result } ∈ t.calls := by
  cases h with
  | declines starting | offers starting => simp [partingOf?, starting] at parting
  | resumes frame q queued => simp [partingOf?, queued] at parting
  | rests result finished => simp [partingOf?, finished] at parting
  | waits frame since x awaiting none_yet => simp [partingOf?, awaiting, none_yet] at parting
  | writes frame entry writing u sent => simp [partingOf?, writing, sent.eq] at parting
  | fails frame entry writing u e failed =>
    obtain rfl : Parting.unwritten = p := by simpa [partingOf?, writing, failed.eq] using parting
    refine ⟨_, .unwritten e, ?_⟩
    rw [conclude_request request, failed.same]
    exact mem_setCall_self hc _
  | gets frame since x awaiting response found =>
    obtain rfl : Parting.answered = p := by simpa [partingOf?, awaiting, found] using parting
    refine ⟨_, .answered (.ofFrame response), ?_⟩
    unfold respondCall
    rw [conclude_ok, show c.purpose.resultOf (.ofFrame response) = .received (.ofFrame response) by
      rw [request]; rfl]
    split <;> exact mem_setCall_self hc _
  | timesOut frame since x awaiting key late held =>
    obtain rfl : Parting.timedOut = p := by simpa [partingOf?, awaiting, late] using parting
    refine ⟨_, .timedOut frame.sequence c.timeout, ?_⟩
    rw [conclude_request request]
    exact mem_setCall_self hc _
  | lapses frame since x awaiting key lapsed =>
    obtain rfl : Parting.lapsed = p := by simpa [partingOf?, awaiting, lapsed] using parting
    refine ⟨_, .lapsed key, ?_⟩
    rw [conclude_request request]
    exact mem_setCall_self hc _

/-- A call that parts has been admitted. It is dropped, or ends in a step of its own. -/
structure Parts (s : Session) (x : Step) (c : Call) (p : Parting) (t : Session) : Prop where
  mem : c ∈ s.calls
  waits : c.isWaiting = true
  dropped : p = .dropped ↔ x = .feel (.drop c.id)
  ends : p ≠ .dropped → x = .move (.call c.id) ∧ (c.purpose = .request →
    ∃ result, p.EndsAs result ∧ { c with stage := .finished result } ∈ t.calls)

theorem parts_of_parting {p : Parting} (h : s.parting? x = some (c, p)) : s.Parts x c p (s.step x) := by
  unfold parting? at h
  split at h
  · rename_i id
    split at h
    · rename_i can
      obtain ⟨b, hfound, hb⟩ := Option.bind_eq_some_iff.mp h
      obtain ⟨q, hparting, hq⟩ := Option.map_eq_some_iff.mp hb
      obtain ⟨rfl, rfl⟩ : b = c ∧ q = p := by simpa using hq
      have hc := List.mem_of_find?_eq_some hfound
      have hid : b.id = id := by simpa using List.find?_some hfound
      have hq : q ≠ .dropped := by
        rintro rfl
        unfold partingOf? at hparting
        split at hparting
        · split at hparting <;> simp at hparting
        · split at hparting <;> simp at hparting
        · simp at hparting
      refine ⟨hc, ?_, by simp [hq], fun _ => ⟨by rw [hid], fun request => ?_⟩⟩
      · unfold partingOf? at hparting
        split at hparting <;> simp_all [Call.isWaiting, CallStage.entry?]
      · rw [step_call hfound can]
        exact (stepCall_acts s b).result hc request hparting
    · simp at h
  · rename_i id
    obtain ⟨b, hfound, hb⟩ := Option.bind_eq_some_iff.mp h
    have hid : b.id = id := by simpa using List.find?_some hfound
    split at hb
    · rename_i waits
      obtain ⟨rfl, rfl⟩ : b = c ∧ Parting.dropped = p := by simpa using hb
      exact ⟨List.mem_of_find?_eq_some hfound, waits, by simp [hid], fun h => absurd rfl h⟩
    · simp at hb
  · simp at h

/-! ## Runs -/

/-- The counters of the run `xs` from `s` add up. -/
structure AddsUp (s : Session) (xs : List Step) : Prop where
  sent : (s.after xs).total .pduSentTotal [] = (s.after xs).log.countP (·.isWrite)
  unsent : (s.after xs).total .pduErrorsTotal writing = (s.after xs).log.countP (·.isFailedWrite)
  received : (s.after xs).total .pduReceivedTotal [] = tally takes s xs
  rejections : (s.after xs).total .stateRejectionsTotal [] = tally rejects s xs
  /-- Every call that was admitted has its response, or has not got it in one of the ways, or waits. -/
  calls : (s.after xs).total .windowOffersTotal accepted =
    (s.after xs).total .requestDuration [] + (s.after xs).total .windowTimeoutsTotal [] +
      tally (parts · .unwritten) s xs + tally (parts · .lapsed) s xs + tally (parts · .dropped) s xs +
      (s.after xs).waiting
  answered : (s.after xs).total .requestDuration [] = tally (parts · .answered) s xs
  timedOut : (s.after xs).total .windowTimeoutsTotal [] = tally (parts · .timedOut) s xs
  partings : ∀ i x c p, xs[i]? = some x → (s.before xs i).parting? x = some (c, p) →
    (s.before xs i).Parts x c p (s.before xs (i + 1))
  binds_le : (s.after xs).total .bindsTotal success ≤ 1
  binds : (s.after xs).total .bindsTotal success = 1 ↔ ∃ i ≤ xs.length, (s.before xs i).status = .bound
  /-- Every entry that was made has left the window in one of the ways, or is there. -/
  entries : (s.after xs).total .windowExpiredTotal [] + tally (removes · .completed) s xs +
      tally (removes · .timedOut) s xs + tally (removes · .cancelled) s xs + tally (removes · .released) s xs +
      (s.after xs).window.size =
    (s.after xs).total .windowOffersTotal accepted
  expired : (s.after xs).total .windowExpiredTotal [] = tally (removes · .expired) s xs

variable {xs : List Step}

/-- What every step adds to an instrument, every run adds to it. -/
theorem after_total {i : Instrument} {attributes : List (String × String)} {count : Session → Step → Nat}
    (step : ∀ t : Session, t.Orderly → ∀ x,
      (t.step x).total i attributes = t.total i attributes + count t x) (hs : s.Orderly) (hc : s.Covered)
    (first : s.total i attributes = 0) : (s.after xs).total i attributes = tally count s xs := by
  have htally := after_tally xs (P := fun n t => t.total i attributes = n) (f := count) hs hc
    (fun t ht _ n x h => by rw [step t ht x, h]) first
  rw [htally, Nat.zero_add]

/-- A call that parts does so in one of the ways. -/
theorem count_partings (p : Option Parting) : p.toList.length =
    p.toList.count .answered + p.toList.count .timedOut + p.toList.count .unwritten +
      p.toList.count .lapsed + p.toList.count .dropped := by
  cases p with
  | none => rfl
  | some p => cases p <;> rfl

/-- The calls that were admitted, along a run. -/
theorem after_calls (hs : s.Orderly) (hc : s.Covered) (offers : s.total .windowOffersTotal accepted = 0)
    (answered : s.total .requestDuration [] = 0) (timedOut : s.total .windowTimeoutsTotal [] = 0)
    (waiting : s.waiting = 0) : (s.after xs).total .windowOffersTotal accepted =
      (s.after xs).total .requestDuration [] + (s.after xs).total .windowTimeoutsTotal [] +
        tally (parts · .unwritten) s xs + tally (parts · .lapsed) s xs + tally (parts · .dropped) s xs +
        (s.after xs).waiting := by
  have htally := after_tally xs
    (P := fun n t => t.total .windowOffersTotal accepted =
      t.total .requestDuration [] + t.total .windowTimeoutsTotal [] + n + t.waiting)
    (f := fun t x => t.parts .unwritten x + t.parts .lapsed x + t.parts .dropped x) hs hc
    (fun t ht _ n x h => ?_) (n := 0) (by omega)
  · rw [tally_add, tally_add] at htally
    omega
  · obtain ⟨⟨fresh, -, hoffers, hwaiting⟩, hanswered, htimedOut⟩ := step_turnover ht x
    have hparts := count_partings ((t.parting? x).map (·.2))
    simp only [parts]
    omega

/-- The entries that were made, along a run. -/
theorem after_entries (hs : s.Orderly) (hc : s.Covered) (offers : s.total .windowOffersTotal accepted = 0)
    (expired : s.total .windowExpiredTotal [] = 0) (empty : s.window.size = 0) :
    (s.after xs).total .windowExpiredTotal [] + tally (removes · .completed) s xs +
      tally (removes · .timedOut) s xs + tally (removes · .cancelled) s xs + tally (removes · .released) s xs +
      (s.after xs).window.size =
    (s.after xs).total .windowOffersTotal accepted := by
  have htally := after_tally xs
    (P := fun n t => t.total .windowExpiredTotal [] + n + t.window.size = t.total .windowOffersTotal accepted)
    (f := fun t x =>
      t.removes .completed x + t.removes .timedOut x + t.removes .cancelled x + t.removes .released x) hs hc
    (fun t ht _ n x h => ?_) (n := 0) (by omega)
  · rw [tally_add, tally_add, tally_add] at htally
    omega
  · obtain ⟨⟨fresh, hentries, hoffers, -⟩, -, -⟩ := step_turnover ht x
    have hsize : (t.step x).window.size =
        (t.window.entries.filter fun e => !(t.removal? x e).isSome).length + fresh.toList.length := by
      rw [size, hentries, List.length_append]
    have hremoves := removes_add t x
    have hexpired := step_expired t x
    omega

/-- A session that was ever bound is one that somebody has bound. -/
theorem before_bound (xs : List Step) (first : s.BindsCounted) (unbound : s.binding = none) :
    (s.after xs).binding.isSome = true ↔ ∃ i ≤ xs.length, (s.before xs i).status = .bound := by
  have hcounted (i : Nat) : (s.before xs i).BindsCounted :=
    stateAt_induct (Nat.zero_le i) (fun _ x _ _ _ h => step_bindsCounted h x) first
  rw [← before_length]
  constructor
  · intro hbinding
    have hsource (i : Nat) (x : Step) (h : ((s.before xs i).step x).binding.isSome = true) :
        (s.before xs i).binding.isSome = true ∨ ((s.before xs i).step x).status = .bound := by
      cases hold : (s.before xs i).binding.isSome with
      | true => exact .inl rfl
      | false => exact .inr (bound_of_step_binding h hold)
    obtain ⟨i, hi, x, hx, hbound⟩ := stateAt_source (P := fun t : Session => t.binding.isSome = true)
      (fun i x _ _ h => hsource i x h) (by simp [unbound]) hbinding
    exact ⟨i + 1, hi, by rwa [before_succ hx]⟩
  · rintro ⟨i, hi, hbound⟩
    exact stateAt_induct (P := fun t : Session => t.binding.isSome = true) hi
      (fun _ x _ _ _ h => step_binding h x) ((hcounted i).bound hbound)

/-- **The counters add up**: of every run, in every state. -/
theorem adds_up (id : UInt32) (peer : Option SocketAddress) (serverSystemId : String)
    (settings : SessionSettings) (processor : Nat) (now : Instant) (xs : List Step) :
    (fresh id peer serverSystemId settings processor now).AddsUp xs := by
  have hs := fresh_orderly id peer serverSystemId settings processor now
  have hc := fresh_covered id peer serverSystemId settings processor now
  have hwrites : (fresh id peer serverSystemId settings processor now).WritesCounted := ⟨rfl, rfl⟩
  have hbinds : (fresh id peer serverSystemId settings processor now).BindsCounted :=
    ⟨rfl, fun _ => rfl, fun h => by cases h⟩
  have hunbound : (fresh id peer serverSystemId settings processor now).binding = none := rfl
  have hzero (i : Instrument) (attributes : List (String × String)) :
      (fresh id peer serverSystemId settings processor now).total i attributes = 0 := rfl
  have hwaiting : (fresh id peer serverSystemId settings processor now).waiting = 0 := rfl
  have hempty : (fresh id peer serverSystemId settings processor now).window.size = 0 := rfl
  generalize fresh id peer serverSystemId settings processor now = s at *
  have hcounted : (s.after xs).WritesCounted ∧ (s.after xs).BindsCounted := by
    rw [← before_length]
    exact stateAt_induct (P := fun t : Session => t.WritesCounted ∧ t.BindsCounted) (Nat.zero_le _)
      (fun _ x _ _ _ h => ⟨step_writesCounted h.1 x, step_bindsCounted h.2 x⟩) ⟨hwrites, hbinds⟩
  have hever := before_bound xs hbinds hunbound
  have hsuccess := hcounted.2.binds
  exact {
    sent := hcounted.1.writes
    unsent := hcounted.1.failures
    received := after_total (fun t _ x => (step_incoming t x).1) hs hc (hzero _ _)
    rejections := after_total (fun t _ x => (step_incoming t x).2) hs hc (hzero _ _)
    calls := after_calls hs hc (hzero _ _) (hzero _ _) (hzero _ _) hwaiting
    answered := after_total (fun t ht x => (step_turnover ht x).answered) hs hc (hzero _ _)
    timedOut := after_total (fun t ht x => (step_turnover ht x).timedOut) hs hc (hzero _ _)
    partings := fun i x c p hx h => by
      rw [before_succ hx]
      exact parts_of_parting h
    binds_le := by
      rw [hsuccess]
      split <;> omega
    binds := by
      rw [hsuccess, ← hever]
      by_cases h : (s.after xs).binding.isSome = true <;> simp [h]
    entries := after_entries hs hc (hzero _ _) (hzero _ _) hempty
    expired := after_total (fun t _ x => step_expired t x) hs hc (hzero _ _) }

end Session

end Smsc
