import Smsc.Proofs.Session.Apart
import Smsc.Proofs.Session.InTurn

/-!
# Smsc.Proofs.Session.Refusals — a refused request leaves everybody else alone

A request may be refused by the session, by the window or by the encoder, before anything has happened, after
a wait, or with an entry in the window. It undoes what it has done, and no more.

* `later_call`, `apart_of_unpast`: every step of a call that may still be refused concerns nobody else;
* `Inserts`, `inserts_of_holds`: who has brought an entry in;
* `Occupies`, `GivesBack`, `Acts.givesBack`, `Frees`: what becomes of its capacity;
* `startsOff`, `startsOff_untouched`: one that has not waited;
* `HasRefused`, `ClosesAlone`: the request of a close;
* `LeavesAlone s xs`, `leaves_alone`: every run.
-/

namespace Smsc.Session

open Window

variable {s t u : Session} {c : Call} {purpose : CallPurpose} {xs : List Step}

/-! ## Along a run -/

/-- A call stays what it is. Once it is past the point where it may be refused, it is so for good. -/
theorem later_call (hs : s.Orderly) {k j : Nat} (hkj : k ≤ j) {b : Call} (hb : b ∈ (s.before xs k).calls)
    (hc : c ∈ (s.before xs j).calls) (hid : c.id = b.id) :
    c.purpose = b.purpose ∧ (b.stage.isPast = true → c.stage.isPast = true) := by
  have hk : (s.before xs k).Orderly := before_orderly hs k
  refine (before_induct (P := fun t : Session => b.id < t.nextTask ∧ ∀ a ∈ t.calls, a.id = b.id →
    a.purpose = b.purpose ∧ (b.stage.isPast = true → a.stage.isPast = true)) hs
    (fun t ht h x => ?_) hkj ⟨hk.call_lt b hb, fun a ha haid => ?_⟩).2 c hc hid
  · refine ⟨Nat.lt_of_lt_of_le h.1 (step_turn ht x).tasks, fun a ha haid => ?_⟩
    rcases mem_calls_step ht ha with ha | ⟨hnew, -⟩ | ⟨d, hd, ⟨stage, rfl⟩, -, -, hstep⟩
    · exact h.2 a ha haid
    · have hlt := h.1
      omega
    · obtain ⟨hpurpose, hpast⟩ := h.2 d hd haid
      refine ⟨hpurpose, fun past => ?_⟩
      cases (stepCall_acts t d).apart_or_past hd ht with
      | apart unpast =>
        rw [hpast past] at unpast
        cases unpast
      | past stage' calls past' =>
        rw [hstep] at ha
        rwa [stage_of_setCall ht.call_ids hd calls ha rfl]
  · obtain rfl := List.inj_on_of_nodup_map hk.call_ids ha hb haid
    exact ⟨rfl, fun past => past⟩

/-- Every step that a call takes until it is past that point concerns nobody else. -/
theorem apart_of_unpast (hs : s.Orderly) {j k : Nat} (hc : c ∈ (s.before xs j).calls)
    (unpast : c.stage.isPast = false) (hkj : k < j) (hx : xs[k]? = some (.move (.call c.id))) :
    (s.before xs k).Apart c.id (s.before xs (k + 1)) := by
  have hk : (s.before xs k).Orderly := before_orderly hs k
  have hlater : ∀ a ∈ (s.before xs (k + 1)).calls, c.id = a.id → a.stage.isPast = true →
      c.stage.isPast = true :=
    fun a ha haid => (later_call hs hkj ha hc haid).2
  rw [before_succ hx] at hlater ⊢
  have hmoves := step_moves (s.before xs k) (.call c.id)
  generalize (s.before xs k).step (.move (.call c.id)) = t at hlater hmoves ⊢
  cases hmoves with
  | call id b found mem hid ready =>
    cases (stepCall_acts (s.before xs k) b).apart_or_past mem hk with
    | apart _ apart => rwa [hid] at apart
    | past stage calls past =>
      have hb : { b with stage } ∈ ((s.before xs k).stepCall b).calls := by
        rw [calls]
        exact mem_setCall_self mem stage
      rw [hlater _ hb hid.symm past] at unpast
      cases unpast
  | nothing => exact .refl _ _

theorem apart_of_refused (hs : s.Orderly) {j k : Nat} (hc : c ∈ (s.before xs j).calls) (refused : c.Refused)
    (hkj : k < j) (hx : xs[k]? = some (.move (.call c.id))) :
    (s.before xs k).Apart c.id (s.before xs (k + 1)) :=
  apart_of_unpast hs hc (CallStage.isPast_of_isRefused refused.stage) hkj hx

/-- A step of the call brings the entry in, before the `j`-th. -/
def Inserts (s : Session) (xs : List Step) (j id : Nat) (e : Entry Frame) : Prop :=
  ∃ k < j, xs[k]? = some (.move (.call id)) ∧ e ∉ (s.before xs k).window.entries ∧
    e ∈ (s.before xs (k + 1)).window.entries

/-- An entry that comes has a new id. -/
theorem id_of_new (hs : s.Orderly) {k : Nat} {e : Entry Frame} (absent : e ∉ (s.before xs k).window.entries)
    (present : e ∈ (s.before xs (k + 1)).window.entries) :
    (s.before xs k).window.nextId ≤ e.id ∧ e.id < (s.before xs (k + 1)).window.nextId := by
  have hk : (s.before xs k).Orderly := before_orderly hs k
  refine ⟨?_, (before_orderly hs (k + 1)).sound.id_lt e present⟩
  cases hx : xs[k]? with
  | none =>
    rw [before_succ_of_none hx] at present
    exact absurd present absent
  | some x =>
    rw [before_succ hx] at present
    exact (((step_turn hk x).follows hk).old e present).resolve_left absent

/-- The entry of a call was brought in by the call. -/
theorem inserts_of_holds (hs : s.Orderly) (first : s.window.entries = []) {j : Nat}
    (hc : c ∈ (s.before xs j).calls) {e : Entry Frame} (he : e ∈ (s.before xs j).window.entries)
    (holds : c.holds e = true) : s.Inserts xs j c.id e := by
  obtain ⟨k, hkj, x, hx, absent, present⟩ := stateAt_source (P := fun t : Session => e ∈ t.window.entries)
    (Q := fun k _ => e ∉ (s.before xs k).window.entries ∧ e ∈ (s.before xs (k + 1)).window.entries)
    (fun k x _ hx hstep => by
      rw [before_succ hx]
      exact (em _).imp_right fun absent => ⟨absent, hstep⟩) (by simp [first]) he
  refine ⟨k, hkj, ?_, absent, present⟩
  obtain ⟨hle, hlt⟩ := id_of_new hs absent present
  have hk : (s.before xs k).Orderly := before_orderly hs k
  obtain ⟨⟨frame, n⟩, hentry, hn⟩ : ∃ fn, c.stage.entry? = some fn ∧ fn.2 = e.id := by
    simpa [Call.holds] using holds
  obtain rfl : n = e.id := hn
  obtain ⟨b, hb, hid, hentry'⟩ := entry_history hs hc hentry hkj hlt
  rw [before_succ hx] at hb
  -- The call holds an entry that is new, so that the step is its own.
  rcases mem_calls_step hk hb with hb | ⟨-, hstart, -⟩ | ⟨a, -, ⟨stage, rfl⟩, rfl, -⟩
  · have hold := hk.entry_lt b hb frame e.id hentry'
    omega
  · simp [hstart, CallStage.entry?] at hentry'
  · rw [hx, ← hid]

/-- An entry is brought in once. -/
theorem Inserts.eq (hs : s.Orderly) {j a b : Nat} {e : Entry Frame} (ha : s.Inserts xs j a e)
    (hb : s.Inserts xs j b e) : a = b := by
  obtain ⟨k, -, hk, hkabsent, hkpresent⟩ := ha
  obtain ⟨l, -, hl, hlabsent, hlpresent⟩ := hb
  have hknew := id_of_new hs hkabsent hkpresent
  have hlnew := id_of_new hs hlabsent hlpresent
  have horder {m n : Nat} (h : m < n) :
      (s.before xs (m + 1)).window.nextId ≤ (s.before xs n).window.nextId := nextId_mono hs h
  obtain hlt | rfl | hgt := Nat.lt_trichotomy k l
  · have := horder hlt
    omega
  · simpa using hk.symm.trans hl
  · have := horder hgt
    omega

/-! ## Capacity -/

/-- The call has capacity: an entry, or a permit that it has not picked up. -/
def Occupies (s : Session) (c : Call) : Prop :=
  (∃ e ∈ s.window.entries, c.holds e = true) ∨
    ∃ frame p, c.stage = .queued frame p ∧ p.ticket ∈ s.window.permits.granted

/-- From `s` to `t` capacity comes back. It goes to the call that has waited longest, which may go on with it
at once, and is free if none waits. -/
structure Frees (s t : Session) : Prop where
  next : ∀ ticket rest, s.window.permits.queue = ticket :: rest →
    t.window.permits.queue = rest ∧ t.window.permits.free = s.window.permits.free ∧
      ∃ b ∈ t.calls, ∃ frame p, b.stage = .queued frame p ∧ p.ticket = ticket ∧ t.callIsReady b = true ∧
        (t.window.permits.poll ticket).2 = .permit
  idle : s.window.permits.queue = [] →
    t.window.permits.queue = [] ∧ t.window.permits.free = s.window.permits.free + 1

/-- With the permits `p` the call has given back what it had of the capacity, and nothing else. -/
def GivesBack (s : Session) (c : Call) (p : Permits) : Prop :=
  (s.Occupies c → s.window.permits.Hands p) ∧
    (¬ s.Occupies c → p.free = s.window.permits.free ∧ p.granted = s.window.permits.granted)

theorem givesBack_nothing (starting : c.stage = .starting) {p : Permits} (free : p.free = s.window.permits.free)
    (granted : p.granted = s.window.permits.granted) : s.GivesBack c p := by
  refine ⟨?_, fun _ => ⟨free, granted⟩⟩
  rintro (⟨e, -, holds⟩ | ⟨frame, q, queued, -⟩)
  · simp [Call.holds, starting, CallStage.entry?] at holds
  · simp [starting] at queued

theorem givesBack_ticket {frame : Frame} {p : PendingOffer Frame} (queued : c.stage = .queued frame p) :
    s.GivesBack c (s.window.permits.withdraw p.ticket) := by
  constructor
  · rintro (⟨e, -, holds⟩ | ⟨frame', p', queued', granted⟩)
    · simp [Call.holds, queued, CallStage.entry?] at holds
    · obtain ⟨-, rfl⟩ : frame = frame' ∧ p = p' := by simpa [queued] using queued'
      exact s.window.permits.withdraw_hands granted
  · intro not
    have hungranted : p.ticket ∉ s.window.permits.granted := fun granted =>
      not (.inr ⟨frame, p, queued, granted⟩)
    obtain ⟨-, hgranted, hfree⟩ := (Permits.GivesUp.withdraw s.window.permits p.ticket).leaves hungranted
    exact ⟨hfree, hgranted⟩

theorem givesBack_entry (hs : s.Orderly) (hc : { c with purpose } ∈ s.calls) {frame : Frame} {entry : Nat}
    (writing : c.stage = .writing frame entry) :
    s.GivesBack c (s.window.withdraw frame.sequence entry).1.permits := by
  have hentry : c.stage.entry? = some (frame, entry) := by rw [writing]; rfl
  constructor
  · rintro (⟨e, he, holds⟩ | ⟨frame', p, queued, -⟩)
    · have hid : e.id = entry := by simpa [Call.holds_of_entry hentry] using holds
      have hpermits := withdraw_permits hs.sound he
      rw [hid, (hs.entry_key _ hc frame entry hentry e he hid).1] at hpermits
      rw [hpermits]
      exact s.window.permits.release_hands
    · simp [writing] at queued
  · intro not
    have habsent : ∀ e ∈ s.window.entries, e.id ≠ entry := fun e he hid =>
      not (.inl ⟨e, he, by simp [Call.holds_of_entry hentry, hid]⟩)
    rw [withdraw_of_absent frame.sequence habsent]
    exact ⟨rfl, rfl⟩

/-- In the step in which a call is refused it gives back what it has. -/
theorem Acts.givesBack (h : s.Acts c t) (hs : s.Orderly) (hc : { c with purpose } ∈ s.calls)
    (request : c.purpose = .request) (hin : s.window.permits.InTurn)
    (refused : ∀ stage, t.calls = (s.setCall c.id stage).calls → stage.isRefused = true)
    (going : c.stage.isRefused = false) : s.GivesBack c t.window.permits := by
  have other (stage : CallStage) (calls : t.calls = (s.setCall c.id stage).calls)
      (unrefused : stage.isRefused = false) : False := by
    rw [refused stage calls] at unrefused
    cases unrefused
  cases h with
  | declines starting u draws e =>
    rw [conclude_request request, draws.same]
    exact givesBack_nothing starting rfl rfl
  | offers starting u draws frame w o offered =>
    have bids := offer_bids hin s.now frame.sequence frame s.settings.offerTimeout s.settings.expireTimeout
    rw [offered] at bids
    cases bids with
    | refused e nextTicket =>
      rw [afterOffer, conclude_request request]
      exact givesBack_nothing starting rfl rfl
    | admitted untaken free =>
      exact (other (.writing frame s.window.nextId) (by rw [draws.same]; rfl) rfl).elim
    | waiting permits p =>
      exact (other (.queued frame p) (by rw [draws.same]; rfl) rfl).elim
  | resumes frame p queued w o resumed =>
    have hback := givesBack_ticket (s := s) queued
    have hresuming := resume_resuming s.window s.now p
    rw [resumed] at hresuming
    cases hresuming with
    | closed | timedOut =>
      rw [afterOffer, conclude_request request]
      exact hback
    | keyTaken unclosed granted taken =>
      rw [Permits.withdraw, if_pos granted] at hback
      rw [afterOffer, conclude_request request]
      exact hback
    | admitted => exact (other (.writing frame s.window.nextId) rfl rfl).elim
    | waiting => exact (other (.queued frame p) rfl rfl).elim
  | writes frame entry writing u sent =>
    exact (other (.awaiting _ _ _) (by rw [setCall, setCall, sent.same]) rfl).elim
  | fails frame entry writing u e failed =>
    rw [conclude_request request] at other ⊢
    cases failed with
    | fails => exact (other (.finished _) rfl rfl).elim
    | overflows cause encode => exact givesBack_entry hs hc writing
  | waits frame since x awaiting none_yet =>
    exact (other c.stage (setCall_self hs.call_ids hc).symm (by rw [awaiting]; rfl)).elim
  | gets frame since x awaiting response found =>
    refine (other (.finished (.received (.ofFrame response))) ?_ rfl).elim
    unfold respondCall
    rw [conclude_ok, request]
    split <;> rfl
  | timesOut | lapses =>
    rw [conclude_request request] at other
    exact (other (.finished _) rfl rfl).elim
  | rests result finished => exact (other c.stage (setCall_self hs.call_ids hc).symm going).elim

/-- Capacity that is handed on is there for the call that has waited longest. -/
theorem frees_of_hands (hin : s.window.permits.InTurn) (ht : t.Covered)
    (hands : s.window.permits.Hands t.window.permits) : s.Frees t where
  next ticket rest hqueue := by
    obtain ⟨hrest, hfree, hgranted⟩ := hands.next ticket rest hqueue
    have hopen : t.window.permits.isClosed = false := by
      rw [hands.isClosed]
      by_contra hclosed
      simp [hin.closed (by simpa using hclosed)] at hqueue
    refine ⟨hrest, hfree, ?_⟩
    have hout : t.window.Has (.ticket ticket) := List.mem_append_right t.window.permits.queue hgranted
    obtain ⟨b, hb, hstake⟩ := ht.owner _ hout
    cases hstage : b.stage with
    | queued frame p =>
      obtain rfl : p.ticket = ticket := by simpa [hstage, CallStage.stake?] using hstake
      refine ⟨b, hb, frame, p, hstage, rfl, ?_, ?_⟩
      · simp [callIsReady, hstage, PendingOffer.isReady, Permits.isSettled, hgranted]
      · simp [Permits.poll, hopen, hgranted]
    | starting | writing | awaiting | finished => simp [hstage, CallStage.stake?] at hstake
  idle := hands.idle

/-! ## Without waiting -/

/-- What a call does before it waits for the first time: if there is room for its frame, the frame goes on its
way out. -/
def startsOff (s : Session) (c : Call) : Session :=
  match (s.stepCall c).findCall? c.id with
  | some b =>
    match b.stage with
    | .writing _ _ => (s.stepCall c).stepCall b
    | _ => s.stepCall c
  | none => s.stepCall c

/-- Where a call gets to in its first step, with what it has done to the window. -/
inductive Begins (s u : Session) : CallStage → Prop where
  | refused (e : SessionError) (nextTicket : Nat)
      (window : u.window = { s.window with permits := { s.window.permits with nextTicket } }) :
      Begins s u (.finished (.failed e))
  | admitted (frame : Frame) (untaken : s.window.contains frame.sequence = false)
      (free : 0 < s.window.permits.free) (window : u.window = { s.window with
        permits := { s.window.permits with free := s.window.permits.free - 1 }
        entries := s.window.entries ++
          [⟨frame.sequence, s.window.nextId, frame, s.now, s.now + s.settings.expireTimeout.nanos⟩]
        nextId := s.window.nextId + 1 }) : Begins s u (.writing frame s.window.nextId)
  | queued (frame : Frame) (p : PendingOffer Frame) (unready : p.isReady u.window s.now = false) :
      Begins s u (.queued frame p)

theorem stepCall_begins (hin : s.window.permits.InTurn) (request : c.purpose = .request)
    (starting : c.stage = .starting) :
    ∃ u stage, s.Quietly c u ∧ s.Begins u stage ∧ s.stepCall c = u.setCall c.id stage := by
  have hacts := stepCall_acts s c
  generalize s.stepCall c = t at hacts ⊢
  cases hacts with
  | declines _ u draws e =>
    refine ⟨u, _, .of_draws draws, .refused e s.window.permits.nextTicket ?_, conclude_request request u e⟩
    rw [draws.same]
  | offers _ u draws frame w o offered =>
    have hquietly : s.Quietly c { u with window := w } := (Quietly.of_draws draws).of_window w
    have bids := offer_bids hin s.now frame.sequence frame s.settings.offerTimeout s.settings.expireTimeout
    rw [offered] at bids
    cases bids with
    | refused e nextTicket =>
      exact ⟨_, _, hquietly.measure (.windowOffer "rejected"), .refused _ nextTicket rfl,
        conclude_request request _ _⟩
    | admitted untaken free =>
      exact ⟨_, _, hquietly.measure (.windowOffer "accepted"), .admitted frame untaken free rfl, rfl⟩
    | waiting permits p unready => exact ⟨_, _, hquietly, .queued frame p unready, rfl⟩
  | resumes _ _ stage | writes _ _ stage | fails _ _ stage => simp [starting] at stage
  | waits _ _ _ stage | gets _ _ _ stage => simp [starting] at stage
  | timesOut _ _ _ stage | lapses _ _ _ stage => simp [starting] at stage
  | rests _ stage => simp [starting] at stage

/-- A frame that cannot be encoded is given up. The other ends of a write are no refusals. -/
theorem Acts.overflows_of_refused (h : s.Acts c t) (hids : (s.calls.map (·.id)).Nodup) (hc : c ∈ s.calls)
    (request : c.purpose = .request) {frame : Frame} {entry : Nat} (writing : c.stage = .writing frame entry)
    {b : Call} (hb : b ∈ t.calls) (hid : b.id = c.id) (refused : b.stage.isRefused = true) :
    ∃ e, t = ({ s.measure (.pduError "encode") with
      window := (s.window.withdraw frame.sequence entry).1 }).setCall c.id (.finished (.failed e)) := by
  cases h with
  | writes f n stage u sent =>
    have hstage := stage_of_setCall hids hc (by rw [setCall, setCall, sent.same]) hb hid
    simp [hstage, CallStage.isRefused] at refused
  | fails f n stage u e failed =>
    obtain ⟨rfl, rfl⟩ : frame = f ∧ entry = n := by simpa [writing] using stage
    rw [conclude_request request] at hb ⊢
    cases failed with
    | fails =>
      have hstage : b.stage = .finished (.failed (.channel .closed)) := stage_of_setCall hids hc rfl hb hid
      rw [hstage] at refused
      cases refused
    | overflows cause encode => exact ⟨_, rfl⟩
  | declines stage | offers stage => simp [writing] at stage
  | resumes _ _ stage => simp [writing] at stage
  | waits _ _ _ stage | gets _ _ _ stage => simp [writing] at stage
  | timesOut _ _ _ stage | lapses _ _ _ stage => simp [writing] at stage
  | rests _ stage => simp [writing] at stage

theorem step_callOf (hids : (s.calls.map (·.id)).Nodup) (hc : c ∈ s.calls) :
    s.step (.move (.call c.id)) = if s.callIsReady c then s.stepCall c else s := by
  have hfound := findCall?_of_mem hids hc
  have hcan : s.can (.call c.id) = s.callIsReady c := by rw [can, hfound, Option.any_some]
  rw [step, hcan]
  split
  · rw [move, hfound]
  · rfl

section AtOnce

variable (hs : s.Orderly) (hin : s.window.permits.InTurn) (hc : c ∈ s.calls) (request : c.purpose = .request)
  (starting : c.stage = .starting)
include hs hin hc request starting

theorem startsOff_cases : ∃ u stage, s.Quietly c u ∧ s.Begins u stage ∧
    s.step (.move (.call c.id)) = u.setCall c.id stage ∧ (u.setCall c.id stage).Orderly ∧
    { c with stage } ∈ (u.setCall c.id stage).calls ∧
    s.startsOff c = match stage with
      | .writing _ _ => (u.setCall c.id stage).stepCall { c with stage }
      | _ => u.setCall c.id stage := by
  obtain ⟨u, stage, quietly, begins, hfirst⟩ := stepCall_begins hin request starting
  have hstep : s.step (.move (.call c.id)) = u.setCall c.id stage := by
    rw [step_callOf hs.call_ids hc, if_pos (by simp [callIsReady, starting]), hfirst]
  have horderly : (u.setCall c.id stage).Orderly := by
    rw [← hstep]
    exact step_orderly hs _
  have hmem : { c with stage } ∈ (u.setCall c.id stage).calls :=
    mem_setCall_self (by rwa [quietly.calls]) stage
  refine ⟨u, stage, quietly, begins, hstep, horderly, hmem, ?_⟩
  have hfound : (u.setCall c.id stage).findCall? c.id = some { c with stage } :=
    findCall?_of_mem horderly.call_ids hmem
  rw [startsOff, hfirst, hfound]

/-- A call that is refused without having waited leaves the session as it was. -/
theorem startsOff_untouched {b : Call} (hb : b ∈ (s.startsOff c).calls) (hid : b.id = c.id)
    (refused : b.stage.isRefused = true) : s.Untouched c (s.startsOff c) := by
  obtain ⟨u, stage, quietly, begins, -, horderly, hmem, hstarts⟩ := startsOff_cases hs hin hc request starting
  rw [hstarts] at hb ⊢
  cases begins with
  | refused e nextTicket window =>
    refine quietly.untouched ?_ _
    rw [window]
  | queued frame p =>
    obtain rfl := List.inj_on_of_nodup_map horderly.call_ids hb hmem hid
    simp [CallStage.isRefused] at refused
  | admitted frame untaken free window =>
    have hacts := stepCall_acts (u.setCall c.id (.writing frame s.window.nextId))
      { c with stage := .writing frame s.window.nextId }
    obtain ⟨e, hoverflows⟩ := hacts.overflows_of_refused horderly.call_ids hmem request rfl hb hid refused
    have hrestored := withdraw_admitted hs.sound hin untaken free frame s.now
      (s.now + s.settings.expireTimeout.nanos)
    rw [← window] at hrestored
    dsimp only
    rw [hoverflows]
    show s.Untouched c ((({ u.measure (.pduError "encode") with
      window := (u.window.withdraw frame.sequence s.window.nextId).1 }).setCall c.id
        (.writing frame s.window.nextId)).setCall c.id (.finished (.failed e)))
    rw [hrestored, setCall_setCall]
    exact ((quietly.measure (.pduError "encode")).of_window _).untouched rfl _

/-- A call that is refused in its first step, or in a second that follows at once, has not waited. -/
theorem eq_startsOff (ht : t = s.step (.move (.call c.id)) ∨
      t = (s.step (.move (.call c.id))).step (.move (.call c.id)))
    {b : Call} (hb : b ∈ t.calls) (hid : b.id = c.id) (refused : b.stage.isRefused = true) :
    t = s.startsOff c := by
  obtain ⟨u, stage, quietly, begins, hstep, horderly, hmem, hstarts⟩ :=
    startsOff_cases hs hin hc request starting
  have hsecond := step_callOf horderly.call_ids hmem
  rw [hstep] at ht
  dsimp only at hsecond
  rw [hsecond] at ht
  -- Where the second step is not possible, the call is still where the first has led it.
  have hfirst (h : t = u.setCall c.id stage) : stage.isRefused = true := by
    rw [h] at hb
    obtain rfl := List.inj_on_of_nodup_map horderly.call_ids hb hmem hid
    exact refused
  have hnow : u.now = s.now := by rw [quietly.beside]
  rw [hstarts]
  cases begins with
  | refused => simpa [callIsReady] using ht
  | queued frame p unready =>
    rw [← hnow] at unready
    have := hfirst (by simpa [callIsReady, setCall, unready] using ht)
    cases this
  | admitted frame =>
    rcases ht with ht | ht
    · have := hfirst ht
      cases this
    · split at ht
      · exact ht
      · have := hfirst ht
        cases this

end AtOnce

/-! ## The request of a close -/

/-- The request of the call has been refused. -/
def HasRefused (s : Session) (c : Call) : Prop := ∃ b ∈ s.calls, b.id = c.id ∧ b.stage.isRefused = true

/-- The request of the close `c` is refused in its step after the first `k` of `xs`. Until the close disconnects
it leaves everybody else alone. -/
structure ClosesAlone (s : Session) (xs : List Step) (k : Nat) (c : Call) : Prop where
  steps : ∀ i < k, xs[i]? = some (.move (.call c.id)) → (s.before xs i).Apart c.id (s.before xs (i + 1))
  last : (s.before xs k).Apart c.id ((s.before xs k).attempt c)
  capacity : (s.before xs k).GivesBack c ((s.before xs k).attempt c).window.permits
  atOnce : c.stage = .starting → (s.before xs k).Untouched c.asRequest ((s.before xs k).attempt c)

section Close

variable (hs : s.Orderly) (hin : s.window.permits.InTurn) (hc : c ∈ s.calls) (refuses : (s.attempt c).HasRefused c)
include hs hc refuses

theorem attempt_stage {stage : CallStage} (calls : (s.attempt c).calls = (s.setCall c.id stage).calls) :
    stage.isRefused = true := by
  obtain ⟨b, hb, hid, hrefused⟩ := refuses
  rwa [← stage_of_setCall hs.call_ids hc calls hb hid]

theorem attempt_apart : c.stage.isPast = false ∧ s.Apart c.id (s.attempt c) := by
  cases Acts.apart_or_past (c := c.asRequest) hc (stepCall_acts s c.asRequest) hs with
  | apart unpast apart => exact ⟨unpast, apart⟩
  | past stage calls past =>
    rw [CallStage.isPast_of_isRefused (attempt_stage hs hc refuses calls)] at past
    cases past

include hin

theorem attempt_givesBack (going : ∀ result, c.stage ≠ .finished result) :
    s.GivesBack c (s.attempt c).window.permits := by
  have hgoing : c.stage.isRefused = false := by
    cases hstage : c.stage with
    | finished result => exact absurd hstage (going result)
    | starting | queued | writing | awaiting => rfl
  have hacts : s.Acts c.asRequest (s.attempt c) := stepCall_acts s c.asRequest
  exact hacts.givesBack (c := c.asRequest) hs hc rfl hin
    (fun stage calls => attempt_stage hs hc refuses calls) hgoing

theorem attempt_untouched (starting : c.stage = .starting) : s.Untouched c.asRequest (s.attempt c) := by
  obtain ⟨u, stage, quietly, begins, hstep⟩ := stepCall_begins (c := c.asRequest) hin rfl starting
  have hstage : stage.isRefused = true := attempt_stage hs hc refuses (by
    rw [attempt, hstep, setCall, setCall, quietly.calls])
  rw [attempt, hstep]
  cases begins with
  | refused e nextTicket window =>
    refine quietly.untouched ?_ _
    rw [window]
  | admitted | queued => cases hstage

end Close

/-! ## Every run -/

/-- Every place in the window is that of a call that was not refused. -/
theorem others_of_refused (hs : s.Orderly) (h : s.Covered) (hc : c ∈ s.calls) (refused : c.Refused) {r : Stake}
    (hr : s.window.Has r) : ∃ b ∈ s.calls, b.id ≠ c.id ∧ b.stage.stake? = some r := by
  obtain ⟨b, hb, hstake⟩ := h.owner r hr
  refine ⟨b, hb, fun hid => ?_, hstake⟩
  obtain rfl := List.inj_on_of_nodup_map hs.call_ids hb hc hid
  rw [refused.stake?] at hstake
  cases hstake

section Run

variable (hs : s.Orderly) (hcovered : s.Covered) (first : s.window.entries = [])
include hs first

theorem removes_own {j k : Nat} (hc : c ∈ (s.before xs j).calls) (refused : c.Refused) (hkj : k < j)
    (hx : xs[k]? = some (.move (.call c.id))) {e : Entry Frame} (present : e ∈ (s.before xs k).window.entries)
    (absent : e ∉ (s.before xs (k + 1)).window.entries) : s.Inserts xs k c.id e := by
  obtain ⟨gone, fresh, turns, own⟩ := (apart_of_refused hs hc refused hkj hx).turns
  have hgone : gone e = true := by
    by_contra hstays
    exact absent (turns.mem_iff.mpr (.inl ⟨present, by simpa using hstays⟩))
  obtain ⟨b, hb, hid, holds⟩ := own e present hgone
  rw [← hid]
  exact inserts_of_holds hs first hb present holds

/-- Another call stays where it is in such a step, and so does its entry. -/
theorem keeps_others {j k : Nat} (hc : c ∈ (s.before xs j).calls) (refused : c.Refused) (hkj : k < j)
    (hx : xs[k]? = some (.move (.call c.id))) {b : Call} (hb : b ∈ (s.before xs k).calls) (hne : b.id ≠ c.id) :
    b ∈ (s.before xs (k + 1)).calls ∧
      ∀ e ∈ (s.before xs k).window.entries, b.holds e = true → e ∈ (s.before xs (k + 1)).window.entries := by
  constructor
  · have hothers := (apart_of_refused hs hc refused hkj hx).others
    have hmem : b ∈ (s.before xs k).calls.filter (·.id ≠ c.id) := List.mem_filter.mpr ⟨hb, by simpa using hne⟩
    rw [← hothers] at hmem
    exact List.mem_of_mem_filter hmem
  · intro e he holds
    by_contra absent
    have hown := removes_own hs first hc refused hkj hx he absent
    exact hne ((inserts_of_holds hs first hb he holds).eq hs hown)

include hcovered

theorem nothing_left {j : Nat} (hc : c ∈ (s.before xs j).calls) (refused : c.Refused) {e : Entry Frame}
    (inserts : s.Inserts xs j c.id e) : e ∉ (s.before xs j).window.entries := by
  intro present
  have hj : (s.before xs j).Orderly := before_orderly hs j
  have hplaces : (s.before xs j).Covered := before_covered hs hcovered j
  obtain ⟨b, hb, hne, hstake⟩ := others_of_refused (r := .entry e.id) hj hplaces hc refused ⟨e, present, rfl⟩
  obtain ⟨f, hentry⟩ := CallStage.stake?_eq_entry.mp hstake
  have hown := inserts_of_holds hs first hb present (by simp [Call.holds_of_entry hentry])
  exact hne (hown.eq hs inserts)

end Run

/-- The capacity of a call that is refused goes on in the same step. -/
theorem capacity_of_refused (hs : s.Orderly) (hin : s.window.permits.InTurn) {k : Nat}
    {b : Call} (hb : b ∈ (s.before xs k).calls) (going : ¬ b.Refused) (hc : c ∈ (s.before xs (k + 1)).calls)
    (hid : c.id = b.id) (refused : c.Refused) :
    (s.before xs k).GivesBack b (s.before xs (k + 1)).window.permits := by
  have hk : (s.before xs k).Orderly := before_orderly hs k
  have request : b.purpose = .request := by
    rw [← (later_call hs (Nat.le_succ k) hb hc hid).1, refused.request]
  cases hx : xs[k]? with
  | none =>
    rw [before_succ_of_none hx] at hc
    obtain rfl := List.inj_on_of_nodup_map hk.call_ids hc hb hid
    exact absurd refused going
  | some x =>
    rw [before_succ hx] at hc ⊢
    rcases eq_or_own_step hk hb hc hid with rfl | ⟨-, -, hstep⟩
    · exact absurd refused going
    · rw [hstep] at hc ⊢
      refine (stepCall_acts _ b).givesBack hk hb request (before_inTurn hs hin k) (fun stage calls => ?_) ?_
      · rw [← stage_of_setCall hk.call_ids hb calls hc hid]
        exact refused.stage
      · by_contra hstage
        exact going ⟨request, by simpa using hstage⟩

/-- In the run `xs` from `s` calls that are refused leave everybody else alone. -/
structure LeavesAlone (s : Session) (xs : List Step) : Prop where
  /-- Each of its steps concerns nobody else, and takes out only what an earlier one has brought in. -/
  steps : ∀ j c, c ∈ (s.before xs j).calls → c.Refused → ∀ k < j, xs[k]? = some (.move (.call c.id)) →
    (s.before xs k).Apart c.id (s.before xs (k + 1)) ∧
      ∀ e ∈ (s.before xs k).window.entries, e ∉ (s.before xs (k + 1)).window.entries → s.Inserts xs k c.id e
  /-- So the others stay where they are, with their deadlines, and with their entries as they were. -/
  pending : ∀ j c, c ∈ (s.before xs j).calls → c.Refused → ∀ k < j, xs[k]? = some (.move (.call c.id)) →
    ∀ b ∈ (s.before xs k).calls, b.id ≠ c.id → b ∈ (s.before xs (k + 1)).calls ∧
      ∀ e ∈ (s.before xs k).window.entries, b.holds e = true → e ∈ (s.before xs (k + 1)).window.entries
  /-- Nothing that it has brought in is there any more, and every place in the window is somebody else's. -/
  nothing : ∀ j c, c ∈ (s.before xs j).calls → c.Refused →
    (∀ e, s.Inserts xs j c.id e → e ∉ (s.before xs j).window.entries) ∧
      ∀ r, (s.before xs j).window.Has r →
        ∃ b ∈ (s.before xs j).calls, b.id ≠ c.id ∧ b.stage.stake? = some r
  /-- In the step in which it is refused its capacity goes on to the next. -/
  capacity : ∀ k b c, b ∈ (s.before xs k).calls → ¬ b.Refused → c ∈ (s.before xs (k + 1)).calls →
    c.id = b.id → c.Refused →
    ((s.before xs k).Occupies b → (s.before xs k).Frees (s.before xs (k + 1))) ∧
      (¬ (s.before xs k).Occupies b →
        (s.before xs (k + 1)).window.permits.free = (s.before xs k).window.permits.free ∧
        (s.before xs (k + 1)).window.permits.granted = (s.before xs k).window.permits.granted)
  /-- One that has not waited leaves nothing behind. -/
  atOnce : ∀ k c, c ∈ (s.before xs k).calls → c.purpose = .request → c.stage = .starting →
    ∀ b ∈ ((s.before xs k).startsOff c).calls, b.id = c.id → b.Refused →
      (s.before xs k).Untouched c ((s.before xs k).startsOff c)
  /-- That is so in the run, where no step of another comes between. -/
  prompt : ∀ k l c, c ∈ (s.before xs k).calls → c.purpose = .request → c.stage = .starting →
    xs[k]? = some (.move (.call c.id)) → (l = k + 1 ∨ l = k + 2 ∧ xs[k + 1]? = some (.move (.call c.id))) →
    ∀ b ∈ (s.before xs l).calls, b.id = c.id → b.Refused → (s.before xs k).Untouched c (s.before xs l)
  /-- A close goes on as its request does, which may be refused as well, and then disconnects. -/
  closes : ∀ k c, c ∈ (s.before xs k).calls → c.purpose = .close → xs[k]? = some (.move (.call c.id)) →
    (s.before xs k).callIsReady c = true →
    s.before xs (k + 1) = ((s.before xs k).attempt c).endClose c ∧
      (((s.before xs k).attempt c).HasRefused c → s.ClosesAlone xs k c)

/-- **A refused request leaves everybody else alone**: in every run of a session. -/
theorem leaves_alone (id : UInt32) (peer : Option SocketAddress) (serverSystemId : String)
    (settings : SessionSettings) (processor : Nat) (now : Instant) (xs : List Step) :
    (fresh id peer serverSystemId settings processor now).LeavesAlone xs := by
  have hs := fresh_orderly id peer serverSystemId settings processor now
  have hcovered := fresh_covered id peer serverSystemId settings processor now
  have hin : (fresh id peer serverSystemId settings processor now).window.permits.InTurn :=
    Permits.inTurn_ofCapacity settings.windowSize
  have first : (fresh id peer serverSystemId settings processor now).window.entries = [] := rfl
  generalize fresh id peer serverSystemId settings processor now = s at *
  have hk (k : Nat) : (s.before xs k).Orderly := before_orderly hs k
  have hkin (k : Nat) : (s.before xs k).window.permits.InTurn := before_inTurn hs hin k
  have hkcovered (k : Nat) : (s.before xs k).Covered := before_covered hs hcovered k
  exact {
    steps := fun j c hc refused k hkj hx =>
      ⟨apart_of_refused hs hc refused hkj hx, fun e => removes_own hs first hc refused hkj hx⟩
    pending := fun j c hc refused k hkj hx b hb => keeps_others hs first hc refused hkj hx hb
    nothing := fun j c hc refused => ⟨fun e => nothing_left hs hcovered first hc refused,
      fun r => others_of_refused (hk j) (hkcovered j) hc refused⟩
    capacity := fun k b c hb going hc hid refused => by
      obtain ⟨held, unheld⟩ := capacity_of_refused hs hin hb going hc hid refused
      exact ⟨fun occupies => frees_of_hands (hkin k) (hkcovered (k + 1)) (held occupies), unheld⟩
    atOnce := fun k c hc request starting b hb hid refused =>
      startsOff_untouched (hk k) (hkin k) hc request starting hb hid refused.stage
    prompt := fun k l c hc request starting hx hl b hb hid refused => by
      have hsteps : s.before xs l = (s.before xs k).step (.move (.call c.id)) ∨
          s.before xs l = ((s.before xs k).step (.move (.call c.id))).step (.move (.call c.id)) := by
        rcases hl with rfl | ⟨rfl, hx'⟩
        · exact .inl (before_succ hx)
        · exact .inr (by rw [before_succ hx', before_succ hx])
      have heq := eq_startsOff (hk k) (hkin k) hc request starting hsteps hb hid refused.stage
      rw [heq] at hb ⊢
      exact startsOff_untouched (hk k) (hkin k) hc request starting hb hid refused.stage
    closes := fun k c hc closing hx ready => by
      have hgoing : ∀ result, c.stage ≠ .finished result := fun result finished => by
        simp [callIsReady, finished] at ready
      refine ⟨?_, fun refuses => ?_⟩
      · rw [before_succ hx, step_callOf (hk k).call_ids hc, if_pos ready, stepCall_eq hc (hk k).call_ids hgoing]
      · obtain ⟨unpast, last⟩ := attempt_apart (hk k) hc refuses
        exact {
          steps := fun i hik hx => apart_of_unpast hs hc unpast hik hx
          last := last
          capacity := attempt_givesBack (hk k) (hkin k) hc refuses hgoing
          atOnce := attempt_untouched (hk k) (hkin k) hc refuses } }

/-- A request is refused because its number is pending. The one that has the number waits on. -/
example :
    let s := fresh 1 none "smsc" ⟨10, ⟨1000⟩, ⟨1000⟩, ⟨1000⟩⟩ 0 0
    let waiting := s.after (greeting ++ [.feel (.send ⟨some 7, .enquireLink⟩ ⟨1000⟩), .move (.call 1),
      .move (.call 1), .feel (.send ⟨some 7, .enquireLink⟩ ⟨1000⟩)])
    let refused := waiting.step (.move (.call 2))
    refused.calls.map (·.stage.isRefused) = [false, true] ∧ refused.calls.map (·.isWaiting) = [true, false] ∧
      refused.window.permits.free = waiting.window.permits.free ∧
      refused.window.entries.map (·.expireAt) = waiting.window.entries.map (·.expireAt) := by
  decide +kernel

end Smsc.Session
