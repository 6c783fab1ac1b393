import Smsc.Proofs.Session.Places

/-!
# Smsc.Proofs.Session.Leaks — no place in the window is left behind

When a session is at rest, what its window lists are the calls that were admitted and are not over. There
is one exception. A frame may be on its way out for long, and its entry may be taken in the meantime, by
an early response, a sweep or the end of the session; the call finds that out when the write is over.

* `atRest_iff`: rest can be decided;
* `Session.overtook s c`: the exception; `Session.outstanding s`: the numbers that the window should list;
* `NoLeak s xs`, `no_leak`: every run;
* `overtaken_while_writing`: the exception happens, and a number may be in use that a call ended with.
-/

namespace Smsc

/-- The number under which a call was admitted, until its end. -/
def CallStage.admitted? (stage : CallStage) : Option UInt32 := stage.entry?.map (·.1.sequence)

theorem CallStage.admitted?_eq_some {stage : CallStage} {key : UInt32} :
    stage.admitted? = some key ↔ ∃ f n, stage.entry? = some (f, n) ∧ f.sequence = key := by
  simp [admitted?]

namespace Session

open Window

variable {s : Session}

/-! ## Rest -/

theorem atRest_iff : s.AtRest ↔
    (∀ m ∈ [ReaderMove.stop, .read, .sweep, .proceed], s.readerCan m = false) ∧
      (∀ c ∈ s.calls, s.can (.call c.id) = false) ∧ ∀ a ∈ s.answers, s.can (.answer a.id) = false := by
  constructor
  · intro rest
    exact ⟨fun m _ => rest (.reader m), fun c _ => rest (.call c.id), fun a _ => rest (.answer a.id)⟩
  · rintro ⟨hreader, hcalls, hanswers⟩ m
    cases m with
    | reader m => exact hreader m (by cases m <;> simp)
    | call id =>
      cases hfound : s.findCall? id with
      | none => simp [can, hfound]
      | some c =>
        have hid : c.id = id := by simpa using List.find?_some hfound
        rw [← hid]
        exact hcalls c (List.mem_of_find?_eq_some hfound)
    | answer id =>
      cases hfound : s.findAnswer? id with
      | none => simp [can, hfound]
      | some a =>
        have hid : a.id = id := by simpa using List.find?_some hfound
        rw [← hid]
        exact hanswers a (List.mem_of_find?_eq_some hfound)

instance (s : Session) : Decidable s.AtRest := decidable_of_iff' _ atRest_iff

/-- Ids that differ find everybody. -/
theorem find?_of_mem {α : Type} {xs : List α} {id : α → Nat} (hids : (xs.map id).Nodup) {a : α}
    (ha : a ∈ xs) : xs.find? (fun b => decide (id b = id a)) = some a := by
  cases hfound : xs.find? fun b => decide (id b = id a) with
  | none =>
    have hnone := List.find?_eq_none.mp hfound a ha
    simp at hnone
  | some b =>
    have hid : id b = id a := by simpa using List.find?_some hfound
    rw [List.inj_on_of_nodup_map hids (List.mem_of_find?_eq_some hfound) ha hid]

theorem findCall?_of_mem (hids : (s.calls.map (·.id)).Nodup) {c : Call} (hc : c ∈ s.calls) :
    s.findCall? c.id = some c :=
  find?_of_mem hids hc

theorem findAnswer?_of_mem (hids : (s.answers.map (·.id)).Nodup) {a : Answer} (ha : a ∈ s.answers) :
    s.findAnswer? a.id = some a :=
  find?_of_mem hids ha

/-- At rest no call is able to go on. -/
theorem AtRest.call (rest : s.AtRest) (hs : s.Orderly) {c : Call} (hc : c ∈ s.calls) :
    s.callIsReady c = false := by
  have hcan := rest (.call c.id)
  rwa [can, findCall?_of_mem hs.call_ids hc] at hcan

/-- At rest no late reply is able to go on. -/
theorem AtRest.answer (rest : s.AtRest) (hids : (s.answers.map (·.id)).Nodup) {a : Answer}
    (ha : a ∈ s.answers) : s.answerIsReady a = false := by
  have hcan := rest (.answer a.id)
  rwa [can, findAnswer?_of_mem hids ha] at hcan

/-- At rest every permit that was granted has been picked up. -/
theorem AtRest.granted (rest : s.AtRest) (hs : s.Orderly) (h : s.Covered) :
    s.window.permits.granted = [] := by
  refine List.eq_nil_iff_forall_not_mem.mpr fun t ht => ?_
  have hticket : s.window.Has (.ticket t) := List.mem_append_right s.window.permits.queue ht
  obtain ⟨c, hc, hstake⟩ := h.owner _ hticket
  have hready := rest.call hs hc
  cases hstage : c.stage with
  | queued frame p =>
    obtain rfl : p.ticket = t := by simpa [hstage, CallStage.stake?] using hstake
    simp [callIsReady, hstage, PendingOffer.isReady, Permits.isSettled, ht] at hready
  | starting | writing | awaiting | finished => simp [hstage, CallStage.stake?] at hstake

/-- At rest nothing is settled for a call that waits for its response. -/
theorem AtRest.unsettled (rest : s.AtRest) (hs : s.Orderly) {c : Call} (hc : c ∈ s.calls) {frame : Frame}
    {since : Instant} {x : Waiter} (stage : c.stage = .awaiting frame since x) :
    s.window.outcome? x.id = none := by
  have hready := rest.call hs hc
  have hboth : ¬ (s.window.outcome? x.id).isSome = true ∧ ¬ x.deadline ≤ s.now := by
    simpa [callIsReady, stage, Waiter.isReady] using hready
  simpa using hboth.1

/-! ## What the window should list -/

/-- Somebody has taken the entry of the call while its frame is still on its way out. -/
def overtook (s : Session) (c : Call) : Bool :=
  match c.stage with
  | .writing _ entry => s.window.entries.all (·.id ≠ entry)
  | _ => false

/-- The numbers of the calls that were admitted and are not over, but for those that were overtaken. -/
def outstanding (s : Session) : List UInt32 :=
  (s.calls.filter fun c => !s.overtook c).filterMap (·.stage.admitted?)

theorem mem_outstanding {key : UInt32} :
    key ∈ s.outstanding ↔ ∃ c ∈ s.calls, s.overtook c = false ∧ c.stage.admitted? = some key := by
  simp [outstanding, and_assoc]

/-- The call whose entry is in the table. -/
theorem Covered.call (h : s.Covered) (hs : s.Orderly) {e : Entry Frame} (he : e ∈ s.window.entries) :
    ∃ c ∈ s.calls, ∃ f, c.stage.entry? = some (f, e.id) ∧ f.sequence = e.key := by
  obtain ⟨c, hc, hstake⟩ := h.owner (.entry e.id) ⟨e, he, rfl⟩
  obtain ⟨f, hentry⟩ := CallStage.stake?_eq_entry.mp hstake
  exact ⟨c, hc, f, hentry, (hs.entry_key c hc f e.id hentry e he rfl).1.symm⟩

/-- At rest the entry of a call that was not overtaken is in the table. -/
theorem AtRest.entry (rest : s.AtRest) (hs : s.Orderly) (h : s.Covered) {c : Call} (hc : c ∈ s.calls)
    (hkept : s.overtook c = false) {f : Frame} {n : Nat} (hentry : c.stage.entry? = some (f, n)) :
    ∃ e ∈ s.window.entries, e.key = f.sequence ∧ e.id = n := by
  cases hstage : c.stage with
  | writing frame entry =>
    obtain ⟨rfl, rfl⟩ : frame = f ∧ entry = n := by simpa [hstage, CallStage.entry?] using hentry
    have hfound : ∃ e ∈ s.window.entries, e.id = entry := by simpa [overtook, hstage] using hkept
    obtain ⟨e, he, hid⟩ := hfound
    exact ⟨e, he, (hs.entry_key c hc frame entry hentry e he hid).1, hid⟩
  | awaiting frame since x =>
    obtain ⟨rfl, rfl⟩ : frame = f ∧ x.id = n := by simpa [hstage, CallStage.entry?] using hentry
    exact (h.held c hc frame x.id hentry).found (rest.unsettled hs hc hstage)
  | starting | queued | finished => simp [hstage, CallStage.entry?] at hentry

/-- No number is outstanding twice. -/
theorem AtRest.outstanding_nodup (rest : s.AtRest) (hs : s.Orderly) (h : s.Covered) :
    s.outstanding.Nodup := by
  have hcalls : (s.calls.filter fun c => !s.overtook c).Nodup := (hs.call_ids.of_map _).filter _
  refine List.pairwise_filterMap.mpr (hcalls.pairwise_of_forall_ne fun a ha b hb hne => ?_)
  intro key hkey key' hkey' heq
  subst heq
  obtain ⟨ha, hakept⟩ := List.mem_filter.mp ha
  obtain ⟨hb, hbkept⟩ := List.mem_filter.mp hb
  obtain ⟨f, n, hf, hfkey⟩ := CallStage.admitted?_eq_some.mp hkey
  obtain ⟨g, m, hg, hgkey⟩ := CallStage.admitted?_eq_some.mp hkey'
  -- Two calls under one number have one entry, and an entry has one call.
  obtain ⟨e, he, hekey, heid⟩ := rest.entry hs h ha (by simpa using hakept) hf
  obtain ⟨e', he', hekey', heid'⟩ := rest.entry hs h hb (by simpa using hbkept) hg
  have hsame : e = e' := hs.sound.eq_of_key he he' (by rw [hekey, hekey', hfkey, hgkey])
  have hentry : b.stage.entry? = some (g, n) := by rw [hg, ← heid', ← hsame, heid]
  have hid : a.id = b.id := hs.entry_own a ha b hb n ⟨f, hf⟩ ⟨g, hentry⟩
  exact hne (List.inj_on_of_nodup_map hs.call_ids ha hb hid)

/-- At rest the window lists what is outstanding. -/
theorem AtRest.keys (rest : s.AtRest) (hs : s.Orderly) (h : s.Covered) :
    (s.window.entries.map (·.key)).Perm s.outstanding := by
  refine (List.perm_ext_iff_of_nodup hs.sound.keys (rest.outstanding_nodup hs h)).mpr fun key => ?_
  rw [mem_outstanding]
  constructor
  · intro hkey
    obtain ⟨e, he, rfl⟩ := List.mem_map.mp hkey
    obtain ⟨c, hc, f, hentry, hsequence⟩ := h.call hs he
    refine ⟨c, hc, ?_, CallStage.admitted?_eq_some.mpr ⟨f, e.id, hentry, hsequence⟩⟩
    cases hstage : c.stage with
    | writing frame entry =>
      obtain ⟨-, rfl⟩ : frame = f ∧ entry = e.id := by simpa [hstage, CallStage.entry?] using hentry
      have hfound : ∃ a ∈ s.window.entries, a.id = e.id := ⟨e, he, rfl⟩
      simpa [overtook, hstage] using hfound
    | starting | queued | awaiting | finished => simp [overtook, hstage]
  · rintro ⟨c, hc, hkept, hadmitted⟩
    obtain ⟨f, n, hentry, hsequence⟩ := CallStage.admitted?_eq_some.mp hadmitted
    obtain ⟨e, he, hkey, -⟩ := rest.entry hs h hc hkept hentry
    exact List.mem_map.mpr ⟨e, he, hkey.trans hsequence⟩

/-! ## Runs -/

/-- A transceiver is bound, and the first sweep is over. -/
def greeting : List Step :=
  [.feel (.arrive [0, 0, 0, 24, 0, 0, 0, 9, 0, 0, 0, 0, 0, 0, 0, 1, 97, 0, 0, 0, 0x34, 0, 0, 0]),
    .move (.reader .sweep), .move (.reader .read), .feel (.begin ⟨[.send .ok], .handled⟩),
    .move (.reader .proceed), .move (.reader .proceed), .move (.reader .proceed)]

end Session

end Smsc
