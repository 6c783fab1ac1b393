import Mathlib.Data.Set.Function
import Smsc.Proofs.Session.Duties

/-!
# Smsc.Proofs.Session.OneReply — one reply for a request

Numbers come again, so a reply is matched with the place in the history where its request was received.
Every responder has such a place of its own, and so has a refusal; a reply that is written pays for the
place it came from, and no place is paid for twice.

* `Session.Asks s p q`, `Session.Replied s i`: places of requests and of responses in the history;
* `Ledger s origin pays`: the invariant, `Ledger.step`;
* `OneReply`, `one_reply_per_request`: what it comes to.
-/

namespace Smsc.Session

variable {s t : Session}

/-- What has happened, the oldest first. -/
def history (s : Session) : List SessionEvent := s.log.reverse

/-- The request `q` was received at the place `p`. -/
def Asks (s : Session) (p : Nat) (q : Frame) : Prop :=
  s.history[p]? = some (.received q) ∧ q.isResponse = false

/-- A response was written at the place `i`. -/
def Replied (s : Session) (i : Nat) : Prop :=
  ∃ f octets, s.history[i]? = some (.wrote f octets) ∧ f.isResponse = true

/-! ## The history grows -/

theorem history_append {new : List SessionEvent} (log : t.log = new ++ s.log) :
    t.history = s.history ++ new.reverse := by
  rw [history, log, List.reverse_append, history]

theorem Quiet.history_getElem? (h : s.Quiet t) {p : Nat} {e : SessionEvent}
    (hp : s.history[p]? = some e) : t.history[p]? = some e := by
  obtain ⟨new, log, -⟩ := h
  rw [history_append log, List.getElem?_append_left (List.getElem?_eq_some_iff.mp hp).1, hp]

theorem Quiet.replied (h : s.Quiet t) {i : Nat} {f : Frame} {octets : List UInt8}
    (hi : t.history[i]? = some (.wrote f octets)) (hf : f.isResponse = true) :
    s.history[i]? = some (.wrote f octets) := by
  obtain ⟨new, log, quiet⟩ := h
  rw [history_append log, List.getElem?_append] at hi
  split at hi
  · exact hi
  · have hmem := quiet _ (List.mem_reverse.mp (List.mem_of_getElem? hi))
    simp [SessionEvent.IsQuiet, hf] at hmem

theorem Quiet.asks (h : s.Quiet t) {p : Nat} {q : Frame} (hp : s.Asks p q) : t.Asks p q :=
  ⟨h.history_getElem? hp.1, hp.2⟩

theorem Asks.lt {p : Nat} {q : Frame} (h : s.Asks p q) : p < s.history.length :=
  (List.getElem?_eq_some_iff.mp h.1).1

theorem Replied.lt {i : Nat} (h : s.Replied i) : i < s.history.length := by
  obtain ⟨f, octets, hi, -⟩ := h
  exact (List.getElem?_eq_some_iff.mp hi).1

theorem Quiet.replied_iff (h : s.Quiet t) {i : Nat} : t.Replied i ↔ s.Replied i := by
  constructor
  · rintro ⟨f, octets, hi, hf⟩
    exact ⟨f, octets, h.replied hi hf, hf⟩
  · rintro ⟨f, octets, hi, hf⟩
    exact ⟨f, octets, h.history_getElem? hi, hf⟩

/-- At the end of a list there is nothing new but the last. -/
theorem of_getElem?_concat {α : Type} {l : List α} {a x : α} {i : Nat} (h : (l ++ [a])[i]? = some x) :
    l[i]? = some x ∨ i = l.length ∧ x = a := by
  rcases Nat.lt_trichotomy i l.length with hi | rfl | hi
  · rw [List.getElem?_append_left hi] at h
    exact .inl h
  · rw [List.getElem?_concat_length] at h
    exact .inr ⟨rfl, by simpa using h.symm⟩
  · have := (List.getElem?_eq_some_iff.mp h).1
    rw [List.length_append, List.length_singleton] at this
    omega

/-- The event comes to the end of the history. -/
theorem Appends.history {e : SessionEvent} (h : Appends e s t) :
    ∃ u : Session, u.history = s.history ++ [e] ∧ u.Quiet t := by
  obtain ⟨post, log, quiet⟩ := h
  have hnote : (s.note e).log = [e] ++ s.log := rfl
  exact ⟨s.note e, history_append hnote, post, log, quiet⟩

theorem Appends.quiet {e : SessionEvent} (h : Appends e s t) (he : e.IsQuiet) : s.Quiet t := by
  obtain ⟨post, log, quiet⟩ := h
  exact (Quiet.note s he).trans ⟨post, log, quiet⟩

theorem Appends.asks {q : Frame} (h : Appends (.received q) s t) (request : q.isResponse = false) :
    t.Asks s.history.length q := by
  obtain ⟨u, hu, quiet⟩ := h.history
  exact quiet.asks ⟨by rw [hu, List.getElem?_concat_length], request⟩

/-! ## What is paid for -/

/-- Every response in the history pays for a request before it, and no request is paid for twice. -/
structure Paid (s : Session) (pays : Nat → Nat) : Prop where
  written : ∀ i f octets, s.history[i]? = some (.wrote f octets) → f.isResponse = true →
    f.encode = .ok octets ∧ pays i < i ∧ ∃ q, s.Asks (pays i) q ∧ f.Answers q
  once : ∀ i j, s.Replied i → s.Replied j → pays i = pays j → i = j

namespace Paid

variable {pays : Nat → Nat}

theorem quiet (h : s.Paid pays) (hq : s.Quiet t) : t.Paid pays where
  written i f octets hi hf := by
    obtain ⟨hencode, hlt, q, hasks, hanswers⟩ := h.written i f octets (hq.replied hi hf) hf
    exact ⟨hencode, hlt, q, hq.asks hasks, hanswers⟩
  once i j hi hj := h.once i j (hq.replied_iff.mp hi) (hq.replied_iff.mp hj)

theorem lt (h : s.Paid pays) {i : Nat} (hi : s.Replied i) : pays i < s.history.length := by
  have hlt := hi.lt
  obtain ⟨f, octets, hi, hf⟩ := hi
  obtain ⟨-, hpays, -⟩ := h.written i f octets hi hf
  omega

/-- A response at the end of the history pays for a request that is not paid for yet. -/
theorem append (h : s.Paid pays) {f q : Frame} {octets : List UInt8} (encode : f.encode = .ok octets)
    (ht : t.history = s.history ++ [.wrote f octets]) {p : Nat} (asks : s.Asks p q)
    (answers : f.Answers q) (unpaid : ∀ i, s.Replied i → pays i ≠ p) :
    t.Paid (Function.update pays s.history.length p) ∧
      ∀ i, t.Replied i → s.Replied i ∧ i < s.history.length ∨ i = s.history.length := by
  have hold {i : Nat} {e : SessionEvent} (hi : s.history[i]? = some e) : t.history[i]? = some e := by
    rw [ht, List.getElem?_append_left (List.getElem?_eq_some_iff.mp hi).1, hi]
  have hreplied : ∀ i, t.Replied i → s.Replied i ∧ i < s.history.length ∨ i = s.history.length := by
    rintro i ⟨g, octets', hi, hg⟩
    rcases of_getElem?_concat (ht ▸ hi) with hi | ⟨hi, -⟩
    · exact .inl ⟨⟨g, octets', hi, hg⟩, (List.getElem?_eq_some_iff.mp hi).1⟩
    · exact .inr hi
  refine ⟨⟨fun i g octets' hi hg => ?_, fun i j hi hj hij => ?_⟩, hreplied⟩
  · rcases of_getElem?_concat (ht ▸ hi) with hi | ⟨rfl, hgf⟩
    · obtain ⟨hencode, hpays, r, hr, hanswers⟩ := h.written i g octets' hi hg
      rw [Function.update_of_ne (Nat.ne_of_lt (List.getElem?_eq_some_iff.mp hi).1)]
      exact ⟨hencode, hpays, r, ⟨hold hr.1, hr.2⟩, hanswers⟩
    · obtain ⟨rfl, rfl⟩ : g = f ∧ octets' = octets := by simpa using hgf
      rw [Function.update_self]
      exact ⟨encode, asks.lt, q, ⟨hold asks.1, asks.2⟩, answers⟩
  · rcases hreplied i hi with ⟨hi, hilt⟩ | rfl
    · rw [Function.update_of_ne (Nat.ne_of_lt hilt)] at hij
      rcases hreplied j hj with ⟨hj, hjlt⟩ | rfl
      · rw [Function.update_of_ne (Nat.ne_of_lt hjlt)] at hij
        exact h.once i j hi hj hij
      · rw [Function.update_self] at hij
        exact absurd hij (unpaid i hi)
    · rw [Function.update_self] at hij
      rcases hreplied j hj with ⟨hj, hjlt⟩ | rfl
      · rw [Function.update_of_ne (Nat.ne_of_lt hjlt)] at hij
        exact absurd hij.symm (unpaid j hj)
      · rfl

/-- A frame that goes out pays for a request that is not paid for yet, if it is written. -/
theorem posts (h : s.Paid pays) {f q : Frame} (posts : Posts f s t) {p : Nat} (asks : s.Asks p q)
    (answers : f.Answers q) (unpaid : ∀ i, s.Replied i → pays i ≠ p) :
    ∃ pays', t.Paid pays' ∧ ∀ i, t.Replied i → s.Replied i ∧ pays' i = pays i ∨ pays' i = p := by
  rcases posts with quiet | ⟨post, octets, encode, -, log, quiet⟩
  · exact ⟨pays, h.quiet quiet, fun i hi => .inl ⟨quiet.replied_iff.mp hi, rfl⟩⟩
  · obtain ⟨u, hu, quiet⟩ := Appends.history ⟨post, log, quiet⟩
    obtain ⟨hpaid, hreplied⟩ := h.append encode hu asks answers unpaid
    refine ⟨_, hpaid.quiet quiet, fun i hi => ?_⟩
    rcases hreplied i (quiet.replied_iff.mp hi) with ⟨hi, hlt⟩ | rfl
    · exact .inl ⟨hi, Function.update_of_ne (Nat.ne_of_lt hlt) _ _⟩
    · exact .inr (Function.update_self _ _ _)

end Paid

theorem Posts.history_getElem? {f : Frame} (h : Posts f s t) {p : Nat} {e : SessionEvent}
    (hp : s.history[p]? = some e) : t.history[p]? = some e := by
  rcases h with quiet | ⟨post, octets, -, -, log, quiet⟩
  · exact quiet.history_getElem? hp
  · obtain ⟨u, hu, quiet⟩ := Appends.history ⟨post, log, quiet⟩
    refine quiet.history_getElem? ?_
    rw [hu, List.getElem?_append_left (List.getElem?_eq_some_iff.mp hp).1, hp]

theorem Posts.asks {f : Frame} (h : Posts f s t) {p : Nat} {q : Frame} (hp : s.Asks p q) : t.Asks p q :=
  ⟨h.history_getElem? hp.1, hp.2⟩

/-! ## What is owed -/

/-- The responder has been used up. -/
def Used (s : Session) (k : Nat) : Prop := ∃ q, s.responders[k]? = some ⟨q, true⟩

/-- The replies through a responder that are due or seen off. -/
def spent (s : Session) (k : Nat) : Nat := s.due.countP (·.1 = k) + s.granted k

/-- The responders and the replies that are due. -/
structure Owed (s : Session) (origin : Nat → Nat) : Prop where
  request : ∀ k r, s.responders[k]? = some r → s.Asks (origin k) r.request ∧ r.request.IsRead
  origin_inj : ∀ k l, k < s.responders.length → l < s.responders.length → origin k = origin l → k = l
  due : ∀ k f, (k, f) ∈ s.due → ∃ q, s.responders[k]? = some ⟨q, true⟩ ∧ f.Answers q
  spent_le : ∀ k, s.spent k ≤ 1
  unspent : ∀ k, ¬ s.Used k → s.spent k = 0

/-- The account of requests and responses. -/
structure Ledger (s : Session) (origin pays : Nat → Nat) : Prop where
  paid : s.Paid pays
  owed : s.Owed origin
  /-- What is paid for through a responder has been seen off. -/
  granted : ∀ i k, s.Replied i → k < s.responders.length → pays i = origin k → 1 ≤ s.granted k
  /-- A refusal is for a request that nobody else answers. -/
  refusal : ∀ f, s.reader.refusal? = some f → ∃ p q, s.Asks p q ∧ f.Answers q ∧
    (∀ k < s.responders.length, origin k ≠ p) ∧ ∀ i, s.Replied i → pays i ≠ p

namespace Owed

variable {origin : Nat → Nat}

theorem origin_lt (h : s.Owed origin) {k : Nat} (hk : k < s.responders.length) :
    origin k < s.history.length :=
  (h.request k _ (List.getElem?_eq_getElem hk)).1.lt

/-- The responders stay, and no replies become due. -/
theorem less (h : s.Owed origin) (asks : ∀ p q, s.Asks p q → t.Asks p q)
    (responders : t.responders = s.responders) (due : ∀ x ∈ t.due, x ∈ s.due)
    (spent : ∀ k, t.spent k ≤ s.spent k) : t.Owed origin where
  request k r hr := by
    rw [responders] at hr
    exact ⟨asks _ _ (h.request k r hr).1, (h.request k r hr).2⟩
  origin_inj := responders ▸ h.origin_inj
  due k f hf := responders ▸ h.due k f (due _ hf)
  spent_le k := Nat.le_trans (spent k) (h.spent_le k)
  unspent k hk := by
    have := h.unspent k (by rwa [Used, responders] at hk)
    have := spent k
    omega

/-- A request comes with a responder of its own. -/
theorem hands (h : s.Owed origin) {q : Frame} (asks : ∀ p q, s.Asks p q → t.Asks p q) {p : Nat}
    (ask : t.Asks p q) (fresh : ∀ k < s.responders.length, origin k ≠ p) (isRead : q.IsRead)
    (responders : t.responders = s.responders ++ [⟨q, false⟩]) (due : t.due = s.due)
    (granted : ∀ k, t.granted k = s.granted k) :
    t.Owed (Function.update origin s.responders.length p) := by
  have hspent (k : Nat) : t.spent k = s.spent k := by rw [spent, spent, due, granted]
  have hold {k : Nat} {r : Responder} (hr : s.responders[k]? = some r) : t.responders[k]? = some r := by
    rw [responders, List.getElem?_append_left (List.getElem?_eq_some_iff.mp hr).1, hr]
  refine ⟨fun k r hr => ?_, fun k l hk hl hkl => ?_, fun k f hf => ?_, fun k => ?_, fun k hk => ?_⟩
  · rw [responders] at hr
    rcases of_getElem?_concat hr with hr | ⟨rfl, rfl⟩
    · rw [Function.update_of_ne (Nat.ne_of_lt (List.getElem?_eq_some_iff.mp hr).1)]
      exact ⟨asks _ _ (h.request k r hr).1, (h.request k r hr).2⟩
    · rw [Function.update_self]
      exact ⟨ask, isRead⟩
  · rw [responders, List.length_append, List.length_singleton, Nat.lt_succ_iff_lt_or_eq] at hk hl
    rcases hk with hk | rfl
    · rw [Function.update_of_ne (Nat.ne_of_lt hk)] at hkl
      rcases hl with hl | rfl
      · rw [Function.update_of_ne (Nat.ne_of_lt hl)] at hkl
        exact h.origin_inj k l hk hl hkl
      · rw [Function.update_self] at hkl
        exact absurd hkl (fresh k hk)
    · rw [Function.update_self] at hkl
      rcases hl with hl | rfl
      · rw [Function.update_of_ne (Nat.ne_of_lt hl)] at hkl
        exact absurd hkl.symm (fresh l hl)
      · rfl
  · obtain ⟨r, hr, hanswers⟩ := h.due k f (due ▸ hf)
    exact ⟨r, hold hr, hanswers⟩
  · rw [hspent]
    exact h.spent_le k
  · rw [hspent]
    exact h.unspent k fun ⟨r, hr⟩ => hk ⟨r, hold hr⟩

/-- A responder is used up for a reply. -/
theorem opens (h : s.Owed origin) {k : Nat} {q f : Frame} (asks : ∀ p q, s.Asks p q → t.Asks p q)
    (unsent : s.responders[k]? = some ⟨q, false⟩) (answers : q.IsRead → f.Answers q)
    (responders : t.responders = s.responders.set k ⟨q, true⟩) (due : t.due.Perm ((k, f) :: s.due))
    (granted : ∀ k, t.granted k = s.granted k) : t.Owed origin := by
  have hget (l : Nat) : t.responders[l]? = if k = l then some ⟨q, true⟩ else s.responders[l]? := by
    rw [responders, List.getElem?_set]
    split
    · rw [if_pos (List.getElem?_eq_some_iff.mp unsent).1]
    · rfl
  have hspent (l : Nat) : t.spent l = s.spent l + if k = l then 1 else 0 := by
    simp only [spent, due.countP_eq, List.countP_cons, granted, decide_eq_true_eq]
    omega
  have hunused : ¬ s.Used k := by
    rintro ⟨q', hq'⟩
    simp [unsent] at hq'
  refine ⟨fun l r hr => ?_, fun l m hl hm hlm => ?_, fun l g hg => ?_, fun l => ?_, fun l hl => ?_⟩
  · rw [hget] at hr
    split at hr
    · obtain rfl : ⟨q, true⟩ = r := by simpa using hr
      subst l
      exact ⟨asks _ _ (h.request k _ unsent).1, (h.request k _ unsent).2⟩
    · exact ⟨asks _ _ (h.request l r hr).1, (h.request l r hr).2⟩
  · rw [responders, List.length_set] at hl hm
    exact h.origin_inj l m hl hm hlm
  · rw [hget]
    rcases List.mem_cons.mp (due.mem_iff.mp hg) with heq | hg
    · obtain ⟨rfl, rfl⟩ : l = k ∧ g = f := by simpa using heq
      exact ⟨q, if_pos rfl, answers (h.request l _ unsent).2⟩
    · obtain ⟨r, hr, hanswers⟩ := h.due l g hg
      rw [if_neg]
      · exact ⟨r, hr, hanswers⟩
      · rintro rfl
        exact hunused ⟨r, hr⟩
  · rw [hspent]
    split
    · subst l
      rw [h.unspent k hunused]
    · exact h.spent_le l
  · have hne : k ≠ l := fun hkl => hl ⟨q, by rw [hget, if_pos hkl]⟩
    rw [hspent, if_neg hne]
    refine h.unspent l fun ⟨r, hr⟩ => hl ⟨r, ?_⟩
    rw [hget, if_neg hne, hr]

end Owed

namespace Ledger

variable {origin pays : Nat → Nat}

/-- Nothing about replies happens. -/
theorem quiet (h : s.Ledger origin pays) (quiet : s.Quiet t) (owed : t.Owed origin)
    (responders : t.responders.length = s.responders.length) (granted : ∀ k, t.granted k = s.granted k)
    (refusal : t.reader.refusal? = s.reader.refusal?) : t.Ledger origin pays where
  paid := h.paid.quiet quiet
  owed := owed
  granted i k hi hk := granted k ▸ h.granted i k (quiet.replied_iff.mp hi) (responders ▸ hk)
  refusal f hf := by
    obtain ⟨p, q, hasks, hanswers, hfree, hunpaid⟩ := h.refusal f (refusal ▸ hf)
    exact ⟨p, q, quiet.asks hasks, hanswers, responders ▸ hfree,
      fun i hi => hunpaid i (quiet.replied_iff.mp hi)⟩

/-- A request is refused. -/
theorem refuses (h : s.Ledger origin pays) {q f : Frame} (logs : Appends (.received q) s t)
    (request : q.isResponse = false) (answers : f.Answers q) (responders : t.responders = s.responders)
    (due : t.due = s.due) (granted : ∀ k, t.granted k = s.granted k)
    (refusal : t.reader.refusal? = some f) : t.Ledger origin pays where
  paid := h.paid.quiet (logs.quiet trivial)
  owed := h.owed.less (fun _ _ => (logs.quiet trivial).asks) responders (fun _ hx => due ▸ hx)
    fun k => by rw [spent, spent, due, granted]
  granted i k hi hk := granted k ▸ h.granted i k ((logs.quiet trivial).replied_iff.mp hi) (responders ▸ hk)
  refusal g hg := by
    obtain rfl : f = g := by simpa [refusal] using hg
    refine ⟨s.history.length, q, logs.asks request, answers, fun k hk => ?_, fun i hi => ?_⟩
    · exact Nat.ne_of_lt (h.owed.origin_lt (responders ▸ hk))
    · exact Nat.ne_of_lt (h.paid.lt ((logs.quiet trivial).replied_iff.mp hi))

/-- A request is handed to the processor. -/
theorem hands (h : s.Ledger origin pays) {q : Frame} (logs : Appends (.received q) s t) (isRead : q.IsRead)
    (request : q.isResponse = false) (responders : t.responders = s.responders ++ [⟨q, false⟩])
    (due : t.due = s.due) (granted : ∀ k, t.granted k = s.granted k)
    (refusal : t.reader.refusal? = none) :
    t.Ledger (Function.update origin s.responders.length s.history.length) pays where
  paid := h.paid.quiet (logs.quiet trivial)
  owed := h.owed.hands (fun _ _ => (logs.quiet trivial).asks) (logs.asks request)
    (fun k hk => Nat.ne_of_lt (h.owed.origin_lt hk)) isRead responders due granted
  granted i k hi hk hpays := by
    have hi := (logs.quiet trivial).replied_iff.mp hi
    rw [responders, List.length_append, List.length_singleton, Nat.lt_succ_iff_lt_or_eq] at hk
    rcases hk with hk | rfl
    · rw [Function.update_of_ne (Nat.ne_of_lt hk)] at hpays
      exact granted k ▸ h.granted i k hi hk hpays
    · rw [Function.update_self] at hpays
      exact absurd hpays (Nat.ne_of_lt (h.paid.lt hi))
  refusal f hf := by simp [refusal] at hf

/-- A reply is seen off. -/
theorem closes (h : s.Ledger origin pays) {k : Nat} {f : Frame} (posts : Posts f s t)
    (responders : t.responders = s.responders) (due : s.due.Perm ((k, f) :: t.due))
    (granted : ∀ l, t.granted l = s.granted l + if k = l then 1 else 0)
    (refusal : t.reader.refusal? = s.reader.refusal?) : ∃ pays', t.Ledger origin pays' := by
  have hspent (l : Nat) : t.spent l = s.spent l := by
    simp only [spent, due.countP_eq, List.countP_cons, granted, decide_eq_true_eq]
    omega
  obtain ⟨q, hq, hanswers⟩ := h.owed.due k f (due.mem_iff.mpr List.mem_cons_self)
  have hk := (List.getElem?_eq_some_iff.mp hq).1
  obtain ⟨hasks, -⟩ := h.owed.request k _ hq
  -- A place that is paid for has a reply that was seen off, besides the one that is due.
  have hunpaid : ∀ i, s.Replied i → pays i ≠ origin k := by
    intro i hi hpays
    have hone := h.granted i k hi hk hpays
    have hle := h.owed.spent_le k
    rw [spent, due.countP_eq, List.countP_cons_of_pos (by simp)] at hle
    omega
  obtain ⟨pays', hpaid, hreplied⟩ := h.paid.posts posts hasks hanswers hunpaid
  refine ⟨pays', hpaid, ?_, fun i l hi hl hpays => ?_, fun g hg => ?_⟩
  · exact h.owed.less (fun _ _ => posts.asks) responders
      (fun x hx => due.mem_iff.mpr (List.mem_cons_of_mem _ hx)) fun l => Nat.le_of_eq (hspent l)
  · rw [granted]
    rw [responders] at hl
    rcases hreplied i hi with ⟨hi, hsame⟩ | hnew
    · exact Nat.le_add_right_of_le (h.granted i l hi hl (hsame ▸ hpays))
    · rw [if_pos (h.owed.origin_inj k l hk hl (hnew ▸ hpays))]
      exact Nat.le_add_left _ _
  · obtain ⟨p, r, hp, hr, hfree, hunpaid⟩ := h.refusal g (refusal ▸ hg)
    refine ⟨p, r, posts.asks hp, hr, responders ▸ hfree, fun i hi => ?_⟩
    rcases hreplied i hi with ⟨hi, hsame⟩ | hnew
    · exact hsame ▸ hunpaid i hi
    · exact hnew ▸ hfree k hk

/-- A refusal is seen off. -/
theorem dismisses (h : s.Ledger origin pays) {f : Frame} (posts : Posts f s t)
    (responders : t.responders = s.responders) (due : t.due = s.due)
    (granted : ∀ k, t.granted k = s.granted k) (refused : s.reader.refusal? = some f)
    (refusal : t.reader.refusal? = none) : ∃ pays', t.Ledger origin pays' := by
  obtain ⟨p, q, hasks, hanswers, hfree, hunpaid⟩ := h.refusal f refused
  obtain ⟨pays', hpaid, hreplied⟩ := h.paid.posts posts hasks hanswers hunpaid
  refine ⟨pays', hpaid, ?_, fun i k hi hk hpays => ?_, fun g hg => by simp [refusal] at hg⟩
  · exact h.owed.less (fun _ _ => posts.asks) responders (fun x hx => due ▸ hx)
      fun k => by rw [spent, spent, due, granted]
  · rw [granted]
    rw [responders] at hk
    rcases hreplied i hi with ⟨hi, hsame⟩ | hnew
    · exact h.granted i k hi hk (hsame ▸ hpays)
    · exact absurd (hpays.symm.trans hnew) (hfree k hk)

/-- Every step of a session keeps the account. -/
theorem step (h : s.Ledger origin pays) (replies : s.Replies t) :
    ∃ origin' pays', t.Ledger origin' pays' := by
  cases replies with
  | rests logs responders due granted refusal =>
    have owed : t.Owed origin := h.owed.less (fun _ _ => logs.asks) responders (fun x hx => due.subset hx)
      fun k => by
        rw [spent, spent, granted]
        exact Nat.add_le_add_right (due.countP_le _) _
    exact ⟨origin, pays, h.quiet logs owed (by rw [responders]) granted refusal⟩
  | refuses q f logs isRead request answers responders due granted refusal =>
    exact ⟨origin, pays, h.refuses logs request answers responders due granted refusal⟩
  | hands q logs isRead request responders due granted refusal =>
    exact ⟨_, pays, h.hands logs isRead request responders due granted refusal⟩
  | opens k q f logs unsent responders sequence command body due granted refusal =>
    have answers (hq : q.IsRead) : f.Answers q := ⟨sequence, command.trans hq.response_command, body⟩
    have owed : t.Owed origin := h.owed.opens (fun _ _ => logs.asks) unsent answers responders due granted
    exact ⟨origin, pays, h.quiet logs owed (by rw [responders, List.length_set]) granted refusal⟩
  | closes k f posts responders due granted refusal =>
    exact ⟨origin, h.closes posts responders due granted refusal⟩
  | dismisses f posts responders due granted refused refusal =>
    exact ⟨origin, h.dismisses posts responders due granted refused refusal⟩

end Ledger

/-! ## Runs -/

theorem fresh_ledger (id : UInt32) (peer : Option SocketAddress) (serverSystemId : String)
    (settings : SessionSettings) (processor : Nat) (now : Instant) :
    (fresh id peer serverSystemId settings processor now).Ledger (fun _ => 0) (fun _ => 0) := by
  have silent (i : Nat) : ¬ (fresh id peer serverSystemId settings processor now).Replied i := by
    simp [Replied, history, fresh]
  refine ⟨⟨by simp [history, fresh], fun i _ hi => (silent i hi).elim⟩, ⟨?_, ?_, ?_, ?_, ?_⟩,
    fun i _ hi => (silent i hi).elim, by simp [fresh, Reader.Stage.refusal?]⟩ <;>
    simp [fresh, due, Reader.Stage.due, spent, granted]

theorem before_ledger {xs : List Step} {origin pays : Nat → Nat} (hs : s.Orderly) (hn : s.Numbered)
    (h : s.Ledger origin pays) (i : Nat) : ∃ origin pays, (s.before xs i).Ledger origin pays := by
  refine (before_induct (P := fun t => t.Numbered ∧ ∃ origin pays, t.Ledger origin pays) hs
    (fun t ht h x => ?_) (Nat.zero_le i) ⟨hn, _, _, h⟩).2
  obtain ⟨hnumbered, origin, pays, h⟩ := h
  have hserves := step_serves ht hnumbered x
  exact ⟨hserves.numbered, h.step hserves.replies⟩

/-- From `s` to `t` the response `f` was taken off the input: nothing was written, and nothing was begun
that could write. -/
def TakesIn (s t : Session) (f : Frame) : Prop :=
  t.reader = s.reader ∧ t.responders = s.responders ∧ t.answers = s.answers ∧ t.calls = s.calls ∧
    ∃ new, t.log = new ++ .received f :: s.log ∧ ∀ e ∈ new, ∃ m, e = .measured m

/-- Every response that is written answers a request of its own. -/
structure OneReply (s : Session) : Prop where
  /-- To every response on the wire belongs a request before it, to different ones different requests. -/
  matched : ∃ pays : Nat → Nat, Set.InjOn pays {i | s.Replied i} ∧
    ∀ i f octets, s.history[i]? = some (.wrote f octets) → f.isResponse = true →
      f.encode = .ok octets ∧ pays i < i ∧ ∃ q, s.Asks (pays i) q ∧ f.Answers q
  /-- Of all replies through a responder at most one is accepted. -/
  granted_once : ∀ k, s.granted k ≤ 1
  /-- A response of the client is not answered. -/
  silent : ∀ f rest, s.can (.reader .read) = true → s.nextInput = .frame f rest → f.isResponse = true →
    s.TakesIn (s.step (.move (.reader .read))) f

theorem takesIn_of_response {f : Frame} {rest : List UInt8} (can : s.can (.reader .read) = true)
    (input : s.nextInput = .frame f rest) (hf : f.isResponse = true) :
    s.TakesIn (s.step (.move (.reader .read))) f := by
  obtain ⟨m, ⟨-, h⟩ | ⟨-, h⟩⟩ := step_response can input hf
  · rw [h]
    exact ⟨rfl, rfl, rfl, rfl, [.measured m], rfl, by simp⟩
  · rw [h]
    refine ⟨rfl, rfl, rfl, rfl, (if s.window.contains f.sequence then [] else [.measured .windowUnmatched]) ++
      [.measured m], by simp, ?_⟩
    split <;> simp

/-- Whatever the client sends, whoever replies and how often, and whatever becomes of the writes: every
response that a session writes answers a request of its own. -/
theorem one_reply_per_request (id : UInt32) (peer : Option SocketAddress) (serverSystemId : String)
    (settings : SessionSettings) (processor : Nat) (now : Instant) (xs : List Step) :
    ((fresh id peer serverSystemId settings processor now).after xs).OneReply := by
  have horderly := fresh_orderly id peer serverSystemId settings processor now
  have hnumbered := fresh_numbered id peer serverSystemId settings processor now
  have hledger := fresh_ledger id peer serverSystemId settings processor now
  generalize fresh id peer serverSystemId settings processor now = s at horderly hnumbered hledger
  rw [← before_length]
  obtain ⟨-, origin, pays, h⟩ : (s.before xs xs.length).Numbered ∧
      ∃ origin pays, (s.before xs xs.length).Ledger origin pays := by
    refine before_induct (P := fun t => t.Numbered ∧ ∃ origin pays, t.Ledger origin pays) horderly
      (fun t ht h x => ?_) (Nat.zero_le xs.length) ⟨hnumbered, _, _, hledger⟩
    obtain ⟨hnumbered, origin, pays, h⟩ := h
    have hserves := step_serves ht hnumbered x
    exact ⟨hserves.numbered, h.step hserves.replies⟩
  refine ⟨⟨pays, fun i hi j hj => h.paid.once i j hi hj, h.paid.written⟩, fun k => ?_,
    fun f rest can input hf => takesIn_of_response can input hf⟩
  exact Nat.le_trans (Nat.le_add_left _ _) (h.owed.spent_le k)

end Smsc.Session
