import Smsc.Proofs.Pdu.Limits
import Smsc.Proofs.Session.Introduced
import Smsc.Proofs.Session.Protocol
import Smsc.Proofs.Session.Readable
import Smsc.Settings.Check

/-!
# Smsc.Proofs.Session.HandedOver — replies reach the channel

The name of the server stands in every bind response. The check of the settings lets through the names that
fit there, both counted in octets, so a server that was set up has a name it can answer with. The id of a
message is up to the processor, and may still be too long. No other reply fails before the channel has it.

* `Settings.systemId_of_check`: what the check lets through;
* `Frame.IsOverlong`: a reply with an id that is too long; `Frame.Conveys.encodes`: all others have octets;
* `HasInHand s k f`, `step_hasInHand`: a reply that was made goes out in the end, or is given up;
* `Emits.hands`: what goes out and has octets is handed to the channel;
* `Passed s xs l j k f octets`: the channel has been given a reply;
* `HandedOver s xs`, `replies_handed_over`: every run of a session whose server's name was checked.
-/

namespace Smsc

theorem Settings.systemId_of_check {c : Settings} (h : c.check = .ok ()) :
    c.server.systemId.utf8ByteSize ≤ systemIdLimit := by
  refine Nat.le_of_not_lt fun hlong => ?_
  simp only [check, if_pos hlong] at h
  split at h
  · cases h
  · split at h <;> cases h

/-- Fourteen letters are too many if two of them take two octets each. -/
example : Settings.check { Settings.standard with
      server := { ServerSettings.standard with systemId := "côté-smsc-esme" } } =
    .error (.longSystemId "côté-smsc-esme") := by
  rfl

/-! ## Which replies have octets -/

namespace Frame

open Pdu (Part)

variable {f q : Frame}

/-- A response to a message with an id that leaves no room for the NUL behind it. -/
def IsOverlong (f : Frame) : Prop := ∃ r, f.pdu = .submitSmResp r ∧ 64 < r.messageId.utf8ByteSize

theorem IsOverlong.encode (h : f.IsOverlong) : f.encode = .error (.fieldTooLong "message_id" 65) := by
  obtain ⟨r, hpdu, hlong⟩ := h
  have hfault : (Part.text "message_id" 65 r.messageId).fault? = some (.fieldTooLong "message_id" 65) :=
    if_neg (Nat.not_le.mpr (Nat.succ_lt_succ hlong))
  refine encode_of_fault ?_
  rw [hpdu, Pdu.parts, List.findSome?_cons, hfault]

/-- With a name that fits and an id that fits, or none, a reply has octets. -/
theorem Conveys.encodes {serverSystemId : String} {status : Status} {messageId : Option String}
    (h : f.Conveys q serverSystemId status messageId) (server : serverSystemId.utf8ByteSize ≤ systemIdLimit)
    (short : ¬ f.IsOverlong) : ∃ octets, f.encode = .ok octets := by
  rw [encodes_iff, Frame.length]
  cases hpdu : q.pdu with
  | bind type b =>
    have hname : serverSystemId.utf8ByteSize + 1 ≤ 16 := Nat.succ_le_succ server
    have version (named : Bool) :
        let parts := TlvMap.parts (if named then ⟨[.interfaceVersion34]⟩ else .empty)
        (∀ p ∈ parts, p.Fits) ∧ (parts.map Part.length).sum ≤ 5 := by
      cases named <;> decide
    obtain ⟨hfits, hlength⟩ := version status.isOk
    rw [h.bind type b hpdu, Pdu.parts, List.forall_mem_cons, List.map_cons, List.sum_cons, Part.length]
    exact ⟨⟨hname, hfits⟩, (Nat.add_le_add_left (Nat.add_le_add hname hlength) 16).trans (by decide)⟩
  | submitSm m =>
    have hid : (messageId.getD "").utf8ByteSize ≤ 64 :=
      Nat.le_of_not_lt fun hlong => short ⟨_, h.submitSm m hpdu, hlong⟩
    have hlength : (messageId.getD "").utf8ByteSize + 1 ≤ 65 := Nat.succ_le_succ hid
    rw [h.submitSm m hpdu]
    exact ⟨List.forall_mem_singleton.mpr hlength, (Nat.add_le_add_left hlength 16).trans (by decide)⟩
  | _ =>
    -- Nothing is filled in, as in a refusal.
    rw [h.other (by simp [hpdu]) (by simp [hpdu])]
    exact encodes_iff.mp (encode_responseFor q status)

end Frame

namespace Session

variable {s : Session} {x : Step} {k : Option Nat} {f : Frame} {octets : List UInt8} {xs : List Step} {l j : Nat}

/-- A frame that is not a request has octets, if it was meant and is not too long. -/
theorem Meant.encodes (h : s.Meant xs j f) (server : s.serverSystemId.utf8ByteSize ≤ systemIdLimit)
    (response : f.isResponse = true) (short : ¬ f.IsOverlong) : ∃ octets, f.encode = .ok octets := by
  obtain ⟨i, -, x, -, hserver, hmeans⟩ := h
  cases hmeans with
  | refuses q received status rule f_eq => exact f_eq ▸ Frame.encode_responseFor q status
  | replies k q reply sends received status settled conveys => exact conveys.encodes (hserver ▸ server) short
  | asks c asked makes => simp [makes.isOutbound.isResponse] at response

/-! ## Replies that were made -/

/-- The reply `f` was made, and has not gone out. It is due through a responder; the refusal in the reader's
hands has none. -/
def HasInHand (s : Session) : Option Nat → Frame → Prop
  | some k, f => (k, f) ∈ s.due
  | none, f => s.reader.refusal? = some f

/-- In the step `x` the reply goes out. -/
def Releases (s : Session) : Option Nat → Frame → Step → Prop
  | some k, f, x => s.SeesOff k f x
  | none, f, x => s.reader = .rejecting f ∧ s.channel.isStalled = false ∧ x = .move (.reader .proceed)

/-- In the step `x` the reply is given up. That happens to late ones only. -/
def GivesUp (s : Session) : Option Nat → Frame → Step → Prop
  | some k, f, x => s.Gives k f x
  | none, _, _ => False

theorem Releases.emits (h : s.Releases k f x) : s.Emits f x := by
  cases k with
  | some k => exact .reply x k h
  | none =>
    obtain ⟨stage, flows, rfl⟩ := h
    exact .refusal stage flows

theorem HasInHand.isResponse {origin pays : Nat → Nat} (h : s.HasInHand k f) (hl : s.Ledger origin pays) :
    f.isResponse = true := by
  cases k with
  | some k =>
    obtain ⟨q, -, answers⟩ := hl.owed.due k f h
    exact answers.isResponse
  | none =>
    obtain ⟨p, q, -, answers, -⟩ := hl.refusal f h
    exact answers.isResponse

theorem MeansAll.of_hasInHand (h : s.MeansAll xs j) (inHand : (s.before xs j).HasInHand k f) :
    s.Meant xs j f := by
  cases k with
  | some k => exact h.due k f inHand
  | none => exact h.refusal f inHand

/-- A refusal stays with the reader until it goes out. -/
theorem Deals.keepsRefusal {t : Session} (h : s.Deals x t) (inHand : s.reader.refusal? = some f) :
    t.reader.refusal? = some f ∨ s.Releases none f x := by
  have stage : s.reader = .rejecting f := Reader.Stage.refusal?_eq_some.mp inHand
  cases h with
  | sends k q reply sends u status settling same due refusal => exact .inl (refusal.trans inHand)
  | seesOff k g seesOff done same replied due refusal => exact .inl (refusal.trans inHand)
  | takes g rest x_eq can => simp [Session.can, readerCan, stage] at can
  | denies g denied x_eq flows same =>
    obtain rfl : g = f := by simpa [stage] using denied.symm
    exact .inr ⟨stage, flows, x_eq⟩
  | spares spares => exact .inl (spares.refusal.trans inHand)

theorem step_hasInHand (hs : s.Orderly) (hn : s.Numbered) (h : s.HasInHand k f) (x : Step) :
    (s.step x).HasInHand k f ∨ s.Releases k f x ∨ s.GivesUp k f x := by
  cases k with
  | some k => exact step_due hs hn h x
  | none => exact ((step_deals hs hn x).keepsRefusal h).imp_right .inl

/-- At rest a reply waits for nothing but the channel. -/
theorem AtRest.isStalled (rest : s.AtRest) (hn : s.Numbered) (h : s.HasInHand k f) :
    s.channel.isStalled = true := by
  by_contra hflows
  have flows : s.channel.isStalled = false := by simpa using hflows
  have hreader : s.readerCan .proceed = false := rest (.reader .proceed)
  cases k with
  | none =>
    have stage : s.reader = .rejecting f := Reader.Stage.refusal?_eq_some.mp h
    simp [readerCan, stage, flows] at hreader
  | some k =>
    rcases List.mem_append.mp h with hdue | hdue
    · cases stage : s.reader with
      | answering g l plan => simp [readerCan, stage, flows] at hreader
      | _ => simp [Reader.Stage.due, stage] at hdue
    · obtain ⟨a, ha, hdue⟩ := List.mem_flatMap.mp hdue
      have hready := rest.answer hn.ids ha
      cases stage : a.stage with
      | writing g => simp [answerIsReady, stage, flows] at hready
      | starting | finished => simp [Answer.due, AnswerStage.due, stage] at hdue

/-! ## The channel -/

/-- What is noted when the octets of a frame are handed to the channel: it takes them, or fails. -/
def handing (s : Session) (f : Frame) (octets : List UInt8) : SessionEvent :=
  if s.channel.refuses then .writeFailed f else .wrote f octets

/-- In the step `x` the octets of the frame are handed to the channel. -/
def Hands (s : Session) (x : Step) (f : Frame) (octets : List UInt8) : Prop :=
  ∃ new, (s.step x).log = new ++ s.log ∧ s.handing f octets ∈ new

theorem transmit_of_ok (h : f.encode = .ok octets) :
    ∃ m, (s.transmit f).1.log = [.measured m, s.handing f octets] ++ s.log := by
  unfold handing
  simp only [transmit, h]
  split <;> exact ⟨_, rfl⟩

theorem Emits.hands (h : s.Emits f x) (hn : s.Numbered) (encode : f.encode = .ok octets) :
    s.Hands x f octets := by
  obtain ⟨new, log, -⟩ := h.transmits hn
  obtain ⟨m, transmitted⟩ := transmit_of_ok (s := s) encode
  exact ⟨new ++ [.measured m, s.handing f octets], by rw [log, transmitted, List.append_assoc], by simp⟩

/-- The channel has been given the octets of the reply `f`, which was in hand before the `l`-th step, by the
`j`-th. A write that has begun holds them until the channel can go on. -/
inductive Passed (s : Session) (xs : List Step) (l j : Nat) (k : Option Nat) (f : Frame) (octets : List UInt8) :
    Prop where
  | handed (i : Nat) (x : Step) (after : l ≤ i) (before : i < j) (step : xs[i]? = some x)
      (releases : (s.before xs i).Releases k f x) (hands : (s.before xs i).Hands x f octets)
  /-- The write has begun and cannot go on. -/
  | held (inHand : (s.before xs j).HasInHand k f) (stalled : (s.before xs j).channel.isStalled = true)
  /-- The write had begun, and was given up. -/
  | forgotten (i : Nat) (x : Step) (after : l ≤ i) (before : i < j) (step : xs[i]? = some x)
      (gives : (s.before xs i).GivesUp k f x)

/-! ## Runs -/

/-- At rest a reply that has octets was passed to the channel. -/
theorem passed_of_hasInHand (hs : s.Orderly) (hn : s.Numbered) (hlj : l ≤ j)
    (h : (s.before xs l).HasInHand k f) (encode : f.encode = .ok octets) (rest : (s.before xs j).AtRest) :
    s.Passed xs l j k f octets := by
  have hfate := stateAt_until (P := fun t : Session => t.HasInHand k f)
    (Q := fun i x => (s.before xs i).Releases k f x ∨ (s.before xs i).GivesUp k f x) hlj
    (fun i x _ _ _ hi => step_hasInHand (before_orderly hs i) (before_numbered hs hn i) hi x) h
  rcases hfate with inHand | ⟨i, x, hli, hij, hx, releases | gives⟩
  · exact .held inHand (rest.isStalled (before_numbered hs hn j) inHand)
  · exact .handed i x hli hij hx releases (releases.emits.hands (before_numbered hs hn i) encode)
  · exact .forgotten i x hli hij hx gives

/-- How the replies of the session fare in the run `xs` from `s`. -/
structure HandedOver (s : Session) (xs : List Step) : Prop where
  /-- The only replies without octets are those to messages with an id that is too long. -/
  unfit : ∀ j k f e, (s.before xs j).HasInHand k f →
    (f.encode = .error e ↔ f.IsOverlong ∧ e = .fieldTooLong "message_id" 65)
  /-- Every other response that goes out is handed to the channel in that step. -/
  handed : ∀ i x f, xs[i]? = some x → (s.before xs i).Emits f x → f.isResponse = true → ¬ f.IsOverlong →
    ∃ octets, f.encode = .ok octets ∧ (s.before xs i).Hands x f octets
  /-- At rest the channel has been given every other reply that was ever made. -/
  passed : ∀ l j k f, l ≤ j → (s.before xs l).HasInHand k f → ¬ f.IsOverlong → (s.before xs j).AtRest →
    ∃ octets, f.encode = .ok octets ∧ s.Passed xs l j k f octets
  /-- So the OK to a bind has been given to it, if the session has been bound. -/
  welcomed : ∀ i j, i ≤ j → (s.before xs i).status = .bound → (s.before xs j).AtRest →
    ∃ l < i, ∃ x k q type octets, xs[l]? = some x ∧ (s.before xs l).Welcomes k q type x ∧
      (Frame.bindOk s.serverSystemId type q.sequence).encode = .ok octets ∧
      s.Passed xs (l + 1) j (some k) (.bindOk s.serverSystemId type q.sequence) octets

/-- In every run of a session of a server whose settings passed the check, whatever comes in and however
processors reply, replies reach the channel unless the id of a message is too long. -/
theorem replies_handed_over (c : Settings) (checked : c.check = .ok ()) (id : UInt32)
    (peer : Option SocketAddress) (settings : SessionSettings) (processor : Nat) (now : Instant)
    (xs : List Step) : (fresh id peer c.server.systemId settings processor now).HandedOver xs := by
  have hs := fresh_orderly id peer c.server.systemId settings processor now
  have hn := fresh_numbered id peer c.server.systemId settings processor now
  have hl := fresh_ledger id peer c.server.systemId settings processor now
  have hzero := fresh_meansAll id peer c.server.systemId settings processor now xs
  have hg : (fresh id peer c.server.systemId settings processor now).Gated :=
    ⟨by simp [fresh], by simp [fresh]⟩
  have unbound : (fresh id peer c.server.systemId settings processor now).binding = none := rfl
  have server : (fresh id peer c.server.systemId settings processor now).serverSystemId.utf8ByteSize ≤
    systemIdLimit := Settings.systemId_of_check checked
  generalize fresh id peer c.server.systemId settings processor now = s at hs hn hl hzero hg unbound server
  have means (j : Nat) : s.MeansAll xs j := before_meansAll hs hn hl hzero j
  have encodes (j : Nat) (k : Option Nat) (f : Frame) (inHand : (s.before xs j).HasInHand k f)
      (short : ¬ f.IsOverlong) : ∃ octets, f.encode = .ok octets := by
    obtain ⟨origin, pays, hledger⟩ : ∃ origin pays, (s.before xs j).Ledger origin pays :=
      before_ledger hs hn hl j
    exact ((means j).of_hasInHand inHand).encodes server (inHand.isResponse hledger) short
  refine ⟨fun j k f e inHand => ?_, fun i x f hx emits response short => ?_,
    fun l j k f hlj inHand short rest => ?_, fun i j hij bound rest => ?_⟩
  · constructor
    · intro hencode
      by_cases hlong : f.IsOverlong
      · exact ⟨hlong, Except.error.inj (hencode.symm.trans hlong.encode)⟩
      · obtain ⟨octets, hoctets⟩ := encodes j k f inHand hlong
        cases hencode.symm.trans hoctets
    · rintro ⟨hlong, rfl⟩
      exact hlong.encode
  · obtain ⟨octets, hoctets⟩ :=
      ((means i).of_emits (before_orderly hs i) emits).encodes server response short
    exact ⟨octets, hoctets, emits.hands (before_numbered hs hn i) hoctets⟩
  · obtain ⟨octets, hoctets⟩ := encodes l k f inHand short
    exact ⟨octets, hoctets, passed_of_hasInHand hs hn hlj inHand hoctets rest⟩
  · obtain ⟨l, hli, x, k, q, type, hx, welcomes, due⟩ :=
      source_of_binding hs hn unbound ((before_gated hs hn hg i).bound bound)
    have inHand : (s.before xs (l + 1)).HasInHand (some k) (.bindOk s.serverSystemId type q.sequence) := due
    obtain ⟨octets, hoctets⟩ := encodes (l + 1) (some k) _ inHand (by rintro ⟨r, hpdu, -⟩; cases hpdu)
    exact ⟨l, hli, x, k, q, type, octets, hx, welcomes, hoctets,
      passed_of_hasInHand hs hn (Nat.le_trans hli hij) inHand hoctets rest⟩

/-- A name that is as long as names may be, of thirteen letters in fifteen octets, comes before the client. -/
theorem longest_name_handed_over :
    let c : Settings := { Settings.standard with
      server := { ServerSettings.standard with systemId := "côté-smsc-esm" } }
    let s := fresh 1 none c.server.systemId c.session 0 0
    c.check = .ok () ∧ s.HandedOver greeting ∧ (s.after greeting).status = .bound ∧
      (s.after greeting).AtRest ∧
      .wrote (.bindOk "côté-smsc-esm" .transceiver 1) [0, 0, 0, 37, 0x80, 0, 0, 9, 0, 0, 0, 0, 0, 0, 0, 1,
        99, 0xC3, 0xB4, 116, 0xC3, 0xA9, 45, 115, 109, 115, 99, 45, 101, 115, 109, 0, 2, 0x10, 0, 1, 0x34] ∈
          (s.after greeting).log := by
  refine ⟨?_, replies_handed_over _ ?_ 1 none _ 0 0 greeting, ?_, ?_, ?_⟩ <;> decide +kernel

end Session

end Smsc
