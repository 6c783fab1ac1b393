import Smsc.Proofs.Management.Names
import Smsc.Proofs.Server.Whole

/-!
# Smsc.Proofs.Server.Books — sessions that come and go, as a server remembers them

What is kept here is kept by every whole step, and also when somebody else has the server register or
forget a session, as often as he likes.

* `Books s`: the registry, the counters and the ids fit each other;
* `Server.Owns s name`: the names that a server should have published; `owns_register`, `owns_forget`:
  how they change;
* `Heard s`: the listener has been told of every session that has come, and of every one that has gone.
-/

namespace Smsc

/-- The session that the listener was told has come. -/
def ServerEvent.comes? : ServerEvent → Option Nat
  | .created n _ => some n
  | _ => none

/-- The session that the listener was told has gone. -/
def ServerEvent.goes? : ServerEvent → Option Nat
  | .destroyed n _ => some n
  | _ => none

namespace Server

variable {s t : Server} {connection n m : Nat} {name : String} {d : Directory ManagedObject}

/-! ## Ids -/

/-- The registry, the counters and the ids fit each other. -/
structure Books (s : Server) : Prop where
  filed : s.Filed
  counted : s.Counted
  lives : ∀ n x, s.session? n = some x → Lives x
  ids : ∀ n x, s.session? n = some x → x.id = UInt32.ofNat (n + 1)
  nextId : s.nextSessionId = UInt32.ofNat (s.sessions.length + 1)
  silent : s.sessions = [] → s.told = []

namespace Books

theorem quiet (h : s.Books) (quiet : s.Quiet t) : t.Books where
  filed := h.filed.congr quiet.sessions.length (by rw [quiet.same]) (by rw [quiet.same])
  counted := h.counted.quiet quiet
  lives := quiet.sessions.lives h.lives
  ids n y hy := by
    obtain ⟨x, hx, runs⟩ := quiet.sessions.back hy
    rw [runs.id (h.lives n x hx).orderly, h.ids n x hx]
  nextId := by
    rw [quiet.sessions.length, ← h.nextId, quiet.same]
  silent empty := by
    rw [quiet.told]
    refine h.silent (List.eq_nil_of_length_eq_zero ?_)
    rw [← quiet.sessions.length, empty]
    rfl

theorem register (h : s.Books) (peer : Option SocketAddress) : (s.registerSession peer).Books := by
  have hsame : s.registerSession peer = { (s.enroll peer).1 with
      created := (s.registerSession peer).created, destroyed := (s.registerSession peer).destroyed,
      publication := (s.registerSession peer).publication, log := (s.registerSession peer).log } := by
    rw [registerSession_eq, finishChange_same]
  have hsession (n : Nat) : (s.registerSession peer).session? n = (s.enroll peer).1.session? n := by
    rw [hsame]
    rfl
  refine ⟨?_, h.counted.registers h.filed peer, fun n x hx => ?_, fun n x hx => ?_, ?_, fun empty => ?_⟩
  · rw [hsame]
    exact (h.filed.enroll peer).congr rfl rfl rfl
  · rw [hsession] at hx
    by_cases hn : n = s.sessions.length
    · subst hn
      rw [session?_enroll_self] at hx
      obtain rfl := Option.some.inj hx
      exact ⟨_, _, _, _, _, _, .refl⟩
    · exact h.lives n x (session?_enroll s peer hn ▸ hx)
  · rw [hsession] at hx
    by_cases hn : n = s.sessions.length
    · subst hn
      rw [session?_enroll_self] at hx
      obtain rfl := Option.some.inj hx
      exact h.nextId
    · exact h.ids n x (session?_enroll s peer hn ▸ hx)
  · rw [hsame, enroll_eq]
    show s.nextSessionId + 1 = UInt32.ofNat ((s.sessions ++ [_]).length + 1)
    rw [h.nextId, List.length_append, List.length_singleton, UInt32.ofNat_add (s.sessions.length + 1) 1]
    rfl
  · rw [hsame, enroll_eq] at empty
    simp at empty

theorem forget (h : s.Books) (connection : Nat) : (s.forgetSession connection).Books := by
  cases found : s.registered.find? connection with
  | none =>
    rw [forgetSession_of_none found]
    exact h
  | some n =>
    have hcounted := h.counted.forgets h.filed connection
    rw [forgetSession_eq found, finishChange_same] at hcounted ⊢
    refine ⟨(h.filed.erase connection).congr rfl rfl rfl, hcounted, h.lives, h.ids, h.nextId, fun empty => ?_⟩
    -- There is a session, as it is registered.
    have hlt := (h.filed.pairs _ (h.filed.find?_iff.mp found).2).2
    have hempty : s.sessions = [] := empty
    simp [hempty] at hlt

theorem happens (h : s.Books) (happens : s.WholeHappens t) : t.Books := by
  cases happens with
  | quiet quiet => exact h.quiet quiet
  | registers peer quiet => exact (h.register peer).quiet quiet
  | forgets connection quiet => exact (h.forget connection).quiet quiet

theorem publish (h : s.Books) (publication : Publication ManagedObject) : Books { s with publication } :=
  ⟨h.filed.congr rfl rfl rfl, ⟨h.counted.created, h.counted.destroyed⟩, h.lives, h.ids, h.nextId, h.silent⟩

end Books

/-! ## Names -/

/-- The names that a server should have published: its own, and those of its sessions. -/
def Owns (s : Server) (name : String) : Prop :=
  name = serverObjectName s.settings.name ∨ ∃ e ∈ s.registered.entries, name = s.objectName e.2

/-- The name of the session that would be registered next. -/
def nextName (s : Server) : String := sessionObjectName s.settings.name s.nextSessionId

theorem Books.objectName_eq (h : s.Books) (lt : n < s.sessions.length) :
    s.objectName n = sessionObjectName s.settings.name (UInt32.ofNat (n + 1)) := by
  have hx : s.session? n = some s.sessions[n] := List.getElem?_eq_getElem lt
  rw [objectName, hx, Option.elim_some, h.ids n _ hx]

theorem ofNat_inj {i j : Nat} (hi : i < UInt32.size) (hj : j < UInt32.size)
    (h : UInt32.ofNat i = UInt32.ofNat j) : i = j := by
  have hnat := congrArg UInt32.toNat h
  rwa [UInt32.toNat_ofNat_of_lt' hi, UInt32.toNat_ofNat_of_lt' hj] at hnat

/-- Sessions of servers with different names, or different sessions of one, are published under different
names. -/
theorem Books.objectName_inj (hs : s.Books) (ht : t.Books) (hn : n < s.sessions.length)
    (hm : m < t.sessions.length) (few : s.sessions.length < UInt32.size) (few' : t.sessions.length < UInt32.size)
    (same : s.objectName n = t.objectName m) : s.settings.name = t.settings.name ∧ n = m := by
  rw [hs.objectName_eq hn, ht.objectName_eq hm] at same
  obtain ⟨hname, hid⟩ := sessionObjectName_inj same
  have := ofNat_inj (by omega) (by omega) hid
  exact ⟨hname, by omega⟩

theorem Books.nextName_ne (hs : s.Books) (ht : t.Books) (hm : m < t.sessions.length)
    (few : s.sessions.length + 1 < UInt32.size)
    (other : s.settings.name = t.settings.name → s.sessions.length = t.sessions.length) :
    s.nextName ≠ t.objectName m := by
  intro same
  rw [nextName, hs.nextId, ht.objectName_eq hm] at same
  obtain ⟨hname, hid⟩ := sessionObjectName_inj same
  have hlength := other hname
  have := ofNat_inj (by omega) (by omega) hid
  omega

theorem Quiet.objectName (h : s.Books) (quiet : s.Quiet t) (lt : n < s.sessions.length) :
    t.objectName n = s.objectName n := by
  rw [h.objectName_eq lt, (h.quiet quiet).objectName_eq (quiet.sessions.length ▸ lt), quiet.same]

theorem Quiet.owns (h : s.Books) (quiet : s.Quiet t) : t.Owns name ↔ s.Owns name := by
  have hregistered : t.registered = s.registered := by rw [quiet.same]
  have hsettings : t.settings = s.settings := by rw [quiet.same]
  unfold Owns
  rw [hregistered, hsettings]
  refine or_congr_right (exists_congr fun e => and_congr_right fun he => ?_)
  rw [quiet.objectName h (h.filed.pairs e he).2]

/-! ## The directory -/

/-- What the directory answers when a session is published or taken back. -/
def publishAnswer (s : Server) (c : Change) : Except ManagementError Unit :=
  if c.comes then (Publication.register s.publication (s.objectName c.session) (.session c.session)).2
  else (Publication.unregister s.publication (s.objectName c.session)).2

theorem publishes (published : s.publication = some d) (free : s.objectName n ∉ d.keys) (stage : ChangeStage) :
    (s.publishChange ⟨n, true, stage⟩).publication = some (d.insert (s.objectName n) (.session n)) ∧
      s.publishAnswer ⟨n, true, stage⟩ = .ok () := by
  have hfree : d.contains (s.objectName n) = false := by
    rw [← Bool.not_eq_true, Registry.contains_eq_true]
    exact free
  simp [publishChange, publishAnswer, published, Publication.register, Directory.register, hfree]

theorem takesBack (published : s.publication = some d) (there : s.objectName n ∈ d.keys) (stage : ChangeStage) :
    (s.publishChange ⟨n, false, stage⟩).publication = some (d.erase (s.objectName n)) ∧
      s.publishAnswer ⟨n, false, stage⟩ = .ok () := by
  have hthere : d.contains (s.objectName n) = true := Registry.contains_eq_true.mpr there
  simp [publishChange, publishAnswer, published, Publication.unregister, Directory.unregister, hthere]

/-- A session that is registered is published under the next name. -/
theorem register_publishes (peer : Option SocketAddress) (published : s.publication = some d)
    (free : s.nextName ∉ d.keys) :
    (s.registerSession peer).publication = some (d.insert s.nextName (.session s.sessions.length)) ∧
      (s.enroll peer).1.publishAnswer ⟨s.sessions.length, true, .counting⟩ = .ok () := by
  have hname : (s.enroll peer).1.objectName s.sessions.length = s.nextName := by
    rw [objectName, session?_enroll_self]
    rfl
  have hpublished : (s.enroll peer).1.publication = some d := published
  rw [registerSession_eq, finishChange_same]
  rw [← hname] at free ⊢
  exact publishes hpublished free .counting

/-- A session that is forgotten is taken back. -/
theorem forget_takesBack (found : s.registered.find? connection = some n) (published : s.publication = some d)
    (there : s.objectName n ∈ d.keys) :
    (s.forgetSession connection).publication = some (d.erase (s.objectName n)) ∧
      publishAnswer { s with registered := s.registered.erase connection } ⟨n, false, .counting⟩ = .ok () := by
  rw [forgetSession_eq found, finishChange_same]
  exact takesBack (s := { s with registered := s.registered.erase connection }) published there .counting

theorem Books.owns_register (h : s.Books) (peer : Option SocketAddress) :
    (s.registerSession peer).Owns name ↔ name = s.nextName ∨ s.Owns name := by
  have hbooks := h.register peer
  have hregistered (e : Nat × Nat) : e ∈ (s.registerSession peer).registered.entries ↔
      e = (s.sessions.length + 1, s.sessions.length) ∨ e ∈ s.registered.entries := by
    rw [registerSession_eq, finishChange_same]
    exact h.filed.mem_enroll peer
  have hlength := registerSession_length s peer
  have hsettings := registerSession_settings s peer
  have hname {n : Nat} (lt : n < s.sessions.length + 1) :
      (s.registerSession peer).objectName n = sessionObjectName s.settings.name (UInt32.ofNat (n + 1)) := by
    rw [hbooks.objectName_eq (hlength ▸ lt), hsettings]
  unfold Owns
  rw [hsettings, nextName, h.nextId]
  constructor
  · rintro (hserver | ⟨e, he, rfl⟩)
    · exact .inr (.inl hserver)
    · rcases (hregistered e).mp he with rfl | he
      · exact .inl (hname (Nat.lt_succ_self _))
      · have hlt := (h.filed.pairs e he).2
        exact .inr (.inr ⟨e, he, by rw [hname (Nat.lt_succ_of_lt hlt), h.objectName_eq hlt]⟩)
  · rintro (rfl | hserver | ⟨e, he, rfl⟩)
    · exact .inr ⟨_, (hregistered _).mpr (.inl rfl), (hname (Nat.lt_succ_self _)).symm⟩
    · exact .inl hserver
    · have hlt := (h.filed.pairs e he).2
      exact .inr ⟨e, (hregistered e).mpr (.inr he), by rw [hname (Nat.lt_succ_of_lt hlt), h.objectName_eq hlt]⟩

theorem Books.owns_forget (h : s.Books) (few : s.sessions.length < UInt32.size)
    (found : s.registered.find? connection = some n) :
    (s.forgetSession connection).Owns name ↔ s.Owns name ∧ name ≠ s.objectName n := by
  obtain ⟨rfl, hmem⟩ := h.filed.find?_iff.mp found
  rw [forgetSession_eq found, finishChange_same]
  show (name = serverObjectName s.settings.name ∨
    ∃ e ∈ (s.registered.erase (n + 1)).entries, name = s.objectName e.2) ↔ _
  have hlt := (h.filed.pairs _ hmem).2
  constructor
  · rintro (rfl | ⟨e, he, rfl⟩)
    · refine ⟨.inl rfl, ?_⟩
      rw [h.objectName_eq hlt]
      exact serverObjectName_ne _ _ _
    · obtain ⟨he, hne⟩ := Registry.mem_erase.mp he
      refine ⟨.inr ⟨e, he, rfl⟩, fun same => hne ?_⟩
      obtain ⟨hpair, hlt'⟩ := h.filed.pairs e he
      rw [hpair, (h.objectName_inj h hlt' hlt few few same).2]
  · rintro ⟨rfl | ⟨e, he, rfl⟩, hne⟩
    · exact .inl rfl
    · refine .inr ⟨e, Registry.mem_erase.mpr ⟨he, fun heq => hne ?_⟩, rfl⟩
      have := (h.filed.pairs e he).1
      rw [show e.2 = n by omega]

/-! ## The listener -/

/-- The sessions of which the listener was told that they have come, the newest first. -/
def createdHooks (s : Server) : List Nat := s.log.filterMap (·.comes?)

/-- The sessions of which the listener was told that they have gone, the newest first. -/
def destroyedHooks (s : Server) : List Nat := s.log.filterMap (·.goes?)

theorem createdHooks_eq (s : Server) : s.createdHooks = s.told.filterMap (·.comes?) :=
  s.filterMap_log _ fun e he => by cases e <;> first | rfl | cases he

theorem destroyedHooks_eq (s : Server) : s.destroyedHooks = s.told.filterMap (·.goes?) :=
  s.filterMap_log _ fun e he => by cases e <;> first | rfl | cases he

/-- The listener has been told of every session that has come, and of every one that has gone. -/
structure Heard (s : Server) : Prop where
  listener : s.hasListener = true
  created : s.createdHooks.Perm (List.range s.sessions.length)
  destroyed : (s.destroyedHooks ++ s.registered.entries.map (·.2)).Perm (List.range s.sessions.length)

/-- A listener who was there before the first session has missed none. -/
theorem Books.heard (h : s.Books) (empty : s.sessions = []) (listener : s.hasListener = true) : s.Heard := by
  have hsilent := h.silent empty
  have hregistered : s.registered.entries = [] := List.eq_nil_iff_forall_not_mem.mpr fun e he => by
    have hlt := (h.filed.pairs e he).2
    simp [empty] at hlt
  refine ⟨listener, ?_, ?_⟩
  · rw [createdHooks_eq, hsilent, empty]
    exact .nil
  · rw [destroyedHooks_eq, hsilent, hregistered, empty]
    exact .nil

namespace Heard

theorem quiet (h : s.Heard) (quiet : s.Quiet t) : t.Heard := by
  have hregistered : t.registered = s.registered := by rw [quiet.same]
  refine ⟨quiet.listener h.listener, ?_, ?_⟩
  · rw [createdHooks_eq, quiet.told, quiet.sessions.length, ← createdHooks_eq]
    exact h.created
  · rw [destroyedHooks_eq, quiet.told, quiet.sessions.length, ← destroyedHooks_eq, hregistered]
    exact h.destroyed

theorem register (h : s.Heard) (hf : s.Filed) (peer : Option SocketAddress) : (s.registerSession peer).Heard := by
  have htold : (s.registerSession peer).told =
      (s.enroll peer).1.announcement ⟨s.sessions.length, true, .counting⟩ :: s.told := by
    rw [registerSession_eq, finishChange_told]
    exact if_pos h.listener
  have hcreated : (s.registerSession peer).createdHooks = s.sessions.length :: s.createdHooks := by
    rw [createdHooks_eq, htold, createdHooks_eq]
    rfl
  have hdestroyed : (s.registerSession peer).destroyedHooks = s.destroyedHooks := by
    rw [destroyedHooks_eq, htold, destroyedHooks_eq]
    rfl
  have hlength := registerSession_length s peer
  have hregistered : (s.registerSession peer).registered =
      s.registered.insert s.nextConnection s.sessions.length := by
    rw [registerSession_eq, finishChange_same, enroll_eq]
  have hrange : (List.range (s.sessions.length + 1)).Perm (s.sessions.length :: List.range s.sessions.length) := by
    rw [List.range_succ]
    exact List.perm_append_comm
  refine ⟨?_, ?_, ?_⟩
  · rw [registerSession_eq, finishChange_same]
    exact h.listener
  · rw [hcreated, hlength]
    exact (h.created.cons _).trans hrange.symm
  · rw [hdestroyed, hlength, hregistered]
    refine (List.Perm.append_left _ ((Registry.insert_perm hf.fresh).map (·.2))).trans ?_
    exact List.perm_middle.trans ((h.destroyed.cons _).trans hrange.symm)

theorem forget (h : s.Heard) (hf : s.Filed) (connection : Nat) : (s.forgetSession connection).Heard := by
  cases found : s.registered.find? connection with
  | none =>
    rw [forgetSession_of_none found]
    exact h
  | some n =>
    have htold : (s.forgetSession connection).told =
        announcement { s with registered := s.registered.erase connection } ⟨n, false, .counting⟩ :: s.told := by
      rw [forgetSession_eq found, finishChange_told]
      exact if_pos h.listener
    have hcreated : (s.forgetSession connection).createdHooks = s.createdHooks := by
      rw [createdHooks_eq, htold, createdHooks_eq]
      rfl
    have hdestroyed : (s.forgetSession connection).destroyedHooks = n :: s.destroyedHooks := by
      rw [destroyedHooks_eq, htold, destroyedHooks_eq]
      rfl
    rw [forgetSession_eq found, finishChange_same] at hcreated hdestroyed ⊢
    refine ⟨h.listener, hcreated ▸ h.created, ?_⟩
    rw [hdestroyed]
    show (n :: (s.destroyedHooks ++ (s.registered.erase connection).entries.map (·.2))).Perm _
    have herase := Registry.erase_perm hf.distinct ((Registry.find?_eq_some hf.distinct).mp found)
    exact (List.perm_middle.symm.trans ((herase.symm.map (·.2)).append_left _)).trans h.destroyed

theorem happens (h : s.Heard) (hf : s.Filed) (happens : s.WholeHappens t) : t.Heard := by
  cases happens with
  | quiet quiet => exact h.quiet quiet
  | registers peer quiet => exact (h.register hf peer).quiet quiet
  | forgets connection quiet => exact (h.forget hf connection).quiet quiet

theorem publish (h : s.Heard) (publication : Publication ManagedObject) : Heard { s with publication } :=
  ⟨h.listener, h.created, h.destroyed⟩

theorem count_created (h : s.Heard) (n : Nat) : s.createdHooks.count n = if n < s.sessions.length then 1 else 0 := by
  rw [h.created.count_eq]
  split
  · rename_i lt
    exact List.count_eq_one_of_mem List.nodup_range (List.mem_range.mpr lt)
  · rename_i nlt
    exact List.count_eq_zero.mpr fun hmem => nlt (List.mem_range.mp hmem)

/-- Once a session is no longer registered, the listener has been told so once. -/
theorem count_destroyed (h : s.Heard) (hf : s.Filed) (n : Nat) :
    s.destroyedHooks.count n = if n < s.sessions.length ∧ (n + 1, n) ∉ s.registered.entries then 1 else 0 := by
  have hnodup : (s.registered.entries.map (·.2)).Nodup :=
    List.Nodup.sublist (List.sublist_append_right ..) (h.destroyed.nodup_iff.mpr List.nodup_range)
  have hmem : n ∈ s.registered.entries.map (·.2) ↔ (n + 1, n) ∈ s.registered.entries := by
    rw [List.mem_map]
    constructor
    · rintro ⟨⟨connection, m⟩, he, rfl⟩
      obtain rfl : connection = m + 1 := (hf.pairs _ he).1
      exact he
    · exact fun he => ⟨_, he, rfl⟩
  have hcount := h.destroyed.count_eq n
  rw [← h.created.count_eq, h.count_created, List.count_append] at hcount
  by_cases hregistered : (n + 1, n) ∈ s.registered.entries
  · have hlt := (hf.pairs _ hregistered).2
    rw [List.count_eq_one_of_mem hnodup (hmem.mpr hregistered), if_pos hlt] at hcount
    rw [if_neg fun h => h.2 hregistered]
    omega
  · rw [List.count_eq_zero.mpr fun h => hregistered (hmem.mp h), Nat.add_zero] at hcount
    simpa [hregistered] using hcount

end Heard

end Server

end Smsc
