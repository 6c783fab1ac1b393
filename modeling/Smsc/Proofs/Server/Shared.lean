import Smsc.Proofs.Server.Books
import Smsc.Proofs.Server.Clearing

/-!
# Smsc.Proofs.Server.Shared — two servers that publish in one directory

Each of them has sessions registered and forgotten, by its own tasks or on somebody's request, and each may
be stopped and started. The other one is always in the middle of something, too.

* `Pair`, `Pair.Operation`, `Pair.after`: two servers, and what is done to them;
* `Agrees p`: the directory holds the names that the two own, and no other; `Agrees.happens`;
* `Mirrored p`, `HasTold s`, `mirrored`: the directory, the counters and the ids, and what the listeners have
  been told, at every point of every run.
-/

namespace Smsc

/-- One of two servers. -/
inductive Side where
  | first
  | second
  deriving DecidableEq, Repr

/-- Two servers that publish in one directory. -/
abbrev Pair := Side → Server

namespace Pair

/-- Something happens to one server, and the other one finds the directory as it was left. -/
def update (p : Pair) (side : Side) (t : Server) : Pair := fun other =>
  if other = side then t else { p other with publication := t.publication }

/-- What is done to one of the servers. -/
inductive Operation where
  | register (side : Side) (peer : Option SocketAddress)
  | forget (side : Side) (connection : Nat)
  /-- It takes a step, as when it is stopped. -/
  | step (side : Side) (x : Server.Step)
  deriving Repr

def apply (p : Pair) : Operation → Pair
  | .register side peer => p.update side ((p side).registerSession peer)
  | .forget side connection => p.update side ((p side).forgetSession connection)
  | .step side x => p.update side ((p side).wholeStep x)

def after (p : Pair) (xs : List Operation) : Pair := xs.foldl apply p

/-- Two new servers, in a directory that was empty. -/
def fresh (settings : Side → ServerSettings) (sessionSettings : Side → SessionSettings) (processor : Side → Nat) :
    Pair :=
  let first := Server.fresh (settings .first) (sessionSettings .first) (some .empty) (processor .first)
  let second :=
    Server.fresh (settings .second) (sessionSettings .second) first.publication (processor .second)
  update (fun _ => first) .second second

theorem after_append (p : Pair) (xs ys : List Operation) : p.after (xs ++ ys) = (p.after xs).after ys := by
  simp [after]

variable {p : Pair} {side : Side} {t : Server} {settings : Side → ServerSettings}

@[simp] theorem update_self (p : Pair) (side : Side) (t : Server) : p.update side t side = t := if_pos rfl

theorem update_of_ne (p : Pair) (t : Server) {side other : Side} (h : other ≠ side) :
    p.update side t other = { p other with publication := t.publication } := if_neg h

/-! ## What each server keeps -/

/-- What each of the servers keeps. -/
structure Keeps (settings : ServerSettings) (s : Server) : Prop where
  settings : s.settings = settings
  numbered : s.Numbered
  whole : s.Whole
  books : s.Books

def Kept (settings : Side → ServerSettings) (p : Pair) : Prop := ∀ side, Keeps (settings side) (p side)

/-- An operation registers a session, forgets one, or concerns neither. -/
theorem Kept.happens (h : p.Kept settings) (x : Operation) :
    ∃ side t, p.apply x = p.update side t ∧ (p side).WholeHappens t ∧ t.Whole ∧ t.Numbered := by
  cases x with
  | register side peer =>
    obtain ⟨tasks, nextTask⟩ := Server.registerSession_tasks (p side) peer
    exact ⟨side, _, rfl, .registers peer (.refl _), (h side).whole.congr tasks,
      (h side).numbered.congr tasks nextTask⟩
  | forget side connection =>
    have tasks := Server.forgetSession_tasks (p side) connection
    exact ⟨side, _, rfl, .forgets connection (.refl _), (h side).whole.congr tasks.1,
      (h side).numbered.congr tasks.1 tasks.2⟩
  | step side x =>
    obtain ⟨happens, whole⟩ := (h side).whole.step (h side).numbered x
    refine ⟨side, _, rfl, happens, whole, ?_⟩
    obtain ⟨xs, hxs⟩ := Server.wholeStep_after (p side) x
    exact hxs ▸ Server.after_induct (fun _ x ht => ht.step x) (h side).numbered xs

theorem Kept.update (h : p.Kept settings) (happens : (p side).WholeHappens t) (whole : t.Whole)
    (numbered : t.Numbered) : (p.update side t).Kept settings := by
  intro other
  obtain ⟨hsettings, hnumbered, hwhole, hbooks⟩ := h other
  by_cases hother : other = side
  · subst hother
    rw [update_self]
    exact ⟨happens.settings.trans hsettings, numbered, whole, hbooks.happens happens⟩
  · rw [update_of_ne p t hother]
    exact ⟨hsettings, hnumbered.congr rfl rfl, hwhole.congr rfl, hbooks.publish _⟩

/-! ## The directory -/

/-- The directory holds the names that the two own, and no other. -/
def Agrees (p : Pair) : Prop :=
  ∃ d, (∀ side, (p side).publication = some d) ∧ d.Distinct ∧ ∀ name, name ∈ d.keys ↔ ∃ side, (p side).Owns name

/-- Fewer sessions than there are ids. -/
def IsFew (p : Pair) : Prop := ∀ side, (p side).sessions.length < UInt32.size

/-- What one server changes in the directory is what changes about the names that it owns. -/
theorem Agrees.update {d : Directory ManagedObject} (published : t.publication = some d) (distinct : d.Distinct)
    (changes : ∀ name, name ∈ d.keys ↔ t.Owns name ∨ ∃ other, other ≠ side ∧ (p other).Owns name) :
    (p.update side t).Agrees := by
  refine ⟨d, fun other => ?_, distinct, fun name => ?_⟩
  · by_cases hother : other = side
    · subst hother
      rw [update_self, published]
    · rw [update_of_ne p t hother, published]
  · rw [changes]
    constructor
    · rintro (howns | ⟨other, hother, howns⟩)
      · exact ⟨side, by rwa [update_self]⟩
      · exact ⟨other, by rw [update_of_ne p t hother]; exact howns⟩
    · rintro ⟨other, howns⟩
      by_cases hother : other = side
      · subst hother
        exact .inl (by rwa [update_self] at howns)
      · rw [update_of_ne p t hother] at howns
        exact .inr ⟨other, hother, howns⟩

/-- The name of a session to come is not in use. -/
theorem Kept.nextName_notOwned (h : p.Kept settings) (names : (settings .first).name ≠ (settings .second).name)
    (few : (p side).sessions.length + 1 < UInt32.size) (other : Side) : ¬ (p other).Owns (p side).nextName := by
  rintro (hserver | ⟨e, he, hsession⟩)
  · exact serverObjectName_ne _ _ _ hserver.symm
  · refine (h side).books.nextName_ne (h other).books ((h other).books.filed.pairs e he).2 few (fun same => ?_)
      hsession
    rw [(h side).settings, (h other).settings] at same
    cases side <;> cases other <;> first | rfl | exact absurd same names | exact absurd same.symm names

/-- Another server does not own the name of a session. -/
theorem Kept.objectName_notOwned (h : p.Kept settings) (names : (settings .first).name ≠ (settings .second).name)
    (few : p.IsFew) {n : Nat} (lt : n < (p side).sessions.length) {other : Side} (ne : other ≠ side) :
    ¬ (p other).Owns ((p side).objectName n) := by
  rintro (hserver | ⟨e, he, hsession⟩)
  · rw [(h side).books.objectName_eq lt] at hserver
    exact serverObjectName_ne _ _ _ hserver.symm
  · obtain ⟨same, -⟩ := (h side).books.objectName_inj (h other).books lt ((h other).books.filed.pairs e he).2
      (few side) (few other) hsession
    rw [(h side).settings, (h other).settings] at same
    cases side <;> cases other <;> first | exact ne rfl | exact names same | exact names same.symm

/-- A name in the directory is the server's own, or another one's. -/
theorem mem_iff_of_owned {d : Directory ManagedObject} {name : String}
    (owned : name ∈ d.keys ↔ ∃ side, (p side).Owns name) (side : Side) :
    name ∈ d.keys ↔ (p side).Owns name ∨ ∃ other, other ≠ side ∧ (p other).Owns name := by
  rw [owned]
  constructor
  · rintro ⟨other, howns⟩
    by_cases hother : other = side
    · exact .inl (hother ▸ howns)
    · exact .inr ⟨other, hother, howns⟩
  · rintro (howns | ⟨other, -, howns⟩)
    · exact ⟨side, howns⟩
    · exact ⟨other, howns⟩

namespace Agrees

theorem quiet (h : p.Agrees) (hk : p.Kept settings) (quiet : (p side).Quiet t) : (p.update side t).Agrees := by
  obtain ⟨d, published, distinct, owned⟩ := h
  refine .update (d := d) (by rw [quiet.same, published]) distinct fun name => ?_
  rw [quiet.owns (hk side).books, mem_iff_of_owned (owned name) side]

theorem registers (h : p.Agrees) (hk : p.Kept settings) (names : (settings .first).name ≠ (settings .second).name)
    (few : (p side).sessions.length + 1 < UInt32.size) (peer : Option SocketAddress)
    (quiet : ((p side).registerSession peer).Quiet t) : (p.update side t).Agrees := by
  obtain ⟨d, published, distinct, owned⟩ := h
  have hbooks := (hk side).books
  have free : (p side).nextName ∉ d.keys := by
    rw [owned]
    rintro ⟨other, howns⟩
    exact hk.nextName_notOwned names few other howns
  have hpublished := (Server.register_publishes peer (published side) free).1
  refine .update (by rw [quiet.same, hpublished]) (distinct.insert free _) fun name => ?_
  rw [quiet.owns (hbooks.register peer), hbooks.owns_register, (Registry.keys_insert free).mem_iff, List.mem_cons,
    mem_iff_of_owned (owned name) side, or_assoc]

theorem forgets (h : p.Agrees) (hk : p.Kept settings) (names : (settings .first).name ≠ (settings .second).name)
    (few : p.IsFew) {connection n : Nat} (found : (p side).registered.find? connection = some n)
    (quiet : ((p side).forgetSession connection).Quiet t) : (p.update side t).Agrees := by
  obtain ⟨d, published, distinct, owned⟩ := h
  have hbooks := (hk side).books
  have hentry := (hbooks.filed.find?_iff.mp found).2
  have hlt := (hbooks.filed.pairs _ hentry).2
  have there : (p side).objectName n ∈ d.keys := (owned _).mpr ⟨side, .inr ⟨_, hentry, rfl⟩⟩
  have hpublished := (Server.forget_takesBack found (published side) there).1
  refine .update (by rw [quiet.same, hpublished]) (distinct.erase _) fun name => ?_
  rw [quiet.owns (hbooks.forget connection), hbooks.owns_forget (few side) found, Registry.mem_keys_erase,
    mem_iff_of_owned (owned name) side]
  constructor
  · rintro ⟨howns | hother, hne⟩
    · exact .inl ⟨howns, hne⟩
    · exact .inr hother
  · rintro (howns | ⟨other, ne, howns⟩)
    · exact ⟨.inl howns.1, howns.2⟩
    · exact ⟨.inr ⟨other, ne, howns⟩, fun heq => hk.objectName_notOwned names few hlt ne (heq ▸ howns)⟩

theorem happens (h : p.Agrees) (hk : p.Kept settings) (names : (settings .first).name ≠ (settings .second).name)
    (few : (p.update side t).IsFew) (happens : (p side).WholeHappens t) : (p.update side t).Agrees := by
  have hlength : t.sessions.length < UInt32.size := by simpa using few side
  have hfew : p.IsFew := fun other => by
    by_cases hother : other = side
    · subst hother
      exact Nat.lt_of_le_of_lt happens.length_le hlength
    · have := few other
      rwa [update_of_ne p t hother] at this
  cases happens with
  | quiet quiet => exact h.quiet hk quiet
  | registers peer quiet =>
    rw [quiet.sessions.length, Server.registerSession_length] at hlength
    exact h.registers hk names hlength peer quiet
  | forgets connection quiet =>
    cases found : (p side).registered.find? connection with
    | none =>
      rw [Server.forgetSession_of_none found] at quiet
      exact h.quiet hk quiet
    | some n => exact h.forgets hk names hfew found quiet

end Agrees

/-! ## Runs -/

/-- What the directory answers to the two servers when they are made. -/
def freshAnswers (settings : Side → ServerSettings) : Except ManagementError Unit × Except ManagementError Unit :=
  let (directory, answer) :=
    Publication.register (some .empty) (serverObjectName (settings .first).name) ManagedObject.server
  (answer, (Publication.register directory (serverObjectName (settings .second).name) ManagedObject.server).2)

section Fresh

variable (settings : Side → ServerSettings) (sessionSettings : Side → SessionSettings) (processor : Side → Nat)

/-- The directory with the two servers in it. -/
def directory : Directory ManagedObject :=
  (Registry.empty.insert (serverObjectName (settings .first).name) .server).insert
    (serverObjectName (settings .second).name) .server

/-- The two servers find their names free. -/
theorem fresh_registers (names : (settings .first).name ≠ (settings .second).name) :
    freshAnswers settings = (.ok (), .ok ()) ∧
      ∀ side, fresh settings sessionSettings processor side =
        { Server.fresh (settings side) (sessionSettings side) none (processor side) with
          publication := some (directory settings) } := by
  have hne : serverObjectName (settings .second).name ≠ serverObjectName (settings .first).name :=
    fun h => names (serverObjectName_inj h).symm
  have register₁ : Publication.register (some .empty) (serverObjectName (settings .first).name) ManagedObject.server =
      (some (Registry.empty.insert (serverObjectName (settings .first).name) .server), .ok ()) := rfl
  have register₂ : Publication.register
        (some (Registry.empty.insert (serverObjectName (settings .first).name) ManagedObject.server))
        (serverObjectName (settings .second).name) ManagedObject.server =
      (some (directory settings), .ok ()) := by
    have hfree : (Registry.empty.insert (serverObjectName (settings .first).name) ManagedObject.server).contains
        (serverObjectName (settings .second).name) = false := by
      rw [← Bool.not_eq_true, Registry.contains_eq_true]
      exact fun h => hne (List.mem_singleton.mp h)
    simp [Publication.register, Directory.register, hfree, directory]
  constructor
  · rw [freshAnswers, register₁]
    dsimp only
    rw [register₂]
  · rintro (_ | _) <;> simp only [fresh, Server.fresh, register₁, register₂, update, if_true, reduceCtorEq, if_false]

theorem mem_directory (names : (settings .first).name ≠ (settings .second).name) :
    (directory settings).Distinct ∧ ∀ name, name ∈ (directory settings).keys ↔
      ∃ side, name = serverObjectName (settings side).name := by
  have hne : serverObjectName (settings .second).name ≠ serverObjectName (settings .first).name :=
    fun h => names (serverObjectName_inj h).symm
  have hfree : serverObjectName (settings .second).name ∉
      (Registry.empty.insert (serverObjectName (settings .first).name) ManagedObject.server).keys :=
    fun h => hne (List.mem_singleton.mp h)
  have hone : (Registry.empty.insert (serverObjectName (settings .first).name) ManagedObject.server).Distinct :=
    List.nodup_singleton _
  refine ⟨hone.insert hfree _, fun name => ?_⟩
  rw [directory, (Registry.keys_insert hfree).mem_iff, List.mem_cons]
  constructor
  · rintro (h | h)
    · exact ⟨.second, h⟩
    · exact ⟨.first, List.mem_singleton.mp h⟩
  · rintro ⟨_ | _, h⟩
    · exact .inr (List.mem_singleton.mpr h)
    · exact .inl h

theorem fresh_kept (names : (settings .first).name ≠ (settings .second).name) :
    (fresh settings sessionSettings processor).Kept settings := by
  have hfresh := (fresh_registers settings sessionSettings processor names).2
  have noSession (n : Nat) (x : Session) (hx : ([] : List Session)[n]? = some x) : False := by simp at hx
  intro side
  rw [hfresh]
  refine ⟨rfl, ?_, nofun, ?_⟩
  · exact (Server.fresh_numbered (settings side) (sessionSettings side) none (processor side)).congr rfl rfl
  · refine Server.Books.publish (s := Server.fresh (settings side) (sessionSettings side) none (processor side)) ?_ _
    exact ⟨(Server.fresh_sound ..).matched.toFiled, ⟨rfl, rfl⟩, fun n x hx => (noSession n x hx).elim,
      fun n x hx => (noSession n x hx).elim, rfl, fun _ => rfl⟩

theorem fresh_agrees (names : (settings .first).name ≠ (settings .second).name) :
    (fresh settings sessionSettings processor).Agrees := by
  have hfresh := (fresh_registers settings sessionSettings processor names).2
  obtain ⟨distinct, hmem⟩ := mem_directory settings names
  refine ⟨directory settings, fun side => by rw [hfresh], distinct, fun name => ?_⟩
  rw [hmem]
  refine exists_congr fun side => ?_
  rw [hfresh]
  exact (or_iff_left fun ⟨e, he, _⟩ => absurd he List.not_mem_nil).symm

end Fresh

/-! ## Every point of a run -/

/-- The directory, the counters and the ids of two servers. -/
structure Mirrored (p : Pair) : Prop where
  /-- What is published are the two servers and the sessions that are registered. -/
  names : ∃ d, (∀ side, (p side).publication = some d) ∧ d.keys.Nodup ∧ ∀ name, name ∈ d.keys ↔
    ∃ side, name = serverObjectName (p side).settings.name ∨
      ∃ e ∈ (p side).registered.entries, name = (p side).objectName e.2
  /-- Whichever session came next, the directory would take it. -/
  published : ∀ side peer s connection c, (p side).sessions.length + 1 < UInt32.size →
    (p side).enroll peer = (s, connection, c) → s.publishAnswer c = .ok ()
  /-- Whichever session went next, the directory would give it back. -/
  takenBack : ∀ side connection s c, (p side).remove? connection = some (s, c) → s.publishAnswer c = .ok ()
  ids : ∀ side i j x y, (p side).session? i = some x → (p side).session? j = some y → x.id = y.id → i = j
  counts : ∀ side, (p side).created = (p side).destroyed + (p side).registered.size

/-- The listener of a server was told once of each session that has come, and once of each that has gone. -/
structure HasTold (s : Server) : Prop where
  created : ∀ n, s.createdHooks.count n = if n < s.sessions.length then 1 else 0
  destroyed : ∀ n, s.destroyedHooks.count n =
    if n < s.sessions.length ∧ (n + 1, n) ∉ s.registered.entries then 1 else 0

theorem Agrees.isMirrored (h : p.Agrees) (hk : p.Kept settings)
    (names : (settings .first).name ≠ (settings .second).name) (few : p.IsFew) : p.Mirrored := by
  obtain ⟨d, published, distinct, owned⟩ := h
  refine ⟨⟨d, published, distinct, owned⟩, ?_, ?_, ?_, fun side => ?_⟩
  · intro side peer s connection c few enrolled
    obtain rfl : ((p side).enroll peer).1 = s := by rw [enrolled]
    obtain rfl : ((p side).enroll peer).2.2 = c := by rw [enrolled]
    refine (Server.register_publishes peer (published side) fun hmem => ?_).2
    obtain ⟨other, howns⟩ := (owned _).mp hmem
    exact hk.nextName_notOwned names few other howns
  · intro side connection s c removed
    obtain ⟨n, found, rfl, rfl⟩ := Server.remove?_eq_some.mp removed
    have hentry := ((hk side).books.filed.find?_iff.mp found).2
    exact (Server.forget_takesBack found (published side) ((owned _).mpr ⟨side, .inr ⟨_, hentry, rfl⟩⟩)).2
  · intro side i j x y hx hy same
    rw [(hk side).books.ids i x hx, (hk side).books.ids j y hy] at same
    have hi := (List.getElem?_eq_some_iff.mp hx).1
    have hj := (List.getElem?_eq_some_iff.mp hy).1
    have hfew := few side
    have := Server.ofNat_inj (by omega) (by omega) same
    omega
  · have hcounted := (hk side).books.counted
    rw [hcounted.created, hcounted.destroyed]

theorem after_kept (hk : p.Kept settings) (xs : List Operation) : (p.after xs).Kept settings := by
  induction xs generalizing p with
  | nil => exact hk
  | cons x xs ih =>
    obtain ⟨side, t, heq, happens, whole, numbered⟩ := hk.happens x
    refine ih ?_
    rw [heq]
    exact hk.update happens whole numbered

/-- The sessions of a server never get fewer. -/
theorem length_le_after (hk : p.Kept settings) (xs : List Operation) (side : Side) :
    (p side).sessions.length ≤ (p.after xs side).sessions.length := by
  induction xs generalizing p with
  | nil => exact Nat.le_refl _
  | cons x xs ih =>
    obtain ⟨other, t, heq, happens, whole, numbered⟩ := hk.happens x
    have hnext := ih (heq ▸ hk.update happens whole numbered : (p.apply x).Kept settings)
    refine Nat.le_trans ?_ hnext
    rw [heq]
    by_cases hother : side = other
    · subst hother
      rw [update_self]
      exact happens.length_le
    · rw [update_of_ne p t hother]

theorem Agrees.after (h : p.Agrees) (hk : p.Kept settings)
    (names : (settings .first).name ≠ (settings .second).name) (xs : List Operation) (few : (p.after xs).IsFew) :
    (p.after xs).Agrees := by
  induction xs generalizing p with
  | nil => exact h
  | cons x xs ih =>
    obtain ⟨side, t, heq, happens, whole, numbered⟩ := hk.happens x
    have hnext := hk.update happens whole numbered
    have hfew : (p.update side t).IsFew := fun other =>
      Nat.lt_of_le_of_lt (length_le_after hnext xs other) (heq ▸ few other)
    exact ih (heq ▸ h.happens hk names hfew happens) (heq ▸ hnext) few

theorem heard_after (hk : p.Kept settings) (heard : (p side).Heard) (xs : List Operation) :
    (p.after xs side).Heard := by
  induction xs generalizing p with
  | nil => exact heard
  | cons x xs ih =>
    obtain ⟨other, t, heq, happens, whole, numbered⟩ := hk.happens x
    refine ih (heq ▸ hk.update happens whole numbered : (p.apply x).Kept settings) ?_
    rw [heq]
    by_cases hother : side = other
    · subst hother
      rw [update_self]
      exact heard.happens (hk side).books.filed happens
    · rw [update_of_ne p t hother]
      exact heard.publish _

/-- At every point of every run the directory mirrors the sessions of the two servers, nothing that they ask
of it fails, and a listener who was there before the first session has missed none. -/
theorem mirrored (settings : Side → ServerSettings) (sessionSettings : Side → SessionSettings)
    (processor : Side → Nat) (names : (settings .first).name ≠ (settings .second).name) (xs : List Operation)
    (few : ((fresh settings sessionSettings processor).after xs).IsFew) :
    freshAnswers settings = (.ok (), .ok ()) ∧ ((fresh settings sessionSettings processor).after xs).Mirrored ∧
      ∀ side ys zs, xs = ys ++ zs → ((fresh settings sessionSettings processor).after ys side).sessions = [] →
        ((fresh settings sessionSettings processor).after ys side).hasListener = true →
        HasTold ((fresh settings sessionSettings processor).after xs side) := by
  have hkept := fresh_kept settings sessionSettings processor names
  have hagrees := (fresh_agrees settings sessionSettings processor names).after hkept names xs few
  refine ⟨(fresh_registers settings sessionSettings processor names).1,
    hagrees.isMirrored (after_kept hkept xs) names few, ?_⟩
  rintro side ys zs rfl empty listener
  rw [after_append]
  have hearly := after_kept hkept ys
  have heard := heard_after hearly ((hearly side).books.heard empty listener) zs
  exact ⟨heard.count_created, heard.count_destroyed ((after_kept hearly zs) side).books.filed⟩

/-- Two servers, of which the second is called what could be the end of the name of a session. -/
def lookalikes : Side → ServerSettings
  | .first => ⟨"a", .v4 ⟨0, 0, 0, 0⟩ 2775, "smsc", ⟨1000⟩⟩
  | .second => ⟨"a,id=session-1", .v4 ⟨0, 0, 0, 0⟩ 2776, "smsc", ⟨1000⟩⟩

/-- Both have a session, and that of the first is reported gone twice. -/
def comings : List Operation :=
  [.step .first (.feel .listen), .register .first none, .register .second none, .register .first none,
    .forget .first 1, .forget .first 1]

theorem lookalikes_mirrored :
    (lookalikes .first).name ≠ (lookalikes .second).name ∧
      HasTold ((fresh lookalikes (fun _ => ⟨10, ⟨1000⟩, ⟨1000⟩, ⟨1000⟩⟩) (fun _ => 0)).after comings .first) ∧
      ((fresh lookalikes (fun _ => ⟨10, ⟨1000⟩, ⟨1000⟩, ⟨1000⟩⟩) (fun _ => 0)).after comings).Mirrored := by
  have names : (lookalikes .first).name ≠ (lookalikes .second).name := by decide
  obtain ⟨-, hmirrored, htold⟩ := mirrored lookalikes (fun _ => ⟨10, ⟨1000⟩, ⟨1000⟩, ⟨1000⟩⟩) (fun _ => 0) names
    comings (by rintro (_ | _) <;> decide +kernel)
  exact ⟨names, htold .first [.step .first (.feel .listen)] _ rfl rfl rfl, hmirrored⟩

end Pair

end Smsc
