import Mathlib.Data.List.TakeWhile
import Smsc.Management.Basic
import Smsc.Proofs.Registry

/-!
# Smsc.Proofs.Management.Names — names tell objects apart

A server may be called anything, also something that looks like the end of the name of a session. Still no
two objects share a name: the id of a session is what follows the last dash.

* `serverObjectName_inj`, `sessionObjectName_inj`: within a kind;
* `serverObjectName_ne`: between the kinds;
* `Publication.mem_register`, `Publication.mem_unregister`: where an object that stands in a directory comes
  from, and what is taken back is gone.
-/

namespace Smsc

theorem digits_eq (n : Nat) : (toString n).toList = Nat.toDigits 10 n := by
  rw [Nat.toString_eq_repr, Nat.repr_eq_ofList_toDigits, String.toList_ofList]

theorem dash_notMem_digits (n : Nat) : '-' ∉ (toString n).toList := by
  rw [digits_eq]
  intro hmem
  exact absurd (Nat.isDigit_of_mem_toDigits (by decide) (by decide) hmem) (by decide)

/-- What stands before the last dash, and what follows it. -/
theorem append_dash_inj {l₁ l₂ d₁ d₂ : List Char} (h₁ : '-' ∉ d₁) (h₂ : '-' ∉ d₂)
    (h : l₁ ++ '-' :: d₁ = l₂ ++ '-' :: d₂) : l₁ = l₂ ∧ d₁ = d₂ := by
  have last {l d : List Char} (hd : '-' ∉ d) : (l ++ '-' :: d).reverse.takeWhile (· ≠ '-') = d.reverse := by
    rw [List.reverse_append, List.reverse_cons, List.append_assoc, List.takeWhile_append_of_pos]
    · simp
    · exact fun c hc => by simpa using fun heq : c = '-' => hd (heq ▸ List.mem_reverse.mp hc)
  have hd : d₁ = d₂ := List.reverse_inj.mp (by rw [← last (l := l₁) h₁, ← last (l := l₂) h₂, h])
  subst hd
  exact ⟨List.append_cancel_right h, rfl⟩

theorem serverObjectName_inj {a b : String} (h : serverObjectName a = serverObjectName b) : a = b := by
  unfold serverObjectName at h
  exact (String.append_right_inj _).mp h

/-- A session's object is named by its server and its id. -/
theorem sessionObjectName_inj {a b : String} {i j : UInt32} (h : sessionObjectName a i = sessionObjectName b j) :
    a = b ∧ i = j := by
  have split (server : String) (id : UInt32) : (sessionObjectName server id).toList =
      ("smppserver:type=Sessions,server=".toList ++ server.toList ++ ",id=session".toList) ++
        '-' :: (toString id.toNat).toList := by
    have hid : ",id=session-".toList = ",id=session".toList ++ ['-'] := by decide +kernel
    unfold sessionObjectName
    rw [String.toList_append, String.toList_append, String.toList_append, hid]
    simp only [List.append_assoc, List.singleton_append]
  have hlist := congrArg String.toList h
  rw [split, split] at hlist
  obtain ⟨hserver, hid⟩ := append_dash_inj (dash_notMem_digits i.toNat) (dash_notMem_digits j.toNat) hlist
  constructor
  · exact String.toList_inj.mp (List.append_cancel_left (List.append_cancel_right hserver))
  · rw [digits_eq, digits_eq] at hid
    have hnat := congrArg (Nat.ofDigitChars 10 · 0) hid
    rw [Nat.ofDigitChars_ten_toDigits, Nat.ofDigitChars_ten_toDigits] at hnat
    exact UInt32.toNat_inj.mp hnat

/-- No server is named as a session is. -/
theorem serverObjectName_ne (a b : String) (i : UInt32) : serverObjectName a ≠ sessionObjectName b i := by
  intro h
  have hlist := congrArg String.toList h
  unfold serverObjectName sessionObjectName at hlist
  rw [String.toList_append, String.toList_append, String.toList_append, String.toList_append] at hlist
  simp at hlist

namespace Publication

variable {α : Type} {p : Publication α} {d : Directory α} {name : String} {object : α} {e : String × α}

theorem mem_register (published : (p.register name object).1 = some d) (he : e ∈ d.entries) :
    e = (name, object) ∨ ∃ d, p = some d ∧ e ∈ d.entries := by
  cases p with
  | none => cases published
  | some d' =>
    simp only [register, Directory.register] at published
    split at published
    · obtain rfl := Option.some.inj published
      exact .inr ⟨_, rfl, he⟩
    · obtain rfl := Option.some.inj published
      exact (Registry.mem_of_mem_insert he).imp_right fun he => ⟨_, rfl, he⟩

theorem mem_unregister (published : (p.unregister name).1 = some d) (he : e ∈ d.entries) :
    e.1 ≠ name ∧ ∃ d, p = some d ∧ e ∈ d.entries := by
  cases p with
  | none => cases published
  | some d' =>
    simp only [unregister, Directory.unregister] at published
    split at published
    · obtain rfl := Option.some.inj published
      obtain ⟨he, hne⟩ := Registry.mem_erase.mp he
      exact ⟨hne, _, rfl, he⟩
    · rename_i missing
      obtain rfl := Option.some.inj published
      rw [Registry.contains_eq_true] at missing
      exact ⟨fun heq => missing (heq ▸ Registry.mem_keys he), _, rfl, he⟩

end Publication

end Smsc
