/-!
# Smsc.Registry — things under keys, in the order of the keys

* `Registry.insert`, `Registry.erase`, `Registry.find?`: by key;
* `Registry.toList`: everything, keys ascending.
-/

namespace Smsc

/-- Things under keys; the entries are kept with keys ascending. -/
structure Registry (κ α : Type) where
  entries : List (κ × α)
  deriving Repr

namespace Registry

variable {κ α : Type} [DecidableEq κ] [LT κ] [DecidableLT κ]

def empty : Registry κ α := ⟨[]⟩

/-- Puts a thing into a list with ascending keys, in place of one under the same key. -/
def insertInto (k : κ) (a : α) : List (κ × α) → List (κ × α)
  | [] => [(k, a)]
  | (l, b) :: es =>
    if l = k then (k, a) :: es
    else if k < l then (k, a) :: (l, b) :: es
    else (l, b) :: insertInto k a es

def insert (r : Registry κ α) (k : κ) (a : α) : Registry κ α := ⟨insertInto k a r.entries⟩

def erase (r : Registry κ α) (k : κ) : Registry κ α := ⟨r.entries.filter (·.1 ≠ k)⟩

def find? (r : Registry κ α) (k : κ) : Option α := r.entries.lookup k

def contains (r : Registry κ α) (k : κ) : Bool := (r.find? k).isSome

def toList (r : Registry κ α) : List (κ × α) := r.entries

def keys (r : Registry κ α) : List κ := r.entries.map (·.1)

def size (r : Registry κ α) : Nat := r.entries.length

end Registry

end Smsc
