/-!
# Smsc.Text.CharSet — sets of characters

A class of characters is a list of ranges of code points, as the Unicode standard lists them.

* `CharSet.contains`: is a character in one of the ranges?
* `CharSet.blank`: what separates words.
-/

namespace Smsc

structure CharSet where
  /-- The first and the last code point of each range. -/
  ranges : List (Nat × Nat)
  deriving DecidableEq, Repr

namespace CharSet

def contains (s : CharSet) (c : Char) : Bool :=
  s.ranges.any fun (low, high) => low ≤ c.toNat && c.toNat ≤ high

/-- Spaces, tabs and line breaks of all scripts. -/
def blank : CharSet :=
  ⟨[(0x09, 0x0D), (0x20, 0x20), (0x85, 0x85), (0xA0, 0xA0), (0x1680, 0x1680), (0x2000, 0x200A),
    (0x2028, 0x2029), (0x202F, 0x202F), (0x205F, 0x205F), (0x3000, 0x3000)]⟩

end CharSet

end Smsc
