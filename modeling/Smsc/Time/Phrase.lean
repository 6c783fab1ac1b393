import Smsc.Text.CharSet
import Smsc.Time

/-!
# Smsc.Time.Phrase — durations as people write them

A phrase is a sequence of amounts, each a number and a unit: `1h 30m`, `250ms`, `1.5 s`. Blanks may
stand anywhere but inside a unit. A number on its own means nothing, except that `0` is no time.

* `TimeUnit`, `TimeUnit.ofName?`: the units and their spellings;
* `Duration.ofPhrase?`: the sum of the amounts of a phrase.
-/

namespace Smsc

inductive TimeUnit where
  | nanosecond
  | microsecond
  | millisecond
  | second
  | minute
  | hour
  | day
  | week
  | month
  | year
  deriving DecidableEq, Repr

namespace TimeUnit

/-- The unit of a spelling. -/
def ofName? (name : String) : Option TimeUnit :=
  if name ∈ ["nanos", "nsec", "ns"] then some nanosecond
  else if name ∈ ["usec", "us", "µs"] then some microsecond
  else if name ∈ ["millis", "msec", "ms"] then some millisecond
  else if name ∈ ["seconds", "second", "secs", "sec", "s"] then some second
  else if name ∈ ["minutes", "minute", "min", "mins", "m"] then some minute
  else if name ∈ ["hours", "hour", "hr", "hrs", "h"] then some hour
  else if name ∈ ["days", "day", "d"] then some day
  else if name ∈ ["weeks", "week", "wk", "wks", "w"] then some week
  else if name ∈ ["months", "month", "M"] then some month
  else if name ∈ ["years", "year", "yr", "yrs", "y"] then some year
  else none

/-- The length of the unit. A year has 365.25 days and a month 30.44. -/
def length : TimeUnit → Duration
  | nanosecond => ⟨1⟩
  | microsecond => ⟨1000⟩
  | millisecond => ⟨1000000⟩
  | second => .ofSeconds 1
  | minute => .ofSeconds 60
  | hour => .ofSeconds 3600
  | day => .ofSeconds 86400
  | week => .ofSeconds 604800
  | month => .ofSeconds 2630016
  | year => .ofSeconds 31557600

/-- The nanoseconds of the grain on which whole amounts are counted: seconds from a second on. -/
def grain (u : TimeUnit) : Nat := if u.length.nanos < 1000000000 then 1 else 1000000000

/-- The nanoseconds of the grain on which fractions are counted: seconds from an hour on. -/
def fractionGrain (u : TimeUnit) : Nat := if u.length.nanos ≤ 60000000000 then 1 else 1000000000

end TimeUnit

namespace Phrase

/-- A fraction in decimal: some tenth, hundredth, …. -/
structure Fraction where
  digits : Nat
  scale : Nat
  deriving DecidableEq, Repr

/-- An amount of some unit. -/
structure Amount where
  whole : Nat
  fraction : Option Fraction
  deriving DecidableEq, Repr

/-- Counts have 64 bits. -/
def countLimit : Nat := 0x10000000000000000

/-- A count, unless it takes more than 64 bits. -/
def count? (n : Nat) : Option Nat := if n < countLimit then some n else none

/-- Adds a count of grains to a sum. -/
def add? (sum : Duration) (grain n : Nat) : Option Duration := do
  let n ← count? n
  let nanos := if grain = 1 then sum.nanos % 1000000000 + n else 0
  let total : Duration := ⟨sum.nanos + grain * n⟩
  let _ ← count? nanos
  let _ ← count? total.seconds
  return total

/-- Adds an amount of a unit to a sum. A fraction has to come out even on its grain, and there is no
fraction of a nanosecond. -/
def addAmount? (sum : Duration) (amount : Amount) (unit : TimeUnit) : Option Duration := do
  let sum ← add? sum unit.grain (amount.whole * (unit.length.nanos / unit.grain))
  match amount.fraction with
  | none => return sum
  | some f =>
    let share ← count? (f.digits * (unit.length.nanos / unit.fractionGrain))
    if unit = .nanosecond || share % f.scale ≠ 0 then none
    else add? sum unit.fractionGrain (share / f.scale)

def isUnitLetter (c : Char) : Bool := c.isAlpha || c = 'µ'

def digit (c : Char) : Nat := c.toNat - '0'.toNat

/-- What is being read. -/
inductive Part where
  /-- Between amounts, or in front of the first. -/
  | gap
  | whole (n : Nat)
  | fraction (whole digits scale : Nat)
  /-- The letters of the unit so far, the last one first. -/
  | unit (amount : Amount) (letters : List Char)

/-- The sum when a unit is complete. -/
def endUnit? (sum : Duration) (amount : Amount) (letters : List Char) : Option Duration :=
  (TimeUnit.ofName? (String.ofList letters.reverse)).bind (addAmount? sum amount)

/-- Adds what a phrase says to a sum. -/
def addTo? (sum : Duration) : Part → List Char → Option Duration
  | .gap, [] => some sum
  | .whole _, [] | .fraction .., [] => none
  | .unit amount letters, [] => endUnit? sum amount letters
  | .gap, c :: cs =>
    if c.isDigit then addTo? sum (.whole (digit c)) cs
    else if CharSet.blank.contains c then addTo? sum .gap cs
    else none
  | .whole n, c :: cs =>
    if c.isDigit then
      match count? (10 * n + digit c) with
      | some n => addTo? sum (.whole n) cs
      | none => none
    else if CharSet.blank.contains c then addTo? sum (.whole n) cs
    else if isUnitLetter c then addTo? sum (.unit ⟨n, none⟩ [c]) cs
    else if c = '.' then addTo? sum (.fraction n 0 1) cs
    else none
  | .fraction n ds scale, c :: cs =>
    if c.isDigit then
      match count? (10 * ds + digit c), count? (10 * scale) with
      | some ds, some scale => addTo? sum (.fraction n ds scale) cs
      | _, _ => none
    else if CharSet.blank.contains c then addTo? sum (.fraction n ds scale) cs
    else if isUnitLetter c && scale ≠ 1 then addTo? sum (.unit ⟨n, some ⟨ds, scale⟩⟩ [c]) cs
    else none
  | .unit amount letters, c :: cs =>
    if c.isDigit then
      match endUnit? sum amount letters with
      | some sum => addTo? sum (.whole (digit c)) cs
      | none => none
    else if CharSet.blank.contains c then
      match endUnit? sum amount letters with
      | some sum => addTo? sum .gap cs
      | none => none
    else if isUnitLetter c then addTo? sum (.unit amount (c :: letters)) cs
    else none

end Phrase

/-- The sum of the amounts of a phrase, of which there is at least one. -/
def Duration.ofPhrase? (phrase : String) : Option Duration :=
  if phrase = "0" then some ⟨0⟩
  else if phrase.toList.all CharSet.blank.contains then none
  else Phrase.addTo? ⟨0⟩ .gap phrase.toList

end Smsc
