import Smsc.Text.Pattern
import Smsc.Text.Utf8

/-!
# Smsc.Logging.Filter — which log entries are shown

A filter is a list of rules after commas, each `target=level`, or only one of the two. The rule with
the longest target that an entry's target begins with decides about the entry. A rule may also ask
for a field, `target[{field}]=level`, or apply only inside a span, `target[span]=level`.

* `LogEntry`, `LogLevel`;
* `LogFilter.parse`: a filter from its text; `FilterError.message` says what is wrong with it;
* `LogFilter.shows`: is an entry outside all spans shown?
-/

namespace Smsc

inductive LogLevel where
  | error
  | warn
  | info
  | debug
  | trace
  deriving DecidableEq, Repr

/-- Levels in numbers; a higher one says more. Zero is no level: nothing is said. -/
def LogLevel.rank : LogLevel → Nat
  | error => 1
  | warn => 2
  | info => 3
  | debug => 4
  | trace => 5

structure LogEntry where
  level : LogLevel
  /-- The part of the program that it comes from. -/
  target : String
  message : String
  fields : List (String × String)
  deriving DecidableEq, Repr

/-- What may be wrong with a filter. -/
inductive FilterError where
  | malformed
  | unknownLevel
  /-- The value that a field must have is no regular expression. -/
  | field (error : PatternError)
  deriving DecidableEq, Repr

def FilterError.message : FilterError → String
  | malformed => "invalid filter directive"
  | unknownLevel =>
    "error parsing level filter: expected one of \"off\", \"error\", \"warn\", \"info\", " ++
      "\"debug\", \"trace\", or a number 0-5"
  | field error => "invalid field filter: " ++ error.message

/-- A rule of a filter. -/
structure FilterRule where
  target : Option String
  span : Option String
  /-- The field that an entry must have, and whether the rule looks at its value. -/
  field : Option (String × Bool)
  /-- The rank of the least important entries that are shown. -/
  rank : Nat
  deriving DecidableEq, Repr

namespace FilterRule

/-- The rank that a level's name or number stands for. Case does not matter. -/
def rank? (name : String) : Option Nat :=
  let digits := if name.startsWith "+" then (name.toList.drop 1) else name.toList
  if digits ≠ [] && digits.all Char.isDigit then
    let n := digits.foldl (fun n c => 10 * n + (c.toNat - '0'.toNat)) 0
    if n ≤ 5 then some n else none
  else
    ["off", "error", "warn", "info", "debug", "trace"].findIdx? (· = name.map Char.toLower)

/-- What is being read of a rule, and the place in the text where it begins, in octets. -/
inductive Part where
  | start
  | levelOrTarget
  | span (first : Nat)
  | field (first : Nat)
  | afterField
  | afterSpan
  | level (first : Nat)
  deriving DecidableEq, Repr

/-- May a target or level begin with the character? -/
def isWordStart (c : Char) : Bool :=
  c ∈ ['-', ':', '_'] || CharSet.letter.contains c || CharSet.numeral.contains c

/-- The text from one place up to another. Both must lie between characters. -/
def cut (octets : List UInt8) (first stop : Nat) : Except FilterError String :=
  match Utf8.decode ((octets.take stop).drop first) with
  | .ok text => .ok text
  | .error _ => .error .malformed

/-- Is a text a number, as fractions and powers of ten may spell it? -/
def isNumber (cs : List Char) : Bool :=
  let cs := if cs.head?.any (· ∈ ['+', '-']) then cs.drop 1 else cs
  let whole := cs.takeWhile Char.isDigit
  let rest := cs.dropWhile Char.isDigit
  let afterPoint := if rest.head? = some '.' then rest.drop 1 else []
  let fraction := afterPoint.takeWhile Char.isDigit
  let rest := if rest.head? = some '.' then afterPoint.dropWhile Char.isDigit else rest
  let exponent := rest.drop 1
  let exponent := if exponent.head?.any (· ∈ ['+', '-']) then exponent.drop 1 else exponent
  ["inf", "infinity", "nan"].contains (String.ofList (cs.map Char.toLower)) ||
    ((whole ≠ [] || fraction ≠ []) &&
      (rest = [] || (rest.head?.any (· ∈ ['e', 'E']) && exponent ≠ [] && exponent.all Char.isDigit)))

/-- A field is a name, and a value after an equals sign, up to another: a number, or else a regular
expression. -/
def readField (text : String) : Except FilterError (String × Bool) :=
  match text.splitOn "=" with
  | name :: value :: _ =>
    if isNumber value.toList then .ok (name, true)
    else
      match Pattern.check value with
      | .ok _ => .ok (name, true)
      | .error e => .error (.field e)
  | _ => .ok (text, false)

/-- Reads a rule to its end. The octets are those of the whole text; the characters are those from a
place on. What gives no level shows everything. -/
def readFrom (octets : List UInt8) (r : FilterRule) (place : Nat) :
    Part → List Char → Except FilterError FilterRule
  | .levelOrTarget, [] => do
    let text ← cut octets 0 octets.length
    match rank? text with
    | some rank => .ok { r with rank }
    | none => .ok { r with target := some text }
  | .level first, [] => do
    if octets.length ≤ first then .ok r
    else
      match rank? (← cut octets first octets.length) with
      | some rank => .ok { r with rank }
      | none => .error .unknownLevel
  | .afterSpan, [] => .ok r
  | _, [] => .error .malformed
  | .start, c :: rest =>
    let next := place + c.utf8Size
    if c = '[' then readFrom octets r next (.span next) rest
    else if isWordStart c then readFrom octets r next .levelOrTarget rest
    else .error .malformed
  | .levelOrTarget, c :: rest => do
    let next := place + c.utf8Size
    if c = '=' then
      readFrom octets { r with target := some (← cut octets 0 place) } next (.level next) rest
    else if c = '[' then
      readFrom octets { r with target := some (← cut octets 0 place) } next (.span next) rest
    else readFrom octets r next .levelOrTarget rest
  | .span first, c :: rest => do
    let next := place + c.utf8Size
    if c = ']' then
      readFrom octets { r with span := some (← cut octets first place) } next .afterSpan rest
    else if c = '\x7b' then
      let name ← cut octets first place
      readFrom octets { r with span := if name = "" then none else some name } next (.field next)
        rest
    else readFrom octets r next (.span first) rest
  | .field first, c :: rest => do
    let next := place + c.utf8Size
    if c ≠ '\x7d' then readFrom octets r next (.field first) rest
    else if first = place then .error .malformed
    else
      let field ← readField (← cut octets first place)
      readFrom octets { r with field := some field } next .afterField rest
  | .afterField, c :: rest =>
    if c = ']' then readFrom octets r (place + c.utf8Size) .afterSpan rest else .error .malformed
  | .afterSpan, c :: rest =>
    let next := place + c.utf8Size
    if c = '=' then readFrom octets r next (.level next) rest else .error .malformed
  | .level first, c :: rest => readFrom octets r (place + c.utf8Size) (.level first) rest

/-- Characters without the blanks in front and behind. -/
def trimmed (cs : List Char) : List Char :=
  ((cs.dropWhile CharSet.blank.contains).reverse.dropWhile CharSet.blank.contains).reverse

/-- A rule is walked without the blanks around it, but places count from the beginning of the whole
text: blanks in front shift what is cut out, and blanks behind belong to the last part. -/
def parse (text : String) : Except FilterError FilterRule :=
  readFrom (Utf8.encode text) ⟨none, none, none, LogLevel.trace.rank⟩ 0 .start
    (trimmed text.toList)

/-- Does the rule say anything about entries outside all spans? -/
def isGeneral (r : FilterRule) : Bool := r.span.isNone && !r.field.any (·.2)

/-- Is the rule about an entry? -/
def covers (r : FilterRule) (e : LogEntry) : Bool :=
  r.target.all (fun t => e.target.startsWith t) &&
    r.field.all (fun (name, _) => name = "message" || e.fields.any (·.1 = name))

/-- How much a rule asks for: first the octets of its target, then whether it asks for a field. -/
def demands (r : FilterRule) : Nat × Nat × String :=
  (r.target.elim 0 (·.utf8ByteSize + 1), r.field.elim 0 (fun _ => 1), r.field.elim "" (·.1))

/-- Does the second rule ask for no less than the first? -/
def yieldsTo (r q : FilterRule) : Bool :=
  let (a, b, c) := r.demands
  let (x, y, z) := q.demands
  a < x || (a = x && (b < y || (b = y && c ≤ z)))

end FilterRule

/-- The rules, in the order in which they are written. -/
structure LogFilter where
  rules : List FilterRule
  deriving DecidableEq, Repr

namespace LogFilter

/-- The filter of a text; empty rules do not count. -/
def parse (text : String) : Except FilterError LogFilter :=
  LogFilter.mk <$> ((text.splitOn ",").filter (· ≠ "")).mapM FilterRule.parse

/-- The rule that decides about an entry: the most demanding one that is about it, the last of
several. -/
def decider? (f : LogFilter) (e : LogEntry) : Option FilterRule :=
  (f.rules.filter fun r => r.isGeneral && r.covers e).foldl
    (fun best r => if best.all (·.yieldsTo r) then some r else best) none

/-- Is an entry outside all spans shown? Without any rules, errors are. -/
def shows (f : LogFilter) (e : LogEntry) : Bool :=
  match f.rules with
  | [] => e.level = .error
  | _ => (f.decider? e).any (e.level.rank ≤ ·.rank)

end LogFilter

end Smsc
