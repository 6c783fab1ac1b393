import Smsc.Text.Letter

/-!
# Smsc.Text.Pattern — regular expressions

Rules may ask that a text matches a regular expression. Only the form of an expression is looked at
here. Classes of letters, digits and blanks of all scripts are not on offer, and neither is
comparing such letters without regard to case, so these need the mark `-u`. An expression stands
between braces, so that no brace closes within it and counted repetitions do not exist.

* `Pattern.check`: is a text a regular expression that can be searched for?
* `PatternError.message`: what is wrong with it.
-/

namespace Smsc

inductive PatternError where
  | malformed
  /-- Where words of all scripts begin and end is not searched for. -/
  | wordBoundary
  deriving DecidableEq, Repr

def PatternError.message : PatternError → String
  | malformed => "error building NFA"
  | wordBoundary =>
    "unsupported regex feature for DFAs: cannot build DFAs for regexes with Unicode word " ++
      "boundaries; switch to ASCII word boundaries, or heuristically enable Unicode word " ++
      "boundaries or use a different regex engine"

namespace Pattern

/-- How an expression is to be read. -/
structure Modes where
  foldsCase : Bool
  allScripts : Bool
  /-- Are blanks and remarks between the parts skipped? -/
  spaced : Bool
  deriving DecidableEq, Repr

/-- What stands before a place, as far as a repetition there asks. -/
inductive Before where
  | nothing
  | item
  | repetition
  deriving DecidableEq, Repr

/-- Where an escaped character stands. -/
inductive Place where
  | text
  | set
  /-- After the dash of a range that begins with a character, if with one. -/
  | rangeEnd (low : Option Nat)
  deriving DecidableEq, Repr

inductive Part where
  | text (before : Before)
  | remark (part : Part)
  | escape (place : Place)
  | digits (place : Place) (wide : Bool) (missing value : Nat)
  | groupStart
  | groupMark
  | groupNameMark
  | groupName (name : List Char)
  | marks (seen : List Char)
  /-- After the bracket that opens a set, and the caret and dashes behind it. -/
  | setStart (caret dash : Bool)
  | set
  /-- After one of two equal characters that make an operator. -/
  | setTwin (c : Char)
  /-- After a member, which may begin a range if it is a character. -/
  | setMember (low : Option Nat)
  | setDash (low : Option Nat)
  /-- Inside a named set, of which some characters are left. -/
  | setName (left : Nat)
  deriving DecidableEq, Repr

/-- May blanks and remarks stand at this point? -/
def Part.isOpen : Part → Bool
  | .text _ | .digits .. | .groupStart | .setStart .. | .set | .setMember _ | .setDash _ => true
  | _ => false

structure Reading where
  part : Part
  modes : Modes
  /-- The modes outside each open group, the innermost first. -/
  groups : List Modes
  names : List (List Char)
  /-- How many sets are open. -/
  sets : Nat
  /-- Has a boundary of words of all scripts been asked for? -/
  seeksWords : Bool
  deriving DecidableEq, Repr

namespace Reading

def start : Reading := ⟨.text .nothing, ⟨false, true, false⟩, [], [], 0, false⟩

def goTo (r : Reading) (part : Part) : Option Reading := some { r with part }

/-- After a character of the searched text. -/
def literal (r : Reading) : Option Reading :=
  if r.modes.foldsCase && r.modes.allScripts then none else r.goTo (.text .item)

/-- After a character in a set. -/
def member (r : Reading) (n : Nat) : Option Reading :=
  if !r.modes.allScripts && 0x7F < n then none else r.goTo (.setMember (some n))

/-- After the end of a range in a set. -/
def range (r : Reading) (low : Option Nat) (n : Nat) : Option Reading := do
  if (← low) ≤ n && (r.modes.allScripts || n ≤ 0x7F) then r.goTo .set else none

/-- After a character that was written in another way, as its number. -/
def escaped (r : Reading) (place : Place) (n : Nat) : Option Reading :=
  match place with
  | .text => r.literal
  | .set => r.member n
  | .rangeEnd low => r.range low n

/-- After a class of characters. -/
def classOf (r : Reading) (place : Place) : Option Reading :=
  match place with
  | .text => r.goTo (.text .item)
  | .set => r.goTo (.setMember none)
  | .rangeEnd _ => none

/-- After the demand for a place in the text. -/
def look (r : Reading) (place : Place) (isWord : Bool) : Option Reading :=
  if place = .text then
    { r with seeksWords := r.seeksWords || (isWord && r.modes.allScripts) }.goTo (.text .item)
  else none

def openGroup (r : Reading) (modes : Modes) : Option Reading :=
  { r with groups := r.modes :: r.groups, modes }.goTo (.text .nothing)

def closeGroup (r : Reading) : Option Reading :=
  match r.groups with
  | [] => none
  | modes :: groups => { r with modes, groups }.goTo (.text .item)

def closeSet (r : Reading) : Option Reading :=
  if 1 < r.sets then { r with sets := r.sets - 1 }.goTo .set
  else if r.modes.foldsCase && r.modes.allScripts then none
  else { r with sets := 0 }.goTo (.text .item)

/-- The modes that marks ask for: those after a dash are taken away. -/
def marked (modes : Modes) (marks : List Char) : Modes :=
  let on := marks.takeWhile (· ≠ '-')
  let off := marks.dropWhile (· ≠ '-')
  let put (c : Char) (was : Bool) := (was || c ∈ on) && !(off.contains c)
  ⟨put 'i' modes.foldsCase, put 'u' modes.allScripts, put 'x' modes.spaced⟩

def setNames : List String :=
  ["alnum", "alpha", "ascii", "blank", "cntrl", "digit", "graph", "lower", "print", "punct", "space",
    "upper", "word", "xdigit"]

/-- The number of characters of a named set, such as `:alpha:]`, that a text begins with. -/
def setNameLength? (cs : List Char) : Option Nat :=
  (setNames.flatMap fun name => [":" ++ name ++ ":]", ":^" ++ name ++ ":]"]).findSome? fun name =>
    if name.toList.isPrefixOf cs then some name.length else none

def onText (r : Reading) (before : Before) (c : Char) : Option Reading :=
  if c = '(' then r.goTo .groupStart
  else if c = ')' then r.closeGroup
  else if c = '|' then r.goTo (.text .nothing)
  else if c = '[' then { r with sets := 1 }.goTo (.setStart false false)
  else if c = '?' && before = .repetition then r.goTo (.text .item)
  else if c ∈ ['?', '*', '+'] then if before = .nothing then none else r.goTo (.text .repetition)
  else if c = '\x7b' then none
  else if c = '\\' then r.goTo (.escape .text)
  else if c = '.' then if r.modes.allScripts then r.goTo (.text .item) else none
  else if c ∈ ['^', '$'] then r.goTo (.text .item)
  else r.literal

/-- The controls that have a letter. -/
def controls : List (Char × Nat) :=
  [('a', 0x07), ('t', 0x09), ('n', 0x0A), ('v', 0x0B), ('f', 0x0C), ('r', 0x0D)]

def onEscape (r : Reading) (place : Place) (c : Char) : Option Reading :=
  if c = 'x' then r.goTo (.digits place false 2 0)
  else if c = 'u' then r.goTo (.digits place true 4 0)
  else if c = 'U' then r.goTo (.digits place true 8 0)
  else if c ∈ ['d', 's', 'w'] then if r.modes.allScripts then none else r.classOf place
  else if c ∈ ['b', 'B', '<', '>'] then r.look place true
  else if c ∈ ['A', 'z'] then r.look place false
  else if let some n := controls.lookup c then r.escaped place n
  else if c.isAlphanum || 0x7F < c.toNat then none
  else r.escaped place c.toNat

def onDigit (r : Reading) (place : Place) (wide : Bool) (missing value : Nat) (c : Char) :
    Option Reading := do
  let digit ← "0123456789abcdef".toList.findIdx? (· = c.toLower)
  let value := 16 * value + digit
  if 1 < missing then r.goTo (.digits place wide (missing - 1) value)
  else if value.isValidChar && (r.modes.allScripts || wide || value ≤ 0x7F) then
    r.escaped place value
  else none

def onGroupName (r : Reading) (name : List Char) (c : Char) : Option Reading :=
  if c = '>' then
    if name = [] || name ∈ r.names then none
    else { r with names := name :: r.names }.openGroup r.modes
  else if c = '_' || CharSet.letter.contains c
      || (name ≠ [] && (c ∈ ['.', '[', ']'] || CharSet.numeral.contains c)) then
    r.goTo (.groupName (c :: name))
  else none

def onMark (r : Reading) (seen : List Char) (c : Char) : Option Reading :=
  let modes := marked r.modes seen.reverse
  if c ∈ [':', ')'] then
    if seen.head? = some '-' then none
    else if c = ':' then r.openGroup modes
    else if seen = [] then none
    else { r with modes }.goTo (.text .nothing)
  else if c ∈ ['i', 'm', 's', 'U', 'u', 'R', 'x', '-'] && c ∉ seen then r.goTo (.marks (c :: seen))
  else none

/-- A character in a set, with what follows it. -/
def onSet (r : Reading) (c : Char) (cs : List Char) : Option Reading :=
  if c = ']' then r.closeSet
  else if c = '[' then
    match setNameLength? cs with
    | some n =>
      if !r.modes.allScripts && cs.head? = some ':' && (cs.drop 1).head? = some '^' then none
      else r.goTo (.setName n)
    | none => { r with sets := r.sets + 1 }.goTo (.setStart false false)
  else if c ∈ ['&', '-', '~'] then r.goTo (.setTwin c)
  else if c = '\\' then r.goTo (.escape .set)
  else r.member c.toNat

def onSetMember (r : Reading) (low : Option Nat) (c : Char) (cs : List Char) : Option Reading :=
  if c = '-' then r.goTo (.setDash low) else r.onSet c cs

/-- After the first characters of a set: a bracket that closes is a member there. -/
def onSetStart (r : Reading) (caret dash : Bool) (c : Char) (cs : List Char) : Option Reading :=
  if c = '^' && !caret && !dash then
    if r.modes.allScripts then r.goTo (.setStart true false) else none
  else if c = '-' then r.goTo (.setStart caret true)
  else if c = ']' && !dash then r.goTo .set
  else r.onSet c cs

def onSetDash (r : Reading) (low : Option Nat) (c : Char) : Option Reading :=
  if c = ']' then r.closeSet
  else if c = '-' then r.goTo .set
  else if c = '\\' then r.goTo (.escape (.rangeEnd low))
  else r.range low c.toNat

/-- Reads a character; those after it decide whether a named set begins. -/
def read (r : Reading) (c : Char) (cs : List Char) : Option Reading :=
  match r.part with
  | .text before => r.onText before c
  | .remark part => if c = '\n' then r.goTo part else some r
  | .escape place => r.onEscape place c
  | .digits place wide missing value => r.onDigit place wide missing value c
  | .groupStart =>
    if c = '?' then r.goTo .groupMark else do (← r.openGroup r.modes).onText .nothing c
  | .groupMark =>
    if c = 'P' then r.goTo .groupNameMark
    else if c = '<' then r.goTo (.groupName [])
    else r.onMark [] c
  | .groupNameMark => if c = '<' then r.goTo (.groupName []) else none
  | .groupName name => r.onGroupName name c
  | .marks seen => r.onMark seen c
  | .setStart caret dash => r.onSetStart caret dash c cs
  | .set => r.onSet c cs
  | .setTwin twin => do
    if c = twin then r.goTo .set else (← r.member twin.toNat).onSetMember (some twin.toNat) c cs
  | .setMember low => r.onSetMember low c cs
  | .setDash low => r.onSetDash low c
  | .setName left => r.goTo (if left ≤ 1 then .set else .setName (left - 1))

/-- Reads all characters; the groups and sets must be closed at the end. -/
def readAll (r : Reading) : List Char → Option Reading
  | [] =>
    match r.part with
    | .text _ => if r.groups = [] then some r else none
    | .remark (.text _) => if r.groups = [] then some r else none
    | _ => none
  | c :: cs => do
    let r ←
      if r.modes.spaced && r.part.isOpen then
        if CharSet.blank.contains c then some r
        else if c = '#' then r.goTo (.remark r.part)
        else r.read c cs
      else r.read c cs
    r.readAll cs

end Reading

/-- Is a text a regular expression that can be searched for? -/
def check (pattern : String) : Except PatternError Unit :=
  match Reading.start.readAll pattern.toList with
  | none => .error .malformed
  | some r => if r.seeksWords then .error .wordBoundary else .ok ()

end Pattern

end Smsc
