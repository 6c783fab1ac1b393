import Smsc.Text.Utf8
import Smsc.Yaml.Scalar

/-!
# Smsc.Yaml.Token — the tokens of a text

* `Token`: indicators, texts, and the starts and ends of indented collections;
* `readName?`, `readTag?`, `readDirective?`: the tokens of more than one character that are not
  texts.
-/

namespace Smsc.Yaml

/-- The name of a type: a handle, which stands for a stem, and the rest. The octets of a name need
spell no text. -/
structure TagName where
  /-- Empty if the rest is the whole name. -/
  handle : String
  rest : List UInt8
  deriving DecidableEq, Repr

inductive Token where
  /-- The version of the format that the document is written in. -/
  | version (major minor : Nat)
  /-- What a handle stands for. -/
  | tagHandle (handle : String) (stem : List UInt8)
  | documentStart
  | documentEnd
  | blockSequence
  | blockMapping
  | blockEnd
  | flowSequence
  | flowSequenceEnd
  | flowMapping
  | flowMappingEnd
  | blockEntry
  | flowEntry
  | key
  | value
  | alias (name : String)
  | anchor (name : String)
  | tag (name : TagName)
  | scalar (text : String) (style : ScalarStyle)
  deriving DecidableEq, Repr

/-! ## Names -/

/-- May the character stand in a name? -/
def isNameChar (c : Char) : Bool := c.isAlphanum || c = '_' || c = '-'

/-- The glyphs of a name, and those after it. -/
def spanName (gs : List Glyph) : List Glyph × List Glyph := gs.span fun g => isNameChar g.char

/-- Reads the name of an anchor or an alias. -/
def readName? (gs : List Glyph) : Option (String × List Glyph) :=
  let (name, rest) := spanName gs
  if name ≠ [] && (Glyph.atGap rest || rest.head?.any (·.char ∈ ['?', ':', ',', ']', '}', '%', '@', '`']))
  then some (Glyph.text name, rest)
  else none

/-! ## Tags -/

/-- May the character stand in the rest of a tag? Between angle brackets, some indicators may too. -/
def isTagChar (isVerbatim : Bool) (c : Char) : Bool :=
  isNameChar c || c ∈ [';', '/', '?', ':', '@', '&', '=', '+', '$', '.', '!', '~', '*', '\'', '(', ')'] ||
    (isVerbatim && c ∈ [',', '[', ']'])

/-- The number of octets that follow the first octet of a character. -/
def following? (octet : Nat) : Option Nat :=
  if octet < 0x80 then some 0
  else if octet < 0xC0 then none
  else if octet < 0xE0 then some 1
  else if octet < 0xF0 then some 2
  else if octet < 0xF8 then some 3
  else none

/-- Reads the octets of a tag, which may be written as percent signs and hexadecimal digits. `left`
octets of a character are still to come. -/
def readTagTextFrom? (isVerbatim : Bool) (octets : List UInt8) (left : Nat) :
    List Glyph → Option (List UInt8 × List Glyph)
  | a :: b :: c :: gs =>
    if a.char = '%' then
      match hexDigit? b.char, hexDigit? c.char with
      | some m, some n =>
        let octet := 16 * m + n
        let octets := octets ++ [.ofNat octet]
        if left = 0 then
          match following? octet with
          | some left => readTagTextFrom? isVerbatim octets left gs
          | none => none
        else if 0x80 ≤ octet && octet < 0xC0 then readTagTextFrom? isVerbatim octets (left - 1) gs
        else none
      | _, _ => none
    else if left ≠ 0 then none
    else if isTagChar isVerbatim a.char then
      readTagTextFrom? isVerbatim (octets ++ Utf8.encodeChar a.char) 0 (b :: c :: gs)
    else some (octets, a :: b :: c :: gs)
  | a :: gs =>
    if a.char = '%' || left ≠ 0 then none
    else if isTagChar isVerbatim a.char then
      readTagTextFrom? isVerbatim (octets ++ Utf8.encodeChar a.char) 0 gs
    else some (octets, a :: gs)
  | [] => if left = 0 then some (octets, []) else none

/-- Reads the rest of a tag behind what has been read of it. -/
def readTagText? (isVerbatim : Bool) (start : List UInt8) (gs : List Glyph) :
    Option (List UInt8 × List Glyph) :=
  readTagTextFrom? isVerbatim start 0 gs

/-- The octets up to a zero, which ends a name. -/
def untilZero (octets : List UInt8) : List UInt8 := octets.takeWhile (· ≠ 0)

/-- Reads an exclamation mark, a name, and a second mark if there is one. -/
def readHandle? : List Glyph → Option (String × List Glyph)
  | g :: gs =>
    if g.char = '!' then
      let (name, rest) := spanName gs
      match rest with
      | h :: rest' =>
        if h.char = '!' then some ("!" ++ Glyph.text name ++ "!", rest')
        else some ("!" ++ Glyph.text name, rest)
      | [] => some ("!" ++ Glyph.text name, [])
    else none
  | [] => none

/-- Is the handle between two exclamation marks? -/
def isFullHandle (handle : String) : Bool := handle ≠ "!" && handle.endsWith "!"

/-- Reads a tag, from its exclamation mark. -/
def readTag? (inFlow : Bool) (gs : List Glyph) : Option (TagName × List Glyph) := do
  let (name, rest) ← match gs with
    | _ :: b :: inside =>
      if b.char = '<' then do
        let (octets, rest) ← readTagText? true [] inside
        match rest with
        | close :: rest =>
          if close.char = '>' && octets ≠ [] then some (TagName.mk "" (untilZero octets), rest) else none
        | [] => none
      else short gs
    | gs => short gs
  if Glyph.atGap rest || (inFlow && rest.head?.any (·.char = ',')) then some (name, rest) else none
where
  /-- Reads a tag that is not between angle brackets. -/
  short (gs : List Glyph) : Option (TagName × List Glyph) := do
    let (handle, rest) ← readHandle? gs
    if isFullHandle handle then
      let (octets, rest) ← readTagText? false [] rest
      if octets = [] then none else return (⟨handle, untilZero octets⟩, rest)
    else
      let (octets, rest) ← readTagText? false ((Utf8.encode handle).drop 1) rest
      match untilZero octets with
      | [] => return (⟨"", Utf8.encode "!"⟩, rest)
      | octets => return (⟨"!", octets⟩, rest)

/-! ## Directives -/

/-- Reads a number of at most nine digits. -/
def readNumber? (gs : List Glyph) : Option (Nat × List Glyph) :=
  let (digits, rest) := gs.span (·.char.isDigit)
  if digits = [] || 9 < digits.length then none
  else some (digits.foldl (fun n g => 10 * n + (g.char.toNat - '0'.toNat)) 0, rest)

/-- Reads a directive, from its percent sign to the end of the line. -/
def readDirective? (gs : List Glyph) : Option (Token × List Glyph) := do
  let (name, rest) := spanName (gs.drop 1)
  if !Glyph.atGap rest then none
  let rest := rest.dropWhile Glyph.isBlank
  let (token, rest) ←
    if Glyph.text name = "YAML" then do
      let (major, rest) ← readNumber? rest
      if !rest.head?.any (·.char = '.') then none
      let (minor, rest) ← readNumber? (rest.drop 1)
      some (Token.version major minor, rest)
    else if Glyph.text name = "TAG" then do
      let (handle, rest) ← readHandle? rest
      if handle ≠ "!" && !isFullHandle handle then none
      if !rest.head?.any Glyph.isBlank then none
      let (stem, rest) ← readTagText? true [] (rest.dropWhile Glyph.isBlank)
      if stem = [] || !Glyph.atGap rest then none
      some (Token.tagHandle handle (untilZero stem), rest)
    else none
  return (token, ← Glyph.endLine? rest)

end Smsc.Yaml
