/-!
# Smsc.Yaml.Glyph — the characters of a text and their places

* `Glyph`: a character with its line, column and index;
* `Glyph.ofText?`: a text as glyphs, with every line break that folds written as a line feed; none
  if the text holds a control character;
* `Glyph.isBlank`, `Glyph.isBreak`, `Glyph.atGap`: what separates.
-/

namespace Smsc.Yaml

/-- A character in its place. -/
structure Glyph where
  char : Char
  line : Nat
  column : Nat
  /-- The number of octets before it, where every line break takes one. -/
  index : Nat
  deriving DecidableEq, Repr, Inhabited

/-- May the character stand in a text at all? -/
def isAllowed (c : Char) : Bool :=
  let n := c.toNat
  n = 0x09 || n = 0x0A || n = 0x0D || n = 0x85 || (0x20 ≤ n && n ≤ 0x7E) || (0xA0 ≤ n && n ≤ 0xFFFD)
    || 0x10000 ≤ n

/-- Writes each carriage return, its line feed included, and each next-line character as one line
feed. -/
def unifyBreaks : List Char → List Char
  | '\r' :: '\n' :: cs => '\n' :: unifyBreaks cs
  | '\r' :: cs => '\n' :: unifyBreaks cs
  | '\u0085' :: cs => '\n' :: unifyBreaks cs
  | c :: cs => c :: unifyBreaks cs
  | [] => []

/-- Line breaks: those that fold, and the line and paragraph separators, which never do. -/
def isBreakChar (c : Char) : Bool := c = '\n' || c = '\u2028' || c = '\u2029'

/-- Gives each character its place, the first one the place given. -/
def placeFrom (line column index : Nat) : List Char → List Glyph
  | [] => []
  | c :: cs =>
    ⟨c, line, column, index⟩ ::
      if isBreakChar c then placeFrom (line + 1) 0 (index + 1) cs
      else placeFrom line (column + 1) (index + c.utf8Size) cs

namespace Glyph

def ofText? (text : String) : Option (List Glyph) :=
  if text.toList.all isAllowed then some (placeFrom 0 0 0 (unifyBreaks text.toList)) else none

def isBreak (g : Glyph) : Bool := isBreakChar g.char

def isBlank (g : Glyph) : Bool := g.char = ' ' || g.char = '\t'

/-- Is the next thing a blank, a line break or the end? -/
def atGap : List Glyph → Bool
  | [] => true
  | g :: _ => g.isBlank || g.isBreak

/-- Is the next thing three such characters on their own at the start of a line? -/
def atMark (mark : Char) : List Glyph → Bool
  | a :: b :: c :: gs =>
    a.column = 0 && a.char = mark && b.char = mark && c.char = mark && atGap gs
  | _ => false

/-- Is the next thing a line that begins or ends a document? -/
def atDocumentMark (gs : List Glyph) : Bool := atMark '-' gs || atMark '.' gs

/-- What is left of a line after blanks and a comment, if it holds nothing else. -/
def endLine? (gs : List Glyph) : Option (List Glyph) :=
  let gs := gs.dropWhile isBlank
  let gs := if gs.head?.any (·.char = '#') then gs.dropWhile fun g => !g.isBreak else gs
  match gs with
  | [] => some []
  | g :: gs => if g.isBreak then some gs else none

def text (gs : List Glyph) : String := String.ofList (gs.map char)

end Glyph

end Smsc.Yaml
