import Smsc.Yaml.Glyph

/-!
# Smsc.Yaml.Scalar — the texts in a document

Texts stand plainly, between quotes, or in a block of indented lines. Each reader takes the glyphs
from where the text begins and gives the text and the glyphs after it.

* `Gap`, `Gap.fold`: blanks and line breaks inside a text, and what becomes of them;
* `readPlain?`, `readQuoted?`, `readBlock?`.
-/

namespace Smsc.Yaml

/-- In which form a text is written. -/
inductive ScalarStyle where
  | plain
  | quoted
  /-- A block whose line breaks are kept. -/
  | literal
  /-- A block whose line breaks are folded. -/
  | folded
  deriving DecidableEq, Repr

/-! ## Gaps -/

/-- What stands between two words of a text. -/
inductive Gap where
  | blanks (cs : List Char)
  /-- Line breaks: the first, unless it is escaped, and the others. Blanks around them do not
  count. -/
  | lines (first : Option Char) (others : List Char)
  deriving DecidableEq, Repr

namespace Gap

def none : Gap := blanks []

def isLines : Gap → Bool
  | blanks _ => false
  | lines .. => true

def blank (c : Char) : Gap → Gap
  | blanks cs => blanks (cs ++ [c])
  | g => g

def lineBreak (c : Char) : Gap → Gap
  | blanks _ => lines (some c) []
  | lines first others => lines first (others ++ [c])

/-- Blanks stay. Of line breaks the first is dropped, and if it is the only one a space replaces it;
but a separator is never dropped. -/
def fold : Gap → List Char
  | blanks cs => cs
  | lines (some '\n') [] => [' ']
  | lines (some '\n') others => others
  | lines first others => first.toList ++ others

end Gap

/-! ## Plain text -/

/-- Does a plain text end before these glyphs? -/
def endsPlain (inFlow : Bool) (g : Glyph) (gs : List Glyph) : Bool :=
  (g.char = ':' && Glyph.atGap gs) || (inFlow && g.char ∈ [',', '[', ']', '{', '}'])

/-- Is this a colon that stands directly before an indicator of flow style? -/
def isMisplacedColon (inFlow : Bool) (g : Glyph) (gs : List Glyph) : Bool :=
  inFlow && g.char = ':' && gs.head?.any (·.char ∈ [',', '?', '[', ']', '{', '}'])

/-- Reads on after some text and a gap. In block style every further line of the text has to be
indented by `indent`. Also tells whether the text was followed by a line break. -/
def readPlainFrom? (inFlow : Bool) (indent : Nat) (text : List Char) (gap : Gap) :
    List Glyph → Option (List Char × Bool × List Glyph)
  | [] => some (text, gap.isLines, [])
  | g :: gs =>
    if g.isBlank then
      if gap.isLines && g.column < indent && g.char = '\t' then none
      else readPlainFrom? inFlow indent text (gap.blank g.char) gs
    else if g.isBreak then readPlainFrom? inFlow indent text (gap.lineBreak g.char) gs
    else if (!inFlow && gap.isLines && g.column < indent) || Glyph.atDocumentMark (g :: gs)
        || (g.char = '#' && gap ≠ .none) then
      some (text, gap.isLines, g :: gs)
    else if isMisplacedColon inFlow g gs then none
    else if endsPlain inFlow g gs then some (text, gap.isLines, g :: gs)
    else readPlainFrom? inFlow indent (text ++ gap.fold ++ [g.char]) .none gs

def readPlain? (inFlow : Bool) (indent : Nat) (gs : List Glyph) :
    Option (String × Bool × List Glyph) :=
  (readPlainFrom? inFlow indent [] .none gs).map fun (text, r) => (String.ofList text, r)

/-! ## Quoted text -/

/-- What an escape stands for by itself. -/
def escaped? : Char → Option Char
  | '0' => some '\x00'
  | 'a' => some '\x07'
  | 'b' => some '\x08'
  | 't' | '\t' => some '\t'
  | 'n' => some '\n'
  | 'v' => some '\x0b'
  | 'f' => some '\x0c'
  | 'r' => some '\r'
  | 'e' => some '\x1b'
  | ' ' => some ' '
  | '"' => some '"'
  | '/' => some '/'
  | '\\' => some '\\'
  | 'N' => some '\u0085'
  | '_' => some '\u00a0'
  | 'L' => some '\u2028'
  | 'P' => some '\u2029'
  | _ => none

/-- The number of hexadecimal digits after an escape that gives a code point. -/
def codeLength? : Char → Option Nat
  | 'x' => some 2
  | 'u' => some 4
  | 'U' => some 8
  | _ => none

def hexDigit? (c : Char) : Option Nat :=
  if c.isDigit then some (c.toNat - '0'.toNat)
  else if 'a' ≤ c ∧ c ≤ 'f' then some (c.toNat - 'a'.toNat + 10)
  else if 'A' ≤ c ∧ c ≤ 'F' then some (c.toNat - 'A'.toNat + 10)
  else none

/-- The character of a code point. -/
def charOfCode? (n : Nat) : Option Char :=
  if h : n.isValidChar then some (Char.ofNatAux n h) else none

/-- What a glyph between quotes is part of. -/
inductive QuotedPart where
  | text
  /-- The second of two quotes that stand for one. -/
  | secondQuote
  /-- What follows a backslash. -/
  | escape
  /-- The digits of a code point: how many are to come, and the number so far. -/
  | code (left n : Nat)
  deriving DecidableEq, Repr

/-- Reads on after some text and a gap, up to the closing quote. -/
def readQuotedFrom? (quote : Char) (part : QuotedPart) (text : List Char) (gap : Gap) :
    List Glyph → Option (List Char × List Glyph)
  | [] => none
  | g :: gs =>
    match part with
    | .secondQuote => readQuotedFrom? quote .text text gap gs
    | .escape =>
      if g.isBreak then readQuotedFrom? quote .text text (.lines none []) gs
      else
        match escaped? g.char, codeLength? g.char with
        | some c, _ => readQuotedFrom? quote .text (text ++ [c]) gap gs
        | none, some n => readQuotedFrom? quote (.code n 0) text gap gs
        | none, none => none
    | .code left n =>
      match hexDigit? g.char with
      | none => none
      | some d =>
        if 1 < left then readQuotedFrom? quote (.code (left - 1) (16 * n + d)) text gap gs
        else
          match charOfCode? (16 * n + d) with
          | some c => readQuotedFrom? quote .text (text ++ [c]) gap gs
          | none => none
    | .text =>
      if g.isBlank then readQuotedFrom? quote .text text (gap.blank g.char) gs
      else if g.isBreak then readQuotedFrom? quote .text text (gap.lineBreak g.char) gs
      else if Glyph.atDocumentMark (g :: gs) then none
      else
        let text := text ++ gap.fold
        if g.char = quote then
          if quote = '\'' && gs.head?.any (·.char = '\'') then
            readQuotedFrom? quote .secondQuote (text ++ ['\'']) .none gs
          else some (text, gs)
        else if g.char = '\\' && quote = '"' then readQuotedFrom? quote .escape text .none gs
        else readQuotedFrom? quote .text (text ++ [g.char]) .none gs

/-- Reads what follows an opening quote. -/
def readQuoted? (quote : Char) (gs : List Glyph) : Option (String × List Glyph) :=
  (readQuotedFrom? quote .text [] .none gs).map fun (text, rest) => (String.ofList text, rest)

/-! ## Blocks -/

/-- Which line breaks at the end of a block are kept. -/
inductive Chomping where
  | none
  | one
  | all
  deriving DecidableEq, Repr

/-- What the first line of a block says. -/
structure BlockHeader where
  chomping : Chomping
  /-- By how much the block is indented, if that is said. -/
  indentation : Option Nat
  deriving DecidableEq, Repr

def chomping? (c : Char) : Option Chomping :=
  if c = '+' then some .all else if c = '-' then some .none else Option.none

/-- The indentation that a digit asks for; zero is refused. -/
def indentation? (c : Char) : Option (Option Nat) :=
  if c = '0' then some none else if c.isDigit then some (some (c.toNat - '0'.toNat)) else none

/-- Reads the indicators of a first line, in either order. -/
def readHeader? (gs : List Glyph) : Option (BlockHeader × List Glyph) :=
  let indentation (gs : List Glyph) : Option (Option Nat × List Glyph) :=
    match gs with
    | [] => some (none, [])
    | g :: rest =>
      match indentation? g.char with
      | some none => none
      | some (some n) => some (some n, rest)
      | none => some (none, g :: rest)
  let chomping (gs : List Glyph) : Option Chomping × List Glyph :=
    match gs with
    | [] => (none, [])
    | g :: rest =>
      match chomping? g.char with
      | some c => (some c, rest)
      | none => (none, g :: rest)
  match chomping gs with
  | (some c, rest) => (indentation rest).map fun (n, rest) => (⟨c, n⟩, rest)
  | (none, gs) =>
    match indentation gs with
    | none => none
    | some (none, rest) => some (⟨.one, none⟩, rest)
    | some (some n, rest) =>
      let (c, rest) := chomping rest
      some (⟨c.getD .one, some n⟩, rest)

/-- A block so far. -/
structure Block where
  text : List Char
  /-- The break that ended the last line with something on it. -/
  lineBreak : Option Char
  /-- The breaks of the empty lines after it. -/
  emptyLines : List Char
  /-- Did the last line begin with a blank? -/
  wasIndented : Bool
  deriving DecidableEq, Repr

namespace Block

/-- Starts a new line with something on it. Folding spares lines that begin with a blank. -/
def startLine (b : Block) (folds : Bool) (g : Glyph) : Block :=
  let kept :=
    if folds && b.lineBreak = some '\n' && !b.wasIndented && !g.isBlank then
      if b.emptyLines = [] then [' '] else []
    else b.lineBreak.toList
  ⟨b.text ++ kept ++ b.emptyLines, none, [], g.isBlank⟩

/-- The text of the block when it is complete. -/
def chomp (b : Block) : Chomping → List Char
  | .none => b.text
  | .one => b.text ++ b.lineBreak.toList
  | .all => b.text ++ b.lineBreak.toList ++ b.emptyLines

end Block

/-- How far a block is indented. -/
inductive Indentation where
  | known (n : Nat)
  /-- At least `least`, and as far as the first line with something on it, or an empty line before
  it that reaches farther. -/
  | sought (least reached : Nat)
  deriving DecidableEq, Repr

namespace Indentation

/-- Is a glyph in this column still part of the indentation? -/
def covers (i : Indentation) (column : Nat) : Bool :=
  match i with
  | known n => column < n
  | sought .. => true

/-- Takes note of how far the blanks of a line reach. -/
def reach (i : Indentation) (column : Nat) : Indentation :=
  match i with
  | known n => known n
  | sought least reached => sought least (max reached column)

/-- The indentation, once a line has something on it. -/
def decided : Indentation → Nat
  | known n => n
  | sought least reached => max least reached

end Indentation

/-- Reads on, inside a line or in front of one. -/
def readBlockFrom? (folds : Bool) (block : Block) (indentation : Indentation) (inLine : Bool) :
    List Glyph → Option (Block × List Glyph)
  | [] => some (block, [])
  | g :: gs =>
    if inLine then
      if g.isBreak then
        readBlockFrom? folds { block with lineBreak := some g.char } indentation false gs
      else readBlockFrom? folds { block with text := block.text ++ [g.char] } indentation true gs
    else if g.char = ' ' && indentation.covers g.column then
      readBlockFrom? folds block indentation false gs
    else
      let indentation := indentation.reach g.column
      if g.char = '\t' && indentation.covers g.column then none
      else if g.isBreak then
        readBlockFrom? folds { block with emptyLines := block.emptyLines ++ [g.char] } indentation
          false gs
      else if g.column = indentation.decided then
        let started := block.startLine folds g
        readBlockFrom? folds { started with text := started.text ++ [g.char] }
          (.known indentation.decided) true gs
      else some (block, g :: gs)

/-- Reads what follows the indicator of a block inside a collection indented by `outer`. -/
def readBlock? (folds : Bool) (outer : Option Nat) (gs : List Glyph) :
    Option (String × List Glyph) := do
  let (header, gs) ← readHeader? gs
  let gs ← Glyph.endLine? gs
  let indentation : Indentation := match header.indentation with
    | some n => .known (outer.getD 0 + n)
    | none => .sought (max 1 (outer.elim 0 (· + 1))) 0
  let (block, rest) ← readBlockFrom? folds ⟨[], none, [], false⟩ indentation false gs
  return (String.ofList (block.chomp header.chomping), rest)

end Smsc.Yaml
