import Smsc.Yaml.Token

/-!
# Smsc.Yaml.Lexer — from a text to its tokens

In block style collections are shown by indentation alone, and a key is known for one only by the
colon that follows it. So the lexer keeps the columns of the collections it is in, and remembers
where a key may have begun; the colon then puts the tokens of the key there.

* `Lexer`: the state between two tokens; `Lexer.fetch?` reads one;
* `Token.scan?`: all tokens of a text.
-/

namespace Smsc.Yaml

/-- Something that is a key if a colon follows it on the same line. -/
structure PossibleKey where
  /-- The number of tokens before it. -/
  position : Nat
  start : Glyph
  /-- It can be nothing else. -/
  isRequired : Bool
  deriving DecidableEq, Repr

/-- The farthest a colon may be from the start of its key, in octets. -/
def keyReach : Nat := 1024

structure Lexer where
  tokens : Array Token
  /-- The columns of the block collections around, the innermost first. -/
  indents : List Nat
  /-- What may be a key at this depth of flow collections. -/
  possibleKey : Option PossibleKey
  /-- The same for the depths around it, the innermost first; in block style there are none. -/
  outerKeys : List (Option PossibleKey)
  /-- May a key begin here? -/
  allowsKey : Bool
  deriving Repr

namespace Lexer

def start : Lexer := ⟨#[], [], none, [], true⟩

def inFlow (l : Lexer) : Bool := !l.outerKeys.isEmpty

def push (l : Lexer) (t : Token) : Lexer := { l with tokens := l.tokens.push t }

/-! ## Indentation -/

/-- Begins a collection in a column, unless there is one already. Its token goes to a place in
front of some tokens. -/
def indentAt (l : Lexer) (column : Nat) (position : Nat) (t : Token) : Lexer :=
  if !l.inFlow && l.indents.head?.all (· < column) then
    { l with
      indents := column :: l.indents
      tokens := l.tokens.insertIdxIfInBounds position t }
  else l

def indent (l : Lexer) (column : Nat) (t : Token) : Lexer := l.indentAt column l.tokens.size t

/-- Ends the collections that a column is to the left of. -/
def dedent (l : Lexer) (column : Nat) : Lexer :=
  if l.inFlow then l
  else
    let ended := l.indents.takeWhile (column < ·)
    { l with
      indents := l.indents.drop ended.length
      tokens := l.tokens ++ Array.replicate ended.length .blockEnd }

/-- Ends all collections. -/
def dedentAll (l : Lexer) : Lexer :=
  if l.inFlow then l
  else { l with indents := [], tokens := l.tokens ++ Array.replicate l.indents.length .blockEnd }

/-! ## Keys -/

/-- Remembers that a key may begin here. -/
def offerKey (l : Lexer) (g : Glyph) : Lexer :=
  if l.allowsKey then
    { l with possibleKey := some ⟨l.tokens.size, g, !l.inFlow && l.indents.head? = some g.column⟩ }
  else l

/-- Forgets the possible key, which must not be a required one. -/
def dropKey? (l : Lexer) : Option Lexer :=
  if l.possibleKey.any (·.isRequired) then none else some { l with possibleKey := none }

/-- Forgets one possible key if a colon at `g` is out of its reach. -/
def refresh? (g : Glyph) : Option PossibleKey → Option (Option PossibleKey)
  | none => some none
  | some k =>
    if k.start.line < g.line || k.start.index + keyReach < g.index then
      if k.isRequired then none else some none
    else some (some k)

/-- Forgets the possible keys that a colon at `g` is out of reach of. -/
def refreshKeys? (l : Lexer) (g : Glyph) : Option Lexer := do
  let possibleKey ← refresh? g l.possibleKey
  let outerKeys ← l.outerKeys.mapM (refresh? g)
  return { l with possibleKey, outerKeys }

/-! ## Between tokens -/

/-- Goes on to the next token. Tabs count as blanks only where no key may begin, or in flow
style. -/
def skip (inFlow : Bool) (allowsKey inComment : Bool) : List Glyph → Bool × List Glyph
  | [] => (allowsKey, [])
  | g :: gs =>
    if g.isBreak then skip inFlow (allowsKey || !inFlow) false gs
    else if inComment then skip inFlow allowsKey true gs
    else if g.char = ' ' || (g.char = '\t' && (inFlow || !allowsKey))
        || (g.char = '\ufeff' && g.column = 0) then
      skip inFlow allowsKey false gs
    else if g.char = '#' then skip inFlow allowsKey true gs
    else (allowsKey, g :: gs)

/-! ## Tokens -/

/-- Reads the colon of a value. -/
def value? (l : Lexer) (g : Glyph) : Option Lexer :=
  match l.possibleKey with
  | some k =>
    let l := { l with tokens := l.tokens.insertIdxIfInBounds k.position .key }
    let l := l.indentAt k.start.column k.position .blockMapping
    some { l.push .value with possibleKey := none, allowsKey := false }
  | none =>
    if l.inFlow then some { l.push .value with allowsKey := false }
    else if l.allowsKey then
      some { (l.indent g.column .blockMapping).push .value with allowsKey := true }
    else none

/-- Reads the question mark of a key. -/
def key? (l : Lexer) (g : Glyph) : Option Lexer :=
  if l.inFlow then do
    let l ← l.dropKey?
    return { l.push .key with allowsKey := false }
  else if l.allowsKey then do
    let l ← (l.indent g.column .blockMapping).dropKey?
    return { l.push .key with allowsKey := true }
  else none

/-- Reads the dash of an entry. -/
def dash? (l : Lexer) (g : Glyph) : Option Lexer :=
  if !l.inFlow && !l.allowsKey then none
  else do
    let l ← (l.indent g.column .blockSequence).dropKey?
    return { l.push .blockEntry with allowsKey := true }

/-- Reads the bracket that begins a flow collection. -/
def openFlow (l : Lexer) (g : Glyph) (t : Token) : Lexer :=
  let l := (l.offerKey g).push t
  { l with possibleKey := none, outerKeys := l.possibleKey :: l.outerKeys, allowsKey := true }

/-- Reads the bracket that ends a flow collection. -/
def closeFlow? (l : Lexer) (t : Token) : Option Lexer := do
  let l ← l.dropKey?
  let l := { l.push t with allowsKey := false }
  match l.outerKeys with
  | [] => return l
  | k :: ks => return { l with possibleKey := k, outerKeys := ks }

/-- Reads what stands between two entries of a flow collection. -/
def separate? (l : Lexer) : Option Lexer := do
  let l ← l.dropKey?
  return { l.push .flowEntry with allowsKey := true }

/-- Reads the mark of the start or end of a document. -/
def mark? (l : Lexer) (t : Token) : Option Lexer := do
  let l ← l.dedentAll.dropKey?
  return { l.push t with allowsKey := false }

/-- Does a text, a name or a tag that may be a key begin here? Then it goes on without one. -/
def beginKey (l : Lexer) (g : Glyph) : Lexer := { l.offerKey g with allowsKey := false }

/-- May a plain text begin with these glyphs? -/
def beginsPlain (inFlow : Bool) (g : Glyph) (gs : List Glyph) : Bool :=
  g.char ∉ ['-', '?', ':', ',', '[', ']', '{', '}', '#', '&', '*', '!', '|', '>', '\'', '"', '%', '@', '`']
    && !g.isBlank
  || (g.char = '-' && !gs.head?.any Glyph.isBlank)
  || (!inFlow && g.char ∈ ['?', ':'] && !Glyph.atGap gs)

/-- Reads the token that begins with `g`. -/
def fetch? (l : Lexer) (g : Glyph) (gs : List Glyph) : Option (Lexer × List Glyph) :=
  let one (l : Option Lexer) : Option (Lexer × List Glyph) := l.map (·, gs)
  if g.column = 0 && g.char = '%' then do
    let l ← l.dedentAll.dropKey?
    let (t, rest) ← readDirective? (g :: gs)
    return ({ l.push t with allowsKey := false }, rest)
  else if Glyph.atMark '-' (g :: gs) then do return (← l.mark? .documentStart, gs.drop 2)
  else if Glyph.atMark '.' (g :: gs) then do return (← l.mark? .documentEnd, gs.drop 2)
  else if g.char = '[' then one (l.openFlow g .flowSequence)
  else if g.char = '{' then one (l.openFlow g .flowMapping)
  else if g.char = ']' then one (l.closeFlow? .flowSequenceEnd)
  else if g.char = '}' then one (l.closeFlow? .flowMappingEnd)
  else if g.char = ',' then one l.separate?
  else if g.char = '-' && Glyph.atGap gs then one (l.dash? g)
  else if g.char = '?' && (l.inFlow || Glyph.atGap gs) then one (l.key? g)
  else if g.char = ':' && (l.inFlow || Glyph.atGap gs) then one (l.value? g)
  else if g.char = '*' then do
    let (name, rest) ← readName? gs
    return ((l.beginKey g).push (.alias name), rest)
  else if g.char = '&' then do
    let (name, rest) ← readName? gs
    return ((l.beginKey g).push (.anchor name), rest)
  else if g.char = '!' then do
    let (name, rest) ← readTag? l.inFlow (g :: gs)
    return ((l.beginKey g).push (.tag name), rest)
  else if (g.char = '|' || g.char = '>') && !l.inFlow then do
    let l ← l.dropKey?
    let (text, rest) ← readBlock? (g.char = '>') l.indents.head? gs
    let style := if g.char = '>' then ScalarStyle.folded else .literal
    return ({ l.push (.scalar text style) with allowsKey := true }, rest)
  else if g.char = '\'' || g.char = '"' then do
    let (text, rest) ← readQuoted? g.char gs
    return ((l.beginKey g).push (.scalar text .quoted), rest)
  else if beginsPlain l.inFlow g gs then do
    let indent := l.indents.head?.elim 0 (· + 1)
    let (text, endsLine, rest) ← readPlain? l.inFlow indent (g :: gs)
    let l := (l.beginKey g).push (.scalar text .plain)
    return ({ l with allowsKey := endsLine }, rest)
  else none

/-- Reads tokens to the end; every one takes at least one of at most `fuel` glyphs. -/
def run? (l : Lexer) (gs : List Glyph) : (fuel : Nat) → Option (List Token)
  | 0 => none
  | fuel + 1 =>
    let (allowsKey, gs) := skip l.inFlow l.allowsKey false gs
    match gs with
    | [] => l.dedentAll.dropKey?.map (·.tokens.toList)
    | g :: gs => do
      let l ← { l with allowsKey }.refreshKeys? g
      let (l, rest) ← (l.dedent g.column).fetch? g gs
      l.run? rest fuel

end Lexer

/-- The tokens of a text. -/
def Token.scan? (text : String) : Option (List Token) := do
  let gs ← Glyph.ofText? text
  Lexer.start.run? gs (gs.length + 1)

end Smsc.Yaml
