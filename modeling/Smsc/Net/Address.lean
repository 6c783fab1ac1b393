import Smsc.Text.Numeral

/-!
# Smsc.Net.Address — socket addresses

* `SocketAddress`: an address of either family, and a port;
* `SocketAddress.text`: the written form; the longest run of zero groups becomes `::`;
* `SocketAddress.parse?`: every written form, such as `1.2.3.4:80` and `[fe80::1%5]:80`.
-/

namespace Smsc

/-- A version 4 address. -/
structure Ipv4 where
  a : UInt8
  b : UInt8
  c : UInt8
  d : UInt8
  deriving DecidableEq, Repr

/-- An address with a port. A version 6 address has eight groups and perhaps a scope. -/
inductive SocketAddress where
  | v4 (ip : Ipv4) (port : UInt16)
  | v6 (groups : List UInt16) (scope : UInt32) (port : UInt16)
  deriving DecidableEq, Repr

def Ipv4.text (ip : Ipv4) : String :=
  ".".intercalate ([ip.a, ip.b, ip.c, ip.d].map fun n => toString n.toNat)

/-! ## Writing -/

namespace Ipv6

/-- The longest run of zeros: its start and length, the first of equals. -/
def longestZeros (groups : List UInt16) : Nat × Nat :=
  let runs := (List.range groups.length).map fun i =>
    (i, ((groups.drop i).takeWhile (· == 0)).length)
  runs.foldl (fun best run => if best.2 < run.2 then run else best) (0, 0)

def groupsText (groups : List UInt16) : String :=
  ":".intercalate (groups.map fun g => String.ofList (Nat.toDigits 16 g.toNat))

/-- The written form. An address that stands for a version 4 address shows it. -/
def text (groups : List UInt16) : String :=
  match groups with
  | [0, 0, 0, 0, 0, 0xFFFF, g, h] =>
    "::ffff:" ++ Ipv4.text ⟨.ofNat (g.toNat / 256), .ofNat (g.toNat % 256),
      .ofNat (h.toNat / 256), .ofNat (h.toNat % 256)⟩
  | _ =>
    let (start, length) := longestZeros groups
    if 1 < length then
      groupsText (groups.take start) ++ "::" ++ groupsText (groups.drop (start + length))
    else groupsText groups

end Ipv6

def SocketAddress.text : SocketAddress → String
  | .v4 ip port => ip.text ++ ":" ++ toString port.toNat
  | .v6 groups scope port =>
    let scopeText := if scope = 0 then "" else "%" ++ toString scope.toNat
    "[" ++ Ipv6.text groups ++ scopeText ++ "]:" ++ toString port.toNat

/-! ## Reading -/

namespace AddressParser

/-- Takes characters from the front, or fails and takes none. -/
abbrev Scan := StateT (List Char) Option

def char (c : Char) : Scan Unit := fun cs =>
  match cs with
  | d :: rest => if d = c then some ((), rest) else none
  | [] => none

/-- The value of a digit, if it is one in the base. -/
def digit? (base : Nat) (c : Char) : Option Nat :=
  let value? :=
    if '0' ≤ c ∧ c ≤ '9' then some (c.toNat - '0'.toNat)
    else if 'a' ≤ c ∧ c ≤ 'z' then some (c.toNat - 'a'.toNat + 10)
    else if 'A' ≤ c ∧ c ≤ 'Z' then some (c.toNat - 'A'.toNat + 10)
    else none
  value?.filter (· < base)

/-- A number below `bound`, of at most `most` digits. Zeros in front can be forbidden. -/
def number (base bound : Nat) (most : Option Nat) (zerosInFront : Bool) : Scan Nat := fun cs =>
  let digits := cs.takeWhile fun c => (digit? base c).isSome
  let value := digits.foldl (fun n c => n * base + (digit? base c).getD 0) 0
  let tooMany := match most with
    | some n => n < digits.length
    | none => false
  if digits.isEmpty || tooMany || bound ≤ value
      || (!zerosInFront && digits.head? == some '0' && 1 < digits.length) then none
  else some (value, cs.drop digits.length)

def octet : Scan UInt8 := UInt8.ofNat <$> number 10 256 (some 3) false

def ipv4 : Scan Ipv4 := do
  let a ← octet
  char '.'
  let b ← octet
  char '.'
  let c ← octet
  char '.'
  let d ← octet
  return ⟨a, b, c, d⟩

/-- What separates group `i` from the one before. -/
def separator (i : Nat) : Scan Unit :=
  if i = 0 then pure () else char ':'

/-- Reads up to `limit` groups from group `i` on. A version 4 address counts as the last two groups;
the flag says whether there was one. -/
def groups (i : Nat) : (limit : Nat) → List Char → (List UInt16 × Bool) × List Char
  | 0, cs => (([], false), cs)
  | limit + 1, cs =>
    match (if 0 < limit then (separator i *> ipv4) cs else none) with
    | some (ip, rest) =>
      (([.ofNat (ip.a.toNat * 256 + ip.b.toNat), .ofNat (ip.c.toNat * 256 + ip.d.toNat)], true), rest)
    | none =>
      match (separator i *> number 16 65536 (some 4) true) cs with
      | some (g, rest) =>
        let ((more, mapped), rest) := groups (i + 1) limit rest
        ((.ofNat g :: more, mapped), rest)
      | none => (([], false), cs)

/-- Eight groups, or fewer with one `::` among them. -/
def ipv6 : Scan (List UInt16) := fun cs =>
  let ((head, mapped), rest) := groups 0 8 cs
  if head.length = 8 then some (head, rest)
  else if mapped then none
  else
    match (char ':' *> char ':') rest with
    | none => none
    | some ((), rest) =>
      let ((tail, _), rest) := groups 0 (7 - head.length) rest
      some (head ++ List.replicate (8 - head.length - tail.length) 0 ++ tail, rest)

def port : Scan UInt16 := do
  char ':'
  UInt16.ofNat <$> number 10 65536 none true

def scope : Scan UInt32 := (do
  char '%'
  UInt32.ofNat <$> number 10 4294967296 none true) <|> pure 0

def socketAddress : Scan SocketAddress :=
  (do
    let ip ← ipv4
    return .v4 ip (← port)) <|>
  (do
    char '['
    let ip ← ipv6
    let scope ← scope
    char ']'
    return .v6 ip scope (← port))

end AddressParser

/-- The address that a whole text spells. -/
def SocketAddress.parse? (s : String) : Option SocketAddress :=
  match AddressParser.socketAddress s.toList with
  | some (address, []) => some address
  | _ => none

end Smsc
