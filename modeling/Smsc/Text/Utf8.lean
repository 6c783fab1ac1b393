/-!
# Smsc.Text.Utf8 — characters as octets

Text travels as UTF-8. A character takes one to four octets; overlong forms, surrogates and
anything above U+10FFFF are refused.

* `encode`: the octets of a string;
* `decode`: the string that octets spell, or the first `Fault` in them;
* `Fault`: where the octets stop being text, and how many of them are wrong.
-/

namespace Smsc.Utf8

/-- The octets of one character. -/
def encodeChar (c : Char) : List UInt8 :=
  let n := c.toNat
  if n < 0x80 then
    [.ofNat n]
  else if n < 0x800 then
    [.ofNat (0xC0 + n / 0x40), .ofNat (0x80 + n % 0x40)]
  else if n < 0x10000 then
    [.ofNat (0xE0 + n / 0x1000), .ofNat (0x80 + n / 0x40 % 0x40), .ofNat (0x80 + n % 0x40)]
  else
    [.ofNat (0xF0 + n / 0x40000), .ofNat (0x80 + n / 0x1000 % 0x40),
      .ofNat (0x80 + n / 0x40 % 0x40), .ofNat (0x80 + n % 0x40)]

/-- The octets of a text. -/
def encode (s : String) : List UInt8 :=
  s.toList.flatMap encodeChar

/-- What is wrong with octets that are no text. -/
inductive Fault where
  /-- From index `start` on, `length` octets begin no character. -/
  | invalid (start length : Nat)
  /-- The octets end inside the character that begins at index `start`. -/
  | incomplete (start : Nat)
  deriving DecidableEq, Repr

def Fault.message : Fault → String
  | .invalid start length =>
    "invalid utf-8 sequence of " ++ toString length ++ " bytes from index " ++ toString start
  | .incomplete start => "incomplete utf-8 byte sequence from index " ++ toString start

/-- Is `b` an octet after the first of a character? -/
def isTail (b : UInt8) : Bool :=
  0x80 ≤ b.toNat && b.toNat ≤ 0xBF

/-- Can `b` follow the first octet `a` of a character of three octets? -/
def isSecondOfThree (a b : UInt8) : Bool :=
  if a.toNat = 0xE0 then 0xA0 ≤ b.toNat && b.toNat ≤ 0xBF
  else if a.toNat = 0xED then 0x80 ≤ b.toNat && b.toNat ≤ 0x9F
  else isTail b

/-- Can `b` follow the first octet `a` of a character of four octets? -/
def isSecondOfFour (a b : UInt8) : Bool :=
  if a.toNat = 0xF0 then 0x90 ≤ b.toNat && b.toNat ≤ 0xBF
  else if a.toNat = 0xF4 then 0x80 ≤ b.toNat && b.toNat ≤ 0x8F
  else isTail b

/-- The characters spelled from index `start` on. -/
def decodeFrom (start : Nat) : List UInt8 → Except Fault (List Char)
  | [] => .ok []
  | a :: rest =>
    if a.toNat < 0x80 then
      (Char.ofNat a.toNat :: ·) <$> decodeFrom (start + 1) rest
    else if 0xC2 ≤ a.toNat && a.toNat ≤ 0xDF then
      match rest with
      | [] => .error (.incomplete start)
      | b :: rest =>
        if isTail b then
          (Char.ofNat ((a.toNat - 0xC0) * 0x40 + (b.toNat - 0x80)) :: ·) <$>
            decodeFrom (start + 2) rest
        else .error (.invalid start 1)
    else if 0xE0 ≤ a.toNat && a.toNat ≤ 0xEF then
      match rest with
      | [] => .error (.incomplete start)
      | b :: rest =>
        if isSecondOfThree a b then
          match rest with
          | [] => .error (.incomplete start)
          | c :: rest =>
            if isTail c then
              (Char.ofNat ((a.toNat - 0xE0) * 0x1000 + (b.toNat - 0x80) * 0x40 +
                (c.toNat - 0x80)) :: ·) <$> decodeFrom (start + 3) rest
            else .error (.invalid start 2)
        else .error (.invalid start 1)
    else if 0xF0 ≤ a.toNat && a.toNat ≤ 0xF4 then
      match rest with
      | [] => .error (.incomplete start)
      | b :: rest =>
        if isSecondOfFour a b then
          match rest with
          | [] => .error (.incomplete start)
          | c :: rest =>
            if isTail c then
              match rest with
              | [] => .error (.incomplete start)
              | d :: rest =>
                if isTail d then
                  (Char.ofNat ((a.toNat - 0xF0) * 0x40000 + (b.toNat - 0x80) * 0x1000 +
                    (c.toNat - 0x80) * 0x40 + (d.toNat - 0x80)) :: ·) <$>
                    decodeFrom (start + 4) rest
                else .error (.invalid start 3)
            else .error (.invalid start 2)
        else .error (.invalid start 1)
    else .error (.invalid start 1)

/-- The text that octets spell. -/
def decode (octets : List UInt8) : Except Fault String :=
  String.ofList <$> decodeFrom 0 octets

end Smsc.Utf8
