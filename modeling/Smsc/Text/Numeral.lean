/-!
# Smsc.Text.Numeral — numbers as text

* `padded`: digits in a base, filled with zeros on the left up to a width;
* `tagged`: a hexadecimal number behind `0x`, as raw command and status codes are shown;
* `fixedPoint`: a whole number of small units as a decimal fraction of a larger unit.
-/

namespace Smsc.Numeral

/-- The digits of `n` in `base`, with zeros in front up to `width` characters. -/
def padded (base width n : Nat) : List Char :=
  (Nat.toDigits base n).leftpad width '0'

/-- `n` in hexadecimal, at least `width` digits. -/
def hex (width n : Nat) : String :=
  String.ofList (padded 16 width n)

/-- `n` in hexadecimal behind `0x`, at least `width` digits after the mark. -/
def tagged (width n : Nat) : String :=
  "0x" ++ hex width n

/-- The digits left after zeros at the end are dropped. -/
def dropTrailingZeros (digits : List Char) : List Char :=
  (digits.reverse.dropWhile (· == '0')).reverse

/-- `n / 10 ^ places` in decimal; a fraction of zero and zeros at its end are left out. -/
def fixedPoint (places n : Nat) : String :=
  let unit := Nat.pow 10 places
  let whole := toString (n / unit)
  match dropTrailingZeros (padded 10 places (n % unit)) with
  | [] => whole
  | fraction => whole ++ "." ++ String.ofList fraction

end Smsc.Numeral
