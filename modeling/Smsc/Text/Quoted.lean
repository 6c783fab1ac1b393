import Smsc.Text.Combining
import Smsc.Text.Hidden
import Smsc.Text.Numeral

/-!
# Smsc.Text.Quoted — text between quotes, for logs

Quotes, backslashes and line breaks are escaped, and so is everything that shows nothing of its own
and every mark that would combine with the character before it.

* `quoted`: the quoted form of a text.
-/

namespace Smsc.Quoted

/-- A character as it stands between quotes. -/
def escape (c : Char) : String :=
  if c = '\x00' then "\\0"
  else if c = '\t' then "\\t"
  else if c = '\n' then "\\n"
  else if c = '\r' then "\\r"
  else if c = '"' then "\\\""
  else if c = '\\' then "\\\\"
  else if CharSet.hidden.contains c || CharSet.combining.contains c then
    "\\u\x7b" ++ Numeral.hex 1 c.toNat ++ "\x7d"
  else String.singleton c

end Smsc.Quoted

namespace Smsc

/-- A text between quotes. -/
def quoted (s : String) : String := "\"" ++ String.join (s.toList.map Quoted.escape) ++ "\""

end Smsc
