import Smsc.Logging.Filter
import Smsc.Text.Quoted

/-!
# Smsc.Logging.Line — log entries as lines

* `LogEntry.plain`: for people;
* `LogEntry.json`: one object for each entry, for programs.
-/

namespace Smsc

def LogLevel.name : LogLevel → String
  | error => "ERROR"
  | warn => "WARN"
  | info => "INFO"
  | debug => "DEBUG"
  | trace => "TRACE"

namespace LogEntry

/-- Level, target and message, then the fields. -/
def plain (e : LogEntry) : String :=
  e.level.name ++ " " ++ e.target ++ ": " ++ e.message ++
    String.join (e.fields.map fun (k, v) => " " ++ k ++ "=" ++ quoted v)

/-- A character inside a text of the object notation. -/
def jsonChar (c : Char) : String :=
  if c = '"' then "\\\""
  else if c = '\\' then "\\\\"
  else if c.toNat < 0x20 then "\\u" ++ Numeral.hex 4 c.toNat
  else String.singleton c

def jsonText (s : String) : String := "\"" ++ String.join (s.toList.map jsonChar) ++ "\""

def jsonObject (members : List (String × String)) : String :=
  "\x7b" ++ ",".intercalate (members.map fun (k, v) => jsonText k ++ ":" ++ v) ++ "\x7d"

/-- One object, in which the fields are an object of their own. -/
def json (e : LogEntry) : String :=
  let fields := ("message", e.message) :: e.fields
  jsonObject [("level", jsonText e.level.name),
    ("fields", jsonObject (fields.map fun (k, v) => (k, jsonText v))),
    ("target", jsonText e.target)]

end LogEntry

end Smsc
