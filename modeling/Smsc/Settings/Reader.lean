import Smsc.Settings.Check
import Smsc.Text.Utf8
import Smsc.Time.Phrase
import Smsc.Yaml.Node

/-!
# Smsc.Settings.Reader — settings as people write them

Settings are a mapping of the three groups, each a mapping of its settings. What is left out keeps
its standard value, and what has an unknown name does not matter.

* `Settings.ofDocument?`: what a document says;
* `Settings.parse`: the checked settings of a text; `Settings.load`: those of a file.
-/

namespace Smsc

open Yaml (Document Node ScalarStyle)

namespace Settings

/-! ## Values -/

/-- A text, whatever it looks like. -/
def readText? : Node → Option String
  | .scalar text _ _ => some text
  | _ => none

/-- Does a text stand for a value of a type other than text? Plain text does, and so does a literal
block that is given the type. -/
def isBareOf (type : String) (style : ScalarStyle) (given : Option (List UInt8)) : Bool :=
  style = .plain || (style = .literal && given = some (Utf8.encode type))

def readFlag? : Node → Option Bool
  | .scalar text style type =>
    if !isBareOf "tag:yaml.org,2002:bool" style type then none
    else if text ∈ ["true", "True", "TRUE"] then some true
    else if text ∈ ["false", "False", "FALSE"] then some false
    else none
  | _ => none

/-- The value of a digit, of at most hexadecimal. -/
def digitIn? (base : Nat) (c : Char) : Option Nat :=
  (Yaml.hexDigit? c).filter (· < base)

/-- A number in some base, of 64 bits. -/
def numberIn? (base : Nat) (digits : List Char) : Option Nat :=
  if digits = [] then none
  else do
    let ds ← digits.mapM (digitIn? base)
    let n := ds.foldl (fun n d => base * n + d) 0
    if n < 0x10000000000000000 then some n else none

/-- A number in decimal without zeros in front, or in another base behind its mark. A plus sign may
come first. -/
def number? (text : List Char) : Option Nat :=
  match if text.head? = some '+' then text.tail else text with
  | '0' :: 'x' :: digits => numberIn? 16 digits
  | '0' :: 'o' :: digits => numberIn? 8 digits
  | '0' :: 'b' :: digits => numberIn? 2 digits
  | '0' :: _ :: _ => none
  | digits => numberIn? 10 digits

def readNumber? : Node → Option Nat
  | .scalar text style type =>
    if isBareOf "tag:yaml.org,2002:int" style type then number? text.toList else none
  | _ => none

def readDuration? (n : Node) : Option Duration := (readText? n).bind Duration.ofPhrase?

def readAddress? (n : Node) : Option SocketAddress := (readText? n).bind SocketAddress.parse?

/-! ## Groups -/

/-- What a group says: its settings by name. A group in which nothing is written is empty. -/
def group? (d : Document) (n : Node) : Option (List (String × Node)) :=
  match d.resolve? n with
  | some (.mapping entries) => entries.mapM fun (key, value) => do
    return (← (d.resolve? key).bind readText?, value)
  | some (.scalar "" .plain _) => some []
  | _ => none

/-- A setting that may be left out, but not be written twice. -/
def setting? {α : Type} (d : Document) (group : List (String × Node)) (name : String)
    (read? : Node → Option α) (standard : α) : Option α :=
  match group.filter (·.1 = name) with
  | [] => some standard
  | [(_, n)] => (d.resolve? n).bind read?
  | _ => none

def serverOf? (d : Document) (n : Node) : Option ServerSettings := do
  let group ← group? d n
  let standard := ServerSettings.standard
  return ⟨← setting? d group "name" readText? standard.name,
    ← setting? d group "address" readAddress? standard.address,
    ← setting? d group "system_id" readText? standard.systemId,
    ← setting? d group "disconnect_timeout" readDuration? standard.disconnectTimeout⟩

def sessionOf? (d : Document) (n : Node) : Option SessionSettings := do
  let group ← group? d n
  let standard := SessionSettings.standard
  return ⟨← setting? d group "window_size" readNumber? standard.windowSize,
    ← setting? d group "offer_timeout" readDuration? standard.offerTimeout,
    ← setting? d group "expire_timeout" readDuration? standard.expireTimeout,
    ← setting? d group "unbind_timeout" readDuration? standard.unbindTimeout⟩

def telemetryOf? (d : Document) (n : Node) : Option TelemetrySettings := do
  let group ← group? d n
  let standard := TelemetrySettings.standard
  return ⟨← setting? d group "log_level" readText? standard.logLevel,
    ← setting? d group "json_logs" readFlag? standard.jsonLogs,
    ← setting? d group "pdu_trace" readFlag? standard.pduTrace⟩

/-- What a document says. -/
def ofDocument? (d : Document) : Option Settings := do
  let group ← group? d d.root
  return ⟨← setting? d group "server" (serverOf? d) .standard,
    ← setting? d group "session" (sessionOf? d) .standard,
    ← setting? d group "telemetry" (telemetryOf? d) .standard⟩

/-! ## Texts and files -/

/-- The settings of a text, if a server can run with them. -/
def parse (text : String) : Except SettingsError Settings :=
  match (Document.ofText? text).bind ofDocument? with
  | none => .error .malformed
  | some s => do
    s.check
    return s

/-- Why a file gives no settings. -/
inductive LoadError where
  /-- There is no such file, or it holds no text. -/
  | unreadable (path : String)
  | faulty (path : String) (fault : SettingsError)
  deriving DecidableEq, Repr

namespace LoadError

def message : LoadError → String
  | unreadable path => "failed to read config file: " ++ path
  | faulty path _ => "failed to parse config file: " ++ path

/-- What the message is about, if there is more to say. -/
def cause : LoadError → Option SettingsError
  | unreadable _ => none
  | faulty _ fault => some fault

end LoadError

/-- The settings of a file: its path and what it holds, if there is such a file. -/
def load (path : String) (octets : Option (List UInt8)) : Except LoadError Settings :=
  match octets.map Utf8.decode with
  | some (.ok text) =>
    match parse text with
    | .ok s => .ok s
    | .error e => .error (.faulty path e)
  | _ => .error (.unreadable path)

end Settings

end Smsc
