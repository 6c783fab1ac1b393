import Smsc.Failure
import Smsc.Logging.Filter
import Smsc.Settings.Reader

/-!
# Smsc.CommandLine — the program that runs a server

* `Invocation.parse`: what the arguments ask for;
* `CommandLine.prepare`: settings and log filter, before anything is started;
* `CommandLine.run`: what a run prints and how it ends, on a `Host` that says what files hold and
  whether an address can be had.
-/

namespace Smsc

/-! ## Arguments -/

/-- What is wrong with the arguments. -/
inductive Misuse where
  | unexpectedArgument (argument : String)
  | unexpectedValue (value option : String)
  | missingValue
  | repeated (option : String)
  deriving DecidableEq, Repr

/-- What a server is run with. -/
structure ServeRequest where
  /-- The path of the file with the settings. -/
  config : Option String
  /-- Only check the settings. -/
  validates : Bool
  deriving DecidableEq, Repr

/-- What the arguments ask for. -/
inductive Invocation where
  | serve (r : ServeRequest)
  | help
  | version
  deriving DecidableEq, Repr

namespace Invocation

/-- The option that takes the path of the file with the settings. -/
def configOption : String := "--config <FILE>"

/-- Takes note of the file with the settings. -/
def setConfig (r : ServeRequest) (path : String) : Except Misuse ServeRequest :=
  if path = "" then .error .missingValue
  else if r.config.isSome then .error (.repeated configOption)
  else .ok { r with config := some path }

def setValidates (r : ServeRequest) : Except Misuse ServeRequest :=
  if r.validates then .error (.repeated "--validate") else .ok { r with validates := true }

/-- Does an argument look like an option? -/
def isOption (argument : String) : Bool := argument.startsWith "-" && argument ≠ "-"

/-- Splits an argument at its first equals sign. -/
def splitValue (argument : String) : String × Option String :=
  let name := argument.toList.takeWhile (· ≠ '=')
  (String.ofList name, match argument.toList.drop name.length with
    | [] => none
    | _ :: value => some (String.ofList value))

/-- An option that takes no value. -/
def bare {α : Type} (name : String) (value : Option String) (a : Except Misuse α) :
    Except Misuse α :=
  match value with
  | none => a
  | some v => .error (.unexpectedValue v name)

/-- Reads arguments from left to right. A question for help or the version is answered at once. -/
def parseFrom (r : ServeRequest) : List String → Except Misuse Invocation
  | [] => .ok (.serve r)
  | "--" :: [] => .ok (.serve r)
  | "--" :: argument :: _ => .error (.unexpectedArgument argument)
  | argument :: rest =>
    let awaitPath : Except Misuse Invocation :=
      match rest with
      | [] => .error .missingValue
      | path :: rest =>
        if isOption path then .error .missingValue
        else
          match setConfig r path with
          | .ok r => parseFrom r rest
          | .error e => .error e
    if argument.startsWith "--" then
      match splitValue argument with
      | ("--config", some path) =>
        match setConfig r path with
        | .ok r => parseFrom r rest
        | .error e => .error e
      | ("--config", none) => awaitPath
      | ("--validate", value) =>
        match bare "--validate" value (setValidates r) with
        | .ok r => parseFrom r rest
        | .error e => .error e
      | ("--help", value) => bare "--help" value (.ok .help)
      | ("--version", value) => bare "--version" value (.ok .version)
      | _ => .error (.unexpectedArgument argument)
    else
      match argument.toList with
      | '-' :: 'h' :: _ => .ok .help
      | '-' :: 'V' :: _ => .ok .version
      | ['-', 'c'] => awaitPath
      | '-' :: 'c' :: value =>
        let path := if value.head? = some '=' then value.tail else value
        match setConfig r (String.ofList path) with
        | .ok r => parseFrom r rest
        | .error e => .error e
      | _ => .error (.unexpectedArgument argument)

def parse (arguments : List String) : Except Misuse Invocation :=
  parseFrom ⟨none, false⟩ arguments

end Invocation

namespace Misuse

def usage : String := "Usage: smppserver [OPTIONS]"

def reason : Misuse → String
  | unexpectedArgument argument => "unexpected argument '" ++ argument ++ "' found"
  | unexpectedValue value option =>
    "unexpected value '" ++ value ++ "' for '" ++ option ++ "' found; no more were expected"
  | missingValue =>
    "a value is required for '" ++ Invocation.configOption ++ "' but none was supplied"
  | repeated option => "the argument '" ++ option ++ "' cannot be used multiple times"

def message (m : Misuse) : String :=
  "error: " ++ m.reason ++ "\n\n" ++ (if m = missingValue then "" else usage ++ "\n\n") ++
    "For more information, try '--help'.\n"

end Misuse

namespace CommandLine

def versionText : String := "smppserver 0.1.0\n"

def helpText : String :=
  "SMPP server endpoint\n\n" ++ Misuse.usage ++ "\n\n" ++
    "Options:\n" ++
    "  -c, --config <FILE>  Path to config file\n" ++
    "      --validate       Validate config and exit\n" ++
    "  -h, --help           Print help\n" ++
    "  -V, --version        Print version\n"

/-! ## Runs -/

/-- Why no server runs. -/
inductive Failure where
  | load (e : Settings.LoadError)
  | filter (directive : String) (e : FilterError)
  | start (e : SessionError)
  deriving DecidableEq, Repr

def Failure.message : Failure → String
  | load e => e.message
  | filter directive e => "invalid log filter '" ++ directive ++ "': " ++ e.message
  | start e => e.message

/-- What a run finds around it. -/
structure Host where
  /-- What a file holds, if there is such a file. -/
  file : String → Option (List UInt8)
  /-- Why an address cannot be listened on, if it cannot. -/
  bindFault : SocketAddress → Option String

/-- How a run went. -/
structure Outcome where
  exitCode : Nat
  /-- What was printed, apart from the log. -/
  printed : String
  complaint : String
  log : List LogEntry
  deriving Repr

/-- The settings and the filter of the log. -/
def prepare (h : Host) (r : ServeRequest) : Except Failure (Settings × LogFilter) :=
  let settings := match r.config with
    | some path => Settings.load path (h.file path)
    | none => .ok .standard
  match settings with
  | .error e => .error (.load e)
  | .ok settings =>
    let directive := settings.telemetry.directive
    match LogFilter.parse directive with
    | .error e => .error (.filter directive e)
    | .ok filter => .ok (settings, filter)

def info (target message : String) (fields : List (String × String)) : LogEntry :=
  ⟨.info, target, message, fields⟩

/-- What is logged before anything is started. -/
def preparedEntries (s : Settings) : List LogEntry :=
  [info "smppserver::telemetry::tracing" "tracing initialized"
      [("service", "smppserver"), ("filter", s.telemetry.directive),
        ("json_logs", toString s.telemetry.jsonLogs)],
    info "smppserver" "configuration loaded"
      [("version", "0.1.0"), ("server", s.server.name), ("address", s.server.address.text),
        ("window_size", toString s.session.windowSize)]]

def validEntry : LogEntry := info "smppserver" "configuration is valid" []

/-- An entry about the server itself. -/
def serverEntry (s : Settings) (message : String) (more : List (String × String)) : LogEntry :=
  info "smppserver::listener::server" message (("server", s.server.name) :: more)

def startingEntry (s : Settings) : LogEntry :=
  serverEntry s "starting server" [("address", s.server.address.text)]

/-- What is logged once the server listens. -/
def startedEntry (s : Settings) (address : SocketAddress) : LogEntry :=
  serverEntry s "server started" [("address", address.text)]

/-- What is logged from the interrupt to the end. -/
def stoppedEntries (s : Settings) : List LogEntry :=
  [info "smppserver" "received shutdown signal" [], serverEntry s "stopping server" [],
    serverEntry s "server stopped" []]

/-- How a run ends that fails. -/
def failed (e : Failure) (log : List LogEntry) : Outcome :=
  ⟨1, "", "Error: " ++ e.message ++ "\n", log⟩

/-- A whole run. A server that has started serves until it is interrupted. -/
def run (h : Host) (arguments : List String) : Outcome :=
  match Invocation.parse arguments with
  | .error m => ⟨2, "", m.message, []⟩
  | .ok .help => ⟨0, helpText, "", []⟩
  | .ok .version => ⟨0, versionText, "", []⟩
  | .ok (.serve r) =>
    match prepare h r with
    | .error e => failed e []
    | .ok (s, filter) =>
      let entries := preparedEntries s
      if r.validates then ⟨0, "", "", (entries ++ [validEntry]).filter filter.shows⟩
      else
        let entries := entries ++ [startingEntry s]
        match h.bindFault s.server.address with
        | some cause =>
          failed (.start (.channel (.bind s.server.address cause))) (entries.filter filter.shows)
        | none =>
          ⟨0, "", "", (entries ++ startedEntry s s.server.address :: stoppedEntries s).filter
            filter.shows⟩

/-- Does the log say something, in a message or in a field? -/
def Outcome.mentions (o : Outcome) (phrase : String) : Bool :=
  o.log.any fun e => e.message.contains phrase || e.fields.any fun (_, v) => v.contains phrase

/-- The first line of the complaint, if it is about a run and not about the arguments. -/
def Outcome.error? (o : Outcome) : Option String :=
  if o.complaint.startsWith "Error: " then (o.complaint.splitOn "\n").head? else none

end CommandLine

end Smsc
