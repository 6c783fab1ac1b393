import Smsc.Net.Address
import Smsc.Time

/-!
# Smsc.Settings.Basic — what can be set

* `ServerSettings`, `SessionSettings`, `TelemetrySettings`, and `Settings` of all three;
* `….standard`: what holds where nothing is set.
-/

namespace Smsc

/-- The endpoint and its identity. -/
structure ServerSettings where
  /-- Used in logs and in the names of managed objects. -/
  name : String
  /-- Where to listen. -/
  address : SocketAddress
  /-- The system id in bind responses. -/
  systemId : String
  /-- How long a stop waits for the disconnect of each session. -/
  disconnectTimeout : Duration
  deriving DecidableEq, Repr

/-- What every session goes by. -/
structure SessionSettings where
  /-- The most requests of the server that may await a response. -/
  windowSize : Nat
  /-- How long a request waits for capacity. -/
  offerTimeout : Duration
  /-- The age at which a request without response is reclaimed. -/
  expireTimeout : Duration
  /-- How long a close waits for the response to its unbind. -/
  unbindTimeout : Duration
  deriving DecidableEq, Repr

/-- Logging. -/
structure TelemetrySettings where
  logLevel : String
  jsonLogs : Bool
  /-- Log every PDU. -/
  pduTrace : Bool
  deriving DecidableEq, Repr

/-- All settings. -/
structure Settings where
  server : ServerSettings
  session : SessionSettings
  telemetry : TelemetrySettings
  deriving DecidableEq, Repr

def ServerSettings.standard : ServerSettings :=
  ⟨"smppserver", .v4 ⟨0, 0, 0, 0⟩ 2775, "smppserver", .ofMillis 500⟩

def SessionSettings.standard : SessionSettings :=
  ⟨10, .ofSeconds 30, .ofSeconds 60, .ofMillis 500⟩

def TelemetrySettings.standard : TelemetrySettings := ⟨"info", false, false⟩

def Settings.standard : Settings := ⟨.standard, .standard, .standard⟩

/-- What the logs are filtered by: the level, and the trace of PDUs if it is on. -/
def TelemetrySettings.directive (t : TelemetrySettings) : String :=
  if t.pduTrace then t.logLevel ++ ",smppserver::listener::session=trace" else t.logLevel

end Smsc
