import Smsc.Time

/-!
# Smsc.Metrics — what is measured, and how measurements add up

* `Instrument`: the counters, gauges and histograms, in the order in which they are set up;
* `Measurement`: one reading of one instrument under attributes;
* `Summary`: all readings of one series: a sum, the values in order, or a count and a sum.
-/

namespace Smsc

/-- Everything that is measured. -/
inductive Instrument where
  | serverStatus
  | sessionsTotal
  | sessionsActive
  | sessionDuration
  | bindsTotal
  | pduReceivedTotal
  | pduSentTotal
  | pduErrorsTotal
  | stateRejectionsTotal
  | duplicateResponsesTotal
  | processorErrorsTotal
  | windowOffersTotal
  | windowTimeoutsTotal
  | windowExpiredTotal
  | windowUnmatchedTotal
  | requestDuration
  deriving DecidableEq, Repr

/-- How readings of an instrument are put together. -/
inductive InstrumentKind where
  | counter
  | gauge
  | histogram
  deriving DecidableEq, Repr

def InstrumentKind.name : InstrumentKind → String
  | .counter => "counter"
  | .gauge => "gauge"
  | .histogram => "histogram"

namespace Instrument

/-- All instruments, in the order in which they are set up. -/
def all : List Instrument :=
  [serverStatus, sessionsTotal, sessionsActive, sessionDuration, bindsTotal, pduReceivedTotal,
    pduSentTotal, pduErrorsTotal, stateRejectionsTotal, duplicateResponsesTotal,
    processorErrorsTotal, windowOffersTotal, windowTimeoutsTotal, windowExpiredTotal,
    windowUnmatchedTotal, requestDuration]

def kind : Instrument → InstrumentKind
  | serverStatus | sessionsActive => .gauge
  | sessionDuration | requestDuration => .histogram
  | _ => .counter

def name : Instrument → String
  | serverStatus => "smpp_server_status"
  | sessionsTotal => "smpp_sessions_total"
  | sessionsActive => "smpp_sessions_active"
  | sessionDuration => "smpp_session_duration_seconds"
  | bindsTotal => "smpp_binds_total"
  | pduReceivedTotal => "smpp_pdu_received_total"
  | pduSentTotal => "smpp_pdu_sent_total"
  | pduErrorsTotal => "smpp_pdu_errors_total"
  | stateRejectionsTotal => "smpp_state_rejections_total"
  | duplicateResponsesTotal => "smpp_duplicate_responses_total"
  | processorErrorsTotal => "smpp_processor_errors_total"
  | windowOffersTotal => "smpp_window_offers_total"
  | windowTimeoutsTotal => "smpp_window_timeouts_total"
  | windowExpiredTotal => "smpp_window_expired_total"
  | windowUnmatchedTotal => "smpp_window_unmatched_total"
  | requestDuration => "smpp_request_duration_seconds"

def description : Instrument → String
  | serverStatus => "Server lifecycle status (0=stopped, 1=starting, 2=started, 3=stopping)"
  | sessionsTotal => "Sessions by lifecycle event"
  | sessionsActive => "Currently registered sessions"
  | sessionDuration => "Session lifetime"
  | bindsTotal => "Bind operations by type and result"
  | pduReceivedTotal => "PDUs received by command"
  | pduSentTotal => "PDUs sent by command"
  | pduErrorsTotal => "PDU decode/encode/write errors by kind"
  | stateRejectionsTotal => "Requests rejected for the session's bind state"
  | duplicateResponsesTotal => "Processor replies dropped because one was already sent"
  | processorErrorsTotal => "Packet processor failures by kind"
  | windowOffersTotal => "Window offers by result"
  | windowTimeoutsTotal => "Outbound requests that timed out waiting for a response"
  | windowExpiredTotal => "Window entries reclaimed by the expiry sweep"
  | windowUnmatchedTotal => "Responses dropped with no matching window entry"
  | requestDuration => "Outbound request round-trip time"

end Instrument

/-- What an instrument reads. -/
inductive Reading where
  | add (n : Nat)
  | set (n : Int)
  | lasted (d : Duration)
  deriving DecidableEq, Repr

/-- One reading of one instrument. -/
structure Measurement where
  instrument : Instrument
  attributes : List (String × String)
  reading : Reading
  deriving DecidableEq, Repr

namespace Measurement

/-- The name of the series a measurement belongs to. -/
def series (m : Measurement) : String :=
  let pairs := m.attributes.map fun (k, v) => k ++ "=" ++ v
  m.instrument.name ++ "\x7b" ++ ",".intercalate pairs ++ "\x7d"

/-- A counter goes up by one. -/
def count (instrument : Instrument) (attributes : List (String × String)) : Measurement :=
  ⟨instrument, attributes, .add 1⟩

def serverStatus (server : String) (status : Int) : List Measurement :=
  [⟨.serverStatus, [("server", server)], .set status⟩]

def sessionsActive (server : String) (active : Int) : Measurement :=
  ⟨.sessionsActive, [("server", server)], .set active⟩

def sessionCreated (server : String) (active : Nat) : List Measurement :=
  [count .sessionsTotal [("server", server), ("event", "created")], sessionsActive server active]

def sessionDestroyed (server : String) (active : Nat) (lifetime : Duration) : List Measurement :=
  [count .sessionsTotal [("server", server), ("event", "destroyed")],
    ⟨.sessionDuration, [("server", server)], .lasted lifetime⟩, sessionsActive server active]

def bind (type result : String) : Measurement :=
  count .bindsTotal [("bind_type", type), ("result", result)]

def pduReceived (command : String) : Measurement :=
  count .pduReceivedTotal [("command", command)]

def pduSent (command : String) : Measurement :=
  count .pduSentTotal [("command", command)]

def pduError (kind : String) : Measurement :=
  count .pduErrorsTotal [("kind", kind)]

def stateRejection (status : String) : Measurement :=
  count .stateRejectionsTotal [("status", status)]

def duplicateResponse : Measurement :=
  count .duplicateResponsesTotal []

def processorError (kind : String) : Measurement :=
  count .processorErrorsTotal [("kind", kind)]

def windowOffer (result : String) : Measurement :=
  count .windowOffersTotal [("result", result)]

def windowTimeout (command : String) : Measurement :=
  count .windowTimeoutsTotal [("command", command)]

def windowExpired (n : Nat) : Measurement :=
  ⟨.windowExpiredTotal, [], .add n⟩

def windowUnmatched : Measurement :=
  count .windowUnmatchedTotal []

def requestDuration (command : String) (d : Duration) : Measurement :=
  ⟨.requestDuration, [("command", command)], .lasted d⟩

end Measurement

/-- All readings of one series. -/
inductive Summary where
  | total (n : Nat)
  | values (vs : List Int)
  | spread (count : Nat) (sum : Duration)
  deriving DecidableEq, Repr

namespace Summary

def ofReading : Reading → Summary
  | .add n => total n
  | .set n => values [n]
  | .lasted d => spread 1 d

/-- One more reading; one that does not belong to the series leaves it alone. -/
def extend : Summary → Reading → Summary
  | total n, .add k => total (n + k)
  | values vs, .set k => values (vs ++ [k])
  | spread n sum, .lasted d => spread (n + 1) ⟨sum.nanos + d.nanos⟩
  | s, _ => s

/-- Adds one measurement to the series seen so far. -/
def record (series : List (String × Summary)) (m : Measurement) : List (String × Summary) :=
  match series with
  | [] => [(m.series, ofReading m.reading)]
  | (name, s) :: rest =>
    if name = m.series then (name, s.extend m.reading) :: rest
    else (name, s) :: record rest m

/-- The series of a run of measurements, in the order of their first reading. -/
def ofMeasurements (ms : List Measurement) : List (String × Summary) :=
  ms.foldl record []

end Summary

end Smsc
