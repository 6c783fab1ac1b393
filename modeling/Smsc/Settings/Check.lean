import Smsc.Settings.Basic

/-!
# Smsc.Settings.Check — which settings a server can run with

* `SettingsError`: what may be wrong, and `SettingsError.message`;
* `Settings.check`: the first fault, in the order in which the settings are written down.
-/

namespace Smsc

/-- The most octets of a system id that a bind response can carry. -/
def systemIdLimit : Nat := 15

/-- A time that has to be longer than zero. -/
inductive TimeSetting where
  | disconnect
  | offer
  | expire
  | unbind
  deriving DecidableEq, Repr

def TimeSetting.name : TimeSetting → String
  | disconnect => "server.disconnect_timeout"
  | offer => "session.offer_timeout"
  | expire => "session.expire_timeout"
  | unbind => "session.unbind_timeout"

/-- What may be wrong with settings. -/
inductive SettingsError where
  /-- The text does not say what the settings are. -/
  | malformed
  | noName
  | noSystemId
  | longSystemId (systemId : String)
  | noWindow
  | noTime (setting : TimeSetting)
  deriving DecidableEq, Repr

def SettingsError.message : SettingsError → String
  | malformed => "failed to parse YAML configuration"
  | noName => "server.name must not be empty"
  | noSystemId => "server.system_id must not be empty"
  | longSystemId systemId =>
    "server.system_id '" ++ systemId ++ "' exceeds " ++ toString systemIdLimit ++ " characters"
  | noWindow => "session.window_size must be at least 1"
  | noTime setting => setting.name ++ " must be greater than zero"

namespace Settings

/-- A time that is set. -/
def time (s : Settings) : TimeSetting → Duration
  | .disconnect => s.server.disconnectTimeout
  | .offer => s.session.offerTimeout
  | .expire => s.session.expireTimeout
  | .unbind => s.session.unbindTimeout

/-- The first fault, if there is one. The system id is measured in octets. -/
def check (s : Settings) : Except SettingsError Unit := do
  if s.server.name = "" then throw .noName
  if s.server.systemId = "" then throw .noSystemId
  if systemIdLimit < s.server.systemId.utf8ByteSize then throw (.longSystemId s.server.systemId)
  if s.session.windowSize = 0 then throw .noWindow
  for setting in [TimeSetting.disconnect, .offer, .expire, .unbind] do
    if (s.time setting).nanos = 0 then throw (.noTime setting)

end Settings

end Smsc
