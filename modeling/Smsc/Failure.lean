import Smsc.Net.Address
import Smsc.Time
import Smsc.Wire.Error

/-!
# Smsc.Failure — what operations on windows, sessions and servers fail with

* `WindowError`, `ChannelError`, `SessionError`, `ProcessorError`, `ManagementError`: the causes;
* `….message`: their wording; an outer error quotes the inner one.
-/

namespace Smsc

/-- Why a window did not take a request, or gave no response to one. -/
inductive WindowError where
  /-- No capacity became free in time. -/
  | offerTimeout (after : Duration)
  /-- The number is in use by a pending request. -/
  | duplicateKey (key : UInt32)
  /-- The waiter gave up. -/
  | timeout (key : UInt32)
  /-- The entry was removed without a response. -/
  | expired (key : UInt32)
  /-- The window takes no more requests. -/
  | closed
  deriving DecidableEq, Repr

def WindowError.message : WindowError → String
  | .offerTimeout after => "no window slot became free within " ++ after.text
  | .duplicateKey key => "sequence " ++ toString key.toNat ++ " is already pending"
  | .timeout key => "no response for sequence " ++ toString key.toNat ++ " before the waiter gave up"
  | .expired key => "entry for sequence " ++ toString key.toNat ++ " expired or was cancelled"
  | .closed => "window closed"

/-- Why something did not go out on a connection. -/
inductive ChannelError where
  | bind (address : SocketAddress) (cause : String)
  | io (cause : String)
  | encode (cause : CodecError)
  | disconnectTimeout (after : Duration)
  | closed
  deriving DecidableEq, Repr

def ChannelError.message : ChannelError → String
  | .bind address cause => "failed to bind " ++ address.text ++ ": " ++ cause
  | .io cause => "I/O error: " ++ cause
  | .encode cause => "encode error: " ++ cause.message
  | .disconnectTimeout after => "disconnect did not complete within " ++ after.text
  | .closed => "channel closed"

/-- Why an operation on a session or a server failed. -/
inductive SessionError where
  | illegalState (reason : String)
  | illegalArgument (reason : String)
  /-- No response in time. -/
  | timeout (sequence : UInt32) (after : Duration)
  | channel (cause : ChannelError)
  | window (cause : WindowError)
  deriving DecidableEq, Repr

namespace SessionError

/-- The state error of every operation that needs a bound session. -/
def notBound : SessionError := illegalState "session is not bound"

def message : SessionError → String
  | illegalState reason => "illegal state: " ++ reason
  | illegalArgument reason => "illegal argument: " ++ reason
  | timeout sequence after =>
    "no response for sequence " ++ toString sequence.toNat ++ " within " ++ after.text
  | channel cause => "channel error: " ++ cause.message
  | window cause => "window error: " ++ cause.message

/-- Is this the outcome that a silent client leads to? -/
def isTimeout : SessionError → Bool
  | timeout .. => true
  | _ => false

end SessionError

/-- Why a processor did not handle a request. -/
inductive ProcessorError where
  | rejected (reason : String)
  | other (cause : String)
  deriving DecidableEq, Repr

def ProcessorError.message : ProcessorError → String
  | .rejected reason => "packet rejected: " ++ reason
  | .other cause => cause

/-- Why a management operation failed. -/
inductive ManagementError where
  | alreadyRegistered (name : String)
  | notRegistered (name : String)
  | unknownOperation (operation : String)
  /-- The managed object is gone. -/
  | released
  | failed (cause : String)
  deriving DecidableEq, Repr

def ManagementError.message : ManagementError → String
  | .alreadyRegistered name => "'" ++ name ++ "' is already registered"
  | .notRegistered name => "'" ++ name ++ "' is not registered"
  | .unknownOperation operation => "unknown operation '" ++ operation ++ "'"
  | .released => "managed object no longer exists"
  | .failed cause => "operation failed: " ++ cause

end Smsc
