import Smsc.Text.Numeral

/-!
# Smsc.Pdu.Status — command status codes

* `Status`: the outcomes with a name, and `other` for every raw value;
* `Status.ofCode`, `Status.code`: from and to the four octets of the header.
-/

namespace Smsc

/-- The outcome that a response reports; `ok` in requests. -/
inductive Status where
  | ok
  | invalidMessageLength
  | invalidCommandLength
  | invalidCommandId
  | invalidBindStatus
  | alreadyBound
  | systemError
  | bindFailed
  | invalidPassword
  | invalidSystemId
  | messageQueueFull
  | throttled
  /-- A status without a name. -/
  | other (code : UInt32)
  deriving DecidableEq, Repr, Inhabited

namespace Status

/-- The status with a given code. -/
def ofCode (code : UInt32) : Status :=
  match code.toNat with
  | 0x00 => ok
  | 0x01 => invalidMessageLength
  | 0x02 => invalidCommandLength
  | 0x03 => invalidCommandId
  | 0x04 => invalidBindStatus
  | 0x05 => alreadyBound
  | 0x08 => systemError
  | 0x0D => bindFailed
  | 0x0E => invalidPassword
  | 0x0F => invalidSystemId
  | 0x14 => messageQueueFull
  | 0x58 => throttled
  | _ => other code

/-- The code of a status. -/
def code : Status → UInt32
  | ok => 0x00
  | invalidMessageLength => 0x01
  | invalidCommandLength => 0x02
  | invalidCommandId => 0x03
  | invalidBindStatus => 0x04
  | alreadyBound => 0x05
  | systemError => 0x08
  | bindFailed => 0x0D
  | invalidPassword => 0x0E
  | invalidSystemId => 0x0F
  | messageQueueFull => 0x14
  | throttled => 0x58
  | other code => code

def isOk : Status → Bool
  | ok => true
  | _ => false

/-- Is the status one with a name? -/
def isKnown : Status → Bool
  | other _ => false
  | _ => true

/-- The name used in messages and measurements; a raw code is shown in hexadecimal. -/
def name : Status → String
  | ok => "ESME_ROK"
  | invalidMessageLength => "ESME_RINVMSGLEN"
  | invalidCommandLength => "ESME_RINVCMDLEN"
  | invalidCommandId => "ESME_RINVCMDID"
  | invalidBindStatus => "ESME_RINVBNDSTS"
  | alreadyBound => "ESME_RALYBND"
  | systemError => "ESME_RSYSERR"
  | bindFailed => "ESME_RBINDFAIL"
  | invalidPassword => "ESME_RINVPASWD"
  | invalidSystemId => "ESME_RINVSYSID"
  | messageQueueFull => "ESME_RMSGQFUL"
  | throttled => "ESME_RTHROTTLED"
  | other code => Numeral.tagged 8 code.toNat

/-- A status is canonical if its code is read back as the status itself. -/
def Canonical (s : Status) : Prop := ofCode s.code = s

instance (s : Status) : Decidable s.Canonical := inferInstanceAs (Decidable (_ = _))

theorem code_ofCode (code : UInt32) : (ofCode code).code = code := by
  unfold ofCode
  split <;> first
    | rfl
    | (rename_i h; exact UInt32.toNat_inj.1 h.symm)

theorem canonical_ofCode (code : UInt32) : (ofCode code).Canonical := by
  simp [Canonical, code_ofCode]

end Status

end Smsc
