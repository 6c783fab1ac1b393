import Smsc.Text.Utf8

/-!
# Smsc.Wire.Error — why octets are no PDU, or a PDU has no octets

* `CodecError`: the causes;
* `CodecError.message`: their wording.
-/

namespace Smsc

/-- Octets in the header of every PDU. -/
def headerLength : Nat := 16

/-- The longest PDU there is, header included. -/
def maxPduLength : Nat := 65536

/-- Why octets cannot be read as a PDU, or a PDU cannot be written. -/
inductive CodecError where
  /-- The stream under the codec failed. -/
  | io (cause : String)
  /-- The length field, or the length of the PDU to be written, is out of bounds. -/
  | invalidLength (length : Nat)
  /-- The octets end before the named part is complete. -/
  | truncated (part : String)
  /-- A field is longer than its limit, which counts the NUL at its end. -/
  | fieldTooLong (field : String) (max : Nat)
  /-- The octets of a field are no text. -/
  | utf8 (field : String) (fault : Utf8.Fault)
  /-- The optional parameters are malformed. -/
  | tlv (complaint : String)
  deriving DecidableEq, Repr

def CodecError.message : CodecError → String
  | .io cause => "I/O error: " ++ cause
  | .invalidLength length =>
    "invalid command_length " ++ toString length ++ ", must be " ++ toString headerLength ++ "-" ++
      toString maxPduLength
  | .truncated part => "PDU truncated while reading '" ++ part ++ "'"
  | .fieldTooLong field max => "field '" ++ field ++ "' exceeds " ++ toString max ++ " bytes"
  | .utf8 field fault => "field '" ++ field ++ "' is not valid UTF-8: " ++ fault.message
  | .tlv complaint => "TLV error: " ++ complaint

end Smsc
