import Smsc.Wire.Error

/-!
# Smsc.Wire.Text — readers, writers and text fields

A body is read from the front of a list of octets and written at the end of a buffer.

* `Reader`: takes octets from the front, or says why it cannot;
* `Writer`: appends to a buffer; a failure leaves in the buffer what was written before it;
* `TextField`: a text that a NUL ends, with the limit on its octets.
-/

namespace Smsc

/-- Takes octets from the front of a list and returns the rest. -/
abbrev Reader := StateT (List UInt8) (Except CodecError)

/-- Appends octets to a buffer. After a failure the buffer holds what was written before it. -/
abbrev Writer := ExceptT CodecError (StateM (List UInt8))

namespace Reader

/-- One octet of the named part. -/
def octet (part : String) : Reader UInt8 := fun octets =>
  match octets with
  | [] => .error (.truncated part)
  | b :: rest => .ok (b, rest)

/-- Everything that is left. -/
def rest : Reader (List UInt8) := fun octets => .ok (octets, [])

end Reader

namespace Writer

/-- Appends octets. -/
def octets (bs : List UInt8) : Writer Unit := modify (· ++ bs)

/-- Appends one octet. -/
def octet (b : UInt8) : Writer Unit := octets [b]

end Writer

/-- A text field: its name, and the most octets it may take with the NUL that ends it. -/
structure TextField where
  name : String
  limit : Nat
  deriving DecidableEq, Repr

namespace TextField

def systemId : TextField := ⟨"system_id", 16⟩
def password : TextField := ⟨"password", 9⟩
def systemType : TextField := ⟨"system_type", 13⟩
def addressRange : TextField := ⟨"address_range", 41⟩
def serviceType : TextField := ⟨"service_type", 6⟩
def sourceAddress : TextField := ⟨"source_addr", 21⟩
def destinationAddress : TextField := ⟨"destination_addr", 21⟩
def scheduleDeliveryTime : TextField := ⟨"schedule_delivery_time", 17⟩
def validityPeriod : TextField := ⟨"validity_period", 17⟩
def messageId : TextField := ⟨"message_id", 65⟩

/-- Does a text fit into the field? -/
def Fits (field : TextField) (s : String) : Prop :=
  (Utf8.encode s).length + 1 ≤ field.limit

instance (field : TextField) (s : String) : Decidable (field.Fits s) :=
  inferInstanceAs (Decidable (_ ≤ _))

/-- Reads up to the first NUL and drops it. The length is judged before the text. -/
def read (field : TextField) : Reader String := fun octets =>
  match octets.dropWhile (· != 0) with
  | [] => .error (.truncated field.name)
  | _ :: rest =>
    let raw := octets.takeWhile (· != 0)
    if field.limit < raw.length + 1 then .error (.fieldTooLong field.name field.limit)
    else
      match Utf8.decode raw with
      | .error fault => .error (.utf8 field.name fault)
      | .ok s => .ok (s, rest)

/-- Writes a text and the NUL that ends it. -/
def write (field : TextField) (s : String) : Writer Unit := do
  if field.Fits s then
    Writer.octets (Utf8.encode s)
    Writer.octet 0
  else throw (.fieldTooLong field.name field.limit)

end TextField

end Smsc
