import Smsc.Wire.Octets
import Smsc.Wire.Text
import Smsc.Text.Numeral

/-!
# Smsc.Pdu.Tlv — optional parameters

A body may end in parameters, each a tag, a length and a value.

* `TlvMap`: the parameters in wire order; reading keeps a tag that comes twice,
  `TlvMap.insert` replaces the first one of its tag;
* `TlvMap.read`: every octet up to the end of the body;
* `TlvMap.write`: the parameters one after the other.
-/

namespace Smsc

/-- One optional parameter. -/
structure Tlv where
  tag : UInt16
  value : List UInt8
  deriving DecidableEq, Repr

namespace Tlv

/-- Tag of the interface version that a bind response names. -/
def interfaceVersionTag : UInt16 := 0x0210

/-- Interface version 3.4. -/
def version34 : UInt8 := 0x34

/-- The parameter by which a bind response names version 3.4. -/
def interfaceVersion34 : Tlv := ⟨interfaceVersionTag, [version34]⟩

/-- A tag as messages show it. -/
def tagText (tag : UInt16) : String := Numeral.tagged 4 tag.toNat

/-- Writes one parameter; its length must fit into two octets. -/
def write (t : Tlv) : Writer Unit := do
  if t.value.length ≤ 65535 then
    Writer.octets (Octets.ofUInt16 t.tag)
    Writer.octets (Octets.ofUInt16 (.ofNat t.value.length))
    Writer.octets t.value
  else throw (.tlv ("value of tag " ++ tagText t.tag ++ " exceeds 65535 bytes"))

end Tlv

/-- The optional parameters of a body, in wire order. -/
structure TlvMap where
  entries : List Tlv
  deriving DecidableEq, Repr, Inhabited

namespace TlvMap

def empty : TlvMap := ⟨[]⟩

instance : EmptyCollection TlvMap := ⟨empty⟩

/-- Puts `t` in the place of the first entry of its tag, or at the end. -/
def insertInto (t : Tlv) : List Tlv → List Tlv
  | [] => [t]
  | e :: es => if e.tag = t.tag then t :: es else e :: insertInto t es

/-- Replaces the first parameter of the same tag, or appends. -/
def insert (m : TlvMap) (t : Tlv) : TlvMap := ⟨insertInto t m.entries⟩

/-- The first parameter with the tag. -/
def get? (m : TlvMap) (tag : UInt16) : Option Tlv := m.entries.find? (·.tag = tag)

def size (m : TlvMap) : Nat := m.entries.length

def isEmpty (m : TlvMap) : Bool := m.entries.isEmpty

def ofList (ts : List Tlv) : TlvMap := ts.foldl insert empty

/-- Reads parameters up to the end of the octets. -/
def parse : List UInt8 → Except CodecError (List Tlv)
  | [] => .ok []
  | t₁ :: t₂ :: l₁ :: l₂ :: rest =>
    let tag := Octets.toUInt16 t₁ t₂
    let length := (Octets.toUInt16 l₁ l₂).toNat
    let value := rest.take length
    if value.length < length then
      .error (.tlv ("TLV " ++ Tlv.tagText tag ++ " declares " ++ toString length ++ " bytes, " ++
        toString rest.length ++ " available"))
    else
      (⟨tag, value⟩ :: ·) <$> parse (rest.drop length)
  | _ :: _ => .error (.tlv "truncated TLV header")
termination_by octets => octets.length
decreasing_by simp; omega

/-- Takes the rest of a body as parameters. -/
def read : Reader TlvMap := do
  let octets ← Reader.rest
  let entries ← (parse octets : Except CodecError (List Tlv))
  return ⟨entries⟩

/-- Writes the parameters one after the other. -/
def write (m : TlvMap) : Writer Unit :=
  m.entries.forM Tlv.write

end TlvMap

end Smsc
