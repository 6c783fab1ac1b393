/-!
# Smsc.Wire.Octets — whole numbers on the wire

Numbers of more than one octet travel with the most significant octet first.

* `ofUInt16`, `ofUInt32`: the octets of a number;
* `toUInt16`, `toUInt32`: the number of two or four octets.
-/

namespace Smsc.Octets

/-- The two octets of a number. -/
def ofUInt16 (n : UInt16) : List UInt8 :=
  [.ofNat (n.toNat / 256), .ofNat (n.toNat % 256)]

/-- The four octets of a number. -/
def ofUInt32 (n : UInt32) : List UInt8 :=
  [.ofNat (n.toNat / 16777216), .ofNat (n.toNat / 65536 % 256), .ofNat (n.toNat / 256 % 256),
    .ofNat (n.toNat % 256)]

/-- The number that two octets spell. -/
def toUInt16 (a b : UInt8) : UInt16 :=
  .ofNat (a.toNat * 256 + b.toNat)

/-- The number that four octets spell. -/
def toUInt32 (a b c d : UInt8) : UInt32 :=
  .ofNat (a.toNat * 16777216 + b.toNat * 65536 + c.toNat * 256 + d.toNat)

theorem toUInt16_ofUInt16 (n : UInt16) :
    toUInt16 (.ofNat (n.toNat / 256)) (.ofNat (n.toNat % 256)) = n := by
  apply UInt16.toNat_inj.1
  have := n.toNat_lt
  simp [toUInt16, UInt16.toNat_ofNat]
  omega

theorem toUInt32_ofUInt32 (n : UInt32) :
    toUInt32 (.ofNat (n.toNat / 16777216)) (.ofNat (n.toNat / 65536 % 256))
      (.ofNat (n.toNat / 256 % 256)) (.ofNat (n.toNat % 256)) = n := by
  apply UInt32.toNat_inj.1
  have := n.toNat_lt
  simp [toUInt32, UInt32.toNat_ofNat]
  omega

end Smsc.Octets
