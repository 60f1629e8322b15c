import Annealing.Number.Power

/-!
# Packed — checksums

A checksum is the remainder of the octets, read as a polynomial over two elements, modulo a fixed
one.  Octets go in from the lowest bit on, except in `blockSum`, where they go in from the highest
bit on.

* `Checksum.crc32` and `Checksum.crc64` are checksums of 32 and 64 bits.
* `Checksum.blockSum` is the checksum of 32 bits in which the order of the bits is turned around.
-/

namespace Annealing.Checksum

/-- Eight times a step. -/
def eightTimes {α : Type} (step : α → α) (x : α) : α :=
  step (step (step (step (step (step (step (step x)))))))

/-- One bit of a checksum of 32 bits. -/
def step32 (crc : UInt32) : UInt32 :=
  if crc &&& 1 = 1 then (crc >>> 1) ^^^ 0xEDB88320 else crc >>> 1

/-- One bit of a checksum of 64 bits. -/
def step64 (crc : UInt64) : UInt64 :=
  if crc &&& 1 = 1 then (crc >>> 1) ^^^ 0xC96C5795D7870F42 else crc >>> 1

/-- One bit of a checksum of 32 bits from the highest bit on. -/
def stepBlock (crc : UInt32) : UInt32 :=
  if crc &&& 0x80000000 = 0x80000000 then (crc <<< 1) ^^^ 0x04C11DB7 else crc <<< 1

/-- One octet of a checksum of 32 bits. -/
def octet32 (crc : UInt32) (o : UInt8) : UInt32 :=
  eightTimes step32 (crc ^^^ o.toUInt32)

/-- One octet of a checksum of 64 bits. -/
def octet64 (crc : UInt64) (o : UInt8) : UInt64 :=
  eightTimes step64 (crc ^^^ o.toUInt64)

/-- One octet of a checksum from the highest bit on. -/
def octetBlock (crc : UInt32) (o : UInt8) : UInt32 :=
  eightTimes stepBlock (crc ^^^ (o.toUInt32 <<< 24))

/-- The checksum of 32 bits. -/
def crc32 (octets : List UInt8) : UInt32 :=
  octets.foldl octet32 0xFFFFFFFF ^^^ 0xFFFFFFFF

/-- The checksum of 64 bits. -/
def crc64 (octets : List UInt8) : UInt64 :=
  octets.foldl octet64 0xFFFFFFFFFFFFFFFF ^^^ 0xFFFFFFFFFFFFFFFF

/-- The checksum of 32 bits from the highest bit on. -/
def blockSum (octets : List UInt8) : UInt32 :=
  octets.foldl octetBlock 0xFFFFFFFF ^^^ 0xFFFFFFFF

end Annealing.Checksum
