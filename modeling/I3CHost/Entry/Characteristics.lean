import I3CHost.Entry.Packing

/-!
# Device Characteristics Table entries

A DCT entry has 128 bits in four words, filled by the controller when it assigns addresses. The
48-bit provisioned ID is split over the first two words: its upper 32 bits in word 0 and its lower
16 bits in word 1. Bits 48 to 63 of a given ID have no place and are dropped.
-/
namespace I3CHost

namespace DctField
/-- Upper 32 bits of the provisioned ID. -/
def pidHi : Field := .ofEntryBit 0 0xFFFFFFFF
/-- Lower 16 bits of the provisioned ID. -/
def pidLo : Field := .ofEntryBit 32 0x0000FFFF
def dcr : Field := .ofEntryBit 64 0x000000FF
def bcr : Field := .ofEntryBit 72 0x0000FF00
def dynamicAddress : Field := .ofEntryBit 96 0x000000FF
end DctField

/-- A DCT entry by its members. -/
structure DctEntry where
  pid : UInt64
  dcr : UInt8
  bcr : UInt8
  dynamicAddress : UInt8
deriving DecidableEq, Repr

namespace DctEntry

/-- Every member, or part of one, with the field that holds it. -/
def values (e : DctEntry) : List (Field × Word) :=
  [(DctField.pidHi, (e.pid >>> 16).toUInt32),
    (DctField.pidLo, (e.pid &&& 0xFFFF).toUInt32),
    (DctField.dcr, e.dcr.toUInt32),
    (DctField.bcr, e.bcr.toUInt32),
    (DctField.dynamicAddress, e.dynamicAddress.toUInt32)]

def toWords (e : DctEntry) : Vector Word 4 := Entry.pack 4 e.values

def ofWords (words : Vector Word 4) : DctEntry where
  pid := ((Entry.pick words DctField.pidHi).toUInt64 <<< 16)
    ||| (Entry.pick words DctField.pidLo).toUInt64
  dcr := (Entry.pick words DctField.dcr).toUInt8
  bcr := (Entry.pick words DctField.bcr).toUInt8
  dynamicAddress := (Entry.pick words DctField.dynamicAddress).toUInt8

end DctEntry

end I3CHost
