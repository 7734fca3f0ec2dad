import I3CHost.Entry.Packing

/-!
# Device Address Table entries

A DAT entry has 64 bits in two words. Bits are numbered through the whole entry; the masks stand
in the word they fall into. Members that are wider than their field lose their high bits when an
entry is packed.
-/
namespace I3CHost

namespace DatField
def staticAddress : Field := .ofEntryBit 0 0x0000007F
def ibiPayload : Field := .ofEntryBit 12 0x00001000
def ibiReject : Field := .ofEntryBit 13 0x00002000
def crrReject : Field := .ofEntryBit 14 0x00004000
def ts : Field := .ofEntryBit 15 0x00008000
/-- The address with its parity bit on top. -/
def dynamicAddress : Field := .ofEntryBit 16 0x00FF0000
def ringId : Field := .ofEntryBit 26 0x1C000000
def devNackRetryCnt : Field := .ofEntryBit 29 0x60000000
/-- Set for legacy I2C devices. -/
def device : Field := .ofEntryBit 31 0x80000000
def autocmdMask : Field := .ofEntryBit 32 0x000000FF
def autocmdValue : Field := .ofEntryBit 40 0x0000FF00
def autocmdMode : Field := .ofEntryBit 48 0x00070000
def autocmdHdrCode : Field := .ofEntryBit 51 0x07F80000
end DatField

/-- A DAT entry by its members. -/
structure DatEntry where
  staticAddress : UInt8
  ibiPayload : Bool
  ibiReject : Bool
  crrReject : Bool
  ts : Bool
  dynamicAddress : UInt8
  ringId : UInt8
  devNackRetryCnt : UInt8
  device : Bool
  autocmdMask : UInt8
  autocmdValue : UInt8
  autocmdMode : UInt8
  autocmdHdrCode : UInt8
deriving DecidableEq, Repr

namespace DatEntry

/-- Every member with the field that holds it. -/
def values (e : DatEntry) : List (Field × Word) :=
  [(DatField.staticAddress, e.staticAddress.toUInt32),
    (DatField.ibiPayload, e.ibiPayload.toUInt32),
    (DatField.ibiReject, e.ibiReject.toUInt32),
    (DatField.crrReject, e.crrReject.toUInt32),
    (DatField.ts, e.ts.toUInt32),
    (DatField.dynamicAddress, e.dynamicAddress.toUInt32),
    (DatField.ringId, e.ringId.toUInt32),
    (DatField.devNackRetryCnt, e.devNackRetryCnt.toUInt32),
    (DatField.device, e.device.toUInt32),
    (DatField.autocmdMask, e.autocmdMask.toUInt32),
    (DatField.autocmdValue, e.autocmdValue.toUInt32),
    (DatField.autocmdMode, e.autocmdMode.toUInt32),
    (DatField.autocmdHdrCode, e.autocmdHdrCode.toUInt32)]

def toWords (e : DatEntry) : Vector Word 2 := Entry.pack 2 e.values

def ofWords (words : Vector Word 2) : DatEntry where
  staticAddress := (Entry.pick words DatField.staticAddress).toUInt8
  ibiPayload := Entry.pick words DatField.ibiPayload != 0
  ibiReject := Entry.pick words DatField.ibiReject != 0
  crrReject := Entry.pick words DatField.crrReject != 0
  ts := Entry.pick words DatField.ts != 0
  dynamicAddress := (Entry.pick words DatField.dynamicAddress).toUInt8
  ringId := (Entry.pick words DatField.ringId).toUInt8
  devNackRetryCnt := (Entry.pick words DatField.devNackRetryCnt).toUInt8
  device := Entry.pick words DatField.device != 0
  autocmdMask := (Entry.pick words DatField.autocmdMask).toUInt8
  autocmdValue := (Entry.pick words DatField.autocmdValue).toUInt8
  autocmdMode := (Entry.pick words DatField.autocmdMode).toUInt8
  autocmdHdrCode := (Entry.pick words DatField.autocmdHdrCode).toUInt8

end DatEntry

end I3CHost
