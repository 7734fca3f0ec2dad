import I3CHost.Smoke

/-!
# Accesses

The requests a controller answers, as data, each with the program that answers it. A request names
the view it goes through: the registers from some base, a table under the controller's own layout or
under one of the caller's, or one of the three spaces. `discover` is not among them because it
changes the controller.
-/
namespace I3CHost

/-- What a request is answered with. -/
inductive Answer where
  | nothing
  | word (w : Word)
  | perhapsWord (w : Option Word)
  | words (ws : List Word)
  | number (n : UInt64)
  | layout (l : TableLayout)
  | layouts (dat dct : TableLayout)
  | dat (e : DatEntry)
  | dct (e : DctEntry)
  | report (r : Report)
  | cells (cs : List (Address × Word))
  | bytes (bs : List UInt8)
  /-- Backend, window size, and the path and base of a mapping. -/
  | target (backend : String) (size : Address) (place : Option (String × Address))
deriving Repr

inductive Access where
  | base (v : Registers)
  | read (v : Registers) (offset : Address)
  | write (v : Registers) (offset : Address) (value : Word)
  | readField (v : Registers) (offset : Address) (f : Field)
  | writeField (v : Registers) (offset : Address) (f : Field) (value : Word)
  | readBits (v : Registers) (offset : Address) (low : UInt8) (mask : Word)
  | writeBits (v : Registers) (offset : Address) (low : UInt8) (mask value : Word)
  | layout (t : Table)
  | entryOffset (t : Table) (index : UInt64)
  | readEntry (t : Table) (index : UInt64) (count : Nat)
  | readWords (t : Table) (index : UInt64) (count : Nat)
  | writeEntry (t : Table) (index : UInt64) (words : List Word)
  | readEntryField (t : Table) (index : UInt64) (f : Field)
  | writeEntryField (t : Table) (index : UInt64) (f : Field) (value : Word)
  | readEntryBits (t : Table) (index : UInt64) (low : UInt8) (mask : Word)
  | writeEntryBits (t : Table) (index : UInt64) (low : UInt8) (mask value : Word)
  | readPair (t : Table) (index pair : UInt64)
  | writePair (t : Table) (index pair value : UInt64)
  | readSpace (c : Controller) (space : Space) (location : UInt64) (f : Field)
  | writeSpace (c : Controller) (space : Space) (location : UInt64) (f : Field) (value : Word)
  | readDatEntry (c : Controller) (index : UInt64)
  | writeDatEntry (c : Controller) (index : UInt64) (e : DatEntry)
  | readDctEntry (c : Controller) (index : UInt64)
  | writeDctEntry (c : Controller) (index : UInt64) (e : DctEntry)
  | load (offset : Address)
  | store (offset : Address) (value : Word)
  | smoke (c : Controller) (l : InterruptLog)

namespace Access

/-- A program whose value is not wanted. -/
def quietly (p : Bus Unit) : Bus Answer := do
  p
  return .nothing

/-- The program that answers a request. -/
def program : Access → Bus Answer
  | base v => pure (.number v.base)
  | read v offset => .word <$> v.read offset
  | write v offset value => quietly (v.write offset value)
  | readField v offset f => .word <$> v.readField offset f
  | writeField v offset f value => quietly (v.writeField offset f value)
  | readBits v offset low mask => .word <$> v.readBits offset low mask
  | writeBits v offset low mask value => quietly (v.writeBits offset low mask value)
  | layout t => pure (.layout t.layout)
  | entryOffset t index => .number <$> Bus.ofExcept (t.entryOffset index)
  | readEntry t index count => .words <$> t.readEntry index count
  | readWords t index count => (fun ws => .words ws.toList) <$> t.readWords index count
  | writeEntry t index words => quietly (t.writeEntry index words)
  | readEntryField t index f => .word <$> t.readField index f
  | writeEntryField t index f value => quietly (t.writeField index f value)
  | readEntryBits t index low mask => .word <$> t.readBits index low mask
  | writeEntryBits t index low mask value => quietly (t.writeBits index low mask value)
  | readPair t index pair => .number <$> t.readPair index pair
  | writePair t index pair value => quietly (t.writePair index pair value)
  | readSpace c space location f => .word <$> c.readField space location f
  | writeSpace c space location f value => quietly (c.writeField space location f value)
  | readDatEntry c index => .dat <$> c.readDatEntry index
  | writeDatEntry c index e => quietly (c.writeDatEntry index e)
  | readDctEntry c index => .dct <$> c.readDctEntry index
  | writeDctEntry c index e => quietly (c.writeDctEntry index e)
  | load offset => .word <$> Bus.read offset
  | store offset value => quietly (Bus.write offset value)
  | smoke c l => .report <$> Smoke.run c l

end Access

end I3CHost
