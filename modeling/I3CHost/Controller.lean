import I3CHost.Entry.Characteristics
import I3CHost.Entry.DeviceAddress
import I3CHost.RegisterMap
import I3CHost.Table

/-!
# The controller

A controller is a register window seen as three spaces: the registers themselves, the DAT and the
DCT. It holds the layouts in use and nothing of the registers' contents. `discover` asks the
controller where its tables are and returns a controller with new layouts; the old one is what
remains if anything fails, so a half-adopted layout does not exist.
-/
namespace I3CHost

structure Controller where
  /-- Size of the window. -/
  window : Address
  dat : TableLayout
  dct : TableLayout
deriving DecidableEq, Repr

namespace Controller

/-- A window with the standard layouts. -/
def standard (window : Address) : Controller := ⟨window, .dat, .dct⟩

def layout (c : Controller) : TableKind → TableLayout
  | .dat => c.dat
  | .dct => c.dct

/-- The registers from some base on. -/
def registersFrom (c : Controller) (base : Address) : Registers := ⟨base, c.window⟩

/-- The registers of the controller. -/
def csr (c : Controller) : Registers := c.registersFrom 0

/-- A table with a layout of the caller's choice. -/
def tableWith (c : Controller) (layout : TableLayout) : Table := ⟨layout, c.window⟩

def table (c : Controller) (kind : TableKind) : Table := c.tableWith (c.layout kind)

/-- Both tables end inside the window. -/
def checkFits (c : Controller) : Except Fault Unit := do
  c.dat.checkFits c.window
  c.dct.checkFits c.window

/-- A window with the layouts of sound settings, if the tables fit it. -/
def ofSettings (window : Address) (s : Settings) : Except Fault Controller := do
  s.check
  let c : Controller := ⟨window, s.dat, s.dct⟩
  c.checkFits
  return c

/-- A field in any space; the location is an offset for registers and an index for tables. -/
def readField (c : Controller) (space : Space) (location : UInt64) (f : Field) : Bus Word :=
  match space.table? with
  | none => c.csr.readField location f
  | some kind => (c.table kind).readField location f

def writeField (c : Controller) (space : Space) (location : UInt64) (f : Field) (value : Word) :
    Bus Unit :=
  match space.table? with
  | none => c.csr.writeField location f value
  | some kind => (c.table kind).writeField location f value

def readDatEntry (c : Controller) (index : UInt64) : Bus DatEntry := do
  return .ofWords (← (c.table .dat).readWords index 2)

def writeDatEntry (c : Controller) (index : UInt64) (e : DatEntry) : Bus Unit :=
  (c.table .dat).writeEntry index e.toWords.toList

def readDctEntry (c : Controller) (index : UInt64) : Bus DctEntry := do
  return .ofWords (← (c.table .dct).readWords index 4)

def writeDctEntry (c : Controller) (index : UInt64) (e : DctEntry) : Bus Unit :=
  (c.table .dct).writeEntry index e.toWords.toList

/-- A layout under what a section register says: an offset or size of 0 keeps the present one, and
the advertised entry size is never adopted. -/
def advertised (l : TableLayout) (raw : Word) : TableLayout :=
  let offset := (SectionOffset.tableOffset.get raw).toUInt64
  let capacity := (SectionOffset.tableSize.get raw).toUInt64
  { l with
    offset := if offset == 0 then l.offset else offset
    capacity := if capacity == 0 then l.capacity else capacity }

/-- Load one section register and apply it to a layout. -/
def readSection (c : Controller) (register : Address) (l : TableLayout) : Bus TableLayout := do
  let raw ← c.csr.read register
  let entrySize := SectionOffset.entrySize.get raw
  if entrySize != 0 then
    Bus.emit (.entrySizeIgnored l.kind entrySize l.entryWords)
  return advertised l raw

/-- The controller with the layouts it advertises, provided both tables fit. -/
def discover (c : Controller) : Bus Controller := do
  let dat ← c.readSection Register.datSectionOffset c.dat
  let dct ← c.readSection Register.dctSectionOffset c.dct
  let found : Controller := { c with dat, dct }
  Bus.ofExcept found.checkFits
  Bus.emit (.discovered dat dct)
  return found

end Controller

end I3CHost
