import I3CHost.Address

/-!
# Table layouts

Two tables lie inside the register window: the Device Address Table (DAT) and the Device
Characteristics Table (DCT). A layout says where entry 0 starts, how many words an entry has and
how many entries there are. Offsets are exact: `entryOffset?`, `span?` and `finish?` return nothing
when the number does not fit an address. `entryBytes` alone stays at the largest address, so that
an absurd width makes every later product fail unless it is multiplied by 0 or 1.
-/
namespace I3CHost

/-- Which table. -/
inductive TableKind where
  | dat
  | dct
deriving DecidableEq, Repr

/-- The short name of a table. -/
def TableKind.label : TableKind → String
  | .dat => "DAT"
  | .dct => "DCT"

/-- Where a field access is aimed: at a register, or at an entry of a table. -/
inductive Space where
  | csr
  | dat
  | dct
deriving DecidableEq, Repr

/-- The table behind a space, if it is indexed. -/
def Space.table? : Space → Option TableKind
  | .csr => none
  | .dat => some .dat
  | .dct => some .dct

/-- Place and shape of one table. -/
structure TableLayout where
  kind : TableKind
  /-- Where entry 0 starts in the window. -/
  offset : Address
  /-- Words in one entry. -/
  entryWords : UInt64
  /-- Number of entries. -/
  capacity : UInt64
deriving DecidableEq, Repr

namespace TableLayout

/-- The DAT of the standard memory map: 128 entries of 64 bits. -/
def dat : TableLayout := ⟨.dat, 0x400, 2, 128⟩

/-- The DCT of the standard memory map: 128 entries of 128 bits. -/
def dct : TableLayout := ⟨.dct, 0x800, 4, 128⟩

/-- The standard layout of each table. -/
def standard : TableKind → TableLayout
  | .dat => dat
  | .dct => dct

/-- Distance between entries. -/
def entryBytes (l : TableLayout) : Address := Address.mulSat l.entryWords Address.wordBytes

/-- Where entry `index` starts, from the start of the table. The capacity is not consulted. -/
def entryOffset? (l : TableLayout) (index : UInt64) : Option Address :=
  Address.mul? index l.entryBytes

/-- Bytes of the whole table. -/
def span? (l : TableLayout) : Option Address := Address.mul? l.capacity l.entryBytes

/-- First byte past the table, from the start of the window. -/
def finish? (l : TableLayout) : Option Address := l.span?.bind (Address.add? l.offset)

end TableLayout

end I3CHost
