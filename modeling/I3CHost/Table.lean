import I3CHost.Registers

/-!
# Table views

A view of one table in a window. The layout says how many entries there are and how wide they are,
so an index, a word count, a field's word or a pair is judged before anything reaches the bus. An
entry is read and written as single words in ascending order; the bus has no wider access.
-/
namespace I3CHost

structure Table where
  layout : TableLayout
  /-- Size of the window. -/
  window : Address
deriving DecidableEq, Repr

namespace Table

/-- The registers from entry 0 on. -/
def registers (t : Table) : Registers := ⟨t.layout.offset, t.window⟩

/-- Where entry `index` starts, from the start of the table. The end of the entry has to be an
address as well, so that every word of it is. -/
def entryOffset (t : Table) (index : UInt64) : Except Fault Address :=
  let fault := Fault.indexOutOfRange t.layout.kind index t.layout.capacity
  if t.layout.capacity ≤ index then .error fault
  else
    match t.layout.entryOffset? (index + 1), t.layout.entryOffset? index with
    | some _, some offset => .ok offset
    | _, _ => .error fault

def checkWords (t : Table) (count : Nat) : Except Fault Unit :=
  if t.layout.entryWords.toNat < count then
    .error (.entryTooLong t.layout.kind count t.layout.entryWords)
  else .ok ()

def checkField (t : Table) (f : Field) : Except Fault Unit :=
  if t.layout.entryWords ≤ f.word.toUInt64 then
    .error (.wordOutOfRange t.layout.kind f.word.toUInt64 t.layout.entryWords)
  else .ok ()

/-- The first word of a pair of words. -/
def pairWord (t : Table) (pair : UInt64) : Except Fault UInt64 :=
  if t.layout.entryWords / 2 ≤ pair then
    .error (.wordOutOfRange t.layout.kind (Address.mulSat pair 2) t.layout.entryWords)
  else Address.times pair 2

/-- Where a word of the entry at `start` lies, from the start of the table. Pairs are not kept
inside an entry whose width in bytes is no address, so the product may not be one either. -/
def wordOffset (start : Address) (word : UInt64) : Except Fault Address := do
  let distance ← Address.times word Address.wordBytes
  Address.plus start distance

/-- The offset of word `k` of an entry, from the start of the table. -/
def wordFrom (start : Address) (k : Nat) : Address := start + UInt64.ofNat k * Address.wordBytes

/-- Store words to an entry from its first word on. Words of the entry past the last one given
stay. -/
def writeEntry (t : Table) (index : UInt64) (words : List Word) : Bus Unit := do
  let start ← Bus.ofExcept (t.entryOffset index)
  Bus.ofExcept (t.checkWords words.length)
  Bus.emit (.entryWrite t.layout.kind index words)
  t.registers.writeRun start words

/-- The first `count` words of an entry. -/
def readEntry (t : Table) (index : UInt64) (count : Nat) : Bus (List Word) := do
  let start ← Bus.ofExcept (t.entryOffset index)
  Bus.ofExcept (t.checkWords count)
  t.registers.readRun start count

/-- The first `n` words of an entry, as a vector. -/
def readWords (t : Table) (index : UInt64) (n : Nat) : Bus (Vector Word n) := do
  let start ← Bus.ofExcept (t.entryOffset index)
  Bus.ofExcept (t.checkWords n)
  t.registers.readVector start n

def readField (t : Table) (index : UInt64) (f : Field) : Bus Word := do
  let start ← Bus.ofExcept (t.entryOffset index)
  Bus.ofExcept (t.checkField f)
  t.registers.readField start f

def writeField (t : Table) (index : UInt64) (f : Field) (value : Word) : Bus Unit := do
  let start ← Bus.ofExcept (t.entryOffset index)
  Bus.ofExcept (t.checkField f)
  t.registers.writeField start f value

/-- A field of word 0, given by its bits. -/
def readBits (t : Table) (index : UInt64) (low : UInt8) (mask : Word) : Bus Word :=
  t.readField index (.ofMask low mask)

def writeBits (t : Table) (index : UInt64) (low : UInt8) (mask value : Word) : Bus Unit :=
  t.writeField index (.ofMask low mask) value

/-- Store 64 bits to a pair of words, low half first. -/
def writePair (t : Table) (index pair value : UInt64) : Bus Unit := do
  let first ← Bus.ofExcept (t.pairWord pair)
  let start ← Bus.ofExcept (t.entryOffset index)
  let lowAt ← Bus.ofExcept (wordOffset start first)
  t.registers.write lowAt value.toUInt32
  let second ← Bus.ofExcept (Address.plus first 1)
  let highAt ← Bus.ofExcept (wordOffset start second)
  t.registers.write highAt (value >>> 32).toUInt32

/-- The 64 bits in a pair of words, low half first. -/
def readPair (t : Table) (index pair : UInt64) : Bus UInt64 := do
  let first ← Bus.ofExcept (t.pairWord pair)
  let start ← Bus.ofExcept (t.entryOffset index)
  let lowAt ← Bus.ofExcept (wordOffset start first)
  let low ← t.registers.read lowAt
  let second ← Bus.ofExcept (Address.plus first 1)
  let highAt ← Bus.ofExcept (wordOffset start second)
  let high ← t.registers.read highAt
  return (high.toUInt64 <<< 32) ||| low.toUInt64

end Table

end I3CHost
