import I3CHost.Bus
import I3CHost.Field

/-!
# Register views

A view of the registers from some base on, in a window of known size. A whole register costs one
access; changing a field costs one load and one store and leaves the bits outside the mask alone.
Nothing is remembered between accesses. The base, the offset and the word of a field are added
exactly: a sum that is no address is out of bounds and nothing reaches the bus. Whether the address
lies in the window is for the responder to judge.
-/
namespace I3CHost

structure Registers where
  base : Address
  /-- Size of the window, for the report of an offset that is no address. -/
  window : Address
deriving DecidableEq, Repr

namespace Registers

/-- Where the register at `offset` lies in the window. -/
def address (v : Registers) (offset : Address) : Except Fault Address :=
  match Address.add? v.base offset with
  | some a => .ok a
  | none => .error (.outOfBounds offset v.window)

/-- Where the word of a field lies, for the register or entry at `offset`. -/
def fieldAddress (v : Registers) (offset : Address) (f : Field) : Except Fault Address :=
  match Address.add? offset (f.word.toUInt64 * Address.wordBytes) with
  | some o => v.address o
  | none => .error (.outOfBounds offset v.window)

def read (v : Registers) (offset : Address) : Bus Word := do
  Bus.read (← Bus.ofExcept (v.address offset))

def write (v : Registers) (offset : Address) (value : Word) : Bus Unit := do
  Bus.write (← Bus.ofExcept (v.address offset)) value

def readField (v : Registers) (offset : Address) (f : Field) : Bus Word := do
  let a ← Bus.ofExcept (v.fieldAddress offset f)
  let value := f.get (← Bus.read a)
  Bus.emit (.fieldRead a f.mask f.low value)
  return value

/-- Load, replace the field, store. -/
def writeField (v : Registers) (offset : Address) (f : Field) (value : Word) : Bus Unit := do
  let a ← Bus.ofExcept (v.fieldAddress offset f)
  let old ← Bus.read a
  let new := f.set old value
  Bus.emit (.fieldUpdate a old new)
  Bus.write a new

/-- A field of the register at `offset`, given by its bits. -/
def readBits (v : Registers) (offset : Address) (low : UInt8) (mask : Word) : Bus Word := do
  return Field.extract (← v.read offset) low mask

def writeBits (v : Registers) (offset : Address) (low : UInt8) (mask value : Word) : Bus Unit :=
  v.writeField offset (.ofMask low mask) value

/-- The `count` registers from `offset` on, one load each. -/
def readRun (v : Registers) : Address → Nat → Bus (List Word)
  | _, 0 => pure []
  | offset, count + 1 => do
    let w ← v.read offset
    let ws ← v.readRun (offset + Address.wordBytes) count
    return w :: ws

/-- Store words to the registers from `offset` on. -/
def writeRun (v : Registers) : Address → List Word → Bus Unit
  | _, [] => pure ()
  | offset, w :: ws => do
    v.write offset w
    v.writeRun (offset + Address.wordBytes) ws

/-- Fill a vector of `n` words from the registers from `offset` on. -/
def readVector (v : Registers) (offset : Address) : (n : Nat) → Bus (Vector Word n)
  | 0 => pure #v[]
  | n + 1 => do
    let ws ← v.readVector offset n
    let w ← v.read (offset + UInt64.ofNat n * Address.wordBytes)
    return ws.push w

end Registers

end I3CHost
