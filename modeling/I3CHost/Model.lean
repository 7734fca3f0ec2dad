import I3CHost.Bus
import I3CHost.RegisterMap

/-!
# The software model

A register window in memory. Every word carries its reset value and the mask of the bits that
software may write; a store leaves the other bits as they are, as the hardware does. Completed
loads and stores are counted, modulo 2^64. Side effects of registers are not modelled: no
clear-on-write, no queues, no soft reset.

`peek`, `poke` and `withRegister` go behind the bus: they are not counted, they know no misaligned
offset (any offset means the word around it), and an offset past the end means nothing.
-/
namespace I3CHost

/-- One word of a model. -/
structure Cell where
  value : Word
  reset : Word
  writable : Word
deriving DecidableEq, Repr

namespace Cell

/-- A store from the bus. -/
def store (c : Cell) (value : Word) : Cell := { c with value := c.value.merge value c.writable }

/-- Back to the reset value. -/
def restore (c : Cell) : Cell := { c with value := c.reset }

end Cell

structure Model where
  cells : Array Cell
  reads : UInt64
  writes : UInt64
deriving DecidableEq, Repr

namespace Model

/-- An array has fewer bytes than this. -/
def arrayLimit : Nat := 0x8000000000000000

/-- The number of the word around an offset. -/
def index (offset : Address) : Nat := (offset / Address.wordBytes).toNat

/-- Whether an array can have as many words as a window of some size. -/
def roomFor (size : Address) : Except Fault Unit :=
  if size.toNat < arrayLimit then .ok () else .error (.panic .capacityOverflow)

/-- A cleared window whose every bit is writable. Bytes that make no whole word are dropped. -/
def blank (size : Address) : Model :=
  ⟨Array.replicate (index size) ⟨0, 0, Word.ones⟩, 0, 0⟩

def size (m : Model) : Address := UInt64.ofNat (4 * m.cells.size)

/-- Give the word around `offset` a reset value, also as its present value, and a mask. -/
def withRegister (m : Model) (offset : Address) (reset writable : Word) : Model :=
  { m with cells := m.cells.setIfInBounds (index offset) ⟨reset, reset, writable⟩ }

/-- Every word back to its reset value; the counters stay. -/
def reset (m : Model) : Model := { m with cells := m.cells.map Cell.restore }

def peek (m : Model) (offset : Address) : Option Word := m.cells[index offset]?.map Cell.value

/-- Put a value in place whatever the mask says. -/
def poke (m : Model) (offset : Address) (value : Word) : Model :=
  { m with cells := m.cells.modify (index offset) fun c => { c with value } }

def resetStats (m : Model) : Model := { m with reads := 0, writes := 0 }

/-- Every word that is not zero, with its offset, ascending. -/
def nonzero (m : Model) : List (Address × Word) :=
  (m.cells.toList.zipIdx.filter fun p => p.1.value != 0).map fun p =>
    (UInt64.ofNat (4 * p.2), p.1.value)

/-! ## The controller out of reset -/

/-- The bits software may write in `HC_CONTROL`. -/
def hcControlWritable : Word := HcControl.all.foldl (fun acc f => acc ||| f.mask) 0

/-- The registers that do not come up as zero with every bit writable: offset, reset value, mask. -/
def controllerRegisters : List (Address × Word × Word) :=
  [(Register.hciVersion, ResetValue.hciVersion, 0),
    (Register.hcControl, ResetValue.hcControl, hcControlWritable),
    (Register.controllerDeviceAddr, 0,
      ControllerDeviceAddr.dynamicAddr.mask ||| ControllerDeviceAddr.dynamicAddrValid.mask),
    (Register.hcCapabilities, 0, 0),
    (Register.resetControl, 0, Register.resetControlWritable),
    (Register.presentState, 0, 0),
    (Register.datSectionOffset, ResetValue.datSectionOffset, 0),
    (Register.dctSectionOffset, ResetValue.dctSectionOffset, SectionOffset.tableIndex.mask),
    (Register.intCtrlCmdsEn, ResetValue.intCtrlCmdsEn, 0),
    (Register.queueThldCtrl, ResetValue.queueThldCtrl, Word.ones),
    (Register.dataBufferThldCtrl, ResetValue.dataBufferThldCtrl, Word.ones),
    (Register.queueSize, ResetValue.queueSize, 0),
    (Register.pioControl, 0, Register.pioControlWritable)]

/-- Put several registers in place, in order. -/
def withRegisters (m : Model) (registers : List (Address × Word × Word)) : Model :=
  registers.foldl (fun m r => m.withRegister r.1 r.2.1 r.2.2) m

/-- The controller out of reset. Registers past the end of a small window are left out. -/
def controller (size : Address) : Model := (blank size).withRegisters controllerRegisters

/-! ## On the bus -/

def load (m : Model) (offset : Address) : Reply Model Word :=
  match checkAccess offset m.size, m.cells[index offset]? with
  | .ok _, some c =>
    ⟨.ok c.value, { m with reads := m.reads + 1 }, [.wordRead offset c.value]⟩
  | .error e, _ => ⟨.error e, m, []⟩
  | .ok _, none => ⟨.error (.panic (.index m.cells.size (index offset))), m, []⟩

def store (m : Model) (offset : Address) (value : Word) : Reply Model Unit :=
  match checkAccess offset m.size, m.cells[index offset]? with
  | .ok _, some c =>
    ⟨.ok (), { m with
        cells := m.cells.setIfInBounds (index offset) (c.store value)
        writes := m.writes + 1 },
      [.wordStored offset value (c.store value).value]⟩
  | .error e, _ => ⟨.error e, m, []⟩
  | .ok _, none => ⟨.error (.panic (.index m.cells.size (index offset))), m, []⟩

def responder : Responder Model := ⟨fun o m => m.load o, fun o v m => m.store o v⟩

end Model

end I3CHost
