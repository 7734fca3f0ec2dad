import I3CHost.Access
import I3CHost.Calls

/-!
# The methods of the driver

The accesses of the register and table views, of the controller and of the smoke sequence once more,
as methods that are handed the outcome of every access: with their loops over positions, and with
the assignments of a discovery made one after the other on the controller in hand.
-/
namespace I3CHost

namespace Procedure

/-! ## Registers -/

def readRegister (v : Registers) (offset : Address) : Procedure Word := do
  let a ← require (v.address offset)
  load a

def writeRegister (v : Registers) (offset : Address) (value : Word) : Procedure Unit := do
  let a ← require (v.address offset)
  store a value

def readRegisterField (v : Registers) (offset : Address) (f : Field) : Procedure Word := do
  let a ← require (v.fieldAddress offset f)
  let raw ← load a
  let value := f.get raw
  emit (.fieldRead a f.mask f.low value)
  return value

def writeRegisterField (v : Registers) (offset : Address) (f : Field) (value : Word) :
    Procedure Unit := do
  let a ← require (v.fieldAddress offset f)
  let old ← load a
  let new := f.set old value
  emit (.fieldUpdate a old new)
  store a new

def readRegisterBits (v : Registers) (offset : Address) (low : UInt8) (mask : Word) :
    Procedure Word := do
  let raw ← readRegister v offset
  return Field.extract raw low mask

/-! ## Table entries -/

def writeEntry (t : Table) (index : UInt64) (words : List Word) : Procedure Unit := do
  let start ← require (t.entryOffset index)
  require (t.checkWords words.length)
  emit (.entryWrite t.layout.kind index words)
  words.zipIdx.forM fun (w, i) => writeRegister t.registers (Table.wordFrom start i) w

def readEntry (t : Table) (index : UInt64) (count : Nat) : Procedure (List Word) := do
  let start ← require (t.entryOffset index)
  require (t.checkWords count)
  (List.range count).mapM fun i => readRegister t.registers (Table.wordFrom start i)

/-- The words are put one after the other into a vector of zeros. -/
def readWords (t : Table) (index : UInt64) (n : Nat) : Procedure (Vector Word n) := do
  let start ← require (t.entryOffset index)
  require (t.checkWords n)
  (List.range n).foldlM (fun ws i => do
    let w ← readRegister t.registers (Table.wordFrom start i)
    return ws.setIfInBounds i w) (Vector.replicate n 0)

def readEntryField (t : Table) (index : UInt64) (f : Field) : Procedure Word := do
  let start ← require (t.entryOffset index)
  require (t.checkField f)
  readRegisterField t.registers start f

def writeEntryField (t : Table) (index : UInt64) (f : Field) (value : Word) : Procedure Unit := do
  let start ← require (t.entryOffset index)
  require (t.checkField f)
  writeRegisterField t.registers start f value

def writePair (t : Table) (index pair value : UInt64) : Procedure Unit := do
  let first ← require (t.pairWord pair)
  let start ← require (t.entryOffset index)
  let lowAt ← require (Table.wordOffset start first)
  writeRegister t.registers lowAt value.toUInt32
  let second ← require (Address.plus first 1)
  let highAt ← require (Table.wordOffset start second)
  writeRegister t.registers highAt (value >>> 32).toUInt32

def readPair (t : Table) (index pair : UInt64) : Procedure UInt64 := do
  let first ← require (t.pairWord pair)
  let start ← require (t.entryOffset index)
  let lowAt ← require (Table.wordOffset start first)
  let low ← readRegister t.registers lowAt
  let second ← require (Address.plus first 1)
  let highAt ← require (Table.wordOffset start second)
  let high ← readRegister t.registers highAt
  return (high.toUInt64 <<< 32) ||| low.toUInt64

end Procedure

namespace Method

open Procedure

/-! ## The controller -/

def readField (space : Space) (location : UInt64) (f : Field) : Method Word := do
  let c ← get
  match space.table? with
  | none => readRegisterField c.csr location f
  | some kind => readEntryField (c.table kind) location f

def writeField (space : Space) (location : UInt64) (f : Field) (value : Word) : Method Unit := do
  let c ← get
  match space.table? with
  | none => writeRegisterField c.csr location f value
  | some kind => writeEntryField (c.table kind) location f value

def readDatEntry (index : UInt64) : Method DatEntry := do
  let c ← get
  let words ← readWords (c.table .dat) index 2
  return .ofWords words

def writeDatEntry (index : UInt64) (e : DatEntry) : Method Unit := do
  let c ← get
  writeEntry (c.table .dat) index e.toWords.toList

def readDctEntry (index : UInt64) : Method DctEntry := do
  let c ← get
  let words ← readWords (c.table .dct) index 4
  return .ofWords words

def writeDctEntry (index : UInt64) (e : DctEntry) : Method Unit := do
  let c ← get
  writeEntry (c.table .dct) index e.toWords.toList

/-- A layout moved and resized by what a section register says, where that is not zero. -/
def adopted (l : TableLayout) (raw : Word) : TableLayout :=
  let offset := (SectionOffset.tableOffset.get raw).toUInt64
  let size := (SectionOffset.tableSize.get raw).toUInt64
  let moved := if offset != 0 then { l with offset } else l
  if size != 0 then { moved with capacity := size } else moved

def discoverOne (register : Address) (current : TableLayout) : Method TableLayout := do
  let c ← get
  let raw ← readRegister c.csr register
  let entrySize := SectionOffset.entrySize.get raw
  if entrySize != 0 then
    emit (.entrySizeIgnored current.kind entrySize current.entryWords)
  return adopted current raw

def checkFits (l : TableLayout) : Method Unit := do
  let c ← get
  require (l.checkFits c.window)

/-- Nothing is assigned before the last thing that can fail. -/
def discover : Method (TableLayout × TableLayout) := do
  let dat ← discoverOne Register.datSectionOffset (← get).dat
  let dct ← discoverOne Register.dctSectionOffset (← get).dct
  checkFits dat
  checkFits dct
  modify fun c => { c with dat }
  modify fun c => { c with dct }
  emit (.discovered dat dct)
  return (dat, dct)

/-! ## The smoke sequence -/

open Smoke

def check (report : Report) (name : String) (expected actual : Word) : Method Report := do
  emit (.checked ⟨name, expected, actual⟩)
  return report.add ⟨name, expected, actual⟩

def checkWords (report : Report) (name : String) (expected actual : List Word) : Method Report :=
  (expected.zip actual).zipIdx.foldlM (fun report (e, i) =>
    check report s!"{name} word {i}" e.1 e.2) report

/-- The sequence line by line. -/
def smoke (l : InterruptLog) : Method Report := do
  let report := Report.empty
  emit (.smokePart "Testing I3C base registers")
  let csr := (← get).csr
  writeRegister csr Register.hciVersion 0
  let report ← check report "HCI_VERSION" ResetValue.hciVersion
    (← readRegister csr Register.hciVersion)
  writeRegisterField csr Register.hcControl HcControl.busEnable 1
  let report ← check report "HC_CONTROL.BUS_ENABLE" 1
    (← readRegisterField csr Register.hcControl HcControl.busEnable)
  writeRegisterField csr Register.controllerDeviceAddr ControllerDeviceAddr.dynamicAddr testAddr
  writeRegisterField csr Register.controllerDeviceAddr ControllerDeviceAddr.dynamicAddrValid 1
  let report ← check report "CONTROLLER_DEVICE_ADDR.DYNAMIC_ADDR" testAddr
    (← readRegisterField csr Register.controllerDeviceAddr ControllerDeviceAddr.dynamicAddr)
  let report ← check report "CONTROLLER_DEVICE_ADDR.DYNAMIC_ADDR_VALID" 1
    (← readRegisterField csr Register.controllerDeviceAddr ControllerDeviceAddr.dynamicAddrValid)
  emit (.smokePart "Testing I3C PIO control registers")
  let report ← check report "QUEUE_SIZE.TX_DATA_BUFFER_SIZE" bufferSizeAtReset
    (← readRegisterField csr Register.queueSize QueueSize.txDataBufferSize)
  let report ← check report "QUEUE_SIZE.RX_DATA_BUFFER_SIZE" bufferSizeAtReset
    (← readRegisterField csr Register.queueSize QueueSize.rxDataBufferSize)
  writeRegister csr Register.pioControl Word.ones
  let report ← check report "PIO_CONTROL" pioControlEnabled
    (← readRegister csr Register.pioControl)
  emit (.smokePart "Testing DAT memory")
  let dat := (← get).table .dat
  writeEntry dat datTestIndex datTestWords
  let words ← readWords dat datTestIndex 2
  let report ← checkWords report "DAT[5]" datTestWords words.toList
  writeEntryField dat 0 DatField.staticAddress testStaticAddr
  writeEntryField dat 0 DatField.dynamicAddress testAddr
  writeEntryField dat 0 DatField.devNackRetryCnt testRetryCount
  let report ← check report "DAT[0].DEV_NACK_RETRY_CNT" testRetryCount
    (← readEntryField dat 0 DatField.devNackRetryCnt)
  let report ← check report "DAT[0].STATIC_ADDRESS" testStaticAddr
    (← readEntryField dat 0 DatField.staticAddress)
  let report ← check report "DAT[0].DYNAMIC_ADDRESS" testAddr
    (← readEntryField dat 0 DatField.dynamicAddress)
  emit (.smokePart "Testing DCT memory")
  let dct := (← get).table .dct
  writeEntry dct dctTestIndex dctTestWords
  let words ← readWords dct dctTestIndex 4
  let report ← checkWords report "DCT[3]" dctTestWords words.toList
  let report ← check report "DCT[3].DCR" (DctField.dcr.get 0x000027C6)
    (← readEntryField dct dctTestIndex DctField.dcr)
  let report ← check report "DCT[3].BCR" (DctField.bcr.get 0x000027C6)
    (← readEntryField dct dctTestIndex DctField.bcr)
  let report ← check report "I3C error interrupt" 0 (l.isPending .i3c .error).toUInt32
  emit (.smokeTotals report.passed report.failed)
  return report

/-! ## Requests -/

/-- A method called on the controller `c`. If that is not the one in hand, the one in hand stays. -/
def on {α : Type} (c : Controller) (m : Method α) : Method α :=
  ExceptT.mk fun own => ((ExceptT.run m).run c).bind fun (x, c') =>
    .done (x, if c = own then c' else own)

end Method

open Procedure in
/-- The method that a request calls. -/
def Access.method : Access → Method Answer
  | base v => return .number v.base
  | read v offset => return .word (← readRegister v offset)
  | write v offset value => do
    writeRegister v offset value
    return .nothing
  | readField v offset f => return .word (← readRegisterField v offset f)
  | writeField v offset f value => do
    writeRegisterField v offset f value
    return .nothing
  | readBits v offset low mask => return .word (← readRegisterBits v offset low mask)
  | writeBits v offset low mask value => do
    writeRegisterField v offset (.ofMask low mask) value
    return .nothing
  | layout t => return .layout t.layout
  | entryOffset t index => return .number (← require (t.entryOffset index))
  | readEntry t index count => return .words (← Procedure.readEntry t index count)
  | readWords t index count => return .words (← Procedure.readWords t index count).toList
  | writeEntry t index words => do
    Procedure.writeEntry t index words
    return .nothing
  | readEntryField t index f => return .word (← Procedure.readEntryField t index f)
  | writeEntryField t index f value => do
    Procedure.writeEntryField t index f value
    return .nothing
  | readEntryBits t index low mask =>
    return .word (← Procedure.readEntryField t index (.ofMask low mask))
  | writeEntryBits t index low mask value => do
    Procedure.writeEntryField t index (.ofMask low mask) value
    return .nothing
  | readPair t index pair => return .number (← Procedure.readPair t index pair)
  | writePair t index pair value => do
    Procedure.writePair t index pair value
    return .nothing
  | readSpace c space location f => return .word (← (Method.readField space location f).on c)
  | writeSpace c space location f value => do
    (Method.writeField space location f value).on c
    return .nothing
  | readDatEntry c index => return .dat (← (Method.readDatEntry index).on c)
  | writeDatEntry c index e => do
    (Method.writeDatEntry index e).on c
    return .nothing
  | readDctEntry c index => return .dct (← (Method.readDctEntry index).on c)
  | writeDctEntry c index e => do
    (Method.writeDctEntry index e).on c
    return .nothing
  | load offset => return .word (← Procedure.load offset)
  | store offset value => do
    Procedure.store offset value
    return .nothing
  | smoke c l => return .report (← (Method.smoke l).on c)

end I3CHost
