import I3CHost.Controller

/-!
# The smoke sequence

A fixed script over a controller: write, read back, compare. The script is a list of steps, and a
step says what to do and what to expect; none says what to do if a comparison fails. So a run does
the same accesses whatever is read, and only a fault cuts it short. The last check looks at the
interrupt bookkeeping and needs no access.
-/
namespace I3CHost.Smoke

/-! ## Test values -/

/-- The dynamic address the controller gives itself. -/
def testAddr : Word := 0x5F
/-- The static address put into DAT entry 0. -/
def testStaticAddr : Word := 0x50
/-- The retry count put into DAT entry 0. -/
def testRetryCount : Word := 2
def datTestIndex : UInt64 := 5
def datTestWords : List Word := [0xDEADBEEF, 0xABCD9876]
def dctTestIndex : UInt64 := 3
def dctTestWords : List Word := [0x01234567, 0x000089AB, 0x000027C6, 0x00000009]
/-- Both data buffer sizes after reset. -/
def bufferSizeAtReset : Word := 5
/-- What the PIO control register holds after a store of all ones. -/
def pioControlEnabled : Word := Register.pioControlWritable

/-! ## The script -/

/-- One step of the script. -/
inductive Step where
  | announce (title : String)
  | write (offset : Address) (value : Word)
  | writeField (offset : Address) (f : Field) (value : Word)
  | expect (name : String) (expected : Word) (offset : Address)
  | expectField (name : String) (expected : Word) (offset : Address) (f : Field)
  | writeEntry (table : TableKind) (index : UInt64) (words : List Word)
  /-- Read an entry and compare it word by word. -/
  | expectEntry (table : TableKind) (index : UInt64) (words : List Word)
  | writeEntryField (table : TableKind) (index : UInt64) (f : Field) (value : Word)
  | expectEntryField (name : String) (expected : Word) (table : TableKind) (index : UInt64)
      (f : Field)

/-- How an entry is called in the names of checks. -/
def entryName (table : TableKind) (index : UInt64) : String := s!"{table.label}[{index.toNat}]"

/-- The steps, in order. -/
def script : List Step :=
  let address := Register.controllerDeviceAddr
  let dat := entryName .dat 0
  let dct := entryName .dct dctTestIndex
  let ids := dctTestWords[2]?.getD 0
  [.announce "Testing I3C base registers",
    .write Register.hciVersion 0,
    .expect "HCI_VERSION" ResetValue.hciVersion Register.hciVersion,
    .writeField Register.hcControl HcControl.busEnable 1,
    .expectField "HC_CONTROL.BUS_ENABLE" 1 Register.hcControl HcControl.busEnable,
    .writeField address ControllerDeviceAddr.dynamicAddr testAddr,
    .writeField address ControllerDeviceAddr.dynamicAddrValid 1,
    .expectField "CONTROLLER_DEVICE_ADDR.DYNAMIC_ADDR" testAddr address
      ControllerDeviceAddr.dynamicAddr,
    .expectField "CONTROLLER_DEVICE_ADDR.DYNAMIC_ADDR_VALID" 1 address
      ControllerDeviceAddr.dynamicAddrValid,
    .announce "Testing I3C PIO control registers",
    .expectField "QUEUE_SIZE.TX_DATA_BUFFER_SIZE" bufferSizeAtReset Register.queueSize
      QueueSize.txDataBufferSize,
    .expectField "QUEUE_SIZE.RX_DATA_BUFFER_SIZE" bufferSizeAtReset Register.queueSize
      QueueSize.rxDataBufferSize,
    .write Register.pioControl Word.ones,
    .expect "PIO_CONTROL" pioControlEnabled Register.pioControl,
    .announce "Testing DAT memory",
    .writeEntry .dat datTestIndex datTestWords,
    .expectEntry .dat datTestIndex datTestWords,
    .writeEntryField .dat 0 DatField.staticAddress testStaticAddr,
    .writeEntryField .dat 0 DatField.dynamicAddress testAddr,
    .writeEntryField .dat 0 DatField.devNackRetryCnt testRetryCount,
    .expectEntryField (dat ++ ".DEV_NACK_RETRY_CNT") testRetryCount .dat 0
      DatField.devNackRetryCnt,
    .expectEntryField (dat ++ ".STATIC_ADDRESS") testStaticAddr .dat 0 DatField.staticAddress,
    .expectEntryField (dat ++ ".DYNAMIC_ADDRESS") testAddr .dat 0 DatField.dynamicAddress,
    .announce "Testing DCT memory",
    .writeEntry .dct dctTestIndex dctTestWords,
    .expectEntry .dct dctTestIndex dctTestWords,
    .expectEntryField (dct ++ ".DCR") (DctField.dcr.get ids) .dct dctTestIndex DctField.dcr,
    .expectEntryField (dct ++ ".BCR") (DctField.bcr.get ids) .dct dctTestIndex DctField.bcr]

/-! ## Running it -/

/-- Log a check and put it into the report. -/
def record (r : Report) (c : Check) : Bus Report := do
  Bus.emit (.checked c)
  return r.add c

/-- Compare words with the words expected, numbering them from `k`. -/
def recordWords (name : String) : Nat → Report → List Word → List Word → Bus Report
  | k, r, e :: es, a :: as => do
    recordWords name (k + 1) (← record r ⟨s!"{name} word {k}", e, a⟩) es as
  | _, r, _, _ => pure r

/-- One step: the report so far goes in, the report with the step's checks comes out. -/
def Step.run (c : Controller) (r : Report) : Step → Bus Report
  | .announce title => do
    Bus.emit (.smokePart title)
    return r
  | .write offset value => do
    c.csr.write offset value
    return r
  | .writeField offset f value => do
    c.csr.writeField offset f value
    return r
  | .expect name expected offset => do
    record r ⟨name, expected, ← c.csr.read offset⟩
  | .expectField name expected offset f => do
    record r ⟨name, expected, ← c.csr.readField offset f⟩
  | .writeEntry table index words => do
    (c.table table).writeEntry index words
    return r
  | .expectEntry table index words => do
    let actual ← (c.table table).readWords index words.length
    recordWords (entryName table index) 0 r words actual.toList
  | .writeEntryField table index f value => do
    (c.table table).writeField index f value
    return r
  | .expectEntryField name expected table index f => do
    record r ⟨name, expected, ← (c.table table).readField index f⟩

/-- Steps one after the other. -/
def runSteps (c : Controller) : Report → List Step → Bus Report
  | r, [] => pure r
  | r, s :: ss => do runSteps c (← s.run c r) ss

/-- The whole sequence. -/
def run (c : Controller) (l : InterruptLog) : Bus Report := do
  let r ← runSteps c .empty script
  let r ← record r ⟨"I3C error interrupt", 0, (l.isPending .i3c .error).toUInt32⟩
  Bus.emit (.smokeTotals r.passed r.failed)
  return r

end I3CHost.Smoke
