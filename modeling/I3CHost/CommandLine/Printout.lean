import I3CHost.CommandLine.Command
import I3CHost.Smoke
import I3CHost.Text.Listing

/-!
# What commands print

Each command is a bus program that prints what it finds as it goes along; its value is the failure
that its work shows, if there is one. A text that names no register or entry is found out before the
bus is touched. A fault on the bus ends the printout where it is. A written value is always read
back and shown; the two need not agree.
-/
namespace I3CHost.CommandLine

open Text (hex hexWide)

/-- A failed command: what failed, and what caused it where that is another thing. -/
structure Failure where
  message : String
  cause : Option String
deriving DecidableEq, Repr

namespace Failure

def ofFault (f : Fault) : Failure := ⟨f.message, none⟩

/-- A fault with what was being done. -/
def during (context : String) (f : Fault) : Failure := ⟨context, some f.message⟩

/-- Every line of a cause is indented. -/
def text (f : Failure) : String :=
  match f.cause with
  | none => "Error: " ++ f.message ++ "\n"
  | some cause =>
    let indented := String.intercalate "\n" ((cause.splitOn "\n").map fun l => "    " ++ l)
    "Error: " ++ f.message ++ "\n\nCaused by:\n" ++ indented ++ "\n"

end Failure

/-- Print lines. -/
def printLines : List String → Bus Unit
  | [] => pure ()
  | line :: lines => do
    Bus.emit (.printed line)
    printLines lines

/-! ## Places -/

/-- The offset of a register given by name or as a number. -/
def registerOf (text : String) : Except Failure Address :=
  match Register.byName? text with
  | some offset => .ok offset
  | none =>
    match Settings.number text with
    | .ok offset => .ok offset
    | .error why => .error (.during s!"unknown register {text}" why)

namespace FieldPlace

/-- The offset or index of a place. -/
def resolve (p : FieldPlace) : Except Failure UInt64 :=
  match p.space with
  | .csr => registerOf p.location
  | .dat | .dct =>
    match Text.size p.location.toList with
    | .ok index => .ok index
    | .error why => .error ⟨s!"entry index {p.location} is not a number", some why.message⟩

/-- A place as it is shown. -/
def display (p : FieldPlace) (location : UInt64) : String :=
  let space := match p.space with
    | .csr => "Csr"
    | .dat => "Dat"
    | .dct => "Dct"
  s!"{space}[{hex location.toNat}] word {p.field.word.toNat}"

end FieldPlace

/-! ## Values -/

/-- A whole register: the mark and eight digits. -/
def fullWord (w : Word) : String := hexWide 10 w.toNat

def wordList (ws : List Word) : String := Text.lines (ws.map fullWord)

def datEntryText (e : DatEntry) : String :=
  let number := fun b : UInt8 => toString b.toNat
  let truth := fun b : Bool => if b then "true" else "false"
  Text.record "DatEntry"
    [("static_address", number e.staticAddress), ("ibi_payload", truth e.ibiPayload),
      ("ibi_reject", truth e.ibiReject), ("crr_reject", truth e.crrReject), ("ts", truth e.ts),
      ("dynamic_address", number e.dynamicAddress), ("ring_id", number e.ringId),
      ("dev_nack_retry_cnt", number e.devNackRetryCnt), ("device", truth e.device),
      ("autocmd_mask", number e.autocmdMask), ("autocmd_value", number e.autocmdValue),
      ("autocmd_mode", number e.autocmdMode), ("autocmd_hdr_code", number e.autocmdHdrCode)]

def dctEntryLines (e : DctEntry) : List String :=
  ["PID      : " ++ hexWide 14 e.pid.toNat, "DCR      : " ++ hexWide 4 e.dcr.toNat,
    "BCR      : " ++ hexWide 4 e.bcr.toNat, "Address  : " ++ hexWide 4 e.dynamicAddress.toNat]

/-- The words of an entry on one line. -/
def entryLine (table : TableKind) (index : UInt64) (ws : List Word) : String :=
  s!"{table.label}[{index.toNat}] = " ++ String.intercalate " " (ws.map fullWord)

/-- A line on a discovered table that ends at `finish`. -/
def layoutLine (l : TableLayout) (finish : Address) : String :=
  s!"{l.kind.label}  offset {hexWide 5 l.offset.toNat}  {l.capacity.toNat} entries x "
    ++ s!"{l.entryBytes.toNat} bytes  (ends {hex finish.toNat})"

/-- A line for each discovered table, up to the first that has no end. -/
def printLayouts : List TableLayout → Bus (Option Failure)
  | [] => pure none
  | l :: ls =>
    match l.finish? with
    | some finish => do
      Bus.emit (.printed (layoutLine l finish))
      printLayouts ls
    | none => pure (some ⟨"discovered table overflows the address space", none⟩)

/-! ## Commands -/

/-- The report under its title; failed checks make the command fail. -/
def printReport (r : Report) : Bus (Option Failure) := do
  let rule := "---------------------------"
  printLines [rule, " I3C CSR Smoke Test", rule, r.text]
  return if r.isSuccess then none else some ⟨s!"{r.failed} smoke check(s) failed", none⟩

namespace Command

/-- Read an entry twice: as words, and by its members. -/
def readEntryProgram (c : Controller) (index : UInt64) : TableKind → Bus (Option Failure)
  | .dat => do
    let ws ← (c.table .dat).readWords index 2
    Bus.emit (.printed (entryLine .dat index ws.toList))
    let e ← c.readDatEntry index
    Bus.emit (.printed (datEntryText e))
    return none
  | .dct => do
    let ws ← (c.table .dct).readWords index 4
    Bus.emit (.printed (entryLine .dct index ws.toList))
    let e ← c.readDctEntry index
    printLines (dctEntryLines e)
    return none

/-- The program of a command, if it names existing places. -/
def program (c : Controller) : Command → Except Failure (Bus (Option Failure))
  | smoke => .ok do
    printReport (← Smoke.run c .empty)
  | read reg => do
    let offset ← registerOf reg
    return do
      let value ← c.csr.read offset
      Bus.emit (.printed s!"{reg} @ {hexWide 5 offset.toNat} = {fullWord value}")
      return none
  | write reg value => do
    let offset ← registerOf reg
    return do
      c.csr.write offset value
      let back ← c.csr.read offset
      let place := s!"{reg} @ {hexWide 5 offset.toNat}"
      Bus.emit (.printed s!"{place} <- {fullWord value} (reads {fullWord back})")
      return none
  | readField place => do
    let location ← place.resolve
    return do
      let value ← c.readField place.space location place.field
      let bits := s!"[{fullWord place.field.mask} >> {place.field.low.toNat}]"
      Bus.emit (.printed s!"{place.display location} {bits} = {hex value.toNat}")
      return none
  | writeField place value => do
    let location ← place.resolve
    return do
      c.writeField place.space location place.field value
      let back ← c.readField place.space location place.field
      let written := s!"{place.display location} <- {hex value.toNat}"
      Bus.emit (.printed s!"{written} (reads {hex back.toNat})")
      return none
  | readEntry table index => .ok (readEntryProgram c index table)
  | writeEntry table index words => .ok do
    (c.table table).writeEntry index words
    let back ← (c.table table).readEntry index words.length
    let written := s!"{table.label}[{index.toNat}] <- {wordList words}"
    Bus.emit (.printed s!"{written} (reads {wordList back})")
    return none
  | discover => .ok do
    let found ← c.discover
    printLayouts [found.dat, found.dct]

end Command

end I3CHost.CommandLine
