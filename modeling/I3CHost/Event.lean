import I3CHost.Interrupt
import I3CHost.Report
import I3CHost.Settings
import I3CHost.Text.Listing

/-!
# Log events

What the library has to say about its own work, as values: programs and windows emit events, and
whoever runs them decides which to show. Each event has a fixed severity and a fixed wording. What a
command prints stands among the events, because log and printout are written to the same place in
the order in which they come up; a printed line has no severity and is always shown.
-/
namespace I3CHost

open Text (hex)

inductive Severity where
  | warn
  | info
  | debug
  | trace
deriving DecidableEq, Repr

namespace Severity

def label : Severity → String
  | warn => "WARN"
  | info => "INFO"
  | debug => "DEBUG"
  | trace => "TRACE"

/-- Larger for less important events. -/
def rank : Severity → Nat
  | warn => 0
  | info => 1
  | debug => 2
  | trace => 3

end Severity

inductive Event where
  | settings (s : Settings)
  | deviceChosen (path : String)
  | deviceAbsent (path : String)
  | mapping (path : String) (base size : Address)
  | mapped (path : String) (base size : Address)
  | unmapping (path : String) (base : Address)
  | modelBuilt (words : Nat)
  | modelReset
  | wordRead (offset : Address) (value : Word)
  | wordWritten (offset : Address) (value : Word)
  /-- A store to a model, with what the word holds afterwards. -/
  | wordStored (offset : Address) (value stored : Word)
  | fieldRead (address : Address) (mask : Word) (low : UInt8) (value : Word)
  | fieldUpdate (address : Address) (old new : Word)
  | entryWrite (table : TableKind) (index : UInt64) (words : List Word)
  | entrySizeIgnored (table : TableKind) (advertised : Word) (entryWords : UInt64)
  | discovered (dat dct : TableLayout)
  | smokePart (title : String)
  | checked (c : Check)
  | smokeTotals (passed failed : Nat)
  | interrupt (source : InterruptSource) (kind : InterruptKind) (count : UInt32)
  | harnessReset (count : UInt32)
  /-- A line of a printout. -/
  | printed (line : String)
deriving DecidableEq, Repr

namespace Event

def severity? : Event → Option Severity
  | deviceAbsent .. | entrySizeIgnored .. => some .warn
  | deviceChosen .. | mapped .. | discovered .. | smokePart .. | smokeTotals ..
  | harnessReset .. => some .info
  | settings .. | mapping .. | unmapping .. | modelBuilt .. | modelReset | fieldUpdate ..
  | entryWrite .. | interrupt .. => some .debug
  | wordRead .. | wordWritten .. | wordStored .. | fieldRead .. => some .trace
  | checked c => some (if c.passed then .info else .warn)
  | printed _ => none

def message : Event → String
  | settings s => "I3C config: " ++ s.describe
  | deviceChosen path => s!"Using mmap backend for {path}"
  | deviceAbsent path => s!"{path} not present, falling back to the software model"
  | mapping path base size => s!"Mapping {path} @ {hex base.toNat} (+{hex size.toNat})"
  | mapped path base size => s!"Mapped {path} @ {hex base.toNat}, {hex size.toNat} bytes"
  | unmapping path base => s!"Unmapping {path} @ {hex base.toNat}"
  | modelBuilt words =>
    let shape := fun l : TableLayout => s!"{l.kind.label} {l.capacity.toNat} x {l.entryWords.toNat}"
    s!"Software I3C model: {words} words, {shape .dat}, {shape .dct}"
  | modelReset => "Software I3C model reset"
  | wordRead offset value => s!"Read u32 @ {hex offset.toNat} = {hex value.toNat}"
  | wordWritten offset value => s!"Write u32 @ {hex offset.toNat} = {hex value.toNat}"
  | wordStored offset value stored =>
    s!"Write u32 @ {hex offset.toNat} = {hex value.toNat} (stored {hex stored.toNat})"
  | fieldRead address mask low value =>
    s!"Field @ {hex address.toNat} [{hex mask.toNat} >> {low.toNat}] = {hex value.toNat}"
  | fieldUpdate address old new =>
    s!"RMW @ {hex address.toNat}: {hex old.toNat} -> {hex new.toNat}"
  | entryWrite table index words =>
    s!"{table.label} entry {index.toNat} <- " ++ Text.lines (words.map fun w => hex w.toNat)
  | entrySizeIgnored table advertised entryWords =>
    s!"{table.label} advertises entry size {advertised.toNat}, keeping {entryWords.toNat} words"
  | discovered dat dct =>
    s!"Discovered DAT @ {hex dat.offset.toNat} x {dat.capacity.toNat}, "
      ++ s!"DCT @ {hex dct.offset.toNat} x {dct.capacity.toNat}"
  | smokePart title => title
  | checked c => c.line
  | smokeTotals passed failed => s!"Smoke run: {passed} passed, {failed} failed"
  | interrupt source kind count => s!"Interrupt {source.label} {kind.label} (#{count.toNat})"
  | harnessReset count => s!"Reset #{count.toNat}"
  | printed line => line

/-- The line, if the event is one of a printout. -/
def line? : Event → Option String
  | printed line => some line
  | _ => none

/-- Shown when everything up to severity `limit` is. -/
def isShown (limit : Severity) (e : Event) : Bool :=
  match e.severity? with
  | some severity => severity.rank ≤ limit.rank
  | none => true

end Event

end I3CHost
