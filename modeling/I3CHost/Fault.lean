import I3CHost.Layout
import I3CHost.Text.Numeral
import I3CHost.Text.Radix

/-!
# Faults

Everything that can go wrong between a caller and a register, as causes. The wording stands in the
`message` functions and nowhere else. A store to a read-only bit is not a fault, nor is a field
whose mask does not start at its low bit.

A panic stands among the faults because it ends a computation as they do. It is not an error that a
caller is handed: nothing above it goes on.
-/
namespace I3CHost

open Text (hex)

/-- Why a path cannot be opened. -/
inductive PathFault where
  | missing
  | notDirectory
  | isDirectory
  | nameTooLong
  | embeddedNul
deriving DecidableEq, Repr

def PathFault.message : PathFault → String
  | .missing => "No such file or directory (os error 2)"
  | .notDirectory => "Not a directory (os error 20)"
  | .isDirectory => "Is a directory (os error 21)"
  | .nameTooLong => "File name too long (os error 36)"
  | .embeddedNul => "file name contained an unexpected NUL byte"

/-- Why an open device cannot be mapped. -/
inductive MapRefusal where
  | outOfMemory
  | noSuchDevice
  | emptyRange
  | offsetTooLarge
deriving DecidableEq, Repr

def MapRefusal.message : MapRefusal → String
  | .outOfMemory => "Cannot allocate memory (os error 12)"
  | .noSuchDevice => "No such device (os error 19)"
  | .emptyRange => "Invalid argument (os error 22)"
  | .offsetTooLarge => "Value too large for defined data type (os error 75)"

/-- Why a register window cannot be mapped. -/
inductive MapFault where
  | windowSize (size : Address)
  | base (start : Address)
  | cannotOpen (path : String) (why : PathFault)
  | tooShort (path : String) (length finish : Address)
  | refused (why : MapRefusal)
  | other (reason : String)
deriving DecidableEq, Repr

def MapFault.message : MapFault → String
  | .windowSize size => s!"window size {hex size.toNat} must be a non-zero multiple of 4"
  | .base start => s!"base {hex start.toNat} is not word aligned"
  | .cannotOpen path why => s!"Cannot open {path}: {why.message}"
  | .tooShort path length finish =>
    s!"{path} is {hex length.toNat} bytes, window ends at {hex finish.toNat}"
  | .refused why => s!"mmap failed: {why.message}"
  | .other reason => reason

/-- Why settings are rejected. -/
inductive SettingsFault where
  | baseAddress (base : Address)
  | windowSize (size : Address)
  | tableOverflows (table : TableKind) (offset : Address) (capacity : UInt64)
  | tableEnds (table : TableKind) (finish window : Address)
  | notANumber (text : String) (why : Text.NumeralFault)
  | other (reason : String)
deriving DecidableEq, Repr

def SettingsFault.message : SettingsFault → String
  | .baseAddress base => s!"base address {hex base.toNat} is not word aligned"
  | .windowSize size => s!"window size {hex size.toNat} must be a non-zero multiple of 4"
  | .tableOverflows table offset capacity =>
    s!"{table.label} at {hex offset.toNat} with {capacity.toNat} entries "
      ++ "overflows the address space"
  | .tableEnds table finish window =>
    s!"{table.label} ends at {hex finish.toNat}, past the {hex window.toNat}-byte window"
  | .notANumber text why => s!"'{text}' is not a number: {why.message}"
  | .other reason => reason

/-- What a computation can give up on, with no error for its caller. -/
inductive Panic where
  /-- A plain sum that is no address. -/
  | addOverflow
  /-- A plain product that is no address. -/
  | mulOverflow
  /-- An array of more bytes than an array may have. -/
  | capacityOverflow
  /-- A position past the end of an array. -/
  | index (length position : Nat)
  /-- A copy between arrays of two lengths. -/
  | copyLengths (source target : Nat)
deriving DecidableEq, Repr

def Panic.message : Panic → String
  | .addOverflow => "attempt to add with overflow"
  | .mulOverflow => "attempt to multiply with overflow"
  | .capacityOverflow => "capacity overflow"
  | .index length position =>
    s!"index out of bounds: the len is {length} but the index is {position}"
  | .copyLengths source target =>
    s!"copy_from_slice: source slice length ({source}) does not match destination slice "
      ++ s!"length ({target})"

/-- What can go wrong with a register or table access. -/
inductive Fault where
  /-- No word starts at the offset. -/
  | misaligned (offset : Address)
  /-- The word does not lie inside the window. -/
  | outOfBounds (offset limit : Address)
  | indexOutOfRange (table : TableKind) (index capacity : UInt64)
  /-- More words than one entry holds. -/
  | entryTooLong (table : TableKind) (words : Nat) (entryWords : UInt64)
  /-- A field or pair past the last word of an entry. -/
  | wordOutOfRange (table : TableKind) (word entryWords : UInt64)
  /-- The device itself failed. -/
  | device (reason : String)
  | mapFailed (why : MapFault)
  | invalidSettings (why : SettingsFault)
  | panic (why : Panic)
deriving DecidableEq, Repr

def Fault.message : Fault → String
  | .misaligned offset => s!"Misaligned register access at offset {hex offset.toNat}"
  | .outOfBounds offset limit =>
    s!"Register offset {hex offset.toNat} out of bounds (window is {hex limit.toNat} bytes)"
  | .indexOutOfRange table index capacity =>
    s!"{table.label} index {index.toNat} out of range (capacity {capacity.toNat})"
  | .entryTooLong table words entryWords =>
    s!"{table.label} entry holds {entryWords.toNat} words, got {words}"
  | .wordOutOfRange table word entryWords =>
    s!"{table.label} field in word {word.toNat} but entries have {entryWords.toNat} words"
  | .device reason => s!"I/O error: {reason}"
  | .mapFailed why => s!"Failed to map register window: {why.message}"
  | .invalidSettings why => s!"Invalid configuration: {why.message}"
  | .panic why => why.message

namespace Address

variable {a b c : Address}

/-- The exact sum; there is no going on without it. -/
def plus (a b : Address) : Except Fault Address :=
  match add? a b with
  | some c => .ok c
  | none => .error (.panic .addOverflow)

/-- The exact product; there is no going on without it. -/
def times (a b : Address) : Except Fault Address :=
  match mul? a b with
  | some c => .ok c
  | none => .error (.panic .mulOverflow)

theorem plus_of_lt (h : a.toNat + b.toNat < UInt64.size) : plus a b = .ok (a + b) := by
  simp [plus, add?, h]

theorem plus_of_le (h : UInt64.size ≤ a.toNat + b.toNat) :
    plus a b = .error (.panic .addOverflow) := by
  simp [plus, add?_eq_none.mpr h]

theorem times_of_lt (h : a.toNat * b.toNat < UInt64.size) : times a b = .ok (a * b) := by
  simp [times, mul?, h]

theorem times_of_le (h : UInt64.size ≤ a.toNat * b.toNat) :
    times a b = .error (.panic .mulOverflow) := by
  simp [times, mul?_eq_none.mpr h]

theorem plus_eq_ok (h : plus a b = .ok c) : c.toNat = a.toNat + b.toNat := by
  unfold plus at h
  split at h
  · cases h
    exact add?_eq_some (by assumption)
  · cases h

end Address

/-- A word access at `offset` is allowed in a window of `limit` bytes. Alignment is judged first. -/
def checkAccess (offset limit : Address) : Except Fault Unit :=
  if !offset.isAligned then .error (.misaligned offset)
  else
    match Address.add? offset Address.wordBytes with
    | some finish => if finish ≤ limit then .ok () else .error (.outOfBounds offset limit)
    | none => .error (.outOfBounds offset limit)

end I3CHost
