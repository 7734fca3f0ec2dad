/-!
# Interrupt bookkeeping

The harness notes which interrupts have arrived and not been taken, how many arrived since the last
reset, and how many resets there were. Both counters have 32 bits and wrap. The pending sources are
kept in the order of the interrupt controller without repetition, so equal bookkeeping is equal
data. `InterruptFlags` is the same bookkeeping as it is stored, a flag for each source and kind.
-/
namespace I3CHost

/-- A peripheral that raises interrupts. -/
inductive InterruptSource where
  | doe
  | ecc
  | hmac
  | keyVault
  | sha512
  | sha256
  | qspi
  | uart
  | i3c
  | socIfc
  | sha512Acc
deriving DecidableEq, Repr

namespace InterruptSource

/-- Every source, in interrupt-controller order. -/
def all : List InterruptSource :=
  [doe, ecc, hmac, keyVault, sha512, sha256, qspi, uart, i3c, socIfc, sha512Acc]

def label : InterruptSource → String
  | doe => "doe"
  | ecc => "ecc"
  | hmac => "hmac"
  | keyVault => "kv"
  | sha512 => "sha512"
  | sha256 => "sha256"
  | qspi => "qspi"
  | uart => "uart"
  | i3c => "i3c"
  | socIfc => "soc_ifc"
  | sha512Acc => "sha512_acc"

theorem mem_all (s : InterruptSource) : s ∈ all := by
  cases s <;> decide

end InterruptSource

/-- Each source has an error line and a notification line. -/
inductive InterruptKind where
  | error
  | notification
deriving DecidableEq, Repr

def InterruptKind.label : InterruptKind → String
  | .error => "Error"
  | .notification => "Notification"

/-- What the harness remembers of interrupts and resets. -/
structure InterruptLog where
  /-- Sources with a pending error, in order. -/
  errors : List InterruptSource
  /-- Sources with a pending notification, in order. -/
  notifications : List InterruptSource
  /-- Interrupts since the last reset. -/
  interrupts : UInt32
  resets : UInt32
deriving DecidableEq, Repr

namespace InterruptLog

/-- Nothing has happened. -/
def empty : InterruptLog := ⟨[], [], 0, 0⟩

/-- The sources pending on one line. -/
def pending (l : InterruptLog) : InterruptKind → List InterruptSource
  | .error => l.errors
  | .notification => l.notifications

def setPending (l : InterruptLog) (sources : List InterruptSource) : InterruptKind → InterruptLog
  | .error => { l with errors := sources }
  | .notification => { l with notifications := sources }

def isPending (l : InterruptLog) (source : InterruptSource) (kind : InterruptKind) : Bool :=
  source ∈ l.pending kind

/-- Note an interrupt. A line that is pending already stays pending and is counted again. -/
def record (l : InterruptLog) (source : InterruptSource) (kind : InterruptKind) : InterruptLog :=
  let sources := InterruptSource.all.filter fun s => s = source || s ∈ l.pending kind
  { l.setPending sources kind with interrupts := l.interrupts + 1 }

/-- Clear one line, and say whether it was pending. -/
def take (l : InterruptLog) (source : InterruptSource) (kind : InterruptKind) :
    Bool × InterruptLog :=
  (l.isPending source kind, l.setPending ((l.pending kind).filter (· ≠ source)) kind)

/-- A warm reset: everything is cleared but the number of resets, which grows. -/
def reset (l : InterruptLog) : InterruptLog := ⟨[], [], 0, l.resets + 1⟩

end InterruptLog

/-! ## Flags -/

namespace InterruptSource

/-- The row of a source in a table of flags. -/
def index (s : InterruptSource) : Fin 11 := ⟨s.ctorIdx, by cases s <;> decide⟩

end InterruptSource

/-- The column of a kind in a table of flags. -/
def InterruptKind.index : InterruptKind → Fin 2
  | error => 0
  | notification => 1

/-- What the harness remembers, with a flag for each source and kind. -/
structure InterruptFlags where
  received : Vector (Vector Bool 2) 11
  interrupts : UInt32
  resets : UInt32
deriving DecidableEq, Repr

namespace InterruptFlags

def cleared : Vector (Vector Bool 2) 11 := Vector.replicate 11 (Vector.replicate 2 false)

def empty : InterruptFlags := ⟨cleared, 0, 0⟩

def isPending (f : InterruptFlags) (source : InterruptSource) (kind : InterruptKind) : Bool :=
  f.received[source.index][kind.index]

def put (f : InterruptFlags) (source : InterruptSource) (kind : InterruptKind) (flag : Bool) :
    InterruptFlags :=
  { f with received := f.received.set source.index (f.received[source.index].set kind.index flag) }

def record (f : InterruptFlags) (source : InterruptSource) (kind : InterruptKind) :
    InterruptFlags :=
  { f.put source kind true with interrupts := f.interrupts + 1 }

def take (f : InterruptFlags) (source : InterruptSource) (kind : InterruptKind) :
    Bool × InterruptFlags :=
  (f.isPending source kind, f.put source kind false)

/-- The sources with a pending error, in order. -/
def errors (f : InterruptFlags) : List InterruptSource :=
  InterruptSource.all.filter fun s => f.isPending s .error

def reset (f : InterruptFlags) : InterruptFlags := ⟨cleared, 0, f.resets + 1⟩

end InterruptFlags

end I3CHost
