import I3CHost.Event

/-!
# Harness runs

The interrupt bookkeeping driven step by step, with one saved copy to compare with. Every step
answers with nothing or with a truth value, and logs what it recorded.
-/
namespace I3CHost

inductive HarnessStep where
  /-- The same interrupt several times. -/
  | interrupt (source : InterruptSource) (kind : InterruptKind) (times : Nat)
  | isPending (source : InterruptSource) (kind : InterruptKind)
  | take (source : InterruptSource) (kind : InterruptKind)
  | reset
  | save
  | equalsSaved
deriving DecidableEq, Repr

structure Harness where
  log : InterruptLog
  saved : InterruptLog
deriving DecidableEq, Repr

/-- What a step gave: an answer if there is one, and the events. -/
structure HarnessResult where
  answer : Option Bool
  events : List Event

namespace Harness

def fresh : Harness := ⟨.empty, .empty⟩

/-- Record one interrupt a number of times; the events come latest first. -/
def recordTimes (source : InterruptSource) (kind : InterruptKind) :
    Nat → InterruptLog → List Event → InterruptLog × List Event
  | 0, l, events => (l, events)
  | n + 1, l, events =>
    let next := l.record source kind
    recordTimes source kind n next (.interrupt source kind next.interrupts :: events)

def step (h : Harness) : HarnessStep → HarnessResult × Harness
  | .interrupt source kind times =>
    let (log, events) := recordTimes source kind times h.log []
    (⟨none, events.reverse⟩, { h with log })
  | .isPending source kind => (⟨some (h.log.isPending source kind), []⟩, h)
  | .take source kind =>
    let (was, log) := h.log.take source kind
    (⟨some was, []⟩, { h with log })
  | .reset =>
    let log := h.log.reset
    (⟨none, [.harnessReset log.resets]⟩, { h with log })
  | .save => (⟨none, []⟩, { h with saved := h.log })
  | .equalsSaved => (⟨some (h.log = h.saved), []⟩, h)

end Harness

end I3CHost
