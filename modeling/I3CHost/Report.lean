import I3CHost.Text.Radix
import I3CHost.Word

/-!
# Reports

A check compares a value read back with the value expected. A report is the list of checks in the
order they were made; passing and failing checks are kept alike.
-/
namespace I3CHost

open Text (hex)

/-- One comparison. -/
structure Check where
  name : String
  expected : Word
  actual : Word
deriving DecidableEq, Repr

namespace Check

def passed (c : Check) : Bool := c.expected == c.actual

def line (c : Check) : String :=
  if c.passed then s!"PASS  {c.name}: {hex c.actual.toNat}"
  else s!"FAIL  {c.name}: expected {hex c.expected.toNat}, got {hex c.actual.toNat}"

end Check

/-- The checks made so far. -/
structure Report where
  checks : List Check
deriving DecidableEq, Repr

namespace Report

def empty : Report := ⟨[]⟩

/-- One more check, at the end. -/
def add (r : Report) (c : Check) : Report := ⟨r.checks ++ [c]⟩

def failures (r : Report) : List Check := r.checks.filter fun c => !c.passed

def passed (r : Report) : Nat := r.checks.countP Check.passed

def failed (r : Report) : Nat := r.failures.length

def isSuccess (r : Report) : Bool := r.failed == 0

/-- A line for each check, then the totals. -/
def text (r : Report) : String :=
  String.join (r.checks.map fun c => c.line ++ "\n") ++ s!"{r.passed} passed, {r.failed} failed"

end Report

end I3CHost
