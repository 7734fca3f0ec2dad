/-!
# Byte addresses

Offsets, lengths and entry counts are 64-bit. `+` and `*` on them wrap; the operations here are the
ones that notice. `add?` and `mul?` return the exact sum or product, or nothing when it has no
64-bit form. `mulSat` stays at the largest address instead.
-/
namespace I3CHost

/-- A byte offset or a length in bytes. -/
abbrev Address := UInt64

namespace Address

/-- Bytes moved by one bus access. -/
def wordBytes : Address := 4

/-- The largest address. -/
def last : Address := 0xFFFFFFFFFFFFFFFF

/-- The exact sum, when it is an address. -/
def add? (a b : Address) : Option Address :=
  if a.toNat + b.toNat < UInt64.size then some (a + b) else none

/-- The exact product, when it is an address. -/
def mul? (a b : Address) : Option Address :=
  if a.toNat * b.toNat < UInt64.size then some (a * b) else none

/-- The sum, or the largest address if the sum is not an address. -/
def addSat (a b : Address) : Address := (add? a b).getD last

/-- The product, or the largest address if the product is not an address. -/
def mulSat (a b : Address) : Address := (mul? a b).getD last

/-- A word starts here. -/
def isAligned (a : Address) : Bool := a % wordBytes == 0

theorem add?_eq_some {a b c : Address} (h : add? a b = some c) :
    c.toNat = a.toNat + b.toNat := by
  unfold add? at h
  split at h
  · cases h
    rw [UInt64.toNat_add]
    exact Nat.mod_eq_of_lt (by assumption)
  · cases h

theorem mul?_eq_some {a b c : Address} (h : mul? a b = some c) :
    c.toNat = a.toNat * b.toNat := by
  unfold mul? at h
  split at h
  · cases h
    rw [UInt64.toNat_mul]
    exact Nat.mod_eq_of_lt (by assumption)
  · cases h

theorem add?_eq_none {a b : Address} : add? a b = none ↔ UInt64.size ≤ a.toNat + b.toNat := by
  unfold add?
  split <;> simp <;> omega

theorem mul?_eq_none {a b : Address} : mul? a b = none ↔ UInt64.size ≤ a.toNat * b.toNat := by
  unfold mul?
  split <;> simp <;> omega

end Address

end I3CHost
