import I3CHost.Proofs.Reach

/-!
# Exact offsets

Where an entry starts, how long a table is and where it ends are products and sums, computed in 64
bits. Each is the plain number where that number is an address and nothing where it is not, with one
exception. The length of an entry alone does not fail: it stays at the largest address, and what is
multiplied is then a factor that is too small. Times 0 it makes no difference, and times 2 or more
the product overflows all the same. Times 1 it is the largest address that passes for the length of
an entry that has none.
-/
namespace I3CHost

namespace Address

/-- A plain number, if it is an address. -/
def plain? (n : Nat) : Option Nat := if n < UInt64.size then some n else none

theorem plain?_of_lt {n : Nat} (h : n < UInt64.size) : plain? n = some n := if_pos h

theorem plain?_of_le {n : Nat} (h : UInt64.size ≤ n) : plain? n = none := if_neg (Nat.not_lt.mpr h)

theorem map_eq_plain? {r : Option Address} {n : Nat} (hsome : ∀ c, r = some c → c.toNat = n)
    (hnone : r = none → UInt64.size ≤ n) : r.map UInt64.toNat = plain? n := by
  cases r with
  | none => exact (plain?_of_le (hnone rfl)).symm
  | some c =>
      rw [← hsome c rfl, plain?_of_lt c.toNat_lt_size]
      rfl

theorem map_mul? (a b : Address) : (mul? a b).map UInt64.toNat = plain? (a.toNat * b.toNat) :=
  map_eq_plain? (fun _ => mul?_eq_some) mul?_eq_none.mp

theorem map_add? (a b : Address) : (add? a b).map UInt64.toNat = plain? (a.toNat + b.toNat) :=
  map_eq_plain? (fun _ => add?_eq_some) add?_eq_none.mp

/-- A sum with something that has no address has none. -/
theorem map_bind_add? {r : Option Address} {n : Nat} (h : r.map UInt64.toNat = plain? n)
    (a : Address) : (r.bind (add? a)).map UInt64.toNat = plain? (a.toNat + n) := by
  rcases Nat.lt_or_ge n UInt64.size with hlt | hge
  · rw [plain?_of_lt hlt] at h
    obtain ⟨b, rfl, rfl⟩ := Option.map_eq_some_iff.mp h
    exact map_add? a b
  · rw [plain?_of_le hge] at h
    rw [Option.map_eq_none_iff.mp h, plain?_of_le (by omega)]
    rfl

end Address

namespace TableLayout

open Address

/-- An entry is as long as the address space or longer. -/
def Endless (l : TableLayout) : Prop := UInt64.size ≤ 4 * l.entryWords.toNat

instance (l : TableLayout) : Decidable l.Endless := inferInstanceAs (Decidable (_ ≤ _))

/-- A number of endless entries is exact if it is not 1, whether they are counted in full or up to
the largest address: none of them takes nothing, and two of them have no length either way. -/
theorem plain?_endless {l : TableLayout} (h : l.Endless) {count : Nat} (hone : count ≠ 1) :
    plain? (count * (UInt64.size - 1)) = plain? (count * l.entryWords.toNat * 4) := by
  rcases Nat.eq_zero_or_pos count with rfl | hpos
  · rw [Nat.zero_mul, Nat.zero_mul]
  · have hcut : 2 * (UInt64.size - 1) ≤ count * (UInt64.size - 1) :=
      Nat.mul_le_mul_right _ (by omega)
    have hfull : 2 * l.entryWords.toNat ≤ count * l.entryWords.toNat :=
      Nat.mul_le_mul_right _ (by omega)
    have htwo : UInt64.size ≤ 2 * (UInt64.size - 1) := by decide
    have hwords : UInt64.size ≤ 4 * l.entryWords.toNat := h
    rw [plain?_of_le (Nat.le_trans htwo hcut), plain?_of_le (by omega)]

/-- The length of a number of entries is exact, but one endless entry is said to reach up to the
largest address. -/
theorem map_mul?_entryBytes (l : TableLayout) (count : UInt64) :
    (mul? count l.entryBytes).map UInt64.toNat =
      if l.Endless ∧ count = 1 then some (UInt64.size - 1)
      else plain? (count.toNat * l.entryWords.toNat * 4) := by
  rw [map_mul?]
  by_cases hendless : l.Endless
  · rw [l.entryBytes_eq.2 hendless]
    by_cases hone : count = 1
    · rw [if_pos ⟨hendless, hone⟩, hone, UInt64.toNat_one, Nat.one_mul]
      exact plain?_of_lt (by decide)
    · rw [if_neg fun h => hone h.2]
      exact plain?_endless hendless fun h => hone (UInt64.toNat_inj.mp h)
  · rw [if_neg fun h => hendless h.1, l.entryBytes_eq.1 (Nat.lt_of_not_le hendless),
      Nat.mul_comm 4, Nat.mul_assoc]

/-- The end of a table is exact, but for one endless entry at the start of the window. Anywhere else
an offset is added to the largest address, and the table has no end. -/
theorem map_finish? (l : TableLayout) :
    l.finish?.map UInt64.toNat =
      if l.Endless ∧ l.capacity = 1 ∧ l.offset = 0 then some (UInt64.size - 1)
      else plain? (l.offset.toNat + l.capacity.toNat * l.entryWords.toNat * 4) := by
  have hspan : l.span?.map UInt64.toNat = _ := l.map_mul?_entryBytes l.capacity
  by_cases hone : l.Endless ∧ l.capacity = 1
  · obtain ⟨hendless, hcapacity⟩ := hone
    have hlast : plain? (UInt64.size - 1) = some (UInt64.size - 1) := plain?_of_lt (by decide)
    rw [if_pos ⟨hendless, hcapacity⟩, ← hlast] at hspan
    have hfinish : l.finish?.map UInt64.toNat = plain? (l.offset.toNat + (UInt64.size - 1)) :=
      map_bind_add? hspan l.offset
    rw [hfinish]
    by_cases hzero : l.offset = 0
    · rw [if_pos ⟨hendless, hcapacity, hzero⟩, hzero, UInt64.toNat_zero, Nat.zero_add, hlast]
    · have hpos : l.offset.toNat ≠ 0 := fun h => hzero (UInt64.toNat_inj.mp h)
      have hwords : UInt64.size ≤ 4 * l.entryWords.toNat := hendless
      rw [if_neg fun h => hzero h.2.2, hcapacity, UInt64.toNat_one, Nat.one_mul,
        plain?_of_le (by omega), plain?_of_le (by omega)]
  · rw [if_neg hone] at hspan
    rw [if_neg fun h => hone ⟨h.1, h.2.1⟩]
    exact map_bind_add? hspan l.offset

/-- The largest address is no exact length of an endless entry, which has none. -/
theorem ite_plain?_iff {P : Prop} [Decidable P] {n : Nat} (h : P → UInt64.size ≤ n) :
    (if P then some (UInt64.size - 1) else plain? n) = plain? n ↔ ¬ P := by
  by_cases hP : P
  · rw [if_pos hP, plain?_of_le (h hP)]
    exact iff_of_false (by simp) (not_not_intro hP)
  · rw [if_neg hP]
    exact iff_of_true rfl hP

/-- The place of an entry, the length of a table and its end are the plain numbers if these are
addresses and nothing if they are not, for every layout and every index, unless it is one entry that
counts and this entry is endless. For the end the table has to start at 0 as well. -/
theorem offsets_exact_iff (l : TableLayout) (index : UInt64) :
    ((l.entryOffset? index).map UInt64.toNat = plain? (index.toNat * l.entryWords.toNat * 4) ↔
      ¬ (l.Endless ∧ index = 1)) ∧
    (l.span?.map UInt64.toNat = plain? (l.capacity.toNat * l.entryWords.toNat * 4) ↔
      ¬ (l.Endless ∧ l.capacity = 1)) ∧
    (l.finish?.map UInt64.toNat =
        plain? (l.offset.toNat + l.capacity.toNat * l.entryWords.toNat * 4) ↔
      ¬ (l.Endless ∧ l.capacity = 1 ∧ l.offset = 0)) := by
  have hpast {count : UInt64} (h : l.Endless ∧ count = 1) :
      UInt64.size ≤ count.toNat * l.entryWords.toNat * 4 := by
    have hwords : UInt64.size ≤ 4 * l.entryWords.toNat := h.1
    rw [h.2, UInt64.toNat_one, Nat.one_mul]
    omega
  refine ⟨?_, ?_, ?_⟩
  · rw [entryOffset?, l.map_mul?_entryBytes index]
    exact ite_plain?_iff hpast
  · rw [span?, l.map_mul?_entryBytes l.capacity]
    exact ite_plain?_iff hpast
  · rw [l.map_finish?]
    exact ite_plain?_iff fun h => Nat.le_trans (hpast ⟨h.1, h.2.1⟩) (Nat.le_add_left _ _)

/-- One entry of 2 ^ 62 words is as long as the address space. It is said to end one byte before,
so the entry after it has a place and its table an end. -/
theorem endless_entry_ends :
    let l : TableLayout := ⟨.dat, 0, 0x4000000000000000, 1⟩
    UInt64.size ≤ 1 * l.entryWords.toNat * 4 ∧ l.entryOffset? 1 = some Address.last ∧
      l.span? = some Address.last ∧ l.finish? = some Address.last := by
  decide

/-- Two such entries overflow, and so does one that starts behind byte 0. -/
example : TableLayout.finish? ⟨.dat, 0, 0x4000000000000000, 2⟩ = none ∧
    TableLayout.finish? ⟨.dat, 1, 0x4000000000000000, 1⟩ = none := by
  decide

end TableLayout

end I3CHost
