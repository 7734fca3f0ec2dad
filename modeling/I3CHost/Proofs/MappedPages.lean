import I3CHost.Proofs.AcceptedTables
import I3CHost.Proofs.FileWords
import Mathlib

/-!
# The pages of a mapping

A window need not start where a page does. The mapping starts at the page of the base, so its length
is that of the window and of the bytes between the start of the page and the base. Pages are powers
of two, so to mask off the low bits of a base is to round it down, and what it loses is less than a
page.

A mapping covers its window if every word the window accepts ends inside the mapping. That is so for
every window that opened, because a length that is no address ends the opening. Over a regular file
the length is always an address, because the window ends where the file does or before; a device has
no length to compare with, and there a window that takes nearly the whole address space meets it.
-/
namespace I3CHost.Mapping

/-- A page has four bytes, or a larger power of two. -/
def IsPage (page : Address) : Prop := ∃ k, 2 ≤ k ∧ page.toNat = 2 ^ k

theorem isPage_pageSize : IsPage pageSize := ⟨12, by decide, rfl⟩

variable {page base size : Address}

/-! ## Rounding down to a page -/

namespace IsPage

theorem four_dvd (h : IsPage page) : 4 ∣ page.toNat := by
  obtain ⟨k, hk, hpage⟩ := h
  rw [hpage]
  exact Nat.pow_dvd_pow 2 hk

theorem toNat_pageBase (h : IsPage page) (base : Address) :
    (pageBase page base).toNat = base.toNat / page.toNat * page.toNat := by
  obtain ⟨k, -, hpage⟩ := h
  have hmask : (page - 1).toNat = 2 ^ k - 1 := by
    have hone : (1 : Address) ≤ page := by
      rw [UInt64.le_iff_toNat_le, hpage]
      exact Nat.one_le_two_pow
    rw [UInt64.toNat_sub_of_le _ _ hone, hpage]
    rfl
  apply Nat.eq_of_testBit_eq
  intro i
  have hnot : (~~~(page - 1)).toNat.testBit i = (decide (i < 64) && !decide (i < k)) := by
    have hbit := Nat.testBit_two_pow_sub_succ (page - 1).toNat_lt i
    rw [hmask, Nat.testBit_two_pow_sub_one] at hbit
    rw [UInt64.toNat_not, hmask, Nat.sub_sub, Nat.add_comm 1]
    exact hbit
  rw [pageBase, UInt64.toNat_and, Nat.testBit_and, hnot, hpage, Nat.testBit_mul_two_pow,
    Nat.testBit_div_two_pow]
  by_cases hi : k ≤ i
  · rw [Nat.sub_add_cancel hi]
    by_cases hlt : i < 64
    · simp [hi, hlt]
    · -- An address has no bit there.
      have hhigh : base.toNat.testBit i = false :=
        Nat.testBit_lt_two_pow
          (Nat.lt_of_lt_of_le base.toNat_lt (Nat.pow_le_pow_right (by decide) (Nat.not_lt.mp hlt)))
      simp [hhigh]
  · simp [hi, Nat.not_le.mp hi]

theorem toNat_skew (h : IsPage page) (base : Address) :
    (skew page base).toNat = base.toNat % page.toNat := by
  have hbase := h.toNat_pageBase base
  have hsplit := Nat.div_add_mod' base.toNat page.toNat
  have hle : pageBase page base ≤ base := by
    rw [UInt64.le_iff_toNat_le, hbase]
    exact Nat.div_mul_le_self _ _
  rw [skew, UInt64.toNat_sub_of_le _ _ hle, hbase]
  omega

theorem pageBase_add_skew (h : IsPage page) (base : Address) :
    (pageBase page base).toNat + (skew page base).toNat = base.toNat := by
  rw [h.toNat_pageBase, h.toNat_skew]
  exact Nat.div_add_mod' _ _

theorem pageBase_mod (h : IsPage page) (base : Address) :
    (pageBase page base).toNat % page.toNat = 0 := by
  rw [h.toNat_pageBase]
  exact Nat.mul_mod_left _ _

/-- A word of the file is a word of the mapping. -/
theorem skew_mod_four (h : IsPage page) (hbase : base.toNat % 4 = 0) :
    (skew page base).toNat % 4 = 0 := by
  rw [h.toNat_skew, Nat.mod_mod_of_dvd _ h.four_dvd]
  exact hbase

end IsPage

/-! ## The length of a mapping -/

/-- The mapping is as long as the window and what lies before it in its page. -/
def IsWhole (page base size : Address) : Prop :=
  ∃ length, mappedLength page base size = .ok length ∧
    length.toNat = (skew page base).toNat + size.toNat

theorem isWhole_of_mappedLength {length : Address} (h : mappedLength page base size = .ok length) :
    IsWhole page base size :=
  ⟨length, h, (Address.plus_eq_ok h).trans (Nat.add_comm _ _)⟩

theorem isWhole_iff :
    IsWhole page base size ↔ (skew page base).toNat + size.toNat < UInt64.size := by
  constructor
  · rintro ⟨length, -, hsum⟩
    exact hsum ▸ length.toNat_lt_size
  · intro h
    rw [Nat.add_comm] at h
    exact isWhole_of_mappedLength (Address.plus_of_lt h)

/-- Every word that the window accepts ends inside the mapping, and its distance from the start of
the mapping is an address. -/
def Covers (page base size : Address) : Prop :=
  ∃ length, mappedLength page base size = .ok length ∧ ∀ o, checkAccess o size = .ok () →
    ∃ a, Address.plus (skew page base) o = .ok a ∧ a.toNat + 4 ≤ length.toNat

theorem covers_of_isWhole (h : IsWhole page base size) : Covers page base size := by
  obtain ⟨length, hlength, hsum⟩ := h
  refine ⟨length, hlength, fun o ho => ?_⟩
  have hend := ((checkAccess_eq_ok_iff o size).mp ho).2
  have hlt := length.toNat_lt_size
  have hshifted : Address.plus (skew page base) o = .ok (skew page base + o) :=
    Address.plus_of_lt (by omega)
  refine ⟨_, hshifted, ?_⟩
  rw [Address.plus_eq_ok hshifted]
  omega

/-- The start of the page comes out of the base, so a window that ends below 2^64 is whole. -/
theorem isWhole_of_finish (h : IsPage page) (hend : base.toNat + size.toNat < UInt64.size) :
    IsWhole page base size := by
  have hsum := h.pageBase_add_skew base
  rw [isWhole_iff]
  omega

/-- A window that opened, over a file or over a device that tells no length, is covered by its
mapping: the length of the mapping is the exact sum, and no accepted word ends behind it. -/
theorem covers_of_opened {t : DeviceTree} {path : String} {mp : Mapping}
    (h : (openOn page t path base size).result = .ok mp) :
    (mp.base = base ∧ mp.size = size) ∧ IsWhole page base size ∧ Covers page base size := by
  obtain ⟨-, _, _, _, length, -, rfl, hlength, -⟩ := openOn_eq_ok h
  have hwhole := isWhole_of_mappedLength hlength
  exact ⟨⟨rfl, rfl⟩, hwhole, covers_of_isWhole hwhole⟩

/-! ## Windows of devices -/

section
variable {t : DeviceTree} {path : String} {place : Place}
  (hopen : t.open? path = .ok (place, .zeros))
  (hsize : (size == 0 || !size.isAligned) = false) (hbase : (!base.isAligned) = false)
include hopen hsize hbase

/-- A device of zeros opens for any window of words whose range is not refused. -/
theorem openOn_zeros {length : Address} (hlength : mappedLength page base size = .ok length)
    (hrange : rangeRefusal page length (pageBase page base) = none) :
    (openOn page t path base size).result = .ok ⟨path, base, size, .memory []⟩ := by
  simp only [openOn, Bind.bind, Logged.bind, Pure.pure, Logged.emit, Logged.ofExcept, hsize, hbase,
    hopen, hlength, hrange, Bool.false_eq_true, if_false]

/-- A device has no length to compare the end of the window with. If the length of the mapping is no
address, nothing is opened and nothing returned. -/
theorem openOn_overflow (hover : UInt64.size ≤ (skew page base).toNat + size.toNat) :
    (openOn page t path base size).result = .error (.panic .addOverflow) := by
  rw [Nat.add_comm] at hover
  have hlength : mappedLength page base size = .error (.panic .addOverflow) :=
    Address.plus_of_le hover
  simp only [openOn, Bind.bind, Logged.bind, Logged.emit, Logged.ofExcept, hsize, hbase, hopen,
    hlength, Bool.false_eq_true, if_false]

end

/-- The devices of a host, seen from their directory. -/
def devices : DeviceTree := { DeviceTree.host with workingDirectory := ["dev"] }

theorem open_devices : devices.open? "zero" = .ok (["dev", "zero"], .zeros) := by
  have hresolve : devices.resolve "zero" = .ok ["dev", "zero"] := by cbv
  rw [DeviceTree.open?, hresolve]
  rfl

/-- A window of all but the last word of the address space, eight bytes into a device. -/
example : (openAt devices "zero" 8 0xFFFFFFFFFFFFFFFC).result = .error (.panic .addOverflow) :=
  openOn_overflow open_devices (by decide) (by decide) (by decide)

/-- The base is four bytes past the start of a page. -/
theorem covers_of_opened_zeros :
    (openOn pageSize devices "zero" 4100 8192).result =
        .ok ⟨"zero", 4100, 8192, .memory []⟩ ∧
      mappedLength pageSize 4100 8192 = .ok 8196 ∧ Covers pageSize 4100 8192 := by
  have hlength : mappedLength pageSize 4100 8192 = .ok 8196 := by decide
  have hopen : (openOn pageSize devices "zero" 4100 8192).result =
      .ok ⟨"zero", 4100, 8192, .memory []⟩ :=
    openOn_zeros open_devices (by decide) (by decide) hlength (by decide)
  exact ⟨hopen, hlength, (covers_of_opened hopen).2.2⟩

end I3CHost.Mapping
