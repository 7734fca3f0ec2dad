import I3CHost.Proofs.Bits

/-!
# Laws of the field codec

A field is a lens on a word, but for what its description may lose. A value keeps the bits that the
mask has room for once it is shifted up, so reading back what was stored gives the value cut to the
largest one. Storing what was read gives the word again unless masked bits lie below the low bit:
those are shifted out by the read and come back as zeros.

Low bit and mask are not required to match. The mask may have gaps or stand apart from the low bit,
and the low bit counts modulo 32. Every law is settled bit by bit, with the shift as a symbol; bit
`k` of a field's value is bit `shift + k` of its word.
-/
namespace I3CHost

theorem Word.bit_down (w : Word) (low : UInt8) (k : Nat) :
    (w.down low).bit k = w.bit (low.toNat % 32 + k) := by
  rw [bit, bit, down, UInt32.toNat_shiftRight, UInt8.toNat_toUInt32, Nat.testBit_shiftRight]

namespace Field

variable {f g : Field}

/-- How far the field is shifted. -/
def shift (f : Field) : Nat := f.low.toNat % 32

theorem bit_get (f : Field) (w : Word) (k : Nat) :
    (f.get w).bit k = (w.bit (f.shift + k) && f.mask.bit (f.shift + k)) := by
  rw [get, extract, Word.bit_down, Word.bit_and]
  rfl

theorem bit_maxValue (f : Field) (k : Nat) : f.maxValue.bit k = f.mask.bit (f.shift + k) := by
  rw [maxValue, bit_get, Bool.and_self]

/-- Inside the mask a word with the field replaced is the value, shifted up. -/
theorem bit_set_of_mask {k : Nat} (h : f.mask.bit k = true) (w v : Word) :
    (f.set w v).bit k = (decide (f.shift ≤ k) && v.bit (k - f.shift)) := by
  rw [bit_set, h, if_pos rfl, Nat.testBit_shiftLeft]
  rfl

theorem bit_set_of_not_mask {k : Nat} (h : f.mask.bit k = false) (w v : Word) :
    (f.set w v).bit k = w.bit k := by
  rw [bit_set, h, if_neg Bool.false_ne_true]

theorem get_set (f : Field) (w v : Word) : f.get (f.set w v) = v &&& f.maxValue := by
  apply Word.ext_bit
  intro k
  rw [bit_get, Word.bit_and, bit_maxValue]
  cases h : f.mask.bit (f.shift + k) with
  | false => rw [Bool.and_false, Bool.and_false]
  | true =>
      rw [bit_set_of_mask h, Nat.add_sub_cancel_left, decide_eq_true (Nat.le_add_right _ _),
        Bool.true_and]

theorem set_set (f : Field) (w a b : Word) : f.set (f.set w a) b = f.set w b := by
  apply Word.ext_bit
  intro k
  cases h : f.mask.bit k with
  | false => rw [bit_set_of_not_mask h, bit_set_of_not_mask h, bit_set_of_not_mask h]
  | true => rw [bit_set_of_mask h, bit_set_of_mask h]

/-- A read loses the masked bits below the shift, and nothing else. -/
theorem set_get_iff (f : Field) (w : Word) :
    f.set w (f.get w) = w ↔ ∀ k < f.shift, (w &&& f.mask).bit k = false := by
  constructor
  · intro h k hk
    rw [Word.bit_and]
    cases hm : f.mask.bit k with
    | false => exact Bool.and_false _
    | true =>
        have hbit := bit_set_of_mask hm w (f.get w)
        rw [h, decide_eq_false (Nat.not_le.mpr hk), Bool.false_and] at hbit
        rw [hbit, Bool.false_and]
  · intro h
    apply Word.ext_bit
    intro k
    cases hm : f.mask.bit k with
    | false => exact bit_set_of_not_mask hm _ _
    | true =>
        rw [bit_set_of_mask hm]
        rcases Nat.lt_or_ge k f.shift with hk | hk
        · have hbit := h k hk
          rw [Word.bit_and, hm, Bool.and_true] at hbit
          rw [hbit, decide_eq_false (Nat.not_le.mpr hk), Bool.false_and]
        · rw [bit_get, Nat.add_sub_cancel' hk, hm, decide_eq_true hk, Bool.true_and, Bool.and_true]

theorem get_le_maxValue (f : Field) (w : Word) : f.get w ≤ f.maxValue := by
  have hcut : f.get w &&& f.maxValue = f.get w := by
    apply Word.ext_bit
    intro k
    rw [Word.bit_and, bit_maxValue, bit_get, Bool.and_assoc, Bool.and_self]
  rw [UInt32.le_iff_toNat_le, ← hcut, UInt32.toNat_and]
  exact Nat.and_le_right

/-- No bit of the mask lies below the low bit, so a read loses nothing. -/
def Flush (f : Field) : Prop := ∀ k < f.shift, f.mask.bit k = false

instance (f : Field) : Decidable f.Flush := inferInstanceAs (Decidable (∀ k < _, _))

/-- To store what was read from another word is to merge that word. -/
theorem Flush.set_get (h : f.Flush) (u w : Word) : f.set u (f.get w) = u.merge w f.mask := by
  have hsame : f.set w (f.get w) = w := by
    rw [set_get_iff]
    intro k hk
    rw [Word.bit_and, h k hk, Bool.and_false]
  apply Word.ext_bit
  intro k
  rw [Word.bit_merge]
  cases hm : f.mask.bit k with
  | false => exact bit_set_of_not_mask hm u _
  | true => rw [bit_set_of_mask hm u, ← bit_set_of_mask hm w, hsame, if_pos rfl]

/-! ## Two fields of one word -/

/-- The masks have no bit in common. -/
def Apart (f g : Field) : Prop := f.mask &&& g.mask = 0

instance (f g : Field) : Decidable (f.Apart g) := inferInstanceAs (Decidable (_ = _))

theorem Apart.symm (h : f.Apart g) : g.Apart f := by
  rw [Apart, UInt32.and_comm]
  exact h

theorem Apart.not_mask (h : f.Apart g) {k : Nat} (hf : f.mask.bit k = true) :
    g.mask.bit k = false := by
  have hbit : (f.mask &&& g.mask : Word).bit k = (0 : Word).bit k := by rw [h]
  rwa [Word.bit_and, hf, Bool.true_and, Word.bit_zero] at hbit

/-- Storing one of the fields leaves the bits of the other. -/
theorem Apart.agreeOn (h : f.Apart g) (w v : Word) : Word.AgreeOn f.mask (g.set w v) w := by
  rw [Word.agreeOn_iff]
  intro k hk
  exact bit_set_of_not_mask (h.not_mask hk) w v

theorem Apart.get_set (h : f.Apart g) (w v : Word) : f.get (g.set w v) = f.get w :=
  Inside.get_eq UInt32.and_self (h.agreeOn w v)

theorem Apart.set_comm (h : f.Apart g) (w a b : Word) :
    f.set (g.set w b) a = g.set (f.set w a) b := by
  apply Word.ext_bit
  intro k
  cases hf : f.mask.bit k with
  | true =>
      have hg := h.not_mask hf
      rw [bit_set_of_mask hf, bit_set_of_not_mask hg, bit_set_of_mask hf]
  | false =>
      rw [bit_set_of_not_mask hf]
      cases hg : g.mask.bit k with
      | true => rw [bit_set_of_mask hg, bit_set_of_mask hg]
      | false => rw [bit_set_of_not_mask hg, bit_set_of_not_mask hg, bit_set_of_not_mask hf]

/-- What holds of every field, whether or not its mask is one run of bits that starts at its low
bit. -/
theorem codec_laws (f : Field) (w v a b : Word) :
    f.get (f.set w v) = v &&& f.maxValue ∧
      (∀ k, f.mask.bit k = false → (f.set w v).bit k = w.bit k) ∧
      f.set (f.set w a) b = f.set w b ∧
      (f.set w (f.get w) = w ↔ ∀ k < f.low.toNat % 32, (w &&& f.mask).bit k = false) ∧
      ∀ g : Field, f.mask &&& g.mask = 0 →
        f.set (g.set w b) a = g.set (f.set w a) b ∧ f.get (g.set w b) = f.get w := by
  refine ⟨get_set f w v, fun k hk => bit_set_of_not_mask hk w v, set_set f w a b,
    set_get_iff f w, fun g hg => ?_⟩
  have happart : f.Apart g := hg
  exact ⟨happart.set_comm w a b, happart.get_set w b⟩

/-- A mask with a gap, one bit of it below the low bit, which stands four past the word. -/
theorem codec_laws_sparse :
    let f : Field := ⟨0, 36, 0x0A4⟩
    let g : Field := ⟨0, 3, 0x058⟩
    f.maxValue = 0xA ∧ f.get (f.set 0x1FF 0xF) = 0xA ∧ f.set 0x1FF (f.get 0x1FF) = 0x1FB ∧
      f.set 0x1FF (f.get 0x1FF) ≠ 0x1FF ∧ f.mask &&& g.mask = 0 ∧
      f.set (g.set 0x1FF 0) 2 = g.set (f.set 0x1FF 2) 0 ∧ f.get (g.set 0x1FF 0) = f.get 0x1FF := by
  intro f g
  have hlaws := codec_laws f 0x1FF 0xF 2 0
  have hg : f.mask &&& g.mask = 0 := by decide
  have hlow : ¬ ∀ k < f.low.toNat % 32, ((0x1FF : Word) &&& f.mask).bit k = false := by decide
  exact ⟨by decide, hlaws.1.trans (by decide), by decide, fun h => hlow (hlaws.2.2.2.1.mp h), hg,
    hlaws.2.2.2.2 g hg⟩

end Field

end I3CHost
