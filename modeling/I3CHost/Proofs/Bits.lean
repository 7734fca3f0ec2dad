import I3CHost.Field

/-!
# Words bit by bit

A merge takes each bit from one of two words, so everything the field codec does is settled one bit
at a time. `bit` reads a bit, `ext_bit` puts a word together again, and the lemmas between them say
where each bit of a result comes from. Shift distances are counted modulo 32 here as well; shifts
of natural numbers stand on the right-hand sides, so no lemma hides a lost bit.

Two words agree on a mask if they are equal inside it. That is what remains of equality when only
some bits of a word can be written.
-/
namespace I3CHost

namespace Word

/-- Bit `b` of a word. From bit 32 on there is nothing. -/
def bit (w : Word) (b : Nat) : Bool := w.toNat.testBit b

theorem bit_of_le (w : Word) {b : Nat} (hb : 32 ≤ b) : w.bit b = false := by
  apply Nat.testBit_lt_two_pow
  exact Nat.lt_of_lt_of_le w.toNat_lt (Nat.pow_le_pow_right (by decide) hb)

theorem lt_of_bit {w : Word} {b : Nat} (h : w.bit b = true) : b < 32 := by
  apply Nat.lt_of_not_le
  intro hb
  rw [bit_of_le w hb] at h
  cases h

theorem ext_bit {w v : Word} (h : ∀ b, w.bit b = v.bit b) : w = v :=
  UInt32.toNat_inj.mp (Nat.eq_of_testBit_eq h)

@[simp] theorem bit_zero (b : Nat) : (0 : Word).bit b = false := Nat.zero_testBit b

@[simp] theorem bit_and (w v : Word) (b : Nat) : (w &&& v : Word).bit b = (w.bit b && v.bit b) := by
  simp only [bit, UInt32.toNat_and, Nat.testBit_and]

@[simp] theorem bit_or (w v : Word) (b : Nat) : (w ||| v : Word).bit b = (w.bit b || v.bit b) := by
  simp only [bit, UInt32.toNat_or, Nat.testBit_or]

theorem bit_not (w : Word) {b : Nat} (hb : b < 32) : (~~~w : Word).bit b = !w.bit b := by
  have h := Nat.testBit_two_pow_sub_succ w.toNat_lt b
  rw [decide_eq_true hb, Bool.true_and] at h
  rw [bit, bit, UInt32.toNat_not, Nat.sub_sub, Nat.add_comm 1]
  exact h

theorem bit_up (w : Word) (low : UInt8) {b : Nat} (hb : b < 32) :
    (w.up low).bit b = (w.toNat <<< (low.toNat % 32)).testBit b := by
  simp only [bit, up, UInt32.toNat_shiftLeft, UInt8.toNat_toUInt32, Nat.testBit_mod_two_pow, hb,
    decide_true, Bool.true_and]

/-- Inside the mask a merge is the new word, outside it is the old one. -/
theorem bit_merge (old new mask : Word) (b : Nat) :
    (old.merge new mask).bit b = if mask.bit b then new.bit b else old.bit b := by
  by_cases hb : b < 32
  · simp only [merge, bit_or, bit_and, bit_not mask hb]
    cases mask.bit b <;> simp
  · have hb : 32 ≤ b := by omega
    simp only [bit_of_le _ hb, Bool.false_eq_true, if_false]

/-! ## Agreement on a mask -/

/-- Equal inside a mask. -/
def AgreeOn (mask w v : Word) : Prop := w &&& mask = v &&& mask

instance (mask w v : Word) : Decidable (AgreeOn mask w v) := inferInstanceAs (Decidable (_ = _))

theorem agreeOn_iff {mask w v : Word} :
    AgreeOn mask w v ↔ ∀ b, mask.bit b = true → w.bit b = v.bit b := by
  constructor
  · intro h b hb
    have hbit : (w &&& mask : Word).bit b = (v &&& mask : Word).bit b := by rw [h]
    simpa only [bit_and, hb, Bool.and_true] using hbit
  · intro h
    apply ext_bit
    intro b
    rw [bit_and, bit_and]
    cases hb : mask.bit b with
    | false => simp only [Bool.and_false]
    | true => rw [h b hb]

theorem AgreeOn.refl (mask w : Word) : AgreeOn mask w w := rfl

/-- Merging the same way into words that agree keeps the agreement. -/
theorem AgreeOn.merge {mask w v : Word} (h : AgreeOn mask w v) (new inside : Word) :
    AgreeOn mask (w.merge new inside) (v.merge new inside) := by
  rw [agreeOn_iff] at h ⊢
  intro b hb
  rw [bit_merge, bit_merge, h b hb]

/-- A merge is the new word where it was let in. -/
theorem agreeOn_merge (mask old new : Word) : AgreeOn mask (old.merge new mask) new := by
  rw [agreeOn_iff]
  intro b hb
  rw [bit_merge, hb, if_pos rfl]

/-- A merge is known if the new word is known inside the mask and the old one outside it. -/
theorem merge_eq {old new mask w : Word} (hin : AgreeOn mask new w)
    (hout : AgreeOn (~~~mask) old w) : old.merge new mask = w := by
  rw [agreeOn_iff] at hin hout
  apply ext_bit
  intro b
  rw [bit_merge]
  split
  · next hb => exact hin b hb
  · next hb =>
    by_cases h32 : b < 32
    · refine hout b ?_
      rw [bit_not mask h32, eq_false_of_ne_true hb]
      rfl
    · rw [bit_of_le _ (Nat.le_of_not_lt h32), bit_of_le _ (Nat.le_of_not_lt h32)]

@[simp] theorem and_ones (w : Word) : w &&& ones = w := UInt32.and_neg_one

@[simp] theorem ones_and (w : Word) : ones &&& w = w := UInt32.neg_one_and

theorem merge_self (w mask : Word) : w.merge w mask = w := merge_eq rfl rfl

theorem merge_none (w v : Word) : w.merge v 0 = w :=
  merge_eq (by simp only [AgreeOn, UInt32.and_zero]) rfl

theorem merge_ones (w v : Word) : w.merge v ones = v :=
  merge_eq rfl (by simp only [AgreeOn, show ~~~ones = 0 from rfl, UInt32.and_zero])

/-- To set the bits of a mask is to merge it into itself. -/
theorem merge_mask (w mask : Word) : w.merge mask mask = w ||| mask := by
  apply ext_bit
  intro b
  rw [bit_merge, bit_or]
  cases mask.bit b <;> simp

/-- Two merges are one, of what the later one leaves of the earlier. -/
theorem merge_merge (w v v' mask mask' : Word) :
    (w.merge v mask).merge v' mask' = w.merge (v.merge v' mask') (mask ||| mask') := by
  apply ext_bit
  intro b
  simp only [bit_merge, bit_or]
  cases mask.bit b <;> cases mask'.bit b <;> rfl

/-- A merge let in through a second mask. -/
theorem merge_through (w v mask mask' : Word) :
    w.merge (w.merge v mask) mask' = w.merge v (mask &&& mask') := by
  apply ext_bit
  intro b
  simp only [bit_merge, bit_and]
  cases mask.bit b <;> cases mask'.bit b <;> rfl

end Word

/-! ## Fields -/

namespace Field

/-- Where each bit of an updated word comes from. -/
theorem bit_set (f : Field) (w value : Word) (b : Nat) :
    (f.set w value).bit b =
      if f.mask.bit b then (value.toNat <<< (f.low.toNat % 32)).testBit b else w.bit b := by
  rw [set, inject, Word.bit_merge]
  split
  next hm => exact Word.bit_up value f.low (Word.lt_of_bit hm)
  next => rfl

/-- The mask has no bit outside `mask`. -/
def Inside (f : Field) (mask : Word) : Prop := f.mask &&& mask = f.mask

theorem Inside.bit {f : Field} {mask : Word} (h : f.Inside mask) {b : Nat}
    (hb : f.mask.bit b = true) : mask.bit b = true := by
  have hm : (f.mask &&& mask : Word).bit b = f.mask.bit b := by rw [h]
  simpa only [Word.bit_and, hb, Bool.true_and] using hm

/-- A field whose bits all lie where two words agree has one value in both. -/
theorem Inside.get_eq {f : Field} {mask w v : Word} (h : f.Inside mask)
    (hw : Word.AgreeOn mask w v) : f.get w = f.get v := by
  have hf : w &&& f.mask = v &&& f.mask := by
    change Word.AgreeOn f.mask w v
    rw [Word.agreeOn_iff] at hw ⊢
    exact fun b hb => hw b (h.bit hb)
  rw [get, get, extract, extract, hf]

end Field

end I3CHost
