import I3CHost.Entry.Packing
import I3CHost.Proofs.FieldLaws

/-!
# Packed entries

An entry is packed by storing its fields one after the other, and read field by field. If no bit of
the entry belongs to two fields, the order does not matter and each field reads back its own value,
cut to what the field holds. If moreover no field loses a bit when it is read, packing what was
read from some words gives these words again, without the bits that no field covers.

Both results are about any list of fields. For the fields of a given table there are only closed
facts left to check.
-/
namespace I3CHost.Entry

variable {n k : Nat} {f : Field} {v : Word} {fields : List Field} {values : List (Field × Word)}

/-- No bit of an entry belongs to two of the fields. -/
def Separate (fields : List Field) : Prop := fields.Pairwise fun f g => f.word = g.word → f.Apart g

instance (fields : List Field) : Decidable (Separate fields) :=
  inferInstanceAs (Decidable (fields.Pairwise _))

/-- The bits that belong to one of the fields, as if all were in one word. -/
def cover (fields : List Field) : Word := fields.foldr (fun f bits => f.mask ||| bits) 0

/-- The fields in word `k`. -/
def inWord (k : Nat) (fields : List Field) : List Field := fields.filter fun f => f.word.toNat = k

/-! ## One word -/

/-- Store values in one word. -/
def setAll (w : Word) (values : List (Field × Word)) : Word :=
  values.foldl (fun w v => v.1.set w v.2) w

theorem agreeOn_setAll (h : ∀ x ∈ values, f.Apart x.1) (w : Word) :
    Word.AgreeOn f.mask (setAll w values) w := by
  induction values generalizing w with
  | nil => exact Word.AgreeOn.refl _ _
  | cons x xs ih =>
      have hrest := ih (fun y hy => h y (List.mem_cons_of_mem x hy)) (x.1.set w x.2)
      exact hrest.trans ((h x List.mem_cons_self).agreeOn w x.2)

/-- Each of some fields that are apart reads back what was stored in it. -/
theorem get_setAll (hapart : values.Pairwise fun x y => x.1.Apart y.1) (hf : (f, v) ∈ values)
    (w : Word) : f.get (setAll w values) = v &&& f.maxValue := by
  induction values generalizing w with
  | nil => cases hf
  | cons x xs ih =>
      obtain ⟨hx, hxs⟩ := List.pairwise_cons.mp hapart
      rcases List.mem_cons.mp hf with rfl | hf
      · have hkept := agreeOn_setAll hx (f.set w v)
        exact (Field.Inside.get_eq UInt32.and_self hkept).trans (Field.get_set f w v)
      · exact ih hxs hf (x.1.set w x.2)

theorem bit_setAll (h : (cover (values.map Prod.fst)).bit k = false) (w : Word) :
    (setAll w values).bit k = w.bit k := by
  induction values generalizing w with
  | nil => rfl
  | cons x xs ih =>
      rw [List.map_cons, cover, List.foldr_cons, Word.bit_or, Bool.or_eq_false_iff] at h
      exact (ih h.2 (x.1.set w x.2)).trans (Field.bit_set_of_not_mask h.1 w x.2)

/-- To store fields of a word is to merge the word where the fields cover it. -/
theorem setAll_get (hflush : ∀ f ∈ fields, f.Flush) (u w : Word) :
    setAll u (fields.map fun f => (f, f.get w)) = u.merge w (cover fields) := by
  induction fields generalizing u with
  | nil => exact (Word.merge_none u w).symm
  | cons f fs ih =>
      have hrest := ih (fun g hg => hflush g (List.mem_cons_of_mem f hg)) (f.set u (f.get w))
      calc setAll u ((f :: fs).map fun f => (f, f.get w))
          = (f.set u (f.get w)).merge w (cover fs) := hrest
        _ = (u.merge w f.mask).merge w (cover fs) := by
          rw [(hflush f List.mem_cons_self).set_get]
        _ = u.merge w (cover (f :: fs)) := by
          rw [Word.merge_merge, Word.merge_self]
          rfl

/-! ## All words -/

theorem pick_le (words : Vector Word n) (f : Field) : pick words f ≤ f.maxValue :=
  f.get_le_maxValue _

/-- A field of at most eight bits fits an octet. -/
theorem octet_pick (h : f.maxValue ≤ 255) (words : Vector Word n) :
    (pick words f).toUInt8.toUInt32 = pick words f := by
  have hfits := UInt32.le_iff_toNat_le.mp (UInt32.le_trans (pick_le words f) h)
  rw [UInt32.toUInt32_toUInt8, ← UInt32.toNat_inj, UInt32.toNat_mod]
  exact Nat.mod_eq_of_lt (Nat.lt_succ_of_le hfits)

theorem flag_pick (h : f.maxValue = 1) (words : Vector Word n) :
    (pick words f != 0).toUInt32 = pick words f := by
  have hfits := UInt32.le_iff_toNat_le.mp (h ▸ pick_le words f)
  rcases Nat.le_one_iff_eq_zero_or_eq_one.mp hfits with hvalue | hvalue
  · rw [show pick words f = 0 from UInt32.toNat_inj.mp hvalue]
    rfl
  · rw [show pick words f = 1 from UInt32.toNat_inj.mp hvalue]
    rfl

theorem getElem_pack (values : List (Field × Word)) (hk : k < n) :
    (pack n values)[k] = setAll 0 (values.filter fun x => x.1.word.toNat = k) :=
  Vector.getElem_ofFn hk

theorem pick_eq_get (words : Vector Word n) (hf : f.word.toNat < n) :
    pick words f = f.get words[f.word.toNat] := by
  rw [pick, Vector.getElem?_eq_getElem hf, Option.getD_some]

theorem pick_pack (hsep : Separate (values.map Prod.fst)) (hf : (f, v) ∈ values)
    (hn : f.word.toNat < n) : pick (pack n values) f = v &&& f.maxValue := by
  rw [pick_eq_get _ hn, getElem_pack values hn]
  refine get_setAll ?_ (List.mem_filter.mpr ⟨hf, decide_eq_true rfl⟩) 0
  refine ((List.pairwise_map.mp hsep).filter _).imp_of_mem fun hx hy h => h ?_
  have hxword := of_decide_eq_true (List.mem_filter.mp hx).2
  have hyword := of_decide_eq_true (List.mem_filter.mp hy).2
  exact UInt8.toNat_inj.mp (hxword.trans hyword.symm)

section
variable {j : Nat} (hsep : Separate (values.map Prod.fst))
variable (hwords : ∀ f ∈ values.map Prod.fst, f.word.toNat < n)
include hsep hwords

theorem pick_of_value (h : values[j]? = some (f, v)) : pick (pack n values) f = v &&& f.maxValue :=
  have hmem := List.mem_of_getElem? h
  pick_pack hsep hmem (hwords f (List.mem_map_of_mem hmem))

/-- A member of some bits reads back cut to the room that its field has. -/
theorem octet_of_value {x room : UInt8} (h : values[j]? = some (f, x.toUInt32))
    (hroom : f.maxValue = room.toUInt32) : (pick (pack n values) f).toUInt8 = x &&& room := by
  rw [pick_of_value hsep hwords h, hroom, ← UInt8.toUInt32_and, UInt8.toUInt8_toUInt32]

theorem flag_of_value {x : Bool} (h : values[j]? = some (f, x.toUInt32)) (hroom : f.maxValue = 1) :
    (pick (pack n values) f != 0) = x := by
  rw [pick_of_value hsep hwords h, hroom]
  cases x <;> rfl

end

/-- The words of an entry without the bits that no field has. -/
def cleared (fields : List Field) (words : Vector Word n) : Vector Word n :=
  Vector.ofFn fun k => words[k] &&& cover (inWord k fields)

theorem getElem_cleared (fields : List Field) (words : Vector Word n) (hk : k < n) :
    (cleared fields words)[k] = words[k] &&& cover (inWord k fields) :=
  Vector.getElem_ofFn hk

/-- A packed entry is clear where no field is. -/
theorem cleared_pack (values : List (Field × Word)) :
    cleared (values.map Prod.fst) (pack n values) = pack n values := by
  apply Vector.ext
  intro k hk
  rw [getElem_cleared _ _ hk, getElem_pack values hk, inWord, List.filter_map]
  apply Word.ext_bit
  intro b
  rw [Word.bit_and]
  cases hb : (cover ((values.filter fun x => x.1.word.toNat = k).map Prod.fst)).bit b with
  | true => exact (congrArg _ hb).trans (Bool.and_true _)
  | false => rw [bit_setAll hb, Word.bit_zero, Bool.false_and]

/-- An entry packed from the fields of some words is these words, where they are covered. -/
theorem pack_pick (hflush : ∀ f ∈ fields, f.Flush) (words : Vector Word n) :
    pack n (fields.map fun f => (f, pick words f)) = cleared fields words := by
  apply Vector.ext
  intro k hk
  have hpicks : (inWord k fields).map (fun f => (f, pick words f)) =
      (inWord k fields).map fun f => (f, f.get words[k]) := by
    apply List.map_congr_left
    intro f hf
    have hword : f.word.toNat = k := of_decide_eq_true (List.mem_filter.mp hf).2
    subst hword
    rw [pick_eq_get words hk]
  have hinside : ∀ f ∈ inWord k fields, f.Flush := fun f hf => hflush f (List.mem_filter.mp hf).1
  calc (pack n (fields.map fun f => (f, pick words f)))[k]
      = setAll 0 ((inWord k fields).map fun f => (f, pick words f)) := by
        rw [getElem_pack _ hk, List.filter_map]
        rfl
    _ = (0 : Word).merge words[k] (cover (inWord k fields)) := by
        rw [hpicks, setAll_get hinside]
    _ = words[k] &&& cover (inWord k fields) := by
        rw [Word.merge, UInt32.zero_and, UInt32.zero_or]
    _ = (cleared fields words)[k] := (getElem_cleared fields words hk).symm

end I3CHost.Entry
