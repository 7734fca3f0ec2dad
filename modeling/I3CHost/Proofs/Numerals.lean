import I3CHost.Settings
import I3CHost.Text.Folded
import Mathlib

/-!
# Numbers in settings

The grammar of numbers is written down apart from the reader: a table of digit signs, numerals with
their positional value, one optional plus sign, and a mark that chooses between hexadecimal and
decimal. The reader goes from the left and stops as soon as the value is out of range. No later
digit can bring it back, since a longer numeral never has a smaller value, so what it accepts is
what has a value in range.
-/
namespace I3CHost

namespace Text

/-! ## The grammar -/

/-- The signs of the digits in lower case, each at the place of its value. -/
def lowerDigits : List Char := "0123456789abcdef".toList

/-- The signs of the digits in upper case, each at the place of its value. -/
def upperDigits : List Char := "0123456789ABCDEF".toList

/-- A character is the sign of a digit, in either letter case. -/
def IsDigit (radix : Nat) (c : Char) (d : Nat) : Prop :=
  d < radix ∧ (lowerDigits[d]? = some c ∨ upperDigits[d]? = some c)

/-- One or more digits, the most significant first, and the number they are the digits of. Zeros
may lead. -/
structure Numeral (radix : Nat) (cs : List Char) (n : Nat) : Prop where
  nonempty : cs ≠ []
  value : ∃ ds, List.Forall₂ (IsDigit radix) cs ds ∧ n = Nat.ofDigits radix ds.reverse

/-- A numeral with at most one plus sign before it. -/
def Quantity (radix : Nat) (cs : List Char) (n : Nat) : Prop :=
  Numeral radix cs n ∨ ∃ rest, cs = '+' :: rest ∧ Numeral radix rest n

/-- What a hexadecimal number starts with. -/
def hexMarks : List (List Char) := [['0', 'x'], ['0', 'X']]

/-- A text without blanks and underscores stands for a number. -/
inductive Denotes : List Char → Nat → Prop
  | hexadecimal {mark cs : List Char} {n : Nat} : mark ∈ hexMarks → Quantity 16 cs n →
      Denotes (mark ++ cs) n
  | decimal {cs : List Char} {n : Nat} : (∀ mark ∈ hexMarks, ¬ mark <+: cs) → Quantity 10 cs n →
      Denotes cs n

/-- `body` is what is left of `cs` when the blanks at both ends are taken away, and no others. -/
structure Stripped (cs body : List Char) : Prop where
  split : ∃ before after, cs = before ++ body ++ after ∧ ∀ c ∈ before ++ after, isBlank c
  head : ∀ c ∈ body.head?, ¬ isBlank c
  last : ∀ c ∈ body.getLast?, ¬ isBlank c

/-! ## Digits -/

variable {radix most acc n d : Nat} {c : Char} {cs : List Char} {fault : NumeralFault}

/-- A sign has its value in every radix with such a digit. -/
theorem digit?_eq_some_iff_sixteen (h : radix ≤ 16) :
    digit? radix c = some d ↔ d < radix ∧ digit? 16 c = some d := by
  simp only [digit?]
  generalize (if '0' ≤ c ∧ c ≤ '9' then _ else _ : Nat) = v
  split <;> split <;> simp <;> omega

theorem toNat_lt_of_digit? (h : digit? 16 c = some d) : c.toNat < 128 := by
  by_contra hge
  have hrange (x : Char) (hx : x.toNat < 128) : ¬ c ≤ x := fun hle => hge <|
    Nat.lt_of_le_of_lt (Char.le_def.mp hle) hx
  simp [digit?, hrange '9' (by decide), hrange 'f' (by decide), hrange 'F' (by decide)] at h

/-- All signs with their values. -/
def signs : List (Char × Nat) := lowerDigits.zipIdx ++ upperDigits.zipIdx

/-- What holds of all signs holds of the sign of a digit. -/
theorem IsDigit.of_signs {P : Char × Nat → Prop} (h : IsDigit radix c d)
    (hsigns : ∀ s ∈ signs, P s) : P (c, d) := by
  refine hsigns _ (List.mem_append.mpr ?_)
  simpa only [List.mk_mem_zipIdx_iff_getElem?] using h.2

/-- The reader of one digit knows the table of signs and nothing else. -/
theorem digit?_eq_some_iff (h : radix ≤ 16) : digit? radix c = some d ↔ IsDigit radix c d := by
  rw [digit?_eq_some_iff_sixteen h]
  constructor
  · rintro ⟨hlt, hd⟩
    have htable : ∀ k < 128, ∀ d ∈ digit? 16 (Char.ofNat k),
        lowerDigits[d]? = some (Char.ofNat k) ∨ upperDigits[d]? = some (Char.ofNat k) := by
      decide
    have := htable c.toNat (toNat_lt_of_digit? hd) d
    rw [Char.ofNat_toNat] at this
    exact ⟨hlt, this hd⟩
  · intro hdigit
    have htable : ∀ s ∈ signs, digit? 16 s.1 = some s.2 := by decide
    exact ⟨hdigit.1, hdigit.of_signs htable⟩

/-- The number that digits make of a number before them. -/
def extend (radix : Nat) : Nat → List Nat → Nat := List.foldl fun a d => a * radix + d

theorem extend_zero (radix : Nat) (ds : List Nat) :
    extend radix 0 ds = Nat.ofDigits radix ds.reverse := by
  rw [extend, Nat.ofDigits_eq_foldr, List.foldr_reverse]
  congr
  funext a d
  rw [Nat.cast_id, Nat.mul_comm, Nat.add_comm]

/-- More digits do not make a number smaller. -/
theorem le_extend (h : 0 < radix) (acc : Nat) (ds : List Nat) : acc ≤ extend radix acc ds := by
  induction ds generalizing acc with
  | nil => exact Nat.le_refl acc
  | cons d ds ih =>
      calc acc ≤ acc * radix := Nat.le_mul_of_pos_right acc h
        _ ≤ acc * radix + d := Nat.le_add_right _ d
        _ ≤ extend radix acc (d :: ds) := ih _

/-- Reading stops at a value out of range, and nothing in range is lost by it. -/
theorem digits_eq_ok_iff (hpos : 0 < radix) (h16 : radix ≤ 16) (hacc : acc ≤ most) :
    digits radix most fault acc cs = .ok n ↔
      (∃ ds, List.Forall₂ (IsDigit radix) cs ds ∧ n = extend radix acc ds) ∧ n ≤ most := by
  induction cs generalizing acc with
  | nil =>
      simp only [digits, List.forall₂_nil_left_iff, exists_eq_left, Except.ok.injEq]
      constructor
      · rintro rfl
        exact ⟨rfl, hacc⟩
      · rintro ⟨rfl, -⟩
        rfl
  | cons c cs ih =>
      rw [digits]
      cases hd : digit? radix c with
      | none =>
          refine iff_of_false (by simp) ?_
          rintro ⟨⟨ds, hds, -⟩, -⟩
          obtain ⟨d, -, hsign, -, -⟩ := List.forall₂_cons_left_iff.mp hds
          rw [← digit?_eq_some_iff h16, hd] at hsign
          cases hsign
      | some d =>
          have hsign := (digit?_eq_some_iff h16).mp hd
          have hcons : (∃ ds, List.Forall₂ (IsDigit radix) (c :: cs) ds ∧ n = extend radix acc ds) ↔
              ∃ ds, List.Forall₂ (IsDigit radix) cs ds ∧ n = extend radix (acc * radix + d) ds := by
            constructor
            · rintro ⟨ds, hds, rfl⟩
              obtain ⟨d', rest, hsign', hrest, rfl⟩ := List.forall₂_cons_left_iff.mp hds
              rw [← digit?_eq_some_iff h16, hd] at hsign'
              cases hsign'
              exact ⟨rest, hrest, rfl⟩
            · rintro ⟨rest, hrest, rfl⟩
              exact ⟨d :: rest, .cons hsign hrest, rfl⟩
          rw [hcons]
          by_cases hle : acc * radix + d ≤ most
          · simp only [if_pos hle]
            exact ih hle
          · simp only [if_neg hle]
            refine iff_of_false (by simp) ?_
            rintro ⟨⟨ds, -, rfl⟩, hmost⟩
            exact hle ((le_extend hpos _ ds).trans hmost)

theorem digits_eq_ok_iff_numeral (hpos : 0 < radix) (h16 : radix ≤ 16) (hne : cs ≠ []) :
    digits radix most fault 0 cs = .ok n ↔ Numeral radix cs n ∧ n ≤ most := by
  rw [digits_eq_ok_iff hpos h16 (Nat.zero_le most)]
  simp only [extend_zero]
  exact and_congr_left fun _ => ⟨fun h => ⟨hne, h⟩, fun h => h.value⟩

/-! ## Numbers with and without a mark -/

theorem not_numeral_plus {rest : List Char} (h16 : radix ≤ 16) :
    ¬ Numeral radix ('+' :: rest) n := by
  rintro ⟨-, ds, hds, -⟩
  obtain ⟨d, -, hsign, -⟩ := List.forall₂_cons_left_iff.mp hds
  rw [← digit?_eq_some_iff h16, digit?_eq_some_iff_sixteen h16] at hsign
  cases hsign.2

theorem unsigned_eq_ok_iff (hpos : 0 < radix) (h16 : radix ≤ 16) :
    unsigned radix most cs = .ok n ↔ Quantity radix cs n ∧ n ≤ most := by
  unfold unsigned Quantity
  split
  · refine iff_of_false (by simp) ?_
    rintro ⟨h | ⟨rest, h, -⟩, -⟩
    · exact h.nonempty rfl
    · cases h
  · refine iff_of_false (by simp) ?_
    rintro ⟨h | ⟨rest, h, hrest⟩, -⟩
    · exact not_numeral_plus h16 h
    · cases h
      exact hrest.nonempty rfl
  · next rest hne =>
    rw [digits_eq_ok_iff_numeral hpos h16 fun h => hne h]
    simp [not_numeral_plus h16]
  · next hnil _ hplus =>
    rw [digits_eq_ok_iff_numeral hpos h16 fun h => hnil h]
    refine and_congr_left fun _ => ⟨.inl, ?_⟩
    rintro (h | ⟨rest, rfl, -⟩)
    · exact h
    · exact absurd rfl (hplus rest)

theorem map_ofNat_eq_ok_iff {x : Except NumeralFault Nat} {P : Nat → Prop}
    (h : ∀ k, x = .ok k ↔ P k ∧ k ≤ UInt64.size - 1) (n : UInt64) :
    x.map UInt64.ofNat = .ok n ↔ P n.toNat := by
  constructor
  · intro hmap
    cases x with
    | error e => cases hmap
    | ok k =>
        obtain ⟨hk, hle⟩ := (h k).mp rfl
        have hlt : k < UInt64.size := Nat.lt_of_le_pred (by decide) hle
        cases hmap
        rwa [UInt64.toNat_ofNat_of_lt' hlt]
  · intro hn
    rw [(h n.toNat).mpr ⟨hn, Nat.le_pred_of_lt n.toNat_lt_size⟩, Except.map, UInt64.ofNat_toNat]

theorem denotes_marked {mark : List Char} (h : mark ∈ hexMarks) :
    Denotes (mark ++ cs) n ↔ Quantity 16 cs n := by
  have hlength : ∀ mark ∈ hexMarks, mark.length = 2 := by decide
  refine ⟨fun hn => ?_, .hexadecimal h⟩
  generalize ht : mark ++ cs = t at hn
  cases hn with
  | hexadecimal h' hn =>
      obtain ⟨-, rfl⟩ := List.append_inj ht ((hlength _ h).trans (hlength _ h').symm)
      exact hn
  | decimal hno _ => exact absurd ⟨cs, ht⟩ (hno mark h)

theorem denotes_unmarked (h : ∀ mark ∈ hexMarks, ¬ mark <+: cs) :
    Denotes cs n ↔ Quantity 10 cs n := by
  refine ⟨fun hn => ?_, .decimal h⟩
  cases hn with
  | hexadecimal h' _ => exact absurd (List.prefix_append _ _) (h _ h')
  | decimal _ hn => exact hn

/-- A bare text is read as the grammar says. -/
theorem bareNumber_eq_ok_iff (cs : List Char) (n : UInt64) :
    bareNumber cs = .ok n ↔ Denotes cs n.toNat := by
  have hhex (rest : List Char) :
      (unsigned 16 (UInt64.size - 1) rest).map UInt64.ofNat = .ok n ↔ Quantity 16 rest n.toNat :=
    map_ofNat_eq_ok_iff (fun k => unsigned_eq_ok_iff (by decide) (by decide)) n
  unfold bareNumber
  split
  · next rest =>
    have hmark : ['0', 'x'] ∈ hexMarks := by decide
    exact (hhex rest).trans (denotes_marked hmark).symm
  · next rest =>
    have hmark : ['0', 'X'] ∈ hexMarks := by decide
    exact (hhex rest).trans (denotes_marked hmark).symm
  · next hx hX =>
    rw [denotes_unmarked, size]
    · exact map_ofNat_eq_ok_iff (fun k => unsigned_eq_ok_iff (by decide) (by decide)) n
    · simp only [hexMarks, List.forall_mem_cons, List.not_mem_nil, false_implies, implies_true,
        and_true]
      exact ⟨fun ⟨rest, h⟩ => hx rest h.symm, fun ⟨rest, h⟩ => hX rest h.symm⟩

/-! ## Blanks at the ends -/

theorem dropWhile_blank {before rest : List Char} (h : ∀ c ∈ before, isBlank c)
    (hhead : ∀ c ∈ rest.head?, ¬ isBlank c) : (before ++ rest).dropWhile isBlank = rest := by
  rw [List.dropWhile_append_of_pos h]
  cases rest with
  | nil => rfl
  | cons c rest => exact List.dropWhile_cons_of_neg (hhead c rfl)

theorem head?_dropWhile_blank (xs : List Char) :
    ∀ c ∈ (xs.dropWhile isBlank).head?, ¬ isBlank c := by
  intro c hc
  have := List.head?_dropWhile_not isBlank xs
  rw [Option.mem_def.mp hc] at this
  simpa using this

theorem blank_of_mem_takeWhile {xs : List Char} {c : Char} (h : c ∈ xs.takeWhile isBlank) :
    isBlank c := List.all_eq_true.mp List.all_takeWhile c h

theorem stripped_trim (cs : List Char) : Stripped cs (trim cs) := by
  let rest := cs.dropWhile isBlank
  let after := (rest.reverse.takeWhile isBlank).reverse
  have hrest : trim cs ++ after = rest := by
    change (rest.reverse.dropWhile isBlank).reverse ++ (rest.reverse.takeWhile isBlank).reverse = _
    rw [← List.reverse_append, List.takeWhile_append_dropWhile, List.reverse_reverse]
  refine ⟨⟨cs.takeWhile isBlank, after, ?_, ?_⟩, fun c hc => ?_, fun c hc => ?_⟩
  · rw [List.append_assoc, hrest, List.takeWhile_append_dropWhile]
  · intro c hc
    rcases List.mem_append.mp hc with h | h
    · exact blank_of_mem_takeWhile h
    · exact blank_of_mem_takeWhile (List.mem_reverse.mp h)
  · refine head?_dropWhile_blank cs c ?_
    rw [show cs.dropWhile isBlank = trim cs ++ after from hrest.symm, List.head?_append,
      Option.mem_def.mp hc]
    rfl
  · rw [trim, List.getLast?_reverse] at hc
    exact head?_dropWhile_blank _ c hc

theorem Stripped.eq_trim {body : List Char} (h : Stripped cs body) : body = trim cs := by
  obtain ⟨⟨before, after, rfl, hblank⟩, hhead, hlast⟩ := h
  have hbefore : ∀ c ∈ before, isBlank c := fun c hc => hblank c (List.mem_append_left _ hc)
  have hafter : ∀ c ∈ after.reverse, isBlank c := fun c hc =>
    hblank c (List.mem_append_right _ (List.mem_reverse.mp hc))
  rw [trim, List.append_assoc]
  cases body with
  | nil =>
      rw [List.nil_append, ← List.append_nil (before ++ after), dropWhile_blank hblank (by simp)]
      rfl
  | cons c cs =>
      rw [dropWhile_blank hbefore (by simpa using hhead), List.reverse_append,
        dropWhile_blank hafter (by rwa [List.head?_reverse]), List.reverse_reverse]

/-! ## Written numbers -/

theorem IsDigit.not_blank (h : IsDigit radix c d) : ¬ isBlank c := by
  have htable : ∀ s ∈ signs, ¬ isBlank s.1 := by decide
  exact h.of_signs htable

theorem Numeral.exists_digit (h : Numeral radix cs n) (hc : c ∈ cs) : ∃ d, IsDigit radix c d := by
  obtain ⟨-, ds, hds, -⟩ := h
  obtain ⟨i, hi, rfl⟩ := List.getElem_of_mem hc
  exact ⟨_, hds.get hi (hds.length_eq ▸ hi)⟩

/-- The digits of a number are a numeral for it. -/
theorem numeral_toDigits (hradix : 1 < radix) (h16 : radix ≤ 16) (n : Nat) :
    Numeral radix (Nat.toDigits radix n) n := by
  have hsign (d : Nat) (hd : d < radix) : IsDigit radix (Nat.digitChar d) d := by
    have htable : ∀ d < 16, lowerDigits[d]? = some (Nat.digitChar d) := by decide
    exact ⟨hd, .inl (htable d (Nat.lt_of_lt_of_le hd h16))⟩
  induction n using Nat.strong_induction_on with
  | _ n ih =>
    rcases Nat.lt_or_ge n radix with hlt | hge
    · rw [Nat.toDigits_of_lt_base hlt]
      exact ⟨by simp, [n], .cons (hsign n hlt) .nil, by simp⟩
    · rw [Nat.toDigits_of_base_le hradix hge]
      have hmod := Nat.mod_lt n (Nat.zero_lt_of_lt hradix)
      obtain ⟨-, ds, hds, hvalue⟩ := ih (n / radix)
        (Nat.div_lt_self (Nat.lt_of_lt_of_le (Nat.zero_lt_of_lt hradix) hge) hradix)
      refine ⟨by simp, ds ++ [n % radix], List.rel_append hds (.cons (hsign _ hmod) .nil), ?_⟩
      rw [List.reverse_append, List.reverse_singleton, List.singleton_append, Nat.ofDigits_cons,
        ← hvalue]
      exact (Nat.mod_add_div n radix).symm

/-- A character is what it is folded to, or the upper case of that. -/
theorem fold_cases (c : Char) : c = fold c ∨ c = (fold c).toUpper := by
  by_cases h : c.isUpper
  · right
    rw [fold, Char.toUpper_toLower_eq_toUpper,
      Char.toUpper_eq_of_not_isLower (Char.not_isLower_of_isUpper h)]
  · exact .inl (Char.toLower_eq_of_not_isUpper h).symm

theorem IsDigit.of_fold (h : IsDigit radix (fold c) d) : IsDigit radix c d := by
  have htable : ∀ s ∈ signs, upperDigits[s.2]? = some s.1.toUpper := by decide
  rcases fold_cases c with hc | hc
  · rwa [hc]
  · rw [hc]
    exact ⟨h.1, .inr (h.of_signs htable)⟩

theorem Numeral.of_fold (h : Numeral radix (cs.map fold) n) : Numeral radix cs n := by
  obtain ⟨hne, ds, hds, hvalue⟩ := h
  exact ⟨fun h => hne (by rw [h]; rfl), ds,
    (List.forall₂_map_left_iff.mp hds).imp fun c d hd => hd.of_fold, hvalue⟩

/-- A decimal text has no mark, since no digit is written `x`. -/
theorem Numeral.unmarked (h : Numeral 10 cs n) : ∀ mark ∈ hexMarks, ¬ mark <+: cs := by
  intro mark hmark hstart
  have htable : ∀ mark ∈ hexMarks, mark.any fun c => (digit? 10 c).isNone := by decide
  obtain ⟨c, hc, hnone⟩ := List.any_eq_true.mp (htable mark hmark)
  obtain ⟨d, hd⟩ := h.exists_digit (hstart.subset hc)
  rw [(digit?_eq_some_iff (by decide)).mpr hd] at hnone
  cases hnone

theorem denotes_decimal (n : Nat) : Denotes (toString n).toList n := by
  have h : Numeral 10 (Nat.toDigits 10 n) n := numeral_toDigits (by decide) (by decide) n
  rw [Nat.toString_eq_repr, Nat.repr, String.toList_ofList]
  exact .decimal h.unmarked (.inl h)

/-- The marks are one mark in either case. -/
theorem mem_hexMarks_iff {mark : List Char} : mark ∈ hexMarks ↔ mark.map fold = ['0', 'x'] := by
  constructor
  · have htable : ∀ mark ∈ hexMarks, mark.map fold = ['0', 'x'] := by decide
    exact htable mark
  · intro h
    obtain ⟨a, rest, rfl, ha, hrest⟩ := List.map_eq_cons_iff.mp h
    obtain ⟨b, rest, rfl, hb, hnil⟩ := List.map_eq_cons_iff.mp hrest
    have hzero : a = '0' := by
      have := fold_cases a
      rw [ha] at this
      exact this.elim id id
    have hx : b = 'x' ∨ b = 'X' := by
      have := fold_cases b
      rwa [hb] at this
    rw [List.map_eq_nil_iff.mp hnil, hzero]
    rcases hx with rfl | rfl <;> decide

theorem denotes_hex (h : cs.map fold = (hex n).toList) : Denotes cs n := by
  have hmark : "0x".toList = ['0', 'x'] := rfl
  rw [hex, String.toList_append, hmark, String.toList_ofList] at h
  obtain ⟨mark, digits, rfl, hmark, hdigits⟩ := List.map_eq_append_iff.mp h
  have hnumeral : Numeral 16 (Nat.toDigits 16 n) n := numeral_toDigits (by decide) (by decide) n
  rw [show Nat.toDigits 16 n = hexDigits n from rfl, ← hdigits] at hnumeral
  exact .hexadecimal (mem_hexMarks_iff.mpr hmark) (.inl hnumeral.of_fold)

theorem Denotes.not_blank (h : Denotes cs n) : ∀ c ∈ cs, ¬ isBlank c := by
  have hquantity {radix : Nat} {cs : List Char} (h : Quantity radix cs n) :
      ∀ c ∈ cs, ¬ isBlank c := by
    have hnumeral {cs : List Char} (h : Numeral radix cs n) : ∀ c ∈ cs, ¬ isBlank c := by
      intro c hc
      obtain ⟨d, hd⟩ := h.exists_digit hc
      exact hd.not_blank
    rcases h with h | ⟨rest, rfl, h⟩
    · exact hnumeral h
    · exact List.forall_mem_cons.mpr ⟨by decide, hnumeral h⟩
  cases h with
  | @hexadecimal mark _ _ hmark h =>
      have htable : ∀ mark ∈ hexMarks, mark.all fun c => !isBlank c := by decide
      have hplain : ∀ c ∈ mark, ¬ isBlank c := by simpa using htable mark hmark
      exact List.forall_mem_append.mpr ⟨hplain, hquantity h⟩
  | decimal _ h => exact hquantity h

/-- Underscores and blanks at the ends do not change what a text stands for. -/
theorem stripped_of_denotes {before body after : List Char}
    (hblank : ∀ c ∈ before ++ after, isBlank c) (h : Denotes (body.filter (· ≠ '_')) n) :
    Stripped (before ++ body ++ after) body := by
  have hbody : ∀ c ∈ body, ¬ isBlank c := by
    intro c hc
    by_cases hunderscore : c = '_'
    · rw [hunderscore]
      decide
    · exact h.not_blank c (List.mem_filter.mpr ⟨hc, by simpa using hunderscore⟩)
  exact ⟨⟨before, after, rfl, hblank⟩, fun c hc => hbody c (List.mem_of_mem_head? hc),
    fun c hc => hbody c (List.mem_of_mem_getLast? hc)⟩

end Text

open Text

namespace Settings

theorem bare_eq {text : String} {body : List Char} (h : Stripped text.toList body) :
    bare text = body.filter (· ≠ '_') := by
  rw [bare, ← h.eq_trim]
  congr
  funext c
  simp [bne, Bool.beq_eq_decide_eq]

theorem number_eq_ok_iff {text : String} {body : List Char} (h : Stripped text.toList body)
    (n : UInt64) : number text = .ok n ↔ Denotes (body.filter (· ≠ '_')) n.toNat := by
  rw [← bare_eq h, ← bareNumber_eq_ok_iff, number]
  cases bareNumber (bare text) <;> simp

/-- A text that stands for no number is refused as such, and shown as it was read. -/
theorem number_eq_error_iff {text : String} {body : List Char} (h : Stripped text.toList body) :
    (∃ why, number text = .error (.invalidSettings
        (.notANumber (String.ofList (body.filter (· ≠ '_'))) why))) ↔
      ¬ ∃ n < UInt64.size, Denotes (body.filter (· ≠ '_')) n := by
  have hvalue : (∃ n < UInt64.size, Denotes (body.filter (· ≠ '_')) n) ↔
      ∃ n, number text = .ok n := by
    constructor
    · rintro ⟨n, hlt, hn⟩
      refine ⟨UInt64.ofNat n, (number_eq_ok_iff h _).mpr ?_⟩
      rwa [UInt64.toNat_ofNat_of_lt' hlt]
    · rintro ⟨n, hn⟩
      exact ⟨n.toNat, n.toNat_lt_size, (number_eq_ok_iff h n).mp hn⟩
  rw [hvalue, number, bare_eq h]
  cases bareNumber (body.filter (· ≠ '_')) <;> simp

/-- A text is a number exactly if the grammar gives what is left of it, without the blanks at its
ends and then without underscores, a value below `2 ^ 64`. Any other text is a fault of the
settings. What a number is printed as, in decimal or in hexadecimal of any letter case, is read back
as that number, whatever underscores are put into it and blanks around it. -/
theorem number_exact (text : String) :
    (∃ body, Stripped text.toList body ∧
      (∀ n : UInt64, number text = .ok n ↔ Denotes (body.filter (· ≠ '_')) n.toNat) ∧
      ((∃ why, number text = .error (.invalidSettings
          (.notANumber (String.ofList (body.filter (· ≠ '_'))) why))) ↔
        ¬ ∃ n < UInt64.size, Denotes (body.filter (· ≠ '_')) n)) ∧
    ∀ (n : UInt64) (before written after : List Char),
      text.toList = before ++ written ++ after → (∀ c ∈ before ++ after, isBlank c) →
      (written.filter (· ≠ '_') = (toString n.toNat).toList ∨
        (written.filter (· ≠ '_')).map fold = (hex n.toNat).toList) →
      number text = .ok n := by
  have hstripped := stripped_trim text.toList
  refine ⟨⟨_, hstripped, number_eq_ok_iff hstripped, number_eq_error_iff hstripped⟩, ?_⟩
  intro n before written after htext hblank hprinted
  have hdenotes : Denotes (written.filter (· ≠ '_')) n.toNat := by
    rcases hprinted with h | h
    · rw [h]
      exact denotes_decimal n.toNat
    · exact denotes_hex h
  refine (number_eq_ok_iff ?_ n).mpr hdenotes
  rw [htext]
  exact stripped_of_denotes hblank hdenotes

/-- The largest number in hexadecimal, between an em space and a line end. -/
theorem number_exact_largest :
    let text := "\u2003_0_Xffff_FFFF_ffff_FFFF_\n"
    text.toList = ['\u2003'] ++ "_0_Xffff_FFFF_ffff_FFFF_".toList ++ ['\n'] ∧
      (∀ c ∈ ['\u2003'] ++ ['\n'], isBlank c) ∧
      ("_0_Xffff_FFFF_ffff_FFFF_".toList.filter (· ≠ '_')).map fold =
        (hex (UInt64.toNat 0xFFFFFFFFFFFFFFFF)).toList ∧
      number text = .ok 0xFFFFFFFFFFFFFFFF := by
  intro text
  have htext : text.toList = ['\u2003'] ++ "_0_Xffff_FFFF_ffff_FFFF_".toList ++ ['\n'] := by
    decide
  have hblank : ∀ c ∈ ['\u2003'] ++ ['\n'], isBlank c := List.all_eq_true.mp (by decide)
  have hprinted : ("_0_Xffff_FFFF_ffff_FFFF_".toList.filter (· ≠ '_')).map fold =
      (hex (UInt64.toNat 0xFFFFFFFFFFFFFFFF)).toList := by
    decide
  exact ⟨htext, hblank, hprinted, (number_exact text).2 _ _ _ _ htext hblank (.inr hprinted)⟩

/-- Blanks are gone before underscores are, so one can remain between them; one more than the
largest number is too large, however many zeros lead it. -/
example : number " _ 5" = .error (.invalidSettings (.notANumber " 5" .badDigit)) ∧
    number "0__x+1F" = .ok 31 ∧
    number "0x+" = .error (.invalidSettings (.notANumber "0x+" .badDigit)) ∧
    number "__" = .error (.invalidSettings (.notANumber "" .empty)) ∧
    number "00018446744073709551616" =
      .error (.invalidSettings (.notANumber "00018446744073709551616" .tooLarge)) := by
  decide

end Settings

end I3CHost
