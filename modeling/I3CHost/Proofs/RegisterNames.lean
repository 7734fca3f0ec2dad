import I3CHost.CommandLine.Printout
import I3CHost.Proofs.Numerals

/-!
# Registers by name or number

A register is asked for by a name or by its offset, and a text is one or the other but never both.
A name starts with a letter; what is left of a number after its blanks and underscores are gone
starts with a digit or a plus sign. So it does not matter which is tried first. No two names are the
same up to letter case, and therefore the first name found is the only one. Letter case does not
matter for numbers either: the signs of digits and the mark before hexadecimal digits are the only
letters in them, and both are read in either case.
-/
namespace I3CHost

namespace Text

/-! ## Letter case -/

/-- The letters that have a case, with their lower case. -/
def letters : List (Char × Char) :=
  "ABCDEFGHIJKLMNOPQRSTUVWXYZ".toList.zip "abcdefghijklmnopqrstuvwxyz".toList

/-- The same character, or the two cases of one letter. -/
def SameLetter (c d : Char) : Prop := c = d ∨ (c, d) ∈ letters ∨ (d, c) ∈ letters

/-- Two texts that differ in the case of letters at most. -/
def SameText (s t : String) : Prop := List.Forall₂ SameLetter s.toList t.toList

/-- A letter in either case. -/
def IsLetter (c : Char) : Prop := fold c ∈ letters.map Prod.snd

instance (c : Char) : Decidable (IsLetter c) := inferInstanceAs (Decidable (_ ∈ _))

variable {c d : Char} {cs ds : List Char} {radix n : Nat} {s t : String}

theorem fold_eq_or_mem (c : Char) : fold c = c ∨ (c, fold c) ∈ letters := by
  by_cases hupper : c.isUpper
  · right
    have htable : ∀ k < 128, (Char.ofNat k).isUpper →
        (Char.ofNat k, fold (Char.ofNat k)) ∈ letters := by
      decide
    have hle : c.toNat ≤ 'Z'.toNat := (of_decide_eq_true hupper).2
    have := htable c.toNat (Nat.lt_of_le_of_lt hle (by decide))
    rw [Char.ofNat_toNat] at this
    exact this hupper
  · exact .inl (Char.toLower_eq_of_not_isUpper hupper)

theorem fold_of_mem_letters : ∀ p ∈ letters, fold p.1 = p.2 ∧ fold p.2 = p.2 := by
  decide

/-- What both cases of every letter share does not change when a character is folded. -/
theorem fold_congr (P : Char → Bool) (h : ∀ p ∈ letters, P p.2 = P p.1) : P ∘ fold = P := by
  funext c
  rcases fold_eq_or_mem c with hc | hc
  · exact congrArg P hc
  · exact h _ hc

theorem fold_eq_fold_iff : fold c = fold d ↔ SameLetter c d := by
  have hupper : ∀ p ∈ letters, ∀ q ∈ letters, p.2 = q.2 → p.1 = q.1 := by
    decide
  constructor
  · intro h
    rcases fold_eq_or_mem c with hc | hc <;> rcases fold_eq_or_mem d with hd | hd
    · exact .inl (by rw [← hc, h, hd])
    · rw [← h, hc] at hd
      exact .inr (.inr hd)
    · rw [h, hd] at hc
      exact .inr (.inl hc)
    · exact .inl (hupper _ hc _ hd h)
  · rintro (rfl | h | h)
    · rfl
    · rw [(fold_of_mem_letters _ h).1, (fold_of_mem_letters _ h).2]
    · rw [(fold_of_mem_letters _ h).1, (fold_of_mem_letters _ h).2]

/-- What holds of both cases of every letter holds of a letter. -/
theorem IsLetter.of_letters {P : Char → Prop} (h : IsLetter c)
    (hP : ∀ p ∈ letters, P p.1 ∧ P p.2) : P c := by
  rcases fold_eq_or_mem c with hc | hc
  · obtain ⟨p, hp, hlower⟩ := List.mem_map.mp h
    rw [← hc, ← hlower]
    exact (hP p hp).2
  · exact (hP _ hc).1

/-- A character that is no letter is the only one that is folded as it is. -/
theorem eq_of_fold_eq (hd : ¬ IsLetter d) (h : fold c = fold d) : c = d := by
  rcases fold_eq_fold_iff.mp h with rfl | hc | hc
  · rfl
  · refine absurd ?_ hd
    rw [IsLetter, (fold_of_mem_letters _ hc).2]
    exact List.mem_map_of_mem hc
  · refine absurd ?_ hd
    rw [IsLetter, (fold_of_mem_letters _ hc).1]
    exact List.mem_map_of_mem hc

theorem sameText_iff : SameText s t ↔ s.toList.map fold = t.toList.map fold := by
  unfold SameText
  rw [← List.forall₂_eq_eq_eq, List.forall₂_map_left_iff, List.forall₂_map_right_iff]
  simp only [fold_eq_fold_iff]

/-! ## Numbers in either case -/

theorem dropWhile_map_fold (cs : List Char) :
    (cs.map fold).dropWhile isBlank = (cs.dropWhile isBlank).map fold := by
  rw [List.dropWhile_map, fold_congr isBlank (by decide)]

theorem trim_map_fold (cs : List Char) : trim (cs.map fold) = (trim cs).map fold := by
  unfold trim
  rw [dropWhile_map_fold, ← List.map_reverse, dropWhile_map_fold, List.map_reverse]

theorem map_fold_bare (h : SameText s t) : (bare s).map fold = (bare t).map fold := by
  have hbare (s : String) :
      (bare s).map fold = (trim (s.toList.map fold)).filter (· != '_') := by
    rw [trim_map_fold, List.filter_map, fold_congr (· != '_') (by decide), bare]
  rw [hbare, hbare, sameText_iff.mp h]

theorem Numeral.map_fold (h : Numeral radix cs n) : Numeral radix (cs.map fold) n := by
  have htable : ∀ s ∈ signs, lowerDigits[s.2]? = some (fold s.1) := by decide
  obtain ⟨hne, ds, hds, hvalue⟩ := h
  refine ⟨fun h => hne (List.map_eq_nil_iff.mp h), ds, List.forall₂_map_left_iff.mpr ?_, hvalue⟩
  exact hds.imp fun c d hd => ⟨hd.1, .inl (hd.of_signs htable)⟩

theorem Numeral.congr (h : Numeral radix cs n) (hfold : cs.map fold = ds.map fold) :
    Numeral radix ds n := by
  have := h.map_fold
  rw [hfold] at this
  exact this.of_fold

theorem Quantity.congr (h : Quantity radix cs n) (hfold : cs.map fold = ds.map fold) :
    Quantity radix ds n := by
  rcases h with h | ⟨rest, rfl, h⟩
  · exact .inl (h.congr hfold)
  · obtain ⟨c, rest', rfl, hc, hrest⟩ := List.map_eq_cons_iff.mp hfold.symm
    obtain rfl := eq_of_fold_eq (by decide) hc
    exact .inr ⟨rest', rfl, h.congr hrest.symm⟩

/-- Letter case does not change what a text stands for. -/
theorem Denotes.congr (h : Denotes cs n) (hfold : cs.map fold = ds.map fold) : Denotes ds n := by
  cases h with
  | @hexadecimal mark cs _ hmark h =>
      rw [List.map_append] at hfold
      obtain ⟨mark', ds, rfl, hmark', hds⟩ := List.map_eq_append_iff.mp hfold.symm
      rw [mem_hexMarks_iff, ← hmark'] at hmark
      exact .hexadecimal (mem_hexMarks_iff.mpr hmark) (h.congr hds.symm)
  | decimal hno h =>
      refine .decimal ?_ (h.congr hfold)
      rintro mark hmark ⟨rest, rfl⟩
      rw [List.map_append] at hfold
      obtain ⟨mark', cs, rfl, hmark', -⟩ := List.map_eq_append_iff.mp hfold
      rw [mem_hexMarks_iff, ← hmark'] at hmark
      exact hno mark' (mem_hexMarks_iff.mpr hmark) (List.prefix_append _ _)

/-! ## Where numbers start -/

theorem IsDigit.not_isLetter (h : IsDigit 10 c n) : ¬ IsLetter c := by
  have htable : ∀ s ∈ signs, s.2 < 10 → ¬ IsLetter s.1 := by decide
  exact h.of_signs htable h.1

/-- A number does not start with a letter. -/
theorem Denotes.not_isLetter (h : Denotes cs n) : ∀ c ∈ cs.head?, ¬ IsLetter c := by
  intro c hc
  cases h with
  | @hexadecimal mark _ _ hmark _ =>
      have htable : ∀ mark ∈ hexMarks, mark.head? = some '0' := by decide
      rw [List.head?_append, htable mark hmark] at hc
      obtain rfl : '0' = c := Option.some.inj hc
      decide
  | decimal _ h =>
      rcases h with h | ⟨rest, rfl, -⟩
      · obtain ⟨d, hd⟩ := h.exists_digit (List.mem_of_mem_head? hc)
        exact hd.not_isLetter
      · obtain rfl : '+' = c := Option.some.inj hc
        decide

theorem head?_trim (h : cs.head? = some c) (hc : ¬ isBlank c) : (trim cs).head? = some c := by
  obtain ⟨rest, rfl⟩ := List.head?_eq_some_iff.mp h
  unfold trim
  rw [List.dropWhile_cons_of_neg hc, List.reverse_cons, List.dropWhile_append]
  split
  · simp [hc]
  · simp

/-- A text that starts with a letter still does without its blanks and underscores. -/
theorem head?_bare (h : s.toList.head? = some c) (hletter : IsLetter c) :
    (bare s).head? = some c := by
  obtain ⟨hblank, hkept⟩ := hletter.of_letters (P := fun c => ¬ isBlank c ∧ c ≠ '_') (by decide)
  have htrim := head?_trim h hblank
  obtain ⟨rest, hrest⟩ := List.head?_eq_some_iff.mp htrim
  rw [bare, hrest, List.filter_cons, if_pos (bne_iff_ne.mpr hkept)]
  rfl

end Text

open Text

theorem Settings.number_eq_ok_iff_bare {t : String} {n : UInt64} :
    number t = .ok n ↔ Denotes (bare t) n.toNat := by
  have hstripped := stripped_trim t.toList
  rw [bare_eq hstripped]
  exact number_eq_ok_iff hstripped n

/-- Letter case does not change a number. -/
theorem Settings.number_congr {s t : String} (h : SameText s t) (n : UInt64) :
    number s = .ok n ↔ number t = .ok n := by
  rw [number_eq_ok_iff_bare, number_eq_ok_iff_bare]
  exact ⟨fun hn => hn.congr (map_fold_bare h), fun hn => hn.congr (map_fold_bare h).symm⟩

/-! ## Names -/

namespace Register

/-- The text is the name of the register in a place of the list, up to letter case. -/
def Named (t : String) (i : Nat) (r : String × Address) : Prop :=
  named[i]? = some r ∧ SameText r.1 t

variable {t : String} {i j : Nat} {r q : String × Address} {o : Address}

theorem nodup_names : (named.map fun r => r.1.toList.map fold).Nodup := by
  decide +kernel

/-- Every name starts with a letter. -/
theorem exists_letter_of_mem_named (h : r ∈ named) :
    ∃ c, r.1.toList.head? = some c ∧ IsLetter c := by
  have htable : ∀ r ∈ named, r.1.toList.head?.any (IsLetter ·) := by decide +kernel
  simpa [Option.any_eq_true] using htable r h

/-- No text is the name of two registers. -/
theorem Named.unique (hi : Named t i r) (hj : Named t j q) : i = j := by
  have hnames {k : Nat} {r : String × Address} (h : Named t k r) :
      (named.map fun r => r.1.toList.map fold)[k]? = some (t.toList.map fold) := by
    rw [List.getElem?_map, h.1, Option.map_some, sameText_iff.mp h.2]
  have hlt := (List.getElem?_eq_some_iff.mp (hnames hi)).1
  exact (List.getElem?_inj hlt nodup_names).mp ((hnames hi).trans (hnames hj).symm)

theorem sameFolded_iff_sameText {s : String} : sameFolded s t = true ↔ SameText s t := by
  rw [sameFolded_iff, sameText_iff]

theorem byName?_eq_some_iff : byName? t = some o ↔ ∃ i name, Named t i (name, o) := by
  unfold byName?
  constructor
  · intro h
    obtain ⟨⟨name, o'⟩, hfind, rfl⟩ := Option.map_eq_some_iff.mp h
    obtain ⟨i, hi⟩ := List.mem_iff_getElem?.mp (List.mem_of_find?_eq_some hfind)
    have hsame := List.find?_some hfind
    exact ⟨i, name, hi, sameFolded_iff_sameText.mp hsame⟩
  · rintro ⟨i, name, hi⟩
    have hsome : (named.find? fun r => sameFolded r.1 t).isSome := by
      rw [List.find?_isSome]
      exact ⟨_, List.mem_of_getElem? hi.1, sameFolded_iff_sameText.mpr hi.2⟩
    obtain ⟨r, hfind⟩ := Option.isSome_iff_exists.mp hsome
    obtain ⟨j, hj⟩ := List.mem_iff_getElem?.mp (List.mem_of_find?_eq_some hfind)
    have hsame := List.find?_some hfind
    obtain rfl : i = j := hi.unique ⟨hj, sameFolded_iff_sameText.mp hsame⟩
    rw [hi.1] at hj
    rw [hfind, ← Option.some.inj hj]
    rfl

/-- A name is not a number. -/
theorem Named.not_number (h : Named t i r) (n : UInt64) : Settings.number t ≠ .ok n := by
  intro hn
  obtain ⟨a, ha, hletter⟩ := exists_letter_of_mem_named (List.mem_of_getElem? h.1)
  have hheads : (t.toList.map fold).head? = (r.1.toList.map fold).head? := by
    rw [sameText_iff.mp h.2]
  rw [List.head?_map, List.head?_map, ha] at hheads
  obtain ⟨c, hc, hfold⟩ := Option.map_eq_some_iff.mp hheads
  have hc' : IsLetter c := by
    rw [IsLetter, hfold]
    exact hletter
  exact (Settings.number_eq_ok_iff_bare.mp hn).not_isLetter c (head?_bare hc hc') hc'

end Register

/-! ## Registers asked for by text -/

namespace CommandLine

open Register

variable {t u : String} {o : Address}

/-- A register is found by name or by number; which is tried first makes no difference. -/
theorem registerOf_eq_ok_iff :
    registerOf t = .ok o ↔ byName? t = some o ∨ Settings.number t = .ok o := by
  unfold registerOf
  cases hname : byName? t with
  | some o' =>
      obtain ⟨i, name, hi⟩ := byName?_eq_some_iff.mp hname
      simp [hi.not_number]
  | none => cases Settings.number t <;> simp

theorem registerOf_congr (h : SameText t u) : registerOf t = .ok o ↔ registerOf u = .ok o := by
  have hnamed {i : Nat} {r : String × Address} : Named t i r ↔ Named u i r := by
    unfold Named
    rw [sameText_iff, sameText_iff, sameText_iff.mp h]
  rw [registerOf_eq_ok_iff, registerOf_eq_ok_iff, byName?_eq_some_iff, byName?_eq_some_iff,
    Settings.number_congr h]
  simp only [hnamed]

/-- A text is never both the name of a register and a number, so whichever of the two it is decides
about the register. It is a name if it is that of exactly one register up to letter case, and the
offset found is that of this register. Texts that differ in letter case alone are the same register
or both none. -/
theorem registerOf_unambiguous (t : String) :
    (¬ ∃ o n, byName? t = some o ∧ Settings.number t = .ok n) ∧
    (∀ o, registerOf t = .ok o ↔ byName? t = some o ∨ Settings.number t = .ok o) ∧
    (∀ o, byName? t = some o ↔
      ∃ i name, Named t i (name, o) ∧ ∀ j r, Named t j r → j = i) ∧
    ∀ u, SameText t u →
      (∃ o, registerOf t = .ok o ∧ registerOf u = .ok o) ∨
        ∃ e e', registerOf t = .error e ∧ registerOf u = .error e' := by
  refine ⟨?_, fun o => registerOf_eq_ok_iff, fun o => ?_, fun u h => ?_⟩
  · rintro ⟨o, n, hname, hnumber⟩
    obtain ⟨i, name, hi⟩ := byName?_eq_some_iff.mp hname
    exact hi.not_number n hnumber
  · rw [byName?_eq_some_iff]
    constructor
    · rintro ⟨i, name, hi⟩
      exact ⟨i, name, hi, fun j r hj => hj.unique hi⟩
    · rintro ⟨i, name, hi, -⟩
      exact ⟨i, name, hi⟩
  · cases hu : registerOf u with
    | ok o => exact .inl ⟨o, (registerOf_congr h).mpr hu, rfl⟩
    | error e' =>
        cases ht : registerOf t with
        | ok o =>
            rw [registerOf_congr h, hu] at ht
            cases ht
        | error e => exact .inr ⟨e, e', rfl, rfl⟩

/-- One register by its name and by its number, each in two spellings. -/
theorem registerOf_unambiguous_spellings :
    SameText "Pio_cONTROL" "pIO_Control" ∧ SameText " 0X_00b0\n" " 0x_00B0\n" ∧
      byName? "Pio_cONTROL" = some 0xB0 ∧
      (¬ ∃ o n, byName? "Pio_cONTROL" = some o ∧ Settings.number "Pio_cONTROL" = .ok n) ∧
      (∃ i name, Named "Pio_cONTROL" i (name, 0xB0) ∧ ∀ j r, Named "Pio_cONTROL" j r → j = i) ∧
      registerOf "pIO_Control" = .ok 0xB0 ∧
      Settings.number " 0X_00b0\n" = .ok 0xB0 ∧ registerOf " 0x_00B0\n" = .ok 0xB0 := by
  have hname : SameText "Pio_cONTROL" "pIO_Control" := sameText_iff.mpr (by decide)
  have hnumber : SameText " 0X_00b0\n" " 0x_00B0\n" := sameText_iff.mpr (by decide)
  have hcontrol : byName? "Pio_cONTROL" = some 0xB0 := by decide +kernel
  have hoffset : Settings.number " 0X_00b0\n" = .ok 0xB0 := by decide +kernel
  -- What one spelling gives, the other gives too.
  have hother {t u : String} (h : SameText t u)
      (ht : byName? t = some 0xB0 ∨ Settings.number t = .ok 0xB0) : registerOf u = .ok 0xB0 := by
    obtain ⟨-, heither, -, hcase⟩ := registerOf_unambiguous t
    have hfound := (heither 0xB0).mpr ht
    rcases hcase u h with ⟨o, ho, hu⟩ | ⟨e, -, he, -⟩
    · rw [hu, ← ho, hfound]
    · rw [hfound] at he
      cases he
  obtain ⟨hapart, -, hexactly, -⟩ := registerOf_unambiguous "Pio_cONTROL"
  exact ⟨hname, hnumber, hcontrol, hapart, (hexactly 0xB0).mp hcontrol,
    hother hname (.inl hcontrol), hoffset, hother hnumber (.inr hoffset)⟩

end CommandLine

end I3CHost
