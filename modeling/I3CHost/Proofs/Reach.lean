import I3CHost.Table

/-!
# Where accesses land

Offsets are added with a check, so an address that reaches the bus is the exact sum of its parts.
Inside a table entry the words follow each other without one, and there the index check is what
counts: it asks for the end of the entry to be an address, so the words of an entry do not wrap as
long as an entry is shorter than the address space. In a wider entry only index 0 passes. Its words
would wrap, but a run of words from its start never gets that far, and a pair whose words have no
offset ends in a panic before anything reaches the bus. In either case an access through entry `i`
stays between the start of that entry and the start of the next one.
-/
namespace I3CHost

theorem Address.isAligned_iff (a : Address) : a.isAligned = true ↔ a.toNat % 4 = 0 := by
  have h4 : Address.wordBytes.toNat = 4 := rfl
  rw [Address.isAligned, beq_iff_eq, ← UInt64.toNat_inj, UInt64.toNat_mod, h4]
  rfl

/-- An access is accepted if a word starts at the offset and ends inside the window. -/
theorem checkAccess_eq_ok_iff (offset limit : Address) :
    checkAccess offset limit = .ok () ↔
      offset.toNat % 4 = 0 ∧ offset.toNat + 4 ≤ limit.toNat := by
  have h4 : Address.wordBytes.toNat = 4 := rfl
  have hl := limit.toNat_lt_size
  rw [checkAccess, ← Address.isAligned_iff]
  cases ha : offset.isAligned with
  | false => simp
  | true =>
      cases hs : Address.add? offset Address.wordBytes with
      | none =>
          rw [Address.add?_eq_none, h4] at hs
          simp only [Bool.not_true, Bool.false_eq_true, if_false, reduceCtorEq, true_and, false_iff]
          omega
      | some finish =>
          have hf := Address.add?_eq_some hs
          rw [h4] at hf
          simp only [Bool.not_true, Bool.false_eq_true, if_false, true_and, UInt64.le_iff_toNat_le,
            hf]
          split <;> simp [*]

/-! ## Register views -/

namespace Registers

variable {v : Registers} {offset a : Address} {f : Field}

theorem address_eq_ok (h : v.address offset = .ok a) :
    a = v.base + offset ∧ a.toNat = v.base.toNat + offset.toNat := by
  rw [address] at h
  cases hs : Address.add? v.base offset with
  | none => simp only [hs, reduceCtorEq] at h
  | some s =>
      simp only [hs, Except.ok.injEq] at h
      subst h
      have hn := Address.add?_eq_some hs
      exact ⟨UInt64.toNat_inj.mp (by rw [hn, UInt64.toNat_add, Nat.mod_eq_of_lt (hn ▸ s.toNat_lt)]),
        hn⟩

/-- The offset of the word a field is in, from the offset of its register or entry. -/
def wordOf (offset : Address) (f : Field) : Address :=
  offset + f.word.toUInt64 * Address.wordBytes

theorem word_bytes (f : Field) :
    (f.word.toUInt64 * Address.wordBytes).toNat = 4 * f.word.toNat := by
  have hw := f.word.toNat_lt
  rw [UInt64.toNat_mul, UInt8.toNat_toUInt64, show Address.wordBytes.toNat = 4 from rfl]
  omega

theorem fieldAddress_eq_ok (h : v.fieldAddress offset f = .ok a) :
    v.address (wordOf offset f) = .ok a ∧
      (wordOf offset f).toNat = offset.toNat + 4 * f.word.toNat := by
  rw [fieldAddress] at h
  cases hs : Address.add? offset (f.word.toUInt64 * Address.wordBytes) with
  | none => simp only [hs, reduceCtorEq] at h
  | some s =>
      simp only [hs] at h
      have hn := Address.add?_eq_some hs
      have hw : wordOf offset f = s := by
        apply UInt64.toNat_inj.mp
        rw [wordOf, UInt64.toNat_add, ← hn, Nat.mod_eq_of_lt s.toNat_lt]
      rw [hw]
      exact ⟨h, by rw [hn, word_bytes]⟩

end Registers

/-! ## Entries -/

namespace TableLayout

/-- Where entry `i` starts in the window, as a plain number. -/
def start (l : TableLayout) (i : Nat) : Nat := l.offset.toNat + i * l.entryBytes.toNat

theorem start_mono (l : TableLayout) {i j : Nat} (h : i ≤ j) : l.start i ≤ l.start j :=
  Nat.add_le_add_left (Nat.mul_le_mul_right _ h) _

/-- An entry is as long as its words, unless that is no length at all. -/
theorem entryBytes_eq (l : TableLayout) :
    (4 * l.entryWords.toNat < UInt64.size → l.entryBytes.toNat = 4 * l.entryWords.toNat) ∧
      (UInt64.size ≤ 4 * l.entryWords.toNat → l.entryBytes.toNat = UInt64.size - 1) := by
  have h4 : Address.wordBytes.toNat = 4 := rfl
  rw [entryBytes, Address.mulSat]
  cases hm : Address.mul? l.entryWords Address.wordBytes with
  | none =>
      rw [Address.mul?_eq_none, h4] at hm
      exact ⟨fun h => by omega, fun _ => rfl⟩
  | some n =>
      have hn := Address.mul?_eq_some hm
      have hs := n.toNat_lt_size
      rw [h4] at hn
      exact ⟨fun _ => by rw [Option.getD_some]; omega, fun h => by omega⟩

/-- A byte address inside entry `i` of a table. An address within the last four bytes of the
address space is no address of a word, so nothing is said about its end. -/
def InEntry (l : TableLayout) (i : UInt64) (a : Address) : Prop :=
  i < l.capacity ∧ l.start i.toNat ≤ a.toNat ∧
    (a.toNat + 4 < UInt64.size → a.toNat + 4 ≤ l.start (i.toNat + 1))

end TableLayout

namespace Table

variable {t : Table} {index start a : UInt64}

theorem entryOffset_eq_ok (h : t.entryOffset index = .ok start) :
    index < t.layout.capacity ∧ start.toNat = index.toNat * t.layout.entryBytes.toNat ∧
      (index.toNat + 1) * t.layout.entryBytes.toNat < UInt64.size := by
  rw [entryOffset] at h
  split at h
  · cases h
  · next hc =>
    have hc : index < t.layout.capacity := UInt64.not_le.mp hc
    split at h
    · next e s he hs =>
      cases h
      have hlt := UInt64.lt_iff_toNat_lt.mp hc
      have hcap := t.layout.capacity.toNat_lt
      have hi : (index + 1).toNat = index.toNat + 1 := by
        rw [UInt64.toNat_add, UInt64.toNat_one]
        omega
      have hend := Address.mul?_eq_some he
      rw [hi] at hend
      exact ⟨hc, Address.mul?_eq_some hs, hend ▸ e.toNat_lt_size⟩
    · cases h

theorem checkWords_eq_ok {count : Nat} :
    t.checkWords count = .ok () ↔ count ≤ t.layout.entryWords.toNat := by
  rw [checkWords]
  split
  · next h => exact ⟨fun hc => (by cases hc), fun hc => (Nat.not_lt.mpr hc h).elim⟩
  · next h => exact ⟨fun _ => Nat.not_lt.mp h, fun _ => rfl⟩

theorem checkField_eq_ok {f : Field} :
    t.checkField f = .ok () ↔ f.word.toNat < t.layout.entryWords.toNat := by
  have hw : f.word.toUInt64.toNat = f.word.toNat := UInt8.toNat_toUInt64 _
  rw [checkField]
  split
  · next h =>
    rw [UInt64.le_iff_toNat_le, hw] at h
    exact ⟨fun hc => (by cases hc), fun hc => (Nat.not_lt.mpr h hc).elim⟩
  · next h =>
    rw [UInt64.le_iff_toNat_le, hw] at h
    exact ⟨fun _ => Nat.not_le.mp h, fun _ => rfl⟩

/-- A pair that passes is half as large as an entry at most, so its first word is exact. -/
theorem pairWord_eq (t : Table) (pair : UInt64) : t.pairWord pair =
    if t.layout.entryWords / 2 ≤ pair then
      .error (.wordOutOfRange t.layout.kind (Address.mulSat pair 2) t.layout.entryWords)
    else .ok (pair * 2) := by
  have h2 : (2 : UInt64).toNat = 2 := rfl
  have hwords := t.layout.entryWords.toNat_lt_size
  rw [pairWord]
  split
  · rfl
  · next hp =>
    rw [UInt64.le_iff_toNat_le, UInt64.toNat_div, h2] at hp
    exact Address.times_of_lt (by rw [h2]; omega)

/-- Both words of an accepted pair are words of the entry. -/
theorem pairWord_eq_ok {pair first : UInt64} (h : t.pairWord pair = .ok first) :
    first = UInt64.ofNat (2 * pair.toNat) ∧ first + 1 = UInt64.ofNat (2 * pair.toNat + 1) ∧
      2 * pair.toNat + 1 < t.layout.entryWords.toNat := by
  rw [pairWord_eq] at h
  split at h
  · cases h
  · next hp =>
    cases h
    have h2 : (2 : UInt64).toNat = 2 := rfl
    rw [UInt64.le_iff_toNat_le, UInt64.toNat_div, h2] at hp
    have hfirst : pair * 2 = UInt64.ofNat (2 * pair.toNat) := by
      rw [UInt64.ofNat_mul, UInt64.ofNat_toNat, UInt64.mul_comm]
      rfl
    refine ⟨hfirst, ?_, by omega⟩
    rw [UInt64.ofNat_add, ← hfirst]
    rfl

theorem wordFrom_zero (start : Address) : wordFrom start 0 = start := by
  rw [wordFrom, show UInt64.ofNat 0 = 0 from rfl, UInt64.zero_mul, UInt64.add_zero]

theorem wordFrom_succ (start : Address) (k : Nat) :
    wordFrom (start + Address.wordBytes) k = wordFrom start (k + 1) := by
  rw [wordFrom, wordFrom, UInt64.ofNat_add, show UInt64.ofNat 1 = 1 from rfl, UInt64.add_mul,
    UInt64.one_mul, UInt64.add_assoc, UInt64.add_comm Address.wordBytes]

theorem wordFrom_word (start : Address) (f : Field) :
    wordFrom start f.word.toNat = Registers.wordOf start f := by
  rw [wordFrom, Registers.wordOf]
  congr 2
  apply UInt64.toNat_inj.mp
  have hw := f.word.toNat_lt
  rw [UInt64.toNat_ofNat', UInt8.toNat_toUInt64]
  omega

/-- Where a word of an entry starts is an exact sum, unless its number is too large for that by
itself. -/
theorem word_sum_iff {w : Nat} (hs : t.entryOffset index = .ok start)
    (hw : w < t.layout.entryWords.toNat) :
    start.toNat + 4 * w < UInt64.size ↔ 4 * w < UInt64.size := by
  obtain ⟨-, hstart, hend⟩ := entryOffset_eq_ok hs
  rw [Nat.succ_mul, ← hstart] at hend
  rcases Nat.lt_or_ge (4 * t.layout.entryWords.toNat) UInt64.size with hlt | hge
  · have hbytes := t.layout.entryBytes_eq.1 hlt
    omega
  · -- The entry is as long as the address space, so it starts the table.
    have hbytes := t.layout.entryBytes_eq.2 hge
    have hzero : start.toNat = 0 := by
      rcases Nat.eq_zero_or_pos index.toNat with hi | hi
      · rw [hstart, hi, Nat.zero_mul]
      · have hle := Nat.mul_le_mul_right t.layout.entryBytes.toNat hi
        simp only [UInt64.size] at hbytes hend
        omega
    rw [hzero, Nat.zero_add]

/-! ### Pairs -/

/-- The product of a word's number and its length is the one sum or product that can fail. -/
theorem wordOffset_eq {w : Nat} (hs : t.entryOffset index = .ok start)
    (hw : w < t.layout.entryWords.toNat) : wordOffset start (UInt64.ofNat w) =
      if 4 * w < UInt64.size then .ok (wordFrom start w) else .error (.panic .mulOverflow) := by
  have h4 : Address.wordBytes.toNat = 4 := rfl
  have hnat : (UInt64.ofNat w).toNat = w :=
    UInt64.toNat_ofNat_of_lt' (Nat.lt_trans hw t.layout.entryWords.toNat_lt_size)
  unfold wordOffset
  split
  · next hlt =>
    have hbytes : (UInt64.ofNat w * Address.wordBytes).toNat = 4 * w := by
      rw [UInt64.toNat_mul, hnat, h4, Nat.mul_comm]
      exact Nat.mod_eq_of_lt hlt
    rw [Address.times_of_lt (by rw [hnat, h4]; omega)]
    exact Address.plus_of_lt (hbytes ▸ (word_sum_iff hs hw).mpr hlt)
  · next hge =>
    rw [Address.times_of_le (by rw [hnat, h4]; omega)]
    rfl

/-- Whether the words of a pair have offsets. -/
def reachPair (pair : UInt64) : Except Fault Unit :=
  if 8 * pair.toNat < UInt64.size then .ok () else .error (.panic .mulOverflow)

/-- The offsets of both words of a pair, or neither. -/
theorem wordOffset_pair {pair first : UInt64} (hp : t.pairWord pair = .ok first)
    (hs : t.entryOffset index = .ok start) :
    wordOffset start first = (reachPair pair).map (fun _ => wordFrom start (2 * pair.toNat)) ∧
      Address.plus first 1 = .ok (first + 1) ∧
      wordOffset start (first + 1) =
        (reachPair pair).map fun _ => wordFrom start (2 * pair.toNat + 1) := by
  obtain ⟨hfirst, hsecond, hlt⟩ := pairWord_eq_ok hp
  have hwords := t.layout.entryWords.toNat_lt_size
  have hnat : first.toNat = 2 * pair.toNat := by
    rw [hfirst]
    exact UInt64.toNat_ofNat_of_lt' (by omega)
  refine ⟨?_, Address.plus_of_lt (by rw [hnat, UInt64.toNat_one]; omega), ?_⟩
  · rw [hfirst, wordOffset_eq hs (Nat.lt_of_succ_lt hlt), reachPair]
    split <;> split <;> first | rfl | omega
  · rw [hsecond, wordOffset_eq hs hlt, reachPair]
    simp only [UInt64.size]
    split <;> split <;> first | rfl | omega

/-- A pair is loaded as its two words, if these have offsets. -/
theorem readPair_words (t : Table) (index pair : UInt64) : t.readPair index pair =
    (Bus.ofExcept (t.pairWord pair)).bind fun _ => (Bus.ofExcept (t.entryOffset index)).bind
      fun start => (Bus.ofExcept (reachPair pair)).bind fun _ =>
        (t.registers.read (wordFrom start (2 * pair.toNat))).bind fun low =>
          (t.registers.read (wordFrom start (2 * pair.toNat + 1))).bind fun high =>
            .done ((high.toUInt64 <<< 32) ||| low.toUInt64) := by
  unfold readPair
  cases hp : t.pairWord pair with
  | error e => rfl
  | ok first =>
      cases hs : t.entryOffset index with
      | error e => rfl
      | ok start =>
          obtain ⟨hlow, hsecond, hhigh⟩ := wordOffset_pair hp hs
          simp only [Bus.bind_eq, Bus.ofExcept, Bus.bind, hlow, hsecond, hhigh]
          cases reachPair pair <;> rfl

/-- A pair is stored as its two words, if these have offsets. -/
theorem writePair_words (t : Table) (index pair value : UInt64) : t.writePair index pair value =
    (Bus.ofExcept (t.pairWord pair)).bind fun _ => (Bus.ofExcept (t.entryOffset index)).bind
      fun start => (Bus.ofExcept (reachPair pair)).bind fun _ =>
        (t.registers.write (wordFrom start (2 * pair.toNat)) value.toUInt32).bind fun _ =>
          t.registers.write (wordFrom start (2 * pair.toNat + 1)) (value >>> 32).toUInt32 := by
  unfold writePair
  cases hp : t.pairWord pair with
  | error e => rfl
  | ok first =>
      cases hs : t.entryOffset index with
      | error e => rfl
      | ok start =>
          obtain ⟨hlow, hsecond, hhigh⟩ := wordOffset_pair hp hs
          simp only [Bus.bind_eq, Bus.ofExcept, Bus.bind, hlow, hsecond, hhigh]
          cases reachPair pair <;> rfl

/-- A word of an entry that has an address has it inside the entry. -/
theorem inEntry_of_word (hs : t.entryOffset index = .ok start) {k : Nat}
    (hk : k < t.layout.entryWords.toNat) (ha : t.registers.address (wordFrom start k) = .ok a) :
    t.layout.InEntry index a := by
  obtain ⟨hi, hstart, hend⟩ := entryOffset_eq_ok hs
  obtain ⟨-, hsum⟩ := Registers.address_eq_ok ha
  have hoff : t.registers.base = t.layout.offset := rfl
  have hmul : (index.toNat + 1) * t.layout.entryBytes.toNat =
      index.toNat * t.layout.entryBytes.toNat + t.layout.entryBytes.toNat := Nat.succ_mul _ _
  rw [hoff] at hsum
  rw [hmul] at hend
  refine ⟨hi, ?_⟩
  rw [TableLayout.start, TableLayout.start, hmul]
  rcases Nat.lt_or_ge (4 * t.layout.entryWords.toNat) UInt64.size with hw | hw
  · -- The entry ends below 2^64, so nothing wraps before its end.
    have hb := t.layout.entryBytes_eq.1 hw
    have hbytes : (UInt64.ofNat k * Address.wordBytes).toNat = 4 * k := by
      rw [UInt64.toNat_mul, UInt64.toNat_ofNat', show Address.wordBytes.toNat = 4 from rfl]
      simp only [UInt64.size] at hw hend
      omega
    have hword : (wordFrom start k).toNat = start.toNat + 4 * k := by
      rw [wordFrom, UInt64.toNat_add, hbytes]
      simp only [UInt64.size] at hw hend
      omega
    omega
  · -- Only entry 0 is this wide, and it ends where the address space does.
    have hb := t.layout.entryBytes_eq.2 hw
    have h0 : index.toNat * t.layout.entryBytes.toNat = 0 := by
      rcases Nat.eq_zero_or_pos index.toNat with hz | hp
      · rw [hz, Nat.zero_mul]
      · have := Nat.mul_le_mul_right t.layout.entryBytes.toNat hp
        simp only [UInt64.size] at hb hend
        omega
    omega

end Table

end I3CHost
