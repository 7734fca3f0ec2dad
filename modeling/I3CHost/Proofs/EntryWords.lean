import I3CHost.Proofs.Refusals

/-!
# Words of an entry by number

Pairs and fields name a word of an entry by a number, and the number is turned into an offset. What
makes the offset exact are the checks that come first. They look at the end of the entry, so as long
as an entry is shorter than the address space every word of it has an offset. The length of a wider
entry stays at the largest address; only entry 0 is let in then, and not all of its pairs have
offsets. A pair that has none is let in as well, and the product that would be its offset ends in a
panic.

A bit of an entry is numbered through the whole entry. Its word number has eight bits, so the first
8192 bits name their word and the rest name a word 256 before their own, or several times that.
-/
namespace I3CHost

/-! ## Attempts that were made -/

/-- A program makes its attempts in order, and all of them if it returns a value. -/
theorem Bus.Attempts.visits_run {σ α : Type} {as : List (Except Fault Visit)} {p : Bus α}
    (hp : p.Attempts as) (r : Responder σ) (s : σ) :
    (p.run r s).transactions.map (fun c => .ok c.visit) <+: as ∧
      ∀ a, (p.run r s).result = .ok a →
        (p.run r s).transactions.map (fun c => .ok c.visit) = as := by
  induction hp generalizing s with
  | done a => exact ⟨List.prefix_rfl, fun _ _ => rfl⟩
  | stop e as => exact ⟨List.nil_prefix, fun a h => by cases h⟩
  | @load o as next _ ih =>
      cases hl : (r.load o s).result with
      | ok w =>
          obtain ⟨hmade, hall⟩ := ih w (r.load o s).state
          rw [run_load_ok hl]
          exact ⟨(List.prefix_cons_inj _).mpr hmade, fun a h => congrArg _ (hall a h)⟩
      | error e =>
          rw [run_load_error hl]
          exact ⟨⟨as, rfl⟩, fun a h => by cases h⟩
  | @store o v as next _ ih =>
      cases hs : (r.store o v s).result with
      | ok u =>
          obtain ⟨hmade, hall⟩ := ih (r.store o v s).state
          rw [run_store_ok hs]
          exact ⟨(List.prefix_cons_inj _).mpr hmade, fun a h => congrArg _ (hall a h)⟩
      | error e =>
          rw [run_store_error hs]
          exact ⟨⟨as, rfl⟩, fun a h => by cases h⟩
  | note _ ih => exact ih s

/-- Every access is at one of some bytes of the window, and whoever returns a value has been to all
of them. -/
def Outcome.KeepsTo {σ α : Type} (o : Outcome σ α) (places : List Nat) : Prop :=
  (∀ c ∈ o.transactions, c.visit.address.toNat ∈ places) ∧
    ∀ x, o.result = .ok x → ∀ place ∈ places, ∃ c ∈ o.transactions, c.visit.address.toNat = place

/-! ## Pairs -/

namespace Access

variable {a : Access} {t : Table} {i pair : UInt64} {start : Address}

/-- A request keeps to the words it needs, where exact arithmetic puts them if it puts all of them
somewhere. -/
theorem keepsTo_words (ha : a.entry? = some (t, i)) (hs : t.grant i a.need = .ok start)
    (hsum : ∀ k < a.need.count, start.toNat + 4 * (a.need.first + k) < UInt64.size)
    {σ : Type} (r : Responder σ) (s : σ) :
    (a.program.run r s).KeepsTo ((List.range a.need.count).map fun k =>
      t.layout.offset.toNat + (start.toNat + 4 * (a.need.first + k))) := by
  obtain ⟨as, hattempts, hvisits⟩ := (serves ha).exists_attempts hs
  have hexact {k : Nat} {o : Address} (hk : k < a.need.count)
      (ho : t.registers.address (Table.wordFrom start (a.need.first + k)) = .ok o) :
      o.toNat = t.layout.offset.toNat + (start.toNat + 4 * (a.need.first + k)) := by
    rw [(Registers.address_eq_ok ho).2, Table.toNat_wordFrom (hsum k hk)]
    rfl
  obtain ⟨hmade, hall⟩ := hattempts.visits_run r s
  constructor
  · intro c hc
    have hattempted : .ok c.visit ∈ as := hmade.subset (List.mem_map_of_mem hc)
    obtain ⟨k, hk, haddress⟩ := (hvisits _).mp (List.mem_map_of_mem hattempted)
    exact List.mem_map.mpr ⟨k, List.mem_range.mpr hk, (hexact hk haddress.symm).symm⟩
  · intro x hx place hplace
    obtain ⟨k, hk, rfl⟩ := List.mem_map.mp hplace
    have hk := List.mem_range.mp hk
    obtain ⟨y, hy, haddress⟩ := List.mem_map.mp ((hvisits _).mpr ⟨k, hk, rfl⟩)
    rw [← hall x hx] at hy
    obtain ⟨c, hc, rfl⟩ := List.mem_map.mp hy
    exact ⟨c, hc, hexact hk haddress.symm⟩

/-- The second word of a pair that is let in has an exact offset in the table exactly if it has one
in an entry of its own. -/
theorem pair_sum (hs : t.permit i (.pair pair) = .ok start) :
    start.toNat = i.toNat * t.layout.entryBytes.toNat ∧
      2 * pair.toNat + 2 ≤ t.layout.entryWords.toNat ∧
      (start.toNat + (8 * pair.toNat + 4) < UInt64.size ↔ 8 * pair.toNat + 4 < UInt64.size) := by
  obtain ⟨hstart, hwords⟩ := Table.permit_eq_ok_iff.mp hs
  have hsum := Table.word_sum_iff hstart (w := 2 * pair.toNat + 1) hwords
  have height : 4 * (2 * pair.toNat + 1) = 8 * pair.toNat + 4 := by omega
  rw [height] at hsum
  exact ⟨(Table.entryOffset_eq_ok hstart).2.1, hwords, hsum⟩

/-- A pair that is let in keeps to its two words, provided that these have exact offsets in an entry
of their own. -/
theorem keepsTo_pair (ha : a.entry? = some (t, i)) (hneed : a.need = .pair pair)
    (hs : t.permit i a.need = .ok start) (hpair : 8 * pair.toNat + 4 < UInt64.size) {σ : Type}
    (r : Responder σ) (s : σ) :
    let low := i.toNat * t.layout.entryBytes.toNat + 8 * pair.toNat
    (a.program.run r s).KeepsTo
      [t.layout.offset.toNat + low, t.layout.offset.toNat + (low + 4)] := by
  intro low
  obtain ⟨hstart, -, hsum⟩ := pair_sum (hneed ▸ hs)
  have hlast := hsum.mpr hpair
  have hplace (k : Nat) : start.toNat + 4 * (a.need.first + k) = low + 4 * k := by
    rw [hstart, hneed, Need.first]
    omega
  have hcount : a.need.count = 2 := by
    rw [hneed]
    rfl
  have hreach : a.need.reach = .ok () := by
    rw [hneed]
    exact if_pos (by omega)
  have hgrant := Table.grant_eq_ok_iff.mpr ⟨hs, hreach⟩
  have hkeeps := keepsTo_words ha hgrant (fun k hk => by rw [hplace]; omega) r s
  simp only [hplace, hcount] at hkeeps
  exact hkeeps

/-- A pair that is let in but has no exact offset in an entry of its own ends in a panic. -/
theorem run_pair_overflow (ha : a.entry? = some (t, i)) (hneed : a.need = .pair pair)
    (hs : t.permit i a.need = .ok start) (hpair : UInt64.size ≤ 8 * pair.toNat + 4) {σ : Type}
    (r : Responder σ) (s : σ) :
    a.program.run r s = ⟨.error (.panic .mulOverflow), s, [], []⟩ := by
  have hreach : a.need.reach = .error (.panic .mulOverflow) := by
    rw [hneed]
    simp only [UInt64.size] at hpair
    exact if_neg (by simp only [UInt64.size]; omega)
  rw [(serves ha).eq_stop (Table.grant_of_reach_error hs hreach)]
  rfl

/-- The words of a pair are where exact arithmetic puts them; no pair is taken for another. A pair
that has no place in the table is refused, and a refused pair does not reach the bus. What is let in
has addresses, with one exception: a pair of an entry longer than the address space may have no
exact offset in an entry of its own. It does not reach the bus either, but ends in a panic. -/
theorem pair_words_exact (ha : a.entry? = some (t, i)) (hneed : a.need = .pair pair) :
    let low := i.toNat * t.layout.entryBytes.toNat + 8 * pair.toNat
    let high := i.toNat * t.layout.entryBytes.toNat + 8 * pair.toNat + 4
    (∀ {σ : Type} (r : Responder σ) (s : σ),
      (a.program.run r s).KeepsTo [t.layout.offset.toNat + low, t.layout.offset.toNat + high]) ∧
    (∀ e, a.need.refusal? t.layout i = some e →
      ∀ {σ : Type} (r : Responder σ) (s : σ), a.program.run r s = ⟨.error e, s, [], []⟩) ∧
    (a.need.refusal? t.layout i = none →
      (high < UInt64.size ↔ 8 * pair.toNat + 4 < UInt64.size) ∧
      (4 * t.layout.entryWords.toNat ≤ UInt64.size → high < UInt64.size) ∧
      (UInt64.size ≤ high → ∀ {σ : Type} (r : Responder σ) (s : σ),
        a.program.run r s = ⟨.error (.panic .mulOverflow), s, [], []⟩)) := by
  intro low high
  have hpermit := t.permit_eq i a.need
  cases hrefusal : a.need.refusal? t.layout i with
  | some e =>
      rw [hrefusal] at hpermit
      have hstop := (serves ha).eq_stop (Table.grant_of_permit_error hpermit)
      refine ⟨fun r s => ?_, fun e' he => ?_, fun h => (by cases h)⟩
      · rw [hstop]
        exact ⟨fun c hc => (by cases hc), fun x hx => (by cases hx)⟩
      · cases he
        intro σ r s
        rw [hstop]
        rfl
  | none =>
      rw [hrefusal] at hpermit
      obtain ⟨hstart, hwords, hsum⟩ := pair_sum (hneed ▸ hpermit)
      have hhigh : high < UInt64.size ↔ 8 * pair.toNat + 4 < UInt64.size := by
        rw [← hsum, hstart, ← Nat.add_assoc]
      refine ⟨fun r s => ?_, fun e he => (by cases he),
        fun _ => ⟨hhigh, fun hshort => hhigh.mpr (by omega), fun hge _ r s => ?_⟩⟩
      · rcases Nat.lt_or_ge (8 * pair.toNat + 4) UInt64.size with hpair | hpair
        · exact keepsTo_pair ha hneed hpermit hpair r s
        · rw [run_pair_overflow ha hneed hpermit hpair]
          exact ⟨fun c hc => (by cases hc), fun x hx => (by cases hx)⟩
      · have hpair := Nat.not_lt.mp (mt hhigh.mpr (Nat.not_lt.mpr hge))
        exact run_pair_overflow ha hneed hpermit hpair r s

/-- Entries of five words from offset 4 on: pair 1 of entry 1 takes the words at 32 and 36. There is
no entry 2 ^ 62, whose end would have no address. -/
theorem pair_words_exact_five :
    let t : Table := ⟨⟨.dct, 4, 5, 0xFFFFFFFFFFFFFFFF⟩, 64⟩
    let a := readPair t 1 1
    let far := readPair t 0x4000000000000000 1
    a.need.refusal? t.layout 1 = none ∧
      1 * t.layout.entryBytes.toNat + 8 * 1 + 4 < UInt64.size ∧
      (a.program.run Model.responder (.blank 64)).KeepsTo [32, 36] ∧
      (a.program.run Model.responder (.blank 64)).transactions =
        [.load 32 (some 0), .load 36 (some 0)] ∧
      (∃ e, far.need.refusal? t.layout 0x4000000000000000 = some e) ∧
      (far.program.run Model.responder (.blank 64)).transactions = [] := by
  intro t a far
  have hnear := @pair_words_exact a t 1 1 rfl rfl
  have hfar := @pair_words_exact far t 0x4000000000000000 1 rfl rfl
  have hnone : a.need.refusal? t.layout 1 = none := by decide
  have hrefused : far.need.refusal? t.layout 0x4000000000000000 =
      some (.indexOutOfRange .dct 0x4000000000000000 0xFFFFFFFFFFFFFFFF) := by decide
  refine ⟨hnone, (hnear.2.2 hnone).1.mpr (by decide), hnear.1 _ _, by decide +kernel,
    ⟨_, hrefused⟩, ?_⟩
  rw [hfar.2.1 _ hrefused]

/-- An entry of 2 ^ 64 - 1 words is let in as if it ended where the address space does. The words of
its pair 2 ^ 61 have no address, and the request does not end in an error that says so. -/
theorem pair_overflows :
    let t : Table := ⟨⟨.dat, 0, 0xFFFFFFFFFFFFFFFF, 1⟩, 64⟩
    let a := writePair t 0 0x2000000000000000 0x0000000200000001
    a.need.refusal? t.layout 0 = none ∧
      UInt64.size ≤ 0 * t.layout.entryBytes.toNat + 8 * (0x2000000000000000 : UInt64).toNat ∧
      a.program.run Model.responder (.blank 64) =
        ⟨.error (.panic .mulOverflow), .blank 64, [], []⟩ := by
  exact ⟨by decide, by decide, rfl⟩

end Access

/-! ## Fields by the bit of their entry -/

namespace Field

theorem toNat_word_ofEntryBit (low : UInt16) (mask : Word) :
    (ofEntryBit low mask).word.toNat = low.toNat / 32 % 256 := by
  rw [ofEntryBit, UInt16.toNat_toUInt8, UInt16.toNat_div]
  rfl

theorem low_ofEntryBit (low : UInt16) (mask : Word) :
    (ofEntryBit low mask).low.toUInt32 = low.toUInt32 % 32 := by
  have h32 : low.toNat % 32 < 2 ^ 8 := Nat.lt_trans (Nat.mod_lt _ (by decide)) (by decide)
  apply UInt32.toNat_inj.mp
  rw [ofEntryBit, UInt8.toNat_toUInt32, UInt16.toNat_toUInt8, UInt16.toNat_mod, UInt32.toNat_mod,
    UInt16.toNat_toUInt32]
  exact Nat.mod_eq_of_lt h32

theorem get_ofEntryBit (low : UInt16) (mask w : Word) :
    (ofEntryBit low mask).get w = (w &&& mask) >>> (low.toUInt32 % 32) := by
  rw [get, extract, Word.down, low_ofEntryBit]
  rfl

theorem set_ofEntryBit (low : UInt16) (mask w value : Word) : (ofEntryBit low mask).set w value =
    (w &&& ~~~mask) ||| ((value <<< (low.toUInt32 % 32)) &&& mask) := by
  rw [set, inject, Word.merge, Word.up, low_ofEntryBit]
  rfl

end Field

/-- The run loads the word at a byte of the window and returns its bits inside the mask, shifted
down. -/
def Outcome.Reads {σ : Type} (o : Outcome σ Word) (place : Nat) (low mask : Word) : Prop :=
  ∃ a : Address, a.toNat = place ∧
    ((∃ e, o.result = .error e ∧ o.transactions = [.load a none]) ∨
      ∃ w, o.result = .ok ((w &&& mask) >>> low) ∧ o.transactions = [.load a (some w)])

/-- The run loads the word at a byte of the window and stores it there with the bits inside the
mask taken from a value that is shifted up. -/
def Outcome.Updates {σ : Type} (o : Outcome σ Unit) (place : Nat) (low mask value : Word) : Prop :=
  ∃ a : Address, a.toNat = place ∧
    ((∃ e, o.result = .error e ∧ o.transactions = [.load a none]) ∨
      ∃ w, let new := (w &&& ~~~mask) ||| ((value <<< low) &&& mask)
        (∃ e, o.result = .error e ∧ o.transactions = [.load a (some w), .store a new false]) ∨
          o.result = .ok () ∧ o.transactions = [.load a (some w), .store a new true])

namespace Bus

variable {σ : Type} {a : Address} {f : Field} {low mask value : Word}

/-- The program that loads the word at `a` and returns a field of it. -/
def pick (a : Address) (f : Field) : Bus Word :=
  .load a fun w => .note (.fieldRead a f.mask f.low (f.get w)) (.done (f.get w))

/-- Two checks in a row are one. -/
theorem check_bind {ι κ α : Type} {x : Except Fault ι} {g : ι → Except Fault κ} {p : κ → Bus α} :
    ((ofExcept x).bind fun a => (ofExcept (g a)).bind p) = (ofExcept (x >>= g)).bind p := by
  cases x with
  | ok a => rfl
  | error e => rfl

theorem reads_pick (hget : ∀ w, f.get w = (w &&& mask) >>> low) (r : Responder σ) (s : σ) :
    ((pick a f).run r s).Reads a.toNat low mask := by
  refine ⟨a, rfl, ?_⟩
  rw [pick]
  cases hl : (r.load a s).result with
  | error e =>
      rw [run_load_error hl]
      exact .inl ⟨e, rfl, rfl⟩
  | ok w =>
      rw [run_load_ok hl, hget]
      exact .inr ⟨w, rfl, rfl⟩

theorem updates_update
    (hset : ∀ w, f.set w value = (w &&& ~~~mask) ||| ((value <<< low) &&& mask))
    (r : Responder σ) (s : σ) : ((update a f value).run r s).Updates a.toNat low mask value := by
  refine ⟨a, rfl, ?_⟩
  rw [update]
  cases hl : (r.load a s).result with
  | error e =>
      rw [run_load_error hl]
      exact .inl ⟨e, rfl, rfl⟩
  | ok w =>
      rw [run_load_ok hl, hset]
      refine .inr ⟨w, ?_⟩
      generalize (w &&& ~~~mask) ||| ((value <<< low) &&& mask) = new
      simp only [run]
      cases (r.store a new (r.load a s).state).result with
      | error e => exact .inl ⟨e, rfl, rfl⟩
      | ok u => exact .inr ⟨rfl, rfl⟩

end Bus

namespace Table

variable {t : Table} {i : UInt64} {start : Address} {f : Field}

/-- Where a field of an entry is, or the fault that keeps it from being reached. -/
def fieldPlace (t : Table) (i : UInt64) (f : Field) : Except Fault Address := do
  let start ← t.permit i (.field f)
  t.registers.fieldAddress start f

theorem readField_eq (t : Table) (i : UInt64) (f : Field) :
    t.readField i f = (Bus.ofExcept (t.fieldPlace i f)).bind fun a => Bus.pick a f :=
  Bus.check_check.trans Bus.check_bind

theorem writeField_eq (t : Table) (i : UInt64) (f : Field) (value : Word) :
    t.writeField i f value =
      (Bus.ofExcept (t.fieldPlace i f)).bind fun a => Bus.update a f value :=
  Bus.check_check.trans Bus.check_bind

/-- A word whose offset in the table is an exact sum is where exact arithmetic puts it. If that is
no address the word is out of bounds. -/
theorem address_wordFrom {w : Nat} (hsum : start.toNat + 4 * w < UInt64.size) :
    let place := start.toNat + 4 * w
    t.registers.address (wordFrom start w) =
      if t.layout.offset.toNat + place < UInt64.size then
        .ok (UInt64.ofNat (t.layout.offset.toNat + place))
      else .error (.outOfBounds (UInt64.ofNat place) t.window) := by
  intro place
  have hplace : (wordFrom start w).toNat = place := toNat_wordFrom hsum
  have hbase : t.registers.base = t.layout.offset := rfl
  rw [← hplace, UInt64.ofNat_add, UInt64.ofNat_toNat, UInt64.ofNat_toNat]
  split
  · next hlt =>
    rw [← hbase] at hlt ⊢
    exact Registers.address_eq hlt
  · next hge =>
    rw [Registers.address, hbase, Address.add?_eq_none.mpr (Nat.not_lt.mp hge)]
    rfl

theorem fieldAddress_eq_ite (h : t.permit i (.field f) = .ok start) :
    let place := start.toNat + 4 * f.word.toNat
    t.registers.fieldAddress start f =
      if t.layout.offset.toNat + place < UInt64.size then
        .ok (UInt64.ofNat (t.layout.offset.toNat + place))
      else .error (.outOfBounds (UInt64.ofNat place) t.window) := by
  obtain ⟨hs, hf⟩ := permit_eq_ok_iff.mp h
  rw [fieldAddress_of_permit h]
  exact address_wordFrom (field_sum hs (Nat.lt_of_succ_le hf))

/-- In an entry of the table a field is reached unless its word is past the entry or has no
address. -/
theorem fieldPlace_eq (hi : t.layout.HasEntry i) (f : Field) :
    let word := f.word.toNat
    let place := i.toNat * t.layout.entryBytes.toNat + 4 * word
    t.fieldPlace i f =
      if t.layout.entryWords.toNat ≤ word then
        .error (.wordOutOfRange t.layout.kind (UInt64.ofNat word) t.layout.entryWords)
      else if t.layout.offset.toNat + place < UInt64.size then
        .ok (UInt64.ofNat (t.layout.offset.toNat + place))
      else .error (.outOfBounds (UInt64.ofNat place) t.window) := by
  intro word place
  have hpermit := t.permit_eq i (.field f)
  rw [Need.refusal?, if_neg (not_not.mpr hi)] at hpermit
  rw [fieldPlace]
  split
  · next hpast =>
    rw [if_pos hpast] at hpermit
    rw [hpermit]
    rfl
  · next hinside =>
    rw [if_neg hinside] at hpermit
    have hstart := (entryOffset_eq_ok (permit_eq_ok_iff.mp hpermit).1).2.1
    have haddress := fieldAddress_eq_ite hpermit
    simp only [hstart] at haddress
    rw [hpermit]
    exact haddress

/-- A field that is given by the bit of the entry it starts at is read and written in the word that
has this bit and nowhere else, as long as the word can be named. An entry without such a word
refuses the field, and a word without an address is out of bounds; neither reaches the bus. -/
theorem field_of_entryBit (t : Table) (i : UInt64) (low : UInt16) (mask value : Word)
    (hi : t.layout.HasEntry i) (hlow : low.toNat < 8192) {σ : Type} (r : Responder σ) (s : σ) :
    let f := Field.ofEntryBit low mask
    let word := low.toNat / 32
    let shift := low.toUInt32 % 32
    let start := i.toNat * t.layout.entryBytes.toNat
    let read := (t.readField i f).run r s
    let write := (t.writeField i f value).run r s
    (t.layout.entryWords.toNat ≤ word →
      let fault := Fault.wordOutOfRange t.layout.kind (UInt64.ofNat word) t.layout.entryWords
      read = ⟨.error fault, s, [], []⟩ ∧ write = ⟨.error fault, s, [], []⟩) ∧
    (word < t.layout.entryWords.toNat →
      let place := t.layout.offset.toNat + (start + 4 * word)
      (UInt64.size ≤ place →
        let fault := Fault.outOfBounds (UInt64.ofNat (start + 4 * word)) t.window
        read = ⟨.error fault, s, [], []⟩ ∧ write = ⟨.error fault, s, [], []⟩) ∧
      (place < UInt64.size →
        read.Reads place shift mask ∧ write.Updates place shift mask value)) := by
  intro f word shift start read write
  have hword : f.word.toNat = word := by
    rw [Field.toNat_word_ofEntryBit]
    omega
  have hread : read = _ := congrArg (fun p => p.run r s) (t.readField_eq i f)
  have hwrite : write = _ := congrArg (fun p => p.run r s) (t.writeField_eq i f value)
  have hplace := fieldPlace_eq hi f
  simp only [hword] at hplace
  rw [hplace] at hread hwrite
  constructor
  · intro hpast fault
    rw [hread, hwrite, if_pos hpast]
    exact ⟨rfl, rfl⟩
  · intro hinside place
    rw [if_neg (Nat.not_le.mpr hinside)] at hread hwrite
    constructor
    · intro hover fault
      rw [hread, hwrite, if_neg (Nat.not_lt.mpr hover)]
      exact ⟨rfl, rfl⟩
    · intro hfits
      have hexact : (UInt64.ofNat place).toNat = place := UInt64.toNat_ofNat_of_lt' hfits
      rw [hread, hwrite, if_pos hfits, ← hexact]
      exact ⟨Bus.reads_pick (Field.get_ofEntryBit low mask) r s,
        Bus.updates_update (fun w => Field.set_ofEntryBit low mask w value) r s⟩

/-- Bit 40 of entry 1 is bit 8 of word 1. An entry of two words has no bit 64. -/
theorem field_of_entryBit_second :
    let t : Table := ⟨⟨.dat, 8, 2, 2⟩, 24⟩
    let run := fun low => (t.readField 1 (.ofEntryBit low 0xFF00)).run Model.responder (.blank 24)
    t.layout.HasEntry 1 ∧ (run 40).Reads 20 8 0xFF00 ∧
      run 64 = ⟨.error (.wordOutOfRange .dat 2 2), .blank 24, [], []⟩ := by
  intro t run
  have hentry : t.layout.HasEntry 1 := by decide
  have hsecond := field_of_entryBit t 1 40 0xFF00 0 hentry (by decide) Model.responder (.blank 24)
  have hpast := field_of_entryBit t 1 64 0xFF00 0 hentry (by decide) Model.responder (.blank 24)
  exact ⟨hentry, ((hsecond.2 (by decide)).2 (by decide)).1, (hpast.1 (by decide)).1⟩

/-- Bit 8192 is in word 256, whose number has nine bits: bit 0 of word 0 is taken for it, in an
entry that has two words. -/
theorem entryBit_wraps :
    let t : Table := ⟨⟨.dat, 0, 2, 1⟩, 64⟩
    let f := Field.ofEntryBit 8192 1
    t.layout.HasEntry 0 ∧ t.layout.entryWords.toNat ≤ (8192 : UInt16).toNat / 32 ∧
      ((t.readField 0 f).run Model.responder (.blank 64)).transactions = [.load 0 (some 0)] ∧
      ((t.writeField 0 f 1).run Model.responder (.blank 64)).transactions =
        [.load 0 (some 0), .store 0 1 true] := by
  exact ⟨by decide, by decide, by decide +kernel, by decide +kernel⟩

end Table

end I3CHost
