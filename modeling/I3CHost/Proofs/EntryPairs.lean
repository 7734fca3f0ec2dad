import I3CHost.Proofs.AccessPaths
import I3CHost.Proofs.EntryIsolation

/-!
# Pairs of words

An entry can be written as words or as pairs of words, and read the same two ways. Pairs that are
stored one after the other store the words that their halves are, so all that can tell them from a
store of the whole entry is which checks come when. If every store succeeds nothing does.

A pair is its two words and no others. So it reads back as it was stored where the words can be
written, and every other pair of the table reads as before.
-/
namespace I3CHost

variable {σ : Type}

namespace Table

variable {t : Table} {i p start : UInt64} {k : Nat} {r : Responder σ} {s : σ} {vs : List UInt64}

/-! ## Pairs one after the other -/

/-- Store pairs of an entry from pair `k` on. -/
def writePairs (t : Table) (i : UInt64) : Nat → List UInt64 → Bus Unit
  | _, [] => pure ()
  | k, v :: vs => do
    t.writePair i (UInt64.ofNat k) v
    t.writePairs i (k + 1) vs

theorem wordFrom_add (start : Address) (k : Nat) :
    wordFrom start k + Address.wordBytes = wordFrom start (k + 1) := by
  rw [wordFrom, wordFrom, UInt64.ofNat_add, UInt64.add_mul, UInt64.add_assoc]
  rfl

theorem length_halves (vs : List UInt64) : (vs.flatMap halves).length = 2 * vs.length := by
  induction vs with
  | nil => rfl
  | cons v vs ih =>
      rw [List.flatMap_cons, List.length_append, ih, List.length_cons, Nat.mul_succ, Nat.add_comm]
      rfl

/-- Pairs that the entry has are stored as a run of words. -/
theorem writePairs_eq (hshort : 4 * t.layout.entryWords.toNat < UInt64.size)
    (hs : t.entryOffset i = .ok start)
    (hwords : 2 * (k + vs.length) ≤ t.layout.entryWords.toNat) :
    t.writePairs i k vs = t.registers.writeRun (wordFrom start (2 * k)) (vs.flatMap halves) := by
  induction vs generalizing k with
  | nil => rfl
  | cons v vs ih =>
      rw [List.length_cons] at hwords
      have hk : (UInt64.ofNat k).toNat = k := by
        have hlt := t.layout.entryWords.toNat_lt_size
        exact UInt64.toNat_ofNat_of_lt' (by omega)
      have hpermit : t.permit i (.pair (UInt64.ofNat k)) = .ok start :=
        permit_eq_ok_iff.mpr ⟨hs, by simp only [Need.first, Need.count, hk]; omega⟩
      have hpair : t.writePair i (UInt64.ofNat k) v =
          (t.registers.write (wordFrom start (2 * k)) v.toUInt32).bind fun _ =>
            t.registers.write (wordFrom start (2 * k + 1)) (v >>> 32).toUInt32 := by
        rw [writePair_of_grant (grant_of_permit hpermit (Nat.le_of_lt hshort)), hk]
      have hrest := ih (k := k + 1) (by omega)
      rw [writePairs, hpair, hrest]
      simp only [Bus.bind_eq, Bus.bind_assoc]
      rw [List.flatMap_cons, halves, List.cons_append, List.cons_append, List.nil_append,
        Registers.writeRun, Registers.writeRun, wordFrom_add, wordFrom_add]
      rfl

/-- Pairs that could all be stored are pairs of an entry. -/
theorem writePairs_eq_ok (h : ((t.writePairs i k vs).run r s).result = .ok ())
    (hk : 2 * k ≤ t.layout.entryWords.toNat) :
    2 * (k + vs.length) ≤ t.layout.entryWords.toNat ∧
      (vs = [] ∨ ∃ start, t.entryOffset i = .ok start) := by
  induction vs generalizing k s with
  | nil => exact ⟨hk, .inl rfl⟩
  | cons v vs ih =>
      obtain ⟨_, hfirst, hrest⟩ := Bus.run_bind_eq_ok h
      cases hpermit : t.permit i (.pair (UInt64.ofNat k)) with
      | error e =>
          rw [(serves_writePair t i _ v).eq_stop (grant_of_permit_error hpermit)] at hfirst
          cases hfirst
      | ok start =>
          obtain ⟨hs, hwords⟩ := permit_eq_ok_iff.mp hpermit
          have hlt := t.layout.entryWords.toNat_lt_size
          rw [Need.first, Need.count, UInt64.toNat_ofNat_of_lt' (by omega)] at hwords
          obtain ⟨hlength, -⟩ := ih hrest (by omega)
          rw [List.length_cons]
          exact ⟨by omega, .inr ⟨start, hs⟩⟩

/-- Pairs stored one after the other, or their halves as an entry: if one of the two succeeds they
come to the same. -/
theorem run_writePairs (hshort : 4 * t.layout.entryWords.toNat < UInt64.size) (i : UInt64)
    (vs : List UInt64) (r : Responder σ) (s : σ) :
    let pairs := (t.writePairs i 0 vs).run r s
    let entry := (t.writeEntry i (vs.flatMap halves)).run r s
    pairs.result = .ok () ∨ entry.result = .ok () →
      pairs.state = entry.state ∧ pairs.transactions = entry.transactions := by
  intro pairs entry hok
  have hentry : t.writeEntry i (vs.flatMap halves) =
      (Bus.ofExcept (t.permit i (.words (vs.flatMap halves).length))).bind fun start =>
        .note (.entryWrite t.layout.kind i (vs.flatMap halves))
          (t.registers.writeRun start (vs.flatMap halves)) := Bus.check_check
  have hsame {start : Address} (hs : t.entryOffset i = .ok start)
      (hwords : 2 * vs.length ≤ t.layout.entryWords.toNat) :
      pairs.state = entry.state ∧ pairs.transactions = entry.transactions := by
    have hpermit : t.permit i (.words (vs.flatMap halves).length) = .ok start :=
      permit_eq_ok_iff.mpr ⟨hs, by rw [Need.first, Need.count, length_halves]; omega⟩
    have hpairs := writePairs_eq hshort hs ((Nat.zero_add vs.length).symm ▸ hwords)
    rw [Nat.mul_zero, wordFrom_zero] at hpairs
    simp only [pairs, entry, hpairs, hentry, hpermit]
    exact ⟨rfl, rfl⟩
  rcases hok with hok | hok
  · obtain ⟨hwords, rfl | ⟨start, hs⟩⟩ := writePairs_eq_ok hok (Nat.zero_le _)
    · -- No pair asks for an entry, but a store of no words does.
      simp only [pairs, entry, hentry]
      cases t.permit i (.words _) with
      | error e => exact ⟨rfl, rfl⟩
      | ok start => exact ⟨rfl, rfl⟩
    · exact hsame hs (by rwa [Nat.zero_add] at hwords)
  · cases hpermit : t.permit i (.words (vs.flatMap halves).length) with
    | error e =>
        simp only [entry, hentry, hpermit] at hok
        cases hok
    | ok start =>
        obtain ⟨hs, hwords⟩ := permit_eq_ok_iff.mp hpermit
        rw [Need.first, Need.count, length_halves, Nat.zero_add] at hwords
        exact hsame hs hwords

/-- A place of one of the two words of a pair. -/
def InPair (t : Table) (i p : UInt64) (o : Address) : Prop :=
  ∃ w, (w = 2 * p.toNat ∨ w = 2 * p.toNat + 1) ∧ w < t.layout.entryWords.toNat ∧
    o.toNat = t.layout.place i w

/-- A pair is read from no words but its own two. -/
theorem within_readPair_words (hshort : 4 * t.layout.entryWords.toNat < UInt64.size)
    (i p : UInt64) : (t.readPair i p).Within (t.InPair i p) fun _ => False := by
  rw [readPair_eq hshort]
  refine Bus.within_check fun start hpermit => ?_
  have hwords := (permit_eq_ok_iff.mp hpermit).2
  rw [Need.first, Need.count] at hwords
  have hword {w : Nat} (hw : w = 2 * p.toNat ∨ w = 2 * p.toNat + 1) :
      (t.loadWord i w).Within (t.InPair i p) fun _ => False := by
    rw [loadWord_eq]
    exact Bus.within_check fun a ha =>
      ⟨⟨w, hw, by omega, toNat_wordPlace ha⟩, fun _ => trivial⟩
  exact (hword (.inl rfl)).bind fun _ => (hword (.inr rfl)).bind fun _ => trivial

/-- A pair is known by its halves. -/
theorem halves_inj {v v' : UInt64} (h : halves v = halves v') : v = v' := by
  have hsplit (v : UInt64) :
      v.toNat = (v >>> 32).toUInt32.toNat * 2 ^ 32 + v.toUInt32.toNat := by
    have hlt := v.toNat_lt
    have hshift : (v >>> 32).toNat = v.toNat / 2 ^ 32 := by
      rw [UInt64.toNat_shiftRight, Nat.shiftRight_eq_div_pow]
      rfl
    rw [UInt64.toNat_toUInt32, UInt64.toNat_toUInt32, hshift]
    omega
  obtain ⟨hlow, hrest⟩ := List.cons.inj h
  apply UInt64.toNat_inj.mp
  rw [hsplit v, hsplit v', hlow, (List.cons.inj hrest).1]

end Table

/-! ## Reading back -/

namespace Model

variable {m : Model} {t : Table} {i j p q : UInt64} {w : Nat} {v : Word}

/-- A word that could be stored has an accepted address. -/
theorem run_storeWord (h : ((t.storeWord i w v).run responder m).result = .ok ()) :
    ∃ a, t.wordPlace i w = .ok a ∧ m.Accepts a ∧
      ((t.storeWord i w v).run responder m).state = (m.store a v).state := by
  rw [Table.storeWord_eq] at h ⊢
  cases ha : t.wordPlace i w with
  | error e =>
      rw [ha] at h
      cases h
  | ok a =>
      rw [ha] at h
      have hrun : ((Bus.ofExcept (.ok a : Except Fault Address)).bind fun a =>
          Bus.write a v).run responder m = (Bus.write a v).run responder m := rfl
      rw [hrun] at h ⊢
      rw [Bus.write] at h ⊢
      by_cases hacc : m.Accepts a
      · have hstored : (responder.store a v m).result = .ok () := (store_of_accepts hacc v).1
        rw [Bus.run_store_ok hstored]
        exact ⟨a, rfl, hacc, rfl⟩
      · obtain ⟨e, -, he⟩ := store_of_not_accepts hacc v
        rw [Bus.run_store_error (e := e) (by rw [responder_store, he])] at h
        cases h

section
variable (hshort : 4 * t.layout.entryWords.toNat < UInt64.size)
include hshort

/-- A pair that could be stored has two accepted words, and they are stored. -/
theorem run_writePair {v : UInt64} (h : ((t.writePair i p v).run responder m).result = .ok ()) :
    (∃ start, t.permit i (.pair p) = .ok start) ∧
      ∃ a b, t.wordPlace i (2 * p.toNat) = .ok a ∧ t.wordPlace i (2 * p.toNat + 1) = .ok b ∧
        m.Accepts a ∧ m.Accepts b ∧
        ((t.writePair i p v).run responder m).state =
          ((m.store a v.toUInt32).state.store b (v >>> 32).toUInt32).state := by
  cases hpermit : t.permit i (.pair p) with
  | error e =>
      rw [(Table.serves_writePair t i p v).eq_stop (Table.grant_of_permit_error hpermit)] at h
      cases h
  | ok start =>
      have hpair : t.writePair i p v =
          (t.storeWord i (2 * p.toNat) v.toUInt32).bind fun _ =>
            t.storeWord i (2 * p.toNat + 1) (v >>> 32).toUInt32 := by
        rw [Table.writePair_eq hshort, hpermit]
        rfl
      rw [hpair] at h ⊢
      obtain ⟨u, hfirst, hsecond⟩ := Bus.run_bind_eq_ok h
      obtain ⟨a, ha, hacc, hstate⟩ := run_storeWord hfirst
      rw [hstate] at hsecond
      obtain ⟨b, hb, hacc', hstate'⟩ := run_storeWord hsecond
      refine ⟨⟨start, rfl⟩, a, b, ha, hb, hacc,
        (accepts_congr (size_cells_store m a v.toUInt32)).mp hacc', ?_⟩
      rw [(Bus.run_bind_of_ok hfirst).2, hstate, hstate']

/-- A pair that could be stored is read back if its words can be written, and all other pairs of the
table read as before. -/
theorem readPair_writePair {v : UInt64}
    (h : ((t.writePair i p v).run responder m).result = .ok ()) :
    let m' := ((t.writePair i p v).run responder m).state
    ((∀ k < 2, m.maskAt (t.layout.place i (2 * p.toNat + k) / 4) = Word.ones) →
      ((t.readPair i p).run responder m').result = .ok v) ∧
    ∀ j q, (j, q) ≠ (i, p) →
      ((t.readPair j q).run responder m').result = ((t.readPair j q).run responder m).result := by
  intro m'
  obtain ⟨⟨start, hpermit⟩, a, b, ha, hb, hacca, haccb, hstate⟩ := run_writePair hshort h
  have hm' : m' = ((m.store a v.toUInt32).state.store b (v >>> 32).toUInt32).state := hstate
  have hwords := (Table.permit_eq_ok_iff.mp hpermit).2
  rw [Need.first, Need.count] at hwords
  have hplacea := Table.toNat_wordPlace ha
  have hplaceb := Table.toNat_wordPlace hb
  have hsize : m'.cells.size = m.cells.size := by
    rw [hm', size_cells_store, size_cells_store]
  have hnext : (m.store a v.toUInt32).state.Accepts b :=
    (accepts_congr (size_cells_store m a v.toUInt32)).mpr haccb
  have hfour := hacca.four_mul_index
  have hfour' := haccb.four_mul_index
  have hapart : index b = index a + 1 := by
    rw [TableLayout.place] at hplacea hplaceb
    omega
  constructor
  · intro hmask
    have hmaska : m.maskAt (index a) = Word.ones := by
      have hword := hmask 0 Nat.two_pos
      rwa [Nat.add_zero, ← hplacea, ← index_eq] at hword
    have hmaskb : m.maskAt (index b) = Word.ones := by
      have hword := hmask 1 Nat.one_lt_two
      rwa [← hplaceb, ← index_eq] at hword
    have hlow : m'.wordAt (index a) = v.toUInt32 := by
      rw [hm', wordAt_store, if_neg (by omega), wordAt_store, if_pos ⟨hacca, rfl⟩, hmaska,
        Word.merge_ones]
    have hhigh : m'.wordAt (index b) = (v >>> 32).toUInt32 := by
      rw [hm', wordAt_store, if_pos ⟨hnext, rfl⟩, maskAt_store, hmaskb, Word.merge_ones]
    have hload {o : Address} (ho : m.Accepts o) :
        (responder.load o m').result = .ok (m'.wordAt (index o)) := by
      rw [responder_load, load_of_accepts ((accepts_congr hsize).mpr ho)]
    have hread := Table.run_readPair hshort Model.steady hpermit ha hb (hload hacca) (hload haccb)
    rw [hread, hlow, hhigh]
    exact congrArg Except.ok (Table.halves_inj (Table.halves_eq _ _))
  · intro j q hne
    refine (result_congr (Table.within_readPair_words hshort j q) hsize.symm fun o ho hacc => ?_).symm
    obtain ⟨w, hw, hlt, hplace⟩ := ho
    have hfour'' := hacc.four_mul_index
    -- A word that both pairs have would make them one.
    have hother {u : Nat} (hu : u = 2 * p.toNat ∨ u = 2 * p.toNat + 1) :
        o.toNat ≠ t.layout.place i u := by
      intro heq
      obtain ⟨rfl, hsame⟩ := TableLayout.place_inj hshort hlt (by omega) (hplace.symm.trans heq)
      have hpairs : q = p := UInt64.toNat_inj.mp (by omega)
      exact hne (by rw [hpairs])
    have hnea := hother (.inl rfl)
    have hneb := hother (.inr rfl)
    rw [hm', cells_store, if_neg (by omega), cells_store, if_neg (by omega)]

end

end Model

/-! ## All paths -/

/-- The paths to the words of entry `i` agree, for reading and for writing. -/
structure Table.PathsAgree (t : Table) (i : UInt64) : Prop where
  /-- A list and a vector of the first words are read by the same accesses, to the same end. -/
  vector {σ : Type} (r : Responder σ) (s : σ) (n : Nat) :
    let o := (t.readWords i n).run r s
    (t.readEntry i n).run r s = ⟨o.result.map Vector.toList, o.state, o.transactions, o.events⟩
  /-- A word of them is what is read at its place in the window, and the field of all its bits. -/
  word {σ : Type} (r : Responder σ) (hr : r.Steady) (s : σ) {n : Nat} {ws : List Word}
    (h : ((t.readEntry i n).run r s).result = .ok ws) {w : Nat} {x : Word}
    (hx : ws[w]? = some x) :
    let place := t.layout.place i w
    (place < UInt64.size ∧ ((t.flat.read (UInt64.ofNat place)).run r s).result = .ok x) ∧
      ∀ word : UInt8, word.toNat = w →
        ((t.readField i ⟨word, 0, Word.ones⟩).run r s).result = .ok x
  /-- Two of them that make a pair are the halves of the pair. -/
  pair {σ : Type} (r : Responder σ) (hr : r.Steady) (s : σ) {n : Nat} {ws : List Word}
    (h : ((t.readEntry i n).run r s).result = .ok ws) {p : UInt64} {low high : Word}
    (hlow : ws[2 * p.toNat]? = some low) (hhigh : ws[2 * p.toNat + 1]? = some high) :
    ∃ v, ((t.readPair i p).run r s).result = .ok v ∧ v.toUInt32 = low ∧
      (v >>> 32).toUInt32 = high
  /-- Past its checks a store of a pair is two stores at places in the window, low half first. -/
  stores (p v : UInt64) :
    t.writePair i p v = (Bus.ofExcept (t.permit i (.pair p))).bind fun _ =>
      (t.storeWord i (2 * p.toNat) v.toUInt32).bind fun _ =>
        t.storeWord i (2 * p.toNat + 1) (v >>> 32).toUInt32
  /-- Pairs that are stored one after the other come to the same as their halves stored at once. -/
  pairs {σ : Type} (r : Responder σ) (s : σ) (vs : List UInt64) :
    let pairs := (t.writePairs i 0 vs).run r s
    let entry := (t.writeEntry i (vs.flatMap halves)).run r s
    pairs.result = .ok () ∨ entry.result = .ok () →
      pairs.state = entry.state ∧ pairs.transactions = entry.transactions
  /-- Over a model a pair that can be written is read back, and no other pair changes. -/
  readBack (m : Model) (p v : UInt64) :
    let o := (t.writePair i p v).run Model.responder m
    o.result = .ok () →
      ((∀ k < 2, m.maskAt (t.layout.place i (2 * p.toNat + k) / 4) = Word.ones) →
        ((t.readPair i p).run Model.responder o.state).result = .ok v) ∧
      ∀ j q, (j, q) ≠ (i, p) → ((t.readPair j q).run Model.responder o.state).result =
        ((t.readPair j q).run Model.responder m).result

/-- In a table whose entries are shorter than the address space all paths to an entry agree, at
every index and from every state. -/
theorem Table.paths_agree (t : Table) (hshort : 4 * t.layout.entryWords.toNat < UInt64.size)
    (i : UInt64) : t.PathsAgree i where
  vector r s n := by
    rw [← toList_readWords t i n]
    exact Bus.run_map r (t.readWords i n) Vector.toList s
  word r hr s _ _ h _ _ hx := word_of_readEntry hshort hr h hx
  pair r hr s _ _ h _ _ _ hlow hhigh := by
    obtain ⟨v, hv, hhalves⟩ := pair_of_readEntry hshort hr h hlow hhigh
    obtain ⟨hfirst, hrest⟩ := List.cons.inj hhalves
    exact ⟨v, hv, hfirst, (List.cons.inj hrest).1⟩
  stores := writePair_eq hshort i
  pairs r s vs := run_writePairs hshort i vs r s
  readBack _ _ _ h := Model.readPair_writePair hshort h

/-- Entries of five words from offset 4 on: pair 1 of entry 1 takes its words 2 and 3, which are at
bytes 32 and 36. -/
theorem Table.paths_agree_five :
    let t : Table := ⟨⟨.dct, 4, 5, 2⟩, 48⟩
    let v : UInt64 := 0x1122334455667788
    let run := fun {α : Type} (p : Bus α) (m : Model) => p.run Model.responder m
    let o := run (t.writePair 1 1 v) (.blank 48)
    4 * t.layout.entryWords.toNat < UInt64.size ∧ o.result = .ok () ∧
      o.transactions = [.store 32 0x55667788 true, .store 36 0x11223344 true] ∧
      (run (t.readEntry 1 4) o.state).result = .ok [0, 0, 0x55667788, 0x11223344] ∧
      (run (t.flat.read 36) o.state).result = .ok 0x11223344 ∧
      (run (t.readField 1 ⟨3, 0, Word.ones⟩) o.state).result = .ok 0x11223344 ∧
      (run (t.readPair 1 1) o.state).result = .ok v ∧
      (run (t.readPair 1 0) o.state).result = (run (t.readPair 1 0) (.blank 48)).result := by
  intro t v run o
  have hshort : 4 * t.layout.entryWords.toNat < UInt64.size := by decide
  have hagree := paths_agree t hshort 1
  have hok : o.result = .ok () := by decide +kernel
  have hentry : (run (t.readEntry 1 4) o.state).result = .ok [0, 0, 0x55667788, 0x11223344] := by
    decide +kernel
  obtain ⟨⟨-, hflat⟩, hfield⟩ := hagree.word _ Model.steady _ hentry (w := 3) rfl
  obtain ⟨hpair, hothers⟩ := hagree.readBack (.blank 48) 1 v hok
  exact ⟨hshort, hok, by decide +kernel, hentry, hflat, hfield 3 rfl, hpair (by decide +kernel),
    hothers 1 0 (by decide)⟩

end I3CHost
