import I3CHost.Proofs.Contents
import I3CHost.Proofs.EntryWords

/-!
# Paths to the words of an entry

A word of an entry can be reached as one of the first words, as a field, as half of a pair, or by a
view of the whole window that takes the sum of offset, entry and word for its offset. The sums are
formed in four ways. In entries shorter than the address space all of them are exact, so past their
checks the paths differ in nothing but which words they take and how they put them together: each is
a program of single words at exact places.

If loads have no effect on each other, each path therefore returns the same words as the others.
Pairs that are stored one after the other are a store of the whole entry, and a pair reads back as
it was stored where its words can be written.
-/
namespace I3CHost

variable {σ α β : Type}

/-! ## Windows whose loads have no effect -/

/-- A load has no effect on what a later load returns. -/
def Responder.Steady (r : Responder σ) : Prop :=
  ∀ o a s, (r.load a (r.load o s).state).result = (r.load a s).result

theorem Model.steady : Responder.Steady Model.responder := by
  intro o a m
  have hcells := cells_load m o
  have haccepts : (m.load o).state.Accepts a ↔ m.Accepts a :=
    accepts_congr (congrArg Array.size hcells)
  simp only [responder_load]
  by_cases h : m.Accepts a
  · rw [load_of_accepts h, load_of_accepts (haccepts.mpr h), wordAt, wordAt, hcells]
  · obtain ⟨e, he, hload⟩ := load_of_not_accepts h
    obtain ⟨e', he', hload'⟩ := load_of_not_accepts (mt haccepts.mp h)
    rw [size_congr (congrArg Array.size hcells), he] at he'
    rw [hload, hload', Except.error.inj he']

namespace Bus

theorem run_read (r : Responder σ) (a : Address) (s : σ) :
    ((read a).run r s).result = (r.load a s).result ∧
      ((read a).run r s).state = (r.load a s).state := by
  rw [read]
  cases hl : (r.load a s).result with
  | ok w =>
      rw [run_load_ok hl]
      exact ⟨rfl, rfl⟩
  | error e =>
      rw [run_load_error hl]
      exact ⟨rfl, rfl⟩

/-- One load, from a place that a check has yet to give. -/
theorem run_check_read {r : Responder σ} {x : Except Fault Address} {s : σ} {w : Word} :
    (((ofExcept x).bind read).run r s).result = .ok w ↔
      ∃ a, x = .ok a ∧ (r.load a s).result = .ok w := by
  cases x with
  | error e => exact ⟨fun h => (by cases h), fun ⟨_, h, _⟩ => (by cases h)⟩
  | ok a =>
      have hrun := (run_read r a s).1
      constructor
      · exact fun h => ⟨a, rfl, hrun.symm.trans h⟩
      · rintro ⟨_, ha, h⟩
        cases ha
        exact hrun.trans h

/-- In a steady window a load leaves the other loads as they are. -/
theorem steady_check_read {r : Responder σ} (hr : r.Steady) (x : Except Fault Address) (s : σ)
    (a : Address) :
    (r.load a (((ofExcept x).bind read).run r s).state).result = (r.load a s).result := by
  cases x with
  | error e => rfl
  | ok o =>
      have hstate : (((ofExcept (.ok o)).bind read).run r s).state = (r.load o s).state :=
        (run_read r o s).2
      rw [hstate]
      exact hr o a s

end Bus

/-! ## Runs of registers -/

namespace Registers

theorem readRun_succ_last (v : Registers) (offset : Address) (n : Nat) :
    v.readRun offset (n + 1) = (v.readRun offset n).bind fun ws =>
      (v.read (Table.wordFrom offset n)).bind fun w => .done (ws ++ [w]) := by
  induction n generalizing offset with
  | zero =>
      rw [Table.wordFrom_zero]
      rfl
  | succ n ih =>
      have hstep (n : Nat) : v.readRun offset (n + 1) = (v.read offset).bind fun w =>
          (v.readRun (offset + Address.wordBytes) n).bind fun ws => .done (w :: ws) := rfl
      rw [hstep, hstep, ih, Table.wordFrom_succ]
      simp only [Bus.bind_assoc]
      rfl

/-- A vector is filled by the accesses that a list is collected by. -/
theorem toList_readVector (v : Registers) (offset : Address) (n : Nat) :
    ((v.readVector offset n).bind fun ws => .done ws.toList) = v.readRun offset n := by
  induction n with
  | zero => rfl
  | succ n ih =>
      rw [readRun_succ_last, ← ih, readVector]
      simp only [Bus.bind_eq, Bus.pure_eq, Bus.bind_assoc, Bus.bind, Vector.toList_push]
      rfl

/-- What a run returns in a steady window can be loaded one by one from the state before it. -/
theorem exists_load_of_readRun {r : Responder σ} (hr : r.Steady) {v : Registers}
    {offset : Address} {n : Nat} {s s' : σ} {ws : List Word}
    (hsame : ∀ a, (r.load a s').result = (r.load a s).result)
    (h : ((v.readRun offset n).run r s').result = .ok ws) :
    ws.length = n ∧ ∀ w x, ws[w]? = some x →
      ∃ a, v.address (Table.wordFrom offset w) = .ok a ∧ (r.load a s).result = .ok x := by
  induction n generalizing offset s' ws with
  | zero =>
      cases h
      exact ⟨rfl, fun w x hx => (by cases hx)⟩
  | succ n ih =>
      obtain ⟨u, hfirst, h⟩ := Bus.run_bind_eq_ok h
      obtain ⟨us, hrest, h⟩ := Bus.run_bind_eq_ok h
      cases h
      have hsame' := fun a => (Bus.steady_check_read hr (v.address offset) s' a).trans (hsame a)
      obtain ⟨hlength, hwords⟩ := ih hsame' hrest
      refine ⟨congrArg Nat.succ hlength, fun w x hx => ?_⟩
      cases w with
      | zero =>
          cases hx
          obtain ⟨a, ha, hload⟩ := Bus.run_check_read.mp hfirst
          rw [Table.wordFrom_zero]
          exact ⟨a, ha, (hsame a).symm.trans hload⟩
      | succ w =>
          rw [← Table.wordFrom_succ]
          exact hwords w x hx

end Registers

/-! ## Words at exact places -/

/-- Where word `w` of entry `i` is, from the start of the window and without bound. -/
def TableLayout.place (l : TableLayout) (i : UInt64) (w : Nat) : Nat :=
  l.offset.toNat + (i.toNat * l.entryBytes.toNat + 4 * w)

/-- Different words of a table are at different places. -/
theorem TableLayout.place_inj {l : TableLayout} (hshort : 4 * l.entryWords.toNat < UInt64.size)
    {i j : UInt64} {w u : Nat} (hw : w < l.entryWords.toNat) (hu : u < l.entryWords.toNat)
    (h : l.place i w = l.place j u) : i = j ∧ w = u := by
  have hbytes := l.entryBytes_eq.1 hshort
  have hindex (i : UInt64) {w : Nat} (hw : w < l.entryWords.toNat) :
      (l.place i w - l.offset.toNat) / l.entryBytes.toNat = i.toNat := by
    rw [place, Nat.add_sub_cancel_left, Nat.mul_comm, Nat.mul_add_div (by omega),
      Nat.div_eq_of_lt (by omega), Nat.add_zero]
  have hij : i.toNat = j.toNat := by rw [← hindex i hw, h, hindex j hu]
  rw [place, place, hij] at h
  exact ⟨UInt64.toNat_inj.mp hij, by omega⟩

namespace Table

variable {t : Table} {i p start : UInt64} {n w : Nat} {r : Responder σ} {s : σ} {ws : List Word}

/-- A view of the whole window. -/
def flat (t : Table) : Registers := ⟨0, t.window⟩

/-- The address of word `w` of entry `i`. If its place is no address, the word is out of bounds with
its offset in the table. -/
def wordPlace (t : Table) (i : UInt64) (w : Nat) : Except Fault Address :=
  if t.layout.place i w < UInt64.size then .ok (UInt64.ofNat (t.layout.place i w))
  else .error (.outOfBounds (UInt64.ofNat (i.toNat * t.layout.entryBytes.toNat + 4 * w)) t.window)

/-- Load a word of an entry through the view of the whole window. -/
def loadWord (t : Table) (i : UInt64) (w : Nat) : Bus Word := do
  t.flat.read (← Bus.ofExcept (t.wordPlace i w))

/-- Store a word of an entry through the view of the whole window. -/
def storeWord (t : Table) (i : UInt64) (w : Nat) (value : Word) : Bus Unit := do
  t.flat.write (← Bus.ofExcept (t.wordPlace i w)) value

theorem flat_address (t : Table) (a : Address) : t.flat.address a = .ok a := by
  have hsum : t.flat.base.toNat + a.toNat < UInt64.size := by
    rw [show t.flat.base.toNat = 0 from rfl, Nat.zero_add]
    exact a.toNat_lt_size
  rw [Registers.address_eq hsum]
  exact congrArg Except.ok (UInt64.zero_add a)

theorem flat_read (t : Table) (a : Address) : t.flat.read a = Bus.read a := by
  rw [Registers.read, flat_address]
  rfl

theorem flat_write (t : Table) (a : Address) (v : Word) : t.flat.write a v = Bus.write a v := by
  rw [Registers.write, flat_address]
  rfl

theorem loadWord_eq (t : Table) (i : UInt64) (w : Nat) :
    t.loadWord i w = (Bus.ofExcept (t.wordPlace i w)).bind Bus.read :=
  congrArg (Bus.bind _) (funext t.flat_read)

theorem storeWord_eq (t : Table) (i : UInt64) (w : Nat) (v : Word) :
    t.storeWord i w v = (Bus.ofExcept (t.wordPlace i w)).bind fun a => Bus.write a v :=
  congrArg (Bus.bind _) (funext fun a => t.flat_write a v)

theorem toNat_wordPlace {a : Address} (h : t.wordPlace i w = .ok a) :
    a.toNat = t.layout.place i w := by
  rw [wordPlace] at h
  split at h
  · next hlt =>
    cases h
    exact UInt64.toNat_ofNat_of_lt' hlt
  · cases h

section
variable (hshort : 4 * t.layout.entryWords.toNat < UInt64.size)
include hshort

/-- The words of an entry are at their exact places. -/
theorem address_word (hs : t.entryOffset i = .ok start) (hw : w < t.layout.entryWords.toNat) :
    t.registers.address (wordFrom start w) = t.wordPlace i w := by
  have hsum := (word_sum_iff hs hw).mpr (by omega)
  rw [address_wordFrom hsum, (entryOffset_eq_ok hs).2.1]
  rfl

theorem read_wordFrom (hs : t.entryOffset i = .ok start) (hw : w < t.layout.entryWords.toNat) :
    t.registers.read (wordFrom start w) = t.loadWord i w := by
  rw [Registers.read, address_word hshort hs hw, loadWord_eq]
  rfl

theorem write_wordFrom (hs : t.entryOffset i = .ok start) (hw : w < t.layout.entryWords.toNat)
    (v : Word) : t.registers.write (wordFrom start w) v = t.storeWord i w v := by
  rw [Registers.write, address_word hshort hs hw, storeWord_eq]
  rfl

/-- A pair is loaded as two words. -/
theorem readPair_eq (i p : UInt64) :
    t.readPair i p = (Bus.ofExcept (t.permit i (.pair p))).bind fun _ =>
      (t.loadWord i (2 * p.toNat)).bind fun low =>
        (t.loadWord i (2 * p.toNat + 1)).bind fun high =>
          .done ((high.toUInt64 <<< 32) ||| low.toUInt64) := by
  rw [readPair_words, pair_check]
  cases hpermit : t.permit i (.pair p) with
  | error e =>
      rw [grant_of_permit_error hpermit]
      rfl
  | ok start =>
      obtain ⟨hs, hwords⟩ := permit_eq_ok_iff.mp hpermit
      have hlow := read_wordFrom hshort hs (Nat.lt_of_succ_lt hwords)
      have hhigh := read_wordFrom hshort hs hwords
      rw [Need.first] at hlow hhigh
      rw [grant_of_permit hpermit (Nat.le_of_lt hshort), ← hlow, ← hhigh]
      rfl

omit hshort in
theorem writePair_of_grant (h : t.grant i (.pair p) = .ok start) (v : UInt64) :
    t.writePair i p v = (t.registers.write (wordFrom start (2 * p.toNat)) v.toUInt32).bind fun _ =>
      t.registers.write (wordFrom start (2 * p.toNat + 1)) (v >>> 32).toUInt32 := by
  rw [writePair_words, pair_check, h]
  rfl

/-- A pair is stored as two words. -/
theorem writePair_eq (i p v : UInt64) :
    t.writePair i p v = (Bus.ofExcept (t.permit i (.pair p))).bind fun _ =>
      (t.storeWord i (2 * p.toNat) v.toUInt32).bind fun _ =>
        t.storeWord i (2 * p.toNat + 1) (v >>> 32).toUInt32 := by
  cases hpermit : t.permit i (.pair p) with
  | error e => exact (serves_writePair t i p v).eq_stop (grant_of_permit_error hpermit)
  | ok start =>
      obtain ⟨hs, hwords⟩ := permit_eq_ok_iff.mp hpermit
      have hlow := write_wordFrom hshort hs (Nat.lt_of_succ_lt hwords)
      have hhigh := write_wordFrom hshort hs hwords
      rw [Need.first] at hlow hhigh
      have hgrant := grant_of_permit hpermit (Nat.le_of_lt hshort)
      rw [writePair_of_grant hgrant, hlow, hhigh]
      rfl

/-! ### Reading -/

omit hshort in
/-- The first words of an entry are collected alike in a list and in a vector. -/
theorem toList_readWords (t : Table) (i : UInt64) (n : Nat) :
    ((t.readWords i n).bind fun ws => .done ws.toList) = t.readEntry i n := by
  have hvector : t.readWords i n = (Bus.ofExcept (t.permit i (.words n))).bind fun start =>
      t.registers.readVector start n := Bus.check_check
  have hlist : t.readEntry i n = (Bus.ofExcept (t.permit i (.words n))).bind fun start =>
      t.registers.readRun start n := Bus.check_check
  rw [hvector, hlist, Bus.bind_assoc]
  simp only [Registers.toList_readVector]

/-- The words that are read at once can be loaded one by one. -/
theorem exists_load_of_readEntry (hr : r.Steady)
    (h : ((t.readEntry i n).run r s).result = .ok ws) :
    (∃ start, t.entryOffset i = .ok start) ∧ ws.length ≤ t.layout.entryWords.toNat ∧
      ∀ w x, ws[w]? = some x →
        ∃ a, t.wordPlace i w = .ok a ∧ (r.load a s).result = .ok x := by
  have hlist : t.readEntry i n = (Bus.ofExcept (t.permit i (.words n))).bind fun start =>
      t.registers.readRun start n := Bus.check_check
  cases hpermit : t.permit i (.words n) with
  | error e =>
      rw [(serves_readEntry t i n).eq_stop (grant_of_permit_error hpermit)] at h
      cases h
  | ok start =>
      rw [hlist, hpermit] at h
      obtain ⟨hs, hn⟩ := permit_eq_ok_iff.mp hpermit
      rw [Need.first, Need.count, Nat.zero_add] at hn
      obtain ⟨hlength, hwords⟩ := Registers.exists_load_of_readRun hr (fun _ => rfl) h
      refine ⟨⟨start, hs⟩, hlength ▸ hn, fun w x hx => ?_⟩
      have hw : w < ws.length := (List.getElem?_eq_some_iff.mp hx).1
      rw [← address_word hshort hs (by omega)]
      exact hwords w x hx

/-- A word that is read with others is what a view of the whole window reads at its place, and what
the field of all its bits holds. -/
theorem word_of_readEntry (hr : r.Steady) (h : ((t.readEntry i n).run r s).result = .ok ws)
    {x : Word} (hx : ws[w]? = some x) :
    (t.layout.place i w < UInt64.size ∧
      ((t.flat.read (UInt64.ofNat (t.layout.place i w))).run r s).result = .ok x) ∧
    ∀ word : UInt8, word.toNat = w →
      ((t.readField i ⟨word, 0, Word.ones⟩).run r s).result = .ok x := by
  obtain ⟨⟨start, hs⟩, hn, hwords⟩ := exists_load_of_readEntry hshort hr h
  obtain ⟨a, ha, hload⟩ := hwords w x hx
  have hw : w < ws.length := (List.getElem?_eq_some_iff.mp hx).1
  constructor
  · have hplace := toNat_wordPlace ha
    have hflat := Bus.run_check_read.mpr ⟨a, rfl, hload⟩
    rw [← hplace, UInt64.ofNat_toNat, flat_read]
    exact ⟨a.toNat_lt_size, hflat⟩
  · rintro word rfl
    have hpermit : t.permit i (.field ⟨word, 0, Word.ones⟩) = .ok start :=
      permit_eq_ok_iff.mpr ⟨hs, by simp only [Need.first, Need.count]; omega⟩
    have hfield : t.fieldPlace i ⟨word, 0, Word.ones⟩ = .ok a := by
      rw [fieldPlace, hpermit]
      refine (fieldAddress_of_permit hpermit).trans ?_
      rw [address_word hshort hs (by simp only; omega)]
      exact ha
    have hget : (⟨word, 0, Word.ones⟩ : Field).get x = x := by
      rw [Field.get, Field.extract, Word.and_ones]
      exact UInt32.shiftRight_zero
    rw [readField_eq, hfield]
    change ((Bus.pick a ⟨word, 0, Word.ones⟩).run r s).result = _
    rw [Bus.pick, Bus.run_load_ok hload, hget]
    rfl

/-- A pair is put together from what its two words load. -/
theorem run_readPair (hr : r.Steady) (hpermit : t.permit i (.pair p) = .ok start) {a b : Address}
    {low high : Word} (ha : t.wordPlace i (2 * p.toNat) = .ok a)
    (hb : t.wordPlace i (2 * p.toNat + 1) = .ok b) (hlow : (r.load a s).result = .ok low)
    (hhigh : (r.load b s).result = .ok high) :
    ((t.readPair i p).run r s).result = .ok ((high.toUInt64 <<< 32) ||| low.toUInt64) := by
  have hfirst : ((t.loadWord i (2 * p.toNat)).run r s).result = .ok low := by
    rw [loadWord_eq]
    exact Bus.run_check_read.mpr ⟨a, ha, hlow⟩
  have hsecond : ((t.loadWord i (2 * p.toNat + 1)).run r
      ((t.loadWord i (2 * p.toNat)).run r s).state).result = .ok high := by
    rw [loadWord_eq, loadWord_eq]
    exact Bus.run_check_read.mpr ⟨b, hb, (Bus.steady_check_read hr _ s b).trans hhigh⟩
  rw [readPair_eq hshort, hpermit]
  exact (Bus.run_bind_of_ok hfirst).1.trans (Bus.run_bind_of_ok hsecond).1

/-- Two words that are read with others and make a pair are its halves. -/
theorem pair_of_readEntry (hr : r.Steady) (h : ((t.readEntry i n).run r s).result = .ok ws)
    {low high : Word} (hlow : ws[2 * p.toNat]? = some low)
    (hhigh : ws[2 * p.toNat + 1]? = some high) :
    ∃ v, ((t.readPair i p).run r s).result = .ok v ∧ halves v = [low, high] := by
  obtain ⟨⟨start, hs⟩, hn, hwords⟩ := exists_load_of_readEntry hshort hr h
  have hlast := (List.getElem?_eq_some_iff.mp hhigh).1
  have hpermit : t.permit i (.pair p) = .ok start :=
    permit_eq_ok_iff.mpr ⟨hs, by simp only [Need.first, Need.count]; omega⟩
  obtain ⟨a, ha, hload⟩ := hwords _ _ hlow
  obtain ⟨b, hb, hload'⟩ := hwords _ _ hhigh
  exact ⟨_, run_readPair hshort hr hpermit ha hb hload hload', halves_eq low high⟩

end

end Table

end I3CHost
