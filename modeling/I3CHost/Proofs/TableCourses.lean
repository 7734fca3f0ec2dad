import I3CHost.Proofs.Agreement
import I3CHost.Proofs.Attempts

/-!
# The course of a table access

A register view looks for the address of each register just before it visits it. So a run of
registers attempts its offsets in ascending order, and a field is attempted once to read it and
twice to update it. Where the words of an entry can be reached the attempts are visits, and these
depend on the layout and the index alone. Nothing is asked of the window here; an entry can be
reached and still lie past its end.
-/
namespace I3CHost

/-! ## Register views -/

namespace Registers

variable {v : Registers} {offset a : Address} {f : Field}

theorem address_eq (h : v.base.toNat + offset.toNat < UInt64.size) :
    v.address offset = .ok (v.base + offset) := by
  cases hs : Address.add? v.base offset with
  | none =>
      have hover := Address.add?_eq_none.mp hs
      omega
  | some s =>
      have hok : v.address offset = .ok s := by simp only [address, hs]
      rw [hok, (address_eq_ok hok).1]

theorem fieldAddress_eq (h : offset.toNat + 4 * f.word.toNat < UInt64.size) :
    v.fieldAddress offset f = v.address (wordOf offset f) := by
  unfold fieldAddress
  cases hs : Address.add? offset (f.word.toUInt64 * Address.wordBytes) with
  | none =>
      have hover := Address.add?_eq_none.mp hs
      rw [word_bytes] at hover
      omega
  | some s =>
      have hsum := Address.add?_eq_some hs
      have heq : s = wordOf offset f := by
        apply UInt64.toNat_inj.mp
        rw [wordOf, UInt64.toNat_add, ← hsum, Nat.mod_eq_of_lt s.toNat_lt]
      simp only [heq]

theorem attempts_read (v : Registers) (offset : Address) :
    (v.read offset).Attempts [(v.address offset).map .load] :=
  Bus.attempts_check .load [] fun _ => .load fun w => .done w

theorem attempts_write (v : Registers) (offset : Address) (value : Word) :
    (v.write offset value).Attempts [(v.address offset).map .store] :=
  Bus.attempts_check .store [] fun _ => .store (.done ())

theorem attempts_readField (v : Registers) (offset : Address) (f : Field) :
    (v.readField offset f).Attempts [(v.fieldAddress offset f).map .load] :=
  Bus.attempts_check .load [] fun _ => .load fun _ => .note (.done _)

theorem attempts_writeField (v : Registers) (offset : Address) (f : Field) (value : Word) :
    (v.writeField offset f value).Attempts
      [(v.fieldAddress offset f).map .load, (v.fieldAddress offset f).map .store] :=
  Bus.attempts_check .load [.store] fun _ => .load fun _ => .note (.store (.done ()))

theorem attempts_readRun (v : Registers) (offset : Address) (count : Nat) :
    (v.readRun offset count).Attempts
      ((List.range count).map fun k => (v.address (Table.wordFrom offset k)).map .load) := by
  induction count generalizing offset with
  | zero => exact .done []
  | succ count ih =>
      have h := (attempts_read v offset).bind fun w =>
        (ih (offset + Address.wordBytes)).map fun ws => w :: ws
      simp only [Table.wordFrom_succ] at h
      rw [List.range_succ_eq_map, List.map_cons, List.map_map, Table.wordFrom_zero]
      exact h

theorem attempts_writeRun (v : Registers) (offset : Address) (words : List Word) :
    (v.writeRun offset words).Attempts
      ((List.range words.length).map fun k =>
        (v.address (Table.wordFrom offset k)).map .store) := by
  induction words generalizing offset with
  | nil => exact .done ()
  | cons w words ih =>
      have h := (attempts_write v offset w).bind fun _ => ih (offset + Address.wordBytes)
      simp only [Table.wordFrom_succ] at h
      rw [List.length_cons, List.range_succ_eq_map, List.map_cons, List.map_map,
        Table.wordFrom_zero]
      exact h

theorem attempts_readVector (v : Registers) (offset : Address) (n : Nat) :
    (v.readVector offset n).Attempts
      ((List.range n).map fun k => (v.address (Table.wordFrom offset k)).map .load) := by
  induction n with
  | zero => exact .done _
  | succ n ih =>
      rw [List.range_succ, List.map_append]
      exact ih.bind fun ws => (attempts_read v _).map fun w => ws.push w

theorem follows_read (h : v.address offset = .ok a) : (v.read offset).Follows [.load a] := by
  have hattempts := attempts_read v offset
  rw [h] at hattempts
  exact Bus.Attempts.follows hattempts

theorem follows_write (h : v.address offset = .ok a) (value : Word) :
    (v.write offset value).Follows [.store a] := by
  have hattempts := attempts_write v offset value
  rw [h] at hattempts
  exact Bus.Attempts.follows hattempts

theorem follows_readField (h : v.fieldAddress offset f = .ok a) :
    (v.readField offset f).Follows [.load a] := by
  have hattempts := attempts_readField v offset f
  rw [h] at hattempts
  exact Bus.Attempts.follows hattempts

theorem follows_writeField (h : v.fieldAddress offset f = .ok a) (value : Word) :
    (v.writeField offset f value).Follows [.load a, .store a] := by
  have hattempts := attempts_writeField v offset f value
  rw [h] at hattempts
  exact Bus.Attempts.follows hattempts

end Registers

/-! ## Table views -/

/-- The first `n` words of entry `i` are words of the entry and have addresses. -/
structure Table.Reaches (t : Table) (i : UInt64) (n : Nat) : Prop where
  start : t.entryOffset i = .ok (i * t.layout.entryBytes)
  words : n ≤ t.layout.entryWords.toNat
  sum (k : Nat) : k < n → (i * t.layout.entryBytes).toNat + 4 * k < UInt64.size
  address (k : Nat) : k < n →
    t.registers.address (wordFrom (i * t.layout.entryBytes) k) = .ok (t.wordAddress i k)

namespace Table

variable {t : Table} {i : UInt64} {n : Nat} {f : Field}

theorem follows_readEntry (h : t.Reaches i n) :
    (t.readEntry i n).Follows ((List.range n).map fun k => .load (t.wordAddress i k)) :=
  Bus.follows_check h.start (Bus.follows_check (checkWords_eq_ok.mpr h.words)
    ((Registers.attempts_readRun _ _ _).follows_range h.address))

theorem follows_writeEntry {words : List Word} (h : t.Reaches i words.length) :
    (t.writeEntry i words).Follows
      ((List.range words.length).map fun k => .store (t.wordAddress i k)) :=
  Bus.follows_check h.start (Bus.follows_check (checkWords_eq_ok.mpr h.words)
    (.note ((Registers.attempts_writeRun _ _ _).follows_range h.address)))

theorem Reaches.fieldAddress_eq (h : t.Reaches i (f.word.toNat + 1)) :
    t.registers.fieldAddress (i * t.layout.entryBytes) f = .ok (t.wordAddress i f.word.toNat) := by
  have hword := h.address f.word.toNat (Nat.lt_succ_self _)
  rw [Registers.fieldAddress_eq (h.sum _ (Nat.lt_succ_self _)), ← wordFrom_word]
  exact hword

theorem follows_readField (h : t.Reaches i (f.word.toNat + 1)) :
    (t.readField i f).Follows [.load (t.wordAddress i f.word.toNat)] :=
  Bus.follows_check h.start (Bus.follows_check (checkField_eq_ok.mpr h.words)
    (Registers.follows_readField h.fieldAddress_eq))

theorem follows_writeField (h : t.Reaches i (f.word.toNat + 1)) (value : Word) :
    (t.writeField i f value).Follows
      [.load (t.wordAddress i f.word.toNat), .store (t.wordAddress i f.word.toNat)] :=
  Bus.follows_check h.start (Bus.follows_check (checkField_eq_ok.mpr h.words)
    (Registers.follows_writeField h.fieldAddress_eq value))

end Table

end I3CHost
