import I3CHost.Access
import I3CHost.Proofs.ModelMemory
import I3CHost.Target

/-!
# Table entries do not spill

Every access a table view makes through entry `i` lies between the start of entry `i` and the start
of entry `i + 1`. A change that stops half-way is no exception: the bound is on the program, so it
holds of every part of it that was run. A fuse in front of the model stops it anywhere.

Two entries of one table, and entries of two tables whose bytes are apart, share no word. Bounds are
plain numbers, so a table that would end past the address space is included, and so is a width that
saturates the distance between entries.
-/
namespace I3CHost

/-! ## Footprints of the views -/

namespace Registers

variable {v : Registers} {offset : Address} {L W : Address → Prop}

theorem within_read (h : ∀ a, v.address offset = .ok a → L a) : (v.read offset).Within L W :=
  Bus.within_check fun a ha => ⟨h a ha, fun _ => trivial⟩

theorem within_write (h : ∀ a, v.address offset = .ok a → W a) (value : Word) :
    (v.write offset value).Within L W :=
  Bus.within_check fun a ha => ⟨h a ha, trivial⟩

theorem within_readField {f : Field} (h : ∀ a, v.address (wordOf offset f) = .ok a → L a) :
    (v.readField offset f).Within L W :=
  Bus.within_check fun a ha => ⟨h a (fieldAddress_eq_ok ha).1, fun _ => trivial⟩

theorem within_writeField {f : Field} (h : ∀ a, v.address (wordOf offset f) = .ok a → L a ∧ W a)
    (value : Word) : (v.writeField offset f value).Within L W :=
  Bus.within_check fun a ha =>
    have hlw := h a (fieldAddress_eq_ok ha).1
    ⟨hlw.1, fun _ => ⟨hlw.2, trivial⟩⟩

theorem within_readRun {count : Nat}
    (h : ∀ k < count, ∀ a, v.address (Table.wordFrom offset k) = .ok a → L a) :
    (v.readRun offset count).Within L W := by
  induction count generalizing offset with
  | zero => trivial
  | succ count ih =>
      refine (within_read fun a ha => h 0 count.succ_pos a ?_).bind fun w =>
        (ih fun k hk a ha => h (k + 1) (Nat.succ_lt_succ hk) a ?_).bind fun ws => trivial
      · rwa [Table.wordFrom_zero]
      · rwa [Table.wordFrom_succ] at ha

theorem within_writeRun {words : List Word}
    (h : ∀ k < words.length, ∀ a, v.address (Table.wordFrom offset k) = .ok a → W a) :
    (v.writeRun offset words).Within L W := by
  induction words generalizing offset with
  | nil => trivial
  | cons w words ih =>
      refine (within_write (fun a ha => h 0 (Nat.succ_pos _) a ?_) w).bind fun _ =>
        ih fun k hk a ha => h (k + 1) (Nat.succ_lt_succ hk) a ?_
      · rwa [Table.wordFrom_zero]
      · rwa [Table.wordFrom_succ] at ha

theorem within_readVector {n : Nat}
    (h : ∀ k < n, ∀ a, v.address (Table.wordFrom offset k) = .ok a → L a) :
    (v.readVector offset n).Within L W := by
  induction n with
  | zero => trivial
  | succ n ih =>
      refine (ih fun k hk => h k (Nat.lt_succ_of_lt hk)).bind fun ws =>
        (within_read fun a ha => h n (Nat.lt_succ_self n) a ha).bind fun w => trivial

end Registers

namespace Table

variable {W : Address → Prop} (t : Table) (i : UInt64)

theorem within_readEntry (count : Nat) :
    (t.readEntry i count).Within (t.layout.InEntry i) W := by
  refine Bus.within_check fun start hs => Bus.within_check fun _ hc => ?_
  have hcount := checkWords_eq_ok.mp hc
  apply Registers.within_readRun
  intro k hk a ha
  exact inEntry_of_word hs (Nat.lt_of_lt_of_le hk hcount) ha

theorem within_readWords (n : Nat) : (t.readWords i n).Within (t.layout.InEntry i) W := by
  refine Bus.within_check fun start hs => Bus.within_check fun _ hc => ?_
  have hcount := checkWords_eq_ok.mp hc
  apply Registers.within_readVector
  intro k hk a ha
  exact inEntry_of_word hs (Nat.lt_of_lt_of_le hk hcount) ha

theorem within_writeEntry (words : List Word) :
    (t.writeEntry i words).Within (t.layout.InEntry i) (t.layout.InEntry i) := by
  refine Bus.within_check fun start hs => Bus.within_check fun _ hc => ?_
  have hcount := checkWords_eq_ok.mp hc
  apply Registers.within_writeRun
  intro k hk a ha
  exact inEntry_of_word hs (Nat.lt_of_lt_of_le hk hcount) ha

/-- The word of an accepted field lies in the entry. -/
theorem inEntry_of_field {t : Table} {i start a : UInt64} {f : Field}
    (hs : t.entryOffset i = .ok start) (hc : t.checkField f = .ok ())
    (ha : t.registers.address (Registers.wordOf start f) = .ok a) : t.layout.InEntry i a := by
  have hword := checkField_eq_ok.mp hc
  rw [← wordFrom_word] at ha
  exact inEntry_of_word hs hword ha

theorem within_readField (f : Field) : (t.readField i f).Within (t.layout.InEntry i) W := by
  refine Bus.within_check fun start hs => Bus.within_check fun _ hc => ?_
  apply Registers.within_readField
  intro a ha
  exact inEntry_of_field hs hc ha

theorem within_writeField (f : Field) (value : Word) :
    (t.writeField i f value).Within (t.layout.InEntry i) (t.layout.InEntry i) := by
  refine Bus.within_check fun start hs => Bus.within_check fun _ hc => ?_
  apply Registers.within_writeField
  intro a ha
  have hin := inEntry_of_field hs hc ha
  exact ⟨hin, hin⟩

/-- Both words of an accepted pair lie in the entry. -/
theorem inEntry_of_pair {t : Table} {i pair first start a : UInt64}
    (hp : t.pairWord pair = .ok first) (hs : t.entryOffset i = .ok start) {w : Nat}
    (hw : w = 2 * pair.toNat ∨ w = 2 * pair.toNat + 1)
    (ha : t.registers.address (wordFrom start w) = .ok a) : t.layout.InEntry i a := by
  obtain ⟨-, -, hlt⟩ := pairWord_eq_ok hp
  rcases hw with rfl | rfl
  · exact inEntry_of_word hs (Nat.lt_of_succ_lt hlt) ha
  · exact inEntry_of_word hs hlt ha

theorem within_readPair (pair : UInt64) : (t.readPair i pair).Within (t.layout.InEntry i) W := by
  rw [readPair_words]
  refine Bus.within_check fun first hp => Bus.within_check fun start hs =>
    Bus.within_check fun _ _ => ?_
  have hlow := Registers.within_read (W := W) fun a ha => inEntry_of_pair hp hs (.inl rfl) ha
  have hhigh := Registers.within_read (W := W) fun a ha => inEntry_of_pair hp hs (.inr rfl) ha
  exact hlow.bind fun low => hhigh.bind fun high => trivial

theorem within_writePair (pair value : UInt64) :
    (t.writePair i pair value).Within (t.layout.InEntry i) (t.layout.InEntry i) := by
  rw [writePair_words]
  refine Bus.within_check fun first hp => Bus.within_check fun start hs =>
    Bus.within_check fun _ _ => ?_
  have hlow := Registers.within_write (L := t.layout.InEntry i)
    (fun a ha => inEntry_of_pair hp hs (.inl rfl) ha) value.toUInt32
  have hhigh := Registers.within_write (L := t.layout.InEntry i)
    (fun a ha => inEntry_of_pair hp hs (.inr rfl) ha) (value >>> 32).toUInt32
  exact hlow.bind fun _ => hhigh

end Table

/-! ## Which entry an access is about -/

namespace Access

/-- The request changes entry `i` of a table with layout `l`. -/
def Writes (l : TableLayout) (i : UInt64) : Access → Prop
  | writeEntry t j _ | writeEntryField t j _ _ | writeEntryBits t j _ _ _ | writePair t j _ _ =>
      t.layout = l ∧ j = i
  | writeSpace c s j _ _ => ∃ kind, s.table? = some kind ∧ c.layout kind = l ∧ j = i
  | writeDatEntry c j _ => c.dat = l ∧ j = i
  | writeDctEntry c j _ => c.dct = l ∧ j = i
  | _ => False

/-- The request reads entry `i` of a table with layout `l`. -/
def Reads (l : TableLayout) (i : UInt64) : Access → Prop
  | readEntry t j _ | readWords t j _ | readEntryField t j _ | readEntryBits t j _ _
  | readPair t j _ => t.layout = l ∧ j = i
  | readSpace c s j _ => ∃ kind, s.table? = some kind ∧ c.layout kind = l ∧ j = i
  | readDatEntry c j => c.dat = l ∧ j = i
  | readDctEntry c j => c.dct = l ∧ j = i
  | _ => False

variable {l : TableLayout} {i : UInt64} {a : Access}

theorem within_of_writes (h : a.Writes l i) : a.program.Within (l.InEntry i) (l.InEntry i) := by
  cases a with
  | writeEntry t j words =>
      obtain ⟨rfl, rfl⟩ := h
      exact (t.within_writeEntry j words).bind fun _ => trivial
  | writeEntryField t j f value =>
      obtain ⟨rfl, rfl⟩ := h
      exact (t.within_writeField j f value).bind fun _ => trivial
  | writeEntryBits t j low mask value =>
      obtain ⟨rfl, rfl⟩ := h
      exact (t.within_writeField j (.ofMask low mask) value).bind fun _ => trivial
  | writePair t j pair value =>
      obtain ⟨rfl, rfl⟩ := h
      exact (t.within_writePair j pair value).bind fun _ => trivial
  | writeSpace c s j f value =>
      obtain ⟨kind, hs, rfl, rfl⟩ := h
      rw [program, Controller.writeField, hs]
      exact ((c.table kind).within_writeField j f value).bind fun _ => trivial
  | writeDatEntry c j e =>
      obtain ⟨rfl, rfl⟩ := h
      exact ((c.table .dat).within_writeEntry j _).bind fun _ => trivial
  | writeDctEntry c j e =>
      obtain ⟨rfl, rfl⟩ := h
      exact ((c.table .dct).within_writeEntry j _).bind fun _ => trivial
  | _ => exact h.elim

theorem within_of_reads (h : a.Reads l i) : a.program.Within (l.InEntry i) fun _ => False := by
  cases a with
  | readEntry t j count =>
      obtain ⟨rfl, rfl⟩ := h
      exact (t.within_readEntry j count).map _
  | readWords t j n =>
      obtain ⟨rfl, rfl⟩ := h
      exact (t.within_readWords j n).map _
  | readEntryField t j f =>
      obtain ⟨rfl, rfl⟩ := h
      exact (t.within_readField j f).map _
  | readEntryBits t j low mask =>
      obtain ⟨rfl, rfl⟩ := h
      exact (t.within_readField j (.ofMask low mask)).map _
  | readPair t j pair =>
      obtain ⟨rfl, rfl⟩ := h
      exact (t.within_readPair j pair).map _
  | readSpace c s j f =>
      obtain ⟨kind, hs, rfl, rfl⟩ := h
      rw [program, Controller.readField, hs]
      exact ((c.table kind).within_readField j f).map _
  | readDatEntry c j =>
      obtain ⟨rfl, rfl⟩ := h
      exact (((c.table .dat).within_readWords j 2).map DatEntry.ofWords).map _
  | readDctEntry c j =>
      obtain ⟨rfl, rfl⟩ := h
      exact (((c.table .dct).within_readWords j 4).map DctEntry.ofWords).map _
  | _ => exact h.elim

end Access

/-! ## Isolation -/

namespace TableLayout

/-- No byte belongs to both tables. -/
def Apart (l l' : TableLayout) : Prop :=
  ∀ x, l.start 0 ≤ x → x < l.start l.capacity.toNat → l'.start 0 ≤ x →
    x < l'.start l'.capacity.toNat → False

/-- No byte belongs to both entry `i` of the one and entry `j` of the other. -/
def EntriesApart (l : TableLayout) (i : Nat) (l' : TableLayout) (j : Nat) : Prop :=
  ∀ x, l.start i ≤ x → x < l.start (i + 1) → l'.start j ≤ x → x < l'.start (j + 1) → False

theorem entriesApart_of_ne (l : TableLayout) {i j : Nat} (h : i ≠ j) : l.EntriesApart i l j := by
  intro x hi hi' hj hj'
  rcases Nat.lt_or_gt_of_ne h with hlt | hgt
  · have hmono : l.start (i + 1) ≤ l.start j := l.start_mono hlt
    omega
  · have hmono : l.start (j + 1) ≤ l.start i := l.start_mono hgt
    omega

/-- The word at an accepted address of an entry lies inside the entry. -/
theorem InEntry.between {l : TableLayout} {i : UInt64} {o limit : Address} (h : l.InEntry i o)
    (hc : checkAccess o limit = .ok ()) :
    l.start i.toNat ≤ 4 * (o.toNat / 4) ∧ 4 * (o.toNat / 4) + 4 ≤ l.start (i.toNat + 1) := by
  obtain ⟨-, hstart, hend⟩ := h
  obtain ⟨haligned, hfit⟩ := (checkAccess_eq_ok_iff o limit).mp hc
  have hlimit := limit.toNat_lt_size
  have hlast := hend (by omega)
  omega

theorem Apart.entriesApart {l l' : TableLayout} (h : l.Apart l') {i j : Nat}
    (hi : i < l.capacity.toNat) (hj : j < l'.capacity.toNat) : l.EntriesApart i l' j := by
  intro x hx hx' hy hy'
  have hstart := l.start_mono (Nat.zero_le i)
  have hstart' := l'.start_mono (Nat.zero_le j)
  have hend : l.start (i + 1) ≤ l.start l.capacity.toNat := l.start_mono hi
  have hend' : l'.start (j + 1) ≤ l'.start l'.capacity.toNat := l'.start_mono hj
  exact h x (by omega) (by omega) (by omega) (by omega)

end TableLayout

namespace Model

variable {α : Type} {m n : Model} {f : Fuse} {p : Bus α} {L W : Address → Prop} {o : Address}
variable {l : TableLayout} {i : UInt64}

/-- The model after a program that a fuse may have stopped on the way. -/
def after (m : Model) (f : Fuse) (p : Bus α) : Model :=
  (p.run (Fuse.guard Fuse.blown responder) (f, m)).state.2

/-- A word no accepted store is aimed at stays, however far the program gets. -/
theorem cells_after (hp : p.Within L W) {k : Nat} (hk : ∀ o, W o → m.Accepts o → index o ≠ k) :
    (m.after f p).cells.size = m.cells.size ∧ (m.after f p).cells[k]? = m.cells[k]? := by
  refine hp.run_preserves
    (P := fun s : Fuse × Model => s.2.cells.size = m.cells.size ∧ s.2.cells[k]? = m.cells[k]?)
    ?_ ?_ ⟨rfl, rfl⟩
  · rintro o ⟨f, n⟩ - hn
    simp only [Fuse.guard]
    cases f.pass with
    | none => exact hn
    | some f' =>
        change (n.load o).state.cells.size = _ ∧ (n.load o).state.cells[k]? = _
        rw [cells_load]
        exact hn
  · rintro o v ⟨f, n⟩ hW ⟨hsize, hcell⟩
    simp only [Fuse.guard]
    cases f.pass with
    | none => exact ⟨hsize, hcell⟩
    | some f' =>
        change (n.store o v).state.cells.size = _ ∧ (n.store o v).state.cells[k]? = _
        have hmiss : ¬ (n.Accepts o ∧ k = index o) := fun h =>
          hk o hW ((accepts_congr hsize).mp h.1) h.2.symm
        rw [size_cells_store, cells_store, if_neg hmiss]
        exact ⟨hsize, hcell⟩

/-- What a program without stores returns depends on the words it may load, and on the size. -/
theorem result_congr (hp : p.Within L fun _ => False) (hsize : m.cells.size = n.cells.size)
    (hcells : ∀ o, L o → m.Accepts o → m.cells[index o]? = n.cells[index o]?) :
    (p.run responder m).result = (p.run responder n).result := by
  refine hp.run_result_congr
    (S := fun m n => m.cells.size = n.cells.size ∧
      ∀ o, L o → m.Accepts o → m.cells[index o]? = n.cells[index o]?) ?_ ⟨hsize, hcells⟩
  rintro o m n hL ⟨hsize, hcells⟩
  refine ⟨?_, ?_⟩
  · by_cases h : m.Accepts o
    · have h' := (accepts_congr hsize).mp h
      change (m.load o).result = (n.load o).result
      rw [load_of_accepts h, load_of_accepts h', wordAt, wordAt, hcells o hL h]
    · obtain ⟨e, he, hm⟩ := load_of_not_accepts h
      obtain ⟨e', he', hn⟩ := load_of_not_accepts (mt (accepts_congr hsize).mpr h)
      rw [size_congr hsize, he'] at he
      cases he
      change (m.load o).result = (n.load o).result
      rw [hm, hn]
  · rw [responder_load, responder_load, cells_load, cells_load]
    refine ⟨hsize, fun a ha hacc => hcells a ha ?_⟩
    exact (accepts_congr (congrArg Array.size (cells_load m o))).mp hacc

/-- An accepted word of an entry lies between the start of the entry and that of the next. -/
theorem between_of_inEntry (h : l.InEntry i o) (ha : m.Accepts o) :
    l.start i.toNat ≤ 4 * index o ∧ 4 * index o + 4 ≤ l.start (i.toNat + 1) := by
  rw [index_eq]
  exact h.between (accepts_iff.mp ha)

/-- Entries that are apart have no accepted word in common. -/
theorem index_ne_of_inEntry {l' : TableLayout} {j : UInt64} {o' : Address}
    (h : l.InEntry i o) (h' : l'.InEntry j o') (ha : m.Accepts o) (ha' : m.Accepts o')
    (hapart : l.EntriesApart i.toNat l' j.toNat) : index o ≠ index o' := by
  intro heq
  obtain ⟨hs, he⟩ := between_of_inEntry h ha
  obtain ⟨hs', he'⟩ := between_of_inEntry h' ha'
  rw [← heq] at hs' he'
  exact hapart (4 * index o) hs (by omega) hs' (by omega)

/-- A read of an entry returns the same after a change of another entry, if the bytes of the two
are apart. -/
theorem result_after {w r : Access} {l' : TableLayout} {j : UInt64} (hw : w.Writes l i)
    (hr : r.Reads l' j)
    (hapart : i < l.capacity → j < l'.capacity → l.EntriesApart i.toNat l' j.toNat) :
    (r.program.run responder (m.after f w.program)).result =
      (r.program.run responder m).result := by
  have hprog := Access.within_of_writes hw
  have hsize : (m.after f w.program).cells.size = m.cells.size :=
    (cells_after (k := m.cells.size) hprog fun o _ ho => Nat.ne_of_lt ho.index_lt).1
  refine result_congr (Access.within_of_reads hr) hsize fun o ho hacc => ?_
  have hacc := (accepts_congr hsize).mp hacc
  refine (cells_after hprog fun a ha hacc' => ?_).2
  exact index_ne_of_inEntry ha ho hacc' hacc (hapart ha.1 ho.1)

/-- A change of entry `i`, complete or cut short, moves no word outside the bytes of that entry.
So every read of another entry of the table returns what it did, and so does every read of a table
whose bytes are apart. -/
theorem entryWrite_isolated (l : TableLayout) (i : UInt64) (w : Access) (hw : w.Writes l i)
    (m : Model) (f : Fuse) :
    (∀ k, ¬ (l.start i.toNat ≤ 4 * k ∧ 4 * k + 4 ≤ l.start (i.toNat + 1)) →
      (m.after f w.program).cells[k]? = m.cells[k]?) ∧
    (∀ j, j ≠ i → ∀ r : Access, r.Reads l j →
      (r.program.run responder (m.after f w.program)).result =
        (r.program.run responder m).result) ∧
    ∀ l', l.Apart l' → ∀ j (r : Access), r.Reads l' j →
      (r.program.run responder (m.after f w.program)).result =
        (r.program.run responder m).result := by
  refine ⟨fun k hk => ?_, fun j hj r hr => ?_, fun l' hl j r hr => ?_⟩
  · refine (cells_after (Access.within_of_writes hw) fun o ho hacc => ?_).2
    rintro rfl
    exact hk (between_of_inEntry ho hacc)
  · have hne : i.toNat ≠ j.toNat := fun h => hj (UInt64.toNat_inj.mp h).symm
    exact result_after hw hr fun _ _ => l.entriesApart_of_ne hne
  · refine result_after hw hr fun hi hj => ?_
    exact hl.entriesApart (UInt64.lt_iff_toNat_lt.mp hi) (UInt64.lt_iff_toNat_lt.mp hj)

/-- The fuse blows between the two words of entry 1: the first is stored, and entry 2 reads as
before. -/
theorem entryWrite_isolated_half :
    let t : Table := ⟨⟨.dat, 4, 2, 3⟩, 32⟩
    let w : Access := .writeEntry t 1 [5, 6]
    let r : Access := .readEntry t 2 2
    ((blank 32).after ⟨some 1⟩ w.program).cells.map Cell.value =
        #[0, 0, 0, 5, 0, 0, 0, 0] ∧
      (r.program.run responder ((blank 32).after ⟨some 1⟩ w.program)).result =
        (r.program.run responder (blank 32)).result := by
  intro t w r
  have hw : w.Writes t.layout 1 := ⟨rfl, rfl⟩
  have hr : r.Reads t.layout 2 := ⟨rfl, rfl⟩
  exact ⟨by decide +kernel,
    (entryWrite_isolated t.layout 1 w hw (blank 32) ⟨some 1⟩).2.1 2 (by decide) r hr⟩

end Model

end I3CHost
