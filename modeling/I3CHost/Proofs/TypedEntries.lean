import I3CHost.Proofs.Contents
import I3CHost.Proofs.EntryParts
import I3CHost.Proofs.SharedBytes

/-!
# Typed entries and their fields

An entry of a table can be read and written as a whole, packed and unpacked, or field by field
through the space of the table. Each way has its own checks and its own path to the bus. Over a
model whose words can be written they give every bit one meaning: both come down to what a program
makes of the contents of the window, and there to the two ways to change a part of an entry.

Nothing is assumed of the contents, so bits that no field has may hold anything. Nor is anything
assumed of the layout but that the table is aligned and lies inside the window, and that its entries
have the words; they may have more.
-/
namespace I3CHost

variable {ε π : Type} {n k : Nat}

/-! ## Contents -/

namespace Contents

variable {ws mask : Contents}

theorem getElem_slice (ws : Contents) (k n : Nat) {j : Nat} (hj : j < n) :
    (ws.slice k n)[j] = ws (k + j) :=
  Vector.getElem_ofFn hj

/-- To store one word with a field set is to set the field in the slice. -/
theorem slice_store_set {f : Field} (hmask : mask (k + f.word.toNat) = Word.ones) (v : Word) :
    Contents.slice (ws.store mask (k + f.word.toNat) (f.set (ws (k + f.word.toNat)) v)) k n =
      Entry.setField (ws.slice k n) f v := by
  apply Vector.ext
  intro j hj
  rw [getElem_slice _ k n hj, Entry.getElem_setField _ f v hj, getElem_slice _ k n hj]
  split
  · next hword =>
    rw [← hword, store_same, hmask, Word.merge_ones]
  · next hword => exact store_other _ _ (fun h => hword (Nat.add_left_cancel h).symm) _

theorem slice_storeRun {words : Vector Word n} (hmask : ∀ j < n, mask (k + j) = Word.ones) :
    Contents.slice (ws.storeRun mask k words.toList) k n = words := by
  apply Vector.ext
  intro j hj
  have hword : words.toList[j]? = some words[j] := by
    rw [Vector.getElem?_toList, Vector.getElem?_eq_getElem hj]
  rw [getElem_slice _ k n hj, storeRun_inside ws mask hword, hmask j hj, Word.merge_ones]

end Contents

/-! ## Both ways to an entry -/

/-- What the accesses to one entry make of a model that holds it in the `n` words from `k` on: reads
and writes of the whole entry, and reads and writes of a field of it. -/
structure Entry.Format.Coherent (F : Format ε π n) (m : Model) (k : Nat) (e : ε) (read : Bus ε)
    (write : ε → Bus Unit) (readField : Field → Bus Word) (writeField : Field → Word → Bus Unit) :
    Prop where
  entry_read : (read.run Model.responder m).result = .ok e
  field_read (p : π) :
    ((readField (F.field p)).run Model.responder m).result = .ok (F.get e p)
  /-- Only the part is replaced, and only its word is touched. -/
  field_written (p : π) (v : Word) :
    let o := (writeField (F.field p) v).run Model.responder m
    o.result = .ok () ∧ (read.run Model.responder o.state).result = .ok (F.put e p v) ∧
      ∀ q, q ≠ k + (F.field p).word.toNat → o.state.wordAt q = m.wordAt q
  /-- What is written is read back as far as it could be packed; no word after the packed ones, nor
  any before them, is touched. -/
  entry_written (e' : ε) :
    let o := (write e').run Model.responder m
    o.result = .ok () ∧ (read.run Model.responder o.state).result = .ok (F.cut e') ∧
      ∀ q, q < k ∨ k + n ≤ q → o.state.wordAt q = m.wordAt q

/-- A table whose entries have at least `n` words lies in the model, is aligned, and can be written
throughout. -/
structure TableLayout.OpenIn (l : TableLayout) (m : Model) (n : Nat) : Prop where
  fits : l.Fits m.size
  aligned : l.offset.toNat % 4 = 0
  words : n ≤ l.entryWords.toNat
  writable : ∀ k, l.Covers (4 * k) → m.maskAt k = Word.ones

namespace TableLayout.OpenIn

variable {l : TableLayout} {m : Model} {i : UInt64}

theorem usable (h : l.OpenIn m n) (hi : i < l.capacity) : l.Usable m.size i :=
  ⟨h.fits.entry hi, m.size_mod_four, h.aligned⟩

/-- The words of an entry can be written. -/
theorem maskAt_entry (h : l.OpenIn m n) (hi : i < l.capacity) {j : Nat} (hj : j < n) :
    m.maskAt (l.start i.toNat / 4 + j) = Word.ones := by
  have hentry := h.usable hi
  have hwords := h.words
  have hbytes := hentry.entryBytes_eq hentry.whole
  have hmod := hentry.start_mod_four hentry.whole
  have haligned := h.aligned
  have hstart := l.start_mono (Nat.zero_le i.toNat)
  have hend : l.start (i.toNat + 1) ≤ l.start l.capacity.toNat :=
    l.start_mono (UInt64.lt_iff_toNat_lt.mp hi)
  rw [start_succ] at hend
  exact h.writable _ ⟨by omega, by omega⟩

end TableLayout.OpenIn

namespace Entry.Format

variable {t : Table} {i : UInt64} {m : Model} {ws : Contents}

/-- The model shows its own words. -/
theorem shows_self (m : Model) : Model.Shows m.maskAt m m.wordAt := ⟨fun _ _ => rfl, rfl⟩

/-- A whole entry is read from the contents. -/
theorem result_read (F : Format ε π n) (h : t.layout.Usable t.window i)
    (hn : n ≤ t.layout.entryWords.toNat) {mask : Contents} (hsize : m.size = t.window)
    (hs : Model.Shows mask m ws) :
    ((F.ofWords <$> t.readWords i n).run Model.responder m).result =
      .ok (F.ofWords (ws.slice (t.layout.start i.toNat / 4) n)) :=
  ((Model.window mask).run ((Table.gives_readWords h hn).bind (.done (F.ofWords _))) hsize hs).1

/-- Both ways to an entry of a table view mean the same. -/
theorem coherent (F : Format ε π n) (hsize : m.size = t.window)
    (hopen : t.layout.OpenIn m n) (hi : i < t.layout.capacity) :
    let k := t.layout.start i.toNat / 4
    F.Coherent m k (F.ofWords (Contents.slice m.wordAt k n)) (F.ofWords <$> t.readWords i n)
      (fun e => t.writeEntry i (F.toWords e).toList) (t.readField i) (t.writeField i) := by
  intro k
  have h : t.layout.Usable t.window i := hsize ▸ hopen.usable hi
  have hn := hopen.words
  have hmask := fun j (hj : j < n) => hopen.maskAt_entry hi hj
  have hfield (p : π) : (F.field p).word.toNat < t.layout.entryWords.toNat :=
    Nat.lt_of_lt_of_le (F.word_lt p) hn
  have hwindow := Model.window m.maskAt
  have hself := shows_self m
  refine ⟨F.result_read h hn hsize hself, fun p => ?_, fun p v => ?_, fun e' => ?_⟩
  · obtain ⟨hread, -⟩ := hwindow.run (Table.gives_readField h (hfield p)) hsize hself
    rw [hread, F.get_ofWords, pick_eq_get _ (F.word_lt p), Contents.getElem_slice]
  · obtain ⟨hwritten, hshows⟩ := hwindow.run (Table.gives_writeField h (hfield p) v) hsize hself
    have hafter := F.result_read h hn ((hwindow.size_run _ m).trans hsize) hshows
    rw [Contents.slice_store_set (hmask _ (F.word_lt p)), F.ofWords_setField] at hafter
    refine ⟨hwritten, hafter, fun q hq => ?_⟩
    rw [hshows.2, Contents.store_other _ _ hq]
  · have hlength : (F.toWords e').toList.length = n := Vector.length_toList
    obtain ⟨hwritten, hshows⟩ :=
      hwindow.run (Table.gives_writeEntry h (hlength.le.trans hn)) hsize hself
    have hafter := F.result_read h hn ((hwindow.size_run _ m).trans hsize) hshows
    rw [Contents.slice_storeRun hmask, F.ofWords_toWords] at hafter
    refine ⟨hwritten, hafter, fun q hq => ?_⟩
    rw [hshows.2, Contents.storeRun_outside _ _ (hlength.symm ▸ hq)]

end Entry.Format

namespace Controller

/-- Whatever a model holds, the typed accesses and the field accesses to an entry of either table
agree. Each field shows its member of the entry that is read; a field that is written replaces its
member by the value cut to its width; an entry that is written reads back cut to its fields and
leaves all other words. -/
theorem typed_accesses_coherent (c : Controller) (m : Model) (hwindow : c.window = m.size)
    (hdat : c.dat.OpenIn m 2) (hdct : c.dct.OpenIn m 4) :
    (∀ i < c.dat.capacity, ∃ e, DatEntry.format.Coherent m (c.dat.start i.toNat / 4) e
      (c.readDatEntry i) (c.writeDatEntry i) (c.readField .dat i) (c.writeField .dat i)) ∧
    ∀ i < c.dct.capacity, ∃ e, DctEntry.format.Coherent m (c.dct.start i.toNat / 4) e
      (c.readDctEntry i) (c.writeDctEntry i) (c.readField .dct i) (c.writeField .dct i) :=
  ⟨fun _ hi => ⟨_, DatEntry.format.coherent (t := c.table .dat) hwindow.symm hdat hi⟩,
    fun _ hi => ⟨_, DctEntry.format.coherent (t := c.table .dct) hwindow.symm hdct hi⟩⟩

/-- Entries with a word to spare in each table, and every bit set in the words of one of them,
the bits that no field has included. -/
theorem typed_accesses_coherent_filled :
    let c : Controller := ⟨64, ⟨.dat, 4, 3, 2⟩, ⟨.dct, 32, 5, 1⟩⟩
    let m : Model := ((Model.blank 64).poke 16 Word.ones).poke 36 Word.ones
    let run := fun (p : Bus Unit) => (p.run Model.responder m).state
    let dat : DatEntry := ⟨0x7F, true, true, true, true, 0xFF, 7, 3, true, 0, 0, 0, 0⟩
    c.window = m.size ∧ c.dat.OpenIn m 2 ∧ c.dct.OpenIn m 4 ∧
      ((c.readDatEntry 1).run Model.responder m).result = .ok dat ∧
      ((c.readDatEntry 1).run Model.responder
        (run (c.writeField .dat 1 DatField.ringId 0xFD))).result = .ok { dat with ringId := 5 } ∧
      ((c.readDctEntry 0).run Model.responder
        (run (c.writeField .dct 0 DctField.pidHi 0x89ABCDEF))).result =
          .ok ⟨0x89ABCDEFFFFF, 0, 0, 0⟩ := by
  intro c m run dat
  have hmask : ∀ k < 16, m.maskAt k = Word.ones := by decide +kernel
  have hdat : c.dat.OpenIn m 2 := by
    refine ⟨⟨28, by decide, by decide⟩, by decide, by decide, ?_⟩
    rintro k ⟨-, (hk : 4 * k < 28)⟩
    exact hmask k (by omega)
  have hdct : c.dct.OpenIn m 4 := by
    refine ⟨⟨52, by decide, by decide⟩, by decide, by decide, ?_⟩
    rintro k ⟨-, (hk : 4 * k < 52)⟩
    exact hmask k (by omega)
  have hwindow : c.window = m.size := by decide +kernel
  have hlaws := typed_accesses_coherent c m hwindow hdat hdct
  obtain ⟨e, he⟩ := hlaws.1 1 (by decide)
  obtain ⟨e', he'⟩ := hlaws.2 0 (by decide)
  have hread : ((c.readDatEntry 1).run Model.responder m).result = .ok dat := by decide +kernel
  have hread' : ((c.readDctEntry 0).run Model.responder m).result = .ok ⟨0xFFFF, 0, 0, 0⟩ := by
    decide +kernel
  obtain rfl := Except.ok.inj (he.entry_read.symm.trans hread)
  obtain rfl := Except.ok.inj (he'.entry_read.symm.trans hread')
  exact ⟨hwindow, hdat, hdct, hread, (he.field_written .ringId 0xFD).2.1,
    (he'.field_written .pidHi 0x89ABCDEF).2.1⟩

end Controller

end I3CHost
