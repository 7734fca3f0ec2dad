import I3CHost.Proofs.Contents
import I3CHost.Proofs.EntryIsolation
import I3CHost.Proofs.Operations

/-!
# Tables that share bytes

Each table is accepted for itself: nothing looks at where the other one is, so settings or section
words can put two tables over the same bytes. Whether one then shows through the other is a matter
of bytes alone. If no byte is shared, no change through one is read through the other, whatever was
kept and whatever was discovered. If a byte is shared, both tables are aligned and its word has a
bit that can be written, the whole word belongs to an entry of each, and a store of its complement
through one is read through the other.
-/
namespace I3CHost

variable {α σ : Type}

/-- A store of the complement changes every bit under the mask. -/
theorem Word.merge_not_ne {mask : Word} (h : mask ≠ 0) (w : Word) : w.merge (~~~w) mask ≠ w := by
  intro heq
  apply h
  apply ext_bit
  intro b
  rw [bit_zero]
  cases hb : mask.bit b with
  | false => rfl
  | true =>
      have hbit : (w.merge (~~~w) mask).bit b = w.bit b := congrArg (bit · b) heq
      rw [bit_merge, hb, bit_not w (lt_of_bit hb)] at hbit
      cases hw : w.bit b <;> rw [hw] at hbit <;> cases hbit

theorem Contents.eq_of_slice_eq {ws ws' : Contents} {k n j : Nat}
    (h : (ws.slice k n).toList = (ws'.slice k n).toList) (hj : j < n) :
    ws (k + j) = ws' (k + j) := by
  simpa [slice, hj] using congrArg (·[j]?) h

/-! ## Bytes of tables -/

namespace TableLayout

variable {l l' : TableLayout} {window : Address} {i : UInt64} {x : Nat}

/-- Byte `x` of a window belongs to the table. -/
def Covers (l : TableLayout) (x : Nat) : Prop := l.start 0 ≤ x ∧ x < l.start l.capacity.toNat

instance (l : TableLayout) (x : Nat) : Decidable (l.Covers x) := inferInstanceAs (Decidable (_ ∧ _))

theorem apart_iff : l.Apart l' ↔ ∀ x, l.Covers x → ¬ l'.Covers x :=
  ⟨fun h x hx hx' => h x hx.1 hx.2 hx'.1 hx'.2,
    fun h x hstart hend hstart' hend' => h x ⟨hstart, hend⟩ ⟨hstart', hend'⟩⟩

/-- A byte of the table belongs to one of its entries. -/
theorem Covers.exists_entry (h : l.Covers x) :
    ∃ i < l.capacity, l.start i.toNat ≤ x ∧ x < l.start (i.toNat + 1) := by
  obtain ⟨hstart, hend⟩ := h
  simp only [start, Nat.zero_mul, Nat.add_zero] at hstart hend
  -- Entries of no bytes would leave the table none.
  have hbytes : 0 < l.entryBytes.toNat := by
    by_contra hzero
    rw [Nat.eq_zero_of_not_pos hzero, Nat.mul_zero] at hend
    omega
  let n := (x - l.offset.toNat) / l.entryBytes.toNat
  have hn : n < l.capacity.toNat := (Nat.div_lt_iff_lt_mul hbytes).mpr (by omega)
  have hi : (UInt64.ofNat n).toNat = n :=
    UInt64.toNat_ofNat_of_lt' (Nat.lt_trans hn l.capacity.toNat_lt_size)
  refine ⟨UInt64.ofNat n, UInt64.lt_iff_toNat_lt.mpr (by rwa [hi]), ?_⟩
  have hle : n * l.entryBytes.toNat ≤ x - l.offset.toNat := Nat.div_mul_le_self _ _
  have hlt : x - l.offset.toNat < (n + 1) * l.entryBytes.toNat :=
    (Nat.div_lt_iff_lt_mul hbytes).mp n.lt_succ_self
  rw [hi, start, start]
  omega

theorem Usable.exists_word (h : l.Usable window i) (hstart : l.start i.toNat ≤ x)
    (hend : x < l.start (i.toNat + 1)) :
    ∃ q < l.entryWords.toNat, l.start i.toNat / 4 + q = x / 4 := by
  have hbytes := h.entryBytes_eq h.whole
  have hmod := h.start_mod_four h.whole
  have haligned := h.aligned
  rw [start_succ] at hend
  exact ⟨x / 4 - l.start i.toNat / 4, by omega, by omega⟩

end TableLayout

/-! ## Windows of words -/

namespace Window

variable {r : Responder σ} {size : σ → Address} {mask : Contents} {shows : σ → Contents → Prop}
variable {p : Bus α} {L W : Address → Prop} {s s' : σ} {ws ws' : Contents}
variable {l l' : TableLayout} {i j : UInt64} {n q q' : Nat}

/-- A program changes words that it has an accepted store to. -/
theorem exists_contents (hr : Window r size mask shows) (hp : p.Within L W) (hs : shows s ws) :
    ∃ ws', shows (p.run r s).state ws' ∧
      ∀ k, (∀ o, W o → checkAccess o (size s) = .ok () → o.toNat / 4 ≠ k) → ws' k = ws k := by
  refine (hp.run_preserves (P := fun t => size t = size s ∧ ∃ ws', shows t ws' ∧
    ∀ k, (∀ o, W o → checkAccess o (size s) = .ok () → o.toNat / 4 ≠ k) → ws' k = ws k)
    ?_ ?_ ⟨rfl, ws, hs, fun _ _ => rfl⟩).2
  · rintro o t - ⟨hsize, ws', ht, hsame⟩
    exact ⟨(hr.size_load o t).trans hsize, ws', hr.loaded ht, hsame⟩
  · rintro o v t hW ⟨hsize, ws', ht, hsame⟩
    refine ⟨(hr.size_store o v t).trans hsize, ?_⟩
    by_cases hc : checkAccess o (size t) = .ok ()
    · refine ⟨_, hr.stored hc ht, fun k hk => ?_⟩
      rw [Contents.store_other _ _ (hk o hW (hsize ▸ hc)).symm]
      exact hsame k hk
    · exact ⟨ws', hr.refused hc ht, hsame⟩

theorem result_congr (hr : Window r size mask shows) (hp : p.Within L fun _ => False)
    (hsize : size s = size s') (hs : shows s ws) (hs' : shows s' ws')
    (hwords : ∀ o, L o → checkAccess o (size s) = .ok () → ws (o.toNat / 4) = ws' (o.toNat / 4)) :
    (p.run r s).result = (p.run r s').result := by
  refine hp.run_result_congr (S := fun t t' => size t = size s ∧ size t' = size s ∧
    shows t ws ∧ shows t' ws') ?_ ⟨rfl, hsize.symm, hs, hs'⟩
  rintro o t t' hL ⟨ht, ht', hshows, hshows'⟩
  refine ⟨?_, (hr.size_load o t).trans ht, (hr.size_load o t').trans ht', hr.loaded hshows,
    hr.loaded hshows'⟩
  rcases hr.load_cases o t with ⟨w, -, hc⟩ | ⟨e, he, hc⟩
  · rw [ht] at hc
    rw [hr.answer (ht ▸ hc) hshows, hr.answer (ht' ▸ hc) hshows', hwords o hL hc]
  · rcases hr.load_cases o t' with ⟨w, -, hc'⟩ | ⟨e', he', hc'⟩
    · rw [ht', ← ht, hc] at hc'
      cases hc'
    · rw [ht', ← ht, hc] at hc'
      cases hc'
      rw [he, he']

/-- A read of an entry returns the same after a change of another entry, if the bytes of the two
are apart. -/
theorem result_after (hr : Window r size mask shows) (hs : shows s ws) {w a : Access}
    (hw : w.Writes l i) (ha : a.Reads l' j)
    (hapart : i < l.capacity → j < l'.capacity → l.EntriesApart i.toNat l' j.toNat) :
    (a.program.run r (w.program.run r s).state).result = (a.program.run r s).result := by
  obtain ⟨ws', hs', hsame⟩ := hr.exists_contents (Access.within_of_writes hw) hs
  have hsize : size (w.program.run r s).state = size s := hr.size_run _ s
  refine hr.result_congr (Access.within_of_reads ha) hsize hs' hs fun o ho hc => ?_
  rw [hsize] at hc
  -- A word that is both changed and read would lie in both entries.
  refine hsame _ fun o' ho' hc' heq => ?_
  obtain ⟨hstart, hend⟩ := ho.between hc
  obtain ⟨hstart', hend'⟩ := ho'.between hc'
  rw [heq] at hstart' hend'
  exact hapart ho'.1 ho.1 (4 * (o.toNat / 4)) hstart' (by omega) hstart (by omega)

theorem result_readEntry (hr : Window r size mask shows) (hs : shows s ws)
    (h : l.Usable (size s) i) (hn : n ≤ l.entryWords.toNat) :
    ((Access.readEntry ⟨l, size s⟩ i n).program.run r s).result =
      .ok (.words (Contents.slice ws (l.start i.toNat / 4) n).toList) := by
  have hgives : (Access.readEntry ⟨l, size s⟩ i n).program.Gives (size s) mask ws _ _ :=
    (Table.gives_readEntry (t := ⟨l, size s⟩) h hn).bind (.done _)
  exact (hr.run hgives rfl hs).1

theorem shows_writeEntry (hr : Window r size mask shows) (hs : shows s ws)
    (h : l.Usable (size s) i) {words : List Word} (hn : words.length ≤ l.entryWords.toNat) :
    shows ((Access.writeEntry ⟨l, size s⟩ i words).program.run r s).state
      (Contents.storeRun ws mask (l.start i.toNat / 4) words) := by
  have hgives : (Access.writeEntry ⟨l, size s⟩ i words).program.Gives (size s) mask ws _ _ :=
    (Table.gives_writeEntry (t := ⟨l, size s⟩) h hn).bind (.done _)
  exact (hr.run hgives rfl hs).2

/-- Two entries with a word in common that can be written: the complement of the word, stored
through one, is read through the other. -/
theorem exists_change (hr : Window r size mask shows) (hs : shows s ws)
    (h : l.Usable (size s) i) (h' : l'.Usable (size s) j)
    (hq : q < l.entryWords.toNat) (hq' : q' < l'.entryWords.toNat)
    (hsame : l.start i.toNat / 4 + q = l'.start j.toNat / 4 + q')
    (hmask : mask (l.start i.toNat / 4 + q) ≠ 0) :
    let a := Access.readEntry ⟨l', size s⟩ j (q' + 1)
    ∃ words, words.length ≤ l.entryWords.toNat ∧
      (a.program.run r
          ((Access.writeEntry ⟨l, size s⟩ i words).program.run r s).state).result ≠
        (a.program.run r s).result := by
  intro a
  let k := l.start i.toNat / 4
  let words := List.replicate (q + 1) (~~~ws (k + q))
  have hlength : words.length ≤ l.entryWords.toNat := by rwa [List.length_replicate]
  refine ⟨words, hlength, fun heq => ?_⟩
  have hsize : size ((Access.writeEntry ⟨l, size s⟩ i words).program.run r s).state = size s :=
    hr.size_run _ s
  have hafter := hr.result_readEntry (hr.shows_writeEntry hs h hlength)
    (hsize.symm ▸ h') (Nat.succ_le_of_lt hq')
  rw [hsize] at hafter
  rw [hafter, hr.result_readEntry hs h' hq'] at heq
  have hstored : Contents.storeRun ws mask k words (k + q) =
      (ws (k + q)).merge (~~~ws (k + q)) (mask (k + q)) :=
    Contents.storeRun_inside ws mask (by simp [words])
  have hread := Contents.eq_of_slice_eq (Answer.words.inj (Except.ok.inj heq)) q'.lt_succ_self
  rw [← hsame, hstored] at hread
  exact Word.merge_not_ne hmask _ hread

end Window

/-! ## The tables of a driver -/

namespace Driver

theorem shows_after {r : Responder σ} {size : σ → Address} {mask : Contents}
    {shows : σ → Contents → Prop} (hr : Window r size mask shows) {d : Driver σ} {ws : Contents}
    (hs : shows d.io ws) (ops : List Operation) : ∃ ws', shows (d.after r ops).io ws' := by
  refine after_preserves (P := fun d => ∃ ws', shows d.io ws') ?_ ⟨ws, hs⟩ ops
  rintro d op ⟨ws, hs⟩
  cases op with
  | access a =>
      obtain ⟨ws', hs', -⟩ := hr.exists_contents (Bus.within_any (a d.controller).program) hs
      exact ⟨ws', hs'⟩
  | discover =>
      obtain ⟨ws', hs', -⟩ := hr.exists_contents (Bus.within_any d.controller.discover) hs
      rw [(Operation.run_discover r d).2.1]
      exact ⟨ws', hs'⟩

/-- Whether one table of a window shows through the other depends on their bytes. If they share
none, no change of an entry of the one is read through the other. If they share a byte of a word
that can be written, and both are at multiples of 4, some store to an entry of the one is. -/
theorem isolated_by_bytes {r : Responder σ} {size : σ → Address} {mask : Contents}
    {shows : σ → Contents → Prop} (hr : Window r size mask shows) (io : σ) (ws : Contents)
    (hs : shows io ws) (s : Settings) (c : Controller)
    (h : Controller.ofSettings (size io) s = .ok c) (ops : List Operation)
    (kind kind' : TableKind) :
    let d := (⟨c, io⟩ : Driver σ).after r ops
    let l := d.controller.layout kind
    let l' := d.controller.layout kind'
    let answer (io : σ) (a : Access) := (a.program.run r io).result
    let after (w : Access) := (w.program.run r d.io).state
    ((∀ x, l.Covers x → ¬ l'.Covers x) →
      ∀ i j (w a : Access), w.Writes l i → a.Reads l' j → answer (after w) a = answer d.io a) ∧
    ∀ x, l.Covers x → l'.Covers x → mask (x / 4) ≠ 0 → (size io).toNat % 4 = 0 →
      l.offset.toNat % 4 = 0 → l'.offset.toNat % 4 = 0 →
      ∃ i words j n, i < l.capacity ∧ words.length ≤ l.entryWords.toNat ∧
        j < l'.capacity ∧ n ≤ l'.entryWords.toNat ∧
        let w := Access.writeEntry (d.controller.table kind) i words
        let a := Access.readEntry (d.controller.table kind') j n
        answer (after w) a ≠ answer d.io a := by
  intro d l l' answer after
  obtain ⟨ws', hs'⟩ := shows_after hr (d := ⟨c, io⟩) hs ops
  constructor
  · intro hbytes i j w a hw ha
    refine hr.result_after hs' hw ha fun hi hj => ?_
    have hapart : l.Apart l' := TableLayout.apart_iff.mpr hbytes
    exact hapart.entriesApart (UInt64.lt_iff_toNat_lt.mp hi) (UInt64.lt_iff_toNat_lt.mp hj)
  · intro x hx hx' hmask hwhole haligned haligned'
    have hstart : (⟨c, io⟩ : Driver σ).Accepted size := accepted_of_settings h
    have hd : d.Accepted size := hstart.after hr.toScreened ops
    have hw : (size d.io).toNat % 4 = 0 := by rwa [size_after hr.toScreened]
    have htable (k : TableKind) : d.controller.table k = ⟨d.controller.layout k, size d.io⟩ := by
      rw [← hd.window]
      cases k <;> rfl
    have hfits (k : TableKind) : (d.controller.layout k).Fits (size d.io) := hd.window ▸ hd.fits k
    obtain ⟨i, hi, hle, hlt⟩ := hx.exists_entry
    obtain ⟨j, hj, hle', hlt'⟩ := hx'.exists_entry
    have hentry : l.Usable (size d.io) i := ⟨(hfits kind).entry hi, hw, haligned⟩
    have hentry' : l'.Usable (size d.io) j := ⟨(hfits kind').entry hj, hw, haligned'⟩
    obtain ⟨q, hq, hword⟩ := hentry.exists_word hle hlt
    obtain ⟨q', hq', hword'⟩ := hentry'.exists_word hle' hlt'
    obtain ⟨words, hlength, hchange⟩ := hr.exists_change hs' hentry hentry' hq hq'
      (hword.trans hword'.symm) (by rwa [hword])
    refine ⟨i, words, j, q' + 1, hi, hlength, hj, hq', ?_⟩
    simp only [htable]
    exact hchange

/-- Over a file of zeros the tables stay apart, and the DCT does not see a store to the DAT. Over a
model the DAT word moves the DAT over the DCT, and it sees one. -/
theorem isolated_by_bytes_moved :
    let c : Controller := ⟨64, ⟨.dat, 0, 2, 1⟩, ⟨.dct, 16, 4, 1⟩⟩
    let file : Mapping × DeviceTree :=
      (⟨"f", 0, 64, .file ["f"]⟩, ⟨[(["f"], .regular (Array.replicate 64 0))], []⟩)
    let write := Access.writeEntry (c.table .dat) 0 [1, 2]
    let read := Access.readEntry (c.table .dct) 0 4
    let m : Model := (Model.blank 64).withRegister 0x30 16 0
    let d := (⟨c, m⟩ : Driver Model).after Model.responder [.discover]
    let answer (m : Model) (a : Access) := (a.program.run Model.responder m).result
    let after (m : Model) (a : Access) := (a.program.run Model.responder m).state
    (read.program.run Mapping.responder (write.program.run Mapping.responder file).state).result =
        (read.program.run Mapping.responder file).result ∧
      ∃ i words j n,
        answer (after d.io (.writeEntry (d.controller.table .dat) i words))
            (.readEntry (d.controller.table .dct) j n) ≠
          answer d.io (.readEntry (d.controller.table .dct) j n) := by
  intro c file write read m d answer after
  let s : Settings := ⟨"f", 0, 64, c.dat, c.dct⟩
  have hs : Controller.ofSettings 64 s = .ok c := by decide +kernel
  constructor
  · have hfits : file.1.Fits ["f"] file.2 := ⟨rfl, by decide +kernel, by decide +kernel⟩
    have hlaw := isolated_by_bytes (Mapping.window ["f"]) file _ ⟨hfits, fun _ _ => rfl⟩ s c hs []
      .dat .dct
    refine hlaw.1 ?_ 0 0 write read ⟨rfl, rfl⟩ ⟨rfl, rfl⟩
    rintro x ⟨-, (hx : x < 8)⟩ ⟨(hx' : 16 ≤ x), -⟩
    omega
  · have hdat : d.controller.dat = ⟨.dat, 16, 2, 1⟩ := by decide +kernel
    have hdct : d.controller.dct = ⟨.dct, 16, 4, 1⟩ := by decide +kernel
    have hcovers : d.controller.dat.Covers 16 ∧ d.controller.dct.Covers 16 := by
      rw [hdat, hdct]
      decide +kernel
    have hlaw := isolated_by_bytes (Model.window m.maskAt) m m.wordAt ⟨fun _ _ => rfl, rfl⟩ s c
      (by decide +kernel) [.discover] .dat .dct
    obtain ⟨i, words, j, n, -, -, -, -, hne⟩ := hlaw.2 16 hcovers.1 hcovers.2 (by decide +kernel)
      m.size_mod_four (congrArg (·.offset.toNat % 4) hdat) (congrArg (·.offset.toNat % 4) hdct)
    exact ⟨i, words, j, n, hne⟩

/-- Both tables may be at the same place, in the settings as after a discovery. Then what is written
to an entry of the one is read from an entry of the other. -/
theorem tables_share_bytes :
    let m : Model := .blank 64
    let c : Controller := ⟨64, ⟨.dat, 0, 2, 1⟩, ⟨.dct, 0, 4, 1⟩⟩
    let o := Operation.discover.run Model.responder ⟨c, m⟩
    let found := o.state.controller
    let read (m : Model) := ((found.table .dct).readEntry 0 4).run Model.responder m
    let write (m : Model) := ((found.table .dat).writeEntry 0 [1, 2]).run Model.responder m
    Controller.ofSettings m.size ⟨"", 0, 64, c.dat, c.dct⟩ = .ok c ∧
      o.result.isOk = true ∧ found.dat.Covers 0 ∧ found.dct.Covers 0 ∧
      (read o.state.io).result = .ok [0, 0, 0, 0] ∧
      (write o.state.io).result = .ok () ∧
      (read (write o.state.io).state).result = .ok [1, 2, 0, 0] := by
  intro m c o found read write
  refine ⟨?_, ?_, ?_, ?_, ?_, ?_, ?_⟩ <;> decide +kernel

end Driver

end I3CHost
