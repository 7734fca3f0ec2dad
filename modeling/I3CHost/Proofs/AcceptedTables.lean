import I3CHost.Proofs.Discovery
import I3CHost.Proofs.EntryRequests
import I3CHost.Proofs.FileWords
import I3CHost.Proofs.ModelMemory

/-!
# Accepted tables

A table is accepted as a whole: its end has to be an address, and no further than the end of the
window. An access asks for one word at a time and adds up its address in other ways. The two meet in
`TableLayout.EntryFits.reaches`: if the window is made of whole words, every word of an entry that
ends inside it has an address, which is the exact sum and leaves room for the word.

What is left to go wrong is alignment. Entries are whole words, so all words of a table are aligned
or none is, as its offset is. Neither settings nor a discovery look at that.

That both tables fit is kept by every operation: a request leaves the controller alone, and a
discovery installs tables that fit or none.
-/
namespace I3CHost

/-! ## Words of an accepted table -/

namespace Table

theorem toNat_wordFrom {start : Address} {k : Nat} (h : start.toNat + 4 * k < UInt64.size) :
    (wordFrom start k).toNat = start.toNat + 4 * k := by
  have h4 : Address.wordBytes.toNat = 4 := rfl
  rw [wordFrom, UInt64.toNat_add, UInt64.toNat_mul, UInt64.toNat_ofNat', h4]
  simp only [UInt64.size] at h
  omega

theorem entryOffset_eq {t : Table} {i : UInt64} (hi : i < t.layout.capacity)
    (hend : (i.toNat + 1) * t.layout.entryBytes.toNat < UInt64.size) :
    t.entryOffset i = .ok (i * t.layout.entryBytes) := by
  have hlt := UInt64.lt_iff_toNat_lt.mp hi
  have hcapacity := t.layout.capacity.toNat_lt
  have hnext : (i + 1).toNat = i.toNat + 1 := by
    rw [UInt64.toNat_add, UInt64.toNat_one]
    omega
  have hstart : i.toNat * t.layout.entryBytes.toNat < UInt64.size := by
    have hle := Nat.mul_le_mul_right t.layout.entryBytes.toNat (Nat.le_add_right i.toNat 1)
    omega
  rw [← hnext] at hend
  simp only [entryOffset, TableLayout.entryOffset?, Address.mul?, if_neg (UInt64.not_le.mpr hi),
    if_pos hend, if_pos hstart]

end Table

namespace TableLayout

variable {l : TableLayout} {window : Address} {i : UInt64} {n k : Nat}

theorem start_succ (l : TableLayout) (i : Nat) :
    l.start (i + 1) = l.start i + l.entryBytes.toNat := by
  unfold start
  rw [Nat.succ_mul, Nat.add_assoc]

theorem toNat_finish {e : Address} (h : l.finish? = some e) :
    e.toNat = l.start l.capacity.toNat := by
  obtain ⟨s, hs, he⟩ := Option.bind_eq_some_iff.mp h
  rw [Address.add?_eq_some he, Address.mul?_eq_some hs]
  rfl

/-- Entry `i` is an entry of the table and ends inside the window. The table may end later. -/
structure EntryFits (l : TableLayout) (window : Address) (i : UInt64) : Prop where
  index : i < l.capacity
  finish : l.start (i.toNat + 1) ≤ window.toNat

/-- Every entry ends inside the window if the table does. -/
theorem Fits.entry (h : l.Fits window) (hi : i < l.capacity) : l.EntryFits window i := by
  obtain ⟨e, he, hle⟩ := h
  refine ⟨hi, ?_⟩
  calc l.start (i.toNat + 1)
      ≤ l.start l.capacity.toNat := l.start_mono (UInt64.lt_iff_toNat_lt.mp hi)
    _ = e.toNat := (toNat_finish he).symm
    _ ≤ window.toNat := UInt64.le_iff_toNat_le.mp hle

namespace EntryFits

/-- Entries are as long as their words. If they were not, one entry would reach the last byte of
the address space, and no window of whole words has that byte. -/
theorem entryBytes_eq (h : l.EntryFits window i) (hw : window.toNat % 4 = 0) :
    l.entryBytes.toNat = 4 * l.entryWords.toNat := by
  rcases Nat.lt_or_ge (4 * l.entryWords.toNat) UInt64.size with hlt | hge
  · exact l.entryBytes_eq.1 hlt
  · have hbytes := l.entryBytes_eq.2 hge
    have hend := h.finish
    have hwindow := window.toNat_lt_size
    rw [start_succ] at hend
    simp only [UInt64.size] at hbytes hwindow
    omega

/-- Word `k` of entry `i` and all before it lie inside the window. -/
theorem start_add_le (h : l.EntryFits window i) (hw : window.toNat % 4 = 0)
    (hk : k < l.entryWords.toNat) : l.start i.toNat + 4 * k + 4 ≤ window.toNat := by
  have hend := h.finish
  have hbytes := h.entryBytes_eq hw
  rw [start_succ] at hend
  omega

/-- An entry starts at a multiple of its length. -/
theorem toNat_entry (h : l.EntryFits window i) :
    (i.toNat + 1) * l.entryBytes.toNat < UInt64.size ∧
      l.offset.toNat + (i * l.entryBytes).toNat = l.start i.toNat := by
  have hend := h.finish
  have hwindow := window.toNat_lt_size
  have hnext : (i.toNat + 1) * l.entryBytes.toNat < UInt64.size := by
    unfold start at hend
    omega
  have hlt := Nat.lt_of_le_of_lt (Nat.mul_le_mul_right _ (Nat.le_add_right i.toNat 1)) hnext
  refine ⟨hnext, ?_⟩
  rw [UInt64.toNat_mul, Nat.mod_eq_of_lt hlt, start]

/-- The words of an entry are within reach. -/
theorem reaches (h : l.EntryFits window i) (hw : window.toNat % 4 = 0)
    (hn : n ≤ l.entryWords.toNat) : Table.Reaches ⟨l, window⟩ i n := by
  obtain ⟨hend, hstart⟩ := h.toNat_entry
  have hwindow := window.toNat_lt_size
  have hsum (k : Nat) (hk : k < n) : l.offset.toNat + ((i * l.entryBytes).toNat + 4 * k) <
      UInt64.size := by
    have hword := h.start_add_le hw (Nat.lt_of_lt_of_le hk hn)
    omega
  have hentry (k : Nat) (hk : k < n) : (i * l.entryBytes).toNat + 4 * k < UInt64.size := by
    have := hsum k hk
    omega
  refine ⟨Table.entryOffset_eq h.index hend, hn, hentry, fun k hk => ?_⟩
  apply Registers.address_eq
  rw [Table.toNat_wordFrom (hentry k hk)]
  exact hsum k hk

/-- Where a word of an entry stands. -/
theorem toNat_wordAddress (h : l.EntryFits window i) (hw : window.toNat % 4 = 0)
    (hk : k < l.entryWords.toNat) :
    (Table.wordAddress ⟨l, window⟩ i k).toNat = l.start i.toNat + 4 * k := by
  have hword := h.reaches hw hk
  have hstart := h.toNat_entry.2
  have hsum := (Registers.address_eq_ok (hword.address k (Nat.lt_succ_self k))).2
  rw [Table.toNat_wordFrom (hword.sum k (Nat.lt_succ_self k))] at hsum
  rw [hsum, ← hstart, Nat.add_assoc]
  rfl

/-- An entry is aligned as its table is. -/
theorem start_mod_four (h : l.EntryFits window i) (hw : window.toNat % 4 = 0) :
    l.start i.toNat % 4 = l.offset.toNat % 4 := by
  rw [start, h.entryBytes_eq hw, Nat.mul_left_comm]
  omega

end EntryFits

end TableLayout

theorem checkAccess_of_misaligned {o limit : Address} (h : o.toNat % 4 ≠ 0) :
    checkAccess o limit = .error (.misaligned o) := by
  have hfalse : o.isAligned = false := by
    rw [← Bool.not_eq_true, Address.isAligned_iff]
    exact h
  simp only [checkAccess, hfalse, Bool.not_false, if_true]

/-- The check of a word of such an entry comes down to the offset of the table. -/
theorem TableLayout.EntryFits.checkAccess_word {l : TableLayout} {window : Address} {i : UInt64}
    {k : Nat} (h : l.EntryFits window i) (hw : window.toNat % 4 = 0)
    (hk : k < l.entryWords.toNat) :
    let a := Table.wordAddress ⟨l, window⟩ i k
    checkAccess a window = if l.offset.toNat % 4 = 0 then .ok () else .error (.misaligned a) := by
  intro a
  have ha : a.toNat = l.start i.toNat + 4 * k := h.toNat_wordAddress hw hk
  have hend := h.start_add_le hw hk
  have hmod := h.start_mod_four hw
  split
  · next haligned => exact (checkAccess_eq_ok_iff a window).mpr ⟨by omega, by omega⟩
  · next hmisaligned => exact checkAccess_of_misaligned (by omega)

/-! ## Requests for entries of an accepted table -/

namespace Access

variable {σ : Type} {r : Responder σ} {size : σ → Address} {s : σ}
variable {a : Access} {t : Table} {i : UInt64}

/-- The course of a request for words of an accepted table, with the check of each visit. -/
theorem exists_checked_course (hfits : t.layout.Fits t.window) (hw : t.window.toNat % 4 = 0)
    (ha : a.entry? = some (t, i)) (hi : i < t.layout.capacity)
    (hn : a.extent ≤ t.layout.entryWords.toNat) :
    ∃ vs, a.program.Follows vs ∧ (0 < a.extent → vs ≠ []) ∧
      ∀ v ∈ vs, checkAccess v.address t.window =
        if t.layout.offset.toNat % 4 = 0 then .ok () else .error (.misaligned v.address) := by
  obtain ⟨vs, hfollows, hwords, hsome⟩ := exists_course ha ((hfits.entry hi).reaches hw hn)
  refine ⟨vs, hfollows, hsome, fun v hv => ?_⟩
  obtain ⟨k, hk, haddress⟩ := hwords v hv
  rw [haddress]
  exact (hfits.entry hi).checkAccess_word hw (Nat.lt_of_lt_of_le hk hn)

/-- How a request for words of an accepted table can end. -/
theorem result_of_fits (hr : Screened r size) (hs : t.window = size s)
    (hfits : t.layout.Fits t.window) (hw : t.window.toNat % 4 = 0) (ha : a.entry? = some (t, i))
    (hi : i < t.layout.capacity) (hn : a.extent ≤ t.layout.entryWords.toNat) :
    let o := a.program.run r s
    (∀ e, o.result = .error e → ∃ b, e = .misaligned b) ∧
      (t.layout.offset.toNat % 4 = 0 → ∃ x, o.result = .ok x) ∧
      (t.layout.offset.toNat % 4 ≠ 0 → 0 < a.extent → ∃ b, o.result = .error (.misaligned b)) := by
  intro o
  obtain ⟨vs, hfollows, hsome, hcheck⟩ := exists_checked_course hfits hw ha hi hn
  rw [hs] at hcheck
  refine ⟨fun e he => ?_, fun haligned => ?_, fun hmisaligned hextent => ?_⟩
  · obtain ⟨v, hv, hfault⟩ := hr.exists_of_run_eq_error hfollows he
    rw [hcheck v hv] at hfault
    split at hfault
    · cases hfault
    · cases hfault
      exact ⟨v.address, rfl⟩
  · refine hr.run_eq_ok hfollows fun v hv => ?_
    rw [hcheck v hv, if_pos haligned]
  · obtain ⟨v, us, rfl⟩ := List.exists_cons_of_ne_nil (hsome hextent)
    have hfirst := hcheck v List.mem_cons_self
    rw [if_neg hmisaligned] at hfirst
    exact ⟨v.address, hr.run_eq_error hfollows hfirst⟩

end Access

/-! ## The windows there are -/

namespace Model

theorem screened : Screened responder size where
  load o m := by
    by_cases h : m.Accepts o
    · rw [responder_load, load_of_accepts h, accepts_iff.mp h]
      rfl
    · obtain ⟨e, hc, he⟩ := load_of_not_accepts h
      rw [responder_load, he, hc]
      rfl
  store o v m := by
    by_cases h : m.Accepts o
    · rw [responder_store, (store_of_accepts h v).1, accepts_iff.mp h]
    · obtain ⟨e, hc, he⟩ := store_of_not_accepts h v
      rw [responder_store, he, hc]
  size_load o m := size_congr (congrArg Array.size (cells_load m o))
  size_store o v m := size_congr (size_cells_store m o v)

theorem size_mod_four (m : Model) : m.size.toNat % 4 = 0 := by
  rw [size, UInt64.toNat_ofNat']
  omega

end Model

namespace Mapping

theorem size_poke (m : Mapping) (t : DeviceTree) (o : Address) (w : Word) :
    (m.poke t o w).1.size = m.size := by
  unfold poke
  split <;> rfl

theorem screened : Screened responder fun s => s.1.size where
  load o s := by
    unfold responder load
    cases hc : checkAccess o s.1.size <;> simp only [hc] <;> rfl
  store o v s := by
    unfold responder store
    cases hc : checkAccess o s.1.size <;> simp only [hc]
  size_load o s := by
    unfold responder load
    cases hc : checkAccess o s.1.size <;> simp only [hc]
  size_store o v s := by
    unfold responder store
    cases hc : checkAccess o s.1.size <;> simp only [hc]
    exact s.1.size_poke s.2 o v

theorem size_mod_four {t : DeviceTree} {path : String} {base size : Address} {m : Mapping}
    (h : (openAt t path base size).result = .ok m) : m.size.toNat % 4 = 0 := by
  obtain ⟨⟨-, hsize, -⟩, -, -, -, -, rfl, -⟩ := openAt_eq_ok h
  exact hsize

end Mapping

/-! ## Drivers with accepted tables -/

namespace Driver

variable {σ : Type} {r : Responder σ} {size : σ → Address} {d : Driver σ}

/-- The controller has the window's size, and both its tables end inside it. -/
structure Accepted (size : σ → Address) (d : Driver σ) : Prop where
  window : d.controller.window = size d.io
  fits : d.controller.Fits

theorem accepted_of_settings {s : Settings}
    (h : Controller.ofSettings (size d.io) s = .ok d.controller) : d.Accepted size := by
  unfold Controller.ofSettings at h
  cases hsound : s.check with
  | error e =>
      rw [hsound] at h
      cases h
  | ok u =>
      rw [hsound] at h
      cases hfits : Controller.checkFits ⟨size d.io, s.dat, s.dct⟩ with
      | error e =>
          simp only [hfits, bind, Except.bind, reduceCtorEq] at h
      | ok u =>
          simp only [hfits, bind, Except.bind, pure, Except.pure, Except.ok.injEq] at h
          rw [Controller.checkFits_eq_ok_iff, h] at hfits
          exact ⟨by rw [← h], hfits⟩

/-- Tables that a discovery has just installed are accepted, whatever was there before. -/
theorem accepted_of_discover (hr : Screened r size) (hwindow : d.controller.window = size d.io)
    {x : Answer} (hx : (Operation.discover.run r d).result = .ok x) :
    (Operation.discover.run r d).state.Accepted size := by
  have hsize := hr.size_operation d .discover
  obtain ⟨raw, raw', -, hs, hfits, -⟩ := discover_of_ok hx
  refine ⟨?_, hfits⟩
  rw [hsize, ← hwindow, hs]
  rfl

/-- An operation keeps accepted tables, or replaces them by accepted ones. -/
theorem Accepted.operation (hr : Screened r size) (h : d.Accepted size) (op : Operation) :
    (op.run r d).state.Accepted size := by
  have hsize := hr.size_operation d op
  cases op with
  | access a => exact ⟨h.window.trans hsize.symm, h.fits⟩
  | discover =>
      cases hresult : (Operation.discover.run r d).result with
      | ok x => exact accepted_of_discover hr h.window hresult
      | error e =>
          have hsame := Operation.controller_of_error hresult
          refine ⟨?_, ?_⟩
          · rw [hsame, hsize, h.window]
          · rw [hsame]
            exact h.fits

theorem Accepted.after (hr : Screened r size) (h : d.Accepted size) (ops : List Operation) :
    (d.after r ops).Accepted size :=
  after_preserves (fun _ op h => h.operation hr op) h ops

theorem size_after (hr : Screened r size) (d : Driver σ) (ops : List Operation) :
    size (d.after r ops).io = size d.io :=
  after_preserves (P := fun d' => size d'.io = size d.io)
    (fun d' op h => (hr.size_operation d' op).trans h) rfl ops

/-- Both tables of a controller made by settings, or by a discovery, end inside the window after any
further operations. A request for an entry below the capacity and for words the entry has is never
out of bounds and never past the last index. -/
theorem tables_inside_window (hr : Screened r size) (d : Driver σ)
    (hsize : (size d.io).toNat % 4 = 0)
    (h : (∃ s, Controller.ofSettings (size d.io) s = .ok d.controller) ∨
      ∃ d₀ x, d₀.controller.window = size d₀.io ∧ (Operation.discover.run r d₀).result = .ok x ∧
        (Operation.discover.run r d₀).state = d) (ops : List Operation) :
    let d' := d.after r ops
    (∀ kind, ∃ e, (d'.controller.layout kind).finish? = some e ∧ e ≤ size d'.io) ∧
      ∀ kind i (a : Access), a.entry? = some (d'.controller.table kind, i) →
        i < (d'.controller.layout kind).capacity →
        a.extent ≤ (d'.controller.layout kind).entryWords.toNat →
        ∀ e, (a.program.run r d'.io).result = .error e →
          (∀ o limit, e ≠ .outOfBounds o limit) ∧
            ∀ table j capacity, e ≠ .indexOutOfRange table j capacity := by
  intro d'
  have hd : d.Accepted size := by
    rcases h with ⟨s, hs⟩ | ⟨d₀, x, hwindow, hx, rfl⟩
    · exact accepted_of_settings hs
    · exact accepted_of_discover hr hwindow hx
  have hd' : d'.Accepted size := hd.after hr ops
  have hw : d'.controller.window.toNat % 4 = 0 := by
    rw [hd'.window, size_after hr d ops, hsize]
  constructor
  · intro kind
    obtain ⟨e, he, hle⟩ := hd'.fits kind
    exact ⟨e, he, hd'.window ▸ hle⟩
  · intro kind i a ha hi hn e he
    obtain ⟨hend, -⟩ := Access.result_of_fits hr hd'.window (hd'.fits kind) hw ha hi hn
    obtain ⟨b, rfl⟩ := hend e he
    constructor
    · intro o limit hne
      cases hne
    · intro table j capacity hne
      cases hne

/-- The DAT word moves and resizes its table; afterwards its last entry has its last word inside
the window, where the third entry would not be. -/
theorem tables_inside_window_moved :
    let m : Model := (Model.blank 64).withRegister 0x30 0x2030 0
    let c : Controller := ⟨64, ⟨.dat, 0, 2, 1⟩, ⟨.dct, 16, 4, 1⟩⟩
    let d' := (⟨c, m⟩ : Driver Model).after Model.responder [.discover]
    d'.controller.dat = ⟨.dat, 0x30, 2, 2⟩ ∧
      (∃ e, d'.controller.dat.finish? = some e ∧ e ≤ d'.io.size) ∧
      ∀ e, ((Access.readEntry (d'.controller.table .dat) 1 2).program.run
        Model.responder d'.io).result = .error e → ∀ o limit, e ≠ .outOfBounds o limit := by
  intro m c d'
  have hs : Controller.ofSettings m.size ⟨"", 0, 64, c.dat, c.dct⟩ = .ok c := by decide +kernel
  have hmoved : d'.controller.dat = ⟨.dat, 0x30, 2, 2⟩ := by decide +kernel
  have hi : 1 < (d'.controller.layout .dat).capacity := by decide +kernel
  have hn : 2 ≤ (d'.controller.layout .dat).entryWords.toNat := by decide +kernel
  have hinside := tables_inside_window Model.screened ⟨c, m⟩ m.size_mod_four (.inl ⟨_, hs⟩)
    [.discover]
  refine ⟨hmoved, hinside.1 .dat, fun e he => ?_⟩
  exact (hinside.2 .dat 1 (.readEntry (d'.controller.table .dat) 1 2) rfl hi hn e he).1

/-- Over a software window, a request for an entry below the capacity and for words the entry has
succeeds if the table is at a multiple of 4. If it is not, the table was accepted all the same, and
a request for one word or more is misaligned. -/
theorem aligned_tables_usable (m : Model) (s : Settings) (c : Controller)
    (h : Controller.ofSettings m.size s = .ok c) (ops : List Operation) :
    let d := (⟨c, m⟩ : Driver Model).after Model.responder ops
    ∀ kind i (a : Access), a.entry? = some (d.controller.table kind, i) →
      i < (d.controller.layout kind).capacity →
      a.extent ≤ (d.controller.layout kind).entryWords.toNat →
      ((d.controller.layout kind).offset.toNat % 4 = 0 →
        ∃ x, (a.program.run Model.responder d.io).result = .ok x) ∧
      ((d.controller.layout kind).offset.toNat % 4 ≠ 0 → 0 < a.extent →
        ∃ b, (a.program.run Model.responder d.io).result = .error (.misaligned b)) := by
  intro d kind i a ha hi hn
  have hstart : (⟨c, m⟩ : Driver Model).Accepted Model.size := accepted_of_settings h
  have hd : d.Accepted Model.size := hstart.after Model.screened ops
  have hw : d.controller.window.toNat % 4 = 0 := by
    rw [hd.window]
    exact d.io.size_mod_four
  exact (Access.result_of_fits Model.screened hd.window (hd.fits kind) hw ha hi hn).2

theorem aligned_tables_usable_moved :
    let m : Model := (Model.blank 64).withRegister 0x30 0x2030 0
    let c : Controller := ⟨64, ⟨.dat, 2, 2, 1⟩, ⟨.dct, 16, 4, 1⟩⟩
    let d := (⟨c, m⟩ : Driver Model).after Model.responder [.discover]
    (∃ x, ((Access.readEntry (d.controller.table .dat) 1 2).program.run
        Model.responder d.io).result = .ok x) ∧
      ∃ b, ((Access.readEntry (c.table .dat) 0 2).program.run Model.responder m).result =
        .error (.misaligned b) := by
  intro m c d
  have hs : Controller.ofSettings m.size ⟨"", 0, 64, c.dat, c.dct⟩ = .ok c := by decide +kernel
  have hi : 1 < (d.controller.layout .dat).capacity := by decide +kernel
  have hn : 2 ≤ (d.controller.layout .dat).entryWords.toNat := by decide +kernel
  have haligned : (d.controller.layout .dat).offset.toNat % 4 = 0 := by decide +kernel
  constructor
  · exact (aligned_tables_usable m _ c hs [.discover] .dat 1
      (.readEntry (d.controller.table .dat) 1 2) rfl hi hn).1 haligned
  · exact (aligned_tables_usable m _ c hs [] .dat 0 (.readEntry (c.table .dat) 0 2) rfl
      (by decide) (by decide)).2 (by decide) (by decide)

/-- Settings may put the DAT at byte 2, and a section word may put it at byte 6. Both are accepted,
and the table cannot be read. -/
theorem misaligned_tables_accepted :
    let m : Model := (Model.blank 64).withRegister 0x30 6 0
    let c (offset : Address) : Controller := ⟨64, ⟨.dat, offset, 2, 1⟩, ⟨.dct, 16, 4, 1⟩⟩
    let o := Operation.discover.run Model.responder ⟨c 2, m⟩
    let read (d : Driver Model) :=
      (((d.controller.table .dat).readEntry 0 2).run Model.responder d.io).result
    Controller.ofSettings m.size ⟨"", 0, 64, (c 2).dat, (c 2).dct⟩ = .ok (c 2) ∧
      read ⟨c 2, m⟩ = .error (.misaligned 2) ∧
      o.result.isOk = true ∧ o.state.controller = c 6 ∧ read o.state = .error (.misaligned 6) := by
  intro m c o read
  refine ⟨?_, ?_, ?_, ?_, ?_⟩ <;> decide +kernel

end Driver

end I3CHost
