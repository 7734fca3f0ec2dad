import I3CHost.CommandLine.Printout
import I3CHost.Proofs.Bits
import I3CHost.Proofs.Methods

/-!
# Discovery

A discovery loads the section registers of both tables, the DAT first, and adopts what they say if
both tables then end inside the window. `discover_cases` lists how it can end: at the first load, at
the second, at the comparison with the window, or with new layouts. Only the last changes the
controller, and what it becomes is a function of the old layouts and the two words.

The words count up to bit 18. What lies above, the next entry to be filled and the entry size, is
logged at most.
-/
namespace I3CHost

/-! ## Tables that end inside a window -/

namespace TableLayout

/-- The table ends inside the window. -/
def Fits (l : TableLayout) (window : Address) : Prop := ∃ e, l.finish? = some e ∧ e ≤ window

theorem checkFits_eq_ok_iff {l : TableLayout} {window : Address} :
    l.checkFits window = .ok () ↔ l.Fits window := by
  unfold checkFits Fits
  cases h : l.finish? with
  | none => simp
  | some e =>
      by_cases hlt : window < e
      · simp [hlt]
      · simp [hlt, UInt64.not_lt.mp hlt]

theorem exists_of_checkFits_eq_error {l : TableLayout} {window : Address} {e : Fault}
    (h : l.checkFits window = .error e) : ∃ why, e = .invalidSettings why := by
  unfold checkFits at h
  split at h
  · cases h
    exact ⟨_, rfl⟩
  · split at h
    · cases h
      exact ⟨_, rfl⟩
    · cases h

end TableLayout

namespace Controller

variable {c : Controller} {e : Fault}

/-- Both tables end inside the window. -/
def Fits (c : Controller) : Prop := ∀ kind, (c.layout kind).Fits c.window

theorem fits_iff : c.Fits ↔ c.dat.Fits c.window ∧ c.dct.Fits c.window := by
  constructor
  · intro h
    exact ⟨h .dat, h .dct⟩
  · rintro ⟨hdat, hdct⟩ kind
    cases kind
    · exact hdat
    · exact hdct

theorem checkFits_eq_ok_iff : c.checkFits = .ok () ↔ c.Fits := by
  rw [fits_iff, ← TableLayout.checkFits_eq_ok_iff, ← TableLayout.checkFits_eq_ok_iff]
  unfold checkFits
  cases c.dat.checkFits c.window with
  | ok u => exact ⟨fun h => ⟨rfl, h⟩, fun h => h.2⟩
  | error e => exact ⟨fun h => (by cases h), fun h => (by cases h.1)⟩

/-- A controller is refused because a table does not fit, and as unsound settings. -/
theorem checkFits_eq_error (h : c.checkFits = .error e) :
    ¬ c.Fits ∧ ∃ why, e = .invalidSettings why := by
  constructor
  · intro hfits
    rw [checkFits_eq_ok_iff.mpr hfits] at h
    cases h
  · unfold checkFits at h
    cases hdat : c.dat.checkFits c.window with
    | error e' =>
        rw [hdat] at h
        cases h
        exact TableLayout.exists_of_checkFits_eq_error hdat
    | ok u =>
        rw [hdat] at h
        exact TableLayout.exists_of_checkFits_eq_error h

end Controller

/-! ## What a section word says -/

/-- The layout `new` is `old` under a section word: the offset is bits 0 to 11 and the capacity bits
12 to 18, each where it is not 0; all else is as it was. -/
structure TableLayout.Adopts (old : TableLayout) (raw : Word) (new : TableLayout) : Prop where
  kind : new.kind = old.kind
  entryWords : new.entryWords = old.entryWords
  offset : new.offset = if raw &&& 0xFFF = 0 then old.offset else (raw &&& 0xFFF).toUInt64
  capacity : new.capacity =
    if (raw >>> 12) &&& 0x7F = 0 then old.capacity else ((raw >>> 12) &&& 0x7F).toUInt64

namespace Controller

theorem tableOffset_get (raw : Word) : SectionOffset.tableOffset.get raw = raw &&& 0xFFF :=
  UInt32.shiftRight_zero

theorem tableSize_get (raw : Word) : SectionOffset.tableSize.get raw = (raw >>> 12) &&& 0x7F :=
  UInt32.shiftRight_and

theorem toUInt64_beq_zero (w : Word) : (w.toUInt64 == 0) = decide (w = 0) := by
  rw [Bool.eq_iff_iff, beq_iff_eq, decide_eq_true_eq, ← UInt64.toNat_inj, ← UInt32.toNat_inj,
    UInt32.toNat_toUInt64]
  rfl

theorem advertised_adopts (l : TableLayout) (raw : Word) : l.Adopts raw (advertised l raw) where
  kind := rfl
  entryWords := rfl
  offset := by
    simp only [advertised, tableOffset_get, toUInt64_beq_zero, decide_eq_true_eq]
  capacity := by
    simp only [advertised, tableSize_get, toUInt64_beq_zero, decide_eq_true_eq]

theorem eq_advertised {old new : TableLayout} {raw : Word} (h : old.Adopts raw new) :
    new = advertised old raw := by
  have h' := advertised_adopts old raw
  rw [TableLayout.mk.injEq]
  exact ⟨h.kind.trans h'.kind.symm, h.offset.trans h'.offset.symm,
    h.entryWords.trans h'.entryWords.symm, h.capacity.trans h'.capacity.symm⟩

/-- Bits 0 to 18 of two words are equal. -/
def SameSection (raw raw' : Word) : Prop := Word.AgreeOn 0x7FFFF raw raw'

/-- The table index, the entry size and the bits between them have no say. -/
theorem advertised_congr {raw raw' : Word} (h : SameSection raw raw') (l : TableLayout) :
    advertised l raw = advertised l raw' := by
  have hoffset : SectionOffset.tableOffset.Inside 0x7FFFF := rfl
  have hsize : SectionOffset.tableSize.Inside 0x7FFFF := rfl
  unfold advertised
  rw [hoffset.get_eq h, hsize.get_eq h]

/-- What was adopted is adopted again. -/
theorem advertised_advertised (l : TableLayout) (raw : Word) :
    advertised (advertised l raw) raw = advertised l raw := by
  have hkeep (old x : UInt64) :
      (if x == 0 then if x == 0 then old else x else x) = if x == 0 then old else x := by
    split <;> rfl
  simp only [advertised, hkeep]

/-! ## Running a discovery -/

/-- The controller with the layouts that two section words make of its own. -/
def adopt (c : Controller) (raw raw' : Word) : Controller :=
  { c with dat := advertised c.dat raw, dct := advertised c.dct raw' }

theorem adopt_congr {raw raw' x x' : Word} (h : SameSection x raw) (h' : SameSection x' raw')
    (c : Controller) : c.adopt x x' = c.adopt raw raw' := by
  simp only [adopt, advertised_congr h, advertised_congr h']

theorem adopt_adopt (c : Controller) (raw raw' : Word) :
    (c.adopt raw raw').adopt raw raw' = c.adopt raw raw' := by
  simp only [adopt, advertised_advertised]

variable {σ : Type} (r : Responder σ)

/-- Reading a section is one load, and the word loaded settles the rest. -/
theorem run_readSection (c : Controller) (register : Address)
    (haddress : c.csr.address register = .ok register) (l : TableLayout) (s : σ) :
    let o := (c.readSection register l).run r s
    (∃ e, o.result = .error e ∧ o.transactions = [.load register none]) ∨
      ∃ raw, o.result = .ok (advertised l raw) ∧
        o.transactions = [.load register (some raw)] := by
  intro o
  have ho : o = Bus.run r (.load register fun raw =>
      if SectionOffset.entrySize.get raw != 0 then
        .note (.entrySizeIgnored l.kind (SectionOffset.entrySize.get raw) l.entryWords)
          (.done (advertised l raw))
      else .done (advertised l raw)) s := by
    simp only [o, readSection, Registers.read, haddress]
    congr 2
  cases hreply : (r.load register s).result with
  | error e =>
      rw [Bus.run_load_error hreply] at ho
      exact .inl ⟨e, by rw [ho], by rw [ho]⟩
  | ok raw =>
      rw [Bus.run_load_ok hreply] at ho
      rw [ho]
      cases SectionOffset.entrySize.get raw != 0 <;> exact .inr ⟨raw, rfl, rfl⟩

/-- A discovery ends at either load, or with the verdict on the layouts it found. -/
theorem run_discover (c : Controller) (s : σ) :
    let o := c.discover.run r s
    ((∃ e, o.result = .error e) ∧ (o.transactions = [.load Register.datSectionOffset none] ∨
        ∃ raw, o.transactions = [.load Register.datSectionOffset (some raw),
          .load Register.dctSectionOffset none])) ∨
      ∃ raw raw', o.transactions = [.load Register.datSectionOffset (some raw),
          .load Register.dctSectionOffset (some raw')] ∧
        o.result = (c.adopt raw raw').checkFits.map fun _ => c.adopt raw raw' := by
  intro o
  have ho : o = ((c.readSection Register.datSectionOffset c.dat).bind fun dat =>
      (c.readSection Register.dctSectionOffset c.dct).bind fun dct =>
        (Bus.ofExcept ({ c with dat, dct } : Controller).checkFits).bind fun _ =>
          .note (.discovered dat dct) (.done { c with dat, dct })).run r s := rfl
  rw [Bus.run_bind] at ho
  rcases run_readSection r c Register.datSectionOffset rfl c.dat s with
    ⟨e, hr, ht⟩ | ⟨raw, hr, ht⟩
  · simp only [Outcome.andThen, hr, ht] at ho
    exact .inl ⟨⟨e, by rw [ho]⟩, .inl (by rw [ho])⟩
  · simp only [Outcome.andThen, hr, ht] at ho
    generalize ((c.readSection Register.datSectionOffset c.dat).run r s).state = s' at ho
    rw [Bus.run_bind] at ho
    rcases run_readSection r c Register.dctSectionOffset rfl c.dct s' with
      ⟨e, hr', ht'⟩ | ⟨raw', hr', ht'⟩
    · simp only [Outcome.andThen, hr', ht'] at ho
      exact .inl ⟨⟨e, by rw [ho]⟩, .inr ⟨raw, by rw [ho]; rfl⟩⟩
    · simp only [Outcome.andThen, hr', ht'] at ho
      refine .inr ⟨raw, raw', ?_⟩
      rw [ho]
      simp only [adopt]
      cases ({ c with
        dat := advertised c.dat raw, dct := advertised c.dct raw' } : Controller).checkFits with
      | error e => exact ⟨rfl, rfl⟩
      | ok u => exact ⟨rfl, rfl⟩

end Controller

/-- The access a transaction tells of. -/
def Transaction.visit : Transaction → Visit
  | load o _ => .load o
  | store o _ _ => .store o

namespace Driver

variable {σ τ : Type}

/-- Both section registers were loaded, with these words. -/
def Loads (o : Outcome (Driver σ) Answer) (raw raw' : Word) : Prop :=
  o.transactions = [.load Register.datSectionOffset (some raw),
    .load Register.dctSectionOffset (some raw')]

/-- A discovery as an operation of a driver: the controller changes with a success and not else. -/
theorem discover_cases (r : Responder σ) (d : Driver σ) :
    let o := Operation.discover.run r d
    ((∃ e, o.result = .error e) ∧ o.state.controller = d.controller ∧
        (o.transactions = [.load Register.datSectionOffset none] ∨
          ∃ raw, o.transactions = [.load Register.datSectionOffset (some raw),
            .load Register.dctSectionOffset none])) ∨
      ∃ raw raw', Loads o raw raw' ∧
        ((∃ e, (d.controller.adopt raw raw').checkFits = .error e ∧ o.result = .error e ∧
            o.state.controller = d.controller) ∨
          (d.controller.adopt raw raw').checkFits = .ok () ∧
            o.state.controller = d.controller.adopt raw raw' ∧
            o.result = .ok (.layouts o.state.controller.dat o.state.controller.dct)) := by
  intro o
  have ho : o = Operation.discover.run r d := rfl
  unfold Operation.run at ho
  rcases Controller.run_discover r d.controller d.io with ⟨⟨e, he⟩, ht⟩ | ⟨raw, raw', ht, hr⟩
  · simp only [he] at ho
    rw [ho]
    exact .inl ⟨⟨e, rfl⟩, rfl, ht⟩
  · refine .inr ⟨raw, raw', ?_⟩
    cases hcheck : (d.controller.adopt raw raw').checkFits with
    | error e =>
        rw [hcheck, Except.map] at hr
        simp only [hr] at ho
        rw [ho]
        exact ⟨ht, .inl ⟨e, rfl, rfl, rfl⟩⟩
    | ok u =>
        rw [hcheck, Except.map] at hr
        simp only [hr] at ho
        rw [ho]
        exact ⟨ht, .inr ⟨rfl, rfl, rfl⟩⟩

/-- A discovery that loads both words is settled by the layouts they make. -/
theorem discover_of_loads {r : Responder σ} {d : Driver σ} {raw raw' : Word}
    (ht : Loads (Operation.discover.run r d) raw raw') :
    let o := Operation.discover.run r d
    (∃ e, (d.controller.adopt raw raw').checkFits = .error e ∧ o.result = .error e ∧
        o.state.controller = d.controller) ∨
      (d.controller.adopt raw raw').checkFits = .ok () ∧
        o.state.controller = d.controller.adopt raw raw' ∧
        o.result = .ok (.layouts o.state.controller.dat o.state.controller.dct) := by
  intro o
  unfold Loads at ht
  rcases discover_cases r d with ⟨-, -, ht' | ⟨x, ht'⟩⟩ | ⟨x, x', ht', h⟩
  · rw [ht'] at ht
    cases ht
  · rw [ht'] at ht
    cases ht
  · unfold Loads at ht'
    rw [ht'] at ht
    cases ht
    exact h

theorem visits_discover (r : Responder σ) (d : Driver σ) :
    (Operation.discover.run r d).transactions.map Transaction.visit <+:
      [.load Register.datSectionOffset, .load Register.dctSectionOffset] := by
  rcases discover_cases r d with ⟨-, -, ht | ⟨raw, ht⟩⟩ | ⟨raw, raw', ht, -⟩
  · exact ⟨[.load Register.dctSectionOffset], by rw [ht]; rfl⟩
  · exact ⟨[], by rw [ht]; rfl⟩
  · exact ⟨[], by rw [ht]; rfl⟩

/-- A discovery fails at a load, or because the tables it found do not fit. -/
theorem discover_of_error {r : Responder σ} {d : Driver σ} {e : Fault}
    (h : (Operation.discover.run r d).result = .error e) :
    let o := Operation.discover.run r d
    (∃ a, Transaction.load a none ∈ o.transactions) ∨
      ∃ raw raw', Loads o raw raw' ∧ ¬ (d.controller.adopt raw raw').Fits := by
  intro o
  rcases discover_cases r d with
    ⟨-, -, ht | ⟨raw, ht⟩⟩ | ⟨raw, raw', ht, ⟨e', hc, -, -⟩ | ⟨-, -, hok⟩⟩
  · exact .inl ⟨Register.datSectionOffset, by rw [ht]; exact List.mem_singleton.mpr rfl⟩
  · exact .inl ⟨Register.dctSectionOffset, by rw [ht]; exact List.mem_of_mem_getLast? rfl⟩
  · exact .inr ⟨raw, raw', ht, (Controller.checkFits_eq_error hc).1⟩
  · rw [hok] at h
    cases h

/-- A discovery succeeds with the layouts that both words make, which fit. -/
theorem discover_of_ok {r : Responder σ} {d : Driver σ} {x : Answer}
    (h : (Operation.discover.run r d).result = .ok x) :
    let o := Operation.discover.run r d
    ∃ raw raw', Loads o raw raw' ∧ o.state.controller = d.controller.adopt raw raw' ∧
      o.state.controller.Fits ∧ x = .layouts o.state.controller.dat o.state.controller.dct := by
  intro o
  rcases discover_cases r d with ⟨⟨e, he⟩, -⟩ | ⟨raw, raw', ht, ⟨e, -, he, -⟩ | ⟨hc, hs, hok⟩⟩
  · rw [he] at h
    cases h
  · rw [he] at h
    cases h
  · rw [hok] at h
    cases h
    refine ⟨raw, raw', ht, hs, ?_, rfl⟩
    rw [← Controller.checkFits_eq_ok_iff, hs]
    exact hc

/-- Discoveries that come to the same layouts return the same, and both adopt them or neither. -/
theorem discover_congr {r : Responder σ} {q : Responder τ} {d : Driver σ} {d' : Driver τ}
    {raw raw' x x' : Word} (ht : Loads (Operation.discover.run r d) raw raw')
    (ht' : Loads (Operation.discover.run q d') x x')
    (hsame : d'.controller.adopt x x' = d.controller.adopt raw raw') :
    let o := Operation.discover.run r d
    let o' := Operation.discover.run q d'
    o'.result = o.result ∧ (o'.state.controller = o.state.controller ∨
      o'.state.controller = d'.controller ∧ o.state.controller = d.controller) := by
  intro o o'
  rcases discover_of_loads ht with ⟨e, hc, hr, hs⟩ | ⟨hc, hs, hr⟩ <;>
    rcases discover_of_loads ht' with ⟨e', hc', hr', hs'⟩ | ⟨hc', hs', hr'⟩ <;>
    rw [hsame, hc] at hc' <;> cases hc'
  · exact ⟨hr'.trans hr.symm, .inr ⟨hs', hs⟩⟩
  · have hcontroller : o'.state.controller = o.state.controller := by rw [hs', hs, hsame]
    exact ⟨by rw [hr, hr', hcontroller], .inl hcontroller⟩

/-- After a success, a discovery that finds the same words finds the same and changes nothing. -/
theorem discover_again {r : Responder σ} {q : Responder τ} {d : Driver σ} {d' : Driver τ}
    {raw raw' x x' : Word} {y : Answer} (hy : (Operation.discover.run r d).result = .ok y)
    (ht : Loads (Operation.discover.run r d) raw raw')
    (ht' : Loads (Operation.discover.run q d') x x')
    (hd : d'.controller = (Operation.discover.run r d).state.controller)
    (hx : Controller.SameSection x raw) (hx' : Controller.SameSection x' raw') :
    (Operation.discover.run q d').result = (Operation.discover.run r d).result ∧
      (Operation.discover.run q d').state.controller = d'.controller := by
  rcases discover_of_loads ht with ⟨e, -, he, -⟩ | ⟨-, hs, -⟩
  · rw [he] at hy
    cases hy
  · have hsame : d'.controller.adopt x x' = d.controller.adopt raw raw' := by
      rw [hd, Controller.adopt_congr hx hx', hs, Controller.adopt_adopt]
    obtain ⟨hr, hs' | ⟨hs', -⟩⟩ := discover_congr ht ht' hsame
    · exact ⟨hr, by rw [hs', hd]⟩
    · exact ⟨hr, hs'⟩

/-- Tables that have ends are printed without a failure. -/
theorem result_printLayouts (r : Responder σ) (s : σ) (window : Address) {ls : List TableLayout}
    (h : ∀ l ∈ ls, l.Fits window) :
    ((CommandLine.printLayouts ls).run r s).result = .ok none := by
  induction ls with
  | nil => rfl
  | cons l ls ih =>
      obtain ⟨e, he, -⟩ := h l List.mem_cons_self
      simp only [CommandLine.printLayouts, he]
      exact ih fun l' hl' => h l' (List.mem_cons_of_mem l hl')

/-- A discovery on the command line prints both tables or is stopped by a fault. -/
theorem failure_discoverProgram (r : Responder σ) (d : Driver σ)
    {p : Bus (Option CommandLine.Failure)}
    (hp : CommandLine.Command.discover.program d.controller = .ok p)
    {out : Option CommandLine.Failure} (hout : (p.run r d.io).result = .ok out) : out = none := by
  cases hp
  obtain ⟨c, hc, hout⟩ := Bus.run_bind_eq_ok hout
  have hfits : c.Fits := by
    rcases Controller.run_discover r d.controller d.io with ⟨⟨e, he⟩, -⟩ | ⟨raw, raw', -, hr⟩
    · cases he.symm.trans hc
    · cases hcheck : (d.controller.adopt raw raw').checkFits with
      | error e =>
          rw [hcheck] at hr
          cases hr.symm.trans hc
      | ok u =>
          rw [hcheck] at hr
          cases hr.symm.trans hc
          exact Controller.checkFits_eq_ok_iff.mp hcheck
  rw [result_printLayouts r _ c.window fun l hl => ?_] at hout
  · cases hout
    rfl
  · rcases List.mem_cons.mp hl with rfl | hl
    · exact hfits .dat
    · rw [List.mem_singleton.mp hl]
      exact hfits .dct

/-- The method that assigns one layout after the other does what the program says. It makes at most
two loads and no store. If it fails, at a load or because a table would not end inside the window,
the controller is as it was. If it succeeds, its layouts are those that the two words make of the
old ones, they are the ones returned, and both tables end inside the window, so that there is an end
to print. Words that agree up to bit 18 lead to the same result, and a further discovery that reads
such words again returns the same and changes nothing. -/
theorem discover_all_or_nothing (r : Responder σ) (d : Driver σ) :
    let o := Operation.discover.run r d
    Operation.discover.method.run r d = o ∧
      o.transactions.map Transaction.visit <+:
        [.load Register.datSectionOffset, .load Register.dctSectionOffset] ∧
      (∀ e, o.result = .error e → o.state.controller = d.controller ∧
        ((∃ a, Transaction.load a none ∈ o.transactions) ∨
          ∃ raw raw', Loads o raw raw' ∧ ∀ dat dct, d.controller.dat.Adopts raw dat →
            d.controller.dct.Adopts raw' dct →
            ¬ (dat.Fits d.controller.window ∧ dct.Fits d.controller.window))) ∧
      (∀ x, o.result = .ok x → ∃ raw raw', Loads o raw raw' ∧
        d.controller.dat.Adopts raw o.state.controller.dat ∧
        d.controller.dct.Adopts raw' o.state.controller.dct ∧
        o.state.controller.window = d.controller.window ∧ o.state.controller.Fits ∧
        x = .layouts o.state.controller.dat o.state.controller.dct) ∧
      (∀ p, CommandLine.Command.discover.program d.controller = .ok p →
        ∀ out, (p.run r d.io).result = .ok out → out = none) ∧
      ∀ raw raw', Loads o raw raw' → ∀ (τ : Type) (q : Responder τ) (d' : Driver τ) (x x' : Word),
        Loads (Operation.discover.run q d') x x' → Controller.SameSection x raw →
        Controller.SameSection x' raw' →
        (d'.controller = d.controller →
          (Operation.discover.run q d').result = o.result ∧
            (Operation.discover.run q d').state.controller = o.state.controller) ∧
        ((∃ y, o.result = .ok y) → d'.controller = o.state.controller →
          (Operation.discover.run q d').result = o.result ∧
            (Operation.discover.run q d').state.controller = d'.controller) := by
  intro o
  refine ⟨Operation.run_method r d _, visits_discover r d, fun e he => ?_, fun x hx => ?_,
    fun p hp out hout => failure_discoverProgram r d hp hout, ?_⟩
  · refine ⟨Operation.controller_of_error he, (discover_of_error he).imp_right ?_⟩
    rintro ⟨raw, raw', ht, hfits⟩
    refine ⟨raw, raw', ht, fun dat dct hdat hdct hboth => hfits ?_⟩
    rw [Controller.eq_advertised hdat, Controller.eq_advertised hdct] at hboth
    exact Controller.fits_iff.mpr hboth
  · obtain ⟨raw, raw', ht, hs, hfits, hx'⟩ := discover_of_ok hx
    refine ⟨raw, raw', ht, ?_, ?_, ?_, hfits, hx'⟩
    · rw [hs]
      exact Controller.advertised_adopts d.controller.dat raw
    · rw [hs]
      exact Controller.advertised_adopts d.controller.dct raw'
    · rw [hs]
      rfl
  · intro raw raw' ht τ q d' x x' ht' hx hx'
    constructor
    · intro hd
      have hsame : d'.controller.adopt x x' = d.controller.adopt raw raw' := by
        rw [hd, Controller.adopt_congr hx hx']
      obtain ⟨hr, hs | ⟨hs', hs⟩⟩ := discover_congr ht ht' hsame
      · exact ⟨hr, hs⟩
      · exact ⟨hr, by rw [hs', hs, hd]⟩
    · rintro ⟨y, hy⟩ hd
      exact discover_again hy ht ht' hd hx hx'

/-- The DAT word moves and resizes its table and asks for wide entries, the DCT word asks for
nothing. A second discovery finds the table index advanced and returns the same; had the DCT word
asked for an offset of 60, neither table would have moved. -/
theorem discover_all_or_nothing_twice :
    let window (raw' : Word) : Model :=
      ((Model.blank 64).withRegister 0x30 0xF0002008 0).withRegister 0x34 raw' 0
    let c : Controller := ⟨64, ⟨.dat, 0, 2, 1⟩, ⟨.dct, 32, 4, 1⟩⟩
    let o := Operation.discover.run Model.responder ⟨c, window 0⟩
    (Operation.discover.run Model.responder ⟨o.state.controller, window 0x80000⟩).result =
        .ok (.layouts ⟨.dat, 8, 2, 2⟩ ⟨.dct, 32, 4, 1⟩) ∧
      (Operation.discover.run Model.responder ⟨c, window 60⟩).state.controller = c := by
  intro window c o
  let o' := Operation.discover.run Model.responder ⟨o.state.controller, window 0x80000⟩
  have ht : Loads o 0xF0002008 0 := by unfold Loads; decide +kernel
  have ht' : Loads o' 0xF0002008 0x80000 := by unfold Loads; decide +kernel
  have hfound : o.state.controller = ⟨64, ⟨.dat, 8, 2, 2⟩, ⟨.dct, 32, 4, 1⟩⟩ := by decide +kernel
  obtain ⟨-, -, -, hok, -, hagain⟩ := discover_all_or_nothing Model.responder ⟨c, window 0⟩
  constructor
  · cases hr : o.result with
    | error e =>
        have hisOk : o.result.isOk = true := by decide +kernel
        rw [hr] at hisOk
        cases hisOk
    | ok x =>
        obtain ⟨-, -, -, -, -, -, -, hx⟩ := hok x hr
        have hsame : Controller.SameSection 0x80000 0 := rfl
        obtain ⟨-, hagain⟩ := hagain _ _ ht _ _ _ _ _ ht' rfl hsame
        rw [(hagain ⟨x, hr⟩ rfl).1, hr, hx, hfound]
  · cases hr : (Operation.discover.run Model.responder ⟨c, window 60⟩).result with
    | error e => exact ((discover_all_or_nothing _ _).2.2.1 e hr).1
    | ok x =>
        have hisOk :
            (Operation.discover.run Model.responder ⟨c, window 60⟩).result.isOk = false := by
          decide +kernel
        rw [hr] at hisOk
        cases hisOk

end Driver

end I3CHost
