import I3CHost.Proofs.AcceptedTables
import I3CHost.Proofs.EntryRequests

/-!
# Refused requests

When a request for an entry is refused, in plain numbers. The checks mix sums that notice a wrap,
products that stay at the largest address and plain ones; together they say that the index is below
the capacity, that the end of the entry is an address, and that the entry has the words. A pair is
judged by its words first and everything else by its index first.

A refused request leaves the bus alone. Past the checks a request has no fault but a word without an
address, so every fault of the table comes from them. Over the model the rest is a matter of where
the words lie: as long as an entry is shorter than the address space, a request that needs words
succeeds exactly if the table is aligned and the last of these words ends inside the window.
-/
namespace I3CHost

/-! ## Refusals in plain numbers -/

namespace TableLayout

/-- There is an entry at the index, and its end is an address. -/
def HasEntry (l : TableLayout) (i : UInt64) : Prop :=
  i.toNat < l.capacity.toNat ∧
    (i.toNat + 1) * min (4 * l.entryWords.toNat) (UInt64.size - 1) < UInt64.size

instance (l : TableLayout) (i : UInt64) : Decidable (l.HasEntry i) :=
  inferInstanceAs (Decidable (_ ∧ _))

theorem toNat_entryBytes (l : TableLayout) :
    l.entryBytes.toNat = min (4 * l.entryWords.toNat) (UInt64.size - 1) := by
  rcases Nat.lt_or_ge (4 * l.entryWords.toNat) UInt64.size with h | h
  · rw [l.entryBytes_eq.1 h]
    omega
  · rw [l.entryBytes_eq.2 h]
    omega

end TableLayout

/-- The fault that a need is refused with. -/
def Need.refusal? (l : TableLayout) (i : UInt64) : Need → Option Fault
  | .words count =>
    if ¬ l.HasEntry i then some (.indexOutOfRange l.kind i l.capacity)
    else if l.entryWords.toNat < count then some (.entryTooLong l.kind count l.entryWords)
    else none
  | .field f =>
    if ¬ l.HasEntry i then some (.indexOutOfRange l.kind i l.capacity)
    else if l.entryWords.toNat ≤ f.word.toNat then
      some (.wordOutOfRange l.kind (UInt64.ofNat f.word.toNat) l.entryWords)
    else none
  | .pair p =>
    if l.entryWords.toNat / 2 ≤ p.toNat then
      let word := UInt64.ofNat (min (2 * p.toNat) (UInt64.size - 1))
      some (.wordOutOfRange l.kind word l.entryWords)
    else if ¬ l.HasEntry i then some (.indexOutOfRange l.kind i l.capacity)
    else none

/-- What the checks of a table find fault with. -/
def Fault.OfTable : Fault → Prop
  | .indexOutOfRange .. | .entryTooLong .. | .wordOutOfRange .. => True
  | _ => False

theorem Need.not_ofTable_of_reach {need : Need} {e : Fault} (h : need.reach = .error e) :
    ¬ e.OfTable := by
  cases need with
  | words n => cases h
  | field f => cases h
  | pair p =>
      rw [reach, Table.reachPair] at h
      split at h <;> cases h
      exact id

/-! ## The checks -/

namespace Table

variable {t : Table} {i start : UInt64} {need : Need} {w n : Nat}

theorem entryOffset_eq_ite (t : Table) (i : UInt64) : t.entryOffset i =
    if t.layout.HasEntry i then .ok (i * t.layout.entryBytes)
    else .error (.indexOutOfRange t.layout.kind i t.layout.capacity) := by
  split
  · next h =>
    rw [TableLayout.HasEntry, ← TableLayout.toNat_entryBytes] at h
    exact entryOffset_eq (UInt64.lt_iff_toNat_lt.mpr h.1) h.2
  · next h =>
    cases hs : t.entryOffset i with
    | ok start =>
        obtain ⟨hi, -, hend⟩ := entryOffset_eq_ok hs
        rw [TableLayout.toNat_entryBytes] at hend
        exact absurd ⟨UInt64.lt_iff_toNat_lt.mp hi, hend⟩ h
    | error e =>
        rw [entryOffset] at hs
        split at hs
        · exact hs.symm
        · split at hs
          · cases hs
          · exact hs.symm

theorem checkField_eq_ite (t : Table) (f : Field) : t.checkField f =
    if t.layout.entryWords.toNat ≤ f.word.toNat then
      .error (.wordOutOfRange t.layout.kind (UInt64.ofNat f.word.toNat) t.layout.entryWords)
    else .ok () := by
  have hword : UInt64.ofNat f.word.toNat = f.word.toUInt64 := by
    rw [← UInt8.toNat_toUInt64, UInt64.ofNat_toNat]
  simp only [checkField, UInt64.le_iff_toNat_le, UInt8.toNat_toUInt64, hword]

theorem mulSat_two (p : UInt64) :
    Address.mulSat p 2 = UInt64.ofNat (min (2 * p.toNat) (UInt64.size - 1)) := by
  have h2 : (2 : UInt64).toNat = 2 := rfl
  rw [Address.mulSat]
  cases hm : Address.mul? p 2 with
  | none =>
      rw [Address.mul?_eq_none, h2] at hm
      rw [Nat.min_eq_right (by omega)]
      rfl
  | some q =>
      have hq := Address.mul?_eq_some hm
      have hlt := q.toNat_lt_size
      rw [h2] at hq
      rw [Nat.min_eq_left (by omega), Option.getD_some, Nat.mul_comm, ← hq, UInt64.ofNat_toNat]

theorem pairWord_eq_ite (t : Table) (p : UInt64) : t.pairWord p =
    if t.layout.entryWords.toNat / 2 ≤ p.toNat then
      .error (.wordOutOfRange t.layout.kind
        (UInt64.ofNat (min (2 * p.toNat) (UInt64.size - 1))) t.layout.entryWords)
    else .ok (p * 2) := by
  have h2 : (2 : UInt64).toNat = 2 := rfl
  simp only [pairWord_eq, UInt64.le_iff_toNat_le, UInt64.toNat_div, h2, mulSat_two]

/-- The checks refuse what they should, with the fault of the first that fails. -/
theorem permit_eq (t : Table) (i : UInt64) (need : Need) : t.permit i need =
    match need.refusal? t.layout i with
    | some e => .error e
    | none => .ok (i * t.layout.entryBytes) := by
  cases need with
  | words count =>
      rw [permit, entryOffset_eq_ite, checkWords, Need.refusal?]
      by_cases hi : t.layout.HasEntry i <;> by_cases hn : t.layout.entryWords.toNat < count <;>
        simp only [hi, hn, if_true, if_false, not_true, not_false_eq_true] <;> rfl
  | field f =>
      rw [permit, entryOffset_eq_ite, checkField_eq_ite, Need.refusal?]
      by_cases hi : t.layout.HasEntry i <;>
        by_cases hf : t.layout.entryWords.toNat ≤ f.word.toNat <;>
        simp only [hi, hf, if_true, if_false, not_true, not_false_eq_true] <;> rfl
  | pair p =>
      rw [permit, entryOffset_eq_ite, pairWord_eq_ite, Need.refusal?]
      by_cases hi : t.layout.HasEntry i <;>
        by_cases hp : t.layout.entryWords.toNat / 2 ≤ p.toNat <;>
        simp only [hi, hp, if_true, if_false, not_true, not_false_eq_true] <;> rfl

/-! ## Past the checks -/

/-- No word of an entry is missing for a reason of the table. -/
theorem not_ofTable_of_address {v : Registers} {offset : Address} {e : Fault}
    (h : v.address offset = .error e) : ¬ e.OfTable := by
  rw [Registers.address] at h
  split at h
  · cases h
  · cases h
    exact id

theorem Visits.not_ofTable {as : List (Except Fault Visit)} (h : t.Visits start w n as)
    {e : Fault} (he : .error e ∈ as) : ¬ e.OfTable := by
  obtain ⟨k, -, hk⟩ := (h _).mp (List.mem_map_of_mem he)
  exact not_ofTable_of_address hk.symm

theorem Visits.forall_iff {as : List (Except Fault Visit)} (h : t.Visits start w n as)
    (P : Address → Prop) : (∀ x ∈ as, ∃ v, x = .ok v ∧ P v.address) ↔
      ∀ k < n, ∃ a, t.registers.address (wordFrom start (w + k)) = .ok a ∧ P a := by
  constructor
  · intro hall k hk
    obtain ⟨x, hx, haddress⟩ := List.mem_map.mp ((h _).mpr ⟨k, hk, rfl⟩)
    obtain ⟨v, rfl, hv⟩ := hall x hx
    exact ⟨v.address, haddress.symm, hv⟩
  · intro hall x hx
    obtain ⟨k, hk, haddress⟩ := (h _).mp (List.mem_map_of_mem hx)
    obtain ⟨a, ha, hP⟩ := hall k hk
    rw [ha] at haddress
    cases x with
    | error e => cases haddress
    | ok v => exact ⟨v, rfl, Except.ok.inj haddress ▸ hP⟩

/-- Words of an entry can be visited exactly if there are none of them, or the table is aligned and
the last of them ends inside the window. -/
theorem visitable_iff (hs : t.entryOffset i = .ok start)
    (hw : 4 * t.layout.entryWords.toNat < UInt64.size) (hn : w + n ≤ t.layout.entryWords.toNat)
    (limit : Address) :
    (∀ k < n, ∃ a, t.registers.address (wordFrom start (w + k)) = .ok a ∧
        checkAccess a limit = .ok ()) ↔
      n = 0 ∨ t.layout.offset.toNat % 4 = 0 ∧
        t.layout.offset.toNat + i.toNat * (4 * t.layout.entryWords.toNat) + 4 * (w + n) ≤
          limit.toNat := by
  obtain ⟨-, hstart, hend⟩ := entryOffset_eq_ok hs
  have hlimit := limit.toNat_lt_size
  have hbase : t.registers.base.toNat = t.layout.offset.toNat := rfl
  rw [t.layout.entryBytes_eq.1 hw] at hstart hend
  rw [Nat.succ_mul] at hend
  have hfour : start.toNat % 4 = 0 := by
    rw [hstart, Nat.mul_left_comm]
    exact Nat.mul_mod_right _ _
  have hword (k : Nat) (hk : k < n) :
      (wordFrom start (w + k)).toNat = start.toNat + 4 * (w + k) :=
    toNat_wordFrom (by omega)
  rw [← hstart]
  constructor
  · intro hall
    rcases Nat.eq_zero_or_pos n with hzero | hpos
    · exact .inl hzero
    · -- The last word decides.
      have hlast : n - 1 < n := Nat.sub_one_lt_of_lt hpos
      obtain ⟨a, ha, hc⟩ := hall (n - 1) hlast
      have hsum := (Registers.address_eq_ok ha).2
      rw [hword _ hlast] at hsum
      obtain ⟨haligned, hinside⟩ := (checkAccess_eq_ok_iff a limit).mp hc
      exact .inr ⟨by omega, by omega⟩
  · rintro (rfl | ⟨haligned, hinside⟩) k hk
    · cases hk
    · have hsum : t.registers.base.toNat + (wordFrom start (w + k)).toNat < UInt64.size := by
        rw [hword k hk]
        omega
      have haddress := Registers.address_eq hsum
      have ha := (Registers.address_eq_ok haddress).2
      rw [hword k hk] at ha
      exact ⟨_, haddress, (checkAccess_eq_ok_iff _ limit).mpr ⟨by omega, by omega⟩⟩

end Table

/-- A screened window has no faults of a table. -/
theorem Screened.not_answers {σ : Type} {r : Responder σ} {size : σ → Address}
    (hr : Screened r size) {e : Fault} (he : e.OfTable) : ¬ r.Answers e := by
  have hcheck (o limit : Address) (h : checkAccess o limit = .error e) : False := by
    rw [checkAccess] at h
    split at h
    · cases h
      exact he
    · split at h
      · split at h
        · cases h
        · cases h
          exact he
      · cases h
        exact he
  rintro (⟨o, s, h⟩ | ⟨o, v, s, h⟩)
  · rcases hr.load_cases o s with ⟨w, hl, -⟩ | ⟨e', hl, hc⟩
    · cases hl.symm.trans h
    · cases hl.symm.trans h
      exact hcheck _ _ hc
  · exact hcheck _ _ ((hr.store o v s).symm.trans h)

/-! ## Requests for entries -/

/-- A request is refused exactly as its need is: with the same fault and without an access, and
nothing else is reported in these words unless the window itself does so, which no screened window
does. Past the checks, in a table whose entries are shorter than the address space, a request over
the model succeeds exactly if it needs no word, or its words start at multiples of four and end
inside the window. -/
theorem requests_refused {a : Access} {t : Table} {i : UInt64} (ha : a.entry? = some (t, i)) :
    (∀ {σ : Type} (r : Responder σ) (s : σ) (e : Fault),
        a.need.refusal? t.layout i = some e → a.program.run r s = ⟨.error e, s, [], []⟩) ∧
      (∀ {σ : Type} (r : Responder σ) (s : σ) (e : Fault), e.OfTable → ¬ r.Answers e →
        ((a.program.run r s).result = .error e ↔ a.need.refusal? t.layout i = some e)) ∧
      (a.need.refusal? t.layout i = none → 4 * t.layout.entryWords.toNat < UInt64.size →
        ∀ m : Model, (∃ x, (a.program.run Model.responder m).result = .ok x) ↔
          a.need.count = 0 ∨ t.layout.offset.toNat % 4 = 0 ∧
            t.layout.offset.toNat + i.toNat * (4 * t.layout.entryWords.toNat) +
              4 * (a.need.first + a.need.count) ≤ m.size.toNat) := by
  have hserves := Access.serves ha
  have hpermit := t.permit_eq i a.need
  have hrefused {σ : Type} (r : Responder σ) (s : σ) (e : Fault)
      (he : a.need.refusal? t.layout i = some e) :
      a.program.run r s = ⟨.error e, s, [], []⟩ := by
    rw [he] at hpermit
    rw [hserves.eq_stop (Table.grant_of_permit_error hpermit)]
    rfl
  refine ⟨hrefused, fun r s e htable hanswers => ⟨fun h => ?_, fun h => ?_⟩, fun hnone hw m => ?_⟩
  · cases hrefusal : a.need.refusal? t.layout i with
    | some e' =>
        rw [hrefused r s e' hrefusal] at h
        cases h
        rfl
    | none =>
        rw [hrefusal] at hpermit
        cases hreach : a.need.reach with
        | error e' =>
            -- Words without an offset are no matter of the table's checks.
            rw [hserves.eq_stop (Table.grant_of_reach_error hpermit hreach)] at h
            cases h
            exact absurd htable (Need.not_ofTable_of_reach hreach)
        | ok u =>
        obtain ⟨as, hattempts, hvisits⟩ :=
          hserves.exists_attempts (Table.grant_eq_ok_iff.mpr ⟨hpermit, hreach⟩)
        rcases hattempts.cases_of_run_eq_error h with hmem | hanswered
        · exact absurd htable (hvisits.not_ofTable hmem)
        · exact absurd hanswered hanswers
  · rw [hrefused r s e h]
  · rw [hnone] at hpermit
    obtain ⟨as, hattempts, hvisits⟩ :=
      hserves.exists_attempts (Table.grant_of_permit hpermit (Nat.le_of_lt hw))
    obtain ⟨hstart, hwords⟩ := Table.permit_eq_ok_iff.mp hpermit
    rw [Model.screened.run_eq_ok_iff hattempts m,
      hvisits.forall_iff fun a => checkAccess a m.size = .ok ()]
    exact Table.visitable_iff hstart hw hwords m.size

/-- Two entries of three words from offset 8 on end at byte 32. -/
theorem requests_refused_odd_entries :
    let t : Table := ⟨⟨.dat, 8, 3, 2⟩, 32⟩
    let run := fun (a : Access) (size : Address) => a.program.run Model.responder (.blank size)
    Access.entry? (.readPair t 5 1) = some (t, 5) ∧
      run (.readPair t 5 1) 32 = ⟨.error (.wordOutOfRange .dat 2 3), .blank 32, [], []⟩ ∧
      run (.readPair t 5 0) 32 = ⟨.error (.indexOutOfRange .dat 5 2), .blank 32, [], []⟩ ∧
      run (.readEntry t 1 4) 32 = ⟨.error (.entryTooLong .dat 4 3), .blank 32, [], []⟩ ∧
      (∃ x, (run (.readEntry t 1 3) 32).result = .ok x) ∧
      (∃ x, (run (.readEntry t 1 2) 28).result = .ok x) ∧
      (¬ ∃ x, (run (.readEntry t 1 3) 28).result = .ok x) ∧
      ∀ e : Fault, e.OfTable → (run (.readEntry t 1 3) 28).result ≠ .error e := by
  intro t run
  have hpast := requests_refused (a := .readEntry t 1 3) (i := 1) rfl
  have hshort := requests_refused (a := .readEntry t 1 2) (i := 1) rfl
  have hlong := requests_refused (a := .readEntry t 1 4) (i := 1) rfl
  have hpair := requests_refused (a := .readPair t 5 1) (i := 5) rfl
  have hindex := requests_refused (a := .readPair t 5 0) (i := 5) rfl
  refine ⟨rfl, hpair.1 _ _ _ (by decide), hindex.1 _ _ _ (by decide), hlong.1 _ _ _ (by decide),
    ?_, ?_, ?_, fun e he h => ?_⟩
  · exact (hpast.2.2 (by decide) (by decide) _).mpr (by decide)
  · exact (hshort.2.2 (by decide) (by decide) _).mpr (by decide)
  · exact fun h => absurd ((hpast.2.2 (by decide) (by decide) _).mp h) (by decide)
  · have hnone : Need.refusal? t.layout 1 (.words 3) = none := by decide
    have hsome := (hpast.2.1 _ _ e he (Model.screened.not_answers he)).mp h
    cases hnone.symm.trans hsome

end I3CHost
