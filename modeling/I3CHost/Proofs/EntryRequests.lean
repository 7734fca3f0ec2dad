import I3CHost.Access
import I3CHost.Proofs.TableCourses

/-!
# Requests for entries

A request for an entry of a table needs some words of it: the first few, the word of a field, or a
pair. All of them begin with checks that need no bus, and what is permitted are words of an entry. A
request that is not permitted is nothing but its fault. One that is attempts the words it needs and
no others, so if they can be reached it has a course that stays inside the entry. What no check asks
is whether the words of a pair have offsets; if they have none the request ends in a panic instead.
-/
namespace I3CHost

/-! ## What a request needs -/

/-- What a request needs of an entry. -/
inductive Need where
  /-- The first words. -/
  | words (count : Nat)
  /-- The word of a field. -/
  | field (f : Field)
  /-- Both words of a pair. -/
  | pair (pair : UInt64)
deriving DecidableEq, Repr

namespace Need

/-- The first word of the entry that is needed. -/
def first : Need → Nat
  | words _ => 0
  | field f => f.word.toNat
  | pair p => 2 * p.toNat

/-- How many words are needed. -/
def count : Need → Nat
  | words count => count
  | field _ => 1
  | pair _ => 2

/-- Whether the words that are needed have offsets. Nothing asks before a pair, and its words may be
numbered too high for that. -/
def reach : Need → Except Fault Unit
  | words _ | field _ => .ok ()
  | pair p => Table.reachPair p

theorem reach_of_le {need : Need} (h : 4 * (need.first + need.count) ≤ UInt64.size) :
    need.reach = .ok () := by
  cases need with
  | words n => rfl
  | field f => rfl
  | pair p =>
      rw [first, count] at h
      exact if_pos (by omega)

theorem count_pos {need : Need} (h : 0 < need.first + need.count) : 0 < need.count := by
  cases need with
  | words n => exact Nat.lt_of_lt_of_eq h (Nat.zero_add n)
  | field f => exact Nat.one_pos
  | pair p => exact Nat.two_pos

end Need

namespace Table

/-- The checks before anything reaches the bus. They give the start of the entry. -/
def permit (t : Table) (i : UInt64) : Need → Except Fault Address
  | .words count => do
    let start ← t.entryOffset i
    t.checkWords count
    return start
  | .field f => do
    let start ← t.entryOffset i
    t.checkField f
    return start
  | .pair pair => do
    let _ ← t.pairWord pair
    t.entryOffset i

variable {t : Table} {i pair : UInt64} {start : Address} {need : Need} {f : Field} {n w : Nat}

/-- A pair whose two words the entry has is accepted. -/
theorem pairWord_of_le (h : 2 * pair.toNat + 2 ≤ t.layout.entryWords.toNat) :
    t.pairWord pair = .ok (UInt64.ofNat (2 * pair.toNat)) := by
  have h2 : (2 : UInt64).toNat = 2 := rfl
  have hlt : ¬ t.layout.entryWords / 2 ≤ pair := by
    rw [UInt64.le_iff_toNat_le, UInt64.toNat_div, h2]
    omega
  have hfirst : pair * 2 = UInt64.ofNat (2 * pair.toNat) := by
    rw [UInt64.ofNat_mul, UInt64.ofNat_toNat, UInt64.mul_comm]
    rfl
  rw [pairWord_eq, if_neg hlt, hfirst]

/-- What is permitted are words of an entry. -/
theorem permit_eq_ok_iff : t.permit i need = .ok start ↔
    t.entryOffset i = .ok start ∧ need.first + need.count ≤ t.layout.entryWords.toNat := by
  have hcheck {x : Except Fault Address} {y : Except Fault Unit} :
      (do let a ← x; y; return a) = Except.ok start ↔ x = .ok start ∧ y = .ok () := by
    cases x <;> cases y <;> simp [Bind.bind, Except.bind, Pure.pure, Except.pure]
  cases need with
  | words count =>
      rw [permit, hcheck, checkWords_eq_ok, Need.first, Need.count, Nat.zero_add]
  | field f =>
      rw [permit, hcheck, checkField_eq_ok]
      rfl
  | pair pair =>
      have hpair : 2 * pair.toNat + 2 ≤ t.layout.entryWords.toNat ↔
          ∃ first, t.pairWord pair = .ok first := by
        constructor
        · exact fun h => ⟨_, pairWord_of_le h⟩
        · rintro ⟨first, h⟩
          exact (pairWord_eq_ok h).2.2
      rw [permit, Need.first, Need.count, hpair]
      cases t.pairWord pair <;> simp [Bind.bind, Except.bind]

/-- The word of a field of an entry has an exact sum. -/
theorem field_sum (hs : t.entryOffset i = .ok start)
    (hf : f.word.toNat < t.layout.entryWords.toNat) :
    start.toNat + 4 * f.word.toNat < UInt64.size := by
  have hword := f.word.toNat_lt
  rw [word_sum_iff hs hf, UInt64.size]
  omega

/-- What has to be before the bus is reached: the checks, and offsets for the words needed. -/
def grant (t : Table) (i : UInt64) (need : Need) : Except Fault Address := do
  let start ← t.permit i need
  need.reach
  return start

theorem grant_eq_ok_iff :
    t.grant i need = .ok start ↔ t.permit i need = .ok start ∧ need.reach = .ok () := by
  rw [grant]
  cases t.permit i need <;> cases need.reach <;>
    simp [Bind.bind, Except.bind, Pure.pure, Except.pure]

theorem grant_of_permit_error {e : Fault} (h : t.permit i need = .error e) :
    t.grant i need = .error e := by
  rw [grant, h]
  rfl

theorem grant_of_reach_error {e : Fault} (h : t.permit i need = .ok start)
    (he : need.reach = .error e) : t.grant i need = .error e := by
  rw [grant, h]
  change (do need.reach; return start) = _
  rw [he]
  rfl

@[simp] theorem grant_words (t : Table) (i : UInt64) (count : Nat) :
    t.grant i (.words count) = t.permit i (.words count) := by
  rw [grant]
  cases t.permit i (.words count) <;> rfl

@[simp] theorem grant_field (t : Table) (i : UInt64) (f : Field) :
    t.grant i (.field f) = t.permit i (.field f) := by
  rw [grant]
  cases t.permit i (.field f) <;> rfl

/-- In entries shorter than the address space every word has an offset. -/
theorem reach_of_permit (h : t.permit i need = .ok start)
    (hshort : 4 * t.layout.entryWords.toNat ≤ UInt64.size) : need.reach = .ok () := by
  have hwords := (permit_eq_ok_iff.mp h).2
  exact Need.reach_of_le (by omega)

theorem grant_of_permit (h : t.permit i need = .ok start)
    (hshort : 4 * t.layout.entryWords.toNat ≤ UInt64.size) : t.grant i need = .ok start :=
  grant_eq_ok_iff.mpr ⟨h, reach_of_permit h hshort⟩

/-- The attempts are at the `n` words from word `w` on of the entry that starts at `start`. -/
def Visits (t : Table) (start : Address) (w n : Nat) (as : List (Except Fault Visit)) : Prop :=
  ∀ x, x ∈ as.map (Except.map Visit.address) ↔
    ∃ k < n, x = t.registers.address (wordFrom start (w + k))

theorem map_address {visit : Address → Visit} (hv : ∀ a, (visit a).address = a)
    (x : Except Fault Address) : (x.map visit).map Visit.address = x := by
  cases x with
  | ok a => exact congrArg Except.ok (hv a)
  | error e => rfl

theorem visits_range (visit : Address → Visit) (hv : ∀ a, (visit a).address = a) :
    t.Visits start 0 n
      ((List.range n).map fun k => (t.registers.address (wordFrom start k)).map visit) := by
  intro x
  simp only [List.map_map, List.mem_map, List.mem_range, Function.comp_def, map_address hv,
    Nat.zero_add, eq_comm]

/-- Loads and stores of one word. -/
theorem visits_word {as : List (Except Fault Visit)} (hne : as ≠ [])
    (has : ∀ x ∈ as, x.map Visit.address = t.registers.address (wordFrom start w)) :
    t.Visits start w 1 as := by
  intro x
  rw [List.mem_map]
  constructor
  · rintro ⟨y, hy, rfl⟩
    exact ⟨0, Nat.one_pos, has y hy⟩
  · rintro ⟨k, hk, rfl⟩
    obtain rfl : k = 0 := Nat.lt_one_iff.mp hk
    obtain ⟨y, hy⟩ := List.exists_mem_of_ne_nil as hne
    exact ⟨y, hy, has y hy⟩

theorem visits_two (visit : Address → Visit) (hv : ∀ a, (visit a).address = a) :
    t.Visits start w 2 [(t.registers.address (wordFrom start w)).map visit,
      (t.registers.address (wordFrom start (w + 1))).map visit] := by
  intro x
  simp only [List.map_cons, List.map_nil, map_address hv, List.mem_cons, List.not_mem_nil, or_false]
  constructor
  · rintro (rfl | rfl)
    · exact ⟨0, Nat.two_pos, rfl⟩
    · exact ⟨1, Nat.one_lt_two, rfl⟩
  · rintro ⟨k, hk, rfl⟩
    obtain rfl | rfl : k = 0 ∨ k = 1 := by omega
    · exact .inl rfl
    · exact .inr rfl

variable {α β : Type}

/-- A program that asks for words of an entry: it begins with the checks and then, if these words
have offsets, attempts them and no others. -/
def Serves (t : Table) (i : UInt64) (need : Need) (p : Bus α) : Prop :=
  ∃ body : Address → Bus α, p = (Bus.ofExcept (t.grant i need)).bind body ∧
    ∀ start, t.grant i need = .ok start →
      ∃ as, (body start).Attempts as ∧ t.Visits start need.first need.count as

theorem Serves.map {p : Bus α} (h : t.Serves i need p) (f : α → β) :
    t.Serves i need (f <$> p) := by
  obtain ⟨body, rfl, hbody⟩ := h
  refine ⟨fun start => f <$> body start, Bus.bind_assoc _ _ _, fun start hs => ?_⟩
  obtain ⟨as, has, hvisits⟩ := hbody start hs
  exact ⟨as, has.map f, hvisits⟩

theorem Serves.eq_stop {p : Bus α} (h : t.Serves i need p) {e : Fault}
    (he : t.grant i need = .error e) : p = .stop e := by
  obtain ⟨body, rfl, -⟩ := h
  rw [he]
  rfl

theorem Serves.exists_attempts {p : Bus α} (h : t.Serves i need p)
    (hs : t.grant i need = .ok start) :
    ∃ as, p.Attempts as ∧ t.Visits start need.first need.count as := by
  obtain ⟨body, rfl, hbody⟩ := h
  rw [hs]
  exact hbody start hs

/-- The checks of words and fields are all there is before the bus. -/
theorem grant_check {x : Except Fault Unit} {body : Address → Bus α}
    (h : t.grant i need = do let start ← t.entryOffset i; x; return start) :
    ((Bus.ofExcept (t.entryOffset i)).bind fun start => (Bus.ofExcept x).bind fun _ =>
      body start) = (Bus.ofExcept (t.grant i need)).bind body := by
  rw [h]
  exact Bus.check_check

theorem serves_readEntry (t : Table) (i : UInt64) (count : Nat) :
    t.Serves i (.words count) (t.readEntry i count) :=
  ⟨fun start => t.registers.readRun start count, grant_check (t.grant_words i count), fun start _ =>
    ⟨_, Registers.attempts_readRun _ start count, visits_range .load fun _ => rfl⟩⟩

theorem serves_readWords (t : Table) (i : UInt64) (n : Nat) :
    t.Serves i (.words n) (t.readWords i n) :=
  ⟨fun start => t.registers.readVector start n, grant_check (t.grant_words i n), fun start _ =>
    ⟨_, Registers.attempts_readVector _ start n, visits_range .load fun _ => rfl⟩⟩

theorem serves_writeEntry (t : Table) (i : UInt64) (words : List Word) :
    t.Serves i (.words words.length) (t.writeEntry i words) :=
  ⟨fun start => (Bus.emit (.entryWrite t.layout.kind i words)).bind fun _ =>
      t.registers.writeRun start words, grant_check (t.grant_words i _), fun start _ =>
    ⟨_, .note (Registers.attempts_writeRun _ start words), visits_range .store fun _ => rfl⟩⟩

theorem fieldAddress_of_permit (h : t.permit i (.field f) = .ok start) :
    t.registers.fieldAddress start f = t.registers.address (wordFrom start f.word.toNat) := by
  obtain ⟨hs, hf⟩ := permit_eq_ok_iff.mp h
  rw [Registers.fieldAddress_eq (field_sum hs (Nat.lt_of_succ_le hf)), wordFrom_word]

theorem serves_readField (t : Table) (i : UInt64) (f : Field) :
    t.Serves i (.field f) (t.readField i f) := by
  refine ⟨fun start => t.registers.readField start f, grant_check (t.grant_field i f),
    fun start hs => ?_⟩
  rw [grant_field] at hs
  refine ⟨_, Registers.attempts_readField _ start f, visits_word (List.cons_ne_nil _ _) ?_⟩
  intro x hx
  rw [fieldAddress_of_permit hs, List.mem_singleton] at hx
  rw [hx, map_address fun _ => rfl]
  rfl

theorem serves_writeField (t : Table) (i : UInt64) (f : Field) (value : Word) :
    t.Serves i (.field f) (t.writeField i f value) := by
  refine ⟨fun start => t.registers.writeField start f value, grant_check (t.grant_field i f),
    fun start hs => ?_⟩
  rw [grant_field] at hs
  refine ⟨_, Registers.attempts_writeField _ start f value, visits_word (List.cons_ne_nil _ _) ?_⟩
  intro x hx
  rw [fieldAddress_of_permit hs, List.mem_pair] at hx
  rcases hx with rfl | rfl
  · exact map_address (fun _ => rfl) _
  · exact map_address (fun _ => rfl) _

/-- A program over a pair that begins with what a pair asks for. -/
theorem pair_check (t : Table) (i pair : UInt64) (body : Address → Bus α) :
    ((Bus.ofExcept (t.pairWord pair)).bind fun _ => (Bus.ofExcept (t.entryOffset i)).bind
        fun start => (Bus.ofExcept (reachPair pair)).bind fun _ => body start) =
      (Bus.ofExcept (t.grant i (.pair pair))).bind body := by
  rw [grant, permit, Need.reach]
  cases t.pairWord pair <;> cases t.entryOffset i <;> cases reachPair pair <;> rfl

theorem serves_readPair (t : Table) (i pair : UInt64) :
    t.Serves i (.pair pair) (t.readPair i pair) := by
  refine ⟨_, (t.readPair_words i pair).trans (pair_check t i pair _), fun start _ => ?_⟩
  have hhigh := Registers.attempts_read t.registers (wordFrom start (2 * pair.toNat + 1))
  exact ⟨_, (Registers.attempts_read _ _).bind fun _ => hhigh.map _, visits_two .load fun _ => rfl⟩

theorem serves_writePair (t : Table) (i pair value : UInt64) :
    t.Serves i (.pair pair) (t.writePair i pair value) := by
  refine ⟨_, (t.writePair_words i pair value).trans (pair_check t i pair _), fun start _ => ?_⟩
  exact ⟨_, (Registers.attempts_write _ _ _).bind fun _ => Registers.attempts_write _ _ _,
    visits_two .store fun _ => rfl⟩

end Table

/-! ## Requests -/

namespace Access

/-- The table and the index of a request for an entry. -/
def entry? : Access → Option (Table × UInt64)
  | entryOffset t i | readEntry t i _ | readWords t i _ | writeEntry t i _ | readEntryField t i _
  | writeEntryField t i _ _ | readEntryBits t i _ _ | writeEntryBits t i _ _ _ | readPair t i _
  | writePair t i _ _ => some (t, i)
  | readSpace c s i _ | writeSpace c s i _ _ => s.table?.map fun kind => (c.table kind, i)
  | readDatEntry c i | writeDatEntry c i _ => some (c.table .dat, i)
  | readDctEntry c i | writeDctEntry c i _ => some (c.table .dct, i)
  | _ => none

/-- How many words of the entry, from its first on, the request needs. -/
def extent : Access → Nat
  | readEntry _ _ count | readWords _ _ count => count
  | writeEntry _ _ words => words.length
  | readEntryField _ _ f | writeEntryField _ _ f _ | readSpace _ _ _ f | writeSpace _ _ _ f _ =>
      f.word.toNat + 1
  | readEntryBits .. | writeEntryBits .. => 1
  | readPair _ _ pair | writePair _ _ pair _ => 2 * pair.toNat + 2
  | readDatEntry .. | writeDatEntry .. => 2
  | readDctEntry .. | writeDctEntry .. => 4
  | _ => 0

/-- What the request needs of the entry. -/
def need : Access → Need
  | readEntry _ _ count | readWords _ _ count => .words count
  | writeEntry _ _ words => .words words.length
  | readEntryField _ _ f | writeEntryField _ _ f _ | readSpace _ _ _ f | writeSpace _ _ _ f _ =>
      .field f
  | readEntryBits _ _ low mask | writeEntryBits _ _ low mask _ => .field (.ofMask low mask)
  | readPair _ _ pair | writePair _ _ pair _ => .pair pair
  | readDatEntry .. | writeDatEntry .. => .words 2
  | readDctEntry .. | writeDctEntry .. => .words 4
  | _ => .words 0

variable {t : Table} {i : UInt64} {n : Nat} {a : Access}

theorem extent_eq (ha : a.entry? = some (t, i)) : a.extent = a.need.first + a.need.count := by
  cases a with
  | readEntry t j n => exact (Nat.zero_add n).symm
  | readWords t j n => exact (Nat.zero_add n).symm
  | writeEntry t j words => exact (Nat.zero_add words.length).symm
  | _ => rfl

/-- Every request for an entry is one for words of it. -/
theorem serves (ha : a.entry? = some (t, i)) : t.Serves i a.need a.program := by
  cases a with
  | entryOffset t' j =>
      cases ha
      have hneed : (entryOffset t i).need = .words 0 := rfl
      have hcheck : t.checkWords 0 = .ok () := Table.checkWords_eq_ok.mpr (Nat.zero_le _)
      refine ⟨fun start => .done (.number start), ?_, fun start _ =>
        ⟨_, .done _, Table.visits_range .load fun _ => rfl⟩⟩
      rw [hneed, Table.grant_words, Table.permit, hcheck, program]
      cases t.entryOffset i <;> rfl
  | readEntry t' j count =>
      cases ha
      exact (Table.serves_readEntry t i count).map _
  | readWords t' j count =>
      cases ha
      exact (Table.serves_readWords t i count).map _
  | writeEntry t' j words =>
      cases ha
      exact (Table.serves_writeEntry t i words).map _
  | readEntryField t' j f =>
      cases ha
      exact (Table.serves_readField t i f).map _
  | writeEntryField t' j f value =>
      cases ha
      exact (Table.serves_writeField t i f value).map _
  | readEntryBits t' j low mask =>
      cases ha
      exact (Table.serves_readField t i (.ofMask low mask)).map _
  | writeEntryBits t' j low mask value =>
      cases ha
      exact (Table.serves_writeField t i (.ofMask low mask) value).map _
  | readPair t' j pair =>
      cases ha
      exact (Table.serves_readPair t i pair).map _
  | writePair t' j pair value =>
      cases ha
      exact (Table.serves_writePair t i pair value).map _
  | readSpace c s j f =>
      obtain ⟨kind, hs, heq⟩ := Option.map_eq_some_iff.mp ha
      cases heq
      rw [program, Controller.readField, hs]
      exact (Table.serves_readField _ i f).map _
  | writeSpace c s j f value =>
      obtain ⟨kind, hs, heq⟩ := Option.map_eq_some_iff.mp ha
      cases heq
      rw [program, Controller.writeField, hs]
      exact (Table.serves_writeField _ i f value).map _
  | readDatEntry c j =>
      cases ha
      exact ((Table.serves_readWords _ i 2).map DatEntry.ofWords).map _
  | writeDatEntry c j e =>
      cases ha
      exact (Table.serves_writeEntry _ i e.toWords.toList).map _
  | readDctEntry c j =>
      cases ha
      exact ((Table.serves_readWords _ i 4).map DctEntry.ofWords).map _
  | writeDctEntry c j e =>
      cases ha
      exact (Table.serves_writeEntry _ i e.toWords.toList).map _
  | _ => cases ha

/-- The visits are to words of entry `i` below word `n`, and there are some if `n` is not 0. -/
def Stays (t : Table) (i : UInt64) (n : Nat) (vs : List Visit) : Prop :=
  (∀ v ∈ vs, ∃ k < n, v.address = t.wordAddress i k) ∧ (0 < n → vs ≠ [])

/-- A request for an entry whose words can be reached visits such words only. -/
theorem exists_course (ha : a.entry? = some (t, i)) (ht : t.Reaches i a.extent) :
    ∃ vs, a.program.Follows vs ∧ Stays t i a.extent vs := by
  have hextent := extent_eq ha
  have hpermit := Table.permit_eq_ok_iff.mpr ⟨ht.start, hextent ▸ ht.words⟩
  have hreach : a.need.reach = .ok () := by
    apply Need.reach_of_le
    rcases Nat.eq_zero_or_pos a.extent with hzero | hpos
    · omega
    · -- The last word has an offset.
      have hlast := ht.sum (a.extent - 1) (Nat.sub_one_lt_of_lt hpos)
      simp only [UInt64.size] at hlast ⊢
      omega
  obtain ⟨as, hattempts, hvisits⟩ :=
    (serves ha).exists_attempts (Table.grant_eq_ok_iff.mpr ⟨hpermit, hreach⟩)
  have hplace (x : Except Fault Visit) (hx : x ∈ as) :
      ∃ v, x = .ok v ∧ ∃ k < a.extent, v.address = t.wordAddress i k := by
    obtain ⟨k, hk, haddress⟩ := (hvisits _).mp (List.mem_map_of_mem hx)
    have hlt : a.need.first + k < a.extent := by omega
    rw [ht.address _ hlt] at haddress
    cases x with
    | error e => cases haddress
    | ok v => exact ⟨v, rfl, _, hlt, Except.ok.inj haddress⟩
  obtain ⟨vs, rfl, hfollows⟩ := hattempts.exists_follows fun x hx =>
    let ⟨v, hv, _⟩ := hplace x hx
    ⟨v, hv⟩
  refine ⟨vs, hfollows, fun v hv => ?_, fun hpos => ?_⟩
  · obtain ⟨u, hu, hk⟩ := hplace _ (List.mem_map_of_mem hv)
    cases hu
    exact hk
  · rintro rfl
    have hnone := (hvisits _).mpr ⟨0, Need.count_pos (hextent ▸ hpos), rfl⟩
    cases hnone

end Access

end I3CHost
