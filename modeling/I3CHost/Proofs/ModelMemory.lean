import I3CHost.Model
import I3CHost.Proofs.Bits
import I3CHost.Proofs.Programs
import I3CHost.Proofs.Reach

/-!
# The memory of the software model

What one access does to a model, in one lemma for each observable part. An access is accepted by
the offset and the size of the window alone, and the size never changes. So an accepted access
always finds its cell, a refused one leaves the whole model as it is, and an accepted store moves
one cell and one counter.

A read-modify-write is one such step: `update` is its effect on the model, and two updates of
different words, or of disjoint bits of one word, can be exchanged.
-/
namespace I3CHost

attribute [ext] Model

namespace Model

variable {m m' : Model} {o a : Address}

/-- The word at a position of the window; past its end there are only zeros. -/
def wordAt (m : Model) (i : Nat) : Word := (m.cells[i]?.map Cell.value).getD 0

/-- The bits that software may write in a word. -/
def maskAt (m : Model) (i : Nat) : Word := (m.cells[i]?.map Cell.writable).getD 0

/-- The window takes an access at `o`. -/
def Accepts (m : Model) (o : Address) : Prop :=
  o.toNat % 4 = 0 ∧ o.toNat + 4 ≤ m.size.toNat

instance (m : Model) (o : Address) : Decidable (m.Accepts o) :=
  inferInstanceAs (Decidable (_ ∧ _))

theorem accepts_iff : m.Accepts o ↔ checkAccess o m.size = .ok () :=
  (checkAccess_eq_ok_iff o m.size).symm

theorem index_eq (o : Address) : index o = o.toNat / 4 := by
  rw [index, UInt64.toNat_div]
  rfl

theorem Accepts.four_mul_index (h : m.Accepts o) : 4 * index o = o.toNat := by
  rw [index_eq]
  have := h.1
  omega

/-- An accepted access finds its cell. The size is the number of cells modulo the address space,
but a window that long has a cell for every address. -/
theorem Accepts.index_lt (h : m.Accepts o) : index o < m.cells.size := by
  have hsize : m.size.toNat = 4 * m.cells.size % UInt64.size := UInt64.toNat_ofNat' ..
  have ho := o.toNat_lt_size
  have hend := h.2
  rw [index_eq]
  rw [hsize] at hend
  simp only [UInt64.size] at hend ho
  omega

theorem size_congr (h : m.cells.size = m'.cells.size) : m.size = m'.size := by
  rw [size, size, h]

theorem accepts_congr (h : m.cells.size = m'.cells.size) : m.Accepts o ↔ m'.Accepts o := by
  rw [Accepts, Accepts, size_congr h]

/-! ## One access -/

@[simp] theorem responder_load (m : Model) (o : Address) : responder.load o m = m.load o := rfl

@[simp] theorem responder_store (m : Model) (o : Address) (v : Word) :
    responder.store o v m = m.store o v := rfl

theorem load_of_accepts (h : m.Accepts o) :
    m.load o = ⟨.ok (m.wordAt (index o)), { m with reads := m.reads + 1 },
      [.wordRead o (m.wordAt (index o))]⟩ := by
  have hc := Array.getElem?_eq_getElem h.index_lt
  simp only [load, accepts_iff.mp h, wordAt, hc, Option.map_some, Option.getD_some]

theorem load_of_not_accepts (h : ¬ m.Accepts o) :
    ∃ e, checkAccess o m.size = .error e ∧ m.load o = ⟨.error e, m, []⟩ := by
  cases hc : checkAccess o m.size with
  | ok u => exact (h (accepts_iff.mpr hc)).elim
  | error e => exact ⟨e, rfl, by simp only [load, hc]⟩

theorem store_of_accepts (h : m.Accepts o) (v : Word) :
    (m.store o v).result = .ok () ∧
      (m.store o v).state = ⟨m.cells.modify (index o) (Cell.store · v), m.reads, m.writes + 1⟩ := by
  have hc := Array.getElem?_eq_getElem h.index_lt
  simp only [store, accepts_iff.mp h, hc, true_and, mk.injEq, and_true]
  apply Array.ext_getElem?
  intro k
  rw [Array.getElem?_setIfInBounds, Array.getElem?_modify]
  split
  · next hk => rw [← hk, if_pos h.index_lt, hc, Option.map_some]
  · rfl

theorem store_of_not_accepts (h : ¬ m.Accepts o) (v : Word) :
    ∃ e, checkAccess o m.size = .error e ∧ m.store o v = ⟨.error e, m, []⟩ := by
  cases hc : checkAccess o m.size with
  | ok u => exact (h (accepts_iff.mpr hc)).elim
  | error e => exact ⟨e, rfl, by simp only [store, hc]⟩

theorem cells_load (m : Model) (o : Address) : (m.load o).state.cells = m.cells := by
  by_cases h : m.Accepts o
  · rw [load_of_accepts h]
  · obtain ⟨e, -, he⟩ := load_of_not_accepts h
    rw [he]

/-- A store moves the cell it is aimed at, if it is accepted, and no other. -/
theorem cells_store (m : Model) (o : Address) (v : Word) (k : Nat) :
    (m.store o v).state.cells[k]? =
      if m.Accepts o ∧ k = index o then m.cells[k]?.map (Cell.store · v) else m.cells[k]? := by
  by_cases h : m.Accepts o
  · rw [(store_of_accepts h v).2, Array.getElem?_modify]
    simp only [h, true_and, eq_comm]
  · obtain ⟨e, -, he⟩ := store_of_not_accepts h v
    rw [he, if_neg fun hk => h hk.1]

theorem size_cells_store (m : Model) (o : Address) (v : Word) :
    (m.store o v).state.cells.size = m.cells.size := by
  by_cases h : m.Accepts o
  · rw [(store_of_accepts h v).2, Array.size_modify]
  · obtain ⟨e, -, he⟩ := store_of_not_accepts h v
    rw [he]

theorem maskAt_store (m : Model) (o : Address) (v : Word) (k : Nat) :
    (m.store o v).state.maskAt k = m.maskAt k := by
  rw [maskAt, maskAt, cells_store]
  split
  · cases m.cells[k]? <;> rfl
  · rfl

/-- An accepted store lets the writable bits of its word in. -/
theorem wordAt_store (m : Model) (o : Address) (v : Word) (k : Nat) :
    (m.store o v).state.wordAt k =
      if m.Accepts o ∧ k = index o then (m.wordAt k).merge v (m.maskAt k) else m.wordAt k := by
  rw [wordAt, cells_store]
  split
  · next h =>
    have hlt : k < m.cells.size := h.2 ▸ h.1.index_lt
    rw [wordAt, maskAt, Array.getElem?_eq_getElem hlt]
    rfl
  · rfl

/-! ## Read-modify-write -/

end Model

/-- The cell after a field of its word was loaded, replaced and stored. -/
def Cell.update (c : Cell) (f : Field) (value : Word) : Cell := c.store (f.set c.value value)

/-- Where each bit of an updated cell comes from. -/
theorem Cell.bit_update (c : Cell) (f : Field) (value : Word) (b : Nat) :
    (c.update f value).value.bit b =
      if c.writable.bit b ∧ f.mask.bit b then (value.toNat <<< (f.low.toNat % 32)).testBit b
      else c.value.bit b := by
  rw [Cell.update, Cell.store, Word.bit_merge, Field.bit_set]
  cases c.writable.bit b <;> simp

theorem Cell.update_comm (c : Cell) {f g : Field} (h : f.mask &&& g.mask = 0) (x y : Word) :
    (c.update f x).update g y = (c.update g y).update f x := by
  have hvalue : ((c.update f x).update g y).value = ((c.update g y).update f x).value := by
    apply Word.ext_bit
    intro b
    have hb : (f.mask.bit b && g.mask.bit b) = false := by
      rw [← Word.bit_and, h, Word.bit_zero]
    have hw : (c.update f x).writable = c.writable := rfl
    have hw' : (c.update g y).writable = c.writable := rfl
    simp only [Cell.bit_update, hw, hw']
    cases hf : f.mask.bit b <;> cases hg : g.mask.bit b <;> simp_all
  calc (c.update f x).update g y
      = { c with value := ((c.update f x).update g y).value } := rfl
    _ = { c with value := ((c.update g y).update f x).value } := by rw [hvalue]
    _ = (c.update g y).update f x := rfl

/-- The program that loads the word at `a`, replaces a field and stores it back. -/
def Bus.update (a : Address) (f : Field) (value : Word) : Bus Unit :=
  .load a fun old => .note (.fieldUpdate a old (f.set old value))
    (.store a (f.set old value) (.done ()))

theorem Registers.writeField_eq (v : Registers) (offset : Address) (f : Field) (value : Word) :
    v.writeField offset f value =
      (Bus.ofExcept (v.fieldAddress offset f)).bind fun a => Bus.update a f value := rfl

namespace Model

variable {m : Model} {a a' : Address} {f f' : Field} {x x' : Word}

/-- A model after a read-modify-write. -/
def update (m : Model) (a : Address) (f : Field) (value : Word) : Model :=
  if m.Accepts a then
    ⟨m.cells.modify (index a) (Cell.update · f value), m.reads + 1, m.writes + 1⟩
  else m

theorem run_update_of_accepts (h : m.Accepts a) (f : Field) (value : Word) :
    ((Bus.update a f value).run responder m).result = .ok () ∧
      ((Bus.update a f value).run responder m).state = m.update a f value := by
  have hnext : ({ m with reads := m.reads + 1 } : Model).Accepts a := h
  have hs := store_of_accepts hnext (f.set (m.wordAt (index a)) value)
  simp only [Bus.update, Bus.run, responder_load, responder_store, load_of_accepts h, hs.1,
    Outcome.after, hs.2, update, if_pos h, true_and, mk.injEq, and_true]
  apply Array.ext_getElem?
  intro k
  rw [Array.getElem?_modify, Array.getElem?_modify]
  split
  · next hk =>
    subst hk
    cases hc : m.cells[index a]? with
    | none => rfl
    | some c => simp only [Option.map_some, wordAt, hc, Option.getD_some, Cell.update]
  · rfl

theorem run_update_of_not_accepts (h : ¬ m.Accepts a) (f : Field) (value : Word) :
    ∃ e, ((Bus.update a f value).run responder m).result = .error e ∧
      ((Bus.update a f value).run responder m).state = m := by
  obtain ⟨e, -, he⟩ := load_of_not_accepts h
  refine ⟨e, ?_, ?_⟩
  · simp only [Bus.update, Bus.run, responder_load, he]
  · simp only [Bus.update, Bus.run, responder_load, he]

theorem state_run_update (m : Model) (a : Address) (f : Field) (value : Word) :
    ((Bus.update a f value).run responder m).state = m.update a f value := by
  by_cases h : m.Accepts a
  · exact (run_update_of_accepts h f value).2
  · obtain ⟨e, -, hs⟩ := run_update_of_not_accepts h f value
    rw [hs, update, if_neg h]

theorem size_cells_update (m : Model) (a : Address) (f : Field) (x : Word) :
    (m.update a f x).cells.size = m.cells.size := by
  rw [update]
  split
  · exact Array.size_modify
  · rfl

theorem accepts_update : (m.update a f x).Accepts a' ↔ m.Accepts a' :=
  accepts_congr (size_cells_update m a f x)

/-- An accepted update moves its own cell. -/
theorem cells_update (m : Model) (a : Address) (f : Field) (x : Word) (k : Nat) :
    (m.update a f x).cells[k]? =
      if m.Accepts a ∧ k = index a then m.cells[k]?.map (Cell.update · f x) else m.cells[k]? := by
  rw [update]
  by_cases h : m.Accepts a
  · rw [if_pos h, Array.getElem?_modify]
    simp only [h, true_and, eq_comm]
  · rw [if_neg h, if_neg fun hk => h hk.1]

theorem reads_update (m : Model) (a : Address) (f : Field) (x : Word) :
    (m.update a f x).reads = if m.Accepts a then m.reads + 1 else m.reads := by
  rw [update]
  split <;> rfl

theorem writes_update (m : Model) (a : Address) (f : Field) (x : Word) :
    (m.update a f x).writes = if m.Accepts a then m.writes + 1 else m.writes := by
  rw [update]
  split <;> rfl

theorem maskAt_update (m : Model) (a : Address) (f : Field) (x : Word) (k : Nat) :
    (m.update a f x).maskAt k = m.maskAt k := by
  rw [maskAt, maskAt, cells_update]
  split
  · cases m.cells[k]? <;> rfl
  · rfl

/-- Where each bit of the memory comes from after an update. -/
theorem bit_update (m : Model) (a : Address) (f : Field) (x : Word) (k b : Nat) :
    ((m.update a f x).wordAt k).bit b =
      if (m.Accepts a ∧ k = index a) ∧ (m.maskAt k).bit b ∧ f.mask.bit b then
        (x.toNat <<< (f.low.toNat % 32)).testBit b
      else (m.wordAt k).bit b := by
  rw [wordAt, wordAt, maskAt, cells_update]
  by_cases h : m.Accepts a ∧ k = index a
  · cases hc : m.cells[k]? with
    | none => simp
    | some c => simp [h, Cell.bit_update]
  · simp only [h, if_false, false_and]

/-- Updates of different words, or of disjoint bits, can be exchanged. -/
theorem update_comm (h : a ≠ a' ∨ f.mask &&& f'.mask = 0) :
    (m.update a f x).update a' f' x' = (m.update a' f' x').update a f x := by
  apply Model.ext
  · apply Array.ext_getElem?
    intro k
    simp only [cells_update, accepts_update]
    by_cases hk : m.Accepts a ∧ k = index a <;> by_cases hk' : m.Accepts a' ∧ k = index a'
    · -- Both reach this cell, so they have one address and their bits are apart.
      have hsame : a = a' := by
        apply UInt64.toNat_inj.mp
        rw [← hk.1.four_mul_index, ← hk'.1.four_mul_index, ← hk.2, ← hk'.2]
      have hmask := h.resolve_left fun hne => hne hsame
      simp only [if_pos hk, if_pos hk', Option.map_map, Function.comp_def,
        Cell.update_comm _ hmask]
    · simp only [if_pos hk, if_neg hk']
    · simp only [if_neg hk, if_pos hk']
    · simp only [if_neg hk, if_neg hk']
  · simp only [reads_update, accepts_update]
    split <;> split <;> rfl
  · simp only [writes_update, accepts_update]
    split <;> split <;> rfl

end Model

end I3CHost
