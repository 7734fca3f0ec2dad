import I3CHost.RegisterFile
import I3CHost.Proofs.ReadOnlyBits

/-!
# Register files and models

A model holds one record a word; a register file holds three arrays and looks every word up in
each. The arrays of a model are a register file, and every operation of the file does to them what
the model's does to the model, with the same replies and no panic, as long as they are no longer
than an array can be. Each operation is followed once; programs are followed access by access, and
runs action by action.

So what a model never forgets holds of the three arrays: they keep the one length that the size of
the window gave them, and no position is ever looked up past the end of one.
-/
namespace I3CHost

namespace Model

variable {m : Model}

/-- The words, reset values and masks of a model, each in its array. -/
def file (m : Model) : RegisterFile := ⟨m.values, m.resets, m.masks, m.reads, m.writes⟩

/-- An array can have a word for each cell. -/
def Fits (m : Model) : Prop := 4 * m.cells.size < arrayLimit

theorem Fits.congr {n : Model} (h : m.Fits) (hsize : n.cells.size = m.cells.size) : n.Fits := by
  rw [Fits, hsize]
  exact h

@[simp] theorem size_values (m : Model) : m.values.size = m.cells.size := Array.size_map

@[simp] theorem size_resets (m : Model) : m.resets.size = m.cells.size := Array.size_map

@[simp] theorem size_masks (m : Model) : m.masks.size = m.cells.size := Array.size_map

end Model

namespace RegisterFile

open Model (index Action)

variable {m : Model} {o : Address} {i : Nat} {xs : Array Word} {α : Type}

/-! ## Arrays -/

theorem fetch_of_lt (h : i < xs.size) : fetch xs i = .ok xs[i] := by
  simp only [fetch, Array.getElem?_eq_getElem h]

theorem put_of_lt (h : i < xs.size) (w : Word) : put xs i w = .ok (xs.setIfInBounds i w) := by
  simp only [put, if_pos h]

theorem copy_of_size {ys : Array Word} (h : xs.size = ys.size) : copy xs ys = .ok xs := by
  simp only [copy, if_pos h]

theorem map_setIfInBounds_same {β : Type} (xs : Array α) (f : α → β) (h : i < xs.size) :
    (xs.map f).setIfInBounds i (f xs[i]) = xs.map f := by
  rw [← Array.map_setIfInBounds, Array.setIfInBounds_def, dif_pos h, Array.set_getElem_self]

theorem map_modify_same {β : Type} {f : α → α} (g : α → β) (xs : Array α) (k : Nat)
    (h : ∀ x, g (f x) = g x) : (xs.modify k f).map g = xs.map g := by
  apply Array.ext_getElem?
  intro j
  simp only [Array.getElem?_map, Array.getElem?_modify]
  split <;> cases xs[j]? <;> simp [h]

theorem map_modify_eq_set {β : Type} {f : α → α} (g : α → β) {y : β} (xs : Array α) (k : Nat)
    (h : ∀ x, g (f x) = y) : (xs.modify k f).map g = (xs.map g).setIfInBounds k y := by
  apply Array.ext_getElem?
  intro j
  simp only [Array.getElem?_setIfInBounds, Array.getElem?_map, Array.getElem?_modify,
    Array.size_map]
  by_cases hk : k = j
  · subst hk
    by_cases hlt : k < xs.size <;> simp [hlt, h]
  · simp only [if_neg hk]

/-! ## New files -/

theorem filled_of_room {size : Address} (h : size.toNat < Model.arrayLimit) (w : Word) :
    filled (index size) w = .ok (Array.replicate (size.toNat / 4) w) := by
  have hcount : 4 * index size < Model.arrayLimit := by
    rw [Model.index_eq]
    omega
  rw [filled, if_pos hcount, Model.index_eq]

theorem filled_of_le {size : Address} (h : Model.arrayLimit ≤ size.toNat) (w : Word) :
    filled (index size) w = .error .capacityOverflow := by
  have hcount : ¬ 4 * index size < Model.arrayLimit := by
    rw [Model.index_eq]
    simp only [Model.arrayLimit] at h ⊢
    omega
  rw [filled, if_neg hcount]

theorem new_of_room {size : Address} (h : size.toNat < Model.arrayLimit) :
    new size = .ok (Model.blank size).file := by
  simp only [new, filled_of_room h]
  simp [bind, Except.bind, pure, Except.pure, Model.file, Model.blank, Model.values, Model.resets,
    Model.masks, Model.index_eq]

theorem new_of_le {size : Address} (h : Model.arrayLimit ≤ size.toNat) :
    new size = .error .capacityOverflow := by
  simp only [new, filled_of_le h]
  rfl

/-! ## Behind the bus -/

theorem withRegister_file (m : Model) (o : Address) (reset writable : Word) :
    m.file.withRegister o reset writable = .ok (m.withRegister o reset writable).file := by
  simp only [withRegister, Model.file, Model.size_values]
  split
  · next h =>
    rw [put_of_lt (by simpa using h), put_of_lt (by simpa using h), put_of_lt (by simpa using h)]
    simp [bind, Except.bind, pure, Except.pure, Model.withRegister, Model.values, Model.resets,
      Model.masks, Array.map_setIfInBounds]
  · next h =>
    have hcells (c : Cell) : m.cells.setIfInBounds (index o) c = m.cells :=
      Array.setIfInBounds_eq_of_size_le (Nat.le_of_not_lt h)
    simp only [Model.withRegister, hcells]

theorem withRegisters_file (m : Model) (rs : List (Address × Word × Word)) :
    m.file.withRegisters rs = .ok (m.withRegisters rs).file := by
  induction rs generalizing m with
  | nil => rfl
  | cons r rs ih =>
      rw [withRegisters, List.foldlM_cons, withRegister_file]
      exact ih (m.withRegister r.1 r.2.1 r.2.2)

theorem reset_file (m : Model) : m.file.reset = .ok m.reset.file := by
  rw [reset, Model.file, copy_of_size (by simp)]
  simp [bind, Except.bind, pure, Except.pure, Model.file, Model.reset, Model.values, Model.resets,
    Model.masks, Function.comp_def, Cell.restore]

theorem poke_file (m : Model) (o : Address) (v : Word) : m.file.poke o v = (m.poke o v).file := by
  have hvalue (c : Cell) : ({ c with value := v } : Cell).value = v := rfl
  have hreset (c : Cell) : ({ c with value := v } : Cell).reset = c.reset := rfl
  have hwritable (c : Cell) : ({ c with value := v } : Cell).writable = c.writable := rfl
  simp only [poke, Model.file, Model.poke, Model.values, Model.resets, Model.masks,
    map_modify_eq_set Cell.value m.cells (index o) hvalue,
    map_modify_same Cell.reset m.cells (index o) hreset,
    map_modify_same Cell.writable m.cells (index o) hwritable]

/-! ## One access -/

theorem size_file (h : m.Fits) : m.file.size = .ok m.size := by
  have hlt : 4 * m.cells.size < UInt64.size := Nat.lt_trans h (by decide)
  have hcount : (UInt64.ofNat m.cells.size).toNat = m.cells.size :=
    UInt64.toNat_ofNat_of_lt' (by omega)
  have hsum : (UInt64.ofNat m.cells.size).toNat * Address.wordBytes.toNat < UInt64.size := by
    rw [hcount]
    change m.cells.size * 4 < UInt64.size
    omega
  simp only [size, Model.file, Model.size_values, Address.mul?, if_pos hsum]
  rw [Model.size, Nat.mul_comm, UInt64.ofNat_mul]
  rfl

theorem fetch_words (h : m.Accepts o) : fetch m.values (index o) = .ok (m.wordAt (index o)) := by
  rw [fetch_of_lt (by simpa using h.index_lt)]
  simp [Model.wordAt, Model.values, Array.getElem?_eq_getElem h.index_lt]

theorem load_file (h : m.Fits) (o : Address) :
    m.file.load o = .ok ⟨(m.load o).result, (m.load o).state.file, (m.load o).events⟩ := by
  simp only [load, size_file h, bind, Except.bind]
  by_cases ho : m.Accepts o
  · simp only [Model.accepts_iff.mp ho, Model.load_of_accepts ho]
    change (fetch m.values (index o)).bind _ = _
    rw [fetch_words ho]
    rfl
  · obtain ⟨e, hc, he⟩ := Model.load_of_not_accepts ho
    rw [he]
    simp only [hc]
    rfl

theorem store_file (h : m.Fits) (o : Address) (v : Word) :
    m.file.store o v =
      .ok ⟨(m.store o v).result, (m.store o v).state.file, (m.store o v).events⟩ := by
  simp only [store, size_file h, bind, Except.bind]
  by_cases ho : m.Accepts o
  · have hlt := ho.index_lt
    have hc := Array.getElem?_eq_getElem hlt
    have hwords : index o < m.values.size := by simpa using hlt
    have hmasks : index o < m.masks.size := by simpa using hlt
    simp only [Model.accepts_iff.mp ho, Model.file, fetch_of_lt hmasks, fetch_of_lt hwords,
      put_of_lt hwords, Model.store, hc]
    rw [fetch_of_lt (by simpa using hlt)]
    simp [pure, Except.pure, Model.values, Model.resets, Model.masks, Array.map_setIfInBounds,
      Cell.store, map_setIfInBounds_same]
  · obtain ⟨e, hc, he⟩ := Model.store_of_not_accepts ho v
    rw [he]
    simp only [hc]
    rfl

/-! ## Programs -/

/-- A program meets the same answers from the arrays as from the model, and no panic. -/
theorem run_file (h : m.Fits) (p : Bus α) :
    p.run responder (.ok m.file) =
      ⟨(p.run Model.responder m).result, .ok (p.run Model.responder m).state.file,
        (p.run Model.responder m).transactions, (p.run Model.responder m).events⟩ := by
  induction p generalizing m with
  | done a => rfl
  | stop e => rfl
  | load o next ih =>
      have hreply : responder.load o (.ok m.file) = answer (m.file.load o) := rfl
      have hnext := h.congr (congrArg Array.size (Model.cells_load m o))
      simp only [Bus.run, hreply, load_file h, answer, Model.responder_load]
      cases (m.load o).result with
      | ok w =>
          simp only [ih w hnext]
          rfl
      | error e => rfl
  | store o v next ih =>
      have hreply : responder.store o v (.ok m.file) = answer (m.file.store o v) := rfl
      have hnext := h.congr (Model.size_cells_store m o v)
      simp only [Bus.run, hreply, store_file h, answer, Model.responder_store]
      cases (m.store o v).result with
      | ok u =>
          simp only [ih hnext]
          rfl
      | error e => rfl
  | note e next ih => simp only [Bus.run, ih h]

/-! ## Actions -/

/-- One thing done to a file, which a panic ends. -/
def act (f : RegisterFile) : Action → Except Panic RegisterFile
  | .access a => (a.program.run responder (.ok f)).state
  | .discover c => (c.discover.run responder (.ok f)).state
  | .peek _ => .ok f
  | .poke offset value => .ok (f.poke offset value)
  | .withRegister offset reset writable => f.withRegister offset reset writable
  | .reset => f.reset
  | .resetStats => .ok f.resetStats

def acts (f : RegisterFile) (as : List Action) : Except Panic RegisterFile := as.foldlM act f

theorem act_file (h : m.Fits) (a : Action) : m.file.act a = .ok (m.act a).file := by
  cases a with
  | access a => simp only [act, Model.act, run_file h]
  | discover c => simp only [act, Model.act, run_file h]
  | peek offset => rfl
  | poke offset value => rw [act, poke_file, Model.act]
  | withRegister offset reset writable => exact withRegister_file m offset reset writable
  | reset => exact reset_file m
  | resetStats => rfl

theorem acts_file (h : m.Fits) (as : List Action) : m.file.acts as = .ok (m.acts as).file := by
  induction as generalizing m with
  | nil => rfl
  | cons a as ih =>
      rw [acts, List.foldlM_cons, act_file h]
      exact ih (h.congr (Model.size_cells_act m a))

/-! ## What the arrays keep -/

/-- Each array has `n` words. -/
def Lengths (f : RegisterFile) (n : Nat) : Prop :=
  f.words.size = n ∧ f.resets.size = n ∧ f.masks.size = n

theorem lengths_file (m : Model) : m.file.Lengths m.cells.size := by
  simp [Lengths, Model.file]

/-- Three arrays of one length are those of a model. -/
theorem Lengths.exists_model {f : RegisterFile} {n : Nat} (h : f.Lengths n) :
    ∃ m : Model, m.cells.size = n ∧ m.file = f := by
  obtain ⟨hwords, hresets, hmasks⟩ := h
  let cell (k : Fin n) : Cell := ⟨f.words.getD k 0, f.resets.getD k 0, f.masks.getD k 0⟩
  refine ⟨⟨Array.ofFn cell, f.reads, f.writes⟩, Array.size_ofFn, ?_⟩
  simp only [Model.file, Model.values, Model.resets, Model.masks]
  congr 1 <;> apply Array.ext <;> simp +contextual [cell, hwords, hresets, hmasks]

/-- No action panics on arrays of one length, and none changes it. -/
theorem act_lengths {f : RegisterFile} {n : Nat} (h : f.Lengths n) (hn : 4 * n < Model.arrayLimit)
    (a : Action) : ∃ g, f.act a = .ok g ∧ g.Lengths n := by
  obtain ⟨m, rfl, rfl⟩ := h.exists_model
  have hsize := Model.size_cells_act m a
  exact ⟨(m.act a).file, act_file hn a, hsize ▸ lengths_file (m.act a)⟩

/-! ## Any run of a new file -/

theorem controller_of_room {size : Address} (h : size.toNat < Model.arrayLimit) :
    controller size = .ok (Model.controller size).file := by
  rw [controller, new_of_room h]
  exact withRegisters_file _ _

theorem controller_of_le {size : Address} (h : Model.arrayLimit ≤ size.toNat) :
    controller size = .error .capacityOverflow := by
  rw [controller, new_of_le h]
  rfl

/-- No access to a model's arrays panics, and one that is accepted has its word in each of them. -/
theorem accesses_file (h : m.Fits) :
    (∃ limit, m.file.size = .ok limit ∧
        ∀ o, checkAccess o limit = .ok () → index o < m.cells.size) ∧
      ∀ o v, (∃ r, m.file.load o = .ok r) ∧ ∃ r, m.file.store o v = .ok r :=
  ⟨⟨m.size, size_file h, fun _ ho => (Model.accepts_iff.mpr ho).index_lt⟩,
    fun o v => ⟨⟨_, load_file h o⟩, _, store_file h o v⟩⟩

/-- A settled word of a model, read off its arrays. -/
theorem agreeOn_file (h : m.Settled i) {w r mask : Word} (hw : m.file.words[i]? = some w)
    (hr : m.file.resets[i]? = some r) (hmask : m.file.masks[i]? = some mask) :
    Word.AgreeOn (~~~mask) w r := by
  simp only [Model.file, Model.values, Model.resets, Model.masks, Array.getElem?_map,
    Option.map_eq_some_iff] at hw hr hmask
  obtain ⟨c, hc, rfl⟩ := hw
  rw [hc] at hr hmask
  simp only [Option.some.injEq, exists_eq_left'] at hr hmask
  rw [← hr, ← hmask]
  exact h c hc

/-- Every run of a new file. A size that no array can have is a panic at once. For any other size
nothing in the run panics; the words, their reset values and their masks stay as many as the window
has whole words, so an accepted access finds its word and mask and a reset copies equal lengths; a
word without an unmended poke holds its reset value outside its mask; and a reset puts every word to
its reset value. -/
theorem acts_sound (size : Address) (made : Except Panic RegisterFile)
    (h : made = new size ∨ made = controller size) (as : List Action) :
    (Model.arrayLimit ≤ size.toNat → made = .error .capacityOverflow) ∧
      (size.toNat < Model.arrayLimit → ∃ f, (made >>= fun f => f.acts as) = .ok f ∧
        f.Lengths (size.toNat / 4) ∧
        (∃ limit, f.size = .ok limit ∧
          ∀ o, checkAccess o limit = .ok () → index o < size.toNat / 4) ∧
        (∀ o v, (∃ r, f.load o = .ok r) ∧ ∃ r, f.store o v = .ok r) ∧
        (∀ i w r mask, ¬ Action.Stale i as → f.words[i]? = some w → f.resets[i]? = some r →
          f.masks[i]? = some mask → Word.AgreeOn (~~~mask) w r) ∧
        ∃ g, f.reset = .ok g ∧ g.words = f.resets ∧ g.resets = f.resets ∧ g.masks = f.masks) := by
  constructor
  · intro hle
    rcases h with rfl | rfl
    · exact new_of_le hle
    · exact controller_of_le hle
  · intro hroom
    obtain ⟨m, rfl, hsize, hsettled⟩ : ∃ m : Model, made = .ok m.file ∧
        m.cells.size = size.toNat / 4 ∧ ∀ i, m.Settled i := by
      rcases h with rfl | rfl
      · exact ⟨_, new_of_room hroom, Model.size_cells_blank size, Model.settled_blank size⟩
      · exact ⟨_, controller_of_room hroom, Model.size_cells_controller size,
          Model.settled_controller size⟩
    have hfits : m.Fits := by
      rw [Model.Fits, hsize]
      omega
    have hend : (m.acts as).cells.size = size.toNat / 4 := by
      rw [Model.size_cells_acts, hsize]
    have hfits' : (m.acts as).Fits := hfits.congr (Model.size_cells_acts m as)
    have hlengths := lengths_file (m.acts as)
    obtain ⟨hlimit, haccess⟩ := accesses_file hfits'
    rw [hend] at hlengths hlimit
    refine ⟨(m.acts as).file, acts_file hfits as, hlengths, hlimit, haccess, ?_, ?_⟩
    · intro i w r mask hi hw hr hmask
      exact agreeOn_file ((hsettled i).acts hi) hw hr hmask
    · refine ⟨_, reset_file (m.acts as), ?_, Model.resets_reset _, ?_⟩
      · exact (Model.values_reset _).trans (Model.resets_reset _)
      · exact Array.map_map ..

/-- A window with one whole word: its poke is mended by a register put in place, which then turns a
store away. -/
theorem acts_sound_one_word :
    (new 6 >>= fun f => f.acts
        [.poke 2 5, .withRegister 3 0x120 0, .access (.store 0 0xFFFFFFFF)]) =
      .ok ⟨#[0x120], #[0x120], #[0], 0, 1⟩ ∧ Word.AgreeOn (~~~0) 0x120 0x120 := by
  have hrun : (new 6 >>= fun f => f.acts
      [.poke 2 5, .withRegister 3 0x120 0, .access (.store 0 0xFFFFFFFF)]) =
        .ok ⟨#[0x120], #[0x120], #[0], 0, 1⟩ := by decide +kernel
  have hfresh : ¬ Action.Stale 0
      ([.poke 2 5] ++ [.withRegister 3 0x120 0] ++ [.access (.store 0 0xFFFFFFFF)]) := by
    rw [Action.stale_append, Action.stale_append]
    rintro (hp | ⟨hp | ⟨-, hr⟩, -⟩)
    · exact hp
    · exact hp
    · exact hr rfl
  obtain ⟨f, hf, -, -, -, hbits, -⟩ := (acts_sound 6 (new 6) (.inl rfl) _).2 (by decide)
  obtain rfl := Except.ok.inj (hf.symm.trans hrun)
  exact ⟨hrun, hbits 0 _ _ _ hfresh rfl rfl rfl⟩

end RegisterFile

end I3CHost
