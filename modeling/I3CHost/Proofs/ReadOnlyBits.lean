import I3CHost.Access
import I3CHost.Proofs.ModelMemory
import Mathlib.Data.List.Induction

/-!
# What a model never forgets

Runs of a software model under everything that can be done to it: accesses from above the bus,
layout discovery, and the work behind the bus. An action carries the view or the controller it goes
through, so the layouts in use may change in the middle of a run.

The number of words is fixed when the model is made. A word keeps its reset value outside its mask
under every action except a poke; a reset, or putting the register in place anew, mends a poke. So
the words whose read-only bits may be off are those with a poke that nothing mended yet. Small
windows need no case of their own: what lies past the end is no word.
-/
namespace I3CHost

/-- Outside the writable bits the word holds its reset value. -/
def Cell.Settled (c : Cell) : Prop := Word.AgreeOn (~~~c.writable) c.value c.reset

theorem Cell.Settled.store {c : Cell} (h : c.Settled) (v : Word) : (c.store v).Settled := by
  rw [Cell.Settled, Word.agreeOn_iff] at h ⊢
  intro b hb
  have hmask : c.writable.bit b = false := by
    change (~~~c.writable : Word).bit b = true at hb
    rw [Word.bit_not _ (Word.lt_of_bit hb)] at hb
    simpa using hb
  change (c.value.merge v c.writable).bit b = c.reset.bit b
  rw [Word.bit_merge, hmask]
  exact h b hb

namespace Model

variable {m : Model} {i : Nat}

def values (m : Model) : Array Word := m.cells.map Cell.value
def resets (m : Model) : Array Word := m.cells.map Cell.reset
def masks (m : Model) : Array Word := m.cells.map Cell.writable

/-- The word at position `i`, if there is one, is settled. -/
def Settled (m : Model) (i : Nat) : Prop := ∀ c, m.cells[i]? = some c → c.Settled

theorem values_eq {n : Model} (hsize : m.cells.size = n.cells.size) (h : m.wordAt = n.wordAt) :
    m.values = n.values := by
  apply Array.ext
  · rw [values, values, Array.size_map, Array.size_map, hsize]
  · intro k hm hn
    have hk := congrFun h k
    rw [values, Array.size_map] at hm hn
    simpa [wordAt, values, Array.getElem?_eq_getElem hm, Array.getElem?_eq_getElem hn] using hk

/-! ## Actions -/

/-- One thing done to a model. -/
inductive Action where
  | access (a : Access)
  | discover (c : Controller)
  | peek (offset : Address)
  | poke (offset : Address) (value : Word)
  | withRegister (offset : Address) (reset writable : Word)
  | reset
  | resetStats

def act (m : Model) : Action → Model
  | .access a => (a.program.run responder m).state
  | .discover c => (c.discover.run responder m).state
  | .peek _ => m
  | .poke offset value => m.poke offset value
  | .withRegister offset reset writable => m.withRegister offset reset writable
  | .reset => m.reset
  | .resetStats => m.resetStats

def acts (m : Model) (as : List Action) : Model := as.foldl act m

theorem acts_append (m : Model) (as : List Action) (a : Action) :
    m.acts (as ++ [a]) = (m.acts as).act a := by
  rw [acts, List.foldl_append]
  rfl

namespace Action

/-- The action puts a value into word `i` behind the mask. -/
def Pokes (i : Nat) : Action → Prop
  | poke offset _ => index offset = i
  | _ => False

/-- The action gives word `i` its reset value. -/
def Restores (i : Nat) : Action → Prop
  | reset => True
  | withRegister offset _ _ => index offset = i
  | _ => False

/-- Word `i` was poked and nothing has restored it since. -/
def Stale (i : Nat) (as : List Action) : Prop :=
  ∃ before a after, as = before ++ a :: after ∧ a.Pokes i ∧ ∀ x ∈ after, ¬ x.Restores i

theorem stale_append {i : Nat} {as : List Action} {a : Action} :
    Stale i (as ++ [a]) ↔ a.Pokes i ∨ Stale i as ∧ ¬ a.Restores i := by
  constructor
  · rintro ⟨before, x, after, h, hp, hr⟩
    rcases List.eq_nil_or_concat after with rfl | ⟨init, y, rfl⟩
    · have hx := (List.append_inj' h rfl).2
      rw [List.cons.injEq] at hx
      exact .inl (hx.1 ▸ hp)
    · rw [List.concat_eq_append, ← List.cons_append, ← List.append_assoc] at h
      obtain ⟨has, hy⟩ := List.append_inj' h rfl
      rw [List.cons.injEq] at hy
      refine .inr ⟨⟨before, x, init, has, hp, fun z hz => hr z (by simp [hz])⟩, ?_⟩
      rw [hy.1]
      exact hr y (by simp)
  · rintro (hp | ⟨⟨before, x, after, rfl, hp, hr⟩, ha⟩)
    · exact ⟨as, a, [], rfl, hp, by simp⟩
    · refine ⟨before, x, after ++ [a], by simp, hp, ?_⟩
      intro z hz
      rcases List.mem_append.mp hz with hz | hz
      · exact hr z hz
      · rw [List.mem_singleton.mp hz]
        exact ha

end Action

/-! ## What one action keeps -/

theorem size_cells_run {α : Type} (p : Bus α) (m : Model) :
    (p.run responder m).state.cells.size = m.cells.size := by
  refine (Bus.within_any p).run_preserves
    (P := fun n : Model => n.cells.size = m.cells.size) ?_ ?_ rfl
  · intro o n _ hn
    change (n.load o).state.cells.size = m.cells.size
    rw [cells_load, hn]
  · intro o v n _ hn
    change (n.store o v).state.cells.size = m.cells.size
    rw [size_cells_store, hn]

theorem size_cells_act (m : Model) (a : Action) : (m.act a).cells.size = m.cells.size := by
  cases a with
  | access a => exact size_cells_run _ m
  | discover c => exact size_cells_run _ m
  | peek offset => rfl
  | poke offset value => exact Array.size_modify
  | withRegister offset reset writable => exact Array.size_setIfInBounds
  | reset => exact Array.size_map
  | resetStats => rfl

theorem Settled.run {α : Type} (h : m.Settled i) (p : Bus α) :
    (p.run responder m).state.Settled i := by
  refine (Bus.within_any p).run_preserves (P := fun n : Model => n.Settled i) ?_ ?_ h
  · intro o n _ hn c hc
    change (n.load o).state.cells[i]? = some c at hc
    rw [cells_load] at hc
    exact hn c hc
  · intro o v n _ hn c hc
    change (n.store o v).state.cells[i]? = some c at hc
    rw [cells_store] at hc
    split at hc
    · obtain ⟨d, hd, rfl⟩ := Option.map_eq_some_iff.mp hc
      exact (hn d hd).store v
    · exact hn c hc

/-- An action that restores a word settles it, whatever it held. -/
theorem settled_of_restores {a : Action} (ha : a.Restores i) : (m.act a).Settled i := by
  intro c hc
  cases a with
  | reset =>
      rw [act, Model.reset, Array.getElem?_map] at hc
      obtain ⟨d, -, rfl⟩ := Option.map_eq_some_iff.mp hc
      exact .refl _ _
  | withRegister offset reset writable =>
      change index offset = i at ha
      rw [act, Model.withRegister, Array.getElem?_setIfInBounds, if_pos ha] at hc
      split at hc
      · cases hc
        exact .refl _ _
      · cases hc
  | access _ | discover _ | peek _ | poke _ _ | resetStats => exact ha.elim

/-- An action that does not poke a word keeps it settled. -/
theorem Settled.act {a : Action} (h : m.Settled i) (ha : ¬ a.Pokes i) : (m.act a).Settled i := by
  cases a with
  | access a => exact h.run _
  | discover c => exact h.run _
  | peek offset => exact h
  | poke offset value =>
      intro c hc
      have hi : index offset ≠ i := ha
      rw [Model.act, Model.poke, Array.getElem?_modify, if_neg hi] at hc
      exact h c hc
  | withRegister offset reset writable =>
      by_cases hi : index offset = i
      · exact settled_of_restores hi
      · intro c hc
        rw [Model.act, Model.withRegister, Array.getElem?_setIfInBounds_ne hi] at hc
        exact h c hc
  | reset => exact settled_of_restores trivial
  | resetStats => exact h

/-! ## What a run keeps -/

theorem size_cells_acts (m : Model) (as : List Action) :
    (m.acts as).cells.size = m.cells.size := by
  induction as generalizing m with
  | nil => rfl
  | cons a as ih => exact (ih (m.act a)).trans (size_cells_act m a)

/-- A word without an unmended poke is settled. -/
theorem Settled.acts (h : m.Settled i) {as : List Action} (has : ¬ Action.Stale i as) :
    (m.acts as).Settled i := by
  induction as using List.reverseRecOn with
  | nil => exact h
  | append_singleton as a ih =>
      rw [Action.stale_append, not_or, not_and, not_not] at has
      rw [acts_append]
      by_cases hr : a.Restores i
      · exact settled_of_restores hr
      · exact (ih fun hs => hr (has.2 hs)).act has.1

theorem values_reset (m : Model) : m.reset.values = m.reset.resets := by
  simp only [values, resets, Model.reset, Array.map_map]
  rfl

theorem resets_reset (m : Model) : m.reset.resets = m.resets := by
  simp only [resets, Model.reset, Array.map_map]
  rfl

/-! ## New models -/

/-- Putting registers in place is a run like any other. -/
theorem withRegisters_eq (m : Model) (rs : List (Address × Word × Word)) :
    m.withRegisters rs = m.acts (rs.map fun r => .withRegister r.1 r.2.1 r.2.2) := by
  rw [acts, List.foldl_map]
  rfl

theorem size_cells_blank (size : Address) : (blank size).cells.size = size.toNat / 4 := by
  rw [blank, Array.size_replicate, index_eq]

theorem settled_blank (size : Address) (i : Nat) : (blank size).Settled i := by
  intro c hc
  rw [blank, Array.getElem?_replicate] at hc
  split at hc
  · cases hc
    exact .refl _ _
  · cases hc

theorem size_cells_controller (size : Address) :
    (controller size).cells.size = size.toNat / 4 := by
  rw [controller, withRegisters_eq, size_cells_acts, size_cells_blank]

theorem settled_controller (size : Address) (i : Nat) : (controller size).Settled i := by
  rw [controller, withRegisters_eq]
  apply (settled_blank size i).acts
  rintro ⟨before, a, after, h, hp, -⟩
  have ha : a ∈ before ++ a :: after := by simp
  rw [← h, List.mem_map] at ha
  obtain ⟨r, -, rfl⟩ := ha
  exact hp

/-! ## Runs that do not go behind the masks -/

/-- The action puts a value or a register in place behind the masks. -/
def Action.Tampers : Action → Prop
  | .poke .. | .withRegister .. => True
  | _ => False

theorem Action.not_stale {as : List Action} (h : ∀ a ∈ as, ¬ a.Tampers) (i : Nat) :
    ¬ Stale i as := by
  rintro ⟨before, a, after, rfl, hp, -⟩
  apply h a (by simp)
  cases a with
  | poke => trivial
  | _ => exact hp.elim

theorem shape_run {α : Type} (p : Bus α) (m : Model) :
    (p.run responder m).state.resets = m.resets ∧ (p.run responder m).state.masks = m.masks := by
  refine (Bus.within_any p).run_preserves
    (P := fun n : Model => n.resets = m.resets ∧ n.masks = m.masks) ?_ ?_ ⟨rfl, rfl⟩
  · intro o n _ hn
    rw [resets, masks, responder_load, cells_load]
    exact hn
  · rintro o v n _ ⟨hresets, hmasks⟩
    rw [← hresets, ← hmasks, responder_store]
    constructor <;> apply Array.ext_getElem? <;> intro k
    · simp only [resets, Array.getElem?_map, cells_store]
      split <;> cases n.cells[k]? <;> rfl
    · simp only [masks, Array.getElem?_map, cells_store]
      split <;> cases n.cells[k]? <;> rfl

theorem shape_act (m : Model) {a : Action} (h : ¬ a.Tampers) :
    (m.act a).resets = m.resets ∧ (m.act a).masks = m.masks := by
  cases a with
  | access a => exact shape_run _ m
  | discover c => exact shape_run _ m
  | reset =>
      simp only [act, Model.reset, resets, masks, Array.map_map]
      exact ⟨rfl, rfl⟩
  | peek _ | resetStats => exact ⟨rfl, rfl⟩
  | poke _ _ | withRegister _ _ _ => exact (h trivial).elim

/-- Every word keeps its reset value and its mask. -/
theorem shape_acts (m : Model) {as : List Action} (h : ∀ a ∈ as, ¬ a.Tampers) :
    (m.acts as).resets = m.resets ∧ (m.acts as).masks = m.masks := by
  induction as generalizing m with
  | nil => exact ⟨rfl, rfl⟩
  | cons a as ih =>
      obtain ⟨hresets, hmasks⟩ := shape_act m (h a List.mem_cons_self)
      obtain ⟨hresets', hmasks'⟩ := ih (m.act a) fun x hx => h x (List.mem_cons_of_mem a hx)
      exact ⟨hresets'.trans hresets, hmasks'.trans hmasks⟩

/-- The word that some registers put at position `k`; a later one wins. -/
def freshCell (rs : List (Address × Word × Word)) (k : Nat) : Cell :=
  rs.foldl (fun c r => if index r.1 = k then ⟨r.2.1, r.2.1, r.2.2⟩ else c) ⟨0, 0, Word.ones⟩

theorem cells_withRegister (m : Model) (offset : Address) (reset writable : Word) (k : Nat) :
    (m.withRegister offset reset writable).cells[k]? =
      m.cells[k]?.map fun c => if index offset = k then ⟨reset, reset, writable⟩ else c := by
  rw [withRegister, Array.getElem?_setIfInBounds]
  by_cases hk : index offset = k
  · simp only [hk, if_true]
    split
    · next hlt => rw [Array.getElem?_eq_getElem hlt, Option.map_some]
    · next hlt => rw [Array.getElem?_eq_none (Nat.le_of_not_lt hlt), Option.map_none]
  · simp only [hk, if_false, Option.map_id']

/-- The words of the controller out of reset. -/
theorem cells_controller (size : Address) {k : Nat} (hk : k < size.toNat / 4) :
    (controller size).cells[k]? = some (freshCell controllerRegisters k) := by
  have hputs (m : Model) (c : Cell) (hc : m.cells[k]? = some c)
      (rs : List (Address × Word × Word)) : (m.withRegisters rs).cells[k]? =
        some (rs.foldl (fun c r => if index r.1 = k then ⟨r.2.1, r.2.1, r.2.2⟩ else c) c) := by
    induction rs generalizing m c with
    | nil => exact hc
    | cons r rs ih =>
        refine ih (m.withRegister r.1 r.2.1 r.2.2) _ ?_
        rw [cells_withRegister, hc, Option.map_some]
  refine hputs (blank size) _ ?_ controllerRegisters
  rw [blank, Array.getElem?_replicate, index_eq, if_pos hk]

/-- After such a run a controller has its masks, and outside them its reset values. -/
theorem fresh_outside_mask (size : Address) {as : List Action} (h : ∀ a ∈ as, ¬ a.Tampers) {k : Nat}
    (hk : k < size.toNat / 4) :
    let m := (controller size).acts as
    let fresh := freshCell controllerRegisters k
    m.maskAt k = fresh.writable ∧ Word.AgreeOn (~~~fresh.writable) (m.wordAt k) fresh.reset := by
  intro m fresh
  have hlt : k < m.cells.size := by
    rw [size_cells_acts, size_cells_controller]
    exact hk
  have hcell := Array.getElem?_eq_getElem hlt
  have hfresh := cells_controller size hk
  obtain ⟨hresets, hmasks⟩ := shape_acts (controller size) h
  have hreset : m.cells[k].reset = fresh.reset := by
    have heq := congrArg (fun rs => rs[k]?) hresets
    simp only [resets, Array.getElem?_map, hfresh, m, hcell, Option.map_some] at heq
    exact Option.some.inj heq
  have hmask : m.cells[k].writable = fresh.writable := by
    have heq := congrArg (fun rs => rs[k]?) hmasks
    simp only [masks, Array.getElem?_map, hfresh, m, hcell, Option.map_some] at heq
    exact Option.some.inj heq
  have hsettled := (settled_controller size k).acts (Action.not_stale h k) _ hcell
  rw [Cell.Settled, hreset, hmask] at hsettled
  simp only [maskAt, wordAt, hcell, Option.map_some, Option.getD_some]
  exact ⟨hmask, hsettled⟩

end Model

end I3CHost
