import I3CHost.Controller
import I3CHost.Proofs.ModelMemory
import Mathlib.Data.List.Pairwise

/-!
# Runs of field writes

Field writes through register views, table views and the three spaces of a controller, in any
order and any mix, over one software model. Views may overlap, masks may have holes and need not
start at the low bit, and a write may fail.

`reach` is the byte a write is aimed at, added up without bound. Either a write is refused and the
model stays as it is, or `reach` is the address of a word of the window and that word is updated.
So a bit of the memory belongs to the last write that was accepted and covers it, if software may
write the bit at all. Writes that share no bit can be put in any order.
-/
namespace I3CHost

/-- A field write, with the view it goes through. -/
inductive FieldWrite where
  | register (v : Registers) (offset : Address) (f : Field) (value : Word)
  | entry (t : Table) (index : UInt64) (f : Field) (value : Word)
  | space (c : Controller) (s : Space) (location : UInt64) (f : Field) (value : Word)
deriving DecidableEq, Repr

namespace FieldWrite

def field : FieldWrite → Field
  | register _ _ f _ | entry _ _ f _ | space _ _ _ f _ => f

def value : FieldWrite → Word
  | register _ _ _ x | entry _ _ _ x | space _ _ _ _ x => x

def program : FieldWrite → Bus Unit
  | register v offset f x => v.writeField offset f x
  | entry t index f x => t.writeField index f x
  | space c s location f x => c.writeField s location f x

/-- The byte a write is aimed at, as a number without bound. -/
def reach : FieldWrite → Nat
  | register v offset f _ => v.base.toNat + offset.toNat + 4 * f.word.toNat
  | entry t index f _ => t.layout.start index.toNat + 4 * f.word.toNat
  | space c s location f _ =>
      match s.table? with
      | none => location.toNat + 4 * f.word.toNat
      | some kind => (c.layout kind).start location.toNat + 4 * f.word.toNat

/-- The write is aimed at word `i` and its mask has bit `b`. -/
def covers (w : FieldWrite) (i b : Nat) : Bool := w.reach == 4 * i && w.field.mask.bit b

/-- What the write puts into bit `b` of its word. -/
def bitOf (w : FieldWrite) (b : Nat) : Bool :=
  (w.value.toNat <<< (w.field.low.toNat % 32)).testBit b

/-- Two writes share no bit of the window. -/
def Apart (w v : FieldWrite) : Prop := w.reach ≠ v.reach ∨ w.field.mask &&& v.field.mask = 0

theorem Apart.symm {w v : FieldWrite} (h : w.Apart v) : v.Apart w := by
  rw [Apart, UInt32.and_comm]
  exact h.imp Ne.symm id

/-- Either a write ends before it reaches the bus, or it updates the word at `reach`. -/
def Aimed (w : FieldWrite) (p : Bus Unit) : Prop :=
  (∃ e, p = .stop e) ∨ ∃ a : Address, a.toNat = w.reach ∧ p = Bus.update a w.field w.value

theorem aimed_register (v : Registers) (offset : Address) (f : Field) (x : Word) :
    (register v offset f x).Aimed (v.writeField offset f x) := by
  rw [Registers.writeField_eq]
  cases ha : v.fieldAddress offset f with
  | error e => exact .inl ⟨e, rfl⟩
  | ok a =>
      obtain ⟨hword, hoffset⟩ := Registers.fieldAddress_eq_ok ha
      have hsum := (Registers.address_eq_ok hword).2
      refine .inr ⟨a, ?_, rfl⟩
      rw [reach, hsum, hoffset, Nat.add_assoc]

theorem aimed_entry (t : Table) (index : UInt64) (f : Field) (x : Word) :
    (entry t index f x).Aimed (t.writeField index f x) := by
  rw [Table.writeField]
  cases hs : t.entryOffset index with
  | error e => exact .inl ⟨e, rfl⟩
  | ok start =>
      cases hf : t.checkField f with
      | error e => exact .inl ⟨e, rfl⟩
      | ok u =>
          rcases aimed_register t.registers start f x with ⟨e, he⟩ | ⟨a, ha, hp⟩
          · exact .inl ⟨e, he⟩
          · refine .inr ⟨a, ?_, hp⟩
            rw [ha, reach, reach, (Table.entryOffset_eq_ok hs).2.1]
            rfl

theorem aimed_program (w : FieldWrite) : w.Aimed w.program := by
  cases w with
  | register v offset f x => exact aimed_register v offset f x
  | entry t index f x => exact aimed_entry t index f x
  | space c s location f x =>
      cases s with
      | csr =>
          rcases aimed_register c.csr location f x with h | ⟨a, ha, hp⟩
          · exact .inl h
          · refine .inr ⟨a, ?_, hp⟩
            rw [ha, reach, reach, show c.csr.base.toNat = 0 from rfl, Nat.zero_add]
            rfl
      | dat => exact aimed_entry (c.table .dat) location f x
      | dct => exact aimed_entry (c.table .dct) location f x

/-! ## One write -/

variable {m : Model}

/-- A write fails and changes nothing, or succeeds and is one update. -/
theorem run_program (w : FieldWrite) (m : Model) :
    (∃ e, (w.program.run Model.responder m).result = .error e ∧
        (w.program.run Model.responder m).state = m) ∨
      ∃ a : Address, a.toNat = w.reach ∧ m.Accepts a ∧
        (w.program.run Model.responder m).result = .ok () ∧
        (w.program.run Model.responder m).state = m.update a w.field w.value := by
  rcases w.aimed_program with ⟨e, he⟩ | ⟨a, ha, hp⟩
  · exact .inl ⟨e, by rw [he]; rfl, by rw [he]; rfl⟩
  · rw [hp]
    by_cases hacc : m.Accepts a
    · exact .inr ⟨a, ha, hacc, Model.run_update_of_accepts hacc _ _⟩
    · exact .inl (Model.run_update_of_not_accepts hacc _ _)

/-- After one write, a bit is the write's if the write succeeded, covers the bit and the bit can be
written; else it is what it was. -/
theorem bit_run (w : FieldWrite) (m : Model) (i b : Nat) :
    ((w.program.run Model.responder m).state.wordAt i).bit b =
      if (m.maskAt i).bit b ∧
          ((w.program.run Model.responder m).result.isOk && w.covers i b) = true then w.bitOf b
      else (m.wordAt i).bit b := by
  rcases w.run_program m with ⟨e, hr, hs⟩ | ⟨a, ha, hacc, hr, hs⟩
  · rw [hr, hs]
    simp [Except.isOk, Except.toBool]
  · have hreach : i = Model.index a ↔ w.reach = 4 * i := by
      have := hacc.four_mul_index
      omega
    rw [hr, hs, Model.bit_update]
    simp only [hacc, true_and, hreach, Except.isOk, Except.toBool, Bool.true_and, covers,
      Bool.and_eq_true, beq_iff_eq, bitOf]
    congr 1
    exact propext (by tauto)

theorem maskAt_run (w : FieldWrite) (m : Model) (i : Nat) :
    (w.program.run Model.responder m).state.maskAt i = m.maskAt i := by
  rcases w.run_program m with ⟨e, -, hs⟩ | ⟨a, -, -, -, hs⟩
  · rw [hs]
  · rw [hs, Model.maskAt_update]

/-- A refused write and an update both fit one description of the state after. -/
theorem state_run (w : FieldWrite) :
    (∀ m, (w.program.run Model.responder m).state = m) ∨
      ∃ a : Address, a.toNat = w.reach ∧
        ∀ m, (w.program.run Model.responder m).state = m.update a w.field w.value := by
  rcases w.aimed_program with ⟨e, he⟩ | ⟨a, ha, hp⟩
  · exact .inl fun m => by rw [he]; rfl
  · exact .inr ⟨a, ha, fun m => by rw [hp, Model.state_run_update]⟩

/-- Writes that share no bit can be exchanged. -/
theorem run_comm {w v : FieldWrite} (h : w.Apart v) (m : Model) :
    (v.program.run Model.responder (w.program.run Model.responder m).state).state =
      (w.program.run Model.responder (v.program.run Model.responder m).state).state := by
  rcases w.state_run with hw | ⟨a, ha, hw⟩ <;> rcases v.state_run with hv | ⟨a', ha', hv⟩
  · simp only [hw, hv]
  · simp only [hw, hv]
  · simp only [hw, hv]
  · simp only [hw, hv]
    apply Model.update_comm
    refine h.imp ?_ id
    intro hreach hsame
    exact hreach (by rw [← ha, ← ha', hsame])

/-! ## Runs -/

/-- The last write of a history that succeeded and covers a bit. -/
def lastCovering (i b : Nat) (history : List (FieldWrite × Outcome Model Unit)) :
    Option FieldWrite :=
  ((history.filter fun h => h.2.result.isOk && h.1.covers i b).getLast?).map Prod.fst

theorem lastCovering_cons (i b : Nat) (h : FieldWrite × Outcome Model Unit)
    (hs : List (FieldWrite × Outcome Model Unit)) :
    lastCovering i b (h :: hs) = (lastCovering i b hs).or
      (if h.2.result.isOk && h.1.covers i b then some h.1 else none) := by
  rw [lastCovering, lastCovering, List.filter_cons]
  split
  · rw [List.getLast?_cons]
    cases (hs.filter fun h => h.2.result.isOk && h.1.covers i b).getLast? <;> rfl
  · rw [Option.or_none]

/-- The calls of a run with their outcomes. -/
def history (ws : List FieldWrite) (m : Model) : List (FieldWrite × Outcome Model Unit) :=
  Bus.runCalls program Model.responder ws m

/-- The model after a run. -/
def after (ws : List FieldWrite) (m : Model) : Model :=
  Bus.stateAfter program Model.responder ws m

theorem bit_after (ws : List FieldWrite) (m : Model) (i b : Nat) :
    ((after ws m).wordAt i).bit b =
      if (m.maskAt i).bit b then
        ((lastCovering i b (history ws m)).map (bitOf · b)).getD ((m.wordAt i).bit b)
      else (m.wordAt i).bit b := by
  induction ws generalizing m with
  | nil => simp [after, Bus.stateAfter, history, Bus.runCalls, lastCovering]
  | cons w ws ih =>
      have hrest := ih (w.program.run Model.responder m).state
      rw [maskAt_run, bit_run] at hrest
      change ((after ws (w.program.run Model.responder m).state).wordAt i).bit b = _
      rw [hrest, show history (w :: ws) m = (w, w.program.run Model.responder m) ::
        history ws (w.program.run Model.responder m).state from rfl, lastCovering_cons]
      cases (m.maskAt i).bit b with
      | false => simp
      | true =>
          cases lastCovering i b (history ws (w.program.run Model.responder m).state) with
          | some v => rfl
          | none =>
              by_cases hw : ((w.program.run Model.responder m).result.isOk && w.covers i b) = true
                <;> simp [hw]

theorem after_perm {ws vs : List FieldWrite} (hp : ws.Perm vs) (ha : ws.Pairwise Apart)
    (m : Model) : after vs m = after ws m := by
  have : Std.Symm Apart := ⟨fun _ _ h => h.symm⟩
  apply hp.symm.foldl_eq'
  intro w hw v hv n
  by_cases he : w = v
  · rw [he]
  · exact run_comm (ha.forall (hp.mem_iff.mpr hw) (hp.mem_iff.mpr hv) he) n

/-- The memory after any run of field writes, bit by bit: a writable bit holds what the last
successful write that covers it put there, every other bit is as it was. Writes that share no bit
lead to one model in any order, counters included. -/
theorem fieldWrites_settle (ws : List FieldWrite) (m : Model) :
    (∀ i b, ((after ws m).wordAt i).bit b =
      if (m.maskAt i).bit b then
        ((lastCovering i b (history ws m)).map (bitOf · b)).getD ((m.wordAt i).bit b)
      else (m.wordAt i).bit b) ∧
      ∀ vs, ws.Perm vs → ws.Pairwise Apart → after vs m = after ws m :=
  ⟨bit_after ws m, fun _ hp ha => after_perm hp ha m⟩

/-- The low nibble through a register view and the bits above it through a table view, in a word
with eight writable bits. -/
def nibbles : List FieldWrite :=
  [.register ⟨0, 8⟩ 4 ⟨0, 0, 0x0F⟩ 0xA, .entry ⟨⟨.dat, 0, 2, 1⟩, 8⟩ 0 ⟨1, 4, 0xFFF0⟩ 0x55]

theorem fieldWrites_settle_nibbles :
    nibbles.Perm nibbles.reverse ∧ nibbles.Pairwise Apart ∧
      (after nibbles ((Model.blank 8).withRegister 4 0xFFFFFF00 0xFF)).wordAt 1 = 0xFFFFFF5A ∧
      after nibbles.reverse ((Model.blank 8).withRegister 4 0xFFFFFF00 0xFF) =
        after nibbles ((Model.blank 8).withRegister 4 0xFFFFFF00 0xFF) := by
  have hp : nibbles.Perm nibbles.reverse := nibbles.reverse_perm.symm
  have ha : nibbles.Pairwise Apart := List.pairwise_pair.mpr (.inr rfl)
  exact ⟨hp, ha, by decide +kernel, (fieldWrites_settle _ _).2 _ hp ha⟩

end FieldWrite

end I3CHost
