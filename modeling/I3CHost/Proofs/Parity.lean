import I3CHost.Proofs.Agreement
import I3CHost.Proofs.FileWords
import I3CHost.Proofs.ModelMemory
import Mathlib

/-!
# The model and a mapped file side by side

A model drops what is stored to its read-only bits, a file keeps it, so their words are not equal
for long even if they start out equal. `Mirrors` asks for what remains: one size, and agreement on
the bits the model lets software write. Every access keeps it, since both sides judge an offset by
the size alone and a store brings related words into the same word of both.

So runs of requests stay in step on the two sides: the same requests fail with the same fault, and
those answered are answered alike. Whatever a run does to the read-only bits of the file is never
seen in the rest.
-/
namespace I3CHost

/-- The writable bits of the word at an address. -/
def Model.writableAt (m : Model) (a : Address) : Word := m.maskAt (Model.index a)

/-- The model `m` and the mapping with its tree agree on the bits that were writable in `m₀`; the
masks and the window are as they were. -/
structure Mirrors (m₀ : Model) (mp : Mapping) (place : Place) (m : Model)
    (s : Mapping × DeviceTree) : Prop where
  mapping : s.1 = mp
  fits : mp.Fits place s.2
  size : m.size = mp.size
  masks : ∀ i, m.maskAt i = m₀.maskAt i
  words : ∀ i, 4 * i + 4 ≤ mp.size.toNat → Word.AgreeOn (m₀.maskAt i) (m.wordAt i)
    (Mapping.wordAt (s.2.bytes place) (mp.base.toNat + 4 * i))

namespace Mirrors

variable {m₀ m : Model} {mp : Mapping} {place : Place} {s : Mapping × DeviceTree} {o : Address}

/-- The position in the file of an accepted word. -/
theorem position_eq (h : Mirrors m₀ mp place m s) (ho : m.Accepts o) :
    mp.position o = mp.base.toNat + 4 * Model.index o ∧
      4 * Model.index o + 4 ≤ mp.size.toNat := by
  have hend := ho.2
  rw [h.size] at hend
  rw [h.fits.position_eq (by omega), ho.four_mul_index]
  exact ⟨rfl, hend⟩

theorem load (h : Mirrors m₀ mp place m s) (o : Address) :
    ResultsAlike (AgreeAt m₀.writableAt o) (m.load o).result (s.1.load s.2 o).result ∧
      Mirrors m₀ mp place (m.load o).state (s.1.load s.2 o).state := by
  obtain ⟨rfl⟩ := h.mapping
  by_cases ho : m.Accepts o
  · obtain ⟨hpos, hin⟩ := h.position_eq ho
    have hcheck := Model.accepts_iff.mp ho
    rw [h.size] at hcheck
    rw [Model.load_of_accepts ho, Mapping.load, hcheck]
    refine ⟨?_, ⟨rfl, h.fits, h.size, h.masks, h.words⟩⟩
    change Word.AgreeOn _ _ (s.1.peek s.2 o)
    rw [h.fits.peek_eq, hpos]
    exact h.words _ hin
  · obtain ⟨e, hcheck, hload⟩ := Model.load_of_not_accepts ho
    rw [h.size] at hcheck
    rw [hload, Mapping.load, hcheck]
    exact ⟨rfl, h⟩

theorem store (h : Mirrors m₀ mp place m s) (o : Address) {w x : Word}
    (hwx : AgreeAt m₀.writableAt o w x) :
    ResultsAlike (fun _ _ => True) (m.store o w).result (s.1.store s.2 o x).result ∧
      Mirrors m₀ mp place (m.store o w).state (s.1.store s.2 o x).state := by
  obtain ⟨rfl⟩ := h.mapping
  by_cases ho : m.Accepts o
  · obtain ⟨hpos, hin⟩ := h.position_eq ho
    obtain ⟨hmap, hbytes⟩ := h.fits.poke_eq o x
    have hcheck := Model.accepts_iff.mp ho
    have hsize := Model.size_congr (Model.size_cells_store m o w)
    rw [h.size] at hcheck
    rw [(Model.store_of_accepts ho w).1, Mapping.store, hcheck]
    refine ⟨trivial, ⟨hmap, h.fits.after_poke o x, ?_, ?_, ?_⟩⟩
    · rw [hsize, h.size]
    · intro i
      rw [Model.maskAt_store, h.masks]
    · intro i hi
      have hfinish := h.fits.finish
      rw [Model.wordAt_store, hbytes, hpos]
      by_cases hio : i = Model.index o
      · subst hio
        rw [if_pos ⟨ho, rfl⟩, Mapping.wordAt_putWord (by omega), h.masks]
        exact (Word.agreeOn_merge _ _ _).trans hwx
      · rw [if_neg fun hk => hio hk.2, Mapping.wordAt_putWord_apart (by omega)]
        exact h.words i hi
  · obtain ⟨e, hcheck, hstore⟩ := Model.store_of_not_accepts ho w
    rw [h.size] at hcheck
    rw [hstore, Mapping.store, hcheck]
    exact ⟨rfl, h⟩

theorem coupling (m₀ : Model) (mp : Mapping) (place : Place) :
    Coupling (AgreeAt m₀.writableAt) (Mirrors m₀ mp place) Model.responder Mapping.responder where
  load o _ _ h := h.load o
  store o _ _ _ _ h hwx := h.store o hwx

end Mirrors

/-- A model and a file opened as a window of the same size, in agreement on the writable bits, stay
so under any requests, and every request is answered alike. The length of a file is a signed 64-bit
number. -/
theorem requests_in_step {t : DeviceTree} {path : String} {base size : Address} {mp : Mapping}
    {place : Place} (hopen : (Mapping.openAt t path base size).result = .ok mp)
    (hfile : mp.backing = .file place) (hlen : (t.bytes place).size < UInt64.size / 2) (m : Model)
    (hsize : m.size = mp.size)
    (hwords : ∀ i, 4 * i + 4 ≤ mp.size.toNat → Word.AgreeOn (m.maskAt i) (m.wordAt i)
      (Mapping.wordAt (t.bytes place) (mp.base.toNat + 4 * i)))
    (calls : List Access) :
    List.Forall₂
        (fun x y => x.1 = y.1 ∧
          Outcome.Alike (AgreeAt m.writableAt) (x.1.AnswersAgree m.writableAt) (Mirrors m mp place)
            x.2 y.2)
        (Bus.runCalls Access.program Model.responder calls m)
        (Bus.runCalls Access.program Mapping.responder calls (mp, t)) ∧
      Mirrors m mp place (Bus.stateAfter Access.program Model.responder calls m)
        (Bus.stateAfter Access.program Mapping.responder calls (mp, t)) := by
  have hfit := Mapping.openAt_fits hopen hfile hlen
  have hstart : Mirrors m mp place m (mp, t) := ⟨rfl, hfit, hsize, fun _ => rfl, hwords⟩
  exact Bus.runCalls_alike (Mirrors.coupling m mp place) Access.alike_program calls hstart

/-- Eight bytes of a longer file under a model with a read-only half word: the field is written on
both sides, and the half word is seen only in the raw reads. -/
theorem requests_in_step_half_word :
    let t : DeviceTree := ⟨[(["f"], .regular #[0, 0, 0, 0, 0x34, 0, 0xFF, 0, 0, 0, 0, 0])], []⟩
    let mp : Mapping := ⟨"f", 4, 8, .file ["f"]⟩
    let m : Model := (Model.blank 8).withRegister 0 0x12340034 0xFFFF
    let calls : List Access :=
      [.writeField ⟨0, 8⟩ 0 ⟨0, 4, 0xF0⟩ 5, .read ⟨0, 8⟩ 4, .write ⟨0, 8⟩ 6 1]
    Mirrors m mp ["f"] (Bus.stateAfter Access.program Model.responder calls m)
        (Bus.stateAfter Access.program Mapping.responder calls (mp, t)) ∧
      (Bus.stateAfter Access.program Model.responder calls m).wordAt 0 = 0x12340054 ∧
      (Bus.stateAfter Access.program Mapping.responder calls (mp, t)).2.bytes ["f"] =
        #[0, 0, 0, 0, 0x54, 0, 0xFF, 0, 0, 0, 0, 0] := by
  intro t mp m calls
  have hopen : (Mapping.openAt t "f" 4 8).result = .ok mp := by cbv
  have hlen : (t.bytes ["f"]).size < UInt64.size / 2 := by decide
  have hwords : ∀ i, 4 * i + 4 ≤ mp.size.toNat → Word.AgreeOn (m.maskAt i) (m.wordAt i)
      (Mapping.wordAt (t.bytes ["f"]) (mp.base.toNat + 4 * i)) := by
    intro i hi
    have hi : i = 0 ∨ i = 1 := by
      have h8 : mp.size.toNat = 8 := rfl
      omega
    rcases hi with rfl | rfl <;> decide +kernel
  exact ⟨(requests_in_step hopen rfl hlen m (by decide +kernel) hwords calls).2,
    by decide +kernel, by decide +kernel⟩

end I3CHost
