import I3CHost.Proofs.InterruptHistory

/-!
# Flags and lists of pending sources

The bookkeeping as it is stored has a flag for each source and kind, looked up by position; the
lists of pending sources say the same. No two sources have one row, so a flag is set and cleared by
the calls on its own line only. Fresh bookkeeping of either sort answers every sequence of calls alike,
and two stored states are equal if and only if their lists are.
-/
namespace I3CHost

open InterruptLog (Call Answer Shows)

namespace InterruptSource

theorem index_injective : Function.Injective index := by
  intro s s' h
  cases s <;> cases s' <;> first | rfl | cases h

end InterruptSource

theorem InterruptKind.index_injective : Function.Injective index := by
  intro k k' h
  cases k <;> cases k' <;> first | rfl | cases h

namespace InterruptFlags

variable {f f' : InterruptFlags} {l l' : InterruptLog} {history : List Call}
variable {source other : InterruptSource} {kind line : InterruptKind}

/-! ## One flag -/

/-- A flag that is put is the flag of its own line. -/
theorem isPending_put (f : InterruptFlags) (source other : InterruptSource)
    (kind line : InterruptKind) (flag : Bool) : (f.put source kind flag).isPending other line =
      if source = other ∧ kind = line then flag else f.isPending other line := by
  simp only [isPending, put, Fin.getElem_fin, Vector.getElem_set, ← Fin.ext_iff,
    InterruptSource.index_injective.eq_iff]
  by_cases hs : source = other
  · subst hs
    simp only [if_true, true_and, Vector.getElem_set, ← Fin.ext_iff,
      InterruptKind.index_injective.eq_iff]
  · simp only [hs, if_false, false_and]

theorem isPending_cleared (interrupts resets : UInt32) :
    isPending ⟨cleared, interrupts, resets⟩ source kind = false := by
  simp only [isPending, cleared, Fin.getElem_fin, Vector.getElem_replicate]

/-- Flags that are looked up alike are stored alike. -/
theorem received_eq (h : ∀ source kind, f.isPending source kind = f'.isPending source kind) :
    f.received = f'.received := by
  have hsources : ∀ i : Fin 11, ∃ source ∈ InterruptSource.all, source.index = i := by decide
  have hkinds : ∀ j : Fin 2, ∃ kind ∈ [InterruptKind.error, .notification], kind.index = j := by
    decide
  apply Vector.ext
  intro i hi
  apply Vector.ext
  intro j hj
  obtain ⟨source, -, hsource⟩ := hsources ⟨i, hi⟩
  obtain ⟨kind, -, hkind⟩ := hkinds ⟨j, hj⟩
  simpa only [isPending, hsource, hkind, Fin.getElem_fin] using h source kind

/-! ## Flags and lists -/

/-- The flags say what the lists say. -/
structure Keeps (f : InterruptFlags) (l : InterruptLog) : Prop where
  pending : ∀ source kind, f.isPending source kind = l.isPending source kind
  interrupts : f.interrupts = l.interrupts
  resets : f.resets = l.resets

theorem filter_mem_eq {xs ys : List InterruptSource} (h : xs.Sublist ys) (hys : ys.Nodup) :
    (ys.filter fun s => s ∈ xs) = xs := by
  induction h with
  | slnil => rfl
  | @cons xs ys y h ih =>
      rw [List.nodup_cons] at hys
      have hy : y ∉ xs := fun hmem => hys.1 (h.subset hmem)
      simpa [hy] using ih hys.2
  | @cons_cons xs ys y h ih =>
      rw [List.nodup_cons] at hys
      have hrest : (ys.filter fun s => s ∈ y :: xs) = ys.filter fun s => s ∈ xs := by
        apply List.filter_congr
        intro s hs
        have hne : s ≠ y := fun heq => hys.1 (heq ▸ hs)
        simp [hne]
      rw [List.filter_cons_of_pos (by simp), hrest, ih hys.2]

/-- A list in order is read off the flags. -/
theorem Keeps.filter_eq (h : f.Keeps l) (hordered : (l.pending kind).Sublist InterruptSource.all) :
    (InterruptSource.all.filter fun s => f.isPending s kind) = l.pending kind := by
  rw [← filter_mem_eq hordered InterruptSource.nodup_all]
  simp only [h.pending, InterruptLog.isPending]

theorem keeps_empty : empty.Keeps .empty where
  pending source kind := by
    rw [empty, isPending_cleared]
    cases kind <;> rfl
  interrupts := rfl
  resets := rfl

/-- Make a call. -/
def call (f : InterruptFlags) : Call → Answer × InterruptFlags
  | .record source kind => (.nothing, f.record source kind)
  | .take source kind => (.truth (f.take source kind).1, (f.take source kind).2)
  | .reset => (.nothing, f.reset)
  | .isPending source kind => (.truth (f.isPending source kind), f)
  | .pendingErrors => (.sources f.errors, f)

/-- Make calls one after another and collect what they return. -/
def run (f : InterruptFlags) : List Call → List Answer × InterruptFlags
  | [] => ([], f)
  | c :: cs =>
    let rest := (f.call c).2.run cs
    ((f.call c).1 :: rest.1, rest.2)

/-- A call is answered alike and changes both alike. -/
theorem Keeps.call (h : f.Keeps l) (hshows : l.Shows history) (c : Call) :
    (f.call c).1 = (l.call c).1 ∧ (f.call c).2.Keeps (l.call c).2 := by
  cases c with
  | record source kind =>
      refine ⟨rfl, fun other line => ?_, ?_, ?_⟩
      · have hput : (f.record source kind).isPending other line =
            if source = other ∧ kind = line then true else f.isPending other line :=
          isPending_put f source other kind line true
        change (f.record source kind).isPending other line =
          (l.record source kind).isPending other line
        rw [hput, Bool.eq_iff_iff, InterruptLog.isPending_iff, InterruptLog.mem_pending_record,
          ← InterruptLog.isPending_iff, h.pending]
        split <;> simp_all
      · exact congrArg (· + 1) h.interrupts
      · exact h.resets.trans InterruptLog.counters_record.2.symm
  | take source kind =>
      refine ⟨congrArg Answer.truth (h.pending source kind), fun other line => ?_, ?_, ?_⟩
      · change (f.put source kind false).isPending other line =
          (l.take source kind).2.isPending other line
        rw [isPending_put, Bool.eq_iff_iff, InterruptLog.isPending_iff,
          InterruptLog.mem_pending_take, ← InterruptLog.isPending_iff, h.pending]
        split <;> simp_all
      · exact h.interrupts.trans InterruptLog.counters_take.1.symm
      · exact h.resets.trans InterruptLog.counters_take.2.symm
  | reset =>
      refine ⟨rfl, fun other line => ?_, rfl, congrArg (· + 1) h.resets⟩
      change isPending ⟨cleared, 0, f.resets + 1⟩ other line = l.reset.isPending other line
      rw [isPending_cleared]
      cases line <;> rfl
  | isPending source kind =>
      rw [InterruptFlags.call, InterruptLog.call, h.pending]
      exact ⟨rfl, h⟩
  | pendingErrors =>
      rw [InterruptFlags.call, InterruptLog.call, errors, h.filter_eq (hshows.ordered .error)]
      exact ⟨rfl, h⟩

theorem Keeps.run (h : f.Keeps l) (hshows : l.Shows history) (calls : List Call) :
    (f.run calls).1 = (l.run calls).1 ∧ (f.run calls).2.Keeps (l.run calls).2 := by
  induction calls generalizing f l history with
  | nil => exact ⟨rfl, h⟩
  | cons c cs ih =>
      obtain ⟨hanswer, hnext⟩ := h.call hshows c
      obtain ⟨hanswers, hend⟩ := ih hnext (hshows.call c)
      exact ⟨List.cons_eq_cons.mpr ⟨hanswer, hanswers⟩, hend⟩

/-- Fresh flags answer all calls as fresh lists do. -/
theorem run_empty (calls : List Call) :
    (empty.run calls).1 = (InterruptLog.empty.run calls).1 ∧
      (empty.run calls).2.Keeps (InterruptLog.empty.run calls).2 :=
  keeps_empty.run InterruptLog.shows_empty calls

/-- To compare the flags is to compare the lists. -/
theorem Keeps.eq_iff {history' : List Call} (h : f.Keeps l) (h' : f'.Keeps l')
    (hshows : l.Shows history) (hshows' : l'.Shows history') : f = f' ↔ l = l' := by
  constructor
  · rintro rfl
    have hpending (kind : InterruptKind) : l.pending kind = l'.pending kind := by
      rw [← h.filter_eq (hshows.ordered kind), ← h'.filter_eq (hshows'.ordered kind)]
    have herrors := hpending .error
    have hnotifications := hpending .notification
    have hinterrupts := h.interrupts.symm.trans h'.interrupts
    have hresets := h.resets.symm.trans h'.resets
    cases l
    cases l'
    simp_all [InterruptLog.pending]
  · rintro rfl
    have hreceived := received_eq fun source kind =>
      (h.pending source kind).trans (h'.pending source kind).symm
    have hinterrupts := h.interrupts.trans h'.interrupts.symm
    have hresets := h.resets.trans h'.resets.symm
    cases f
    cases f'
    simp_all

end InterruptFlags

end I3CHost
