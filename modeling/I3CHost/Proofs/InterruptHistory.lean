import I3CHost.Harness
import Mathlib.Data.List.DropRight
import Mathlib.Data.List.Nodup

/-!
# Interrupt histories

What the bookkeeping shows, said of the calls that were made on it and of nothing else. A line of a
source is pending if an interrupt on it was noted and neither a reset nor a take of the same line
came later. Interrupts are counted since the last reset and resets since the beginning, both modulo
`2 ^ 32`; looking and taking count for nothing.

The pending sources of a kind are kept as a list, and a list could be out of order or hold a source
twice. It never does: next to what is pending, the invariant of a run says that each list is a
sublist of that of all sources.
-/
namespace I3CHost

theorem InterruptSource.nodup_all : all.Nodup := by decide

namespace InterruptLog

/-! ## Calls -/

/-- A call on the bookkeeping. -/
inductive Call where
  | record (source : InterruptSource) (kind : InterruptKind)
  | take (source : InterruptSource) (kind : InterruptKind)
  | reset
  | isPending (source : InterruptSource) (kind : InterruptKind)
  | pendingErrors
deriving DecidableEq, Repr

/-- What a call returns. -/
inductive Answer where
  | nothing
  | truth (value : Bool)
  | sources (pending : List InterruptSource)
deriving DecidableEq, Repr

/-- Make a call. -/
def call (l : InterruptLog) : Call → Answer × InterruptLog
  | .record source kind => (.nothing, l.record source kind)
  | .take source kind => (.truth (l.take source kind).1, (l.take source kind).2)
  | .reset => (.nothing, l.reset)
  | .isPending source kind => (.truth (l.isPending source kind), l)
  | .pendingErrors => (.sources l.errors, l)

/-- Make calls one after another and collect what they return. -/
def run (l : InterruptLog) : List Call → List Answer × InterruptLog
  | [] => ([], l)
  | c :: cs =>
    let rest := (l.call c).2.run cs
    ((l.call c).1 :: rest.1, rest.2)

/-! ## Histories -/

/-- The calls since the last reset, or all calls if there was none. -/
def sinceReset (history : List Call) : List Call := history.rtakeWhile (· ≠ .reset)

def Call.isRecord : Call → Bool
  | .record .. => true
  | _ => false

/-- An interrupt on the line was noted, and later there was neither a reset nor a take of it. -/
def Raised (history : List Call) (source : InterruptSource) (kind : InterruptKind) : Prop :=
  ∃ earlier later, history = earlier ++ .record source kind :: later ∧
    .reset ∉ later ∧ .take source kind ∉ later

/-- What a call after a history has to return. -/
inductive Answers (history : List Call) : Call → Answer → Prop
  | record (source : InterruptSource) (kind : InterruptKind) :
      Answers history (.record source kind) .nothing
  | take {source : InterruptSource} {kind : InterruptKind} {was : Bool} :
      (was = true ↔ Raised history source kind) → Answers history (.take source kind) (.truth was)
  | reset : Answers history .reset .nothing
  | isPending {source : InterruptSource} {kind : InterruptKind} {is : Bool} :
      (is = true ↔ Raised history source kind) →
      Answers history (.isPending source kind) (.truth is)
  | pendingErrors {sources : List InterruptSource} :
      (∀ source, source ∈ sources ↔ Raised history source .error) → sources.Nodup →
      sources.Sublist InterruptSource.all → Answers history .pendingErrors (.sources sources)

/-- The bookkeeping shows a history. -/
structure Shows (l : InterruptLog) (history : List Call) : Prop where
  pending : ∀ source kind, l.isPending source kind = true ↔ Raised history source kind
  interrupts : l.interrupts.toNat = (sinceReset history).countP Call.isRecord % UInt32.size
  resets : l.resets.toNat = history.count .reset % UInt32.size
  ordered : ∀ kind, (l.pending kind).Sublist InterruptSource.all

variable {l : InterruptLog} {history : List Call} {c : Call}
  {source other : InterruptSource} {kind line : InterruptKind}

theorem not_raised_nil : ¬ Raised [] source kind := by
  rintro ⟨earlier, later, h, -⟩
  simp at h

/-- The last call decides about a line, or it leaves the line as it was. -/
theorem raised_concat : Raised (history ++ [c]) source kind ↔
    c = .record source kind ∨
      Raised history source kind ∧ c ≠ .reset ∧ c ≠ .take source kind := by
  constructor
  · rintro ⟨earlier, later, h, hreset, htake⟩
    -- The interrupt is the last call itself, or the last call is one of those that came later.
    rcases List.eq_nil_or_concat' later with rfl | ⟨later, last, rfl⟩
    · obtain ⟨-, h⟩ := List.append_inj' h rfl
      exact .inl (List.singleton_inj.mp h)
    · rw [← List.cons_append, ← List.append_assoc] at h
      obtain ⟨rfl, hlast⟩ := List.append_inj' h rfl
      obtain rfl := List.singleton_inj.mp hlast
      simp only [List.mem_append, List.mem_singleton, not_or] at hreset htake
      exact .inr ⟨⟨earlier, later, rfl, hreset.1, htake.1⟩, Ne.symm hreset.2, Ne.symm htake.2⟩
  · rintro (rfl | ⟨⟨earlier, later, rfl, hreset, htake⟩, hc, hc'⟩)
    · exact ⟨history, [], rfl, by simp, by simp⟩
    · refine ⟨earlier, later ++ [c], by simp, ?_, ?_⟩
      · simp [hreset, hc.symm]
      · simp [htake, hc'.symm]

theorem sinceReset_concat : sinceReset (history ++ [c]) =
    if c = .reset then [] else sinceReset history ++ [c] := by
  unfold sinceReset
  rw [List.rtakeWhile_concat]
  by_cases h : c = .reset <;> simp [h]

/-! ## One call -/

theorem isPending_iff : l.isPending source kind = true ↔ source ∈ l.pending kind := by
  simp [isPending]

theorem pending_setPending (sources : List InterruptSource) :
    (l.setPending sources kind).pending line = if line = kind then sources else l.pending line := by
  cases kind <;> cases line <;> rfl

theorem counters_setPending (sources : List InterruptSource) :
    (l.setPending sources kind).interrupts = l.interrupts ∧
      (l.setPending sources kind).resets = l.resets := by
  cases kind <;> exact ⟨rfl, rfl⟩

theorem pending_record : (l.record source kind).pending line =
    if line = kind then InterruptSource.all.filter fun s => s = source || s ∈ l.pending kind
    else l.pending line :=
  pending_setPending _

theorem counters_record : (l.record source kind).interrupts = l.interrupts + 1 ∧
    (l.record source kind).resets = l.resets :=
  ⟨rfl, (counters_setPending _).2⟩

theorem pending_take : (l.take source kind).2.pending line =
    if line = kind then (l.pending kind).filter (· ≠ source) else l.pending line :=
  pending_setPending _

theorem counters_take : (l.take source kind).2.interrupts = l.interrupts ∧
    (l.take source kind).2.resets = l.resets :=
  counters_setPending _

theorem pending_reset : l.reset.pending line = [] := by
  cases line <;> rfl

theorem mem_pending_record : other ∈ (l.record source kind).pending line ↔
    source = other ∧ kind = line ∨ other ∈ l.pending line := by
  rw [pending_record]
  by_cases h : line = kind
  · subst h
    simp [InterruptSource.mem_all, eq_comm (a := source)]
  · simp [h, Ne.symm h]

theorem mem_pending_take : other ∈ (l.take source kind).2.pending line ↔
    other ∈ l.pending line ∧ ¬ (source = other ∧ kind = line) := by
  rw [pending_take]
  by_cases h : line = kind
  · subst h
    simp [eq_comm (a := source)]
  · simp [h, Ne.symm h]

theorem ordered_record (h : ∀ kind, (l.pending kind).Sublist InterruptSource.all) :
    ((l.record source kind).pending line).Sublist InterruptSource.all := by
  rw [pending_record]
  split
  · exact List.filter_sublist
  · exact h line

theorem ordered_take (h : ∀ kind, (l.pending kind).Sublist InterruptSource.all) :
    ((l.take source kind).2.pending line).Sublist InterruptSource.all := by
  rw [pending_take]
  split
  · exact List.filter_sublist.trans (h kind)
  · exact h line

/-! ## The step -/

theorem Shows.mem_pending (h : Shows l history) :
    source ∈ l.pending kind ↔ Raised history source kind :=
  isPending_iff.symm.trans (h.pending source kind)

theorem shows_empty : Shows empty [] where
  pending source kind := by
    refine iff_of_false ?_ not_raised_nil
    rw [isPending_iff]
    cases kind <;> simp [empty, pending]
  interrupts := rfl
  resets := rfl
  ordered kind := by
    cases kind <;> exact List.nil_sublist _

/-- A call on bookkeeping that shows a history leaves bookkeeping that shows the call as well. -/
theorem Shows.call (h : Shows l history) (c : Call) : Shows (l.call c).2 (history ++ [c]) := by
  cases c with
  | record source kind =>
    refine ⟨fun other line => ?_, ?_, ?_, fun line => ordered_record h.ordered⟩
    · rw [isPending_iff, raised_concat, ← h.mem_pending]
      simp [InterruptLog.call, mem_pending_record]
    · simp [InterruptLog.call, counters_record, UInt32.toNat_add, h.interrupts, sinceReset_concat,
        Call.isRecord]
    · simp [InterruptLog.call, counters_record, h.resets]
  | take source kind =>
    refine ⟨fun other line => ?_, ?_, ?_, fun line => ordered_take h.ordered⟩
    · rw [isPending_iff, raised_concat, ← h.mem_pending]
      simp [InterruptLog.call, mem_pending_take]
    · simp [InterruptLog.call, counters_take, h.interrupts, sinceReset_concat, Call.isRecord]
    · simp [InterruptLog.call, counters_take, h.resets]
  | reset =>
    refine ⟨fun other line => ?_, ?_, ?_, fun line => ?_⟩
    · rw [isPending_iff, raised_concat]
      simp [InterruptLog.call, pending_reset]
    · simp [InterruptLog.call, InterruptLog.reset, sinceReset_concat]
    · simp [InterruptLog.call, InterruptLog.reset, UInt32.toNat_add, h.resets]
    · simp [InterruptLog.call, pending_reset]
  | isPending | pendingErrors =>
    refine ⟨fun other line => ?_, ?_, ?_, h.ordered⟩
    · rw [isPending_iff, raised_concat, ← h.mem_pending]
      simp [InterruptLog.call]
    · simp [InterruptLog.call, h.interrupts, sinceReset_concat, Call.isRecord]
    · simp [InterruptLog.call, h.resets]

/-- Bookkeeping that shows a history answers as the history tells. -/
theorem Shows.answers (h : Shows l history) (c : Call) : Answers history c (l.call c).1 := by
  cases c with
  | record source kind => exact .record source kind
  | take source kind => exact .take (h.pending source kind)
  | reset => exact .reset
  | isPending source kind => exact .isPending (h.pending source kind)
  | pendingErrors =>
    have hmem (source) : source ∈ l.pending .error ↔ Raised history source .error := h.mem_pending
    have hordered := h.ordered .error
    exact .pendingErrors hmem (InterruptSource.nodup_all.sublist hordered) hordered

/-! ## Runs -/

theorem run_append (l : InterruptLog) (earlier later : List Call) :
    l.run (earlier ++ later) = ((l.run earlier).1 ++ ((l.run earlier).2.run later).1,
      ((l.run earlier).2.run later).2) := by
  induction earlier generalizing l with
  | nil => rfl
  | cons c cs ih => simp [run, ih]

theorem length_run (l : InterruptLog) (calls : List Call) :
    (l.run calls).1.length = calls.length := by
  induction calls generalizing l with
  | nil => rfl
  | cons c cs ih => simp [run, ih]

theorem shows_run (calls : List Call) : Shows (empty.run calls).2 calls := by
  -- A history grows at its end, so the induction takes the last call off.
  induction calls using List.reverseRecOn with
  | nil => exact shows_empty
  | append_singleton calls c ih =>
    rw [run_append]
    exact ih.call c

/-- The answer to a call stands in the place of the call. -/
theorem getElem?_run (l : InterruptLog) (earlier later : List Call) (c : Call) :
    (l.run (earlier ++ c :: later)).1[earlier.length]? =
      some ((l.run earlier).2.call c).1 := by
  rw [run_append, List.getElem?_append_right (Nat.le_of_eq (l.length_run earlier)), length_run,
    Nat.sub_self]
  rfl

/-- At any point of any sequence of calls on fresh bookkeeping, what is kept and what the next call
returns are fixed by the calls made so far: a line is pending if it was raised and not lowered
since, and the pending errors are listed in order and once each. To take a line lowers it and
changes nothing else. -/
theorem run_shows_history (earlier later : List Call) (c : Call) :
    let l := (empty.run earlier).2
    Shows l earlier ∧
      (∃ a, (empty.run (earlier ++ c :: later)).1[earlier.length]? = some a ∧
        Answers earlier c a) ∧
      ∀ source kind, (l.take source kind).1 = l.isPending source kind ∧
        (∀ other line, (l.take source kind).2.isPending other line = true ↔
          l.isPending other line = true ∧ ¬ (source = other ∧ kind = line)) ∧
        (l.take source kind).2.interrupts = l.interrupts ∧
        (l.take source kind).2.resets = l.resets := by
  intro l
  have hshows := shows_run earlier
  refine ⟨hshows, ⟨_, getElem?_run empty earlier later c, hshows.answers c⟩, ?_⟩
  intro source kind
  refine ⟨rfl, fun other line => ?_, counters_take⟩
  rw [isPending_iff, isPending_iff, mem_pending_take]

/-- A line noted twice is pending once, and its source is listed in its own place. -/
example : (empty.run [.record .uart .error, .record .doe .error, .record .uart .error,
    .pendingErrors, .take .uart .error, .take .uart .error, .pendingErrors]).1 =
      [.nothing, .nothing, .nothing, .sources [.doe, .uart], .truth true, .truth false,
        .sources [.doe]] := by
  decide

end InterruptLog

/-! ## Harness runs -/

namespace Harness

open InterruptLog

/-- The calls that a step makes on the bookkeeping. -/
def calls : HarnessStep → List Call
  | .interrupt source kind times => List.replicate times (.record source kind)
  | .isPending source kind => [.isPending source kind]
  | .take source kind => [.take source kind]
  | .reset => [.reset]
  | .save | .equalsSaved => []

/-- The harness after steps. -/
def after (h : Harness) (steps : List HarnessStep) : Harness :=
  steps.foldl (fun h s => (h.step s).2) h

theorem log_recordTimes (source : InterruptSource) (kind : InterruptKind) (times : Nat)
    (l : InterruptLog) (events : List Event) :
    (recordTimes source kind times l events).1 =
      (l.run (List.replicate times (.record source kind))).2 := by
  induction times generalizing l events with
  | zero => rfl
  | succ n ih => exact ih _ _

theorem log_step (h : Harness) (s : HarnessStep) : (h.step s).2.log = (h.log.run (calls s)).2 := by
  cases s with
  | interrupt source kind times => exact log_recordTimes source kind times h.log []
  | isPending | take | reset | save | equalsSaved => rfl

theorem log_after (h : Harness) (steps : List HarnessStep) :
    (h.after steps).log = (h.log.run (steps.flatMap calls)).2 := by
  induction steps generalizing h with
  | nil => rfl
  | cons s steps ih =>
    rw [List.flatMap_cons, run_append, ← log_step]
    exact ih (h.step s).2

/-- A harness keeps what the calls of its steps amount to; its saved copy plays no part in it. -/
theorem shows_after (steps : List HarnessStep) :
    Shows (fresh.after steps).log (steps.flatMap calls) := by
  rw [log_after]
  exact shows_run _

end Harness

end I3CHost
