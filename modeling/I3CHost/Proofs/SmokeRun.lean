import I3CHost.Proofs.ReadOnlyBits
import I3CHost.Proofs.SmokeContents

/-!
# The smoke sequence over the controller model

The registers of a model hold what software has put there, and the sequence passes all the same. It
looks at read-only bits, which are what they were out of reset as long as nobody goes behind the
masks, and at bits that it has stored itself. The one run that is evaluated is the run out of reset.

The last check is about the interrupt bookkeeping and fails if an error is pending; no other check
can fail.
-/
namespace I3CHost.Smoke

/-! ## With the standard tables -/

theorem layout_standard (window : Address) :
    (Controller.standard window).layout = TableLayout.standard := by
  funext kind
  cases kind <;> rfl

/-- The sequence needs the window up to the end of the DCT entry it writes. -/
theorem possible_standard {window : Address} (hw : window.toNat % 4 = 0) (hend : 0x840 ≤ window) :
    ∀ s ∈ script, s.Possible TableLayout.standard window := by
  have hleast : ∀ s ∈ script, s.Possible TableLayout.standard 0x840 := by decide +kernel
  exact fun s hs => (hleast s hs).mono hend hw

/-! ## Out of reset -/

def freshMasks : Contents := fun k => (Model.freshCell Model.controllerRegisters k).writable

def freshWords : Contents := fun k => (Model.freshCell Model.controllerRegisters k).reset

/-- The bits of the least window that software cannot write. -/
def readOnly : Contents := fun k => if 4 * k < 0x840 then ~~~freshMasks k else 0

/-- The sequence looks at read-only bits and at what it has stored itself. -/
theorem covered_script : Covered TableLayout.standard freshMasks readOnly script := by
  decide +kernel

def freshChecks : List Check := checksOf TableLayout.standard freshMasks freshWords script

theorem freshChecks_pass : freshChecks.length = 18 ∧ ∀ c ∈ freshChecks, c.passed = true := by
  decide +kernel

theorem failures_append {cs : List Check} (h : ∀ c ∈ cs, c.passed = true) (l : InterruptLog) :
    Report.failures ⟨cs ++ [interruptCheck l]⟩ =
      if l.isPending .i3c .error then [interruptCheck l] else [] := by
  have hpassed : cs.filter (fun c => !c.passed) = [] := by
    rw [List.filter_eq_nil_iff]
    intro c hc
    rw [h c hc]
    exact Bool.false_ne_true
  have hlast : (interruptCheck l).passed = !l.isPending .i3c .error := by
    rw [interruptCheck]
    cases l.isPending .i3c .error <;> rfl
  rw [Report.failures, List.filter_append, hpassed, List.nil_append, List.filter_singleton, hlast]
  cases l.isPending .i3c .error <;> rfl

/-- Only the last check can fail. -/
theorem failures_passed (l : InterruptLog) :
    let r : Report := ⟨freshChecks ++ [interruptCheck l]⟩
    r.checks.length = 19 ∧ r.checks.getLast? = some (interruptCheck l) ∧
      r.failures = if l.isPending .i3c .error then [interruptCheck l] else [] := by
  refine ⟨?_, List.getLast?_concat, failures_append freshChecks_pass.2 l⟩
  rw [List.length_append, freshChecks_pass.1]
  rfl

/-! ## After any use -/

section
variable {size : Address} {as : List Model.Action}

theorem size_reachable (size : Address) (as : List Model.Action) :
    ((Model.controller size).acts as).size.toNat = 4 * (size.toNat / 4) := by
  have hlt := size.toNat_lt_size
  rw [Model.size, Model.size_cells_acts, Model.size_cells_controller, UInt64.toNat_ofNat']
  simp only [UInt64.size] at hlt
  omega

theorem agree_reachable (hsize : 0x840 ≤ size.toNat) (has : ∀ a ∈ as, ¬ a.Tampers) (k : Nat) :
    Word.AgreeOn (readOnly k) (((Model.controller size).acts as).wordAt k) (freshWords k) := by
  unfold readOnly
  split
  · exact (Model.fresh_outside_mask size has (by omega)).2
  · simp only [Word.AgreeOn, UInt32.and_zero]

theorem run_reachable (hsize : 0x840 ≤ size.toNat) (has : ∀ a ∈ as, ¬ a.Tampers)
    (l : InterruptLog) :
    let m := (Model.controller size).acts as
    let o := (run (.standard m.size) l).run Model.responder m
    o.result = .ok ⟨freshChecks ++ [interruptCheck l]⟩ ∧
      o.state.wordAt = afterSteps TableLayout.standard freshMasks m.wordAt script := by
  intro m o
  have hm : m.size.toNat = 4 * (size.toNat / 4) := size_reachable size as
  have hleast : (0x840 : Address) ≤ m.size := by
    rw [UInt64.le_iff_toNat_le, hm, show (0x840 : Address).toNat = 0x840 from rfl]
    omega
  have hchecks : checksOf TableLayout.standard freshMasks m.wordAt script = freshChecks :=
    checksOf_congr covered_script (agree_reachable hsize has)
  have hgives : (run (.standard m.size) l).Gives m.size freshMasks m.wordAt _ _ :=
    gives_run (layout_standard m.size ▸ possible_standard m.size_mod_four hleast) l
  rw [layout_standard, hchecks] at hgives
  have hmasks (k : Nat) (hk : 4 * k + 4 ≤ m.size.toNat) : m.maskAt k = freshMasks k :=
    (Model.fresh_outside_mask size has (by omega)).1
  obtain ⟨hresult, -, hwords⟩ :=
    (Model.window freshMasks).run hgives (s := m) rfl ⟨hmasks, rfl⟩
  exact ⟨hresult, hwords⟩

/-- The run is one more action, so what it leaves is reachable as well. -/
theorem state_run (size : Address) (as : List Model.Action) (l : InterruptLog) :
    let m := (Model.controller size).acts as
    let c := Controller.standard m.size
    ((run c l).run Model.responder m).state =
      (Model.controller size).acts (as ++ [.access (.smoke c l)]) := by
  intro m c
  have hprogram : (Access.smoke c l).program = (run c l).bind fun r => .done (.report r) := rfl
  rw [Model.acts_append, Model.act, hprogram, Bus.run_bind, Outcome.andThen]
  cases ((run c l).run Model.responder m).result <;> rfl

end

/-! ## What is left -/

def changed : List Nat :=
  [Model.index Register.hcControl, Model.index Register.controllerDeviceAddr,
    Model.index Register.pioControl, TableLayout.dat.start 0 / 4] ++
  List.range' (TableLayout.dat.start datTestIndex.toNat / 4) datTestWords.length ++
  List.range' (TableLayout.dct.start dctTestIndex.toNat / 4) dctTestWords.length

/-- What the sequence leaves of contents. -/
structure Leaves (ws ws' : Contents) : Prop where
  control : let k := Model.index Register.hcControl
    ws' k = ws k ||| 0x80000000
  address : ws' (Model.index Register.controllerDeviceAddr) = 0x805F0000
  pio : ws' (Model.index Register.pioControl) = 7
  datWords : (ws'.slice (TableLayout.dat.start datTestIndex.toNat / 4) 2).toList = datTestWords
  datFields : let k := TableLayout.dat.start 0 / 4
    ws' k = DatField.devNackRetryCnt.set (DatField.dynamicAddress.set
      (DatField.staticAddress.set (ws k) testStaticAddr) testAddr) testRetryCount
  dctWords : (ws'.slice (TableLayout.dct.start dctTestIndex.toNat / 4) 4).toList = dctTestWords
  others (k : Nat) : k ∉ changed → ws' k = ws k

theorem leaves_script {ws : Contents} (h : ∀ k, Word.AgreeOn (readOnly k) (ws k) (freshWords k)) :
    Leaves ws (afterSteps TableLayout.standard freshMasks ws script) := by
  have hword (k : Nat) (v bits : Word)
      (hp : patchOf TableLayout.standard freshMasks script k = ⟨v, bits⟩) :
      afterSteps TableLayout.standard freshMasks ws script k = (ws k).merge v bits := by
    rw [afterSteps_eq, hp, Patch.apply]
  have hfull (k : Nat) (v : Word)
      (hp : patchOf TableLayout.standard freshMasks script k = ⟨v, Word.ones⟩) :
      afterSteps TableLayout.standard freshMasks ws script k = v := by
    rw [hword k v Word.ones hp, Word.merge_ones]
  constructor
  case control =>
    exact (hword 1 0x80000000 0x80000000 (by decide +kernel)).trans (Word.merge_mask ..)
  case address =>
    refine (hword 2 0x805F0000 0x807F0000 (by decide +kernel)).trans (Word.merge_eq rfl ?_)
    exact h 2
  case pio =>
    refine (hword 44 7 7 (by decide +kernel)).trans (Word.merge_eq rfl ?_)
    exact h 44
  case datWords =>
    have h0 := hfull 266 0xDEADBEEF (by decide +kernel)
    have h1 := hfull 267 0xABCD9876 (by decide +kernel)
    exact congrArg₂ (fun a b => [a, b]) h0 h1
  case datFields =>
    have hfields := hword 256 0x405F0050 0x60FF007F (by decide +kernel)
    refine hfields.trans ?_
    simp only [Field.set, Field.inject, Word.merge_merge]
    rfl
  case dctWords =>
    have h0 := hfull 524 0x01234567 (by decide +kernel)
    have h1 := hfull 525 0x000089AB (by decide +kernel)
    have h2 := hfull 526 0x000027C6 (by decide +kernel)
    have h3 := hfull 527 0x00000009 (by decide +kernel)
    exact congrArg₂ (fun a b => a ++ b) (congrArg₂ (fun a b => [a, b]) h0 h1)
      (congrArg₂ (fun a b => [a, b]) h2 h3)
  case others =>
    intro k hk
    have hchanges : ∀ j ∈ script.flatMap (Step.changes TableLayout.standard), j = 0 ∨ j ∈ changed :=
      by decide +kernel
    by_cases h0 : k = 0
    · -- The store to the version register is let in nowhere.
      rw [h0]
      exact (hword 0 0 0 (by decide +kernel)).trans (Word.merge_none ..)
    · exact afterSteps_other fun hmem => (hchanges k hmem).elim h0 hk

/-- Over a controller that was used in any way but behind its masks, in a window that holds the
entries the sequence writes, the sequence ends with a report of 19 checks. All of them pass if no
error is pending, else the last one alone fails. A second run reports the same and changes no
word. -/
theorem run_passes (size : Address) (hsize : 0x840 ≤ size.toNat) (as : List Model.Action)
    (has : ∀ a ∈ as, ¬ a.Tampers) (l : InterruptLog) :
    let m := (Model.controller size).acts as
    let o := (run (.standard m.size) l).run Model.responder m
    let again := (run (.standard m.size) l).run Model.responder o.state
    (∃ r, o.result = .ok r ∧ r.checks.length = 19 ∧ r.checks.getLast? = some (interruptCheck l) ∧
        r.failures = if l.isPending .i3c .error then [interruptCheck l] else []) ∧
      Leaves m.wordAt o.state.wordAt ∧
      again.result = o.result ∧ again.state.values = o.state.values := by
  intro m o again
  obtain ⟨hresult, hwords⟩ := run_reachable hsize has l
  -- The second run starts from a state that one more action reaches.
  have has' : ∀ a ∈ as ++ [.access (.smoke (.standard m.size) l)], ¬ a.Tampers := by
    intro a ha
    rcases List.mem_append.mp ha with ha | ha
    · exact has a ha
    · rw [List.mem_singleton.mp ha]
      exact id
  obtain ⟨hresult', hwords'⟩ := run_reachable hsize has' l
  have hstate : o.state = (Model.controller size).acts _ := state_run size as l
  have hwindow : o.state.size = m.size :=
    Model.size_congr (Model.size_cells_run (run (.standard m.size) l) m)
  rw [← hstate, hwindow] at hresult' hwords'
  refine ⟨⟨_, hresult, failures_passed l⟩, ?_, hresult'.trans hresult.symm, ?_⟩
  · have hleaves := leaves_script (agree_reachable hsize has)
    rwa [← hwords] at hleaves
  · apply Model.values_eq (Model.size_cells_run _ o.state)
    rw [hwords', hwords, afterSteps_again]

/-- Software has set all it can of the control register, reset the model, put something into DAT
entry 0 and run the sequence before. -/
def usedActions : List Model.Action :=
  [.access (.store 0x4 0xFFFFFFFF), .reset, .access (.store 0x400 0xFFFFFFFF),
    .access (.smoke (.standard 0x840) .empty)]

/-- An error is pending, and the window ends in half a word. -/
theorem run_passes_used :
    let m := (Model.controller 0x842).acts usedActions
    let o := (run (.standard m.size) (InterruptLog.empty.record .i3c .error)).run Model.responder m
    (∃ r, o.result = .ok r ∧ r.failures = [⟨"I3C error interrupt", 0, 1⟩]) ∧
      o.state.wordAt (Model.index Register.controllerDeviceAddr) = 0x805F0000 := by
  have has : ∀ a ∈ usedActions, ¬ a.Tampers := by
    simp only [usedActions, List.mem_cons, List.not_mem_nil, or_false]
    rintro a (rfl | rfl | rfl | rfl) <;> exact id
  have hpassed :=
    run_passes 0x842 (by decide) usedActions has (InterruptLog.empty.record .i3c .error)
  obtain ⟨r, hresult, -, -, hfailures⟩ := hpassed.1
  exact ⟨⟨r, hresult, hfailures⟩, hpassed.2.1.address⟩

end I3CHost.Smoke
