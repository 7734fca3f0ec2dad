import I3CHost.Proofs.Acceptance
import I3CHost.Proofs.CommandEffects
import I3CHost.Proofs.FieldLaws
import I3CHost.Proofs.SmokeRun

/-!
# The smoke sequence over a mapped file

A file takes every bit that is stored and keeps it, so the sequence finds there what it has put
there, whatever the file held before. That is wrong for the two registers whose bits a controller
protects, and right for all others. Only the buffer sizes are compared without a store before, and
no step stores to their word, so these two checks look at two bytes of the file as it was.

The steps before and after these two look at nothing but what the sequence itself has stored. Their
checks are the same over every file, and a file of zeros is one that can be evaluated.
-/
namespace I3CHost

/-! ## Bytes of a word -/

namespace Word

theorem testBit_byte (b : UInt8) {k : Nat} (hk : 8 ≤ k) : b.toNat.testBit k = false := by
  apply Nat.testBit_lt_two_pow
  exact Nat.lt_of_lt_of_le b.toNat_lt (Nat.pow_le_pow_right (by decide) hk)

theorem bit_byte_up (b : UInt8) {s : Word} (hs : s.toNat ≤ 24) (k : Nat) :
    bit (b.toUInt32 <<< s) k = (decide (s.toNat ≤ k) && b.toNat.testBit (k - s.toNat)) := by
  have hmod : s.toNat % 32 = s.toNat := Nat.mod_eq_of_lt (by omega)
  simp only [bit, UInt32.toNat_shiftLeft, UInt8.toNat_toUInt32, Nat.testBit_mod_two_pow,
    Nat.testBit_shiftLeft, hmod]
  by_cases hk : k < 32
  · simp [hk]
  · simp [testBit_byte b (show 8 ≤ k - s.toNat by omega)]

variable (b0 b1 b2 b3 : UInt8)

theorem bit_ofBytes (k : Nat) : (ofBytes b0 b1 b2 b3).bit k =
    (b0.toNat.testBit k || (decide (8 ≤ k) && b1.toNat.testBit (k - 8)) ||
      (decide (16 ≤ k) && b2.toNat.testBit (k - 16)) ||
      (decide (24 ≤ k) && b3.toNat.testBit (k - 24))) := by
  rw [ofBytes, bit_or, bit_or, bit_or, bit_byte_up b1 (by decide), bit_byte_up b2 (by decide),
    bit_byte_up b3 (by decide)]
  rfl

/-- A field over byte `b` has that byte for its value, whatever the other bytes are. -/
theorem get_of_byte {f : Field} {w : Word} {b : UInt8}
    (hw : ∀ k < 8, w.bit (f.shift + k) = b.toNat.testBit k)
    (hmask : ∀ k < 32, f.mask.bit (f.shift + k) = decide (k < 8)) : f.get w = b.toUInt32 := by
  apply ext_bit
  intro k
  rw [Field.bit_get, show bit b.toUInt32 k = b.toNat.testBit k from rfl]
  by_cases hk : k < 8
  · rw [hw k hk, hmask k (by omega), decide_eq_true hk, Bool.and_true]
  · have hout : f.mask.bit (f.shift + k) = false := by
      by_cases hlt : k < 32
      · rw [hmask k hlt, decide_eq_false hk]
      · exact bit_of_le _ (by omega)
    rw [hout, Bool.and_false, testBit_byte b (by omega)]

/-- The transmit buffer size is the last byte of its word. -/
theorem txDataBufferSize_ofBytes :
    QueueSize.txDataBufferSize.get (ofBytes b0 b1 b2 b3) = b3.toUInt32 := by
  refine get_of_byte (fun k hk => ?_) (by decide)
  change bit _ (24 + k) = _
  rw [bit_ofBytes, testBit_byte b0 (by omega), testBit_byte b1 (by omega),
    testBit_byte b2 (by omega), Nat.add_sub_cancel_left]
  simp

/-- The receive buffer size is the third byte of its word. -/
theorem rxDataBufferSize_ofBytes :
    QueueSize.rxDataBufferSize.get (ofBytes b0 b1 b2 b3) = b2.toUInt32 := by
  refine get_of_byte (fun k hk => ?_) (by decide)
  change bit _ (16 + k) = _
  rw [bit_ofBytes, testBit_byte b0 (by omega), testBit_byte b1 (by omega),
    decide_eq_false (show ¬ 24 ≤ 16 + k by omega), Nat.add_sub_cancel_left]
  simp

end Word

/-! ## Targets that are mappings or models -/

/-- A responder that does to a part of its state what another does to all of its own. -/
theorem Bus.run_lift {α σ τ : Type} {r : Responder σ} {q : Responder τ} (f : σ → τ)
    (hload : ∀ o s, q.load o (f s) =
      ⟨(r.load o s).result, f (r.load o s).state, (r.load o s).events⟩)
    (hstore : ∀ o v s, q.store o v (f s) =
      ⟨(r.store o v s).result, f (r.store o v s).state, (r.store o v s).events⟩)
    (p : Bus α) (s : σ) : p.run q (f s) =
      ⟨(p.run r s).result, f (p.run r s).state, (p.run r s).transactions, (p.run r s).events⟩ := by
  induction p generalizing s with
  | done a => rfl
  | stop e => rfl
  | load o next ih =>
      simp only [run, hload]
      cases (r.load o s).result with
      | error e => rfl
      | ok w => simp only [ih, Outcome.after]
  | store o v next ih =>
      simp only [run, hstore]
      cases (r.store o v s).result with
      | error e => rfl
      | ok u => simp only [ih, Outcome.after]
  | note e next ih => simp only [run, ih]

namespace Target

variable {α : Type} (p : Bus α) (t : DeviceTree)

theorem result_run_mapping (mp : Mapping) :
    (p.run responder (mapping mp, t)).result = (p.run Mapping.responder (mp, t)).result :=
  congrArg Outcome.result
    (Bus.run_lift (fun s : Mapping × DeviceTree => (mapping s.1, s.2)) (fun _ _ => rfl)
      (fun _ _ _ => rfl) p (mp, t))

theorem result_run_model (m : Model) :
    (p.run responder (model m, t)).result = (p.run Model.responder m).result :=
  congrArg Outcome.result
    (Bus.run_lift (fun m : Model => (model m, t)) (fun _ _ => rfl) (fun _ _ _ => rfl) p m)

end Target

namespace Smoke

/-! ## The script in three parts -/

section
variable {layout : TableKind → TableLayout} {mask : Contents}

theorem checksOf_append (ws : Contents) (a b : List Step) :
    checksOf layout mask ws (a ++ b) =
      checksOf layout mask ws a ++ checksOf layout mask (afterSteps layout mask ws a) b := by
  induction a generalizing ws with
  | nil => rfl
  | cons s a ih =>
      rw [List.cons_append, checksOf, checksOf, ih, List.append_assoc]
      rfl

end

/-- Up to the test values of the device address. -/
def firstSteps : List Step := script.take 10

/-- From the PIO control register on. -/
def lastSteps : List Step := script.drop 12

def txStep : Step :=
  .expectField "QUEUE_SIZE.TX_DATA_BUFFER_SIZE" bufferSizeAtReset Register.queueSize
    QueueSize.txDataBufferSize

def rxStep : Step :=
  .expectField "QUEUE_SIZE.RX_DATA_BUFFER_SIZE" bufferSizeAtReset Register.queueSize
    QueueSize.rxDataBufferSize

theorem script_eq : script = firstSteps ++ txStep :: rxStep :: lastSteps := rfl

/-- Every bit can be written. -/
def allBits : Contents := fun _ => Word.ones

def zeros : Contents := fun _ => 0

/-- Steps that look only at what they have stored check the same over all contents. -/
theorem checksOf_eq_zeros {steps : List Step}
    (hc : Covered TableLayout.standard allBits zeros steps) (ws : Contents) :
    checksOf TableLayout.standard allBits ws steps =
      checksOf TableLayout.standard allBits zeros steps :=
  checksOf_congr hc fun _ => by rw [Word.AgreeOn, zeros, UInt32.and_zero, UInt32.and_zero]

/-- The checks that fail, if these are the buffer sizes in the file: of the two registers that are
read-only in a controller the values stored, and of the sizes those that are not as after reset. -/
def fileFailures (tx rx : UInt8) : List Check :=
  [⟨"HCI_VERSION", ResetValue.hciVersion, 0⟩] ++
    (if tx = 5 then [] else [⟨"QUEUE_SIZE.TX_DATA_BUFFER_SIZE", 5, tx.toUInt32⟩]) ++
    (if rx = 5 then [] else [⟨"QUEUE_SIZE.RX_DATA_BUFFER_SIZE", 5, rx.toUInt32⟩]) ++
    [⟨"PIO_CONTROL", pioControlEnabled, Word.ones⟩]

/-- The check of a buffer size fails unless its byte is the value after reset. -/
theorem failures_bufferSize (name : String) (b : UInt8) :
    [(⟨name, bufferSizeAtReset, b.toUInt32⟩ : Check)].filter (fun c => !c.passed) =
      if b = 5 then [] else [⟨name, 5, b.toUInt32⟩] := by
  by_cases h : b = 5
  · rw [h]
    rfl
  · have hne : b.toUInt32 ≠ 5 := fun hb => h (UInt8.toNat_inj.mp (congrArg UInt32.toNat hb))
    rw [if_neg h, List.filter_cons_of_pos]
    · rfl
    · simpa [Check.passed, bufferSizeAtReset] using hne.symm

theorem failures_checksOf {ws : Contents} {b0 b1 rx tx : UInt8}
    (hws : ws (Model.index Register.queueSize) = Word.ofBytes b0 b1 rx tx) :
    (checksOf TableLayout.standard allBits ws script).filter (fun c => !c.passed) =
      fileFailures tx rx := by
  let between := afterSteps TableLayout.standard allBits ws firstSteps
  have hfirst : (checksOf TableLayout.standard allBits ws firstSteps).filter
      (fun c => !c.passed) = [⟨"HCI_VERSION", ResetValue.hciVersion, 0⟩] := by
    rw [checksOf_eq_zeros (by decide +kernel)]
    decide +kernel
  have hlast : (checksOf TableLayout.standard allBits between lastSteps).filter
      (fun c => !c.passed) = [⟨"PIO_CONTROL", pioControlEnabled, Word.ones⟩] := by
    rw [checksOf_eq_zeros (by decide +kernel)]
    decide +kernel
  -- No step before the comparison stores to the word of the sizes.
  have hkept : between (Model.index Register.queueSize) = Word.ofBytes b0 b1 rx tx :=
    (afterSteps_other (by decide +kernel)).trans hws
  have htx : txStep.checks TableLayout.standard between =
      [⟨"QUEUE_SIZE.TX_DATA_BUFFER_SIZE", bufferSizeAtReset, tx.toUInt32⟩] := by
    rw [← Word.txDataBufferSize_ofBytes b0 b1 rx tx, ← hkept]
    rfl
  have hrx : rxStep.checks TableLayout.standard between =
      [⟨"QUEUE_SIZE.RX_DATA_BUFFER_SIZE", bufferSizeAtReset, rx.toUInt32⟩] := by
    rw [← Word.rxDataBufferSize_ofBytes b0 b1 rx tx, ← hkept]
    rfl
  have hchecks : checksOf TableLayout.standard allBits between (txStep :: rxStep :: lastSteps) =
      txStep.checks TableLayout.standard between ++
        (rxStep.checks TableLayout.standard between ++
          checksOf TableLayout.standard allBits between lastSteps) := by
    rw [checksOf, checksOf, after_of_changes_nil (s := txStep) rfl,
      after_of_changes_nil (s := rxStep) rfl]
  rw [script_eq, checksOf_append, hchecks, htx, hrx]
  simp only [List.filter_append, hfirst, hlast, failures_bufferSize, fileFailures,
    List.append_assoc]

/-! ## Over a file -/

variable {t : DeviceTree} {mp : Mapping} {place : Place} {c : Controller} {s : Settings}

/-- Accepted settings with the standard tables make the standard controller, over a window that
holds the entries the sequence writes. -/
theorem standard_of_accepted {size : Address} (hdat : s.dat = .dat) (hdct : s.dct = .dct)
    (hc : Controller.ofSettings size s = .ok c) :
    c = .standard size ∧ 0x1000 ≤ size.toNat := by
  obtain ⟨-, hfits, rfl⟩ := (Controller.ofSettings_eq_ok_iff size s c).mp hc
  have hend := hfits .dct
  rw [show s.layout .dct = .dct from hdct] at hend
  rw [hdat, hdct]
  exact ⟨rfl, hend⟩

theorem run_over_file (hfits : mp.Fits place t) (hw : mp.size.toNat % 4 = 0)
    (hsize : 0x1000 ≤ mp.size.toNat) {l : InterruptLog} (hl : l.isPending .i3c .error = false) :
    ∃ tx rx r, (t.bytes place)[mp.base.toNat + 0x9B]? = some tx ∧
      (t.bytes place)[mp.base.toNat + 0x9A]? = some rx ∧
      ((run (.standard mp.size) l).run Mapping.responder (mp, t)).result = .ok r ∧
      r.failures = fileFailures tx rx := by
  have hend := hfits.finish
  have hbyte (k : Nat) (hk : k < 0x1000) : ∃ b, (t.bytes place)[mp.base.toNat + k]? = some b :=
    ⟨_, Array.getElem?_eq_getElem (by omega)⟩
  obtain ⟨b0, h0⟩ := hbyte 0x98 (by decide)
  obtain ⟨b1, h1⟩ := hbyte 0x99 (by decide)
  obtain ⟨rx, hrx⟩ := hbyte 0x9A (by decide)
  obtain ⟨tx, htx⟩ := hbyte 0x9B (by decide)
  let ws : Contents := fun k => Mapping.wordAt (t.bytes place) (mp.base.toNat + 4 * k)
  have hsizes : ws (Model.index Register.queueSize) = Word.ofBytes b0 b1 rx tx := by
    change Mapping.wordAt (t.bytes place) (mp.base.toNat + 0x98) = _
    rw [Mapping.wordAt]
    simp only [Nat.add_assoc, Nat.reduceAdd, h0, h1, hrx, htx, Option.getD_some]
  have hgives : (run (.standard mp.size) l).Gives mp.size allBits ws _ _ :=
    gives_run (layout_standard mp.size ▸ possible_standard hw
      (UInt64.le_iff_toNat_le.mpr (Nat.le_trans (by decide) hsize))) l
  obtain ⟨hresult, -⟩ := (Mapping.window place).run hgives rfl (s := (mp, t))
    ⟨hfits, fun _ _ => rfl⟩
  refine ⟨tx, rx, _, htx, hrx, hresult, ?_⟩
  have hpassed : (interruptCheck l).passed = true := by
    rw [interruptCheck, hl]
    rfl
  rw [layout_standard, Report.failures, List.filter_append, failures_checksOf hsizes,
    List.filter_singleton, hpassed]
  exact List.append_nil _

/-! ## Over a model out of reset -/

theorem run_over_model {size : Address} (hsize : 0x840 ≤ size.toNat) {l : InterruptLog}
    (hl : l.isPending .i3c .error = false) :
    let m := Model.controller size
    ∃ r, ((run (.standard m.size) l).run Model.responder m).result = .ok r ∧ r.failures = [] := by
  intro m
  have huntouched : ∀ a ∈ ([] : List Model.Action), ¬ a.Tampers := fun a ha => by cases ha
  have hresult := (run_reachable hsize huntouched l).1
  rw [Model.acts, List.foldl_nil] at hresult
  refine ⟨_, hresult, ?_⟩
  rw [failures_append freshChecks_pass.2, hl]
  exact if_neg Bool.false_ne_true

end Smoke

/-! ## As a command -/

namespace CommandLine

open Smoke (fileFailures)

variable {args : List String} {env : Environment} {tree : DeviceTree} {i : Invocation}
  {s : Settings} {target : Target} {c : Controller}

/-- A command line whose window opens ends as its work does. -/
theorem run_of_select (w : Wording) (hi : Invocation.ofArguments args = .ok i)
    (hs : i.settings env = .ok s)
    (hselect : (Target.select tree s i.selection).result = .ok target) :
    (run w args env tree).code = (i.work tree s target).code ∧
      (run w args env tree).stderr = (i.work tree s target).stderr := by
  simp only [run, hi, Invocation.exit, hs, hselect, Invocation.onTarget, Exit.code_between,
    Exit.stderr_between, and_self]

theorem select_mapping (hsoftware : i.software = false) {mp : Mapping}
    (hopen : (Mapping.openAt tree s.devicePath s.baseAddress s.windowSize).result = .ok mp) :
    (Target.select tree s i.selection).result = .ok (.mapping mp) := by
  rw [Invocation.selection, hsoftware]
  exact Logged.bind_eq_ok_iff.mpr ⟨mp, hopen, rfl⟩

/-- Settings that are refused are no panic. -/
theorem work_of_refused {e : Fault} (hc : Controller.ofSettings target.size s = .error e) :
    (i.work tree s target).code = 1 := by
  have hinvalid : ∃ why, e = .invalidSettings why := by
    unfold Controller.ofSettings at hc
    have hcheck := Settings.check_eq_of_firstBroken s
    cases hs : s.check with
    | error f =>
        rw [hs] at hc hcheck
        cases hc
        split at hcheck
        · cases hcheck
        · obtain ⟨why, -, he⟩ := hcheck
          exact ⟨why, Except.error.inj he⟩
    | ok u =>
        rw [hs] at hc
        cases hfits : (Controller.mk target.size s.dat s.dct).checkFits with
        | error f =>
            simp only [bind, Except.bind, hfits] at hc
            cases hc
            exact (Controller.checkFits_eq_error hfits).2
        | ok u =>
            simp only [bind, Except.bind, hfits] at hc
            cases hc
  obtain ⟨why, rfl⟩ := hinvalid
  rw [Invocation.work, hc]
  rfl

/-- The command fails with the number of failed checks, if there are any. -/
theorem work_smoke (hi : i.command = .smoke) (hc : Controller.ofSettings target.size s = .ok c)
    {r : Report}
    (hr : ((Smoke.run c .empty).run Target.responder (target, tree)).result = .ok r) :
    let e := i.work tree s target
    (r.failures = [] → e.code = 0) ∧
      (r.failures ≠ [] → e.code = 1 ∧
        e.stderr = s!"Error: {r.failures.length} smoke check(s) failed\n") := by
  intro e
  let failure := if r.isSuccess then none else some (Failure.mk s!"{r.failed} smoke check(s) failed" none)
  have hresult : (((Smoke.run c .empty).bind printReport).run Target.responder
      (target, tree)).result = .ok failure := (Bus.run_bind_of_ok hr).1
  have he : e.code = (Exit.ofFailure tree failure).code ∧
      e.stderr = (Exit.ofFailure tree failure).stderr := by
    simp only [e, Invocation.work, hc, hi, Command.program, Bus.bind_eq, hresult, Exit.code_between,
      Exit.stderr_between]
    cases failure <;> exact ⟨rfl, rfl⟩
  rw [he.1, he.2]
  constructor
  · intro hnone
    have hfailure : failure = none := by
      simp [failure, Report.isSuccess, Report.failed, hnone]
    rw [hfailure]
    rfl
  · intro hsome
    have hfailure : failure = some ⟨s!"{r.failures.length} smoke check(s) failed", none⟩ := by
      simp [failure, Report.isSuccess, Report.failed, hsome]
    rw [hfailure]
    refine ⟨rfl, ?_⟩
    simp only [Exit.ofFailure, Failure.text, toString, String.append_assoc]
    rfl

/-- Over a plain file, all of whose bytes have addresses, the sequence comes to its end and fails at
the two registers that a controller protects, and at a buffer size exactly if its byte in the file
is not the value after reset. So the command over a mapped file always fails, and with that many
failed checks if the settings are accepted. Over a model it succeeds whenever they are. -/
theorem smoke_over_files :
    (∀ {t : DeviceTree} {path : String} {base size : Address} {mp : Mapping} {place : Place}
        {s : Settings} {c : Controller} {l : InterruptLog},
      (Mapping.openAt t path base size).result = .ok mp → mp.backing = .file place →
      (t.bytes place).size < Address.last.toNat → s.dat = .dat → s.dct = .dct →
      Controller.ofSettings mp.size s = .ok c → l.isPending .i3c .error = false →
      ∃ tx rx r, (t.bytes place)[mp.base.toNat + 0x9B]? = some tx ∧
        (t.bytes place)[mp.base.toNat + 0x9A]? = some rx ∧
        ((Smoke.run c l).run Mapping.responder (mp, t)).result = .ok r ∧
        r.failures = fileFailures tx rx) ∧
    ∀ {w : Wording} {args : List String} {env : Environment} {tree : DeviceTree} {i : Invocation}
        {s : Settings},
      Invocation.ofArguments args = .ok i → i.command = .smoke → i.settings env = .ok s →
      let e := run w args env tree
      (i.software = false → ∀ mp place,
        (Mapping.openAt tree s.devicePath s.baseAddress s.windowSize).result = .ok mp →
        mp.backing = .file place → (tree.bytes place).size < Address.last.toNat →
        e.code = 1 ∧ ∀ c, Controller.ofSettings mp.size s = .ok c →
          ∃ tx rx, (tree.bytes place)[mp.base.toNat + 0x9B]? = some tx ∧
            (tree.bytes place)[mp.base.toNat + 0x9A]? = some rx ∧
            e.stderr = s!"Error: {(fileFailures tx rx).length} smoke check(s) failed\n") ∧
      (i.software = true → ∀ target,
        (Target.select tree s i.selection).result = .ok target →
        ∀ c, Controller.ofSettings target.size s = .ok c → e.code = 0) := by
  have hfile {t : DeviceTree} {path : String} {base size : Address} {mp : Mapping} {place : Place}
      {s : Settings} {c : Controller} {l : InterruptLog}
      (hopen : (Mapping.openAt t path base size).result = .ok mp)
      (hplace : mp.backing = .file place) (hlen : (t.bytes place).size < Address.last.toNat)
      (hdat : s.dat = .dat) (hdct : s.dct = .dct)
      (hc : Controller.ofSettings mp.size s = .ok c) (hl : l.isPending .i3c .error = false) :
      ∃ tx rx r, (t.bytes place)[mp.base.toNat + 0x9B]? = some tx ∧
        (t.bytes place)[mp.base.toNat + 0x9A]? = some rx ∧
        ((Smoke.run c l).run Mapping.responder (mp, t)).result = .ok r ∧
        r.failures = fileFailures tx rx := by
    obtain ⟨rfl, hsize⟩ := Smoke.standard_of_accepted hdat hdct hc
    exact Smoke.run_over_file (Mapping.openAt_fits_of_lt hopen hplace hlen)
      (Mapping.size_mod_four hopen) hsize hl
  refine ⟨hfile, ?_⟩
  intro w args env tree i s hi hsmoke hs e
  obtain ⟨hdat, hdct⟩ := Invocation.tables_of_settings hi hs
  constructor
  · intro hsoftware mp place hopen hplace hlen
    obtain ⟨hcode, hstderr⟩ := run_of_select w hi hs (select_mapping hsoftware hopen)
    rw [hcode, hstderr]
    cases hc : Controller.ofSettings mp.size s with
    | error f => exact ⟨work_of_refused hc, fun c hc' => by cases hc'⟩
    | ok c =>
        obtain ⟨tx, rx, r, htx, hrx, hr, hfailures⟩ :=
          hfile hopen hplace hlen hdat hdct hc (l := .empty) rfl
        rw [← Target.result_run_mapping] at hr
        have hne : r.failures ≠ [] := by
          rw [hfailures, fileFailures]
          simp
        have hmade : Controller.ofSettings (Target.mapping mp).size s = .ok c := hc
        obtain ⟨hcode, hstderr⟩ := (work_smoke hsmoke hmade hr).2 hne
        refine ⟨hcode, fun c' hc' => ⟨tx, rx, htx, hrx, ?_⟩⟩
        rw [hstderr, hfailures]
  · intro hsoftware target hselect c hc
    rw [(run_of_select w hi hs hselect).1]
    rw [Invocation.selection, hsoftware] at hselect
    obtain ⟨-, rfl⟩ := Target.openModel_eq_ok hselect
    have hmade := hc
    obtain ⟨rfl, hsize⟩ := Smoke.standard_of_accepted hdat hdct hc
    have hwindow : 0x840 ≤ s.windowSize.toNat := by
      have hwhole := Smoke.size_reachable s.windowSize []
      rw [Model.acts, List.foldl_nil] at hwhole
      change 4096 ≤ (Model.controller s.windowSize).size.toNat at hsize
      omega
    obtain ⟨r, hr, hfailures⟩ := Smoke.run_over_model hwindow (l := .empty) rfl
    rw [← Target.result_run_model _ tree] at hr
    exact (work_smoke hsmoke hmade hr).1 hfailures

/-- A page of ones, but for the receive buffer size, which is as after reset. -/
def sizedPage : Array UInt8 := page.setIfInBounds 0x9A 5

theorem smoke_over_files_sized :
    let tree := oneFile sizedPage
    let mp : Mapping := ⟨"f", 0, 4096, .file ["f"]⟩
    let s : Settings := ⟨"f", 0, 4096, .dat, .dct⟩
    let e := run .brief ["smoke", "--device", "f"] [] tree
    (Mapping.openAt tree "f" 0 4096).result = .ok mp ∧
      (tree.bytes ["f"]).size < Address.last.toNat ∧
      Controller.ofSettings 4096 s = .ok (.standard 4096) ∧
      (∃ r, ((Smoke.run (.standard 4096) .empty).run Mapping.responder (mp, tree)).result = .ok r ∧
        r.failures.map Check.name =
          ["HCI_VERSION", "QUEUE_SIZE.TX_DATA_BUFFER_SIZE", "PIO_CONTROL"]) ∧
      e.code = 1 ∧ e.stderr = "Error: 3 smoke check(s) failed\n" ∧
      (run .brief ["smoke", "--software"] [] tree).code = 0 := by
  intro tree mp s e
  have hpage : sizedPage.size = 4096 := by rw [sizedPage, Array.size_setIfInBounds, size_page]
  have hopen : (Mapping.openAt tree "f" 0 4096).result = .ok mp := by rw [openAt_oneFile hpage]
  have hlen : (tree.bytes ["f"]).size < Address.last.toNat :=
    Nat.lt_of_le_of_lt (size_oneFile sizedPage ["f"]) (by rw [hpage]; decide)
  have hc : Controller.ofSettings 4096 s = .ok (.standard 4096) := by decide
  have hbytes : tree.bytes ["f"] = sizedPage := rfl
  have htx : sizedPage[(0 : Address).toNat + 0x9B]? = some 0xFF := by
    simp [sizedPage, page]
  have hrx : sizedPage[(0 : Address).toNat + 0x9A]? = some 5 := by
    simp [sizedPage, page]
  obtain ⟨hrun, hcommand⟩ := smoke_over_files
  obtain ⟨tx, rx, r, htx', hrx', hr, hfailures⟩ :=
    hrun hopen rfl hlen rfl rfl hc (l := .empty) rfl
  obtain rfl : 0xFF = tx := Option.some.inj (htx.symm.trans htx')
  obtain rfl : 5 = rx := Option.some.inj (hrx.symm.trans hrx')
  let i : Invocation := ⟨false, ⟨some "f", none, none, none, none⟩, .smoke⟩
  let j : Invocation := ⟨true, ⟨none, none, none, none, none⟩, .smoke⟩
  have hi : Invocation.ofArguments ["smoke", "--device", "f"] = .ok i := by cbv
  have hj : Invocation.ofArguments ["smoke", "--software"] = .ok j := by cbv
  have hs : i.settings [] = .ok s := rfl
  have hs' : j.settings [] = .ok .standard := rfl
  obtain ⟨hcode, hstderr⟩ := (hcommand hi rfl hs).1 rfl mp ["f"] hopen rfl hlen
  obtain ⟨tx, rx, htx', hrx', hstderr⟩ := hstderr _ hc
  obtain rfl : 0xFF = tx := Option.some.inj (htx.symm.trans htx')
  obtain rfl : 5 = rx := Option.some.inj (hrx.symm.trans hrx')
  refine ⟨hopen, hlen, hc, ⟨r, hr, ?_⟩, hcode, ?_, ?_⟩
  · rw [hfailures]
    decide
  · rw [hstderr]
    decide
  · have hsize : (Model.controller Settings.standard.windowSize).size = 4096 := by
      have hwhole := Smoke.size_reachable 4096 []
      rw [Model.acts, List.foldl_nil] at hwhole
      exact UInt64.toNat_inj.mp hwhole
    have hselect : (Target.select tree .standard j.selection).result =
        .ok (.model (.controller Settings.standard.windowSize)) := Target.openModel_of_room rfl
    refine (hcommand hj rfl hs').2 rfl _ hselect (.standard 4096) ?_
    rw [Target.size, hsize]
    decide

end CommandLine

end I3CHost
