import I3CHost.Methods
import I3CHost.Proofs.Operations
import I3CHost.Proofs.Reach

/-!
# Methods and programs

The methods of the driver are handed the outcome of every access, and what they make of a fault is
up to them. Here each is shown to be a program: where the program stops, the method passes the fault
up, and nothing comes after it. The views come first, line by line, with an induction for each loop.
Of the methods that have the controller in hand, all but one leave it; a discovery assigns to it,
but nothing before the last thing that can fail. `Operation.run_method` puts it together: whatever
holds of the runs of operations holds of the methods.
-/
namespace I3CHost

variable {α β σ : Type}

/-! ## Programs as procedures -/

namespace Bus

/-- A program as calls that pass the first fault up. -/
def calls : Bus α → Calls (Except Fault α)
  | done a => .done (.ok a)
  | stop e => .done (.error e)
  | load o next => .load o fun
    | .ok w => (next w).calls
    | .error e => .done (.error e)
  | store o v next => .store o v fun
    | .ok _ => next.calls
    | .error e => .done (.error e)
  | note e next => .note e next.calls

def procedure (p : Bus α) : Procedure α := ExceptT.mk p.calls

theorem calls_bind (p : Bus α) (f : α → Bus β) :
    (p.bind f).calls = p.calls.bind fun
      | .ok a => (f a).calls
      | .error e => .done (.error e) := by
  induction p with
  | done a => rfl
  | stop e => rfl
  | load o next ih =>
      simp only [bind, calls, Calls.bind, Calls.load.injEq, true_and]
      funext x
      cases x with
      | ok w => exact ih w
      | error e => rfl
  | store o v next ih =>
      simp only [bind, calls, Calls.bind, Calls.store.injEq, true_and]
      funext x
      cases x with
      | ok u => exact ih
      | error e => rfl
  | note e next ih => simp only [bind, calls, Calls.bind, ih]

/-- A procedure that is a program does as the program does. -/
theorem run_procedure (r : Responder σ) (p : Bus α) (s : σ) :
    p.procedure.run r s = p.run r s := by
  induction p generalizing s with
  | done a => rfl
  | stop e => rfl
  | load o next ih =>
      cases h : (r.load o s).result with
      | ok w =>
          rw [run_load_ok h, ← ih]
          simp only [Procedure.run, procedure, calls, ExceptT.run_mk, Calls.run, h]
          rfl
      | error e =>
          rw [run_load_error h]
          simp only [Procedure.run, procedure, calls, ExceptT.run_mk, Calls.run, h]
          simp [Calls.Record.after, Calls.loaded]
  | store o v next ih =>
      cases h : (r.store o v s).result with
      | ok u =>
          rw [run_store_ok h, ← ih]
          simp only [Procedure.run, procedure, calls, ExceptT.run_mk, Calls.run, h]
          rfl
      | error e =>
          rw [run_store_error h]
          simp only [Procedure.run, procedure, calls, ExceptT.run_mk, Calls.run, h]
          simp [Calls.Record.after, Calls.stored]
  | note e next ih =>
      rw [Bus.run, ← ih]
      rfl

theorem procedure_done (a : α) : (pure a : Procedure α) = (done a).procedure := rfl

/-- One line after the other, as programs and as procedures. -/
theorem procedure_bind (p : Bus α) (f : α → Bus β) :
    (p.procedure >>= fun a => (f a).procedure) = (p.bind f).procedure := by
  have hcalls : (p.bind f).procedure = ExceptT.mk (p.bind f).calls := rfl
  rw [hcalls, calls_bind]
  apply congrArg fun next => ExceptT.mk (p.calls.bind next)
  funext x
  cases x <;> rfl

end Bus

namespace Procedure

open Bus (procedure_bind procedure_done)

theorem load_eq (o : Address) : load o = (Bus.read o).procedure := by
  rw [load, Bus.procedure, Bus.read, Bus.calls]
  congr
  funext x
  cases x <;> rfl

theorem store_eq (o : Address) (v : Word) : store o v = (Bus.write o v).procedure := by
  rw [store, Bus.procedure, Bus.write, Bus.calls]
  congr
  funext x
  cases x <;> rfl

theorem emit_eq (e : Event) : emit e = (Bus.emit e).procedure := rfl

theorem require_eq (x : Except Fault α) : require x = (Bus.ofExcept x).procedure := by
  cases x <;> rfl

/-! ## Registers -/

theorem readRegister_eq (v : Registers) (o : Address) :
    readRegister v o = (v.read o).procedure := by
  simp only [readRegister, require_eq, load_eq, procedure_bind]
  rfl

theorem writeRegister_eq (v : Registers) (o : Address) (x : Word) :
    writeRegister v o x = (v.write o x).procedure := by
  simp only [writeRegister, require_eq, store_eq, procedure_bind]
  rfl

theorem readRegisterField_eq (v : Registers) (o : Address) (f : Field) :
    readRegisterField v o f = (v.readField o f).procedure := by
  simp only [readRegisterField, require_eq, load_eq, emit_eq, procedure_done, procedure_bind]
  rfl

theorem writeRegisterField_eq (v : Registers) (o : Address) (f : Field) (x : Word) :
    writeRegisterField v o f x = (v.writeField o f x).procedure := by
  simp only [writeRegisterField, require_eq, load_eq, emit_eq, store_eq, procedure_bind]
  rfl

theorem readRegisterBits_eq (v : Registers) (o : Address) (low : UInt8) (mask : Word) :
    readRegisterBits v o low mask = (v.readBits o low mask).procedure := by
  simp only [readRegisterBits, readRegister_eq, procedure_done, procedure_bind]
  rfl

/-! ## Table entries -/

theorem wordFrom_next (start : Address) (k : Nat) :
    Table.wordFrom start k + Address.wordBytes = Table.wordFrom start (k + 1) := by
  rw [← Table.wordFrom_succ, Table.wordFrom, Table.wordFrom, UInt64.add_assoc, UInt64.add_assoc,
    UInt64.add_comm Address.wordBytes]

/-- The loop over the words to be stored, from position `k` on. -/
theorem forM_writeRegister (v : Registers) (start : Address) (words : List Word) (k : Nat) :
    ((words.zipIdx k).forM fun (w, i) => writeRegister v (Table.wordFrom start i) w) =
      (v.writeRun (Table.wordFrom start k) words).procedure := by
  induction words generalizing k with
  | nil => rfl
  | cons w words ih =>
      simp only [List.forM_eq_forM] at ih
      simp only [List.forM_eq_forM, List.zipIdx_cons, List.forM_cons]
      rw [ih, writeRegister_eq, procedure_bind, ← wordFrom_next]
      rfl

theorem writeEntry_eq (t : Table) (i : UInt64) (words : List Word) :
    writeEntry t i words = (t.writeEntry i words).procedure := by
  have hloop (start : Address) := forM_writeRegister t.registers start words 0
  simp only [Table.wordFrom_zero] at hloop
  simp only [writeEntry, require_eq, emit_eq, hloop, procedure_bind]
  rfl

theorem mapM_readRegister (v : Registers) (start : Address) (k n : Nat) :
    ((List.range' k n).mapM fun i => readRegister v (Table.wordFrom start i)) =
      (v.readRun (Table.wordFrom start k) n).procedure := by
  induction n generalizing k with
  | zero => rfl
  | succ n ih =>
      rw [List.range'_succ, List.mapM_cons, ih, readRegister_eq]
      simp only [procedure_done, procedure_bind, ← wordFrom_next]
      rfl

theorem readEntry_eq (t : Table) (i : UInt64) (n : Nat) :
    readEntry t i n = (t.readEntry i n).procedure := by
  have hloop (start : Address) := mapM_readRegister t.registers start 0 n
  simp only [Table.wordFrom_zero, ← List.range_eq_range'] at hloop
  simp only [readEntry, require_eq, hloop, procedure_bind]
  rfl

/-- The words of a vector in front of zeros. -/
def padded (n : Nat) {k : Nat} (ws : Vector Word k) : Vector Word n :=
  Vector.ofFn fun i => ws.toList.getD i 0

theorem padded_push {n k : Nat} (ws : Vector Word k) (w : Word) :
    padded n (ws.push w) = (padded n ws).setIfInBounds k w := by
  apply Vector.ext
  intro j hj
  rw [padded, Vector.getElem_ofFn, Vector.getElem_setIfInBounds hj, padded, Vector.getElem_ofFn,
    Vector.toList_push]
  have hlen : ws.toList.length = k := Vector.length_toList
  rcases Nat.lt_trichotomy j k with hlt | rfl | hgt
  · simp [List.getD, List.getElem?_append_left, hlen, hlt, Nat.ne_of_gt hlt]
  · simp [List.getD, hlen]
  · have hpast : (ws.toList ++ [w]).length ≤ j := by
      rw [List.length_append, hlen]
      exact hgt
    rw [List.getD, List.getElem?_eq_none hpast, if_neg (Nat.ne_of_lt hgt)]
    simp [List.getD, Nat.le_of_lt hgt]

theorem padded_self {n : Nat} (ws : Vector Word n) : padded n ws = ws := by
  apply Vector.ext
  intro j hj
  rw [padded, Vector.getElem_ofFn]
  simp [List.getD, hj]

theorem foldlM_readRegister (v : Registers) (start : Address) (n k : Nat) (h : k ≤ n) :
    ((List.range k).foldlM (fun ws i => do
        let w ← readRegister v (Table.wordFrom start i)
        return ws.setIfInBounds i w) (Vector.replicate n 0)) =
      ((v.readVector start k).bind fun ws => .done (padded n ws)).procedure := by
  induction k with
  | zero =>
      have hzeros : Vector.replicate n (0 : Word) = padded n #v[] := by
        apply Vector.ext
        intro j hj
        simp [padded]
      rw [List.range_zero, List.foldlM_nil, hzeros]
      rfl
  | succ k ih =>
      rw [List.range_succ, List.foldlM_append, ih (by omega)]
      simp only [List.foldlM_cons, List.foldlM_nil, readRegister_eq, procedure_done, procedure_bind]
      apply congrArg Bus.procedure
      simp only [Registers.readVector, Bus.bind_eq, Bus.pure_eq, Bus.bind_assoc, Bus.bind,
        padded_push]
      rfl

theorem readWords_eq (t : Table) (i : UInt64) (n : Nat) :
    readWords t i n = (t.readWords i n).procedure := by
  have hloop (start : Address) := foldlM_readRegister t.registers start n n (Nat.le_refl n)
  simp only [padded_self, Bus.bind_done] at hloop
  simp only [readWords, require_eq, hloop, procedure_bind]
  rfl

theorem readEntryField_eq (t : Table) (i : UInt64) (f : Field) :
    readEntryField t i f = (t.readField i f).procedure := by
  simp only [readEntryField, require_eq, readRegisterField_eq, procedure_bind]
  rfl

theorem writeEntryField_eq (t : Table) (i : UInt64) (f : Field) (x : Word) :
    writeEntryField t i f x = (t.writeField i f x).procedure := by
  simp only [writeEntryField, require_eq, writeRegisterField_eq, procedure_bind]
  rfl

theorem writePair_eq (t : Table) (i p x : UInt64) :
    writePair t i p x = (t.writePair i p x).procedure := by
  simp only [writePair, require_eq, writeRegister_eq, procedure_bind]
  rfl

theorem readPair_eq (t : Table) (i p : UInt64) :
    readPair t i p = (t.readPair i p).procedure := by
  simp only [readPair, require_eq, readRegister_eq, procedure_done, procedure_bind]
  rfl

end Procedure

/-! ## Programs as methods -/

namespace Bus

/-- A program that the controller in hand chooses, as a method that leaves the controller. -/
def method (p : Controller → Bus α) : Method α :=
  ExceptT.mk fun c => (p c).calls.bind fun x => .done (x, c)

theorem done_bind (a : α) (f : α → Bus β) : (done a).bind f = f a := rfl

theorem method_done (a : α) : (pure a : Method α) = method fun _ => .done a := rfl

theorem method_ite (b : Prop) [Decidable b] (p q : Controller → Bus α) :
    (if b then method p else method q) = method fun c => if b then p c else q c := by
  split <;> rfl

theorem method_lift (p : Bus α) : (liftM p.procedure : Method α) = method fun _ => p := rfl

theorem method_get (p : Controller → Controller → Bus α) :
    ((get : Method Controller) >>= fun c => method (p c)) = method fun c => p c c := rfl

theorem method_bind (p : Controller → Bus α) (f : α → Controller → Bus β) :
    (method p >>= fun a => method (f a)) = method fun c => (p c).bind fun a => f a c := by
  have hcalls : (method fun c => (p c).bind fun a => f a c) = ExceptT.mk fun c =>
      ((p c).bind fun a => f a c).calls.bind fun x => .done (x, c) := rfl
  rw [hcalls]
  apply congrArg ExceptT.mk
  funext c
  rw [calls_bind, Calls.bind_assoc]
  change ((p c).calls.bind _).bind _ = _
  rw [Calls.bind_assoc]
  apply congrArg (p c).calls.bind
  funext x
  cases x <;> rfl

end Bus

namespace Method

open Procedure Bus

theorem readField_eq (space : Space) (location : UInt64) (f : Field) :
    readField space location f = Bus.method fun c => c.readField space location f := by
  simp only [readField, readRegisterField_eq, readEntryField_eq, method_lift]
  cases h : space.table? with
  | none => simp only [method_get, Controller.readField, h]
  | some kind => simp only [method_get, Controller.readField, h]

theorem writeField_eq (space : Space) (location : UInt64) (f : Field) (x : Word) :
    writeField space location f x = Bus.method fun c => c.writeField space location f x := by
  simp only [writeField, writeRegisterField_eq, writeEntryField_eq, method_lift]
  cases h : space.table? with
  | none => simp only [method_get, Controller.writeField, h]
  | some kind => simp only [method_get, Controller.writeField, h]

theorem readDatEntry_eq (i : UInt64) : readDatEntry i = Bus.method fun c => c.readDatEntry i := by
  simp only [readDatEntry, readWords_eq, method_lift, method_done, method_bind, method_get]
  rfl

theorem writeDatEntry_eq (i : UInt64) (e : DatEntry) :
    writeDatEntry i e = Bus.method fun c => c.writeDatEntry i e := by
  simp only [writeDatEntry, writeEntry_eq, method_lift, method_get]
  rfl

theorem readDctEntry_eq (i : UInt64) : readDctEntry i = Bus.method fun c => c.readDctEntry i := by
  simp only [readDctEntry, readWords_eq, method_lift, method_done, method_bind, method_get]
  rfl

theorem writeDctEntry_eq (i : UInt64) (e : DctEntry) :
    writeDctEntry i e = Bus.method fun c => c.writeDctEntry i e := by
  simp only [writeDctEntry, writeEntry_eq, method_lift, method_get]
  rfl

theorem adopted_eq (l : TableLayout) (raw : Word) :
    adopted l raw = Controller.advertised l raw := by
  simp only [adopted, Controller.advertised]
  split <;> split <;> simp_all

theorem discoverOne_eq (register : Address) (l : TableLayout) :
    discoverOne register l = Bus.method fun c => c.readSection register l := by
  simp only [discoverOne, readRegister_eq, emit_eq, adopted_eq, method_lift, method_done,
    method_bind, method_ite, method_get]
  rfl

theorem checkFits_eq (l : TableLayout) :
    checkFits l = Bus.method fun c => .ofExcept (l.checkFits c.window) := by
  simp only [checkFits, require_eq, method_lift, method_get]

theorem run_method_bind (p : Controller → Bus α) (k : α → Method β) (c : Controller) :
    ((Bus.method p >>= k).run).run c = (p c).calls.bind fun
      | .ok a => ((k a).run).run c
      | .error e => .done (.error e, c) := by
  change ((p c).calls.bind _).bind _ = _
  rw [Calls.bind_assoc]
  apply congrArg (p c).calls.bind
  funext x
  cases x <;> rfl

theorem run_get_bind (k : Controller → Method β) (c : Controller) :
    (((get : Method Controller) >>= k).run).run c = ((k c).run).run c := rfl

theorem run_modify_bind (f : Controller → Controller) (k : PUnit → Method β) (c : Controller) :
    (((modify f : Method PUnit) >>= k).run).run c = ((k ()).run).run (f c) := rfl

theorem run_method (p : Controller → Bus α) (c : Controller) :
    ((Bus.method p).run).run c = (p c).calls.bind fun x => .done (x, c) := rfl

/-- A discovery assigns both layouts or none. -/
theorem run_discover (c : Controller) :
    (ExceptT.run discover).run c = c.discover.calls.bind fun
      | .ok found => .done (.ok (found.dat, found.dct), found)
      | .error e => .done (.error e, c) := by
  have hprogram : c.discover = (c.readSection Register.datSectionOffset c.dat).bind fun dat =>
      (c.readSection Register.dctSectionOffset c.dct).bind fun dct =>
        (Bus.ofExcept ({ c with dat, dct } : Controller).checkFits).bind fun _ =>
          .note (.discovered dat dct) (.done { c with dat, dct }) := rfl
  have hchecks (dat dct : TableLayout) : Bus.ofExcept ({ c with dat, dct } : Controller).checkFits =
      (Bus.ofExcept (dat.checkFits c.window)).bind fun _ =>
        Bus.ofExcept (dct.checkFits c.window) := by
    simp only [Controller.checkFits]
    cases dat.checkFits c.window <;> rfl
  simp only [discover, discoverOne_eq, checkFits_eq, emit_eq, method_lift, method_done, method_bind,
    run_get_bind, run_modify_bind, run_method_bind, run_method]
  rw [hprogram]
  simp only [hchecks, calls_bind, Calls.bind_assoc]
  apply congrArg (c.readSection Register.datSectionOffset c.dat).calls.bind
  funext x
  cases x with
  | error e => rfl
  | ok dat =>
      simp only [Calls.bind_assoc]
      apply congrArg (c.readSection Register.dctSectionOffset c.dct).calls.bind
      funext x
      cases x with
      | error e => rfl
      | ok dct =>
          dsimp only
          cases dat.checkFits c.window <;> cases dct.checkFits c.window <;> rfl

theorem check_eq (r : Report) (name : String) (expected actual : Word) :
    check r name expected actual = method fun _ => Smoke.record r ⟨name, expected, actual⟩ := by
  simp only [check, emit_eq, method_lift, method_done, method_bind]
  rfl

theorem foldlM_check (name : String) (expected actual : List Word) (k : Nat) (r : Report) :
    ((expected.zip actual).zipIdx k).foldlM (fun r (e, i) =>
        check r s!"{name} word {i}" e.1 e.2) r =
      method fun _ => Smoke.recordWords name k r expected actual := by
  induction expected generalizing actual k r with
  | nil => rfl
  | cons e es ih =>
      cases actual with
      | nil => rfl
      | cons a as =>
          have hstep := method_bind (fun _ => Smoke.record r ⟨s!"{name} word {k}", e, a⟩)
            fun r _ => Smoke.recordWords name (k + 1) r es as
          simp only [List.zip_cons_cons, List.zipIdx_cons, List.foldlM_cons, ih]
          rw [check_eq]
          exact hstep

theorem checkWords_eq (r : Report) (name : String) (expected actual : List Word) :
    checkWords r name expected actual =
      method fun _ => Smoke.recordWords name 0 r expected actual :=
  foldlM_check name expected actual 0 r

theorem smoke_eq (l : InterruptLog) : smoke l = method fun c => Smoke.run c l := by
  simp only [smoke, check_eq, checkWords_eq, emit_eq, readRegister_eq, writeRegister_eq,
    readRegisterField_eq, writeRegisterField_eq, readWords_eq, writeEntry_eq, readEntryField_eq,
    writeEntryField_eq, method_lift, method_done, method_bind, method_get]
  have hdat : Smoke.entryName .dat Smoke.datTestIndex = "DAT[5]" := by decide
  have hzero : Smoke.entryName .dat 0 = "DAT[0]" := by decide
  have hdct : Smoke.entryName .dct Smoke.dctTestIndex = "DCT[3]" := by decide
  apply congrArg Bus.method
  funext c
  simp only [Smoke.run, Smoke.script, Smoke.runSteps, Smoke.Step.run, bind_eq, pure_eq, bind_assoc,
    done_bind, hdat, hzero, hdct, String.reduceAppend]
  rfl

theorem on_method (c : Controller) (p : Controller → Bus α) :
    (Bus.method p).on c = Bus.method fun _ => p c := by
  apply congrArg ExceptT.mk
  funext own
  rw [run_method, Calls.bind_assoc]
  have hown : (if c = own then c else own) = own := by
    split
    · assumption
    · rfl
  simp only [Calls.bind, hown]

end Method

/-! ## Requests and operations -/

open Procedure Method Bus in
theorem Access.method_eq (a : Access) : a.method = Bus.method fun _ => a.program := by
  cases a <;>
    simp only [Access.method, readRegister_eq, writeRegister_eq, readRegisterField_eq,
      writeRegisterField_eq, readRegisterBits_eq, require_eq, Procedure.readEntry_eq,
      Procedure.readWords_eq, Procedure.writeEntry_eq, Procedure.readEntryField_eq,
      Procedure.writeEntryField_eq, Procedure.readPair_eq, Procedure.writePair_eq,
      Procedure.load_eq, Procedure.store_eq, Method.readField_eq, Method.writeField_eq,
      Method.readDatEntry_eq, Method.writeDatEntry_eq, Method.readDctEntry_eq,
      Method.writeDctEntry_eq, Method.smoke_eq, on_method, method_lift, method_done,
      method_bind] <;>
    rfl

/-- The method that an operation calls on the controller in hand. -/
def Operation.method : Operation → Method Answer
  | access a => do
    let c ← get
    (a c).method
  | discover => do
    let (dat, dct) ← Method.discover
    return .layouts dat dct

/-- Let a responder answer a method of a driver. -/
def Method.run (r : Responder σ) (m : Method α) (d : Driver σ) : Outcome (Driver σ) α :=
  let o := Calls.run r ((ExceptT.run m).run d.controller) d.io
  ⟨o.value.1, ⟨o.value.2, o.state⟩, o.transactions, o.events⟩

/-- A record of which only the value is changed in the end. -/
theorem Calls.run_bind_done (r : Responder σ) (p : Calls α) (f : α → β) (s : σ) :
    let o := p.run r s
    (p.bind fun x => .done (f x)).run r s = ⟨f o.value, o.state, o.transactions, o.events⟩ := by
  induction p generalizing s with
  | done a => rfl
  | load o next ih => simp only [bind, run, ih, Record.after]
  | store o v next ih => simp only [bind, run, ih, Record.after]
  | note e next ih => simp only [bind, run, ih]

/-- What the calls of a program leave. -/
theorem Bus.run_calls (r : Responder σ) (p : Bus α) (s : σ) :
    let o := p.run r s
    p.calls.run r s = ⟨o.result, o.state, o.transactions, o.events⟩ := by
  rw [← run_procedure]
  rfl

/-- What a discovery answers, and the controller it leaves. -/
def Controller.after (c : Controller) : Except Fault Controller → Except Fault Answer × Controller
  | .ok found => (.ok (.layouts found.dat found.dct), found)
  | .error e => (.error e, c)

theorem Method.run_bind_pure (m : Method α) (f : α → β) (c : Controller) :
    (ExceptT.run (m >>= fun a => pure (f a))).run c =
      ((ExceptT.run m).run c).bind fun x => .done (x.1.map f, x.2) := by
  apply congrArg ((ExceptT.run m).run c).bind
  funext ⟨x, own⟩
  cases x <;> rfl

theorem Operation.calls_access (a : Controller → Access) (c : Controller) :
    (ExceptT.run (access a).method).run c = (a c).program.calls.bind fun x => .done (x, c) := by
  simp only [method, Access.method_eq, Bus.method_get, Method.run_method]

theorem Operation.calls_discover (c : Controller) :
    (ExceptT.run discover.method).run c = c.discover.calls.bind fun x => .done (c.after x) := by
  have hlayouts := Method.run_bind_pure Method.discover (fun l => Answer.layouts l.1 l.2) c
  rw [Method.run_discover, Calls.bind_assoc] at hlayouts
  refine hlayouts.trans (congrArg c.discover.calls.bind ?_)
  funext x
  cases x <;> rfl

/-- An operation does what its method does. -/
theorem Operation.run_method (r : Responder σ) (d : Driver σ) (op : Operation) :
    op.method.run r d = op.run r d := by
  cases op with
  | access a => simp only [Method.run, calls_access, Calls.run_bind_done, Bus.run_calls, run]
  | discover =>
      simp only [Method.run, calls_discover, Calls.run_bind_done, Bus.run_calls, run]
      cases (d.controller.discover.run r d.io).result <;> rfl

end I3CHost
