import I3CHost.Proofs.FaultPrefix
import I3CHost.Proofs.Lockstep
import I3CHost.Proofs.ReadOnlyBits

/-!
# Counted accesses

A model counts an access when it has answered it. So whatever is run over it, its counters move by
the answered accesses that an observer of the bus sees, and they have nothing else to go by: a
refused access moves none, and the work behind the bus is not seen. The counters have 64 bits and
wrap.

What a request costs is a matter of its program alone. A program that comes to its end has made
every access it has, and each branch has the same number of them, so the cost can be read off the
program without running it.
-/
namespace I3CHost

/-! ## Tallies -/

/-- A load that was answered. -/
def Transaction.isAnswered : Transaction → Bool
  | load _ (some _) => true
  | _ => false

/-- A store that was accepted. -/
def Transaction.isAccepted : Transaction → Bool
  | store _ _ true => true
  | _ => false

/-- The word that was stored, if the store was accepted. -/
def Transaction.stored? : Transaction → Option Word
  | store _ v true => some v
  | _ => none

/-- How many loads and how many stores. -/
structure Tally where
  loads : Nat
  stores : Nat
deriving DecidableEq, Repr

namespace Tally

instance : Zero Tally := ⟨⟨0, 0⟩⟩

instance : Add Tally := ⟨fun a b => ⟨a.loads + b.loads, a.stores + b.stores⟩⟩

theorem add_eq (a b : Tally) : a + b = ⟨a.loads + b.loads, a.stores + b.stores⟩ := rfl

theorem zero_add (a : Tally) : 0 + a = a := by
  rw [add_eq]
  congr <;> exact Nat.zero_add _

theorem add_zero (a : Tally) : a + 0 = a := rfl

theorem add_assoc (a b c : Tally) : a + b + c = a + (b + c) := by
  simp only [add_eq, Nat.add_assoc]

/-- The completed accesses among some transactions. -/
def of (ts : List Transaction) : Tally :=
  ⟨ts.countP Transaction.isAnswered, ts.countP Transaction.isAccepted⟩

theorem of_append (ts us : List Transaction) : of (ts ++ us) = of ts + of us := by
  rw [of, List.countP_append, List.countP_append]
  rfl

theorem of_cons (t : Transaction) (ts : List Transaction) : of (t :: ts) = of [t] + of ts :=
  of_append [t] ts

/-- Where counters of 64 bits stand that many accesses later. -/
def after (c : Tally) (start : UInt64 × UInt64) : UInt64 × UInt64 :=
  (start.1 + UInt64.ofNat c.loads, start.2 + UInt64.ofNat c.stores)

theorem after_zero (start : UInt64 × UInt64) : (0 : Tally).after start = start :=
  Prod.ext (UInt64.add_zero _) (UInt64.add_zero _)

theorem after_add (a b : Tally) (start : UInt64 × UInt64) :
    (a + b).after start = b.after (a.after start) := by
  simp only [after, add_eq, UInt64.ofNat_add, UInt64.add_assoc]

end Tally

/-! ## What a program costs -/

namespace Bus

variable {α β σ : Type}

/-- The program makes that many loads and stores if it comes to its end. -/
inductive Costs : Tally → Bus α → Prop
  | done (a : α) : Costs 0 (done a)
  | stop {c : Tally} (e : Fault) : Costs c (stop e)
  | load {c : Tally} {o : Address} {next : Word → Bus α} :
      (∀ w, Costs c (next w)) → Costs (⟨1, 0⟩ + c) (load o next)
  | store {c : Tally} {o : Address} {v : Word} {next : Bus α} :
      Costs c next → Costs (⟨0, 1⟩ + c) (store o v next)
  | note {c : Tally} {e : Event} {next : Bus α} : Costs c next → Costs c (note e next)

namespace Costs

variable {c d : Tally} {p : Bus α} {f : α → Bus β}

theorem bind (hp : p.Costs c) (hf : ∀ a, (f a).Costs d) : (p.bind f).Costs (c + d) := by
  induction hp with
  | done a =>
      rw [Tally.zero_add]
      exact hf a
  | stop e => exact .stop e
  | load _ ih =>
      rw [Tally.add_assoc]
      exact .load ih
  | store _ ih =>
      rw [Tally.add_assoc]
      exact .store ih
  | note _ ih => exact .note ih

/-- What follows is free. -/
theorem bind_free (hp : p.Costs c) (hf : ∀ a, (f a).Costs 0) : (p.bind f).Costs c := by
  have h := hp.bind hf
  rwa [Tally.add_zero] at h

theorem map (hp : p.Costs c) (g : α → β) : (g <$> p).Costs c := hp.bind_free fun a => .done (g a)

/-- A check is free. -/
theorem check {x : Except Fault α} (hf : ∀ a, (f a).Costs c) :
    ((ofExcept x).bind f).Costs c := by
  cases x with
  | error e => exact .stop e
  | ok a => exact hf a

/-- A program that ends with a value has made all its accesses, and all were completed. -/
theorem tally_eq {r : Responder σ} (hp : p.Costs c) {s : σ} {a : α}
    (h : (p.run r s).result = .ok a) : Tally.of (p.run r s).transactions = c := by
  induction hp generalizing s with
  | done a => rfl
  | stop e => cases h
  | @load c o next _ ih =>
      cases hr : (r.load o s).result with
      | error e =>
          rw [run_load_error hr] at h
          cases h
      | ok w =>
          rw [run_load_ok hr] at h ⊢
          rw [Outcome.after, Tally.of_cons, ih w h]
          rfl
  | @store c o v next _ ih =>
      cases hr : (r.store o v s).result with
      | error e =>
          rw [run_store_error hr] at h
          cases h
      | ok u =>
          rw [run_store_ok hr] at h ⊢
          rw [Outcome.after, Tally.of_cons, ih h]
          rfl
  | note _ ih => exact ih h

end Costs

end Bus

/-! ## What the views cost -/

namespace Registers

variable (v : Registers) (offset : Address)

theorem costs_read : (v.read offset).Costs ⟨1, 0⟩ := .check fun _ => .load fun w => .done w

theorem costs_write (value : Word) : (v.write offset value).Costs ⟨0, 1⟩ :=
  .check fun _ => .store (.done ())

theorem costs_readField (f : Field) : (v.readField offset f).Costs ⟨1, 0⟩ :=
  .check fun _ => .load fun _ => .note (.done _)

theorem costs_writeField (f : Field) (value : Word) :
    (v.writeField offset f value).Costs ⟨1, 1⟩ :=
  .check fun _ => .load fun _ => .note (.store (.done ()))

theorem costs_readBits (low : UInt8) (mask : Word) :
    (v.readBits offset low mask).Costs ⟨1, 0⟩ :=
  (v.costs_read offset).bind_free fun _ => .done _

theorem costs_readRun (count : Nat) : (v.readRun offset count).Costs ⟨count, 0⟩ := by
  induction count generalizing offset with
  | zero => exact .done []
  | succ count ih =>
      have hsum : (⟨count + 1, 0⟩ : Tally) = ⟨1, 0⟩ + ⟨count, 0⟩ := by
        rw [Nat.add_comm]
        rfl
      rw [hsum]
      exact (v.costs_read offset).bind fun _ => (ih _).bind_free fun _ => .done _

theorem costs_readVector (n : Nat) : (v.readVector offset n).Costs ⟨n, 0⟩ := by
  induction n with
  | zero => exact .done #v[]
  | succ n ih => exact ih.bind fun _ => (v.costs_read _).bind_free fun _ => .done _

theorem costs_writeRun (words : List Word) :
    (v.writeRun offset words).Costs ⟨0, words.length⟩ := by
  induction words generalizing offset with
  | nil => exact .done ()
  | cons w words ih =>
      have hsum : (⟨0, (w :: words).length⟩ : Tally) = ⟨0, 1⟩ + ⟨0, words.length⟩ := by
        rw [List.length_cons, Nat.add_comm]
        rfl
      rw [hsum]
      exact (v.costs_write offset w).bind fun _ => ih _

end Registers

namespace Table

variable (t : Table) (i : UInt64)

theorem costs_writeEntry (words : List Word) :
    (t.writeEntry i words).Costs ⟨0, words.length⟩ :=
  .check fun _ => .check fun _ => .note (t.registers.costs_writeRun _ words)

theorem costs_readEntry (count : Nat) : (t.readEntry i count).Costs ⟨count, 0⟩ :=
  .check fun _ => .check fun _ => t.registers.costs_readRun _ count

theorem costs_readWords (n : Nat) : (t.readWords i n).Costs ⟨n, 0⟩ :=
  .check fun _ => .check fun _ => t.registers.costs_readVector _ n

theorem costs_readField (f : Field) : (t.readField i f).Costs ⟨1, 0⟩ :=
  .check fun _ => .check fun _ => t.registers.costs_readField _ f

theorem costs_writeField (f : Field) (value : Word) : (t.writeField i f value).Costs ⟨1, 1⟩ :=
  .check fun _ => .check fun _ => t.registers.costs_writeField _ f value

theorem costs_readPair (pair : UInt64) : (t.readPair i pair).Costs ⟨2, 0⟩ := by
  rw [readPair_words]
  exact .check fun _ => .check fun _ => .check fun _ => (t.registers.costs_read _).bind fun _ =>
    (t.registers.costs_read _).bind_free fun _ => .done _

theorem costs_writePair (pair value : UInt64) : (t.writePair i pair value).Costs ⟨0, 2⟩ := by
  rw [writePair_words]
  exact .check fun _ => .check fun _ => .check fun _ => (t.registers.costs_write _ _).bind fun _ =>
    t.registers.costs_write _ _

end Table

namespace Controller

variable (c : Controller)

theorem costs_readField (space : Space) (location : UInt64) (f : Field) :
    (c.readField space location f).Costs ⟨1, 0⟩ := by
  cases space with
  | csr => exact c.csr.costs_readField location f
  | dat => exact (c.table .dat).costs_readField location f
  | dct => exact (c.table .dct).costs_readField location f

theorem costs_writeField (space : Space) (location : UInt64) (f : Field) (value : Word) :
    (c.writeField space location f value).Costs ⟨1, 1⟩ := by
  cases space with
  | csr => exact c.csr.costs_writeField location f value
  | dat => exact (c.table .dat).costs_writeField location f value
  | dct => exact (c.table .dct).costs_writeField location f value

theorem costs_readDatEntry (i : UInt64) : (c.readDatEntry i).Costs ⟨2, 0⟩ :=
  ((c.table .dat).costs_readWords i 2).bind_free fun _ => .done _

theorem costs_writeDatEntry (i : UInt64) (e : DatEntry) : (c.writeDatEntry i e).Costs ⟨0, 2⟩ := by
  have h := (c.table .dat).costs_writeEntry i e.toWords.toList
  rwa [Vector.length_toList] at h

theorem costs_readDctEntry (i : UInt64) : (c.readDctEntry i).Costs ⟨4, 0⟩ :=
  ((c.table .dct).costs_readWords i 4).bind_free fun _ => .done _

theorem costs_writeDctEntry (i : UInt64) (e : DctEntry) : (c.writeDctEntry i e).Costs ⟨0, 4⟩ := by
  have h := (c.table .dct).costs_writeEntry i e.toWords.toList
  rwa [Vector.length_toList] at h

theorem costs_discover : c.discover.Costs ⟨2, 0⟩ := by
  have hsection (register : Address) (l : TableLayout) :
      (c.readSection register l).Costs ⟨1, 0⟩ := by
    refine (c.csr.costs_read register).bind_free fun raw => ?_
    dsimp only
    split
    · exact .note (.done _)
    · exact .done _
  exact (hsection _ _).bind fun dat => (hsection _ _).bind_free fun dct =>
    .check fun _ => .note (.done _)

end Controller

/-! ## What the smoke sequence costs -/

namespace Smoke

def Step.cost : Step → Tally
  | .announce _ => 0
  | .write .. => ⟨0, 1⟩
  | .writeField .. | .writeEntryField .. => ⟨1, 1⟩
  | .expect .. | .expectField .. | .expectEntryField .. => ⟨1, 0⟩
  | .writeEntry _ _ words => ⟨0, words.length⟩
  | .expectEntry _ _ words => ⟨words.length, 0⟩

theorem costs_of_ends {α : Type} {p : Bus α} {a : α} (h : p.Ends a) : p.Costs 0 := by
  induction h with
  | done a => exact .done a
  | note _ ih => exact .note ih

theorem costs_step (c : Controller) (r : Report) (s : Step) : (s.run c r).Costs s.cost := by
  cases s with
  | announce title => exact .note (.done r)
  | write offset value => exact (c.csr.costs_write offset value).bind_free fun _ => .done r
  | writeField offset f value =>
      exact (c.csr.costs_writeField offset f value).bind_free fun _ => .done r
  | expect name expected offset =>
      exact (c.csr.costs_read offset).bind_free fun _ => costs_of_ends (record_ends r _)
  | expectField name expected offset f =>
      exact (c.csr.costs_readField offset f).bind_free fun _ => costs_of_ends (record_ends r _)
  | writeEntry table i words =>
      exact ((c.table table).costs_writeEntry i words).bind_free fun _ => .done r
  | expectEntry table i words =>
      exact ((c.table table).costs_readWords i words.length).bind_free fun _ =>
        costs_of_ends (recordWords_ends _ 0 r words _)
  | writeEntryField table i f value =>
      exact ((c.table table).costs_writeField i f value).bind_free fun _ => .done r
  | expectEntryField name expected table i f =>
      exact ((c.table table).costs_readField i f).bind_free fun _ =>
        costs_of_ends (record_ends r _)

def costOf (steps : List Step) : Tally := steps.foldr (fun s c => s.cost + c) 0

theorem costs_runSteps (c : Controller) (r : Report) (steps : List Step) :
    (runSteps c r steps).Costs (costOf steps) := by
  induction steps generalizing r with
  | nil => exact .done r
  | cons s steps ih => exact (costs_step c r s).bind fun r => ih r

theorem costs_run (c : Controller) (l : InterruptLog) : (run c l).Costs ⟨24, 14⟩ := by
  rw [run_eq]
  exact (costs_runSteps c .empty script).bind_free fun r => costs_of_ends (closing_ends l r)

end Smoke

namespace Access

/-- What a request costs that succeeds. -/
def cost : Access → Tally
  | base _ | layout _ | entryOffset .. => 0
  | read .. | readField .. | readBits .. | readEntryField .. | readEntryBits .. | readSpace ..
  | load _ => ⟨1, 0⟩
  | write .. | store .. => ⟨0, 1⟩
  | writeField .. | writeBits .. | writeEntryField .. | writeEntryBits .. | writeSpace .. => ⟨1, 1⟩
  | readEntry _ _ count | readWords _ _ count => ⟨count, 0⟩
  | writeEntry _ _ words => ⟨0, words.length⟩
  | readPair .. | readDatEntry .. => ⟨2, 0⟩
  | writePair .. | writeDatEntry .. => ⟨0, 2⟩
  | readDctEntry .. => ⟨4, 0⟩
  | writeDctEntry .. => ⟨0, 4⟩
  | smoke .. => ⟨24, 14⟩

theorem costs_quietly {c : Tally} {p : Bus Unit} (hp : p.Costs c) : (quietly p).Costs c :=
  hp.bind_free fun _ => .done Answer.nothing

theorem costs_program (a : Access) : a.program.Costs a.cost := by
  cases a with
  | base v => exact .done _
  | layout t => exact .done _
  | entryOffset t i =>
      change (Answer.number <$> Bus.ofExcept (t.entryOffset i)).Costs 0
      cases t.entryOffset i with
      | error e => exact .stop e
      | ok o => exact .done (Answer.number o)
  | read v o => exact (v.costs_read o).map _
  | write v o x => exact costs_quietly (v.costs_write o x)
  | readField v o f => exact (v.costs_readField o f).map _
  | writeField v o f x => exact costs_quietly (v.costs_writeField o f x)
  | readBits v o low mask => exact (v.costs_readBits o low mask).map _
  | writeBits v o low mask x => exact costs_quietly (v.costs_writeField o _ x)
  | readEntry t i count => exact (t.costs_readEntry i count).map _
  | readWords t i count => exact (t.costs_readWords i count).map _
  | writeEntry t i words => exact costs_quietly (t.costs_writeEntry i words)
  | readEntryField t i f => exact (t.costs_readField i f).map _
  | writeEntryField t i f x => exact costs_quietly (t.costs_writeField i f x)
  | readEntryBits t i low mask => exact (t.costs_readField i _).map _
  | writeEntryBits t i low mask x => exact costs_quietly (t.costs_writeField i _ x)
  | readPair t i pair => exact (t.costs_readPair i pair).map _
  | writePair t i pair x => exact costs_quietly (t.costs_writePair i pair x)
  | readSpace c space l f => exact (c.costs_readField space l f).map _
  | writeSpace c space l f x => exact costs_quietly (c.costs_writeField space l f x)
  | readDatEntry c i => exact (c.costs_readDatEntry i).map _
  | writeDatEntry c i e => exact costs_quietly (c.costs_writeDatEntry i e)
  | readDctEntry c i => exact (c.costs_readDctEntry i).map _
  | writeDctEntry c i e => exact costs_quietly (c.costs_writeDctEntry i e)
  | load o => exact .map (.load fun w => .done w) _
  | store o x => exact costs_quietly (.store (.done ()))
  | smoke c l => exact (Smoke.costs_run c l).map _

end Access

/-! ## The counters of a model -/

namespace Model

/-- The counters, reads first. -/
def stats (m : Model) : UInt64 × UInt64 := (m.reads, m.writes)

/-- A model is made with its counters at zero. -/
theorem stats_made (size : Address) (registers : List (Address × Word × Word)) :
    ((blank size).withRegisters registers).stats = (0, 0) := by
  have hkeep (m : Model) : (m.withRegisters registers).stats = m.stats := by
    induction registers generalizing m with
    | nil => rfl
    | cons r registers ih => exact ih (m.withRegister r.1 r.2.1 r.2.2)
  exact hkeep (blank size)

/-- An answered load is counted, a refused one is not. -/
theorem load_cases (m : Model) (o : Address) :
    (∃ w, (m.load o).result = .ok w ∧ (m.load o).state.stats = Tally.after ⟨1, 0⟩ m.stats) ∨
      ∃ e, (m.load o).result = .error e ∧ (m.load o).state = m := by
  by_cases h : m.Accepts o
  · left
    rw [load_of_accepts h]
    exact ⟨_, rfl, Prod.ext rfl (UInt64.add_zero _).symm⟩
  · obtain ⟨e, -, he⟩ := load_of_not_accepts h
    rw [he]
    exact .inr ⟨e, rfl, rfl⟩

theorem store_cases (m : Model) (o : Address) (v : Word) :
    ((m.store o v).result = .ok () ∧ (m.store o v).state.stats = Tally.after ⟨0, 1⟩ m.stats) ∨
      ∃ e, (m.store o v).result = .error e ∧ (m.store o v).state = m := by
  by_cases h : m.Accepts o
  · obtain ⟨hresult, hstate⟩ := store_of_accepts h v
    rw [hstate]
    exact .inl ⟨hresult, Prod.ext (UInt64.add_zero _).symm rfl⟩
  · obtain ⟨e, -, he⟩ := store_of_not_accepts h v
    rw [he]
    exact .inr ⟨e, rfl, rfl⟩

/-- Whatever program is run, the counters move by the accesses that were completed. -/
theorem stats_run {α : Type} (p : Bus α) (m : Model) :
    (p.run responder m).state.stats =
      (Tally.of (p.run responder m).transactions).after m.stats := by
  induction p generalizing m with
  | done a => exact (Tally.after_zero m.stats).symm
  | stop e => exact (Tally.after_zero m.stats).symm
  | load o next ih =>
      rcases m.load_cases o with ⟨w, hresult, hstats⟩ | ⟨e, hresult, hstate⟩
      · rw [Bus.run_load_ok (r := responder) hresult, Outcome.after, Tally.of_cons,
          Tally.after_add]
        exact (ih w _).trans (congrArg _ hstats)
      · rw [Bus.run_load_error (r := responder) hresult]
        exact (congrArg stats hstate).trans (Tally.after_zero m.stats).symm
  | store o v next ih =>
      rcases m.store_cases o v with ⟨hresult, hstats⟩ | ⟨e, hresult, hstate⟩
      · rw [Bus.run_store_ok (r := responder) hresult, Outcome.after, Tally.of_cons,
          Tally.after_add]
        exact (ih _).trans (congrArg _ hstats)
      · rw [Bus.run_store_error (r := responder) hresult]
        exact (congrArg stats hstate).trans (Tally.after_zero m.stats).symm
  | note e next ih => exact ih m

/-! ## Entries that are written in part -/

/-- A run of words is stored up to some word, which is the last unless the run fails. -/
theorem stored_of_writeRun (v : Registers) (offset : Address) (words : List Word) (m : Model) :
    let o := (v.writeRun offset words).run responder m
    ∃ k ≤ words.length, o.transactions.filterMap Transaction.stored? = words.take k ∧
      Tally.of o.transactions = ⟨0, k⟩ ∧ ((∃ e, o.result = .error e) ∨ k = words.length) := by
  intro o
  induction words generalizing offset m with
  | nil => exact ⟨0, Nat.le_refl 0, rfl, rfl, .inr rfl⟩
  | cons w words ih =>
      rcases v.writeRun_cons offset w words with ⟨e, hprogram⟩ | ⟨a, -, hprogram⟩
      · simp only [o, hprogram]
        exact ⟨0, Nat.zero_le _, rfl, rfl, .inl ⟨e, rfl⟩⟩
      · simp only [o, hprogram]
        rcases m.store_cases a w with ⟨hresult, -⟩ | ⟨e, hresult, -⟩
        · rw [Bus.run_store_ok (r := responder) hresult]
          obtain ⟨k, hk, hvalues, htally, hend⟩ :=
            ih (offset + Address.wordBytes) (responder.store a w m).state
          refine ⟨k + 1, Nat.succ_le_succ hk, ?_, ?_, hend.imp id fun h => ?_⟩
          · exact congrArg (w :: ·) hvalues
          · rw [Outcome.after, Tally.of_cons, htally, Nat.add_comm]
            rfl
          · rw [h, List.length_cons]
        · rw [Bus.run_store_error (r := responder) hresult]
          exact ⟨0, Nat.zero_le _, rfl, rfl, .inl ⟨e, rfl⟩⟩

theorem stored_of_writeEntry (t : Table) (i : UInt64) (words : List Word) (m : Model) :
    let o := (t.writeEntry i words).run responder m
    ∃ k ≤ words.length, o.transactions.filterMap Transaction.stored? = words.take k ∧
      Tally.of o.transactions = ⟨0, k⟩ ∧ ((∃ e, o.result = .error e) ∨ k = words.length) := by
  intro o
  cases hs : t.entryOffset i with
  | error e =>
      simp only [o, Table.writeEntry, hs]
      exact ⟨0, Nat.zero_le _, rfl, rfl, .inl ⟨e, rfl⟩⟩
  | ok start =>
      cases hw : t.checkWords words.length with
      | error e =>
          simp only [o, Table.writeEntry, hs, hw]
          exact ⟨0, Nat.zero_le _, rfl, rfl, .inl ⟨e, rfl⟩⟩
      | ok u =>
          simp only [o, Table.writeEntry, hs, hw]
          exact stored_of_writeRun t.registers start words m

/-! ## Whole runs -/

/-- What an observer of the bus sees of an action. -/
def transactions (m : Model) : Action → List Transaction
  | .access a => (a.program.run responder m).transactions
  | .discover c => (c.discover.run responder m).transactions
  | _ => []

namespace Action

/-- The action sets the counters back to zero. -/
def clears : Action → Bool
  | resetStats => true
  | _ => false

/-- The action gives an answer. Work behind the bus always does. -/
def Succeeds (m : Model) : Action → Prop
  | access a => ∃ x, (a.program.run responder m).result = .ok x
  | discover c => ∃ x, (c.discover.run responder m).result = .ok x
  | _ => True

/-- What an action costs that succeeds. -/
def cost : Action → Tally
  | access a => a.cost
  | discover _ => ⟨2, 0⟩
  | _ => 0

theorem Succeeds.tally_eq {m : Model} {a : Action} (h : a.Succeeds m) :
    Tally.of (m.transactions a) = a.cost := by
  cases a with
  | access a => exact h.elim fun x hx => a.costs_program.tally_eq hx
  | discover c => exact h.elim fun x hx => c.costs_discover.tally_eq hx
  | _ => rfl

end Action

/-- Transactions since the counters were last set back. -/
def ledger (m : Model) (as : List Action) : List Transaction :=
  (as.foldl (fun s a => (s.1.act a, if a.clears then [] else s.2 ++ s.1.transactions a))
    (m, [])).2

theorem ledger_append (m : Model) (as : List Action) (a : Action) :
    m.ledger (as ++ [a]) =
      if a.clears then [] else m.ledger as ++ (m.acts as).transactions a := by
  have hstate (s : Model × List Transaction) :
      (as.foldl (fun s a => (s.1.act a, if a.clears then [] else s.2 ++ s.1.transactions a))
        s).1 = s.1.acts as := by
    induction as generalizing s with
    | nil => rfl
    | cons a as ih => exact ih _
  rw [ledger, List.foldl_append, List.foldl_cons, List.foldl_nil, hstate]
  rfl

/-- One action moves the counters by what was completed, or sets them back. -/
theorem stats_act (m : Model) (a : Action) : (m.act a).stats =
    if a.clears then (0, 0) else (Tally.of (m.transactions a)).after m.stats := by
  cases a with
  | access a => exact stats_run a.program m
  | discover c => exact stats_run c.discover m
  | resetStats => rfl
  | _ => exact (Tally.after_zero m.stats).symm

/-- So does a run, from the last time they were set back on. -/
theorem stats_acts (m : Model) (as : List Action) : (m.acts as).stats =
    (Tally.of (m.ledger as)).after (if as.any Action.clears then (0, 0) else m.stats) := by
  induction as using List.reverseRecOn with
  | nil => exact (Tally.after_zero m.stats).symm
  | append_singleton as a ih =>
      rw [acts_append, stats_act, ih, ledger_append, List.any_append, List.any_cons, List.any_nil,
        Bool.or_false]
      cases a.clears with
      | true =>
          rw [Bool.or_true]
          exact (Tally.after_zero (0, 0)).symm
      | false =>
          rw [Bool.or_false]
          simp only [Bool.false_eq_true, if_false]
          rw [Tally.of_append, Tally.after_add]

/-- The counters of a model are the loads it answered and the stores it accepted since they were
last set back, or since it was made, when they are zero. An action that succeeds adds its cost,
which depends on nothing but the request, and an entry of which `k` words were stored adds `k`
stores whether or not that is all of it. -/
theorem accesses_accounted :
    (∀ size registers, ((blank size).withRegisters registers).stats = (0, 0)) ∧
    (∀ (m : Model) (as : List Action), (m.acts as).stats =
      (Tally.of (m.ledger as)).after (if as.any Action.clears then (0, 0) else m.stats)) ∧
    (∀ (m : Model) (a : Action), a.Succeeds m → a.clears = false →
      Tally.of (m.transactions a) = a.cost ∧ (m.act a).stats = a.cost.after m.stats) ∧
    ∀ (m : Model) (t : Table) (i : UInt64) (words : List Word),
      let o := (t.writeEntry i words).run responder m
      ∃ k ≤ words.length, o.transactions.filterMap Transaction.stored? = words.take k ∧
        ((∃ e, o.result = .error e) ∨ k = words.length) ∧
        (m.act (.access (.writeEntry t i words))).stats = Tally.after ⟨0, k⟩ m.stats := by
  refine ⟨stats_made, stats_acts, fun m a ha hclears => ⟨ha.tally_eq, ?_⟩, fun m t i words => ?_⟩
  · rw [stats_act, hclears, ha.tally_eq]
    rfl
  · obtain ⟨k, hk, hvalues, htally, hend⟩ := stored_of_writeEntry t i words m
    refine ⟨k, hk, hvalues, hend, ?_⟩
    rw [stats_act, ← htally, transactions, Access.program, Access.transactions_quietly]
    rfl

/-- Four words from offset 8 on, of which a window of 16 bytes has two. -/
def cutTable : Table := ⟨⟨.dat, 8, 4, 1⟩, 16⟩

/-- Some accesses are refused: the second before the counters are set back, and one in the middle
of an entry. -/
def mixedActions : List Action :=
  [.access (.load 0), .access (.load 2), .resetStats, .access (.writeEntry cutTable 0 [1, 2, 3]),
    .poke 0 7, .reset, .access (.readPair cutTable 0 1)]

theorem accesses_accounted_mixed :
    let m := blank 16
    let a : Action := .access (.writeField ⟨0, 16⟩ 0 (.ofMask 0 1) 1)
    let o := (cutTable.writeEntry 0 [1, 2, 3]).run responder m
    (m.acts mixedActions).stats = (0, 2) ∧
      a.Succeeds (m.acts mixedActions) ∧ (m.acts (mixedActions ++ [a])).stats = (1, 3) ∧
      o.result = .error (.outOfBounds 16 16) ∧
      (m.act (.access (.writeEntry cutTable 0 [1, 2, 3]))).stats = (0, 2) := by
  intro m a o
  obtain ⟨-, hruns, hcosts, hentries⟩ := accesses_accounted
  have hmixed : (m.acts mixedActions).stats = (0, 2) := by
    rw [hruns]
    decide +kernel
  have ha : a.Succeeds (m.acts mixedActions) := by
    have hfield : ((Registers.writeField ⟨0, 16⟩ 0 (.ofMask 0 1) 1).run responder
        (m.acts mixedActions)).result = .ok () := by
      decide +kernel
    exact ⟨.nothing, (Bus.run_bind_of_ok hfield).1⟩
  have hresult : o.result = .error (.outOfBounds 16 16) := by decide +kernel
  refine ⟨hmixed, ha, ?_, hresult, ?_⟩
  · rw [acts_append, (hcosts _ a ha rfl).2, hmixed]
    rfl
  · obtain ⟨k, -, hvalues, -, hstats⟩ := hentries m cutTable 0 [1, 2, 3]
    have hstored : o.transactions.filterMap Transaction.stored? = [1, 2] := by decide +kernel
    have hlength := congrArg List.length (hvalues.symm.trans hstored)
    have hk : k = 2 := by
      simp only [List.length_take, List.length_cons, List.length_nil] at hlength
      omega
    rw [hstats, hk]
    rfl

end Model

end I3CHost
