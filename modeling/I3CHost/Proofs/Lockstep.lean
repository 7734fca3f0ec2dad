import I3CHost.Proofs.Agreement
import I3CHost.Proofs.Discovery

/-!
# The smoke sequence over two windows

Two windows that accept every access may answer loads with words that have nothing to do with each
other. The sequence then makes the same accesses on both, up to the words. A move says what two
runs have in common at one access: a load is at the same address, a plain store is of the same word
as well, and a store that ends a read-modify-write agrees inside the mask of its field. The moves of
the sequence are read off its steps and are the same for every controller.

`Lockstep` compares two programs move by move. What one of them loaded never reaches the other, so
whatever they do alike cannot depend on it. A program that stops does so on both sides with one
fault, and the rest of its moves is not made.
-/
namespace I3CHost

variable {α β γ δ σ τ : Type}

/-! ## Moves -/

inductive Move where
  | load
  | store
  /-- The store of a field, which settles the bits of a mask. -/
  | patch (mask : Word)
deriving DecidableEq, Repr

def Move.isLoad : Move → Bool
  | load => true
  | store | patch _ => false

def Transaction.isLoad : Transaction → Bool
  | load .. => true
  | store .. => false

/-- Two accesses at one address, with what the move asks of their words. -/
inductive Move.Matches : Move → Transaction → Transaction → Prop
  | load (o : Address) (w v : Option Word) : Matches load (.load o w) (.load o v)
  | store (o : Address) (w : Word) (accepted : Bool) :
      Matches store (.store o w accepted) (.store o w accepted)
  | patch {o : Address} {mask w v : Word} {accepted : Bool} :
      Word.AgreeOn mask w v → Matches (patch mask) (.store o w accepted) (.store o v accepted)

theorem Move.Matches.visit_eq {m : Move} {t u : Transaction} (h : m.Matches t u) :
    t.visit = u.visit := by
  cases h <;> rfl

theorem Move.Matches.isLoad_eq {m : Move} {t u : Transaction} (h : m.Matches t u) :
    t.isLoad = m.isLoad := by
  cases h <;> rfl

/-- Accesses of two runs that match some moves one by one; moves may be left over. -/
inductive Paired : List Move → List Transaction → List Transaction → Prop
  | nil (ms : List Move) : Paired ms [] []
  | cons {m : Move} {ms : List Move} {t u : Transaction} {ts us : List Transaction} :
      m.Matches t u → Paired ms ts us → Paired (m :: ms) (t :: ts) (u :: us)

namespace Paired

variable {ms : List Move} {ts us : List Transaction}

theorem visits_eq (h : Paired ms ts us) : ts.map Transaction.visit = us.map Transaction.visit := by
  induction h with
  | nil => rfl
  | cons hm _ ih => rw [List.map_cons, List.map_cons, hm.visit_eq, ih]

/-- If every move was made, the kinds of the accesses are those of the moves. -/
theorem kinds_eq (h : Paired ms ts us) (hall : ts.length = ms.length) :
    ts.map Transaction.isLoad = ms.map Move.isLoad := by
  induction h with
  | nil ms =>
      rw [List.eq_nil_of_length_eq_zero hall.symm]
      rfl
  | cons hm _ ih => rw [List.map_cons, List.map_cons, hm.isLoad_eq, ih (Nat.succ.inj hall)]

end Paired

/-! ## Programs that keep pace -/

namespace Bus

/-- Two programs that make the same moves, whatever they load. -/
inductive Lockstep (R : α → β → Prop) : List Move → Bus α → Bus β → Prop
  | done {a : α} {b : β} : R a b → Lockstep R [] (done a) (done b)
  | stop (ms : List Move) (e : Fault) : Lockstep R ms (stop e) (stop e)
  | load {o : Address} {ms : List Move} {p : Word → Bus α} {q : Word → Bus β} :
      (∀ w v, Lockstep R ms (p w) (q v)) → Lockstep R (.load :: ms) (load o p) (load o q)
  | store {o : Address} {w : Word} {ms : List Move} {p : Bus α} {q : Bus β} :
      Lockstep R ms p q → Lockstep R (.store :: ms) (store o w p) (store o w q)
  | patch {o : Address} {mask w v : Word} {ms : List Move} {p : Bus α} {q : Bus β} :
      Word.AgreeOn mask w v → Lockstep R ms p q →
        Lockstep R (.patch mask :: ms) (store o w p) (store o v q)
  | noteLeft {e : Event} {ms : List Move} {p : Bus α} {q : Bus β} :
      Lockstep R ms p q → Lockstep R ms (note e p) q
  | noteRight {e : Event} {ms : List Move} {p : Bus α} {q : Bus β} :
      Lockstep R ms p q → Lockstep R ms p (note e q)

variable {R : α → β → Prop} {S : γ → δ → Prop} {ms ns : List Move}

theorem Lockstep.bind {p : Bus α} {q : Bus β} {f : α → Bus γ} {g : β → Bus δ}
    (h : Lockstep R ms p q) (hf : ∀ a b, R a b → Lockstep S ns (f a) (g b)) :
    Lockstep S (ms ++ ns) (p.bind f) (q.bind g) := by
  induction h with
  | done hab => exact hf _ _ hab
  | stop ms e => exact .stop _ e
  | load _ ih => exact .load ih
  | store _ ih => exact .store ih
  | patch hwv _ ih => exact .patch hwv ih
  | noteLeft _ ih => exact .noteLeft ih
  | noteRight _ ih => exact .noteRight ih

theorem Lockstep.note {e e' : Event} {p : Bus α} {q : Bus β} (h : Lockstep R ms p q) :
    Lockstep R ms (.note e p) (.note e' q) :=
  .noteLeft (.noteRight h)

theorem Lockstep.map {p : Bus α} {q : Bus β} {f : α → γ} {g : β → δ} (h : Lockstep R ms p q)
    (hf : ∀ a b, R a b → S (f a) (g b)) : Lockstep S ms (p.bind fun a => .done (f a))
      (q.bind fun b => .done (g b)) := by
  have hmap := h.bind fun a b hab => Lockstep.done (hf a b hab)
  rwa [List.append_nil] at hmap

theorem lockstep_check {x : Except Fault α} {f : α → Bus γ} {g : α → Bus δ}
    (hf : ∀ a, x = .ok a → Lockstep S ms (f a) (g a)) :
    Lockstep S ms ((ofExcept x).bind f) ((ofExcept x).bind g) := by
  cases x with
  | ok a => exact hf a rfl
  | error e => exact .stop ms e

/-- A program that makes no access and ends with `a`. -/
inductive Ends : Bus α → α → Prop
  | done (a : α) : Ends (done a) a
  | note {e : Event} {p : Bus α} {a : α} : Ends p a → Ends (note e p) a

theorem Ends.bind {p : Bus α} {f : α → Bus β} {a : α} {b : β} (hp : p.Ends a)
    (hf : (f a).Ends b) : (p.bind f).Ends b := by
  induction hp with
  | done a => exact hf
  | note _ ih => exact .note (ih hf)

theorem Ends.run {p : Bus α} {a : α} (hp : p.Ends a) (r : Responder σ) (s : σ) :
    (p.run r s).result = .ok a ∧ (p.run r s).state = s := by
  induction hp with
  | done a => exact ⟨rfl, rfl⟩
  | note _ ih => exact ih

theorem Ends.lockstep {p : Bus α} {q : Bus β} {a : α} {b : β} (hp : p.Ends a) (hq : q.Ends b)
    (hab : R a b) : Lockstep R [] p q := by
  induction hp with
  | note _ ih => exact .noteLeft (ih hab)
  | done a =>
      induction hq with
      | note _ ih => exact .noteRight (ih hab)
      | done b => exact .done hab

end Bus

structure Accepting (r : Responder σ) : Prop where
  load (o : Address) (s : σ) : ∃ w, (r.load o s).result = .ok w
  store (o : Address) (v : Word) (s : σ) : (r.store o v s).result = .ok ()

/-- Over windows that refuse nothing, programs in lockstep end with related values or one fault,
and their accesses are paired. A value means that every move was made. -/
theorem Bus.Lockstep.run {R : α → β → Prop} {ms : List Move} {p : Bus α} {q : Bus β}
    (h : Lockstep R ms p q) {r : Responder σ} {r' : Responder τ} (hr : Accepting r)
    (hr' : Accepting r') (s : σ) (t : τ) :
    let o := p.run r s
    let o' := q.run r' t
    ResultsAlike R o.result o'.result ∧ Paired ms o.transactions o'.transactions ∧
      ∀ a, o.result = .ok a → o.transactions.length = ms.length := by
  induction h generalizing s t with
  | done hab => exact ⟨hab, .nil [], fun _ _ => rfl⟩
  | stop ms e => exact ⟨rfl, .nil ms, fun _ ha => by cases ha⟩
  | @load o ms p q _ ih =>
      obtain ⟨w, hw⟩ := hr.load o s
      obtain ⟨v, hv⟩ := hr'.load o t
      obtain ⟨hresult, hpaired, hall⟩ := ih w v (r.load o s).state (r'.load o t).state
      rw [Bus.run_load_ok hw, Bus.run_load_ok hv]
      exact ⟨hresult, .cons (.load o _ _) hpaired, fun a ha => congrArg Nat.succ (hall a ha)⟩
  | @store o w ms p q _ ih =>
      obtain ⟨hresult, hpaired, hall⟩ := ih (r.store o w s).state (r'.store o w t).state
      rw [Bus.run_store_ok (hr.store o w s), Bus.run_store_ok (hr'.store o w t)]
      exact ⟨hresult, .cons (.store o w true) hpaired, fun a ha => congrArg Nat.succ (hall a ha)⟩
  | @patch o mask w v ms p q hwv _ ih =>
      obtain ⟨hresult, hpaired, hall⟩ := ih (r.store o w s).state (r'.store o v t).state
      rw [Bus.run_store_ok (hr.store o w s), Bus.run_store_ok (hr'.store o v t)]
      exact ⟨hresult, .cons (.patch hwv) hpaired, fun a ha => congrArg Nat.succ (hall a ha)⟩
  | noteLeft _ ih => exact ih s t
  | noteRight _ ih => exact ih s t

/-! ## Views -/

/-- Two runs of one program make these moves; nothing is said about its values. -/
def Bus.Paces (ms : List Move) (p : Bus α) : Prop := Lockstep (fun _ _ => True) ms p p

namespace Registers

variable (v : Registers) (offset : Address)

theorem paces_read : (v.read offset).Paces [.load] :=
  Bus.lockstep_check fun _ _ => .load fun _ _ => .done trivial

theorem paces_write (value : Word) : (v.write offset value).Paces [.store] :=
  Bus.lockstep_check fun _ _ => .store (.done trivial)

theorem paces_readField (f : Field) : (v.readField offset f).Paces [.load] :=
  Bus.lockstep_check fun _ _ => .load fun _ _ => .note (.done trivial)

/-- The word stored is the field's value inside the mask, whatever the word loaded was. -/
theorem paces_writeField (f : Field) (value : Word) :
    (v.writeField offset f value).Paces [.load, .patch f.mask] := by
  refine Bus.lockstep_check fun a _ => .load fun w x => .note (.patch ?_ (.done trivial))
  have hw := Word.agreeOn_merge f.mask w (value.up f.low)
  have hx := Word.agreeOn_merge f.mask x (value.up f.low)
  exact hw.trans hx.symm

theorem paces_writeRun (words : List Word) :
    (v.writeRun offset words).Paces (List.replicate words.length .store) := by
  induction words generalizing offset with
  | nil => exact .done trivial
  | cons w words ih => exact (v.paces_write offset w).bind fun _ _ _ => ih _

theorem paces_readVector (n : Nat) :
    (v.readVector offset n).Paces (List.replicate n .load) := by
  induction n with
  | zero => exact .done trivial
  | succ n ih =>
      rw [List.replicate_succ']
      exact ih.bind fun ws xs _ => (v.paces_read _).map fun _ _ _ => trivial

end Registers

namespace Table

variable (t : Table) (i : UInt64)

theorem paces_writeEntry (words : List Word) :
    (t.writeEntry i words).Paces (List.replicate words.length .store) :=
  Bus.lockstep_check fun start _ => Bus.lockstep_check fun _ _ =>
    .note (t.registers.paces_writeRun start words)

theorem paces_readWords (n : Nat) : (t.readWords i n).Paces (List.replicate n .load) :=
  Bus.lockstep_check fun start _ => Bus.lockstep_check fun _ _ =>
    t.registers.paces_readVector start n

theorem paces_readField (f : Field) : (t.readField i f).Paces [.load] :=
  Bus.lockstep_check fun start _ => Bus.lockstep_check fun _ _ =>
    t.registers.paces_readField start f

theorem paces_writeField (f : Field) (value : Word) :
    (t.writeField i f value).Paces [.load, .patch f.mask] :=
  Bus.lockstep_check fun start _ => Bus.lockstep_check fun _ _ =>
    t.registers.paces_writeField start f value

end Table

/-! ## The sequence -/

namespace Smoke

/-- The moves of a step, if it gets to make them all. -/
def Step.moves : Step → List Move
  | .announce _ => []
  | .write .. => [.store]
  | .writeField _ f _ => [.load, .patch f.mask]
  | .expect .. => [.load]
  | .expectField .. => [.load]
  | .writeEntry _ _ words => List.replicate words.length .store
  | .expectEntry _ _ words => List.replicate words.length .load
  | .writeEntryField _ _ f _ => [.load, .patch f.mask]
  | .expectEntryField .. => [.load]

/-- The checks of words against the words expected, numbered from `k`. -/
def wordChecks (name : String) : Nat → List Word → List Word → List Check
  | k, e :: es, a :: as => ⟨s!"{name} word {k}", e, a⟩ :: wordChecks name (k + 1) es as
  | _, _, _ => []

theorem record_ends (r : Report) (c : Check) : (record r c).Ends (r.add c) :=
  .note (.done _)

theorem recordWords_ends (name : String) (k : Nat) (r : Report) (expected actual : List Word) :
    (recordWords name k r expected actual).Ends
      ⟨r.checks ++ wordChecks name k expected actual⟩ := by
  induction expected generalizing k r actual with
  | nil =>
      rw [wordChecks, List.append_nil]
      exact .done r
      nofun
  | cons e es ih =>
      cases actual with
      | nil =>
          rw [wordChecks, List.append_nil]
          exact .done r
          nofun
      | cons a as =>
          have hrest := ih (k + 1) (r.add ⟨s!"{name} word {k}", e, a⟩) as
          rw [Report.add, List.append_assoc] at hrest
          exact (record_ends r _).bind hrest

/-- Names and expected values are given; only what was read is not. -/
theorem sameChecks_wordChecks (name : String) (k : Nat) (expected ws xs : List Word)
    (hlen : ws.length = xs.length) :
    Report.SameChecks ⟨wordChecks name k expected ws⟩ ⟨wordChecks name k expected xs⟩ := by
  induction expected generalizing k ws xs with
  | nil => cases ws <;> cases xs <;> rfl
  | cons e es ih =>
      cases ws with
      | nil =>
          rw [List.eq_nil_of_length_eq_zero hlen.symm]
          rfl
      | cons w ws =>
          cases xs with
          | nil => cases hlen
          | cons x xs => exact congrArg (List.cons _) (ih (k + 1) ws xs (Nat.succ.inj hlen))

section
variable {r r' : Report} (h : r.SameChecks r')
include h

theorem sameChecks_append {cs cs' : List Check} (hcs : Report.SameChecks ⟨cs⟩ ⟨cs'⟩) :
    Report.SameChecks ⟨r.checks ++ cs⟩ ⟨r'.checks ++ cs'⟩ := by
  unfold Report.SameChecks at h hcs ⊢
  rw [List.map_append, List.map_append, h, hcs]

theorem lockstep_record (name : String) (expected actual actual' : Word) :
    Bus.Lockstep Report.SameChecks [] (record r ⟨name, expected, actual⟩)
      (record r' ⟨name, expected, actual'⟩) :=
  (record_ends r _).lockstep (record_ends r' _) (sameChecks_append h rfl)

theorem lockstep_step (c : Controller) (s : Step) :
    Bus.Lockstep Report.SameChecks s.moves (s.run c r) (s.run c r') := by
  cases s with
  | announce title => exact .note (.done h)
  | write offset value => exact (c.csr.paces_write offset value).bind fun _ _ _ => .done h
  | writeField offset f value =>
      exact (c.csr.paces_writeField offset f value).bind fun _ _ _ => .done h
  | expect name expected offset =>
      exact (c.csr.paces_read offset).bind fun w x _ => lockstep_record h name expected w x
  | expectField name expected offset f =>
      exact (c.csr.paces_readField offset f).bind fun w x _ => lockstep_record h name expected w x
  | writeEntry table index words =>
      exact ((c.table table).paces_writeEntry index words).map fun _ _ _ => h
  | expectEntry table index words =>
      have hrecord (ws xs : Vector Word words.length) :
          Bus.Lockstep Report.SameChecks []
            (recordWords (entryName table index) 0 r words ws.toList)
            (recordWords (entryName table index) 0 r' words xs.toList) :=
        (recordWords_ends _ 0 r words ws.toList).lockstep (recordWords_ends _ 0 r' words xs.toList)
          (sameChecks_append h (sameChecks_wordChecks _ 0 words _ _ (by simp)))
      have hwords := ((c.table table).paces_readWords index words.length).bind
        fun ws xs _ => hrecord ws xs
      rwa [List.append_nil] at hwords
  | writeEntryField table index f value =>
      exact ((c.table table).paces_writeField index f value).bind fun _ _ _ => .done h
  | expectEntryField name expected table index f =>
      exact ((c.table table).paces_readField index f).bind fun w x _ =>
        lockstep_record h name expected w x

theorem lockstep_runSteps (c : Controller) (steps : List Step) :
    Bus.Lockstep Report.SameChecks (steps.flatMap Step.moves) (runSteps c r steps)
      (runSteps c r' steps) := by
  induction steps generalizing r r' with
  | nil => exact .done h
  | cons s steps ih => exact (lockstep_step h c s).bind fun _ _ hs => ih hs

end

/-- The check of the interrupt bookkeeping. -/
def interruptCheck (l : InterruptLog) : Check :=
  ⟨"I3C error interrupt", 0, (l.isPending .i3c .error).toUInt32⟩

def closing (l : InterruptLog) (r : Report) : Bus Report :=
  (record r (interruptCheck l)).bind fun r => .note (.smokeTotals r.passed r.failed) (.done r)

theorem run_eq (c : Controller) (l : InterruptLog) :
    run c l = (runSteps c .empty script).bind (closing l) := rfl

theorem closing_ends (l : InterruptLog) (r : Report) :
    (closing l r).Ends (r.add (interruptCheck l)) :=
  (record_ends r _).bind (.note (.done _))

/-- The whole sequence, under any two states of the interrupt bookkeeping. -/
theorem lockstep_run (c : Controller) (l l' : InterruptLog) :
    Bus.Lockstep Report.SameChecks (script.flatMap Step.moves) (run c l) (run c l') := by
  have hrun := (lockstep_runSteps (r := .empty) rfl c script).bind fun r r' hs =>
    (closing_ends l r).lockstep (closing_ends l' r') (sameChecks_append hs rfl)
  rw [List.append_nil] at hrun
  exact hrun

/-! ## Tables too small -/

/-- A table has no entry for the test words, or entries too short for them. -/
def TooSmall (c : Controller) : Prop :=
  c.dat.capacity ≤ datTestIndex ∨ c.dat.entryWords.toNat < datTestWords.length ∨
    c.dct.capacity ≤ dctTestIndex ∨ c.dct.entryWords.toNat < dctTestWords.length

/-- In a sequence that ends with a report, every step has ended with one. -/
theorem step_of_runSteps {q : Responder σ} {c : Controller} {steps : List Step} {r x : Report}
    {t : σ} (h : ((runSteps c r steps).run q t).result = .ok x) {s : Step} (hs : s ∈ steps) :
    ∃ r' t' y, ((s.run c r').run q t').result = .ok y := by
  induction steps generalizing r t with
  | nil => cases hs
  | cons s' steps ih =>
      have hrun : runSteps c r (s' :: steps) = (s'.run c r).bind fun y => runSteps c y steps := rfl
      rw [hrun] at h
      obtain ⟨y, hfirst, hrest⟩ := Bus.run_bind_eq_ok h
      rcases List.mem_cons.mp hs with rfl | hs
      · exact ⟨r, t, y, hfirst⟩
      · exact ih hrest hs

theorem entry_of_writeEntry {q : Responder σ} {t : Table} {i : UInt64} {words : List Word} {s : σ}
    (h : ((t.writeEntry i words).run q s).result = .ok ()) :
    i < t.layout.capacity ∧ words.length ≤ t.layout.entryWords.toNat := by
  unfold Table.writeEntry at h
  cases hs : t.entryOffset i with
  | error e =>
      rw [hs] at h
      cases h
  | ok start =>
      cases hw : t.checkWords words.length with
      | error e =>
          rw [hs, hw] at h
          cases h
      | ok u => exact ⟨(Table.entryOffset_eq_ok hs).1, Table.checkWords_eq_ok.mp hw⟩

/-- A sequence that ends with a report had room for its test words. -/
theorem not_tooSmall_of_run {q : Responder σ} {c : Controller} {l : InterruptLog} {x : Report}
    {t : σ} (h : ((run c l).run q t).result = .ok x) : ¬ TooSmall c := by
  rw [run_eq] at h
  obtain ⟨y, hsteps, -⟩ := Bus.run_bind_eq_ok h
  have hroom (kind : TableKind) (i : UInt64) (words : List Word)
      (hs : Step.writeEntry kind i words ∈ script) :
      i < (c.layout kind).capacity ∧ words.length ≤ (c.layout kind).entryWords.toNat := by
    obtain ⟨r, s, z, hz⟩ := step_of_runSteps hsteps hs
    have hstep : (Step.writeEntry kind i words).run c r =
        ((c.table kind).writeEntry i words).bind fun _ => .done r := rfl
    rw [hstep] at hz
    obtain ⟨u, hw, -⟩ := Bus.run_bind_eq_ok hz
    exact entry_of_writeEntry hw
  obtain ⟨hdat, hdat'⟩ := hroom .dat datTestIndex datTestWords (by simp [script])
  obtain ⟨hdct, hdct'⟩ := hroom .dct dctTestIndex dctTestWords (by simp [script])
  rintro (hsmall | hsmall | hsmall | hsmall)
  · exact UInt64.not_le.mpr hdat hsmall
  · exact Nat.not_lt.mpr hdat' hsmall
  · exact UInt64.not_le.mpr hdct hsmall
  · exact Nat.not_lt.mpr hdct' hsmall

/-- Two runs of the sequence over windows that refuse nothing, with one controller and any two
states of the interrupt bookkeeping. They make the same accesses, and end with one fault or with
reports that name and expect the same. A plain store is of the same word on both sides, the store of
a field agrees inside its mask. A run that ends with a report has made 24 loads and 14 stores. If a
table is too small for the test words, both runs end with one fault. -/
theorem run_blind {r : Responder σ} {r' : Responder τ} (hr : Accepting r) (hr' : Accepting r')
    (c : Controller) (l l' : InterruptLog) (s : σ) (t : τ) :
    let o := (run c l).run r s
    let o' := (run c l').run r' t
    o.transactions.map Transaction.visit = o'.transactions.map Transaction.visit ∧
      ResultsAlike Report.SameChecks o.result o'.result ∧
      Paired (script.flatMap Step.moves) o.transactions o'.transactions ∧
      (∀ x, o.result = .ok x → o.transactions.countP Transaction.isLoad = 24 ∧
        o.transactions.countP (fun a => !a.isLoad) = 14) ∧
      (TooSmall c → ∃ e, o.result = .error e ∧ o'.result = .error e) := by
  intro o o'
  obtain ⟨hresult, hpaired, hall⟩ := (lockstep_run c l l').run hr hr' s t
  refine ⟨hpaired.visits_eq, hresult, hpaired, fun x hx => ?_, fun hsmall => ?_⟩
  · have hkinds := hpaired.kinds_eq (hall x hx)
    have hcount (p : Bool → Bool) : o.transactions.countP (p ∘ Transaction.isLoad) =
        (script.flatMap Step.moves).countP (p ∘ Move.isLoad) := by
      rw [← List.countP_map, ← List.countP_map, hkinds]
    exact ⟨hcount id, hcount not⟩
  · cases hx : o.result with
    | ok x => exact (not_tooSmall_of_run hx hsmall).elim
    | error e =>
        cases hx' : o'.result with
        | ok x' => exact (not_tooSmall_of_run hx' hsmall).elim
        | error e' =>
            have he : e = e' := by
              change ResultsAlike _ o.result o'.result at hresult
              rwa [hx, hx'] at hresult
            exact ⟨e, rfl, by rw [he]⟩

/-- A window without memory: every load is answered with one word. -/
def constant (w : Word) : Responder Unit where
  load _ u := ⟨.ok w, u, []⟩
  store _ _ u := ⟨.ok (), u, []⟩

theorem accepting_constant (w : Word) : Accepting (constant w) where
  load _ _ := ⟨w, rfl⟩
  store _ _ _ := rfl

/-- All words 0 on one side, all bits set and an error pending on the other: the reports differ, the
accesses do not. With a DAT of five entries both runs end at the entry that is not there. -/
theorem run_blind_constants :
    let pending := InterruptLog.empty.record .i3c .error
    let o := (run (.standard 0x1000) .empty).run (constant 0) ()
    let o' := (run (.standard 0x1000) pending).run (constant Word.ones) ()
    let short : Controller := ⟨0x1000, { TableLayout.dat with capacity := 5 }, .dct⟩
    o.result.isOk = true ∧ o.result ≠ o'.result ∧
      o.transactions.map Transaction.visit = o'.transactions.map Transaction.visit ∧
      ResultsAlike Report.SameChecks o.result o'.result ∧
      ∃ e, ((run short .empty).run (constant 0) ()).result = .error e ∧
        ((run short pending).run (constant Word.ones) ()).result = .error e := by
  intro pending o o' short
  have hzeros := accepting_constant 0
  have hones := accepting_constant Word.ones
  obtain ⟨hvisits, hresult, -⟩ :=
    run_blind hzeros hones (.standard 0x1000) .empty pending () ()
  have hsmall : TooSmall short := .inl (by decide)
  obtain ⟨-, -, -, -, hboth⟩ := run_blind hzeros hones short .empty pending () ()
  exact ⟨by decide +kernel, by decide +kernel, hvisits, hresult, hboth hsmall⟩

end Smoke

end I3CHost
