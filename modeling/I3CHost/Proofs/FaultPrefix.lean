import I3CHost.Proofs.Agreement
import I3CHost.Proofs.FieldWrites
import I3CHost.Proofs.Methods

/-!
# Operations cut short

A responder may pass some accesses and then fail one. `Cut` says so of a responder by comparing it
with the one whose accesses it passes; what it does after the failure is left open, so an operation
that tried again would not be covered by accident.

A method is handed the fault and might do anything then; that none of the driver's does is seen by
what they equal. Each operation is a bus program, and for these the law is one induction: cut after
`n` accesses, a program fails with the fault of the responder, its transactions are the first `n` of
the run without fault and the next one unanswered, and the memory is what those `n` left. What the
leading accesses leave can be said word by word if the state behind the responder is a memory: an
entry holds the words stored so far, and a field write has stored nothing before its last access.
-/
namespace I3CHost

variable {α σ τ W : Type}

/-! ## Transactions without a program -/

/-- The same access, unanswered. -/
def Transaction.failed : Transaction → Transaction
  | load o _ => .load o none
  | store o v _ => .store o v false

/-- The state that some accesses leave. -/
def replay (r : Responder σ) : List Transaction → σ → σ
  | [], s => s
  | .load o _ :: ts, s => replay r ts (r.load o s).state
  | .store o v _ :: ts, s => replay r ts (r.store o v s).state

/-! ## Responders that fail once -/

/-- While `r'` passes accesses it does as `r` does on the memory behind it; then it fails one with
`why`, and the memory stays. -/
structure Cut (why : Fault) (r : Responder σ) (memory : τ → σ) (passes : Nat → τ → Prop)
    (r' : Responder τ) : Prop where
  load {n : Nat} {t : τ} (o : Address) : passes (n + 1) t →
    (r'.load o t).result = (r.load o (memory t)).result ∧
      memory (r'.load o t).state = (r.load o (memory t)).state ∧ passes n (r'.load o t).state
  store {n : Nat} {t : τ} (o : Address) (v : Word) : passes (n + 1) t →
    (r'.store o v t).result = (r.store o v (memory t)).result ∧
      memory (r'.store o v t).state = (r.store o v (memory t)).state ∧
        passes n (r'.store o v t).state
  load_last {t : τ} (o : Address) : passes 0 t →
    (r'.load o t).result = .error why ∧ memory (r'.load o t).state = memory t
  store_last {t : τ} (o : Address) (v : Word) : passes 0 t →
    (r'.store o v t).result = .error why ∧ memory (r'.store o v t).state = memory t

/-- A fuse with accesses left cuts the responder it guards. -/
theorem Fuse.cut (why : Fault) (r : Responder σ) :
    Cut why r (Prod.snd : Fuse × σ → σ) (fun n t => t.1 = ⟨some n⟩) (guard why r) where
  load o ht := by
    simp only [guard, ht, pass, and_self]
  store o v ht := by
    simp only [guard, ht, pass, and_self]
  load_last o ht := by
    simp only [guard, ht, pass, and_self]
  store_last o v ht := by
    simp only [guard, ht, pass, and_self]

namespace Cut

variable {why : Fault} {r : Responder σ} {memory : τ → σ} {passes : Nat → τ → Prop}
variable {r' : Responder τ} {n : Nat} {t : τ} {c : Transaction}

theorem failed_load {o : Address} {next : Word → Bus α} {s : σ}
    (h : ((Bus.load o next).run r s).transactions[0]? = some c) : c.failed = .load o none := by
  cases hr : (r.load o s).result with
  | ok w =>
      rw [Bus.run_load_ok hr] at h
      cases h
      rfl
  | error e =>
      rw [Bus.run_load_error hr] at h
      cases h
      rfl

theorem failed_store {o : Address} {v : Word} {next : Bus α} {s : σ}
    (h : ((Bus.store o v next).run r s).transactions[0]? = some c) :
    c.failed = .store o v false := by
  cases hr : (r.store o v s).result with
  | ok u =>
      rw [Bus.run_store_ok hr] at h
      cases h
      rfl
  | error e =>
      rw [Bus.run_store_error hr] at h
      cases h
      rfl

/-- A program cut after `n` accesses, where `c` is the access that would have come next. -/
theorem run (hc : Cut why r memory passes r') {p : Bus α} (hp : passes n t)
    (hn : (p.run r (memory t)).transactions[n]? = some c) :
    (p.run r' t).result = .error why ∧
      (p.run r' t).transactions = (p.run r (memory t)).transactions.take n ++ [c.failed] ∧
      memory (p.run r' t).state =
        replay r ((p.run r (memory t)).transactions.take n) (memory t) := by
  induction p generalizing n t with
  | done a => cases hn
  | stop e => cases hn
  | load o next ih =>
      cases n with
      | zero =>
          obtain ⟨hr, hs⟩ := hc.load_last o hp
          rw [Bus.run_load_error hr, failed_load hn]
          exact ⟨rfl, rfl, hs⟩
      | succ n =>
          obtain ⟨hr, hs, hp'⟩ := hc.load o hp
          cases h : (r.load o (memory t)).result with
          | error e =>
              rw [Bus.run_load_error h] at hn
              cases hn
          | ok w =>
              rw [Bus.run_load_ok h, ← hs] at hn ⊢
              rw [Bus.run_load_ok (hr.trans h)]
              obtain ⟨hresult, htransactions, hstate⟩ := ih w hp' hn
              refine ⟨hresult, congrArg (List.cons _) htransactions, hstate.trans ?_⟩
              rw [hs]
              rfl
  | store o v next ih =>
      cases n with
      | zero =>
          obtain ⟨hr, hs⟩ := hc.store_last o v hp
          rw [Bus.run_store_error hr, failed_store hn]
          exact ⟨rfl, rfl, hs⟩
      | succ n =>
          obtain ⟨hr, hs, hp'⟩ := hc.store o v hp
          cases h : (r.store o v (memory t)).result with
          | error e =>
              rw [Bus.run_store_error h] at hn
              cases hn
          | ok u =>
              rw [Bus.run_store_ok h, ← hs] at hn ⊢
              rw [Bus.run_store_ok (hr.trans h)]
              obtain ⟨hresult, htransactions, hstate⟩ := ih hp' hn
              refine ⟨hresult, congrArg (List.cons _) htransactions, hstate.trans ?_⟩
              rw [hs]
              rfl
  | note e next ih => exact ih hp hn

end Cut

/-! ## What the leading accesses leave in a memory -/

/-- The state of `r` holds words. Loads change none, and a store that is accepted is to a word of
the address space, and changes that one. -/
structure Memory (r : Responder σ) (word : σ → Nat → W) (put : Word → W → W) : Prop where
  load (o : Address) (s : σ) (k : Nat) : word (r.load o s).state k = word s k
  aligned {o : Address} {v : Word} {s : σ} : (r.store o v s).result = .ok () →
    o.toNat % 4 = 0 ∧ o.toNat + 4 < UInt64.size
  store {o : Address} {v : Word} {s : σ} : (r.store o v s).result = .ok () → ∀ k,
    word (r.store o v s).state k = if k = o.toNat / 4 then put v (word s k) else word s k

theorem Model.accepts_of_store {m : Model} {o : Address} {v : Word}
    (h : (m.store o v).result = .ok ()) : m.Accepts o := by
  by_contra hno
  obtain ⟨e, -, he⟩ := store_of_not_accepts hno v
  rw [he] at h
  cases h

/-- The words of a model are a memory, together with their masks and reset values. -/
theorem Model.memory :
    Memory Model.responder (fun m k => m.cells[k]?) (fun v => Option.map (Cell.store · v)) where
  load o m k := by
    rw [responder_load, cells_load]
  aligned {o v m} h := by
    have hacc : m.Accepts o := accepts_of_store h
    have hsize := m.size.toNat_lt_size
    have hend := hacc.2
    exact ⟨hacc.1, by omega⟩
  store {o v m} h k := by
    have hacc : m.Accepts o := accepts_of_store h
    rw [responder_store, cells_store, index_eq]
    simp only [hacc, true_and]

/-- From `s` to `s'` the first `n` of some words have been stored to their places, and all other
words are as they were. -/
structure Stored (word : σ → Nat → W) (put : Word → W → W) (place : Nat → Nat) (words : List Word)
    (n : Nat) (s s' : σ) : Prop where
  leading (j : Nat) : j < n →
    ∃ w, words[j]? = some w ∧ word s' (place j) = put w (word s (place j))
  others (k : Nat) : (∀ j < n, k ≠ place j) → word s' k = word s k

namespace Stored

variable {word : σ → Nat → W} {put : Word → W → W} {place : Nat → Nat} {n : Nat} {s s₁ s' : σ}

theorem zero (words : List Word) : Stored word put place words 0 s s where
  leading j hj := by cases hj
  others k _ := rfl

/-- One word more in front, at a place of its own. -/
theorem cons {w : Word} {words : List Word}
    (hfirst : ∀ k, word s₁ k = if k = place 0 then put w (word s k) else word s k)
    (hapart : ∀ j < n, place (j + 1) ≠ place 0)
    (h : Stored word put (fun j => place (j + 1)) words n s₁ s') :
    Stored word put place (w :: words) (n + 1) s s' where
  leading j hj := by
    cases j with
    | zero =>
        refine ⟨w, rfl, ?_⟩
        rw [h.others (place 0) fun j hj => (hapart j hj).symm, hfirst, if_pos rfl]
    | succ j =>
        have hj := Nat.lt_of_succ_lt_succ hj
        obtain ⟨x, hx, hput⟩ := h.leading j hj
        refine ⟨x, hx, ?_⟩
        rw [hput, hfirst, if_neg (hapart j hj)]
  others k hk := by
    rw [h.others k fun j hj => hk (j + 1) (Nat.succ_lt_succ hj), hfirst,
      if_neg (hk 0 n.succ_pos)]

end Stored

namespace Registers

variable {v : Registers} {offset a : Address}

/-- Where the register `j` words after `offset` stands, if it is an address at all. -/
def wordAddress (v : Registers) (offset : Address) (j : Nat) : Address :=
  v.base + Table.wordFrom offset j

theorem wordAddress_zero (h : v.address offset = .ok a) : v.wordAddress offset 0 = a := by
  rw [wordAddress, Table.wordFrom_zero, (address_eq_ok h).1]

theorem wordAddress_succ (v : Registers) (offset : Address) (j : Nat) :
    v.wordAddress (offset + Address.wordBytes) j = v.wordAddress offset (j + 1) := by
  rw [wordAddress, Table.wordFrom_succ, wordAddress]

/-- A run of words stores the first of them, or ends before it reaches the bus. -/
theorem writeRun_cons (v : Registers) (offset : Address) (w : Word) (words : List Word) :
    (∃ e, v.writeRun offset (w :: words) = .stop e) ∨
      ∃ a, v.address offset = .ok a ∧ v.writeRun offset (w :: words) =
        .store a w (v.writeRun (offset + Address.wordBytes) words) := by
  have hunfold : v.writeRun offset (w :: words) = (Bus.ofExcept (v.address offset)).bind fun a =>
      .store a w (v.writeRun (offset + Address.wordBytes) words) := by
    rw [writeRun, write]
    cases v.address offset <;> rfl
  rw [hunfold]
  cases v.address offset with
  | error e => exact .inl ⟨e, rfl⟩
  | ok a => exact .inr ⟨a, rfl, rfl⟩

end Registers

namespace Memory

variable {r : Responder σ} {word : σ → Nat → W} {put : Word → W → W} {n : Nat}

/-- The leading stores of a run of words. An accepted store ends inside the address space, so the
next address is four more and no word is met twice. -/
theorem stored_writeRun (hm : Memory r word put) (v : Registers) (offset : Address)
    (words : List Word) (s : σ) (hn : n < ((v.writeRun offset words).run r s).transactions.length) :
    (∀ j < n, (v.wordAddress offset j).toNat = (v.wordAddress offset 0).toNat + 4 * j) ∧
      Stored word put (fun j => (v.wordAddress offset j).toNat / 4) words n s
        (replay r (((v.writeRun offset words).run r s).transactions.take n) s) := by
  induction words generalizing offset s n with
  | nil => cases hn
  | cons w words ih =>
      rcases v.writeRun_cons offset w words with ⟨e, hprogram⟩ | ⟨a, ha, hprogram⟩
      · rw [hprogram] at hn
        cases hn
      · rw [hprogram] at hn ⊢
        rw [Registers.wordAddress_zero ha]
        cases n with
        | zero => exact ⟨fun j hj => (by cases hj), .zero (w :: words)⟩
        | succ n =>
            cases hr : (r.store a w s).result with
            | error e =>
                rw [Bus.run_store_error hr] at hn
                cases Nat.lt_of_succ_lt_succ hn
            | ok u =>
                rw [Bus.run_store_ok hr] at hn ⊢
                obtain ⟨hplace, hstored⟩ :=
                  ih (offset + Address.wordBytes) (r.store a w s).state (Nat.lt_of_succ_lt_succ hn)
                have hnext : (v.wordAddress offset 1).toNat = a.toNat + 4 := by
                  have hsum : v.wordAddress offset 1 = a + Address.wordBytes := by
                    rw [Registers.wordAddress, ← Table.wordFrom_succ, Table.wordFrom_zero,
                      ← UInt64.add_assoc, (Registers.address_eq_ok ha).1]
                  have h4 : Address.wordBytes.toNat = 4 := rfl
                  rw [hsum, UInt64.toNat_add, h4, Nat.mod_eq_of_lt (hm.aligned hr).2]
                simp only [Registers.wordAddress_succ, Nat.zero_add, hnext] at hplace hstored
                constructor
                · intro j hj
                  cases j with
                  | zero => rw [Registers.wordAddress_zero ha, Nat.mul_zero, Nat.add_zero]
                  | succ j =>
                      rw [hplace j (Nat.lt_of_succ_lt_succ hj)]
                      omega
                · refine .cons ?_ ?_ hstored
                  · rw [Registers.wordAddress_zero ha]
                    exact hm.store hr
                  · intro j hj
                    rw [hplace j hj, Registers.wordAddress_zero ha]
                    omega

/-- The leading stores of an entry. -/
theorem stored_writeEntry (hm : Memory r word put) (t : Table) (i : UInt64) (words : List Word)
    (s : σ) (hn : n < ((t.writeEntry i words).run r s).transactions.length) :
    Stored word put (fun j => (t.wordAddress i j).toNat / 4) words n s
      (replay r (((t.writeEntry i words).run r s).transactions.take n) s) := by
  cases hs : t.entryOffset i with
  | error e =>
      rw [Table.writeEntry, hs] at hn
      cases hn
  | ok start =>
      cases hw : t.checkWords words.length with
      | error e =>
          rw [Table.writeEntry, hs, hw] at hn
          cases hn
      | ok u =>
          have hprogram : t.writeEntry i words = .note (.entryWrite t.layout.kind i words)
              (t.registers.writeRun start words) := by
            rw [Table.writeEntry, hs, hw]
            rfl
          obtain rfl := Table.start_eq hs
          rw [hprogram] at hn ⊢
          exact (hm.stored_writeRun t.registers _ words s hn).2

/-- A read-modify-write stores with its last access only. -/
theorem unchanged_update (hm : Memory r word put) (a : Address) (f : Field) (x : Word) (s : σ)
    (hn : n < ((Bus.update a f x).run r s).transactions.length) (k : Nat) :
    word (replay r (((Bus.update a f x).run r s).transactions.take n) s) k = word s k := by
  unfold Bus.update at hn ⊢
  cases n with
  | zero => rfl
  | succ n =>
      cases hl : (r.load a s).result with
      | error e =>
          rw [Bus.run_load_error hl] at hn
          cases Nat.lt_of_succ_lt_succ hn
      | ok w =>
          rw [Bus.run_load_ok hl] at hn ⊢
          have hone (v : Word) (s' : σ) :
              ((Bus.store a v (.done ())).run r s').transactions.length = 1 := by
            cases hs : (r.store a v s').result with
            | ok u => rw [Bus.run_store_ok hs]; rfl
            | error e => rw [Bus.run_store_error hs]; rfl
          have hlast : n = 0 := by
            have hlt : n < ((Bus.store a (f.set w x) (.done ())).run r
              (r.load a s).state).transactions.length := Nat.lt_of_succ_lt_succ hn
            rw [hone] at hlt
            omega
          rw [hlast]
          exact hm.load a s k

end Memory

/-! ## Operations -/

namespace Access

variable {a : Access} {t : Table} {i : UInt64} {words : List Word}

/-- What a request writes to an entry from its first word on. -/
def entryWrite? : Access → Option (Table × UInt64 × List Word)
  | writeEntry t i words => some (t, i, words)
  | writeDatEntry c i e => some (c.table .dat, i, e.toWords.toList)
  | writeDctEntry c i e => some (c.table .dct, i, e.toWords.toList)
  | _ => none

theorem program_of_entryWrite (h : a.entryWrite? = some (t, i, words)) :
    a.program = quietly (t.writeEntry i words) := by
  cases a <;> cases h <;> rfl

def fieldWrite? : Access → Option FieldWrite
  | writeField v offset f x => some (.register v offset f x)
  | writeBits v offset low mask x => some (.register v offset (.ofMask low mask) x)
  | writeEntryField t i f x => some (.entry t i f x)
  | writeEntryBits t i low mask x => some (.entry t i (.ofMask low mask) x)
  | writeSpace c s location f x => some (.space c s location f x)
  | _ => none

theorem program_of_fieldWrite {w : FieldWrite} (h : a.fieldWrite? = some w) :
    a.program = quietly w.program := by
  cases a <;> cases h <;> rfl

theorem transactions_quietly (r : Responder σ) (p : Bus Unit) (s : σ) :
    ((quietly p).run r s).transactions = (p.run r s).transactions := by
  have h : quietly p = p.bind fun _ => .done .nothing := rfl
  rw [h, Bus.run_bind, Outcome.andThen]
  cases (p.run r s).result with
  | ok u => exact List.append_nil _
  | error e => rfl

end Access

namespace Driver

variable {why : Fault} {r : Responder σ} {memory : τ → σ} {passes : Nat → τ → Prop}
variable {r' : Responder τ} {n : Nat} {c : Transaction}

/-- An operation cut after `n` accesses. -/
theorem run_cut (hc : Cut why r memory passes r') (d : Driver τ) (op : Operation)
    (hp : passes n d.io)
    (hn : (op.run r ⟨d.controller, memory d.io⟩).transactions[n]? = some c) :
    let full := op.run r ⟨d.controller, memory d.io⟩
    let o := op.run r' d
    o.result = .error why ∧ o.transactions = full.transactions.take n ++ [c.failed] ∧
      memory o.state.io = replay r (full.transactions.take n) (memory d.io) ∧
      o.state.controller = d.controller := by
  intro full o
  cases op with
  | access a =>
      obtain ⟨hresult, htransactions, hstate⟩ := hc.run hp hn
      exact ⟨hresult, htransactions, hstate, rfl⟩
  | discover =>
      obtain ⟨-, -, hfull⟩ := Operation.run_discover r ⟨d.controller, memory d.io⟩
      obtain ⟨hvalue, hio, hattempts⟩ := Operation.run_discover r' d
      rw [hfull] at hn
      obtain ⟨hresult, htransactions, hstate⟩ := hc.run hp hn
      rw [hresult] at hvalue
      simp only [full, o, hfull, hio, hattempts]
      exact ⟨hvalue, htransactions, hstate, Operation.controller_of_error hvalue⟩

/-- An operation whose responder passes `n` accesses and fails the next, where the operation has
one more access to make: it fails with that fault, it has made the first `n` accesses and attempted
the next, the memory is what those `n` leave, and the layouts are as they were. If words were being
written to an entry, the leading `n` have been stored and nothing else has. If a field was being
written, no word has changed. -/
theorem fault_prefix (hc : Cut why r memory passes r') (d : Driver τ) (op : Operation)
    (hp : passes n d.io)
    (hn : (op.method.run r ⟨d.controller, memory d.io⟩).transactions[n]? = some c) :
    let full := op.method.run r ⟨d.controller, memory d.io⟩
    let o := op.method.run r' d
    o.result = .error why ∧ o.transactions = full.transactions.take n ++ [c.failed] ∧
      memory o.state.io = replay r (full.transactions.take n) (memory d.io) ∧
      o.state.controller = d.controller ∧
      ∀ (W : Type) (word : σ → Nat → W) (put : Word → W → W), Memory r word put →
        ∀ a, op = .access a →
          (∀ t i words, (a d.controller).entryWrite? = some (t, i, words) →
            Stored word put (fun j => (t.wordAddress i j).toNat / 4) words n (memory d.io)
              (memory o.state.io)) ∧
          ∀ w, (a d.controller).fieldWrite? = some w →
            ∀ k, word (memory o.state.io) k = word (memory d.io) k := by
  simp only [Operation.run_method] at hn ⊢
  obtain ⟨hresult, htransactions, hstate, hcontroller⟩ := run_cut hc d op hp hn
  refine ⟨hresult, htransactions, hstate, hcontroller, fun W word put hm a ha => ?_⟩
  subst ha
  have hlt := (List.getElem?_eq_some_iff.mp hn).1
  constructor
  · intro t i words hwrite
    have hfull : ((Operation.access a).run r ⟨d.controller, memory d.io⟩).transactions =
        ((t.writeEntry i words).run r (memory d.io)).transactions := by
      simp only [Operation.run, Access.program_of_entryWrite hwrite, Access.transactions_quietly]
    rw [hstate, hfull]
    rw [hfull] at hlt
    exact hm.stored_writeEntry t i words (memory d.io) hlt
  · intro w hwrite k
    have hfull : ((Operation.access a).run r ⟨d.controller, memory d.io⟩).transactions =
        (w.program.run r (memory d.io)).transactions := by
      simp only [Operation.run, Access.program_of_fieldWrite hwrite, Access.transactions_quietly]
    rw [hstate, hfull]
    rw [hfull] at hlt
    rcases w.aimed_program with ⟨e, he⟩ | ⟨b, -, hupdate⟩
    · rw [he] at hlt
      cases hlt
    · rw [hupdate] at hlt ⊢
      exact hm.unchanged_update b w.field w.value (memory d.io) hlt k

/-- The fuse blows between the two words of entry 1, which are words 3 and 4 of the window. -/
theorem fault_prefix_half :
    let c : Controller := ⟨32, ⟨.dat, 4, 2, 3⟩, ⟨.dct, 0, 4, 2⟩⟩
    let op : Operation := .access fun c => .writeEntry (c.table .dat) 1 [5, 6]
    let o := op.method.run (Fuse.guard Fuse.blown Model.responder) ⟨c, ⟨some 1⟩, Model.blank 32⟩
    o.result = .error Fuse.blown ∧ o.transactions = [.store 12 5 true, .store 16 6 false] ∧
      o.state.io.2.cells[3]? = some ⟨5, 0, Word.ones⟩ ∧
      ∀ k, k ≠ 3 → o.state.io.2.cells[k]? = (Model.blank 32).cells[k]? := by
  intro c op o
  have hnext : (op.method.run Model.responder ⟨c, Model.blank 32⟩).transactions[1]? =
      some (.store 16 6 true) := by
    rw [Operation.run_method]
    decide +kernel
  have hfirst : (op.method.run Model.responder ⟨c, Model.blank 32⟩).transactions.take 1 =
      [.store 12 5 true] := by
    rw [Operation.run_method]
    decide +kernel
  obtain ⟨hresult, htransactions, -, -, hmemory⟩ :=
    fault_prefix (Fuse.cut Fuse.blown Model.responder) ⟨c, ⟨some 1⟩, Model.blank 32⟩ op rfl hnext
  obtain ⟨hleading, hothers⟩ := (hmemory _ _ _ Model.memory _ rfl).1 (c.table .dat) 1 [5, 6] rfl
  have hplace (j : Nat) (hj : j < 1) : ((c.table .dat).wordAddress 1 j).toNat / 4 = 3 := by
    rw [Nat.lt_one_iff.mp hj]
    decide
  refine ⟨hresult, ?_, ?_, fun k hk => ?_⟩
  · rw [htransactions, hfirst]
    rfl
  · obtain ⟨w, hw, hput⟩ := hleading 0 Nat.one_pos
    cases hw
    rw [hplace 0 Nat.one_pos] at hput
    rw [hput]
    decide +kernel
  · have hapart (j : Nat) (hj : j < 1) : k ≠ ((c.table .dat).wordAddress 1 j).toNat / 4 := by
      rw [hplace j hj]
      exact hk
    rw [hothers k hapart]

/-- The law is not one of the syntax: a procedure may load again what failed. -/
example : (Procedure.run (Fuse.guard Fuse.blown Model.responder)
    (ExceptT.mk (.load 0 fun _ => .load 0 .done)) (⟨some 0⟩, Model.blank 4)).transactions =
      [.load 0 none, .load 0 none] := by
  decide +kernel

end Driver

/-! ## Sessions -/

/-- A step of a session whose fuse blows in the middle of it. -/
theorem Session.step_cut (s : Session) (op : Operation) {n : Nat} {c : Transaction}
    (hfuse : s.fuse = ⟨some n⟩)
    (hn : (op.run Target.responder ⟨s.controller, s.target, s.tree⟩).transactions[n]? = some c) :
    let full := op.run Target.responder ⟨s.controller, s.target, s.tree⟩
    let (o, s') := s.step op.step
    o.result = .error Fuse.blown ∧ o.transactions = full.transactions.take n ++ [c.failed] ∧
      (s'.target, s'.tree) =
        replay Target.responder (full.transactions.take n) (s.target, s.tree) ∧
      s'.controller = s.controller := by
  rw [step_operation]
  exact Driver.run_cut (Fuse.cut Fuse.blown Target.responder) s.driver op hfuse hn

end I3CHost
