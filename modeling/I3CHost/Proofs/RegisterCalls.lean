import I3CHost.Access
import I3CHost.Proofs.AcceptedTables

/-!
# Calls of a register view

A register view takes six calls, and each adds up the base of the view, the offset and the word of a
field before it visits the sum. Three checks are made on the way, two when the sum is formed and one
when the word at it is asked for. Together they say no more than that the exact sum is an address,
that it is a multiple of four, and that the word ends inside the window, judged in this order.

So where the sum comes from does not matter. A view from a base is a view of the whole window with
other offsets, and the word of a field can be counted in the offset instead.
-/
namespace I3CHost

/-! ## Checks -/

theorem checkAccess_of_outside {o limit : Address} (h : o.toNat % 4 = 0)
    (hend : limit.toNat < o.toNat + 4) : checkAccess o limit = .error (.outOfBounds o limit) := by
  have haligned : o.isAligned = true := (Address.isAligned_iff o).mpr h
  rw [checkAccess, haligned, Bool.not_true, if_neg Bool.false_ne_true]
  cases hs : Address.add? o Address.wordBytes with
  | none => rfl
  | some finish =>
      have hfinish : finish.toNat = o.toNat + 4 := Address.add?_eq_some hs
      have hpast : ¬ finish ≤ limit := by
        rw [UInt64.le_iff_toNat_le, hfinish]
        omega
      simp only [if_neg hpast]

namespace Registers

variable {v : Registers} {offset : Address} {f : Field}

theorem toNat_wordOf (h : offset.toNat + 4 * f.word.toNat < UInt64.size) :
    (wordOf offset f).toNat = offset.toNat + 4 * f.word.toNat := by
  rw [wordOf, UInt64.toNat_add, word_bytes]
  exact Nat.mod_eq_of_lt h

/-- A field is where the exact sum puts it. -/
theorem fieldAddress_of_lt (h : v.base.toNat + offset.toNat + 4 * f.word.toNat < UInt64.size) :
    v.fieldAddress offset f =
      .ok (UInt64.ofNat (v.base.toNat + offset.toNat + 4 * f.word.toNat)) := by
  have hword : offset.toNat + 4 * f.word.toNat < UInt64.size := by omega
  have hoffset := toNat_wordOf hword
  have hsum : v.base.toNat + (wordOf offset f).toNat =
      v.base.toNat + offset.toNat + 4 * f.word.toNat := by rw [hoffset, Nat.add_assoc]
  rw [fieldAddress_eq hword, address_eq (hsum ▸ h), ← hsum, UInt64.ofNat_add, UInt64.ofNat_toNat,
    UInt64.ofNat_toNat]

/-- If the sum is no address, the field is out of bounds with what could be formed of it. -/
theorem fieldAddress_of_ge (h : UInt64.size ≤ v.base.toNat + offset.toNat + 4 * f.word.toNat) :
    v.fieldAddress offset f = .error (.outOfBounds
      (if offset.toNat + 4 * f.word.toNat < UInt64.size then wordOf offset f else offset)
      v.window) := by
  split
  · next hword =>
    have hoffset := toNat_wordOf hword
    rw [fieldAddress_eq hword, address, Address.add?_eq_none.mpr (by omega)]
  · next hword =>
    rw [fieldAddress, Address.add?_eq_none.mpr (by rw [word_bytes]; omega)]

/-- A field of the first word is in the register itself. -/
theorem fieldAddress_of_word_eq_zero (h : f.word = 0) :
    v.fieldAddress offset f = v.address offset := by
  have hzero : f.word.toNat = 0 := congrArg UInt8.toNat h
  rw [fieldAddress_eq (by rw [hzero]; exact offset.toNat_lt_size), wordOf, h]
  exact congrArg v.address (UInt64.add_zero offset)

end Registers

/-! ## Calls -/

/-- A call of a register view. -/
inductive RegisterCall where
  | read
  | write (value : Word)
  | readField (f : Field)
  | writeField (f : Field) (value : Word)
  | readBits (low : UInt8) (mask : Word)
  | writeBits (low : UInt8) (mask value : Word)
deriving DecidableEq, Repr

namespace RegisterCall

/-- The call of a view, as a request. -/
def access (v : Registers) (offset : Address) : RegisterCall → Access
  | read => .read v offset
  | write value => .write v offset value
  | readField f => .readField v offset f
  | writeField f value => .writeField v offset f value
  | readBits low mask => .readBits v offset low mask
  | writeBits low mask value => .writeBits v offset low mask value

/-- The field that the call reads or changes. -/
def field : RegisterCall → Field
  | read | write _ => ⟨0, 0, Word.ones⟩
  | readField f | writeField f _ => f
  | readBits low mask | writeBits low mask _ => .ofMask low mask

/-- The answer of a call that finds a word. -/
def answer (c : RegisterCall) (w : Word) : Answer :=
  match c with
  | read => .word w
  | readField f => .word (f.get w)
  | readBits low mask => .word (Field.extract w low mask)
  | write _ | writeField .. | writeBits .. => .nothing

/-- What the call leaves of a cell. -/
def touch (c : RegisterCall) (cell : Cell) : Cell :=
  match c with
  | write value => cell.store value
  | writeField f value => cell.store (f.set cell.value value)
  | writeBits low mask value => cell.store (Field.inject cell.value low mask value)
  | read | readField _ | readBits .. => cell

def loads : RegisterCall → UInt64
  | write _ => 0
  | read | readField _ | writeField .. | readBits .. | writeBits .. => 1

def stores : RegisterCall → UInt64
  | write _ | writeField .. | writeBits .. => 1
  | read | readField _ | readBits .. => 0

/-- The transactions of a call that finds a word. -/
def made (c : RegisterCall) (a : Address) (w : Word) : List Transaction :=
  match c with
  | read | readField _ | readBits .. => [.load a (some w)]
  | write value => [.store a value true]
  | writeField f value => [.load a (some w), .store a (f.set w value) true]
  | writeBits low mask value => [.load a (some w), .store a (Field.inject w low mask value) true]

/-- The transactions of a call whose address is not accepted. -/
def refused (c : RegisterCall) (a : Address) : List Transaction :=
  match c with
  | write value => [.store a value false]
  | read | readField _ | writeField .. | readBits .. | writeBits .. => [.load a none]

/-- What the call does at an address. -/
def body (c : RegisterCall) (a : Address) : Bus Answer :=
  match c with
  | read => .load a fun w => .done (.word w)
  | write value => .store a value (.done .nothing)
  | readField f =>
    .load a fun w => .note (.fieldRead a f.mask f.low (f.get w)) (.done (.word (f.get w)))
  | readBits low mask => .load a fun w => .done (.word (Field.extract w low mask))
  | writeField f value => Access.quietly (Bus.update a f value)
  | writeBits low mask value => Access.quietly (Bus.update a (.ofMask low mask) value)

/-- A call finds its address and then does what it does there. -/
theorem program_eq (c : RegisterCall) (v : Registers) (offset : Address) :
    (c.access v offset).program =
      (Bus.ofExcept (v.fieldAddress offset c.field)).bind c.body := by
  cases c with
  | read | write =>
      rw [Registers.fieldAddress_of_word_eq_zero rfl]
      exact Bus.bind_assoc _ _ _
  | readBits =>
      rw [Registers.fieldAddress_of_word_eq_zero rfl]
      exact (Bus.bind_assoc _ _ _).trans (Bus.bind_assoc _ _ _)
  | readField | writeField | writeBits => exact Bus.bind_assoc _ _ _

/-! ## One call over a model -/

section
variable {m : Model} {a : Address} {e : Fault}

/-- A call whose address is not accepted ends at its first access. -/
theorem run_body_of_refused (c : RegisterCall) (h : checkAccess a m.size = .error e) :
    (c.body a).run Model.responder m = ⟨.error e, m, c.refused a, []⟩ := by
  have hacc : ¬ m.Accepts a := by
    rw [Model.accepts_iff, h]
    exact fun hok => (by cases hok)
  have hload : Model.responder.load a m = ⟨.error e, m, []⟩ := by
    obtain ⟨e', he', hload⟩ := Model.load_of_not_accepts hacc
    rw [Except.error.inj (h.symm.trans he')]
    exact hload
  cases c with
  | write value =>
      obtain ⟨e', he', hstore⟩ := Model.store_of_not_accepts hacc value
      rw [body, Bus.run, Model.responder_store, hstore, Except.error.inj (h.symm.trans he')]
      rfl
  | read | readField | readBits =>
      rw [body, Bus.run, hload]
      rfl
  | writeField | writeBits =>
      rw [body, Access.quietly, Bus.bind_eq, Bus.update, Bus.bind, Bus.run, hload]
      rfl

theorem transactions_run_update (h : m.Accepts a) (f : Field) (value : Word) :
    let w := m.wordAt (Model.index a)
    ((Bus.update a f value).run Model.responder m).transactions =
      [.load a (some w), .store a (f.set w value) true] := by
  intro w
  have hnext : ({ m with reads := m.reads + 1 } : Model).Accepts a := h
  have hstored := (Model.store_of_accepts hnext (f.set w value)).1
  rw [Bus.update, Bus.run, Model.responder_load, Model.load_of_accepts h]
  simp only [Bus.run, Model.responder_store]
  rw [hstored]
  rfl

/-- A field that is replaced by a call. -/
theorem run_quietly_update (h : m.Accepts a) (f : Field) (value : Word) :
    let w := m.wordAt (Model.index a)
    let o := (Access.quietly (Bus.update a f value)).run Model.responder m
    o.result = .ok .nothing ∧
      o.state = ⟨m.cells.modify (Model.index a) (Cell.update · f value), m.reads + 1,
        m.writes + 1⟩ ∧
      o.transactions = [.load a (some w), .store a (f.set w value) true] := by
  intro w o
  obtain ⟨hresult, hstate⟩ := Model.run_update_of_accepts h f value
  rw [Model.update, if_pos h] at hstate
  have hmap := Bus.run_map Model.responder (Bus.update a f value) (fun _ => Answer.nothing) m
  have ho : o = _ := hmap
  rw [ho]
  exact ⟨congrArg (Except.map fun _ => Answer.nothing) hresult, hstate,
    transactions_run_update h f value⟩

/-- A word that is replaced by a call. -/
theorem run_store_of_accepts (h : m.Accepts a) (value : Word) :
    let o := (Bus.store a value (.done Answer.nothing)).run Model.responder m
    o.result = .ok .nothing ∧
      o.state = ⟨m.cells.modify (Model.index a) (Cell.store · value), m.reads + 0, m.writes + 1⟩ ∧
      o.transactions = [.store a value true] := by
  intro o
  obtain ⟨hresult, hstate⟩ := Model.store_of_accepts h value
  have hstored : (Model.responder.store a value m).result = .ok () := hresult
  have ho : o = _ := Bus.run_store_ok hstored
  rw [ho, UInt64.add_zero]
  exact ⟨rfl, hstate, rfl⟩

/-- A word that a call loads, and answers without another access. -/
theorem run_load_of_accepts (h : m.Accepts a) {next : Word → Bus Answer} {x : Answer}
    (hnext : ∀ s : Model, ((next (m.wordAt (Model.index a))).run Model.responder s).result = .ok x ∧
      ((next (m.wordAt (Model.index a))).run Model.responder s).state = s ∧
      ((next (m.wordAt (Model.index a))).run Model.responder s).transactions = []) :
    let o := (Bus.load a next).run Model.responder m
    o.result = .ok x ∧
      o.state = ⟨m.cells.modify (Model.index a) (fun cell => cell), m.reads + 1, m.writes + 0⟩ ∧
      o.transactions = [.load a (some (m.wordAt (Model.index a)))] := by
  intro o
  have hcells : m.cells.modify (Model.index a) (fun cell => cell) = m.cells := by
    apply Array.ext_getElem?
    intro j
    rw [Array.getElem?_modify]
    split
    · exact Option.map_id'
    · rfl
  have hload : (Model.responder.load a m).result = .ok (m.wordAt (Model.index a)) := by
    rw [Model.responder_load, Model.load_of_accepts h]
  have hstate : (Model.responder.load a m).state = { m with reads := m.reads + 1 } := by
    rw [Model.responder_load, Model.load_of_accepts h]
  obtain ⟨hresult, hsame, hnone⟩ := hnext (Model.responder.load a m).state
  have ho : o = _ := Bus.run_load_ok hload
  rw [ho, hcells, UInt64.add_zero]
  exact ⟨hresult, hsame.trans hstate, congrArg _ hnone⟩

/-- A call whose address is accepted finds its word and touches no other. -/
theorem run_body_of_accepts (c : RegisterCall) (h : m.Accepts a) :
    let k := Model.index a
    let o := (c.body a).run Model.responder m
    o.result = .ok (c.answer (m.wordAt k)) ∧
      o.state = ⟨m.cells.modify k c.touch, m.reads + c.loads, m.writes + c.stores⟩ ∧
      o.transactions = c.made a (m.wordAt k) := by
  cases c with
  | read => exact run_load_of_accepts h fun s => ⟨rfl, rfl, rfl⟩
  | write value => exact run_store_of_accepts h value
  | readField f => exact run_load_of_accepts h fun s => ⟨rfl, rfl, rfl⟩
  | readBits low mask => exact run_load_of_accepts h fun s => ⟨rfl, rfl, rfl⟩
  | writeField f value => exact run_quietly_update h f value
  | writeBits low mask value => exact run_quietly_update h (.ofMask low mask) value

end

/-- The byte that a call is aimed at, as a number without bound. -/
def place (c : RegisterCall) (v : Registers) (offset : Address) : Nat :=
  v.base.toNat + offset.toNat + 4 * c.field.word.toNat

/-- How a call ends over a model that was made of some bytes, whole words of which it has. -/
structure Exact (c : RegisterCall) (v : Registers) (offset : Address) (m : Model) (bytes : Nat) :
    Prop where
  overflow : UInt64.size ≤ c.place v offset →
    let reached := if offset.toNat + 4 * c.field.word.toNat < UInt64.size then
      Registers.wordOf offset c.field else offset
    (c.access v offset).program.run Model.responder m =
      ⟨.error (.outOfBounds reached v.window), m, [], []⟩
  misaligned : c.place v offset < UInt64.size → c.place v offset % 4 ≠ 0 →
    let a := UInt64.ofNat (c.place v offset)
    (c.access v offset).program.run Model.responder m =
      ⟨.error (.misaligned a), m, c.refused a, []⟩
  outside : c.place v offset < UInt64.size → c.place v offset % 4 = 0 →
    bytes < c.place v offset + 4 →
    let a := UInt64.ofNat (c.place v offset)
    (c.access v offset).program.run Model.responder m =
      ⟨.error (.outOfBounds a m.size), m, c.refused a, []⟩
  inside : c.place v offset % 4 = 0 → c.place v offset + 4 ≤ bytes →
    let k := c.place v offset / 4
    let o := (c.access v offset).program.run Model.responder m
    o.result = .ok (c.answer (m.wordAt k)) ∧
      o.state = ⟨m.cells.modify k c.touch, m.reads + c.loads, m.writes + c.stores⟩ ∧
      o.transactions = c.made (UInt64.ofNat (c.place v offset)) (m.wordAt k)

theorem run_of_lt {c : RegisterCall} {v : Registers} {offset : Address}
    (h : c.place v offset < UInt64.size) (m : Model) :
    (c.access v offset).program.run Model.responder m =
      (c.body (UInt64.ofNat (c.place v offset))).run Model.responder m := by
  rw [program_eq, Registers.fieldAddress_of_lt h]
  rfl

theorem exact (c : RegisterCall) (v : Registers) (offset : Address) {m : Model} {bytes : Nat}
    (hsize : m.size.toNat = bytes / 4 * 4) : c.Exact v offset m bytes := by
  have haddress (h : c.place v offset < UInt64.size) :
      (UInt64.ofNat (c.place v offset)).toNat = c.place v offset := UInt64.toNat_ofNat_of_lt' h
  have hlimit := m.size.toNat_lt_size
  constructor
  · intro h
    rw [program_eq, Registers.fieldAddress_of_ge h]
    rfl
  · intro h hmod
    rw [run_of_lt h]
    exact run_body_of_refused c (checkAccess_of_misaligned (by rwa [haddress h]))
  · intro h hmod hend
    rw [run_of_lt h]
    exact run_body_of_refused c (checkAccess_of_outside (by rwa [haddress h])
      (by rw [haddress h]; omega))
  · intro hmod hend
    have h : c.place v offset < UInt64.size := by omega
    have hacc : m.Accepts (UInt64.ofNat (c.place v offset)) := by
      rw [Model.Accepts, haddress h]
      omega
    have hbody := run_body_of_accepts c hacc
    rw [Model.index_eq, haddress h] at hbody
    rw [run_of_lt h]
    exact hbody

/-- A view from a base acts as one of the whole window does at the sum. -/
theorem program_flat {c : RegisterCall} {v : Registers} {offset : Address}
    (h : c.place v offset < UInt64.size) :
    (c.access v offset).program = (c.access ⟨0, v.window⟩ (v.base + offset)).program := by
  have hsum : (v.base + offset).toNat = v.base.toNat + offset.toNat := by
    rw [UInt64.toNat_add]
    refine Nat.mod_eq_of_lt ?_
    rw [place] at h
    change _ < UInt64.size
    omega
  have hplace : c.place ⟨0, v.window⟩ (v.base + offset) = c.place v offset := by
    rw [place, place, hsum, show (0 : Address).toNat = 0 from rfl, Nat.zero_add]
  have hnear := Registers.fieldAddress_of_lt h
  have hfar := Registers.fieldAddress_of_lt (hplace.symm ▸ h)
  rw [program_eq, program_eq, hnear, hfar]
  exact congrArg (fun place => c.body (UInt64.ofNat place)) hplace.symm

end RegisterCall

namespace Registers

variable {v : Registers} {offset o : Address} {f : Field}

/-- The word of a field can be counted in the offset. -/
theorem fieldAddress_atWord (ho : o.toNat = offset.toNat + 4 * f.word.toNat) :
    v.fieldAddress offset f = v.fieldAddress o (f.atWord 0) := by
  have hsum : offset.toNat + 4 * f.word.toNat < UInt64.size := ho ▸ o.toNat_lt_size
  have hword : wordOf offset f = o := UInt64.toNat_inj.mp ((toNat_wordOf hsum).trans ho.symm)
  rw [fieldAddress_eq hsum, fieldAddress_of_word_eq_zero rfl, hword]

theorem readField_atWord (ho : o.toNat = offset.toNat + 4 * f.word.toNat) :
    v.readField offset f = v.readField o (f.atWord 0) := by
  rw [readField, readField, fieldAddress_atWord ho]
  rfl

theorem writeField_atWord (ho : o.toNat = offset.toNat + 4 * f.word.toNat) (value : Word) :
    v.writeField offset f value = v.writeField o (f.atWord 0) value := by
  rw [writeField, writeField, fieldAddress_atWord ho]
  rfl

/-- To read some bits is to read the field that they are, but for what is logged. -/
theorem run_readBits (v : Registers) (offset : Address) (low : UInt8) (mask : Word) {σ : Type}
    (r : Responder σ) (s : σ) :
    let bits := (v.readBits offset low mask).run r s
    let field := (v.readField offset (.ofMask low mask)).run r s
    bits.result = field.result ∧ bits.state = field.state ∧
      bits.transactions = field.transactions := by
  intro bits field
  have hbits : bits = ((Bus.ofExcept (v.address offset)).bind fun a =>
      Bus.load a fun w => .done (Field.extract w low mask)).run r s :=
    congrArg (Bus.run r · s) (Bus.bind_assoc _ _ _)
  have hfield : field = ((Bus.ofExcept (v.address offset)).bind fun a => Bus.load a fun w =>
      .note (.fieldRead a mask low (Field.extract w low mask))
        (.done (Field.extract w low mask))).run r s := by
    rw [← fieldAddress_of_word_eq_zero (f := .ofMask low mask) rfl]
    rfl
  rw [hbits, hfield]
  cases v.address offset with
  | error e => exact ⟨rfl, rfl, rfl⟩
  | ok a =>
      simp only [Bus.ofExcept, Bus.bind, Bus.run]
      cases (r.load a s).result with
      | ok w => exact ⟨rfl, rfl, rfl⟩
      | error e => exact ⟨rfl, rfl, rfl⟩

/-- Over a model a call of a register view is judged by the exact sum of its parts: it is out of
bounds if the sum is no address, else misaligned, else out of bounds if the word does not end inside
the window, and nothing changes then; else it finds the word at the sum and touches no other. So a
view from a base acts as one of the whole window, the word of a field can be counted in the offset,
and bits are a field of the first word. -/
theorem calls_exact :
    (∀ (c : RegisterCall) (v : Registers) (offset : Address) (m : Model) (bytes : Nat),
        m.size.toNat = bytes / 4 * 4 → c.Exact v offset m bytes) ∧
      (∀ (c : RegisterCall) (v : Registers) (offset : Address),
        v.base.toNat + offset.toNat + 4 * c.field.word.toNat < UInt64.size →
          (c.access v offset).program = (c.access ⟨0, v.window⟩ (v.base + offset)).program) ∧
      (∀ (v : Registers) (offset o : Address) (f : Field),
        o.toNat = offset.toNat + 4 * f.word.toNat →
          v.readField offset f = v.readField o (f.atWord 0) ∧
            ∀ value, v.writeField offset f value = v.writeField o (f.atWord 0) value) ∧
      ∀ (v : Registers) (offset : Address) (low : UInt8) (mask : Word),
        (∀ {σ : Type} (r : Responder σ) (s : σ),
          let bits := (v.readBits offset low mask).run r s
          let field := (v.readField offset (.ofMask low mask)).run r s
          bits.result = field.result ∧ bits.state = field.state ∧
            bits.transactions = field.transactions) ∧
          ∀ value, v.writeBits offset low mask value = v.writeField offset (.ofMask low mask) value :=
  ⟨fun c v offset _ _ hsize => c.exact v offset hsize, fun _ _ _ h => RegisterCall.program_flat h,
    fun _ _ _ _ ho => ⟨readField_atWord ho, writeField_atWord ho⟩,
    fun v offset low mask => ⟨fun r s => v.run_readBits offset low mask r s, fun _ => rfl⟩⟩

/-- A window of 18 bytes has four words. A view from byte 8 finds the last of them at offset 4 and
as word 1 of offset 0; past it there is no word, and past the address space no address. -/
theorem calls_exact_last_word :
    let v : Registers := ⟨8, 16⟩
    let m : Model := .blank 18
    let f : Field := ⟨1, 4, 0xF0⟩
    let run := fun (c : RegisterCall) (offset : Address) =>
      (c.access v offset).program.run Model.responder m
    m.size.toNat = 18 / 4 * 4 ∧
      (run (.writeField f 5) 0).result = .ok .nothing ∧
      (run (.writeField f 5) 0).transactions = [.load 12 (some 0), .store 12 0x50 true] ∧
      (run (.writeField f 5) 0).state.wordAt 3 = 0x50 ∧
      (RegisterCall.access v 0 (.readField f)).program =
        (RegisterCall.access ⟨0, 16⟩ 8 (.readField f)).program ∧
      v.readField 0 f = v.readField 4 (f.atWord 0) ∧
      run (.writeField f 5) 4 = ⟨.error (.outOfBounds 16 16), m, [.load 16 none], []⟩ ∧
      run (.write 5) 6 = ⟨.error (.misaligned 14), m, [.store 14 5 false], []⟩ ∧
      run .read 0xFFFFFFFFFFFFFFF8 = ⟨.error (.outOfBounds 0xFFFFFFFFFFFFFFF8 16), m, [], []⟩ := by
  intro v m f run
  have hsize : m.size.toNat = 18 / 4 * 4 := by decide +kernel
  have hexact := fun c offset => calls_exact.1 c v offset m 18 hsize
  obtain ⟨hdone, -, hmade⟩ := (hexact (.writeField f 5) 0).inside (by decide) (by decide)
  exact ⟨hsize, hdone, hmade.trans (by decide +kernel), by decide +kernel,
    calls_exact.2.1 (.readField f) v 0 (by decide), (calls_exact.2.2.1 v 0 4 f (by decide)).1,
    (hexact (.writeField f 5) 4).outside (by decide) (by decide) (by decide),
    (hexact (.write 5) 6).misaligned (by decide) (by decide),
    (hexact .read 0xFFFFFFFFFFFFFFF8).overflow (by decide)⟩

end Registers

end I3CHost
