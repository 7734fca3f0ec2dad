import I3CHost.CommandLine.Printout
import I3CHost.Proofs.AcceptedTables
import I3CHost.Proofs.EntryIsolation

/-!
# The course of a command

A command that writes reads back what it has written. Both halves go to the same words, so they are
accepted together or refused together: with a register the two visits are to one address, with an
entry every word lies inside an accepted table and all words are aligned as the table is. A command
that fails has therefore been refused at its first visit, before anything was stored.
-/
namespace I3CHost

variable {α β σ : Type}

/-! ## Programs accepted as a whole -/

/-- A program that ends before the bus, or makes visits of which all are accepted if one is. Its
stores are to given addresses. -/
inductive Bus.Uniform (limit : Address) (stores : Address → Prop) (p : Bus α) : Prop
  | stop (e : Fault) : p = .stop e → Uniform limit stores p
  | course (vs : List Visit) : p.Follows vs →
      (∀ v ∈ vs, ∀ u ∈ vs, checkAccess v.address limit = .ok () →
        checkAccess u.address limit = .ok ()) →
      (∀ a, .store a ∈ vs → stores a) → Uniform limit stores p

/-- A responder that is as it was after an access it refused. -/
structure Refusing (r : Responder σ) : Prop where
  load {o : Address} {s : σ} {e : Fault} : (r.load o s).result = .error e → (r.load o s).state = s
  store {o : Address} {v : Word} {s : σ} {e : Fault} :
    (r.store o v s).result = .error e → (r.store o v s).state = s

namespace Bus

variable {limit : Address} {stores : Address → Prop} {p : Bus α}

theorem Follows.within {vs : List Visit} (hp : p.Follows vs) (h : ∀ a, .store a ∈ vs → stores a) :
    p.Within (fun _ => True) stores := by
  induction hp with
  | done a => trivial
  | load _ ih =>
      exact ⟨trivial, fun w => ih w fun a ha => h a (List.mem_cons_of_mem _ ha)⟩
  | store _ ih =>
      exact ⟨h _ List.mem_cons_self, ih fun a ha => h a (List.mem_cons_of_mem _ ha)⟩
  | note _ ih => exact ih h

theorem Uniform.within (hp : p.Uniform limit stores) : p.Within (fun _ => True) stores := by
  cases hp with
  | stop e he =>
      rw [he]
      trivial
  | course vs hfollows _ hstores => exact hfollows.within hstores

theorem Follows.state_of_refused {r : Responder σ} {size : σ → Address} (hr : Screened r size)
    (hkeep : Refusing r) {v : Visit} {vs : List Visit} (hp : p.Follows (v :: vs)) {s : σ}
    {e : Fault} (h : checkAccess v.address (size s) = .error e) : (p.run r s).state = s := by
  generalize hus : v :: vs = us at hp
  induction hp with
  | done a => cases hus
  | @load o us next _ _ =>
      cases hus
      rcases hr.load_cases o s with ⟨w, -, hc⟩ | ⟨e', hl, -⟩
      · rw [show (Visit.load o).address = o from rfl, hc] at h
        cases h
      · rw [Bus.run_load_error hl]
        exact hkeep.load hl
  | @store o v us next _ _ =>
      cases hus
      have hs : (r.store o v s).result = .error e := (hr.store o v s).trans h
      rw [Bus.run_store_error hs]
      exact hkeep.store hs
  | note _ ih => exact ih hus

/-- A uniform program that fails leaves the state. -/
theorem Uniform.state_of_error {r : Responder σ} {size : σ → Address} (hr : Screened r size)
    (hkeep : Refusing r) {s : σ} (hp : p.Uniform (size s) stores) {e : Fault}
    (h : (p.run r s).result = .error e) : (p.run r s).state = s := by
  cases hp with
  | stop e he =>
      rw [he]
      rfl
  | course vs hfollows hall _ =>
      cases vs with
      | nil =>
          obtain ⟨a, ha⟩ := hr.run_eq_ok hfollows (s := s) fun v hv => by cases hv
          rw [ha] at h
          cases h
      | cons v vs =>
          cases hv : checkAccess v.address (size s) with
          | error e => exact hfollows.state_of_refused hr hkeep hv
          | ok u =>
              have hrest := hall v List.mem_cons_self
              obtain ⟨a, ha⟩ := hr.run_eq_ok hfollows fun u hu => hrest u hu hv
              rw [ha] at h
              cases h

theorem Follows.uniform_one {a : Address} (vs : List Visit) (hp : p.Follows vs)
    (h : ∀ v ∈ vs, v.address = a) (ha : stores a) : p.Uniform limit stores := by
  refine .course vs hp (fun v hv u hu hok => ?_) fun b hb => ?_
  · rwa [h u hu, ← h v hv]
  · have hsame : b = a := h _ hb
    rwa [hsame]

/-- Every value the program can end with has the property. -/
def Returns (Q : α → Prop) : Bus α → Prop
  | done a => Q a
  | stop _ => True
  | load _ next => ∀ w, (next w).Returns Q
  | store _ _ next | note _ next => next.Returns Q

theorem Returns.bind {Q : β → Prop} (p : Bus α) {f : α → Bus β} (hf : ∀ a, (f a).Returns Q) :
    (p.bind f).Returns Q := by
  induction p with
  | done a => exact hf a
  | stop e => trivial
  | load o next ih => exact ih
  | store o v next ih => exact ih
  | note e next ih => exact ih

theorem Returns.run {Q : α → Prop} (hp : p.Returns Q) {r : Responder σ} {s : σ} {a : α}
    (h : (p.run r s).result = .ok a) : Q a := by
  induction p generalizing s with
  | done b =>
      cases h
      exact hp
  | stop e => cases h
  | load o next ih =>
      cases hl : (r.load o s).result with
      | ok w =>
          rw [run_load_ok hl] at h
          exact ih w (hp w) h
      | error e =>
          rw [run_load_error hl] at h
          cases h
  | store o v next ih =>
      cases hs : (r.store o v s).result with
      | ok u =>
          rw [run_store_ok hs] at h
          exact ih hp h
      | error e =>
          rw [run_store_error hs] at h
          cases h
  | note e next ih => exact ih hp h

end Bus

namespace CommandLine

/-- The command changes nothing on purpose. -/
def Command.Reads : Command → Prop
  | .read _ | .readField _ | .readEntry .. | .discover => True
  | .smoke | .write .. | .writeField .. | .writeEntry .. => False

/-- The byte of the standard memory map at which the word of a field starts. -/
def FieldPlace.first (p : FieldPlace) (location : UInt64) : Nat :=
  match p.space.table? with
  | none => location.toNat + 4 * p.field.word.toNat
  | some kind => (TableLayout.standard kind).start location.toNat + 4 * p.field.word.toNat

/-- Byte `b` of the window belongs to the word, or to the words of an entry, that a command is
given to write. -/
def Command.Addresses (b : Nat) : Command → Prop
  | .write reg _ => ∃ o, registerOf reg = .ok o ∧ o.toNat ≤ b ∧ b < o.toNat + 4
  | .writeField place _ => ∃ location, place.resolve = .ok location ∧
      place.first location ≤ b ∧ b < place.first location + 4
  | .writeEntry table i words =>
      let first := (TableLayout.standard table).start i.toNat
      first ≤ b ∧ b < first + 4 * words.length
  | _ => False

namespace Command

variable {window : Address} {cmd : Command} {p : Bus (Option Failure)}

theorem exists_of_bind_eq_ok {ε α β : Type} {x : Except ε α} {f : α → Except ε β} {b : β}
    (h : x >>= f = .ok b) : ∃ a, x = .ok a ∧ f a = .ok b := by
  cases x with
  | error e => cases h
  | ok a => exact ⟨a, rfl, h⟩

/-! ## Commands that read -/

theorem within_discover (c : Controller) :
    c.discover.Within (fun _ => True) fun _ => False := by
  have hsection (register : Address) (l : TableLayout) :
      (c.readSection register l).Within (fun _ => True) fun _ => False := by
    refine (Registers.within_read fun _ _ => trivial).bind fun raw => ?_
    dsimp only
    split
    · exact trivial
    · exact trivial
  exact (hsection _ _).bind fun dat => (hsection _ _).bind fun dct =>
    Bus.within_check fun _ _ => trivial

theorem within_readField (c : Controller) (space : Space) (location : UInt64) (f : Field) :
    ∃ L, (c.readField space location f).Within L fun _ => False := by
  unfold Controller.readField
  cases space.table? with
  | none => exact ⟨fun _ => True, Registers.within_readField fun _ _ => trivial⟩
  | some kind => exact ⟨_, (c.table kind).within_readField location f⟩

theorem within_printLayouts (L : Address → Prop) (ls : List TableLayout) :
    (printLayouts ls).Within L fun _ => False := by
  induction ls with
  | nil => trivial
  | cons l ls ih =>
      unfold printLayouts
      split
      · exact ih
      · trivial

theorem within_of_reads {c : Controller} (hcmd : cmd.Reads) (hp : cmd.program c = .ok p) :
    ∃ L, p.Within L fun _ => False := by
  cases cmd with
  | smoke | write | writeField | writeEntry => exact hcmd.elim
  | read reg =>
      rw [program] at hp
      obtain ⟨o, -, ho⟩ := exists_of_bind_eq_ok hp
      cases ho
      exact ⟨fun _ => True, (Registers.within_read fun _ _ => trivial).bind fun _ => trivial⟩
  | readField place =>
      rw [program] at hp
      obtain ⟨location, -, hl⟩ := exists_of_bind_eq_ok hp
      cases hl
      obtain ⟨L, hL⟩ := within_readField c place.space location place.field
      exact ⟨L, hL.bind fun _ => trivial⟩
  | readEntry table i =>
      cases hp
      refine ⟨(c.layout table).InEntry i, ?_⟩
      have hwords (n : Nat) := (c.table table).within_readWords (W := fun _ => False) i n
      cases table with
      | dat =>
          refine (hwords 2).bind fun _ => ((hwords 2).map DatEntry.ofWords).bind fun _ => ?_
          trivial
      | dct =>
          refine (hwords 4).bind fun _ => ((hwords 4).map DctEntry.ofWords).bind fun _ => ?_
          trivial
  | discover =>
      cases hp
      exact ⟨_, (within_discover c).bind fun _ => within_printLayouts _ _⟩

/-! ## Commands that write -/

/-- Every byte of the word at `a` is one the command is given to write. -/
def Stores (cmd : Command) (a : Address) : Prop :=
  ∀ b, a.toNat ≤ b → b < a.toNat + 4 → cmd.Addresses b

theorem uniform_write {reg : String} {value : Word}
    (hp : (write reg value).program (.standard window) = .ok p) :
    p.Uniform window (write reg value).Stores := by
  rw [program] at hp
  obtain ⟨o, ho, hprogram⟩ := exists_of_bind_eq_ok hp
  cases hprogram
  have hbase : (Controller.standard window).csr.base.toNat = 0 := rfl
  cases ha : (Controller.standard window).csr.address o with
  | error e =>
      refine .stop e ?_
      rw [Bus.bind_eq, Registers.write, ha]
      rfl
  | ok a =>
      have hsum := (Registers.address_eq_ok ha).2
      rw [hbase, Nat.zero_add] at hsum
      refine Bus.Follows.uniform_one (a := a) [.store a, .load a] ?_
        (by simp [Visit.address]) fun b hle hlt => ⟨o, ho, hsum ▸ hle, hsum ▸ hlt⟩
      exact (Registers.follows_write ha value).bind fun _ =>
        (Registers.follows_read ha).bind fun _ => .note (.done _)

/-- A field is written at one address and read back there. -/
theorem field_course (hw : window.toNat % 4 = 0) (hfits : (Controller.standard window).Fits)
    (place : FieldPlace) (location : UInt64) (value : Word) :
    let c := Controller.standard window
    (∃ e, c.writeField place.space location place.field value = .stop e) ∨
      ∃ a, (c.writeField place.space location place.field value).Follows [.load a, .store a] ∧
        (c.readField place.space location place.field).Follows [.load a] ∧
        a.toNat = place.first location := by
  intro c
  unfold Controller.writeField Controller.readField FieldPlace.first
  cases place.space.table? with
  | none =>
      have hbase : c.csr.base.toNat = 0 := rfl
      cases ha : c.csr.fieldAddress location place.field with
      | error e =>
          refine .inl ⟨e, ?_⟩
          simp only [Registers.writeField, ha, Bus.bind_eq, Bus.ofExcept, Bus.bind]
      | ok a =>
          obtain ⟨hword, hoffset⟩ := Registers.fieldAddress_eq_ok ha
          refine .inr ⟨a, Registers.follows_writeField ha value, Registers.follows_readField ha, ?_⟩
          rw [(Registers.address_eq_ok hword).2, hoffset, hbase, Nat.zero_add]
  | some kind =>
      have hlayout : c.layout kind = TableLayout.standard kind := by cases kind <;> rfl
      have hserves := Table.serves_writeField (c.table kind) location place.field value
      cases hp : (c.table kind).permit location (.field place.field) with
      | error e => exact .inl ⟨e, hserves.eq_stop (Table.grant_of_permit_error hp)⟩
      | ok start =>
          obtain ⟨hs, hword⟩ := Table.permit_eq_ok_iff.mp hp
          have hentry := (hfits kind).entry (Table.entryOffset_eq_ok hs).1
          have hreach := hentry.reaches hw hword
          have haddress := hentry.toNat_wordAddress hw (Nat.lt_of_succ_le hword)
          rw [hlayout] at haddress
          exact .inr ⟨_, Table.follows_writeField hreach value, Table.follows_readField hreach,
            haddress⟩

theorem uniform_writeField (hw : window.toNat % 4 = 0) (hfits : (Controller.standard window).Fits)
    {place : FieldPlace} {value : Word}
    (hp : (writeField place value).program (.standard window) = .ok p) :
    p.Uniform window (writeField place value).Stores := by
  rw [program] at hp
  obtain ⟨location, hl, hprogram⟩ := exists_of_bind_eq_ok hp
  cases hprogram
  rcases field_course hw hfits place location value with ⟨e, he⟩ | ⟨a, hwrite, hread, ha⟩
  · refine .stop e ?_
    rw [he]
    rfl
  · refine Bus.Follows.uniform_one (a := a) [.load a, .store a, .load a] ?_
      (by simp [Visit.address]) fun b hle hlt => ⟨location, hl, ha ▸ hle, ha ▸ hlt⟩
    exact hwrite.bind fun _ => hread.bind fun _ => .note (.done _)

/-- The words of an entry are stored at some addresses and loaded from there, and all of these are
accepted, as the table is aligned. -/
theorem entry_course {t : Table} (hw : t.window.toNat % 4 = 0) (hfits : t.layout.Fits t.window)
    (haligned : t.layout.offset.toNat % 4 = 0) (i : UInt64) (words : List Word) :
    (∃ e, t.writeEntry i words = .stop e) ∨
      ∃ as : List Address, (t.writeEntry i words).Follows (as.map .store) ∧
        (t.readEntry i words.length).Follows (as.map .load) ∧
        ∀ a ∈ as, checkAccess a t.window = .ok () ∧
          ∃ k < words.length, a.toNat = t.layout.start i.toNat + 4 * k := by
  cases hp : t.permit i (.words words.length) with
  | error e =>
      have hstop := Table.grant_of_permit_error hp
      exact .inl ⟨e, (Table.serves_writeEntry t i words).eq_stop hstop⟩
  | ok start =>
      obtain ⟨hs, hcount⟩ := Table.permit_eq_ok_iff.mp hp
      rw [Need.first, Need.count, Nat.zero_add] at hcount
      have hentry := hfits.entry (Table.entryOffset_eq_ok hs).1
      have hreach := hentry.reaches hw hcount
      refine .inr ⟨(List.range words.length).map (t.wordAddress i), ?_, ?_, fun a ha => ?_⟩
      · rw [List.map_map]
        exact Table.follows_writeEntry hreach
      · rw [List.map_map]
        exact Table.follows_readEntry hreach
      · obtain ⟨k, hk, rfl⟩ := List.mem_map.mp ha
        have hk := List.mem_range.mp hk
        have hword := Nat.lt_of_lt_of_le hk hcount
        exact ⟨(hentry.checkAccess_word hw hword).trans (if_pos haligned), k, hk,
          hentry.toNat_wordAddress hw hword⟩

theorem uniform_writeEntry (hw : window.toNat % 4 = 0) (hfits : (Controller.standard window).Fits)
    {table : TableKind} {i : UInt64} {words : List Word}
    (hp : (writeEntry table i words).program (.standard window) = .ok p) :
    p.Uniform window (writeEntry table i words).Stores := by
  cases hp
  have hlayout : (Controller.standard window).layout table = TableLayout.standard table := by
    cases table <;> rfl
  have haligned : ((Controller.standard window).layout table).offset.toNat % 4 = 0 := by
    rw [hlayout]
    cases table <;> decide
  rcases entry_course (t := (Controller.standard window).table table) hw (hfits table) haligned i
      words with ⟨e, he⟩ | ⟨as, hwrite, hread, has⟩
  · refine .stop e ?_
    rw [Bus.bind_eq, he]
    rfl
  · refine .course (as.map .store ++ (as.map .load ++ [])) ?_ (fun _ _ u hu _ => ?_) fun a ha => ?_
    · exact hwrite.bind fun _ => hread.bind fun _ => .note (.done _)
    · have hmem : u.address ∈ as := by
        simp only [List.append_nil, List.mem_append, List.mem_map] at hu
        rcases hu with ⟨a, ha, rfl⟩ | ⟨a, ha, rfl⟩ <;> exact ha
      exact (has _ hmem).1
    · have hmem : a ∈ as := by simpa using ha
      obtain ⟨-, k, hk, hplace⟩ := has a hmem
      intro b hle hlt
      change a.toNat = ((Controller.standard window).layout table).start i.toNat + 4 * k at hplace
      -- The command is told by the standard tables, and these are the ones of the controller.
      rw [hlayout] at hplace
      change _ ≤ b ∧ b < _ + 4 * words.length
      omega

/-- A command that writes is accepted or refused as a whole. -/
theorem uniform_program (hw : window.toNat % 4 = 0) (hfits : (Controller.standard window).Fits)
    (hcmd : ¬ cmd.Reads) (hsmoke : cmd ≠ .smoke) (hp : cmd.program (.standard window) = .ok p) :
    p.Uniform window cmd.Stores := by
  cases cmd with
  | smoke => exact (hsmoke rfl).elim
  | read | readField | readEntry | discover => exact (hcmd trivial).elim
  | write reg value => exact uniform_write hp
  | writeField place value => exact uniform_writeField hw hfits hp
  | writeEntry table i words => exact uniform_writeEntry hw hfits hp

/-- The work of such a command shows no failure. -/
theorem returns_program {c : Controller} (hcmd : ¬ cmd.Reads) (hsmoke : cmd ≠ .smoke)
    (hp : cmd.program c = .ok p) : p.Returns (· = none) := by
  cases cmd with
  | smoke => exact (hsmoke rfl).elim
  | read | readField | readEntry | discover => exact (hcmd trivial).elim
  | write reg value =>
      rw [program] at hp
      obtain ⟨o, -, hprogram⟩ := exists_of_bind_eq_ok hp
      cases hprogram
      exact .bind _ fun _ => .bind _ fun _ => rfl
  | writeField place value =>
      rw [program] at hp
      obtain ⟨location, -, hprogram⟩ := exists_of_bind_eq_ok hp
      cases hprogram
      exact .bind _ fun _ => .bind _ fun _ => rfl
  | writeEntry table i words =>
      cases hp
      exact .bind _ fun _ => .bind _ fun _ => rfl

end Command

end CommandLine

end I3CHost
