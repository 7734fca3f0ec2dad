import I3CHost.Access
import I3CHost.Proofs.Bits
import I3CHost.Proofs.Programs
import I3CHost.Proofs.Reach

/-!
# Programs that see different words

Two windows of one shape may hold different words where software cannot write. What a program does
next never depends on such a word: a field update takes the loaded word as it is outside the field,
so words that agree on some bits stay in agreement when they are stored, and a comparison only
enters the report. `writable` gives the bits that agree at each address.

`AnswersAgree` says what two answers to one request have in common. Raw words agree on the writable
bits, a field is equal if it lies inside them, a typed entry is decoded from words that agree.
Discovery is not a request, since the layouts it finds depend on the words it reads.
-/
namespace I3CHost

variable {writable : Address → Word}

/-- Words at an address agree on the bits that can be written there. -/
def AgreeAt (writable : Address → Word) (a : Address) (w x : Word) : Prop :=
  Word.AgreeOn (writable a) w x

/-- Lists of words that agree one by one; word `k` stands at `place k`. -/
def WordsAgree (writable : Address → Word) (place : Nat → Address) (ws xs : List Word) : Prop :=
  ws.length = xs.length ∧
    ∀ k w x, ws[k]? = some w → xs[k]? = some x → AgreeAt writable (place k) w x

theorem WordsAgree.nil (place : Nat → Address) : WordsAgree writable place [] [] :=
  ⟨rfl, fun k w x hw => by simp at hw⟩

theorem WordsAgree.cons {place : Nat → Address} {w x : Word} {ws xs : List Word}
    (h : AgreeAt writable (place 0) w x)
    (hs : WordsAgree writable (fun k => place (k + 1)) ws xs) :
    WordsAgree writable place (w :: ws) (x :: xs) := by
  obtain ⟨hlen, hall⟩ := hs
  refine ⟨by rw [List.length_cons, List.length_cons, hlen], fun k w' x' hw hx => ?_⟩
  cases k with
  | zero =>
      cases hw
      cases hx
      exact h
  | succ k => exact hall k w' x' hw hx

theorem WordsAgree.concat {place : Nat → Address} {w x : Word} {ws xs : List Word}
    (hs : WordsAgree writable place ws xs) (h : AgreeAt writable (place ws.length) w x) :
    WordsAgree writable place (ws ++ [w]) (xs ++ [x]) := by
  obtain ⟨hlen, hall⟩ := hs
  refine ⟨by rw [List.length_append, List.length_append, hlen]; rfl, fun k w' x' hw hx => ?_⟩
  rcases Nat.lt_trichotomy k ws.length with hk | rfl | hk
  · rw [List.getElem?_append_left hk] at hw
    rw [List.getElem?_append_left (hlen ▸ hk)] at hx
    exact hall k w' x' hw hx
  · rw [List.getElem?_concat_length] at hw
    rw [hlen, List.getElem?_concat_length] at hx
    cases hw
    cases hx
    exact h
  · rw [List.getElem?_eq_none (by simp; omega)] at hw
    cases hw

/-- A field of words that agree is equal if its bits lie where they agree. -/
theorem WordsAgree.pick_eq {n : Nat} {place : Nat → Address} {ws xs : Vector Word n}
    (h : WordsAgree writable place ws.toList xs.toList) {f : Field}
    (hf : f.Inside (writable (place f.word.toNat))) : Entry.pick ws f = Entry.pick xs f := by
  rw [Entry.pick, Entry.pick]
  by_cases hk : f.word.toNat < n
  · rw [Vector.getElem?_eq_getElem hk, Vector.getElem?_eq_getElem hk]
    apply hf.get_eq
    apply h.2 f.word.toNat <;> simp [hk]
  · have hk := Nat.le_of_not_lt hk
    rw [Vector.getElem?_eq_none hk, Vector.getElem?_eq_none hk]

/-- Entries decoded from words that agree. -/
def EntriesAgree {α : Type} {n : Nat} (writable : Address → Word) (place : Nat → Address)
    (decode : Vector Word n → α) (e e' : α) : Prop :=
  ∃ ws xs : Vector Word n, e = decode ws ∧ e' = decode xs ∧
    WordsAgree writable place ws.toList xs.toList ∧
    ∀ f : Field, f.Inside (writable (place f.word.toNat)) → Entry.pick ws f = Entry.pick xs f

/-! ## Views -/

namespace Registers

variable (v : Registers) (offset : Address)

theorem alike_read : Bus.Alike (AgreeAt writable) (AgreeAt writable (v.base + offset))
    (v.read offset) (v.read offset) := by
  refine Bus.alike_check fun a ha => .load fun w x hwx => .done ?_
  rw [← (address_eq_ok ha).1]
  exact hwx

theorem alike_write (value : Word) : Bus.Alike (AgreeAt writable) (fun _ _ => True)
    (v.write offset value) (v.write offset value) :=
  Bus.alike_check fun _ _ => .store (.refl _ _) (.done trivial)

theorem alike_readField (f : Field) : Bus.Alike (AgreeAt writable)
    (fun w x => f.Inside (writable (v.base + wordOf offset f)) → w = x)
    (v.readField offset f) (v.readField offset f) := by
  refine Bus.alike_check fun a ha => .load fun w x hwx => .note (.done fun hf => ?_)
  rw [← (address_eq_ok (fieldAddress_eq_ok ha).1).1] at hf
  exact hf.get_eq hwx

theorem alike_writeField (f : Field) (value : Word) : Bus.Alike (AgreeAt writable)
    (fun _ _ => True) (v.writeField offset f value) (v.writeField offset f value) := by
  refine Bus.alike_check fun a _ => .load fun w x hwx => .note (.store ?_ (.done trivial))
  exact hwx.merge _ _

theorem alike_readBits (low : UInt8) (mask : Word) : Bus.Alike (AgreeAt writable)
    (fun w x => (Field.ofMask low mask).Inside (writable (v.base + offset)) → w = x)
    (v.readBits offset low mask) (v.readBits offset low mask) :=
  (v.alike_read offset).bind fun _ _ hwx => .done fun hf => hf.get_eq hwx

theorem alike_readRun (count : Nat) : Bus.Alike (AgreeAt writable)
    (WordsAgree writable fun k => v.base + Table.wordFrom offset k)
    (v.readRun offset count) (v.readRun offset count) := by
  induction count generalizing offset with
  | zero => exact .done (.nil _)
  | succ count ih =>
      refine (v.alike_read offset).bind fun w x hwx =>
        (ih (offset + Address.wordBytes)).bind fun ws xs hs => .done (.cons ?_ ?_)
      · rw [Table.wordFrom_zero]
        exact hwx
      · simpa only [Table.wordFrom_succ] using hs

theorem alike_writeRun (words : List Word) : Bus.Alike (AgreeAt writable) (fun _ _ => True)
    (v.writeRun offset words) (v.writeRun offset words) := by
  induction words generalizing offset with
  | nil => exact .done trivial
  | cons w words ih => exact (v.alike_write offset w).bind fun _ _ _ => ih _

theorem alike_readVector (n : Nat) : Bus.Alike (AgreeAt writable)
    (fun ws xs => WordsAgree writable (fun k => v.base + Table.wordFrom offset k)
      ws.toList xs.toList)
    (v.readVector offset n) (v.readVector offset n) := by
  induction n with
  | zero => exact .done (.nil _)
  | succ n ih =>
      refine ih.bind fun ws xs hs => (v.alike_read _).bind fun w x hwx => .done ?_
      rw [Vector.toList_push, Vector.toList_push]
      refine hs.concat ?_
      rw [Vector.length_toList]
      exact hwx

end Registers

namespace Table

variable (t : Table) (i : UInt64)

/-- Where word `k` of entry `i` stands, if it is an address at all. -/
def wordAddress (t : Table) (i : UInt64) (k : Nat) : Address :=
  t.layout.offset + wordFrom (i * t.layout.entryBytes) k

theorem start_eq {t : Table} {i start : UInt64} (h : t.entryOffset i = .ok start) :
    start = i * t.layout.entryBytes := by
  have hstart := (entryOffset_eq_ok h).2.1
  apply UInt64.toNat_inj.mp
  rw [UInt64.toNat_mul, ← hstart, Nat.mod_eq_of_lt start.toNat_lt]

theorem alike_readEntry (count : Nat) : Bus.Alike (AgreeAt writable)
    (WordsAgree writable (t.wordAddress i)) (t.readEntry i count) (t.readEntry i count) := by
  refine Bus.alike_check fun start hs => Bus.alike_check fun _ _ => ?_
  obtain rfl := start_eq hs
  exact t.registers.alike_readRun _ count

theorem alike_readWords (n : Nat) : Bus.Alike (AgreeAt writable)
    (fun ws xs => WordsAgree writable (t.wordAddress i) ws.toList xs.toList)
    (t.readWords i n) (t.readWords i n) := by
  refine Bus.alike_check fun start hs => Bus.alike_check fun _ _ => ?_
  obtain rfl := start_eq hs
  exact t.registers.alike_readVector _ n

theorem alike_writeEntry (words : List Word) : Bus.Alike (AgreeAt writable) (fun _ _ => True)
    (t.writeEntry i words) (t.writeEntry i words) :=
  Bus.alike_check fun start _ => Bus.alike_check fun _ _ =>
    .note (t.registers.alike_writeRun start words)

theorem alike_readField (f : Field) : Bus.Alike (AgreeAt writable)
    (fun w x => f.Inside (writable (t.wordAddress i f.word.toNat)) → w = x)
    (t.readField i f) (t.readField i f) := by
  refine Bus.alike_check fun start hs => Bus.alike_check fun _ _ => ?_
  obtain rfl := start_eq hs
  rw [wordAddress, wordFrom_word]
  exact t.registers.alike_readField _ f

theorem alike_writeField (f : Field) (value : Word) : Bus.Alike (AgreeAt writable)
    (fun _ _ => True) (t.writeField i f value) (t.writeField i f value) :=
  Bus.alike_check fun start _ => Bus.alike_check fun _ _ =>
    t.registers.alike_writeField start f value

theorem alike_writePair (pair value : UInt64) : Bus.Alike (AgreeAt writable)
    (fun _ _ => True) (t.writePair i pair value) (t.writePair i pair value) := by
  rw [writePair_words]
  exact Bus.alike_check fun _ _ => Bus.alike_check fun _ _ => Bus.alike_check fun _ _ =>
    (t.registers.alike_write _ _).bind fun _ _ _ => t.registers.alike_write _ _

/-- The halves of a pair of words, low half first. -/
def halves (n : UInt64) : List Word := [n.toUInt32, (n >>> 32).toUInt32]

theorem halves_eq (low high : Word) :
    halves ((high.toUInt64 <<< 32) ||| low.toUInt64) = [low, high] := by
  have hlow := low.toNat_lt
  have hhigh := high.toNat_lt
  have hsum : ((high.toUInt64 <<< 32) ||| low.toUInt64).toNat =
      high.toNat * UInt32.size + low.toNat := by
    rw [UInt64.toNat_or, UInt64.toNat_shiftLeft, UInt32.toNat_toUInt64, UInt32.toNat_toUInt64,
      show (32 : UInt64).toNat % 64 = 32 from rfl, Nat.mod_eq_of_lt (by
        rw [Nat.shiftLeft_eq]
        omega), ← Nat.shiftLeft_add_eq_or_of_lt hlow, Nat.shiftLeft_eq]
  rw [halves]
  congr 1
  · apply UInt32.toNat_inj.mp
    rw [UInt64.toNat_toUInt32, hsum]
    simp only [UInt32.size]
    omega
  · congr 1
    apply UInt32.toNat_inj.mp
    rw [UInt64.toNat_toUInt32, UInt64.toNat_shiftRight, hsum,
      show (32 : UInt64).toNat % 64 = 32 from rfl, Nat.shiftRight_eq_div_pow]
    simp only [UInt32.size]
    omega

theorem alike_readPair (pair : UInt64) : Bus.Alike (AgreeAt writable)
    (fun n n' => WordsAgree writable (fun k => t.wordAddress i (2 * pair.toNat + k))
      (halves n) (halves n'))
    (t.readPair i pair) (t.readPair i pair) := by
  rw [readPair_words]
  refine Bus.alike_check fun _ _ => Bus.alike_check fun start hs => Bus.alike_check fun _ _ => ?_
  obtain rfl := start_eq hs
  refine (t.registers.alike_read _).bind fun w x hwx =>
    (t.registers.alike_read _).bind fun w' x' hwx' => .done ?_
  rw [halves_eq, halves_eq]
  exact .cons hwx (.cons hwx' (.nil _))

end Table

namespace Controller

/-- Where the word of a field stands in one of the spaces. -/
def fieldAddress (c : Controller) (s : Space) (location : UInt64) (f : Field) : Address :=
  match s.table? with
  | none => Registers.wordOf location f
  | some kind => (c.table kind).wordAddress location f.word.toNat

variable (c : Controller) (s : Space) (location : UInt64) (f : Field)

theorem alike_readField : Bus.Alike (AgreeAt writable)
    (fun w x => f.Inside (writable (c.fieldAddress s location f)) → w = x)
    (c.readField s location f) (c.readField s location f) := by
  rw [readField, fieldAddress]
  cases s.table? with
  | none =>
      have h : Bus.Alike (AgreeAt writable) _ _ _ := c.csr.alike_readField location f
      rw [show c.csr.base = 0 from rfl, UInt64.zero_add] at h
      exact h
  | some kind => exact (c.table kind).alike_readField location f

theorem alike_writeField (value : Word) : Bus.Alike (AgreeAt writable) (fun _ _ => True)
    (c.writeField s location f value) (c.writeField s location f value) := by
  rw [writeField]
  cases s.table? with
  | none => exact c.csr.alike_writeField location f value
  | some kind => exact (c.table kind).alike_writeField location f value

end Controller

/-! ## The smoke sequence -/

/-- The same checks, whatever was read. -/
def Report.SameChecks (r r' : Report) : Prop :=
  r.checks.map (fun c => (c.name, c.expected)) = r'.checks.map fun c => (c.name, c.expected)

namespace Smoke

variable {r r' : Report} (h : r.SameChecks r')
include h

theorem alike_record (name : String) (expected actual actual' : Word) :
    Bus.Alike (AgreeAt writable) Report.SameChecks (record r ⟨name, expected, actual⟩)
      (record r' ⟨name, expected, actual'⟩) := by
  refine .note (.done ?_)
  simp only [Report.SameChecks] at h
  simp only [Report.SameChecks, Report.add, List.map_append, h, List.map_cons, List.map_nil]

theorem alike_recordWords (name : String) (k : Nat) (expected ws xs : List Word)
    (hlen : ws.length = xs.length) :
    Bus.Alike (AgreeAt writable) Report.SameChecks (recordWords name k r expected ws)
      (recordWords name k r' expected xs) := by
  induction expected generalizing k r r' ws xs with
  | nil => cases ws <;> cases xs <;> exact .done h
  | cons e es ih =>
      cases ws with
      | nil =>
          cases xs with
          | nil => exact .done h
          | cons x xs => cases hlen
      | cons w ws =>
          cases xs with
          | nil => cases hlen
          | cons x xs =>
              exact (alike_record h _ e w x).bind fun s s' hs =>
                ih hs (k + 1) ws xs (Nat.succ.inj hlen)

theorem alike_step (c : Controller) (s : Step) :
    Bus.Alike (AgreeAt writable) Report.SameChecks (s.run c r) (s.run c r') := by
  cases s with
  | announce title => exact .note (.done h)
  | write offset value => exact (c.csr.alike_write offset value).bind fun _ _ _ => .done h
  | writeField offset f value =>
      exact (c.csr.alike_writeField offset f value).bind fun _ _ _ => .done h
  | expect name expected offset =>
      exact (c.csr.alike_read offset).bind fun w x _ => alike_record h name expected w x
  | expectField name expected offset f =>
      exact (c.csr.alike_readField offset f).bind fun w x _ => alike_record h name expected w x
  | writeEntry table index words =>
      exact ((c.table table).alike_writeEntry index words).bind fun _ _ _ => .done h
  | expectEntry table index words =>
      exact ((c.table table).alike_readWords index words.length).bind fun ws xs hs =>
        alike_recordWords h _ 0 words ws.toList xs.toList hs.1
  | writeEntryField table index f value =>
      exact ((c.table table).alike_writeField index f value).bind fun _ _ _ => .done h
  | expectEntryField name expected table index f =>
      exact ((c.table table).alike_readField index f).bind fun w x _ =>
        alike_record h name expected w x

theorem alike_runSteps (c : Controller) (steps : List Step) :
    Bus.Alike (AgreeAt writable) Report.SameChecks (runSteps c r steps) (runSteps c r' steps) := by
  induction steps generalizing r r' with
  | nil => exact .done h
  | cons s steps ih => exact (alike_step h c s).bind fun _ _ hs => ih hs

omit h in
theorem alike_run (c : Controller) (l : InterruptLog) :
    Bus.Alike (AgreeAt writable) Report.SameChecks (run c l) (run c l) :=
  (alike_runSteps rfl c script).bind fun _ _ hs =>
    (alike_record hs _ 0 _ _).bind fun _ _ hs' => .note (.done hs')

end Smoke

/-! ## Requests -/

namespace Access

/-- What the answers to one request have in common. -/
def AnswersAgree (writable : Address → Word) : Access → Answer → Answer → Prop
  | read v offset, .word w, .word x => AgreeAt writable (v.base + offset) w x
  | load offset, .word w, .word x => AgreeAt writable offset w x
  | readField v offset f, .word w, .word x =>
      f.Inside (writable (v.base + Registers.wordOf offset f)) → w = x
  | readBits v offset low mask, .word w, .word x =>
      (Field.ofMask low mask).Inside (writable (v.base + offset)) → w = x
  | readEntry t i _, .words ws, .words xs => WordsAgree writable (t.wordAddress i) ws xs
  | readWords t i _, .words ws, .words xs => WordsAgree writable (t.wordAddress i) ws xs
  | readEntryField t i f, .word w, .word x =>
      f.Inside (writable (t.wordAddress i f.word.toNat)) → w = x
  | readEntryBits t i low mask, .word w, .word x =>
      (Field.ofMask low mask).Inside (writable (t.wordAddress i 0)) → w = x
  | readPair t i pair, .number n, .number n' =>
      WordsAgree writable (fun k => t.wordAddress i (2 * pair.toNat + k)) (Table.halves n)
        (Table.halves n')
  | readSpace c s location f, .word w, .word x =>
      f.Inside (writable (c.fieldAddress s location f)) → w = x
  | readDatEntry c i, .dat e, .dat e' =>
      EntriesAgree writable ((c.table .dat).wordAddress i) DatEntry.ofWords e e'
  | readDctEntry c i, .dct e, .dct e' =>
      EntriesAgree writable ((c.table .dct).wordAddress i) DctEntry.ofWords e e'
  | smoke _ _, .report r, .report r' => r.SameChecks r'
  | _, x, y => x = y

theorem alike_quietly {p : Bus Unit} {a : Access}
    (ha : a.AnswersAgree writable .nothing .nothing)
    (h : Bus.Alike (AgreeAt writable) (fun _ _ => True) p p) :
    Bus.Alike (AgreeAt writable) (a.AnswersAgree writable) (quietly p) (quietly p) :=
  h.bind fun _ _ _ => .done ha

/-- Over words that agree where they can be written, a request does the same and is answered
alike. -/
theorem alike_program (a : Access) :
    Bus.Alike (AgreeAt writable) (a.AnswersAgree writable) a.program a.program := by
  cases a with
  | base v => exact .done rfl
  | read v offset => exact (v.alike_read offset).map fun _ _ h => h
  | write v offset value => exact alike_quietly rfl (v.alike_write offset value)
  | readField v offset f => exact (v.alike_readField offset f).map fun _ _ h => h
  | writeField v offset f value => exact alike_quietly rfl (v.alike_writeField offset f value)
  | readBits v offset low mask => exact (v.alike_readBits offset low mask).map fun _ _ h => h
  | writeBits v offset low mask value =>
      exact alike_quietly rfl (v.alike_writeField offset (.ofMask low mask) value)
  | layout t => exact .done rfl
  | entryOffset t i => exact Bus.alike_check fun _ _ => .done rfl
  | readEntry t i count => exact (t.alike_readEntry i count).map fun _ _ h => h
  | readWords t i n => exact (t.alike_readWords i n).map fun _ _ h => h
  | writeEntry t i words => exact alike_quietly rfl (t.alike_writeEntry i words)
  | readEntryField t i f => exact (t.alike_readField i f).map fun _ _ h => h
  | writeEntryField t i f value => exact alike_quietly rfl (t.alike_writeField i f value)
  | readEntryBits t i low mask =>
      exact (t.alike_readField i (.ofMask low mask)).map fun _ _ h => h
  | writeEntryBits t i low mask value =>
      exact alike_quietly rfl (t.alike_writeField i (.ofMask low mask) value)
  | readPair t i pair => exact (t.alike_readPair i pair).map fun _ _ h => h
  | writePair t i pair value => exact alike_quietly rfl (t.alike_writePair i pair value)
  | readSpace c s location f => exact (c.alike_readField s location f).map fun _ _ h => h
  | writeSpace c s location f value =>
      exact alike_quietly rfl (c.alike_writeField s location f value)
  | readDatEntry c i =>
      exact ((((c.table .dat).alike_readWords i 2).bind fun ws xs h => .done
        ⟨ws, xs, rfl, rfl, h, fun _ hf => h.pick_eq hf⟩)).map fun _ _ h => h
  | writeDatEntry c i e => exact alike_quietly rfl ((c.table .dat).alike_writeEntry i _)
  | readDctEntry c i =>
      exact ((((c.table .dct).alike_readWords i 4).bind fun ws xs h => .done
        ⟨ws, xs, rfl, rfl, h, fun _ hf => h.pick_eq hf⟩)).map fun _ _ h => h
  | writeDctEntry c i e => exact alike_quietly rfl ((c.table .dct).alike_writeEntry i _)
  | load offset => exact .load fun _ _ h => .done h
  | store offset value => exact .store (.refl _ _) (.done rfl)
  | smoke c l => exact (Smoke.alike_run c l).map fun _ _ h => h

end Access

end I3CHost
