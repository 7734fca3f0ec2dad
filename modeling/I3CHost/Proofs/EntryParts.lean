import I3CHost.Proofs.CharacteristicsCodec
import I3CHost.Proofs.DeviceAddressCodec

/-!
# The parts of an entry

A part of an entry is what one field holds: a member, or one of the two halves of a provisioned ID.
There are two ways to change it. One sets the field in the word that has it; the other replaces the
member of the unpacked entry. `Format` says for each table which field and which member belong
together, and from that the two ways are one.

A part is replaced by the value cut to its width, and in no other part does this show. As an entry
is known by its parts, nothing else has to be said about any single field.
-/
namespace I3CHost

/-- The lowest bits of a word. -/
def Word.lowest (w : Word) (width : Nat) : Word := UInt32.ofNat (w.toNat % 2 ^ width)

namespace Word

theorem toNat_lowest (w : Word) (width : Nat) : (w.lowest width).toNat = w.toNat % 2 ^ width :=
  UInt32.toNat_ofNat_of_lt' (Nat.lt_of_le_of_lt (Nat.mod_le _ _) w.toNat_lt)

/-- To cut a word to a run of ones is to keep its lowest bits. -/
theorem and_eq_lowest {mask : Word} {width : Nat} (h : mask.toNat = 2 ^ width - 1) (w : Word) :
    w &&& mask = w.lowest width := by
  apply UInt32.toNat_inj.mp
  rw [UInt32.toNat_and, h, Nat.and_two_pow_sub_one_eq_mod, toNat_lowest]

theorem octet_lowest {width : Nat} (h : width ≤ 8) (w : Word) :
    (w.lowest width).toUInt8.toUInt32 = w.lowest width := by
  have hpow : 2 ^ width ≤ 2 ^ 8 := Nat.pow_le_pow_right Nat.two_pos h
  have hlt : w.toNat % 2 ^ width < 2 ^ width := Nat.mod_lt _ (Nat.two_pow_pos width)
  apply UInt32.toNat_inj.mp
  rw [UInt32.toUInt32_toUInt8, UInt32.toNat_mod, toNat_lowest]
  exact Nat.mod_eq_of_lt (Nat.lt_of_lt_of_le hlt hpow)

theorem flag_lowest (w : Word) : (w.lowest 1 != 0).toUInt32 = w.lowest 1 := by
  have hlow := w.toNat_lowest 1
  rcases Nat.mod_two_eq_zero_or_one w.toNat with hvalue | hvalue
  · rw [show w.lowest 1 = 0 from UInt32.toNat_inj.mp (hlow.trans hvalue)]
    rfl
  · rw [show w.lowest 1 = 1 from UInt32.toNat_inj.mp (hlow.trans hvalue)]
    rfl

end Word

namespace Entry

variable {n : Nat} {f g : Field}

/-- The words of an entry after a field is set in the word that has it. -/
def setField (words : Vector Word n) (f : Field) (v : Word) : Vector Word n :=
  words.mapIdx fun k w => if f.word.toNat = k then f.set w v else w

theorem getElem_setField (words : Vector Word n) (f : Field) (v : Word) {k : Nat} (hk : k < n) :
    (setField words f v)[k] = if f.word.toNat = k then f.set words[k] v else words[k] :=
  Vector.getElem_mapIdx hk

theorem pick_setField (hf : f.word.toNat < n) (words : Vector Word n) (v : Word) :
    pick (setField words f v) f = v &&& f.maxValue := by
  rw [pick_eq_get _ hf, getElem_setField _ _ _ hf, if_pos rfl]
  exact f.get_set _ v

theorem pick_setField_apart (hg : g.word.toNat < n) (hapart : g.word = f.word → g.Apart f)
    (words : Vector Word n) (v : Word) : pick (setField words f v) g = pick words g := by
  rw [pick_eq_get _ hg, pick_eq_get _ hg, getElem_setField _ _ _ hg]
  split
  · next hword => exact (hapart (UInt8.toNat_inj.mp hword).symm).get_set _ v
  · rfl

/-- How the parts of an entry lie in its words. -/
structure Format (ε π : Type) (n : Nat) where
  toWords : ε → Vector Word n
  ofWords : Vector Word n → ε
  /-- What packing leaves of an entry. -/
  cut : ε → ε
  field : π → Field
  width : π → Nat
  get : ε → π → Word
  /-- The entry with one part replaced. -/
  put : ε → π → Word → ε
  /-- The parts are all there is to the entry. -/
  Whole : ε → Prop
  word_lt (p : π) : (field p).word.toNat < n
  maxValue_field (p : π) : (field p).maxValue.toNat = 2 ^ width p - 1
  apart {p q : π} : p ≠ q → (field p).word = (field q).word → (field p).Apart (field q)
  ofWords_toWords (e : ε) : ofWords (toWords e) = cut e
  get_ofWords (words : Vector Word n) (p : π) : get (ofWords words) p = pick words (field p)
  get_put (e : ε) (p : π) (v : Word) : get (put e p v) p = v.lowest (width p)
  get_put_other {p q : π} : q ≠ p → ∀ (e : ε) (v : Word), get (put e p v) q = get e q
  whole_ofWords (words : Vector Word n) : Whole (ofWords words)
  whole_put {e : ε} : Whole e → ∀ (p : π) (v : Word), Whole (put e p v)
  ext {e e' : ε} : Whole e → Whole e' → (∀ p, get e p = get e' p) → e = e'

/-- To set a field of the words is to replace its part of the entry. -/
theorem Format.ofWords_setField {ε π : Type} (F : Format ε π n) (words : Vector Word n) (p : π)
    (v : Word) : F.ofWords (setField words (F.field p) v) = F.put (F.ofWords words) p v := by
  refine F.ext (F.whole_ofWords _) (F.whole_put (F.whole_ofWords words) p v) fun q => ?_
  rw [F.get_ofWords]
  by_cases hq : q = p
  · rw [hq, pick_setField (F.word_lt p), F.get_put]
    exact Word.and_eq_lowest (F.maxValue_field p) v
  · rw [pick_setField_apart (F.word_lt q) (F.apart hq), F.get_put_other hq, F.get_ofWords]

end Entry

/-! ## Device Address Table -/

namespace DatEntry

/-- The members of an entry. -/
inductive Part where
  | staticAddress | ibiPayload | ibiReject | crrReject | ts | dynamicAddress | ringId
  | devNackRetryCnt | device | autocmdMask | autocmdValue | autocmdMode | autocmdHdrCode
deriving DecidableEq, Repr

namespace Part

/-- All parts in the order in which they are packed. -/
def all : List Part :=
  [staticAddress, ibiPayload, ibiReject, crrReject, ts, dynamicAddress, ringId, devNackRetryCnt,
    device, autocmdMask, autocmdValue, autocmdMode, autocmdHdrCode]

theorem mem_all (p : Part) : p ∈ all := by cases p <;> decide

def field : Part → Field
  | staticAddress => DatField.staticAddress
  | ibiPayload => DatField.ibiPayload
  | ibiReject => DatField.ibiReject
  | crrReject => DatField.crrReject
  | ts => DatField.ts
  | dynamicAddress => DatField.dynamicAddress
  | ringId => DatField.ringId
  | devNackRetryCnt => DatField.devNackRetryCnt
  | device => DatField.device
  | autocmdMask => DatField.autocmdMask
  | autocmdValue => DatField.autocmdValue
  | autocmdMode => DatField.autocmdMode
  | autocmdHdrCode => DatField.autocmdHdrCode

/-- How many bits the field has. -/
def width : Part → Nat
  | staticAddress => 7
  | ibiPayload | ibiReject | crrReject | ts | device => 1
  | ringId | autocmdMode => 3
  | devNackRetryCnt => 2
  | dynamicAddress | autocmdMask | autocmdValue | autocmdHdrCode => 8

end Part

/-- A member as its field shows it. -/
def get (e : DatEntry) : Part → Word
  | .staticAddress => e.staticAddress.toUInt32
  | .ibiPayload => e.ibiPayload.toUInt32
  | .ibiReject => e.ibiReject.toUInt32
  | .crrReject => e.crrReject.toUInt32
  | .ts => e.ts.toUInt32
  | .dynamicAddress => e.dynamicAddress.toUInt32
  | .ringId => e.ringId.toUInt32
  | .devNackRetryCnt => e.devNackRetryCnt.toUInt32
  | .device => e.device.toUInt32
  | .autocmdMask => e.autocmdMask.toUInt32
  | .autocmdValue => e.autocmdValue.toUInt32
  | .autocmdMode => e.autocmdMode.toUInt32
  | .autocmdHdrCode => e.autocmdHdrCode.toUInt32

/-- The entry with one member replaced by the lowest bits of a value, or by whether its lowest bit
is set. -/
def put (e : DatEntry) (p : Part) (v : Word) : DatEntry :=
  let x := v.lowest p.width
  match p with
  | .staticAddress => { e with staticAddress := x.toUInt8 }
  | .ibiPayload => { e with ibiPayload := x != 0 }
  | .ibiReject => { e with ibiReject := x != 0 }
  | .crrReject => { e with crrReject := x != 0 }
  | .ts => { e with ts := x != 0 }
  | .dynamicAddress => { e with dynamicAddress := x.toUInt8 }
  | .ringId => { e with ringId := x.toUInt8 }
  | .devNackRetryCnt => { e with devNackRetryCnt := x.toUInt8 }
  | .device => { e with device := x != 0 }
  | .autocmdMask => { e with autocmdMask := x.toUInt8 }
  | .autocmdValue => { e with autocmdValue := x.toUInt8 }
  | .autocmdMode => { e with autocmdMode := x.toUInt8 }
  | .autocmdHdrCode => { e with autocmdHdrCode := x.toUInt8 }

theorem values_eq (e : DatEntry) : e.values = Part.all.map fun p => (p.field, e.get p) := rfl

theorem get_ofWords (words : Vector Word 2) (p : Part) :
    (ofWords words).get p = Entry.pick words p.field := by
  have hvalues : Part.all.map (fun p => (p.field, (ofWords words).get p)) =
      Part.all.map fun p => (p.field, Entry.pick words p.field) := values_ofWords words
  exact congrArg Prod.snd (List.map_inj_left.mp hvalues p p.mem_all)

theorem get_put (e : DatEntry) (p : Part) (v : Word) : (e.put p v).get p = v.lowest p.width := by
  cases p <;> first
    | exact Word.octet_lowest (by decide) v
    | exact Word.flag_lowest v

theorem get_put_other {p q : Part} (h : q ≠ p) (e : DatEntry) (v : Word) :
    (e.put p v).get q = e.get q := by
  cases p <;> cases q <;> first
    | rfl
    | exact absurd rfl h

theorem flag_inj {x y : Bool} (h : x.toUInt32 = y.toUInt32) : x = y := by
  cases x <;> cases y <;> first
    | rfl
    | cases h

theorem ext_get {e e' : DatEntry} (h : ∀ p, e.get p = e'.get p) : e = e' := by
  rw [mk.injEq]
  exact ⟨UInt8.toUInt32_inj.mp (h .staticAddress), flag_inj (h .ibiPayload),
    flag_inj (h .ibiReject), flag_inj (h .crrReject), flag_inj (h .ts),
    UInt8.toUInt32_inj.mp (h .dynamicAddress), UInt8.toUInt32_inj.mp (h .ringId),
    UInt8.toUInt32_inj.mp (h .devNackRetryCnt), flag_inj (h .device),
    UInt8.toUInt32_inj.mp (h .autocmdMask), UInt8.toUInt32_inj.mp (h .autocmdValue),
    UInt8.toUInt32_inj.mp (h .autocmdMode), UInt8.toUInt32_inj.mp (h .autocmdHdrCode)⟩

theorem apart_parts : ∀ p ∈ Part.all, ∀ q ∈ Part.all,
    p ≠ q → p.field.word = q.field.word → p.field.Apart q.field := by
  decide +kernel

def format : Entry.Format DatEntry Part 2 where
  toWords := toWords
  ofWords := ofWords
  cut := cut
  field := Part.field
  width := Part.width
  get := get
  put := put
  Whole _ := True
  word_lt p := word_lt_of_mem p.field (List.mem_map_of_mem p.mem_all)
  maxValue_field p := by cases p <;> decide +kernel
  apart := fun {p q} => apart_parts p p.mem_all q q.mem_all
  ofWords_toWords := ofWords_toWords
  get_ofWords := get_ofWords
  get_put := get_put
  get_put_other := get_put_other
  whole_ofWords _ := trivial
  whole_put _ _ _ := trivial
  ext _ _ := ext_get

end DatEntry

/-! ## Device Characteristics Table -/

namespace DctEntry

/-- The members of an entry, with the provisioned ID in its two parts. -/
inductive Part where
  | pidHi | pidLo | dcr | bcr | dynamicAddress
deriving DecidableEq, Repr

namespace Part

def all : List Part := [pidHi, pidLo, dcr, bcr, dynamicAddress]

theorem mem_all (p : Part) : p ∈ all := by cases p <;> decide

def field : Part → Field
  | pidHi => DctField.pidHi
  | pidLo => DctField.pidLo
  | dcr => DctField.dcr
  | bcr => DctField.bcr
  | dynamicAddress => DctField.dynamicAddress

/-- How many bits the field has. -/
def width : Part → Nat
  | pidHi => 32
  | pidLo => 16
  | dcr | bcr | dynamicAddress => 8

end Part

/-- A part as its field shows it. -/
def get (e : DctEntry) : Part → Word
  | .pidHi => (e.pid >>> 16).toUInt32
  | .pidLo => (e.pid &&& 0xFFFF).toUInt32
  | .dcr => e.dcr.toUInt32
  | .bcr => e.bcr.toUInt32
  | .dynamicAddress => e.dynamicAddress.toUInt32

/-- The entry with one part replaced by the lowest bits of a value. A part of the provisioned ID is
exchanged for another in plain numbers. -/
def put (e : DctEntry) (p : Part) (v : Word) : DctEntry :=
  let x := v.lowest p.width
  match p with
  | .pidHi => { e with pid := UInt64.ofNat (x.toNat * 2 ^ 16 + e.pid.toNat % 2 ^ 16) }
  | .pidLo => { e with pid := UInt64.ofNat (e.pid.toNat / 2 ^ 16 * 2 ^ 16 + x.toNat) }
  | .dcr => { e with dcr := x.toUInt8 }
  | .bcr => { e with bcr := x.toUInt8 }
  | .dynamicAddress => { e with dynamicAddress := x.toUInt8 }

theorem values_eq (e : DctEntry) : e.values = Part.all.map fun p => (p.field, e.get p) := rfl

theorem get_ofWords (words : Vector Word 4) (p : Part) :
    (ofWords words).get p = Entry.pick words p.field := by
  have hvalues : Part.all.map (fun p => (p.field, (ofWords words).get p)) =
      Part.all.map fun p => (p.field, Entry.pick words p.field) := values_ofWords words
  exact congrArg Prod.snd (List.map_inj_left.mp hvalues p p.mem_all)

/-! ### The provisioned ID -/

theorem toNat_put_pidHi (e : DctEntry) (v : Word) :
    (e.put .pidHi v).pid.toNat = v.toNat * 2 ^ 16 + e.pid.toNat % 2 ^ 16 := by
  have hv := v.toNat_lt
  have hx : (v.lowest 32).toNat = v.toNat := by
    rw [Word.toNat_lowest]
    exact Nat.mod_eq_of_lt hv
  have hput : (e.put .pidHi v).pid =
      UInt64.ofNat ((v.lowest 32).toNat * 2 ^ 16 + e.pid.toNat % 2 ^ 16) := rfl
  rw [hput, hx]
  refine UInt64.toNat_ofNat_of_lt' ?_
  change _ < 2 ^ 64
  omega

theorem toNat_put_pidLo (e : DctEntry) (v : Word) :
    (e.put .pidLo v).pid.toNat = e.pid.toNat / 2 ^ 16 * 2 ^ 16 + v.toNat % 2 ^ 16 := by
  have hpid := e.pid.toNat_lt
  have hput : (e.put .pidLo v).pid =
      UInt64.ofNat (e.pid.toNat / 2 ^ 16 * 2 ^ 16 + (v.lowest 16).toNat) := rfl
  rw [hput, Word.toNat_lowest]
  refine UInt64.toNat_ofNat_of_lt' ?_
  change _ < 2 ^ 64
  omega

theorem get_put (e : DctEntry) (p : Part) (v : Word) : (e.put p v).get p = v.lowest p.width := by
  cases p with
  | pidHi =>
      have hput := toNat_put_pidHi e v
      have hv := v.toNat_lt
      apply UInt32.toNat_inj.mp
      rw [get, toNat_pidHi, Word.toNat_lowest, Part.width]
      omega
  | pidLo =>
      have hput := toNat_put_pidLo e v
      apply UInt32.toNat_inj.mp
      rw [get, toNat_pidLo, Word.toNat_lowest, Part.width]
      omega
  | dcr => exact Word.octet_lowest (by decide) v
  | bcr => exact Word.octet_lowest (by decide) v
  | dynamicAddress => exact Word.octet_lowest (by decide) v

/-- Only its own two parts show the provisioned ID. -/
theorem get_with_pid (e : DctEntry) (pid : UInt64) {q : Part} (hhi : q ≠ .pidHi)
    (hlo : q ≠ .pidLo) : get { e with pid } q = e.get q := by
  cases q with
  | pidHi => exact absurd rfl hhi
  | pidLo => exact absurd rfl hlo
  | dcr | bcr | dynamicAddress => rfl

theorem get_put_other {p q : Part} (h : q ≠ p) (e : DctEntry) (v : Word) :
    (e.put p v).get q = e.get q := by
  -- The two parts of the ID share a member.
  cases p with
  | pidHi =>
      cases q with
      | pidHi => exact absurd rfl h
      | pidLo =>
          have hput := toNat_put_pidHi e v
          apply UInt32.toNat_inj.mp
          rw [get, get, toNat_pidLo, toNat_pidLo]
          omega
      | dcr | bcr | dynamicAddress => exact get_with_pid e _ (by decide) (by decide)
  | pidLo =>
      cases q with
      | pidHi =>
          have hput := toNat_put_pidLo e v
          apply UInt32.toNat_inj.mp
          rw [get, get, toNat_pidHi, toNat_pidHi]
          omega
      | pidLo => exact absurd rfl h
      | dcr | bcr | dynamicAddress => exact get_with_pid e _ (by decide) (by decide)
  | dcr | bcr | dynamicAddress =>
      cases q <;> first
        | exact absurd rfl h
        | rfl

/-- The provisioned ID has 48 bits. -/
def Whole (e : DctEntry) : Prop := e.pid.toNat < 2 ^ 48

theorem Whole.put {e : DctEntry} (h : e.Whole) (p : Part) (v : Word) : (e.put p v).Whole := by
  rw [Whole] at h
  cases p with
  | pidHi =>
      have hput := toNat_put_pidHi e v
      have hv := v.toNat_lt
      rw [Whole]
      omega
  | pidLo =>
      have hput := toNat_put_pidLo e v
      rw [Whole]
      omega
  | dcr => exact h
  | bcr => exact h
  | dynamicAddress => exact h

theorem Whole.ext_get {e e' : DctEntry} (he : e.Whole) (he' : e'.Whole)
    (h : ∀ p, e.get p = e'.get p) : e = e' := by
  have hhi := congrArg UInt32.toNat (h .pidHi)
  have hlo := congrArg UInt32.toNat (h .pidLo)
  simp only [get, toNat_pidHi, toNat_pidLo] at hhi hlo
  rw [Whole] at he he'
  have hpid : e.pid = e'.pid := UInt64.toNat_inj.mp (by omega)
  rw [mk.injEq]
  exact ⟨hpid, UInt8.toUInt32_inj.mp (h .dcr), UInt8.toUInt32_inj.mp (h .bcr),
    UInt8.toUInt32_inj.mp (h .dynamicAddress)⟩

theorem apart_parts : ∀ p ∈ Part.all, ∀ q ∈ Part.all,
    p ≠ q → p.field.word = q.field.word → p.field.Apart q.field := by
  decide +kernel

def format : Entry.Format DctEntry Part 4 where
  toWords := toWords
  ofWords := ofWords
  cut := cut
  field := Part.field
  width := Part.width
  get := get
  put := put
  Whole := Whole
  word_lt p := word_lt_of_mem p.field (List.mem_map_of_mem p.mem_all)
  maxValue_field p := by cases p <;> decide +kernel
  apart := fun {p q} => apart_parts p p.mem_all q q.mem_all
  ofWords_toWords := ofWords_toWords
  get_ofWords := get_ofWords
  get_put := get_put
  get_put_other := get_put_other
  whole_ofWords := pid_ofWords_lt
  whole_put := Whole.put
  ext := Whole.ext_get

end DctEntry

end I3CHost
