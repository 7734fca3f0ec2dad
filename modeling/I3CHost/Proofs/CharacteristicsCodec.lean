import I3CHost.Entry.Characteristics
import I3CHost.Proofs.EntryPacking
import Mathlib.Algebra.Group.Nat.Defs

/-!
# The codec of Device Characteristics Table entries

The provisioned ID is the one member that takes two fields, and the one that may be wider than its
room. It is packed as its upper 32 and its lower 16 bits, which together are the ID modulo 2^48.
The other members are octets with a field of eight bits each, so nothing of them is lost.

As in a Device Address Table entry the fields are apart and lose no bit when they are read, which is
checked on their masks. Of four words what survives unpacking is the first word and the low bits of
the others.
-/
namespace I3CHost.DctEntry

/-- The fields of an entry in the order in which they are packed. -/
def fields : List Field :=
  [DctField.pidHi, DctField.pidLo, DctField.dcr, DctField.bcr, DctField.dynamicAddress]

theorem map_fst_values (e : DctEntry) : e.values.map Prod.fst = fields := rfl

theorem separate_values (e : DctEntry) : Entry.Separate (e.values.map Prod.fst) := by
  rw [map_fst_values]
  decide

theorem flush_fields : ∀ f ∈ fields, f.Flush := by decide

theorem word_lt_of_mem : ∀ f ∈ fields, f.word.toNat < 4 := by decide

/-- An entry whose provisioned ID is cut to 48 bits. -/
def cut (e : DctEntry) : DctEntry := { e with pid := e.pid % 0x1000000000000 }

/-! ## The provisioned ID -/

/-- The ID of an upper and a lower part. -/
def joinPid (hi lo : Word) : UInt64 := (hi.toUInt64 <<< 16) ||| lo.toUInt64

theorem toNat_joinPid (hi : Word) {lo : Word} (hlo : lo.toNat < 2 ^ 16) :
    (joinPid hi lo).toNat = hi.toNat * 2 ^ 16 + lo.toNat := by
  have hlt := hi.toNat_lt
  have hshift : (hi.toUInt64 <<< 16).toNat = hi.toNat <<< 16 := by
    rw [UInt64.toNat_shiftLeft, UInt32.toNat_toUInt64]
    refine Nat.mod_eq_of_lt ?_
    change hi.toNat <<< 16 < 2 ^ 64
    rw [Nat.shiftLeft_eq]
    omega
  rw [joinPid, UInt64.toNat_or, hshift, UInt32.toNat_toUInt64, ← Nat.shiftLeft_add_eq_or_of_lt hlo,
    Nat.shiftLeft_eq]

/-- The upper part of an ID. -/
theorem toNat_pidHi (pid : UInt64) : (pid >>> 16).toUInt32.toNat = pid.toNat / 2 ^ 16 % 2 ^ 32 := by
  rw [UInt64.toNat_toUInt32, UInt64.toNat_shiftRight, Nat.shiftRight_eq_div_pow]
  rfl

/-- The lower part of an ID. -/
theorem toNat_pidLo (pid : UInt64) : (pid &&& 0xFFFF).toUInt32.toNat = pid.toNat % 2 ^ 16 := by
  have hmask : pid.toNat &&& 0xFFFF = pid.toNat % 2 ^ 16 := Nat.and_two_pow_sub_one_eq_mod _ 16
  rw [UInt64.toNat_toUInt32, UInt64.toNat_and, show (0xFFFF : UInt64).toNat = 0xFFFF from rfl, hmask]
  exact Nat.mod_eq_of_lt (Nat.lt_trans (Nat.mod_lt _ (by decide)) (by decide))

theorem toNat_cut (pid : UInt64) : (pid % 0x1000000000000).toNat = pid.toNat % 2 ^ 48 :=
  UInt64.toNat_mod ..

theorem joinPid_parts (pid : UInt64) :
    joinPid (pid >>> 16).toUInt32 (pid &&& 0xFFFF).toUInt32 = pid % 0x1000000000000 := by
  have hlo := toNat_pidLo pid
  apply UInt64.toNat_inj.mp
  rw [toNat_joinPid _ (by omega), toNat_pidHi, hlo, toNat_cut]
  omega

/-- Both parts of an ID are got back from it, if the lower one has no more than 16 bits. -/
theorem parts_joinPid (hi : Word) {lo : Word} (hlo : lo.toNat < 2 ^ 16) :
    (joinPid hi lo >>> 16).toUInt32 = hi ∧ (joinPid hi lo &&& 0xFFFF).toUInt32 = lo := by
  have hhi := hi.toNat_lt
  have hjoin := toNat_joinPid hi hlo
  constructor
  · apply UInt32.toNat_inj.mp
    rw [toNat_pidHi]
    omega
  · apply UInt32.toNat_inj.mp
    rw [toNat_pidLo]
    omega

/-! ## Unpacking a packed entry -/

section
variable {e : DctEntry} {f : Field}

theorem pick_toWords {v : Word} (k : Nat) (h : e.values[k]? = some (f, v)) :
    Entry.pick e.toWords f = v &&& f.maxValue :=
  Entry.pick_of_value e.separate_values word_lt_of_mem h

/-- An octet with a field of eight bits reads back whole. -/
theorem octet_toWords {x : UInt8} (k : Nat) (h : e.values[k]? = some (f, x.toUInt32))
    (hroom : f.maxValue = (255 : UInt8).toUInt32) : (Entry.pick e.toWords f).toUInt8 = x :=
  (Entry.octet_of_value e.separate_values word_lt_of_mem h hroom).trans UInt8.and_neg_one

end

theorem ofWords_toWords (e : DctEntry) : ofWords e.toWords = e.cut := by
  have hhi : Entry.pick e.toWords DctField.pidHi = (e.pid >>> 16).toUInt32 :=
    (pick_toWords 0 rfl).trans (Word.and_ones _)
  have hlo : Entry.pick e.toWords DctField.pidLo = (e.pid &&& 0xFFFF).toUInt32 := by
    have hmax : DctField.pidLo.maxValue = (0xFFFF : UInt64).toUInt32 := rfl
    rw [pick_toWords 1 rfl, hmax, ← UInt64.toUInt32_and, UInt64.and_assoc, UInt64.and_self]
  rw [ofWords, cut, mk.injEq, hhi, hlo]
  exact ⟨joinPid_parts e.pid, octet_toWords 2 rfl rfl, octet_toWords 3 rfl rfl,
    octet_toWords 4 rfl rfl⟩

/-! ## Packing an unpacked entry -/

/-- The lower part of an ID is read from a field of 16 bits. -/
theorem pick_pidLo_lt (words : Vector Word 4) :
    (Entry.pick words DctField.pidLo).toNat < 2 ^ 16 :=
  Nat.lt_succ_of_le (UInt32.le_iff_toNat_le.mp (Entry.pick_le words DctField.pidLo))

theorem values_ofWords (words : Vector Word 4) :
    (ofWords words).values = fields.map fun f => (f, Entry.pick words f) := by
  obtain ⟨hhi, hlo⟩ := parts_joinPid (Entry.pick words DctField.pidHi) (pick_pidLo_lt words)
  rw [joinPid] at hhi hlo
  simp (disch := decide) only [values, ofWords, fields, List.map_cons, List.map_nil,
    Entry.octet_pick, hhi, hlo]

/-- The words without the bits that no field has. -/
def unreserved (words : Vector Word 4) : Vector Word 4 :=
  #v[words[0], words[1] &&& 0xFFFF, words[2] &&& 0xFFFF, words[3] &&& 0xFF]

theorem unreserved_eq (words : Vector Word 4) : unreserved words = Entry.cleared fields words := by
  apply Vector.ext
  intro k hk
  rw [Entry.getElem_cleared _ _ hk]
  obtain rfl | rfl | rfl | rfl : k = 0 ∨ k = 1 ∨ k = 2 ∨ k = 3 := by omega
  · exact (Word.and_ones _).symm
  · rfl
  · rfl
  · rfl

theorem toWords_ofWords (words : Vector Word 4) : (ofWords words).toWords = unreserved words := by
  rw [toWords, values_ofWords, Entry.pack_pick flush_fields, unreserved_eq]

theorem unreserved_toWords (e : DctEntry) : unreserved e.toWords = e.toWords := by
  rw [unreserved_eq, ← e.map_fst_values]
  exact Entry.cleared_pack e.values

/-! ## What is lost -/

/-- Nothing of an entry is cut if its ID has 48 bits. -/
theorem cut_eq_self {e : DctEntry} (h : e.pid.toNat < 2 ^ 48) : e.cut = e := by
  have hpid : e.pid % 0x1000000000000 = e.pid := by
    apply UInt64.toNat_inj.mp
    rw [toNat_cut]
    exact Nat.mod_eq_of_lt h
  rw [cut, hpid]

theorem toWords_injOn {e e' : DctEntry} (h : e.pid.toNat < 2 ^ 48) (h' : e'.pid.toNat < 2 ^ 48)
    (heq : e.toWords = e'.toWords) : e = e' :=
  calc e = e.cut := (cut_eq_self h).symm
    _ = ofWords e.toWords := (ofWords_toWords e).symm
    _ = ofWords e'.toWords := by rw [heq]
    _ = e'.cut := ofWords_toWords e'
    _ = e' := cut_eq_self h'

/-- An ID that was read has 48 bits. -/
theorem pid_ofWords_lt (words : Vector Word 4) : (ofWords words).pid.toNat < 2 ^ 48 := by
  have hlo := pick_pidLo_lt words
  have hhi := (Entry.pick words DctField.pidHi).toNat_lt
  have hjoin := toNat_joinPid (Entry.pick words DctField.pidHi) hlo
  change (joinPid _ _).toNat < 2 ^ 48
  omega

/-- Two entries of words are read alike exactly if they differ in reserved bits only. -/
theorem ofWords_eq_iff (words words' : Vector Word 4) :
    ofWords words = ofWords words' ↔ unreserved words = unreserved words' := by
  have hread (words : Vector Word 4) : ofWords (unreserved words) = ofWords words := by
    rw [← toWords_ofWords, ofWords_toWords]
    exact cut_eq_self (pid_ofWords_lt words)
  constructor
  · intro h
    rw [← toWords_ofWords, ← toWords_ofWords, h]
  · intro h
    rw [← hread words, ← hread words', h]

/-- Unpacking a packed entry cuts the provisioned ID to 48 bits, and packing unpacked words clears
the bits that no field has. So entries whose IDs have 48 bits are told apart by their words, and
words are told apart by their entries unless they differ in reserved bits only. -/
theorem codec_faithful :
    (∀ e : DctEntry, ofWords e.toWords = { e with pid := e.pid % 0x1000000000000 }) ∧
      (∀ words : Vector Word 4, (ofWords words).toWords =
        #v[words[0], words[1] &&& 0xFFFF, words[2] &&& 0xFFFF, words[3] &&& 0xFF]) ∧
      (∀ e e' : DctEntry, e.pid.toNat < 2 ^ 48 → e'.pid.toNat < 2 ^ 48 →
        e.toWords = e'.toWords → e = e') ∧
      ∀ words words' : Vector Word 4, ofWords words = ofWords words' ↔
        #v[words[0], words[1] &&& 0xFFFF, words[2] &&& 0xFFFF, words[3] &&& 0xFF] =
          #v[words'[0], words'[1] &&& 0xFFFF, words'[2] &&& 0xFFFF, words'[3] &&& 0xFF] :=
  ⟨ofWords_toWords, toWords_ofWords, fun _ _ => toWords_injOn, ofWords_eq_iff⟩

/-- The largest ID of 48 bits is packed without loss. One bit more is dropped, so its entry is not
told apart from that of ID 0. -/
theorem codec_faithful_widest :
    let e : DctEntry := ⟨0xFFFFFFFFFFFF, 0xC6, 0x07, 0x21⟩
    let wide : DctEntry := ⟨0x1000000000000, 0, 0, 0⟩
    e.pid.toNat < 2 ^ 48 ∧ e.toWords = #v[0xFFFFFFFF, 0xFFFF, 0x07C6, 0x21] ∧
      (∀ e' : DctEntry, e'.pid.toNat < 2 ^ 48 → e.toWords = e'.toWords → e = e') ∧
      ofWords wide.toWords = ⟨0, 0, 0, 0⟩ := by
  intro e wide
  have he : e.pid.toNat < 2 ^ 48 := by decide
  have hwide : ofWords wide.toWords = ⟨0, 0, 0, 0⟩ := (codec_faithful.1 wide).trans (by decide)
  exact ⟨he, by decide +kernel, fun e' => codec_faithful.2.2.1 e e' he, hwide⟩

end I3CHost.DctEntry
