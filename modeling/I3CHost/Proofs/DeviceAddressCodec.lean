import I3CHost.Entry.DeviceAddress
import I3CHost.Proofs.EntryPacking

/-!
# The codec of Device Address Table entries

The thirteen fields of an entry are apart and none of them loses a bit when it is read; these are
closed facts about their masks. So a member reads back as it was packed, cut to its field, and no
member shows in another one. Of two words what survives unpacking are the bits that belong to some
field. Unpacking does not cut a member a second time: every field fits the member it goes into.
-/
namespace I3CHost.DatEntry

/-- The fields of an entry in the order in which they are packed. -/
def fields : List Field :=
  [DatField.staticAddress, DatField.ibiPayload, DatField.ibiReject, DatField.crrReject,
    DatField.ts, DatField.dynamicAddress, DatField.ringId, DatField.devNackRetryCnt,
    DatField.device, DatField.autocmdMask, DatField.autocmdValue, DatField.autocmdMode,
    DatField.autocmdHdrCode]

theorem map_fst_values (e : DatEntry) : e.values.map Prod.fst = fields := rfl

theorem separate_values (e : DatEntry) : Entry.Separate (e.values.map Prod.fst) := by
  rw [map_fst_values]
  decide

theorem flush_fields : ∀ f ∈ fields, f.Flush := by decide

theorem word_lt_of_mem : ∀ f ∈ fields, f.word.toNat < 2 := by decide

/-- An entry with each member cut to the width of its field. -/
def cut (e : DatEntry) : DatEntry :=
  { e with
    staticAddress := e.staticAddress &&& 0x7F
    ringId := e.ringId &&& 0x7
    devNackRetryCnt := e.devNackRetryCnt &&& 0x3
    autocmdMode := e.autocmdMode &&& 0x7 }

/-! ## Unpacking a packed entry -/

section
variable {e : DatEntry} {f : Field}

theorem octet_toWords {x room : UInt8} (k : Nat) (h : e.values[k]? = some (f, x.toUInt32))
    (hroom : f.maxValue = room.toUInt32) : (Entry.pick e.toWords f).toUInt8 = x &&& room :=
  Entry.octet_of_value e.separate_values word_lt_of_mem h hroom

theorem flag_toWords {x : Bool} (k : Nat) (h : e.values[k]? = some (f, x.toUInt32))
    (hroom : f.maxValue = 1) : (Entry.pick e.toWords f != 0) = x :=
  Entry.flag_of_value e.separate_values word_lt_of_mem h hroom

end

theorem ofWords_toWords (e : DatEntry) : ofWords e.toWords = e.cut := by
  have whole (x : UInt8) : x &&& 0xFF = x := UInt8.and_neg_one
  rw [ofWords, cut, mk.injEq]
  exact ⟨octet_toWords 0 rfl rfl, flag_toWords 1 rfl rfl, flag_toWords 2 rfl rfl,
    flag_toWords 3 rfl rfl, flag_toWords 4 rfl rfl, (octet_toWords 5 rfl rfl).trans (whole _),
    octet_toWords 6 rfl rfl, octet_toWords 7 rfl rfl, flag_toWords 8 rfl rfl,
    (octet_toWords 9 rfl rfl).trans (whole _), (octet_toWords 10 rfl rfl).trans (whole _),
    octet_toWords 11 rfl rfl, (octet_toWords 12 rfl rfl).trans (whole _)⟩

/-! ## Packing an unpacked entry -/

theorem values_ofWords (words : Vector Word 2) :
    (ofWords words).values = fields.map fun f => (f, Entry.pick words f) := by
  simp (disch := decide) only [values, ofWords, fields, List.map_cons, List.map_nil,
    Entry.octet_pick, Entry.flag_pick]

/-- The words without the bits that no field has. -/
def unreserved (words : Vector Word 2) : Vector Word 2 :=
  #v[words[0] &&& 0xFCFFF07F, words[1] &&& 0x07FFFFFF]

theorem unreserved_eq (words : Vector Word 2) : unreserved words = Entry.cleared fields words := by
  apply Vector.ext
  intro k hk
  rw [Entry.getElem_cleared _ _ hk]
  obtain rfl | rfl : k = 0 ∨ k = 1 := by omega
  · rfl
  · rfl

theorem toWords_ofWords (words : Vector Word 2) : (ofWords words).toWords = unreserved words := by
  rw [toWords, values_ofWords, Entry.pack_pick flush_fields, unreserved_eq]

theorem unreserved_toWords (e : DatEntry) : unreserved e.toWords = e.toWords := by
  rw [unreserved_eq, ← e.map_fst_values]
  exact Entry.cleared_pack e.values

/-- Two entries are packed alike exactly if they differ by no more than what the fields cut off. -/
theorem toWords_eq_iff (e e' : DatEntry) : e.toWords = e'.toWords ↔ e.cut = e'.cut := by
  have hpacked (e : DatEntry) : e.cut.toWords = e.toWords := by
    rw [← ofWords_toWords, toWords_ofWords, unreserved_toWords]
  constructor
  · intro h
    rw [← ofWords_toWords, ← ofWords_toWords, h]
  · intro h
    rw [← hpacked e, ← hpacked e', h]

/-- Unpacking a packed entry cuts each member to its field, and packing unpacked words clears the
bits that no field has. Packed words are such that nothing is lost any more. -/
theorem codec_exact :
    (∀ e : DatEntry, ofWords e.toWords = e.cut) ∧
      (∀ words : Vector Word 2, (ofWords words).toWords =
        #v[words[0] &&& 0xFCFFF07F, words[1] &&& 0x07FFFFFF]) ∧
      (∀ e : DatEntry, (ofWords e.toWords).toWords = e.toWords) ∧
      ∀ e e' : DatEntry, e.toWords = e'.toWords ↔ e.cut = e'.cut := by
  refine ⟨ofWords_toWords, toWords_ofWords, fun e => ?_, toWords_eq_iff⟩
  rw [toWords_ofWords, unreserved_toWords]

end I3CHost.DatEntry
