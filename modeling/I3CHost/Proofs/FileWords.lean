import I3CHost.Mapping
import I3CHost.Proofs.Bits
import I3CHost.Proofs.Reach

/-!
# The words of a mapped file

A word is put into a file as four bytes, low byte first, and read back the same way. Words at
different positions of a window do not overlap, so a store changes one word of the window.

A window that opened over a regular file ends where the file does or before. The end of the window
is compared as an address that stays at the largest one, so the length of the file has to be below
that for the comparison to mean anything; every file is much shorter. Then no position wraps, and a
position is the sum of the base and the offset however the base lies in its page.
-/
namespace I3CHost

/-! ## Bytes of a word -/

/-- One byte of a word, back in its place. -/
theorem Word.bit_byte (w : Word) {s : Word} (hs : s.toNat ≤ 24) (b : Nat) :
    Word.bit ((w >>> s).toUInt8.toUInt32 <<< s) b =
      (decide (s.toNat ≤ b ∧ b < s.toNat + 8) && w.bit b) := by
  have hmod : s.toNat % 32 = s.toNat := Nat.mod_eq_of_lt (by omega)
  simp only [bit, UInt32.toNat_shiftLeft, UInt8.toNat_toUInt32, UInt32.toNat_toUInt8,
    UInt32.toNat_shiftRight, Nat.testBit_mod_two_pow, Nat.testBit_shiftLeft,
    Nat.testBit_shiftRight, hmod]
  by_cases hb : s.toNat ≤ b
  · have hsum : s.toNat + (b - s.toNat) = b := Nat.add_sub_cancel' hb
    rw [hsum]
    by_cases hlt : b < s.toNat + 8
    · have h8 : b - s.toNat < 8 := by omega
      have h32 : b < 32 := by omega
      simp [hb, hlt, h8, h32]
    · have h8 : ¬ b - s.toNat < 8 := by omega
      simp [hlt, h8]
  · simp [hb]

theorem Word.ofBytes_bytes (w : Word) :
    ofBytes w.toUInt8 (w >>> 8).toUInt8 (w >>> 16).toUInt8 (w >>> 24).toUInt8 = w := by
  have h0 := w.bit_byte (s := 0) (by decide)
  have h8 := w.bit_byte (s := 8) (by decide)
  have h16 := w.bit_byte (s := 16) (by decide)
  have h24 := w.bit_byte (s := 24) (by decide)
  rw [UInt32.shiftRight_zero, UInt32.shiftLeft_zero] at h0
  apply ext_bit
  intro b
  rw [ofBytes, bit_or, bit_or, bit_or, h0, h8, h16, h24]
  cases hw : w.bit b with
  | false => simp
  | true =>
      have hb := lt_of_bit hw
      simp only [UInt32.reduceToNat, Bool.and_true, ← Bool.decide_or, decide_eq_true_eq]
      omega

namespace Mapping

variable {bytes : Array UInt8} {p q : Nat} {w : Word}

theorem putWord_eq (bytes : Array UInt8) (p : Nat) (w : Word) :
    putWord bytes p w = (((bytes.setIfInBounds p w.toUInt8).setIfInBounds (p + 1)
      (w >>> 8).toUInt8).setIfInBounds (p + 2) (w >>> 16).toUInt8).setIfInBounds (p + 3)
        (w >>> 24).toUInt8 := rfl

theorem size_putWord (bytes : Array UInt8) (p : Nat) (w : Word) :
    (putWord bytes p w).size = bytes.size := by
  simp only [putWord_eq, Array.size_setIfInBounds]

theorem wordAt_putWord (h : p + 4 ≤ bytes.size) : wordAt (putWord bytes p w) p = w := by
  have h0 : p < bytes.size := by omega
  have h1 : p + 1 < bytes.size := by omega
  have h2 : p + 2 < bytes.size := by omega
  have h3 : p + 3 < bytes.size := by omega
  refine Eq.trans ?_ w.ofBytes_bytes
  rw [wordAt, putWord_eq]
  simp [h0, h1, h2, h3]

theorem wordAt_putWord_apart (h : p + 4 ≤ q ∨ q + 4 ≤ p) :
    wordAt (putWord bytes p w) q = wordAt bytes q := by
  have hbyte : ∀ k < 4, (putWord bytes p w)[q + k]? = bytes[q + k]? := by
    intro k hk
    rw [putWord_eq, Array.getElem?_setIfInBounds_ne (by omega),
      Array.getElem?_setIfInBounds_ne (by omega), Array.getElem?_setIfInBounds_ne (by omega),
      Array.getElem?_setIfInBounds_ne (by omega)]
  simp only [wordAt, hbyte 0 (by decide), hbyte 1 (by decide), hbyte 2 (by decide),
    hbyte 3 (by decide)]

end Mapping

/-! ## Changing a file -/

namespace DeviceTree

/-- The bytes of the changed file; a place without a regular file has none before and after. -/
theorem bytes_modifyBytes (t : DeviceTree) (p : Place) {f : Array UInt8 → Array UInt8}
    (hf : f #[] = #[]) : (t.modifyBytes p f).bytes p = f (t.bytes p) := by
  simp only [bytes, modifyBytes]
  induction t.nodes with
  | nil => exact hf.symm
  | cons q nodes ih =>
      obtain ⟨r, n⟩ := q
      by_cases hr : r = p
      · subst hr
        cases n <;> simp [hf]
      · have hne : (p == r) = false := by simpa using Ne.symm hr
        simp only [List.map_cons, hr, if_false, List.lookup_cons, hne]
        exact ih

theorem bytes_of_open {t : DeviceTree} {path : String} {p : Place} {bs : Array UInt8}
    (h : t.open? path = .ok (p, .regular bs)) : t.bytes p = bs := by
  rw [open?] at h
  cases hr : t.resolve path with
  | error e => simp only [hr, reduceCtorEq] at h
  | ok q =>
      simp only [hr] at h
      split at h
      · cases h
      · next n hnode =>
        cases h
        rw [node?] at hnode
        split at hnode
        · cases hnode
        · rw [bytes, hnode]
      · cases h

end DeviceTree

/-! ## The window in the file -/

namespace Mapping

variable {t : DeviceTree} {path : String} {base size : Address} {mp : Mapping} {place : Place}

/-- A window over a regular file: words start at its base, and it ends before the file does. -/
structure Fits (mp : Mapping) (place : Place) (t : DeviceTree) : Prop where
  backing : mp.backing = .file place
  finish : mp.base.toNat + mp.size.toNat ≤ (t.bytes place).size
  small : (t.bytes place).size < UInt64.size

/-- What is known of a mapping that opened: the window is made of whole words, the length of the
mapping is an address, and the window is over a regular file that ends no earlier, or over a device
whose range is not refused. -/
theorem openOn_eq_ok {page : Address} (h : (openOn page t path base size).result = .ok mp) :
    (size ≠ 0 ∧ size.toNat % 4 = 0 ∧ base.toNat % 4 = 0) ∧ ∃ p node backing length,
      t.open? path = .ok (p, node) ∧ mp = ⟨path, base, size, backing⟩ ∧
        mappedLength page base size = .ok length ∧
        ((∃ bytes, node = .regular bytes ∧ (Address.addSat base size).toNat ≤ bytes.size ∧
            backing = .file p) ∨
          node = .zeros ∧ backing = .memory [] ∧
            rangeRefusal page length (pageBase page base) = none) := by
  simp only [openOn, Bind.bind, Logged.bind, Pure.pure, refuse, Logged.fail, Logged.emit,
    Logged.ofExcept] at h
  split at h
  · cases h
  next hsize =>
  split at h
  · cases h
  next hbase =>
  simp only [Bool.or_eq_true, beq_iff_eq, Bool.not_eq_true', not_or, Bool.not_eq_false]
    at hsize hbase
  refine ⟨⟨hsize.1, (Address.isAligned_iff size).mp hsize.2,
    (Address.isAligned_iff base).mp hbase⟩, ?_⟩
  split at h
  · cases h
  next p node hopen =>
  cases hlength : mappedLength page base size with
  | error e =>
      simp only [hlength] at h
      split at h <;> first | cases h | (split at h <;> cases h)
  | ok length =>
      simp only [hlength] at h
      split at h
      · next bytes =>
        split at h
        · cases h
        · next hend =>
          cases h
          exact ⟨p, _, _, length, hopen, rfl, rfl, .inl ⟨bytes, rfl, Nat.le_of_not_lt hend, rfl⟩⟩
      · split at h
        · cases h
        · next hrange _ =>
          cases h
          exact ⟨p, _, _, length, hopen, rfl, rfl, .inr ⟨rfl, rfl, hrange⟩⟩
        · cases h

theorem openAt_eq_ok (h : (openAt t path base size).result = .ok mp) :
    (size ≠ 0 ∧ size.toNat % 4 = 0 ∧ base.toNat % 4 = 0) ∧ ∃ p node backing,
      t.open? path = .ok (p, node) ∧ mp = ⟨path, base, size, backing⟩ ∧
        ((∃ bytes, node = .regular bytes ∧ (Address.addSat base size).toNat ≤ bytes.size ∧
            backing = .file p) ∨ node = .zeros ∧ backing = .memory []) := by
  obtain ⟨hwords, p, node, backing, length, hopen, hmp, -, hcase⟩ := openOn_eq_ok h
  refine ⟨hwords, p, node, backing, hopen, hmp, hcase.imp_right fun hzeros => ?_⟩
  exact ⟨hzeros.1, hzeros.2.1⟩

/-- Opening fails for a reason of its own, or because the length of the mapping is no address; a
regular file has been compared with the end of the window by then. -/
theorem openOn_eq_error {page : Address} {e : Fault}
    (h : (openOn page t path base size).result = .error e) :
    (∃ why, e = .mapFailed why) ∨ mappedLength page base size = .error e ∧
      ∃ p node, t.open? path = .ok (p, node) ∧
        ∀ bytes, node = .regular bytes → (Address.addSat base size).toNat ≤ bytes.size := by
  simp only [openOn, Bind.bind, Logged.bind, Pure.pure, refuse, Logged.fail, Logged.emit,
    Logged.ofExcept] at h
  split at h
  · cases h
    exact .inl ⟨_, rfl⟩
  split at h
  · cases h
    exact .inl ⟨_, rfl⟩
  split at h
  · cases h
    exact .inl ⟨_, rfl⟩
  next p node hopen =>
  cases hlength : mappedLength page base size with
  | error e' =>
      simp only [hlength] at h
      split at h
      · next bytes =>
        split at h
        · cases h
          exact .inl ⟨_, rfl⟩
        · next hend =>
          cases h
          refine .inr ⟨rfl, p, _, hopen, fun bytes' hbytes => ?_⟩
          cases hbytes
          exact Nat.le_of_not_lt hend
      · next hdevice =>
        cases h
        exact .inr ⟨rfl, p, node, hopen, fun bytes' hbytes => absurd hbytes (hdevice bytes')⟩
  | ok length =>
      simp only [hlength] at h
      split at h
      · split at h <;> cases h
        exact .inl ⟨_, rfl⟩
      · split at h <;> cases h
        · exact .inl ⟨_, rfl⟩
        · exact .inl ⟨_, rfl⟩

/-- A mapping of a regular file is opened only if the window ends inside the file. -/
theorem openAt_file (h : (openAt t path base size).result = .ok mp)
    (hfile : mp.backing = .file place) :
    mp.base = base ∧ mp.size = size ∧
      (Address.addSat base size).toNat ≤ (t.bytes place).size := by
  obtain ⟨-, p, node, backing, hopen, rfl, ⟨bytes, rfl, hend, rfl⟩ | ⟨-, rfl⟩⟩ := openAt_eq_ok h
  · cases hfile
    rw [DeviceTree.bytes_of_open hopen]
    exact ⟨rfl, rfl, hend⟩
  · cases hfile

/-- The end that is compared says something unless it is the largest address. -/
theorem addSat_le_iff {n : Nat} (hn : n < Address.last.toNat) :
    (Address.addSat base size).toNat ≤ n ↔ base.toNat + size.toNat ≤ n := by
  have hlast : Address.last.toNat = UInt64.size - 1 := rfl
  rw [Address.addSat]
  cases hsum : Address.add? base size with
  | some finish =>
      rw [Option.getD_some, Address.add?_eq_some hsum]
  | none =>
      -- An end that is no address would be past every file.
      have hwrap := Address.add?_eq_none.mp hsum
      rw [Option.getD_none]
      omega

theorem openAt_fits_of_lt (h : (openAt t path base size).result = .ok mp)
    (hfile : mp.backing = .file place) (hlen : (t.bytes place).size < Address.last.toNat) :
    mp.Fits place t := by
  obtain ⟨rfl, rfl, hend⟩ := openAt_file h hfile
  exact ⟨hfile, (addSat_le_iff hlen).mp hend, Nat.lt_trans hlen (by decide)⟩

theorem openAt_fits (h : (openAt t path base size).result = .ok mp)
    (hfile : mp.backing = .file place) (hlen : (t.bytes place).size < UInt64.size / 2) :
    mp.Fits place t :=
  openAt_fits_of_lt h hfile (Nat.lt_trans hlen (by decide))

/-- Only the length of the file matters. -/
theorem Fits.of_size {t' : DeviceTree} (h : mp.Fits place t)
    (hsize : (t'.bytes place).size = (t.bytes place).size) : mp.Fits place t' :=
  ⟨h.backing, hsize ▸ h.finish, hsize ▸ h.small⟩

theorem Fits.position_eq (h : mp.Fits place t) {o : Address} (ho : o.toNat < mp.size.toNat) :
    mp.position o = mp.base.toNat + o.toNat := by
  have hsum : pageBase pageSize mp.base + (skew pageSize mp.base + o) = mp.base + o := by
    rw [skew, ← UInt64.add_assoc, UInt64.add_comm (pageBase pageSize mp.base),
      UInt64.sub_add_cancel]
  have hend := h.finish
  have hsmall := h.small
  rw [position, hsum, UInt64.toNat_add]
  simp only [UInt64.size] at hsmall
  omega

theorem Fits.peek_eq (h : mp.Fits place t) (o : Address) :
    mp.peek t o = wordAt (t.bytes place) (mp.position o) := by
  rw [peek, h.backing]

/-- A store through the window keeps the window and changes the bytes of its word. -/
theorem Fits.poke_eq (h : mp.Fits place t) (o : Address) (w : Word) :
    (mp.poke t o w).1 = mp ∧
      (mp.poke t o w).2.bytes place = putWord (t.bytes place) (mp.position o) w := by
  rw [poke, h.backing]
  exact ⟨rfl, t.bytes_modifyBytes place (putWord_eq #[] _ _)⟩

/-- The word of an accepted offset in the file. -/
theorem Fits.position_word (h : mp.Fits place t) {o : Address}
    (hc : checkAccess o mp.size = .ok ()) :
    mp.position o = mp.base.toNat + 4 * (o.toNat / 4) := by
  obtain ⟨haligned, hend⟩ := (checkAccess_eq_ok_iff o mp.size).mp hc
  rw [h.position_eq (by omega)]
  omega

/-- A store leaves the window in the file. -/
theorem Fits.after_poke (h : mp.Fits place t) (o : Address) (w : Word) :
    mp.Fits place (mp.poke t o w).2 := by
  apply h.of_size
  rw [(h.poke_eq o w).2, size_putWord]

/-! ## Accesses -/

theorem state_load (mp : Mapping) (t : DeviceTree) (o : Address) :
    (mp.load t o).state = (mp, t) := by
  unfold load
  split <;> rfl

theorem state_store_of_error {o : Address} {v : Word} {e : Fault}
    (h : (mp.store t o v).result = .error e) : (mp.store t o v).state = (mp, t) := by
  unfold store at h ⊢
  split at h
  · cases h
  · rfl

end Mapping

end I3CHost
