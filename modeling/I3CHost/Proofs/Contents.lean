import I3CHost.Proofs.AcceptedTables
import I3CHost.Proofs.FileWords

/-!
# What a program makes of the words of a window

A window keeps one word for every four bytes, and its contents are all of them by position. A store
merges into the word at its position under the mask of that position. `Gives` runs a program on
contents alone: no responder, no counters and no events, and only for programs all of whose accesses
are accepted. `Window.run` says that every window which shows its contents runs the program so, and
the software model and a mapped file are two of them.

A view finds a word if the sum it forms is an address, is accepted and stands at the position of
that word. The lemmas on views ask for nothing else, so how an offset, a base or an index came to
lead there does not matter to them.
-/
namespace I3CHost

variable {α β σ : Type}

/-- The word at each position of a window. -/
abbrev Contents := Nat → Word

namespace Contents

variable (ws mask : Contents)

def store (k : Nat) (v : Word) : Contents := fun i =>
  if i = k then (ws k).merge v (mask k) else ws i

/-- After stores to the words from `k` on. -/
def storeRun (ws mask : Contents) (k : Nat) : List Word → Contents
  | [] => ws
  | v :: vs => storeRun (ws.store mask k v) mask (k + 1) vs

def slice (k n : Nat) : Vector Word n := Vector.ofFn fun j => ws (k + j)

theorem toList_slice_succ (k n : Nat) :
    (ws.slice k (n + 1)).toList = ws k :: (ws.slice (k + 1) n).toList := by
  simp only [slice, Vector.toList_ofFn, List.ofFn_succ, Fin.val_zero, Fin.val_succ, Nat.add_zero,
    Nat.add_assoc, Nat.add_comm 1]

theorem store_same (k : Nat) (v : Word) : ws.store mask k v k = (ws k).merge v (mask k) :=
  if_pos rfl

theorem store_other {k i : Nat} (h : i ≠ k) (v : Word) : ws.store mask k v i = ws i :=
  if_neg h

theorem storeRun_outside {k i : Nat} {vs : List Word} (h : i < k ∨ k + vs.length ≤ i) :
    ws.storeRun mask k vs i = ws i := by
  induction vs generalizing ws k with
  | nil => rfl
  | cons v vs ih =>
      rw [List.length_cons] at h
      rw [storeRun, ih _ (by omega), store_other ws mask (by omega)]

theorem storeRun_inside {k j : Nat} {vs : List Word} {v : Word} (hj : vs[j]? = some v) :
    ws.storeRun mask k vs (k + j) = (ws (k + j)).merge v (mask (k + j)) := by
  induction vs generalizing ws k j with
  | nil => cases hj
  | cons u vs ih =>
      rw [storeRun]
      cases j with
      | zero =>
          cases hj
          rw [storeRun_outside _ mask (.inl (by omega))]
          exact store_same ws mask k v
      | succ j =>
          have hrest := ih (ws.store mask k u) (k := k + 1) hj
          rw [Nat.add_right_comm k 1 j, Nat.add_assoc] at hrest
          rw [hrest, store_other ws mask (by omega)]

end Contents

/-! ## Programs on contents -/

/-- From contents `ws` the program ends with a value and leaves other contents. -/
inductive Bus.Gives (limit : Address) (mask : Contents) :
    Contents → Bus α → α → Contents → Prop
  | done {ws : Contents} (a : α) : Gives limit mask ws (done a) a ws
  | load {ws ws' : Contents} {o : Address} {next : Word → Bus α} {a : α} :
      checkAccess o limit = .ok () → Gives limit mask ws (next (ws (o.toNat / 4))) a ws' →
        Gives limit mask ws (load o next) a ws'
  | store {ws ws' : Contents} {o : Address} {v : Word} {next : Bus α} {a : α} :
      checkAccess o limit = .ok () → Gives limit mask (ws.store mask (o.toNat / 4) v) next a ws' →
        Gives limit mask ws (store o v next) a ws'
  | note {ws ws' : Contents} {e : Event} {next : Bus α} {a : α} :
      Gives limit mask ws next a ws' → Gives limit mask ws (note e next) a ws'

/-- A window that shows a word for every four bytes. A store it accepts is merged under the mask of
its word; loads, and stores it refuses, leave the words. -/
structure Window (r : Responder σ) (size : σ → Address) (mask : Contents)
    (shows : σ → Contents → Prop) : Prop extends Screened r size where
  answer {o : Address} {s : σ} {ws : Contents} : checkAccess o (size s) = .ok () → shows s ws →
    (r.load o s).result = .ok (ws (o.toNat / 4))
  loaded {o : Address} {s : σ} {ws : Contents} : shows s ws → shows (r.load o s).state ws
  stored {o : Address} {v : Word} {s : σ} {ws : Contents} : checkAccess o (size s) = .ok () →
    shows s ws → shows (r.store o v s).state (ws.store mask (o.toNat / 4) v)
  refused {o : Address} {v : Word} {s : σ} {ws : Contents} : checkAccess o (size s) ≠ .ok () →
    shows s ws → shows (r.store o v s).state ws

section
variable {limit : Address} {mask ws ws' ws'' : Contents}

theorem Bus.Gives.bind {p : Bus α} {f : α → Bus β} {a : α} {b : β}
    (hp : p.Gives limit mask ws a ws') (hf : (f a).Gives limit mask ws' b ws'') :
    (p.bind f).Gives limit mask ws b ws'' := by
  induction hp with
  | done a => exact hf
  | load hc _ ih => exact .load hc (ih hf)
  | store hc _ ih => exact .store hc (ih hf)
  | note _ ih => exact .note (ih hf)

/-- A check that passes is no access. -/
theorem Bus.gives_check {x : Except Fault α} {a : α} {f : α → Bus β} {b : β} (hx : x = .ok a)
    (hf : (f a).Gives limit mask ws b ws') :
    ((Bus.ofExcept x).bind f).Gives limit mask ws b ws' := by
  rw [hx]
  exact hf

/-- What a program makes of contents it makes of every window that shows them. -/
theorem Window.run {r : Responder σ} {size : σ → Address} {shows : σ → Contents → Prop}
    (hr : Window r size mask shows) {p : Bus α} {a : α} (hp : p.Gives limit mask ws a ws')
    {s : σ} (hsize : size s = limit) (hs : shows s ws) :
    (p.run r s).result = .ok a ∧ shows (p.run r s).state ws' := by
  induction hp generalizing s with
  | done a => exact ⟨rfl, hs⟩
  | load hc _ ih =>
      subst hsize
      rw [Bus.run_load_ok (hr.answer hc hs)]
      exact ih (hr.size_load _ s) (hr.loaded hs)
  | @store ws ws' o v next a hc _ ih =>
      subst hsize
      have haccepted : (r.store o v s).result = .ok () := (hr.store o v s).trans hc
      rw [Bus.run_store_ok haccepted]
      exact ih (hr.size_store o v s) (hr.stored hc hs)
  | note _ ih => exact ih hsize hs

/-! ## The windows there are -/

/-- The words of the model, under given masks. -/
def Model.Shows (mask : Contents) (m : Model) (ws : Contents) : Prop :=
  (∀ k, 4 * k + 4 ≤ m.size.toNat → m.maskAt k = mask k) ∧ m.wordAt = ws

theorem Model.window (mask : Contents) : Window responder size mask (Shows mask) where
  toScreened := screened
  answer := by
    rintro o m ws hc ⟨-, rfl⟩
    rw [responder_load, load_of_accepts (accepts_iff.mpr hc), index_eq]
  loaded := by
    rintro o m ws ⟨hmask, rfl⟩
    rw [Shows, screened.size_load o m]
    unfold maskAt wordAt
    rw [responder_load, cells_load]
    exact ⟨hmask, rfl⟩
  stored := by
    rintro o v m ws hc ⟨hmask, rfl⟩
    have hacc : m.Accepts o := accepts_iff.mpr hc
    rw [Shows, screened.size_store o v m, responder_store]
    refine ⟨fun k hk => (maskAt_store m o v k).trans (hmask k hk), funext fun k => ?_⟩
    rw [wordAt_store, index_eq]
    by_cases hk : k = o.toNat / 4
    · have hend := hacc.2
      rw [if_pos ⟨hacc, hk⟩, hk, Contents.store_same, hmask _ (by omega)]
    · rw [if_neg fun h => hk h.2, Contents.store_other _ _ hk]
  refused := by
    rintro o v m ws hc hs
    obtain ⟨e, -, he⟩ := store_of_not_accepts (mt accepts_iff.mp hc) v
    rw [responder_store, he]
    exact hs

/-- The words of the window in the file. -/
def Mapping.Shows (place : Place) (s : Mapping × DeviceTree) (ws : Contents) : Prop :=
  s.1.Fits place s.2 ∧ ∀ k, 4 * k + 4 ≤ s.1.size.toNat →
    wordAt (s.2.bytes place) (s.1.base.toNat + 4 * k) = ws k

/-- Every bit of a file can be written. -/
theorem Mapping.window (place : Place) :
    Window responder (fun s => s.1.size) (fun _ => Word.ones) (Shows place) where
  toScreened := screened
  answer := by
    rintro o ⟨mp, t⟩ ws (hc : checkAccess o mp.size = .ok ()) ⟨(hfits : mp.Fits place t), hwords⟩
    have hend := ((checkAccess_eq_ok_iff o mp.size).mp hc).2
    have hword : mp.peek t o = ws (o.toNat / 4) := by
      rw [hfits.peek_eq, hfits.position_word hc]
      exact hwords _ (show 4 * (o.toNat / 4) + 4 ≤ mp.size.toNat by omega)
    change (mp.load t o).result = _
    rw [load, hc, hword]
  loaded := by
    rintro o ⟨mp, t⟩ ws hs
    change Shows place (mp.load t o).state ws
    rw [mp.state_load t o]
    exact hs
  stored := by
    rintro o v ⟨mp, t⟩ ws (hc : checkAccess o mp.size = .ok ()) ⟨(hfits : mp.Fits place t), hwords⟩
    have hend := ((checkAccess_eq_ok_iff o mp.size).mp hc).2
    have hfinish := hfits.finish
    obtain ⟨hmp, hbytes⟩ := hfits.poke_eq o v
    rw [hfits.position_word hc] at hbytes
    have hstate : (mp.store t o v).state = (mp, (mp.poke t o v).2) := by
      rw [store, hc]
      exact Prod.ext hmp rfl
    change Shows place (mp.store t o v).state _
    rw [hstate]
    refine ⟨hfits.after_poke o v, fun k (hk : 4 * k + 4 ≤ mp.size.toNat) => ?_⟩
    change wordAt ((mp.poke t o v).2.bytes place) (mp.base.toNat + 4 * k) = _
    rw [hbytes]
    by_cases hko : k = o.toNat / 4
    · rw [hko, wordAt_putWord (by omega), Contents.store_same, Word.merge_ones]
    · rw [wordAt_putWord_apart (by omega), Contents.store_other _ _ hko]
      exact hwords k hk
  refused := by
    rintro o v ⟨mp, t⟩ ws hc hs
    change Shows place (mp.store t o v).state ws
    cases herror : checkAccess o mp.size with
    | ok u => exact (hc herror).elim
    | error e =>
        rw [mp.state_store_of_error (by rw [store, herror])]
        exact hs

/-! ## Register views -/

namespace Registers

variable {v : Registers} {offset : Address} {f : Field} {k : Nat}

/-- The register at `offset` is word `k` of a window. -/
def Finds (v : Registers) (limit offset : Address) (k : Nat) : Prop :=
  ∃ a, v.address offset = .ok a ∧ checkAccess a limit = .ok () ∧ a.toNat / 4 = k

/-- The word of a field of the register at `offset` is word `k` of a window. -/
def FindsField (v : Registers) (limit offset : Address) (f : Field) (k : Nat) : Prop :=
  ∃ a, v.fieldAddress offset f = .ok a ∧ checkAccess a limit = .ok () ∧ a.toNat / 4 = k

theorem gives_read (h : v.Finds limit offset k) :
    (v.read offset).Gives limit mask ws (ws k) ws := by
  obtain ⟨a, ha, hc, rfl⟩ := h
  exact Bus.gives_check ha (.load hc (.done _))

theorem gives_write (h : v.Finds limit offset k) (value : Word) :
    (v.write offset value).Gives limit mask ws () (ws.store mask k value) := by
  obtain ⟨a, ha, hc, rfl⟩ := h
  exact Bus.gives_check ha (.store hc (.done ()))

theorem gives_readField (h : v.FindsField limit offset f k) :
    (v.readField offset f).Gives limit mask ws (f.get (ws k)) ws := by
  obtain ⟨a, ha, hc, rfl⟩ := h
  exact Bus.gives_check ha (.load hc (.note (.done _)))

theorem gives_writeField (h : v.FindsField limit offset f k) (value : Word) :
    (v.writeField offset f value).Gives limit mask ws ()
      (ws.store mask k (f.set (ws k) value)) := by
  obtain ⟨a, ha, hc, rfl⟩ := h
  exact Bus.gives_check ha (.load hc (.note (.store hc (.done ()))))

theorem gives_writeRun {words : List Word}
    (h : ∀ j < words.length, v.Finds limit (Table.wordFrom offset j) (k + j)) :
    (v.writeRun offset words).Gives limit mask ws () (ws.storeRun mask k words) := by
  induction words generalizing offset k ws with
  | nil => exact .done ()
  | cons w words ih =>
      have hfirst := h 0 (Nat.succ_pos _)
      rw [Table.wordFrom_zero] at hfirst
      refine (gives_write hfirst w).bind (ih fun j hj => ?_)
      rw [Table.wordFrom_succ, Nat.add_right_comm]
      exact h (j + 1) (Nat.succ_lt_succ hj)

theorem gives_readRun {n : Nat}
    (h : ∀ j < n, v.Finds limit (Table.wordFrom offset j) (k + j)) :
    (v.readRun offset n).Gives limit mask ws (ws.slice k n).toList ws := by
  induction n generalizing offset k with
  | zero => exact .done []
  | succ n ih =>
      have hfirst := h 0 (Nat.succ_pos n)
      rw [Table.wordFrom_zero] at hfirst
      rw [Contents.toList_slice_succ]
      refine (gives_read hfirst).bind ((ih fun j hj => ?_).bind (.done _))
      rw [Table.wordFrom_succ, Nat.add_right_comm]
      exact h (j + 1) (Nat.succ_lt_succ hj)

theorem gives_readVector {n : Nat}
    (h : ∀ j < n, v.Finds limit (Table.wordFrom offset j) (k + j)) :
    (v.readVector offset n).Gives limit mask ws (ws.slice k n) ws := by
  induction n with
  | zero => exact .done _
  | succ n ih =>
      have hrest := ih fun j hj => h j (Nat.lt_succ_of_lt hj)
      rw [Contents.slice, Vector.ofFn_succ]
      exact hrest.bind ((gives_read (h n n.lt_succ_self)).bind (.done _))

end Registers

/-! ## Entries -/

namespace TableLayout

/-- Entry `i` lies inside a window of whole words and is aligned. -/
structure Usable (l : TableLayout) (window : Address) (i : UInt64) : Prop
    extends l.EntryFits window i where
  whole : window.toNat % 4 = 0
  aligned : l.offset.toNat % 4 = 0

variable {l : TableLayout} {window window' : Address} {i : UInt64} {k : Nat}

instance (l : TableLayout) (window : Address) (i : UInt64) : Decidable (l.Usable window i) :=
  decidable_of_iff (i < l.capacity ∧ l.start (i.toNat + 1) ≤ window.toNat ∧
      window.toNat % 4 = 0 ∧ l.offset.toNat % 4 = 0)
    ⟨fun ⟨hi, hend, hw, ha⟩ => ⟨⟨hi, hend⟩, hw, ha⟩,
      fun h => ⟨h.index, h.finish, h.whole, h.aligned⟩⟩

theorem Usable.mono (h : l.Usable window i) (hle : window ≤ window')
    (hw : window'.toNat % 4 = 0) : l.Usable window' i :=
  ⟨⟨h.index, Nat.le_trans h.finish (UInt64.le_iff_toNat_le.mp hle)⟩, hw, h.aligned⟩

/-- The words of a usable entry are those from the position of its start on. -/
theorem Usable.finds (h : l.Usable window i) (hk : k < l.entryWords.toNat) :
    Registers.Finds ⟨l.offset, window⟩ window (Table.wordFrom (i * l.entryBytes) k)
      (l.start i.toNat / 4 + k) := by
  have hreach := h.reaches h.whole (Nat.succ_le_of_lt hk)
  have hcheck := h.checkAccess_word h.whole hk
  refine ⟨_, hreach.address k k.lt_succ_self, hcheck.trans (if_pos h.aligned), ?_⟩
  rw [h.toNat_wordAddress h.whole hk]
  omega

end TableLayout

namespace Table

variable {t : Table} {i : UInt64} {f : Field} {n : Nat}

theorem gives_writeEntry (h : t.layout.Usable t.window i) {words : List Word}
    (hn : words.length ≤ t.layout.entryWords.toNat) :
    (t.writeEntry i words).Gives t.window mask ws ()
      (ws.storeRun mask (t.layout.start i.toNat / 4) words) := by
  have hreach := h.reaches h.whole hn
  refine Bus.gives_check hreach.start (Bus.gives_check (checkWords_eq_ok.mpr hn) (.note ?_))
  exact Registers.gives_writeRun fun j hj => h.finds (Nat.lt_of_lt_of_le hj hn)

theorem gives_readEntry (h : t.layout.Usable t.window i) (hn : n ≤ t.layout.entryWords.toNat) :
    (t.readEntry i n).Gives t.window mask ws
      (ws.slice (t.layout.start i.toNat / 4) n).toList ws := by
  have hreach := h.reaches h.whole hn
  refine Bus.gives_check hreach.start (Bus.gives_check (checkWords_eq_ok.mpr hn) ?_)
  exact Registers.gives_readRun fun j hj => h.finds (Nat.lt_of_lt_of_le hj hn)

theorem gives_readWords (h : t.layout.Usable t.window i) (hn : n ≤ t.layout.entryWords.toNat) :
    (t.readWords i n).Gives t.window mask ws (ws.slice (t.layout.start i.toNat / 4) n) ws := by
  have hreach := h.reaches h.whole hn
  refine Bus.gives_check hreach.start (Bus.gives_check (checkWords_eq_ok.mpr hn) ?_)
  exact Registers.gives_readVector fun j hj => h.finds (Nat.lt_of_lt_of_le hj hn)

theorem findsField (h : t.layout.Usable t.window i)
    (hf : f.word.toNat < t.layout.entryWords.toNat) :
    t.registers.FindsField t.window (i * t.layout.entryBytes) f
      (t.layout.start i.toNat / 4 + f.word.toNat) := by
  have hreach := h.reaches h.whole (Nat.succ_le_of_lt hf)
  obtain ⟨a, ha, hfound⟩ := h.finds hf
  refine ⟨a, ?_, hfound⟩
  rw [hreach.fieldAddress_eq]
  exact (hreach.address _ (Nat.lt_succ_self _)).symm.trans ha

theorem gives_readField (h : t.layout.Usable t.window i)
    (hf : f.word.toNat < t.layout.entryWords.toNat) :
    (t.readField i f).Gives t.window mask ws
      (f.get (ws (t.layout.start i.toNat / 4 + f.word.toNat))) ws :=
  have hstart := (h.reaches h.whole (Nat.succ_le_of_lt hf)).start
  Bus.gives_check hstart (Bus.gives_check (checkField_eq_ok.mpr hf)
    (Registers.gives_readField (findsField h hf)))

theorem gives_writeField (h : t.layout.Usable t.window i)
    (hf : f.word.toNat < t.layout.entryWords.toNat) (value : Word) :
    (t.writeField i f value).Gives t.window mask ws ()
      (ws.store mask (t.layout.start i.toNat / 4 + f.word.toNat)
        (f.set (ws (t.layout.start i.toNat / 4 + f.word.toNat)) value)) :=
  have hstart := (h.reaches h.whole (Nat.succ_le_of_lt hf)).start
  Bus.gives_check hstart (Bus.gives_check (checkField_eq_ok.mpr hf)
    (Registers.gives_writeField (findsField h hf) value))

end Table

end

end I3CHost
