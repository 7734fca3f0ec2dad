import I3CHost.Proofs.CommandEffects
import I3CHost.Proofs.MappedPages

/-!
# Windows of one file

A window over a regular file is a part of it: the word at an offset is the word of the file at the
sum of base and offset. The page of the base goes into where a word is looked for and comes out
again, so this holds for pages of every size, and with it that a word lies inside the mapping and
inside the file and that no sum on the way wraps. Two windows of one file therefore agree wherever
they overlap, however their bases lie in their pages.

A file has fewer bytes than the largest address, because the end of a window is compared as an
address that stays at the largest one.
-/
namespace I3CHost.Mapping

variable {t t' : DeviceTree} {path : String} {place : Place} {bytes : Array UInt8}
  {base size : Address} {mp other : Mapping} {o o' : Address}

/-! ## Opening over a file -/

/-- Why no window of some bytes can be opened over a file of some length. -/
def Unfit (base size : Address) (length : Nat) : Prop :=
  size = 0 ∨ size.toNat % 4 ≠ 0 ∨ base.toNat % 4 ≠ 0 ∨ length < base.toNat + size.toNat

instance (base size : Address) (length : Nat) : Decidable (Unfit base size length) :=
  inferInstanceAs (Decidable (_ ∨ _))

theorem openAt_regular (hopen : t.open? path = .ok (place, .regular bytes))
    (hlen : bytes.size < Address.last.toNat) (hfit : ¬ Unfit base size bytes.size) :
    (openAt t path base size).result = .ok ⟨path, base, size, .file place⟩ := by
  simp only [Unfit, not_or, not_not, not_lt] at hfit
  obtain ⟨hne, hsize, hbase, hend⟩ := hfit
  have hsize' : (size == 0 || !size.isAligned) = false := by
    rw [(Address.isAligned_iff size).mpr hsize]
    simpa using hne
  have hbase' : (!base.isAligned) = false := by
    rw [(Address.isAligned_iff base).mpr hbase]
    rfl
  have hend' : ¬ bytes.size < (Address.addSat base size).toNat :=
    Nat.not_lt.mpr ((addSat_le_iff hlen).mpr hend)
  -- The window ends in the file, so the length of the mapping is an address.
  obtain ⟨length, hlength, -⟩ : IsWhole pageSize base size :=
    isWhole_of_finish isPage_pageSize (Nat.lt_of_le_of_lt hend (Nat.lt_trans hlen (by decide)))
  simp only [openAt, openOn, Bind.bind, Logged.bind, Pure.pure, Logged.emit, Logged.ofExcept,
    hsize', hbase', hopen, hend', hlength, Bool.false_eq_true, if_false]

theorem not_unfit_of_openAt (hopen : t.open? path = .ok (place, .regular bytes))
    (hlen : bytes.size < Address.last.toNat) (h : (openAt t path base size).result = .ok mp) :
    ¬ Unfit base size bytes.size := by
  obtain ⟨⟨hne, hsize, hbase⟩, p, node, backing, hnode, -, hcase⟩ := openAt_eq_ok h
  cases hopen.symm.trans hnode
  have hend : (Address.addSat base size).toNat ≤ bytes.size := by
    obtain ⟨bytes', hbytes, hend, -⟩ | ⟨hzeros, -⟩ := hcase
    · cases hbytes
      exact hend
    · cases hzeros
  rw [addSat_le_iff hlen] at hend
  simp only [Unfit, not_or, not_not, not_lt]
  exact ⟨hne, hsize, hbase, hend⟩

/-- Over a regular file the length of the mapping is an address, so what goes wrong is reported. -/
theorem mapFailed_of_openAt (hopen : t.open? path = .ok (place, .regular bytes))
    (hlen : bytes.size < Address.last.toNat) {e : Fault}
    (h : (openAt t path base size).result = .error e) : ∃ why, e = .mapFailed why := by
  obtain hwhy | ⟨hlength, p, node, hnode, hend⟩ := openOn_eq_error h
  · exact hwhy
  · cases hopen.symm.trans hnode
    have hfinish := (addSat_le_iff hlen).mp (hend bytes rfl)
    obtain ⟨length, hwhole, -⟩ : IsWhole pageSize base size :=
      isWhole_of_finish isPage_pageSize (Nat.lt_of_le_of_lt hfinish (Nat.lt_trans hlen (by decide)))
    cases hlength.symm.trans hwhole

/-! ## Pages of any size -/

/-- The word at an offset lies in the window. -/
def Accepts (mp : Mapping) (o : Address) : Prop := o.toNat % 4 = 0 ∧ o.toNat + 4 ≤ mp.size.toNat

instance (mp : Mapping) (o : Address) : Decidable (mp.Accepts o) :=
  inferInstanceAs (Decidable (_ ∧ _))

theorem accepts_iff : mp.Accepts o ↔ checkAccess o mp.size = .ok () :=
  (checkAccess_eq_ok_iff o mp.size).symm

/-- Where the word at an offset stands in the file, with pages of some size. -/
def positionOn (page : Address) (mp : Mapping) (o : Address) : Nat :=
  (pageBase page mp.base + (skew page mp.base + o)).toNat

def peekOn (page : Address) (mp : Mapping) (t : DeviceTree) (o : Address) : Word :=
  match mp.backing with
  | .file place => wordAt (t.bytes place) (positionOn page mp o)
  | .memory stores => (stores.lookup o).getD 0

def pokeOn (page : Address) (mp : Mapping) (t : DeviceTree) (o : Address) (w : Word) :
    Mapping × DeviceTree :=
  match mp.backing with
  | .file place => (mp, t.modifyBytes place fun bytes => putWord bytes (positionOn page mp o) w)
  | .memory stores => ({ mp with backing := .memory ((o, w) :: stores) }, t)

/-- A load with pages of some size. -/
def loadOn (page : Address) (mp : Mapping) (t : DeviceTree) (o : Address) :
    Reply (Mapping × DeviceTree) Word :=
  match checkAccess o mp.size with
  | .ok _ => ⟨.ok (peekOn page mp t o), (mp, t), [.wordRead o (peekOn page mp t o)]⟩
  | .error e => ⟨.error e, (mp, t), []⟩

/-- A store with pages of some size. -/
def storeOn (page : Address) (mp : Mapping) (t : DeviceTree) (o : Address) (v : Word) :
    Reply (Mapping × DeviceTree) Unit :=
  match checkAccess o mp.size with
  | .ok _ => ⟨.ok (), pokeOn page mp t o v, [.wordWritten o v]⟩
  | .error e => ⟨.error e, (mp, t), []⟩

theorem loadOn_pageSize (mp : Mapping) (t : DeviceTree) (o : Address) :
    loadOn pageSize mp t o = mp.load t o := rfl

theorem storeOn_pageSize (mp : Mapping) (t : DeviceTree) (o : Address) (v : Word) :
    storeOn pageSize mp t o v = mp.store t o v := rfl

/-! ## Where a word is -/

/-- The word at an offset, with pages of some size, in a file of some length. -/
structure Lands (page : Address) (mp : Mapping) (o : Address) (length : Nat) : Prop where
  /-- The mapping starts with a page. -/
  start : (pageBase page mp.base).toNat % page.toNat = 0
  /-- The start of the page and the distance from it make up the base. -/
  split : (pageBase page mp.base).toNat + (skew page mp.base).toNat = mp.base.toNat
  whole : IsWhole page mp.base mp.size
  shifted : (skew page mp.base + o).toNat = (skew page mp.base).toNat + o.toNat
  aligned : (skew page mp.base + o).toNat % 4 = 0
  mapped : ∃ length, mappedLength page mp.base mp.size = .ok length ∧
    (skew page mp.base + o).toNat + 4 ≤ length.toNat
  position : positionOn page mp o = mp.base.toNat + o.toNat
  inside : mp.base.toNat + o.toNat + 4 ≤ length

theorem Fits.lands {page : Address} (h : mp.Fits place t) (hpage : IsPage page)
    (hbase : mp.base.toNat % 4 = 0) (ho : mp.Accepts o) :
    Lands page mp o (t.bytes place).size := by
  have hend := h.finish
  have hsmall := h.small
  have ho' := ho.2
  have hsplit := hpage.pageBase_add_skew mp.base
  have hwhole : IsWhole page mp.base mp.size := isWhole_of_finish hpage (by omega)
  have hshifted : (skew page mp.base + o).toNat = (skew page mp.base).toNat + o.toNat := by
    rw [UInt64.toNat_add]
    exact Nat.mod_eq_of_lt (by simp only [UInt64.size] at hsmall; omega)
  have hposition : positionOn page mp o = mp.base.toNat + o.toNat := by
    rw [positionOn, UInt64.toNat_add, hshifted, ← Nat.add_assoc, hsplit]
    exact Nat.mod_eq_of_lt (by simp only [UInt64.size] at hsmall; omega)
  refine ⟨hpage.pageBase_mod mp.base, hsplit, hwhole, hshifted, ?_, ?_, hposition, by omega⟩
  · have hskew := hpage.skew_mod_four hbase
    have haligned := ho.1
    rw [hshifted]
    omega
  · obtain ⟨length, hlength, hsum⟩ := hwhole
    exact ⟨length, hlength, by omega⟩

/-- What a load finds, and a store leaves, does not show the size of the pages. -/
theorem Fits.position_congr {page : Address} (h : mp.Fits place t) (hpage : IsPage page)
    (hbase : mp.base.toNat % 4 = 0) (ho : mp.Accepts o) :
    positionOn page mp o = positionOn pageSize mp o :=
  (h.lands hpage hbase ho).position.trans (h.lands isPage_pageSize hbase ho).position.symm

theorem Fits.loadOn_eq {page : Address} (h : mp.Fits place t) (hpage : IsPage page)
    (hbase : mp.base.toNat % 4 = 0) (o : Address) : loadOn page mp t o = mp.load t o := by
  rw [← loadOn_pageSize, loadOn, loadOn]
  cases hc : checkAccess o mp.size with
  | error e => rfl
  | ok u =>
      have hsame : peekOn page mp t o = peekOn pageSize mp t o := by
        rw [peekOn, peekOn, h.backing]
        simp only [h.position_congr hpage hbase (accepts_iff.mpr hc)]
      simp only [hsame]

theorem Fits.storeOn_eq {page : Address} (h : mp.Fits place t) (hpage : IsPage page)
    (hbase : mp.base.toNat % 4 = 0) (o : Address) (v : Word) :
    storeOn page mp t o v = mp.store t o v := by
  rw [← storeOn_pageSize, storeOn, storeOn]
  cases hc : checkAccess o mp.size with
  | error e => rfl
  | ok u =>
      have hsame : pokeOn page mp t o v = pokeOn pageSize mp t o v := by
        rw [pokeOn, pokeOn, h.backing]
        simp only [h.position_congr hpage hbase (accepts_iff.mpr hc)]
      simp only [hsame]

/-! ## Accesses -/

/-- The accesses at an offset are accesses to the word of the file at base and offset. -/
structure Reaches (mp : Mapping) (place : Place) (t : DeviceTree) (o : Address) : Prop where
  load : (mp.load t o).result = .ok (wordAt (t.bytes place) (mp.base.toNat + o.toNat))
  loaded : (mp.load t o).state = (mp, t)
  store (v : Word) : (mp.store t o v).result = .ok ()
  window (v : Word) : (mp.store t o v).state.1 = mp
  stored (v : Word) : (mp.store t o v).state.2.bytes place =
    putWord (t.bytes place) (mp.base.toNat + o.toNat) v
  frame (v : Word) : t.Frame place
    (fun k => mp.base.toNat + o.toNat ≤ k ∧ k < mp.base.toNat + o.toNat + 4)
    (mp.store t o v).state.2

theorem Fits.reaches (h : mp.Fits place t) (ho : mp.Accepts o) : mp.Reaches place t o := by
  have hc := accepts_iff.mp ho
  have hlt : o.toNat < mp.size.toNat := by
    have hend := ho.2
    omega
  have hposition := h.position_eq hlt
  have hstore (v : Word) : (mp.store t o v).state = mp.poke t o v := by rw [Mapping.store, hc]
  constructor
  case load => rw [Mapping.load, hc, h.peek_eq, hposition]
  case loaded => exact mp.state_load t o
  case store =>
    intro v
    rw [Mapping.store, hc]
  case window =>
    intro v
    rw [hstore]
    exact (h.poke_eq o v).1
  case stored =>
    intro v
    rw [hstore, ← hposition]
    exact (h.poke_eq o v).2
  case frame =>
    intro v
    rw [hstore]
    exact h.frame_poke hlt v

/-- An access outside the window leaves everything as it is. -/
def Refuses (mp : Mapping) (t : DeviceTree) (o : Address) : Prop :=
  ∃ e, mp.load t o = ⟨.error e, (mp, t), []⟩ ∧ ∀ v, mp.store t o v = ⟨.error e, (mp, t), []⟩

theorem refuses_of_not_accepts (ho : ¬ mp.Accepts o) (t : DeviceTree) : mp.Refuses t o := by
  cases hc : checkAccess o mp.size with
  | ok u => exact absurd (accepts_iff.mpr hc) ho
  | error e =>
      refine ⟨e, ?_, fun v => ?_⟩
      · rw [load, hc]
      · rw [store, hc]

/-- Through another window the word is found where the sums of base and offset are equal. -/
theorem Fits.load_after_store (h : mp.Fits place t) (h' : other.Fits place t)
    (hbase : mp.base.toNat % 4 = 0) (hbase' : other.base.toNat % 4 = 0)
    (ho : mp.Accepts o) (ho' : other.Accepts o') (v : Word) :
    (other.load (mp.store t o v).state.2 o').result =
      if mp.base.toNat + o.toNat = other.base.toNat + o'.toNat then .ok v
      else (other.load t o').result := by
  have hreaches := h.reaches ho
  have hafter : other.Fits place (mp.store t o v).state.2 := h'.of_size (hreaches.frame v).size
  rw [(hafter.reaches ho').load, (h'.reaches ho').load, hreaches.stored]
  split
  · next hsame =>
    have hroom := (h.lands isPage_pageSize hbase ho).inside
    rw [← hsame, wordAt_putWord hroom]
  · next hne =>
    -- Both sums are multiples of four, so different words have no byte in common.
    have haligned := ho.1
    have haligned' := ho'.1
    rw [wordAt_putWord_apart (by omega)]

/-! ## Windows of one file -/

/-- A window over the file at a place, while the file has some length. -/
structure Views (mp : Mapping) (place : Place) (length : Nat) : Prop where
  lands (page : Address) (o : Address) : IsPage page → mp.Accepts o → Lands page mp o length
  /-- With pages of any size the accesses are the same. -/
  pages (page : Address) (t : DeviceTree) : IsPage page → (t.bytes place).size = length →
    ∀ o, loadOn page mp t o = mp.load t o ∧ ∀ v, storeOn page mp t o v = mp.store t o v
  reaches (t : DeviceTree) (o : Address) : (t.bytes place).size = length →
    mp.Accepts o → mp.Reaches place t o
  refuses (t : DeviceTree) (o : Address) : (t.bytes place).size = length →
    ¬ mp.Accepts o → mp.Refuses t o

theorem Fits.views (h : mp.Fits place t) (hbase : mp.base.toNat % 4 = 0) :
    mp.Views place (t.bytes place).size where
  lands _ _ hpage ho := h.lands hpage hbase ho
  pages _ _ hpage hsize o :=
    have hfits := h.of_size hsize
    ⟨hfits.loadOn_eq hpage hbase o, hfits.storeOn_eq hpage hbase o⟩
  reaches _ _ hsize ho := (h.of_size hsize).reaches ho
  refuses t' _ _ ho := refuses_of_not_accepts ho t'

theorem fits_of_open (hopen : t.open? path = .ok (place, .regular bytes))
    (hlen : bytes.size < Address.last.toNat) (h : (openAt t path base size).result = .ok mp) :
    mp.Fits place t ∧ mp.base = base ∧ mp.size = size := by
  have hfit := not_unfit_of_openAt hopen hlen h
  cases h.symm.trans (openAt_regular hopen hlen hfit)
  have hbytes := DeviceTree.bytes_of_open hopen
  exact ⟨openAt_fits_of_lt h rfl (hbytes ▸ hlen), rfl, rfl⟩

/-- A window opens over a file exactly if it is made of whole words and ends before the file does.
Its loads and stores succeed exactly at the offsets of its words, whatever the file holds by then;
they are loads and stores of the word of the file at base and offset, and no page size shows. What
another window over the same file loads after a store is the word stored if the two words are one,
and otherwise what it loaded before. -/
theorem windows_of_file (hopen : t.open? path = .ok (place, .regular bytes))
    (hlen : bytes.size < Address.last.toNat) (base size : Address) :
    ((∃ why, (openAt t path base size).result = .error (.mapFailed why)) ↔
        Unfit base size bytes.size) ∧
      ∀ mp, (openAt t path base size).result = .ok mp →
        mp.base = base ∧ mp.size = size ∧ mp.Views place bytes.size ∧
        ∀ t₂ path₂ bytes₂ base₂ size₂ other,
          t₂.open? path₂ = .ok (place, .regular bytes₂) → bytes₂.size = bytes.size →
          (openAt t₂ path₂ base₂ size₂).result = .ok other →
          ∀ t' o o' v, (t'.bytes place).size = bytes.size → mp.Accepts o → other.Accepts o' →
            (other.load (mp.store t' o v).state.2 o').result =
              if base.toNat + o.toNat = base₂.toNat + o'.toNat then .ok v
              else (other.load t' o').result := by
  have hbytes := DeviceTree.bytes_of_open hopen
  constructor
  · constructor
    · rintro ⟨why, hwhy⟩
      by_contra hfit
      cases hwhy.symm.trans (openAt_regular hopen hlen hfit)
    · intro hunfit
      cases hresult : (openAt t path base size).result with
      | error e =>
          obtain ⟨why, rfl⟩ := mapFailed_of_openAt hopen hlen hresult
          exact ⟨why, rfl⟩
      | ok mp => exact absurd hunfit (not_unfit_of_openAt hopen hlen hresult)
  · intro mp hmp
    obtain ⟨hfits, hbase, hsize⟩ := fits_of_open hopen hlen hmp
    have haligned : mp.base.toNat % 4 = 0 := hbase ▸ (openAt_eq_ok hmp).1.2.2
    refine ⟨hbase, hsize, hbytes ▸ hfits.views haligned, ?_⟩
    intro t₂ path₂ bytes₂ base₂ size₂ other hopen₂ hsame hother t' o o' v hnow ho ho'
    have hbytes₂ := DeviceTree.bytes_of_open hopen₂
    obtain ⟨hfits₂, hbase₂, -⟩ := fits_of_open hopen₂ (hsame ▸ hlen) hother
    have haligned₂ : other.base.toNat % 4 = 0 := hbase₂ ▸ (openAt_eq_ok hother).1.2.2
    rw [← hbase, ← hbase₂]
    refine (hfits.of_size ?_).load_after_store (hfits₂.of_size ?_) haligned haligned₂ ho ho' v
    · rw [hnow, hbytes]
    · rw [hnow, hbytes₂, hsame]

theorem open_oneFile (bytes : Array UInt8) :
    (CommandLine.oneFile bytes).open? "f" = .ok (["f"], .regular bytes) := by
  rw [DeviceTree.open?, CommandLine.resolve_oneFile]
  rfl

/-- Two windows of eight bytes have the third word of a file in common: it is the second word of the
first window and the first word of the second. -/
theorem windows_of_file_overlapping :
    let t := CommandLine.oneFile (Array.replicate 16 0)
    let low : Mapping := ⟨"f", 4, 8, .file ["f"]⟩
    let high : Mapping := ⟨"f", 8, 8, .file ["f"]⟩
    (openAt t "f" 4 8).result = .ok low ∧ (openAt t "f" 8 8).result = .ok high ∧
      ∀ v, (high.load (low.store t 4 v).state.2 0).result = .ok v ∧
        (high.load (low.store t 4 v).state.2 4).result = (high.load t 4).result ∧
        low.Reaches ["f"] t 4 ∧ Lands 16 low 4 16 := by
  intro t low high
  let bytes : Array UInt8 := Array.replicate 16 0
  have hopen : t.open? "f" = .ok (["f"], .regular bytes) := open_oneFile bytes
  have hsize : bytes.size = 16 := Array.size_replicate
  have hlen : bytes.size < Address.last.toNat := by
    rw [hsize]
    decide
  have hlow : (openAt t "f" 4 8).result = .ok low :=
    openAt_regular hopen hlen (by rw [hsize]; decide)
  have hhigh : (openAt t "f" 8 8).result = .ok high :=
    openAt_regular hopen hlen (by rw [hsize]; decide)
  have hnow : (t.bytes ["f"]).size = bytes.size := by rw [DeviceTree.bytes_of_open hopen]
  obtain ⟨-, -, hviews, hshared⟩ := (windows_of_file hopen hlen 4 8).2 low hlow
  have ho : low.Accepts 4 := by decide
  refine ⟨hlow, hhigh, fun v => ⟨?_, ?_, hviews.reaches t 4 hnow ho, ?_⟩⟩
  · exact hshared t "f" bytes 8 8 high hopen rfl hhigh t 4 0 v hnow ho (by decide)
  · exact hshared t "f" bytes 8 8 high hopen rfl hhigh t 4 4 v hnow ho (by decide)
  · exact hsize ▸ hviews.lands 16 4 ⟨4, by decide, rfl⟩ ho

end I3CHost.Mapping
