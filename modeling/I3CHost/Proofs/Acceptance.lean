import I3CHost.Proofs.AcceptedTables
import I3CHost.Session

/-!
# Acceptance of settings

What settings have to satisfy is four requirements on plain numbers, with no largest address: the
base is made of whole words, so is the window and it is not empty, and each table ends inside the
window. The code adds up a table in three ways. The width of an entry stays at the largest address,
the product with the capacity and the sum with the offset are given up when they are not addresses.
They agree with the plain number wherever it counts. A width that stays behind needs an entry to
count at all, one such entry reaches the last address, and no window of whole words does.
-/
namespace I3CHost

/-! ## The end of a table as a plain number -/

namespace TableLayout

variable {l : TableLayout} {window e : Address}

/-- First byte past the table, added up without a largest address. -/
def extent (l : TableLayout) : Nat := l.offset.toNat + l.capacity.toNat * l.entryWords.toNat * 4

theorem start_capacity_le_extent (l : TableLayout) : l.start l.capacity.toNat ≤ l.extent := by
  have hbytes : l.entryBytes.toNat ≤ l.entryWords.toNat * 4 := by
    rcases Nat.lt_or_ge (4 * l.entryWords.toNat) UInt64.size with hlt | hge
    · have := l.entryBytes_eq.1 hlt
      omega
    · have := l.entryBytes_eq.2 hge
      omega
  have hspan := Nat.mul_le_mul_left l.capacity.toNat hbytes
  rw [start, extent, Nat.mul_assoc]
  omega

/-- Below the largest address a table ends where it should. -/
theorem min_start_capacity (l : TableLayout) :
    min (l.start l.capacity.toNat) (UInt64.size - 1) = min l.extent (UInt64.size - 1) := by
  rcases Nat.lt_or_ge (4 * l.entryWords.toNat) UInt64.size with hlt | hge
  · rw [start, extent, l.entryBytes_eq.1 hlt, Nat.mul_comm 4, Nat.mul_assoc]
  · rcases Nat.eq_zero_or_pos l.capacity.toNat with hzero | hpos
    · rw [start, extent, hzero, Nat.zero_mul, Nat.zero_mul]
    · -- One entry is enough to reach the largest address, whichever way it is counted.
      have hstart : UInt64.size - 1 ≤ l.start l.capacity.toNat := by
        have := Nat.le_mul_of_pos_left l.entryBytes.toNat hpos
        rw [l.entryBytes_eq.2 hge] at this
        rw [start, l.entryBytes_eq.2 hge]
        omega
      rw [Nat.min_eq_right hstart, Nat.min_eq_right (hstart.trans l.start_capacity_le_extent)]

/-- Where a table is said to end. -/
theorem toNat_finish_eq_min (h : l.finish? = some e) :
    e.toNat = min l.extent (UInt64.size - 1) := by
  have hsize := e.toNat_lt_size
  rw [← l.min_start_capacity, ← toNat_finish h]
  omega

/-- A table without an end is past all addresses. -/
theorem size_le_extent (h : l.finish? = none) : UInt64.size ≤ l.extent := by
  refine Nat.le_trans ?_ l.start_capacity_le_extent
  unfold start
  cases hspan : l.span? with
  | none =>
      have := Address.mul?_eq_none.mp hspan
      omega
  | some span =>
      rw [finish?, hspan] at h
      have := Address.add?_eq_none.mp h
      rwa [Address.mul?_eq_some hspan] at this

/-- A table whose end is below the largest address is judged by that end. -/
theorem fits_iff_of_extent_lt (h : l.extent < UInt64.size - 1) :
    l.Fits window ↔ l.extent ≤ window.toNat := by
  cases hfinish : l.finish? with
  | none =>
      have := size_le_extent hfinish
      omega
  | some e =>
      have he := toNat_finish_eq_min hfinish
      rw [Nat.min_eq_left (Nat.le_of_lt h)] at he
      rw [Fits, hfinish, ← he, ← UInt64.le_iff_toNat_le]
      constructor
      · rintro ⟨e', he', hle⟩
        cases he'
        exact hle
      · exact fun hle => ⟨e, rfl, hle⟩

/-- No window of whole words ends at the last address. -/
theorem toNat_lt_last (h : window.toNat % 4 = 0) : window.toNat < UInt64.size - 1 := by
  have := window.toNat_lt_size
  simp only [UInt64.size] at this ⊢
  omega

/-- In a window of whole words a table is judged by its true end, however long it is. -/
theorem fits_iff_extent_le (h : window.toNat % 4 = 0) :
    l.Fits window ↔ l.extent ≤ window.toNat := by
  have hlast := toNat_lt_last h
  rcases Nat.lt_or_ge l.extent (UInt64.size - 1) with hlt | hge
  · exact fits_iff_of_extent_lt hlt
  · constructor
    · rintro ⟨e, he, hle⟩
      have hmin := toNat_finish_eq_min he
      rw [Nat.min_eq_right hge] at hmin
      have := UInt64.le_iff_toNat_le.mp hle
      omega
    · omega

end TableLayout

/-! ## What is required of settings -/

/-- The layout of a table. -/
def Settings.layout (s : Settings) : TableKind → TableLayout
  | .dat => s.dat
  | .dct => s.dct

/-- What settings have to satisfy. -/
inductive Requirement where
  | base
  | window
  | table (kind : TableKind)
deriving DecidableEq, Repr

namespace Requirement

/-- All requirements, in the order they are looked at. -/
def order : List Requirement := [.base, .window, .table .dat, .table .dct]

theorem mem_order (q : Requirement) : q ∈ order := by
  rcases q with _ | _ | _ | _ <;> decide

/-- The settings satisfy a requirement, in plain numbers. -/
def Holds (s : Settings) : Requirement → Prop
  | base => s.baseAddress.toNat % 4 = 0
  | window => s.windowSize.toNat ≠ 0 ∧ s.windowSize.toNat % 4 = 0
  | table kind => (s.layout kind).extent ≤ s.windowSize.toNat

instance (s : Settings) (q : Requirement) : Decidable (q.Holds s) :=
  match q with
  | base => inferInstanceAs (Decidable (_ = _))
  | window => inferInstanceAs (Decidable (_ ∧ _))
  | table _ => inferInstanceAs (Decidable (_ ≤ _))

/-- The first requirement that the settings do not satisfy. -/
def firstBroken? (s : Settings) : Option Requirement := order.find? fun q => !decide (q.Holds s)

/-- What is said of settings that break a requirement. The base and the window size are shown as
they are. A table is named as its layout names it; it is said to end past the window, with its end
cut off at the largest address, or to overflow if it has no address for an end. -/
inductive Tells (s : Settings) : Requirement → SettingsFault → Prop
  | base : Tells s base (.baseAddress s.baseAddress)
  | window : Tells s window (.windowSize s.windowSize)
  | ends (kind : TableKind) (finish : Address) : s.windowSize < finish →
      finish.toNat = min (s.layout kind).extent (UInt64.size - 1) →
      Tells s (table kind) (.tableEnds (s.layout kind).kind finish s.windowSize)
  | overflows (kind : TableKind) : UInt64.size ≤ (s.layout kind).extent →
      Tells s (table kind) (.tableOverflows (s.layout kind).kind (s.layout kind).offset
        (s.layout kind).capacity)

theorem firstBroken?_eq_none {s : Settings} : firstBroken? s = none ↔ ∀ q, Holds s q := by
  rw [firstBroken?, List.find?_eq_none]
  constructor
  · intro h q
    simpa using h q q.mem_order
  · intro h q _
    simpa using h q

end Requirement

/-! ## What the check does -/

namespace Settings

open Requirement

variable {s : Settings}

/-- A table that breaks its requirement is refused in the words for it. -/
theorem checkFits_eq_error (hw : Holds s window) {kind : TableKind} (h : ¬ Holds s (table kind)) :
    ∃ why, Tells s (table kind) why ∧
      (s.layout kind).checkFits s.windowSize = .error (.invalidSettings why) := by
  have hfits := mt (TableLayout.fits_iff_extent_le hw.2).mp h
  unfold TableLayout.checkFits
  cases hfinish : (s.layout kind).finish? with
  | none => exact ⟨_, .overflows kind (TableLayout.size_le_extent hfinish), rfl⟩
  | some e =>
      have hlt : s.windowSize < e := by
        rw [← UInt64.not_le]
        exact fun hle => hfits ⟨e, hfinish, hle⟩
      exact ⟨_, .ends kind e hlt (TableLayout.toNat_finish_eq_min hfinish), if_pos hlt⟩

theorem checkFits_of_holds (hw : Holds s window) {kind : TableKind} (h : Holds s (table kind)) :
    (s.layout kind).checkFits s.windowSize = .ok () :=
  TableLayout.checkFits_eq_ok_iff.mpr ((TableLayout.fits_iff_extent_le hw.2).mpr h)

/-- The check in terms of what the first two requirements say. -/
theorem check_eq (s : Settings) : s.check =
    if Holds s base then
      if Holds s window then do
        s.dat.checkFits s.windowSize
        s.dct.checkFits s.windowSize
      else .error (.invalidSettings (.windowSize s.windowSize))
    else .error (.invalidSettings (.baseAddress s.baseAddress)) := by
  have hbase : (!s.baseAddress.isAligned) = true ↔ ¬ Holds s base := by
    rw [Bool.not_eq_true', ← Bool.not_eq_true, Address.isAligned_iff]
    rfl
  have hwindow : (s.windowSize == 0 || !s.windowSize.isAligned) = true ↔ ¬ Holds s window := by
    rw [Bool.or_eq_true, beq_iff_eq, Bool.not_eq_true', ← Bool.not_eq_true, Address.isAligned_iff,
      ← UInt64.toNat_inj, Holds, Classical.not_and_iff_not_or_not, Classical.not_not]
    rfl
  simp only [check, hbase, hwindow, ite_not]

/-- Settings are accepted if no requirement is broken, and refused for the first that is. -/
theorem check_eq_of_firstBroken (s : Settings) :
    match firstBroken? s with
    | none => s.check = .ok ()
    | some q => ∃ why, Tells s q why ∧ s.check = .error (.invalidSettings why) := by
  rw [check_eq]
  by_cases hbase : Holds s base
  · by_cases hwindow : Holds s window
    · rw [if_pos hbase, if_pos hwindow]
      by_cases hdat : Holds s (table .dat)
      · rw [show s.dat.checkFits s.windowSize = .ok () from checkFits_of_holds hwindow hdat]
        by_cases hdct : Holds s (table .dct)
        · have hnone : firstBroken? s = none := by
            simp [firstBroken?, order, hbase, hwindow, hdat, hdct]
          rw [hnone]
          exact checkFits_of_holds hwindow hdct
        · have hsome : firstBroken? s = some (table .dct) := by
            simp [firstBroken?, order, hbase, hwindow, hdat, hdct]
          rw [hsome]
          exact checkFits_eq_error hwindow hdct
      · have hsome : firstBroken? s = some (table .dat) := by
          simp [firstBroken?, order, hbase, hwindow, hdat]
        obtain ⟨why, htells, hcheck⟩ := checkFits_eq_error hwindow hdat
        rw [hsome]
        exact ⟨why, htells, by rw [show s.dat.checkFits s.windowSize = _ from hcheck]; rfl⟩
    · have hsome : firstBroken? s = some window := by
        simp [firstBroken?, order, hbase, hwindow]
      rw [hsome, if_pos hbase, if_neg hwindow]
      exact ⟨_, .window, rfl⟩
  · have hsome : firstBroken? s = some base := by
      simp [firstBroken?, order, hbase]
    rw [hsome, if_neg hbase]
    exact ⟨_, .base, rfl⟩

theorem check_eq_ok_iff (s : Settings) : s.check = .ok () ↔ ∀ q, Holds s q := by
  rw [← firstBroken?_eq_none]
  have h := s.check_eq_of_firstBroken
  cases hq : firstBroken? s with
  | none =>
      rw [hq] at h
      exact iff_of_true h rfl
  | some q =>
      rw [hq] at h
      obtain ⟨why, -, hcheck⟩ := h
      rw [hcheck]
      exact iff_of_false (by simp) (by simp)

end Settings

/-! ## Controllers from settings -/

namespace Controller

/-- A controller is made of settings that satisfy all requirements and whose tables also end inside
the window at hand. It has their layouts. -/
theorem ofSettings_eq_ok_iff (size : Address) (s : Settings) (c : Controller) :
    ofSettings size s = .ok c ↔ (∀ q : Requirement, q.Holds s) ∧
      (∀ kind, (s.layout kind).extent ≤ size.toNat) ∧ c = ⟨size, s.dat, s.dct⟩ := by
  rw [← s.check_eq_ok_iff]
  cases hcheck : s.check with
  | error e =>
      have hstop : ofSettings size s = .error e := by
        rw [ofSettings, hcheck]
        rfl
      simp [hstop]
  | ok u =>
      have hholds := s.check_eq_ok_iff.mp hcheck
      have hgo : ofSettings size s =
          (checkFits ⟨size, s.dat, s.dct⟩).map fun _ => ⟨size, s.dat, s.dct⟩ := by
        rw [ofSettings, hcheck]
        simp only [bind, Except.bind, pure, Except.pure, Except.map]
      have hlt (kind : TableKind) : (s.layout kind).extent < UInt64.size - 1 :=
        Nat.lt_of_le_of_lt (hholds (.table kind)) (TableLayout.toNat_lt_last (hholds .window).2)
      have hfits : checkFits ⟨size, s.dat, s.dct⟩ = .ok () ↔
          ∀ kind, (s.layout kind).extent ≤ size.toNat := by
        rw [checkFits_eq_ok_iff]
        refine forall_congr' fun kind => ?_
        rw [← TableLayout.fits_iff_of_extent_lt (hlt kind)]
        cases kind <;> rfl
      rw [hgo, ← hfits]
      cases checkFits ⟨size, s.dat, s.dct⟩ with
      | error e => simp [Except.map]
      | ok u => simp [Except.map, eq_comm]

end Controller

/-! ## Sessions over settings -/

theorem Logged.bind_eq_ok_iff {α β : Type} {x : Logged α} {f : α → Logged β} {b : β} :
    (x >>= f).result = .ok b ↔ ∃ a, x.result = .ok a ∧ (f a).result = .ok b := by
  change (Logged.bind x f).result = .ok b ↔ _
  unfold Logged.bind
  cases x.result with
  | ok a => simp
  | error e => simp

namespace Session

variable {size : Address} {env : Environment} {a : Amendments}

theorem controllerFor_settings_eq_ok_iff {c : Controller} :
    (controllerFor size (.settings env a)).result = .ok c ↔
      ∃ s, (Settings.gather env a).result = .ok s ∧ Controller.ofSettings size s = .ok c :=
  Logged.bind_eq_ok_iff

/-- A session starts with the target as it was opened and the device files as they were. -/
theorem start_eq_ok_iff {t : DeviceTree} {o : Opening} {l : LayoutSource} {n : Session} :
    (start t o l).result = .ok n ↔ ∃ target c, (openTarget t o).result = .ok target ∧
      (controllerFor target.size l).result = .ok c ∧
      n = ⟨t, .off, target, isDirectOpening o, c⟩ := by
  rw [start, Logged.bind_eq_ok_iff]
  refine exists_congr fun target => ?_
  rw [exists_and_left]
  refine and_congr_right fun _ => ?_
  cases hmade : (controllerFor target.size l).result with
  | ok c => simp [hmade, eq_comm]
  | error e => simp [hmade]

end Session

/-- Settings are accepted exactly if their base and window are made of whole words, the window is
not empty, and both tables, added up as plain numbers, end inside it. They are refused for the first
of these requirements that they break, in the words for it. A controller is made of them exactly if
both tables also end inside the window at hand, and has their layouts. A session over them holds
the target that was opened, as it was opened, and the device files as they were. -/
theorem acceptance_exact :
    (∀ s : Settings,
      (s.check = .ok () ↔ s.baseAddress.toNat % 4 = 0 ∧
        (s.windowSize.toNat ≠ 0 ∧ s.windowSize.toNat % 4 = 0) ∧
        s.dat.offset.toNat + s.dat.capacity.toNat * s.dat.entryWords.toNat * 4 ≤
          s.windowSize.toNat ∧
        s.dct.offset.toNat + s.dct.capacity.toNat * s.dct.entryWords.toNat * 4 ≤
          s.windowSize.toNat) ∧
      (match Requirement.firstBroken? s with
        | none => s.check = .ok ()
        | some q => ∃ why, Requirement.Tells s q why ∧ s.check = .error (.invalidSettings why)) ∧
      ∀ (size : Address) (c : Controller), Controller.ofSettings size s = .ok c ↔
        s.check = .ok () ∧ s.dat.extent ≤ size.toNat ∧ s.dct.extent ≤ size.toNat ∧
          c = ⟨size, s.dat, s.dct⟩) ∧
    ∀ (t : DeviceTree) (o : Opening) (env : Environment) (a : Amendments) (n : Session),
      (Session.start t o (.settings env a)).result = .ok n ↔
        ∃ target s, (Session.openTarget t o).result = .ok target ∧
          (Settings.gather env a).result = .ok s ∧ s.check = .ok () ∧
          s.dat.extent ≤ target.size.toNat ∧ s.dct.extent ≤ target.size.toNat ∧
          n = ⟨t, .off, target, Session.isDirectOpening o, ⟨target.size, s.dat, s.dct⟩⟩ := by
  have htables (s : Settings) (P : TableLayout → Prop) :
      (∀ kind, P (s.layout kind)) ↔ P s.dat ∧ P s.dct :=
    ⟨fun h => ⟨h .dat, h .dct⟩, fun h kind => by cases kind; exacts [h.1, h.2]⟩
  have hcontroller (s : Settings) (size : Address) (c : Controller) :
      Controller.ofSettings size s = .ok c ↔ s.check = .ok () ∧ s.dat.extent ≤ size.toNat ∧
        s.dct.extent ≤ size.toNat ∧ c = ⟨size, s.dat, s.dct⟩ := by
    rw [Controller.ofSettings_eq_ok_iff, s.check_eq_ok_iff,
      htables s fun l => l.extent ≤ size.toNat, and_assoc]
  refine ⟨fun s => ⟨?_, s.check_eq_of_firstBroken, hcontroller s⟩, fun t o env a n => ?_⟩
  · rw [s.check_eq_ok_iff]
    constructor
    · intro h
      exact ⟨h .base, h .window, h (.table .dat), h (.table .dct)⟩
    · rintro ⟨hbase, hwindow, hdat, hdct⟩ (_ | _ | _ | _)
      exacts [hbase, hwindow, hdat, hdct]
  · rw [Session.start_eq_ok_iff]
    constructor
    · rintro ⟨target, c, htarget, hc, rfl⟩
      obtain ⟨s, hs, hmade⟩ := Session.controllerFor_settings_eq_ok_iff.mp hc
      obtain ⟨hcheck, hdat, hdct, rfl⟩ := (hcontroller _ _ _).mp hmade
      exact ⟨target, s, htarget, hs, hcheck, hdat, hdct, rfl⟩
    · rintro ⟨target, s, htarget, hs, hcheck, hdat, hdct, rfl⟩
      exact ⟨target, _, htarget, Session.controllerFor_settings_eq_ok_iff.mpr
        ⟨s, hs, (hcontroller _ _ _).mpr ⟨hcheck, hdat, hdct, rfl⟩⟩, rfl⟩

/-- A width that fits no address does no harm to a table without entries. With one entry the table
is said to end at the largest address, with two to overflow. -/
example :
    let wide := fun capacity : UInt64 =>
      { Settings.standard with dat := ⟨.dat, 0, 0xFFFFFFFFFFFFFFFF, capacity⟩ }
    (wide 0).check = .ok () ∧
      (wide 1).check = .error (.invalidSettings (.tableEnds .dat 0xFFFFFFFFFFFFFFFF 0x1000)) ∧
      (wide 2).check = .error (.invalidSettings (.tableOverflows .dat 0 2)) := by
  decide

end I3CHost
