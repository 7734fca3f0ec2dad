import I3CHost.CommandLine.Exit
import I3CHost.Proofs.CommandCourses
import I3CHost.Proofs.FileWords
import Mathlib

/-!
# What a command line does to the device files

A software window leaves them alone, and so does a program without stores. A program over a mapped
file changes bytes of the words it stores to and nothing else. Whether a command that writes fails
is settled at its first access, so there is no failure after a store, and its work shows none.

The end of a window in its file is compared as an address, so the bytes that change are found where
the window is only if files are shorter than half the address space, as all files are.
-/
namespace I3CHost

/-! ## Frames -/

/-- From `t` to `t'` nothing changed but bytes of one file at positions in `B`. -/
structure DeviceTree.Frame (p : Place) (B : Nat → Prop) (t t' : DeviceTree) : Prop where
  workingDirectory : t'.workingDirectory = t.workingDirectory
  others (q : Place) : q ≠ p → t'.nodes.lookup q = t.nodes.lookup q
  size : (t'.bytes p).size = (t.bytes p).size
  outside (k : Nat) : ¬ B k → (t'.bytes p)[k]? = (t.bytes p)[k]?

namespace DeviceTree

variable {p : Place} {B B' : Nat → Prop} {t t' t'' : DeviceTree}

theorem Frame.refl (p : Place) (B : Nat → Prop) (t : DeviceTree) : t.Frame p B t :=
  ⟨rfl, fun _ _ => rfl, rfl, fun _ _ => rfl⟩

theorem Frame.trans (h : t.Frame p B t') (h' : t'.Frame p B t'') : t.Frame p B t'' where
  workingDirectory := h'.workingDirectory.trans h.workingDirectory
  others q hq := (h'.others q hq).trans (h.others q hq)
  size := h'.size.trans h.size
  outside k hk := (h'.outside k hk).trans (h.outside k hk)

theorem Frame.mono (h : t.Frame p B t') (hB : ∀ k, B k → B' k) : t.Frame p B' t' :=
  { h with outside := fun k hk => h.outside k fun hb => hk (hB k hb) }

theorem lookup_modifyBytes (t : DeviceTree) {q : Place} (hq : q ≠ p)
    (f : Array UInt8 → Array UInt8) :
    (t.modifyBytes p f).nodes.lookup q = t.nodes.lookup q := by
  simp only [modifyBytes]
  induction t.nodes with
  | nil => rfl
  | cons n nodes ih =>
      obtain ⟨r, n⟩ := n
      by_cases hr : r = p
      · subst hr
        have hne : (q == r) = false := beq_eq_false_iff_ne.mpr hq
        cases n <;> simp only [List.map_cons, if_true, List.lookup_cons, hne, ih]
      · simp only [List.map_cons, hr, if_false, List.lookup_cons, ih]

end DeviceTree

namespace Mapping

variable {mp : Mapping} {place : Place} {t : DeviceTree}

theorem Fits.frame_poke (h : mp.Fits place t) {o : Address} (ho : o.toNat < mp.size.toNat)
    (w : Word) : t.Frame place
      (fun k => mp.base.toNat + o.toNat ≤ k ∧ k < mp.base.toNat + o.toNat + 4)
      (mp.poke t o w).2 := by
  have hbytes := (h.poke_eq o w).2
  have hpoke : (mp.poke t o w).2 =
      t.modifyBytes place fun bytes => putWord bytes (mp.position o) w := by
    rw [poke, h.backing]
  refine ⟨?_, fun q hq => ?_, ?_, fun k hk => ?_⟩
  · rw [hpoke, DeviceTree.modifyBytes]
  · rw [hpoke, DeviceTree.lookup_modifyBytes t hq]
  · rw [hbytes, size_putWord]
  · rw [hbytes, h.position_eq ho, putWord_eq]
    rw [Array.getElem?_setIfInBounds_ne (by omega), Array.getElem?_setIfInBounds_ne (by omega),
      Array.getElem?_setIfInBounds_ne (by omega), Array.getElem?_setIfInBounds_ne (by omega)]

/-- A mapping is of what its path leads to, or of memory of its own. -/
theorem openAt_backing {path : String} {base size : Address}
    (h : (openAt t path base size).result = .ok mp) : ∃ p, t.resolve path = .ok p ∧
      (mp.backing = .file p ∨ ∃ stores, mp.backing = .memory stores) := by
  have hresolve (p : Place) (n : Node) (hopen : t.open? path = .ok (p, n)) :
      t.resolve path = .ok p := by
    unfold DeviceTree.open? at hopen
    split at hopen
    · cases hopen
    · next q hq =>
      split at hopen <;> cases hopen
      exact hq
  obtain ⟨-, p, node, backing, hopen, rfl, ⟨-, -, -, rfl⟩ | ⟨-, rfl⟩⟩ := openAt_eq_ok h
  · exact ⟨p, hresolve p node hopen, .inl rfl⟩
  · exact ⟨p, hresolve p node hopen, .inr ⟨[], rfl⟩⟩

end Mapping

theorem Model.refusing : Refusing Model.responder where
  load {o m e} h := by
    by_cases hacc : m.Accepts o
    · rw [responder_load, load_of_accepts hacc] at h
      cases h
    · obtain ⟨e', -, hl⟩ := load_of_not_accepts hacc
      rw [responder_load, hl]
  store {o v m e} h := by
    by_cases hacc : m.Accepts o
    · rw [responder_store, (store_of_accepts hacc v).1] at h
      cases h
    · obtain ⟨e', -, hs⟩ := store_of_not_accepts hacc v
      rw [responder_store, hs]

/-! ## Programs over a target -/

namespace Target

variable {α : Type} {p : Bus α} {L W : Address → Prop} {t : DeviceTree}

theorem screened : Screened responder fun s => s.1.size where
  load o s := by
    obtain ⟨target, t⟩ := s
    cases target with
    | model m => exact Model.screened.load o m
    | mapping mp => exact Mapping.screened.load o (mp, t)
  store o v s := by
    obtain ⟨target, t⟩ := s
    cases target with
    | model m => exact Model.screened.store o v m
    | mapping mp => exact Mapping.screened.store o v (mp, t)
  size_load o s := by
    obtain ⟨target, t⟩ := s
    cases target with
    | model m => exact Model.screened.size_load o m
    | mapping mp => exact Mapping.screened.size_load o (mp, t)
  size_store o v s := by
    obtain ⟨target, t⟩ := s
    cases target with
    | model m => exact Model.screened.size_store o v m
    | mapping mp => exact Mapping.screened.size_store o v (mp, t)

theorem refusing : Refusing responder where
  load {o s e} h := by
    obtain ⟨target, t⟩ := s
    cases target with
    | model m =>
        have hsame : (m.load o).state = m := Model.refusing.load h
        change (model (m.load o).state, t) = (model m, t)
        rw [hsame]
    | mapping mp =>
        change (mapping (mp.load t o).state.1, (mp.load t o).state.2) = (mapping mp, t)
        rw [mp.state_load t o]
  store {o v s e} h := by
    obtain ⟨target, t⟩ := s
    cases target with
    | model m =>
        have hsame : (m.store o v).state = m := Model.refusing.store h
        change (model (m.store o v).state, t) = (model m, t)
        rw [hsame]
    | mapping mp =>
        change (mp.store t o v).result = .error e at h
        change (mapping (mp.store t o v).state.1, (mp.store t o v).state.2) = (mapping mp, t)
        rw [mp.state_store_of_error h]

theorem tree_of_no_store (hp : p.Within L fun _ => False) (target : Target) (t : DeviceTree) :
    (p.run responder (target, t)).state.2 = t := by
  refine hp.run_preserves (P := fun s : Target × DeviceTree => s.2 = t) ?_ ?_ rfl
  · rintro o ⟨target, t'⟩ - ht
    cases target with
    | model m => exact ht
    | mapping mp => exact (congrArg Prod.snd (mp.state_load t' o)).trans ht
  · intro o v s hfalse
    exact hfalse.elim

theorem tree_of_model (p : Bus α) (m : Model) (t : DeviceTree) :
    (p.run responder (model m, t)).state.2 = t := by
  refine ((Bus.within_any p).run_preserves
    (P := fun s : Target × DeviceTree => (∃ m, s.1 = model m) ∧ s.2 = t) ?_ ?_ ⟨⟨m, rfl⟩, rfl⟩).2
  · rintro o ⟨target, t'⟩ - ⟨⟨m, rfl⟩, ht⟩
    exact ⟨⟨_, rfl⟩, ht⟩
  · rintro o v ⟨target, t'⟩ - ⟨⟨m, rfl⟩, ht⟩
    exact ⟨⟨_, rfl⟩, ht⟩

/-- The bytes of the words in `W` that a window of a file accepts. -/
def Bytes (mp : Mapping) (W : Address → Prop) (k : Nat) : Prop :=
  ∃ a, W a ∧ a.toNat + 4 ≤ mp.size.toNat ∧
    mp.base.toNat + a.toNat ≤ k ∧ k < mp.base.toNat + a.toNat + 4

/-- A program over a mapped file changes bytes of words that it stores to. -/
theorem frame_of_file {mp : Mapping} {place : Place} (hp : p.Within L W) (hmp : mp.Fits place t) :
    t.Frame place (Bytes mp W) (p.run responder (mapping mp, t)).state.2 := by
  refine (hp.run_preserves (P := fun s : Target × DeviceTree =>
    s.1 = mapping mp ∧ t.Frame place (Bytes mp W) s.2) ?_ ?_ ⟨rfl, .refl place _ t⟩).2
  · rintro o ⟨target, t'⟩ - ⟨rfl, ht⟩
    change mapping (mp.load t' o).state.1 = _ ∧ t.Frame place _ (mp.load t' o).state.2
    rw [mp.state_load t' o]
    exact ⟨rfl, ht⟩
  · rintro o v ⟨target, t'⟩ hW ⟨rfl, ht⟩
    change mapping (mp.store t' o v).state.1 = _ ∧ t.Frame place _ (mp.store t' o v).state.2
    cases hc : checkAccess o mp.size with
    | error e =>
        rw [mp.state_store_of_error (by rw [Mapping.store, hc])]
        exact ⟨rfl, ht⟩
    | ok u =>
        have hend := ((checkAccess_eq_ok_iff o mp.size).mp hc).2
        have hfits : mp.Fits place t' := hmp.of_size ht.size
        have hstate : (mp.store t' o v).state = mp.poke t' o v := by rw [Mapping.store, hc]
        rw [hstate, (hfits.poke_eq o v).1]
        refine ⟨rfl, ht.trans ((hfits.frame_poke (by omega) v).mono fun k hk => ?_)⟩
        exact ⟨o, hW, hend, hk⟩

theorem tree_of_memory (p : Bus α) {mp : Mapping} {stores : List (Address × Word)}
    (hmp : mp.backing = .memory stores) (t : DeviceTree) :
    (p.run responder (mapping mp, t)).state.2 = t := by
  refine ((Bus.within_any p).run_preserves (P := fun s : Target × DeviceTree =>
    (∃ mp stores, s.1 = mapping mp ∧ mp.backing = .memory stores) ∧ s.2 = t) ?_ ?_
      ⟨⟨mp, stores, rfl, hmp⟩, rfl⟩).2
  · rintro o ⟨target, t'⟩ - ⟨⟨mp, stores, rfl, hmp⟩, ht⟩
    change (∃ mp' _, mapping (mp.load t' o).state.1 = _ ∧ _) ∧ (mp.load t' o).state.2 = t
    rw [mp.state_load t' o]
    exact ⟨⟨mp, stores, rfl, hmp⟩, ht⟩
  · rintro o v ⟨target, t'⟩ - ⟨⟨mp, stores, rfl, hmp⟩, ht⟩
    change (∃ mp' _, mapping (mp.store t' o v).state.1 = _ ∧ _) ∧ (mp.store t' o v).state.2 = t
    unfold Mapping.store
    split
    · rw [Mapping.poke, hmp]
      exact ⟨⟨_, _, rfl, rfl⟩, ht⟩
    · exact ⟨⟨mp, stores, rfl, hmp⟩, ht⟩

end Target

/-! ## Command lines -/

namespace CommandLine

variable {args : List String} {env : Environment} {tree : DeviceTree} {i : Invocation}

/-- No command line says where the tables are. -/
theorem Invocation.amendments_of_arguments (h : ofArguments args = .ok i) :
    i.amendments.dat = none ∧ i.amendments.dct = none := by
  unfold ofArguments at h
  obtain ⟨⟨outer, entered⟩, -, h⟩ := Command.exists_of_bind_eq_ok h
  cases entered with
  | none =>
      obtain ⟨outer, -, h⟩ := Command.exists_of_bind_eq_ok h
      split at h <;> cases h
  | some e =>
      obtain ⟨v, rest⟩ := e
      obtain ⟨⟨inner, x⟩, -, h⟩ := Command.exists_of_bind_eq_ok h
      obtain ⟨inner, -, h⟩ := Command.exists_of_bind_eq_ok h
      split at h
      · cases h
      · obtain ⟨outer, -, h⟩ := Command.exists_of_bind_eq_ok h
        cases h
        exact ⟨rfl, rfl⟩

/-- So the settings keep the standard tables. -/
theorem Invocation.tables_of_settings (h : ofArguments args = .ok i) {s : Settings}
    (hs : i.settings env = .ok s) : s.dat = .dat ∧ s.dct = .dct := by
  obtain ⟨hdat, hdct⟩ := amendments_of_arguments h
  rw [settings_eq_bind] at hs
  obtain ⟨s₀, hs₀, hamend⟩ := Command.exists_of_bind_eq_ok hs
  cases hamend
  obtain ⟨base, -, hrest⟩ := Command.exists_of_bind_eq_ok hs₀
  obtain ⟨size, -, hrest⟩ := Command.exists_of_bind_eq_ok hrest
  cases hrest
  simp only [Settings.amend, hdat, hdct]
  exact ⟨rfl, rfl⟩

theorem standard_of_settings {window : Address} {s : Settings} {c : Controller}
    (h : Controller.ofSettings window s = .ok c) (hdat : s.dat = .dat) (hdct : s.dct = .dct) :
    c = .standard window ∧ c.Fits := by
  obtain ⟨u, -, h⟩ := Command.exists_of_bind_eq_ok h
  obtain ⟨u, hfits, h⟩ := Command.exists_of_bind_eq_ok h
  rw [hdat, hdct] at hfits h
  cases h
  exact ⟨rfl, Controller.checkFits_eq_ok_iff.mp hfits⟩

/-- What is open, under a command line. -/
theorem target_of_select {s : Settings} {target : Target}
    (h : (Target.select tree s i.selection).result = .ok target) :
    (i.software = true ∧ target = .model (.controller s.windowSize)) ∨
      i.software = false ∧ ∃ mp, target = .mapping mp ∧
        (Mapping.openAt tree s.devicePath s.baseAddress s.windowSize).result = .ok mp := by
  unfold Invocation.selection at h
  cases hsoftware : i.software with
  | true =>
      rw [hsoftware] at h
      exact .inl ⟨rfl, (Target.openModel_eq_ok h).2⟩
  | false =>
      rw [hsoftware] at h
      change (Target.openMapping tree s).result = .ok target at h
      simp only [Target.openMapping, Bind.bind, Logged.bind, Pure.pure, Mapping.ofSettings] at h
      cases hopen : (Mapping.openAt tree s.devicePath s.baseAddress s.windowSize).result with
      | error e =>
          rw [hopen] at h
          cases h
      | ok mp =>
          rw [hopen] at h
          cases h
          exact .inr ⟨rfl, mp, rfl, rfl⟩

/-- A command over an open window ends before its program, with the files as they are, or with what
its program leaves. It fails only if the program does or its work shows a failure. -/
theorem onTarget_cases (i : Invocation) (tree : DeviceTree) {s : Settings} (hdat : s.dat = .dat)
    (hdct : s.dct = .dct) (target : Target) :
    let e := i.onTarget tree s target
    e.tree = tree ∨
      ∃ p, (Controller.standard target.size).Fits ∧
        i.command.program (.standard target.size) = .ok p ∧
        e.tree = (p.run Target.responder (target, tree)).state.2 ∧
        (e.code ≠ 0 → ∀ out, (p.run Target.responder (target, tree)).result = .ok out →
          out ≠ none) := by
  intro e
  simp only [e, Invocation.onTarget, Exit.code_between, Exit.tree_between, Invocation.work]
  cases hc : Controller.ofSettings target.size s with
  | error f => exact .inl (Exit.tree_ofFault ..)
  | ok c =>
      obtain ⟨rfl, hfits⟩ := standard_of_settings hc hdat hdct
      cases hp : i.command.program (.standard target.size) with
      | error f =>
          simp only [hp]
          exact .inl (Exit.tree_ofFailure ..)
      | ok p =>
          refine .inr ⟨p, hfits, rfl, ?_⟩
          simp only [hp]
          cases hresult : (p.run Target.responder (target, tree)).result with
          | error f => exact ⟨Exit.tree_ofFault .., fun _ out hout => by cases hout⟩
          | ok failure =>
              refine ⟨Exit.tree_ofFailure .., fun hcode out hout => ?_⟩
              cases hout
              rintro rfl
              exact hcode rfl

section
variable {s : Settings} {target : Target} (hdat : s.dat = .dat) (hdct : s.dct = .dct)
include hdat hdct

theorem tree_of_programs (h : ∀ p, i.command.program (.standard target.size) = .ok p →
    (p.run Target.responder (target, tree)).state.2 = tree) :
    (i.onTarget tree s target).tree = tree := by
  rcases onTarget_cases i tree hdat hdct target with hsame | ⟨p, -, hp, htree, -⟩
  · exact hsame
  · exact htree.trans (h p hp)

theorem tree_of_reads (hcmd : i.command.Reads) : (i.onTarget tree s target).tree = tree := by
  refine tree_of_programs hdat hdct fun p hp => ?_
  obtain ⟨L, hL⟩ := Command.within_of_reads hcmd hp
  exact Target.tree_of_no_store hL target tree

theorem tree_of_model (m : Model) : (i.onTarget tree s (.model m)).tree = tree :=
  tree_of_programs hdat hdct fun p _ => Target.tree_of_model p m tree

theorem tree_of_memory {mp : Mapping} {stores : List (Address × Word)}
    (hmp : mp.backing = .memory stores) : (i.onTarget tree s (.mapping mp)).tree = tree :=
  tree_of_programs hdat hdct fun p _ => Target.tree_of_memory p hmp tree

/-- A command that fails was refused at its first access. -/
theorem tree_of_failed (hw : target.size.toNat % 4 = 0) (hcmd : i.command ≠ .smoke)
    (hcode : (i.onTarget tree s target).code ≠ 0) : (i.onTarget tree s target).tree = tree := by
  by_cases hreads : i.command.Reads
  · exact tree_of_reads hdat hdct hreads
  rcases onTarget_cases i tree hdat hdct target with h | ⟨p, hfits, hp, htree, hend⟩
  · exact h
  · rw [htree]
    cases hresult : (p.run Target.responder (target, tree)).result with
    | error f =>
        have huniform := Command.uniform_program hw hfits hreads hcmd hp
        rw [huniform.state_of_error Target.screened Target.refusing hresult]
    | ok out =>
        have hprinted := (Command.returns_program hreads hcmd hp).run hresult
        exact (hend hcode out hresult hprinted).elim

/-- A command that writes to a mapped file changes bytes it was given to write. -/
theorem frame_of_writes {mp : Mapping} {place : Place} (hmp : mp.Fits place tree)
    (hw : mp.size.toNat % 4 = 0) (hreads : ¬ i.command.Reads) (hcmd : i.command ≠ .smoke) :
    tree.Frame place (fun k => mp.base.toNat ≤ k ∧ k < mp.base.toNat + mp.size.toNat ∧
      i.command.Addresses (k - mp.base.toNat)) (i.onTarget tree s (.mapping mp)).tree := by
  rcases onTarget_cases i tree hdat hdct (.mapping mp)
    with h | ⟨p, hfits, hp, htree, -⟩
  · rw [h]
    exact .refl place _ tree
  · have huniform := Command.uniform_program hw hfits hreads hcmd hp
    rw [htree]
    refine (Target.frame_of_file huniform.within hmp).mono ?_
    rintro k ⟨a, ha, hend, hle, hlt⟩
    exact ⟨by omega, by omega, ha _ (by omega) (by omega)⟩

end

/-- What a command line does to the files. One that is not understood leaves them, and so does one
that asks for the model, or only reads, or fails, unless it is the smoke sequence that fails. A
command that writes and succeeds changes nothing but bytes of the word, or of the words of an entry,
that it was given, inside the window in the file its settings name. -/
theorem run_leaves_files (w : Wording) (args : List String) (env : Environment)
    (tree : DeviceTree) :
    let e := run w args env tree
    (∀ stop, Invocation.ofArguments args = .error stop → e.tree = tree) ∧
      ∀ i, Invocation.ofArguments args = .ok i →
        (i.software = true ∨ i.command.Reads → e.tree = tree) ∧
        (e.code ≠ 0 → i.command ≠ .smoke → e.tree = tree) ∧
        (e.code = 0 → i.software = false → ¬ i.command.Reads → i.command ≠ .smoke →
          (∀ p, (tree.bytes p).size < UInt64.size / 2) →
          ∃ s place, i.settings env = .ok s ∧ tree.resolve s.devicePath = .ok place ∧
            tree.Frame place (fun k => s.baseAddress.toNat ≤ k ∧
              k < s.baseAddress.toNat + s.windowSize.toNat ∧
              i.command.Addresses (k - s.baseAddress.toNat)) e.tree) := by
  intro e
  constructor
  · intro stop hstop
    simp only [e, run, hstop]
    cases stop <;> rfl
  · intro i hi
    have he : e = i.exit env tree := by simp only [e, run, hi]
    simp only [he, Invocation.exit, Exit.code_between, Exit.tree_between]
    cases hs : i.settings env with
    | error f =>
        have htree := Exit.tree_ofFault tree .ofFault f
        exact ⟨fun _ => htree, fun _ _ => htree, fun hcode => (Exit.code_ofFault _ _ f hcode).elim⟩
    | ok s =>
        obtain ⟨hdat, hdct⟩ := Invocation.tables_of_settings hi hs
        simp only [Exit.code_between, Exit.tree_between]
        cases ht : (Target.select tree s i.selection).result with
        | error f =>
            have htree := Exit.tree_ofFault tree (.during s!"opening {s.devicePath}") f
            exact ⟨fun _ => htree, fun _ _ => htree,
              fun hcode => (Exit.code_ofFault _ _ f hcode).elim⟩
        | ok target =>
            rcases target_of_select ht with ⟨hsoftware, rfl⟩ | ⟨hsoftware, mp, rfl, hopen⟩
            · have htree : (i.onTarget tree s (.model (.controller s.windowSize))).tree = tree :=
                tree_of_model hdat hdct _
              refine ⟨fun _ => htree, fun _ _ => htree, fun _ hmapped => ?_⟩
              rw [hsoftware] at hmapped
              cases hmapped
            · have hw : mp.size.toNat % 4 = 0 := Mapping.size_mod_four hopen
              refine ⟨?_, fun hcode hcmd => tree_of_failed hdat hdct hw hcmd hcode, ?_⟩
              · rintro (hmodel | hreads)
                · rw [hsoftware] at hmodel
                  cases hmodel
                · exact tree_of_reads hdat hdct hreads
              · intro _ _ hreads hcmd hlen
                obtain ⟨place, hplace, hfile | ⟨stores, hmemory⟩⟩ := Mapping.openAt_backing hopen
                · obtain ⟨hbase, hsize, -⟩ := Mapping.openAt_file hopen hfile
                  have hfits := Mapping.openAt_fits hopen hfile (hlen place)
                  have hframe := frame_of_writes hdat hdct hfits hw hreads hcmd
                  rw [hbase, hsize] at hframe
                  exact ⟨s, place, rfl, hplace, hframe⟩
                · refine ⟨s, place, rfl, hplace, ?_⟩
                  rw [tree_of_memory hdat hdct hmemory]
                  exact .refl place _ tree

def oneFile (bytes : Array UInt8) : DeviceTree := ⟨[(["f"], .regular bytes)], []⟩

theorem size_oneFile (bytes : Array UInt8) (p : Place) :
    ((oneFile bytes).bytes p).size ≤ bytes.size := by
  simp only [DeviceTree.bytes, oneFile, List.lookup_cons, List.lookup_nil]
  cases p == ["f"] with
  | true => exact Nat.le_refl _
  | false => exact Nat.zero_le _

theorem resolve_oneFile (bytes : Array UInt8) : (oneFile bytes).resolve "f" = .ok ["f"] := by
  cbv

/-- A page opens under the standard settings. -/
theorem openAt_oneFile {bytes : Array UInt8} (h : bytes.size = 4096) :
    Mapping.openAt (oneFile bytes) "f" 0 4096 =
      ⟨.ok ⟨"f", 0, 4096, .file ["f"]⟩, [.mapping "f" 0 4096, .mapped "f" 0 4096]⟩ := by
  have hopen : (oneFile bytes).open? "f" = .ok (["f"], .regular bytes) := by
    rw [DeviceTree.open?, resolve_oneFile]
    rfl
  have hend : Address.addSat 0 4096 = 4096 := by decide
  simp only [Mapping.openAt, Mapping.openOn, hopen, hend, h]
  rfl

def page : Array UInt8 := Array.replicate 4096 0xFF

theorem size_page : page.size = 4096 := Array.size_replicate

theorem run_leaves_files_one_word :
    let args := ["write", "HC_CONTROL", "1", "--device", "f"]
    let tree := oneFile page
    let e := run .brief args [] tree
    (∀ p, (tree.bytes p).size < UInt64.size / 2) ∧ e.code = 0 ∧
      ∀ k, k < 4 ∨ 8 ≤ k → (e.tree.bytes ["f"])[k]? = (tree.bytes ["f"])[k]? := by
  intro args tree e
  let i : Invocation := ⟨false, ⟨some "f", none, none, none, none⟩, .write "HC_CONTROL" 1⟩
  let s : Settings := ⟨"f", 0, 4096, .dat, .dct⟩
  have hi : Invocation.ofArguments args = .ok i := by cbv
  have hs : i.settings [] = .ok s := rfl
  have hlen (p : Place) : (tree.bytes p).size < UInt64.size / 2 :=
    Nat.lt_of_le_of_lt (size_oneFile page p) (by rw [size_page]; decide)
  have hcode : e.code = 0 := by
    have hselect : (Target.select tree s i.selection).result =
        .ok (.mapping ⟨"f", 0, 4096, .file ["f"]⟩) := by
      change (Target.openMapping tree s).result = _
      rw [Target.openMapping, Mapping.ofSettings, openAt_oneFile size_page]
      rfl
    have hexit : e.code = (i.work tree s (.mapping ⟨"f", 0, 4096, .file ["f"]⟩)).code := by
      simp only [e, run, hi, Invocation.exit, hs, hselect, Invocation.onTarget, Exit.code_between]
    rw [hexit]
    decide +kernel
  refine ⟨hlen, hcode, fun k hk => ?_⟩
  obtain ⟨s', place, hs', hplace, hframe⟩ :=
    ((run_leaves_files .brief args [] tree).2 i hi).2.2 hcode rfl id (nofun) hlen
  obtain rfl : s = s' := Except.ok.inj (hs.symm.trans hs')
  obtain rfl : ["f"] = place := Except.ok.inj ((resolve_oneFile page).symm.trans hplace)
  refine hframe.outside k ?_
  rintro ⟨-, -, o, ho, hle, hlt⟩
  obtain rfl : 4 = o := by
    have hregister : registerOf "HC_CONTROL" = .ok 4 := by cbv
    exact Except.ok.inj (hregister.symm.trans ho)
  change 4 ≤ k - 0 at hle
  change k - 0 < 4 + 4 at hlt
  omega

end CommandLine

end I3CHost
