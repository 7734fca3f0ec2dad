import I3CHost.Proofs.Contents
import I3CHost.Proofs.Lockstep

/-!
# The smoke sequence on contents

A step patches the words it writes and looks at the bits it checks, and both are known before any
word is. So the sequence puts one patch into each word of a window, whatever the word holds, and the
patch of a patched word is no change.

What the checks find is a comparison of two runs. If contents agree on some bits, they agree after a
step on these and on the bits the step has put in place. As long as the steps look at nothing else,
they make the same checks of both, and one run that can be evaluated speaks for all of them.

Nothing here depends on what kind of window it is: `gives_run` is about every window that shows its
contents.
-/
namespace I3CHost

theorem Bus.Ends.gives {α : Type} {p : Bus α} {a : α} {limit : Address} {mask ws : Contents}
    (h : p.Ends a) : p.Gives limit mask ws a ws := by
  induction h with
  | done a => exact .done a
  | note _ ih => exact .note ih

namespace Controller

variable {c : Controller} {offset : Address} {f : Field}

theorem finds_csr (hal : offset.toNat % 4 = 0) (hend : offset.toNat + 4 ≤ c.window.toNat) :
    c.csr.Finds c.window offset (offset.toNat / 4) := by
  have hbound : c.csr.base.toNat + offset.toNat < UInt64.size := by
    have hzero : c.csr.base.toNat = 0 := rfl
    have hlt := offset.toNat_lt_size
    omega
  refine ⟨_, Registers.address_eq hbound, ?_⟩
  have hsame : c.csr.base + offset = offset := UInt64.zero_add offset
  rw [hsame]
  exact ⟨(checkAccess_eq_ok_iff offset c.window).mpr ⟨hal, hend⟩, rfl⟩

theorem findsField_csr (hal : offset.toNat % 4 = 0)
    (hend : offset.toNat + 4 * f.word.toNat + 4 ≤ c.window.toNat) :
    c.csr.FindsField c.window offset f ((offset.toNat + 4 * f.word.toNat) / 4) := by
  have hlt := c.window.toNat_lt_size
  have hsum : (Registers.wordOf offset f).toNat = offset.toNat + 4 * f.word.toNat := by
    rw [Registers.wordOf, UInt64.toNat_add, Registers.word_bytes]
    simp only [UInt64.size] at hlt
    omega
  have hfound : c.csr.Finds c.window (Registers.wordOf offset f)
      ((Registers.wordOf offset f).toNat / 4) :=
    finds_csr (by rw [hsum]; omega) (by rw [hsum]; exact hend)
  rw [hsum] at hfound
  obtain ⟨a, ha, hrest⟩ := hfound
  refine ⟨a, ?_, hrest⟩
  rw [Registers.fieldAddress_eq (by omega), ha]

end Controller

namespace Smoke

/-! ## Patches -/

/-- What is put into a word, and into which bits. -/
structure Patch where
  value : Word
  bits : Word
deriving DecidableEq, Repr

namespace Patch

def none : Patch := ⟨0, 0⟩

def apply (p : Patch) (w : Word) : Word := w.merge p.value p.bits

def through (p : Patch) (mask : Word) : Patch := ⟨p.value, p.bits &&& mask⟩

def andThen (p q : Patch) : Patch := ⟨p.value.merge q.value q.bits, p.bits ||| q.bits⟩

theorem through_none (mask : Word) : none.through mask = none := by
  rw [through, none, UInt32.zero_and]

theorem apply_none (w : Word) : none.apply w = w := Word.merge_none w 0

theorem apply_andThen (p q : Patch) (w : Word) : (p.andThen q).apply w = q.apply (p.apply w) :=
  (Word.merge_merge w p.value q.value p.bits q.bits).symm

theorem apply_apply (p : Patch) (w : Word) : p.apply (p.apply w) = p.apply w := by
  rw [← apply_andThen, andThen, Word.merge_self, UInt32.or_self]

end Patch

/-! ## Steps on contents -/

variable (layout : TableKind → TableLayout)

def Step.place : Step → Nat
  | .announce _ => 0
  | .write offset _ | .expect _ _ offset => offset.toNat / 4
  | .writeField offset f _ | .expectField _ _ offset f => (offset.toNat + 4 * f.word.toNat) / 4
  | .writeEntry table i _ | .expectEntry table i _ => (layout table).start i.toNat / 4
  | .writeEntryField table i f _ | .expectEntryField _ _ table i f =>
      (layout table).start i.toNat / 4 + f.word.toNat

/-- What a step puts into word `k` if every bit can be written. -/
def Step.patch (s : Step) (k : Nat) : Patch :=
  match s with
  | .write _ value => if k = s.place layout then ⟨value, Word.ones⟩ else .none
  | .writeField _ f value | .writeEntryField _ _ f value =>
      if k = s.place layout then ⟨value.up f.low, f.mask⟩ else .none
  | .writeEntry _ _ words =>
      if s.place layout ≤ k then
        (words[k - s.place layout]?.map fun w => ⟨w, Word.ones⟩).getD .none
      else .none
  | _ => .none

def Step.after (mask ws : Contents) (s : Step) : Contents := fun k =>
  ((s.patch layout k).through (mask k)).apply (ws k)

def Step.checks (ws : Contents) (s : Step) : List Check :=
  match s with
  | .expect name expected _ => [⟨name, expected, ws (s.place layout)⟩]
  | .expectField name expected _ f | .expectEntryField name expected _ _ f =>
      [⟨name, expected, f.get (ws (s.place layout))⟩]
  | .expectEntry table i words =>
      wordChecks (entryName table i) 0 words (ws.slice (s.place layout) words.length).toList
  | .announce _ | .write .. | .writeField .. | .writeEntry .. | .writeEntryField .. => []

def checksOf (mask : Contents) : Contents → List Step → List Check
  | _, [] => []
  | ws, s :: ss => s.checks layout ws ++ checksOf mask (s.after layout mask ws) ss

def afterSteps (mask ws : Contents) (steps : List Step) : Contents :=
  steps.foldl (fun ws s => s.after layout mask ws) ws

/-- What steps together put into word `k`. -/
def patchOf (mask : Contents) (steps : List Step) (k : Nat) : Patch :=
  steps.foldl (fun p s => p.andThen ((s.patch layout k).through (mask k))) .none

theorem afterSteps_eq (mask ws : Contents) (steps : List Step) (k : Nat) :
    afterSteps layout mask ws steps k = (patchOf layout mask steps k).apply (ws k) := by
  have hfrom (xs : Contents) (p : Patch) (hp : xs k = p.apply (ws k)) :
      afterSteps layout mask xs steps k =
        (steps.foldl (fun p s => p.andThen ((s.patch layout k).through (mask k))) p).apply
          (ws k) := by
    induction steps generalizing xs p with
    | nil => exact hp
    | cons s steps ih =>
        refine ih (s.after layout mask xs) _ ?_
        rw [Patch.apply_andThen, ← hp, Step.after]
  exact hfrom ws .none (Patch.apply_none _).symm

def Step.changes (s : Step) : List Nat :=
  match s with
  | .write .. | .writeField .. | .writeEntryField .. => [s.place layout]
  | .writeEntry _ _ words => List.range' (s.place layout) words.length
  | _ => []

theorem afterSteps_again (mask ws : Contents) (steps : List Step) :
    afterSteps layout mask (afterSteps layout mask ws steps) steps =
      afterSteps layout mask ws steps := by
  funext k
  rw [afterSteps_eq, afterSteps_eq, Patch.apply_apply]

variable {layout} {mask ws xs bits : Contents} {s : Step}

theorem patch_eq_none {k : Nat} (hk : k ∉ s.changes layout) : s.patch layout k = .none := by
  cases s with
  | write | writeField | writeEntryField => exact if_neg fun h => hk (List.mem_singleton.mpr h)
  | writeEntry table i words =>
      rw [Step.changes, List.mem_range'_1, not_and_or] at hk
      rw [Step.patch]
      split
      · next hle =>
        have hout : words.length ≤ k - Step.place layout (.writeEntry table i words) := by omega
        rw [List.getElem?_eq_none hout]
        rfl
      · rfl
  | _ => rfl

theorem after_other {k : Nat} (hk : k ∉ s.changes layout) : s.after layout mask ws k = ws k := by
  change ((s.patch layout k).through (mask k)).apply (ws k) = ws k
  rw [patch_eq_none hk, Patch.through_none, Patch.apply_none]

theorem afterSteps_other {steps : List Step} {k : Nat}
    (hk : k ∉ steps.flatMap (Step.changes layout)) : afterSteps layout mask ws steps k = ws k := by
  unfold afterSteps
  induction steps generalizing ws with
  | nil => rfl
  | cons s steps ih =>
      rw [List.flatMap_cons, List.mem_append, not_or] at hk
      exact (ih hk.2).trans (after_other hk.1)

/-! ## What steps look at -/

/-- The bits a step looks at, with their words. -/
def Step.reads (layout : TableKind → TableLayout) (s : Step) : List (Nat × Word) :=
  match s with
  | .expect .. => [(s.place layout, Word.ones)]
  | .expectField _ _ _ f | .expectEntryField _ _ _ _ f => [(s.place layout, f.mask)]
  | .expectEntry _ _ words =>
      (List.range words.length).map fun j => (s.place layout + j, Word.ones)
  | _ => []

/-- Steps look only at given bits and at bits they have put in place themselves. -/
def Covered (layout : TableKind → TableLayout) (mask : Contents) : Contents → List Step → Prop
  | _, [] => True
  | bits, s :: ss => (∀ r ∈ s.reads layout, r.2 &&& bits r.1 = r.2) ∧
      Covered layout mask (fun k => bits k ||| ((s.patch layout k).through (mask k)).bits) ss

instance Covered.decidable (layout : TableKind → TableLayout) (mask : Contents) :
    (bits : Contents) → (steps : List Step) → Decidable (Covered layout mask bits steps)
  | _, [] => .isTrue trivial
  | bits, s :: ss =>
    have := Covered.decidable layout mask
      (fun k => bits k ||| ((s.patch layout k).through (mask k)).bits) ss
    inferInstanceAs (Decidable (_ ∧ _))

theorem checks_congr (hreads : ∀ r ∈ s.reads layout, r.2 &&& bits r.1 = r.2)
    (h : ∀ k, Word.AgreeOn (bits k) (ws k) (xs k)) : s.checks layout ws = s.checks layout xs := by
  have hfield {k : Nat} {f : Field} (hf : f.mask &&& bits k = f.mask) :
      f.get (ws k) = f.get (xs k) := Field.Inside.get_eq hf (h k)
  have hword {k : Nat} (hk : Word.ones &&& bits k = Word.ones) : ws k = xs k := by
    have hagree := h k
    rw [Word.ones_and] at hk
    rwa [hk, Word.AgreeOn, Word.and_ones, Word.and_ones] at hagree
  cases s with
  | expect name expected offset =>
      rw [Step.checks, Step.checks, hword (hreads _ (List.mem_singleton.mpr rfl))]
  | expectField name expected offset f =>
      rw [Step.checks, Step.checks, hfield (hreads _ (List.mem_singleton.mpr rfl))]
  | expectEntryField name expected table i f =>
      rw [Step.checks, Step.checks, hfield (hreads _ (List.mem_singleton.mpr rfl))]
  | expectEntry table i words =>
      have hslice : ws.slice (Step.place layout (.expectEntry table i words)) words.length =
          xs.slice (Step.place layout (.expectEntry table i words)) words.length := by
        rw [Contents.slice, Contents.slice]
        congr 1
        funext j
        exact hword (hreads _ (List.mem_map.mpr ⟨j, List.mem_range.mpr j.isLt, rfl⟩))
      rw [Step.checks, Step.checks, hslice]
  | _ => rfl

theorem agree_after (h : ∀ k, Word.AgreeOn (bits k) (ws k) (xs k)) (k : Nat) :
    Word.AgreeOn (bits k ||| ((s.patch layout k).through (mask k)).bits)
      (s.after layout mask ws k) (s.after layout mask xs k) := by
  have hk := h k
  rw [Word.agreeOn_iff] at hk ⊢
  intro b hb
  rw [Word.bit_or, Bool.or_eq_true] at hb
  rw [Step.after, Step.after, Patch.apply, Patch.apply, Word.bit_merge, Word.bit_merge]
  split
  · rfl
  · next hout => exact hk b (hb.resolve_right hout)

/-- Steps that look at nothing else check the same of contents that agree on the given bits. -/
theorem checksOf_congr {steps : List Step} (hc : Covered layout mask bits steps)
    (h : ∀ k, Word.AgreeOn (bits k) (ws k) (xs k)) :
    checksOf layout mask ws steps = checksOf layout mask xs steps := by
  induction steps generalizing ws xs bits with
  | nil => rfl
  | cons s steps ih =>
      rw [checksOf, checksOf, checks_congr hc.1 h, ih hc.2 (agree_after h)]

/-! ## Runs on contents -/

/-- The step gets to make its accesses, and a window of that size accepts all of them. -/
def Step.Possible (layout : TableKind → TableLayout) (window : Address) : Step → Prop
  | .announce _ => True
  | .write offset _ | .expect _ _ offset =>
      offset.toNat % 4 = 0 ∧ offset.toNat + 4 ≤ window.toNat
  | .writeField offset f _ | .expectField _ _ offset f =>
      offset.toNat % 4 = 0 ∧ offset.toNat + 4 * f.word.toNat + 4 ≤ window.toNat
  | .writeEntry table i words | .expectEntry table i words =>
      (layout table).Usable window i ∧ words.length ≤ (layout table).entryWords.toNat
  | .writeEntryField table i f _ | .expectEntryField _ _ table i f =>
      (layout table).Usable window i ∧ f.word.toNat < (layout table).entryWords.toNat

instance Step.Possible.decidable (layout : TableKind → TableLayout) (window : Address) :
    (s : Step) → Decidable (s.Possible layout window)
  | .announce _ => .isTrue trivial
  | .write .. | .expect .. | .writeField .. | .expectField .. | .writeEntry .. | .expectEntry ..
  | .writeEntryField .. | .expectEntryField .. => inferInstanceAs (Decidable (_ ∧ _))

theorem Step.Possible.mono {window window' : Address} (h : s.Possible layout window)
    (hle : window ≤ window') (hw : window'.toNat % 4 = 0) : s.Possible layout window' := by
  have hnat := UInt64.le_iff_toNat_le.mp hle
  cases s with
  | announce title => trivial
  | write | expect | writeField | expectField => exact ⟨h.1, Nat.le_trans h.2 hnat⟩
  | writeEntry | expectEntry | writeEntryField | expectEntryField => exact ⟨h.1.mono hle hw, h.2⟩

/-- A store of a patched word is the patch, as far as the mask lets it in. -/
theorem store_patch (mask ws : Contents) (k : Nat) (p : Patch) :
    ws.store mask k (p.apply (ws k)) = fun i =>
      ((if i = k then p else .none).through (mask i)).apply (ws i) := by
  funext i
  by_cases hi : i = k
  · rw [hi, if_pos rfl, Contents.store_same]
    exact Word.merge_through ..
  · rw [if_neg hi, Contents.store_other ws mask hi, Patch.through_none, Patch.apply_none]

theorem storeRun_patch (mask ws : Contents) (k : Nat) (words : List Word) :
    ws.storeRun mask k words = fun i =>
      ((if k ≤ i then (words[i - k]?.map fun w => (⟨w, Word.ones⟩ : Patch)).getD .none
        else .none).through (mask i)).apply (ws i) := by
  funext i
  by_cases hle : k ≤ i
  · obtain ⟨j, rfl⟩ := Nat.exists_eq_add_of_le hle
    rw [if_pos hle, Nat.add_sub_cancel_left]
    cases hj : words[j]? with
    | none =>
        rw [Contents.storeRun_outside ws mask
          (.inr (Nat.add_le_add_left (List.getElem?_eq_none_iff.mp hj) k))]
        rw [Option.map_none, Option.getD_none, Patch.through_none, Patch.apply_none]
    | some w =>
        rw [Contents.storeRun_inside ws mask hj]
        simp only [Option.map_some, Option.getD_some, Patch.through, Patch.apply, Word.ones_and]
  · rw [if_neg hle, Contents.storeRun_outside ws mask (.inl (Nat.lt_of_not_le hle)),
      Patch.through_none, Patch.apply_none]

theorem after_of_changes_nil (h : s.changes layout = []) : s.after layout mask ws = ws := by
  funext k
  apply after_other
  rw [h]
  exact List.not_mem_nil

variable {c : Controller}

/-- A step makes its checks and leaves its contents. -/
theorem gives_step (h : s.Possible c.layout c.window) (r : Report) :
    (s.run c r).Gives c.window mask ws ⟨r.checks ++ s.checks c.layout ws⟩
      (s.after c.layout mask ws) := by
  have hnone : (⟨r.checks ++ []⟩ : Report) = r := by rw [List.append_nil]
  cases s with
  | announce title =>
      rw [Step.checks, hnone, after_of_changes_nil rfl]
      exact .note (.done r)
  | write offset value =>
      have hstore : (c.csr.write offset value).Gives c.window mask ws ()
          (ws.store mask (offset.toNat / 4) value) :=
        Registers.gives_write (c.finds_csr h.1 h.2) value
      have hpatch := store_patch mask ws (offset.toNat / 4) ⟨value, Word.ones⟩
      rw [Patch.apply, Word.merge_ones] at hpatch
      rw [hpatch] at hstore
      rw [Step.checks, hnone]
      exact hstore.bind (.done r)
  | writeField offset f value =>
      have hstore : (c.csr.writeField offset f value).Gives c.window mask ws () _ :=
        Registers.gives_writeField (c.findsField_csr h.1 h.2) value
      rw [Step.checks, hnone]
      exact (store_patch mask ws _ ⟨value.up f.low, f.mask⟩ ▸ hstore).bind (.done r)
  | expect name expected offset =>
      rw [after_of_changes_nil rfl]
      exact (Registers.gives_read (c.finds_csr h.1 h.2)).bind (record_ends r _).gives
  | expectField name expected offset f =>
      rw [after_of_changes_nil rfl]
      exact (Registers.gives_readField (c.findsField_csr h.1 h.2)).bind (record_ends r _).gives
  | writeEntry table i words =>
      have hstore : ((c.table table).writeEntry i words).Gives c.window mask ws () _ :=
        Table.gives_writeEntry (t := c.table table) h.1 h.2
      rw [storeRun_patch] at hstore
      rw [Step.checks, hnone]
      exact hstore.bind (.done r)
  | expectEntry table i words =>
      rw [after_of_changes_nil rfl]
      exact (Table.gives_readWords (t := c.table table) h.1 h.2).bind
        (recordWords_ends _ 0 r words _).gives
  | writeEntryField table i f value =>
      have hstore : ((c.table table).writeField i f value).Gives c.window mask ws () _ :=
        Table.gives_writeField (t := c.table table) h.1 h.2 value
      rw [Step.checks, hnone]
      exact (store_patch mask ws _ ⟨value.up f.low, f.mask⟩ ▸ hstore).bind (.done r)
  | expectEntryField name expected table i f =>
      rw [after_of_changes_nil rfl]
      exact (Table.gives_readField (t := c.table table) h.1 h.2).bind (record_ends r _).gives

theorem gives_runSteps {steps : List Step} (h : ∀ s ∈ steps, s.Possible c.layout c.window)
    (r : Report) :
    (runSteps c r steps).Gives c.window mask ws ⟨r.checks ++ checksOf c.layout mask ws steps⟩
      (afterSteps c.layout mask ws steps) := by
  induction steps generalizing r ws with
  | nil =>
      rw [checksOf, List.append_nil]
      exact .done r
  | cons s steps ih =>
      have hfirst : (s.run c r).Gives c.window mask ws ⟨r.checks ++ s.checks c.layout ws⟩
          (s.after c.layout mask ws) := gives_step (h s List.mem_cons_self) r
      have hrest : (runSteps c ⟨r.checks ++ s.checks c.layout ws⟩ steps).Gives c.window mask
          (s.after c.layout mask ws) _ _ :=
        ih (fun x hx => h x (List.mem_cons_of_mem s hx)) ⟨r.checks ++ s.checks c.layout ws⟩
      rw [List.append_assoc] at hrest
      exact hfirst.bind hrest

/-- The whole sequence on contents, if its accesses are accepted. -/
theorem gives_run (h : ∀ s ∈ script, s.Possible c.layout c.window) (l : InterruptLog) :
    (run c l).Gives c.window mask ws
      ⟨checksOf c.layout mask ws script ++ [interruptCheck l]⟩
      (afterSteps c.layout mask ws script) := by
  rw [run_eq]
  exact (gives_runSteps h .empty).bind (closing_ends l _).gives

end Smoke

end I3CHost
