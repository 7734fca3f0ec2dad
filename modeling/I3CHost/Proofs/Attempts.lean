import I3CHost.Proofs.Courses
import Mathlib.Data.Set.List

/-!
# Attempted visits

A course lists the visits of a program that has no fault of its own left. A program that computes
an address just before it uses it may still find that there is none. Its attempts are its visits
with such faults in their places: a fault ends the program, so what stands behind one is never made.
A course is a list of attempts without faults.

A program fails with a fault among its attempts or with one that the responder answered. Over a
screened window it returns a value exactly if every attempt is a visit that passes the check.
-/
namespace I3CHost

namespace Bus

variable {α β σ ι : Type} {as bs : List (Except Fault Visit)} {vs : List Visit}

/-- The program makes these attempts in this order, up to the first fault. -/
inductive Attempts : List (Except Fault Visit) → Bus α → Prop
  | done (a : α) : Attempts [] (done a)
  | stop (e : Fault) (as : List (Except Fault Visit)) : Attempts (.error e :: as) (stop e)
  | load {o : Address} {as : List (Except Fault Visit)} {next : Word → Bus α} :
      (∀ w, Attempts as (next w)) → Attempts (.ok (.load o) :: as) (load o next)
  | store {o : Address} {v : Word} {as : List (Except Fault Visit)} {next : Bus α} :
      Attempts as next → Attempts (.ok (.store o) :: as) (store o v next)
  | note {e : Event} {as : List (Except Fault Visit)} {next : Bus α} :
      Attempts as next → Attempts as (note e next)

theorem Attempts.bind {p : Bus α} {f : α → Bus β} (hp : p.Attempts as)
    (hf : ∀ a, (f a).Attempts bs) : (p.bind f).Attempts (as ++ bs) := by
  induction hp with
  | done a => exact hf a
  | stop e as => exact .stop e _
  | load _ ih => exact .load ih
  | store _ ih => exact .store ih
  | note _ ih => exact .note ih

theorem Attempts.map {p : Bus α} (hp : p.Attempts as) (f : α → β) : (f <$> p).Attempts as := by
  have h := hp.bind fun a => Attempts.done (f a)
  rwa [List.append_nil] at h

/-- An address that is looked for and then visited once or more. -/
theorem attempts_check {x : Except Fault ι} {f : ι → Bus α} (visit : ι → Visit)
    (visits : List (ι → Visit))
    (hf : ∀ a, (f a).Attempts ((visit :: visits).map fun m => .ok (m a))) :
    ((ofExcept x).bind f).Attempts ((visit :: visits).map fun m => x.map m) := by
  cases x with
  | ok a => exact hf a
  | error e => exact .stop e _

theorem Attempts.follows {p : Bus α} (hp : p.Attempts (vs.map .ok)) : p.Follows vs := by
  generalize has : vs.map Except.ok = as at hp
  induction hp generalizing vs with
  | done a =>
      rw [List.map_eq_nil_iff.mp has]
      exact .done a
  | stop e as =>
      obtain ⟨v, us, -, hv, -⟩ := List.map_eq_cons_iff.mp has
      cases hv
  | load _ ih =>
      obtain ⟨v, us, rfl, hv, hus⟩ := List.map_eq_cons_iff.mp has
      cases hv
      exact .load fun w => ih w hus
  | store _ ih =>
      obtain ⟨v, us, rfl, hv, hus⟩ := List.map_eq_cons_iff.mp has
      cases hv
      exact .store (ih hus)
  | note _ ih => exact .note (ih has)

/-- Attempts at addresses that exist are a course. -/
theorem Attempts.follows_range {p : Bus α} {n : Nat} {x : Nat → Except Fault Address}
    {place : Nat → Address} {visit : Address → Visit}
    (hp : p.Attempts ((List.range n).map fun k => (x k).map visit))
    (hx : ∀ k < n, x k = .ok (place k)) :
    p.Follows ((List.range n).map fun k => visit (place k)) := by
  apply Attempts.follows
  rw [List.map_map]
  have hsame : (List.range n).map (fun k => (x k).map visit) =
      (List.range n).map (Except.ok ∘ fun k => visit (place k)) := by
    apply List.map_congr_left
    intro k hk
    rw [hx k (List.mem_range.mp hk)]
    rfl
  rwa [hsame] at hp

theorem Attempts.exists_follows {p : Bus α} (hp : p.Attempts as)
    (h : ∀ x ∈ as, ∃ v, x = .ok v) : ∃ vs, as = vs.map .ok ∧ p.Follows vs := by
  have hall : as ∈ Set.range (List.map (Except.ok : Visit → Except Fault Visit)) := by
    rw [Set.range_list_map]
    intro x hx
    obtain ⟨v, rfl⟩ := h x hx
    exact ⟨v, rfl⟩
  obtain ⟨vs, rfl⟩ := hall
  exact ⟨vs, rfl, hp.follows⟩

/-- One check after another, then the rest with the value of the first. -/
theorem check_check {x : Except Fault ι} {y : Except Fault Unit} {f : ι → Bus α} :
    ((ofExcept x).bind fun a => (ofExcept y).bind fun _ => f a) =
      (ofExcept (do let a ← x; y; return a)).bind f := by
  cases x with
  | ok a => cases y <;> rfl
  | error e => rfl

end Bus

/-! ## Runs -/

/-- Some access is answered with this fault. -/
def Responder.Answers {σ : Type} (r : Responder σ) (e : Fault) : Prop :=
  (∃ o s, (r.load o s).result = .error e) ∨ ∃ o v s, (r.store o v s).result = .error e

namespace Bus

variable {α σ : Type} {as : List (Except Fault Visit)}

theorem Attempts.cases_of_run_eq_error {p : Bus α} (hp : p.Attempts as) {r : Responder σ} {s : σ}
    {e : Fault} (h : (p.run r s).result = .error e) : .error e ∈ as ∨ r.Answers e := by
  induction hp generalizing s with
  | done a => cases h
  | stop e' as =>
      cases h
      exact .inl List.mem_cons_self
  | @load o as next _ ih =>
      cases hl : (r.load o s).result with
      | ok w =>
          rw [run_load_ok hl] at h
          exact (ih w h).imp_left (List.mem_cons_of_mem _)
      | error e' =>
          rw [run_load_error hl] at h
          cases h
          exact .inr (.inl ⟨o, s, hl⟩)
  | @store o v as next _ ih =>
      cases hs : (r.store o v s).result with
      | ok u =>
          rw [run_store_ok hs] at h
          exact (ih h).imp_left (List.mem_cons_of_mem _)
      | error e' =>
          rw [run_store_error hs] at h
          cases h
          exact .inr (.inr ⟨o, v, s, hs⟩)
  | note _ ih => exact ih h

end Bus

namespace Screened

variable {α σ : Type} {r : Responder σ} {size : σ → Address} {as : List (Except Fault Visit)}

/-- A program returns a value exactly if all its attempts are visits that pass the check. -/
theorem run_eq_ok_iff (hr : Screened r size) {p : Bus α} (hp : p.Attempts as) (s : σ) :
    (∃ a, (p.run r s).result = .ok a) ↔
      ∀ x ∈ as, ∃ v, x = .ok v ∧ checkAccess v.address (size s) = .ok () := by
  induction hp generalizing s with
  | done a =>
      constructor
      · intro _ x hx
        cases hx
      · intro _
        exact ⟨a, rfl⟩
  | stop e as =>
      constructor
      · rintro ⟨a, ha⟩
        cases ha
      · intro h
        obtain ⟨v, hv, -⟩ := h _ List.mem_cons_self
        cases hv
  | @load o as next _ ih =>
      rw [List.forall_mem_cons]
      rcases hr.load_cases o s with ⟨w, hl, hc⟩ | ⟨e, hl, hc⟩
      · have hrest := ih w (r.load o s).state
        rw [hr.size_load] at hrest
        rw [Bus.run_load_ok hl]
        exact hrest.trans ⟨fun h => ⟨⟨_, rfl, hc⟩, h⟩, And.right⟩
      · rw [Bus.run_load_error hl]
        constructor
        · rintro ⟨a, ha⟩
          cases ha
        · rintro ⟨⟨v, hv, hcheck⟩, -⟩
          cases hv
          cases hc.symm.trans hcheck
  | @store o v as next _ ih =>
      have hs := hr.store o v s
      rw [List.forall_mem_cons]
      cases hc : checkAccess o (size s) with
      | ok u =>
          have hrest := ih (r.store o v s).state
          rw [hr.size_store] at hrest
          rw [hc] at hs
          rw [Bus.run_store_ok hs]
          exact hrest.trans ⟨fun h => ⟨⟨_, rfl, hc⟩, h⟩, And.right⟩
      | error e =>
          rw [hc] at hs
          rw [Bus.run_store_error hs]
          constructor
          · rintro ⟨a, ha⟩
            cases ha
          · rintro ⟨⟨v', hv, hcheck⟩, -⟩
            cases hv
            cases hc.symm.trans hcheck
  | note _ ih => exact ih s

end Screened

end I3CHost
