import I3CHost.Bus

/-!
# Programs with a fixed course

Most requests know their accesses before the first of them: the words they read go into a value and
never into an address. The course of such a program is the list of its visits. A program that
follows a course has no fault of its own left, so the responder alone decides how it ends.

A window is screened if it judges an access by the offset and its size, as `checkAccess` does, and
keeps its size. Over a screened window a program ends as the checks of its visits do, one after the
other: with a value if all of them pass, else with the fault of the first that does not.
-/
namespace I3CHost

/-- One access to come, without the word it moves. -/
inductive Visit where
  | load (a : Address)
  | store (a : Address)
deriving DecidableEq, Repr

def Visit.address : Visit → Address
  | load a | store a => a

/-! ## Runs by their first access -/

namespace Bus

variable {α β σ : Type} {vs us : List Visit}

section
variable {r : Responder σ} {o : Address} {v w : Word} {next : Word → Bus α} {rest : Bus α} {s : σ}
variable {e : Fault}

theorem run_load_ok (h : (r.load o s).result = .ok w) :
    (load o next).run r s =
      ((next w).run r (r.load o s).state).after (.load o (some w)) (r.load o s).events := by
  simp only [run, h]

theorem run_load_error (h : (r.load o s).result = .error e) :
    (load o next).run r s =
      ⟨.error e, (r.load o s).state, [.load o none], (r.load o s).events⟩ := by
  simp only [run, h]

theorem run_store_ok (h : (r.store o v s).result = .ok ()) :
    (store o v rest).run r s =
      (rest.run r (r.store o v s).state).after (.store o v true) (r.store o v s).events := by
  simp only [run, h]

theorem run_store_error (h : (r.store o v s).result = .error e) :
    (store o v rest).run r s =
      ⟨.error e, (r.store o v s).state, [.store o v false], (r.store o v s).events⟩ := by
  simp only [run, h]

end

/-! ## Runs in two parts -/

/-- A program in two parts returns what its second part does from the state the first has left. -/
theorem run_bind_eq_ok {r : Responder σ} {p : Bus α} {f : α → Bus β} {s : σ} {b : β}
    (h : ((p.bind f).run r s).result = .ok b) :
    ∃ a, (p.run r s).result = .ok a ∧ ((f a).run r (p.run r s).state).result = .ok b := by
  rw [run_bind, Outcome.andThen] at h
  cases hp : (p.run r s).result with
  | ok a =>
      rw [hp] at h
      exact ⟨a, rfl, h⟩
  | error e =>
      rw [hp] at h
      cases h

theorem run_bind_of_ok {r : Responder σ} {p : Bus α} {f : α → Bus β} {s : σ} {a : α}
    (h : (p.run r s).result = .ok a) :
    ((p.bind f).run r s).result = ((f a).run r (p.run r s).state).result ∧
      ((p.bind f).run r s).state = ((f a).run r (p.run r s).state).state := by
  rw [run_bind, Outcome.andThen, h]
  exact ⟨rfl, rfl⟩

/-- A run whose value is changed in the end. -/
theorem run_map (r : Responder σ) (p : Bus α) (f : α → β) (s : σ) :
    let o := p.run r s
    (p.bind fun a => .done (f a)).run r s = ⟨o.result.map f, o.state, o.transactions, o.events⟩ := by
  intro o
  rw [run_bind, Outcome.andThen]
  cases o.result with
  | ok a =>
      simp only [run_done, List.append_nil]
      rfl
  | error e => rfl

/-! ## Fixed courses -/

/-- The program makes these visits in this order, whatever it reads. -/
inductive Follows : List Visit → Bus α → Prop
  | done (a : α) : Follows [] (done a)
  | load {o : Address} {vs : List Visit} {next : Word → Bus α} :
      (∀ w, Follows vs (next w)) → Follows (.load o :: vs) (load o next)
  | store {o : Address} {v : Word} {vs : List Visit} {next : Bus α} :
      Follows vs next → Follows (.store o :: vs) (store o v next)
  | note {e : Event} {vs : List Visit} {next : Bus α} : Follows vs next → Follows vs (note e next)

theorem Follows.bind {p : Bus α} {f : α → Bus β} (hp : p.Follows vs)
    (hf : ∀ a, (f a).Follows us) : (p.bind f).Follows (vs ++ us) := by
  induction hp with
  | done a => exact hf a
  | load _ ih => exact .load ih
  | store _ ih => exact .store ih
  | note _ ih => exact .note ih

theorem Follows.map {p : Bus α} (hp : p.Follows vs) (f : α → β) : (f <$> p).Follows vs := by
  have h := hp.bind fun a => Follows.done (f a)
  rwa [List.append_nil] at h

/-- A check that passes leaves the course of what comes after it. -/
theorem follows_check {x : Except Fault α} {a : α} {f : α → Bus β} (hx : x = .ok a)
    (hf : (f a).Follows vs) : ((ofExcept x).bind f).Follows vs := by
  rw [hx]
  exact hf

end Bus

/-! ## Screened windows -/

/-- A window that accepts and refuses accesses exactly as `checkAccess` says for its size. -/
structure Screened {σ : Type} (r : Responder σ) (size : σ → Address) : Prop where
  load (o : Address) (s : σ) : (r.load o s).result.map (fun _ => ()) = checkAccess o (size s)
  store (o : Address) (v : Word) (s : σ) : (r.store o v s).result = checkAccess o (size s)
  size_load (o : Address) (s : σ) : size (r.load o s).state = size s
  size_store (o : Address) (v : Word) (s : σ) : size (r.store o v s).state = size s

/-- The first fault among the checks of some visits. -/
def checkVisits (limit : Address) : List Visit → Except Fault Unit
  | [] => .ok ()
  | v :: vs =>
    match checkAccess v.address limit with
    | .ok _ => checkVisits limit vs
    | .error e => .error e

theorem checkVisits_eq_ok {limit : Address} {vs : List Visit}
    (h : ∀ v ∈ vs, checkAccess v.address limit = .ok ()) : checkVisits limit vs = .ok () := by
  induction vs with
  | nil => rfl
  | cons v vs ih =>
      have hv := h v List.mem_cons_self
      have hvs := ih fun u hu => h u (List.mem_cons_of_mem v hu)
      simp only [checkVisits, hv, hvs]

theorem exists_of_checkVisits_eq_error {limit : Address} {vs : List Visit} {e : Fault}
    (h : checkVisits limit vs = .error e) : ∃ v ∈ vs, checkAccess v.address limit = .error e := by
  induction vs with
  | nil => cases h
  | cons v vs ih =>
      unfold checkVisits at h
      cases hv : checkAccess v.address limit with
      | error e' =>
          simp only [hv, Except.error.injEq] at h
          exact ⟨v, List.mem_cons_self, by rw [hv, h]⟩
      | ok u =>
          simp only [hv] at h
          obtain ⟨u, hu, he⟩ := ih h
          exact ⟨u, List.mem_cons_of_mem v hu, he⟩

namespace Screened

variable {α σ : Type} {r : Responder σ} {size : σ → Address}

/-- What a load of a screened window returns, by the check of its offset. -/
theorem load_cases (hr : Screened r size) (o : Address) (s : σ) :
    (∃ w, (r.load o s).result = .ok w ∧ checkAccess o (size s) = .ok ()) ∨
      ∃ e, (r.load o s).result = .error e ∧ checkAccess o (size s) = .error e := by
  have h := hr.load o s
  cases hl : (r.load o s).result with
  | ok w => exact .inl ⟨w, rfl, by rw [← h, hl]; rfl⟩
  | error e => exact .inr ⟨e, rfl, by rw [← h, hl]; rfl⟩

theorem size_run (hr : Screened r size) (p : Bus α) (s : σ) : size (p.run r s).state = size s := by
  induction p generalizing s with
  | done a => rfl
  | stop e => rfl
  | load o next ih =>
      have hsize := hr.size_load o s
      cases h : (r.load o s).result with
      | ok w =>
          rw [Bus.run_load_ok h]
          exact (ih w _).trans hsize
      | error e =>
          rw [Bus.run_load_error h]
          exact hsize
  | store o v next ih =>
      have hsize := hr.size_store o v s
      cases h : (r.store o v s).result with
      | ok u =>
          rw [Bus.run_store_ok h]
          exact (ih _).trans hsize
      | error e =>
          rw [Bus.run_store_error h]
          exact hsize
  | note e next ih => exact ih s

/-- A program ends as the checks of its visits do. -/
theorem result_run (hr : Screened r size) {p : Bus α} {vs : List Visit} (hp : p.Follows vs)
    (s : σ) : (p.run r s).result.map (fun _ => ()) = checkVisits (size s) vs := by
  induction hp generalizing s with
  | done a => rfl
  | @load o vs next _ ih =>
      unfold checkVisits
      rcases hr.load_cases o s with ⟨w, hl, hc⟩ | ⟨e, hl, hc⟩
      · have hrest := ih w (r.load o s).state
        rw [hr.size_load] at hrest
        rw [Bus.run_load_ok hl]
        simp only [Visit.address, hc]
        exact hrest
      · rw [Bus.run_load_error hl]
        simp only [Visit.address, hc]
        rfl
  | @store o v vs next _ ih =>
      have hs := hr.store o v s
      unfold checkVisits
      cases hc : checkAccess o (size s) with
      | ok u =>
          have hrest := ih (r.store o v s).state
          rw [hr.size_store] at hrest
          rw [hc] at hs
          rw [Bus.run_store_ok hs]
          simp only [Visit.address, hc]
          exact hrest
      | error e =>
          rw [hc] at hs
          rw [Bus.run_store_error hs]
          simp only [Visit.address, hc]
          rfl
  | note _ ih => exact ih s

/-- A program whose every visit passes the check returns a value. -/
theorem run_eq_ok (hr : Screened r size) {p : Bus α} {vs : List Visit} (hp : p.Follows vs) {s : σ}
    (h : ∀ v ∈ vs, checkAccess v.address (size s) = .ok ()) :
    ∃ a, (p.run r s).result = .ok a := by
  have hresult := hr.result_run hp s
  rw [checkVisits_eq_ok h] at hresult
  cases ha : (p.run r s).result with
  | ok a => exact ⟨a, rfl⟩
  | error e =>
      rw [ha] at hresult
      cases hresult

/-- A program fails only with the fault of a visit of its course. -/
theorem exists_of_run_eq_error (hr : Screened r size) {p : Bus α} {vs : List Visit}
    (hp : p.Follows vs) {s : σ} {e : Fault} (h : (p.run r s).result = .error e) :
    ∃ v ∈ vs, checkAccess v.address (size s) = .error e := by
  have hresult := hr.result_run hp s
  rw [h] at hresult
  exact exists_of_checkVisits_eq_error hresult.symm

/-- A program whose first visit is refused fails with that fault. -/
theorem run_eq_error (hr : Screened r size) {p : Bus α} {v : Visit} {vs : List Visit}
    (hp : p.Follows (v :: vs)) {s : σ} {e : Fault}
    (h : checkAccess v.address (size s) = .error e) : (p.run r s).result = .error e := by
  have hresult := hr.result_run hp s
  unfold checkVisits at hresult
  simp only [h] at hresult
  cases ha : (p.run r s).result with
  | ok a =>
      rw [ha] at hresult
      cases hresult
  | error e' =>
      rw [ha] at hresult
      cases hresult
      rfl

end Screened

end I3CHost
