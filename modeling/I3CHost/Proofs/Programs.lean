import I3CHost.Bus
import Mathlib.Data.List.Forall2

/-!
# Properties of bus programs

Two properties of the syntax of a program, each with what it says about every run.

`Within` names the addresses a program may load from and store to, whatever it reads on the way. A
property of the responder's state that no such store breaks survives the run, whether the program
ends with a value or a fault and wherever it stops.

`Alike` compares two programs that see different words: if the words loaded at one address are
related, they go on with the same kind of access at the same address and store related words. Run
against two responders that keep the relation, they fail together with one fault or end with
related values, and their transactions correspond one by one.

`runCalls` runs programs one after the other, each from the state the last one left.
-/
namespace I3CHost

namespace Bus

variable {α β γ δ σ τ ι : Type}

/-! ## Footprints -/

/-- Every load is from an address in `L`, every store to one in `W`. -/
def Within (L W : Address → Prop) : Bus α → Prop
  | done _ | stop _ => True
  | load o next => L o ∧ ∀ w, (next w).Within L W
  | store o _ next => W o ∧ next.Within L W
  | note _ next => next.Within L W

section
variable {L W : Address → Prop}

theorem Within.bind {p : Bus α} {f : α → Bus β} (hp : p.Within L W)
    (hf : ∀ a, (f a).Within L W) : (p.bind f).Within L W := by
  induction p with
  | done a => exact hf a
  | stop e => trivial
  | load o next ih => exact ⟨hp.1, fun w => ih w (hp.2 w)⟩
  | store o v next ih => exact ⟨hp.1, ih hp.2⟩
  | note e next ih => exact ih hp

theorem Within.map {p : Bus α} (hp : p.Within L W) (f : α → β) : (f <$> p).Within L W :=
  hp.bind fun _ => trivial

/-- What comes after a check may rely on the check. -/
theorem within_check {x : Except Fault α} {f : α → Bus β}
    (hf : ∀ a, x = .ok a → (f a).Within L W) : ((ofExcept x).bind f).Within L W := by
  cases x with
  | ok a => exact hf a rfl
  | error e => trivial

theorem within_any (p : Bus α) : p.Within (fun _ => True) fun _ => True := by
  induction p with
  | done => trivial
  | stop => trivial
  | load o next ih => exact ⟨trivial, ih⟩
  | store o v next ih => exact ⟨trivial, ih⟩
  | note e next ih => exact ih

/-- What no load and no store of the program breaks, the program does not break. -/
theorem Within.run_preserves {r : Responder σ} {P : σ → Prop}
    (hload : ∀ o s, L o → P s → P (r.load o s).state)
    (hstore : ∀ o v s, W o → P s → P (r.store o v s).state)
    {p : Bus α} (hp : p.Within L W) {s : σ} (hs : P s) : P (p.run r s).state := by
  induction p generalizing s with
  | done a => exact hs
  | stop e => exact hs
  | load o next ih =>
      have hnext := hload o s hp.1 hs
      simp only [run]
      cases (r.load o s).result with
      | ok w => exact ih w (hp.2 w) hnext
      | error e => exact hnext
  | store o v next ih =>
      have hnext := hstore o v s hp.1 hs
      simp only [run]
      cases (r.store o v s).result with
      | ok u => exact ih hp.2 hnext
      | error e => exact hnext
  | note e next ih => exact ih hp hs

/-- A program without stores returns the same from two states that answer its loads alike. -/
theorem Within.run_result_congr {r : Responder σ} {S : σ → σ → Prop}
    (hload : ∀ o s t, L o → S s t →
      (r.load o s).result = (r.load o t).result ∧ S (r.load o s).state (r.load o t).state)
    {p : Bus α} (hp : p.Within L fun _ => False) {s t : σ} (hs : S s t) :
    (p.run r s).result = (p.run r t).result := by
  induction p generalizing s t with
  | done a => rfl
  | stop e => rfl
  | load o next ih =>
      obtain ⟨hr, hst⟩ := hload o s t hp.1 hs
      simp only [run, hr]
      cases (r.load o t).result with
      | ok w => exact ih w (hp.2 w) hst
      | error e => rfl
  | store o v next ih => exact hp.1.elim
  | note e next ih => exact ih hp hs

end

/-! ## Two programs side by side -/

/-- The same accesses, as long as words loaded at one address are related by `E`. -/
inductive Alike (E : Address → Word → Word → Prop) (R : α → β → Prop) : Bus α → Bus β → Prop
  | done {a : α} {b : β} : R a b → Alike E R (done a) (done b)
  | stop (e : Fault) : Alike E R (stop e) (stop e)
  | load {o : Address} {p : Word → Bus α} {q : Word → Bus β} :
      (∀ w v, E o w v → Alike E R (p w) (q v)) → Alike E R (load o p) (load o q)
  | store {o : Address} {w v : Word} {p : Bus α} {q : Bus β} :
      E o w v → Alike E R p q → Alike E R (store o w p) (store o v q)
  | note {e e' : Event} {p : Bus α} {q : Bus β} :
      Alike E R p q → Alike E R (note e p) (note e' q)

section
variable {E : Address → Word → Word → Prop} {R : α → β → Prop} {S : γ → δ → Prop}

theorem Alike.bind {p : Bus α} {q : Bus β} {f : α → Bus γ} {g : β → Bus δ}
    (h : Alike E R p q) (hf : ∀ a b, R a b → Alike E S (f a) (g b)) :
    Alike E S (p.bind f) (q.bind g) := by
  induction h with
  | done hab => exact hf _ _ hab
  | stop e => exact .stop e
  | load _ ih => exact .load ih
  | store hwv _ ih => exact .store hwv ih
  | note _ ih => exact .note ih

theorem Alike.map {p : Bus α} {q : Bus β} {f : α → γ} {g : β → δ} (h : Alike E R p q)
    (hf : ∀ a b, R a b → S (f a) (g b)) : Alike E S (f <$> p) (g <$> q) :=
  h.bind fun a b hab => .done (hf a b hab)

/-- A check that needs no bus comes out the same on both sides. -/
theorem alike_check {x : Except Fault α} {f : α → Bus γ} {g : α → Bus δ}
    (hf : ∀ a, x = .ok a → Alike E S (f a) (g a)) :
    Alike E S ((ofExcept x).bind f) ((ofExcept x).bind g) := by
  cases x with
  | ok a => exact hf a rfl
  | error e => exact .stop e

end

end Bus

/-- Both values, related, or the same fault. -/
def ResultsAlike {α β : Type} (R : α → β → Prop) : Except Fault α → Except Fault β → Prop
  | .ok a, .ok b => R a b
  | .error e, .error e' => e = e'
  | _, _ => False

/-- The same access with the same fate, and related words. -/
inductive Transaction.Alike (E : Address → Word → Word → Prop) : Transaction → Transaction → Prop
  | loaded {o : Address} {w v : Word} : E o w v → Alike E (.load o (some w)) (.load o (some v))
  | lost (o : Address) : Alike E (.load o none) (.load o none)
  | store {o : Address} {w v : Word} (accepted : Bool) :
      E o w v → Alike E (.store o w accepted) (.store o v accepted)

/-- Two runs that correspond in what they return, in the states they reach and in every access. -/
structure Outcome.Alike {σ τ α β : Type} (E : Address → Word → Word → Prop) (R : α → β → Prop)
    (S : σ → τ → Prop) (x : Outcome σ α) (y : Outcome τ β) : Prop where
  result : ResultsAlike R x.result y.result
  state : S x.state y.state
  transactions : List.Forall₂ (Transaction.Alike E) x.transactions y.transactions

/-- Two responders that accept the same accesses and answer loads with related words, as long as
related words are stored. -/
structure Coupling {σ τ : Type} (E : Address → Word → Word → Prop) (S : σ → τ → Prop)
    (r₁ : Responder σ) (r₂ : Responder τ) : Prop where
  load (o : Address) (s : σ) (t : τ) : S s t →
    ResultsAlike (E o) (r₁.load o s).result (r₂.load o t).result ∧
      S (r₁.load o s).state (r₂.load o t).state
  store (o : Address) (w v : Word) (s : σ) (t : τ) : S s t → E o w v →
    ResultsAlike (fun _ _ => True) (r₁.store o w s).result (r₂.store o v t).result ∧
      S (r₁.store o w s).state (r₂.store o v t).state

namespace Bus

variable {α β σ τ ι : Type} {E : Address → Word → Word → Prop} {R : α → β → Prop}
variable {S : σ → τ → Prop} {r₁ : Responder σ} {r₂ : Responder τ}

theorem Alike.run (c : Coupling E S r₁ r₂) {p : Bus α} {q : Bus β} (h : Alike E R p q) {s : σ}
    {t : τ} (hs : S s t) : Outcome.Alike E R S (p.run r₁ s) (q.run r₂ t) := by
  induction h generalizing s t with
  | done hab => exact ⟨hab, hs, .nil⟩
  | stop e => exact ⟨rfl, hs, .nil⟩
  | @load o p q _ ih =>
      obtain ⟨hr, hst⟩ := c.load o s t hs
      simp only [Bus.run]
      cases hx : (r₁.load o s).result <;> cases hy : (r₂.load o t).result <;>
        rw [hx, hy] at hr
      case ok.ok w v =>
        have hrest := ih w v hr hst
        exact ⟨hrest.result, hrest.state, .cons (.loaded hr) hrest.transactions⟩
      case error.error e e' => exact ⟨hr, hst, .cons (.lost o) .nil⟩
      all_goals exact hr.elim
  | @store o w v p q hwv _ ih =>
      obtain ⟨hr, hst⟩ := c.store o w v s t hs hwv
      simp only [Bus.run]
      cases hx : (r₁.store o w s).result <;> cases hy : (r₂.store o v t).result <;>
        rw [hx, hy] at hr
      case ok.ok _ _ =>
        have hrest := ih hst
        exact ⟨hrest.result, hrest.state, .cons (.store true hwv) hrest.transactions⟩
      case error.error e e' => exact ⟨hr, hst, .cons (.store false hwv) .nil⟩
      all_goals exact hr.elim
  | note _ ih =>
      have hrest := ih hs
      exact ⟨hrest.result, hrest.state, hrest.transactions⟩

/-! ## Calls one after the other -/

/-- Every call with its outcome, each run from the state before it. -/
def runCalls (program : ι → Bus α) (r : Responder σ) : List ι → σ → List (ι × Outcome σ α)
  | [], _ => []
  | c :: cs, s =>
    let o := (program c).run r s
    (c, o) :: runCalls program r cs o.state

/-- The state after all the calls. -/
def stateAfter (program : ι → Bus α) (r : Responder σ) (calls : List ι) (s : σ) : σ :=
  calls.foldl (fun s c => ((program c).run r s).state) s

/-- Calls whose programs are alike give alike outcomes, all along the run. -/
theorem runCalls_alike (c : Coupling E S r₁ r₂) {program : ι → Bus α} {R : ι → α → α → Prop}
    (hp : ∀ i, Alike E (R i) (program i) (program i)) (calls : List ι) {s : σ} {t : τ}
    (hs : S s t) :
    List.Forall₂ (fun x y => x.1 = y.1 ∧ Outcome.Alike E (R x.1) S x.2 y.2)
        (runCalls program r₁ calls s) (runCalls program r₂ calls t) ∧
      S (stateAfter program r₁ calls s) (stateAfter program r₂ calls t) := by
  induction calls generalizing s t with
  | nil => exact ⟨.nil, hs⟩
  | cons i is ih =>
      have hi := (hp i).run c hs
      obtain ⟨hrest, hend⟩ := ih hi.state
      exact ⟨.cons ⟨rfl, hi⟩ hrest, hend⟩

end Bus

end I3CHost
