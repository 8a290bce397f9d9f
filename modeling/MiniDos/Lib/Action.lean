/-!
# MiniDos.Lib.Action

Computations that read and change a state, and may not come back.

* `Action.wp`: what must hold of the state before for `Q` to hold of the result and the state after,
  should the computation come back.
-/

namespace MiniDos

/-- `none`: it does not come back. -/
def Action (σ α : Type) : Type := σ → Option (α × σ)

namespace Action

variable {σ α β : Type}

instance : Monad (Action σ) where
  pure a := fun s => some (a, s)
  bind p f := fun s => (p s).bind (fun r => f r.1 r.2)

def get : Action σ σ := fun s => some (s, s)

def modify (f : σ → σ) : Action σ Unit := fun s => some ((), f s)

def diverge : Action σ α := fun _ => none

/-- An action on the first half of a state. -/
def onFst {τ : Type} (p : Action σ α) : Action (σ × τ) α :=
  fun s => (p s.1).map (fun r => (r.1, r.2, s.2))

/-! ## Laws -/

theorem ret_bind (a : α) (f : α → Action σ β) : pure a >>= f = f a := rfl

theorem bind_bind {γ : Type} (p : Action σ α) (f : α → Action σ β) (g : β → Action σ γ) :
    p >>= f >>= g = p >>= fun a => f a >>= g := by
  funext s
  exact Option.bind_assoc (p s) _ _

theorem ite_bind {c : Prop} [Decidable c] (p q : Action σ α) (f : α → Action σ β) :
    (if c then p else q) >>= f = if c then p >>= f else q >>= f := by
  split <;> rfl

section Halves

variable {τ : Type}

@[simp] theorem onFst_pure (a : α) : (pure a : Action σ α).onFst = (pure a : Action (σ × τ) α) := rfl

@[simp] theorem onFst_bind (p : Action σ α) (f : α → Action σ β) :
    (p >>= f).onFst = (p.onFst >>= fun a => (f a).onFst : Action (σ × τ) β) := by
  funext s
  show ((p s.1).bind (fun r => f r.1 r.2)).map _ = ((p s.1).map _).bind _
  cases p s.1 <;> rfl

@[simp] theorem onFst_ite {c : Prop} [Decidable c] (p q : Action σ α) :
    (if c then p else q).onFst = (if c then p.onFst else q.onFst : Action (σ × τ) α) := by
  split <;> rfl

end Halves

/-! ## Weakest preconditions -/

def wp (p : Action σ α) (Q : α → σ → Prop) (s : σ) : Prop := ∀ a s', p s = some (a, s') → Q a s'

variable {Q : α → σ → Prop} {s : σ}

@[simp] theorem wp_pure (a : α) : (pure a : Action σ α).wp Q s ↔ Q a s := by
  constructor
  · exact fun h => h a s rfl
  · rintro h _ _ ⟨⟩
    exact h

@[simp] theorem wp_bind (p : Action σ α) (f : α → Action σ β) {Q : β → σ → Prop} :
    (p >>= f).wp Q s ↔ p.wp (fun a s' => (f a).wp Q s') s := by
  constructor
  · intro h a s₁ h₁ b s₂ h₂
    exact h b s₂ (Option.bind_eq_some_iff.mpr ⟨(a, s₁), h₁, h₂⟩)
  · intro h b s₂ hrun
    obtain ⟨⟨a, s₁⟩, h₁, h₂⟩ := Option.bind_eq_some_iff.mp hrun
    exact h a s₁ h₁ b s₂ h₂

@[simp] theorem wp_get {Q : σ → σ → Prop} : (get : Action σ σ).wp Q s ↔ Q s s := by
  constructor
  · exact fun h => h s s rfl
  · rintro h _ _ ⟨⟩
    exact h

@[simp] theorem wp_modify (f : σ → σ) {Q : Unit → σ → Prop} :
    (modify f).wp Q s ↔ Q () (f s) := by
  constructor
  · exact fun h => h () (f s) rfl
  · rintro h _ _ ⟨⟩
    exact h

@[simp] theorem wp_diverge : (diverge : Action σ α).wp Q s ↔ True := by
  refine ⟨fun _ => trivial, fun _ a s' hrun => ?_⟩
  cases hrun

@[simp] theorem wp_onFst {τ : Type} (p : Action σ α) {Q : α → σ × τ → Prop} {s : σ × τ} :
    (p.onFst).wp Q s ↔ p.wp (fun a s₁ => Q a (s₁, s.2)) s.1 := by
  constructor
  · intro h a s₁ hrun
    exact h a (s₁, s.2) (Option.map_eq_some_iff.mpr ⟨(a, s₁), hrun, rfl⟩)
  · intro h a s' hrun
    obtain ⟨⟨a₁, s₁⟩, hfst, heq⟩ := Option.map_eq_some_iff.mp hrun
    cases heq
    exact h a₁ s₁ hfst

theorem wp_mono {p : Action σ α} {Q' : α → σ → Prop} (h : p.wp Q s)
    (hQ : ∀ a s', Q a s' → Q' a s') : p.wp Q' s :=
  fun a s' hrun => hQ a s' (h a s' hrun)

theorem wp_and {p : Action σ α} {Q' : α → σ → Prop} (h : p.wp Q s) (h' : p.wp Q' s) :
    p.wp (fun a s' => Q a s' ∧ Q' a s') s :=
  fun a s' hrun => ⟨h a s' hrun, h' a s' hrun⟩

theorem wp_ite {c : Prop} [Decidable c] {p q : Action σ α} (hp : c → p.wp Q s)
    (hq : ¬ c → q.wp Q s) : (if c then p else q).wp Q s := by
  by_cases h : c
  · simpa [h] using hp h
  · simpa [h] using hq h

end Action
end MiniDos
