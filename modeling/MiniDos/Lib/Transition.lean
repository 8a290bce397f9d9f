/-!
# MiniDos.Lib.Transition

Runs of a system whose step is a partial function of the state and an event: an event that cannot
happen in a state has no step there.

* `run_invariant`: what a step keeps, a run keeps. Steps may be asked to meet a condition on the
  state before them and on the event.
* `Throughout`: a property of every state a run passes through.
* `AfterEach`: a property of the states behind the steps of one kind, which are numbered.
* `Along`: a relation between the states on both sides of every step.
-/

namespace MiniDos
namespace Transition

variable {σ ε : Type} (step : σ → ε → Option σ)

/-- The state after the events, in order. -/
def run : σ → List ε → Option σ
  | s, [] => some s
  | s, e :: es => (step s e).bind (fun s' => run s' es)

/-- Every step of the run meets `P`. -/
def Meets (P : σ → ε → Prop) : σ → List ε → Prop
  | _, [] => True
  | s, e :: es => P s e ∧ ∀ s', step s e = some s' → Meets P s' es

/-- `φ` holds in every state of the run, the first and the last included. -/
def Throughout (φ : σ → Prop) : σ → List ε → Prop
  | s, [] => φ s
  | s, e :: es => φ s ∧ ∀ s', step s e = some s' → Throughout φ s' es

/-- `φ i` holds in the state behind the `i`-th event that `kind` names; `k` of them have been. -/
def AfterEach (kind : ε → Bool) (φ : Nat → σ → Prop) : Nat → σ → List ε → Prop
  | _, _, [] => True
  | k, s, e :: es => ∀ s', step s e = some s' →
    if kind e then φ (k + 1) s' ∧ AfterEach kind φ (k + 1) s' es else AfterEach kind φ k s' es

/-- `R` holds of every step of the run. -/
def Along (R : σ → ε → σ → Prop) : σ → List ε → Prop
  | _, [] => True
  | s, e :: es => ∀ s', step s e = some s' → R s e s' ∧ Along R s' es

/-- Whether a given run meets a condition can be computed. -/
instance decidableMeets (P : σ → ε → Prop) [∀ s e, Decidable (P s e)] :
    ∀ (es : List ε) (s : σ), Decidable (Meets step P s es)
  | [], _ => isTrue trivial
  | e :: es, s =>
    match h : step s e with
    | none =>
      decidable_of_iff (P s e)
        ⟨fun hp => ⟨hp, fun _ hs => nomatch h.symm.trans hs⟩, fun hm => hm.1⟩
    | some s₁ =>
      have := decidableMeets P es s₁
      decidable_of_iff (P s e ∧ Meets step P s₁ es)
        ⟨fun hp => ⟨hp.1, fun _ hs => Option.some.inj (h.symm.trans hs) ▸ hp.2⟩,
          fun hm => ⟨hm.1, hm.2 s₁ h⟩⟩

instance decidableThroughout (φ : σ → Prop) [∀ s, Decidable (φ s)] :
    ∀ (es : List ε) (s : σ), Decidable (Throughout step φ s es)
  | [], s => inferInstanceAs (Decidable (φ s))
  | e :: es, s =>
    match h : step s e with
    | none =>
      decidable_of_iff (φ s)
        ⟨fun hp => ⟨hp, fun _ hs => nomatch h.symm.trans hs⟩, fun hm => hm.1⟩
    | some s₁ =>
      have := decidableThroughout φ es s₁
      decidable_of_iff (φ s ∧ Throughout step φ s₁ es)
        ⟨fun hp => ⟨hp.1, fun _ hs => Option.some.inj (h.symm.trans hs) ▸ hp.2⟩,
          fun hm => ⟨hm.1, hm.2 s₁ h⟩⟩

variable {step}

theorem run_cons {s s' : σ} {e : ε} {es : List ε} :
    run step s (e :: es) = some s' ↔ ∃ s₁, step s e = some s₁ ∧ run step s₁ es = some s' := by
  simp only [run, Option.bind_eq_some_iff]

theorem Throughout.first {φ : σ → Prop} {s : σ} {es : List ε} (h : Throughout step φ s es) : φ s := by
  cases es with
  | nil => exact h
  | cons e es => exact h.1

theorem run_append {s s' : σ} {es es' : List ε} :
    run step s (es ++ es') = some s' ↔ ∃ s₁, run step s es = some s₁ ∧ run step s₁ es' = some s' := by
  induction es generalizing s with
  | nil => simp [run]
  | cons e es ih =>
    simp only [List.cons_append, run_cons, ih]
    constructor
    · rintro ⟨s₁, h₁, s₂, h₂, h₃⟩
      exact ⟨s₂, ⟨s₁, h₁, h₂⟩, h₃⟩
    · rintro ⟨s₂, ⟨s₁, h₁, h₂⟩, h₃⟩
      exact ⟨s₁, h₁, s₂, h₂, h₃⟩

theorem run_invariant {Inv : σ → Prop} {P : σ → ε → Prop}
    (hstep : ∀ s e s', Inv s → P s e → step s e = some s' → Inv s') :
    ∀ (es : List ε) (s s' : σ), Inv s → Meets step P s es → run step s es = some s' → Inv s' := by
  intro es
  induction es with
  | nil =>
    intro s s' hs _ hrun
    cases hrun
    exact hs
  | cons e es ih =>
    intro s s' hs hmeets hrun
    obtain ⟨s₁, h₁, hrun⟩ := run_cons.mp hrun
    exact ih s₁ s' (hstep s e s₁ hs hmeets.1 h₁) (hmeets.2 s₁ h₁) hrun

theorem meets_of_invariant {Inv : σ → Prop} {P Q : σ → ε → Prop}
    (hstep : ∀ s e s', Inv s → P s e → step s e = some s' → Inv s')
    (hhas : ∀ s e, Inv s → P s e → Q s e) :
    ∀ (es : List ε) (s : σ), Inv s → Meets step P s es → Meets step Q s es := by
  intro es
  induction es with
  | nil => exact fun _ _ _ => trivial
  | cons e es ih =>
    intro s hs hmeets
    exact ⟨hhas s e hs hmeets.1,
      fun s' hs' => ih s' (hstep s e s' hs hmeets.1 hs') (hmeets.2 s' hs')⟩

theorem along_of_step {R : σ → ε → σ → Prop} (h : ∀ s e s', step s e = some s' → R s e s') :
    ∀ (es : List ε) (s : σ), Along step R s es := by
  intro es
  induction es with
  | nil => exact fun _ => trivial
  | cons e es ih => exact fun s s' hstep => ⟨h s e s' hstep, ih s'⟩

theorem run_invariant_all {Inv : σ → Prop} (hstep : ∀ s e s', Inv s → step s e = some s' → Inv s') :
    ∀ (es : List ε) (s s' : σ), Inv s → run step s es = some s' → Inv s' := by
  intro es
  induction es with
  | nil =>
    intro s s' hs hrun
    cases hrun
    exact hs
  | cons e es ih =>
    intro s s' hs hrun
    obtain ⟨s₁, h₁, hrun⟩ := run_cons.mp hrun
    exact ih s₁ s' (hstep s e s₁ hs h₁) hrun

end Transition
end MiniDos
