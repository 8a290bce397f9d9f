import MiniDos.Lib.Transition
import Mathlib.Data.List.Basic

/-!
# MiniDos.Lib.Undo

A document with one version behind it and one ahead of it.

* `Versions.apply`: an edit keeps the version before it; undo and redo trade places with the kept one.
* `Versions.Faithful`: the kept version is that before the last change, if no edit leaves the document
  as it was.
* `lastBefore`: that version, read off from a run of any system.
-/

namespace MiniDos
namespace Undo

open Transition

variable {α : Type}

structure Versions (α : Type) where
  cur : α
  back : α
  ahead : α
  canUndo : Bool
  canRedo : Bool

inductive Move (α : Type) where
  | idle
  | edit (x : α)
  | undo
  | redo

def Versions.apply (v : Versions α) : Move α → Versions α
  | .idle => v
  | .edit x => { v with cur := x, back := v.cur, canUndo := true, canRedo := false }
  | .undo =>
    if v.canUndo then { v with cur := v.back, ahead := v.cur, canUndo := false, canRedo := true } else v
  | .redo =>
    if v.canRedo then { v with cur := v.ahead, back := v.cur, canUndo := true, canRedo := false } else v

def Versions.restores (v : Versions α) : Option α := if v.canUndo then some v.back else none

def Versions.Effective (v : Versions α) (m : Move α) : Prop := ∀ x, m = .edit x → x ≠ v.cur

section Moves

variable {v : Versions α} {m : Move α}

@[simp] theorem apply_idle (v : Versions α) : v.apply .idle = v := rfl

theorem apply_undo (h : v.canUndo = true) : v.apply .undo =
    { v with cur := v.back, ahead := v.cur, canUndo := false, canRedo := true } := if_pos h

theorem apply_redo (h : v.canRedo = true) : v.apply .redo =
    { v with cur := v.ahead, back := v.cur, canUndo := true, canRedo := false } := if_pos h

/-- The versions that can be brought back are others than the one shown. -/
structure Versions.Apart (v : Versions α) : Prop where
  back : v.canUndo = true → v.back ≠ v.cur
  ahead : v.canRedo = true → v.ahead ≠ v.cur

theorem Versions.Apart.apply (h : v.Apart) (hm : v.Effective m) : (v.apply m).Apart := by
  cases m with
  | idle => exact h
  | edit x => exact ⟨fun _ => (hm x rfl).symm, fun hredo => absurd hredo Bool.false_ne_true⟩
  | undo =>
    cases hcan : v.canUndo with
    | false => simpa only [Versions.apply, hcan, Bool.false_eq_true, if_false] using h
    | true =>
      rw [apply_undo hcan]
      exact ⟨fun hundo => absurd hundo Bool.false_ne_true, fun _ => (h.back hcan).symm⟩
  | redo =>
    cases hcan : v.canRedo with
    | false => simpa only [Versions.apply, hcan, Bool.false_eq_true, if_false] using h
    | true =>
      rw [apply_redo hcan]
      exact ⟨fun _ => (h.ahead hcan).symm, fun hredo => absurd hredo Bool.false_ne_true⟩

theorem Versions.Apart.apply_of_cur (h : v.Apart) (hm : v.Effective m) (hcur : (v.apply m).cur = v.cur) :
    v.apply m = v := by
  cases m with
  | idle => rfl
  | edit x => exact absurd hcur (hm x rfl)
  | undo =>
    cases hcan : v.canUndo with
    | false => simp only [Versions.apply, hcan, Bool.false_eq_true, if_false]
    | true =>
      rw [apply_undo hcan] at hcur
      exact absurd hcur (h.back hcan)
  | redo =>
    cases hcan : v.canRedo with
    | false => simp only [Versions.apply, hcan, Bool.false_eq_true, if_false]
    | true =>
      rw [apply_redo hcan] at hcur
      exact absurd hcur (h.ahead hcan)

/-- `before` is the version before the last change that was not an undo. -/
structure Versions.Faithful (v : Versions α) (before : Option α) : Prop extends v.Apart where
  before : v.canUndo = true → before = some v.back

theorem Versions.Faithful.apply {before before' : Option α} (h : v.Faithful before) (hm : v.Effective m)
    (hchange : (v.apply m).cur ≠ v.cur → m ≠ .undo → before' = some v.cur)
    (hkeep : (v.apply m).cur = v.cur ∨ m = .undo → before' = before) : (v.apply m).Faithful before' := by
  refine ⟨h.toApart.apply hm, fun hcan => ?_⟩
  by_cases hcur : (v.apply m).cur = v.cur
  · rw [hkeep (.inl hcur)]
    rw [h.toApart.apply_of_cur hm hcur] at hcan ⊢
    exact h.before hcan
  · cases m with
    | idle => exact absurd rfl hcur
    | edit x => exact hchange hcur (by rintro ⟨⟩)
    | undo =>
      cases hundo : v.canUndo with
      | false =>
        simp only [Versions.apply, hundo, Bool.false_eq_true, if_false,
          not_true_eq_false] at hcur
      | true =>
        rw [apply_undo hundo] at hcan
        exact absurd hcan Bool.false_ne_true
    | redo =>
      cases hredo : v.canRedo with
      | false =>
        simp only [Versions.apply, hredo, Bool.false_eq_true, if_false,
          not_true_eq_false] at hcur
      | true =>
        have hbefore := hchange hcur (by rintro ⟨⟩)
        rw [apply_redo hredo]
        exact hbefore

end Moves

/-! ## Runs -/

section Runs

variable {σ ε : Type} (step : σ → ε → Option σ) (doc : σ → α) (undoes : σ → ε → Prop)

open Classical in
/-- The document before the last step of the run that changed it and was not an undo. -/
noncomputable def lastBefore : Option α → σ → List ε → Option α
  | before, _, [] => before
  | before, s, e :: es =>
    match step s e with
    | none => before
    | some s' => lastBefore (if doc s' ≠ doc s ∧ ¬ undoes s e then some (doc s) else before) s' es

variable {step doc undoes}

theorem faithful_run {v : σ → Versions α} {P : σ → ε → Prop} (hdoc : ∀ s, (v s).cur = doc s)
    {Inv : σ → Prop} (hinv : ∀ s e s', Inv s → step s e = some s' → Inv s')
    (hstep : ∀ s e s', Inv s → P s e → step s e = some s' → ∃ m, v s' = (v s).apply m ∧
      (v s).Effective m ∧ (m = .undo ↔ undoes s e)) :
    ∀ (es : List ε) (s s' : σ) (before : Option α), Inv s → (v s).Faithful before →
      Meets step P s es → run step s es = some s' →
      (v s').Faithful (lastBefore step doc undoes before s es) := by
  intro es
  induction es with
  | nil =>
    intro s s' before _ h _ hrun
    cases hrun
    exact h
  | cons e es ih =>
    intro s s' before hs h hmeets hrun
    obtain ⟨s₁, h₁, hrun⟩ := run_cons.mp hrun
    obtain ⟨m, hm, heffective, hundo⟩ := hstep s e s₁ hs hmeets.1 h₁
    have hcur : (v s).apply m = v s₁ := hm.symm
    rw [lastBefore, h₁]
    refine ih s₁ s' _ (hinv s e s₁ hs h₁) ?_ (hmeets.2 s₁ h₁) hrun
    rw [hm]
    refine h.apply heffective (fun hne hno => ?_) (fun hsame => ?_)
    · rw [hcur, hdoc, hdoc] at hne
      rw [if_pos ⟨hne, fun hu => hno (hundo.mpr hu)⟩, hdoc]
    · rw [hcur, hdoc, hdoc] at hsame
      refine if_neg (fun hboth => ?_)
      exact hsame.elim hboth.1 (fun hu => hboth.2 (hundo.mp hu))

end Runs

end Undo
end MiniDos
