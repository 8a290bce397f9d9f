import MiniDos.Lib.Plane

/-!
# MiniDos.Lib.Picture

Pictures: what a drawing writes, as the value of every pixel that it writes.

* `stack`: drawings one after the other. `stack_last`: the last one that writes a pixel.
* `stack_of_agree`: drawings that agree on a pixel.
-/

namespace MiniDos
namespace Picture

open Plane

/-- `none`: the pixel is left as it is. -/
abbrev Pic (α : Type) := Int → Int → Option α

variable {α : Type}

def blank : Pic α := fun _ _ => none

def fill (r : Rect) (a : α) : Pic α := fun x y => if r.Has x y then some a else none

def cut (r : Rect) (p : Pic α) : Pic α := fun x y => if r.Has x y then p x y else none

/-- One after the other. -/
def stack : List (Pic α) → Pic α
  | [] => blank
  | p :: ps => fun x y => (stack ps x y).or (p x y)

/-- With other colors. -/
def recolor {β : Type} (f : β → α) (p : Pic β) : Pic α := fun x y => (p x y).map f

variable {p : Pic α} {ps : List (Pic α)} {x y : Int}

@[simp] theorem stack_nil : stack ([] : List (Pic α)) x y = none := rfl

@[simp] theorem stack_cons : stack (p :: ps) x y = (stack ps x y).or (p x y) := rfl

@[simp] theorem stack_append (ps qs : List (Pic α)) (x y : Int) :
    stack (ps ++ qs) x y = (stack qs x y).or (stack ps x y) := by
  induction ps with
  | nil => simp
  | cons p ps ih =>
    simp only [List.cons_append, stack_cons, ih, Option.or_assoc]

theorem stack_eq_none : stack ps x y = none ↔ ∀ p ∈ ps, p x y = none := by
  induction ps with
  | nil => simp
  | cons p ps ih => simp only [stack_cons, Option.or_eq_none_iff, ih, List.forall_mem_cons, and_comm]

theorem stack_recolor {β : Type} (f : β → α) (ps : List (Pic β)) :
    stack (ps.map (recolor f)) = recolor f (stack ps) := by
  induction ps with
  | nil => rfl
  | cons p ps ih =>
    funext x y
    rw [List.map_cons, stack_cons, ih, recolor, recolor, recolor, stack_cons]
    cases stack ps x y <;> rfl

theorem stack_of_agree {o : Option α} (h : ∀ p ∈ ps, p x y = none ∨ p x y = o)
    (hsome : o ≠ none → ∃ p ∈ ps, p x y = o) : stack ps x y = o := by
  induction ps with
  | nil =>
    by_contra hne
    obtain ⟨p, hp, _⟩ := hsome (fun ho => hne ho.symm)
    cases hp
  | cons p ps ih =>
    have htail : stack ps x y = none ∨ stack ps x y = o := by
      by_cases hall : ∀ q ∈ ps, q x y = none
      · exact .inl (stack_eq_none.mpr hall)
      · simp only [not_forall] at hall
        obtain ⟨q, hq, hne⟩ := hall
        refine .inr (ih (fun q hq => h q (List.mem_cons_of_mem p hq)) (fun _ => ⟨q, hq, ?_⟩))
        exact (h q (List.mem_cons_of_mem p hq)).resolve_left hne
    have hhead := h p List.mem_cons_self
    rw [stack_cons]
    rcases htail with hnone | heq
    · rw [hnone, Option.none_or]
      refine hhead.elim (fun hp => ?_) id
      by_contra hne
      obtain ⟨q, hq, hqo⟩ := hsome (fun ho => hne (hp.trans ho.symm))
      rcases List.mem_cons.mp hq with rfl | hq
      · exact hne hqo
      · exact hne (hp.trans ((stack_eq_none.mp hnone q hq).symm.trans hqo))
    · rw [heq]
      rcases hhead with hp | hp <;> rw [hp] <;> cases o <;> rfl

theorem stack_last : ∀ {ps : List (Pic α)} {i : Nat} (hi : i < ps.length), ps[i] x y ≠ none →
    (∀ j, i < j → ∀ hj : j < ps.length, ps[j] x y = none) → stack ps x y = ps[i] x y := by
  intro ps
  induction ps with
  | nil => exact fun hi => absurd hi (Nat.not_lt_zero _)
  | cons p ps ih =>
    intro i hi hwrites hlater
    rw [stack_cons]
    cases i with
    | zero =>
      have hnone : stack ps x y = none := by
        refine stack_eq_none.mpr (fun q hq => ?_)
        obtain ⟨j, hj, rfl⟩ := List.getElem_of_mem hq
        exact hlater (j + 1) (Nat.succ_pos j) (Nat.succ_lt_succ hj)
      rw [hnone, Option.none_or]
      rfl
    | succ i =>
      have hi' : i < ps.length := Nat.lt_of_succ_lt_succ hi
      rw [ih hi' hwrites (fun j hij hj => hlater (j + 1) (Nat.succ_lt_succ hij) (Nat.succ_lt_succ hj))]
      cases hp : ps[i] x y with
      | none => exact absurd hp hwrites
      | some a =>
        rw [List.getElem_cons_succ, hp]
        rfl

end Picture
end MiniDos
