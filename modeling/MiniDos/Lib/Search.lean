import Mathlib.Order.Bounds.Basic
import Mathlib.Data.List.Infix

/-!
# MiniDos.Lib.Search

Search for a text in a text, and its replacement.

* `OccursAt`: the places of `needle` in `text`; two characters count as one if `f` does not tell
  them apart. The empty text occurs nowhere.
* `find?_isLeast`, `find?_isGreatest`: what a search through places in order returns.
* `Replaced`: the leftmost occurrence is replaced, and so on behind it. Each text has one such result.
-/

namespace MiniDos
namespace Search

/-! ## Search in order -/

section Order

variable {α : Type*} [PartialOrder α] {l : List α} {p : α → Bool} {a : α}

theorem find?_isLeast (h : l.Pairwise (· < ·)) :
    l.find? p = some a ↔ IsLeast {x | x ∈ l ∧ p x = true} a := by
  induction l with
  | nil => simp [IsLeast]
  | cons b l ih =>
    rw [List.pairwise_cons] at h
    obtain ⟨hb, hl⟩ := h
    rw [List.find?_cons]
    cases hp : p b with
    | true =>
      constructor
      · intro hab
        cases hab
        refine ⟨⟨List.mem_cons_self, hp⟩, ?_⟩
        rintro x ⟨hx, _⟩
        rcases List.mem_cons.mp hx with rfl | hx
        · exact le_refl x
        · exact (hb x hx).le
      · rintro ⟨⟨ha, _⟩, hleast⟩
        have hle : a ≤ b := hleast ⟨List.mem_cons_self, hp⟩
        rcases List.mem_cons.mp ha with rfl | ha
        · rfl
        · exact absurd hle (hb a ha).not_ge
    | false =>
      have hset : {x | x ∈ b :: l ∧ p x = true} = {x | x ∈ l ∧ p x = true} := by
        ext x
        simp only [List.mem_cons, Set.mem_ofPred_eq]
        constructor
        · rintro ⟨rfl | hx, hpx⟩
          · rw [hp] at hpx
            cases hpx
          · exact ⟨hx, hpx⟩
        · exact fun hx => ⟨.inr hx.1, hx.2⟩
      rw [hset]
      exact ih hl

theorem find?_isGreatest (h : l.Pairwise (· > ·)) :
    l.find? p = some a ↔ IsGreatest {x | x ∈ l ∧ p x = true} a :=
  @find?_isLeast αᵒᵈ _ _ _ _ h

end Order

/-! ## Occurrences -/

section Occurrences

variable {α β : Type*} (f : α → β)

def OccursAt (needle text : List α) (p : Nat) : Prop :=
  needle ≠ [] ∧ needle.map f <+: (text.drop p).map f

variable {f} {needle repl text out out' : List α} {p : Nat}

theorem OccursAt.length_le (h : OccursAt f needle text p) : p + needle.length ≤ text.length := by
  have hlen := h.2.length_le
  rw [List.length_map, List.length_map, List.length_drop] at hlen
  have hpos := List.length_pos_iff.mpr h.1
  omega

theorem OccursAt.lt (h : OccursAt f needle text p) : p < text.length := by
  have hpos := List.length_pos_iff.mpr h.1
  have hlen := h.length_le
  omega

theorem not_occursAt_nil : ¬ OccursAt f needle [] p := fun h => Nat.not_lt_zero p h.lt

@[simp] theorem occursAt_drop {i : Nat} : OccursAt f needle (text.drop i) p ↔ OccursAt f needle text (i + p) := by
  rw [OccursAt, OccursAt, List.drop_drop]

@[simp] theorem occursAt_cons_succ {a : α} :
    OccursAt f needle (a :: text) (p + 1) ↔ OccursAt f needle text p := Iff.rfl

/-! ## Replacement -/

inductive Replaced (f : α → β) (needle repl : List α) : List α → List α → Prop where
  | rest {text : List α} : (∀ p, ¬ OccursAt f needle text p) → Replaced f needle repl text text
  | first {text out : List α} {p : Nat} : OccursAt f needle text p →
      (∀ k < p, ¬ OccursAt f needle text k) →
      Replaced f needle repl (text.drop (p + needle.length)) out →
      Replaced f needle repl text (text.take p ++ repl ++ out)

theorem Replaced.nil : Replaced f needle repl [] [] := .rest fun _ => not_occursAt_nil

theorem Replaced.cons {a : α} (hno : ¬ OccursAt f needle (a :: text) 0) (h : Replaced f needle repl text out) :
    Replaced f needle repl (a :: text) (a :: out) := by
  cases h with
  | rest hnone =>
    refine .rest (fun p => ?_)
    cases p with
    | zero => exact hno
    | succ p => exact hnone p
  | @first _ out p hocc hfirst hrest =>
    have hbehind : Replaced f needle repl ((a :: text).drop (p + 1 + needle.length)) out := by
      rw [Nat.add_right_comm]
      exact hrest
    refine .first (p := p + 1) hocc ?_ hbehind
    intro k hk
    cases k with
    | zero => exact hno
    | succ k => exact hfirst k (Nat.lt_of_succ_lt_succ hk)

theorem Replaced.total (f : α → β) (needle repl : List α) (text : List α) :
    ∃ out, Replaced f needle repl text out := by
  induction h : text.length using Nat.strong_induction_on generalizing text with
  | _ n ih =>
    by_cases hocc : OccursAt f needle text 0
    · have hpos := List.length_pos_iff.mpr hocc.1
      have hlen := hocc.length_le
      have hlt : (text.drop (0 + needle.length)).length < n := by
        rw [List.length_drop]
        omega
      obtain ⟨out, hout⟩ := ih _ hlt (text.drop (0 + needle.length)) rfl
      exact ⟨_, .first hocc (fun k hk => absurd hk (Nat.not_lt_zero k)) hout⟩
    · cases text with
      | nil => exact ⟨[], .nil⟩
      | cons a text =>
        have hlt : text.length < n := h ▸ Nat.lt_succ_self text.length
        obtain ⟨out, hout⟩ := ih _ hlt text rfl
        exact ⟨a :: out, hout.cons hocc⟩

theorem Replaced.unique (h : Replaced f needle repl text out) (h' : Replaced f needle repl text out') :
    out = out' := by
  induction h generalizing out' with
  | rest hnone =>
    cases h' with
    | rest _ => rfl
    | first hocc _ _ => exact absurd hocc (hnone _)
  | @first text out p hocc hfirst _ ih =>
    cases h' with
    | rest hnone => exact absurd hocc (hnone p)
    | @first _ out' p' hocc' hfirst' hrest' =>
      have hp : p = p' := by
        rcases Nat.lt_trichotomy p p' with hlt | heq | hgt
        · exact absurd hocc (hfirst' p hlt)
        · exact heq
        · exact absurd hocc' (hfirst p' hgt)
      subst hp
      rw [ih hrest']

end Occurrences

end Search
end MiniDos
