import Mathlib.Computability.Language

/-!
# MiniDos.Lib.Glob

Patterns with stars and single-character wildcards, over any alphabet and any notion of equal
characters. The meaning of a pattern is the product of the languages of its tokens.

* `language_many_iff`: behind a star any suffix may be matched.
* `language_many_many`: two stars are one.
-/

namespace MiniDos
namespace Glob

variable {α : Type}

inductive Token (α : Type) where
  | many
  | one
  | char (a : α)

def Token.language (same : α → α → Prop) : Token α → Language α
  | .many => ⊤
  | .one => {w | ∃ c, w = [c]}
  | .char a => {w | ∃ c, same a c ∧ w = [c]}

def language (same : α → α → Prop) (p : List (Token α)) : Language α :=
  (p.map (Token.language same)).prod

variable {same : α → α → Prop} {p : List (Token α)} {w : List α}

theorem mem_many : w ∈ (Token.many : Token α).language same := trivial

@[simp] theorem mem_one : w ∈ (Token.one : Token α).language same ↔ ∃ c, w = [c] := Iff.rfl

@[simp] theorem mem_char {a : α} :
    w ∈ (Token.char a).language same ↔ ∃ c, same a c ∧ w = [c] := Iff.rfl

@[simp] theorem mem_language_nil : w ∈ language same [] ↔ w = [] := by
  simp [language, Language.mem_one]

theorem language_cons (t : Token α) : language same (t :: p) = t.language same * language same p := by
  simp [language]

theorem mem_language_cons {t : Token α} : w ∈ language same (t :: p) ↔
    ∃ u ∈ t.language same, ∃ v ∈ language same p, u ++ v = w := by
  rw [language_cons, Language.mem_mul]

theorem language_many_iff :
    w ∈ language same (.many :: p) ↔ ∃ v, v <:+ w ∧ v ∈ language same p := by
  rw [mem_language_cons]
  constructor
  · rintro ⟨u, _, v, hv, rfl⟩
    exact ⟨v, List.suffix_append u v, hv⟩
  · rintro ⟨v, ⟨u, rfl⟩, hv⟩
    exact ⟨u, mem_many, v, hv, rfl⟩

theorem language_many_many :
    w ∈ language same (.many :: .many :: p) ↔ w ∈ language same (.many :: p) := by
  rw [language_many_iff]
  constructor
  · rintro ⟨v, hv, hmem⟩
    obtain ⟨u, hu, hp⟩ := language_many_iff.mp hmem
    exact language_many_iff.mpr ⟨u, hu.trans hv, hp⟩
  · intro h
    exact ⟨w, List.suffix_rfl, h⟩

theorem language_many_last : w ∈ language same [.many] := by
  rw [language_many_iff]
  exact ⟨[], List.nil_suffix, by simp⟩

@[simp] theorem language_one_nil : [] ∉ language same (.one :: p) := by
  simp [mem_language_cons]

@[simp] theorem language_one_cons {c : α} :
    c :: w ∈ language same (.one :: p) ↔ w ∈ language same p := by
  simp [mem_language_cons]

@[simp] theorem language_char_nil {a : α} : [] ∉ language same (.char a :: p) := by
  simp [mem_language_cons]

@[simp] theorem language_char_cons {a c : α} :
    c :: w ∈ language same (.char a :: p) ↔ same a c ∧ w ∈ language same p := by
  rw [mem_language_cons]
  constructor
  · rintro ⟨u, ⟨b, hb, rfl⟩, v, hv, he⟩
    cases he
    exact ⟨hb, hv⟩
  · rintro ⟨hc, hw⟩
    exact ⟨[c], ⟨c, hc, rfl⟩, w, hw, rfl⟩

end Glob
end MiniDos
