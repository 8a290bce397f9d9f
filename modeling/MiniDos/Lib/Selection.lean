import Mathlib.Data.List.Basic
import Mathlib.Data.List.Nodup
import Mathlib.Data.List.Perm.Subperm

/-!
# MiniDos.Lib.Selection

Scans of a list for the entry with the lowest or the highest key.

* `lowest_some`, `lowest_none`: the lowest of the entries that are not skipped.
* `highest_spec`: the highest of the entries that are wanted, from a given one on.
* `exhausts`: a list of as many different places as there are has all of them.
-/

namespace MiniDos
namespace Selection

variable {α β : Type}

/-! ## The lowest -/

section Lowest

variable (skip : α × Nat → Prop) [DecidablePred skip] (key : α → Int)

/-- One entry of the scan, which keeps the place and the key of the best. -/
def lower (best : Option (Nat × Int)) (a : α × Nat) : Option (Nat × Int) :=
  if skip a then best
  else if best.any (fun b => key a.1 ≥ b.2) then best
  else some (a.2, key a.1)

/-- The place of the lowest entry, of the first among equals. -/
def lowest (l : List α) : Option Nat := (l.zipIdx.foldl (lower skip key) none).map Prod.fst

/-- What a scan ends with is an entry, or what it began with, and nothing is lower. -/
theorem foldl_lower (l : List (α × Nat)) (best : Option (Nat × Int)) :
    (∀ c ∈ l.foldl (lower skip key) best,
      c ∈ best ∨ ∃ a ∈ l, ¬ skip a ∧ c = (a.2, key a.1)) ∧
    (∀ b ∈ best, ∃ c ∈ l.foldl (lower skip key) best, c.2 ≤ b.2) ∧
    ∀ a ∈ l, ¬ skip a → ∃ c ∈ l.foldl (lower skip key) best, c.2 ≤ key a.1 := by
  induction l generalizing best with
  | nil => exact ⟨fun c hc => .inl hc, fun b hb => ⟨b, hb, Int.le_refl _⟩, fun a ha => nomatch ha⟩
  | cons a l ih =>
    obtain ⟨hfrom, hbest, hall⟩ := ih (lower skip key best a)
    rw [List.foldl_cons]
    -- The entry that is kept is the old one or the new one, whichever is lower.
    have hstep : (∀ c ∈ lower skip key best a, c ∈ best ∨ ¬ skip a ∧ c = (a.2, key a.1)) ∧
        (∀ b ∈ best, ∃ c ∈ lower skip key best a, c.2 ≤ b.2) ∧
        (¬ skip a → ∃ c ∈ lower skip key best a, c.2 ≤ key a.1) := by
      unfold lower
      by_cases hskip : skip a
      · rw [if_pos hskip]
        exact ⟨fun c hc => .inl hc, fun b hb => ⟨b, hb, Int.le_refl _⟩, fun hno => absurd hskip hno⟩
      rw [if_neg hskip]
      cases best with
      | none =>
        refine ⟨fun c hc => .inr ⟨hskip, ?_⟩, fun b hb => (nomatch hb), fun _ => ⟨_, rfl, Int.le_refl _⟩⟩
        exact (Option.some.inj hc).symm
      | some b =>
        by_cases hle : key a.1 ≥ b.2
        · rw [if_pos (by simpa using hle)]
          exact ⟨fun c hc => .inl hc, fun b' hb' => ⟨b', hb', Int.le_refl _⟩, fun _ => ⟨b, rfl, hle⟩⟩
        · rw [if_neg (by simpa using hle)]
          refine ⟨fun c hc => .inr ⟨hskip, (Option.some.inj hc).symm⟩, fun b' hb' => ⟨_, rfl, ?_⟩,
            fun _ => ⟨_, rfl, Int.le_refl _⟩⟩
          obtain rfl := Option.some.inj hb'
          dsimp only
          omega
    refine ⟨fun c hc => ?_, fun b hb => ?_, fun e he hskip => ?_⟩
    · rcases hfrom c hc with hc | ⟨e, he, hskip, rfl⟩
      · rcases hstep.1 c hc with hc | ⟨hskip, rfl⟩
        · exact .inl hc
        · exact .inr ⟨a, List.mem_cons_self, hskip, rfl⟩
      · exact .inr ⟨e, List.mem_cons_of_mem a he, hskip, rfl⟩
    · obtain ⟨c, hc, hle⟩ := hstep.2.1 b hb
      obtain ⟨d, hd, hle'⟩ := hbest c hc
      exact ⟨d, hd, Int.le_trans hle' hle⟩
    · rcases List.mem_cons.mp he with rfl | he
      · obtain ⟨c, hc, hle⟩ := hstep.2.2 hskip
        obtain ⟨d, hd, hle'⟩ := hbest c hc
        exact ⟨d, hd, Int.le_trans hle' hle⟩
      · exact hall e he hskip

theorem lowest_some {l : List α} {i : Nat} (h : lowest skip key l = some i) :
    ∃ a, l[i]? = some a ∧ ¬ skip (a, i) ∧
      ∀ j b, l[j]? = some b → ¬ skip (b, j) → key a ≤ key b := by
  obtain ⟨c, hc, rfl⟩ := Option.map_eq_some_iff.mp h
  obtain ⟨hfrom, _, hall⟩ := foldl_lower skip key l.zipIdx none
  rcases hfrom c hc with hno | ⟨a, ha, hskip, rfl⟩
  · cases hno
  · refine ⟨a.1, List.mem_zipIdx_iff_getElem?.mp ha, hskip, fun j b hb hnot => ?_⟩
    obtain ⟨d, hd, hle⟩ := hall (b, j) (List.mem_zipIdx_iff_getElem?.mpr hb) hnot
    obtain rfl := Option.some.inj (hc.symm.trans hd)
    exact hle

theorem lowest_none {l : List α} (h : lowest skip key l = none) {j : Nat} {b : α}
    (hb : l[j]? = some b) : skip (b, j) := by
  by_contra hnot
  obtain ⟨_, _, hall⟩ := foldl_lower skip key l.zipIdx none
  obtain ⟨d, hd, _⟩ := hall (b, j) (List.mem_zipIdx_iff_getElem?.mpr hb) hnot
  unfold lowest at h
  rw [hd] at h
  cases h

end Lowest

/-! ## The highest -/

section Highest

variable (wanted : α → Prop) [DecidablePred wanted] (name : α → β) (key : α → Int)

/-- One entry of the scan, which keeps the name and the key of the best. -/
def higher (best : β × Int) (a : α) : β × Int :=
  if wanted a ∧ key a ≥ best.2 then (name a, key a) else best

theorem highest_spec (l : List α) (best : β × Int) :
    ((∃ a ∈ l, wanted a ∧ l.foldl (higher wanted name key) best = (name a, key a)) ∨
      l.foldl (higher wanted name key) best = best ∧ ∀ a ∈ l, wanted a → key a < best.2) ∧
    best.2 ≤ (l.foldl (higher wanted name key) best).2 ∧
    ∀ a ∈ l, wanted a → key a ≤ (l.foldl (higher wanted name key) best).2 := by
  induction l generalizing best with
  | nil => exact ⟨.inr ⟨rfl, fun a ha => nomatch ha⟩, Int.le_refl _, fun a ha => nomatch ha⟩
  | cons a l ih =>
    obtain ⟨hfrom, hle, hall⟩ := ih (higher wanted name key best a)
    rw [List.foldl_cons]
    by_cases hnew : wanted a ∧ key a ≥ best.2
    · have hstep : higher wanted name key best a = (name a, key a) := if_pos hnew
      rw [hstep] at hfrom hle hall ⊢
      refine ⟨.inl ?_, Int.le_trans hnew.2 hle, fun e he hwanted => ?_⟩
      · rcases hfrom with ⟨e, he, hwanted, heq⟩ | ⟨heq, _⟩
        · exact ⟨e, List.mem_cons_of_mem a he, hwanted, heq⟩
        · exact ⟨a, List.mem_cons_self, hnew.1, heq⟩
      · rcases List.mem_cons.mp he with rfl | he
        · exact hle
        · exact hall e he hwanted
    · have hstep : higher wanted name key best a = best := if_neg hnew
      rw [hstep] at hfrom hle hall ⊢
      have hlow : wanted a → key a < best.2 := fun hwanted => by
        by_contra hno
        exact hnew ⟨hwanted, by omega⟩
      refine ⟨?_, hle, fun e he hwanted => ?_⟩
      · rcases hfrom with ⟨e, he, hwanted, heq⟩ | ⟨heq, hnone⟩
        · exact .inl ⟨e, List.mem_cons_of_mem a he, hwanted, heq⟩
        · refine .inr ⟨heq, fun e he hwanted => ?_⟩
          rcases List.mem_cons.mp he with rfl | he
          · exact hlow hwanted
          · exact hnone e he hwanted
      · rcases List.mem_cons.mp he with rfl | he
        · have := hlow hwanted
          omega
        · exact hall e he hwanted

end Highest

/-! ## Places -/

theorem exhausts {n : Nat} {places : List Nat} (hnodup : places.Nodup) (hlt : ∀ i ∈ places, i < n)
    (hlen : n ≤ places.length) {i : Nat} (hi : i < n) : i ∈ places := by
  have hsub : places ⊆ List.range n := fun j hj => List.mem_range.mpr (hlt j hj)
  have hperm := (hnodup.subperm hsub).perm_of_length_le (by simpa using hlen)
  exact hperm.mem_iff.mpr (List.mem_range.mpr hi)

end Selection
end MiniDos
