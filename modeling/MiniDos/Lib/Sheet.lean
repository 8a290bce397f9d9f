import Mathlib.Data.List.GetD
import Mathlib.Data.List.OfFn

/-!
# MiniDos.Lib.Sheet

A sheet of cells, row by row, and the texts that stand on its rows.

* `text`: the used part of a row, up to its last cell that is not blank.
* `ofText`: a row with a text on it, blank behind it. Rows and their texts stand for each other.
-/

namespace MiniDos
namespace Sheet

variable {α : Type} (blank : α) {m n : Nat}

/-! ## Rows -/

def cellAt (row : Fin n → α) (c : Nat) : α := if h : c < n then row ⟨c, h⟩ else blank

/-- The row with `t` on it. What is beyond its end is lost. -/
def ofText (t : List α) : Fin n → α := fun c => t.getD c blank

/-- What is left of the first `e` cells of a row without the blanks at their end. -/
def usedWithin [DecidableEq α] (row : Fin n → α) : Nat → Nat
  | 0 => 0
  | e + 1 => if cellAt blank row e = blank then usedWithin row e else e + 1

def used [DecidableEq α] (row : Fin n → α) : Nat := usedWithin blank row n

def text [DecidableEq α] (row : Fin n → α) : List α := (List.ofFn row).take (used blank row)

/-- A text that fits on a row and does not end with a blank. -/
structure Trimmed (n : Nat) (t : List α) : Prop where
  length_le : t.length ≤ n
  last : t.getLast? ≠ some blank

variable {blank}

theorem cellAt_lt {row : Fin n → α} {c : Nat} (h : c < n) : cellAt blank row c = row ⟨c, h⟩ :=
  dif_pos h

@[simp] theorem cellAt_fin (row : Fin n → α) (c : Fin n) : cellAt blank row c = row c :=
  cellAt_lt c.isLt

theorem cellAt_ge {row : Fin n → α} {c : Nat} (h : n ≤ c) : cellAt blank row c = blank :=
  dif_neg (Nat.not_lt.mpr h)

theorem trimmed_nil (n : Nat) : Trimmed blank n [] := ⟨Nat.zero_le n, by simp⟩

section Used

variable [DecidableEq α] {row : Fin n → α}

theorem usedWithin_le (row : Fin n → α) (e : Nat) : usedWithin blank row e ≤ e := by
  induction e with
  | zero => exact Nat.le_refl 0
  | succ e ih =>
    rw [usedWithin]
    split
    · exact Nat.le_succ_of_le ih
    · exact Nat.le_refl (e + 1)

theorem used_le (row : Fin n → α) : used blank row ≤ n := usedWithin_le row n

theorem usedWithin_blank {e c : Nat} (h : usedWithin blank row e ≤ c) (hc : c < e) :
    cellAt blank row c = blank := by
  induction e with
  | zero => exact absurd hc (Nat.not_lt_zero c)
  | succ e ih =>
    rw [usedWithin] at h
    split at h
    · rename_i hblank
      by_cases hce : c = e
      · rw [hce, hblank]
      · exact ih h (by omega)
    · omega

theorem usedWithin_last {e : Nat} (h : 0 < usedWithin blank row e) :
    cellAt blank row (usedWithin blank row e - 1) ≠ blank := by
  induction e with
  | zero => exact absurd h (Nat.not_lt_zero 0)
  | succ e ih =>
    rw [usedWithin] at h ⊢
    split
    · rename_i hblank
      rw [if_pos hblank] at h
      exact ih h
    · rename_i hcell
      exact hcell

theorem cellAt_used {c : Nat} (h : used blank row ≤ c) : cellAt blank row c = blank := by
  by_cases hc : c < n
  · exact usedWithin_blank h hc
  · exact cellAt_ge (Nat.not_lt.mp hc)

theorem cellAt_last (h : 0 < used blank row) : cellAt blank row (used blank row - 1) ≠ blank :=
  usedWithin_last h

@[simp] theorem length_text (row : Fin n → α) : (text blank row).length = used blank row := by
  rw [text, List.length_take, List.length_ofFn, Nat.min_eq_left (used_le row)]

theorem getD_text (row : Fin n → α) (c : Nat) : (text blank row).getD c blank = cellAt blank row c := by
  by_cases hc : c < used blank row
  · have hn : c < n := Nat.lt_of_lt_of_le hc (used_le row)
    rw [List.getD_eq_getElem _ _ (by rw [length_text]; exact hc), cellAt_lt hn]
    simp [text]
  · rw [List.getD_eq_default _ _ (by rw [length_text]; exact Nat.not_lt.mp hc),
      cellAt_used (Nat.not_lt.mp hc)]

@[simp] theorem ofText_text (row : Fin n → α) : ofText blank (text blank row) = row := by
  funext c
  rw [ofText, getD_text, cellAt_fin]

theorem trimmed_text (row : Fin n → α) : Trimmed blank n (text blank row) := by
  refine ⟨by rw [length_text]; exact used_le row, ?_⟩
  intro h
  rw [List.getLast?_eq_getElem?, length_text] at h
  have hpos : 0 < used blank row := by
    rcases Nat.eq_zero_or_pos (used blank row) with h0 | h0
    · rw [List.getElem?_eq_none (by rw [length_text, h0])] at h
      cases h
    · exact h0
  have hcell : (text blank row).getD (used blank row - 1) blank = _ := getD_text row _
  rw [List.getD_eq_getElem?_getD, h, Option.getD_some] at hcell
  exact cellAt_last hpos hcell.symm

end Used

theorem cellAt_ofText {t : List α} (h : t.length ≤ n) (c : Nat) :
    cellAt blank (ofText blank t : Fin n → α) c = t.getD c blank := by
  by_cases hc : c < n
  · rw [cellAt_lt hc, ofText]
  · rw [cellAt_ge (Nat.not_lt.mp hc), List.getD_eq_default _ _ (by omega)]

theorem used_ofText [DecidableEq α] {t : List α} (h : Trimmed blank n t) :
    used blank (ofText blank t : Fin n → α) = t.length := by
  apply Nat.le_antisymm
  · by_contra hlt
    have hpos : 0 < used blank (ofText blank t : Fin n → α) := by omega
    apply cellAt_last hpos
    rw [cellAt_ofText h.length_le, List.getD_eq_default _ _ (by omega)]
  · by_contra hlt
    have hne : t ≠ [] := by
      rintro rfl
      simp at hlt
    have hlast : cellAt blank (ofText blank t : Fin n → α) (t.length - 1) = blank := cellAt_used (by omega)
    rw [cellAt_ofText h.length_le] at hlast
    apply h.last
    rw [List.getLast?_eq_getElem?, List.getElem?_eq_getElem (by omega)]
    rw [List.getD_eq_getElem _ _ (by omega)] at hlast
    rw [hlast]

theorem text_ofText [DecidableEq α] {t : List α} (h : Trimmed blank n t) :
    text blank (ofText blank t : Fin n → α) = t := by
  apply List.ext_getElem
  · rw [length_text, used_ofText h]
  · intro i h1 h2
    have hcell : (text blank (ofText blank t : Fin n → α)).getD i blank = _ := getD_text _ i
    rw [cellAt_ofText h.length_le, List.getD_eq_getElem _ _ h1, List.getD_eq_getElem _ _ h2] at hcell
    exact hcell

/-! ## Sheets -/

/-- Nothing is stored outside the sheet. -/
def setAt (page : Fin m → Fin n → α) (r c : Nat) (x : α) : Fin m → Fin n → α :=
  fun r' c' => if r'.val = r ∧ c'.val = c then x else page r' c'

/-- The sheet with the texts on its rows, from the first on. Rows beyond the last are lost. -/
def ofTexts (blank : α) (ts : List (List α)) : Fin m → Fin n → α :=
  fun r => ofText blank (ts.getD r [])

theorem setAt_ofTexts (done : List (List α)) (t : List α) (x : α) :
    setAt (ofTexts blank (done ++ [t]) : Fin m → Fin n → α) done.length t.length x =
      ofTexts blank (done ++ [t ++ [x]]) := by
  funext r c
  by_cases hr : r.val = done.length
  · by_cases hc : c.val = t.length
    · simp [setAt, ofTexts, ofText, hr, hc]
    · rcases Nat.lt_or_ge c.val t.length with hlt | hge
      · simp [setAt, ofTexts, ofText, hr, hc, List.getElem?_append_left hlt]
      · simp [setAt, ofTexts, ofText, hr, hc, List.getElem?_append_right hge,
          List.getElem?_eq_none hge, List.getElem?_eq_none (l := [x]) (i := c.val - t.length)
            (by simp only [List.length_singleton]; omega)]
  · rcases Nat.lt_or_ge r.val done.length with hlt | hge
    · simp [setAt, ofTexts, hr, List.getElem?_append_left hlt]
    · have hnone : ∀ y : List α, (done ++ [y])[r.val]? = none := fun y =>
        List.getElem?_eq_none (by rw [List.length_append, List.length_singleton]; omega)
      simp [setAt, ofTexts, hr, hnone]

theorem ofTexts_blank : (ofTexts blank [] : Fin m → Fin n → α) = fun _ _ => blank := by
  funext r c
  simp [ofTexts, ofText]

theorem ofTexts_concat_nil (ts : List (List α)) :
    (ofTexts blank (ts ++ [[]]) : Fin m → Fin n → α) = ofTexts blank ts := by
  funext r
  rw [ofTexts, ofTexts]
  congr 1
  rcases Nat.lt_trichotomy r.val ts.length with hlt | heq | hgt
  · simp [List.getElem?_append_left hlt]
  · simp [heq]
  · simp [List.getElem?_eq_none (l := ts) (Nat.le_of_lt hgt), List.getElem?_eq_none (l := ts ++ [[]])
      (i := r.val) (by rw [List.length_append, List.length_singleton]; omega)]

end Sheet
end MiniDos
