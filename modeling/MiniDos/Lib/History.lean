import Mathlib.Data.List.Basic

/-!
# MiniDos.Lib.History

The places that were visited, with a cursor on the one that is shown: a history of which the last
`n` places are kept.

* `visit`: a new place drops the places behind the cursor.
* `back_forward`, `forward_back`: the two moves undo each other.
* `Front.filter_take_eq_iff`: the first elements of a list that pass a test, looked for among the first of
  the list, are all there are room for.
-/

namespace MiniDos

structure Trail (α : Type) where
  places : List α
  cursor : Nat
  cursor_lt : cursor < places.length

namespace Trail

variable {α : Type} (t : Trail α)

def here : α := t.places.get ⟨t.cursor, t.cursor_lt⟩

/-- The places up to the cursor and `x`, as many of the last ones as `n` allows. -/
def extended (n : Nat) (x : α) : List α :=
  (t.places.take (t.cursor + 1) ++ [x]).drop (t.cursor + 2 - n)

theorem length_extended (n : Nat) (x : α) : (t.extended n x).length = min n (t.cursor + 2) := by
  have hlt := t.cursor_lt
  rw [extended, List.length_drop, List.length_append, List.length_take, List.length_singleton]
  omega

theorem getElem?_extended {n i : Nat} {x : α} (hi : i + (t.cursor + 2 - n) ≤ t.cursor + 1) :
    (t.extended n x)[i]? =
      if i + (t.cursor + 2 - n) = t.cursor + 1 then some x else t.places[i + (t.cursor + 2 - n)]? := by
  have hlt := t.cursor_lt
  have hlength : (t.places.take (t.cursor + 1)).length = t.cursor + 1 := by
    rw [List.length_take]
    omega
  rw [extended, List.getElem?_drop, Nat.add_comm (t.cursor + 2 - n) i]
  split
  · rename_i hlast
    rw [List.getElem?_append_right (by omega), hlength, hlast, Nat.sub_self]
    rfl
  · rw [List.getElem?_append_left (by omega), List.getElem?_take_of_lt (by omega)]

theorem getElem?_cursor : t.places[t.cursor]? = some t.here := List.getElem?_eq_getElem t.cursor_lt

def visit [DecidableEq α] {n : Nat} (hn : 0 < n) (x : α) : Trail α :=
  if x = t.here then t
  else
    { places := t.extended n x
      cursor := (t.extended n x).length - 1
      cursor_lt := by rw [length_extended]; omega }

def back : Option (Trail α) :=
  if 0 < t.cursor then some ⟨t.places, t.cursor - 1, Nat.lt_of_le_of_lt (Nat.sub_le t.cursor 1) t.cursor_lt⟩
  else none

def forward : Option (Trail α) :=
  if h : t.cursor + 1 < t.places.length then some ⟨t.places, t.cursor + 1, h⟩ else none

variable {t}

theorem back_forward {t' : Trail α} (h : t.back = some t') : t'.forward = some t := by
  rw [back] at h
  split at h
  · rename_i hpos
    cases h
    have hcursor : t.cursor - 1 + 1 = t.cursor := Nat.sub_add_cancel hpos
    rw [forward, dif_pos (hcursor.symm ▸ t.cursor_lt)]
    congr 2
  · cases h

theorem forward_back {t' : Trail α} (h : t.forward = some t') : t'.back = some t := by
  rw [forward] at h
  split at h
  · cases h
    rw [back, if_pos (Nat.succ_pos t.cursor)]
    congr 1
  · cases h

theorem places_visit [DecidableEq α] {n : Nat} {hn : 0 < n} {x : α} (h : x ≠ t.here) :
    (t.visit hn x).places = t.extended n x := by
  rw [visit, if_neg h]

theorem cursor_visit [DecidableEq α] {n : Nat} {hn : 0 < n} {x : α} (h : x ≠ t.here) :
    (t.visit hn x).cursor = min n (t.cursor + 2) - 1 := by
  rw [visit, if_neg h]
  exact congrArg (· - 1) (t.length_extended n x)

theorem length_visit [DecidableEq α] {n : Nat} (hn : 0 < n) (h : t.places.length ≤ n) (x : α) :
    (t.visit hn x).places.length ≤ n := by
  rw [visit]
  split
  · exact h
  · exact Nat.le_trans (Nat.le_of_eq (t.length_extended n x)) (Nat.min_le_left n (t.cursor + 2))

theorem here_visit [DecidableEq α] {n : Nat} (hn : 0 < n) (x : α) : (t.visit hn x).here = x := by
  have hlt := t.cursor_lt
  rw [visit]
  split
  · rename_i hx
    exact hx.symm
  · simp only [here, List.get_eq_getElem, length_extended]
    simp only [extended, List.getElem_drop]
    rw [List.getElem_append_right (by rw [List.length_take]; omega)]
    exact List.getElem_singleton _

end Trail

namespace Front

variable {α : Type} {p q : α → Bool} {n : Nat} {l : List α}

theorem filter_filter_of (hpq : ∀ x, p x = true → q x = true) (l : List α) :
    (l.filter q).filter p = l.filter p := by
  rw [List.filter_filter]
  exact List.filter_congr (fun x _ => Bool.and_eq_left_iff_imp.mpr (hpq x))

theorem filter_length_le (hpq : ∀ x, p x = true → q x = true) (l : List α) :
    (l.filter p).length ≤ (l.filter q).length := by
  rw [← filter_filter_of hpq l]
  exact List.length_filter_le p (l.filter q)

theorem filter_eq_of_length (hpq : ∀ x, p x = true → q x = true)
    (h : (l.filter p).length = (l.filter q).length) : ∀ x ∈ l, q x = true → p x = true := by
  rw [← filter_filter_of hpq l] at h
  intro x hx hqx
  exact List.length_filter_eq_length_iff.mp h x (List.mem_filter.mpr ⟨hx, hqx⟩)

/-- What passes `p` among the first `n` elements is all the first `n` that pass `q`. -/
theorem filter_take_eq_iff (hpq : ∀ x, p x = true → q x = true) :
    (l.take n).filter p = (l.filter q).take n ↔ (∀ x ∈ l.take n, q x = true → p x = true) ∧
      ((∀ x ∈ l.take n, q x = true) ∨ ∀ x ∈ l.drop n, ¬ q x = true) := by
  have hsplit : l.filter q = (l.take n).filter q ++ (l.drop n).filter q := by
    rw [← List.filter_append, List.take_append_drop]
  have hfront : ((l.take n).filter q).length ≤ n :=
    Nat.le_trans (List.length_filter_le q _) (List.length_take_le n l)
  rw [hsplit, List.take_append, List.take_of_length_le hfront]
  constructor
  · intro heq
    have hlength := congrArg List.length heq
    rw [List.length_append] at hlength
    have hle := filter_length_le hpq (l.take n)
    have hsame : ((l.take n).filter p).length = ((l.take n).filter q).length := by omega
    refine ⟨filter_eq_of_length hpq hsame, ?_⟩
    have hrest : ((l.drop n).filter q).take (n - ((l.take n).filter q).length) = [] :=
      List.length_eq_zero_iff.mp (by omega)
    rcases List.take_eq_nil_iff.mp hrest with hfull | hnone
    · left
      have hall : ((l.take n).filter q).length = (l.take n).length := by
        have h₁ := List.length_filter_le q (l.take n)
        have h₂ := List.length_take_le n l
        omega
      exact List.length_filter_eq_length_iff.mp hall
    · right
      exact List.filter_eq_nil_iff.mp hnone
  · rintro ⟨hkept, hrest⟩
    have hsame : (l.take n).filter p = (l.take n).filter q := by
      refine List.filter_congr (fun x hx => ?_)
      rw [Bool.eq_iff_iff]
      exact ⟨hpq x, hkept x hx⟩
    have hnone : ((l.drop n).filter q).take (n - ((l.take n).filter q).length) = [] := by
      rcases hrest with hall | hnone
      · rw [List.filter_eq_self.mpr hall]
        by_cases hn : n ≤ l.length
        · rw [List.length_take_of_le hn, Nat.sub_self, List.take_zero]
        · rw [List.drop_of_length_le (by omega), List.filter_nil, List.take_nil]
      · rw [List.filter_eq_nil_iff.mpr hnone, List.take_nil]
    rw [hsame, hnone, List.append_nil]

end Front
end MiniDos
