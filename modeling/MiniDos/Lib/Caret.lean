import Mathlib.Data.List.Basic

/-!
# MiniDos.Lib.Caret

A text with a caret in it, as an input line keeps it.

* `left`, `right`, `erase`, `insert`: the moves of the caret and the changes at it.
* `getElem?_erase`, `getElem?_insert`: where a change leaves the elements.
-/

namespace MiniDos

structure Caret (α : Type) where
  text : List α
  pos : Nat
  pos_le : pos ≤ text.length

namespace Caret

variable {α : Type} (t : Caret α)
variable {room : Nat}

def atEnd (text : List α) : Caret α := ⟨text, text.length, Nat.le_refl _⟩

def left : Caret α := ⟨t.text, t.pos - 1, Nat.le_trans (Nat.sub_le t.pos 1) t.pos_le⟩

def right : Caret α := if h : t.pos < t.text.length then ⟨t.text, t.pos + 1, h⟩ else t

theorem pos_erase_le (h : 0 < t.pos) : t.pos - 1 ≤ (t.text.eraseIdx (t.pos - 1)).length := by
  have hle := t.pos_le
  rw [List.length_eraseIdx, if_pos (by omega)]
  omega

/-- What stands in front of the caret goes. -/
def erase : Caret α :=
  if h : 0 < t.pos then ⟨t.text.eraseIdx (t.pos - 1), t.pos - 1, t.pos_erase_le h⟩ else t

theorem pos_insert_le (x : α) : t.pos + 1 ≤ (t.text.insertIdx t.pos x).length := by
  rw [List.length_insertIdx_of_le_length t.pos_le]
  exact Nat.succ_le_succ t.pos_le

/-- `x` in front of the caret, in a text of at most `room`. -/
def insert (room : Nat) (x : α) : Caret α :=
  if t.text.length < room then ⟨t.text.insertIdx t.pos x, t.pos + 1, t.pos_insert_le x⟩ else t

variable {t}

theorem left_of_start (h : ¬ 0 < t.pos) : t.left = t := by
  have hpos : t.pos - 1 = t.pos := by omega
  cases t
  rw [left]
  congr

theorem right_of_end (h : ¬ t.pos < t.text.length) : t.right = t := by rw [right, dif_neg h]

theorem erase_of_start (h : ¬ 0 < t.pos) : t.erase = t := by rw [erase, dif_neg h]

theorem insert_of_full (h : ¬ t.text.length < room) (x : α) : t.insert room x = t := by
  rw [insert, if_neg h]

theorem length_erase (h : 0 < t.pos) : t.erase.text.length = t.text.length - 1 := by
  have hle := t.pos_le
  rw [erase, dif_pos h, List.length_eraseIdx, if_pos (by omega)]

theorem pos_erase (h : 0 < t.pos) : t.erase.pos = t.pos - 1 := by rw [erase, dif_pos h]

theorem getElem?_erase (h : 0 < t.pos) (i : Nat) :
    t.erase.text[i]? = if i < t.pos - 1 then t.text[i]? else t.text[i + 1]? := by
  rw [erase, dif_pos h, List.getElem?_eraseIdx]

theorem length_insert (h : t.text.length < room) (x : α) :
    (t.insert room x).text.length = t.text.length + 1 := by
  rw [insert, if_pos h, List.length_insertIdx_of_le_length t.pos_le]

theorem pos_insert (h : t.text.length < room) (x : α) : (t.insert room x).pos = t.pos + 1 := by
  rw [insert, if_pos h]

theorem getElem?_insert (h : t.text.length < room) (x : α) (i : Nat) :
    (t.insert room x).text[i]? =
      if i < t.pos then t.text[i]? else if i = t.pos then some x else t.text[i - 1]? := by
  have hle := t.pos_le
  rw [insert, if_pos h, List.getElem?_insertIdx]
  split_ifs <;> first | rfl | omega

theorem mem_erase {x : α} (h : x ∈ t.erase.text) : x ∈ t.text := by
  rw [erase] at h
  split at h
  · exact List.mem_of_mem_eraseIdx h
  · exact h

theorem mem_insert {x y : α} (h : y ∈ (t.insert room x).text) : y = x ∨ y ∈ t.text := by
  rw [insert] at h
  split at h
  · exact (List.mem_insertIdx t.pos_le).mp h
  · exact .inr h

end Caret

end MiniDos
