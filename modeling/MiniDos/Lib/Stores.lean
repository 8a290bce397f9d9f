import Mathlib.Data.List.Basic

/-!
# MiniDos.Lib.Stores

Stores into memory, in order.

* `Bounded.Within`: the stores of a function all hit a buffer of the given size. `Bounded.string`: a
  string and the mark at its end; it needs one place more than it is long.
* `Cells.putList`: the cells that `addr` names get the values of a list, one after the other.
  `Cells.putList_run`: for consecutive addresses this replaces one run of the memory.
* `Cells.foldl_last`: after a row of updates a cell holds what the last one that covers it gave it.
-/

namespace MiniDos
namespace Bounded

variable {α : Type}

abbrev Stores (α : Type) := List (Nat × α)

def Within (n : Nat) (ws : Stores α) : Prop := ∀ w ∈ ws, w.1 < n

/-- The elements of `s`, from place `k` on. -/
def copyFrom : Nat → List α → Stores α
  | _, [] => []
  | k, c :: s => (k, c) :: copyFrom (k + 1) s

def string (mark : α) (s : List α) : Stores α := copyFrom 0 s ++ [(s.length, mark)]

section Within

variable {n k : Nat} {ws ws' : Stores α}

@[simp] theorem within_nil : Within n ([] : Stores α) := fun _ h => (nomatch h)

@[simp] theorem within_cons {w : Nat × α} : Within n (w :: ws) ↔ w.1 < n ∧ Within n ws :=
  List.forall_mem_cons

@[simp] theorem within_append : Within n (ws ++ ws') ↔ Within n ws ∧ Within n ws' :=
  List.forall_mem_append

theorem within_copyFrom {s : List α} (h : k + s.length ≤ n) : Within n (copyFrom k s) := by
  induction s generalizing k with
  | nil => exact within_nil
  | cons c s ih =>
    rw [List.length_cons] at h
    exact within_cons.mpr ⟨by simp only; omega, ih (by omega)⟩

theorem within_string_iff {mark : α} {s : List α} : Within n (string mark s) ↔ s.length < n := by
  rw [string, within_append, within_cons]
  constructor
  · exact fun h => h.2.1
  · exact fun h => ⟨within_copyFrom (by omega), h, within_nil⟩

end Within

end Bounded

namespace Cells

variable {β : Type}

def put (m : Nat → β) (a : Nat) (b : β) : Nat → β := fun i => if i = a then b else m i

@[simp] theorem put_self (m : Nat → β) (a : Nat) (b : β) : put m a b a = b := by simp [put]

theorem put_of_ne (m : Nat → β) {a i : Nat} (b : β) (h : i ≠ a) : put m a b i = m i := by
  simp [put, h]

def putList (addr : Nat → Nat) : List β → (Nat → β) → Nat → β
  | [], m => m
  | b :: bs, m => putList (fun i => addr (i + 1)) bs (put m (addr 0) b)

theorem putList_frame {addr : Nat → Nat} {bs : List β} {m : Nat → β} {x : Nat}
    (h : ∀ i < bs.length, x ≠ addr i) : putList addr bs m x = m x := by
  induction bs generalizing addr m with
  | nil => rfl
  | cons b bs ih =>
    have h0 : x ≠ addr 0 := h 0 (by simp)
    have hrest : ∀ i < bs.length, x ≠ addr (i + 1) := fun i hi => h (i + 1) (by simpa using hi)
    simp only [putList]
    rw [ih hrest, put_of_ne m b h0]

theorem putList_run {addr : Nat → Nat} {bs : List β} {m : Nat → β} {a : Nat}
    (h : ∀ i < bs.length, addr i = a + i) {k : Nat} (hk : k < bs.length) :
    putList addr bs m (a + k) = bs[k] := by
  induction bs generalizing addr m a k with
  | nil => simp at hk
  | cons b bs ih =>
    have h0 : addr 0 = a := by simpa using h 0 (by simp)
    have hrest : ∀ i < bs.length, addr (i + 1) = a + 1 + i := by
      intro i hi
      have := h (i + 1) (by simpa using hi)
      omega
    simp only [putList]
    cases k with
    | zero =>
      rw [putList_frame (fun i hi => by rw [hrest i hi]; omega)]
      simp [h0]
    | succ k =>
      have := ih (m := put m (addr 0) b) hrest (k := k) (by simpa using hk)
      rw [show a + (k + 1) = a + 1 + k by omega, this]
      rfl

/-! ## Updates one after the other -/

section Updates

variable {σ : Type} {upd : (Nat → β) → σ → Nat → β} {covers : σ → Prop} [DecidablePred covers]
  {val : σ → β} {x : Nat}

theorem foldl_last {us : List σ}
    (h : ∀ u ∈ us, ∀ m, upd m u x = if covers u then val u else m x) (m : Nat → β) :
    us.foldl upd m x = ((us.reverse.find? fun u => decide (covers u)).map val).getD (m x) := by
  induction us generalizing m with
  | nil => rfl
  | cons u us ih =>
    have hu := h u (by simp) m
    have hrest := ih (fun u' h' => h u' (by simp [h'])) (upd m u)
    simp only [List.foldl_cons, List.reverse_cons, List.find?_append, hrest]
    cases hlast : us.reverse.find? (fun u => decide (covers u)) with
    | some u' => simp
    | none => by_cases hc : covers u <;> simp [hu, hc]

end Updates

end Cells
end MiniDos
