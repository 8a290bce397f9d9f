import Mathlib.Data.List.Nodup
import Mathlib.Algebra.Ring.Periodic

/-!
# MiniDos.Lib.Orbit

The nodes passed by following a successor function from a start, as long as it leads to nodes. The
path may run into itself, unlike a chain.

* `Orbit.of_closed`: a closed set with the start in it holds the orbit.
* `Trail`: a walk so far, with the nodes it passed and the place it stands at.
* `Trail.orbit_iff`: where a walk stops or meets itself, it has passed the whole orbit.
* `Cycle.constant_of_le`, `Cycle.constant_of_settles`: what repeats and can only move one way stands
  still.
-/

namespace MiniDos
namespace Walk

variable {α : Type} {next : α → α} {node : α → Prop} {start : α}

inductive Orbit (next : α → α) (node : α → Prop) (start : α) : α → Prop where
  | start (h : node start) : Orbit next node start start
  | next {x : α} (hx : Orbit next node start x) (h : node (next x)) : Orbit next node start (next x)

namespace Orbit

theorem isNode {x : α} (h : Orbit next node start x) : node x := by
  cases h with
  | start h => exact h
  | next _ h => exact h

theorem of_closed {S : α → Prop} (hstart : node start → S start)
    (hnext : ∀ x, S x → node (next x) → S (next x)) {x : α} (h : Orbit next node start x) : S x := by
  induction h with
  | start h => exact hstart h
  | next _ h ih => exact hnext _ ih h

end Orbit

/-- A walk from `start` that has passed `l` and stands at `c`. -/
structure Trail (next : α → α) (node : α → Prop) (start : α) (l : List α) (c : α) : Prop where
  passed : ∀ x ∈ l, Orbit next node start x
  nodup : l.Nodup
  begun : start = c ∨ start ∈ l
  onward : ∀ x ∈ l, next x = c ∨ next x ∈ l
  front : node c → Orbit next node start c

namespace Trail

variable {l : List α} {c : α}

theorem refl : Trail next node start [] start :=
  ⟨fun _ h => (nomatch h), List.nodup_nil, .inl rfl, fun _ h => (nomatch h), .start⟩

theorem step (h : Trail next node start l c) (hc : node c) (hnew : c ∉ l) :
    Trail next node start (c :: l) (next c) := by
  refine ⟨?_, List.nodup_cons.mpr ⟨hnew, h.nodup⟩, ?_, ?_, fun hn => .next (h.front hc) hn⟩
  · intro x hx
    rcases List.mem_cons.mp hx with rfl | hx
    · exact h.front hc
    · exact h.passed x hx
  · rcases h.begun with rfl | hs
    · exact .inr List.mem_cons_self
    · exact .inr (List.mem_cons_of_mem _ hs)
  · intro x hx
    rcases List.mem_cons.mp hx with rfl | hx
    · exact .inl rfl
    · rcases h.onward x hx with hn | hn
      · exact .inr (hn ▸ List.mem_cons_self)
      · exact .inr (List.mem_cons_of_mem _ hn)

theorem orbit_iff (h : Trail next node start l c) (hend : node c → c ∈ l) {x : α} :
    Orbit next node start x ↔ x ∈ l := by
  refine ⟨fun hx => hx.of_closed (S := (· ∈ l)) (fun hn => ?_) (fun y hy hn => ?_), h.passed x⟩
  · rcases h.begun with rfl | hs
    · exact hend hn
    · exact hs
  · rcases h.onward y hy with he | hy'
    · rw [he]
      exact hend (he ▸ hn)
    · exact hy'

end Trail

end Walk

namespace Cycle

open Function

variable {α : Type} {n : Nat}

theorem comes_back {a : Nat → α} (hper : Periodic a n) (hn : 0 < n) (j k : Nat) :
    ∃ i, a (j + i) = a k := by
  have hle : j ≤ k + j * n :=
    Nat.le_trans (Nat.le_mul_of_pos_right j hn) (Nat.le_add_left _ _)
  refine ⟨k + j * n - j, ?_⟩
  rw [Nat.add_sub_cancel' hle]
  exact hper.nat_mul j k

theorem le_add {a : Nat → Nat} (hmono : ∀ k, a k ≤ a (k + 1)) (j i : Nat) : a j ≤ a (j + i) := by
  induction i with
  | zero => exact Nat.le_refl _
  | succ i ih => exact Nat.le_trans ih (hmono (j + i))

theorem constant_of_le {a : Nat → Nat} (hper : Periodic a n) (hn : 0 < n)
    (hmono : ∀ k, a k ≤ a (k + 1)) (j k : Nat) : a j = a k := by
  obtain ⟨i, hi⟩ := comes_back hper hn j k
  obtain ⟨i', hi'⟩ := comes_back hper hn k j
  exact Nat.le_antisymm (hi ▸ le_add hmono j i) (hi' ▸ le_add hmono k i')

theorem stays {f : α → α} {a : Nat → α} (hstep : ∀ k, a (k + 1) = a k ∨ a (k + 1) = f (a k)) {j : Nat}
    (hj : f (a j) = a j) (i : Nat) : a (j + i) = a j := by
  induction i with
  | zero => rfl
  | succ i ih =>
    obtain h | h := hstep (j + i)
    · exact h.trans ih
    · rw [ih, hj] at h
      exact h

theorem constant_of_settles {f : α → α} (hf : ∀ x, f (f x) = f x) {a : Nat → α}
    (hper : Periodic a n) (hn : 0 < n) (hstep : ∀ k, a (k + 1) = a k ∨ a (k + 1) = f (a k))
    (k : Nat) : a k = a 0 := by
  by_cases hfix : ∃ j, f (a j) = a j
  · obtain ⟨j, hj⟩ := hfix
    have hall : ∀ k, a k = a j := by
      intro k
      obtain ⟨i, hi⟩ := comes_back hper hn j k
      rw [← hi, stays hstep hj]
    rw [hall k, hall 0]
  · have hstill : ∀ k, a (k + 1) = a k := by
      intro k
      refine (hstep k).resolve_right fun h => hfix ⟨k + 1, ?_⟩
      rw [h, hf]
    induction k with
    | zero => rfl
    | succ k ih => rw [hstill, ih]

end Cycle
end MiniDos
