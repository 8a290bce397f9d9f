import Mathlib.Data.List.Basic
import Mathlib.Tactic.Linarith

/-!
# MiniDos.Lib.Raster

Pixels in memory, and loops over the cells of a rectangle that step two pointers of 32 bits.

* `Raster.visits`: the pairs of addresses that such a loop comes to, in order. `Raster.rows_eq`: the
  loop is a fold over them.
* `Raster.Ram`: memory, byte by byte, and `AgreeOff`: two memories that differ at some addresses only.
* `Pixmap`: rows that are `stride` bytes apart. `Pixmap.offset_lt`: one that fits has all its bytes below
  the limit. `Pixmap.offset_inj`: no two of its bytes share a place.
* `Pixmap.exists_step`: steps that go far enough do not jump over all places in between.
-/

namespace MiniDos
namespace Raster

variable {σ : Type}

/-- `n` cells from `s` and `d` on. -/
def cells (f : UInt32 → UInt32 → σ → σ) (ss ds : UInt32) : Nat → UInt32 → UInt32 → σ → σ
  | 0, _, _, st => st
  | n + 1, s, d, st => cells f ss ds n (s + ss) (d + ds) (f s d st)

/-- `n` rows of `w` cells. -/
def rows (f : UInt32 → UInt32 → σ → σ) (ss ds sp dp : UInt32) (w : Nat) :
    Nat → UInt32 → UInt32 → σ → σ
  | 0, _, _, st => st
  | n + 1, s, d, st => rows f ss ds sp dp w n (s + sp) (d + dp) (cells f ss ds w s d st)

/-- Cell `i` of a row. -/
def cell (ss ds s d : UInt32) (i : Nat) : UInt32 × UInt32 :=
  (s + UInt32.ofNat i * ss, d + UInt32.ofNat i * ds)

def visits (ss ds sp dp : UInt32) (w h : Nat) (s d : UInt32) : List (UInt32 × UInt32) :=
  (List.range h).flatMap fun j =>
    (List.range w).map (cell ss ds (s + UInt32.ofNat j * sp) (d + UInt32.ofNat j * dp))

theorem step_add (a b : UInt32) (i : Nat) :
    a + b + UInt32.ofNat i * b = a + UInt32.ofNat (i + 1) * b := by
  rw [UInt32.ofNat_add]
  grind

theorem cells_eq (f : UInt32 → UInt32 → σ → σ) (ss ds : UInt32) (n : Nat) (s d : UInt32) (st : σ) :
    cells f ss ds n s d st =
      ((List.range n).map (cell ss ds s d)).foldl (fun st p => f p.1 p.2 st) st := by
  induction n generalizing s d st with
  | zero => rfl
  | succ n ih =>
    have hzero : cell ss ds s d 0 = (s, d) := by
      simp [cell]
    have hsucc : cell ss ds (s + ss) (d + ds) = cell ss ds s d ∘ Nat.succ := by
      funext i
      simp only [cell, step_add, Function.comp]
    rw [cells, ih, List.range_succ_eq_map, List.map_cons, List.foldl_cons, hzero, List.map_map,
      hsucc]

theorem rows_eq (f : UInt32 → UInt32 → σ → σ) (ss ds sp dp : UInt32) (w n : Nat) (s d : UInt32)
    (st : σ) :
    rows f ss ds sp dp w n s d st =
      (visits ss ds sp dp w n s d).foldl (fun st p => f p.1 p.2 st) st := by
  unfold visits
  induction n generalizing s d st with
  | zero => rfl
  | succ n ih =>
    rw [rows, ih, cells_eq, List.range_succ_eq_map, List.flatMap_cons, List.foldl_append,
      List.flatMap_map]
    simp only [step_add, Nat.succ_eq_add_one]
    simp

/-! ## Memory -/

abbrev Ram := UInt32 → UInt8

def store8 (m : Ram) (a : UInt32) (v : UInt8) : Ram := fun b => if b = a then v else m b

def store16 (m : Ram) (a : UInt32) (v : UInt16) : Ram :=
  store8 (store8 m a v.toUInt8) (a + 1) (v >>> 8).toUInt8

def store32 (m : Ram) (a : UInt32) (v : UInt32) : Ram :=
  store8 (store8 (store8 (store8 m a v.toUInt8) (a + 1) (v >>> 8).toUInt8) (a + 2)
    (v >>> 16).toUInt8) (a + 3) (v >>> 24).toUInt8

def load32 (m : Ram) (a : UInt32) : UInt32 :=
  (m a).toUInt32 ||| ((m (a + 1)).toUInt32 <<< 8) ||| ((m (a + 2)).toUInt32 <<< 16) |||
    ((m (a + 3)).toUInt32 <<< 24)

/-- They differ at most at the addresses of `F`. -/
def AgreeOff (F : UInt32 → Prop) (m m' : Ram) : Prop := ∀ a, ¬ F a → m a = m' a

variable {F : UInt32 → Prop} {m m' : Ram}

theorem agreeOff_refl (F : UInt32 → Prop) (m : Ram) : AgreeOff F m m := fun _ _ => rfl

theorem AgreeOff.store8 (h : AgreeOff F m m') {a : UInt32} {v v' : UInt8} (hv : v = v' ∨ F a) :
    AgreeOff F (store8 m a v) (store8 m' a v') := by
  intro b hb
  unfold Raster.store8
  split
  · rename_i hab
    rw [hab] at hb
    exact hv.resolve_right hb
  · exact h b hb

theorem AgreeOff.store8_left (h : AgreeOff F m m') {a : UInt32} (ha : F a) (v : UInt8) :
    AgreeOff F (Raster.store8 m a v) m' := by
  intro b hb
  have hne : b ≠ a := fun hab => hb (hab ▸ ha)
  unfold Raster.store8
  rw [if_neg hne]
  exact h b hb

end Raster

structure Pixmap where
  base : Int
  stride : Int
  size : Int
  width : Int
  height : Int

namespace Pixmap

variable (r : Pixmap)

/-- Byte `k` of the pixel in column `x` of row `y`. -/
structure Has (x y k : Int) : Prop where
  x : 0 ≤ x ∧ x < r.width
  y : 0 ≤ y ∧ y < r.height
  k : 0 ≤ k ∧ k < r.size

def offset (x y k : Int) : Int := r.base + y * r.stride + x * r.size + k

/-- Rows do not overlap, and the last one ends below the limit. -/
structure Fits (limit : Int) : Prop where
  row : r.width * r.size ≤ r.stride
  last : r.base + r.height * r.stride ≤ limit

variable {r} {limit x y k x' y' k' : Int}

theorem inRow_lt (hrow : r.width * r.size ≤ r.stride) (h : r.Has x y k) :
    0 ≤ x * r.size + k ∧ x * r.size + k < r.stride := by
  have hx := h.x
  have hk := h.k
  have hsize : 0 ≤ r.size := by omega
  have hlow : 0 ≤ x * r.size := Int.mul_nonneg hx.1 hsize
  have hnext : (x + 1) * r.size ≤ r.width * r.size := Int.mul_le_mul_of_nonneg_right (by omega) hsize
  rw [Int.add_mul, Int.one_mul] at hnext
  omega

theorem le_offset (hrow : r.width * r.size ≤ r.stride) (h : r.Has x y k) : r.base ≤ r.offset x y k := by
  have hin := inRow_lt hrow h
  have hrows : 0 ≤ y * r.stride := Int.mul_nonneg h.y.1 (by omega)
  rw [offset]
  omega

theorem offset_lt (hf : r.Fits limit) (h : r.Has x y k) : r.offset x y k < limit := by
  have hin := inRow_lt hf.row h
  have hlast := hf.last
  have hnext : (y + 1) * r.stride ≤ r.height * r.stride :=
    Int.mul_le_mul_of_nonneg_right (by have := h.y; omega) (by omega)
  rw [Int.add_mul, Int.one_mul] at hnext
  rw [offset]
  omega

theorem eq_of_mul_add_eq {n a b i j : Int} (hi : 0 ≤ i ∧ i < n) (hj : 0 ≤ j ∧ j < n)
    (h : a * n + i = b * n + j) : a = b ∧ i = j := by
  have hquot : ∀ c k : Int, 0 ≤ k ∧ k < n → (c * n + k) / n = c := by
    intro c k hk
    rw [Int.add_comm, Int.add_mul_ediv_right _ _ (by omega), Int.ediv_eq_zero_of_lt hk.1 hk.2, Int.zero_add]
  have hab : a = b := by rw [← hquot a i hi, h, hquot b j hj]
  subst hab
  exact ⟨rfl, by omega⟩

theorem offset_inj (hrow : r.width * r.size ≤ r.stride) (h : r.Has x y k) (h' : r.Has x' y' k')
    (heq : r.offset x y k = r.offset x' y' k') : x = x' ∧ y = y' ∧ k = k' := by
  rw [offset, offset] at heq
  obtain ⟨hy, hin⟩ := eq_of_mul_add_eq (inRow_lt hrow h) (inRow_lt hrow h')
    (show y * r.stride + (x * r.size + k) = y' * r.stride + (x' * r.size + k') by omega)
  obtain ⟨hx, hk⟩ := eq_of_mul_add_eq h.k h'.k hin
  exact ⟨hx, hy, hk⟩

theorem exists_step {step n low : Int} (hstep : 0 < step) (hlow : 0 ≤ low) (hfar : low ≤ (n - 1) * step) :
    ∃ i, 0 ≤ i ∧ i < n ∧ low ≤ i * step ∧ i * step < low + step := by
  have hdiv := Int.mul_ediv_add_emod (low + step - 1) step
  have hmod := Int.emod_lt_of_pos (low + step - 1) hstep
  have hmod' := Int.emod_nonneg (low + step - 1) (Int.ne_of_gt hstep)
  have hle : (low + step - 1) / step * step < n * step := by
    rw [Int.sub_mul, Int.one_mul] at hfar
    rw [Int.mul_comm]
    omega
  refine ⟨(low + step - 1) / step, Int.ediv_nonneg (by omega) (by omega), ?_, ?_, ?_⟩
  · exact lt_of_mul_lt_mul_right hle (by omega)
  · rw [Int.mul_comm]
    omega
  · rw [Int.mul_comm]
    omega

end Pixmap
end MiniDos
