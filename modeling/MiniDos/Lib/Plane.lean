import Mathlib.Data.List.Perm.Basic
import Mathlib.Order.Lattice

/-!
# MiniDos.Lib.Plane

Rectangles of pixels, half-open on the right and at the bottom, with integer coordinates.

* `Rect.Has`: the pixels of a rectangle. `Rect.hull`: the smallest rectangle around two.
* `hull_has_iff`: the pixels of the hull are those of the two where one covers the other, or where
  they touch and have a side in common.
* `Region`: the pixels of a list of rectangles.
* `Rect.carve`: the bands around a part of a rectangle, without the empty ones. `carve_has`: together
  they are the rectangle without the part. `carve_apart`: no two of them meet.
* `Lattice`: cells of one size in rows, numbered from a corner on. `Lattice.cell_has`: a cell has the
  pixels that have its number, in its row.
-/

namespace MiniDos
namespace Plane

structure Rect where
  x : Int
  y : Int
  w : Int
  h : Int
  deriving DecidableEq

namespace Rect

def right (r : Rect) : Int := r.x + r.w
def bottom (r : Rect) : Int := r.y + r.h

def Has (r : Rect) (px py : Int) : Prop :=
  r.x ≤ px ∧ px < r.right ∧ r.y ≤ py ∧ py < r.bottom

instance (r : Rect) (px py : Int) : Decidable (r.Has px py) := inferInstanceAs (Decidable (_ ∧ _))

/-- It has a pixel. -/
def Solid (r : Rect) : Prop := 0 < r.w ∧ 0 < r.h

instance (r : Rect) : Decidable r.Solid := inferInstanceAs (Decidable (_ ∧ _))

/-- `r` reaches at least as far as `s` on every side. -/
def Covers (r s : Rect) : Prop :=
  r.x ≤ s.x ∧ r.y ≤ s.y ∧ s.right ≤ r.right ∧ s.bottom ≤ r.bottom

instance (r s : Rect) : Decidable (r.Covers s) := inferInstanceAs (Decidable (_ ∧ _))

/-- They span the same rows, and touch or overlap. -/
def MeetsInRow (r s : Rect) : Prop := r.y = s.y ∧ r.h = s.h ∧ r.x ≤ s.right ∧ s.x ≤ r.right

instance (r s : Rect) : Decidable (r.MeetsInRow s) := inferInstanceAs (Decidable (_ ∧ _))

/-- They span the same columns, and touch or overlap. -/
def MeetsInColumn (r s : Rect) : Prop := r.x = s.x ∧ r.w = s.w ∧ r.y ≤ s.bottom ∧ s.y ≤ r.bottom

instance (r s : Rect) : Decidable (r.MeetsInColumn s) := inferInstanceAs (Decidable (_ ∧ _))

def hull (r s : Rect) : Rect where
  x := min r.x s.x
  y := min r.y s.y
  w := max r.right s.right - min r.x s.x
  h := max r.bottom s.bottom - min r.y s.y

def ofCorners (x₀ y₀ x₁ y₁ : Int) : Rect := ⟨x₀, y₀, x₁ - x₀, y₁ - y₀⟩

@[simp] theorem ofCorners_right (x₀ y₀ x₁ y₁ : Int) : (ofCorners x₀ y₀ x₁ y₁).right = x₁ := by
  simp only [ofCorners, right]
  omega

@[simp] theorem ofCorners_bottom (x₀ y₀ x₁ y₁ : Int) : (ofCorners x₀ y₀ x₁ y₁).bottom = y₁ := by
  simp only [ofCorners, bottom]
  omega

variable {r s : Rect} {px py : Int}

@[simp] theorem hull_right (r s : Rect) : (hull r s).right = max r.right s.right := by
  simp only [hull, right]
  omega

@[simp] theorem hull_bottom (r s : Rect) : (hull r s).bottom = max r.bottom s.bottom := by
  simp only [hull, bottom]
  omega

theorem hull_comm (r s : Rect) : hull r s = hull s r := by
  simp only [hull, min_comm r.x, min_comm r.y, max_comm r.right, max_comm r.bottom]

theorem Has.solid (h : r.Has px py) : r.Solid := by
  unfold Has right bottom at h
  unfold Solid
  omega

theorem Covers.has (h : r.Covers s) (hs : s.Has px py) : r.Has px py := by
  unfold Covers at h
  unfold Has at hs ⊢
  omega

theorem Covers.trans {t : Rect} (h : r.Covers s) (h' : s.Covers t) : r.Covers t := by
  unfold Covers at h h' ⊢
  omega

theorem Covers.refl (r : Rect) : r.Covers r := by
  unfold Covers
  omega

theorem hull_covers_left (r s : Rect) : (hull r s).Covers r := by
  unfold Covers
  rw [hull_right, hull_bottom]
  simp only [hull]
  omega

theorem hull_covers_right (r s : Rect) : (hull r s).Covers s := by
  rw [hull_comm]
  exact hull_covers_left s r

theorem Covers.hull {t : Rect} (hr : t.Covers r) (hs : t.Covers s) : t.Covers (hull r s) := by
  unfold Covers at hr hs ⊢
  rw [hull_right, hull_bottom]
  simp only [Rect.hull]
  omega

theorem Solid.hull (hr : r.Solid) (s : Rect) : (hull r s).Solid := by
  unfold Solid at hr ⊢
  simp only [Rect.hull, right, bottom]
  omega

theorem hull_has_left (h : r.Has px py) : (hull r s).Has px py := (hull_covers_left r s).has h

theorem hull_has_right (h : s.Has px py) : (hull r s).Has px py := (hull_covers_right r s).has h

theorem hull_eq_left (h : r.Covers s) : hull r s = r := by
  unfold Covers right bottom at h
  unfold hull right bottom
  cases r
  simp only [mk.injEq] at *
  omega

theorem hull_has_of_row (h : r.MeetsInRow s) (hp : (hull r s).Has px py) :
    r.Has px py ∨ s.Has px py := by
  unfold MeetsInRow right at h
  unfold Has at hp ⊢
  rw [hull_right, hull_bottom] at hp
  simp only [hull, right, bottom] at hp ⊢
  omega

theorem hull_has_of_column (h : r.MeetsInColumn s) (hp : (hull r s).Has px py) :
    r.Has px py ∨ s.Has px py := by
  unfold MeetsInColumn bottom at h
  unfold Has at hp ⊢
  rw [hull_right, hull_bottom] at hp
  simp only [hull, right, bottom] at hp ⊢
  omega

theorem hull_has_iff (h : s.Covers r ∨ r.MeetsInRow s ∨ r.MeetsInColumn s) :
    (hull r s).Has px py ↔ r.Has px py ∨ s.Has px py := by
  refine ⟨fun hp => ?_, fun hp => hp.elim hull_has_left hull_has_right⟩
  rcases h with hcovers | hrow | hcolumn
  · rw [hull_comm, hull_eq_left hcovers] at hp
    exact .inr hp
  · exact hull_has_of_row hrow hp
  · exact hull_has_of_column hcolumn hp

end Rect

def Region (rs : List Rect) (px py : Int) : Prop := ∃ r ∈ rs, r.Has px py

variable {rs : List Rect} {px py : Int}

@[simp] theorem region_nil : ¬ Region [] px py := by simp [Region]

@[simp] theorem region_append (rs : List Rect) (r : Rect) :
    Region (rs ++ [r]) px py ↔ Region rs px py ∨ r.Has px py := by
  simp [Region, or_and_right, exists_or]

theorem region_eraseIdx {i : Nat} {r : Rect} (h : rs[i]? = some r) :
    Region rs px py ↔ Region (rs.eraseIdx i) px py ∨ r.Has px py := by
  obtain ⟨hi, rfl⟩ := List.getElem?_eq_some_iff.mp h
  have hmem : ∀ s, s ∈ rs ↔ s ∈ rs.eraseIdx i ∨ s = rs[i] := by
    intro s
    rw [← List.mem_cons.trans or_comm]
    exact ((List.getElem_cons_eraseIdx_perm hi).mem_iff).symm
  constructor
  · rintro ⟨s, hs, hp⟩
    rcases (hmem s).mp hs with hs | rfl
    · exact .inl ⟨s, hs, hp⟩
    · exact .inr hp
  · rintro (⟨s, hs, hp⟩ | hp)
    · exact ⟨s, (hmem s).mpr (.inl hs), hp⟩
    · exact ⟨rs[i], List.getElem_mem hi, hp⟩

end Plane

namespace Plane

namespace Rect

/-- They have no pixel in common. -/
def Apart (r s : Rect) : Prop := ∀ px py, r.Has px py → ¬ s.Has px py

/-- What is above, below, left and right of `o` in `r`. -/
def bands (r o : Rect) : List Rect :=
  [ofCorners r.x r.y r.right o.y, ofCorners r.x o.bottom r.right r.bottom,
    ofCorners r.x o.y o.x o.bottom, ofCorners o.right o.y r.right o.bottom]

def carve (r o : Rect) : List Rect := (bands r o).filter (fun s => s.Solid)

variable {r o : Rect} {px py : Int}

theorem ofCorners_has {x₀ y₀ x₁ y₁ : Int} :
    (ofCorners x₀ y₀ x₁ y₁).Has px py ↔ x₀ ≤ px ∧ px < x₁ ∧ y₀ ≤ py ∧ py < y₁ := by
  unfold Has
  rw [ofCorners_right, ofCorners_bottom]
  exact Iff.rfl

theorem bands_apart (ho : o.Solid) : (bands r o).Pairwise Apart := by
  unfold Solid at ho
  simp only [bands, List.pairwise_cons, List.mem_cons, List.not_mem_nil, or_false, forall_eq_or_imp,
    forall_eq, List.Pairwise.nil, and_true, false_implies, implies_true, Apart, ofCorners_has]
  unfold bottom right
  refine ⟨⟨?_, ?_, ?_⟩, ⟨?_, ?_⟩, ?_⟩ <;> intro px py <;> omega

end Rect

open Rect

variable {rs : List Rect} {r o : Rect} {px py : Int}

theorem region_solid : Region (rs.filter (fun s => s.Solid)) px py ↔ Region rs px py := by
  simp only [Region, List.mem_filter, decide_eq_true_eq]
  constructor
  · rintro ⟨s, ⟨hs, _⟩, hp⟩
    exact ⟨s, hs, hp⟩
  · rintro ⟨s, hs, hp⟩
    exact ⟨s, ⟨hs, hp.solid⟩, hp⟩

theorem carve_has (hcover : r.Covers o) (ho : o.Solid) :
    Region (carve r o) px py ↔ r.Has px py ∧ ¬ o.Has px py := by
  unfold carve
  rw [region_solid]
  have hbands : Region (bands r o) px py ↔ (ofCorners r.x r.y r.right o.y).Has px py ∨
      (ofCorners r.x o.bottom r.right r.bottom).Has px py ∨ (ofCorners r.x o.y o.x o.bottom).Has px py ∨
      (ofCorners o.right o.y r.right o.bottom).Has px py := by
    simp [Region, bands]
  rw [hbands]
  simp only [ofCorners_has]
  unfold Covers at hcover
  unfold Solid at ho
  unfold Has right bottom at *
  omega

theorem carve_apart (ho : o.Solid) : (carve r o).Pairwise Apart := (bands_apart ho).filter _

theorem carve_solid {s : Rect} (hs : s ∈ carve r o) : s.Solid :=
  of_decide_eq_true (List.mem_filter.mp hs).2

end Plane

namespace Plane

structure Lattice where
  x : Int
  y : Int
  cellW : Int
  cellH : Int
  columns : Int
  cellW_pos : 0 < cellW
  cellH_pos : 0 < cellH
  columns_pos : 0 < columns

namespace Lattice

variable (l : Lattice) (slot px py : Int)

def cell : Rect := ⟨l.x + slot % l.columns * l.cellW, l.y + slot / l.columns * l.cellH, l.cellW, l.cellH⟩

def columnAt : Int := (px - l.x) / l.cellW

def rowAt : Int := (py - l.y) / l.cellH

def slotAt : Int := l.rowAt py * l.columns + l.columnAt px

/-- It is right of the corner and below it, and in one of the columns. -/
structure Holds : Prop where
  left : l.x ≤ px
  top : l.y ≤ py
  column : l.columnAt px < l.columns

variable {l slot px py}

theorem steps_iff {a b k n : Int} (hk : 0 < k) : a + n * k ≤ b ∧ b < a + n * k + k ↔ (b - a) / k = n := by
  have hlow : n ≤ (b - a) / k ↔ n * k ≤ b - a := Int.le_ediv_iff_mul_le hk
  have hhigh : (b - a) / k < n + 1 ↔ b - a < (n + 1) * k := Int.ediv_lt_iff_lt_mul hk
  rw [Int.add_mul, Int.one_mul] at hhigh
  omega

theorem cell_has_iff :
    (l.cell slot).Has px py ↔ l.columnAt px = slot % l.columns ∧ l.rowAt py = slot / l.columns := by
  rw [columnAt, rowAt, ← steps_iff l.cellW_pos, ← steps_iff l.cellH_pos, and_assoc]
  exact Iff.rfl

theorem columnAt_nonneg : 0 ≤ l.columnAt px ↔ l.x ≤ px :=
  (Int.ediv_nonneg_iff_of_pos l.cellW_pos).trans Int.sub_nonneg

theorem rowAt_nonneg : 0 ≤ l.rowAt py ↔ l.y ≤ py :=
  (Int.ediv_nonneg_iff_of_pos l.cellH_pos).trans Int.sub_nonneg

theorem Holds.divMod (h : l.Holds px py) :
    l.slotAt px py % l.columns = l.columnAt px ∧ l.slotAt px py / l.columns = l.rowAt py := by
  have hcolumn := columnAt_nonneg.mpr h.left
  unfold slotAt
  constructor
  · rw [Int.mul_add_emod_self_right]
    exact Int.emod_eq_of_lt hcolumn h.column
  · rw [Int.mul_add_ediv_right _ _ (Int.ne_of_gt l.columns_pos), Int.ediv_eq_zero_of_lt hcolumn h.column,
      Int.add_zero]

theorem Holds.slotAt_nonneg (h : l.Holds px py) : 0 ≤ l.slotAt px py :=
  Int.add_nonneg (Int.mul_nonneg (rowAt_nonneg.mpr h.top) (Int.le_of_lt l.columns_pos))
    (columnAt_nonneg.mpr h.left)

theorem cell_has (hslot : 0 ≤ slot) : (l.cell slot).Has px py ↔ l.Holds px py ∧ slot = l.slotAt px py := by
  rw [cell_has_iff]
  constructor
  · rintro ⟨hcolumn, hrow⟩
    have hcolumn0 : 0 ≤ slot % l.columns := Int.emod_nonneg slot (Int.ne_of_gt l.columns_pos)
    have hrow0 : 0 ≤ slot / l.columns := Int.ediv_nonneg hslot (Int.le_of_lt l.columns_pos)
    have hlast : slot % l.columns < l.columns := Int.emod_lt_of_pos slot l.columns_pos
    rw [← hcolumn] at hcolumn0 hlast
    rw [← hrow] at hrow0
    refine ⟨⟨columnAt_nonneg.mp hcolumn0, rowAt_nonneg.mp hrow0, hlast⟩, ?_⟩
    rw [slotAt, hcolumn, hrow, Int.mul_comm]
    exact (Int.mul_ediv_add_emod slot l.columns).symm
  · rintro ⟨hholds, rfl⟩
    exact ⟨hholds.divMod.1.symm, hholds.divMod.2.symm⟩

end Lattice

end Plane
end MiniDos
