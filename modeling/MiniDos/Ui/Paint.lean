import MiniDos.Lib.Picture
import MiniDos.Ui.Rect
import MiniDos.Video.Gfx

/-!
# MiniDos.Ui.Paint

The primitives of `ui_draw.h`, as the pictures they leave on the drawing target: filled rectangles,
text, and text inside a clip rectangle. The rectangles are queued; `batch_draws_each` is why a queued
rectangle counts as drawn where it is queued.

* `textPic`: what `video_draw_text_impl` writes, glyph by glyph.
* `rectIntersect_has`, `rectIntersect_inside`: the pixels of an intersection, whose sides may wrap.
-/

namespace MiniDos
namespace Ui

open Video Plane Picture

abbrev Canvas := Pic UInt32

/-- What drawing depends on: the size of the screen, the font of the kernel and `ui_font_8x8`. -/
structure Display where
  width : Int
  height : Int
  font : Font
  uiFont : Font

def Display.screen (d : Display) : Rect := screenRect d.width d.height

def uiRgb (r g b : UInt32) : UInt32 :=
  ((r &&& 0xFF) <<< 16) ||| ((g &&& 0xFF) <<< 8) ||| (b &&& 0xFF)

def uiCharW : Int := 8
def uiCharH : Int := 8

def rectContainsRect (outer inner : Rect) : Bool :=
  !rectIsEmpty inner && outer.x ≤ inner.x && outer.y ≤ inner.y &&
    int32 (inner.x + inner.w) ≤ int32 (outer.x + outer.w) &&
    int32 (inner.y + inner.h) ≤ int32 (outer.y + outer.h)

/-! ## Coordinates -/

/-- Every side is at most `n` away from the origin. -/
def Bounded (n : Int) (r : Rect) : Prop :=
  -n ≤ r.x ∧ r.x ≤ n ∧ -n ≤ r.y ∧ r.y ≤ n ∧ -n ≤ r.right ∧ r.right ≤ n ∧ -n ≤ r.bottom ∧ r.bottom ≤ n

instance (n : Int) (r : Rect) : Decidable (Bounded n r) := inferInstanceAs (Decidable (_ ∧ _))

/-- No sum of its sides overflows. -/
abbrev Mild (r : Rect) : Prop := Bounded (2 ^ 20) r

variable {a b : Rect} {x y : Int}

theorem int32_small {n : Int} (h : -(2 ^ 31) ≤ n ∧ n < 2 ^ 31) : int32 n = n := int32_of_fits h

theorem int32_span {x w m n : Int} (hw : FitsInt w) (hm : x ≤ m) (hn : n ≤ x + w) (h : m < n) :
    int32 (n - m) = n - m := by
  unfold FitsInt at hw
  exact int32_small (by omega)

theorem ite_gt_max (n m : Int) : (if n > m then n else m) = max n m := by omega

theorem ite_lt_min (n m : Int) : (if n < m then n else m) = min n m := by omega

theorem rectIsEmpty_iff : rectIsEmpty a = true ↔ ¬ a.Solid := by
  simp only [rectIsEmpty, Rect.Solid, Bool.or_eq_true, decide_eq_true_eq]
  omega

/-- Coordinates of the C type. -/
structure FitsRect (r : Rect) : Prop where
  x : FitsInt r.x
  y : FitsInt r.y
  w : FitsInt r.w
  h : FitsInt r.h

/-- Its sides do not wrap either. -/
structure Unwrapped (r : Rect) : Prop extends FitsRect r where
  right : FitsInt r.right
  bottom : FitsInt r.bottom

theorem Unwrapped.ends (h : Unwrapped a) :
    int32 (a.x + a.w) = a.right ∧ int32 (a.y + a.h) = a.bottom :=
  ⟨int32_of_fits h.right, int32_of_fits h.bottom⟩

theorem Bounded.unwrapped (h : Mild a) : Unwrapped a := by
  unfold Mild Bounded Rect.right Rect.bottom at h
  refine ⟨⟨?_, ?_, ?_, ?_⟩, ?_, ?_⟩ <;> unfold FitsInt
  · omega
  · omega
  · omega
  · omega
  · unfold Rect.right
    omega
  · unfold Rect.bottom
    omega

theorem rectIntersect_unwrapped (ha : Unwrapped a) (hb : Unwrapped b) :
    rectIntersect a b =
      if min a.right b.right ≤ max a.x b.x ∨ min a.bottom b.bottom ≤ max a.y b.y then ⟨0, 0, 0, 0⟩
      else .ofCorners (max a.x b.x) (max a.y b.y) (min a.right b.right) (min a.bottom b.bottom) := by
  obtain ⟨har, hab⟩ := ha.ends
  obtain ⟨hbr, hbb⟩ := hb.ends
  simp only [rectIntersect, har, hbr, hab, hbb, ite_gt_max, ite_lt_min]
  split
  · rfl
  · rename_i hmeet
    -- what they have in common is no wider than the first
    obtain ⟨hx, hy⟩ := not_or.mp hmeet
    have hwide : min a.right b.right ≤ a.x + a.w := min_le_left _ _
    have hhigh : min a.bottom b.bottom ≤ a.y + a.h := min_le_left _ _
    unfold Rect.ofCorners
    rw [int32_span ha.w (le_max_left _ _) hwide (not_le.mp hx),
      int32_span ha.h (le_max_left _ _) hhigh (not_le.mp hy)]

theorem rectIntersect_eq (ha : Mild a) (hb : Mild b) :
    rectIntersect a b =
      if min a.right b.right ≤ max a.x b.x ∨ min a.bottom b.bottom ≤ max a.y b.y then ⟨0, 0, 0, 0⟩
      else .ofCorners (max a.x b.x) (max a.y b.y) (min a.right b.right) (min a.bottom b.bottom) :=
  rectIntersect_unwrapped ha.unwrapped hb.unwrapped

theorem rectContainsRect_iff (ha : Unwrapped a) (hb : Unwrapped b) :
    rectContainsRect a b = true ↔ b.Solid ∧ a.Covers b := by
  obtain ⟨har, hab⟩ := ha.ends
  obtain ⟨hbr, hbb⟩ := hb.ends
  have hempty : rectIsEmpty b = false ↔ b.Solid := by
    rw [← Bool.not_eq_true, rectIsEmpty_iff, not_not]
  simp only [rectContainsRect, Bool.and_eq_true, Bool.not_eq_true', decide_eq_true_eq, har, hbr, hab, hbb,
    hempty, and_assoc]
  exact Iff.rfl

theorem covers_of_contains (ha : Mild a) (hb : Mild b) (h : rectContainsRect a b = true) : a.Covers b :=
  ((rectContainsRect_iff ha.unwrapped hb.unwrapped).mp h).2

theorem rectIntersect_has (ha : Mild a) (hb : Mild b) :
    (rectIntersect a b).Has x y ↔ a.Has x y ∧ b.Has x y := by
  rw [rectIntersect_eq ha hb]
  split
  · unfold Rect.Has
    simp only [Rect.right, Rect.bottom] at *
    omega
  · unfold Rect.Has
    rw [Rect.ofCorners_right, Rect.ofCorners_bottom]
    simp only [Rect.ofCorners]
    omega

theorem not_empty_of_has (ha : Mild a) (hb : Mild b) (hxa : a.Has x y) (hxb : b.Has x y) :
    ¬ rectIsEmpty (rectIntersect a b) = true := by
  rw [rectIsEmpty_iff, not_not]
  exact ((rectIntersect_has ha hb).mpr ⟨hxa, hxb⟩).solid

theorem intersect_side {a w b v : Int} (ha : FitsInt a) (hw : FitsInt w) (hpos : 0 < w) {low high : Int}
    (hlow : low = if a > b then a else b)
    (hhigh : high = if int32 (a + w) < int32 (b + v) then int32 (a + w) else int32 (b + v)) (hne : low < high)
    (hsize : 0 < int32 (high - low)) :
    int32 (low + int32 (high - low)) = high ∧ int32 (high - low) = high - low ∧ a ≤ low ∧ high ≤ a + w := by
  have hend := int32_sum (n := a + w) (by rw [FitsInt] at *; omega) (by rw [FitsInt] at *; omega)
  have hfits := int32_range (a + w)
  have hfits' := int32_range (b + v)
  rw [FitsInt] at ha hw hfits hfits'
  have hle : a ≤ low := by
    rw [hlow]
    split <;> omega
  have hhigh' : high ≤ int32 (a + w) ∧ -(2 ^ 31) ≤ high ∧ high < 2 ^ 31 := by
    rw [hhigh]
    split <;> omega
  have hwidth := int32_sum (n := high - low) (by omega) (by omega)
  have hgap : int32 (high - low) = high - low := by omega
  rw [hgap, show low + (high - low) = high by omega]
  exact ⟨int32_of_fits ⟨by omega, by omega⟩, rfl, hle, by omega⟩

theorem intersect_sides (h : rectIntersect a b ≠ ⟨0, 0, 0, 0⟩) :
    ∃ lowX highX lowY highY,
      (lowX = if a.x > b.x then a.x else b.x) ∧
      (highX = if int32 (a.x + a.w) < int32 (b.x + b.w) then int32 (a.x + a.w) else int32 (b.x + b.w)) ∧
      (lowY = if a.y > b.y then a.y else b.y) ∧
      (highY = if int32 (a.y + a.h) < int32 (b.y + b.h) then int32 (a.y + a.h) else int32 (b.y + b.h)) ∧
      lowX < highX ∧ lowY < highY ∧
      rectIntersect a b = ⟨lowX, lowY, int32 (highX - lowX), int32 (highY - lowY)⟩ := by
  generalize hcommon : rectIntersect a b = common at h ⊢
  simp only [rectIntersect] at hcommon
  generalize (if a.x > b.x then a.x else b.x) = lowX at hcommon
  generalize (if a.y > b.y then a.y else b.y) = lowY at hcommon
  generalize (if int32 (a.x + a.w) < int32 (b.x + b.w) then int32 (a.x + a.w)
    else int32 (b.x + b.w)) = highX at hcommon
  generalize (if int32 (a.y + a.h) < int32 (b.y + b.h) then int32 (a.y + a.h)
    else int32 (b.y + b.h)) = highY at hcommon
  split at hcommon
  · exact absurd hcommon.symm h
  · rename_i hgap
    rw [not_or, Int.not_le, Int.not_le] at hgap
    exact ⟨lowX, highX, lowY, highY, rfl, rfl, rfl, rfl, hgap.1, hgap.2, hcommon.symm⟩

theorem intersect_ne_zero (h : ¬ rectIsEmpty (rectIntersect a b) = true) : rectIntersect a b ≠ ⟨0, 0, 0, 0⟩ := by
  intro hzero
  rw [hzero] at h
  exact h rfl

theorem rectIntersect_inside {dest clip : Rect} (hd : FitsRect dest) (hw : 0 < dest.w) (hh : 0 < dest.h)
    (hne : ¬ rectIsEmpty (rectIntersect dest clip) = true) :
    int32 ((rectIntersect dest clip).x + (rectIntersect dest clip).w) = (rectIntersect dest clip).right ∧
      int32 ((rectIntersect dest clip).y + (rectIntersect dest clip).h) = (rectIntersect dest clip).bottom ∧
      ∀ x y, (rectIntersect dest clip).Has x y → dest.Has x y := by
  obtain ⟨lowX, highX, lowY, highY, hlowX, hhighX, hlowY, hhighY, hgapX, hgapY, hcommon⟩ :=
    intersect_sides (intersect_ne_zero hne)
  rw [rectIsEmpty_iff, not_not, hcommon] at hne
  rw [hcommon]
  obtain ⟨hright, hwidth, hleft, hdright⟩ := intersect_side hd.x hd.w hw hlowX hhighX hgapX hne.1
  obtain ⟨hbottom, hheight, htop, hdbottom⟩ := intersect_side hd.y hd.h hh hlowY hhighY hgapY hne.2
  refine ⟨hright.trans ?_, hbottom.trans ?_, fun x y hin => ?_⟩
  · rw [Rect.right]
    dsimp only
    omega
  · rw [Rect.bottom]
    dsimp only
    omega
  · simp only [Rect.Has, Rect.right, Rect.bottom] at hin ⊢
    omega

theorem rectUnion_unwrapped (ha : Unwrapped a) (hb : Unwrapped b) (hw : FitsInt (a.hull b).w)
    (hh : FitsInt (a.hull b).h) :
    rectUnion a b = if ¬ a.Solid then b else if ¬ b.Solid then a else a.hull b := by
  unfold rectUnion
  simp only [rectIsEmpty_iff]
  split
  · rfl
  split
  · rfl
  obtain ⟨har, hab⟩ := ha.ends
  obtain ⟨hbr, hbb⟩ := hb.ends
  simp only [har, hbr, hab, hbb, ite_gt_max, ite_lt_min]
  unfold Rect.hull at hw hh ⊢
  rw [int32_of_fits hw, int32_of_fits hh]

/-! ## Rectangles -/

/-- `ui_fill_rect`; the kernel refuses a rectangle whose sides overflow. -/
def fillRect (r : Rect) (color : UInt32) : Canvas :=
  if r.w ≤ 0 ∨ r.h ≤ 0 ∨ ¬ GfxLegacyRectSafe r then blank else fill r color

/-! ## Text -/

/-- The character cells of a text, with the `\n`s as line ends. -/
def textCells (startX : Int) : List UInt8 → Int → Int → List (UInt8 × Int × Int)
  | [], _, _ => []
  | c :: text, x, y =>
    if c = 0x0A then textCells startX text startX (y + fontH)
    else (c, x, y) :: textCells startX text (x + fontW) y

def cellRect (cell : UInt8 × Int × Int) : Rect := ⟨cell.2.1, cell.2.2, fontW, fontH⟩

/-- A set bit of a row of a glyph. -/
def inked (font : Font) (c : UInt8) (gx gy : Nat) : Bool :=
  font c gy &&& ((1 : UInt8) <<< (7 - gx.toUInt8)) ≠ 0

def glyphColor (font : Font) (fg bg : UInt32) (transparent : Bool) (cell : UInt8 × Int × Int)
    (x y : Int) : Option UInt32 :=
  if inked font cell.1 (x - cell.2.1).toNat (y - cell.2.2).toNat then some fg
  else if transparent then none else some bg

/-- The pixels of a cell that `clip` has. -/
def glyphPic (font : Font) (clip : Rect) (fg bg : UInt32) (transparent : Bool)
    (cell : UInt8 × Int × Int) : Canvas :=
  fun x y =>
    if (cellRect cell).Has x y ∧ clip.Has x y then glyphColor font fg bg transparent cell x y
    else none

def glyphShown (clip : Rect) (fullGlyphs : Bool) (cell : UInt8 × Int × Int) : Bool :=
  !fullGlyphs || decide (clip.Covers (cellRect cell))

/-- `video_draw_text_impl`. -/
def textPic (font : Font) (clip : Rect) (fg bg : UInt32) (transparent fullGlyphs : Bool)
    (x y : Int) (text : List UInt8) : Canvas :=
  stack (((textCells x text x y).filter (glyphShown clip fullGlyphs)).map
    (glyphPic font clip fg bg transparent))

/-- The buffer that a text is copied into; the loop that copies stops one byte short of its end. -/
def appUserTextMax : Nat := 256

/-- `ui_draw_text`: `MINIDOS_SYSCALL_GFX_TEXT`, which draws whole glyphs. -/
def drawText (d : Display) (x y : Int) (text : List UInt8) (fg bg : UInt32) : Canvas :=
  if appUserTextMax ≤ text.length + 1 then blank
  else
    textPic d.font d.screen fg bg false true (clipHigh d.width (clipLow x))
      (clipHigh d.height (clipLow y)) text

/-- A character that `ui_font_8x8` lacks is a blank. -/
def uiFontChar (c : UInt8) : UInt8 := if c < 32 ∨ 126 < c then 32 else c

/-- `ui_draw_char_cell_partially_clipped`: the background, and the set bits of each row, in runs. -/
def charCellPartiallyClipped (d : Display) (x y : Int) (c : UInt8) (fg bg : UInt32) (clip : Rect) :
    Canvas :=
  let drawn := rectIntersect ⟨x, y, uiCharW, uiCharH⟩ clip
  if rectIsEmpty drawn then blank
  else fun px py =>
    if drawn.Has px py then glyphColor d.uiFont fg bg false (uiFontChar c, x, y) px py else none

/-- One turn of the loop of `ui_draw_text_clipped`. -/
def textClippedCell (d : Display) (x y : Int) (fg bg : UInt32) (clip : Rect) (c : UInt8 × Nat) :
    Canvas :=
  let cell : Rect := ⟨int32 (x + c.2 * uiCharW), y, uiCharW, uiCharH⟩
  if rectIsEmpty (rectIntersect cell clip) then blank
  else if ¬ rectContainsRect clip cell then charCellPartiallyClipped d cell.x cell.y c.1 fg bg clip
  else drawText d cell.x cell.y [c.1] fg bg

end Ui
end MiniDos
