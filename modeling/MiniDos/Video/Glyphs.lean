import MiniDos.Video.Room
import MiniDos.Video.Scale

/-!
# MiniDos.Video.Glyphs

The font of `video_font.c`, and the cells of the console that are drawn with it.

* `glyphForChar`: the table. `glyphForChar_space`: an empty cell has no pixels.
* `picture`: the pixels of a whole text. `shows_renderCell`, `shows_redraw`: what is drawn of it.
-/

namespace MiniDos
namespace Video

open Plane

/-! ## The font -/

def glyphSpace : List UInt8 := [0, 0, 0, 0, 0, 0, 0, 0]
def glyphQmark : List UInt8 := [0x3C, 0x42, 0x04, 0x18, 0x10, 0x00, 0x10, 0x00]

def glyphTable : List (UInt8 × List UInt8) := [
  (0x20, glyphSpace),
  (0x21, [0x10, 0x10, 0x10, 0x10, 0x10, 0x00, 0x10, 0x00]),
  (0x22, [0x24, 0x24, 0x24, 0x00, 0x00, 0x00, 0x00, 0x00]),
  (0x23, [0x24, 0x24, 0x7E, 0x24, 0x7E, 0x24, 0x24, 0x00]),
  (0x24, [0x10, 0x3C, 0x50, 0x3C, 0x12, 0x7C, 0x10, 0x00]),
  (0x25, [0x62, 0x64, 0x08, 0x10, 0x26, 0x46, 0x00, 0x00]),
  (0x26, [0x30, 0x48, 0x50, 0x20, 0x55, 0x48, 0x35, 0x00]),
  (0x27, [0x18, 0x18, 0x10, 0x20, 0x00, 0x00, 0x00, 0x00]),
  (0x28, [0x08, 0x10, 0x20, 0x20, 0x20, 0x10, 0x08, 0x00]),
  (0x29, [0x20, 0x10, 0x08, 0x08, 0x08, 0x10, 0x20, 0x00]),
  (0x2A, [0x00, 0x24, 0x18, 0x7E, 0x18, 0x24, 0x00, 0x00]),
  (0x2B, [0x00, 0x10, 0x10, 0x7C, 0x10, 0x10, 0x00, 0x00]),
  (0x2C, [0x00, 0x00, 0x00, 0x00, 0x00, 0x18, 0x18, 0x10]),
  (0x2D, [0x00, 0x00, 0x00, 0x7C, 0x00, 0x00, 0x00, 0x00]),
  (0x2E, [0x00, 0x00, 0x00, 0x00, 0x00, 0x18, 0x18, 0x00]),
  (0x2F, [0x02, 0x04, 0x08, 0x10, 0x20, 0x40, 0x00, 0x00]),
  (0x30, [0x3C, 0x42, 0x46, 0x4A, 0x52, 0x62, 0x3C, 0x00]),
  (0x31, [0x18, 0x28, 0x08, 0x08, 0x08, 0x08, 0x3E, 0x00]),
  (0x32, [0x3C, 0x42, 0x02, 0x0C, 0x10, 0x20, 0x7E, 0x00]),
  (0x33, [0x3C, 0x42, 0x02, 0x1C, 0x02, 0x42, 0x3C, 0x00]),
  (0x34, [0x04, 0x0C, 0x14, 0x24, 0x44, 0x7E, 0x04, 0x00]),
  (0x35, [0x7E, 0x40, 0x7C, 0x02, 0x02, 0x42, 0x3C, 0x00]),
  (0x36, [0x1C, 0x20, 0x40, 0x7C, 0x42, 0x42, 0x3C, 0x00]),
  (0x37, [0x7E, 0x42, 0x04, 0x08, 0x10, 0x10, 0x10, 0x00]),
  (0x38, [0x3C, 0x42, 0x42, 0x3C, 0x42, 0x42, 0x3C, 0x00]),
  (0x39, [0x3C, 0x42, 0x42, 0x3E, 0x02, 0x04, 0x38, 0x00]),
  (0x3A, [0x00, 0x18, 0x18, 0x00, 0x00, 0x18, 0x18, 0x00]),
  (0x3B, [0x00, 0x18, 0x18, 0x00, 0x00, 0x18, 0x18, 0x10]),
  (0x3C, [0x06, 0x18, 0x60, 0x60, 0x18, 0x06, 0x00, 0x00]),
  (0x3D, [0x00, 0x00, 0x7E, 0x00, 0x7E, 0x00, 0x00, 0x00]),
  (0x3E, [0x60, 0x18, 0x06, 0x06, 0x18, 0x60, 0x00, 0x00]),
  (0x40, [0x3C, 0x42, 0x5A, 0x5A, 0x5C, 0x40, 0x3C, 0x00]),
  (0x41, [0x18, 0x24, 0x42, 0x7E, 0x42, 0x42, 0x42, 0x00]),
  (0x42, [0x7C, 0x42, 0x42, 0x7C, 0x42, 0x42, 0x7C, 0x00]),
  (0x43, [0x3C, 0x42, 0x40, 0x40, 0x40, 0x42, 0x3C, 0x00]),
  (0x44, [0x78, 0x44, 0x42, 0x42, 0x42, 0x44, 0x78, 0x00]),
  (0x45, [0x7E, 0x40, 0x40, 0x78, 0x40, 0x40, 0x7E, 0x00]),
  (0x46, [0x7E, 0x40, 0x40, 0x78, 0x40, 0x40, 0x40, 0x00]),
  (0x47, [0x3C, 0x42, 0x40, 0x4E, 0x42, 0x42, 0x3C, 0x00]),
  (0x48, [0x42, 0x42, 0x42, 0x7E, 0x42, 0x42, 0x42, 0x00]),
  (0x49, [0x3E, 0x08, 0x08, 0x08, 0x08, 0x08, 0x3E, 0x00]),
  (0x4A, [0x1E, 0x04, 0x04, 0x04, 0x44, 0x44, 0x38, 0x00]),
  (0x4B, [0x42, 0x44, 0x48, 0x70, 0x48, 0x44, 0x42, 0x00]),
  (0x4C, [0x40, 0x40, 0x40, 0x40, 0x40, 0x40, 0x7E, 0x00]),
  (0x4D, [0x42, 0x66, 0x5A, 0x5A, 0x42, 0x42, 0x42, 0x00]),
  (0x4E, [0x42, 0x62, 0x52, 0x4A, 0x46, 0x42, 0x42, 0x00]),
  (0x4F, [0x3C, 0x42, 0x42, 0x42, 0x42, 0x42, 0x3C, 0x00]),
  (0x50, [0x7C, 0x42, 0x42, 0x7C, 0x40, 0x40, 0x40, 0x00]),
  (0x51, [0x3C, 0x42, 0x42, 0x42, 0x4A, 0x44, 0x3A, 0x00]),
  (0x52, [0x7C, 0x42, 0x42, 0x7C, 0x48, 0x44, 0x42, 0x00]),
  (0x53, [0x3C, 0x42, 0x40, 0x3C, 0x02, 0x42, 0x3C, 0x00]),
  (0x54, [0x7F, 0x08, 0x08, 0x08, 0x08, 0x08, 0x08, 0x00]),
  (0x55, [0x42, 0x42, 0x42, 0x42, 0x42, 0x42, 0x3C, 0x00]),
  (0x56, [0x42, 0x42, 0x42, 0x42, 0x24, 0x24, 0x18, 0x00]),
  (0x57, [0x42, 0x42, 0x42, 0x5A, 0x5A, 0x66, 0x42, 0x00]),
  (0x58, [0x42, 0x24, 0x18, 0x18, 0x18, 0x24, 0x42, 0x00]),
  (0x59, [0x42, 0x24, 0x18, 0x10, 0x10, 0x10, 0x10, 0x00]),
  (0x5A, [0x7E, 0x04, 0x08, 0x10, 0x20, 0x40, 0x7E, 0x00]),
  (0x61, [0x00, 0x00, 0x3C, 0x02, 0x3E, 0x42, 0x3E, 0x00]),
  (0x62, [0x40, 0x40, 0x5C, 0x62, 0x42, 0x62, 0x5C, 0x00]),
  (0x63, [0x00, 0x00, 0x3C, 0x42, 0x40, 0x42, 0x3C, 0x00]),
  (0x64, [0x02, 0x02, 0x3A, 0x46, 0x42, 0x46, 0x3A, 0x00]),
  (0x65, [0x00, 0x00, 0x3C, 0x42, 0x7E, 0x40, 0x3C, 0x00]),
  (0x66, [0x0C, 0x10, 0x10, 0x3E, 0x10, 0x10, 0x10, 0x00]),
  (0x67, [0x00, 0x00, 0x3A, 0x46, 0x46, 0x3A, 0x02, 0x3C]),
  (0x68, [0x40, 0x40, 0x5C, 0x62, 0x42, 0x42, 0x42, 0x00]),
  (0x69, [0x08, 0x00, 0x18, 0x08, 0x08, 0x08, 0x1C, 0x00]),
  (0x6A, [0x04, 0x00, 0x0C, 0x04, 0x04, 0x44, 0x44, 0x38]),
  (0x6B, [0x40, 0x40, 0x44, 0x48, 0x70, 0x48, 0x44, 0x00]),
  (0x6C, [0x18, 0x08, 0x08, 0x08, 0x08, 0x08, 0x1C, 0x00]),
  (0x6D, [0x00, 0x00, 0x6C, 0x52, 0x52, 0x52, 0x52, 0x00]),
  (0x6E, [0x00, 0x00, 0x5C, 0x62, 0x42, 0x42, 0x42, 0x00]),
  (0x6F, [0x00, 0x00, 0x3C, 0x42, 0x42, 0x42, 0x3C, 0x00]),
  (0x70, [0x00, 0x00, 0x5C, 0x62, 0x62, 0x5C, 0x40, 0x40]),
  (0x71, [0x00, 0x00, 0x3A, 0x46, 0x46, 0x3A, 0x02, 0x02]),
  (0x72, [0x00, 0x00, 0x5C, 0x62, 0x40, 0x40, 0x40, 0x00]),
  (0x73, [0x00, 0x00, 0x3E, 0x40, 0x3C, 0x02, 0x7C, 0x00]),
  (0x74, [0x10, 0x10, 0x3E, 0x10, 0x10, 0x10, 0x0E, 0x00]),
  (0x75, [0x00, 0x00, 0x42, 0x42, 0x42, 0x46, 0x3A, 0x00]),
  (0x76, [0x00, 0x00, 0x42, 0x42, 0x42, 0x24, 0x18, 0x00]),
  (0x77, [0x00, 0x00, 0x42, 0x42, 0x5A, 0x5A, 0x24, 0x00]),
  (0x78, [0x00, 0x00, 0x42, 0x24, 0x18, 0x24, 0x42, 0x00]),
  (0x79, [0x00, 0x00, 0x42, 0x46, 0x3A, 0x02, 0x04, 0x38]),
  (0x7A, [0x00, 0x00, 0x7E, 0x04, 0x18, 0x20, 0x7E, 0x00]),
  (0x5B, [0x3C, 0x20, 0x20, 0x20, 0x20, 0x20, 0x3C, 0x00]),
  (0x5C, [0x40, 0x20, 0x10, 0x08, 0x04, 0x02, 0x00, 0x00]),
  (0x5D, [0x3C, 0x04, 0x04, 0x04, 0x04, 0x04, 0x3C, 0x00]),
  (0x5E, [0x10, 0x28, 0x44, 0x00, 0x00, 0x00, 0x00, 0x00]),
  (0x5F, [0x00, 0x00, 0x00, 0x00, 0x00, 0x00, 0x7E, 0x00]),
  (0x60, [0x10, 0x08, 0x04, 0x00, 0x00, 0x00, 0x00, 0x00]),
  (0x7C, [0x10, 0x10, 0x10, 0x10, 0x10, 0x10, 0x10, 0x00]),
  (0x7E, [0x00, 0x00, 0x32, 0x4C, 0x00, 0x00, 0x00, 0x00])]

/-- `glyph_for_char`; `?` stands for what is not in the table. -/
def glyphForChar : Font := fun c y =>
  match glyphTable.lookup c with
  | none => glyphQmark.getD y 0
  | some rows => rows.getD y 0

theorem glyphForChar_space (y : Nat) : glyphForChar 0x20 y = 0 := by
  have hrows : ∀ rows : List UInt8, (∀ b ∈ rows, b = 0) → rows.getD y 0 = 0 := by
    intro rows hzero
    rw [List.getD_eq_getElem?_getD]
    cases hb : rows[y]? with
    | none => rfl
    | some b => exact hzero b (List.mem_of_getElem? hb)
  exact hrows glyphSpace (by simp [glyphSpace])

/-! ## Cells -/

def colorBg : UInt32 := 0x000000
def colorFg : UInt32 := 0xD8DEE9

section Cells

variable (font : Font)

/-- Pixel `x` of row `y` of a glyph. -/
def glyphPixel (c : UInt8) (x y : Nat) : UInt32 :=
  if font c y &&& ((1 : UInt8) <<< (7 - x.toUInt8)) ≠ 0 then colorFg else colorBg

/-- `render_cell`. -/
def Screen.renderCell (s : Screen) (col row : Int) (c : UInt8) : Screen :=
  (List.range 8).foldl (fun s (y : Nat) => (List.range 8).foldl (fun s (x : Nat) =>
    s.drawPixel (col * fontW + x) (row * fontH + y) (glyphPixel font c x y)) s) s

/-- `redraw_text_buffer`, for the lines that are on the screen. -/
def Screen.redrawTextBuffer (s : Screen) (cols rows : Int) (text : Int → Int → UInt8) : Screen :=
  (List.range rows.toNat).foldl (fun s (y : Nat) => (List.range cols.toNat).foldl
    (fun s (x : Nat) => s.renderCell font x y (text y x)) s) s

/-- The pixels of a text, line by line. -/
def picture (text : Int → Int → UInt8) (x y : Int) : UInt32 :=
  glyphPixel font (text (y / fontH) (x / fontW)) (x % fontW).toNat (y % fontH).toNat

end Cells

def InCell (col row x y : Int) : Prop := x / fontW = col ∧ y / fontH = row

instance (col row x y : Int) : Decidable (InCell col row x y) := inferInstanceAs (Decidable (_ ∧ _))

theorem inCell_iff {col row x y : Int} : InCell col row x y ↔
    (col * 8 ≤ x ∧ x < col * 8 + 8) ∧ row * 8 ≤ y ∧ y < row * 8 + 8 := by
  unfold InCell fontW fontH
  omega

variable {font : Font} {m : Mode} {s : Screen} {c : UInt8} {col row : Int}

section Drawing

variable (hm : Roomy m)
include hm

theorem shows_cellPixel (h : Fitted m s) {px py : Nat} (hpx : px < 8) (hpy : py < 8)
    (hcol : 0 ≤ col ∧ col * 8 + 8 ≤ m.width) (hrow : 0 ≤ row ∧ row * 8 + 8 ≤ m.height) :
    let s' := s.drawPixel (col * fontW + px) (row * fontH + py) (glyphPixel font c px py)
    Fitted m s' ∧ Shows (fun x y => x = col * fontW + px ∧ y = row * fontH + py)
      (fun x y => glyphPixel font c (x % fontW).toNat (y % fontH).toNat) s s' := by
  intro s'
  have hscreen : (screenRect s.mode.width s.mode.height).Has (col * fontW + px) (row * fontH + py) := by
    rw [h.mode, screenRect_has]
    unfold fontW fontH
    omega
  refine ⟨h.drawPixel hm _ _ _, ?_⟩
  refine (shows_drawPixel (.inr ⟨hm, h⟩) hscreen _).2.congr (fun _ _ => Iff.rfl) (fun x y hin => ?_)
  obtain ⟨rfl, rfl⟩ := hin
  have hx : ((col * fontW + px) % fontW).toNat = px := by
    unfold fontW
    omega
  have hy : ((row * fontH + py) % fontH).toNat = py := by
    unfold fontH
    omega
  rw [hx, hy]

theorem shows_renderCell (font : Font) (c : UInt8) (h : Fitted m s)
    (hcol : 0 ≤ col ∧ col * 8 + 8 ≤ m.width) (hrow : 0 ≤ row ∧ row * 8 + 8 ≤ m.height) :
    Fitted m (s.renderCell font col row c) ∧ Shows (InCell col row)
      (fun x y => glyphPixel font c (x % fontW).toNat (y % fontH).toNat) s
      (s.renderCell font col row c) := by
  have hline : ∀ (s : Screen) (py : Nat), Fitted m s → py ∈ List.range 8 →
      let s' := (List.range 8).foldl (fun s (px : Nat) =>
        s.drawPixel (col * fontW + px) (row * fontH + py) (glyphPixel font c px py)) s
      Fitted m s' ∧ Shows (fun x y => ∃ px ∈ List.range 8, x = col * fontW + (px : Nat) ∧
        y = row * fontH + py) (fun x y => glyphPixel font c (x % fontW).toNat (y % fontH).toNat) s s' :=
    fun s py hs hpy => Shows.foldl (I := Fitted m) (fun s px hs hpx =>
      shows_cellPixel hm hs (List.mem_range.mp hpx) (List.mem_range.mp hpy) hcol hrow) hs
  obtain ⟨hfit, hshows⟩ := Shows.foldl (I := Fitted m) hline h
  refine ⟨hfit, hshows.congr (fun x y => ?_) (fun _ _ _ => rfl)⟩
  rw [inCell_iff]
  simp only [List.mem_range, fontW, fontH]
  constructor
  · rintro ⟨hx, hy⟩
    exact ⟨(y - row * 8).toNat, by omega, (x - col * 8).toNat, by omega, by omega, by omega⟩
  · rintro ⟨py, hpy, px, hpx, rfl, rfl⟩
    omega

/-- The cells become the picture of the text. -/
theorem shows_redraw (font : Font) (text : Int → Int → UInt8) {cols rows : Int} (h : Fitted m s)
    (hcols : cols * 8 ≤ m.width) (hrows : rows * 8 ≤ m.height) :
    Fitted m (s.redrawTextBuffer font cols rows text) ∧
      Shows (fun x y => 0 ≤ x / fontW ∧ x / fontW < cols ∧ 0 ≤ y / fontH ∧ y / fontH < rows)
        (picture font text) s (s.redrawTextBuffer font cols rows text) := by
  have hcell : ∀ (s : Screen) (py px : Nat), Fitted m s → py ∈ List.range rows.toNat →
      px ∈ List.range cols.toNat → Fitted m (s.renderCell font px py (text py px)) ∧
      Shows (InCell px py) (picture font text) s (s.renderCell font px py (text py px)) := by
    intro s py px hs hpy hpx
    rw [List.mem_range] at hpy hpx
    have hcol : 0 ≤ (px : Int) ∧ (px : Int) * 8 + 8 ≤ m.width := by omega
    have hrow : 0 ≤ (py : Int) ∧ (py : Int) * 8 + 8 ≤ m.height := by omega
    obtain ⟨hfit, hshows⟩ := shows_renderCell hm font (text py px) hs hcol hrow
    refine ⟨hfit, hshows.congr (fun _ _ => Iff.rfl) (fun x y hin => ?_)⟩
    unfold picture
    rw [hin.1, hin.2]
  have hline : ∀ (s : Screen) (py : Nat), Fitted m s → py ∈ List.range rows.toNat →
      let s' := (List.range cols.toNat).foldl (fun s (px : Nat) =>
        s.renderCell font px py (text py px)) s
      Fitted m s' ∧ Shows (fun x y => ∃ px ∈ List.range cols.toNat, InCell (px : Nat) py x y)
        (picture font text) s s' :=
    fun s py hs hpy => Shows.foldl (I := Fitted m) (fun s px hs hpx => hcell s py px hs hpy hpx) hs
  obtain ⟨hfit, hshows⟩ := Shows.foldl (I := Fitted m) hline h
  refine ⟨hfit, hshows.congr (fun x y => ?_) (fun _ _ _ => rfl)⟩
  simp only [List.mem_range, InCell]
  constructor
  · rintro ⟨hx, hx', hy, hy'⟩
    exact ⟨(y / fontH).toNat, by omega, (x / fontW).toNat, by omega, by omega, by omega⟩
  · rintro ⟨py, hpy, px, hpx, hx, hy⟩
    omega

end Drawing

end Video
end MiniDos
