import MiniDos.Ui.TextFallback
import MiniDos.Video.Glyphs
import MiniDos.Video.SameMode

/-!
# MiniDos.Ui.TextAgree

The fallbacks of clipped text and `MINIDOS_SYSCALL_GFX_TEXT_CLIPPED`, pixel by pixel. Pictures of text
are pictures of bits here, whatever the colors.

* `inks_eq_iff`: two pictures of bits look the same in all colors when they are the same.
* `ClippedAgrees`, `TransparentAgrees`: where the fallbacks draw what the call draws.
* `text_fallbacks_iff`: the comparison.
-/

namespace MiniDos
namespace Ui

open Video Plane Picture

/-! ## Bits and colors -/

/-- The color of a set bit, or of a cleared one. -/
def tint (fg bg : UInt32) (bit : Bool) : UInt32 := if bit then fg else bg

section Inks

variable {background : Bool} {api : Option Api} {s : Screen} {F S : Pic Bool} {t t' : UInt32 → UInt32 → Screen}

theorem heard_eq_iff : (∀ x y, (screenRect s.mode.width s.mode.height).Has x y → heard background api F x y = heard background api S x y) ↔
    Quiet background api ∨ ∀ x y, (screenRect s.mode.width s.mode.height).Has x y → F x y = S x y := by
  unfold heard
  by_cases hq : Quiet background api
  · simp [hq]
  · simp [hq]

theorem inks_same (hF : ∀ fg bg, Draws (recolor (tint fg bg) F) s (t fg bg))
    (hS : ∀ fg bg, Draws (recolor (tint fg bg) S) s (t' fg bg))
    (h : ∀ x y, (screenRect s.mode.width s.mode.height).Has x y → F x y = S x y) (fg bg : UInt32) :
    (t fg bg).target = (t' fg bg).target := by
  funext x y
  rw [(hF fg bg).target, (hS fg bg).target, cut, cut, recolor, recolor]
  split
  · rename_i hin
    rw [h x y hin]
  · rfl

theorem inks_of_same (hcolors : ∃ a b, s.onTarget a ≠ s.onTarget b)
    (hF : ∀ fg bg, Draws (recolor (tint fg bg) F) s (t fg bg))
    (hS : ∀ fg bg, Draws (recolor (tint fg bg) S) s (t' fg bg))
    (h : ∀ fg bg, (t fg bg).target = (t' fg bg).target) {x y : Int} (hin : (screenRect s.mode.width s.mode.height).Has x y) :
    F x y = S x y := by
  have hsame : ∀ fg bg, (((F x y).map (tint fg bg)).map s.onTarget).getD (s.target x y) =
      (((S x y).map (tint fg bg)).map s.onTarget).getD (s.target x y) := by
    intro fg bg
    have hleft := (hF fg bg).target x y
    have hright := (hS fg bg).target x y
    rw [cut, if_pos hin] at hleft hright
    exact hleft.symm.trans ((congrFun₂ (h fg bg) x y).trans hright)
  obtain ⟨a, b, hab⟩ := hcolors
  have hother : ∃ c, s.onTarget c ≠ s.target x y := by
    by_cases ha : s.onTarget a = s.target x y
    · exact ⟨b, fun hb => hab (ha.trans hb.symm)⟩
    · exact ⟨a, ha⟩
  obtain ⟨c, hc⟩ := hother
  have hcc : ∀ bit, tint c c bit = c := fun bit => ite_self c
  cases hFx : F x y with
  | none =>
    cases hSx : S x y with
    | none => rfl
    | some bit =>
      have := hsame c c
      rw [hFx, hSx, Option.map_some, hcc] at this
      exact absurd this.symm hc
  | some bit =>
    cases hSx : S x y with
    | none =>
      have := hsame c c
      rw [hFx, hSx, Option.map_some, hcc] at this
      exact absurd this hc
    | some bit' =>
      have := hsame a b
      rw [hFx, hSx] at this
      cases bit <;> cases bit'
      · rfl
      · exact absurd this.symm hab
      · exact absurd this hab
      · rfl

end Inks

/-- The bits of a glyph that `clip` has, only the set ones if the background is transparent. -/
def glyphInk (font : Font) (clip : Rect) (transparent : Bool) (cell : UInt8 × Int × Int) : Pic Bool :=
  fun px py =>
    if ((cellRect cell).Has px py ∧ clip.Has px py) ∧
        (transparent = true → inked font cell.1 (px - cell.2.1).toNat (py - cell.2.2).toNat = true) then
      some (inked font cell.1 (px - cell.2.1).toNat (py - cell.2.2).toNat)
    else none

theorem glyphInk_has {font : Font} {clip : Rect} {transparent : Bool} {cell : UInt8 × Int × Int} {px py : Int}
    (h : glyphInk font clip transparent cell px py ≠ none) : (cellRect cell).Has px py ∧ clip.Has px py := by
  unfold glyphInk at h
  split at h
  · rename_i hin
    exact hin.1
  · exact absurd rfl h

theorem glyphPic_eq (font : Font) (clip : Rect) (fg bg : UInt32) (transparent : Bool)
    (cell : UInt8 × Int × Int) :
    glyphPic font clip fg bg transparent cell = recolor (tint fg bg) (glyphInk font clip transparent cell) := by
  funext px py
  rw [glyphPic, recolor, glyphInk, glyphColor]
  by_cases hin : (cellRect cell).Has px py ∧ clip.Has px py
  · rw [if_pos hin]
    cases hbit : inked font cell.1 (px - cell.2.1).toNat (py - cell.2.2).toNat with
    | true =>
      rw [if_pos rfl, if_pos ⟨hin, fun _ => rfl⟩]
      rfl
    | false =>
      rw [if_neg Bool.false_ne_true]
      cases transparent with
      | true =>
        rw [if_pos rfl, if_neg (fun h => Bool.false_ne_true (h.2 rfl))]
        rfl
      | false =>
        rw [if_neg Bool.false_ne_true, if_pos ⟨hin, fun h => absurd h Bool.false_ne_true⟩]
        rfl
  · rw [if_neg hin, if_neg (fun h => hin h.1)]
    rfl

/-! ## Cells -/

/-- The cell of character `i`. -/
def charCell (x y : Int) (i : Nat) : Rect := ⟨int32 (x + i * uiCharW), y, uiCharW, uiCharH⟩

/-- Where `MINIDOS_SYSCALL_GFX_TEXT` puts a cell. -/
def placed (d : Display) (cell : Rect) : Rect :=
  ⟨clipHigh d.width (clipLow cell.x), clipHigh d.height (clipLow cell.y), uiCharW, uiCharH⟩

/-- The bits that the fallback of `ui_draw_text_clipped` draws of a character. -/
def clippedInk (d : Display) (x y : Int) (clip : Rect) (c : UInt8 × Nat) : Pic Bool :=
  let cell := charCell x y c.2
  if rectIsEmpty (rectIntersect cell clip) then blank
  else if ¬ rectContainsRect clip cell then
    glyphInk d.uiFont (rectIntersect cell clip) false (uiFontChar c.1, cell.x, y)
  else if d.screen.Covers (placed d cell) then
    glyphInk d.font d.screen false (c.1, (placed d cell).x, (placed d cell).y)
  else blank

/-- The bits that `ui_draw_text_transparent_runs_clipped` draws of a character. -/
def transparentInk (d : Display) (x y : Int) (clip : Rect) (c : UInt8 × Nat) : Pic Bool :=
  glyphInk d.uiFont clip true (uiFontChar c.1, (charCell x y c.2).x, y)

/-- The bits that the call draws of a character. -/
def calledInk (d : Display) (x y : Int) (clip : Rect) (transparent : Bool) (c : UInt8 × Nat) : Pic Bool :=
  glyphInk d.font clip transparent (c.1, (charCell x y c.2).x, y)

section Cells

variable {d : Display} {x y : Int} {clip : Rect} {fg bg : UInt32} {text : List UInt8}

theorem textClippedCell_eq (hy : FitsInt y) {c : UInt8 × Nat} (hline : c.1 ≠ 0x0A) :
    textClippedCell d x y fg bg clip c = recolor (tint fg bg) (clippedInk d x y clip c) := by
  unfold textClippedCell clippedInk charCell
  have hx := int32_range (x + c.2 * uiCharW)
  generalize int32 (x + c.2 * uiCharW) = left at hx ⊢
  dsimp only
  split
  · rfl
  rename_i hmeets
  split
  · rw [← glyphPic_eq, charCellPartiallyClipped, if_neg hmeets]
    have hinside := (rectIntersect_inside (fitsRect_char hx hy) uiChar_pos uiChar_pos hmeets).2.2
    funext px py
    rw [glyphPic]
    by_cases hin : (rectIntersect ⟨left, y, uiCharW, uiCharH⟩ clip).Has px py
    · rw [if_pos hin, if_pos ⟨hinside px py hin, hin⟩]
    · rw [if_neg hin, if_neg (fun h => hin h.2)]
  · rw [drawText, if_neg (by simp [appUserTextMax]), textPic]
    simp only [textCells, if_neg hline]
    unfold placed
    dsimp only
    by_cases hfits : d.screen.Covers
        ⟨clipHigh d.width (clipLow left), clipHigh d.height (clipLow y), uiCharW, uiCharH⟩
    · have hshown : glyphShown d.screen true
          (c.1, clipHigh d.width (clipLow left), clipHigh d.height (clipLow y)) = true :=
        decide_eq_true hfits
      rw [if_pos hfits, List.filter_cons_of_pos hshown, ← glyphPic_eq]
      funext px py
      rw [List.map_cons, stack_cons, List.filter_nil, List.map_nil, stack_nil, Option.none_or]
    · have hhidden : ¬ glyphShown d.screen true
          (c.1, clipHigh d.width (clipLow left), clipHigh d.height (clipLow y)) = true :=
        fun h => hfits (of_decide_eq_true h)
      rw [if_neg hfits, List.filter_cons_of_neg hhidden]
      rfl

theorem transparentCell_eq (c : UInt8 × Nat) :
    transparentCell d.uiFont x y fg clip c = recolor (tint fg bg) (transparentInk d x y clip c) := by
  rw [transparentInk, ← glyphPic_eq]
  rfl

theorem textCells_eq (hline : 0x0A ∉ text) (startX : Int) : ∀ k : Nat,
    textCells startX text (x + k * uiCharW) y =
      (text.zipIdx k).map (fun c => (c.1, x + c.2 * uiCharW, y)) := by
  induction text with
  | nil => exact fun _ => rfl
  | cons c text ih =>
    intro k
    rw [List.mem_cons, not_or] at hline
    have hnext : x + k * uiCharW + fontW = x + (k + 1 : Nat) * uiCharW := by
      unfold uiCharW fontW
      push_cast
      omega
    rw [textCells, if_neg (Ne.symm hline.1), hnext, ih hline.2, List.zipIdx_cons, List.map_cons]

theorem charCell_x (hx : GfxPositionValid x) {i : Nat} (hi : i < appUserTextMax) :
    int32 (x + i * uiCharW) = x + i * uiCharW := by
  unfold GfxPositionValid appGfxCoordLimit at hx
  unfold appUserTextMax at hi
  exact int32_small (by unfold uiCharW; omega)

theorem textPic_eq (hx : GfxPositionValid x) (hline : 0x0A ∉ text) (hlen : text.length + 1 < appUserTextMax)
    (transparent : Bool) :
    textPic d.font clip fg bg transparent false x y text =
      recolor (tint fg bg) (stack (text.zipIdx.map (calledInk d x y clip transparent))) := by
  have hcells : textCells x text x y = text.zipIdx.map (fun c => (c.1, x + c.2 * uiCharW, y)) := by
    have := @textCells_eq x y text hline x 0
    rwa [Int.natCast_zero, Int.zero_mul, Int.add_zero] at this
  rw [textPic_all, hcells, List.map_map, ← stack_recolor, List.map_map]
  refine congrArg stack (List.map_congr_left (fun c hc => ?_))
  have hi := List.snd_lt_of_mem_zipIdx hc
  rw [Function.comp_apply, Function.comp_apply, calledInk, ← glyphPic_eq, charCell]
  dsimp only
  rw [charCell_x hx (by omega)]

end Cells

/-! ## Characters of a text -/

section Characters

variable {α : Type} {text : List α} {f : α × Nat → Pic Bool} {i : Nat} {c : α} {px py : Int}

theorem stack_chars_eq_none : stack (text.zipIdx.map f) px py = none ↔
    ∀ i c, text[i]? = some c → f (c, i) px py = none := by
  rw [stack_eq_none, List.forall_mem_map]
  constructor
  · exact fun h i c hc => h (c, i) (List.mk_mem_zipIdx_iff_getElem?.mpr hc)
  · exact fun h e he => h e.2 e.1 (List.mem_zipIdx_iff_getElem?.mp he)

theorem stack_chars_last (hc : text[i]? = some c) (hwrites : f (c, i) px py ≠ none)
    (hlater : ∀ j c', i < j → text[j]? = some c' → f (c', j) px py = none) :
    stack (text.zipIdx.map f) px py = f (c, i) px py := by
  have hlen : (text.zipIdx.map f).length = text.length := by
    rw [List.length_map, List.length_zipIdx]
  have hget : ∀ j c', text[j]? = some c' → ∀ hj : j < (text.zipIdx.map f).length,
      (text.zipIdx.map f)[j] = f (c', j) := by
    intro j c' hj _
    obtain ⟨_, rfl⟩ := List.getElem?_eq_some_iff.mp hj
    rw [List.getElem_map, List.getElem_zipIdx, Nat.zero_add]
  obtain ⟨hi, _⟩ := List.getElem?_eq_some_iff.mp hc
  rw [← hlen] at hi
  rw [← hget i c hc hi] at hwrites ⊢
  refine stack_last _ hwrites (fun j hij hj => ?_)
  have hsome := List.getElem?_eq_getElem (hlen ▸ hj : j < text.length)
  rw [hget j _ hsome]
  exact hlater j _ hij hsome

theorem stack_chars_only (hc : text[i]? = some c)
    (hothers : ∀ j c', j ≠ i → text[j]? = some c' → f (c', j) px py = none) :
    stack (text.zipIdx.map f) px py = f (c, i) px py := by
  by_cases hnone : f (c, i) px py = none
  · rw [hnone]
    refine stack_chars_eq_none.mpr (fun j c' hj => ?_)
    by_cases hji : j = i
    · subst hji
      rw [hc] at hj
      rwa [← Option.some.inj hj]
    · exact hothers j c' hji hj
  · exact stack_chars_last hc hnone (fun j c' hij hj => hothers j c' (Nat.ne_of_gt hij) hj)

end Characters

/-! ## Short texts -/

/-- What the call accepts, on a screen with room for some cells. -/
structure ShortText (d : Display) (x y : Int) (text : List UInt8) (clip : Rect) : Prop where
  x : GfxPositionValid x
  y : GfxPositionValid y
  clip : GfxRectValid clip
  short : text.length + 1 < appUserTextMax
  width : 16 ≤ d.width
  height : 8 ≤ d.height

section Short

variable {d : Display} {x y px py : Int} {text : List UInt8} {clip : Rect} {i : Nat} {c : UInt8}

theorem charCell_has (x y : Int) (i : Nat) (px py : Int) :
    (charCell x y i).Has px py ↔ (charCell x y i).x ≤ px ∧ px < (charCell x y i).x + 8 ∧ y ≤ py ∧ py < y + 8 :=
  Iff.rfl

def Seen (d : Display) (clip cell : Rect) (px py : Int) : Prop :=
  cell.Has px py ∧ clip.Has px py ∧ d.screen.Has px py

/-- The cell at the left edge of the screen draws over what was moved in there, and what is left of the
cell before looks like the part of it that belongs there. -/
def Mended (d : Display) (x : Int) (text : List UInt8) (clip : Rect) : Prop :=
  ∃ i < text.length, (0 ≤ x + i * uiCharW ∧ x + i * uiCharW < 8) ∧ 8 ≤ clip.right ∧
    ∀ c, text[i - 1]? = some c → ∀ gx gy : Nat, gx < (x + i * uiCharW).toNat → gy < 8 →
      inked d.font c gx gy = inked d.font c (gx + 8 - (x + i * uiCharW).toNat) gy

/-- A cell inside the clip rectangle that comes out right: on the screen, or off the screen and not drawn,
or left of the edge of the screen and mended. -/
inductive WholeCell (d : Display) (x y : Int) (text : List UInt8) (clip cell : Rect) : Prop
  | inPlace (h : d.screen.Covers cell)
  | unseen (hout : ¬ d.screen.Covers (placed d cell)) (hfar : ∀ px py, cell.Has px py → ¬ d.screen.Has px py)
  | mended (hleft : cell.x < 0) (htop : 0 ≤ y) (hbottom : y + 8 ≤ d.height) (h : Mended d x text clip)

structure ClippedShort (d : Display) (x y : Int) (text : List UInt8) (clip : Rect) : Prop where
  partly : ∀ i c, text[i]? = some c → ¬ clip.Covers (charCell x y i) →
    ∀ px py, Seen d clip (charCell x y i) px py →
      inked d.font (uiFontChar c) (px - (charCell x y i).x).toNat (py - y).toNat =
        inked d.font c (px - (charCell x y i).x).toNat (py - y).toNat
  whole : ∀ i c, text[i]? = some c → clip.Covers (charCell x y i) →
    WholeCell d x y text clip (charCell x y i)

def SameGlyphs (uiFont font : Font) : Prop :=
  ∀ c row, 32 ≤ c → c ≤ 126 → row < 8 → uiFont c row = font c row

theorem SameGlyphs.inked_eq {uiFont font : Font} (h : SameGlyphs uiFont font) (c : UInt8) (gx : Nat) {gy : Nat}
    (hgy : gy < 8) : inked uiFont (uiFontChar c) gx gy = inked font (uiFontChar c) gx gy := by
  have hrange : 32 ≤ uiFontChar c ∧ uiFontChar c ≤ 126 := by
    unfold uiFontChar
    split
    · exact ⟨by decide, by decide⟩
    · rename_i hin
      rw [not_or, UInt8.not_lt, UInt8.not_lt] at hin
      exact hin
  unfold inked
  rw [h _ _ hrange.1 hrange.2 hgy]

namespace ShortText

theorem cell_x (h : ShortText d x y text clip) (hc : text[i]? = some c) :
    (charCell x y i).x = x + i * 8 ∧ i < 255 := by
  have hi := (List.getElem?_eq_some_iff.mp hc).1
  have hlen := h.short
  refine ⟨charCell_x h.x (by omega), ?_⟩
  unfold appUserTextMax at hlen
  omega

theorem mild (h : ShortText d x y text clip) (hc : text[i]? = some c) : Mild (charCell x y i) ∧ Mild clip := by
  obtain ⟨hx, hi⟩ := h.cell_x hc
  have hposX := h.x
  have hposY := h.y
  obtain ⟨_, hcols, hrows⟩ := GfxRectValid.sides h.clip
  have hsolid := h.clip.solid
  unfold GfxPositionValid appGfxCoordLimit at hposX hposY
  unfold Mild Bounded Rect.right Rect.bottom at *
  rw [hx]
  simp only [charCell, uiCharW, uiCharH]
  omega

theorem clippedInk_partly (h : ShortText d x y text clip) (hc : text[i]? = some c)
    (hcover : ¬ clip.Covers (charCell x y i)) (px py : Int) :
    clippedInk d x y clip (c, i) px py =
      if (charCell x y i).Has px py ∧ clip.Has px py then
        some (inked d.uiFont (uiFontChar c) (px - (charCell x y i).x).toNat (py - y).toNat)
      else none := by
  obtain ⟨hcell, hclip⟩ := h.mild hc
  have hcontains : ¬ rectContainsRect clip (charCell x y i) = true :=
    fun hin => hcover (covers_of_contains hclip hcell hin)
  have hboth := @rectIntersect_has (charCell x y i) clip px py hcell hclip
  rw [clippedInk]
  dsimp only
  by_cases hempty : rectIsEmpty (rectIntersect (charCell x y i) clip) = true
  · rw [if_pos hempty, if_neg (fun hin => not_empty_of_has hcell hclip hin.1 hin.2 hempty)]
    rfl
  · rw [if_neg hempty, if_pos hcontains, glyphInk]
    refine if_congr ?_ rfl rfl
    rw [hboth]
    refine ⟨fun hin => hin.1.2, fun hin => ⟨⟨hin.1, hin⟩, fun ht => absurd ht Bool.false_ne_true⟩⟩

theorem clippedInk_whole (h : ShortText d x y text clip) (hc : text[i]? = some c)
    (hcover : clip.Covers (charCell x y i)) (px py : Int) :
    clippedInk d x y clip (c, i) px py =
      if d.screen.Covers (placed d (charCell x y i)) ∧ (placed d (charCell x y i)).Has px py then
        some (inked d.font c (px - (placed d (charCell x y i)).x).toNat
          (py - (placed d (charCell x y i)).y).toNat)
      else none := by
  obtain ⟨hcell, hclip⟩ := h.mild hc
  have hcorner : (charCell x y i).Has (charCell x y i).x y := by
    rw [charCell_has]
    omega
  have hmeets := not_empty_of_has hcell hclip hcorner (hcover.has hcorner)
  have hcontains := (rectContainsRect_iff hclip.unwrapped hcell.unwrapped).mpr
    ⟨⟨uiChar_pos, uiChar_pos⟩, hcover⟩
  rw [clippedInk]
  dsimp only
  rw [if_neg hmeets, if_neg (not_not.mpr hcontains)]
  by_cases hfits : d.screen.Covers (placed d (charCell x y i))
  · rw [if_pos hfits, glyphInk]
    refine if_congr ?_ rfl rfl
    constructor
    · exact fun hin => ⟨hfits, hin.1.1⟩
    · exact fun hin => ⟨⟨hin.2, hfits.has hin.2⟩, fun ht => absurd ht Bool.false_ne_true⟩
  · rw [if_neg hfits, if_neg (fun hin => hfits hin.1)]
    rfl

theorem covers_placed (h : ShortText d x y text clip) (i : Nat) :
    d.screen.Covers (placed d (charCell x y i)) ↔ (charCell x y i).x + 8 ≤ d.width ∧ y + 8 ≤ d.height := by
  have hwide := h.width
  have hhigh := h.height
  simp only [Rect.Covers, Display.screen, screenRect, placed, charCell, Rect.right, Rect.bottom, uiCharW, uiCharH]
  unfold clipHigh clipLow
  split <;> split <;> split <;> split <;> omega

theorem placed_eq (hfits : (charCell x y i).x + 8 ≤ d.width ∧ y + 8 ≤ d.height) (hhigh : 8 ≤ d.height)
    (hwide : 8 ≤ d.width) :
    placed d (charCell x y i) = ⟨max 0 (charCell x y i).x, max 0 y, 8, 8⟩ := by
  have hx : clipHigh d.width (clipLow (charCell x y i).x) = max 0 (charCell x y i).x := by
    unfold clipHigh clipLow
    split <;> split <;> omega
  have hy : clipHigh d.height (clipLow (charCell x y i).y) = max 0 y := by
    simp only [charCell] at hfits ⊢
    unfold clipHigh clipLow
    split <;> split <;> omega
  rw [placed, hx, hy, uiCharW, uiCharH]

theorem later (h : ShortText d x y text clip) {j : Nat} {c' : UInt8} (hc : text[i]? = some c)
    (hj : text[j]? = some c') (hij : i < j) (hin : (charCell x y i).Has px py) :
    clippedInk d x y clip (c', j) px py = none := by
  have hi := (h.cell_x hc).1
  have hj' := (h.cell_x hj).1
  have hwide := h.width
  have hhigh := h.height
  rw [charCell_has] at hin
  by_cases hcover : clip.Covers (charCell x y j)
  · rw [h.clippedInk_whole hj hcover, if_neg]
    rintro ⟨hfits, hp⟩
    rw [placed_eq ((h.covers_placed j).mp hfits) hhigh (by omega)] at hp
    unfold Rect.Has at hp
    dsimp only at hp
    omega
  · rw [h.clippedInk_partly hj hcover, if_neg]
    rintro ⟨hp, _⟩
    rw [charCell_has] at hp
    omega

theorem clipped_at (h : ShortText d x y text clip) (hc : text[i]? = some c)
    (hin : (charCell x y i).Has px py) (hwrites : clippedInk d x y clip (c, i) px py ≠ none) :
    stack (text.zipIdx.map (clippedInk d x y clip)) px py = clippedInk d x y clip (c, i) px py :=
  stack_chars_last hc hwrites (fun _ _ hij hj => h.later hc hj hij hin)

theorem only_cell (h : ShortText d x y text clip) {f : UInt8 × Nat → Pic Bool}
    (hf : ∀ j c', f (c', j) px py ≠ none → (charCell x y j).Has px py) (hc : text[i]? = some c)
    (hin : (charCell x y i).Has px py) : stack (text.zipIdx.map f) px py = f (c, i) px py := by
  refine stack_chars_only hc (fun j c' hji hj => ?_)
  by_contra hwrites
  have hi := (h.cell_x hc).1
  have hj' := (h.cell_x hj).1
  have hp := hf j c' hwrites
  rw [charCell_has] at hin hp
  omega

theorem called_at (h : ShortText d x y text clip) (hc : text[i]? = some c) (transparent : Bool)
    (hin : (charCell x y i).Has px py) :
    stack (text.zipIdx.map (calledInk d x y clip transparent)) px py =
      calledInk d x y clip transparent (c, i) px py :=
  h.only_cell (fun _ _ hwrites => (glyphInk_has hwrites).1) hc hin

theorem calledInk_eq (c : UInt8 × Nat) (hin : (charCell x y c.2).Has px py) (hclip : clip.Has px py) :
    calledInk d x y clip false c px py =
      some (inked d.font c.1 (px - (charCell x y c.2).x).toNat (py - y).toNat) :=
  if_pos ⟨⟨hin, hclip⟩, fun ht => absurd ht Bool.false_ne_true⟩

theorem called_none (hno : ∀ i c, text[i]? = some c → (charCell x y i).Has px py → ¬ clip.Has px py)
    (transparent : Bool) : stack (text.zipIdx.map (calledInk d x y clip transparent)) px py = none :=
  stack_chars_eq_none.mpr (fun i c hc => if_neg (fun hp => hno i c hc hp.1.1 hp.1.2))

theorem placed_onScreen (h : ShortText d x y text clip) (hfits : d.screen.Covers (charCell x y i)) :
    d.screen.Covers (placed d (charCell x y i)) ∧ placed d (charCell x y i) = charCell x y i := by
  have hwide := h.width
  have hhigh := h.height
  have hsides : (0 ≤ (charCell x y i).x ∧ 0 ≤ y) ∧ (charCell x y i).x + 8 ≤ d.width ∧ y + 8 ≤ d.height := by
    simp only [Rect.Covers, Display.screen, screenRect, charCell, Rect.right, Rect.bottom, uiCharW, uiCharH]
      at hfits ⊢
    omega
  refine ⟨(h.covers_placed i).mpr hsides.2, ?_⟩
  rw [placed_eq hsides.2 hhigh (by omega), max_eq_right hsides.1.1, max_eq_right hsides.1.2]
  rfl

theorem placed_left (h : ShortText d x y text clip) (hleft : (charCell x y i).x < 0) (htop : 0 ≤ y)
    (hbottom : y + 8 ≤ d.height) :
    d.screen.Covers (placed d (charCell x y i)) ∧ placed d (charCell x y i) = ⟨0, y, 8, 8⟩ := by
  have hwide := h.width
  have hhigh := h.height
  have hfits : (charCell x y i).x + 8 ≤ d.width ∧ y + 8 ≤ d.height := by omega
  refine ⟨(h.covers_placed i).mpr hfits, ?_⟩
  rw [placed_eq hfits hhigh (by omega), max_eq_left (Int.le_of_lt hleft), max_eq_right htop]

/-- A bit of a cell that is drawn where it belongs. -/
theorem clippedInk_eq (h : ShortText d x y text clip) (hsame : SameGlyphs d.uiFont d.font)
    (hok : ClippedShort d x y text clip) (hc : text[i]? = some c) (hseen : Seen d clip (charCell x y i) px py) :
    clippedInk d x y clip (c, i) px py =
      some (inked d.font c (px - (charCell x y i).x).toNat (py - y).toNat) := by
  obtain ⟨hin, hclip, hp⟩ := hseen
  have hx := (h.cell_x hc).1
  have hcell := (charCell_has x y i px py).mp hin
  by_cases hcover : clip.Covers (charCell x y i)
  · rw [h.clippedInk_whole hc hcover]
    cases hok.whole i c hc hcover with
    | inPlace hfits =>
      obtain ⟨hdrawn, hplace⟩ := h.placed_onScreen hfits
      rw [if_pos ⟨hdrawn, by rw [hplace]; exact hin⟩, hplace]
      rfl
    | unseen _ hfar => exact absurd hp (hfar px py hin)
    | mended hleft htop hbottom hmend =>
      obtain ⟨hdrawn, hplace⟩ := h.placed_left hleft htop hbottom
      obtain ⟨k, hk, ⟨hlow, hhigh⟩, _, hlook⟩ := hmend
      have hpx := (screenRect_has.mp hp).1
      -- the cell at the edge is the next one
      have hnext : k = i + 1 := by
        unfold uiCharW at hlow hhigh
        omega
      subst hnext
      have hsame := hlook c hc px.toNat (py - y).toNat
        (by push_cast [uiCharW] at hlow hhigh ⊢; omega) (by omega)
      have hcol : px.toNat + 8 - (x + ((i + 1 : Nat) : Int) * uiCharW).toNat = (px - (charCell x y i).x).toNat := by
        push_cast [uiCharW] at hlow hhigh ⊢
        omega
      have hhas : (⟨0, y, 8, 8⟩ : Rect).Has px py := by
        unfold Rect.Has Rect.right Rect.bottom
        dsimp only
        omega
      rw [if_pos ⟨hdrawn, by rw [hplace]; exact hhas⟩, hplace]
      dsimp only
      rw [Int.sub_zero, hsame, hcol]
  · rw [h.clippedInk_partly hc hcover, if_pos ⟨hin, hclip⟩, hsame.inked_eq c _ (by omega),
      hok.partly i c hc hcover px py ⟨hin, hclip, hp⟩]

/-- A whole cell that comes out right draws nothing outside the cells. -/
theorem whole_inside (h : ShortText d x y text clip) (hc : text[i]? = some c)
    (hcover : clip.Covers (charCell x y i)) (hwhole : WholeCell d x y text clip (charCell x y i))
    (hwrites : clippedInk d x y clip (c, i) px py ≠ none) :
    ∃ k c', text[k]? = some c' ∧ (charCell x y k).Has px py ∧ clip.Has px py := by
  rw [h.clippedInk_whole hc hcover] at hwrites
  split at hwrites
  · rename_i hdrawn
    obtain ⟨hfits, hp⟩ := hdrawn
    cases hwhole with
    | inPlace hscreen =>
      rw [(h.placed_onScreen hscreen).2] at hp
      exact ⟨i, c, hc, hp, hcover.has hp⟩
    | unseen hout _ => exact absurd hfits hout
    | mended hleft htop hbottom hmend =>
      rw [(h.placed_left hleft htop hbottom).2] at hp
      obtain ⟨k, hk, ⟨hlow, hhigh⟩, hright, _⟩ := hmend
      have hx := (h.cell_x hc).1
      have hclip : clip.Has px py := by
        simp only [Rect.Covers, Rect.Has, charCell, Rect.right, Rect.bottom, uiCharW, uiCharH] at *
        omega
      have hk' := List.getElem?_eq_getElem hk
      by_cases hafter : x + k * uiCharW ≤ px
      · refine ⟨k, _, hk', ?_, hclip⟩
        rw [charCell_has, (h.cell_x hk').1]
        unfold Rect.Has Rect.right Rect.bottom at hp
        unfold uiCharW at hafter hlow hhigh
        dsimp only at hp
        omega
      · have hprev := List.getElem?_eq_getElem (show k - 1 < text.length by omega)
        refine ⟨k - 1, _, hprev, ?_, hclip⟩
        rw [charCell_has, (h.cell_x hprev).1]
        unfold Rect.Has Rect.right Rect.bottom at hp
        unfold uiCharW at hafter hlow hhigh
        dsimp only at hp
        omega
  · exact absurd rfl hwrites

theorem agrees (h : ShortText d x y text clip) (hsame : SameGlyphs d.uiFont d.font)
    (hok : ClippedShort d x y text clip) (hp : d.screen.Has px py) :
    stack (text.zipIdx.map (clippedInk d x y clip)) px py =
      stack (text.zipIdx.map (calledInk d x y clip false)) px py := by
  by_cases hcell : ∃ i c, text[i]? = some c ∧ (charCell x y i).Has px py ∧ clip.Has px py
  · obtain ⟨i, c, hc, hin, hclip⟩ := hcell
    have hdrawn := h.clippedInk_eq hsame hok hc ⟨hin, hclip, hp⟩
    rw [h.called_at hc false hin, calledInk_eq (c, i) hin hclip,
      h.clipped_at hc hin (by rw [hdrawn]; exact Option.some_ne_none _), hdrawn]
  · rw [called_none (fun i c hc hin hclip => hcell ⟨i, c, hc, hin, hclip⟩)]
    refine stack_chars_eq_none.mpr (fun i c hc => ?_)
    by_cases hcover : clip.Covers (charCell x y i)
    · by_contra hwrites
      exact hcell (h.whole_inside hc hcover (hok.whole i c hc hcover) hwrites)
    · rw [h.clippedInk_partly hc hcover, if_neg (fun hin => hcell ⟨i, c, hc, hin⟩)]

section Converse

variable (h : ShortText d x y text clip) (hsame : SameGlyphs d.uiFont d.font)
  (heq : ∀ px py, d.screen.Has px py → stack (text.zipIdx.map (clippedInk d x y clip)) px py =
    stack (text.zipIdx.map (calledInk d x y clip false)) px py)

include heq

theorem written_inside (hc : text[i]? = some c) (hwrites : clippedInk d x y clip (c, i) px py ≠ none)
    (hp : d.screen.Has px py) :
    ∃ k c', text[k]? = some c' ∧ (charCell x y k).Has px py ∧ clip.Has px py := by
  by_contra hno
  refine hwrites ?_
  have hcalled := @called_none d x y px py text clip (fun k c' hk hin hclip => hno ⟨k, c', hk, hin, hclip⟩) false
  rw [← heq px py hp] at hcalled
  exact stack_chars_eq_none.mp hcalled i c hc

include h

/-- What is moved in at the left edge is drawn over by the next cell. -/
theorem mended_of_agree (hc : text[i]? = some c) (hcover : clip.Covers (charCell x y i))
    (hleft : (charCell x y i).x < 0) (htop : 0 ≤ y) (hbottom : y + 8 ≤ d.height) : Mended d x text clip := by
  have hx := (h.cell_x hc).1
  have hwide := h.width
  have hscreen : ∀ gx gy : Nat, gx < 8 → gy < 8 → d.screen.Has gx (y + gy) :=
    fun gx gy hgx hgy => screenRect_has.mpr ⟨by omega, by omega⟩
  have hmoved : clippedInk d x y clip (c, i) (7 : Nat) (y + (0 : Nat)) ≠ none := by
    obtain ⟨hfits, hplace⟩ := h.placed_left hleft htop hbottom
    have hhas : (⟨0, y, 8, 8⟩ : Rect).Has (7 : Nat) (y + (0 : Nat)) := by
      unfold Rect.Has Rect.right Rect.bottom
      dsimp only
      omega
    rw [h.clippedInk_whole hc hcover, if_pos ⟨hfits, by rw [hplace]; exact hhas⟩]
    exact Option.some_ne_none _
  obtain ⟨k, c', hk, hin, hclip⟩ := written_inside heq hc hmoved (hscreen 7 0 (by omega) (by omega))
  rw [charCell_has, (h.cell_x hk).1] at hin
  refine ⟨k, (List.getElem?_eq_some_iff.mp hk).1, ⟨by unfold uiCharW; omega, by unfold uiCharW; omega⟩,
    hclip.2.1, ?_⟩
  intro prev hprev gx gy hgx hgy
  have hx' := (h.cell_x hprev).1
  unfold uiCharW at hgx ⊢
  have hhas : (charCell x y (k - 1)).Has gx (y + gy) := by
    rw [charCell_has]
    omega
  have hcover' : clip.Covers (charCell x y (k - 1)) := by
    have hright := hclip.2.1
    simp only [Rect.Covers, charCell, Rect.right, Rect.bottom, uiCharW, uiCharH] at hcover hleft hx hx' ⊢
    unfold Rect.right at hright
    omega
  obtain ⟨hfits, hplace⟩ := h.placed_left (i := k - 1) (by omega) htop hbottom
  have hdrawn : clippedInk d x y clip (prev, k - 1) gx (y + gy) = some (inked d.font prev gx gy) := by
    have hhas' : (⟨0, y, 8, 8⟩ : Rect).Has gx (y + gy) := by
      unfold Rect.Has Rect.right Rect.bottom
      dsimp only
      omega
    rw [h.clippedInk_whole hprev hcover', if_pos ⟨hfits, by rw [hplace]; exact hhas'⟩, hplace]
    dsimp only
    rw [Int.sub_zero, Int.toNat_natCast, add_sub_cancel_left, Int.toNat_natCast]
  have hagree := heq gx (y + gy) (hscreen gx gy (by omega) hgy)
  rw [h.clipped_at hprev hhas (by rw [hdrawn]; exact Option.some_ne_none _), hdrawn, h.called_at hprev false hhas,
    calledInk_eq (prev, k - 1) hhas (hcover'.has hhas), add_sub_cancel_left, Int.toNat_natCast] at hagree
  rw [Option.some.inj hagree]
  refine congrArg (fun col => inked d.font prev col gy) ?_
  dsimp only
  omega

include hsame

/-- The condition is needed. -/
theorem of_agree : ClippedShort d x y text clip := by
  have hwide := h.width
  have hhigh := h.height
  refine ⟨fun i c hc hcover px py hseen => ?_, fun i c hc hcover => ?_⟩
  · obtain ⟨hin, hclip, hp⟩ := hseen
    have hcell := (charCell_has x y i px py).mp hin
    have hdrawn := h.clippedInk_partly hc hcover px py
    rw [if_pos ⟨hin, hclip⟩, hsame.inked_eq c _ (by omega)] at hdrawn
    have hagree := heq px py hp
    rw [h.clipped_at hc hin (by rw [hdrawn]; exact Option.some_ne_none _), hdrawn, h.called_at hc false hin,
      calledInk_eq (c, i) hin hclip] at hagree
    exact Option.some.inj hagree
  · by_cases hfits : d.screen.Covers (placed d (charCell x y i))
    · have hsides := (h.covers_placed i).mp hfits
      by_cases htop : 0 ≤ y
      · by_cases hleft : 0 ≤ (charCell x y i).x
        · refine .inPlace ?_
          simp only [Rect.Covers, Display.screen, screenRect, charCell, Rect.right, Rect.bottom, uiCharW,
            uiCharH] at hsides hleft ⊢
          omega
        · exact .mended (by omega) htop hsides.2 (h.mended_of_agree heq hc hcover (by omega) htop hsides.2)
      · -- row 7 is below the text
        have hhas : (placed d (charCell x y i)).Has (max 0 (charCell x y i).x) 7 := by
          rw [placed_eq hsides hhigh (by omega)]
          unfold Rect.Has Rect.right Rect.bottom
          dsimp only
          omega
        have hwrites : clippedInk d x y clip (c, i) (max 0 (charCell x y i).x) 7 ≠ none := by
          rw [h.clippedInk_whole hc hcover, if_pos ⟨hfits, hhas⟩]
          exact Option.some_ne_none _
        obtain ⟨k, c', hk, hin, _⟩ := written_inside heq hc hwrites (hfits.has hhas)
        rw [charCell_has] at hin
        omega
    · refine .unseen hfits (fun px py hin hp => ?_)
      have hagree := heq px py hp
      rw [h.called_at hc false hin, calledInk_eq (c, i) hin (hcover.has hin)] at hagree
      have hwriter : ∃ j c', text[j]? = some c' ∧ clippedInk d x y clip (c', j) px py ≠ none := by
        by_contra hno
        rw [stack_chars_eq_none.mpr (fun j c' hj => by
          by_contra hne
          exact hno ⟨j, c', hj, hne⟩)] at hagree
        cases hagree
      obtain ⟨j, c', hj, hwrites⟩ := hwriter
      have hx := (h.cell_x hc).1
      have hx' := (h.cell_x hj).1
      rw [h.covers_placed] at hfits
      have hcell := (charCell_has x y i px py).mp hin
      by_cases hcover' : clip.Covers (charCell x y j)
      · rw [h.clippedInk_whole hj hcover'] at hwrites
        split at hwrites
        · rename_i hdrawn
          obtain ⟨hfits', hhas⟩ := hdrawn
          have hsides := (h.covers_placed j).mp hfits'
          rw [placed_eq hsides hhigh (by omega)] at hhas
          unfold Rect.Has Rect.right Rect.bottom at hhas
          dsimp only at hhas
          omega
        · exact hwrites rfl
      · rw [h.clippedInk_partly hj hcover'] at hwrites
        split at hwrites
        · rename_i hdrawn
          have hcell' := (charCell_has x y j px py).mp hdrawn.1
          have hji : j = i := by omega
          subst hji
          exact hcover' hcover
        · exact hwrites rfl

end Converse

end ShortText

end Short

/-! ## All texts -/

/-- A cell of which the fallback of `ui_draw_text_clipped` writes nothing on the screen. -/
def Idle (d : Display) (clip cell : Rect) : Prop :=
  rectIsEmpty (rectIntersect cell clip) = true ∨
    if rectContainsRect clip cell = true then ¬ d.screen.Covers (placed d cell)
    else ∀ px py, (rectIntersect cell clip).Has px py → ¬ d.screen.Has px py

/-- Where the fallback of `ui_draw_text_clipped` draws what the call draws. The call refuses long texts, and
takes an empty clip rectangle for the screen. -/
def ClippedAgrees (d : Display) (x y : Int) (text : List UInt8) (clip : Rect) : Prop :=
  if clip.Solid then
    if text.length + 1 < appUserTextMax then ClippedShort d x y text clip
    else ∀ i < text.length, Idle d clip (charCell x y i)
  else text.length + 1 < appUserTextMax → ∀ i < text.length, ∀ px py, (charCell x y i).Has px py →
    ¬ d.screen.Has px py

/-- Where the fallback of `ui_draw_text_transparent_clipped` draws what the call draws. -/
def TransparentAgrees (d : Display) (x y : Int) (text : List UInt8) (clip : Rect) : Prop :=
  if clip.Solid then ∀ i c, text[i]? = some c → ∀ px py, Seen d clip (charCell x y i) px py →
    inked d.font (uiFontChar c) (px - (charCell x y i).x).toNat (py - y).toNat =
      (decide (text.length + 1 < appUserTextMax) &&
        inked d.font c (px - (charCell x y i).x).toNat (py - y).toNat)
  else text.length + 1 < appUserTextMax → ∀ i c, text[i]? = some c → ∀ px py,
    (charCell x y i).Has px py → d.screen.Has px py →
      ¬ inked d.font c (px - (charCell x y i).x).toNat (py - y).toNat = true

section All

variable {d : Display} {x y px py : Int} {text : List UInt8} {clip : Rect} {i : Nat} {c : UInt8}

def loopInk (clip : Rect) (text : List UInt8) (f : UInt8 × Nat → Pic Bool) : Pic Bool :=
  if clip.Solid then stack (text.zipIdx.map f) else blank

def callInk (d : Display) (x y : Int) (text : List UInt8) (clip : Rect) (transparent : Bool) : Pic Bool :=
  if text.length + 1 < appUserTextMax then
    stack (text.zipIdx.map (calledInk d x y (calledArea d clip) transparent))
  else blank

theorem idle_iff (hy : FitsInt y) (c : UInt8) (i : Nat) :
    (∀ px py, d.screen.Has px py → clippedInk d x y clip (c, i) px py = none) ↔
      Idle d clip (charCell x y i) := by
  have hfits := fitsRect_char (int32_range (x + i * uiCharW)) hy
  unfold Idle clippedInk
  dsimp only
  by_cases hempty : rectIsEmpty (rectIntersect (charCell x y i) clip) = true
  · rw [if_pos hempty]
    exact iff_of_true (fun _ _ _ => rfl) (.inl hempty)
  rw [if_neg hempty]
  rw [or_iff_right hempty]
  by_cases hcontains : rectContainsRect clip (charCell x y i) = true
  · rw [if_neg (not_not.mpr hcontains), if_pos hcontains]
    split
    · rename_i hcover
      refine iff_of_false (fun hnone => ?_) (not_not.mpr hcover)
      have hcorner : (placed d (charCell x y i)).Has (placed d (charCell x y i)).x
          (placed d (charCell x y i)).y := by
        unfold placed Rect.Has Rect.right Rect.bottom uiCharW uiCharH
        dsimp only
        omega
      have hseen := hcover.has hcorner
      have := hnone _ _ hseen
      rw [glyphInk, if_pos ⟨⟨hcorner, hseen⟩, fun ht => absurd ht Bool.false_ne_true⟩] at this
      cases this
    · rename_i hcover
      exact iff_of_true (fun _ _ _ => rfl) hcover
  · rw [if_pos hcontains, if_neg hcontains]
    have hinside := (rectIntersect_inside hfits uiChar_pos uiChar_pos hempty).2.2
    constructor
    · intro hnone px py hin hseen
      have := hnone px py hseen
      rw [glyphInk, if_pos ⟨⟨hinside px py hin, hin⟩, fun ht => absurd ht Bool.false_ne_true⟩] at this
      cases this
    · intro hout px py hseen
      exact if_neg (fun hin => hout px py hin.1.2 hseen)

theorem getElem?_lt {α : Type} {l : List α} {P : Nat → Prop} :
    (∀ i a, l[i]? = some a → P i) ↔ ∀ i < l.length, P i :=
  ⟨fun h i hi => h i _ (List.getElem?_eq_getElem hi), fun h i _ ha => h i (List.getElem?_eq_some_iff.mp ha).1⟩

theorem stack_blank_iff {f : UInt8 × Nat → Pic Bool} {P : Int → Int → Prop} :
    (∀ px py, P px py → stack (text.zipIdx.map f) px py = none) ↔
      ∀ i c, text[i]? = some c → ∀ px py, P px py → f (c, i) px py = none := by
  simp only [stack_chars_eq_none]
  exact ⟨fun h i c hc px py hp => h px py hp i c hc, fun h px py hp i c hc => h i c hc px py hp⟩

theorem clippedAgrees_iff (hsame : SameGlyphs d.uiFont d.font) (hwide : 16 ≤ d.width) (hhigh : 8 ≤ d.height)
    (hx : GfxPositionValid x) (hy : GfxPositionValid y) (hclip : User.ClipValid clip) :
    (∀ px py, d.screen.Has px py → loopInk clip text (clippedInk d x y clip) px py =
      callInk d x y text clip false px py) ↔ ClippedAgrees d x y text clip := by
  have hy' : FitsInt y := by
    unfold GfxPositionValid appGfxCoordLimit at hy
    unfold FitsInt
    omega
  unfold loopInk callInk ClippedAgrees calledArea
  by_cases hsolid : clip.Solid
  · simp only [if_pos hsolid]
    split
    · rename_i hshort
      have h : ShortText d x y text clip := ⟨hx, hy, (clipValid_solid hsolid).mp hclip, hshort, hwide, hhigh⟩
      exact ⟨fun heq => h.of_agree hsame heq, fun hok px py hp => h.agrees hsame hok hp⟩
    · rw [← getElem?_lt]
      exact stack_blank_iff.trans (forall₃_congr (fun i c _ => idle_iff hy' c i))
  · simp only [if_neg hsolid]
    split
    · rename_i hshort
      rw [forall_prop_of_true hshort, ← getElem?_lt]
      constructor
      · intro heq i c hc px py hin hp
        have hnone := stack_chars_eq_none.mp (heq px py hp).symm i c hc
        rw [ShortText.calledInk_eq (c, i) hin hp] at hnone
        cases hnone
      · intro hout px py hp
        exact (stack_chars_eq_none.mpr (fun i c hc => if_neg (fun hin => hout i c hc px py hin.1.1 hp))).symm
    · rename_i hlong
      exact iff_of_true (fun _ _ _ => rfl) (fun hshort => absurd hshort hlong)

theorem calledInk_has {transparent : Bool} (hwrites : calledInk d x y clip transparent (c, i) px py ≠ none) :
    (charCell x y i).Has px py ∧ clip.Has px py := glyphInk_has hwrites

theorem transparentInk_has (hwrites : transparentInk d x y clip (c, i) px py ≠ none) :
    (charCell x y i).Has px py ∧ clip.Has px py := glyphInk_has hwrites

theorem transparent_has {font : Font} {area : Rect} (hin : (charCell x y i).Has px py) (harea : area.Has px py) :
    glyphInk font area true (c, (charCell x y i).x, y) px py =
      if inked font c (px - (charCell x y i).x).toNat (py - y).toNat = true then some true else none := by
  unfold glyphInk
  dsimp only
  by_cases hbit : inked font c (px - (charCell x y i).x).toNat (py - y).toNat = true
  · rw [if_pos ⟨⟨hin, harea⟩, fun _ => hbit⟩, if_pos hbit, hbit]
  · rw [if_neg (fun h => hbit (h.2 rfl)), if_neg hbit]

theorem transparentAgrees_iff (hsame : SameGlyphs d.uiFont d.font) (hwide : 16 ≤ d.width)
    (hhigh : 8 ≤ d.height) (hx : GfxPositionValid x) (hy : GfxPositionValid y) (hclip : User.ClipValid clip) :
    (∀ px py, d.screen.Has px py → loopInk clip text (transparentInk d x y clip) px py =
      callInk d x y text clip true px py) ↔ TransparentAgrees d x y text clip := by
  unfold loopInk callInk TransparentAgrees calledArea
  by_cases hsolid : clip.Solid
  · simp only [if_pos hsolid]
    have hloop : ∀ i c px py, Seen d clip (charCell x y i) px py → transparentInk d x y clip (c, i) px py =
        if inked d.font (uiFontChar c) (px - (charCell x y i).x).toNat (py - y).toNat = true then some true
        else none := by
      intro i c px py hseen
      have hcell := (charCell_has x y i px py).mp hseen.1
      rw [transparentInk, transparent_has hseen.1 hseen.2.1, hsame.inked_eq c _ (by omega)]
    split
    · rename_i hshort
      have h : ShortText d x y text clip := ⟨hx, hy, (clipValid_solid hsolid).mp hclip, hshort, hwide, hhigh⟩
      have hat : ∀ i c px py, text[i]? = some c → Seen d clip (charCell x y i) px py →
          (stack (text.zipIdx.map (transparentInk d x y clip)) px py =
            stack (text.zipIdx.map (calledInk d x y clip true)) px py ↔
          inked d.font (uiFontChar c) (px - (charCell x y i).x).toNat (py - y).toNat =
            inked d.font c (px - (charCell x y i).x).toNat (py - y).toNat) := by
        intro i c px py hc hseen
        rw [h.only_cell (fun _ _ hwrites => (transparentInk_has hwrites).1) hc hseen.1, hloop i c px py hseen,
          h.called_at hc true hseen.1, calledInk, transparent_has hseen.1 hseen.2.1]
        cases inked d.font (uiFontChar c) (px - (charCell x y i).x).toNat (py - y).toNat <;>
          cases inked d.font c (px - (charCell x y i).x).toNat (py - y).toNat <;> decide
      simp only [hshort, decide_true, Bool.true_and]
      constructor
      · exact fun heq i c hc px py hseen => (hat i c px py hc hseen).mp (heq px py hseen.2.2)
      · intro hok px py hp
        by_cases hcell : ∃ i c, text[i]? = some c ∧ (charCell x y i).Has px py ∧ clip.Has px py
        · obtain ⟨i, c, hc, hin, hclip⟩ := hcell
          exact (hat i c px py hc ⟨hin, hclip, hp⟩).mpr (hok i c hc px py ⟨hin, hclip, hp⟩)
        · have hnone : ∀ f : UInt8 × Nat → Pic Bool,
              (∀ j c', f (c', j) px py ≠ none → (charCell x y j).Has px py ∧ clip.Has px py) →
                stack (text.zipIdx.map f) px py = none := by
            refine fun f hf => stack_chars_eq_none.mpr (fun j c' hj => ?_)
            by_contra hwrites
            exact hcell ⟨j, c', hj, hf j c' hwrites⟩
          rw [hnone _ (fun _ _ hwrites => transparentInk_has hwrites),
            hnone _ (fun _ _ hwrites => calledInk_has hwrites)]
    · rename_i hlong
      simp only [hlong, decide_false, Bool.false_and]
      refine stack_blank_iff.trans (forall₃_congr (fun i c _ => ?_))
      constructor
      · intro hnone px py hseen
        have := hnone px py hseen.2.2
        rw [hloop i c px py hseen] at this
        exact Bool.eq_false_iff.mpr (fun hbit => by rw [if_pos hbit] at this; cases this)
      · intro hout px py hp
        by_contra hwrites
        obtain ⟨hin, hclip⟩ := transparentInk_has hwrites
        rw [hloop i c px py ⟨hin, hclip, hp⟩, hout px py ⟨hin, hclip, hp⟩] at hwrites
        exact hwrites rfl
  · simp only [if_neg hsolid]
    split
    · rename_i hshort
      rw [forall_prop_of_true hshort]
      have hblank : (∀ px py, d.screen.Has px py →
          (blank : Pic Bool) px py = stack (text.zipIdx.map (calledInk d x y d.screen true)) px py) ↔
          ∀ px py, d.screen.Has px py → stack (text.zipIdx.map (calledInk d x y d.screen true)) px py = none :=
        forall₃_congr (fun px py _ => eq_comm)
      refine hblank.trans (stack_blank_iff.trans (forall₃_congr (fun i c _ => ?_)))
      constructor
      · intro hnone px py hin hp hbit
        have := hnone px py hp
        rw [calledInk, transparent_has hin hp, if_pos hbit] at this
        cases this
      · intro hout px py hp
        by_contra hwrites
        obtain ⟨hin, _⟩ := calledInk_has hwrites
        rw [calledInk, transparent_has hin hp, if_neg (hout px py hin hp)] at hwrites
        exact hwrites rfl
    · rename_i hlong
      exact iff_of_true (fun _ _ _ => rfl) (fun hshort => absurd hshort hlong)

end All

/-! ## The comparison -/

section Comparison

/-- What `ui_draw_text_clipped` draws on a kernel that refuses the call. -/
def fallbackClipped (font uiFont : Font) (background : Bool) (api : Option Api) (s : Screen) (x y : Int)
    (text : List UInt8) (fg bg : UInt32) (clip : Rect) : Screen :=
  let u : Painter := ⟨⟨[], none⟩, s⟩
  (flush background (u.drawTextClipped font uiFont background api refuses x y text fg bg clip) api).1.screen

/-- What `ui_draw_text_transparent_clipped` draws on a kernel that refuses the call. -/
def fallbackTransparent (uiFont : Font) (background : Bool) (api : Option Api) (s : Screen) (x y : Int)
    (text : List UInt8) (fg : UInt32) (clip : Rect) : Screen :=
  let u : Painter := ⟨⟨[], none⟩, s⟩
  (flush background (u.drawTextTransparentClipped uiFont background api refuses x y text fg clip) api).1.screen

/-- The fallback of `ui_draw_text_clipped` and the call, in all colors. -/
def ClippedSame (font uiFont : Font) (background : Bool) (api : Option Api) (s : Screen) (x y : Int)
    (text : List UInt8) (clip : Rect) : Prop :=
  ∀ fg bg, (fallbackClipped font uiFont background api s x y text fg bg clip).target =
    (appGfxTextClipped api (gfxTextClipped font background) s x y text fg bg clip 0).1.target

/-- The fallback of `ui_draw_text_transparent_clipped` and the call, in all colors. -/
def TransparentSame (font uiFont : Font) (background : Bool) (api : Option Api) (s : Screen) (x y : Int)
    (text : List UInt8) (clip : Rect) : Prop :=
  ∀ fg, (fallbackTransparent uiFont background api s x y text fg clip).target =
    (appGfxTextClipped api (gfxTextClipped font background) s x y text fg 0 clip textTransparentBg).1.target

variable {background : Bool} {api : Option Api} {m : Mode} {s : Screen} {d : Display} {x y : Int}
  {text : List UInt8} {clip : Rect}

theorem heard_recolor (f : Bool → UInt32) (p : Pic Bool) :
    heard background api (recolor f p) = recolor f (heard background api p) := by
  funext px py
  unfold heard recolor
  split <;> rfl

theorem Leaves.drawn {p : Canvas} {q : Pic Bool} {f : Bool → UInt32} {u : Painter}
    (h : Leaves background api m s (fun px py => (p px py).or (blank px py)) u) (hq : p = recolor f q) :
    Draws (recolor f (heard background api q)) s (Ui.flush background u api).1.screen := by
  rw [← heard_recolor, ← hq]
  refine (h.congr (fun px py _ => ?_)).flushed api
  rw [blank, Option.or_none]

theorem draws_fallbackClipped (hself : Alike m s s) (hd : OnDisplay s d) (hy : GfxPositionValid y)
    (hclip : User.ClipValid clip) (hline : 0x0A ∉ text) (fg bg : UInt32) :
    Draws (recolor (tint fg bg) (heard background api (loopInk clip text (clippedInk d x y clip)))) s
      (fallbackClipped d.font d.uiFont background api s x y text fg bg clip) := by
  have hstart : Leaves background api m s blank ⟨⟨[], none⟩, s⟩ := Leaves.start hself rfl rfl
  unfold loopInk fallbackClipped
  dsimp only
  by_cases hsolid : clip.Solid
  · rw [if_pos hsolid]
    refine (leaves_refusedClipped hstart ⟨hd, hy, (clipValid_solid hsolid).mp hclip⟩ x text).drawn ?_
    rw [← stack_recolor, List.map_map]
    refine congrArg stack (List.map_congr_left (fun c hc => textClippedCell_eq ?_ ?_))
    · unfold GfxPositionValid appGfxCoordLimit at hy
      unfold FitsInt
      omega
    · exact fun hc' => hline (hc' ▸ List.fst_mem_of_mem_zipIdx hc)
  · rw [if_neg hsolid, Painter.drawTextClipped, if_pos (.inr (rectIsEmpty_iff.mpr hsolid))]
    exact Leaves.drawn (p := blank) (q := blank) hstart rfl

theorem draws_fallbackTransparent (hself : Alike m s s) (hd : OnDisplay s d) (hy : GfxPositionValid y)
    (hclip : User.ClipValid clip) (fg bg : UInt32) :
    Draws (recolor (tint fg bg) (heard background api (loopInk clip text (transparentInk d x y clip)))) s
      (fallbackTransparent d.uiFont background api s x y text fg clip) := by
  have hstart : Leaves background api m s blank ⟨⟨[], none⟩, s⟩ := Leaves.start hself rfl rfl
  unfold loopInk fallbackTransparent
  dsimp only
  by_cases hsolid : clip.Solid
  · rw [if_pos hsolid]
    refine (leaves_refusedTransparent hstart ⟨hd, hy, (clipValid_solid hsolid).mp hclip⟩ x text).drawn ?_
    rw [← stack_recolor, List.map_map]
    exact congrArg stack (List.map_congr_left (fun c _ => transparentCell_eq c))
  · rw [if_neg hsolid, Painter.drawTextTransparentClipped, if_pos (.inr (rectIsEmpty_iff.mpr hsolid))]
    exact Leaves.drawn (p := blank) (q := blank) hstart rfl

theorem draws_call (hself : Alike m s s) (hd : OnDisplay s d) (fg bg : UInt32) (transparent : Bool) :
    Draws (heard background api (calledPic d clip fg bg transparent x y text)) s
      (appGfxTextClipped api (gfxTextClipped d.font background) s x y text fg bg clip
        (textFlags transparent)).1 := by
  obtain ⟨_, hquiet, hcall⟩ := @appGfxTextClipped_draws background api m d fg bg clip s hself hd x y text transparent
  by_cases hq : Quiet background api
  · rw [(hquiet hq).1]
    exact (Draws.nothing s).congr (fun px py _ => (if_pos hq).symm)
  · exact (hcall hq).1.congr (fun px py _ => (if_neg hq).symm)

theorem calledPic_eq (hx : GfxPositionValid x) (hy : GfxPositionValid y) (hclip : User.ClipValid clip)
    (hline : 0x0A ∉ text) (fg bg : UInt32) (transparent : Bool) :
    calledPic d clip fg bg transparent x y text = recolor (tint fg bg) (callInk d x y text clip transparent) := by
  rw [calledPic, callInk]
  by_cases hshort : text.length + 1 < appUserTextMax
  · rw [if_pos hshort, if_pos ⟨hx, hy, hshort, hclip⟩, textPic_eq hx hline hshort]
  · rw [if_neg hshort, if_neg (fun h => hshort h.2.2.1)]
    rfl

theorem calledPic_transparent (fg bg : UInt32) :
    calledPic d clip fg 0 true x y text = calledPic d clip fg bg true x y text := rfl

theorem heard_inks {F S : Pic Bool} {t t' : UInt32 → UInt32 → Screen} {agrees : Prop} (hmode : s.mode = m)
    (hF : ∀ fg bg, Draws (recolor (tint fg bg) (heard background api F)) s (t fg bg))
    (hS : ∀ fg bg, Draws (recolor (tint fg bg) (heard background api S)) s (t' fg bg))
    (hagrees : (∀ px py, (screenRect m.width m.height).Has px py → F px py = S px py) ↔ agrees) :
    (Quiet background api ∨ agrees → ∀ fg bg, (t fg bg).target = (t' fg bg).target) ∧
      ((∃ a b, frontPixel m a ≠ frontPixel m b) → (∀ fg bg, (t fg bg).target = (t' fg bg).target) →
        Quiet background api ∨ agrees) := by
  subst hmode
  rw [← hagrees, ← heard_eq_iff]
  refine ⟨inks_same hF hS, fun hcolors hsame x y hin => inks_of_same ?_ hF hS hsame hin⟩
  obtain ⟨a, b, hab⟩ := hcolors
  unfold Screen.onTarget
  cases s.backbufferReady with
  | true => exact ⟨0, 1, by simp⟩
  | false => exact ⟨a, b, hab⟩

/-- The fallbacks of clipped text draw what the call draws where `ClippedAgrees` and `TransparentAgrees` say, and,
on a screen that tells two colors apart, only there. -/
theorem text_fallbacks_iff {font uiFont : Font} (hsame : SameGlyphs uiFont font) (hgraphics : m.Graphics)
    (hwide : m.width < 2 ^ 31) (hhigh : m.height < 2 ^ 31) (back front : Int → Int → UInt32) (calls : List Call)
    (background : Bool) (api : Option Api) (hx : GfxPositionValid x) (hy : GfxPositionValid y)
    (hclip : User.ClipValid clip) (hline : 0x0A ∉ text) :
    let s := calls.foldl (Call.run font) (initVideo m back front)
    let d : Display := ⟨m.width, m.height, font, uiFont⟩
    ((Quiet background api ∨ ClippedAgrees d x y text clip →
        ClippedSame font uiFont background api s x y text clip) ∧
      ((∃ a b, frontPixel m a ≠ frontPixel m b) → ClippedSame font uiFont background api s x y text clip →
        Quiet background api ∨ ClippedAgrees d x y text clip)) ∧
    (Quiet background api ∨ TransparentAgrees d x y text clip →
        TransparentSame font uiFont background api s x y text clip) ∧
      ((∃ a b, frontPixel m a ≠ frontPixel m b) → TransparentSame font uiFont background api s x y text clip →
        Quiet background api ∨ TransparentAgrees d x y text clip) := by
  intro s d
  have hself : Alike m s s := alike_run font hgraphics back front calls
  have hmode : s.mode = m := run_mode font m back front calls
  clear_value s
  obtain ⟨hw, hh, _, _⟩ := hgraphics
  have hd : OnDisplay s d := ⟨(congrArg Mode.width hmode).symm, (congrArg Mode.height hmode).symm,
    ⟨by dsimp only [d]; omega, hwide⟩, ⟨by dsimp only [d]; omega, hhigh⟩⟩
  have hroom : 16 ≤ d.width ∧ 8 ≤ d.height := ⟨by dsimp only [d]; omega, by dsimp only [d]; omega⟩
  have hcall := fun (fg bg : UInt32) (transparent : Bool) =>
    @draws_call background api m s d x y text clip hself hd fg bg transparent
  have hclipped := @heard_inks background api m s _ _ _
    (fun fg bg => (appGfxTextClipped api (gfxTextClipped font background) s x y text fg bg clip
      (textFlags false)).1) _ hmode (draws_fallbackClipped hself hd hy hclip hline)
    (fun fg bg => by
      rw [← heard_recolor, ← calledPic_eq hx hy hclip hline]
      exact hcall fg bg false)
    (clippedAgrees_iff hsame hroom.1 hroom.2 hx hy hclip)
  obtain ⟨hagree, honly⟩ := @heard_inks background api m s _ _ _
    (fun fg _ => (appGfxTextClipped api (gfxTextClipped font background) s x y text fg 0 clip
      (textFlags true)).1) _ hmode (draws_fallbackTransparent hself hd hy hclip)
    (fun fg bg => by
      rw [← heard_recolor, ← calledPic_eq hx hy hclip hline, ← calledPic_transparent]
      exact hcall fg 0 true)
    (transparentAgrees_iff hsame hroom.1 hroom.2 hx hy hclip)
  exact ⟨hclipped, fun h fg => hagree h fg 0, fun hcolors h => honly hcolors (fun fg _ => h fg)⟩

end Comparison

def freshScreen : Screen := initVideo mode640 (fun _ _ => 0) (fun _ _ => 0)

/-- A character at the corner of the screen, inside the clip rectangle. -/
theorem text_fallbacks_corner :
    ClippedSame glyphForChar glyphForChar false (some ⟨1, true⟩) freshScreen 0 0 [0x41] ⟨0, 0, 8, 8⟩ ∧
      TransparentSame glyphForChar glyphForChar false (some ⟨1, true⟩) freshScreen 0 0 [0x41] ⟨0, 0, 8, 8⟩ := by
  have hpos : GfxPositionValid 0 := by
    unfold GfxPositionValid
    decide
  obtain ⟨hclipped, htransparent⟩ := @text_fallbacks_iff mode640 0 0 [0x41] ⟨0, 0, 8, 8⟩ glyphForChar glyphForChar
    (fun _ _ _ _ _ => rfl) (by unfold Mode.Graphics mode640; decide) (by decide) (by decide)
    (fun _ _ => 0) (fun _ _ => 0) [] false (some ⟨1, true⟩) hpos hpos (by decide) (by decide)
  have hone : ∀ i c, ([0x41] : List UInt8)[i]? = some c → i = 0 ∧ c = 0x41 := by
    intro i c hc
    cases i with
    | zero => exact ⟨rfl, (Option.some.inj hc).symm⟩
    | succ i => cases hc
  have hshort : ([0x41] : List UInt8).length + 1 < appUserTextMax := by decide
  refine ⟨hclipped.1 (.inr ?_), htransparent.1 (.inr ?_)⟩
  · rw [ClippedAgrees, if_pos (by decide), if_pos hshort]
    refine ⟨fun i c hc hout => ?_, fun i c hc _ => ?_⟩
    · obtain ⟨rfl, rfl⟩ := hone i c hc
      exact absurd (by decide) hout
    · obtain ⟨rfl, rfl⟩ := hone i c hc
      exact .inPlace (by decide)
  · rw [TransparentAgrees, if_pos (by decide)]
    intro i c hc px py _
    obtain ⟨rfl, rfl⟩ := hone i c hc
    rw [decide_eq_true hshort, Bool.true_and]
    rfl

/-- Half of it left of the screen: the fallback moves it in. -/
theorem fallback_moves_text : SameGlyphs glyphForChar glyphForChar ∧
    GfxPositionValid (-4) ∧ GfxPositionValid 0 ∧ User.ClipValid ⟨-8, 0, 16, 8⟩ ∧ 0x0A ∉ ([0x41] : List UInt8) ∧
      (fallbackClipped glyphForChar glyphForChar false (some ⟨1, true⟩) freshScreen (-4) 0 [0x41] 0xFFFFFF 0xFF
        ⟨-8, 0, 16, 8⟩).target 7 0 ≠
      (appGfxTextClipped (some ⟨1, true⟩) (gfxTextClipped glyphForChar false) freshScreen (-4) 0 [0x41] 0xFFFFFF
        0xFF ⟨-8, 0, 16, 8⟩ 0).1.target 7 0 := by
  refine ⟨fun _ _ _ _ _ => rfl, ?_, ?_, by decide, by decide, by decide +kernel⟩
  · unfold GfxPositionValid
    decide
  · unfold GfxPositionValid
    decide

end Ui
end MiniDos
