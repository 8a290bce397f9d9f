import MiniDos.Ui.BitmapDecode
import MiniDos.Ui.Paint
import MiniDos.Ui.Surface
import MiniDos.Video.SameMode

/-!
# MiniDos.Ui.BitmapDraw

`ui_draw_bitmap` and `ui_draw_bitmap_clipped` of `ui_draw.h`: by a surface, or pixel by pixel.

* `shows_slow`: the pixels that the loops leave.
* `shows_fast`: those of the surface, where the system call accepts it.
* `bitmap_paths_iff`: when the two leave the same.
-/

namespace MiniDos
namespace Ui

open Video Plane
open Fat16 (CStr)
open Files (Task userRangeValid)
open Screen (ColorRect)

/-! ## Pixel by pixel -/

section Slow

variable (bufs : Buffers) (mem : Nat → UInt8) (b : Bitmap)

/-- `src_x` and `src_y`. -/
def sourceIndex (n size drawSize : Int) : Int :=
  let src := (int32 (n * size)).tdiv drawSize
  if size ≤ src then size - 1 else src

/-- A byte of pixel `(x, y)`. -/
def fileByte (x y k : Int) : UInt32 := (mem (u32 (bufs.data + b.pixelOffset x y k)).toNat).toUInt32

def fileColor (x y : Int) : UInt32 :=
  uiRgb (fileByte bufs mem b x y 2) (fileByte bufs mem b x y 1) (fileByte bufs mem b x y 0)

/-- The pixels that the loops leave out. -/
def Transparent (x y : Int) : Prop :=
  if b.bytesPerPixel = 4 then fileByte bufs mem b x y 3 = 0
  else fileColor bufs mem b x y = bitmapTransparentColor

instance (x y : Int) : Decidable (Transparent bufs mem b x y) := by
  unfold Transparent
  infer_instance

/-- The pixel in column `dx` and row `dy` of a picture of size `w` by `h`, drawn at `(x, y)`. -/
def pixelRect (w h dx dy x y : Int) : Option ColorRect :=
  let srcX := sourceIndex dx b.srcW w
  let srcY := sourceIndex dy b.absSrcH h
  if Transparent bufs mem b srcX srcY then none else some ⟨⟨x, y, 1, 1⟩, fileColor bufs mem b srcX srcY⟩

/-- The loops of `ui_draw_bitmap`. -/
def slowPixels (dest : Rect) : List ColorRect :=
  (List.range dest.h.toNat).flatMap (fun dy : Nat => (List.range dest.w.toNat).filterMap (fun dx : Nat =>
    pixelRect bufs mem b dest.w dest.h dx dy (int32 (dest.x + dx)) (int32 (dest.y + dy))))

/-- The loops of `ui_draw_bitmap_clipped`. -/
def slowPixelsClipped (dest draw : Rect) : List ColorRect :=
  (List.range (int32 (draw.y + draw.h) - draw.y).toNat).flatMap (fun j : Nat =>
    (List.range (int32 (draw.x + draw.w) - draw.x).toNat).filterMap (fun i : Nat =>
      pixelRect bufs mem b dest.w dest.h (int32 (draw.x + i - dest.x)) (int32 (draw.y + j - dest.y))
        (draw.x + i) (draw.y + j)))

end Slow

/-! ## Both -/

section Draw

variable (background : Bool) (task : Task) (bufs : Buffers) (api : Option Api)

/-- The descriptor that `ui_wallpaper_surface_blit_scaled` fills in. -/
def surfaceBlit (sfc : WallpaperSurface) (dest clip : Rect) : Blit where
  buffer := bufs.pixels
  width := sfc.width
  height := sfc.height
  stride := sfc.stride
  format := formatXrgbLe
  destX := dest.x
  destY := dest.y
  clipX := clip.x
  clipY := clip.y
  clipW := clip.w
  clipH := clip.h
  destW := dest.w
  destH := dest.h

def wallpaperSurfaceBlitScaled (mem : Nat → UInt8) (sfc : WallpaperSurface) (u : Painter) (dest clip : Rect) :
    Painter × Bool :=
  if sfc.valid = false then (u, false)
  else
    let u := (flush background u api).1
    let done := appGfxSurfaceBlit background task mem api u.screen (surfaceBlit bufs sfc dest clip)
    let u := { u with screen := done.1 }
    if 0 < done.2 then (u, true)
    else packedXrgbBlitScaledFallback background mem (surfaceBlit bufs sfc dest clip) u api

/-- `dst_w > 0 ? dst_w : width`, and the same for the height. -/
def destRect (dst : Rect) (width height : Int) : Rect :=
  ⟨dst.x, dst.y, if 0 < dst.w then dst.w else width, if 0 < dst.h then dst.h else height⟩

def drawBitmapFast (mem : Nat → UInt8) (sfc : WallpaperSurface) (u : Painter) (dst : Rect) : Painter × Bool :=
  wallpaperSurfaceBlitScaled background task bufs api mem sfc u (destRect dst sfc.width sfc.height) ⟨-1, 0, 0, 0⟩

def drawBitmapSlow (mem : Nat → UInt8) (b : Bitmap) (u : Painter) (dst : Rect) : Painter × Bool :=
  let dest := destRect dst b.srcW b.absSrcH
  if dest.w ≤ 0 ∨ dest.h ≤ 0 then (u, false)
  else ({ u with screen := drawEach background api (slowPixels bufs mem b dest) u.screen }, true)

def drawBitmapClippedFast (mem : Nat → UInt8) (sfc : WallpaperSurface) (u : Painter) (dst clip : Rect) :
    Painter × Bool :=
  wallpaperSurfaceBlitScaled background task bufs api mem sfc u (destRect dst sfc.width sfc.height) clip

def drawBitmapClippedSlow (mem : Nat → UInt8) (b : Bitmap) (u : Painter) (dst clip : Rect) : Painter × Bool :=
  let dest := destRect dst b.srcW b.absSrcH
  let draw := rectIntersect dest clip
  if rectIsEmpty draw then (u, true)
  else ({ u with screen := drawEach background api (slowPixelsClipped bufs mem b dest draw) u.screen }, true)

end Draw

/-! ## What is drawn -/

section Drawn

variable {m : Mode} {s s' s'' : Screen} {api : Option Api} {bufs : Buffers} {mem : Nat → UInt8} {b : Bitmap}
  {dest clip : Rect}

theorem shows_target_eq_iff {R P : Int → Int → Prop} {v : Int → Int → UInt32} (h : Shows R v s s')
    (h' : Shows (fun x y => R x y ∧ P x y) v s s'') :
    s'.target = s''.target ↔ ∀ x y, R x y → ¬ P x y → s.target x y = s.onTarget (v x y) := by
  constructor
  · intro heq x y hR hP
    rw [← h.inside x y hR, heq, h'.outside x y (fun hin => hP hin.2)]
  · intro hholes
    funext x y
    by_cases hR : R x y
    · by_cases hP : P x y
      · rw [h.inside x y hR, h'.inside x y ⟨hR, hP⟩]
      · rw [h.inside x y hR, h'.outside x y (fun hin => hP hin.2), hholes x y hR hP]
    · rw [h.outside x y hR, h'.outside x y (fun hin => hR hin.1)]

/-- Pixels that are drawn one by one. The kernel refuses those at the end of the coordinates, which are
not on the screen. -/
theorem shows_drawPixels (hs : Alike m s s) (hapi : api.any Api.syscall = true)
    (hwide : s.mode.width < 2 ^ 31) (hhigh : s.mode.height < 2 ^ 31) {v : Int → Int → UInt32}
    {rects : List ColorRect} (hrects : ∀ r ∈ rects, r.rect.w = 1 ∧ r.rect.h = 1 ∧ FitsInt r.rect.x ∧ FitsInt r.rect.y ∧
      ((screenRect s.mode.width s.mode.height).Has r.rect.x r.rect.y → v r.rect.x r.rect.y = r.rgb)) :
    Shows (fun x y => ∃ r ∈ rects, (screenRect s.mode.width s.mode.height).Has x y ∧ r.rect.x = x ∧ r.rect.y = y)
      v s (drawEach false api rects s) := by
  have hstep : ∀ (t : Screen) (r : ColorRect), (Alike m t t ∧ t.mode = s.mode) → r ∈ rects →
      (Alike m (appGfxRect false api t r).1 (appGfxRect false api t r).1 ∧
        (appGfxRect false api t r).1.mode = s.mode) ∧
      Shows (fun x y => (screenRect s.mode.width s.mode.height).Has x y ∧ r.rect.x = x ∧ r.rect.y = y) v t
        (appGfxRect false api t r).1 := by
    rintro t r ⟨ht, hmode⟩ hr
    obtain ⟨hw, hh, hx, hy, hcolor⟩ := hrects r hr
    by_cases hsafe : GfxLegacyRectSafe r.rect
    · have hcall : (appGfxRect false api t r).1 = t.videoFillRect r := by
        unfold appGfxRect appSyscall gfxRect
        rw [if_pos hapi]
        dsimp only
        rw [if_neg (by simp [hsafe])]
      have hsolid : 0 < r.rect.w ∧ 0 < r.rect.h := by omega
      have hsides : FitsInt (r.rect.x + r.rect.w) ∧ FitsInt (r.rect.y + r.rect.h) := by
        rw [GfxLegacyRectSafe] at hsafe
        rw [FitsInt] at *
        rw [FitsInt]
        omega
      have hshows : Shows (fun x y => (screenRect s.mode.width s.mode.height).Has x y ∧ r.rect.x = x ∧ r.rect.y = y)
          v t (t.videoFillRect r) := by
        rw [← hmode] at hcolor ⊢
        refine (shows_fillRect ht hsolid.1 hsolid.2 hsides.1 hsides.2).congr (fun x y => ?_) ?_
        · simp only [Rect.Has, Rect.right, Rect.bottom]
          omega
        · rintro x y ⟨hin, hon⟩
          simp only [Rect.Has, Rect.right, Rect.bottom] at hin
          obtain ⟨rfl, rfl⟩ : r.rect.x = x ∧ r.rect.y = y := by omega
          exact hcolor hon
      refine ⟨⟨Alike.appGfxRect ht api r, by rw [hcall, hshows.mode, hmode]⟩, ?_⟩
      rw [hcall]
      exact hshows
    · have hcall : (appGfxRect false api t r).1 = t := by
        unfold appGfxRect appSyscall gfxRect
        rw [if_pos hapi]
        dsimp only
        rw [if_pos (.inr hsafe)]
      rw [hcall]
      refine ⟨⟨ht, hmode⟩, .nothing (fun x y hin => ?_)⟩
      rw [screenRect_has, GfxLegacyRectSafe] at *
      omega
  exact (Shows.foldl hstep ⟨hs, rfl⟩).2

variable (bufs mem b)

def shownX (dest : Rect) (x : Int) : Int := sourceIndex (x - dest.x) b.srcW dest.w
def shownY (dest : Rect) (y : Int) : Int := sourceIndex (y - dest.y) b.absSrcH dest.h

def shownColor (dest : Rect) (x y : Int) : UInt32 := fileColor bufs mem b (shownX b dest x) (shownY b dest y)

/-- A pixel that the loops leave as it is. -/
def Hole (dest : Rect) (x y : Int) : Prop := Transparent bufs mem b (shownX b dest x) (shownY b dest y)

instance (dest : Rect) (x y : Int) : Decidable (Hole bufs mem b dest x y) :=
  inferInstanceAs (Decidable (Transparent _ _ _ _ _))

variable {bufs mem b}

theorem pixelRect_some {w h dx dy x y : Int} {r : ColorRect} : pixelRect bufs mem b w h dx dy x y = some r ↔
    ¬ Transparent bufs mem b (sourceIndex dx b.srcW w) (sourceIndex dy b.absSrcH h) ∧
      r = ⟨⟨x, y, 1, 1⟩, fileColor bufs mem b (sourceIndex dx b.srcW w) (sourceIndex dy b.absSrcH h)⟩ := by
  simp only [pixelRect]
  split
  · rename_i hhole
    simp [hhole]
  · rename_i hhole
    rw [Option.some_inj]
    exact ⟨fun heq => ⟨hhole, heq.symm⟩, fun heq => heq.2.symm⟩

theorem mem_slowPixels {r : ColorRect} : r ∈ slowPixels bufs mem b dest ↔ ∃ dx dy : Nat, dx < dest.w.toNat ∧
    dy < dest.h.toNat ∧ pixelRect bufs mem b dest.w dest.h dx dy (int32 (dest.x + dx)) (int32 (dest.y + dy)) = some r := by
  simp only [slowPixels, List.mem_flatMap, List.mem_filterMap, List.mem_range]
  constructor
  · rintro ⟨dy, hdy, dx, hdx, hr⟩
    exact ⟨dx, dy, hdx, hdy, hr⟩
  · rintro ⟨dx, dy, hdx, hdy, hr⟩
    exact ⟨dy, hdy, dx, hdx, hr⟩

theorem int32_onScreen {a w : Int} (ha : FitsInt a) (hw : FitsInt w) {d : Nat} (hd : d < w.toNat)
    (hon : 0 ≤ int32 (a + d)) : int32 (a + d) = a + d := by
  rw [FitsInt] at ha hw
  have hsum := int32_sum (n := a + d) (by omega) (by omega)
  omega

/-- What the loops of `ui_draw_bitmap` leave. -/
theorem shows_slow (hs : Alike m s s) (hapi : api.any Api.syscall = true) (hwide : s.mode.width < 2 ^ 31)
    (hhigh : s.mode.height < 2 ^ 31) (hd : FitsRect dest) :
    Shows (fun x y => ((screenRect s.mode.width s.mode.height).Has x y ∧ dest.Has x y) ∧ ¬ Hole bufs mem b dest x y)
      (shownColor bufs mem b dest) s (drawEach false api (slowPixels bufs mem b dest) s) := by
  refine (shows_drawPixels (v := shownColor bufs mem b dest) hs hapi hwide hhigh ?_).congr ?_ (fun _ _ _ => rfl)
  · intro r hr
    obtain ⟨dx, dy, hdx, hdy, hr⟩ := mem_slowPixels.mp hr
    obtain ⟨-, rfl⟩ := pixelRect_some.mp hr
    refine ⟨rfl, rfl, int32_range _, int32_range _, fun hon => ?_⟩
    rw [screenRect_has] at hon
    dsimp only at hon ⊢
    rw [int32_onScreen hd.x hd.w hdx hon.1, int32_onScreen hd.y hd.h hdy hon.2.2.1, shownColor, shownX, shownY,
      add_sub_cancel_left, add_sub_cancel_left]
  · intro x y
    constructor
    · rintro ⟨⟨hon, hin⟩, hhole⟩
      simp only [Rect.Has, Rect.right, Rect.bottom] at hin
      have hdx : dest.x + ((x - dest.x).toNat : Int) = x := by omega
      have hdy : dest.y + ((y - dest.y).toNat : Int) = y := by omega
      have hon' := screenRect_has.mp hon
      refine ⟨_, mem_slowPixels.mpr ⟨(x - dest.x).toNat, (y - dest.y).toNat, by omega, by omega,
        pixelRect_some.mpr ⟨?_, rfl⟩⟩, hon, ?_, ?_⟩
      · rw [Int.toNat_of_nonneg (by omega), Int.toNat_of_nonneg (by omega)]
        exact hhole
      · dsimp only
        rw [hdx, int32_of_fits ⟨by omega, by omega⟩]
      · dsimp only
        rw [hdy, int32_of_fits ⟨by omega, by omega⟩]
    · rintro ⟨r, hr, hon, rfl, rfl⟩
      obtain ⟨dx, dy, hdx, hdy, hr⟩ := mem_slowPixels.mp hr
      obtain ⟨hhole, rfl⟩ := pixelRect_some.mp hr
      have hon' := screenRect_has.mp hon
      dsimp only at hon hon' ⊢
      have hx := int32_onScreen hd.x hd.w hdx hon'.1
      have hy := int32_onScreen hd.y hd.h hdy hon'.2.2.1
      refine ⟨⟨hon, ?_⟩, ?_⟩
      · rw [hx, hy]
        simp only [Rect.Has, Rect.right, Rect.bottom]
        omega
      · rw [hx, hy, Hole, shownX, shownY, add_sub_cancel_left, add_sub_cancel_left]
        exact hhole

theorem mem_slowPixelsClipped {draw : Rect} {r : ColorRect} : r ∈ slowPixelsClipped bufs mem b dest draw ↔
    ∃ i j : Nat, i < (int32 (draw.x + draw.w) - draw.x).toNat ∧ j < (int32 (draw.y + draw.h) - draw.y).toNat ∧
      pixelRect bufs mem b dest.w dest.h (int32 (draw.x + i - dest.x)) (int32 (draw.y + j - dest.y))
        (draw.x + i) (draw.y + j) = some r := by
  simp only [slowPixelsClipped, List.mem_flatMap, List.mem_filterMap, List.mem_range]
  constructor
  · rintro ⟨j, hj, i, hi, hr⟩
    exact ⟨i, j, hi, hj, hr⟩
  · rintro ⟨i, j, hi, hj, hr⟩
    exact ⟨j, hj, i, hi, hr⟩

/-- What the loops of `ui_draw_bitmap_clipped` leave. -/
theorem shows_slowClipped (hs : Alike m s s) (hapi : api.any Api.syscall = true) (hwide : s.mode.width < 2 ^ 31)
    (hhigh : s.mode.height < 2 ^ 31) (hd : FitsRect dest) (hw : 0 < dest.w) (hh : 0 < dest.h)
    (hne : ¬ rectIsEmpty (rectIntersect dest clip) = true) :
    Shows (fun x y => ((screenRect s.mode.width s.mode.height).Has x y ∧ (rectIntersect dest clip).Has x y) ∧
        ¬ Hole bufs mem b dest x y) (shownColor bufs mem b dest) s
      (drawEach false api (slowPixelsClipped bufs mem b dest (rectIntersect dest clip)) s) := by
  obtain ⟨hright, hbottom, hinside⟩ := rectIntersect_inside hd hw hh hne
  generalize rectIntersect dest clip = draw at hright hbottom hinside ⊢
  -- a pixel of the loops is inside the destination, so that nothing wraps
  have hpixel : ∀ i j : Nat, i < (int32 (draw.x + draw.w) - draw.x).toNat →
      j < (int32 (draw.y + draw.h) - draw.y).toNat → draw.Has (draw.x + i) (draw.y + j) ∧
        int32 (draw.x + i - dest.x) = draw.x + i - dest.x ∧ int32 (draw.y + j - dest.y) = draw.y + j - dest.y ∧
        FitsInt (draw.x + i) ∧ FitsInt (draw.y + j) := by
    intro i j hi hj
    have hwide := int32_range (draw.x + draw.w)
    have hhigh := int32_range (draw.y + draw.h)
    have hdraw : draw.Has (draw.x + i) (draw.y + j) := by
      simp only [Rect.Has, Rect.right, Rect.bottom] at *
      omega
    have hdest := hinside _ _ hdraw
    have hfits := hd
    obtain ⟨⟨_, _⟩, ⟨_, _⟩, ⟨_, _⟩, ⟨_, _⟩⟩ := hfits
    simp only [Rect.Has, Rect.right, Rect.bottom, FitsInt] at *
    exact ⟨hdraw, int32_of_fits ⟨by omega, by omega⟩, int32_of_fits ⟨by omega, by omega⟩,
      ⟨by omega, by omega⟩, ⟨by omega, by omega⟩⟩
  refine (shows_drawPixels (v := shownColor bufs mem b dest) hs hapi hwide hhigh ?_).congr ?_ (fun _ _ _ => rfl)
  · intro r hr
    obtain ⟨i, j, hi, hj, hr⟩ := mem_slowPixelsClipped.mp hr
    obtain ⟨-, rfl⟩ := pixelRect_some.mp hr
    obtain ⟨-, hx, hy, hfx, hfy⟩ := hpixel i j hi hj
    refine ⟨rfl, rfl, hfx, hfy, fun _ => ?_⟩
    rw [hx, hy]
    rfl
  · intro x y
    constructor
    · rintro ⟨⟨hon, hin⟩, hhole⟩
      have hsides := hin
      simp only [Rect.Has] at hsides
      have hi : (x - draw.x).toNat < (int32 (draw.x + draw.w) - draw.x).toNat := by omega
      have hj : (y - draw.y).toNat < (int32 (draw.y + draw.h) - draw.y).toNat := by omega
      have hdx : draw.x + ((x - draw.x).toNat : Int) = x := by omega
      have hdy : draw.y + ((y - draw.y).toNat : Int) = y := by omega
      obtain ⟨-, hx, hy, -, -⟩ := hpixel _ _ hi hj
      refine ⟨_, mem_slowPixelsClipped.mpr ⟨_, _, hi, hj, pixelRect_some.mpr ⟨?_, rfl⟩⟩, hon, hdx, hdy⟩
      rw [hx, hy, hdx, hdy]
      exact hhole
    · rintro ⟨r, hr, hon, rfl, rfl⟩
      obtain ⟨i, j, hi, hj, hr⟩ := mem_slowPixelsClipped.mp hr
      obtain ⟨hhole, rfl⟩ := pixelRect_some.mp hr
      obtain ⟨hdraw, hx, hy, -, -⟩ := hpixel i j hi hj
      rw [hx, hy] at hhole
      exact ⟨⟨hon, hdraw⟩, hhole⟩

theorem shows_drawBitmapClippedSlow (hs : Alike m s s) (hapi : api.any Api.syscall = true)
    (hwide : s.mode.width < 2 ^ 31) (hhigh : s.mode.height < 2 ^ 31) {dst : Rect}
    (hd : FitsRect (destRect dst b.srcW b.absSrcH)) (hw : 0 < (destRect dst b.srcW b.absSrcH).w)
    (hh : 0 < (destRect dst b.srcW b.absSrcH).h) (batch : Batch) :
    Shows (fun x y => ((screenRect s.mode.width s.mode.height).Has x y ∧
        (rectIntersect (destRect dst b.srcW b.absSrcH) clip).Has x y) ∧
        ¬ Hole bufs mem b (destRect dst b.srcW b.absSrcH) x y)
      (shownColor bufs mem b (destRect dst b.srcW b.absSrcH)) s
      (drawBitmapClippedSlow false bufs api mem b ⟨batch, s⟩ dst clip).1.screen := by
  simp only [drawBitmapClippedSlow]
  split
  · rename_i hempty
    refine .nothing (fun x y hin => ?_)
    have hhas := hin.1.2
    rw [rectIsEmpty_iff, Rect.Solid] at hempty
    simp only [Rect.Has, Rect.right, Rect.bottom] at hhas
    omega
  · rename_i hne
    exact shows_slowClipped hs hapi hwide hhigh hd hw hh hne

end Drawn

/-! ## By a surface -/

section Fast

variable {m : Mode} {s : Screen} {u : Painter} {api : Option Api} {task : Task} {bufs : Buffers}
  {mem : Nat → UInt8} {b : Bitmap} {dest clip : Rect} {path : CStr} {data : Nat → UInt8} {n : Int}

theorem sourceIndex_eq {i size drawSize : Int} (hi : 0 ≤ i ∧ i < drawSize) (hdraw : drawSize ≤ 16384)
    (hsize : 0 < size ∧ size ≤ 16384) : sourceIndex i size drawSize = i * size / drawSize ∧
      0 ≤ i * size / drawSize ∧ i * size / drawSize < size := by
  have hpos : 0 ≤ i * size := Int.mul_nonneg hi.1 (Int.le_of_lt hsize.1)
  have hless : i * size < drawSize * size := Int.mul_lt_mul_of_pos_right hi.2 hsize.1
  have hbound : drawSize * size ≤ 16384 * 16384 := by
    have hstep := Int.mul_le_mul_of_nonneg_right hdraw (Int.le_of_lt hsize.1)
    have hstep' := Int.mul_le_mul_of_nonneg_left hsize.2 (show (0 : Int) ≤ 16384 by decide)
    omega
  have hlt : i * size / drawSize < size := Int.ediv_lt_of_lt_mul (by omega) (by rwa [Int.mul_comm size])
  rw [sourceIndex, int32_of_fits ⟨by omega, by omega⟩, Int.tdiv_eq_ediv_of_nonneg hpos]
  exact ⟨if_neg (by omega), Int.ediv_nonneg hpos (by omega), hlt⟩

theorem toUInt32_and (x : UInt8) : x.toUInt32 &&& 0xFF = x.toUInt32 := by
  apply UInt32.toNat_inj.mp
  rw [UInt32.toNat_and]
  show x.toUInt32.toNat &&& (2 ^ 8 - 1) = _
  rw [Nat.and_two_pow_sub_one_eq_mod]
  exact Nat.mod_eq_of_lt (by simpa using x.toNat_lt)

theorem colorAt_eq (hdecoded : Decoded bufs mem b)
    (hok : FallbackOk (surfaceBlit bufs (surfaceOf path b) dest clip)) {x y : Int} (hin : dest.Has x y) :
    (surfaceBlit bufs (surfaceOf path b) dest clip).colorAt mem x y = shownColor bufs mem b dest x y := by
  obtain ⟨-, hw, hh, hw', hh', hdw, hdh, hdw', hdh', -⟩ := hok
  simp only [surfaceBlit, surfaceOf] at hw hh hw' hh' hdw hdh hdw' hdh'
  simp only [Rect.Has, Rect.right, Rect.bottom] at hin
  obtain ⟨hx, hx0, hxw⟩ := sourceIndex_eq (i := x - dest.x) ⟨by omega, by omega⟩ hdw' ⟨hw, hw'⟩
  obtain ⟨hy, hy0, hyh⟩ := sourceIndex_eq (i := y - dest.y) ⟨by omega, by omega⟩ hdh' ⟨hh, hh'⟩
  have hbyte : ∀ k : Int, 0 ≤ k → k < 3 → byteAt mem (u32 (bufs.pixels + (y - dest.y) * b.absSrcH / dest.h *
      int32 (b.srcW * 4) + (x - dest.x) * b.srcW / dest.w * 4)) k =
      fileByte bufs mem b ((x - dest.x) * b.srcW / dest.w) ((y - dest.y) * b.absSrcH / dest.h) k := by
    intro k hk hk'
    have hcell := hdecoded _ _ k ⟨⟨hx0, hxw⟩, ⟨hy0, hyh⟩, ⟨hk, show k < 4 by omega⟩⟩
    rw [surfaceByte, if_pos hk'] at hcell
    rw [fileByte, ← hcell, byteAt, int32_of_fits ⟨by omega, by omega⟩, Bitmap.surfaceOffset, ← Int.mul_assoc]
    have haddr : ∀ p r c : Int, u32 (u32 (p + r + c) + k) = u32 (p + u32 (r + c + k)) := by
      intro p r c
      simp only [u32]
      omega
    rw [haddr]
  rw [← packedColor_eq hdw hdh]
  simp only [packedColor, surfaceBlit, surfaceOf, shownColor, shownX, shownY]
  rw [hx, hy, hbyte 2 (by decide) (by decide), hbyte 1 (by decide) (by decide), hbyte 0 (by decide) (by decide),
    fileColor, uiRgb]
  simp only [fileByte, toUInt32_and]

theorem blitScaled_screen (hapi : api.any Api.syscall = true) (hnil : u.batch.rects = [])
    (hdest : 0 < dest.w ∧ 0 < dest.h)
    (hown : User.SurfaceAccepted (surfaceBlit bufs (surfaceOf path b) dest clip) →
      userRangeValid task (UInt32.ofNat bufs.pixels)
        (User.sourceSpan (surfaceBlit bufs (surfaceOf path b) dest clip)) = true) :
    (wallpaperSurfaceBlitScaled false task bufs api mem (surfaceOf path b) u dest clip).1.screen =
      if FallbackOk (surfaceBlit bufs (surfaceOf path b) dest clip) then
        (videoBlitSurface mem u.screen (surfaceBlit bufs (surfaceOf path b) dest clip)).1
      else u.screen := by
  have hflush : (flush false u api).1 = u := by rw [flush, if_pos hnil]
  have hstride : (surfaceBlit bufs (surfaceOf path b) dest clip).stride < 2 ^ 31 := (int32_range _).2
  have hcall : ∀ t, appGfxSurfaceBlit false task mem api t (surfaceBlit bufs (surfaceOf path b) dest clip) =
      if FallbackOk (surfaceBlit bufs (surfaceOf path b) dest clip) then
        ((videoBlitSurface mem t (surfaceBlit bufs (surfaceOf path b) dest clip)).1, 1) else (t, 0) := by
    intro t
    rw [appGfxSurfaceBlit, appSyscall, if_pos hapi]
    exact gfxSurfaceBlit_eq rfl hstride hown hdest.1 hdest.2 t
  have hvalid : ¬ (surfaceOf path b).valid = false := by simp [surfaceOf]
  simp only [wallpaperSurfaceBlitScaled]
  rw [if_neg hvalid, hflush, hcall]
  split
  · rw [if_pos Int.one_pos]
  · rename_i hno
    rw [if_neg (Int.lt_irrefl 0), packedXrgbBlitScaledFallback, if_pos (.inr hno)]

theorem shows_fast (hs : Alike m s s) (hdecoded : Decoded bufs mem b) (hdest : 0 < dest.w ∧ 0 < dest.h)
    (hok : FallbackOk (surfaceBlit bufs (surfaceOf path b) dest clip)) {region : Int → Int → Prop}
    (hregion : ∀ x y, clipRegion (surfaceBlit bufs (surfaceOf path b) dest clip) x y ↔ region x y)
    (hinside : ∀ x y, region x y → dest.Has x y) :
    Shows (fun x y => (screenRect s.mode.width s.mode.height).Has x y ∧ region x y) (shownColor bufs mem b dest) s
      (videoBlitSurface mem s (surfaceBlit bufs (surfaceOf path b) dest clip)).1 := by
  obtain ⟨hb, hd, hc⟩ := (fallbackOk_iff hdest.1 hdest.2 rfl).mp hok
  refine (shows_blitSurface mem hs rfl hb hd hc).congr (fun x y => ?_) (fun x y hin => ?_)
  · rw [window_iff hdest.1 hdest.2, hregion, and_comm]
  · rw [window_iff hdest.1 hdest.2, hregion] at hin
    exact (colorAt_eq hdecoded hok (hinside x y hin.1)).symm

theorem clipRegion_plain (x y : Int) :
    clipRegion (surfaceBlit bufs (surfaceOf path b) dest ⟨-1, 0, 0, 0⟩) x y ↔ dest.Has x y := by
  have hclipped : (surfaceBlit bufs (surfaceOf path b) dest ⟨-1, 0, 0, 0⟩).clipped = false := by
    simp [surfaceBlit, Blit.clipped]
  simp only [clipRegion, left, top, right, bottom, Blit.lowSide, Blit.highSide, hclipped, Bool.false_eq_true,
    false_and, if_false]
  simp only [surfaceBlit, Rect.Has, Rect.right, Rect.bottom]

theorem clipRegion_clipped (hclip : ¬ rectIsEmpty clip = true)
    (hok : FallbackOk (surfaceBlit bufs (surfaceOf path b) dest clip)) (x y : Int) :
    clipRegion (surfaceBlit bufs (surfaceOf path b) dest clip) x y ↔ (rectIntersect dest clip).Has x y := by
  rw [rectIsEmpty_iff, not_not] at hclip
  have hclipped : (surfaceBlit bufs (surfaceOf path b) dest clip).clipped = true := by
    rw [Blit.clipped, decide_eq_true_eq]
    exact hclip
  obtain ⟨-, -, -, -, -, hw, hh, hw', hh', -, hx, hx', hy, hy', -, -, -, -, hbounds⟩ := hok
  have hbounds := hbounds hclip
  simp only [surfaceBlit] at hw hh hw' hh' hx hx' hy hy' hbounds
  have hsolid := hclip
  rw [Rect.Solid] at hsolid
  rw [rectIntersect_has]
  · simp only [clipRegion, left, top, right, bottom, Blit.lowSide, Blit.highSide, hclipped, true_and]
    simp only [surfaceBlit, Rect.Has, Rect.right, Rect.bottom]
    omega
  · simp only [Mild, Bounded, Rect.right, Rect.bottom]
    omega
  · simp only [Mild, Bounded, Rect.right, Rect.bottom]
    omega

end Fast

/-! ## The two paths -/

section Paths

variable {m : Mode} {s t : Screen} {api : Option Api} {task : Task} {bufs : Buffers} {mem : Nat → UInt8}
  {b : Bitmap} {dest dst clip region : Rect} {path : CStr}

/-- Where the two could differ, the drawing target already shows the color: at the pixels that only the
surface draws or, if it is refused, at those that the loops draw. -/
def AlreadyShown (bufs : Buffers) (mem : Nat → UInt8) (b : Bitmap) (s : Screen) (dest clip region : Rect) : Prop :=
  ∀ x y, (screenRect s.mode.width s.mode.height).Has x y → region.Has x y →
    (Hole bufs mem b dest x y ↔ FallbackOk (surfaceBlit bufs (surfaceOf [] b) dest clip)) →
      s.target x y = s.onTarget (shownColor bufs mem b dest x y)

theorem paths_target_iff (hs : Alike m s s) (hapi : api.any Api.syscall = true) (hdecoded : Decoded bufs mem b)
    (hdest : 0 < dest.w ∧ 0 < dest.h)
    (hown : User.SurfaceAccepted (surfaceBlit bufs (surfaceOf path b) dest clip) →
      userRangeValid task (UInt32.ofNat bufs.pixels)
        (User.sourceSpan (surfaceBlit bufs (surfaceOf path b) dest clip)) = true)
    (hregion : FallbackOk (surfaceBlit bufs (surfaceOf path b) dest clip) →
      ∀ x y, clipRegion (surfaceBlit bufs (surfaceOf path b) dest clip) x y ↔ region.Has x y)
    (hinside : ∀ x y, region.Has x y → dest.Has x y)
    (hslow : Shows (fun x y => ((screenRect s.mode.width s.mode.height).Has x y ∧ region.Has x y) ∧
      ¬ Hole bufs mem b dest x y) (shownColor bufs mem b dest) s t) :
    (wallpaperSurfaceBlitScaled false task bufs api mem (surfaceOf path b) ⟨⟨[], none⟩, s⟩ dest clip).1.screen.target =
        t.target ↔ AlreadyShown bufs mem b s dest clip region := by
  rw [blitScaled_screen hapi rfl hdest hown]
  split
  · rename_i hok
    refine (shows_target_eq_iff (shows_fast hs hdecoded hdest hok (hregion hok) hinside) hslow).trans ?_
    refine ⟨fun hholes x y hon hin hdiffer => ?_, fun hshown x y hR hhole => ?_⟩
    · exact hholes x y ⟨hon, hin⟩ (not_not.mpr (hdiffer.mpr hok))
    · exact hshown x y hR.1 hR.2 ⟨fun _ => hok, fun _ => not_not.mp hhole⟩
  · rename_i hno
    rw [eq_comm]
    have hnothing : Shows (fun x y => (((screenRect s.mode.width s.mode.height).Has x y ∧ region.Has x y) ∧
        ¬ Hole bufs mem b dest x y) ∧ False) (shownColor bufs mem b dest) s s := .nothing (fun _ _ hin => hin.2)
    refine (shows_target_eq_iff hslow hnothing).trans ?_
    refine ⟨fun hdrawn x y hon hin hdiffer => ?_, fun hshown x y hR _ => ?_⟩
    · exact hdrawn x y ⟨⟨hon, hin⟩, fun hhole => hno (hdiffer.mp hhole)⟩ id
    · exact hshown x y hR.1.1 hR.1.2 ⟨fun hhole => absurd hhole hR.2, fun hok => absurd hok hno⟩

theorem blitScaled_background (hs : Alike m s s) (sfc : WallpaperSurface) :
    (wallpaperSurfaceBlitScaled true task bufs api mem sfc ⟨⟨[], none⟩, s⟩ dest clip).1.screen.target = s.target := by
  have hempty : (flush true ⟨⟨[], none⟩, s⟩ api).1 = ⟨⟨[], none⟩, s⟩ := by rw [flush, if_pos rfl]
  have hcall : (appGfxSurfaceBlit true task mem api s (surfaceBlit bufs sfc dest clip)).1 = s ∧
      ¬ 0 < (appGfxSurfaceBlit true task mem api s (surfaceBlit bufs sfc dest clip)).2 := by
    refine ⟨blit_none (.inl rfl) s, ?_⟩
    have hrefused : gfxSurfaceBlit true task mem s (surfaceBlit bufs sfc dest clip) = (s, 0) := if_pos (.inl rfl)
    rw [appGfxSurfaceBlit, appSyscall, hrefused]
    split
    · exact Int.lt_irrefl 0
    · exact Int.not_lt.mpr (Int.le_of_lt (Int.negSucc_lt_zero 0))
  have hsettled : Settled true m ⟨⟨[], none⟩, s⟩ s :=
    ⟨Nat.succ_pos 63, fun hne => absurd rfl hne, hs, hs⟩
  simp only [wallpaperSurfaceBlitScaled]
  split
  · rfl
  · rw [hempty]
    dsimp only
    rw [if_neg hcall.2, hcall.1, fallback_eq]
    split
    · rfl
    · have hqueued := (@Settled.enqueueAll true m s _ api (packedRuns mem (surfaceBlit bufs sfc dest clip)) true
        hsettled).alike
      rw [drawEach_none (.inl rfl), drawEach_none (.inl rfl)] at hqueued
      exact hqueued.target

theorem fitsRect_destRect (hdst : FitsRect dst) {w h : Int} (hw : FitsInt w) (hh : FitsInt h) :
    FitsRect (destRect dst w h) := by
  refine ⟨hdst.x, hdst.y, ?_, ?_⟩
  · have hfits := hdst.w
    rw [destRect]
    dsimp only
    split
    · exact hfits
    · exact hw
  · have hfits := hdst.h
    rw [destRect]
    dsimp only
    split
    · exact hfits
    · exact hh

theorem destRect_pos {w h : Int} (hw : 0 < w) (hh : 0 < h) :
    0 < (destRect dst w h).w ∧ 0 < (destRect dst w h).h := by
  rw [destRect]
  dsimp only
  constructor <;> split <;> assumption

end Paths

/-- A valid file, drawn by its surface and pixel by pixel, by both functions, on a target whose rows do
not overlap: they leave the same target just when the target shows the color already wherever one of
them alone draws. -/
theorem bitmap_paths_iff (font : Font) (m : Mode) (hdrawable : m.Drawable)
    (hwide : m.width < 2 ^ 31) (hhigh : m.height < 2 ^ 31) (back front : Int → Int → UInt32) (calls : List Call)
    (background : Bool) (task : Task) (api : Option Api) (hapi : api.any Api.syscall = true) (bufs : Buffers)
    (mem : Nat → UInt8) {data : Nat → UInt8} {n : Int} {b : Bitmap} (hparse : parseBitmap data n = some b)
    (hdecoded : Decoded bufs mem b) (path : CStr) (dst clip : Rect) (hdst : FitsRect dst)
    (hclip : ¬ rectIsEmpty clip = true)
    (hown : User.SurfaceAccepted (surfaceBlit bufs (surfaceOf path b) dst clip) →
      userRangeValid task (UInt32.ofNat bufs.pixels)
        (User.sourceSpan (surfaceBlit bufs (surfaceOf path b) dst clip)) = true) :
    let s := calls.foldl (Call.run font) (initVideo m back front)
    let dest := destRect dst b.srcW b.absSrcH
    ((drawBitmapFast background task bufs api mem (surfaceOf path b) ⟨⟨[], none⟩, s⟩ dst).1.screen.target =
        (drawBitmapSlow background bufs api mem b ⟨⟨[], none⟩, s⟩ dst).1.screen.target ↔
      background = true ∨ AlreadyShown bufs mem b s dest ⟨-1, 0, 0, 0⟩ dest) ∧
    ((drawBitmapClippedFast background task bufs api mem (surfaceOf path b) ⟨⟨[], none⟩, s⟩ dst clip).1.screen.target =
        (drawBitmapClippedSlow background bufs api mem b ⟨⟨[], none⟩, s⟩ dst clip).1.screen.target ↔
      background = true ∨ AlreadyShown bufs mem b s dest clip (rectIntersect dest clip)) := by
  intro s dest
  have hs : Alike m s s := alike_run font hdrawable.graphics back front calls
  have hmode : s.mode = m := run_mode font m back front calls
  have hwide' : s.mode.width < 2 ^ 31 := by rw [hmode]; exact hwide
  have hhigh' : s.mode.height < 2 ^ 31 := by rw [hmode]; exact hhigh
  have hparsed := parseBitmap_some hparse
  have hpos : 0 < dest.w ∧ 0 < dest.h := destRect_pos hparsed.srcW.2 hparsed.absSrcH.2
  have hdest : FitsRect dest := fitsRect_destRect hdst hparsed.fits.1 hparsed.fits.2
  have hsize : ¬ (dest.w ≤ 0 ∨ dest.h ≤ 0) := by omega
  cases background with
  | true =>
    have hslow : (drawBitmapSlow true bufs api mem b ⟨⟨[], none⟩, s⟩ dst).1.screen = s := by
      simp only [drawBitmapSlow]
      rw [if_neg hsize]
      exact drawEach_none (.inl rfl) _ s
    have hclipped : (drawBitmapClippedSlow true bufs api mem b ⟨⟨[], none⟩, s⟩ dst clip).1.screen = s := by
      simp only [drawBitmapClippedSlow]
      split
      · rfl
      · exact drawEach_none (.inl rfl) _ s
    rw [hslow, hclipped]
    exact ⟨iff_of_true (blitScaled_background hs _) (.inl rfl), iff_of_true (blitScaled_background hs _) (.inl rfl)⟩
  | false =>
    simp only [Bool.false_eq_true, false_or]
    constructor
    · refine paths_target_iff hs hapi hdecoded hpos hown (fun _ => clipRegion_plain) (fun _ _ => id) ?_
      simp only [drawBitmapSlow]
      rw [if_neg hsize]
      exact shows_slow hs hapi hwide' hhigh' hdest
    · have hinside : ∀ x y, (rectIntersect dest clip).Has x y → dest.Has x y := by
        intro x y hin
        refine (rectIntersect_inside hdest hpos.1 hpos.2 (fun hempty => ?_)).2.2 x y hin
        rw [rectIsEmpty_iff, Rect.Solid] at hempty
        simp only [Rect.Has, Rect.right, Rect.bottom] at hin
        omega
      exact paths_target_iff hs hapi hdecoded hpos hown (fun hok => clipRegion_clipped hclip hok) hinside
        (shows_drawBitmapClippedSlow hs hapi hwide' hhigh' hdest hpos.1 hpos.2 _)

/-- An app with 1 MiB. -/
def mebiTask : Task := ⟨2, true, 0, [], 0, [], 0, 0x100000⟩

def onePixelLoaded (pixel : List UInt8) : Images :=
  (wallpaperSurfaceLoad appBuffers (some (oneFile (bmpFile [1, 0, 0, 0] [1, 0, 0, 0] pixel))) (some [0x41]) noImages).1

def blackScreen : Painter := ⟨⟨[], none⟩, initVideo mode640 (fun _ _ => 0) (fun _ _ => 0)⟩

/-- A pixel of the transparent color: the surface shows it, the loops do not. -/
theorem paths_differ :
    (onePixelLoaded [255, 0, 255, 0]).cache.valid = true ∧ (onePixelLoaded [255, 0, 255, 0]).surface.valid = true ∧
      (drawBitmapFast false mebiTask appBuffers (some ⟨1, true⟩) (onePixelLoaded [255, 0, 255, 0]).memory
          (onePixelLoaded [255, 0, 255, 0]).surface blackScreen ⟨0, 0, 0, 0⟩).1.screen.target 0 0 ≠
        (drawBitmapSlow false appBuffers (some ⟨1, true⟩) (onePixelLoaded [255, 0, 255, 0]).memory
          (onePixelLoaded [255, 0, 255, 0]).cache.bitmap blackScreen ⟨0, 0, 0, 0⟩).1.screen.target 0 0 := by
  refine ⟨by decide, by decide, by decide⟩

theorem onePixel_decoded :
    (onePixelLoaded [1, 2, 3, 0]).surface = surfaceOf [0x41] (onePixelLoaded [1, 2, 3, 0]).cache.bitmap ∧
      Decoded appBuffers (onePixelLoaded [1, 2, 3, 0]).memory (onePixelLoaded [1, 2, 3, 0]).cache.bitmap := by
  have happart : appBuffers.Apart := ⟨by decide, by decide, by decide⟩
  obtain ⟨s', hread⟩ : ∃ s', readBitmap appBuffers (oneFile (bmpFile [1, 0, 0, 0] [1, 0, 0, 0] [1, 2, 3, 0])) [0x41]
      noImages = (s', true) := ⟨_, rfl⟩
  have hload : wallpaperSurfaceLoad appBuffers (some (oneFile (bmpFile [1, 0, 0, 0] [1, 0, 0, 0] [1, 2, 3, 0])))
      (some [0x41]) noImages = (onePixelLoaded [1, 2, 3, 0], true) := Prod.ext rfl (by decide)
  have hs' : (readBitmap appBuffers (oneFile (bmpFile [1, 0, 0, 0] [1, 0, 0, 0] [1, 2, 3, 0])) [0x41] noImages).1 = s' :=
    congrArg Prod.fst hread
  have hfit : SizesFit (s'.data appBuffers) := by
    rw [← hs']
    decide
  exact (wallpaperSurfaceLoad_decoded happart (by decide) (by decide) hread hfit hload).2

/-- Twice as large it looks the same by its surface and pixel by pixel. -/
theorem bitmap_paths_onePixel :
    (drawBitmapFast false mebiTask appBuffers (some ⟨1, true⟩) (onePixelLoaded [1, 2, 3, 0]).memory
        (onePixelLoaded [1, 2, 3, 0]).surface blackScreen ⟨0, 0, 2, 2⟩).1.screen.target =
      (drawBitmapSlow false appBuffers (some ⟨1, true⟩) (onePixelLoaded [1, 2, 3, 0]).memory
        (onePixelLoaded [1, 2, 3, 0]).cache.bitmap blackScreen ⟨0, 0, 2, 2⟩).1.screen.target := by
  have hdst : FitsRect ⟨0, 0, 2, 2⟩ := by
    refine ⟨?_, ?_, ?_, ?_⟩ <;> rw [FitsInt] <;> decide
  have hparse : parseBitmap (fileData (bmpFile [1, 0, 0, 0] [1, 0, 0, 0] [1, 2, 3, 0])) 58 =
      some (onePixelLoaded [1, 2, 3, 0]).cache.bitmap := by decide
  obtain ⟨hsurface, hdecoded⟩ := onePixel_decoded
  rw [hsurface]
  refine ((bitmap_paths_iff (fun _ _ => 0) mode640
    ⟨by unfold Mode.Graphics mode640; decide, .inl (by decide)⟩ (by decide) (by decide)
    (fun _ _ => 0) (fun _ _ => 0) [] false mebiTask (some ⟨1, true⟩) rfl appBuffers _ hparse hdecoded [0x41]
    ⟨0, 0, 2, 2⟩ ⟨0, 0, 8, 8⟩ hdst (by decide) (fun _ => by decide)).1).mpr (.inr ?_)
  intro x y hon hin hdiffer
  have hrange : 0 ≤ x ∧ x < 2 ∧ 0 ≤ y ∧ y < 2 := hin
  obtain ⟨hx, hx', hy, hy'⟩ := hrange
  have hhole := hdiffer.mpr (by decide)
  interval_cases x <;> interval_cases y <;> exact absurd hhole (by decide)

end Ui
end MiniDos
