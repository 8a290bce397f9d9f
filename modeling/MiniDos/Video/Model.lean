import MiniDos.Video.Dirty

/-!
# MiniDos.Video.Model

The screen in graphics mode: `video.c`, `video_present.c`, the rectangles of `video_render.c`, and text at
pixel positions, `video_draw_text_impl` of `video_text.c`.

* Drawing goes to the backbuffer, one word of 32 bits a pixel, while there is one. Presenting copies
  the dirty part into the framebuffer, which holds a pixel in two, three or four bytes.
* Pixels are cells of their own here, as they are where no two of them share a byte
  (`Mode.PixelsApart`); pitches matter to `backbufferRectFits` only. The wait for the vertical retrace
  is left out, and so is text mode.
* The glyphs of `video_font.c` are a parameter; what is proved holds for every font.
-/

namespace MiniDos
namespace Video

open Plane

/-! ## Pixels -/

/-- What `init_video_once` takes from the boot loader. -/
structure Mode where
  width : Int
  height : Int
  pitch : Int
  bpp : Nat
  redSize : UInt8
  redPos : UInt8
  greenSize : UInt8
  greenPos : UInt8
  blueSize : UInt8
  bluePos : UInt8

/-- `video_fb_bytes_per_pixel`. -/
def Mode.bytesPerPixel (m : Mode) : Nat := if m.bpp ≤ 16 then 2 else if m.bpp ≤ 24 then 3 else 4

def scaleComponent (c : UInt32) (bits pos : UInt8) : UInt32 :=
  if bits = 0 then 0
  else
    let max := ((1 : UInt32) <<< bits.toUInt32) - 1
    ((c * max + 127) / 255) <<< pos.toUInt32

/-- `pack_rgb` of the components of `0xRRGGBB`. -/
def packRgb (m : Mode) (rgb : UInt32) : UInt32 :=
  scaleComponent ((rgb >>> 16) &&& 0xFF) m.redSize m.redPos |||
    scaleComponent ((rgb >>> 8) &&& 0xFF) m.greenSize m.greenPos |||
    scaleComponent (rgb &&& 0xFF) m.blueSize m.bluePos

def Mode.pixelMask (m : Mode) : UInt32 :=
  if m.bytesPerPixel = 4 then 0xFFFFFFFF else if m.bytesPerPixel = 3 then 0xFFFFFF else 0xFFFF

/-- `write_frontbuffer_pixel`. -/
def frontPixel (m : Mode) (rgb : UInt32) : UInt32 := packRgb m rgb &&& m.pixelMask

/-! ## The screen -/

structure Screen where
  mode : Mode
  backbufferReady : Bool
  backbufferPitch : Int
  fastPresentMode : Nat
  presentDeferred : Bool
  dirty : Dirty
  back : Int → Int → UInt32
  front : Int → Int → UInt32

/-- The pixels of a rectangle set to `v`. -/
def paint (r : Rect) (v : UInt32) (b : Int → Int → UInt32) : Int → Int → UInt32 :=
  fun x y => if r.Has x y then v else b x y

def u32 (n : Int) : Int := n % 2 ^ 32

def backbufferMaxBytes : Int := 1280 * 1024 * 4

namespace Screen

variable (s : Screen)

def backbufferRectFits (r : Rect) : Bool :=
  if s.backbufferReady = false ∨ s.backbufferPitch ≤ 0 then false
  else if r.x < 0 ∨ r.y < 0 ∨ r.w ≤ 0 ∨ r.h ≤ 0 then false
  else
    let rowBytes := u32 (r.w * 4)
    let rowOffset := u32 (u32 (u32 (r.y + r.h - 1) * u32 s.backbufferPitch) + u32 (r.x * 4))
    if rowBytes = 0 ∨ backbufferMaxBytes < rowBytes then false
    else if backbufferMaxBytes < rowOffset then false
    else decide (rowBytes ≤ backbufferMaxBytes - rowOffset)

/-- `video_disable_backbuffer_locked`. -/
def disableBackbuffer : Screen :=
  { s with backbufferReady := false, backbufferPitch := 0, fastPresentMode := 0, dirty := clearDirty }

/-- `video_note_dirty`. -/
def noteDirty (r : Rect) : Screen :=
  { s with dirty := Video.noteDirty s.backbufferReady s.mode.width s.mode.height s.dirty r }

def clearDirty : Screen := { s with dirty := Video.clearDirty }

/-- The pixels of a clipped rectangle, on the framebuffer. -/
def paintFront (r : Rect) (rgb : UInt32) : Screen :=
  { s with front := paint r (frontPixel s.mode rgb) s.front }

/-- `fill_frontbuffer_rect_rgb`. -/
def fillFrontbufferRectRgb (r : Rect) (rgb : UInt32) : Screen :=
  if r.w ≤ 0 ∨ r.h ≤ 0 then s
  else
    match clipRect s.mode.width s.mode.height r with
    | none => s
    | some c => s.paintFront c rgb

def drawClipped (r : Rect) (rgb : UInt32) : Screen :=
  if s.backbufferReady then
    if s.backbufferRectFits r then { s with back := paint r rgb s.back }
    else s.disableBackbuffer.paintFront r rgb
  else s.paintFront r rgb

/-- `fill_rect_rgb`. -/
def fillRectRgb (r : Rect) (rgb : UInt32) : Screen :=
  if r.w ≤ 0 ∨ r.h ≤ 0 then s
  else
    match clipRect s.mode.width s.mode.height r with
    | none => s
    | some c => s.drawClipped c rgb

def drawPixel (x y : Int) (rgb : UInt32) : Screen :=
  if x < 0 ∨ s.mode.width ≤ x ∨ y < 0 ∨ s.mode.height ≤ y then s else s.drawClipped ⟨x, y, 1, 1⟩ rgb

def clearGraphics (rgb : UInt32) : Screen :=
  s.fillRectRgb (screenRect s.mode.width s.mode.height) rgb

/-! ## Presenting -/

/-- A pixel of the backbuffer as presenting writes it: `video_backbuffer_present_rect32`,
`video_backbuffer_present_rect24`, or pixel by pixel. -/
def presentPixel (v : UInt32) : UInt32 :=
  if s.fastPresentMode = 0 then frontPixel s.mode v
  else if s.fastPresentMode = 32 then v
  else v &&& 0xFFFFFF

def copyRectToFront (r : Rect) : Screen :=
  if s.backbufferReady = false ∨ r.w ≤ 0 ∨ r.h ≤ 0 then s
  else
    match clipRect s.mode.width s.mode.height r with
    | none => s
    | some c =>
      if s.backbufferRectFits c then
        { s with front := fun x y => if c.Has x y then s.presentPixel (s.back x y) else s.front x y }
      else s.disableBackbuffer

def copyDirty : Screen :=
  if s.dirty.overflow = true ∨ s.dirty.rects = [] then s.copyRectToFront s.dirty.box
  else s.dirty.rects.foldl copyRectToFront s

def presentPending : Screen :=
  if s.backbufferReady = false ∨ s.dirty.valid = false then s else s.copyDirty.clearDirty

def maybePresentPending : Screen := if s.presentDeferred then s else s.presentPending

def setDeferredPresent (enabled : Bool) : Screen :=
  if s.backbufferReady = false then s
  else if enabled then { s with presentDeferred := true }
  else { s with presentDeferred := false }.presentPending

/-! ## The calls -/

def videoClearColor (rgb : UInt32) : Screen :=
  if s.backbufferReady then
    ((s.clearGraphics rgb).noteDirty (screenRect s.mode.width s.mode.height)).maybePresentPending
  else
    ((s.clearGraphics rgb).fillFrontbufferRectRgb (screenRect s.mode.width s.mode.height)
      rgb).clearDirty

/-- `video_rect_t`. -/
structure ColorRect where
  rect : Rect
  rgb : UInt32

/-- One entry of a batch. -/
def fillAndNote (r : ColorRect) : Screen := (s.fillRectRgb r.rect r.rgb).noteDirty r.rect

def videoFillRectBatch (rects : List ColorRect) : Screen × Bool :=
  if rects = [] ∨ rects.any (fun r => decide (r.rect.w ≤ 0 ∨ r.rect.h ≤ 0)) then (s, false)
  else ((rects.foldl fillAndNote s).maybePresentPending, true)

def videoFillRect (r : ColorRect) : Screen :=
  if r.rect.w ≤ 0 ∨ r.rect.h ≤ 0 then s else (s.videoFillRectBatch [r]).1

end Screen

/-! ## Booting -/

/-- `VIDEO_BACKBUFFER_ALIGNED_PITCH`. -/
def alignedPitch (width : Int) : Int := (width * 4 + 63) / 64 * 64

def Mode.roomy (m : Mode) : Bool :=
  decide (m.width ≤ 1280 ∧ m.height ≤ 1024 ∧ 0 < alignedPitch m.width ∧
    u32 (alignedPitch m.width * m.height) ≤ backbufferMaxBytes)

/-- `video_detect_fast_present_mode`. -/
def detectFastPresentMode (m : Mode) (backbufferReady : Bool) : Nat :=
  if backbufferReady = false ∨ m.pitch ≤ 0 then 0
  else if m.redSize ≠ 8 ∨ m.redPos ≠ 16 ∨ m.greenSize ≠ 8 ∨ m.greenPos ≠ 8 ∨ m.blueSize ≠ 8 ∨
      m.bluePos ≠ 0 then 0
  else if m.bytesPerPixel = 4 then 32
  else if m.bytesPerPixel = 3 then 24
  else 0

/-- `init_video_once` turns graphics mode on. -/
def Mode.Graphics (m : Mode) : Prop :=
  320 ≤ m.width ∧ 200 ≤ m.height ∧ m.width ≤ m.pitch ∧ 15 ≤ m.bpp

/-- No byte of the framebuffer belongs to two pixels. -/
def Mode.PixelsApart (m : Mode) : Prop := ∀ px py qx qy i j : Int,
  (screenRect m.width m.height).Has px py → (screenRect m.width m.height).Has qx qy →
    0 ≤ i ∧ i < m.bytesPerPixel → 0 ≤ j ∧ j < m.bytesPerPixel →
    py * m.pitch + px * m.bytesPerPixel + i = qy * m.pitch + qx * m.bytesPerPixel + j →
    px = qx ∧ py = qy

/-- A mode whose rows do not overlap: `init_video_once` compares the pitch with the width only. -/
structure Mode.Framed (m : Mode) : Prop where
  graphics : m.Graphics
  rows : m.width * m.bytesPerPixel ≤ m.pitch

/-- A mode in which the rows of the drawing target do not overlap; those of a backbuffer never do. -/
structure Mode.Drawable (m : Mode) : Prop where
  graphics : m.Graphics
  rows : m.roomy = true ∨ m.width * m.bytesPerPixel ≤ m.pitch

/-- The screen that `init_video_once` sets up, with anything in the two buffers. -/
def initScreen (m : Mode) (back front : Int → Int → UInt32) : Screen where
  mode := m
  backbufferReady := m.roomy
  backbufferPitch := if m.roomy then alignedPitch m.width else 0
  fastPresentMode := detectFastPresentMode m m.roomy
  presentDeferred := false
  dirty := clearDirty
  back := back
  front := front

def initVideo (m : Mode) (back front : Int → Int → UInt32) : Screen :=
  (((initScreen m back front).clearGraphics 0).noteDirty
    (screenRect m.width m.height)).presentPending

end Video

namespace Video

open Plane

/-- The eight rows of the glyph of a character. -/
abbrev Font := UInt8 → Nat → UInt8

def fontW : Int := 8
def fontH : Int := 8

/-- What the loops carry: the screen, and the box around the pixels that were drawn. -/
structure Ink where
  screen : Screen
  drawn : Option Rect

def growInk (drawn : Option Rect) (x y : Int) : Rect :=
  match drawn with
  | none => ⟨x, y, 1, 1⟩
  | some box => box.hull ⟨x, y, 1, 1⟩

section Text

variable (font : Font) (clip : Rect) (fg bg : UInt32) (transparent : Bool)

/-- Pixel `gx` of a row of a glyph. -/
def inkPixel (bits : UInt8) (x y : Int) (ink : Ink) (gx : Nat) : Ink :=
  let drawX := int32 (x + gx)
  let foreground := bits &&& ((1 : UInt8) <<< (7 - gx.toUInt8)) ≠ 0
  if ¬ clip.Has drawX y ∨ (¬ foreground ∧ transparent = true) then ink
  else
    { screen := ink.screen.drawPixel drawX y (if foreground then fg else bg)
      drawn := some (growInk ink.drawn drawX y) }

def inkRow (c : UInt8) (x y : Int) (ink : Ink) (gy : Nat) : Ink :=
  (List.range 8).foldl (inkPixel clip fg bg transparent (font c gy) x (int32 (y + gy))) ink

def inkGlyph (c : UInt8) (x y : Int) (ink : Ink) : Ink :=
  (List.range 8).foldl (inkRow font clip fg bg transparent c x y) ink

def GlyphFits (x y : Int) : Prop :=
  clip.x ≤ x ∧ clip.y ≤ y ∧ int32 (x + fontW) ≤ clip.right ∧ int32 (y + fontH) ≤ clip.bottom

instance (x y : Int) : Decidable (GlyphFits clip x y) := inferInstanceAs (Decidable (_ ∧ _))

def inkText (startX : Int) (fullGlyphs : Bool) : List UInt8 → Int → Int → Ink → Ink
  | [], _, _, ink => ink
  | c :: text, x, y, ink =>
    if c = 0x0A then inkText startX fullGlyphs text startX (int32 (y + fontH)) ink
    else
      inkText startX fullGlyphs text (int32 (x + fontW)) y
        (if fullGlyphs = true ∧ ¬ GlyphFits clip x y then ink
          else inkGlyph font clip fg bg transparent c x y ink)

end Text

def textTransparentBg : UInt32 := 1

/-- The clip rectangle, which an empty one leaves to the screen; `none`: it overflows. -/
def textClip (width height : Int) (clip : Rect) : Option Rect :=
  if clip.w ≤ 0 ∨ clip.h ≤ 0 then some (screenRect width height)
  else if 0x7FFFFFFF - clip.w < clip.x ∨ 0x7FFFFFFF - clip.h < clip.y then none
  else some clip

/-- Noting the box of the text. -/
def noteInk (ink : Ink) : Screen :=
  match ink.drawn with
  | none => ink.screen
  | some box => ink.screen.noteDirty box

def videoDrawTextImpl (font : Font) (s : Screen) (x y : Int) (text : List UInt8) (fg bg : UInt32)
    (clip : Rect) (flags : UInt32) (fullGlyphs : Bool) : Screen × Bool :=
  if flags &&& ~~~textTransparentBg ≠ 0 then (s, false)
  else
    match textClip s.mode.width s.mode.height clip with
    | none => (s, false)
    | some clip =>
      match clipRect s.mode.width s.mode.height clip with
      | none => (s, true)
      | some clip =>
        ((noteInk (inkText font clip fg bg (decide (flags &&& textTransparentBg ≠ 0)) x
          fullGlyphs text x y ⟨s, none⟩)).maybePresentPending, true)

def videoDrawTextClipped (font : Font) (s : Screen) (x y : Int) (text : List UInt8)
    (fg bg : UInt32) (clip : Rect) (flags : UInt32) : Screen × Bool :=
  videoDrawTextImpl font s x y text fg bg clip flags false

def videoDrawTextAt (font : Font) (s : Screen) (x y : Int) (text : List UInt8) (fg bg : UInt32) :
    Screen :=
  (videoDrawTextImpl font s (clipHigh s.mode.width (clipLow x)) (clipHigh s.mode.height (clipLow y))
    text fg bg (screenRect s.mode.width s.mode.height) 0 true).1

end Video
end MiniDos
