import MiniDos.Video.Model

/-!
# MiniDos.Video.Blit

`video_blit_surface` of `video_render.c`: pixels of a surface in memory, scaled, clipped and, with
an alpha component, blended.

* `Blit.samples`: the pixels of the screen that the loops visit, each with the address of the four
  bytes that it is made of.
-/

namespace MiniDos
namespace Video

open Plane

variable {width height : Int}

/-- `video_surface_blit_t`. -/
structure Blit where
  buffer : Nat
  width : Int
  height : Int
  stride : Int
  format : Int
  destX : Int
  destY : Int
  clipX : Int
  clipY : Int
  clipW : Int
  clipH : Int
  destW : Int
  destH : Int

def formatLegacyXrgb : Int := 0
def formatXrgbLe : Int := 1
def formatArgbLe : Int := 2

def surfaceMaxDimension : Int := 16384
def surfaceCoordLimit : Int := 32768

namespace Blit

variable (b : Blit)

/-- The size on the screen. -/
def outW : Int := if 0 < b.destW then b.destW else b.width
def outH : Int := if 0 < b.destH then b.destH else b.height

def rowBytes : Int := b.width * 4

def SurfaceOk : Prop :=
  b.buffer ≠ 0 ∧ 0 < b.width ∧ 0 < b.height ∧ b.width ≤ surfaceMaxDimension ∧
    b.height ≤ surfaceMaxDimension ∧ 0 < b.stride ∧
    (b.format = formatLegacyXrgb ∨ b.format = formatXrgbLe ∨ b.format = formatArgbLe) ∧
    b.rowBytes ≤ b.stride ∧ b.height - 1 ≤ (0xFFFFFFFF - b.rowBytes) / b.stride

instance : Decidable b.SurfaceOk := inferInstanceAs (Decidable (_ ∧ _))

/-- A coordinate and a size that a surface may be put at. -/
def ExtentOk (origin size : Int) : Prop :=
  size ≤ surfaceMaxDimension ∧ -surfaceCoordLimit ≤ origin ∧ origin ≤ surfaceCoordLimit ∧
    origin ≤ 0x7FFFFFFF - size

instance (origin size : Int) : Decidable (ExtentOk origin size) :=
  inferInstanceAs (Decidable (_ ∧ _))

def DestOk : Prop := 0 < b.outW ∧ 0 < b.outH ∧ ExtentOk b.destX b.outW ∧ ExtentOk b.destY b.outH

instance : Decidable b.DestOk := inferInstanceAs (Decidable (_ ∧ _))

def clipped : Bool := decide (0 < b.clipW ∧ 0 < b.clipH)

def ClipOk : Prop :=
  b.clipped = true → ExtentOk b.clipX b.clipW ∧ ExtentOk b.clipY b.clipH

instance : Decidable b.ClipOk := inferInstanceAs (Decidable (_ → _))

def lowSide (dest clip : Int) : Int := if b.clipped = true ∧ dest < clip then clip else dest
def highSide (dest clip : Int) : Int := if b.clipped = true ∧ clip < dest then clip else dest

/-- The visible part of the destination. -/
def window (width height : Int) : Option Rect :=
  let x₀ := clipLow (b.lowSide b.destX b.clipX)
  let y₀ := clipLow (b.lowSide b.destY b.clipY)
  let x₁ := clipHigh width (b.highSide (b.destX + b.outW) (b.clipX + b.clipW))
  let y₁ := clipHigh height (b.highSide (b.destY + b.outH) (b.clipY + b.clipH))
  if x₁ ≤ x₀ ∨ y₁ ≤ y₀ then none else some (.ofCorners x₀ y₀ x₁ y₁)

/-- A pixel of the screen, and the address of its source. -/
structure Sample where
  x : Int
  y : Int
  addr : Int

/-- The pixel at column `srcX` of row `srcY`. -/
def sampleAt (x y srcX srcY : Int) : Sample := ⟨x, y, u32 (b.buffer + srcY * b.stride + srcX * 4)⟩

def clampSource (size n : Int) : Int := if size ≤ n then size - 1 else n

/-- `n` pixels of a row from `px` on. -/
def scaledRow (py srcY : Int) : Nat → Int → Int → Int → List Sample
  | 0, _, _, _ => []
  | n + 1, px, srcX, fraction =>
    let srcX := clampSource b.width srcX
    let next := fraction + b.width % b.outW
    b.sampleAt px py srcX srcY ::
      if b.outW ≤ next then
        scaledRow py srcY n (px + 1) (srcX + b.width / b.outW + 1) (next - b.outW)
      else scaledRow py srcY n (px + 1) (srcX + b.width / b.outW) next

/-- `n` rows from `py` on. -/
def scaledRows (r : Rect) : Nat → Int → Int → Int → List Sample
  | 0, _, _, _ => []
  | n + 1, py, srcY, fraction =>
    let srcY := clampSource b.height srcY
    let next := fraction + b.height % b.outH
    let product := (r.x - b.destX) * b.width
    b.scaledRow py srcY r.w.toNat r.x (product / b.outW) (product % b.outW) ++
      if b.outH ≤ next then scaledRows r n (py + 1) (srcY + b.height / b.outH + 1) (next - b.outH)
      else scaledRows r n (py + 1) (srcY + b.height / b.outH) next

/-- The loops of the general path. -/
def scaledSamples (r : Rect) : List Sample :=
  let product := (r.y - b.destY) * b.height
  b.scaledRows r r.h.toNat r.y (product / b.outH) (product % b.outH)

/-- The loops of the path for surfaces of the right size and format. -/
def plainSamples (r : Rect) : List Sample :=
  (List.range r.h.toNat).flatMap (fun (py : Nat) => (List.range r.w.toNat).map (fun (px : Nat) =>
    b.sampleAt (r.x + px) (r.y + py) (r.x - b.destX + px) (r.y - b.destY + py)))

variable {b} {r : Rect} {p : Sample}

theorem lowSide_le (b : Blit) (dest clip : Int) : dest ≤ b.lowSide dest clip := by
  unfold lowSide
  split <;> omega

theorem highSide_le (b : Blit) (dest clip : Int) : b.highSide dest clip ≤ dest := by
  unfold highSide
  split <;> omega

theorem window_spec (h : b.window width height = some r) :
    (r.Solid ∧ (screenRect width height).Covers r) ∧ b.destX ≤ r.x ∧ b.destY ≤ r.y ∧
      r.right ≤ b.destX + b.outW ∧ r.bottom ≤ b.destY + b.outH := by
  simp only [window] at h
  split at h
  · cases h
  rename_i hne
  cases h
  have hx₀ := clipLow_le (b.lowSide b.destX b.clipX)
  have hy₀ := clipLow_le (b.lowSide b.destY b.clipY)
  have hx₁ := clipHigh_le width (b.highSide (b.destX + b.outW) (b.clipX + b.clipW))
  have hy₁ := clipHigh_le height (b.highSide (b.destY + b.outH) (b.clipY + b.clipH))
  have hlowX := b.lowSide_le b.destX b.clipX
  have hlowY := b.lowSide_le b.destY b.clipY
  have hhighX := b.highSide_le (b.destX + b.outW) (b.clipX + b.clipW)
  have hhighY := b.highSide_le (b.destY + b.outH) (b.clipY + b.clipH)
  unfold Rect.Solid Rect.Covers screenRect
  rw [Rect.ofCorners_right, Rect.ofCorners_bottom]
  simp only [Rect.ofCorners, Rect.right, Rect.bottom, zero_add]
  omega

def Sourced (b : Blit) (p : Sample) : Prop :=
  ∃ srcX srcY, 0 ≤ srcX ∧ srcX < b.width ∧ 0 ≤ srcY ∧ srcY < b.height ∧
    p.addr = u32 (b.buffer + srcY * b.stride + srcX * 4)

theorem clampSource_spec {size n : Int} (hsize : 0 < size) (hn : 0 ≤ n) :
    0 ≤ clampSource size n ∧ clampSource size n < size := by
  unfold clampSource
  split <;> omega

theorem scaledRow_spec {py srcY : Int} (hw : 0 < b.width) (hout : 0 < b.outW) (hy : 0 ≤ srcY)
    (hy' : srcY < b.height) : ∀ (n : Nat) (px srcX fraction : Int), 0 ≤ srcX →
      p ∈ b.scaledRow py srcY n px srcX fraction →
      p.y = py ∧ px ≤ p.x ∧ p.x < px + n ∧ b.Sourced p := by
  intro n
  induction n with
  | zero =>
    intro px srcX fraction _ hp
    cases hp
  | succ n ih =>
    intro px srcX fraction hsrc hp
    obtain ⟨h0, h1⟩ := clampSource_spec hw hsrc
    have hstep : 0 ≤ b.width / b.outW := Int.ediv_nonneg (by omega) (by omega)
    simp only [scaledRow, List.mem_cons] at hp
    rcases hp with rfl | hp
    · exact ⟨rfl, Int.le_refl _, by simp only [sampleAt]; omega, _, srcY, h0, h1, hy, hy', rfl⟩
    · split at hp
      · obtain ⟨hpy, hlo, hhi, hs⟩ := ih _ _ _ (by omega) hp
        exact ⟨hpy, by omega, by omega, hs⟩
      · obtain ⟨hpy, hlo, hhi, hs⟩ := ih _ _ _ (by omega) hp
        exact ⟨hpy, by omega, by omega, hs⟩

theorem scaledRows_spec (hw : 0 < b.width) (hh : 0 < b.height) (houtW : 0 < b.outW)
    (houtH : 0 < b.outH) (hx : b.destX ≤ r.x) : ∀ (n : Nat) (py srcY fraction : Int), 0 ≤ srcY →
      p ∈ b.scaledRows r n py srcY fraction →
      py ≤ p.y ∧ p.y < py + n ∧ r.x ≤ p.x ∧ p.x < r.x + r.w.toNat ∧ b.Sourced p := by
  intro n
  induction n with
  | zero =>
    intro py srcY fraction _ hp
    cases hp
  | succ n ih =>
    intro py srcY fraction hsrc hp
    obtain ⟨h0, h1⟩ := clampSource_spec hh hsrc
    have hstep : 0 ≤ b.height / b.outH := Int.ediv_nonneg (by omega) (by omega)
    have hstart : 0 ≤ (r.x - b.destX) * b.width / b.outW :=
      Int.ediv_nonneg (Int.mul_nonneg (by omega) (by omega)) (by omega)
    simp only [scaledRows, List.mem_append] at hp
    rcases hp with hp | hp
    · obtain ⟨hpy, hlo, hhi, hs⟩ := scaledRow_spec hw houtW h0 h1 _ _ _ _ hstart hp
      exact ⟨by omega, by omega, hlo, hhi, hs⟩
    · split at hp
      · obtain ⟨hlo, hhi, hx⟩ := ih _ _ _ (by omega) hp
        exact ⟨by omega, by omega, hx⟩
      · obtain ⟨hlo, hhi, hx⟩ := ih _ _ _ (by omega) hp
        exact ⟨by omega, by omega, hx⟩

theorem scaledSamples_spec (hb : b.SurfaceOk) (hd : b.DestOk)
    (h : b.window width height = some r) (hp : p ∈ b.scaledSamples r) :
    r.Has p.x p.y ∧ b.Sourced p := by
  obtain ⟨⟨hsolid, _⟩, hx, hy, _, _⟩ := window_spec h
  unfold Rect.Solid at hsolid
  have hpos := hb.2.2.1
  have hstart : 0 ≤ (r.y - b.destY) * b.height / b.outH :=
    Int.ediv_nonneg (Int.mul_nonneg (by omega) (by omega)) (Int.le_of_lt hd.2.1)
  obtain ⟨hlo, hhi, hxlo, hxhi, hs⟩ :=
    scaledRows_spec hb.2.1 hb.2.2.1 hd.1 hd.2.1 hx _ _ _ _ hstart hp
  refine ⟨?_, hs⟩
  unfold Rect.Has Rect.right Rect.bottom
  omega

theorem plainSamples_spec (hW : b.outW = b.width) (hH : b.outH = b.height)
    (h : b.window width height = some r) (hp : p ∈ b.plainSamples r) :
    r.Has p.x p.y ∧ b.Sourced p := by
  obtain ⟨⟨hsolid, _⟩, hx, hy, hr, hb⟩ := window_spec h
  unfold Rect.Solid at hsolid
  unfold Rect.right at hr
  unfold Rect.bottom at hb
  rw [hW] at hr
  rw [hH] at hb
  simp only [plainSamples, List.mem_flatMap, List.mem_map, List.mem_range] at hp
  obtain ⟨j, hj, i, hi, rfl⟩ := hp
  refine ⟨?_, _, _, ?_, ?_, ?_, ?_, rfl⟩
  · unfold Rect.Has Rect.right Rect.bottom sampleAt
    dsimp only
    omega
  all_goals omega

end Blit

/-! ## Drawing -/

section Drawing

variable (mem : Nat → UInt8)

/-- A byte `k` behind an address. -/
def byteAt (addr k : Int) : UInt32 := (mem (u32 (addr + k)).toNat).toUInt32

/-- `read_u32_le`. -/
def readU32 (addr : Int) : UInt32 :=
  byteAt mem addr 0 ||| (byteAt mem addr 1 <<< 8) ||| (byteAt mem addr 2 <<< 16) |||
    (byteAt mem addr 3 <<< 24)

def unpackComponent (packed : UInt32) (size position : UInt8) : UInt32 :=
  if size = 0 ∨ 8 < size then 0
  else
    let maxValue : UInt32 := ((1 : UInt32) <<< size.toUInt32) - 1
    let value : UInt32 := (packed >>> position.toUInt32) &&& maxValue
    ((value * 255 + (maxValue >>> (1 : UInt32))) / maxValue) &&& 0xFF

/-- `read_draw_target_rgb_locked`. -/
def readDrawTargetRgb (s : Screen) (x y : Int) : UInt32 :=
  if s.backbufferReady then s.back x y &&& 0xFFFFFF
  else
    let packed := s.front x y
    (unpackComponent packed s.mode.redSize s.mode.redPos <<< 16) |||
      (unpackComponent packed s.mode.greenSize s.mode.greenPos <<< 8) |||
      unpackComponent packed s.mode.blueSize s.mode.bluePos

/-- One component of `blend_rgb_source_over`. -/
def blendComponent (src dst alpha : UInt32) : UInt32 :=
  ((src &&& 0xFF) * alpha + (dst &&& 0xFF) * (255 - alpha) + 127) / 255

def blendRgbSourceOver (src dst alpha : UInt32) : UInt32 :=
  (blendComponent (src >>> 16) (dst >>> 16) alpha <<< 16) |||
    (blendComponent (src >>> 8) (dst >>> 8) alpha <<< 8) ||| blendComponent src dst alpha

def sampleColor (format addr : Int) : UInt32 × UInt32 :=
  if format = formatLegacyXrgb then
    ((byteAt mem addr 1 <<< 16) ||| (byteAt mem addr 2 <<< 8) ||| byteAt mem addr 3, 255)
  else
    let packed := readU32 mem addr
    (packed &&& 0xFFFFFF, if format = formatArgbLe then packed >>> 24 else 255)

/-- A pixel of the general path. -/
def drawSample (format : Int) (s : Screen) (p : Blit.Sample) : Screen :=
  let c := sampleColor mem format p.addr
  if c.2 = 255 then s.drawPixel p.x p.y c.1
  else if c.2 ≠ 0 then
    s.drawPixel p.x p.y (blendRgbSourceOver c.1 (readDrawTargetRgb s p.x p.y) c.2)
  else s

/-- A pixel of the plain path. -/
def copySample (s : Screen) (p : Blit.Sample) : Screen :=
  { s with back := paint ⟨p.x, p.y, 1, 1⟩ (readU32 mem p.addr &&& 0xFFFFFF) s.back }

/-- The surface may be copied without scaling. -/
def Blit.Plain (b : Blit) (s : Screen) (r : Rect) : Prop :=
  b.format = formatXrgbLe ∧ b.outW = b.width ∧ b.outH = b.height ∧ s.backbufferReady = true ∧
    s.backbufferRectFits r = true

instance (b : Blit) (s : Screen) (r : Rect) : Decidable (b.Plain s r) :=
  inferInstanceAs (Decidable (_ ∧ _))

def drawSurface (s : Screen) (b : Blit) (r : Rect) : Screen :=
  if b.Plain s r then (b.plainSamples r).foldl (copySample mem) s
  else (b.scaledSamples r).foldl (drawSample mem b.format) s

def videoBlitSurface (s : Screen) (b : Blit) : Screen × Bool :=
  if ¬ b.SurfaceOk ∨ ¬ b.DestOk ∨ ¬ b.ClipOk then (s, false)
  else
    match b.window s.mode.width s.mode.height with
    | none => (s, true)
    | some r => (((drawSurface mem s b r).noteDirty r).maybePresentPending, true)

end Drawing

end Video
end MiniDos
