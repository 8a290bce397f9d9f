import MiniDos.Video.Scale

/-!
# MiniDos.Video.Stepping

The integers that the loops of `video_blit_surface` carry along.

* `steps`: the position in the surface and the fraction at the head of each round. `scaledRow_steps`,
  `scaledRows_steps`: the loops draw from these positions.
* `columnSteps_within`, `rowSteps_within`: no position is behind the end of the surface.
* `NoOverflow`, `noOverflow`: the expressions fit into their types.
-/

namespace MiniDos
namespace Video

open Plane Ratio

def FitsUnsigned (n : Int) : Prop := 0 ≤ n ∧ n < 2 ^ 32

namespace Blit

/-! ## The rounds -/

/-- `src_x` and `x_fraction`, or `src_y` and `y_fraction`, at the head of each of `n` rounds. -/
def steps (size out : Int) : Nat → Int → Int → List (Int × Int)
  | 0, _, _ => []
  | n + 1, src, fraction =>
    let next := fraction + size % out
    (src, fraction) ::
      if out ≤ next then steps size out n (clampSource size src + size / out + 1) (next - out)
      else steps size out n (clampSource size src + size / out) next

variable (b : Blit)

/-- The start of the first row and the first column of the visible part. -/
def columnStart (r : Rect) : Int × Int :=
  ((r.x - b.destX) * b.width / b.outW, (r.x - b.destX) * b.width % b.outW)

def rowStart (r : Rect) : Int × Int :=
  ((r.y - b.destY) * b.height / b.outH, (r.y - b.destY) * b.height % b.outH)

def columnSteps (r : Rect) : List (Int × Int) :=
  steps b.width b.outW r.w.toNat (b.columnStart r).1 (b.columnStart r).2

def rowSteps (r : Rect) : List (Int × Int) :=
  steps b.height b.outH r.h.toNat (b.rowStart r).1 (b.rowStart r).2

variable {b}

theorem scaledRow_steps (py srcY : Int) : ∀ (n : Nat) (px srcX fraction : Int),
    b.scaledRow py srcY n px srcX fraction = (steps b.width b.outW n srcX fraction).mapIdx
      (fun i st => b.sampleAt (px + i) py (clampSource b.width st.1) srcY) := by
  intro n
  induction n with
  | zero => exact fun _ _ _ => rfl
  | succ n ih =>
    intro px srcX fraction
    have hshift : ∀ i : Nat, px + 1 + (i : Int) = px + ((i + 1 : Nat) : Int) := fun i => by
      push_cast
      ring
    unfold scaledRow steps
    dsimp only
    rw [List.mapIdx_cons]
    refine congrArg₂ List.cons (by simp) ?_
    split <;> rw [ih] <;> simp only [hshift]

theorem scaledRows_steps (r : Rect) : ∀ (n : Nat) (py srcY fraction : Int),
    b.scaledRows r n py srcY fraction = ((steps b.height b.outH n srcY fraction).mapIdx
      (fun j st => b.scaledRow (py + j) (clampSource b.height st.1) r.w.toNat r.x
        (b.columnStart r).1 (b.columnStart r).2)).flatten := by
  intro n
  induction n with
  | zero => exact fun _ _ _ => rfl
  | succ n ih =>
    intro py srcY fraction
    have hshift : ∀ i : Nat, py + 1 + (i : Int) = py + ((i + 1 : Nat) : Int) := fun i => by
      push_cast
      ring
    unfold scaledRows steps
    dsimp only
    rw [List.mapIdx_cons, List.flatten_cons]
    refine congrArg₂ (· ++ ·) (by simp [columnStart]) ?_
    split <;> rw [ih] <;> simp only [hshift]

theorem steps_within {size out dest : Int} (hsize : 0 < size) : ∀ (n : Nat) (p src fraction : Int),
    Carried out ((p - dest) * size) src fraction → dest ≤ p → p + n ≤ dest + out →
    ∀ st ∈ steps size out n src fraction, 0 ≤ st.1 ∧ st.1 < size ∧ 0 ≤ st.2 ∧ st.2 < out := by
  intro n
  induction n with
  | zero =>
    intro _ _ _ _ _ _ st hst
    cases hst
  | succ n ih =>
    intro p src fraction hc hlow hroom st hst
    have hlt : src < size := hc.lt_of_lt_mul (by
      rw [Int.mul_comm size]
      exact Int.mul_lt_mul_of_pos_right (by omega) hsize)
    have hnonneg : 0 ≤ src := by
      rw [← hc.quotient]
      exact Int.ediv_nonneg (Int.mul_nonneg (by omega) (by omega)) (by have := hc.divisor_pos; omega)
    have hgrow : (p - dest) * size + size = (p + 1 - dest) * size := by ring
    have hnext := hc.next size
    rw [hgrow] at hnext
    unfold steps at hst
    rw [clampSource_of_lt hlt] at hst
    rcases List.mem_cons.mp hst with rfl | hst
    · exact ⟨hnonneg, hlt, hc.low, hc.high⟩
    split at hst
    · rename_i hover
      exact ih _ _ _ (hnext.1 hover) (by omega) (by omega) st hst
    · rename_i hunder
      exact ih _ _ _ (hnext.2 hunder) (by omega) (by omega) st hst

section Window

variable {width height : Int} {r : Rect} (hb : b.SurfaceOk) (hd : b.DestOk)
  (hw : b.window width height = some r)
include hb hd hw

theorem columnSteps_within : ∀ st ∈ b.columnSteps r,
    0 ≤ st.1 ∧ st.1 < b.width ∧ 0 ≤ st.2 ∧ st.2 < b.outW := by
  obtain ⟨⟨hsolid, _⟩, hx, _, hright, _⟩ := window_spec hw
  unfold Rect.Solid at hsolid
  unfold Rect.right at hright
  exact steps_within hb.2.1 _ r.x _ _ (.start hd.1 _) hx (by omega)

theorem rowSteps_within : ∀ st ∈ b.rowSteps r,
    0 ≤ st.1 ∧ st.1 < b.height ∧ 0 ≤ st.2 ∧ st.2 < b.outH := by
  obtain ⟨⟨hsolid, _⟩, _, hy, _, hbottom⟩ := window_spec hw
  unfold Rect.Solid at hsolid
  unfold Rect.bottom at hbottom
  exact steps_within hb.2.2.1 _ r.y _ _ (.start hd.2.1 _) hy (by omega)

end Window

/-! ## The expressions -/

/-- The expressions that depend on the descriptor and the visible part, but for the loops. -/
structure SetupFits (b : Blit) (r : Rect) : Prop where
  rowBytes : FitsUnsigned (b.width * 4) ∧ FitsUnsigned (0xFFFFFFFF - b.rowBytes)
  dest : FitsInt (b.destX + b.outW) ∧ FitsInt (b.destY + b.outH)
  clip : b.clipped = true → FitsInt (b.clipX + b.clipW) ∧ FitsInt (b.clipY + b.clipH)
  size : FitsInt (r.right - r.x) ∧ FitsInt (r.bottom - r.y)
  offset : FitsInt (r.x - b.destX) ∧ FitsInt (r.y - b.destY)
  product : FitsInt ((r.x - b.destX) * b.width) ∧ FitsInt ((r.y - b.destY) * b.height)

/-- Those of the loops; the address of a row of the surface is computed without a sign. -/
structure LoopsFit (b : Blit) (r : Rect) : Prop where
  column : ∀ st ∈ b.columnSteps r, FitsInt (st.1 * 4) ∧ FitsInt (st.1 + b.width / b.outW + 1) ∧
    FitsInt (st.2 + b.width % b.outW)
  row : ∀ st ∈ b.rowSteps r, FitsUnsigned (st.1 * b.stride) ∧
    FitsInt (st.1 + b.height / b.outH + 1) ∧ FitsInt (st.2 + b.height % b.outH)

/-- Those of the loops that copy without scaling. -/
def PlainFits (b : Blit) (s : Screen) (r : Rect) : Prop :=
  b.Plain s r → ∀ px py, 0 ≤ px → px < r.w → 0 ≤ py → py < r.h →
    FitsInt (r.y - b.destY + py) ∧ FitsUnsigned ((r.y - b.destY + py) * b.stride) ∧
    FitsInt ((r.x - b.destX) * 4) ∧ FitsInt (px * 4) ∧ FitsInt (r.y + py) ∧
    FitsInt ((r.y + py) * s.backbufferPitch) ∧ FitsInt (r.x * 4)

/-- Those for a pixel of the drawing target: its address, and `video_backbuffer_rect_fits`. -/
structure PixelFits (s : Screen) (x y : Int) : Prop where
  next : FitsInt (x + 1) ∧ FitsInt (y + 1)
  backbuffer : s.backbufferReady = true → FitsInt (y * s.backbufferPitch) ∧ FitsInt (x * 4) ∧
    FitsUnsigned (y * s.backbufferPitch + x * 4)
  column : FitsInt (x * s.mode.bytesPerPixel)

structure NoOverflow (b : Blit) (s : Screen) (r : Rect) : Prop where
  setup : b.SetupFits r
  loops : b.LoopsFit r
  plain : b.PlainFits s r
  pixels : ∀ x y, r.Has x y → PixelFits s x y

theorem fitsInt_of_small {n : Int} (h : 0 ≤ n) (h' : n ≤ 16384 * 16384) : FitsInt n := by
  unfold FitsInt
  omega

section Fits

variable {m : Mode} {s : Screen} {r : Rect} (hb : b.SurfaceOk) (hd : b.DestOk) (hc : b.ClipOk)
  (hw : b.window s.mode.width s.mode.height = some r)

include hb hd hw

theorem loopsFit : b.LoopsFit r := by
  have hcols := columnSteps_within hb hd hw
  have hrows := rowSteps_within hb hd hw
  obtain ⟨_, hwidth, hheight, hwmax, hhmax, hstride, _, _, hspan⟩ := hb
  obtain ⟨houtW, houtH, ⟨hmaxW, _⟩, ⟨hmaxH, _⟩⟩ := hd
  unfold surfaceMaxDimension at *
  have hquotW : b.width / b.outW ≤ b.width := Int.ediv_le_self _ (by omega)
  have hquotH : b.height / b.outH ≤ b.height := Int.ediv_le_self _ (by omega)
  have hquotW0 : 0 ≤ b.width / b.outW := Int.ediv_nonneg (by omega) (by omega)
  have hquotH0 : 0 ≤ b.height / b.outH := Int.ediv_nonneg (by omega) (by omega)
  have hremW := Int.emod_nonneg b.width (show b.outW ≠ 0 by omega)
  have hremH := Int.emod_nonneg b.height (show b.outH ≠ 0 by omega)
  have hremW' := Int.emod_lt_of_pos b.width houtW
  have hremH' := Int.emod_lt_of_pos b.height houtH
  constructor
  · intro st hst
    obtain ⟨h0, h1, h2, h3⟩ := hcols st hst
    exact ⟨fitsInt_of_small (by omega) (by omega), fitsInt_of_small (by omega) (by omega),
      fitsInt_of_small (by omega) (by omega)⟩
  · intro st hst
    obtain ⟨h0, h1, h2, h3⟩ := hrows st hst
    have hrow : st.1 * b.stride ≤ (0xFFFFFFFF - b.rowBytes) / b.stride * b.stride :=
      Int.mul_le_mul_of_nonneg_right (by omega) (by omega)
    have hfloor := Int.ediv_mul_le (0xFFFFFFFF - b.rowBytes) (show b.stride ≠ 0 by omega)
    have hpos : 0 ≤ st.1 * b.stride := Int.mul_nonneg h0 (by omega)
    have hbytes : 0 ≤ b.rowBytes := by
      unfold rowBytes
      omega
    refine ⟨⟨hpos, by omega⟩, fitsInt_of_small (by omega) (by omega),
      fitsInt_of_small (by omega) (by omega)⟩

include hc

theorem setupFits : b.SetupFits r := by
  obtain ⟨⟨hsolid, _⟩, hx, hy, hright, hbottom⟩ := window_spec hw
  obtain ⟨_, hwidth, hheight, hwmax, hhmax, hstride, _, hrow, _⟩ := hb
  obtain ⟨houtW, houtH, ⟨hmaxW, hlowX, hhighX, _⟩, ⟨hmaxH, hlowY, hhighY, _⟩⟩ := hd
  unfold surfaceMaxDimension surfaceCoordLimit at *
  unfold Rect.Solid at hsolid
  unfold Rect.right at hright
  unfold Rect.bottom at hbottom
  have hprodX : (r.x - b.destX) * b.width ≤ 16384 * b.width :=
    Int.mul_le_mul_of_nonneg_right (by omega) (by omega)
  have hprodY : (r.y - b.destY) * b.height ≤ 16384 * b.height :=
    Int.mul_le_mul_of_nonneg_right (by omega) (by omega)
  refine ⟨?_, ?_, fun hclipped => ?_, ?_, ?_, ?_⟩
  · unfold FitsUnsigned rowBytes
    omega
  · unfold FitsInt
    omega
  · obtain ⟨⟨hmaxCW, hlowCX, hhighCX, _⟩, ⟨hmaxCH, hlowCY, hhighCY, _⟩⟩ := hc hclipped
    have hsize := of_decide_eq_true hclipped
    unfold surfaceMaxDimension surfaceCoordLimit at *
    unfold FitsInt
    omega
  · unfold FitsInt Rect.right Rect.bottom
    omega
  · unfold FitsInt
    omega
  · exact ⟨fitsInt_of_small (Int.mul_nonneg (by omega) (by omega)) (by omega),
      fitsInt_of_small (Int.mul_nonneg (by omega) (by omega)) (by omega)⟩

omit hb hc in
theorem pixelFits (hdraw : Drawable m s) {x y : Int} (hp : r.Has x y) : PixelFits s x y := by
  obtain ⟨⟨_, hcover⟩, hx, hy, hright, hbottom⟩ := window_spec hw
  have hscreen := hcover.has hp
  rw [screenRect_has] at hscreen
  obtain ⟨houtW, houtH, ⟨hmaxW, hlowX, hhighX, _⟩, ⟨hmaxH, hlowY, hhighY, _⟩⟩ := hd
  unfold surfaceMaxDimension surfaceCoordLimit at *
  unfold Rect.Has at hp
  have hbytes : s.mode.bytesPerPixel ≤ 4 := by
    unfold Mode.bytesPerPixel
    split
    · omega
    · split <;> omega
  have hcolumn : x * (s.mode.bytesPerPixel : Int) ≤ x * 4 :=
    Int.mul_le_mul_of_nonneg_left (by omega) (by omega)
  refine ⟨?_, fun hready => ?_, fitsInt_of_small (Int.mul_nonneg (by omega) (by omega)) (by omega)⟩
  · unfold FitsInt
    omega
  · rcases hdraw with hbare | ⟨hm, hfit⟩
    · exact absurd hready (ne_true_of_eq_false hbare)
    obtain ⟨hwmax, hhmax⟩ := hm.bounds
    have hwpos := hm.width
    rw [hfit.mode] at hscreen
    have hpitch : 0 < alignedPitch m.width ∧ alignedPitch m.width ≤ 5120 := by
      unfold alignedPitch
      omega
    have hrow : y * alignedPitch m.width ≤ y * 5120 :=
      Int.mul_le_mul_of_nonneg_left (by omega) (by omega)
    have hpos : 0 ≤ y * alignedPitch m.width := Int.mul_nonneg (by omega) (by omega)
    rw [hfit.pitch]
    unfold FitsInt FitsUnsigned
    omega

omit hc in
theorem plainFits (hdraw : Drawable m s) : b.PlainFits s r := by
  intro hplain px py hpx hpx' hpy hpy'
  obtain ⟨⟨hsolid, hcover⟩, hx, hy, hright, hbottom⟩ := window_spec hw
  have hp : r.Has (r.x + px) (r.y + py) := by
    unfold Rect.Has Rect.right Rect.bottom
    omega
  have hpixel := pixelFits hd hw hdraw hp
  obtain ⟨hrow, _⟩ := hpixel.backbuffer hplain.2.2.2.1
  have hscreen := hcover.has hp
  rw [screenRect_has] at hscreen
  obtain ⟨_, hwidth, hheight, hwmax, hhmax, hstride, _, _, hspan⟩ := hb
  obtain ⟨houtW, houtH, ⟨hmaxW, hlowX, hhighX, _⟩, ⟨hmaxH, hlowY, hhighY, _⟩⟩ := hd
  unfold surfaceMaxDimension surfaceCoordLimit at *
  have hH := hplain.2.2.1
  unfold Rect.right at hright
  unfold Rect.bottom at hbottom
  have hcover' := hcover
  unfold Rect.Covers screenRect at hcover'
  dsimp only at hcover'
  have hsource : (r.y - b.destY + py) * b.stride ≤
      (0xFFFFFFFF - b.rowBytes) / b.stride * b.stride :=
    Int.mul_le_mul_of_nonneg_right (by omega) (by omega)
  have hfloor := Int.ediv_mul_le (0xFFFFFFFF - b.rowBytes) (show b.stride ≠ 0 by omega)
  have hpos : 0 ≤ (r.y - b.destY + py) * b.stride := Int.mul_nonneg (by omega) (by omega)
  have hbytes : 0 ≤ b.rowBytes := by
    unfold rowBytes
    omega
  exact ⟨fitsInt_of_small (by omega) (by omega), ⟨hpos, by omega⟩,
    fitsInt_of_small (by omega) (by omega), fitsInt_of_small (by omega) (by omega),
    fitsInt_of_small (by omega) (by omega), hrow, fitsInt_of_small (by omega) (by omega)⟩

theorem noOverflow (hdraw : Drawable m s) : b.NoOverflow s r :=
  ⟨setupFits hb hd hc hw, loopsFit hb hd hw, plainFits hb hd hw hdraw,
    fun _ _ hp => pixelFits hd hw hdraw hp⟩

end Fits

end Blit

end Video
end MiniDos
