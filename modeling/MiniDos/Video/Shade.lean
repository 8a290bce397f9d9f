import Mathlib.Data.List.Nodup
import MiniDos.Video.Bytes
import MiniDos.Video.SameMode
import MiniDos.Video.Stepping

/-!
# MiniDos.Video.Shade

What `video_blit_surface` leaves on the drawing target for every format.

* `Screen.over`: a pixel of a surface over one of the drawing target.
* `scaled_shades`: the general path, pixel by pixel. `plain_eq_scaled`, `copyRows_eq`: the path that
  copies, with aligned words or byte by byte.
* `blitSurface_exact`: the call, on every screen.
-/

namespace MiniDos
namespace Video

open Plane Ratio Raster

variable {m : Mode} {s s' : Screen} {r : Rect} {b : Blit}

/-! ## Colors -/

/-- The color that `read_draw_target_rgb_locked` finds in a pixel of the drawing target. -/
def Screen.rgbOf (s : Screen) (v : UInt32) : UInt32 :=
  if s.backbufferReady then v &&& 0xFFFFFF
  else
    (unpackComponent v s.mode.redSize s.mode.redPos <<< 16) |||
      (unpackComponent v s.mode.greenSize s.mode.greenPos <<< 8) |||
      unpackComponent v s.mode.blueSize s.mode.bluePos

theorem readDrawTargetRgb_eq (s : Screen) (x y : Int) :
    readDrawTargetRgb s x y = s.rgbOf (s.target x y) := by
  unfold readDrawTargetRgb Screen.rgbOf Screen.target
  split <;> rfl

/-- A color and its alpha component over a pixel: source over destination, which a clear color leaves
as it is. -/
def Screen.over (s : Screen) (c : UInt32 × UInt32) (v : UInt32) : UInt32 :=
  if c.2 = 0 then v else s.onTarget (blendRgbSourceOver c.1 (s.rgbOf v) c.2)

theorem blendComponent_full (src dst : UInt32) : blendComponent src dst 255 = src &&& 0xFF := by
  have hle : (src &&& 0xFF).toNat ≤ 255 := by
    rw [UInt32.toNat_and]
    exact Nat.and_le_right
  unfold blendComponent
  generalize src &&& 0xFF = c at hle ⊢
  rw [show (255 : UInt32) - 255 = 0 from rfl, UInt32.mul_zero, UInt32.add_zero]
  apply UInt32.toNat_inj.mp
  rw [UInt32.toNat_div, UInt32.toNat_add, UInt32.toNat_mul]
  simp only [UInt32.reduceToNat]
  omega

theorem blend_full (src dst : UInt32) : blendRgbSourceOver src dst 255 = src &&& 0xFFFFFF := by
  unfold blendRgbSourceOver
  rw [blendComponent_full, blendComponent_full, blendComponent_full]
  exact rgb_components src

theorem sampleColor_masked (mem : Nat → UInt8) (format addr : Int) :
    (sampleColor mem format addr).1 &&& 0xFFFFFF = (sampleColor mem format addr).1 := by
  unfold sampleColor
  split
  · dsimp only [byteAt]
    generalize (mem _) = b₁
    generalize (mem _) = b₂
    generalize (mem _) = b₃
    apply UInt32.eq_of_toBitVec_eq
    simp
    ext i hi
    simp
    interval_cases i <;> simp
  · dsimp only
    rw [UInt32.and_assoc, UInt32.and_self]

/-! ## Pixel by pixel -/

/-- `s'` is `s` with the pixels of `R` covered by the colors. -/
structure Shades (R : Int → Int → Prop) (color : Int → Int → UInt32 × UInt32) (s s' : Screen) :
    Prop where
  mode : s'.mode = s.mode
  ready : s'.backbufferReady = s.backbufferReady
  inside : ∀ x y, R x y → s'.target x y = s.over (color x y) (s.target x y)
  outside : ∀ x y, ¬ R x y → s'.target x y = s.target x y

namespace Shades

variable {R R' : Int → Int → Prop} {color : Int → Int → UInt32 × UInt32} {s'' : Screen}

theorem over_eq (h : Shades R color s s') : s'.over = s.over := by
  unfold Screen.over Screen.onTarget Screen.rgbOf
  rw [h.mode, h.ready]

theorem congr (h : Shades R color s s') (hR : ∀ x y, R' x y ↔ R x y) : Shades R' color s s' :=
  ⟨h.mode, h.ready, fun x y hx => h.inside x y ((hR x y).mp hx),
    fun x y hx => h.outside x y (fun hr => hx ((hR x y).mpr hr))⟩

theorem trans (h : Shades R color s s') (h' : Shades R' color s' s'')
    (hapart : ∀ x y, R x y → ¬ R' x y) : Shades (fun x y => R x y ∨ R' x y) color s s'' := by
  refine ⟨h'.mode.trans h.mode, h'.ready.trans h.ready, fun x y hx => ?_, fun x y hx => ?_⟩
  · rcases hx with hr | hr'
    · rw [h'.outside x y (hapart x y hr), h.inside x y hr]
    · rw [h'.inside x y hr', h.over_eq, h.outside x y (fun hr => hapart x y hr hr')]
  · rw [not_or] at hx
    rw [h'.outside x y hx.2, h.outside x y hx.1]

theorem foldl {I : Screen → Prop} {f : Screen → Blit.Sample → Screen} {l : List Blit.Sample}
    (hf : ∀ s p, I s → p ∈ l →
      I (f s p) ∧ Shades (fun x y => (x, y) = (p.x, p.y)) color s (f s p))
    (hl : (l.map fun p => (p.x, p.y)).Nodup) (hs : I s) :
    I (l.foldl f s) ∧
      Shades (fun x y => (x, y) ∈ l.map fun p => (p.x, p.y)) color s (l.foldl f s) := by
  induction l generalizing s with
  | nil => exact ⟨hs, ⟨rfl, rfl, fun x y h => (nomatch h), fun _ _ _ => rfl⟩⟩
  | cons p l ih =>
    rw [List.map_cons, List.nodup_cons] at hl
    obtain ⟨hi, hstep⟩ := hf s p hs List.mem_cons_self
    obtain ⟨hI, hrest⟩ := ih (fun s q hs hq => hf s q hs (List.mem_cons_of_mem p hq)) hl.2 hi
    refine ⟨hI, (hstep.trans hrest ?_).congr (fun x y => ?_)⟩
    · intro x y hp hq
      rw [hp] at hq
      exact hl.1 hq
    · rw [List.map_cons, List.mem_cons]

end Shades

/-- The color and the alpha component of the pixel of the surface that is shown at a pixel of the
screen. -/
def Blit.texel (mem : Nat → UInt8) (b : Blit) (x y : Int) : UInt32 × UInt32 :=
  sampleColor mem b.format (b.sample x y).addr

section Surfaces

variable (mem : Nat → UInt8)

theorem drawSample_shades (h : Drawable m s) {p : Blit.Sample} (hp : p = b.sample p.x p.y)
    (hscreen : (screenRect s.mode.width s.mode.height).Has p.x p.y) :
    Drawable m (drawSample mem b.format s p) ∧
      Shades (fun x y => (x, y) = (p.x, p.y)) (b.texel mem) s (drawSample mem b.format s p) := by
  have htexel : b.texel mem p.x p.y = sampleColor mem b.format p.addr := by
    unfold Blit.texel
    rw [← hp]
  have hmask := sampleColor_masked mem b.format p.addr
  -- One pixel in a color, which the blending gives.
  have hpixel : ∀ rgb, (b.texel mem p.x p.y).2 ≠ 0 →
      rgb = blendRgbSourceOver (b.texel mem p.x p.y).1 (s.rgbOf (s.target p.x p.y))
        (b.texel mem p.x p.y).2 →
      Drawable m (s.drawPixel p.x p.y rgb) ∧
        Shades (fun x y => (x, y) = (p.x, p.y)) (b.texel mem) s (s.drawPixel p.x p.y rgb) := by
    intro rgb hne hrgb
    obtain ⟨hdraw, hshows⟩ := shows_drawPixel h hscreen rgb
    refine ⟨hdraw, hshows.mode, hshows.ready, fun x y hx => ?_, fun x y hx => ?_⟩
    · obtain ⟨rfl, rfl⟩ := Prod.mk.inj hx
      rw [hshows.inside _ _ ⟨rfl, rfl⟩, Screen.over, if_neg hne, hrgb]
    · exact hshows.outside x y (fun hxy => hx (Prod.ext hxy.1 hxy.2))
  unfold drawSample
  dsimp only
  rw [← htexel] at hmask ⊢
  split
  · rename_i hfull
    refine hpixel _ (by rw [hfull]; decide) ?_
    rw [hfull, blend_full, hmask]
  split
  · rename_i hsome
    refine hpixel _ hsome ?_
    rw [readDrawTargetRgb_eq]
  · rename_i hclear
    rw [not_not] at hclear
    refine ⟨h, rfl, rfl, fun x y hx => ?_, fun _ _ _ => rfl⟩
    obtain ⟨rfl, rfl⟩ := Prod.mk.inj hx
    rw [Screen.over, if_pos hclear]

theorem pixelList_nodup (r : Rect) : (pixelList r).Nodup := by
  unfold pixelList
  rw [List.nodup_flatMap]
  refine ⟨fun j _ => ?_, ?_⟩
  · refine List.nodup_range.map (fun i i' hii => ?_)
    have := (Prod.mk.inj hii).1
    omega
  · refine List.nodup_range.imp (fun {j j'} hne p hp hp' => ?_)
    obtain ⟨i, _, rfl⟩ := List.mem_map.mp hp
    obtain ⟨i', _, heq⟩ := List.mem_map.mp hp'
    have := (Prod.mk.inj heq).2
    omega

theorem samples_pixels (b : Blit) (r : Rect) :
    (b.samples r).map (fun p => (p.x, p.y)) = pixelList r := by
  unfold Blit.samples pixelList
  rw [List.map_flatMap]
  refine List.flatMap_congr (fun j _ => ?_)
  rw [List.map_map]
  rfl

theorem scaled_shades (h : Drawable m s) (hb : b.SurfaceOk) (hd : b.DestOk)
    (hw : b.window s.mode.width s.mode.height = some r) :
    Shades r.Has (b.texel mem) s ((b.scaledSamples r).foldl (drawSample mem b.format) s) := by
  obtain ⟨⟨hsolid, hcover⟩, _⟩ := Blit.window_spec hw
  rw [Blit.scaledSamples_eq hb hd hw]
  have hstep : ∀ (t : Screen) (p : Blit.Sample), Drawable m t ∧ t.mode = s.mode →
      p ∈ b.samples r → (Drawable m (drawSample mem b.format t p) ∧
        (drawSample mem b.format t p).mode = s.mode) ∧
      Shades (fun x y => (x, y) = (p.x, p.y)) (b.texel mem) t (drawSample mem b.format t p) := by
    rintro t p ⟨ht, hmode⟩ hp
    obtain ⟨hin, hsample⟩ := (Blit.mem_samples hsolid).mp hp
    have hscreen : (screenRect t.mode.width t.mode.height).Has p.x p.y := by
      rw [hmode]
      exact hcover.has hin
    obtain ⟨hdraw, hshades⟩ := drawSample_shades mem ht hsample hscreen
    exact ⟨⟨hdraw, hshades.mode.trans hmode⟩, hshades⟩
  refine (Shades.foldl hstep ?_ ⟨h, rfl⟩).2.congr (fun x y => ?_)
  · rw [samples_pixels]
    exact pixelList_nodup r
  · rw [samples_pixels, mem_pixelList]

/-! ## Copying without scaling -/

theorem plain_eq_scaled (h : Drawable m s) (hplain : b.Plain s r) (hb : b.SurfaceOk)
    (hd : b.DestOk) (hw : b.window s.mode.width s.mode.height = some r) :
    (b.plainSamples r).foldl (copySample mem) s =
      (b.scaledSamples r).foldl (drawSample mem b.format) s := by
  obtain ⟨hformat, hW, hH, hready, _⟩ := hplain
  obtain ⟨⟨hsolid, hcover⟩, _⟩ := Blit.window_spec hw
  obtain ⟨hm, hfit⟩ := h.resolve_left (fun hbare => ne_true_of_eq_false hbare hready)
  rw [Blit.plainSamples_eq hb.2.1 hb.2.2.1 hW hH, Blit.scaledSamples_eq hb hd hw, hformat]
  have hstep : ∀ p ∈ b.samples r, ∀ t t' : Screen, t = t' ∧ Fitted m t →
      copySample mem t p = drawSample mem formatXrgbLe t' p ∧ Fitted m (copySample mem t p) := by
    rintro p hp t _ ⟨rfl, ht⟩
    obtain ⟨hin, _⟩ := (Blit.mem_samples hsolid).mp hp
    have hscreen := hcover.has hin
    rw [hfit.mode] at hscreen
    have hfits : t.backbufferRectFits ⟨p.x, p.y, 1, 1⟩ = true := by
      refine ht.fits hm ⟨Int.one_pos, Int.one_pos⟩ ?_
      rw [screenRect_has] at hscreen
      unfold Rect.Covers Rect.right Rect.bottom screenRect
      dsimp only
      omega
    refine ⟨?_, (Painted.copySample mem t hin).fitted ht⟩
    rw [screenRect_has] at hscreen
    rw [drawSample_xrgb, Screen.drawPixel, ht.mode, if_neg (by omega), Screen.drawClipped,
      if_pos ht.ready, if_pos hfits]
    rfl
  exact (List.foldl_rel (r := fun t t' => t = t' ∧ Fitted m t) ⟨rfl, hfit⟩ hstep).1

def loadWord (addr : Int) : UInt32 :=
  let byte (k : Int) : Nat := (mem (u32 (addr + k)).toNat).toNat
  UInt32.ofNat (byte 0 + 2 ^ 8 * byte 1 + 2 ^ 16 * byte 2 + 2 ^ 24 * byte 3)

def copyRows (b : Blit) (r : Rect) (s : Screen) : Screen :=
  (List.range r.h.toNat).foldl (fun s (py : Nat) =>
    let src := (b.sampleAt r.x (r.y + py) (r.x - b.destX) (r.y - b.destY + py)).addr
    let load :=
      if (UInt32.ofInt src ||| UInt32.ofInt b.stride) &&& 3 = 0 then loadWord mem else readU32 mem
    (List.range r.w.toNat).foldl (fun s (px : Nat) =>
      { s with
        back := paint ⟨r.x + px, r.y + py, 1, 1⟩ (load (u32 (src + px * 4)) &&& 0xFFFFFF) s.back })
      s) s

theorem loadWord_eq (addr : Int) : loadWord mem addr = readU32 mem addr := by
  unfold loadWord readU32 byteAt
  dsimp only
  generalize mem (u32 (addr + 0)).toNat = b₀
  generalize mem (u32 (addr + 1)).toNat = b₁
  generalize mem (u32 (addr + 2)).toNat = b₂
  generalize mem (u32 (addr + 3)).toNat = b₃
  have h₀ := b₀.toNat_lt
  have h₁ := b₁.toNat_lt
  have h₂ := b₂.toNat_lt
  have h₃ := b₃.toNat_lt
  have hor : ∀ x y k : Nat, y < 2 ^ k → y + 2 ^ k * x = y ||| 2 ^ k * x := fun x y k hy => by
    rw [Nat.add_comm, Nat.two_pow_add_eq_or_of_lt hy, Nat.or_comm]
  have hshift : ∀ c : UInt8, (c.toUInt32 <<< 8).toNat = 2 ^ 8 * c.toNat ∧
      (c.toUInt32 <<< 16).toNat = 2 ^ 16 * c.toNat ∧
      (c.toUInt32 <<< 24).toNat = 2 ^ 24 * c.toNat := by
    intro c
    have hc := c.toNat_lt
    simp only [UInt32.toNat_shiftLeft, UInt8.toNat_toUInt32, UInt32.reduceToNat, Nat.reduceMod,
      Nat.shiftLeft_eq]
    omega
  apply UInt32.toNat_inj.mp
  rw [UInt32.toNat_or, UInt32.toNat_or, UInt32.toNat_or, (hshift b₁).1, (hshift b₂).2.1,
    (hshift b₃).2.2, UInt8.toNat_toUInt32, ← hor b₁.toNat b₀.toNat 8 (by omega),
    ← hor b₂.toNat _ 16 (by omega), ← hor b₃.toNat _ 24 (by omega)]
  exact UInt32.toNat_ofNat_of_lt' (by show _ < 2 ^ 32; omega)

theorem copyRows_eq (b : Blit) (r : Rect) (s : Screen) :
    copyRows mem b r s = (b.plainSamples r).foldl (copySample mem) s := by
  unfold copyRows Blit.plainSamples
  rw [List.foldl_flatMap]
  refine congrArg (fun f => List.foldl f s _) ?_
  funext s j
  dsimp only
  rw [List.foldl_map]
  refine congrArg (fun f => List.foldl f s _) ?_
  funext s i
  have haddr : u32 ((b.sampleAt r.x (r.y + j) (r.x - b.destX) (r.y - b.destY + j)).addr + i * 4) =
      (b.sampleAt (r.x + i) (r.y + j) (r.x - b.destX + i) (r.y - b.destY + j)).addr := by
    unfold Blit.sampleAt u32
    dsimp only
    rw [Int.emod_add_emod]
    ring_nf
  rw [haddr]
  split
  · rw [loadWord_eq]
    rfl
  · rfl
/-! ## The call -/

/-- The pixels that destination, clip rectangle and screen have in common. -/
def Blit.Visible (b : Blit) (s : Screen) (x y : Int) : Prop :=
  (⟨b.destX, b.destY, b.outW, b.outH⟩ : Rect).Has x y ∧
    (b.clipped = true → (⟨b.clipX, b.clipY, b.clipW, b.clipH⟩ : Rect).Has x y) ∧
    (screenRect s.mode.width s.mode.height).Has x y

omit mem in
theorem clipLow_le_iff {n x : Int} : clipLow n ≤ x ↔ 0 ≤ x ∧ n ≤ x := by
  unfold clipLow
  split <;> omega

omit mem in
theorem lt_clipHigh_iff {limit n x : Int} : x < clipHigh limit n ↔ x < limit ∧ x < n := by
  unfold clipHigh
  split <;> omega

omit mem in
theorem lowSide_le_iff {dest clip x : Int} :
    b.lowSide dest clip ≤ x ↔ dest ≤ x ∧ (b.clipped = true → clip ≤ x) := by
  unfold Blit.lowSide
  cases b.clipped with
  | true =>
    simp only [true_and, forall_const]
    split <;> omega
  | false => simp

omit mem in
theorem lt_highSide_iff {dest clip x : Int} :
    x < b.highSide dest clip ↔ x < dest ∧ (b.clipped = true → x < clip) := by
  unfold Blit.highSide
  cases b.clipped with
  | true =>
    simp only [true_and, forall_const]
    split <;> omega
  | false => simp

omit mem in
theorem window_has (x y : Int) :
    (∃ r, b.window s.mode.width s.mode.height = some r ∧ r.Has x y) ↔ b.Visible s x y := by
  have hcorners : ∀ x₀ y₀ x₁ y₁ : Int, (∃ r,
      (if x₁ ≤ x₀ ∨ y₁ ≤ y₀ then none else some (Rect.ofCorners x₀ y₀ x₁ y₁)) = some r ∧
        r.Has x y) ↔ x₀ ≤ x ∧ x < x₁ ∧ y₀ ≤ y ∧ y < y₁ := by
    intro x₀ y₀ x₁ y₁
    split
    · simp only [reduceCtorEq, false_and, exists_false, false_iff]
      omega
    · simp only [Option.some.injEq, exists_eq_left']
      unfold Rect.Has
      rw [Rect.ofCorners_right, Rect.ofCorners_bottom]
      rfl
  unfold Blit.window Blit.Visible
  dsimp only
  rw [hcorners, clipLow_le_iff, clipLow_le_iff, lt_clipHigh_iff, lt_clipHigh_iff, lowSide_le_iff,
    lowSide_le_iff, lt_highSide_iff, lt_highSide_iff, screenRect_has]
  unfold Rect.Has Rect.right Rect.bottom
  dsimp only
  tauto

omit mem in
theorem Shades.presented {R : Int → Int → Prop} {color : Int → Int → UInt32 × UInt32}
    (hs : Shades R color s s') (h : Alike m s' s') : Shades R color s s'.maybePresentPending := by
  obtain ⟨hmode, hready, htarget⟩ := h.presented
  refine ⟨hmode.trans hs.mode, hready.trans hs.ready, ?_, ?_⟩ <;> rw [htarget]
  · exact hs.inside
  · exact hs.outside

theorem blit_shades (h : Alike m s s) (hb : b.SurfaceOk) (hd : b.DestOk) (hc : b.ClipOk) :
    Shades (b.Visible s) (b.texel mem) s (videoBlitSurface mem s b).1 := by
  unfold videoBlitSurface
  rw [if_neg (by simp only [hb, hd, hc, not_true_eq_false, or_self, not_false_eq_true])]
  cases hw : b.window s.mode.width s.mode.height with
  | none =>
    refine ⟨rfl, rfl, fun x y hx => ?_, fun _ _ _ => rfl⟩
    obtain ⟨r, hr, _⟩ := (window_has x y).mpr hx
    rw [hw] at hr
    cases hr
  | some r =>
    have hdraw : Shades r.Has (b.texel mem) s (drawSurface mem s b r) := by
      unfold drawSurface
      split
      · rename_i hplain
        rw [plain_eq_scaled mem h.drawable hplain hb hd hw]
        exact scaled_shades mem h.drawable hb hd hw
      · exact scaled_shades mem h.drawable hb hd hw
    have hnoted : Shades r.Has (b.texel mem) s ((drawSurface mem s b r).noteDirty r) :=
      ⟨hdraw.mode, hdraw.ready, hdraw.inside, hdraw.outside⟩
    refine (hnoted.presented (alike_drawSurface mem h hb hd hw)).congr (fun x y => ?_)
    rw [← window_has, hw]
    simp

/-- What is computed for a visible part `r`: no position needs its clamp, no expression overflows,
and copying draws what the general path would draw. -/
structure Blit.Faithful (b : Blit) (s : Screen) (r : Rect) : Prop where
  columns : ∀ st ∈ b.columnSteps r, st.1 < b.width
  rows : ∀ st ∈ b.rowSteps r, st.1 < b.height
  fits : b.NoOverflow s r
  framebuffer : (∀ x y, r.Has x y → FitsInt (y * s.mode.pitch)) ↔
    (r.bottom - 1) * s.mode.pitch < 2 ^ 31
  copies : b.Plain s r →
    copyRows mem b r s = (b.scaledSamples r).foldl (drawSample mem b.format) s

theorem blit_faithful (h : Drawable m s) (hpitch : 0 ≤ s.mode.pitch) (hb : b.SurfaceOk)
    (hd : b.DestOk) (hc : b.ClipOk) (hw : b.window s.mode.width s.mode.height = some r) :
    b.Faithful mem s r := by
  refine ⟨fun st hst => (Blit.columnSteps_within hb hd hw st hst).2.1,
    fun st hst => (Blit.rowSteps_within hb hd hw st hst).2.1, Blit.noOverflow hb hd hc hw h,
    ⟨fun hfits => ?_, fun hroom x y hp => ?_⟩, fun hplain => ?_⟩
  · obtain ⟨⟨hsolid, _⟩, _⟩ := Blit.window_spec hw
    unfold Rect.Solid at hsolid
    refine (hfits r.x (r.bottom - 1) ?_).2
    unfold Rect.Has Rect.right Rect.bottom
    omega
  · obtain ⟨⟨_, hcover⟩, _⟩ := Blit.window_spec hw
    have hscreen := hcover.has hp
    rw [screenRect_has] at hscreen
    unfold Rect.Has at hp
    have hrow : y * s.mode.pitch ≤ (r.bottom - 1) * s.mode.pitch :=
      Int.mul_le_mul_of_nonneg_right (by omega) hpitch
    have hpos : 0 ≤ y * s.mode.pitch := Int.mul_nonneg (by omega) hpitch
    unfold FitsInt
    omega
  · rw [copyRows_eq]
    exact plain_eq_scaled mem h hplain hb hd hw

end Surfaces

/-- A surface that is accepted, after any calls, on a target whose rows do not overlap: the pixels
that destination, clip rectangle and screen have in common are covered by the pixels of the surface
that division gives, and no others change. -/
theorem blitSurface_exact (font : Font) (m : Mode) (hdrawable : m.Drawable)
    (back front : Int → Int → UInt32) (calls : List Call) (mem : Nat → UInt8) (b : Blit) :
    let s := calls.foldl (Call.run font) (initVideo m back front)
    (videoBlitSurface mem s b).2 = true →
      Shades (b.Visible s) (fun x y => sampleColor mem b.format (u32 (b.buffer +
        (y - b.destY) * b.height / b.outH * b.stride + (x - b.destX) * b.width / b.outW * 4)))
        s (videoBlitSurface mem s b).1 ∧
      ∀ r, b.window s.mode.width s.mode.height = some r → b.Faithful mem s r := by
  intro s haccepted
  have hself : Alike m s s := alike_run font hdrawable.graphics back front calls
  have hok : b.SurfaceOk ∧ b.DestOk ∧ b.ClipOk := by
    by_contra hno
    unfold videoBlitSurface at haccepted
    rw [if_pos (by tauto)] at haccepted
    cases haccepted
  obtain ⟨hb, hd, hc⟩ := hok
  have hmode : s.mode = m := run_mode font m back front calls
  have hpitch : 0 ≤ s.mode.pitch := by
    obtain ⟨hwidth, _, hpitch, _⟩ := hdrawable.graphics
    rw [hmode]
    omega
  exact ⟨blit_shades mem hself hb hd hc,
    fun r hw => blit_faithful mem hself.drawable hpitch hb hd hc hw⟩

/-- A surface of 2 by 1 pixels with an alpha component, at twice its size. -/
def smallSurface : Blit := ⟨0x1000, 2, 1, 8, formatArgbLe, 10, 20, 0, 0, 0, 0, 4, 2⟩

theorem blitSurface_exact_small :
    (videoBlitSurface (fun _ => 0x80) (initVideo mode640 (fun _ _ => 0) (fun _ _ => 0))
      smallSurface).1.target 10 20 = (initVideo mode640 (fun _ _ => 0) (fun _ _ => 0)).over
        (0x808080, 0x80) ((initVideo mode640 (fun _ _ => 0) (fun _ _ => 0)).target 10 20) := by
  refine (blitSurface_exact (fun _ _ => 0) mode640
    ⟨by unfold Mode.Graphics mode640; decide, .inl (by decide)⟩
    (fun _ _ => 0) (fun _ _ => 0) [] (fun _ => 0x80) smallSurface (by decide)).1.inside 10 20 ?_
  have hmode : (initVideo mode640 (fun _ _ => 0) (fun _ _ => 0)).mode = mode640 :=
    run_mode (fun _ _ => 0) mode640 _ _ []
  show smallSurface.Visible (initVideo mode640 (fun _ _ => 0) (fun _ _ => 0)) 10 20
  unfold Blit.Visible
  rw [hmode]
  decide

/-- More rows than the framebuffer can have: the largest pitch, and 32800 of them. -/
def tallMode : Mode := ⟨320, 32800, 65535, 32, 8, 16, 8, 8, 8, 0⟩

/-- One pixel over the last rows of it. -/
def tallSurface : Blit := ⟨0x1000, 1, 1, 4, formatXrgbLe, 0, 32768, 0, 0, 0, 0, 1, 30⟩

/-- Too wide for a backbuffer, and with rows that overlap: pixel 400 of a row is the first one of the
next row. -/
def wideMode : Mode := ⟨1600, 1200, 1600, 32, 8, 16, 8, 8, 8, 0⟩

def wideScreen : Screen := initVideo wideMode (fun _ _ => 0) (fun _ _ => 0)

def wideSurface : Blit := ⟨0x1000, 1, 1, 4, formatXrgbLe, 0, 1, 0, 0, 0, 0, 1, 1⟩

/-- On `tallMode` a product leaves `int`, and on `wideMode` the one pixel that is to be drawn is stored
in the bytes of another one. -/
theorem surfaces_astray : (tallMode.Graphics ∧
    (videoBlitSurface (fun _ => 0) (initVideo tallMode (fun _ _ => 0) (fun _ _ => 0)) tallSurface).2 =
      true ∧
    (initVideo tallMode (fun _ _ => 0) (fun _ _ => 0)).backbufferReady = false ∧
    tallSurface.Visible (initVideo tallMode (fun _ _ => 0) (fun _ _ => 0)) 0 32797 ∧
    ¬ FitsInt (32797 * (initVideo tallMode (fun _ _ => 0) (fun _ _ => 0)).mode.pitch)) ∧
    wideMode.Graphics ∧ (videoBlitSurface (fun _ => 0xFF) wideScreen wideSurface).2 = true ∧
    wideScreen.backbufferReady = false ∧ wideSurface.Visible wideScreen 0 1 ∧
    ¬ wideSurface.Visible wideScreen 400 0 ∧
    writeFrontbufferPixel wideMode (wideScreen.framebufferPixel 0xC0000000 0 1) 0xFFFFFF (fun _ => 0)
      (wideScreen.framebufferPixel 0xC0000000 400 0) = 0xFF := by
  have htall : (initVideo tallMode (fun _ _ => 0) (fun _ _ => 0)).mode = tallMode :=
    run_mode (fun _ _ => 0) tallMode _ _ []
  have hwide : wideScreen.mode = wideMode := run_mode (fun _ _ => 0) wideMode _ _ []
  refine ⟨⟨by unfold Mode.Graphics tallMode; decide, by decide, bare_initVideo (by decide) _ _, ?_, ?_⟩,
    by unfold Mode.Graphics wideMode; decide, by decide, bare_initVideo (by decide) _ _, ?_, ?_, ?_⟩
  · unfold Blit.Visible
    rw [htall]
    decide
  · rw [htall]
    unfold FitsInt
    decide
  · unfold Blit.Visible
    rw [hwide]
    decide
  · unfold Blit.Visible
    rw [hwide]
    decide
  · unfold Screen.framebufferPixel
    rw [hwide]
    decide +kernel

end Video
end MiniDos
