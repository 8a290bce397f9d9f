import MiniDos.Lib.Ratio
import MiniDos.Video.Gfx

/-!
# MiniDos.Video.Scale

What `video_blit_surface` leaves on the screen, pixel by pixel: the loops carry the quotients along
with which a surface is scaled.

* `scaledSamples_eq`, `plainSamples_eq`: the loops visit every pixel of the visible part once, with
  the source that division gives.
* `Shows`: the pixels of a set got given colors, all others are as before.
* `shows_blitSurface`, `shows_fillRect`: surfaces without alpha component, and rectangles.
-/

namespace MiniDos
namespace Video

open Plane Ratio

variable {m : Mode} {s s' s'' : Screen} {r : Rect}

/-! ## The sources -/

namespace Blit

variable (b : Blit)

/-- The column and the row of the surface that are shown at a pixel of the screen. -/
def sourceX (x : Int) : Int := (x - b.destX) * b.width / b.outW
def sourceY (y : Int) : Int := (y - b.destY) * b.height / b.outH

def sample (x y : Int) : Sample := b.sampleAt x y (b.sourceX x) (b.sourceY y)

variable {b}

theorem clampSource_of_lt {size n : Int} (h : n < size) : clampSource size n = n := by
  unfold clampSource
  exact if_neg (by omega)

theorem scaledRow_eq (hw : 0 < b.width) {py srcY : Int} : ∀ (n : Nat) (px srcX fraction : Int),
    Carried b.outW ((px - b.destX) * b.width) srcX fraction → px + n ≤ b.destX + b.outW →
    b.scaledRow py srcY n px srcX fraction =
      (List.range n).map (fun i : Nat => b.sampleAt (px + i) py (b.sourceX (px + i)) srcY) := by
  intro n
  induction n with
  | zero => exact fun _ _ _ _ _ => rfl
  | succ n ih =>
    intro px srcX fraction hc hroom
    have hlt : srcX < b.width := hc.lt_of_lt_mul (by
      rw [Int.mul_comm b.width]
      exact Int.mul_lt_mul_of_pos_right (by omega) hw)
    have hgrow : (px - b.destX) * b.width + b.width = (px + 1 - b.destX) * b.width := by ring
    have hnext := hc.next b.width
    rw [hgrow] at hnext
    have htail : (if b.outW ≤ fraction + b.width % b.outW then
        b.scaledRow py srcY n (px + 1) (srcX + b.width / b.outW + 1)
          (fraction + b.width % b.outW - b.outW)
        else b.scaledRow py srcY n (px + 1) (srcX + b.width / b.outW) (fraction + b.width % b.outW)) =
        (List.range n).map
          (fun i : Nat => b.sampleAt (px + 1 + i) py (b.sourceX (px + 1 + i)) srcY) := by
      split
      · rename_i hover
        exact ih _ _ _ (hnext.1 hover) (by omega)
      · rename_i hunder
        exact ih _ _ _ (hnext.2 hunder) (by omega)
    unfold scaledRow
    simp only [clampSource_of_lt hlt]
    rw [htail, List.range_succ_eq_map, List.map_cons, List.map_map]
    have hhead : b.sourceX (px + (0 : Nat)) = srcX := by
      rw [Int.ofNat_zero, Int.add_zero]
      exact hc.quotient
    rw [hhead]
    refine congrArg₂ List.cons (by simp) (List.map_congr_left (fun i _ => ?_))
    have hshift : px + 1 + (i : Int) = px + ((i + 1 : Nat) : Int) := by push_cast; ring
    rw [hshift]
    rfl

theorem scaledRows_eq (hw : 0 < b.width) (hh : 0 < b.height) (hoW : 0 < b.outW)
    (hr : r.x + r.w.toNat ≤ b.destX + b.outW) :
    ∀ (n : Nat) (py srcY fraction : Int),
    Carried b.outH ((py - b.destY) * b.height) srcY fraction → py + n ≤ b.destY + b.outH →
    b.scaledRows r n py srcY fraction = (List.range n).flatMap (fun j : Nat =>
      (List.range r.w.toNat).map (fun i : Nat => b.sample (r.x + i) (py + j))) := by
  intro n
  induction n with
  | zero => exact fun _ _ _ _ _ => rfl
  | succ n ih =>
    intro py srcY fraction hc hroom
    have hlt : srcY < b.height := hc.lt_of_lt_mul (by
      rw [Int.mul_comm b.height]
      exact Int.mul_lt_mul_of_pos_right (by omega) hh)
    have hgrow : (py - b.destY) * b.height + b.height = (py + 1 - b.destY) * b.height := by ring
    have hnext := hc.next b.height
    rw [hgrow] at hnext
    have htail : (if b.outH ≤ fraction + b.height % b.outH then
        b.scaledRows r n (py + 1) (srcY + b.height / b.outH + 1) (fraction + b.height % b.outH - b.outH)
        else b.scaledRows r n (py + 1) (srcY + b.height / b.outH) (fraction + b.height % b.outH)) =
        (List.range n).flatMap (fun j : Nat =>
          (List.range r.w.toNat).map (fun i : Nat => b.sample (r.x + i) (py + 1 + j))) := by
      split
      · rename_i hover
        exact ih _ _ _ (hnext.1 hover) (by omega)
      · rename_i hunder
        exact ih _ _ _ (hnext.2 hunder) (by omega)
    unfold scaledRows
    simp only [clampSource_of_lt hlt]
    rw [htail, scaledRow_eq hw _ _ _ _ (.start hoW _) hr, List.range_succ_eq_map,
      List.flatMap_cons, List.flatMap_map]
    have hhead : b.sourceY (py + (0 : Nat)) = srcY := by
      rw [Int.ofNat_zero, Int.add_zero]
      exact hc.quotient
    refine congrArg₂ (· ++ ·) (List.map_congr_left (fun i _ => ?_))
      (List.flatMap_congr (fun j _ => List.map_congr_left (fun i _ => ?_)))
    · unfold sample
      rw [hhead]
      simp
    · have hshift : py + 1 + (j : Int) = py + ((j + 1 : Nat) : Int) := by push_cast; ring
      rw [hshift]

def samples (b : Blit) (r : Rect) : List Sample :=
  (List.range r.h.toNat).flatMap (fun j : Nat =>
    (List.range r.w.toNat).map (fun i : Nat => b.sample (r.x + i) (r.y + j)))

theorem scaledSamples_eq {width height : Int} (hb : b.SurfaceOk) (hd : b.DestOk)
    (h : b.window width height = some r) : b.scaledSamples r = b.samples r := by
  obtain ⟨⟨hsolid, _⟩, hx, hy, hright, hbottom⟩ := window_spec h
  unfold Rect.Solid at hsolid
  unfold Rect.right at hright
  unfold Rect.bottom at hbottom
  exact scaledRows_eq hb.2.1 hb.2.2.1 hd.1 (by omega) _ _ _ _ (.start hd.2.1 _) (by omega)

theorem plainSamples_eq (hw : 0 < b.width) (hh : 0 < b.height) (hW : b.outW = b.width)
    (hH : b.outH = b.height) : b.plainSamples r = b.samples r := by
  unfold plainSamples samples sample sourceX sourceY
  rw [hW, hH]
  refine List.flatMap_congr (fun j _ => List.map_congr_left (fun i _ => ?_))
  rw [Int.mul_ediv_cancel _ (by omega), Int.mul_ediv_cancel _ (by omega),
    show r.x + (i : Int) - b.destX = r.x - b.destX + i by ring,
    show r.y + (j : Int) - b.destY = r.y - b.destY + j by ring]

theorem mem_samples (hsolid : r.Solid) {p : Sample} :
    p ∈ b.samples r ↔ r.Has p.x p.y ∧ p = b.sample p.x p.y := by
  unfold Rect.Solid at hsolid
  unfold samples Rect.Has Rect.right Rect.bottom
  simp only [List.mem_flatMap, List.mem_map, List.mem_range]
  constructor
  · rintro ⟨j, hj, i, hi, rfl⟩
    refine ⟨?_, rfl⟩
    unfold sample sampleAt
    dsimp only
    omega
  · rintro ⟨hin, hp⟩
    refine ⟨(p.y - r.y).toNat, by omega, (p.x - r.x).toNat, by omega, ?_⟩
    have hx : r.x + (p.x - r.x) = p.x := by omega
    have hy : r.y + (p.y - r.y) = p.y := by omega
    rw [Int.toNat_of_nonneg (by omega), Int.toNat_of_nonneg (by omega), hx, hy]
    exact hp.symm

end Blit

/-! ## What is shown -/

/-- A color as it stands on the drawing target. -/
def Screen.onTarget (s : Screen) (rgb : UInt32) : UInt32 :=
  if s.backbufferReady then rgb else frontPixel s.mode rgb

/-- `s'` is `s` with the pixels of `R` in the colors `v`. -/
structure Shows (R : Int → Int → Prop) (v : Int → Int → UInt32) (s s' : Screen) : Prop where
  mode : s'.mode = s.mode
  ready : s'.backbufferReady = s.backbufferReady
  inside : ∀ x y, R x y → s'.target x y = s.onTarget (v x y)
  outside : ∀ x y, ¬ R x y → s'.target x y = s.target x y

namespace Shows

variable {R R' : Int → Int → Prop} {v : Int → Int → UInt32}

theorem nothing (hR : ∀ x y, ¬ R x y) : Shows R v s s :=
  ⟨rfl, rfl, fun x y h => absurd h (hR x y), fun _ _ _ => rfl⟩

theorem onTarget (h : Shows R v s s') (rgb : UInt32) : s'.onTarget rgb = s.onTarget rgb := by
  unfold Screen.onTarget
  rw [h.mode, h.ready]

theorem congr (h : Shows R v s s') (hR : ∀ x y, R' x y ↔ R x y) {v' : Int → Int → UInt32}
    (hv : ∀ x y, R x y → v' x y = v x y) : Shows R' v' s s' := by
  refine ⟨h.mode, h.ready, fun x y hx => ?_, fun x y hx => ?_⟩
  · rw [hv x y ((hR x y).mp hx)]
    exact h.inside x y ((hR x y).mp hx)
  · exact h.outside x y (fun hr => hx ((hR x y).mpr hr))

theorem trans (h : Shows R v s s') (h' : Shows R' v s' s'') :
    Shows (fun x y => R x y ∨ R' x y) v s s'' := by
  refine ⟨h'.mode.trans h.mode, h'.ready.trans h.ready, fun x y hx => ?_, fun x y hx => ?_⟩
  · by_cases hr' : R' x y
    · rw [h'.inside x y hr', h.onTarget]
    · rw [h'.outside x y hr', h.inside x y (hx.resolve_right hr')]
  · rw [not_or] at hx
    rw [h'.outside x y hx.2, h.outside x y hx.1]

theorem foldl {α : Type} {I : Screen → Prop} {P : α → Int → Int → Prop} {f : Screen → α → Screen}
    {l : List α} (hf : ∀ s a, I s → a ∈ l → I (f s a) ∧ Shows (P a) v s (f s a)) (hs : I s) :
    I (l.foldl f s) ∧ Shows (fun x y => ∃ a ∈ l, P a x y) v s (l.foldl f s) := by
  induction l generalizing s with
  | nil => exact ⟨hs, nothing (fun x y h => by obtain ⟨a, ha, _⟩ := h; cases ha)⟩
  | cons a l ih =>
    obtain ⟨hi, hstep⟩ := hf s a hs List.mem_cons_self
    obtain ⟨hI, hrest⟩ := ih (fun s b hs hb => hf s b hs (List.mem_cons_of_mem a hb)) hi
    exact ⟨hI, (hstep.trans hrest).congr (fun x y => by simp) (fun _ _ _ => rfl)⟩

theorem target_eq (h : Shows R v s s') (h' : Shows R v s s'') : s'.target = s''.target := by
  funext x y
  by_cases hx : R x y
  · rw [h.inside x y hx, h'.inside x y hx]
  · rw [h.outside x y hx, h'.outside x y hx]

end Shows

/-! ## Drawing -/

/-- Pixels go to the backbuffer that was found room for, or to the framebuffer. -/
def Drawable (m : Mode) (s : Screen) : Prop := Bare s ∨ (Roomy m ∧ Fitted m s)

theorem Alike.drawable (h : Alike m s s) : Drawable m s := by
  rcases h with ⟨hbare, _⟩ | ⟨hm, hs, _, _⟩
  · exact .inl hbare
  · exact .inr ⟨hm, hs.fitted⟩

theorem target_bare (h : Bare s) : s.target = s.front := if_neg (ne_true_of_eq_false h)

theorem target_ready (h : s.backbufferReady = true) : s.target = s.back := if_pos h

theorem shows_back (h : s.backbufferReady = true) (r : Rect) (rgb : UInt32) :
    Shows r.Has (fun _ _ => rgb) s { s with back := paint r rgb s.back } := by
  refine ⟨rfl, rfl, fun x y hx => ?_, fun x y hx => ?_⟩
  · rw [target_ready (s := { s with back := paint r rgb s.back }) h, Screen.onTarget, if_pos h]
    exact if_pos hx
  · rw [target_ready (s := { s with back := paint r rgb s.back }) h, target_ready h]
    exact if_neg hx

theorem shows_drawClipped (h : Drawable m s) (hr : r.Solid)
    (hscreen : (screenRect s.mode.width s.mode.height).Covers r) (rgb : UInt32) :
    Drawable m (s.drawClipped r rgb) ∧ Shows r.Has (fun _ _ => rgb) s (s.drawClipped r rgb) := by
  rcases h with hbare | ⟨hm, hs⟩
  · have hready : ¬ s.backbufferReady = true := ne_true_of_eq_false hbare
    have hpaint : Bare (s.paintFront r rgb) := hbare
    refine ⟨.inl (hbare.drawClipped r rgb), ?_⟩
    unfold Screen.drawClipped
    rw [if_neg hready]
    refine ⟨rfl, rfl, fun x y hx => ?_, fun x y hx => ?_⟩
    · rw [target_bare hpaint, Screen.onTarget, if_neg hready]
      exact if_pos hx
    · rw [target_bare hpaint, target_bare hbare]
      exact if_neg hx
  · rw [hs.mode] at hscreen
    refine ⟨.inr ⟨hm, (Painted.drawClipped hm hs hr hscreen rgb).fitted hs⟩, ?_⟩
    unfold Screen.drawClipped
    rw [if_pos hs.ready, if_pos (hs.fits hm hr hscreen)]
    exact shows_back hs.ready r rgb

theorem shows_drawPixel (h : Drawable m s) {x y : Int}
    (hscreen : (screenRect s.mode.width s.mode.height).Has x y) (rgb : UInt32) :
    Drawable m (s.drawPixel x y rgb) ∧
      Shows (fun px py => px = x ∧ py = y) (fun _ _ => rgb) s (s.drawPixel x y rgb) := by
  rw [screenRect_has] at hscreen
  unfold Screen.drawPixel
  rw [if_neg (by omega)]
  have hcover : (screenRect s.mode.width s.mode.height).Covers ⟨x, y, 1, 1⟩ := by
    unfold Rect.Covers Rect.right Rect.bottom screenRect
    dsimp only
    omega
  obtain ⟨hdraw, hshows⟩ := shows_drawClipped h ⟨Int.one_pos, Int.one_pos⟩ hcover rgb
  refine ⟨hdraw, hshows.congr (fun px py => ?_) (fun _ _ _ => rfl)⟩
  unfold Rect.Has Rect.right Rect.bottom
  dsimp only
  omega

theorem Alike.presented (h : Alike m s s) : s.maybePresentPending.mode = s.mode ∧
    s.maybePresentPending.backbufferReady = s.backbufferReady ∧
    s.maybePresentPending.target = s.target := by
  refine ⟨?_, ?_, h.present.target⟩
  all_goals rcases h with ⟨hbare, _⟩ | ⟨hm, hf, _, _⟩
  any_goals rw [hbare.maybePresentPending_eq]
  · rw [(hf.maybePresent hm).fitted.mode, hf.fitted.mode]
  · rw [(hf.maybePresent hm).fitted.ready, hf.fitted.ready]

theorem shows_presented {R : Int → Int → Prop} {v : Int → Int → UInt32} (h : Alike m s' s')
    (hs : Shows R v s s') : Shows R v s s'.maybePresentPending := by
  obtain ⟨hmode, hready, htarget⟩ := h.presented
  refine ⟨hmode.trans hs.mode, hready.trans hs.ready, ?_, ?_⟩ <;> rw [htarget]
  · exact hs.inside
  · exact hs.outside

theorem Shows.note {R : Int → Int → Prop} {v : Int → Int → UInt32} (h : Shows R v s s') (r : Rect) :
    Shows R v s (s'.noteDirty r) := ⟨h.mode, h.ready, h.inside, h.outside⟩

theorem shows_fillRectRgb (h : Drawable m s) (hw : 0 < r.w) (hh : 0 < r.h) (hx : FitsInt (r.x + r.w))
    (hy : FitsInt (r.y + r.h)) (rgb : UInt32) :
    Shows (fun x y => r.Has x y ∧ (screenRect s.mode.width s.mode.height).Has x y)
      (fun _ _ => rgb) s (s.fillRectRgb r rgb) := by
  unfold Screen.fillRectRgb
  rw [if_neg (by omega)]
  have hhas : ∀ px py, (∃ q, clipRect s.mode.width s.mode.height r = some q ∧ q.Has px py) ↔
      r.Has px py ∧ (screenRect s.mode.width s.mode.height).Has px py :=
    fun px py => clipRect_has hx hy
  cases hc : clipRect s.mode.width s.mode.height r with
  | none =>
    refine .nothing (fun x y hin => ?_)
    obtain ⟨q, hq, _⟩ := (hhas x y).mpr hin
    rw [hc] at hq
    cases hq
  | some q =>
    obtain ⟨hsolid, hscreen⟩ := clipRect_onScreen hc
    refine (shows_drawClipped h hsolid hscreen rgb).2.congr (fun x y => ?_) (fun _ _ _ => rfl)
    rw [← hhas x y]
    refine ⟨fun ⟨q', hq', hin⟩ => ?_, fun hin => ⟨q, hc, hin⟩⟩
    rw [hc] at hq'
    obtain rfl := Option.some.inj hq'
    exact hin

theorem shows_fillRect (h : Alike m s s) {c : Screen.ColorRect} (hw : 0 < c.rect.w) (hh : 0 < c.rect.h)
    (hx : FitsInt (c.rect.x + c.rect.w)) (hy : FitsInt (c.rect.y + c.rect.h)) :
    Shows (fun x y => c.rect.Has x y ∧ (screenRect s.mode.width s.mode.height).Has x y)
      (fun _ _ => c.rgb) s (s.videoFillRect c) := by
  rw [videoFillRect_eq hw hh]
  exact shows_presented (h.fillAndNote c)
    (Shows.note (shows_fillRectRgb h.drawable hw hh hx hy c.rgb) c.rect)

/-! ## Surfaces -/

section Surfaces

variable (mem : Nat → UInt8) {b : Blit}

/-- The color of the pixel of the surface that is shown at a pixel of the screen. -/
def Blit.colorAt (mem : Nat → UInt8) (b : Blit) (x y : Int) : UInt32 :=
  readU32 mem (b.sample x y).addr &&& 0xFFFFFF

theorem drawSample_xrgb (s : Screen) (p : Blit.Sample) :
    drawSample mem formatXrgbLe s p = s.drawPixel p.x p.y (readU32 mem p.addr &&& 0xFFFFFF) := rfl

theorem shows_drawSurface (h : Drawable m s) (hformat : b.format = formatXrgbLe) (hb : b.SurfaceOk)
    (hd : b.DestOk) (hw : b.window s.mode.width s.mode.height = some r) :
    Shows r.Has (b.colorAt mem) s (drawSurface mem s b r) := by
  obtain ⟨⟨hsolid, hcover⟩, _⟩ := Blit.window_spec hw
  have hpixels : ∀ x y, r.Has x y ↔ ∃ p ∈ b.samples r, x = p.x ∧ y = p.y := by
    intro x y
    refine ⟨fun hin => ⟨b.sample x y, (Blit.mem_samples hsolid).mpr ⟨hin, rfl⟩, rfl, rfl⟩, ?_⟩
    rintro ⟨p, hp, rfl, rfl⟩
    exact ((Blit.mem_samples hsolid).mp hp).1
  have hcolor : ∀ p ∈ b.samples r, readU32 mem p.addr &&& 0xFFFFFF = b.colorAt mem p.x p.y := by
    intro p hp
    unfold Blit.colorAt
    rw [← ((Blit.mem_samples hsolid).mp hp).2]
  unfold drawSurface
  split
  · rename_i hplain
    rw [Blit.plainSamples_eq hb.2.1 hb.2.2.1 hplain.2.1 hplain.2.2.1]
    have hstep : ∀ (t : Screen) (p : Blit.Sample), t.backbufferReady = true → p ∈ b.samples r →
        (copySample mem t p).backbufferReady = true ∧
        Shows (fun x y => x = p.x ∧ y = p.y) (b.colorAt mem) t (copySample mem t p) := by
      intro t p ht hp
      refine ⟨ht, (shows_back ht ⟨p.x, p.y, 1, 1⟩ (readU32 mem p.addr &&& 0xFFFFFF)).congr
        (fun x y => ?_) ?_⟩
      · unfold Rect.Has Rect.right Rect.bottom
        dsimp only
        omega
      · intro x y hin
        unfold Rect.Has Rect.right Rect.bottom at hin
        dsimp only at hin
        obtain ⟨rfl, rfl⟩ : x = p.x ∧ y = p.y := by omega
        exact (hcolor p hp).symm
    exact (Shows.foldl hstep hplain.2.2.2.1).2.congr hpixels (fun _ _ _ => rfl)
  · rw [Blit.scaledSamples_eq hb hd hw, hformat]
    have hstep : ∀ (t : Screen) (p : Blit.Sample), (Drawable m t ∧ t.mode = s.mode) →
        p ∈ b.samples r → (Drawable m (drawSample mem formatXrgbLe t p) ∧
          (drawSample mem formatXrgbLe t p).mode = s.mode) ∧
        Shows (fun x y => x = p.x ∧ y = p.y) (b.colorAt mem) t (drawSample mem formatXrgbLe t p) := by
      rintro t p ⟨ht, hmode⟩ hp
      have hin := ((Blit.mem_samples hsolid).mp hp).1
      have hscreen : (screenRect t.mode.width t.mode.height).Has p.x p.y := by
        rw [hmode]
        exact hcover.has hin
      rw [drawSample_xrgb, hcolor p hp]
      obtain ⟨hdraw, hshows⟩ := shows_drawPixel ht hscreen (b.colorAt mem p.x p.y)
      refine ⟨⟨hdraw, hshows.mode.trans hmode⟩, hshows.congr (fun _ _ => Iff.rfl) ?_⟩
      rintro x y ⟨rfl, rfl⟩
      rfl
    exact (Shows.foldl hstep ⟨h, rfl⟩).2.congr hpixels (fun _ _ _ => rfl)

theorem alike_drawSurface (h : Alike m s s) (hb : b.SurfaceOk) (hd : b.DestOk)
    (hw : b.window s.mode.width s.mode.height = some r) :
    Alike m ((drawSurface mem s b r).noteDirty r) ((drawSurface mem s b r).noteDirty r) := by
  rcases h with ⟨hbare, _⟩ | ⟨hm, hs, _, _⟩
  · have hdraw : Bare (drawSurface mem s b r) := by
      unfold drawSurface
      rw [if_neg (fun hplain => ne_true_of_eq_false hbare hplain.2.2.2.1)]
      exact List.foldlRecOn _ _ hbare (fun _ ht p _ => ht.drawSample mem b.format p)
    exact .refl (.inl hdraw)
  · obtain ⟨⟨_, hcover⟩, _⟩ := Blit.window_spec hw
    rw [hs.fitted.mode] at hw hcover
    exact .refl (.inr ⟨hm, hs.note (Painted.drawSurface hm mem hs.fitted hb hd hw)
      (fun _ _ hp => marks_onScreen hm hcover hp)⟩)

theorem shows_blitSurface (h : Alike m s s) (hformat : b.format = formatXrgbLe) (hb : b.SurfaceOk)
    (hd : b.DestOk) (hc : b.ClipOk) :
    Shows (fun x y => ∃ r, b.window s.mode.width s.mode.height = some r ∧ r.Has x y)
      (b.colorAt mem) s (videoBlitSurface mem s b).1 := by
  unfold videoBlitSurface
  rw [if_neg (by simp only [hb, hd, hc, not_true_eq_false, or_self, not_false_eq_true])]
  cases hw : b.window s.mode.width s.mode.height with
  | none => exact .nothing (fun x y hin => by obtain ⟨r, hr, _⟩ := hin; cases hr)
  | some r =>
    refine shows_presented (alike_drawSurface mem h hb hd hw) (Shows.note ?_ r)
    exact (shows_drawSurface mem h.drawable hformat hb hd hw).congr (fun x y => by simp)
      (fun _ _ _ => rfl)

end Surfaces

end Video
end MiniDos
