import MiniDos.Video.Bytes

/-!
# MiniDos.Video.Frame

The drawing calls in any order: between two calls, the framebuffer differs from the backbuffer only
where the next present copies.

* `framed_iff`: the modes in which pixels are cells of their own.
* `Follows.step`: one call.
* `framebuffer_follows_backbuffer`: any number of calls after booting.
-/

namespace MiniDos
namespace Video

open Plane Raster

/-! ## Modes whose pixels are apart -/

section Modes

variable {m : Mode}

theorem bytesPerPixel_pos (m : Mode) : 0 < m.bytesPerPixel ∧ m.bytesPerPixel ≤ 4 := by
  unfold Mode.bytesPerPixel
  split
  · decide
  · split <;> decide

/-- A byte of a pixel of an earlier row is in front of all bytes of a later row. -/
theorem row_in_front (hrows : m.width * m.bytesPerPixel ≤ m.pitch) {px py qx qy i j : Int}
    (hpx : 0 ≤ px ∧ px < m.width) (hqx : 0 ≤ qx) (hrow : py < qy) (hi : i < m.bytesPerPixel)
    (hj : 0 ≤ j) :
    py * m.pitch + px * m.bytesPerPixel + i < qy * m.pitch + qx * m.bytesPerPixel + j := by
  have hcell : px * m.bytesPerPixel + m.bytesPerPixel ≤ m.width * m.bytesPerPixel :=
    Screen.row_end_le (Int.natCast_nonneg _) hpx.2
  have hstart : 0 ≤ qx * m.bytesPerPixel := Int.mul_nonneg hqx (Int.natCast_nonneg _)
  have hfirst : 0 ≤ px * m.bytesPerPixel := Int.mul_nonneg hpx.1 (Int.natCast_nonneg _)
  have hend := Screen.row_end_le (p := m.pitch) (by omega) hrow
  omega

theorem framed_iff : m.Framed ↔ m.Graphics ∧ m.PixelsApart := by
  obtain ⟨hpos, _⟩ := bytesPerPixel_pos m
  constructor
  · rintro ⟨hg, hrows⟩
    refine ⟨hg, fun px py qx qy i j hp hq hi hj heq => ?_⟩
    obtain ⟨hpx, hpx', -, -⟩ := screenRect_has.mp hp
    obtain ⟨hqx, hqx', -, -⟩ := screenRect_has.mp hq
    rcases Int.lt_trichotomy py qy with hlt | rfl | hgt
    · exact absurd heq (row_in_front hrows ⟨hpx, hpx'⟩ hqx hlt hi.2 hj.1).ne
    · refine ⟨?_, rfl⟩
      rcases Int.lt_trichotomy px qx with hlt | h | hgt
      · have := Screen.row_end_le (p := m.bytesPerPixel) (Int.natCast_nonneg _) hlt
        omega
      · exact h
      · have := Screen.row_end_le (p := m.bytesPerPixel) (Int.natCast_nonneg _) hgt
        omega
    · exact absurd heq.symm (row_in_front hrows ⟨hqx, hqx'⟩ hpx hgt hj.2 hi.1).ne
  · rintro ⟨hg, hapart⟩
    refine ⟨hg, Int.not_lt.mp fun hshort => ?_⟩
    obtain ⟨hwidth, hheight, hpitch, -⟩ := hg
    -- the pixel of the first row that the second row begins in
    have hmod := Int.emod_nonneg m.pitch (show (m.bytesPerPixel : Int) ≠ 0 by omega)
    have hmod' := Int.emod_lt_of_pos m.pitch (show (0 : Int) < m.bytesPerPixel by omega)
    have hdiv : 0 ≤ m.pitch / m.bytesPerPixel := Int.ediv_nonneg (by omega) (by omega)
    have hdiv' : m.pitch / m.bytesPerPixel < m.width :=
      Int.ediv_lt_of_lt_mul (by omega) hshort
    have hsplit := Int.mul_ediv_add_emod m.pitch m.bytesPerPixel
    rw [Int.mul_comm] at hsplit
    have hsame := hapart 0 1 (m.pitch / m.bytesPerPixel) 0 0 (m.pitch % m.bytesPerPixel)
      (screenRect_has.mpr (by omega)) (screenRect_has.mpr (by omega)) (by omega) ⟨hmod, hmod'⟩ (by omega)
    exact absurd hsame.2 (by decide)

end Modes

/-! ## Calls -/

/-- Some pixels were noted, and the others have the colors of the backbuffer. -/
def Follows (m : Mode) (s : Screen) : Prop := ∃ Noted, Synced m Noted s

variable {m : Mode} {s s' : Screen} {r : Rect}

theorem Follows.fitted (h : Follows m s) : Fitted m s := by
  obtain ⟨_, hs⟩ := h
  exact hs.fitted

theorem Synced.follows {Noted : Int → Int → Prop} (h : Synced m Noted s) : Follows m s := ⟨Noted, h⟩

theorem Follows.note {R : Int → Int → Prop} (h : Follows m s) (hp : Painted R s s')
    (hR : ∀ px py, R px py → Marks true m.width m.height r px py) :
    Follows m (s'.noteDirty r) := by
  obtain ⟨_, hs⟩ := h
  exact (hs.note hp hR).follows

theorem Follows.defer (h : Follows m s) (enabled : Bool) :
    Follows m { s with presentDeferred := enabled } := by
  obtain ⟨_, hs⟩ := h
  exact ⟨_, ⟨hs.fitted.mode, hs.fitted.ready, hs.fitted.pitch, hs.fitted.fast⟩, hs.tracked,
    hs.carries⟩

section Calls

variable (hm : Roomy m)
include hm

theorem Follows.present (h : Follows m s) : Follows m s.presentPending := by
  obtain ⟨_, hs⟩ := h
  exact (hs.present hm).follows

theorem Follows.maybePresent (h : Follows m s) : Follows m s.maybePresentPending := by
  unfold Screen.maybePresentPending
  split
  · exact h
  · exact h.present hm

theorem Follows.setDeferred (h : Follows m s) (enabled : Bool) :
    Follows m (s.setDeferredPresent enabled) := by
  unfold Screen.setDeferredPresent
  split
  · exact h
  · split
    · exact h.defer true
    · exact (h.defer false).present hm

/-! ## Rectangles -/

theorem Follows.fillAndNote (h : Follows m s) (r : Screen.ColorRect) : Follows m (s.fillAndNote r) :=
  h.note (Painted.fillRectRgb hm h.fitted r.rect r.rgb) (fun _ _ hp => hp)

theorem Follows.fillBatch (h : Follows m s) (rects : List Screen.ColorRect) :
    Follows m (s.videoFillRectBatch rects).1 := by
  unfold Screen.videoFillRectBatch
  split
  · exact h
  · refine Follows.maybePresent hm ?_
    exact List.foldlRecOn rects Screen.fillAndNote h (fun s hs r _ => hs.fillAndNote hm r)

theorem Follows.fillRect (h : Follows m s) (r : Screen.ColorRect) :
    Follows m (s.videoFillRect r) := by
  unfold Screen.videoFillRect
  split
  · exact h
  · exact h.fillBatch hm [r]

theorem Follows.clear (h : Follows m s) (rgb : UInt32) : Follows m (s.videoClearColor rgb) := by
  unfold Screen.videoClearColor
  rw [if_pos h.fitted.ready, h.fitted.mode]
  refine (h.note ?_ (fun _ _ hp => hp)).maybePresent hm
  have hpaint := Painted.fillRectRgb hm h.fitted (screenRect m.width m.height) rgb
  unfold Screen.clearGraphics
  rw [h.fitted.mode]
  exact hpaint

/-! ## Surfaces -/

theorem Painted.drawSample (mem : Nat → UInt8) (format : Int) (hs : Fitted m s) {p : Blit.Sample}
    (hp : r.Has p.x p.y) : Painted r.Has s (drawSample mem format s p) := by
  unfold Video.drawSample
  dsimp only
  split
  · exact Painted.drawPixel hm hs (fun _ => hp) _
  · split
    · exact Painted.drawPixel hm hs (fun _ => hp) _
    · exact .refl _ s

omit hm in
theorem Painted.copySample (mem : Nat → UInt8) (s : Screen) {p : Blit.Sample}
    (hp : r.Has p.x p.y) : Painted r.Has s (copySample mem s p) := by
  refine ⟨rfl, fun px py hno => if_neg (fun hhas => hno ?_)⟩
  unfold Rect.Has Rect.right Rect.bottom at hhas
  dsimp only at hhas
  obtain ⟨rfl, rfl⟩ : px = p.x ∧ py = p.y := by omega
  exact hp

theorem Painted.drawSurface (mem : Nat → UInt8) {b : Blit} (hs : Fitted m s) (hb : b.SurfaceOk)
    (hd : b.DestOk) (hw : b.window m.width m.height = some r) :
    Painted r.Has s (drawSurface mem s b r) := by
  unfold Video.drawSurface
  split
  · rename_i hplain
    obtain ⟨_, hW, hH, _⟩ := hplain
    refine Painted.foldl (fun s p _ hp => ?_) hs
    exact Painted.copySample mem s (Blit.plainSamples_spec hW hH hw hp).1
  · refine Painted.foldl (fun s p hs hp => ?_) hs
    exact Painted.drawSample hm mem b.format hs (Blit.scaledSamples_spec hb hd hw hp).1

theorem Follows.blit (mem : Nat → UInt8) (h : Follows m s) (b : Blit) :
    Follows m (videoBlitSurface mem s b).1 := by
  unfold videoBlitSurface
  split
  · exact h
  rename_i hok
  simp only [not_or, not_not] at hok
  obtain ⟨hb, hd, _⟩ := hok
  rw [h.fitted.mode]
  cases hw : b.window m.width m.height with
  | none => exact h
  | some r =>
    obtain ⟨⟨_, hscreen⟩, _⟩ := Blit.window_spec hw
    exact (h.note (Painted.drawSurface hm mem h.fitted hb hd hw)
      (fun _ _ hp => marks_onScreen hm hscreen hp)).maybePresent hm

/-! ## Text -/

/-- What was drawn since `s` is in the box, which is inside the clip rectangle. -/
structure Inked (clip : Rect) (s : Screen) (ink : Ink) : Prop where
  painted : Painted (fun px py => ∃ box, ink.drawn = some box ∧ box.Has px py) s ink.screen
  inside : ∀ box, ink.drawn = some box → clip.Covers box

omit hm in
theorem growInk_spec {clip : Rect} {drawn : Option Rect} {x y : Int} (hc : clip.Has x y)
    (hd : ∀ box, drawn = some box → clip.Covers box) :
    (growInk drawn x y).Has x y ∧ clip.Covers (growInk drawn x y) ∧
      ∀ box px py, drawn = some box → box.Has px py → (growInk drawn x y).Has px py := by
  have hcell : (⟨x, y, 1, 1⟩ : Rect).Has x y := by
    unfold Rect.Has Rect.right Rect.bottom
    dsimp only
    omega
  have hcover : clip.Covers ⟨x, y, 1, 1⟩ := by
    unfold Rect.Has at hc
    unfold Rect.Covers
    simp only [Rect.right, Rect.bottom] at hc ⊢
    omega
  cases drawn with
  | none =>
    refine ⟨hcell, hcover, fun box px py hb => ?_⟩
    cases hb
  | some box =>
    refine ⟨Rect.hull_has_right hcell, (hd box rfl).hull hcover, fun box' px py hb hp => ?_⟩
    cases hb
    exact Rect.hull_has_left hp

variable {clip : Rect} {ink : Ink} {font : Font} {fg bg : UInt32} {transparent : Bool}

theorem Inked.pixel (hs : Fitted m s) (h : Inked clip s ink) (bits : UInt8) (x y : Int) (gx : Nat) :
    Inked clip s (inkPixel clip fg bg transparent bits x y ink gx) := by
  unfold inkPixel
  dsimp only
  split
  · exact h
  rename_i hvisible
  rw [not_or, not_not] at hvisible
  obtain ⟨hnew, hcover, hold⟩ := growInk_spec hvisible.1 h.inside
  constructor
  · have hbefore : Painted (fun px py => ∃ box,
        some (growInk ink.drawn (int32 (x + gx)) y) = some box ∧ box.Has px py) s ink.screen :=
      h.painted.mono (by
        intro px py hp
        obtain ⟨box, hb, hp⟩ := hp
        exact ⟨_, rfl, hold box px py hb hp⟩)
    exact hbefore.trans (Painted.drawPixel hm (h.painted.fitted hs) (fun _ => ⟨_, rfl, hnew⟩) _)
  · intro box hb
    cases hb
    exact hcover

theorem Inked.glyph (hs : Fitted m s) (h : Inked clip s ink) (c : UInt8) (x y : Int) :
    Inked clip s (inkGlyph font clip fg bg transparent c x y ink) :=
  List.foldlRecOn _ _ h (fun _ hrow _ _ =>
    List.foldlRecOn _ _ hrow (fun _ hpixel gx _ => hpixel.pixel hm hs _ _ _ gx))

theorem Inked.text (hs : Fitted m s) (startX : Int) (fullGlyphs : Bool) (text : List UInt8)
    (x y : Int) (h : Inked clip s ink) :
    Inked clip s (inkText font clip fg bg transparent startX fullGlyphs text x y ink) := by
  induction text generalizing x y ink with
  | nil => exact h
  | cons c text ih =>
    simp only [inkText]
    split
    · exact ih _ _ h
    · split
      · exact ih _ _ h
      · exact ih _ _ (h.glyph hm hs c x y)

theorem Follows.noteInk (hf : Follows m s) (hscreen : (screenRect m.width m.height).Covers clip)
    (h : Inked clip s ink) : Follows m (noteInk ink) := by
  have hp := h.painted
  unfold Video.noteInk
  cases hd : ink.drawn with
  | none =>
    -- Nothing was drawn, and nothing is noted.
    have hback : ink.screen.back = s.back := by
      funext px py
      refine hp.outside px py (fun hbox => ?_)
      obtain ⟨box, hb, _⟩ := hbox
      rw [hd] at hb
      cases hb
    have hsame : ink.screen = s := by rw [hp.same, hback]
    dsimp only
    rw [hsame]
    exact hf
  | some box =>
    refine hf.note hp (fun px py hbox => ?_)
    obtain ⟨box', hb, hin⟩ := hbox
    rw [hd] at hb
    cases hb
    exact marks_onScreen hm (hscreen.trans (h.inside box hd)) hin

theorem Follows.drawText (h : Follows m s) (x y : Int) (text : List UInt8) (clip : Rect)
    (flags : UInt32) (fullGlyphs : Bool) :
    Follows m (videoDrawTextImpl font s x y text fg bg clip flags fullGlyphs).1 := by
  unfold videoDrawTextImpl
  split
  · exact h
  rw [h.fitted.mode]
  cases textClip m.width m.height clip with
  | none => exact h
  | some wanted =>
    dsimp only
    cases hc : clipRect m.width m.height wanted with
    | none => exact h
    | some visible =>
      have hstart : Inked visible s ⟨s, none⟩ := by
        refine ⟨.refl _ s, fun box hb => ?_⟩
        cases hb
      exact (h.noteInk hm (clipRect_onScreen hc).2
        (hstart.text hm h.fitted x fullGlyphs text x y)).maybePresent hm

end Calls

/-! ## Runs -/

inductive Call where
  | fillRect (r : Screen.ColorRect)
  | fillRectBatch (rects : List Screen.ColorRect)
  | blitSurface (mem : Nat → UInt8) (b : Blit)
  | drawTextAt (x y : Int) (text : List UInt8) (fg bg : UInt32)
  | drawTextClipped (x y : Int) (text : List UInt8) (fg bg : UInt32) (clip : Rect) (flags : UInt32)
  | clearColor (rgb : UInt32)
  | presentPending
  | setDeferredPresent (enabled : Bool)

def Call.run (font : Font) (s : Screen) : Call → Screen
  | .fillRect r => s.videoFillRect r
  | .fillRectBatch rects => (s.videoFillRectBatch rects).1
  | .blitSurface mem b => (videoBlitSurface mem s b).1
  | .drawTextAt x y text fg bg => videoDrawTextAt font s x y text fg bg
  | .drawTextClipped x y text fg bg clip flags =>
    (videoDrawTextClipped font s x y text fg bg clip flags).1
  | .clearColor rgb => s.videoClearColor rgb
  | .presentPending => s.presentPending
  | .setDeferredPresent enabled => s.setDeferredPresent enabled

theorem Follows.step (hm : Roomy m) (font : Font) (h : Follows m s) (c : Call) :
    Follows m (c.run font s) := by
  cases c with
  | fillRect r => exact h.fillRect hm r
  | fillRectBatch rects => exact h.fillBatch hm rects
  | blitSurface mem b => exact h.blit hm mem b
  | drawTextAt x y text fg bg => exact h.drawText hm _ _ text _ 0 true
  | drawTextClipped x y text fg bg clip flags => exact h.drawText hm x y text clip flags false
  | clearColor rgb => exact h.clear hm rgb
  | presentPending => exact h.present hm
  | setDeferredPresent enabled => exact h.setDeferred hm enabled

theorem follows_initVideo (hm : Roomy m) (back front : Int → Int → UInt32) :
    Follows m (initVideo m back front) := by
  have hfit := hm.fitted back front
  have hpaint := Painted.fillRectRgb hm hfit (screenRect m.width m.height) 0
  have hfit' := hpaint.fitted hfit
  have hdirty : ((initScreen m back front).fillRectRgb (screenRect m.width m.height) 0).dirty =
      clearDirty := by
    rw [hpaint.same]
    rfl
  have hnoted : Synced m
      (fun px py => False ∨ Marks true m.width m.height (screenRect m.width m.height) px py)
      (((initScreen m back front).fillRectRgb (screenRect m.width m.height) 0).noteDirty
        (screenRect m.width m.height)) := by
    refine ⟨⟨hfit'.mode, hfit'.ready, hfit'.pitch, hfit'.fast⟩, ?_, fun px py hp hno => ?_⟩
    · unfold Screen.noteDirty
      rw [hfit'.mode, hfit'.ready, hdirty]
      exact (tracked_clear _ _).note true _
    · exact absurd (.inr (marks_onScreen hm (.refl _) hp)) hno
  exact hnoted.follows.present hm

/-- With a backbuffer and rows that do not overlap, after any calls: the pixels of the framebuffer that the next present leaves
have the colors of the backbuffer, and after a present all of them have. -/
theorem framebuffer_follows_backbuffer (font : Font) (m : Mode) (back front : Int → Int → UInt32)
    (hframed : m.Framed)
    (hready : (initScreen m back front).backbufferReady = true) (calls : List Call) (px py : Int)
    (hscreen : (screenRect m.width m.height).Has px py) :
    let s := calls.foldl (Call.run font) (initVideo m back front)
    (¬ Pending s.dirty px py → Carries m (s.back px py) (s.front px py)) ∧
      Carries m (s.presentPending.back px py) (s.presentPending.front px py) := by
  have hm : Roomy m := by
    obtain ⟨hwidth, hheight, _, _⟩ := hframed.graphics
    exact ⟨by omega, by omega, hready⟩
  have hrun : Follows m (calls.foldl (Call.run font) (initVideo m back front)) :=
    List.foldlRecOn calls (Call.run font) (follows_initVideo hm back front)
      (fun _ h c _ => h.step hm font c)
  obtain ⟨Noted, hs⟩ := hrun
  refine ⟨fun hno => hs.carries px py hscreen (fun hp => hno (hs.tracked.pending hp)), ?_⟩
  exact (hs.present hm).carries px py hscreen id

def mode640 : Mode := ⟨640, 480, 1280, 16, 5, 11, 6, 5, 5, 0⟩

def deferredFill : Screen :=
  [Call.setDeferredPresent true, Call.fillRect ⟨⟨0, 0, 8, 8⟩, 0xFF0000⟩].foldl
    (Call.run (fun _ _ => 0)) (initVideo mode640 (fun _ _ => 0) (fun _ _ => 0))

theorem framebuffer_follows_backbuffer_deferred :
    (¬ Pending deferredFill.dirty 20 20 →
      Carries mode640 (deferredFill.back 20 20) (deferredFill.front 20 20)) ∧
    Carries mode640 (deferredFill.presentPending.back 20 20)
      (deferredFill.presentPending.front 20 20) :=
  framebuffer_follows_backbuffer (fun _ _ => 0) mode640 (fun _ _ => 0) (fun _ _ => 0)
    ⟨by unfold Mode.Graphics mode640; decide, by decide⟩ (by decide) _ 20 20 (by decide)

/-- 320 by 200 pixels of 32 bits with a pitch of 320 bytes: pixel 80 of a row is the first one of the
next row. -/
def sharedMode : Mode := { narrowMode with pitch := 320 }

/-- That screen after a fill of the first pixel of the second row. -/
def sharedFill : Screen :=
  (initVideo sharedMode (fun _ _ => 0) (fun _ _ => 0)).videoFillRect ⟨⟨0, 1, 1, 1⟩, 0xFFFFFF⟩

/-- The fill in the bytes of the backbuffer. -/
def sharedBack : Ram :=
  fillRect32 (fun edi ram => store32 ram edi 0xFFFFFF) (sharedFill.backbufferPixel 0 1)
    (UInt32.ofInt sharedFill.backbufferPitch) 1 1 (fun _ => 0)

/-- Nothing is pending, and pixel 80 of the first row is black in the backbuffer. In the framebuffer it
is white: presenting the filled pixel has written its bytes. -/
theorem shared_pixel_differs : sharedMode.Graphics ∧ sharedFill.backbufferReady = true ∧
    (∀ px py, ¬ Pending sharedFill.dirty px py) ∧ sharedFill.back 80 0 = 0 ∧
    ∀ k < 3, sharedBack (sharedFill.backbufferPixel 80 0 + UInt32.ofNat k) = 0 ∧
      sharedFill.copyRectBytes 0xC0000000 sharedBack (fun _ => 0) ⟨0, 1, 1, 1⟩
        (sharedFill.framebufferPixel 0xC0000000 80 0 + UInt32.ofNat k) = 0xFF := by
  have hclear : sharedFill.dirty = clearDirty := rfl
  refine ⟨by unfold Mode.Graphics sharedMode narrowMode; decide, by decide +kernel, fun px py => ?_,
    by decide +kernel, by decide +kernel⟩
  rw [hclear]
  rintro ⟨_, hin, _⟩
  cases hin

end Video
end MiniDos
