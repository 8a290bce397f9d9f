import MiniDos.Video.Frame

/-!
# MiniDos.Video.Bare

The screen without a backbuffer: noting and presenting do nothing, and no call brings the
backbuffer back.
-/

namespace MiniDos
namespace Video

open Plane Screen

/-- Drawing goes to the framebuffer. -/
def Bare (s : Screen) : Prop := s.backbufferReady = false

variable {s : Screen}

namespace Bare

theorem presentPending_eq (h : Bare s) : s.presentPending = s := if_pos (.inl h)

theorem maybePresentPending_eq (h : Bare s) : s.maybePresentPending = s := by
  unfold Screen.maybePresentPending
  rw [h.presentPending_eq, ite_self]

/-! ## Rectangles -/

theorem drawClipped (h : Bare s) (r : Rect) (rgb : UInt32) : Bare (s.drawClipped r rgb) := by
  unfold Screen.drawClipped
  rw [if_neg (ne_true_of_eq_false h)]
  exact h

theorem drawPixel (h : Bare s) (x y : Int) (rgb : UInt32) : Bare (s.drawPixel x y rgb) := by
  unfold Screen.drawPixel
  split
  · exact h
  · exact h.drawClipped _ rgb

theorem fillRectRgb (h : Bare s) (r : Rect) (rgb : UInt32) : Bare (s.fillRectRgb r rgb) := by
  unfold Screen.fillRectRgb
  split
  · exact h
  · split
    · exact h
    · exact h.drawClipped _ rgb

theorem fillAndNote (h : Bare s) (r : ColorRect) : Bare (s.fillAndNote r) :=
  h.fillRectRgb r.rect r.rgb

theorem fillLoop (h : Bare s) (rects : List ColorRect) : Bare (rects.foldl Screen.fillAndNote s) :=
  List.foldlRecOn _ _ h (fun _ ht r _ => ht.fillAndNote r)

theorem fillBatch (h : Bare s) (rects : List ColorRect) : Bare (s.videoFillRectBatch rects).1 := by
  unfold Screen.videoFillRectBatch
  split
  · exact h
  · dsimp only
    rw [(h.fillLoop rects).maybePresentPending_eq]
    exact h.fillLoop rects

theorem fillRect (h : Bare s) (r : ColorRect) : Bare (s.videoFillRect r) := by
  unfold Screen.videoFillRect
  split
  · exact h
  · exact h.fillBatch [r]

theorem clear (h : Bare s) (rgb : UInt32) : Bare (s.videoClearColor rgb) := by
  have hclear : Bare (s.clearGraphics rgb) := h.fillRectRgb _ rgb
  unfold Screen.videoClearColor Screen.fillFrontbufferRectRgb
  rw [if_neg (ne_true_of_eq_false h)]
  split
  · exact hclear
  · split <;> exact hclear

/-! ## Surfaces and text -/

theorem drawSample (mem : Nat → UInt8) (format : Int) (h : Bare s) (p : Blit.Sample) :
    Bare (drawSample mem format s p) := by
  unfold Video.drawSample
  dsimp only
  split
  · exact h.drawPixel _ _ _
  · split
    · exact h.drawPixel _ _ _
    · exact h

theorem blit (mem : Nat → UInt8) (h : Bare s) (b : Blit) : Bare (videoBlitSurface mem s b).1 := by
  unfold videoBlitSurface
  split
  · exact h
  cases b.window s.mode.width s.mode.height with
  | none => exact h
  | some r =>
    have hdraw : Bare (drawSurface mem s b r) := by
      unfold drawSurface
      rw [if_neg (fun hplain => ne_true_of_eq_false h hplain.2.2.2.1)]
      exact List.foldlRecOn _ _ h (fun _ ht p _ => ht.drawSample mem b.format p)
    have hnoted : Bare ((drawSurface mem s b r).noteDirty r) := hdraw
    dsimp only
    rw [hnoted.maybePresentPending_eq]
    exact hnoted

variable {font : Font} {fg bg : UInt32} {transparent : Bool} {clip : Rect} {ink : Ink}

theorem inkPixel (h : Bare ink.screen) (bits : UInt8) (x y : Int) (gx : Nat) :
    Bare (inkPixel clip fg bg transparent bits x y ink gx).screen := by
  unfold Video.inkPixel
  dsimp only
  split
  · exact h
  · exact h.drawPixel _ _ _

theorem inkGlyph (h : Bare ink.screen) (c : UInt8) (x y : Int) :
    Bare (inkGlyph font clip fg bg transparent c x y ink).screen :=
  List.foldlRecOn (motive := fun ink : Ink => Bare ink.screen) _ _ h (fun _ hrow _ _ =>
    List.foldlRecOn (motive := fun ink : Ink => Bare ink.screen) _ _ hrow (fun _ hpixel gx _ =>
      hpixel.inkPixel _ _ _ gx))

theorem inkText (startX : Int) (fullGlyphs : Bool) (text : List UInt8) (x y : Int)
    (h : Bare ink.screen) :
    Bare (inkText font clip fg bg transparent startX fullGlyphs text x y ink).screen := by
  induction text generalizing x y ink with
  | nil => exact h
  | cons c text ih =>
    simp only [Video.inkText]
    split
    · exact ih _ _ h
    · split
      · exact ih _ _ h
      · exact ih _ _ (h.inkGlyph c x y)

theorem drawText (h : Bare s) (x y : Int) (text : List UInt8) (clip : Rect) (flags : UInt32)
    (fullGlyphs : Bool) :
    Bare (videoDrawTextImpl font s x y text fg bg clip flags fullGlyphs).1 := by
  unfold videoDrawTextImpl
  split
  · exact h
  cases textClip s.mode.width s.mode.height clip with
  | none => exact h
  | some wanted =>
    dsimp only
    cases clipRect s.mode.width s.mode.height wanted with
    | none => exact h
    | some visible =>
      have htext : Bare (Video.inkText font visible fg bg
          (decide (flags &&& textTransparentBg ≠ 0)) x fullGlyphs text x y ⟨s, none⟩).screen :=
        inkText x fullGlyphs text x y h
      dsimp only
      generalize Video.inkText font visible fg bg (decide (flags &&& textTransparentBg ≠ 0)) x
        fullGlyphs text x y ⟨s, none⟩ = ink at htext ⊢
      have hnote : Bare (noteInk ink) := by
        unfold noteInk
        split <;> exact htext
      rw [hnote.maybePresentPending_eq]
      exact hnote

theorem step (font : Font) (h : Bare s) (c : Call) : Bare (c.run font s) := by
  cases c with
  | fillRect r => exact h.fillRect r
  | fillRectBatch rects => exact h.fillBatch rects
  | blitSurface mem b => exact h.blit mem b
  | drawTextAt x y text fg bg => exact h.drawText _ _ text _ 0 true
  | drawTextClipped x y text fg bg clip flags => exact h.drawText x y text clip flags false
  | clearColor rgb => exact h.clear rgb
  | presentPending =>
    show Bare s.presentPending
    rw [h.presentPending_eq]
    exact h
  | setDeferredPresent enabled =>
    show Bare (s.setDeferredPresent enabled)
    have hsame : s.setDeferredPresent enabled = s := if_pos h
    rw [hsame]
    exact h

end Bare

theorem bare_initVideo {m : Mode} (h : m.roomy = false) (back front : Int → Int → UInt32) :
    Bare (initVideo m back front) := by
  have hinit : Bare (initScreen m back front) := h
  have hclear : Bare ((initScreen m back front).clearGraphics 0) := hinit.fillRectRgb _ 0
  have hnoted : Bare (((initScreen m back front).clearGraphics 0).noteDirty
      (screenRect m.width m.height)) := hclear
  unfold initVideo
  rw [hnoted.presentPending_eq]
  exact hnoted

end Video
end MiniDos
