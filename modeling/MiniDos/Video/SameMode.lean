import MiniDos.Video.Frame

/-!
# MiniDos.Video.SameMode

No call changes the video mode, with a backbuffer or without one.
-/

namespace MiniDos
namespace Video

open Plane

/-- Drawing and presenting change pixels, the statics of the dirty tracking and whether there is a
backbuffer. -/
def SameMode (s s' : Screen) : Prop := s'.mode = s.mode

theorem drawClipped_mode (s : Screen) (r : Rect) (rgb : UInt32) : SameMode s (s.drawClipped r rgb) := by
  unfold Screen.drawClipped
  split
  · split <;> rfl
  · rfl

theorem fillRectRgb_mode (s : Screen) (r : Rect) (rgb : UInt32) :
    SameMode s (s.fillRectRgb r rgb) := by
  unfold Screen.fillRectRgb
  split
  · rfl
  split
  · rfl
  · exact drawClipped_mode s _ rgb

theorem drawPixel_mode (s : Screen) (x y : Int) (rgb : UInt32) : SameMode s (s.drawPixel x y rgb) := by
  unfold Screen.drawPixel
  split
  · rfl
  · exact drawClipped_mode s _ rgb

theorem copyRectToFront_mode (s : Screen) (r : Rect) : SameMode s (s.copyRectToFront r) := by
  unfold Screen.copyRectToFront
  split
  · rfl
  split
  · rfl
  · split <;> rfl

theorem foldl_mode {α : Type} {f : Screen → α → Screen} (hf : ∀ s a, SameMode s (f s a))
    (l : List α) (s : Screen) : SameMode s (l.foldl f s) :=
  List.foldlRecOn (motive := SameMode s) l f rfl (fun _ h a _ => (hf _ a).trans h)

theorem presentPending_mode (s : Screen) : SameMode s s.presentPending := by
  unfold Screen.presentPending Screen.copyDirty
  split
  · rfl
  split
  · exact copyRectToFront_mode s _
  · exact foldl_mode copyRectToFront_mode _ s

theorem maybePresent_mode (s : Screen) : SameMode s s.maybePresentPending := by
  unfold Screen.maybePresentPending
  split
  · rfl
  · exact presentPending_mode s

theorem fillBatch_mode (s : Screen) (rects : List Screen.ColorRect) :
    SameMode s (s.videoFillRectBatch rects).1 := by
  unfold Screen.videoFillRectBatch
  split
  · rfl
  · exact (maybePresent_mode _).trans
      (foldl_mode (f := Screen.fillAndNote) (fun t c => fillRectRgb_mode t c.rect c.rgb) rects s)

theorem blit_mode (mem : Nat → UInt8) (s : Screen) (b : Blit) :
    SameMode s (videoBlitSurface mem s b).1 := by
  have hsample : ∀ (t : Screen) (p : Blit.Sample), SameMode t (drawSample mem b.format t p) := by
    intro t p
    unfold drawSample
    dsimp only
    split
    · exact drawPixel_mode t _ _ _
    · split
      · exact drawPixel_mode t _ _ _
      · rfl
  unfold videoBlitSurface
  split
  · rfl
  split
  · rfl
  refine (maybePresent_mode _).trans ?_
  show SameMode s (drawSurface mem s b _)
  unfold drawSurface
  split
  · exact foldl_mode (f := copySample mem) (fun t p => rfl) _ s
  · exact foldl_mode hsample _ s

theorem inkText_mode (font : Font) (clip : Rect) (fg bg : UInt32) (transparent : Bool) (startX : Int)
    (fullGlyphs : Bool) (text : List UInt8) (x y : Int) (ink : Ink) :
    SameMode ink.screen
      (inkText font clip fg bg transparent startX fullGlyphs text x y ink).screen := by
  have hglyph : ∀ (c : UInt8) (x y : Int) (ink : Ink),
      SameMode ink.screen (inkGlyph font clip fg bg transparent c x y ink).screen := by
    intro c x y ink
    refine List.foldlRecOn (motive := fun out : Ink => SameMode ink.screen out.screen) _ _ rfl
      (fun _ hrow gy _ => ?_)
    refine List.foldlRecOn (motive := fun out : Ink => SameMode ink.screen out.screen) _ _ hrow
      (fun _ hpixel gx _ => Eq.trans ?_ hpixel)
    unfold inkPixel
    dsimp only
    split
    · rfl
    · exact drawPixel_mode _ _ _ _
  induction text generalizing x y ink with
  | nil => rfl
  | cons c text ih =>
    simp only [inkText]
    split
    · exact ih _ _ _
    · refine (ih _ _ _).trans ?_
      split
      · rfl
      · exact hglyph c x y ink

theorem drawText_mode (font : Font) (s : Screen) (x y : Int) (text : List UInt8) (fg bg : UInt32)
    (clip : Rect) (flags : UInt32) (fullGlyphs : Bool) :
    SameMode s (videoDrawTextImpl font s x y text fg bg clip flags fullGlyphs).1 := by
  unfold videoDrawTextImpl
  split
  · rfl
  split
  · rfl
  split
  · rfl
  refine (maybePresent_mode _).trans ?_
  unfold noteInk
  split <;> exact inkText_mode font _ fg bg _ x fullGlyphs text x y ⟨s, none⟩

theorem step_mode (font : Font) (s : Screen) (c : Call) : SameMode s (c.run font s) := by
  cases c with
  | fillRect r =>
    show SameMode s (s.videoFillRect r)
    unfold Screen.videoFillRect
    split
    · rfl
    · exact fillBatch_mode s [r]
  | fillRectBatch rects => exact fillBatch_mode s rects
  | blitSurface mem b => exact blit_mode mem s b
  | drawTextAt x y text fg bg => exact drawText_mode font s _ _ text fg bg _ 0 true
  | drawTextClipped x y text fg bg clip flags =>
    exact drawText_mode font s x y text fg bg clip flags false
  | clearColor rgb =>
    show SameMode s (s.videoClearColor rgb)
    have hclear : SameMode s (s.clearGraphics rgb) := fillRectRgb_mode s _ rgb
    unfold Screen.videoClearColor
    split
    · exact (maybePresent_mode _).trans hclear
    · refine Eq.trans ?_ hclear
      show ((s.clearGraphics rgb).fillFrontbufferRectRgb _ rgb).mode = _
      unfold Screen.fillFrontbufferRectRgb
      split
      · rfl
      · split <;> rfl
  | presentPending => exact presentPending_mode s
  | setDeferredPresent enabled =>
    show SameMode s (s.setDeferredPresent enabled)
    unfold Screen.setDeferredPresent
    split
    · rfl
    split
    · rfl
    · exact presentPending_mode _

theorem run_mode (font : Font) (m : Mode) (back front : Int → Int → UInt32) (calls : List Call) :
    (calls.foldl (Call.run font) (initVideo m back front)).mode = m := by
  have hinit : (initVideo m back front).mode = m :=
    (presentPending_mode _).trans (fillRectRgb_mode (initScreen m back front) _ 0)
  exact (foldl_mode (step_mode font) calls _).trans hinit

end Video
end MiniDos
