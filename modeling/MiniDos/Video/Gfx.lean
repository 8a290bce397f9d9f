import MiniDos.Video.Bare

/-!
# MiniDos.Video.Gfx

The calls of an app that fill rectangles: `MINIDOS_SYSCALL_GFX_RECT` and
`MINIDOS_SYSCALL_GFX_RECT_BATCH` of `shell_apps_syscall`, from where the arguments are copied in.

* `Alike`: two screens whose drawing targets agree. A batch and its rectangles one by one keep it
  (`Alike.batch`).
-/

namespace MiniDos
namespace Video

open Plane Screen

/-! ## The checks -/

def appGfxMaxDimension : Int := 16384
def appGfxCoordLimit : Int := 32768
def appGfxRectBatchMax : Nat := 64

def GfxPositionValid (value : Int) : Prop := -appGfxCoordLimit ≤ value ∧ value ≤ appGfxCoordLimit

instance (value : Int) : Decidable (GfxPositionValid value) := inferInstanceAs (Decidable (_ ∧ _))

def GfxExtentValid (origin size : Int) : Prop :=
  GfxPositionValid origin ∧ 0 < size ∧ size ≤ appGfxMaxDimension ∧ origin ≤ 0x7FFFFFFF - size

instance (origin size : Int) : Decidable (GfxExtentValid origin size) :=
  inferInstanceAs (Decidable (_ ∧ _))

def GfxRectValid (r : Rect) : Prop := GfxExtentValid r.x r.w ∧ GfxExtentValid r.y r.h

instance (r : Rect) : Decidable (GfxRectValid r) := inferInstanceAs (Decidable (_ ∧ _))

def GfxLegacyRectSafe (r : Rect) : Prop :=
  r.w ≤ 0 ∨ r.h ≤ 0 ∨ (r.x ≤ 0x7FFFFFFF - r.w ∧ r.y ≤ 0x7FFFFFFF - r.h)

instance (r : Rect) : Decidable (GfxLegacyRectSafe r) := inferInstanceAs (Decidable (_ ∨ _))

theorem GfxRectValid.solid {r : Rect} (h : GfxRectValid r) : 0 < r.w ∧ 0 < r.h := ⟨h.1.2.1, h.2.2.1⟩

theorem GfxRectValid.legacySafe {r : Rect} (h : GfxRectValid r) : GfxLegacyRectSafe r :=
  .inr (.inr ⟨h.1.2.2.2, h.2.2.2.2⟩)

/-! ## The calls -/

/-- The screen after the call, and its result. -/
def gfxRect (background : Bool) (s : Screen) (r : ColorRect) : Screen × Int :=
  if background = true ∨ ¬ GfxLegacyRectSafe r.rect then (s, 0) else (s.videoFillRect r, 1)

def gfxRectBatch (background : Bool) (s : Screen) (rects : List ColorRect) : Screen × Int :=
  if background = true ∨ rects = [] ∨ appGfxRectBatchMax < rects.length then (s, 0)
  else if rects.all (fun r => decide (GfxRectValid r.rect)) then
    ((s.videoFillRectBatch rects).1, if (s.videoFillRectBatch rects).2 then 1 else 0)
  else (s, 0)

/-! ## Targets -/

/-- Where drawing goes. -/
def Screen.target (s : Screen) : Int → Int → UInt32 := if s.backbufferReady then s.back else s.front

variable {m : Mode} {s t : Screen}

/-- Both draw on a backbuffer, with the same pixels, or they are one screen without one. -/
def Alike (m : Mode) (s t : Screen) : Prop :=
  (Bare s ∧ t = s) ∨ (Roomy m ∧ Follows m s ∧ Follows m t ∧ s.back = t.back)

theorem Alike.target (h : Alike m s t) : s.target = t.target := by
  unfold Screen.target
  rcases h with ⟨_, rfl⟩ | ⟨_, hs, ht, hback⟩
  · rfl
  · rw [if_pos hs.fitted.ready, if_pos ht.fitted.ready, hback]

theorem copyRectToFront_back (s : Screen) (r : Rect) : (s.copyRectToFront r).back = s.back := by
  unfold copyRectToFront
  split
  · rfl
  · split
    · rfl
    · split <;> rfl

theorem presentPending_back (s : Screen) : s.presentPending.back = s.back := by
  unfold presentPending copyDirty
  split
  · rfl
  · split
    · exact copyRectToFront_back s _
    · exact List.foldlRecOn (motive := fun t => t.back = s.back) _ _ rfl
        (fun t ht r _ => (copyRectToFront_back t r).trans ht)

theorem maybePresentPending_back (s : Screen) : s.maybePresentPending.back = s.back := by
  unfold maybePresentPending
  split
  · rfl
  · exact presentPending_back s

theorem fillAndNote_back (hm : Roomy m) (hs : Fitted m s) (ht : Fitted m t) (hback : s.back = t.back)
    (r : ColorRect) : (s.fillAndNote r).back = (t.fillAndNote r).back := by
  show (s.fillRectRgb r.rect r.rgb).back = (t.fillRectRgb r.rect r.rgb).back
  unfold fillRectRgb
  rw [hs.mode, ht.mode]
  split
  · exact hback
  · cases hc : clipRect m.width m.height r.rect with
    | none => exact hback
    | some c =>
      obtain ⟨hsolid, hscreen⟩ := clipRect_onScreen hc
      dsimp only
      unfold drawClipped
      rw [if_pos hs.ready, if_pos ht.ready, if_pos (hs.fits hm hsolid hscreen),
        if_pos (ht.fits hm hsolid hscreen)]
      show paint c r.rgb s.back = paint c r.rgb t.back
      rw [hback]

/-! ## Fills -/

theorem videoFillRect_eq {r : ColorRect} (hw : 0 < r.rect.w) (hh : 0 < r.rect.h) :
    s.videoFillRect r = (s.fillAndNote r).maybePresentPending := by
  unfold videoFillRect videoFillRectBatch
  rw [if_neg (by omega), if_neg (by simp; omega)]
  rfl

namespace Alike

theorem refl (h : Bare s ∨ (Roomy m ∧ Follows m s)) : Alike m s s := by
  rcases h with hbare | ⟨hm, hs⟩
  · exact .inl ⟨hbare, rfl⟩
  · exact .inr ⟨hm, hs, hs, rfl⟩

theorem symm (h : Alike m s t) : Alike m t s := by
  rcases h with ⟨hbare, rfl⟩ | ⟨hm, hs, ht, hback⟩
  · exact .inl ⟨hbare, rfl⟩
  · exact .inr ⟨hm, ht, hs, hback.symm⟩

theorem self (h : Alike m s t) : Alike m s s := by
  rcases h with ⟨hbare, _⟩ | ⟨hm, hs, _, _⟩
  · exact .inl ⟨hbare, rfl⟩
  · exact .inr ⟨hm, hs, hs, rfl⟩

theorem trans {v : Screen} (h : Alike m s t) (h' : Alike m t v) : Alike m s v := by
  rcases h with ⟨_, rfl⟩ | ⟨hm, hs, ht, hback⟩
  · exact h'
  · rcases h' with ⟨hbare, _⟩ | ⟨_, _, hv, hback'⟩
    · exact absurd ht.fitted.ready (ne_true_of_eq_false hbare)
    · exact .inr ⟨hm, hs, hv, hback.trans hback'⟩

theorem same (h : Alike m s t) :
    s.mode = t.mode ∧ s.backbufferReady = t.backbufferReady ∧ s.target = t.target := by
  refine ⟨?_, ?_, h.target⟩
  all_goals rcases h with ⟨_, rfl⟩ | ⟨_, hs, ht, _⟩
  · rfl
  · rw [hs.fitted.mode, ht.fitted.mode]
  · rfl
  · rw [hs.fitted.ready, ht.fitted.ready]

theorem present (h : Alike m s t) : Alike m s.maybePresentPending t := by
  rcases h with ⟨hbare, rfl⟩ | ⟨hm, hs, ht, hback⟩
  · rw [hbare.maybePresentPending_eq]
    exact .inl ⟨hbare, rfl⟩
  · exact .inr ⟨hm, hs.maybePresent hm, ht, (maybePresentPending_back s).trans hback⟩

theorem fillAndNote (h : Alike m s t) (r : ColorRect) :
    Alike m (s.fillAndNote r) (t.fillAndNote r) := by
  rcases h with ⟨hbare, rfl⟩ | ⟨hm, hs, ht, hback⟩
  · exact .inl ⟨hbare.fillAndNote r, rfl⟩
  · exact .inr ⟨hm, hs.fillAndNote hm r, ht.fillAndNote hm r,
      fillAndNote_back hm hs.fitted ht.fitted hback r⟩

theorem fillRect (h : Alike m s t) (r : ColorRect) :
    Alike m (s.videoFillRect r) (t.videoFillRect r) := by
  by_cases hpos : 0 < r.rect.w ∧ 0 < r.rect.h
  · rw [videoFillRect_eq hpos.1 hpos.2, videoFillRect_eq hpos.1 hpos.2]
    exact (h.fillAndNote r).present.symm.present.symm
  · have hskip : ∀ s : Screen, s.videoFillRect r = s := fun s => if_pos (by omega)
    rw [hskip, hskip]
    exact h

theorem rect (h : Alike m s t) (background : Bool) (r : ColorRect) :
    Alike m (gfxRect background s r).1 (gfxRect background t r).1 := by
  unfold gfxRect
  split
  · exact h
  · exact h.fillRect r

theorem drawText (h : Alike m s s) (font : Font) (x y : Int) (text : List UInt8) (fg bg : UInt32)
    (clip : Rect) (flags : UInt32) (fullGlyphs : Bool) :
    Alike m (videoDrawTextImpl font s x y text fg bg clip flags fullGlyphs).1
      (videoDrawTextImpl font s x y text fg bg clip flags fullGlyphs).1 := by
  rcases h with ⟨hbare, _⟩ | ⟨hm, hs, _, _⟩
  · exact .refl (.inl (hbare.drawText x y text clip flags fullGlyphs))
  · exact .refl (.inr ⟨hm, hs.drawText hm x y text clip flags fullGlyphs⟩)

/-- A batch that is accepted, and its rectangles one by one. -/
theorem batch (h : Alike m s t) {background : Bool} {rects : List ColorRect}
    (hok : 0 < (gfxRectBatch background s rects).2) :
    Alike m (gfxRectBatch background s rects).1
      (rects.foldl (fun t r => (gfxRect background t r).1) t) := by
  unfold gfxRectBatch at hok ⊢
  split at hok
  · exact absurd hok (Int.lt_irrefl 0)
  rename_i hin
  rw [if_neg hin]
  split at hok
  · rename_i hall
    rw [if_pos hall]
    simp only [not_or, not_lt, Bool.not_eq_true] at hin
    simp only [List.all_eq_true, decide_eq_true_eq] at hall
    have hone : ∀ r ∈ rects, ∀ s t, Alike m s t →
        Alike m (s.fillAndNote r) (gfxRect background t r).1 := by
      intro r hr s t h
      have hvalid := hall r hr
      unfold gfxRect
      rw [if_neg (by simp [hin.1, hvalid.legacySafe]),
        videoFillRect_eq hvalid.solid.1 hvalid.solid.2]
      exact (h.fillAndNote r).symm.present.symm
    unfold videoFillRectBatch
    rw [if_neg (by
      simp only [hin.2.1, false_or, List.any_eq_true, decide_eq_true_eq, not_exists, not_and]
      intro r hr hno
      have := (hall r hr).solid
      omega)]
    exact (List.foldl_rel (r := Alike m) h hone).present
  · exact absurd hok (Int.lt_irrefl 0)

end Alike

theorem alike_run (font : Font) {m : Mode} (hgraphics : m.Graphics) (back front : Int → Int → UInt32)
    (calls : List Call) : Alike m (calls.foldl (Call.run font) (initVideo m back front))
      (calls.foldl (Call.run font) (initVideo m back front)) := by
  refine .refl ?_
  cases hroomy : m.roomy with
  | false =>
    exact .inl (List.foldlRecOn calls (Call.run font) (bare_initVideo hroomy back front)
      (fun _ h c _ => h.step font c))
  | true =>
    obtain ⟨hwidth, hheight, _, _⟩ := hgraphics
    have hm : Roomy m := ⟨by omega, by omega, hroomy⟩
    exact .inr ⟨hm, List.foldlRecOn calls (Call.run font) (follows_initVideo hm back front)
      (fun _ h c _ => h.step hm font c)⟩

theorem gfxRectBatch_refused {background : Bool} {rects : List ColorRect}
    (hno : ¬ 0 < (gfxRectBatch background s rects).2) :
    (gfxRectBatch background s rects).1 = s := by
  unfold gfxRectBatch at hno ⊢
  split
  · rfl
  rename_i hin
  rw [if_neg hin] at hno
  split
  · rename_i hall
    rw [if_pos hall] at hno
    unfold videoFillRectBatch at hno ⊢
    split
    · rfl
    · rename_i hok
      rw [if_neg hok] at hno
      exact absurd Int.one_pos hno
  · rfl

end Video
end MiniDos
