import MiniDos.Ui.Paint
import MiniDos.Video.Scale

/-!
# MiniDos.Ui.Draws

Pictures on the drawing target, with a backbuffer or without one.

* `Draws`: a screen with a picture drawn on it. `Draws.foldl`: a loop draws the pictures of its turns,
  one after the other.
* `draws_inkText`: the loops of `video_draw_text_impl` draw the text.
* `draws_gfxRect`, `draws_textAt`, `draws_textArea`: the calls.
-/

namespace MiniDos
namespace Ui

open Video Plane Picture

/-- On the screen, `s'` is `s` with the picture drawn. -/
structure Draws (p : Canvas) (s s' : Screen) : Prop where
  mode : s'.mode = s.mode
  ready : s'.backbufferReady = s.backbufferReady
  target : ∀ x y, s'.target x y =
    ((cut (screenRect s.mode.width s.mode.height) p x y).map s.onTarget).getD (s.target x y)

namespace Draws

variable {p q : Canvas} {s s' s'' : Screen}

theorem onTarget (h : Draws p s s') (rgb : UInt32) : s'.onTarget rgb = s.onTarget rgb := by
  rw [Screen.onTarget, Screen.onTarget, h.mode, h.ready]

theorem nothing (s : Screen) : Draws blank s s := by
  refine ⟨rfl, rfl, fun x y => ?_⟩
  rw [cut, blank, ite_self]
  rfl

theorem congr (h : Draws p s s')
    (hpq : ∀ x y, (screenRect s.mode.width s.mode.height).Has x y → p x y = q x y) : Draws q s s' := by
  refine ⟨h.mode, h.ready, fun x y => ?_⟩
  rw [h.target, cut, cut]
  split
  · rename_i hin
    rw [hpq x y hin]
  · rfl

theorem trans (h : Draws p s s') (h' : Draws q s' s'') : Draws (fun x y => (q x y).or (p x y)) s s'' := by
  refine ⟨h'.mode.trans h.mode, h'.ready.trans h.ready, fun x y => ?_⟩
  rw [h'.target, h.target, h.mode, funext h.onTarget, cut, cut, cut]
  split
  · cases q x y <;> rfl
  · rfl

theorem of_target (h : Draws p s s') (hmode : s''.mode = s'.mode)
    (hready : s''.backbufferReady = s'.backbufferReady) (htarget : s''.target = s'.target) : Draws p s s'' :=
  ⟨hmode.trans h.mode, hready.trans h.ready, fun x y => (congrFun₂ htarget x y).trans (h.target x y)⟩

theorem foldl {α σ : Type} {screen : σ → Screen} {I : σ → Prop} {f : σ → α → σ} {pic : α → Canvas}
    {l : List α} (hf : ∀ t a, I t → a ∈ l → I (f t a) ∧ Draws (pic a) (screen t) (screen (f t a)))
    {t : σ} (ht : I t) :
    I (l.foldl f t) ∧ Draws (stack (l.map pic)) (screen t) (screen (l.foldl f t)) := by
  induction l generalizing t with
  | nil => exact ⟨ht, nothing _⟩
  | cons a l ih =>
    obtain ⟨hnext, hstep⟩ := hf t a ht List.mem_cons_self
    obtain ⟨hlast, hrest⟩ := ih (fun t b ht hb => hf t b ht (List.mem_cons_of_mem a hb)) hnext
    exact ⟨hlast, hstep.trans hrest⟩

theorem of_shows {R : Int → Int → Prop} {r : Rect} {rgb : UInt32} (h : Shows R (fun _ _ => rgb) s s')
    (hR : ∀ x y, R x y ↔ r.Has x y ∧ (screenRect s.mode.width s.mode.height).Has x y) :
    Draws (fill r rgb) s s' := by
  refine ⟨h.mode, h.ready, fun x y => ?_⟩
  rw [cut, fill]
  by_cases hin : R x y
  · obtain ⟨hr, hscreen⟩ := (hR x y).mp hin
    rw [if_pos hscreen, if_pos hr, h.inside x y hin]
    rfl
  · rw [h.outside x y hin]
    rw [hR, not_and] at hin
    split
    · rename_i hscreen
      rw [if_neg (fun hr => hin hr hscreen)]
      rfl
    · rfl

end Draws

variable {m : Mode} {s : Screen}

/-! ## Rectangles -/

theorem draws_fillRect (h : Alike m s s) {c : Screen.ColorRect} (hw : 0 < c.rect.w) (hh : 0 < c.rect.h)
    (hx : FitsInt (c.rect.x + c.rect.w)) (hy : FitsInt (c.rect.y + c.rect.h)) :
    Draws (fill c.rect c.rgb) s (s.videoFillRect c) :=
  .of_shows (shows_fillRect h hw hh hx hy) (fun _ _ => Iff.rfl)

theorem draws_gfxRect (h : Alike m s s) {r : Rect} (hx : FitsInt r.x) (hy : FitsInt r.y) (color : UInt32) :
    Draws (fillRect r color) s (gfxRect false s ⟨r, color⟩).1 := by
  unfold FitsInt at hx hy
  by_cases hsafe : GfxLegacyRectSafe r
  · have hcall : (gfxRect false s ⟨r, color⟩).1 = s.videoFillRect ⟨r, color⟩ := by
      unfold gfxRect
      rw [if_neg (by simp [hsafe])]
    rw [hcall, fillRect]
    by_cases hempty : r.w ≤ 0 ∨ r.h ≤ 0
    · rw [if_pos (by tauto), Screen.videoFillRect, if_pos hempty]
      exact .nothing s
    · rw [if_neg (by tauto)]
      unfold GfxLegacyRectSafe at hsafe
      exact @draws_fillRect m s h ⟨r, color⟩ (Int.not_le.mp (fun hw => hempty (.inl hw)))
        (Int.not_le.mp (fun hh => hempty (.inr hh))) (by unfold FitsInt; dsimp only; omega)
        (by unfold FitsInt; dsimp only; omega)
  · have hcall : (gfxRect false s ⟨r, color⟩).1 = s := by
      unfold gfxRect
      rw [if_pos (.inr hsafe)]
    rw [hcall, fillRect, if_pos (.inr (.inr hsafe))]
    exact .nothing s

/-! ## Glyphs -/

section Glyphs

variable {font : Font} {clip : Rect} {fg bg : UInt32} {transparent : Bool} {ink : Ink}

/-- What the loops keep: drawing goes where it went, and the clip rectangle is on the screen. -/
structure Inking (m : Mode) (clip : Rect) (ink : Ink) : Prop where
  drawable : Drawable m ink.screen
  clip : (screenRect ink.screen.mode.width ink.screen.mode.height).Covers clip

def bitColor (fg bg : UInt32) (transparent : Bool) (bits : UInt8) (gx : Nat) : Option UInt32 :=
  if bits &&& ((1 : UInt8) <<< (7 - gx.toUInt8)) ≠ 0 then some fg
  else if transparent then none else some bg

/-- Pixel `gx` of a row of a glyph. -/
def bitPic (clip : Rect) (fg bg : UInt32) (transparent : Bool) (bits : UInt8) (x y : Int) (gx : Nat) :
    Canvas :=
  fun px py =>
    if px = x + gx ∧ py = y ∧ clip.Has px py then bitColor fg bg transparent bits gx else none

theorem draws_inkPixel (h : Inking m clip ink) (bits : UInt8) {x y : Int} {gx : Nat}
    (hx : FitsInt (x + gx)) :
    Inking m clip (inkPixel clip fg bg transparent bits x y ink gx) ∧
      Draws (bitPic clip fg bg transparent bits x y gx) ink.screen
        (inkPixel clip fg bg transparent bits x y ink gx).screen := by
  unfold inkPixel
  rw [int32_of_fits hx]
  dsimp only
  split
  · rename_i hskip
    refine ⟨h, (Draws.nothing _).congr (fun px py _ => ?_)⟩
    symm
    rw [bitPic]
    split
    · rename_i hin
      obtain ⟨rfl, rfl, hclip⟩ := hin
      obtain ⟨hbit, htransparent⟩ := hskip.resolve_left (not_not.mpr hclip)
      rw [bitColor, if_neg hbit, if_pos htransparent]
      rfl
    · rfl
  · rename_i hdraw
    rw [not_or, not_not] at hdraw
    obtain ⟨hclip, hbit⟩ := hdraw
    have hscreen := h.clip.has hclip
    generalize hcolor : (if bits &&& (1 : UInt8) <<< (7 - gx.toUInt8) ≠ 0 then fg else bg) = color
    obtain ⟨hdrawable, hshows⟩ := shows_drawPixel h.drawable hscreen color
    refine ⟨⟨hdrawable, ?_⟩, ?_⟩
    · dsimp only
      rw [hshows.mode]
      exact h.clip
    · refine (Draws.of_shows (r := ⟨x + gx, y, 1, 1⟩) hshows (fun px py => ?_)).congr (fun px py _ => ?_)
      · rw [screenRect_has] at hscreen ⊢
        unfold Rect.Has Rect.right Rect.bottom
        dsimp only
        omega
      · have hpixel : (⟨x + gx, y, 1, 1⟩ : Rect).Has px py ↔ px = x + gx ∧ py = y ∧ clip.Has px py := by
          constructor
          · intro hin
            unfold Rect.Has Rect.right Rect.bottom at hin
            dsimp only at hin
            obtain ⟨rfl, rfl⟩ : px = x + gx ∧ py = y := by omega
            exact ⟨rfl, rfl, hclip⟩
          · rintro ⟨rfl, rfl, _⟩
            unfold Rect.Has Rect.right Rect.bottom
            dsimp only
            omega
        rw [fill, bitPic]
        simp only [hpixel]
        split
        · rw [bitColor, ← hcolor]
          split
          · rfl
          · rename_i hblank
            rw [if_neg (fun htransparent => hbit ⟨hblank, htransparent⟩)]
        · rfl

def rowPic (font : Font) (clip : Rect) (fg bg : UInt32) (transparent : Bool) (c : UInt8) (x y : Int)
    (gy : Nat) : Canvas :=
  fun px py =>
    if (x ≤ px ∧ px < x + 8) ∧ py = y + gy ∧ clip.Has px py then
      bitColor fg bg transparent (font c gy) (px - x).toNat
    else none

theorem draws_inkRow (h : Inking m clip ink) (c : UInt8) {x y : Int} {gy : Nat} (hx : FitsInt x)
    (hx' : FitsInt (x + 8)) (hy : FitsInt (y + gy)) :
    Inking m clip (inkRow font clip fg bg transparent c x y ink gy) ∧
      Draws (rowPic font clip fg bg transparent c x y gy) ink.screen
        (inkRow font clip fg bg transparent c x y ink gy).screen := by
  unfold inkRow
  rw [int32_of_fits hy]
  have hstep : ∀ (t : Ink) (gx : Nat), Inking m clip t → gx ∈ List.range 8 →
      Inking m clip (inkPixel clip fg bg transparent (font c gy) x (y + gy) t gx) ∧
        Draws (bitPic clip fg bg transparent (font c gy) x (y + gy) gx) t.screen
          (inkPixel clip fg bg transparent (font c gy) x (y + gy) t gx).screen := by
    intro t gx ht hgx
    refine draws_inkPixel ht (font c gy) ?_
    have hlt := List.mem_range.mp hgx
    unfold FitsInt at *
    omega
  refine (Draws.foldl hstep h).imp_right (fun hdraws => hdraws.congr (fun px py _ => ?_))
  rw [rowPic]
  refine stack_of_agree (List.forall_mem_map.mpr (fun gx hgx => ?_)) (fun hsome => ?_)
  · rw [List.mem_range] at hgx
    rw [bitPic]
    split
    · rename_i hin
      obtain ⟨rfl, rfl, hclip⟩ := hin
      rw [if_pos ⟨by omega, rfl, hclip⟩, add_sub_cancel_left, Int.toNat_natCast]
      exact .inr rfl
    · exact .inl rfl
  · split at hsome
    · rename_i hin
      refine ⟨_, List.mem_map.mpr ⟨(px - x).toNat, List.mem_range.mpr (by omega), rfl⟩, ?_⟩
      rw [bitPic, if_pos ⟨by omega, hin.2⟩, if_pos hin]
    · exact absurd rfl hsome

theorem stack_rowPic (c : UInt8) (x y px py : Int) :
    stack ((List.range 8).map (rowPic font clip fg bg transparent c x y)) px py =
      glyphPic font clip fg bg transparent (c, x, y) px py := by
  have hcell : (cellRect (c, x, y)).Has px py ∧ clip.Has px py ↔
      (x ≤ px ∧ px < x + 8) ∧ (y ≤ py ∧ py < y + 8) ∧ clip.Has px py := by
    unfold cellRect Rect.Has Rect.right Rect.bottom fontW fontH
    tauto
  rw [glyphPic]
  simp only [hcell]
  have hcolor : ∀ gy : Nat, py = y + gy → bitColor fg bg transparent (font c gy) (px - x).toNat =
      glyphColor font fg bg transparent (c, x, y) px py := by
    rintro gy rfl
    simp only [bitColor, glyphColor, inked, decide_eq_true_eq, add_sub_cancel_left, Int.toNat_natCast]
  refine stack_of_agree (List.forall_mem_map.mpr (fun gy hgy => ?_)) (fun hsome => ?_)
  · rw [List.mem_range] at hgy
    rw [rowPic]
    split
    · rename_i hin
      rw [if_pos ⟨hin.1, by omega, hin.2.2⟩]
      exact .inr (hcolor gy hin.2.1)
    · exact .inl rfl
  · split at hsome
    · rename_i hin
      refine ⟨_, List.mem_map.mpr ⟨(py - y).toNat, List.mem_range.mpr (by omega), rfl⟩, ?_⟩
      rw [rowPic, if_pos ⟨hin.1, by omega, hin.2.2⟩, if_pos hin]
      exact hcolor _ (by omega)
    · exact absurd rfl hsome

theorem draws_inkGlyph (h : Inking m clip ink) (c : UInt8) {x y : Int} (hx : FitsInt x)
    (hx' : FitsInt (x + 8)) (hy : FitsInt y) (hy' : FitsInt (y + 8)) :
    Inking m clip (inkGlyph font clip fg bg transparent c x y ink) ∧
      Draws (glyphPic font clip fg bg transparent (c, x, y)) ink.screen
        (inkGlyph font clip fg bg transparent c x y ink).screen := by
  unfold inkGlyph
  have hstep : ∀ (t : Ink) (gy : Nat), Inking m clip t → gy ∈ List.range 8 →
      Inking m clip (inkRow font clip fg bg transparent c x y t gy) ∧
        Draws (rowPic font clip fg bg transparent c x y gy) t.screen
          (inkRow font clip fg bg transparent c x y t gy).screen := by
    intro t gy ht hgy
    refine draws_inkRow ht c hx hx' ?_
    have hlt := List.mem_range.mp hgy
    unfold FitsInt at *
    omega
  exact (Draws.foldl hstep h).imp_right (fun hdraws => hdraws.congr (fun px py _ => stack_rowPic c x y px py))

/-- A text that is far from the ends of an `int`. -/
theorem draws_inkText (startX : Int) (fullGlyphs : Bool) (text : List UInt8) :
    ∀ (x y : Int) (ink : Ink), Inking m clip ink →
      -(2 ^ 20) ≤ startX ∧ startX + 8 * text.length ≤ 2 ^ 20 →
      -(2 ^ 20) ≤ x ∧ x + 8 * text.length ≤ 2 ^ 20 →
      -(2 ^ 20) ≤ y ∧ y + 8 * text.length ≤ 2 ^ 20 →
        Draws (stack (((textCells startX text x y).filter (glyphShown clip fullGlyphs)).map
            (glyphPic font clip fg bg transparent))) ink.screen
          (inkText font clip fg bg transparent startX fullGlyphs text x y ink).screen := by
  induction text with
  | nil => exact fun _ _ ink _ _ _ _ => .nothing ink.screen
  | cons c text ih =>
    intro x y ink hink hstart hx hy
    simp only [List.length_cons] at hstart hx hy
    push_cast at hstart hx hy
    simp only [inkText, textCells]
    split
    · have hnext : int32 (y + fontH) = y + fontH := int32_small (by unfold fontH; omega)
      rw [hnext]
      exact ih _ _ ink hink (by omega) (by omega) (by unfold fontH; omega)
    · have hnext : int32 (x + fontW) = x + fontW := int32_small (by unfold fontW; omega)
      rw [hnext]
      have hfits : GlyphFits clip x y ↔ clip.Covers (cellRect (c, x, y)) := by
        unfold GlyphFits
        rw [hnext, int32_small (by unfold fontH; omega)]
        rfl
      by_cases hskip : fullGlyphs = true ∧ ¬ GlyphFits clip x y
      · rw [if_pos hskip, List.filter_cons_of_neg (by simp [glyphShown, hskip.1, ← hfits, hskip.2])]
        exact ih _ _ ink hink (by omega) (by unfold fontW; omega) (by omega)
      · rw [hfits, not_and, not_not] at hskip
        have hkeep : glyphShown clip fullGlyphs (c, x, y) = true := by
          cases fullGlyphs with
          | false => rfl
          | true => simpa [glyphShown] using hskip rfl
        rw [if_neg (by rwa [hfits, not_and, not_not]), List.filter_cons_of_pos hkeep, List.map_cons]
        obtain ⟨hnextInk, hglyph⟩ := @draws_inkGlyph m font clip fg bg transparent ink hink c x y
          (by unfold FitsInt; omega) (by unfold FitsInt; omega) (by unfold FitsInt; omega)
          (by unfold FitsInt; omega)
        exact hglyph.trans (ih _ _ _ hnextInk (by omega) (by unfold fontW; omega) (by omega))

end Glyphs

/-! ## Text -/

section Text

variable {font : Font} {fg bg : UInt32} {clip area visible : Rect} {x y : Int} {text : List UInt8}

theorem noteInk_same (ink : Ink) : (noteInk ink).mode = ink.screen.mode ∧
    (noteInk ink).backbufferReady = ink.screen.backbufferReady ∧
    (noteInk ink).target = ink.screen.target := by
  unfold noteInk
  split <;> exact ⟨rfl, rfl, rfl⟩

theorem alike_noteInk (h : Alike m s s) (hvisible : clipRect s.mode.width s.mode.height area = some visible)
    (transparent fullGlyphs : Bool) :
    Alike m (noteInk (inkText font visible fg bg transparent x fullGlyphs text x y ⟨s, none⟩))
      (noteInk (inkText font visible fg bg transparent x fullGlyphs text x y ⟨s, none⟩)) := by
  rcases h with ⟨hbare, _⟩ | ⟨hm, hs, _, _⟩
  · refine .refl (.inl ?_)
    rw [Bare, (noteInk_same _).2.1]
    exact Bare.inkText x fullGlyphs text x y hbare
  · have hstart : Inked visible s ⟨s, none⟩ := by
      refine ⟨.refl _ s, fun box hb => ?_⟩
      cases hb
    rw [hs.fitted.mode] at hvisible
    exact .refl (.inr ⟨hm, hs.noteInk hm (clipRect_onScreen hvisible).2
      (hstart.text hm hs.fitted x fullGlyphs text x y)⟩)

/-- `VIDEO_TEXT_TRANSPARENT_BG`, or not. -/
def textFlags (transparent : Bool) : UInt32 := if transparent then textTransparentBg else 0

theorem drawTextImpl_eq (hclip : textClip s.mode.width s.mode.height clip = some area)
    (transparent fullGlyphs : Bool) :
    videoDrawTextImpl font s x y text fg bg clip (textFlags transparent) fullGlyphs =
      ((clipRect s.mode.width s.mode.height area).elim s (fun visible =>
        (noteInk (inkText font visible fg bg transparent x fullGlyphs text x y
          ⟨s, none⟩)).maybePresentPending), true) := by
  have hflag : decide (textFlags transparent &&& textTransparentBg ≠ 0) = transparent := by
    cases transparent <;> decide
  unfold videoDrawTextImpl
  rw [if_neg (by cases transparent <;> decide), hclip, hflag]
  cases hvisible : clipRect s.mode.width s.mode.height area with
  | none => simp [hvisible]
  | some visible => simp [hvisible]

theorem draws_textImpl (h : Alike m s s) (transparent fullGlyphs : Bool)
    (hclip : textClip s.mode.width s.mode.height clip = some area)
    (hvisible : clipRect s.mode.width s.mode.height area = some visible)
    (hx : -(2 ^ 16) ≤ x ∧ x ≤ 2 ^ 17) (hy : -(2 ^ 16) ≤ y ∧ y ≤ 2 ^ 17)
    (hlen : text.length + 1 < appUserTextMax) :
    Draws (textPic font visible fg bg transparent fullGlyphs x y text) s
      (videoDrawTextImpl font s x y text fg bg clip (textFlags transparent) fullGlyphs).1 := by
  rw [drawTextImpl_eq hclip, hvisible, Option.elim_some]
  unfold appUserTextMax at hlen
  obtain ⟨hmode, hready, htarget⟩ := (@alike_noteInk m s font fg bg area visible x y text h hvisible
    transparent fullGlyphs).presented
  obtain ⟨hmode', hready', htarget'⟩ := noteInk_same
    (inkText font visible fg bg transparent x fullGlyphs text x y ⟨s, none⟩)
  have hstart : Inking m visible ⟨s, none⟩ := ⟨h.drawable, (clipRect_onScreen hvisible).2⟩
  exact (draws_inkText x fullGlyphs text x y _ hstart (by omega) (by omega) (by omega)).of_target
    (hmode.trans hmode') (hready.trans hready') (htarget.trans htarget')

theorem clipRect_screen {width height : Int} (hw : 0 < width ∧ width < 2 ^ 31)
    (hh : 0 < height ∧ height < 2 ^ 31) :
    textClip width height (screenRect width height) = some (screenRect width height) ∧
      clipRect width height (screenRect width height) = some (screenRect width height) := by
  have hx : int32 (0 + width) = width := (int32_small (by omega)).trans (zero_add _)
  have hy : int32 (0 + height) = height := (int32_small (by omega)).trans (zero_add _)
  constructor
  · unfold textClip screenRect
    dsimp only
    rw [if_neg (by omega), if_neg (by omega)]
  · simp only [clipRect, screenRect, hx, hy, clipLow, clipHigh, lt_irrefl, if_false]
    rw [if_neg (by omega)]
    simp [Rect.ofCorners]

variable {d : Display}

theorem draws_textAt (h : Alike m s s) (hw : d.width = s.mode.width) (hh : d.height = s.mode.height)
    (hwide : 0 < d.width ∧ d.width < 2 ^ 31) (hhigh : 0 < d.height ∧ d.height < 2 ^ 31)
    (hx : clipHigh d.width (clipLow x) ≤ 2 ^ 17) (hy : clipHigh d.height (clipLow y) ≤ 2 ^ 17)
    (hlen : text.length + 1 < appUserTextMax) :
    Draws (drawText d x y text fg bg) s (videoDrawTextAt d.font s x y text fg bg) := by
  obtain ⟨hclip, hvisible⟩ := clipRect_screen hwide hhigh
  have hlow : ∀ limit n : Int, 0 < limit → 0 ≤ clipHigh limit (clipLow n) := by
    intro limit n hlimit
    unfold clipHigh clipLow
    split <;> split <;> omega
  have hposX := hlow d.width x hwide.1
  have hposY := hlow d.height y hhigh.1
  rw [hw, hh] at hclip hvisible
  unfold videoDrawTextAt drawText Display.screen
  rw [if_neg (by omega), hw, hh]
  rw [hw] at hx hposX
  rw [hh] at hy hposY
  exact draws_textImpl h false true hclip hvisible (by omega) (by omega) hlen

theorem glyphs_visible {px py : Int} {transparent : Bool} (h : visible.Has px py ↔ clip.Has px py)
    (cells : List (UInt8 × Int × Int)) :
    stack (cells.map (glyphPic font visible fg bg transparent)) px py =
      stack (cells.map (glyphPic font clip fg bg transparent)) px py := by
  induction cells with
  | nil => rfl
  | cons cell cells ih =>
    simp only [List.map_cons, stack_cons, ih, glyphPic, h]

theorem textPic_all {transparent : Bool} : textPic font clip fg bg transparent false x y text =
    stack ((textCells x text x y).map (glyphPic font clip fg bg transparent)) := by
  have hshown : (textCells x text x y).filter (glyphShown clip false) = textCells x text x y :=
    List.filter_eq_self.mpr (fun _ _ => rfl)
  unfold textPic
  rw [hshown]

theorem textClip_valid (h : GfxRectValid clip) (width height : Int) :
    textClip width height clip = some clip := by
  obtain ⟨hcx, hcy⟩ := h
  unfold GfxExtentValid at hcx hcy
  unfold textClip
  rw [if_neg (by omega), if_neg (by omega)]

/-- `video_draw_text_clipped`, from a position that `MINIDOS_SYSCALL_GFX_TEXT_CLIPPED` accepts. -/
theorem draws_textArea (h : Alike m s s) (transparent : Bool)
    (hclip : textClip s.mode.width s.mode.height clip = some area) (hright : FitsInt area.right)
    (hbottom : FitsInt area.bottom) (hx : GfxPositionValid x) (hy : GfxPositionValid y)
    (hlen : text.length + 1 < appUserTextMax) :
    Draws (textPic font area fg bg transparent false x y text) s
      (videoDrawTextClipped font s x y text fg bg clip (textFlags transparent)).1 := by
  have hhas : ∀ px py, (∃ c, clipRect s.mode.width s.mode.height area = some c ∧ c.Has px py) ↔
      area.Has px py ∧ (screenRect s.mode.width s.mode.height).Has px py :=
    fun px py => clipRect_has hright hbottom
  unfold GfxPositionValid appGfxCoordLimit at hx hy
  unfold videoDrawTextClipped
  cases hvisible : clipRect s.mode.width s.mode.height area with
  | some visible =>
    refine (draws_textImpl h transparent false hclip hvisible (by omega) (by omega) hlen).congr ?_
    intro px py hp
    have hin : visible.Has px py ↔ area.Has px py := by
      have := hhas px py
      rw [hvisible] at this
      simpa [hp] using this
    rw [textPic_all, textPic_all, glyphs_visible hin]
  | none =>
    -- nothing of it is on the screen
    rw [drawTextImpl_eq hclip, hvisible, Option.elim_none]
    refine (Draws.nothing s).congr (fun px py hp => ?_)
    have hno : ¬ area.Has px py := by
      intro hin
      obtain ⟨_, hsome, _⟩ := (hhas px py).mpr ⟨hin, hp⟩
      rw [hvisible] at hsome
      cases hsome
    rw [textPic_all]
    exact (stack_eq_none.mpr (List.forall_mem_map.mpr (fun cell _ => if_neg (fun h => hno h.2)))).symm

end Text

end Ui
end MiniDos
