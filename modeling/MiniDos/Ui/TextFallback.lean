import MiniDos.Lib.Scan
import MiniDos.Ui.Batch
import MiniDos.Ui.Draws
import MiniDos.User.Calls

/-!
# MiniDos.Ui.TextFallback

Clipped text of `ui_draw.h`: by `MINIDOS_SYSCALL_GFX_TEXT_CLIPPED`, or cell by cell when that call is
refused.

* `Leaves`: what a flush will leave of the calls so far. `Leaves.foldl`: a loop.
* `stack_runs`: the runs of set bits of a row are its set bits.
* `appGfxTextClipped_draws`: the picture of the call; `leaves_refusedClipped` and
  `leaves_refusedTransparent`: what is drawn without it.
-/

namespace MiniDos
namespace Ui

open Video Plane Picture Scan
open Files (Task userRangeValid)

/-! ## The calls -/

section Calls

variable (font : Font) (background : Bool)

/-- `MINIDOS_SYSCALL_GFX_TEXT`, from where the request is copied in. -/
def gfxText (s : Screen) (x y : Int) (text : List UInt8) (fg bg : UInt32) : Screen × Int :=
  if background = true ∨ appUserTextMax ≤ text.length + 1 then (s, 0)
  else (videoDrawTextAt font s x y text fg bg, 1)

/-- `MINIDOS_SYSCALL_GFX_TEXT_CLIPPED`, from where the request is copied in. -/
def gfxTextClipped (s : Screen) (x y : Int) (text : List UInt8) (fg bg : UInt32) (clip : Rect)
    (flags : UInt32) : Screen × Int :=
  if background = true ∨ flags &&& ~~~textTransparentBg ≠ 0 ∨ ¬ GfxPositionValid x ∨ ¬ GfxPositionValid y ∨
      appUserTextMax ≤ text.length + 1 ∨ ¬ User.ClipValid clip then (s, 0)
  else
    let drawn := videoDrawTextClipped font s x y text fg bg clip flags
    (drawn.1, if drawn.2 then 1 else 0)

variable (api : Option Api)

def appGfxText (s : Screen) (x y : Int) (text : List UInt8) (fg bg : UInt32) : Screen × Int :=
  appSyscall api (fun s => gfxText font background s x y text fg bg) s

/-- What a kernel does for `MINIDOS_SYSCALL_GFX_TEXT_CLIPPED`. -/
abbrev TextClippedCall := Screen → Int → Int → List UInt8 → UInt32 → UInt32 → Rect → UInt32 → Screen × Int

def refuses : TextClippedCall := fun s _ _ _ _ _ _ _ => (s, 0)

def appGfxTextClipped (call : TextClippedCall) (s : Screen) (x y : Int) (text : List UInt8) (fg bg : UInt32)
    (clip : Rect) (flags : UInt32) : Screen × Int :=
  appSyscall api (fun s => call s x y text fg bg clip flags) s

end Calls

/-! ## The runtime -/

namespace Painter

variable (font uiFont : Font) (background : Bool) (api : Option Api)

/-- `ui_fill_rect`. -/
def fillRect (u : Painter) (r : Rect) (color : UInt32) : Painter :=
  if api = none ∨ r.w ≤ 0 ∨ r.h ≤ 0 then u else (enqueue background u api ⟨r, color⟩).1

/-- `ui_draw_text`. -/
def drawText (u : Painter) (x y : Int) (text : List UInt8) (fg bg : UInt32) : Painter :=
  if api = none then u
  else
    let u := (flush background u api).1
    { u with screen := (appGfxText font background api u.screen x y text fg bg).1 }

/-- The loop over the columns of a row: a rectangle for every run of columns that pass `lit`. -/
def drawRuns (u : Painter) (x py : Int) (lit : Nat → Bool) (fg : UInt32) : Painter :=
  (runs lit 8 8 0).foldl
    (fun u run => fillRect background api u ⟨int32 (x + run.1), py, (run.2 : Int) - run.1, 1⟩ fg) u

/-- A set bit between two sides. -/
def litBetween (c : UInt8) (row : Nat) (x left right : Int) (col : Nat) : Bool :=
  inked uiFont (uiFontChar c) col row && decide (left ≤ int32 (x + col)) && decide (int32 (x + col) < right)

/-- `ui_draw_char_cell_partially_clipped`. -/
def drawCharCellPartiallyClipped (u : Painter) (x y : Int) (c : UInt8) (fg bg : UInt32) (clip : Rect) :
    Painter :=
  let drawn := rectIntersect ⟨x, y, uiCharW, uiCharH⟩ clip
  if api = none ∨ rectIsEmpty drawn = true then u
  else
    (List.range 8).foldl
      (fun u (row : Nat) =>
        let py := int32 (y + row)
        if py < drawn.y ∨ int32 (drawn.y + drawn.h) ≤ py then u
        else drawRuns background api u x py (litBetween uiFont c row x drawn.x (int32 (drawn.x + drawn.w))) fg)
      (fillRect background api u drawn bg)

/-- One turn of the loop of `ui_draw_text_clipped`. -/
def drawTextClippedCell (x y : Int) (fg bg : UInt32) (clip : Rect) (u : Painter) (c : UInt8 × Nat) :
    Painter :=
  let cell : Rect := ⟨int32 (x + c.2 * uiCharW), y, uiCharW, uiCharH⟩
  if rectIsEmpty (rectIntersect cell clip) then u
  else if ¬ rectContainsRect clip cell then
    drawCharCellPartiallyClipped uiFont background api u cell.x cell.y c.1 fg bg clip
  else drawText font background api u cell.x cell.y [c.1] fg bg

/-- The loop of `ui_draw_text_clipped`. -/
def drawTextClippedCells (u : Painter) (x y : Int) (text : List UInt8) (fg bg : UInt32) (clip : Rect) :
    Painter :=
  text.zipIdx.foldl (drawTextClippedCell font uiFont background api x y fg bg clip) u

def drawTextClipped (call : TextClippedCall) (u : Painter) (x y : Int) (text : List UInt8) (fg bg : UInt32)
    (clip : Rect) : Painter :=
  if api = none ∨ rectIsEmpty clip = true then u
  else
    let u := (flush background u api).1
    let done := appGfxTextClipped api call u.screen x y text fg bg clip 0
    let u := { u with screen := done.1 }
    if 0 < done.2 then u else drawTextClippedCells font uiFont background api u x y text fg bg clip

/-- The loops over the rows and columns of a character, in `ui_draw_text_transparent_runs_clipped`. -/
def drawTransparentCell (x y : Int) (fg : UInt32) (clip : Rect) (u : Painter) (c : UInt8 × Nat) : Painter :=
  (List.range 8).foldl
    (fun u (row : Nat) =>
      let py := int32 (y + row)
      let left := int32 (x + c.2 * uiCharW)
      drawRuns background api u left py
        (fun col => litBetween uiFont c.1 row left clip.x (int32 (clip.x + clip.w)) col &&
          decide (clip.y ≤ py) && decide (py < int32 (clip.y + clip.h))) fg)
    u

/-- `ui_draw_text_transparent_runs_clipped`. -/
def drawTextTransparentRunsClipped (u : Painter) (x y : Int) (text : List UInt8) (fg : UInt32)
    (clip : Rect) : Painter :=
  if api = none ∨ rectIsEmpty clip = true then u
  else text.zipIdx.foldl (drawTransparentCell uiFont background api x y fg clip) u

def drawTextTransparentClipped (call : TextClippedCall) (u : Painter) (x y : Int) (text : List UInt8)
    (fg : UInt32) (clip : Rect) : Painter :=
  if api = none ∨ rectIsEmpty clip = true then u
  else
    let u := (flush background u api).1
    let done := appGfxTextClipped api call u.screen x y text fg 0 clip textTransparentBg
    let u := { u with screen := done.1 }
    if 0 < done.2 then u else drawTextTransparentRunsClipped uiFont background api u x y text fg clip

end Painter

/-! ## What is left after a flush -/

section Leaves

variable {background : Bool} {api : Option Api} {m : Mode} {s : Screen} {p q : Canvas} {u : Painter}
  {d : Display}

/-- An app whose calls do not reach the screen. -/
def Quiet (background : Bool) (api : Option Api) : Prop := background = true ∨ ¬ api.any Api.syscall = true

instance (background : Bool) (api : Option Api) : Decidable (Quiet background api) :=
  inferInstanceAs (Decidable (_ ∨ _))

/-- What reaches the screen of a picture. -/
def heard {α : Type} (background : Bool) (api : Option Api) (p : Pic α) : Pic α :=
  fun x y => if Quiet background api then none else p x y

theorem appGfxRect_quiet (hq : Quiet background api) (s : Screen) (r : Screen.ColorRect) :
    (appGfxRect background api s r).1 = s := by
  rw [appGfxRect, appSyscall]
  split
  · rename_i hcall
    rw [gfxRect, if_pos (.inl (hq.resolve_right (not_not.mpr hcall)))]
  · rfl

theorem appGfxText_quiet (hq : Quiet background api) (font : Font) (s : Screen) (x y : Int)
    (text : List UInt8) (fg bg : UInt32) : (appGfxText font background api s x y text fg bg).1 = s := by
  rw [appGfxText, appSyscall]
  split
  · rename_i hcall
    rw [gfxText, if_pos (.inl (hq.resolve_right (not_not.mpr hcall)))]
  · rfl

/-- With what is queued, the calls of an app have drawn the picture on `s`. -/
def Leaves (background : Bool) (api : Option Api) (m : Mode) (s : Screen) (p : Canvas) (u : Painter) : Prop :=
  ∃ t, Settled background m u t ∧ Draws (heard background api p) s t

namespace Leaves

theorem start (h : Alike m s s) (hempty : u.batch.rects = []) (hscreen : u.screen = s) :
    Leaves background api m s blank u := by
  refine ⟨s, ⟨by rw [hempty]; decide, fun hne => absurd hempty hne, by rwa [hscreen], ?_⟩,
    (Draws.nothing s).congr (fun x y _ => (ite_self _).symm)⟩
  rw [hempty, hscreen]
  exact h

theorem congr (h : Leaves background api m s p u)
    (hpq : ∀ x y, (screenRect s.mode.width s.mode.height).Has x y → p x y = q x y) :
    Leaves background api m s q u := by
  obtain ⟨t, hsettled, hdraws⟩ := h
  refine ⟨t, hsettled, hdraws.congr (fun x y hin => ?_)⟩
  rw [heard, heard, hpq x y hin]

theorem of_quiet (h : Leaves background api m s p u) (hq : Quiet background api) :
    Leaves background api m s q u := by
  obtain ⟨t, hsettled, hdraws⟩ := h
  refine ⟨t, hsettled, hdraws.congr (fun x y _ => ?_)⟩
  rw [heard, heard, if_pos hq, if_pos hq]

theorem of_none (h : Leaves background api m s p u) (hnone : api = none) : Leaves background api m s q u := by
  refine h.of_quiet (.inr ?_)
  rw [hnone]
  exact Bool.false_ne_true

theorem flushed (h : Leaves background api m s p u) (other : Option Api) :
    Draws (heard background api p) s (flush background u other).1.screen := by
  obtain ⟨t, hsettled, hdraws⟩ := h
  obtain ⟨hmode, hready, htarget⟩ :=
    ((flush_draws u other hsettled.screen hsettled.api).1.trans hsettled.alike).same
  exact hdraws.of_target hmode hready htarget

theorem foldl {α : Type} {f : Painter → α → Painter} {pic : α → Canvas} {l : List α}
    (hf : ∀ u p a, Leaves background api m s p u → a ∈ l →
      Leaves background api m s (fun x y => (pic a x y).or (p x y)) (f u a))
    (h : Leaves background api m s p u) :
    Leaves background api m s (fun x y => (stack (l.map pic) x y).or (p x y)) (l.foldl f u) := by
  induction l generalizing u p with
  | nil => exact h.congr (fun x y _ => rfl)
  | cons a l ih =>
    refine (ih (fun u p b h hb => hf u p b h (List.mem_cons_of_mem a hb))
      (hf u p a h List.mem_cons_self)).congr (fun x y _ => ?_)
    rw [List.map_cons, stack_cons, Option.or_assoc]

theorem step {v : Painter} {t t' : Screen} (ht : Draws (heard background api p) s t)
    (hsettled : Settled background m v t') (hquiet : Quiet background api → t' = t)
    (hdraws : ¬ Quiet background api → Draws q t t') :
    Leaves background api m s (fun x y => (q x y).or (p x y)) v := by
  refine ⟨t', hsettled, ?_⟩
  by_cases hq : Quiet background api
  · rw [hquiet hq]
    refine ht.congr (fun x y _ => ?_)
    rw [heard, heard, if_pos hq, if_pos hq]
  · refine (ht.trans (hdraws hq)).congr (fun x y _ => ?_)
    rw [heard, heard, if_neg hq, if_neg hq]

theorem fill (h : Leaves background api m s p u) {r : Rect} (hx : FitsInt r.x) (hy : FitsInt r.y)
    (color : UInt32) :
    Leaves background api m s (fun x y => (fillRect r color x y).or (p x y))
      (u.fillRect background api r color) := by
  obtain ⟨t, hsettled, hdraws⟩ := h
  unfold Painter.fillRect
  split
  · rename_i hskip
    by_cases hnone : api = none
    · exact of_none ⟨t, hsettled, hdraws⟩ hnone
    · refine congr ⟨t, hsettled, hdraws⟩ (fun x y _ => ?_)
      rw [fillRect, if_pos (by tauto)]
      rfl
  · refine step hdraws (hsettled.enqueue api ⟨r, color⟩) (fun hq => appGfxRect_quiet hq t _) (fun hq => ?_)
    rw [Quiet, not_or, not_not, Bool.not_eq_true] at hq
    rw [hq.1, appGfxRect, appSyscall, if_pos hq.2]
    exact draws_gfxRect hsettled.alike.symm.self hx hy color

theorem call (h : Leaves background api m s p u) {f : Screen → Screen}
    (hf : ∀ v : Screen, Alike m v v → v.mode = s.mode → Alike m (f v) (f v) ∧
      (Quiet background api → f v = v) ∧ (¬ Quiet background api → Draws q v (f v))) :
    Leaves background api m s (fun x y => (q x y).or (p x y))
      ⟨(flush background u api).1.batch, f (flush background u api).1.screen⟩ := by
  obtain ⟨t, hsettled, hdraws⟩ := h
  obtain ⟨halike, hempty⟩ := flush_draws u api hsettled.screen hsettled.api
  obtain ⟨hmode, hready, htarget⟩ := (halike.trans hsettled.alike).same
  have hflushed := hdraws.of_target hmode hready htarget
  have hself := halike.self
  generalize (flush background u api).1 = v at hself hflushed hempty ⊢
  obtain ⟨hafter, hquiet, hcall⟩ := hf v.screen hself hflushed.mode
  have hsettled' : Settled background m ⟨v.batch, f v.screen⟩ (f v.screen) := by
    refine ⟨by dsimp only; rw [hempty]; decide, fun hne => absurd hempty hne, hafter, ?_⟩
    dsimp only
    rw [hempty]
    exact hafter
  exact step hflushed hsettled' hquiet hcall

theorem text (h : Leaves background api m s p u) (hw : d.width = s.mode.width) (hh : d.height = s.mode.height)
    (hwide : 0 < d.width ∧ d.width < 2 ^ 31) (hhigh : 0 < d.height ∧ d.height < 2 ^ 31) {x y : Int}
    (hx : x ≤ 2 ^ 17) (hy : y ≤ 2 ^ 17) (c : UInt8) (fg bg : UInt32) :
    Leaves background api m s (fun px py => (drawText d x y [c] fg bg px py).or (p px py))
      (u.drawText d.font background api x y [c] fg bg) := by
  unfold Painter.drawText
  split
  · rename_i hnone
    exact h.of_none hnone
  refine h.call (f := fun v => (appGfxText d.font background api v x y [c] fg bg).1) (fun v hself hmode => ?_)
  have hbound : ∀ limit n : Int, n ≤ 2 ^ 17 → clipHigh limit (clipLow n) ≤ 2 ^ 17 := by
    intro limit n hn
    unfold clipHigh clipLow
    split <;> split <;> omega
  have hshort : [c].length + 1 < appUserTextMax := by
    simp [appUserTextMax]
  by_cases hq : Quiet background api
  · rw [appGfxText_quiet hq]
    exact ⟨hself, fun _ => rfl, fun hno => absurd hq hno⟩
  · have hcall : (appGfxText d.font background api v x y [c] fg bg).1 =
        videoDrawTextAt d.font v x y [c] fg bg := by
      rw [Quiet, not_or, not_not, Bool.not_eq_true] at hq
      rw [hq.1, appGfxText, appSyscall, if_pos hq.2, gfxText]
      exact congrArg Prod.fst (if_neg (by rw [not_or]; exact ⟨Bool.false_ne_true, by omega⟩))
    rw [hcall]
    exact ⟨hself.drawText _ _ _ _ _ _ _ _ _, fun hno => absurd hno hq, fun _ => draws_textAt hself
      (by rw [hmode, hw]) (by rw [hmode, hh]) hwide hhigh (hbound _ _ hx) (hbound _ _ hy) hshort⟩

end Leaves

/-! ## Glyphs -/

theorem fillRect_of_fits {r : Rect} (hw : 0 < r.w) (hh : 0 < r.h) (hx : FitsInt r.right)
    (hy : FitsInt r.bottom) (color : UInt32) : fillRect r color = fill r color := by
  rw [fillRect, if_neg]
  unfold FitsInt Rect.right at hx
  unfold FitsInt Rect.bottom at hy
  unfold GfxLegacyRectSafe
  omega

variable {font : Font} {c : UInt8} {x y : Int} {row : Nat} {R : Rect} {fg bg : UInt32} {lit : Nat → Bool}

/-- The runs of a row are its set bits, in the part `R` of the glyph. -/
theorem stack_runs (hR : FitsInt R.right) (hx : FitsInt x) (hy : FitsInt (y + row + 1))
    (hlit : ∀ col < 8, lit col = true ↔ inked font c col row = true ∧ R.Has (x + col) (y + row))
    (px py : Int) :
    stack ((runs lit 8 8 0).map (fun run => fillRect ⟨int32 (x + run.1), y + row, (run.2 : Int) - run.1, 1⟩ fg))
        px py = rowPic font R fg bg true c x y row px py := by
  have hpic : ∀ run ∈ runs lit 8 8 0, ∀ px py,
      fillRect ⟨int32 (x + run.1), y + row, (run.2 : Int) - run.1, 1⟩ fg px py =
        if (x + run.1 ≤ px ∧ px < x + run.2) ∧ py = y + row then some fg else none := by
    intro run hrun px py
    obtain ⟨_, hlt, hle, hall⟩ := runs_sound 8 0 run hrun
    have hfirst := ((hlit run.1 (by omega)).mp (hall run.1 (Nat.le_refl _) hlt)).2
    have hlast := ((hlit (run.2 - 1) (by omega)).mp (hall (run.2 - 1) (by omega) (by omega))).2
    unfold Rect.Has at hfirst hlast
    unfold FitsInt at hR hx hy
    rw [int32_of_fits (by unfold FitsInt; omega), fillRect_of_fits (by dsimp only; omega) Int.one_pos
      (by unfold FitsInt Rect.right; dsimp only; omega) (by unfold FitsInt Rect.bottom; dsimp only; omega), fill]
    refine if_congr ?_ rfl rfl
    unfold Rect.Has Rect.right Rect.bottom
    dsimp only
    omega
  have hcolor : ∀ col : Nat, bitColor fg bg true (font c row) col =
      if inked font c col row = true then some fg else none := by
    intro col
    simp only [bitColor, inked, decide_eq_true_eq, if_true]
  refine stack_of_agree (List.forall_mem_map.mpr (fun run hrun => ?_)) (fun hsome => ?_)
  · obtain ⟨_, hlt, hle, hall⟩ := runs_sound 8 0 run hrun
    rw [hpic run hrun]
    split
    · rename_i hin
      obtain ⟨⟨hlow, hhigh⟩, rfl⟩ := hin
      have hbit := (hlit (px - x).toNat (by omega)).mp (hall _ (by omega) (by omega))
      rw [Int.toNat_of_nonneg (by omega), add_sub_cancel] at hbit
      rw [rowPic, if_pos ⟨by omega, rfl, hbit.2⟩, hcolor, if_pos hbit.1]
      exact .inr rfl
    · exact .inl rfl
  · rw [rowPic] at hsome ⊢
    split at hsome
    · rename_i hin
      obtain ⟨hcols, rfl, hR⟩ := hin
      rw [hcolor] at hsome
      split at hsome
      · rename_i hbit
        have hpasses : lit (px - x).toNat = true := by
          rw [hlit _ (by omega), Int.toNat_of_nonneg (by omega), add_sub_cancel]
          exact ⟨hbit, hR⟩
        obtain ⟨run, hrun, hlow, hhigh⟩ := @runs_complete lit 8 8 0 (Nat.le_refl 8) (px - x).toNat
          (Nat.zero_le _) (by omega) hpasses
        refine ⟨_, List.mem_map.mpr ⟨run, hrun, rfl⟩, ?_⟩
        rw [hpic run hrun, if_pos ⟨by omega, rfl⟩, if_pos ⟨hcols, rfl, hR⟩, hcolor, if_pos hbit]
      · exact absurd rfl hsome
    · exact absurd rfl hsome

theorem Leaves.drawRuns (h : Leaves background api m s p u) (hR : FitsInt R.right)
    (hx : FitsInt x) (hy : FitsInt (y + row)) (hy' : FitsInt (y + row + 1))
    (hlit : ∀ col < 8, lit col = true ↔ inked font c col row = true ∧ R.Has (x + col) (y + row)) :
    Leaves background api m s (fun px py => (rowPic font R fg bg true c x y row px py).or (p px py))
      (u.drawRuns background api x (y + row) lit fg) := by
  have hstep : ∀ u p (run : Nat × Nat), Leaves background api m s p u → run ∈ runs lit 8 8 0 →
      Leaves background api m s (fun px py => (fillRect ⟨int32 (x + run.1), y + row, (run.2 : Int) - run.1, 1⟩ fg px py).or
        (p px py)) (u.fillRect background api ⟨int32 (x + run.1), y + row, (run.2 : Int) - run.1, 1⟩ fg) :=
    fun u p run hu _ => hu.fill (int32_range _) hy fg
  refine (Leaves.foldl hstep h).congr (fun px py _ => ?_)
  rw [stack_runs hR hx hy' hlit]

/-! ## Cells -/

theorem litBetween_iff {left right : Int} {col : Nat} (hx : FitsInt x) (hright : FitsInt right)
    (hleft : x ≤ left ∨ -(2 ^ 31) + 8 ≤ left) (hcol : col < 8) :
    Painter.litBetween font c row x left right col = true ↔
      inked font (uiFontChar c) col row = true ∧ left ≤ x + col ∧ x + col < right := by
  unfold FitsInt at hx hright
  have hsum := int32_sum (n := x + col) (by omega) (by omega)
  simp only [Painter.litBetween, Bool.and_eq_true, decide_eq_true_eq, and_assoc]
  refine and_congr_right (fun _ => ?_)
  rcases hsum with ⟨_, heq⟩ | ⟨hwrap, heq⟩
  · rw [heq]
  · rw [heq]
    omega

theorem uiChar_pos : (0 : Int) < 8 := by decide

theorem fitsRect_char (hx : FitsInt x) (hy : FitsInt y) : FitsRect ⟨x, y, uiCharW, uiCharH⟩ := by
  have height : FitsInt 8 := ⟨by decide, by decide⟩
  exact ⟨hx, hy, height, height⟩

theorem Leaves.charCell (h : Leaves background api m s p u) (hx : FitsInt x)
    (hy : -(2 ^ 16) ≤ y ∧ y ≤ 2 ^ 16) (clip : Rect) :
    Leaves background api m s (fun px py => (charCellPartiallyClipped d x y c fg bg clip px py).or (p px py))
      (u.drawCharCellPartiallyClipped d.uiFont background api x y c fg bg clip) := by
  unfold Painter.drawCharCellPartiallyClipped charCellPartiallyClipped
  dsimp only
  by_cases hempty : rectIsEmpty (rectIntersect ⟨x, y, uiCharW, uiCharH⟩ clip) = true
  · rw [if_pos hempty, if_pos (.inr hempty)]
    exact h.congr (fun _ _ _ => rfl)
  rw [if_neg hempty]
  by_cases hnone : api = none
  · rw [if_pos (.inl hnone)]
    exact h.of_none hnone
  rw [if_neg (by tauto)]
  obtain ⟨hright, hbottom, hinside⟩ := rectIntersect_inside (fitsRect_char hx ⟨by omega, by omega⟩)
    uiChar_pos uiChar_pos hempty
  have hsolid : (rectIntersect ⟨x, y, uiCharW, uiCharH⟩ clip).Solid := not_not.mp (rectIsEmpty_iff.not.mp hempty)
  generalize rectIntersect ⟨x, y, uiCharW, uiCharH⟩ clip = drawn at hright hbottom hinside hsolid ⊢
  have hcorners : x ≤ drawn.x ∧ y ≤ drawn.y ∧ drawn.bottom ≤ y + 8 := by
    have hfirst := hinside drawn.x drawn.y
    have hlast := hinside drawn.x (drawn.bottom - 1)
    simp only [Rect.Has, Rect.Solid, Rect.right, Rect.bottom, uiCharW, uiCharH] at hfirst hlast hsolid ⊢
    omega
  rw [hright, hbottom]
  have hright' : FitsInt drawn.right := by
    rw [← hright]
    exact int32_range _
  have hrow : ∀ u p (row : Nat), Leaves background api m s p u → row ∈ List.range 8 →
      Leaves background api m s (fun px py => (rowPic d.uiFont drawn fg bg true (uiFontChar c) x y row px py).or (p px py))
        (if int32 (y + row) < drawn.y ∨ drawn.bottom ≤ int32 (y + row) then u
          else u.drawRuns background api x (int32 (y + row))
            (Painter.litBetween d.uiFont c row x drawn.x drawn.right) fg) := by
    intro u p row hu hrow
    rw [List.mem_range] at hrow
    rw [int32_of_fits (by unfold FitsInt; omega)]
    split
    · rename_i hskip
      refine hu.congr (fun px py _ => ?_)
      rw [rowPic, if_neg, Option.none_or]
      rintro ⟨_, rfl, hin⟩
      unfold Rect.Has at hin
      omega
    · rename_i hdrawn
      refine hu.drawRuns hright' hx (by unfold FitsInt; omega) (by unfold FitsInt; omega) (fun col hcol => ?_)
      rw [litBetween_iff hx hright' (.inl hcorners.1) hcol]
      unfold Rect.Has
      refine and_congr_right (fun _ => ?_)
      omega
  have hfill := h.fill (r := drawn) ⟨by unfold FitsInt at hx; omega, by
    unfold FitsInt Rect.right at hright'
    unfold Rect.Solid at hsolid
    omega⟩ ⟨by omega, by unfold Rect.Solid Rect.bottom at *; omega⟩ bg
  refine (Leaves.foldl hrow hfill).congr (fun px py _ => ?_)
  rw [stack_rowPic, fillRect_of_fits hsolid.1 hsolid.2 hright' (by
    unfold FitsInt
    unfold Rect.Solid Rect.bottom at *
    omega), Picture.fill, glyphPic]
  by_cases hin : drawn.Has px py
  · have hcell : (cellRect (uiFontChar c, x, y)).Has px py := hinside px py hin
    rw [if_pos hin, if_pos hin, if_pos ⟨hcell, hin⟩, glyphColor, glyphColor]
    split <;> rfl
  · rw [if_neg hin, if_neg hin, if_neg (fun h => hin h.2)]
    rfl

theorem fitsInt_right {a b : Rect} (hx : FitsInt a.x) (hw : FitsInt a.w) (hpos : 0 < a.w)
    (hne : ¬ rectIsEmpty (rectIntersect a b) = true) : FitsInt a.right := by
  by_contra hwrap
  refine hne ?_
  have hsum := int32_sum (n := a.x + a.w) (by unfold FitsInt at *; omega) (by unfold FitsInt at *; omega)
  have hleft : int32 (a.x + a.w) < a.x := by
    unfold FitsInt Rect.right at *
    omega
  have hgap : (if int32 (a.x + a.w) < int32 (b.x + b.w) then int32 (a.x + a.w) else int32 (b.x + b.w)) ≤
      if a.x > b.x then a.x else b.x := by
    split <;> split <;> omega
  simp only [rectIntersect]
  rw [if_pos (.inl hgap)]
  rfl

theorem GfxRectValid.sides {clip : Rect} (h : GfxRectValid clip) :
    (int32 (clip.x + clip.w) = clip.right ∧ int32 (clip.y + clip.h) = clip.bottom) ∧
      (-(2 ^ 15) ≤ clip.x ∧ clip.right ≤ 2 ^ 16) ∧ -(2 ^ 15) ≤ clip.y ∧ clip.bottom ≤ 2 ^ 16 := by
  obtain ⟨⟨hx, hw, hw', _⟩, hy, hh, hh', _⟩ := h
  unfold GfxPositionValid appGfxCoordLimit at hx hy
  unfold appGfxMaxDimension at hw' hh'
  unfold Rect.right Rect.bottom
  rw [int32_small (by omega), int32_small (by omega)]
  omega

structure OnDisplay (s : Screen) (d : Display) : Prop where
  width : d.width = s.mode.width
  height : d.height = s.mode.height
  wide : 0 < d.width ∧ d.width < 2 ^ 31
  high : 0 < d.height ∧ d.height < 2 ^ 31

structure TextSetting (s : Screen) (d : Display) (y : Int) (clip : Rect) : Prop extends OnDisplay s d where
  row : GfxPositionValid y
  clip : GfxRectValid clip

variable {clip : Rect}

theorem Leaves.textClippedCell (h : Leaves background api m s p u)
    (hb : TextSetting s d y clip) (x : Int) (c : UInt8 × Nat) :
    Leaves background api m s (fun px py => (textClippedCell d x y fg bg clip c px py).or (p px py))
      (Painter.drawTextClippedCell d.font d.uiFont background api x y fg bg clip u c) := by
  have hy := hb.row
  unfold GfxPositionValid appGfxCoordLimit at hy
  unfold Painter.drawTextClippedCell Ui.textClippedCell
  have hx := int32_range (x + c.2 * uiCharW)
  generalize int32 (x + c.2 * uiCharW) = cellX at hx ⊢
  dsimp only
  split
  · exact h.congr (fun _ _ _ => rfl)
  rename_i hmeets
  split
  · exact h.charCell hx (by omega) clip
  · rename_i hcontains
    rw [not_not] at hcontains
    have hright : FitsInt (cellX + uiCharW) :=
      fitsInt_right hx (fitsRect_char hx ⟨by omega, by omega⟩).w uiChar_pos hmeets
    obtain ⟨⟨hclip, _⟩, ⟨_, hend⟩, _⟩ := GfxRectValid.sides hb.clip
    simp only [rectContainsRect, Bool.and_eq_true, decide_eq_true_eq] at hcontains
    have hcell : cellX + uiCharW ≤ clip.right := by
      have := hcontains.1.2
      rwa [hclip, int32_of_fits hright] at this
    exact h.text hb.width hb.height hb.wide hb.high (by unfold uiCharW at hcell; omega) (by omega)
      c.1 fg bg

theorem leaves_textClipped (h : Leaves background api m s p u)
    (hb : TextSetting s d y clip) (x : Int) (text : List UInt8) :
    Leaves background api m s (fun px py =>
        (stack (text.zipIdx.map (textClippedCell d x y fg bg clip)) px py).or (p px py))
      (u.drawTextClippedCells d.font d.uiFont background api x y text fg bg clip) :=
  h.foldl (fun _ _ c hu _ => hu.textClippedCell hb x c)

/-- What `ui_draw_text_transparent_runs_clipped` draws of a character. -/
def transparentCell (uiFont : Font) (x y : Int) (fg : UInt32) (clip : Rect) (c : UInt8 × Nat) : Canvas :=
  glyphPic uiFont clip fg 0 true (uiFontChar c.1, int32 (x + c.2 * uiCharW), y)

theorem Leaves.transparentCell (h : Leaves background api m s p u)
    (hb : TextSetting s d y clip) (x : Int) (c : UInt8 × Nat) :
    Leaves background api m s (fun px py => (transparentCell d.uiFont x y fg clip c px py).or (p px py))
      (Painter.drawTransparentCell d.uiFont background api x y fg clip u c) := by
  have hy := hb.row
  unfold GfxPositionValid appGfxCoordLimit at hy
  obtain ⟨⟨hright, hbottom⟩, hcols, hrows⟩ := GfxRectValid.sides hb.clip
  unfold Painter.drawTransparentCell Ui.transparentCell
  have hx := int32_range (x + c.2 * uiCharW)
  generalize int32 (x + c.2 * uiCharW) = cellX at hx ⊢
  have hright' : FitsInt clip.right := by
    rw [← hright]
    exact int32_range _
  have hrow : ∀ u p (row : Nat), Leaves background api m s p u → row ∈ List.range 8 →
      Leaves background api m s (fun px py => (rowPic d.uiFont clip fg 0 true (uiFontChar c.1) cellX y row px py).or (p px py))
        (u.drawRuns background api cellX (int32 (y + row))
          (fun col => Painter.litBetween d.uiFont c.1 row cellX clip.x (int32 (clip.x + clip.w)) col &&
            decide (clip.y ≤ int32 (y + row)) && decide (int32 (y + row) < int32 (clip.y + clip.h))) fg) := by
    intro u p row hu hrow
    rw [List.mem_range] at hrow
    rw [int32_of_fits (by unfold FitsInt; omega), hright, hbottom]
    refine hu.drawRuns hright' hx (by unfold FitsInt; omega) (by unfold FitsInt; omega) (fun col hcol => ?_)
    rw [Bool.and_eq_true, Bool.and_eq_true, litBetween_iff hx hright' (.inr (by omega)) hcol, decide_eq_true_eq,
      decide_eq_true_eq]
    unfold Rect.Has
    tauto
  refine (Leaves.foldl hrow h).congr (fun px py _ => ?_)
  rw [stack_rowPic]

theorem leaves_transparentRuns (h : Leaves background api m s p u)
    (hb : TextSetting s d y clip) (x : Int) (text : List UInt8) :
    Leaves background api m s (fun px py =>
        (stack (text.zipIdx.map (transparentCell d.uiFont x y fg clip)) px py).or (p px py))
      (u.drawTextTransparentRunsClipped d.uiFont background api x y text fg clip) := by
  unfold Painter.drawTextTransparentRunsClipped
  by_cases hnone : api = none
  · rw [if_pos (.inl hnone)]
    exact h.of_none hnone
  rw [if_neg (by
    rw [rectIsEmpty_iff, not_or, not_not]
    exact ⟨hnone, hb.clip.solid⟩)]
  exact h.foldl (fun _ _ c hu _ => hu.transparentCell hb x c)

/-! ## The whole functions -/

/-- What `MINIDOS_SYSCALL_GFX_TEXT_CLIPPED` accepts, with any empty clip rectangle. -/
def TextAccepted (x y : Int) (text : List UInt8) (clip : Rect) : Prop :=
  GfxPositionValid x ∧ GfxPositionValid y ∧ text.length + 1 < appUserTextMax ∧ User.ClipValid clip

instance (x y : Int) (text : List UInt8) (clip : Rect) : Decidable (TextAccepted x y text clip) :=
  inferInstanceAs (Decidable (_ ∧ _))

def calledArea (d : Display) (clip : Rect) : Rect := if clip.Solid then clip else d.screen

theorem clipValid_solid (hsolid : clip.Solid) : User.ClipValid clip ↔ GfxRectValid clip :=
  ⟨fun h => h hsolid, fun h _ => h⟩

theorem calledArea_clip (hd : OnDisplay s d) (hclip : User.ClipValid clip) :
    textClip s.mode.width s.mode.height clip = some (calledArea d clip) ∧
      FitsInt (calledArea d clip).right ∧ FitsInt (calledArea d clip).bottom := by
  obtain ⟨hw, hh, hwide, hhigh⟩ := hd
  unfold calledArea
  split
  · rename_i hsolid
    have hvalid := (clipValid_solid hsolid).mp hclip
    obtain ⟨_, hcols, hrows⟩ := GfxRectValid.sides hvalid
    unfold Rect.Solid at hsolid
    exact ⟨textClip_valid hvalid _ _, by unfold FitsInt Rect.right at *; omega,
      by unfold FitsInt Rect.bottom at *; omega⟩
  · rename_i hempty
    unfold Rect.Solid at hempty
    rw [textClip, if_pos (by omega), Display.screen, hw, hh]
    unfold FitsInt Rect.right Rect.bottom screenRect
    dsimp only
    exact ⟨rfl, by omega, by omega⟩

theorem gfxTextClipped_eq (hd : OnDisplay s d) (x y : Int) (text : List UInt8) (transparent : Bool) :
    gfxTextClipped font false s x y text fg bg clip (textFlags transparent) =
      if TextAccepted x y text clip then
        ((videoDrawTextClipped font s x y text fg bg clip (textFlags transparent)).1, 1)
      else (s, 0) := by
  have hflags : textFlags transparent &&& ~~~textTransparentBg = 0 := by
    cases transparent <;> decide
  have haccepts : (false = true ∨ textFlags transparent &&& ~~~textTransparentBg ≠ 0 ∨ ¬ GfxPositionValid x ∨
      ¬ GfxPositionValid y ∨ appUserTextMax ≤ text.length + 1 ∨ ¬ User.ClipValid clip) ↔
      ¬ TextAccepted x y text clip := by
    rw [TextAccepted, ← not_le (a := appUserTextMax)]
    simp only [hflags, Bool.false_eq_true, ne_eq, not_true_eq_false, false_or]
    tauto
  rw [gfxTextClipped]
  by_cases haccepted : TextAccepted x y text clip
  · have hdone : (videoDrawTextClipped font s x y text fg bg clip (textFlags transparent)).2 = true := by
      rw [videoDrawTextClipped, drawTextImpl_eq (calledArea_clip hd haccepted.2.2.2).1]
    rw [if_neg (fun hno => (haccepts.mp hno) haccepted), if_pos haccepted]
    dsimp only
    rw [hdone]
    rfl
  · rw [if_pos (haccepts.mpr haccepted), if_neg haccepted]

def calledPic (d : Display) (clip : Rect) (fg bg : UInt32) (transparent : Bool) (x y : Int)
    (text : List UInt8) : Canvas :=
  if TextAccepted x y text clip then textPic d.font (calledArea d clip) fg bg transparent false x y text
  else blank

theorem appGfxTextClipped_draws {v : Screen} (hself : Alike m v v) (hd : OnDisplay v d) (x y : Int)
    (text : List UInt8) (transparent : Bool) :
    let done := appGfxTextClipped api (gfxTextClipped d.font background) v x y text fg bg clip
      (textFlags transparent)
    Alike m done.1 done.1 ∧ (Quiet background api → done.1 = v ∧ ¬ 0 < done.2) ∧
      (¬ Quiet background api → Draws (calledPic d clip fg bg transparent x y text) v done.1 ∧
        (0 < done.2 ↔ TextAccepted x y text clip)) := by
  intro done
  by_cases hq : Quiet background api
  · have hdone : done.1 = v ∧ ¬ 0 < done.2 := by
      unfold done
      rw [appGfxTextClipped, appSyscall]
      split
      · rename_i hcall
        rw [gfxTextClipped, if_pos (.inl (hq.resolve_right (not_not.mpr hcall)))]
        exact ⟨rfl, Int.lt_irrefl 0⟩
      · exact ⟨rfl, Int.not_lt.mpr (Int.neg_nonpos_of_nonneg Int.one_nonneg)⟩
    refine ⟨?_, fun _ => hdone, fun hno => absurd hq hno⟩
    rw [hdone.1]
    exact hself
  · have hcall : done = if TextAccepted x y text clip then
        ((videoDrawTextClipped d.font v x y text fg bg clip (textFlags transparent)).1, 1) else (v, 0) := by
      rw [Quiet, not_or, not_not, Bool.not_eq_true] at hq
      unfold done
      rw [appGfxTextClipped, appSyscall, if_pos hq.2, hq.1]
      exact gfxTextClipped_eq hd x y text transparent
    rw [hcall, calledPic]
    split
    · rename_i haccepted
      obtain ⟨hclip, hright, hbottom⟩ := calledArea_clip hd haccepted.2.2.2
      exact ⟨hself.drawText _ _ _ _ _ _ _ _ _, fun hno => absurd hno hq,
        fun _ => ⟨draws_textArea hself transparent hclip hright hbottom haccepted.1 haccepted.2.1
          haccepted.2.2.1, iff_of_true Int.one_pos haccepted⟩⟩
    · rename_i hrefused
      exact ⟨hself, fun hno => absurd hno hq,
        fun _ => ⟨.nothing v, iff_of_false (Int.lt_irrefl 0) hrefused⟩⟩

theorem refuses_eq (api : Option Api) (v : Screen) (x y : Int) (text : List UInt8) (fg bg : UInt32) (clip : Rect)
    (flags : UInt32) : (appGfxTextClipped api refuses v x y text fg bg clip flags).1 = v ∧
      ¬ 0 < (appGfxTextClipped api refuses v x y text fg bg clip flags).2 := by
  rw [appGfxTextClipped, appSyscall]
  split
  · exact ⟨rfl, Int.lt_irrefl 0⟩
  · exact ⟨rfl, Int.not_lt.mpr (Int.neg_nonpos_of_nonneg Int.one_nonneg)⟩

theorem Leaves.flush (h : Leaves background api m s p u) :
    Leaves background api m s p (flush background u api).1 := by
  have hnothing := h.call (q := blank) (f := id)
    (fun v hself _ => ⟨hself, fun _ => rfl, fun _ => Draws.nothing v⟩)
  exact hnothing.congr (fun x y _ => rfl)

theorem leaves_refusedClipped (h : Leaves background api m s p u) (hb : TextSetting s d y clip) (x : Int)
    (text : List UInt8) :
    Leaves background api m s (fun px py =>
        (stack (text.zipIdx.map (textClippedCell d x y fg bg clip)) px py).or (p px py))
      (u.drawTextClipped d.font d.uiFont background api refuses x y text fg bg clip) := by
  have hempty : ¬ rectIsEmpty clip = true := fun he => rectIsEmpty_iff.mp he hb.clip.solid
  unfold Painter.drawTextClipped
  by_cases hnone : api = none
  · rw [if_pos (.inl hnone)]
    exact h.of_none hnone
  obtain ⟨hscreen, hrefused⟩ := refuses_eq api (Ui.flush background u api).1.screen x y text fg bg clip 0
  rw [if_neg (not_or.mpr ⟨hnone, hempty⟩)]
  dsimp only
  rw [if_neg hrefused, hscreen]
  exact leaves_textClipped h.flush hb x text

theorem leaves_refusedTransparent (h : Leaves background api m s p u) (hb : TextSetting s d y clip) (x : Int)
    (text : List UInt8) :
    Leaves background api m s (fun px py =>
        (stack (text.zipIdx.map (transparentCell d.uiFont x y fg clip)) px py).or (p px py))
      (u.drawTextTransparentClipped d.uiFont background api refuses x y text fg clip) := by
  have hempty : ¬ rectIsEmpty clip = true := fun he => rectIsEmpty_iff.mp he hb.clip.solid
  unfold Painter.drawTextTransparentClipped
  by_cases hnone : api = none
  · rw [if_pos (.inl hnone)]
    exact h.of_none hnone
  obtain ⟨hscreen, hrefused⟩ :=
    refuses_eq api (Ui.flush background u api).1.screen x y text fg 0 clip textTransparentBg
  rw [if_neg (not_or.mpr ⟨hnone, hempty⟩)]
  dsimp only
  rw [if_neg hrefused, hscreen]
  exact leaves_transparentRuns h.flush hb x text

end Leaves

end Ui
end MiniDos
