import MiniDos.Ui.Batch
import MiniDos.User.Calls
import MiniDos.User.Bounds
import MiniDos.Video.Scale

/-!
# MiniDos.Ui.Surface

Surfaces of an app: `MINIDOS_SYSCALL_GFX_SURFACE_BLIT`, and `ui_packed_xrgb_blit_scaled_fallback` of
`ui_bitmap.h`, which draws one by rectangles.

* `rowRuns_spec`: the runs of a row are its pixels, in their colors.
* `fallback_blits_alike`: both leave the same pixels, and accept the same.
-/

namespace MiniDos
namespace Ui

open Video Plane
open Files (Task userRangeValid)
open Screen (ColorRect)

variable {rects : List ColorRect}

/-! ## The call -/

section Call

variable (background : Bool) (task : Task) (mem : Nat → UInt8)

/-- `MINIDOS_SYSCALL_GFX_SURFACE_BLIT`, from where the descriptor is copied in. -/
def gfxSurfaceBlit (s : Screen) (b : Blit) : Screen × Int :=
  if background = true ∨ ¬ User.SurfaceAccepted b ∨
      ¬ userRangeValid task (UInt32.ofNat b.buffer) (User.sourceSpan b) ∨ ¬ User.DestAccepted b then
    (s, 0)
  else ((videoBlitSurface mem s b).1, if (videoBlitSurface mem s b).2 then 1 else 0)

def appGfxSurfaceBlit (api : Option Api) (s : Screen) (b : Blit) : Screen × Int :=
  appSyscall api (fun s => gfxSurfaceBlit background task mem s b) s

end Call

/-! ## The fallback -/

section Fallback

variable (background : Bool) (mem : Nat → UInt8) (b : Blit)

/-- The checks of the arguments, the clip rectangle included. -/
def FallbackOk : Prop :=
  b.buffer ≠ 0 ∧ 0 < b.width ∧ 0 < b.height ∧ b.width ≤ 16384 ∧ b.height ≤ 16384 ∧
    0 < b.destW ∧ 0 < b.destH ∧ b.destW ≤ 16384 ∧ b.destH ≤ 16384 ∧ 0 < b.stride ∧
    -32768 ≤ b.destX ∧ b.destX ≤ 32768 ∧ -32768 ≤ b.destY ∧ b.destY ≤ 32768 ∧
    b.destX ≤ 0x7FFFFFFF - b.destW ∧ b.destY ≤ 0x7FFFFFFF - b.destH ∧
    b.width * 4 ≤ b.stride ∧ b.height - 1 ≤ (0xFFFFFFFF - b.width * 4) / b.stride ∧
    (0 < b.clipW ∧ 0 < b.clipH → b.clipW ≤ 16384 ∧ b.clipH ≤ 16384 ∧
      -32768 ≤ b.clipX ∧ b.clipX ≤ 32768 ∧ -32768 ≤ b.clipY ∧ b.clipY ≤ 32768 ∧
      b.clipX ≤ 0x7FFFFFFF - b.clipW ∧ b.clipY ≤ 0x7FFFFFFF - b.clipH)

instance : Decidable (FallbackOk b) := inferInstanceAs (Decidable (_ ∧ _))

/-- `left`, `top`, `right` and `bottom`. -/
def left : Int := b.lowSide b.destX b.clipX
def top : Int := b.lowSide b.destY b.clipY
def right : Int := b.highSide (b.destX + b.destW) (b.clipX + b.clipW)
def bottom : Int := b.highSide (b.destY + b.destH) (b.clipY + b.clipH)

/-- `color` at a pixel of the destination. -/
def packedColor (y x : Int) : UInt32 :=
  let srcY := (y - b.destY) * b.height / b.destH
  let srcX := (x - b.destX) * b.width / b.destW
  let pixel := u32 (b.buffer + srcY * b.stride + srcX * 4)
  (byteAt mem pixel 2 <<< 16) ||| (byteAt mem pixel 1 <<< 8) ||| byteAt mem pixel 0

/-- The inner loop: the end of the pixels of color `c` from `x` on, with `n` pixels left. -/
def runEnd (color : Int → UInt32) (c : UInt32) : Nat → Int → Int
  | 0, x => x
  | n + 1, x => if color x ≠ c then x else runEnd color c n (x + 1)

/-- The rectangles of row `y` from `x` on, at most `n`. -/
def rowRuns (color : Int → UInt32) (y right : Int) : Nat → Int → List ColorRect
  | 0, _ => []
  | n + 1, x =>
    if right ≤ x then []
    else
      let stop := runEnd color (color x) (right - (x + 1)).toNat (x + 1)
      ⟨⟨x, y, stop - x, 1⟩, color x⟩ :: rowRuns color y right n stop

def packedRuns : List ColorRect :=
  (List.range (bottom b - top b).toNat).flatMap (fun j : Nat =>
    rowRuns (packedColor mem b (top b + j)) (top b + j) (right b) (right b - left b).toNat (left b))

/-- The rectangles put into the queue; one that is refused makes the result 0. -/
def enqueueAll (api : Option Api) (acc : Painter × Bool) (r : ColorRect) : Painter × Bool :=
  let done := enqueue background acc.1 api r
  (done.1, if done.2 then acc.2 else false)

/-- `ui_packed_xrgb_blit_scaled_fallback`; its arguments are the fields of `b`. -/
def packedXrgbBlitScaledFallback (u : Painter) (api : Option Api) : Painter × Bool :=
  if api = none ∨ ¬ FallbackOk b then (u, false)
  else if right b ≤ left b ∨ bottom b ≤ top b then (u, true)
  else (packedRuns mem b).foldl (enqueueAll background api) (u, true)

end Fallback

/-! ## Runs of one color -/

section Runs

variable {color : Int → UInt32} {y right : Int}

theorem runEnd_spec (c : UInt32) : ∀ (n : Nat) (x : Int), x ≤ runEnd color c n x ∧
    runEnd color c n x ≤ x + n ∧ ∀ px, x ≤ px → px < runEnd color c n x → color px = c := by
  intro n
  induction n with
  | zero =>
    refine fun x => ⟨Int.le_refl x, by simp [runEnd], fun px h1 h2 => ?_⟩
    have : runEnd color c 0 x = x := rfl
    omega
  | succ n ih =>
    intro x
    unfold runEnd
    split
    · exact ⟨Int.le_refl x, by omega, fun px h1 h2 => by omega⟩
    · rename_i hsame
      obtain ⟨hlow, hhigh, hcolor⟩ := ih (x + 1)
      refine ⟨by omega, by push_cast; omega, fun px h1 h2 => ?_⟩
      by_cases hx : px = x
      · rw [hx]
        exact not_not.mp hsame
      · exact hcolor px (by omega) h2

/-- The runs of a row are its pixels, in their colors. -/
theorem rowRuns_spec : ∀ (n : Nat) (x : Int), right ≤ x + n →
    (∀ r ∈ rowRuns color y right n x, x ≤ r.rect.x ∧ r.rect.right ≤ right ∧ 0 < r.rect.w ∧
      r.rect.y = y ∧ r.rect.h = 1 ∧ ∀ px, r.rect.x ≤ px → px < r.rect.right → color px = r.rgb) ∧
    ∀ px, x ≤ px → px < right → ∃ r ∈ rowRuns color y right n x, r.rect.Has px y := by
  intro n
  induction n with
  | zero => exact fun x hn => ⟨fun r hr => (nomatch hr), fun px h1 h2 => by omega⟩
  | succ n ih =>
    intro x hn
    unfold rowRuns
    split
    · exact ⟨fun r hr => (nomatch hr), fun px h1 h2 => by omega⟩
    rename_i hx
    obtain ⟨hlow, hhigh, hcolor⟩ := @runEnd_spec color (color x)
      (right - (x + 1)).toNat (x + 1)
    generalize runEnd color (color x) (right - (x + 1)).toNat (x + 1) = stop at hlow hhigh hcolor
    obtain ⟨hruns, hcover⟩ := ih stop (by omega)
    refine ⟨fun r hr => ?_, fun px h1 h2 => ?_⟩
    · rcases List.mem_cons.mp hr with rfl | hr
      · unfold Rect.right
        dsimp only
        refine ⟨Int.le_refl x, by omega, by omega, rfl, rfl, fun px h1 h2 => ?_⟩
        by_cases hpx : px = x
        · rw [hpx]
        · exact hcolor px (by omega) (by omega)
      · obtain ⟨h1, h2⟩ := hruns r hr
        exact ⟨by omega, h2⟩
    · by_cases hpx : px < stop
      · refine ⟨_, List.mem_cons_self, ?_⟩
        unfold Rect.Has Rect.right Rect.bottom
        dsimp only
        omega
      · obtain ⟨r, hr, hin⟩ := hcover px (by omega) h2
        exact ⟨r, List.mem_cons_of_mem _ hr, hin⟩

end Runs

/-! ## What the fallback draws -/

section Drawn

variable {m : Mode} {s : Screen} {mem : Nat → UInt8} {b : Blit}

theorem packed_components (b₀ b₁ b₂ b₃ : UInt8) :
    (b₂.toUInt32 <<< 16) ||| (b₁.toUInt32 <<< 8) ||| b₀.toUInt32 =
      (b₀.toUInt32 ||| (b₁.toUInt32 <<< 8) ||| (b₂.toUInt32 <<< 16) ||| (b₃.toUInt32 <<< 24)) &&&
        0xFFFFFF := by
  apply UInt32.eq_of_toBitVec_eq
  simp
  ext i hi
  simp
  interval_cases i <;> simp

theorem outW_eq (h : 0 < b.destW) : b.outW = b.destW := if_pos h

theorem outH_eq (h : 0 < b.destH) : b.outH = b.destH := if_pos h

theorem packedColor_eq (hw : 0 < b.destW) (hh : 0 < b.destH) (x y : Int) :
    packedColor mem b y x = b.colorAt mem x y := by
  unfold packedColor Blit.colorAt readU32 byteAt Blit.sample Blit.sourceX Blit.sourceY
  rw [outW_eq hw, outH_eq hh]
  exact packed_components _ _ _ _

def clipRegion (b : Blit) (x y : Int) : Prop := left b ≤ x ∧ x < right b ∧ top b ≤ y ∧ y < bottom b

theorem packedRuns_spec (hw : 0 < b.destW) (hh : 0 < b.destH) :
    (∀ r ∈ packedRuns mem b, 0 < r.rect.w ∧ 0 < r.rect.h ∧
      ∀ x y, r.rect.Has x y → clipRegion b x y ∧ b.colorAt mem x y = r.rgb) ∧
    ∀ x y, clipRegion b x y → ∃ r ∈ packedRuns mem b, r.rect.Has x y := by
  have hrow := fun y => @rowRuns_spec (packedColor mem b y) y (right b) (right b - left b).toNat (left b)
    (by omega)
  unfold packedRuns
  simp only [List.mem_flatMap, List.mem_range]
  refine ⟨?_, fun x y hin => ?_⟩
  · rintro r ⟨j, hj, hr⟩
    obtain ⟨hleft, hright, hpos, hy, hh1, hcolor⟩ := (hrow (top b + j)).1 r hr
    refine ⟨hpos, by omega, fun x y hin => ?_⟩
    unfold Rect.Has Rect.bottom at hin
    obtain rfl : y = top b + j := by omega
    rw [← packedColor_eq hw hh]
    exact ⟨⟨by omega, by omega, by omega, by omega⟩, hcolor x hin.1 hin.2.1⟩
  · unfold clipRegion at hin
    obtain ⟨r, hr, hhas⟩ := (hrow y).2 x hin.1 hin.2.1
    have hy : top b + ((y - top b).toNat : Int) = y := by omega
    refine ⟨r, ⟨(y - top b).toNat, by omega, ?_⟩, hhas⟩
    rw [hy]
    exact hr

theorem window_iff (hw : 0 < b.destW) (hh : 0 < b.destH) {width height x y : Int} :
    (∃ r, b.window width height = some r ∧ r.Has x y) ↔
      clipRegion b x y ∧ (screenRect width height).Has x y := by
  unfold Blit.window clipRegion left right top bottom
  rw [outW_eq hw, outH_eq hh, screenRect_has]
  dsimp only
  generalize b.lowSide b.destX b.clipX = x₀, b.lowSide b.destY b.clipY = y₀,
    b.highSide (b.destX + b.destW) (b.clipX + b.clipW) = x₁,
    b.highSide (b.destY + b.destH) (b.clipY + b.clipH) = y₁
  split
  · simp only [reduceCtorEq, false_and, exists_false, false_iff]
    unfold clipLow clipHigh at *
    omega
  · simp only [Option.some.injEq, exists_eq_left']
    unfold Rect.Has
    rw [Rect.ofCorners_right, Rect.ofCorners_bottom]
    unfold Rect.ofCorners clipLow clipHigh
    dsimp only
    omega

theorem shows_drawEach (hs : Alike m s s) {api : Option Api} (hapi : api.any Api.syscall = true)
    {v : Int → Int → UInt32} (hrects : ∀ r ∈ rects, 0 < r.rect.w ∧
      0 < r.rect.h ∧ FitsInt r.rect.right ∧ FitsInt r.rect.bottom ∧
      ∀ x y, r.rect.Has x y → v x y = r.rgb) :
    Shows (fun x y => ∃ r ∈ rects, r.rect.Has x y ∧ (screenRect s.mode.width s.mode.height).Has x y) v
      s (drawEach false api rects s) := by
  have hstep : ∀ (t : Screen) (r : ColorRect), (Alike m t t ∧ t.mode = s.mode) → r ∈ rects →
      (Alike m (appGfxRect false api t r).1 (appGfxRect false api t r).1 ∧
        (appGfxRect false api t r).1.mode = s.mode) ∧
      Shows (fun x y => r.rect.Has x y ∧ (screenRect s.mode.width s.mode.height).Has x y) v t
        (appGfxRect false api t r).1 := by
    rintro t r ⟨ht, hmode⟩ hr
    obtain ⟨hw, hh, hright, hbottom, hcolor⟩ := hrects r hr
    have hsafe : GfxLegacyRectSafe r.rect := by
      unfold FitsInt Rect.right at hright
      unfold FitsInt Rect.bottom at hbottom
      exact .inr (.inr ⟨by omega, by omega⟩)
    have hcall : (appGfxRect false api t r).1 = t.videoFillRect r := by
      unfold appGfxRect appSyscall gfxRect
      rw [if_pos hapi]
      dsimp only
      rw [if_neg (by simp [hsafe])]
    have hshows := shows_fillRect ht hw hh hright hbottom
    refine ⟨⟨Alike.appGfxRect ht api r, by rw [hcall, hshows.mode, hmode]⟩, ?_⟩
    rw [hcall, ← hmode]
    exact hshows.congr (fun _ _ => Iff.rfl) (fun x y hin => hcolor x y hin.1)
  exact (Shows.foldl hstep ⟨hs, rfl⟩).2

end Drawn

/-! ## The queue -/

section Queue

variable {background : Bool} {m : Mode} {s t : Screen} {u : Painter} {api : Option Api}

/-- The rectangles of the queue are as safe as those of single calls, and go to `api`. -/
structure Prompt (u : Painter) (api : Option Api) : Prop where
  safe : ∀ r ∈ u.batch.rects, GfxLegacyRectSafe r.rect
  api : u.batch.rects ≠ [] → u.batch.api = api

theorem flushOne_done (hapi : api.any Api.syscall = true)
    (hsafe : ∀ r ∈ rects, GfxLegacyRectSafe r.rect) (acc : Screen × Bool) :
    (rects.foldl (flushOne false api) acc).2 = acc.2 := by
  induction rects generalizing acc with
  | nil => rfl
  | cons r rects ih =>
    rw [List.foldl_cons, ih (fun q hq => hsafe q (List.mem_cons_of_mem _ hq))]
    have hone : (appGfxRect false api acc.1 r).2 = 1 := by
      unfold appGfxRect appSyscall gfxRect
      rw [if_pos hapi]
      dsimp only
      rw [if_neg (by simp [hsafe r List.mem_cons_self])]
    unfold flushOne
    dsimp only
    rw [hone, if_neg (by decide)]

theorem Prompt.flush (h : Prompt u api) (hapi : api.any Api.syscall = true) (other : Option Api) :
    (flush false u other).2 = true ∧ (flush false u other).1.batch.rects = [] := by
  unfold Ui.flush
  split
  · rename_i hnil
    exact ⟨rfl, hnil⟩
  · rename_i hne
    have hsome : u.batch.api.isSome = true := by
      rw [h.api hne]
      cases api with
      | none => cases hapi
      | some a => rfl
    dsimp only
    rw [if_pos hsome]
    split
    · exact ⟨rfl, rfl⟩
    · refine ⟨?_, rfl⟩
      rw [h.api hne]
      exact flushOne_done hapi h.safe _

theorem Prompt.enqueue (h : Prompt u api) (hapi : api.any Api.syscall = true) {r : ColorRect}
    (hr : GfxLegacyRectSafe r.rect) :
    (enqueue false u api r).2 = true ∧ Prompt (enqueue false u api r).1 api := by
  have hnone : api ≠ none := by
    rintro rfl
    cases hapi
  have hsame : ¬ (u.batch.rects ≠ [] ∧ u.batch.api ≠ api) := fun hno => hno.2 (h.api hno.1)
  unfold Ui.enqueue
  rw [if_neg hnone]
  dsimp only
  rw [if_neg hsame]
  obtain ⟨v, hv, hprompt⟩ : ∃ v, v = (if u.batch.rects.length = appGfxRectBatchMax then
      (Ui.flush false u api).1 else u) ∧ Prompt v api := by
    refine ⟨_, rfl, ?_⟩
    split
    · have hnil := (h.flush hapi api).2
      exact ⟨fun q hq => (by rw [hnil] at hq; cases hq), fun hne => absurd hnil hne⟩
    · exact h
  rw [← hv]
  have hpush : Prompt { v with batch := ⟨v.batch.rects ++ [r], api⟩ } api := by
    refine ⟨fun q hq => ?_, fun _ => rfl⟩
    rcases List.mem_append.mp hq with hq | hq
    · exact hprompt.safe q hq
    · rw [List.mem_singleton.mp hq]
      exact hr
  split
  · obtain ⟨hdone, hnil⟩ := hpush.flush hapi api
    exact ⟨hdone, ⟨fun q hq => (by rw [hnil] at hq; cases hq), fun hne => absurd hnil hne⟩⟩
  · exact ⟨rfl, hpush⟩

theorem Prompt.enqueueAll (hapi : api.any Api.syscall = true)
    (hrects : ∀ r ∈ rects, GfxLegacyRectSafe r.rect) (h : Prompt u api) :
    (rects.foldl (enqueueAll false api) (u, true)).2 = true := by
  have hrun : Prompt (rects.foldl (Ui.enqueueAll false api) (u, true)).1 api ∧
      (rects.foldl (Ui.enqueueAll false api) (u, true)).2 = true := by
    refine List.foldlRecOn (motive := fun acc : Painter × Bool => Prompt acc.1 api ∧ acc.2 = true)
      _ _ ⟨h, rfl⟩ ?_
    rintro acc ⟨hprompt, hok⟩ r hr
    obtain ⟨hdone, hnext⟩ := hprompt.enqueue hapi (hrects r hr)
    refine ⟨hnext, ?_⟩
    unfold Ui.enqueueAll
    dsimp only
    rw [if_pos hdone]
    exact hok
  exact hrun.2

theorem Settled.enqueueAll (rects : List ColorRect) {ok : Bool} (h : Settled background m u t) :
    Settled background m (rects.foldl (enqueueAll background api) (u, ok)).1
      (drawEach background api rects t) := by
  induction rects generalizing u t ok with
  | nil => exact h
  | cons r rects ih => exact ih (h.enqueue api r)

end Queue

/-! ## Acceptance -/

section Acceptance

variable {b : Blit}

theorem fallbackOk_iff (hw : 0 < b.destW) (hh : 0 < b.destH) (hformat : b.format = formatXrgbLe) :
    FallbackOk b ↔ b.SurfaceOk ∧ b.DestOk ∧ b.ClipOk := by
  unfold FallbackOk Blit.SurfaceOk Blit.DestOk Blit.ClipOk Blit.ExtentOk Blit.clipped Blit.rowBytes
    surfaceMaxDimension surfaceCoordLimit
  rw [outW_eq hw, outH_eq hh, decide_eq_true_eq]
  generalize (0xFFFFFFFF - b.width * 4) / b.stride = rows
  constructor
  · rintro ⟨h1, h2, h3, h4, h5, h6, h7, h8, h9, h10, h11, h12, h13, h14, h15, h16, h17, h18, hclip⟩
    refine ⟨⟨h1, h2, h3, h4, h5, h10, .inr (.inl hformat), h17, h18⟩, ?_, fun hc => ?_⟩
    · omega
    · have := hclip hc
      omega
  · rintro ⟨⟨h1, h2, h3, h4, h5, h10, _, h17, h18⟩, hdest, hclip⟩
    refine ⟨h1, h2, h3, h4, h5, hw, hh, by omega, by omega, h10, by omega, by omega, by omega,
      by omega, by omega, by omega, h17, h18, fun hc => ?_⟩
    have := hclip hc
    omega

/-- The checks of the call are those of the drawing. -/
theorem accepted_iff (hstride : b.stride < 2 ^ 31) :
    User.SurfaceAccepted b ∧ User.DestAccepted b ↔ b.SurfaceOk ∧ b.DestOk ∧ b.ClipOk := by
  have hunsigned : 0 < b.width → b.width ≤ 16384 → 0 < b.height → b.height ≤ 16384 → 0 < b.stride →
      ((User.ofInt b.width * 4 ≤ User.ofInt b.stride ∧ User.ofInt (b.height - 1) ≤
        (0xFFFFFFFF - User.ofInt b.width * 4) / User.ofInt b.stride) ↔
      (b.rowBytes ≤ b.stride ∧ b.height - 1 ≤ (0xFFFFFFFF - b.rowBytes) / b.stride)) := by
    intro hw hw' hh hh' hs
    have hwidth : (User.ofInt b.width).toNat = b.width.toNat := User.ofInt_toNat (by omega) (by omega)
    have hheight : (User.ofInt (b.height - 1)).toNat = (b.height - 1).toNat :=
      User.ofInt_toNat (by omega) (by omega)
    have hst : (User.ofInt b.stride).toNat = b.stride.toNat := User.ofInt_toNat (by omega) (by omega)
    have hrow : (User.ofInt b.width * 4).toNat = b.width.toNat * 4 := by
      rw [UInt32.toNat_mul, hwidth]
      show b.width.toNat * 4 % 2 ^ 32 = _
      omega
    have hmax : (0xFFFFFFFF : UInt32).toNat = 4294967295 := by decide
    have hsub : (0xFFFFFFFF - User.ofInt b.width * 4).toNat = 4294967295 - b.width.toNat * 4 := by
      have hle : User.ofInt b.width * 4 ≤ 0xFFFFFFFF := by
        rw [UInt32.le_iff_toNat_le, hrow, hmax]
        omega
      rw [UInt32.toNat_sub_of_le _ _ hle, hrow, hmax]
    rw [UInt32.le_iff_toNat_le, UInt32.le_iff_toNat_le, UInt32.toNat_div, hrow, hsub, hst, hheight]
    unfold Blit.rowBytes
    have hdiv : (((4294967295 - b.width.toNat * 4) / b.stride.toNat : Nat) : Int) =
        (0xFFFFFFFF - b.width * 4) / b.stride := by
      have hcast : ((4294967295 - b.width.toNat * 4 : Nat) : Int) = 0xFFFFFFFF - b.width * 4 := by
        omega
      rw [Int.natCast_ediv, Int.toNat_of_nonneg (by omega), hcast]
    rw [← hdiv]
    omega
  unfold User.SurfaceAccepted User.DestAccepted Blit.SurfaceOk Blit.DestOk Blit.ClipOk
    Blit.ExtentOk Blit.clipped User.ClipValid GfxExtentValid GfxPositionValid appGfxMaxDimension
    appGfxCoordLimit surfaceMaxDimension surfaceCoordLimit
  rw [decide_eq_true_eq]
  constructor
  · rintro ⟨⟨h1, h2, h3, h4, h5, h6, hformat, h8, h9⟩, hx, hy, hclip⟩
    obtain ⟨h8, h9⟩ := (hunsigned h2 h4 h3 h5 h6).mp ⟨h8, h9⟩
    refine ⟨⟨h1, h2, h3, h4, h5, h6, hformat, h8, h9⟩, by omega, fun hc => ?_⟩
    have := hclip hc
    dsimp only at this
    omega
  · rintro ⟨⟨h1, h2, h3, h4, h5, h6, hformat, h8, h9⟩, hdest, hclip⟩
    obtain ⟨h8, h9⟩ := (hunsigned h2 h4 h3 h5 h6).mpr ⟨h8, h9⟩
    refine ⟨⟨h1, h2, h3, h4, h5, h6, hformat, h8, h9⟩, by omega, by omega, fun hc => ?_⟩
    have := hclip hc
    dsimp only at hc ⊢
    omega

end Acceptance

/-! ## Both -/

section Both

variable {background : Bool} {m : Mode} {s : Screen} {u : Painter} {task : Task} {mem : Nat → UInt8}
  {b : Blit} {api : Option Api}

theorem drawEach_none (h : background = true ∨ ¬ api.any Api.syscall = true) (rects : List ColorRect)
    (s : Screen) : drawEach background api rects s = s := by
  have hone : ∀ (s : Screen) (r : ColorRect), (appGfxRect background api s r).1 = s := by
    intro s r
    unfold appGfxRect appSyscall gfxRect
    dsimp only
    rcases h with h | h
    · have hrefused : background = true ∨ ¬ GfxLegacyRectSafe r.rect := .inl h
      rw [if_pos hrefused]
      split <;> rfl
    · rw [if_neg h]
  unfold drawEach
  induction rects with
  | nil => rfl
  | cons r rects ih => rw [List.foldl_cons, hone, ih]

theorem blit_none (h : background = true ∨ ¬ api.any Api.syscall = true) (s : Screen) :
    (appGfxSurfaceBlit background task mem api s b).1 = s := by
  unfold appGfxSurfaceBlit appSyscall
  rcases h with h | h
  · have hrefused : gfxSurfaceBlit background task mem s b = (s, 0) := if_pos (.inl h)
    dsimp only
    rw [hrefused]
    split <;> rfl
  · rw [if_neg h]

theorem packedRuns_nil (h : right b ≤ left b ∨ bottom b ≤ top b) : packedRuns mem b = [] := by
  unfold packedRuns
  rcases h with h | h
  · rw [Int.toNat_of_nonpos (by omega : right b - left b ≤ 0)]
    exact List.flatMap_eq_nil_iff.mpr (fun _ _ => rfl)
  · rw [Int.toNat_of_nonpos (by omega : bottom b - top b ≤ 0)]
    rfl

theorem fallback_eq : packedXrgbBlitScaledFallback background mem b u api =
    if api = none ∨ ¬ FallbackOk b then (u, false)
    else (packedRuns mem b).foldl (enqueueAll background api) (u, true) := by
  unfold packedXrgbBlitScaledFallback
  split
  · rfl
  · split
    · rename_i hempty
      rw [packedRuns_nil hempty]
      rfl
    · rfl

theorem packedRuns_fit (h : FallbackOk b) (hw : 0 < b.destW) (hh : 0 < b.destH) :
    ∀ r ∈ packedRuns mem b, 0 < r.rect.w ∧ 0 < r.rect.h ∧ FitsInt r.rect.right ∧
      FitsInt r.rect.bottom ∧ ∀ x y, r.rect.Has x y → b.colorAt mem x y = r.rgb := by
  intro r hr
  obtain ⟨hpos, hpos', hin⟩ := (packedRuns_spec hw hh).1 r hr
  have hcorner := fun x y hx => (hin x y hx).1
  have hlow := hcorner r.rect.x r.rect.y (by
    unfold Rect.Has Rect.right Rect.bottom
    omega)
  have hhigh := hcorner (r.rect.right - 1) (r.rect.bottom - 1) (by
    unfold Rect.Has Rect.right Rect.bottom
    omega)
  unfold clipRegion left right top bottom at hlow hhigh
  have hleft := Blit.lowSide_le b b.destX b.clipX
  have htop := Blit.lowSide_le b b.destY b.clipY
  have hright := Blit.highSide_le b (b.destX + b.destW) (b.clipX + b.clipW)
  have hbottom := Blit.highSide_le b (b.destY + b.destH) (b.clipY + b.clipH)
  obtain ⟨_, _, _, _, _, _, _, _, _, _, hx, _, hy, _, hx', hy', _⟩ := h
  refine ⟨hpos, hpos', ?_, ?_, fun x y hxy => (hin x y hxy).2⟩
  · unfold FitsInt
    omega
  · unfold FitsInt
    omega

theorem drawEach_target (hs : Alike m s s) (hapi : api.any Api.syscall = true)
    (hformat : b.format = formatXrgbLe) (hw : 0 < b.destW) (hh : 0 < b.destH) (h : FallbackOk b) :
    (drawEach false api (packedRuns mem b) s).target = (videoBlitSurface mem s b).1.target := by
  obtain ⟨hb, hd, hc⟩ := (fallbackOk_iff hw hh hformat).mp h
  refine (shows_drawEach hs hapi (packedRuns_fit h hw hh)).target_eq
    ((shows_blitSurface mem hs hformat hb hd hc).congr (fun x y => ?_) (fun _ _ _ => rfl))
  obtain ⟨hruns, hcover⟩ := @packedRuns_spec mem b hw hh
  rw [window_iff hw hh]
  constructor
  · rintro ⟨r, hr, hin, hscreen⟩
    exact ⟨((hruns r hr).2.2 x y hin).1, hscreen⟩
  · rintro ⟨hregion, hscreen⟩
    obtain ⟨r, hr, hin⟩ := hcover x y hregion
    exact ⟨r, hr, hin, hscreen⟩

theorem gfxSurfaceBlit_eq (hformat : b.format = formatXrgbLe) (hstride : b.stride < 2 ^ 31)
    (hown : User.SurfaceAccepted b →
      userRangeValid task (UInt32.ofNat b.buffer) (User.sourceSpan b) = true)
    (hw : 0 < b.destW) (hh : 0 < b.destH) (s : Screen) :
    gfxSurfaceBlit false task mem s b =
      if FallbackOk b then ((videoBlitSurface mem s b).1, 1) else (s, 0) := by
  have hiff := (accepted_iff hstride).trans (fallbackOk_iff hw hh hformat).symm
  unfold gfxSurfaceBlit
  split
  · rename_i hno
    rw [if_neg]
    intro hok
    obtain ⟨hsurface, hdest⟩ := hiff.mpr hok
    rcases hno with hno | hno | hno | hno
    · cases hno
    · exact hno hsurface
    · exact hno (hown hsurface)
    · exact hno hdest
  · rename_i hyes
    simp only [not_or, not_not] at hyes
    have hok := hiff.mp ⟨hyes.2.1, hyes.2.2.2⟩
    obtain ⟨hb, hd, hc⟩ := (fallbackOk_iff hw hh hformat).mp hok
    rw [if_pos hok]
    have hdone : (videoBlitSurface mem s b).2 = true := by
      unfold videoBlitSurface
      rw [if_neg (by simp only [hb, hd, hc, not_true_eq_false, or_self, not_false_eq_true])]
      split <;> rfl
    rw [if_pos hdone]

end Both

/-- With a positive size of the destination the fallback and a flush leave the picture of the call,
and in the foreground they succeed when the call does. -/
theorem fallback_blits_alike (font : Font) (m : Mode) (hgraphics : m.Graphics)
    (back front : Int → Int → UInt32) (calls : List Call) (background : Bool) (ops : List Op)
    (api₀ api : Option Api) (task : Task) (mem : Nat → UInt8) (b : Blit)
    (hformat : b.format = formatXrgbLe) (hstride : b.stride < 2 ^ 31)
    (hown : User.SurfaceAccepted b →
      userRangeValid task (UInt32.ofNat b.buffer) (User.sourceSpan b) = true)
    (hw : 0 < b.destW) (hh : 0 < b.destH) :
    let s := calls.foldl (Call.run font) (initVideo m back front)
    let u := (ops ++ [Op.flush api₀]).foldl (Op.run background) ⟨⟨[], none⟩, s⟩
    (flush background (packedXrgbBlitScaledFallback background mem b u api).1 api).1.screen.target =
        (appGfxSurfaceBlit background task mem api u.screen b).1.target ∧
      (background = false → api.any Api.syscall = true →
        ((packedXrgbBlitScaledFallback background mem b u api).2 = true ↔
          0 < (appGfxSurfaceBlit background task mem api u.screen b).2)) := by
  intro s u
  obtain ⟨hscreen, hnil⟩ : Alike m u.screen u.screen ∧ u.batch.rects = [] := by
    refine ⟨(settled_run font m hgraphics back front calls background (ops ++ [Op.flush api₀])).screen,
      ?_⟩
    have hrun := settled_run font m hgraphics back front calls background ops
    unfold u
    rw [List.foldl_append]
    exact (flush_draws _ api₀ hrun.screen hrun.api).2
  have hstart : Settled background m u u.screen := by
    refine ⟨by rw [hnil]; decide, fun hne => absurd hnil hne, hscreen, ?_⟩
    rw [hnil]
    exact hscreen
  have hprompt : Prompt u api :=
    ⟨fun q hq => (by rw [hnil] at hq; cases hq), fun hne => absurd hnil hne⟩
  have hempty : (flush background u api).1 = u := by
    unfold flush
    rw [if_pos hnil]
  rw [fallback_eq]
  split
  · rename_i hno
    rw [hempty]
    rcases hno with rfl | hno
    · exact ⟨rfl, fun _ hapi => nomatch hapi⟩
    by_cases hquiet : background = true ∨ ¬ api.any Api.syscall = true
    · rw [blit_none hquiet]
      refine ⟨rfl, fun hfore hapi => ?_⟩
      rcases hquiet with hback | hnone
      · rw [hfore] at hback
        cases hback
      · exact absurd hapi hnone
    · rw [not_or, not_not, Bool.not_eq_true] at hquiet
      obtain ⟨rfl, hapi⟩ := hquiet
      unfold appGfxSurfaceBlit appSyscall
      dsimp only
      rw [if_pos hapi, gfxSurfaceBlit_eq hformat hstride hown hw hh, if_neg hno]
      exact ⟨rfl, fun _ _ => iff_of_false Bool.false_ne_true (Int.lt_irrefl 0)⟩
  · rename_i hyes
    rw [not_or, not_not] at hyes
    have hqueued : Settled background m
        ((packedRuns mem b).foldl (enqueueAll background api) (u, true)).1
        (drawEach background api (packedRuns mem b) u.screen) := hstart.enqueueAll _
    have hflushed := (flush_draws _ api hqueued.screen hqueued.api).1.trans hqueued.alike
    by_cases hquiet : background = true ∨ ¬ api.any Api.syscall = true
    · rw [hflushed.target, drawEach_none hquiet, blit_none hquiet]
      refine ⟨rfl, fun hfore hapi => ?_⟩
      rcases hquiet with hback | hnone
      · rw [hfore] at hback
        cases hback
      · exact absurd hapi hnone
    · rw [not_or, not_not, Bool.not_eq_true] at hquiet
      obtain ⟨rfl, hapi⟩ := hquiet
      have hcall : appGfxSurfaceBlit false task mem api u.screen b =
          ((videoBlitSurface mem u.screen b).1, 1) := by
        unfold appGfxSurfaceBlit appSyscall
        dsimp only
        rw [if_pos hapi, gfxSurfaceBlit_eq hformat hstride hown hw hh, if_pos hyes.2]
      have hsafe : ∀ r ∈ packedRuns mem b, GfxLegacyRectSafe r.rect := by
        intro r hr
        obtain ⟨hpos, hpos', hright, hbottom, _⟩ := packedRuns_fit hyes.2 hw hh r hr
        unfold FitsInt Rect.right at hright
        unfold FitsInt Rect.bottom at hbottom
        exact .inr (.inr ⟨by omega, by omega⟩)
      rw [hcall, hflushed.target, drawEach_target hscreen hapi hformat hw hh hyes.2]
      exact ⟨rfl, fun _ _ => iff_of_true (hprompt.enqueueAll hapi hsafe) Int.one_pos⟩

/-- An app with 64 KiB. -/
def smallTask : Task := ⟨2, true, 0, [], 0, [], 0, 0x10000⟩

def twoPixels : Blit := ⟨0x01000000, 2, 1, 8, formatXrgbLe, 10, 10, 0, 0, 0, 0, 4, 2⟩

theorem fallback_blits_alike_scaled :
    let s := ([] : List Call).foldl (Call.run (fun _ _ => 0)) (initVideo mode640 (fun _ _ => 0)
      (fun _ _ => 0))
    let u := (([] : List Op) ++ [Op.flush none]).foldl (Op.run false) ⟨⟨[], none⟩, s⟩
    (flush false (packedXrgbBlitScaledFallback false (fun _ => 7) twoPixels u (some ⟨1, true⟩)).1
          (some ⟨1, true⟩)).1.screen.target =
        (appGfxSurfaceBlit false smallTask (fun _ => 7) (some ⟨1, true⟩) u.screen twoPixels).1.target ∧
      (false = false → (some ⟨1, true⟩ : Option Api).any Api.syscall = true →
        ((packedXrgbBlitScaledFallback false (fun _ => 7) twoPixels u (some ⟨1, true⟩)).2 = true ↔
          0 < (appGfxSurfaceBlit false smallTask (fun _ => 7) (some ⟨1, true⟩) u.screen twoPixels).2)) :=
  fallback_blits_alike (fun _ _ => 0) mode640 (by unfold Mode.Graphics mode640; decide) (fun _ _ => 0)
    (fun _ _ => 0) [] false [] none (some ⟨1, true⟩) smallTask (fun _ => 7) twoPixels rfl (by decide)
    (fun _ => by decide) (by decide) (by decide)

/-- One pixel of that app, with a destination of no size: of the size of the surface for the call,
and refused by the fallback. -/
def onePixel : Blit := ⟨0x01000000, 1, 1, 4, formatXrgbLe, 0, 0, 0, 0, 0, 0, 0, 0⟩

theorem fallback_refuses_source_size :
    let u : Painter := ⟨⟨[], none⟩, initVideo mode640 (fun _ _ => 0) (fun _ _ => 0)⟩
    userRangeValid smallTask (UInt32.ofNat onePixel.buffer) (User.sourceSpan onePixel) = true ∧
      (packedXrgbBlitScaledFallback false (fun _ => 7) onePixel u (some ⟨1, true⟩)).2 = false ∧
      0 < (appGfxSurfaceBlit false smallTask (fun _ => 7) (some ⟨1, true⟩) u.screen onePixel).2 ∧
      (flush false (packedXrgbBlitScaledFallback false (fun _ => 7) onePixel u (some ⟨1, true⟩)).1
        (some ⟨1, true⟩)).1.screen.target 0 0 ≠
        (appGfxSurfaceBlit false smallTask (fun _ => 7) (some ⟨1, true⟩) u.screen onePixel).1.target
          0 0 := by
  refine ⟨by decide, by decide, by decide, by decide⟩

end Ui
end MiniDos
