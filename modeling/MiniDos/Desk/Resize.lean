import MiniDos.Ui.Dispatch
import MiniDos.Ui.Paint

/-!
# MiniDos.Desk.Resize

A window of the desktop app is resized by its edges: `window_resize_hit_test` of `win95_layout.c`, and
`clamp_resize_preview` and `resize_preview_for_mouse` of `win95_input.c`.

* `Span`: what a rectangle has along one axis. Both axes are treated alike.
* `resizeSpan_spec`: along one axis the result is large enough, on the desktop, and fixed where it was
  not grabbed.
* `resizePreview_spec`: the same of the whole rectangle.
-/

namespace MiniDos
namespace Desk

open Video Ui Plane

def taskbarH : Int := 28
def windowResizeMargin : Int := 5
def windowMinW : Int := 220
def windowMinH : Int := 150

/-- `RESIZE_EDGE_LEFT` and the others, a bit of an `int` each. -/
structure Edges where
  left : Bool
  right : Bool
  top : Bool
  bottom : Bool
  deriving DecidableEq

def Edges.none : Edges := ⟨false, false, false, false⟩

/-! ## The hit test -/

def windowHitMinimize (w : Window) (x y : Int) : Bool :=
  w.hasMinimizeButton && rectContains (windowMinimizeButtonRect w) x y

def windowHitMaximize (w : Window) (x y : Int) : Bool :=
  w.hasMaximizeButton && rectContains (windowMaximizeButtonRect w) x y

/-- `window_resize_hit_test`, for a window that was found. -/
def windowResizeHitTest (win : WmWindow) (x y : Int) : Edges :=
  let bounds := win.window.bounds
  if !win.visible || win.window.minimized || win.window.maximized || !win.window.hasMaximizeButton then .none
  else if x < bounds.x ∨ y < bounds.y ∨ int32 (bounds.x + bounds.w) ≤ x ∨ int32 (bounds.y + bounds.h) ≤ y then .none
  else if windowHitClose win.window x y || windowHitMinimize win.window x y || windowHitMaximize win.window x y then
    .none
  else
    { left := decide (x < int32 (bounds.x + windowResizeMargin))
      right := decide (int32 (bounds.x + bounds.w - windowResizeMargin) ≤ x)
      top := decide (y < int32 (bounds.y + windowResizeMargin))
      bottom := decide (int32 (bounds.y + bounds.h - windowResizeMargin) ≤ y) }

/-! ## One axis -/

/-- `x` and `w` of a rectangle, or `y` and `h`. -/
structure Span where
  pos : Int
  len : Int
  deriving DecidableEq

/-- The grabbed edge follows the mouse; `near` is the left or the top one. -/
def pull (near far : Bool) (d : Int) (s : Span) : Span :=
  let s : Span := if near then ⟨int32 (s.pos + d), int32 (s.len - d)⟩ else s
  if far then { s with len := int32 (s.len + d) } else s

/-- A rectangle that is too small grows away from the edge that stays. -/
def growTo (near : Bool) (least : Int) (s : Span) : Span :=
  let last := int32 (s.pos + s.len)
  if s.len < least then ⟨if near then int32 (last - least) else s.pos, least⟩ else s

def cutBefore (start : Int) (s : Span) : Span :=
  if s.pos < start then ⟨start, int32 (s.len - int32 (start - s.pos))⟩ else s

def cutBehind (limit : Int) (s : Span) : Span :=
  if limit < int32 (s.pos + s.len) then { s with len := int32 (limit - s.pos) } else s

def atLeast (least : Int) (s : Span) : Span := if s.len < least then { s with len := least } else s

/-! ## The preview -/

/-- `window_desktop_bounds`. -/
def windowDesktopBounds (sw sh : Int) : Rect := ⟨0, 0, sw, int32 (sh - taskbarH)⟩

/-- `clamp_resize_preview`; each of its tests is made along both axes before the next. -/
def clampResizePreview (desktop rect : Rect) (edges : Edges) : Rect :=
  let x := growTo edges.left windowMinW ⟨rect.x, rect.w⟩
  let y := growTo edges.top windowMinH ⟨rect.y, rect.h⟩
  let x := cutBefore desktop.x x
  let y := cutBefore desktop.y y
  let x := cutBehind (int32 (desktop.x + desktop.w)) x
  let y := cutBehind (int32 (desktop.y + desktop.h)) y
  let x := atLeast windowMinW x
  let y := atLeast windowMinH y
  ⟨x.pos, y.pos, x.len, y.len⟩

/-- The fields of `demo_state_t` for it. -/
structure Resizing where
  sw : Int
  sh : Int
  mouseX : Int
  mouseY : Int
  startMouseX : Int
  startMouseY : Int
  startBounds : Rect
  edges : Edges

def Resizing.dx (s : Resizing) : Int := int32 (s.mouseX - s.startMouseX)

def Resizing.dy (s : Resizing) : Int := int32 (s.mouseY - s.startMouseY)

def resizePreviewForMouse (s : Resizing) : Rect :=
  let x := pull s.edges.left s.edges.right s.dx ⟨s.startBounds.x, s.startBounds.w⟩
  let y := pull s.edges.top s.edges.bottom s.dy ⟨s.startBounds.y, s.startBounds.h⟩
  clampResizePreview (windowDesktopBounds s.sw s.sh) ⟨x.pos, y.pos, x.len, y.len⟩ s.edges

/-! ## Along one axis -/

/-- The whole way of one axis, on a desktop from 0 to `limit`. -/
def resizeSpan (near far : Bool) (least limit d : Int) (s : Span) : Span :=
  atLeast least (cutBehind limit (cutBefore 0 (growTo near least (pull near far d s))))

/-- It is on the desktop and large enough, and what was not grabbed stays. -/
structure Resized (near far : Bool) (least limit : Int) (s s' : Span) : Prop where
  first : 0 ≤ s'.pos
  last : s'.pos + s'.len ≤ limit
  least : least ≤ s'.len
  near : near = false → s'.pos = s.pos
  far : far = false → s'.pos + s'.len = s.pos + s.len

variable {near far : Bool} {least limit d pos len : Int}

theorem int32_add_int32 (a b : Int) : int32 (int32 a + int32 b) = int32 (a + b) := by
  unfold int32
  rw [Int.bmod_add_bmod, Int.add_bmod_bmod]

theorem growTo_of_le (h : least ≤ len) : growTo near least ⟨pos, len⟩ = ⟨pos, len⟩ := if_neg (Int.not_lt.mpr h)

theorem cutBefore_of_le (h : 0 ≤ pos) : cutBefore 0 ⟨pos, len⟩ = ⟨pos, len⟩ := if_neg (Int.not_lt.mpr h)

theorem cutBehind_of_le (hpos : 0 ≤ pos) (hlen : 0 ≤ len) (hlast : pos + len ≤ limit) (hlimit : FitsInt limit) :
    cutBehind limit ⟨pos, len⟩ = ⟨pos, len⟩ := by
  have hfits : int32 (pos + len) = pos + len := int32_small (by rw [FitsInt] at hlimit; omega)
  exact if_neg (by rw [hfits]; omega)

theorem atLeast_of_le (h : least ≤ len) : atLeast least ⟨pos, len⟩ = ⟨pos, len⟩ := if_neg (Int.not_lt.mpr h)

theorem clamp_idle (hpos : 0 ≤ pos) (hlen : least ≤ len) (hlast : pos + len ≤ limit) (hlimit : FitsInt limit)
    (hleast : 0 < least) :
    atLeast least (cutBehind limit (cutBefore 0 (growTo near least ⟨pos, len⟩))) = ⟨pos, len⟩ := by
  rw [growTo_of_le hlen, cutBefore_of_le hpos, cutBehind_of_le hpos (by omega) hlast hlimit, atLeast_of_le hlen]

theorem resizeSpan_far (hpos : 0 ≤ pos) (hlen : least ≤ len) (hlast : pos + len ≤ limit) (hlimit : FitsInt limit)
    (hleast : 0 < least) (hd : FitsInt d) (hfits : FitsInt (pos + len + d)) :
    Resized false true least limit ⟨pos, len⟩ (resizeSpan false true least limit d ⟨pos, len⟩) := by
  have hlimit' := hlimit
  rw [FitsInt] at hd hfits hlimit'
  have hpull : pull false true d ⟨pos, len⟩ = ⟨pos, len + d⟩ := by
    unfold pull
    simp only [Bool.false_eq_true, if_false, if_true]
    rw [int32_small (by omega)]
  unfold resizeSpan
  rw [hpull]
  by_cases hsmall : len + d < least
  · -- the smallest one stands where the old one was
    have hgrow : growTo false least ⟨pos, len + d⟩ = ⟨pos, least⟩ := if_pos hsmall
    rw [hgrow, cutBefore_of_le hpos, cutBehind_of_le hpos hleast.le (by omega) hlimit, atLeast_of_le (Int.le_refl _)]
    exact ⟨hpos, by dsimp only; omega, Int.le_refl _, fun _ => rfl, fun h => absurd h (by decide)⟩
  · rw [growTo_of_le (Int.not_lt.mp hsmall), cutBefore_of_le hpos]
    have hsum : int32 (pos + (len + d)) = pos + (len + d) := int32_small (by omega)
    by_cases hover : limit < pos + (len + d)
    · have hcut : cutBehind limit ⟨pos, len + d⟩ = ⟨pos, limit - pos⟩ := by
        unfold cutBehind
        dsimp only
        rw [hsum, if_pos hover, int32_small (by omega)]
      rw [hcut, atLeast_of_le (by omega)]
      exact ⟨hpos, by dsimp only; omega, by dsimp only; omega, fun _ => rfl, fun h => absurd h (by decide)⟩
    · rw [cutBehind_of_le hpos (by omega) (Int.not_lt.mp hover) hlimit, atLeast_of_le (Int.not_lt.mp hsmall)]
      exact ⟨hpos, Int.not_lt.mp hover, Int.not_lt.mp hsmall, fun _ => rfl, fun h => absurd h (by decide)⟩

/-- The near edge is pulled. Wherever it would go, the other one is where it was. -/
theorem resizeSpan_near (hpos : 0 ≤ pos) (hlen : least ≤ len) (hlast : pos + len ≤ limit) (hlimit : FitsInt limit)
    (hleast : 0 < least) (hd : FitsInt d) :
    Resized true false least limit ⟨pos, len⟩ (resizeSpan true false least limit d ⟨pos, len⟩) := by
  have hlimit' := hlimit
  rw [FitsInt] at hd hlimit'
  have hpull : pull true false d ⟨pos, len⟩ = ⟨int32 (pos + d), int32 (len - d)⟩ := rfl
  unfold resizeSpan
  rw [hpull]
  by_cases hsmall : int32 (len - d) < least
  · have hsum : int32 (int32 (pos + d) + int32 (len - d)) = pos + len := by
      rw [int32_add_int32, (by omega : pos + d + (len - d) = pos + len), int32_small (by omega)]
    have hgrow : growTo true least ⟨int32 (pos + d), int32 (len - d)⟩ = ⟨pos + len - least, least⟩ := by
      unfold growTo
      dsimp only
      rw [hsum, if_pos hsmall, if_pos rfl, int32_small (by omega)]
    rw [hgrow, cutBefore_of_le (by omega), cutBehind_of_le (by omega) hleast.le (by omega) hlimit,
      atLeast_of_le (Int.le_refl _)]
    exact ⟨by dsimp only; omega, by dsimp only; omega, Int.le_refl _, fun h => absurd h (by decide),
      fun _ => by dsimp only; omega⟩
  · -- nothing wrapped
    have hwidth : int32 (len - d) = len - d := by
      have hsum := int32_sum (n := len - d) (by omega) (by omega)
      rw [FitsInt] at hsum
      omega
    have hrange := int32_range (len - d)
    rw [hwidth, FitsInt] at hrange
    rw [hwidth] at hsmall ⊢
    rw [int32_small (n := pos + d) (by omega), growTo_of_le (Int.not_lt.mp hsmall)]
    by_cases hout : pos + d < 0
    · have hcut : cutBefore 0 ⟨pos + d, len - d⟩ = ⟨0, pos + len⟩ := by
        unfold cutBefore
        dsimp only
        rw [if_pos hout, int32_small (n := 0 - (pos + d)) (by omega), int32_small (by omega)]
        congr 1
        omega
      rw [hcut, cutBehind_of_le (Int.le_refl _) (by omega) (by omega) hlimit, atLeast_of_le (by omega)]
      exact ⟨Int.le_refl _, by dsimp only; omega, by dsimp only; omega, fun h => absurd h (by decide),
        fun _ => Int.zero_add _⟩
    · rw [cutBefore_of_le (Int.not_lt.mp hout), cutBehind_of_le (Int.not_lt.mp hout) (by omega) (by omega) hlimit,
        atLeast_of_le (Int.not_lt.mp hsmall)]
      exact ⟨Int.not_lt.mp hout, by dsimp only; omega, Int.not_lt.mp hsmall, fun h => absurd h (by decide),
        fun _ => by dsimp only; omega⟩

theorem resizeSpan_spec (hpos : 0 ≤ pos) (hlen : least ≤ len) (hlast : pos + len ≤ limit) (hlimit : FitsInt limit)
    (hleast : 0 < least) (hd : FitsInt d) (hone : ¬ (near = true ∧ far = true))
    (hfits : far = true → FitsInt (pos + len + d)) :
    Resized near far least limit ⟨pos, len⟩ (resizeSpan near far least limit d ⟨pos, len⟩) := by
  cases near with
  | false =>
    cases far with
    | false =>
      have hidle : resizeSpan false false least limit d ⟨pos, len⟩ = ⟨pos, len⟩ :=
        clamp_idle hpos hlen hlast hlimit hleast
      rw [hidle]
      exact ⟨hpos, hlast, hlen, fun _ => rfl, fun _ => rfl⟩
    | true => exact resizeSpan_far hpos hlen hlast hlimit hleast hd (hfits rfl)
  | true =>
    cases far with
    | false => exact resizeSpan_near hpos hlen hlast hlimit hleast hd
    | true => exact absurd ⟨rfl, rfl⟩ hone

/-! ## Whole rectangles -/

/-- `r` is on the desktop and large enough, and each edge of `start` that was not grabbed is where it was. -/
structure Reshaped (desktop start : Rect) (edges : Edges) (r : Rect) : Prop where
  inside : desktop.Covers r
  width : windowMinW ≤ r.w
  height : windowMinH ≤ r.h
  left : edges.left = false → r.x = start.x
  right : edges.right = false → r.right = start.right
  top : edges.top = false → r.y = start.y
  bottom : edges.bottom = false → r.bottom = start.bottom

theorem windowResizeHitTest_one {win : WmWindow} (x y : Int) (hpos : 0 ≤ win.window.bounds.x ∧ 0 ≤ win.window.bounds.y)
    (hsize : windowMinW ≤ win.window.bounds.w ∧ windowMinH ≤ win.window.bounds.h)
    (hfits : FitsInt win.window.bounds.right ∧ FitsInt win.window.bounds.bottom) :
    ¬ ((windowResizeHitTest win x y).left = true ∧ (windowResizeHitTest win x y).right = true) ∧
      ¬ ((windowResizeHitTest win x y).top = true ∧ (windowResizeHitTest win x y).bottom = true) := by
  obtain ⟨⟨_, hright⟩, ⟨_, hbottom⟩⟩ := hfits
  unfold Rect.right at hright
  unfold Rect.bottom at hbottom
  unfold windowMinW windowMinH at hsize
  unfold windowResizeHitTest windowResizeMargin
  dsimp only
  split
  · simp [Edges.none]
  split
  · simp [Edges.none]
  split
  · simp [Edges.none]
  · rw [int32_small (n := win.window.bounds.x + 5) (by omega), int32_small (n := win.window.bounds.y + 5) (by omega),
      int32_small (n := win.window.bounds.x + win.window.bounds.w - 5) (by omega),
      int32_small (n := win.window.bounds.y + win.window.bounds.h - 5) (by omega)]
    simp only [decide_eq_true_eq]
    omega

/-- For every window on the desktop, every hit on its edges, and every place of the mouse to which the right
or lower edge can follow within an `int`. -/
theorem resizePreview_spec (s : Resizing) (win : WmWindow) (hitX hitY : Int) (hscreen : FitsInt s.sw ∧ FitsInt s.sh)
    (hdesktop : windowMinW ≤ s.sw ∧ windowMinH ≤ s.sh - taskbarH)
    (hinside : (windowDesktopBounds s.sw s.sh).Covers s.startBounds)
    (hsize : windowMinW ≤ s.startBounds.w ∧ windowMinH ≤ s.startBounds.h)
    (hwin : win.window.bounds = s.startBounds) (hedges : s.edges = windowResizeHitTest win hitX hitY)
    (hright : s.edges.right = true → FitsInt (s.startBounds.right + s.dx))
    (hbottom : s.edges.bottom = true → FitsInt (s.startBounds.bottom + s.dy)) :
    Reshaped (windowDesktopBounds s.sw s.sh) s.startBounds s.edges (resizePreviewForMouse s) := by
  obtain ⟨⟨hsw, hsw'⟩, ⟨hsh, hsh'⟩⟩ := hscreen
  have hroom : 220 ≤ s.sw ∧ 150 ≤ s.sh - 28 := hdesktop
  have hlimit : FitsInt s.sw ∧ FitsInt (s.sh - taskbarH) := by
    unfold FitsInt taskbarH
    omega
  have hheight : int32 (s.sh - taskbarH) = s.sh - taskbarH := int32_of_fits hlimit.2
  have hdesktop' : windowDesktopBounds s.sw s.sh = ⟨0, 0, s.sw, s.sh - taskbarH⟩ := by
    rw [windowDesktopBounds, hheight]
  rw [hdesktop'] at hinside ⊢
  have hleast : 0 < windowMinW ∧ 0 < windowMinH := by decide
  obtain ⟨hx, hy, hlast, hlow⟩ := hinside
  rw [Rect.right, Rect.right, Int.zero_add] at hlast
  rw [Rect.bottom, Rect.bottom, Int.zero_add] at hlow
  dsimp only at hx hy hlast hlow
  obtain ⟨honeX, honeY⟩ := @windowResizeHitTest_one win hitX hitY (by rw [hwin]; exact ⟨hx, hy⟩)
    (by rw [hwin]; exact hsize) (by
      rw [hwin, FitsInt, FitsInt, Rect.right, Rect.bottom]
      rw [FitsInt, FitsInt] at hlimit
      omega)
  rw [← hedges] at honeX honeY
  obtain ⟨hfirst, hend, hwide, hnear, hfar⟩ := resizeSpan_spec hx hsize.1 hlast hlimit.1 hleast.1
    (int32_range (s.mouseX - s.startMouseX)) honeX hright
  obtain ⟨hfirst', hend', htall, hnear', hfar'⟩ := resizeSpan_spec hy hsize.2 hlow hlimit.2 hleast.2
    (int32_range (s.mouseY - s.startMouseY)) honeY hbottom
  have hspans : resizePreviewForMouse s =
      ⟨(resizeSpan s.edges.left s.edges.right windowMinW s.sw s.dx ⟨s.startBounds.x, s.startBounds.w⟩).pos,
        (resizeSpan s.edges.top s.edges.bottom windowMinH (s.sh - taskbarH) s.dy
          ⟨s.startBounds.y, s.startBounds.h⟩).pos,
        (resizeSpan s.edges.left s.edges.right windowMinW s.sw s.dx ⟨s.startBounds.x, s.startBounds.w⟩).len,
        (resizeSpan s.edges.top s.edges.bottom windowMinH (s.sh - taskbarH) s.dy
          ⟨s.startBounds.y, s.startBounds.h⟩).len⟩ := by
    unfold resizePreviewForMouse clampResizePreview
    rw [hdesktop']
    dsimp only
    rw [Int.zero_add, Int.zero_add, int32_of_fits hlimit.1, int32_of_fits hlimit.2]
    rfl
  rw [hspans]
  refine ⟨⟨hfirst, hfirst', ?_, ?_⟩, hwide, htall, hnear, hfar, hnear', hfar'⟩
  · rw [Rect.right, Rect.right, Int.zero_add]
    exact hend
  · rw [Rect.bottom, Rect.bottom, Int.zero_add]
    exact hend'

def plainWindow (bounds : Rect) : WmWindow where
  id := 1
  window :=
    { bounds := bounds
      restoreBounds := bounds
      active := true
      hasCloseButton := true
      hasMinimizeButton := true
      hasMaximizeButton := true
      minimized := false
      maximized := false }
  visible := true
  zOrder := 1

def cornerPulled : Resizing where
  sw := 640
  sh := 480
  mouseX := 600
  mouseY := 479
  startMouseX := 419
  startMouseY := 299
  startBounds := ⟨100, 60, 320, 240⟩
  edges := ⟨false, true, false, true⟩

theorem resizePreview_corner :
    Reshaped (windowDesktopBounds cornerPulled.sw cornerPulled.sh) cornerPulled.startBounds cornerPulled.edges
      (resizePreviewForMouse cornerPulled) :=
  resizePreview_spec cornerPulled (plainWindow cornerPulled.startBounds) 419 299
    (by unfold FitsInt; decide) (by decide) (by decide) (by decide) rfl (by decide)
    (by unfold FitsInt; decide) (by unfold FitsInt; decide)

/-- The right edge is pulled to the last place of the mouse that an `int` holds. -/
def edgePulled : Resizing where
  sw := 640
  sh := 480
  mouseX := 2147483647
  mouseY := 80
  startMouseX := 229
  startMouseY := 80
  startBounds := ⟨10, 10, 220, 150⟩
  edges := ⟨false, true, false, false⟩

/-- The end of the rectangle wraps, so it is not cut. -/
theorem edge_escapes :
    edgePulled.edges = windowResizeHitTest (plainWindow edgePulled.startBounds) 229 80 ∧
      (windowDesktopBounds edgePulled.sw edgePulled.sh).Covers edgePulled.startBounds ∧
      ¬ Reshaped (windowDesktopBounds edgePulled.sw edgePulled.sh) edgePulled.startBounds edgePulled.edges
        (resizePreviewForMouse edgePulled) := by
  refine ⟨by decide, by decide, fun h => ?_⟩
  exact absurd h.inside (by decide)

end Desk
end MiniDos
