import MiniDos.Lib.Terminal
import MiniDos.Time.Timer
import MiniDos.Video.Glyphs

/-!
# MiniDos.Video.Console

The console in graphics mode: `video_text.c`. The text starts in the upper left corner of the screen;
the lock, the serial line and text mode are left out.

* `Console.step`: one call. `Pictured`: the cells, the counters and the pixels agree with a terminal.
* `Pictured.printChar`, `Pictured.show`, `Pictured.cls`: every call keeps it.
* `console_exact`: any number of calls.
-/

namespace MiniDos
namespace Video

open Plane

/-! ## The state -/

def maxTextCols : Int := 256
def maxTextRows : Int := 160

/-- `text_cols` and `text_rows`, as `init_video_once` computes them. -/
def Mode.textCols (m : Mode) : Int := max 1 (min maxTextCols (m.width / fontW))
def Mode.textRows (m : Mode) : Int := max 1 (min maxTextRows (m.height / fontH))

/-- The screen, and the statics of `video_text.c`. The text is indexed by row and column. -/
structure Console where
  screen : Screen
  textBuffer : Int → Int → UInt8
  cursorX : Int
  cursorY : Int
  graphicsCursorEnabled : Bool
  graphicsCursorDrawn : Bool
  graphicsCursorX : Int
  graphicsCursorY : Int
  graphicsCursorLastTick : UInt32

/-- `video_note_cell`. -/
def Screen.noteCell (s : Screen) (col row : Int) : Screen :=
  s.noteDirty ⟨col * fontW, row * fontH, fontW, fontH⟩

def Screen.noteTextArea (s : Screen) : Screen :=
  s.noteDirty ⟨0, 0, s.mode.textCols * fontW, s.mode.textRows * fontH⟩

def Screen.presentNow (now : Bool) (s : Screen) : Screen := if now then s.maybePresentPending else s

/-- The first cells of the first lines emptied. -/
def clearText (cols rows : Int) (text : Int → Int → UInt8) : Int → Int → UInt8 :=
  (List.range rows.toNat).foldl (fun b (y : Nat) =>
    (List.range cols.toNat).foldl (fun b (x : Nat) => storeCell b y x 0x20) b) text

/-- Every line moved up by one, and the last one emptied. -/
def scrollText (cols rows : Int) (text : Int → Int → UInt8) : Int → Int → UInt8 :=
  let moved := (List.range (rows - 1).toNat).foldl (fun b (y : Nat) =>
    (List.range cols.toNat).foldl (fun b (x : Nat) => storeCell b y x (b (y + 1) x)) b) text
  (List.range cols.toNat).foldl (fun b (x : Nat) => storeCell b (rows - 1) x 0x20) moved

/-- What `init_video_once` leaves. -/
def initConsole (m : Mode) (back front : Int → Int → UInt32) (text : Int → Int → UInt8) : Console where
  screen := initVideo m back front
  textBuffer := clearText maxTextCols maxTextRows text
  cursorX := 0
  cursorY := 0
  graphicsCursorEnabled := false
  graphicsCursorDrawn := false
  graphicsCursorX := 0
  graphicsCursorY := 0
  graphicsCursorLastTick := 0

namespace Console

def cols (c : Console) : Int := c.screen.mode.textCols
def rows (c : Console) : Int := c.screen.mode.textRows

section Calls

variable (font : Font)

/-! ## The cursor -/

/-- `graphics_cursor_period_ticks`. -/
def graphicsCursorPeriodTicks (timer : Timer.State) : UInt32 :=
  let ticks := Timer.msToTicksCeil timer 500
  if ticks = 0 then 1 else ticks

def graphicsCursorHide (now : Bool) (c : Console) : Console :=
  if c.graphicsCursorDrawn = false then c
  else if 0 ≤ c.graphicsCursorX ∧ c.graphicsCursorX < c.cols ∧
      0 ≤ c.graphicsCursorY ∧ c.graphicsCursorY < c.rows then
    { c with
      screen := ((c.screen.renderCell font c.graphicsCursorX c.graphicsCursorY
        (c.textBuffer c.graphicsCursorY c.graphicsCursorX)).noteCell
          c.graphicsCursorX c.graphicsCursorY).presentNow now
      graphicsCursorDrawn := false }
  else { c with graphicsCursorDrawn := false }

/-- The line under the cell of the cursor. -/
def underline (c : Console) : Rect :=
  ⟨c.cursorX * fontW, c.cursorY * fontH + (fontH - 2), fontW, 2⟩

def graphicsCursorDraw (now : Bool) (c : Console) : Console :=
  { c with
    screen := ((c.screen.fillRectRgb c.underline colorFg).noteDirty c.underline).presentNow now
    graphicsCursorDrawn := true
    graphicsCursorX := c.cursorX
    graphicsCursorY := c.cursorY }

def graphicsCursorShow (now : Bool) (c : Console) : Console :=
  if c.cursorX < 0 ∨ c.cursorY < 0 ∨ c.cols ≤ c.cursorX ∨ c.rows ≤ c.cursorY then
    c.graphicsCursorHide font now
  else if c.graphicsCursorDrawn = true ∧ c.graphicsCursorX = c.cursorX ∧
      c.graphicsCursorY = c.cursorY then c
  else (c.graphicsCursorHide font false).graphicsCursorDraw now

/-- `video_cursor_reset_blink`. -/
def cursorResetBlink (timer : Timer.State) (c : Console) : Console :=
  { c with
    graphicsCursorEnabled := timer.ready
    graphicsCursorLastTick := if timer.ready then timer.ticks else c.graphicsCursorLastTick
    }.graphicsCursorShow font true

/-- `video_cursor_suspend_graphics`. -/
def cursorSuspendGraphics (c : Console) : Console :=
  { c.graphicsCursorHide font false with
    graphicsCursorEnabled := false
    graphicsCursorLastTick := 0 }

/-- `video_cursor_blink_step`. -/
def cursorBlinkStep (timer : Timer.State) (c : Console) : Console :=
  if c.graphicsCursorEnabled = false ∨ timer.ready = false then c
  else if graphicsCursorPeriodTicks timer = 0 then c
  else if graphicsCursorPeriodTicks timer ≤ timer.ticks - c.graphicsCursorLastTick then
    let c := { c with graphicsCursorLastTick := timer.ticks }
    if c.graphicsCursorDrawn then c.graphicsCursorHide font true else c.graphicsCursorShow font true
  else c

/-! ## The text -/

def cls (c : Console) : Console :=
  let cleared := c.screen.clearGraphics colorBg
  let whole := screenRect cleared.mode.width cleared.mode.height
  { c with
    textBuffer := clearText c.cols c.rows c.textBuffer
    screen :=
      if cleared.backbufferReady then (cleared.noteDirty whole).presentPending
      else (cleared.fillFrontbufferRectRgb whole colorBg).clearDirty
    cursorX := 0
    cursorY := 0 }

def scrollGraphics (c : Console) : Console :=
  let text := scrollText c.cols c.rows c.textBuffer
  { c with
    textBuffer := text
    screen := ((c.screen.redrawTextBuffer font c.cols c.rows text).noteTextArea).maybePresentPending
    cursorY := c.rows - 1 }

def putChar (ch : UInt8) (c : Console) : Console :=
  { c with
    textBuffer := storeCell c.textBuffer c.cursorY c.cursorX ch
    screen := (c.screen.renderCell font c.cursorX c.cursorY ch).noteCell c.cursorX c.cursorY }

/-- The two checks of the cursor, which are made before and after a character. -/
def wrapCursor (c : Console) : Console :=
  if c.cols ≤ c.cursorX then { c with cursorX := 0, cursorY := c.cursorY + 1 } else c

def wrapScreen (c : Console) : Console := if c.rows ≤ c.cursorY then c.scrollGraphics font else c

/-- What is printed for a character that is no control character of the console. -/
def printable (ch : UInt8) : UInt8 := if ch < 32 ∨ 126 < ch then 0x3F else ch

def printCharOf (ch : UInt8) (c : Console) : Console :=
  if ch = 0x0A then { c with cursorX := 0, cursorY := c.cursorY + 1 }
  else if ch = 0x0D then { c with cursorX := 0 }
  else if ch = 0x08 then
    if 0 < c.cursorX then { c with cursorX := c.cursorX - 1 }.putChar font 0x20 else c
  else
    let c := (c.wrapCursor.wrapScreen font).putChar font (printable ch)
    { c with cursorX := c.cursorX + 1 }

def printChar (ch : UInt8) (c : Console) : Console :=
  let c := (c.printCharOf font ch).wrapCursor.wrapScreen font
  { c with screen := c.screen.maybePresentPending }

end Calls

/-- A call of the console. -/
inductive Step where
  | printChar (ch : UInt8)
  | cls
  | cursorHide (now : Bool)
  | cursorShow (now : Bool)
  | cursorResetBlink (timer : Timer.State)
  | cursorBlinkStep (timer : Timer.State)
  | cursorSuspend

def step (font : Font) (c : Console) : Step → Console
  | .printChar ch => c.printChar font ch
  | .cls => c.cls
  | .cursorHide now => c.graphicsCursorHide font now
  | .cursorShow now => c.graphicsCursorShow font now
  | .cursorResetBlink timer => c.cursorResetBlink font timer
  | .cursorBlinkStep timer => c.cursorBlinkStep font timer
  | .cursorSuspend => c.cursorSuspendGraphics font

end Console

/-! ## Pixels -/

/-- A pixel of a cell that is on the screen. -/
def Mode.OnText (m : Mode) (x y : Int) : Prop :=
  0 ≤ x / fontW ∧ x / fontW < m.textCols ∧ 0 ≤ y / fontH ∧ y / fontH < m.textRows

theorem Mode.Graphics.textArea {m : Mode} (hg : m.Graphics) :
    (1 ≤ m.textCols ∧ m.textCols ≤ maxTextCols ∧ m.textCols * 8 ≤ m.width) ∧
      1 ≤ m.textRows ∧ m.textRows ≤ maxTextRows ∧ m.textRows * 8 ≤ m.height := by
  obtain ⟨hwidth, hheight, _⟩ := hg
  unfold Mode.textCols Mode.textRows maxTextCols maxTextRows fontW fontH
  omega

/-- The pixels of the cells are those of the text, but for the pixels of `hole`. -/
def Lit (font : Font) (m : Mode) (hole : Int → Int → Prop) (text : Int → Int → UInt8) (s : Screen) :
    Prop :=
  ∀ x y, m.OnText x y → ¬ hole x y → s.back x y = picture font text x y

variable {font : Font} {m : Mode} {s s' : Screen} {hole hole' : Int → Int → Prop}
  {text : Int → Int → UInt8} {row col : Int}

theorem Fitted.shown {R : Int → Int → Prop} {v : Int → Int → UInt32} (h : Fitted m s)
    (hs : Shows R v s s') :
    (∀ x y, R x y → s'.back x y = v x y) ∧ ∀ x y, ¬ R x y → s'.back x y = s.back x y := by
  have hready : s'.backbufferReady = true := hs.ready.trans h.ready
  have hcolor : ∀ rgb, s.onTarget rgb = rgb := fun _ => if_pos h.ready
  rw [← target_ready hready, ← target_ready h.ready]
  exact ⟨fun x y hx => (hs.inside x y hx).trans (hcolor _), hs.outside⟩

theorem presentNow_back (now : Bool) (s : Screen) : (s.presentNow now).back = s.back := by
  unfold Screen.presentNow
  split
  · exact maybePresentPending_back s
  · rfl

theorem Fitted.presentNow (hm : Roomy m) (h : Fitted m s) (now : Bool) :
    Fitted m (s.presentNow now) := by
  unfold Screen.presentNow
  split
  · exact h.maybePresent hm
  · exact h

namespace Lit

theorem congr (h : Lit font m hole text s) (hback : s'.back = s.back) :
    Lit font m hole text s' := by
  intro x y hon hout
  rw [hback]
  exact h x y hon hout

theorem mono (h : Lit font m hole text s) (hhole : ∀ x y, hole x y → hole' x y) :
    Lit font m hole' text s := fun x y hon hout => h x y hon (fun hin => hout (hhole x y hin))

theorem renderCell (hm : Roomy m) (hg : m.Graphics) (hs : Fitted m s) (h : Lit font m hole text s)
    (hcol : 0 ≤ col ∧ col < m.textCols) (hrow : 0 ≤ row ∧ row < m.textRows) (ch : UInt8) :
    Fitted m (s.renderCell font col row ch) ∧
      Lit font m (fun x y => hole x y ∧ ¬ InCell col row x y) (storeCell text row col ch)
        (s.renderCell font col row ch) := by
  obtain ⟨⟨_, _, hwidth⟩, _, _, hheight⟩ := hg.textArea
  obtain ⟨hfit, hshows⟩ := shows_renderCell hm font ch hs (by omega : 0 ≤ col ∧ col * 8 + 8 ≤ m.width)
    (by omega : 0 ≤ row ∧ row * 8 + 8 ≤ m.height)
  obtain ⟨hin, hout⟩ := hs.shown hshows
  refine ⟨hfit, fun x y hon hhole => ?_⟩
  unfold picture storeCell
  by_cases hcell : InCell col row x y
  · rw [if_pos ⟨hcell.2, hcell.1⟩]
    exact hin x y hcell
  · rw [if_neg (fun hno => hcell ⟨hno.2, hno.1⟩), hout x y hcell]
    exact h x y hon (fun hno => hhole ⟨hno, hcell⟩)

theorem redraw (font : Font) (hole : Int → Int → Prop) (hm : Roomy m) (hg : m.Graphics)
    (hs : Fitted m s) (text : Int → Int → UInt8) :
    Fitted m (s.redrawTextBuffer font m.textCols m.textRows text) ∧
      Lit font m hole text (s.redrawTextBuffer font m.textCols m.textRows text) := by
  obtain ⟨⟨_, _, hwidth⟩, _, _, hheight⟩ := hg.textArea
  obtain ⟨hfit, hshows⟩ := shows_redraw hm font text hs hwidth hheight
  exact ⟨hfit, fun x y hon _ => (hs.shown hshows).1 x y hon⟩

theorem blank (hfont : ∀ y, font 0x20 y = 0)
    (htext : ∀ row col, 0 ≤ row → row < m.textRows → 0 ≤ col → col < m.textCols → text row col = 0x20)
    (hback : ∀ x y, m.OnText x y → s.back x y = colorBg) : Lit font m hole text s := by
  rintro x y ⟨hx, hx', hy, hy'⟩ _
  rw [hback x y ⟨hx, hx', hy, hy'⟩]
  unfold picture glyphPixel
  rw [htext _ _ hy hy' hx hx', hfont, UInt8.zero_and, if_neg (fun hno => hno rfl)]

end Lit

/-! ## The array -/

theorem clearText_eq (text : Int → Int → UInt8) {cols rows : Int} (hrow : 0 ≤ row ∧ row < rows)
    (hcol : 0 ≤ col ∧ col < cols) : clearText cols rows text row col = 0x20 := by
  have hloop := congrFun (congrFun (storeLines_eq text (fun _ _ _ => 0x20)
    (fun _ _ _ _ => rfl) rows.toNat cols.toNat) row) col
  exact hloop.trans (if_pos (by omega))

theorem scrollText_eq (text : Int → Int → UInt8) {cols rows : Int} (hrow : 0 ≤ row ∧ row < rows)
    (hcol : 0 ≤ col ∧ col < cols) : scrollText cols rows text row col =
      if row + 1 < rows then text (row + 1) col else 0x20 := by
  have hmoved := storeLines_eq text (fun b y x => b (y + 1) x)
    (fun b b' y hrows => funext (fun x => hrows (y + 1) x (by omega))) (rows - 1).toNat cols.toNat
  unfold scrollText
  rw [hmoved, storeLine_eq _ (fun _ _ => (0x20 : UInt8)) (fun _ _ _ => rfl) cols.toNat]
  dsimp only
  by_cases hlast : row + 1 < rows
  · rw [if_neg (by omega), if_pos (by omega), if_pos hlast]
  · rw [if_pos (by omega), if_neg hlast]

/-! ## The terminal -/

abbrev Mode.Terminal (m : Mode) : Type :=
  MiniDos.Terminal UInt8 m.textCols.toNat m.textRows.toNat

def Mode.terminal (m : Mode) (hg : m.Graphics) : m.Terminal :=
  .empty 0x20 (by have := hg.textArea; omega) (by have := hg.textArea; omega)

def Console.UnderCursor (c : Console) (x y : Int) : Prop :=
  c.graphicsCursorDrawn = true ∧ InCell c.graphicsCursorX c.graphicsCursorY x y

structure Pictured (font : Font) (m : Mode) (t : m.Terminal) (c : Console) : Prop where
  fitted : Fitted m c.screen
  held : t.Held c.textBuffer c.cursorX c.cursorY
  lit : Lit font m c.UnderCursor c.textBuffer c.screen

namespace Pictured

variable {t : m.Terminal} {c : Console}

theorem cols_eq (h : Pictured font m t c) : c.cols = m.textCols := congrArg _ h.fitted.mode

theorem rows_eq (h : Pictured font m t c) : c.rows = m.textRows := congrArg _ h.fitted.mode

theorem cursor_mem (hg : m.Graphics) (h : Pictured font m t c) :
    (0 ≤ c.cursorX ∧ c.cursorX < m.textCols) ∧ 0 ≤ c.cursorY ∧ c.cursorY < m.textRows := by
  obtain ⟨⟨hcols, _⟩, hrows, _⟩ := hg.textArea
  have hx := h.held.column_mem
  have hy := h.held.row_mem
  omega

theorem present (hm : Roomy m) (h : Pictured font m t c) :
    Pictured font m t { c with screen := c.screen.maybePresentPending } :=
  ⟨h.fitted.maybePresent hm, h.held, h.lit.congr (maybePresentPending_back _)⟩

theorem blinking (h : Pictured font m t c) (enabled : Bool) (tick : UInt32) :
    Pictured font m t
      { c with graphicsCursorEnabled := enabled, graphicsCursorLastTick := tick } :=
  ⟨h.fitted, h.held, h.lit⟩

theorem wraps_eq (hg : m.Graphics) (h : Pictured font m t c) :
    (c.wrapCursor.wrapScreen font) = c := by
  obtain ⟨hx, hy⟩ := cursor_mem hg h
  have hwrap : c.wrapCursor = c := if_neg (by rw [h.cols_eq]; omega)
  rw [hwrap]
  exact if_neg (by rw [h.rows_eq]; omega)

section Calls

variable (hm : Roomy m) (hg : m.Graphics)
include hm hg

theorem putChar (h : Pictured font m t c) (ch : UInt8) :
    Pictured font m (t.put ch) (c.putChar font ch) := by
  obtain ⟨hx, hy⟩ := cursor_mem hg h
  obtain ⟨hfit, hlit⟩ := h.lit.renderCell hm hg h.fitted hx hy ch
  exact ⟨hfit.noteDirty _, h.held.put ch, (hlit.mono (fun _ _ hin => hin.1)).congr rfl⟩

/-- Behind the last line, the screen scrolls. -/
theorem wrapScreen {y : Int} (hfit : Fitted m c.screen) (hheld : t.Held c.textBuffer c.cursorX y)
    (hy : c.cursorY = y + 1) (hlit : Lit font m c.UnderCursor c.textBuffer c.screen) :
    Pictured font m (t.lineFeed 0x20) (c.wrapScreen font) := by
  obtain ⟨⟨hcols, _⟩, hrows, _⟩ := hg.textArea
  have hcount : (m.textRows.toNat : Int) = m.textRows := Int.toNat_of_nonneg (by omega)
  have hc : c.cols = m.textCols := congrArg _ hfit.mode
  have hr : c.rows = m.textRows := congrArg _ hfit.mode
  unfold Console.wrapScreen
  rw [hr]
  split
  · rename_i hlast
    unfold Console.scrollGraphics
    dsimp only
    rw [hc, hr]
    obtain ⟨hredrawn, hshown⟩ :=
      Lit.redraw font c.UnderCursor hm hg hfit (scrollText m.textCols m.textRows c.textBuffer)
    refine ⟨(hredrawn.noteDirty _).maybePresent hm, ?_, hshown.congr (maybePresentPending_back _)⟩
    have hmoved : ∀ row col : Int, 0 ≤ row → row < m.textRows.toNat → 0 ≤ col →
        col < m.textCols.toNat → scrollText m.textCols m.textRows c.textBuffer row col =
          if row + 1 < m.textRows.toNat then c.textBuffer (row + 1) col else 0x20 := by
      intro row col hrow hrow' hcol hcol'
      rw [hcount] at hrow' ⊢
      exact scrollText_eq c.textBuffer ⟨hrow, hrow'⟩ ⟨hcol, by omega⟩
    have hscrolled := hheld.scroll (by omega) hmoved
    rw [hcount] at hscrolled
    exact hscrolled
  · rename_i hroom
    refine ⟨hfit, ?_, hlit⟩
    rw [hy]
    exact hheld.lineFeed (by omega)

theorem newline (h : Pictured font m t c) :
    Pictured font m (t.newline 0x20)
      (({ c with cursorX := 0, cursorY := c.cursorY + 1 } : Console).wrapScreen font) :=
  wrapScreen (c := { c with cursorX := 0, cursorY := c.cursorY + 1 }) hm hg h.fitted
    h.held.carriageReturn rfl h.lit

theorem advance (h : Pictured font m t c) :
    Pictured font m (t.advance 0x20)
      (({ c with cursorX := c.cursorX + 1 } : Console).wrapCursor.wrapScreen font) := by
  obtain ⟨hx, hy⟩ := cursor_mem hg h
  have hcount : (m.textCols.toNat : Int) = m.textCols := Int.toNat_of_nonneg (by omega)
  by_cases hroom : c.cursorX + 1 < m.textCols.toNat
  · have hmoved : Pictured font m (t.advance 0x20) { c with cursorX := c.cursorX + 1 } :=
      ⟨h.fitted, h.held.advance hroom, h.lit⟩
    rw [wraps_eq hg hmoved]
    exact hmoved
  · have hwrap : ({ c with cursorX := c.cursorX + 1 } : Console).wrapCursor =
        { c with cursorX := 0, cursorY := c.cursorY + 1 } := by
      refine if_pos ?_
      show c.cols ≤ c.cursorX + 1
      rw [h.cols_eq]
      omega
    rw [h.held.wrap hroom, hwrap]
    exact newline hm hg h

end Calls

end Pictured

/-! ## The calls -/

def keyOf (ch : UInt8) : Terminal.Key UInt8 :=
  if ch = 0x0A then .newline
  else if ch = 0x0D then .carriageReturn
  else if ch = 0x08 then .backspace
  else .print (if 32 ≤ ch ∧ ch ≤ 126 then ch else 0x3F)

/-- What a call is for the terminal; the cursor is no part of it. -/
def Console.Step.onTerminal (t : m.Terminal) : Console.Step → m.Terminal
  | .printChar ch => t.press 0x20 (keyOf ch)
  | .cls => t.clear 0x20
  | _ => t

theorem printable_eq (ch : UInt8) :
    Console.printable ch = if 32 ≤ ch ∧ ch ≤ 126 then ch else 0x3F := by
  have hiff : (ch < 32 ∨ 126 < ch) ↔ ¬ (32 ≤ ch ∧ ch ≤ 126) := by
    rw [← UInt8.not_le, ← UInt8.not_le, not_and_or]
  unfold Console.printable
  by_cases hch : 32 ≤ ch ∧ ch ≤ 126
  · rw [if_pos hch, if_neg (fun hno => hiff.mp hno hch)]
  · rw [if_neg hch, if_pos (hiff.mpr hch)]

namespace Pictured

variable {t : m.Terminal} {c : Console}

section Calls

variable (hm : Roomy m) (hg : m.Graphics)
include hm hg

theorem printChar (h : Pictured font m t c) (ch : UInt8) :
    Pictured font m (t.press 0x20 (keyOf ch)) (c.printChar font ch) := by
  refine Pictured.present hm ?_
  unfold keyOf Console.printCharOf
  split
  · have hwrap : ({ c with cursorX := 0, cursorY := c.cursorY + 1 } : Console).wrapCursor =
        { c with cursorX := 0, cursorY := c.cursorY + 1 } := by
      refine if_neg ?_
      show ¬ c.cols ≤ 0
      have := hg.textArea.1.1
      rw [h.cols_eq]
      omega
    rw [hwrap]
    exact newline hm hg h
  split
  · have hreturn : Pictured font m t.carriageReturn { c with cursorX := 0 } :=
      ⟨h.fitted, h.held.carriageReturn, h.lit⟩
    rw [wraps_eq hg hreturn]
    exact hreturn
  split
  · show Pictured font m (t.backspace 0x20) _
    split
    · rename_i hpos
      obtain ⟨hx, hy⟩ := cursor_mem hg h
      obtain ⟨hfit, hlit⟩ := h.lit.renderCell hm hg h.fitted
        (by omega : 0 ≤ c.cursorX - 1 ∧ c.cursorX - 1 < m.textCols) hy 0x20
      have hback : Pictured font m (t.backspace 0x20)
          (({ c with cursorX := c.cursorX - 1 } : Console).putChar font 0x20) :=
        ⟨hfit.noteDirty _, h.held.backspace hpos, (hlit.mono (fun _ _ hin => hin.1)).congr rfl⟩
      rw [wraps_eq hg hback]
      exact hback
    · rename_i hfirst
      rw [h.held.backspace_first hfirst, wraps_eq hg h]
      exact h
  · rw [wraps_eq hg h, ← printable_eq]
    exact advance hm hg (putChar hm hg h _)

theorem hide (h : Pictured font m t c) (now : Bool) :
    Pictured font m t (c.graphicsCursorHide font now) ∧
      (c.graphicsCursorHide font now).graphicsCursorDrawn = false := by
  unfold Console.graphicsCursorHide
  rw [h.cols_eq, h.rows_eq]
  split
  · exact ⟨h, ‹_›⟩
  split
  · rename_i hin
    obtain ⟨hfit, hlit⟩ := h.lit.renderCell hm hg h.fitted ⟨hin.1, hin.2.1⟩ hin.2.2
      (c.textBuffer c.graphicsCursorY c.graphicsCursorX)
    rw [storeCell_self] at hlit
    refine ⟨⟨(hfit.noteDirty _).presentNow hm now, h.held, ?_⟩, rfl⟩
    exact (hlit.mono (fun _ _ hno => absurd hno.1.2 hno.2)).congr (presentNow_back now _)
  · rename_i hout
    refine ⟨⟨h.fitted, h.held, fun x y hon _ => h.lit x y hon (fun hno => hout ?_)⟩, rfl⟩
    obtain ⟨hx, hx', hy, hy'⟩ := hon
    obtain ⟨_, hcol, hrow⟩ := hno
    rw [← hcol, ← hrow]
    exact ⟨hx, hx', hy, hy'⟩

theorem draw (h : Pictured font m t c) (hdrawn : c.graphicsCursorDrawn = false) (now : Bool) :
    Pictured font m t (c.graphicsCursorDraw now) := by
  obtain ⟨⟨_, hcols, _⟩, _, hrows, _⟩ := hg.textArea
  obtain ⟨hx, hy⟩ := cursor_mem hg h
  unfold maxTextCols at hcols
  unfold maxTextRows at hrows
  have hshows := shows_fillRectRgb (.inr ⟨hm, h.fitted⟩) (r := c.underline)
    (by show (0 : Int) < 8; decide) (by show (0 : Int) < 2; decide)
    (by unfold FitsInt Console.underline fontW; dsimp only; omega)
    (by unfold FitsInt Console.underline fontH; dsimp only; omega) colorFg
  refine ⟨((h.fitted.fillRectRgb hm _ _).noteDirty _).presentNow hm now, h.held, ?_⟩
  refine Lit.congr (s := c.screen.fillRectRgb c.underline colorFg) (fun x y hon hout => ?_)
    (presentNow_back now _)
  have hcell : ¬ c.underline.Has x y := by
    refine fun hin => hout ⟨rfl, inCell_iff.mpr ?_⟩
    unfold Rect.Has Rect.right Rect.bottom Console.underline fontW fontH at hin
    dsimp only [Console.graphicsCursorDraw] at hin ⊢
    omega
  rw [(h.fitted.shown hshows).2 x y (fun hin => hcell hin.1)]
  exact h.lit x y hon (fun hno => absurd hno.1 (by rw [hdrawn]; decide))

theorem reveal (h : Pictured font m t c) (now : Bool) :
    Pictured font m t (c.graphicsCursorShow font now) := by
  unfold Console.graphicsCursorShow
  split
  · exact (hide hm hg h now).1
  split
  · exact h
  · obtain ⟨hhidden, hdrawn⟩ := hide hm hg h false
    exact draw hm hg hhidden hdrawn now

theorem blinkStep (h : Pictured font m t c) (timer : Timer.State) :
    Pictured font m t (c.cursorBlinkStep font timer) := by
  unfold Console.cursorBlinkStep
  split
  · exact h
  split
  · exact h
  split
  · have hticked := blinking h c.graphicsCursorEnabled timer.ticks
    dsimp only
    split
    · exact (hide hm hg hticked true).1
    · exact reveal hm hg hticked true
  · exact h

theorem resetBlink (h : Pictured font m t c) (timer : Timer.State) :
    Pictured font m t (c.cursorResetBlink font timer) :=
  reveal hm hg (blinking h _ _) true

theorem suspend (h : Pictured font m t c) : Pictured font m t (c.cursorSuspendGraphics font) :=
  blinking (hide hm hg h false).1 false 0

end Calls

end Pictured

theorem Fitted.cleared (hm : Roomy m) (hg : m.Graphics) (h : Fitted m s) :
    Fitted m (s.clearGraphics colorBg) ∧
      ∀ x y, m.OnText x y → (s.clearGraphics colorBg).back x y = colorBg := by
  obtain ⟨⟨_, hcols, hwidth⟩, _, hrows, hheight⟩ := hg.textArea
  obtain ⟨hw, hh⟩ := hm.bounds
  have hmode := h.mode
  have hshows := shows_fillRectRgb (.inr ⟨hm, h⟩) (r := screenRect s.mode.width s.mode.height)
    (by rw [hmode]; exact hm.width) (by rw [hmode]; exact hm.height)
    (by rw [hmode]; unfold FitsInt screenRect; have := hm.width; dsimp only; omega)
    (by rw [hmode]; unfold FitsInt screenRect; have := hm.height; dsimp only; omega) colorBg
  refine ⟨h.fillRectRgb hm _ _, fun x y hon => (h.shown hshows).1 x y ?_⟩
  rw [and_self, hmode, screenRect_has]
  unfold Mode.OnText fontW fontH at hon
  omega

namespace Pictured

variable {t : m.Terminal} {c : Console}

theorem cls (hm : Roomy m) (hg : m.Graphics) (hfont : ∀ y, font 0x20 y = 0)
    (h : Pictured font m t c) : Pictured font m (t.clear 0x20) c.cls := by
  obtain ⟨hcleared, hback⟩ := h.fitted.cleared hm hg
  obtain ⟨⟨hcols, _⟩, hrows, _⟩ := hg.textArea
  have htext : ∀ row col, 0 ≤ row → row < m.textRows → 0 ≤ col → col < m.textCols →
      clearText m.textCols m.textRows c.textBuffer row col = 0x20 :=
    fun row col hrow hrow' hcol hcol' => clearText_eq _ ⟨hrow, hrow'⟩ ⟨hcol, hcol'⟩
  unfold Console.cls
  dsimp only
  rw [if_pos hcleared.ready, h.cols_eq, h.rows_eq]
  refine ⟨(hcleared.noteDirty _).presentPending hm, ?_, ?_⟩
  · exact Terminal.Held.empty t.x.pos t.y.pos (fun row col hrow hrow' hcol hcol' =>
      htext row col hrow (by omega) hcol (by omega))
  · refine Lit.blank hfont htext (fun x y hon => ?_)
    rw [presentPending_back]
    exact hback x y hon

theorem step (hm : Roomy m) (hg : m.Graphics) (hfont : ∀ y, font 0x20 y = 0)
    (h : Pictured font m t c) (a : Console.Step) :
    Pictured font m (a.onTerminal t) (c.step font a) := by
  cases a with
  | printChar ch => exact printChar hm hg h ch
  | cls => exact cls hm hg hfont h
  | cursorHide now => exact (hide hm hg h now).1
  | cursorShow now => exact reveal hm hg h now
  | cursorResetBlink timer => exact resetBlink hm hg h timer
  | cursorBlinkStep timer => exact blinkStep hm hg h timer
  | cursorSuspend => exact suspend hm hg h

theorem init (hm : Roomy m) (hg : m.Graphics) (hfont : ∀ y, font 0x20 y = 0)
    (back front : Int → Int → UInt32) (text : Int → Int → UInt8) :
    Pictured font m (m.terminal hg) (initConsole m back front text) := by
  obtain ⟨hcleared, hback⟩ := (hm.fitted back front).cleared hm hg
  obtain ⟨⟨_, hcols, _⟩, _, hrows, _⟩ := hg.textArea
  have htext : ∀ row col, 0 ≤ row → row < m.textRows → 0 ≤ col → col < m.textCols →
      clearText maxTextCols maxTextRows text row col = 0x20 :=
    fun row col hrow hrow' hcol hcol' => clearText_eq text ⟨hrow, Int.lt_of_lt_of_le hrow' hrows⟩
      ⟨hcol, Int.lt_of_lt_of_le hcol' hcols⟩
  have hscreen : Fitted m (initVideo m back front) := (hcleared.noteDirty _).presentPending hm
  have hlit : Lit font m (fun _ _ => False) (clearText maxTextCols maxTextRows text)
      (initVideo m back front) := by
    refine Lit.blank hfont htext (fun x y hon => ?_)
    unfold initVideo
    rw [presentPending_back]
    exact hback x y hon
  have hheld : (m.terminal hg).Held (clearText maxTextCols maxTextRows text) 0 0 :=
    Terminal.Held.empty _ _ (fun row col hrow hrow' hcol hcol' =>
      htext row col hrow (by omega) hcol (by omega))
  unfold initConsole
  refine ⟨hscreen, ?_, ?_⟩
  · dsimp only
    exact hheld
  · dsimp only
    exact hlit.mono (fun _ _ hno => hno.elim)

end Pictured

/-- After any calls, the cursor is in a cell, the text is the grid of the terminal, and the pixels of
every cell are its glyph, but for the cell whose cursor is shown. -/
theorem console_exact (m : Mode) (hg : m.Graphics) (back front : Int → Int → UInt32)
    (hready : (initScreen m back front).backbufferReady = true) (text : Int → Int → UInt8)
    (steps : List Console.Step) :
    let c := steps.foldl (Console.step glyphForChar) (initConsole m back front text)
    let t := steps.foldl Console.Step.onTerminal (m.terminal hg)
    ((0 ≤ c.cursorX ∧ c.cursorX < m.textCols) ∧ 0 ≤ c.cursorY ∧ c.cursorY < m.textRows) ∧
    (c.cursorX = t.x.val ∧ c.cursorY = t.y.val ∧
      ∀ (row : Fin m.textRows.toNat) (col : Fin m.textCols.toNat),
        c.textBuffer row.val col.val = t.grid row col) ∧
    c.screen.backbufferReady = true ∧
    ∀ row col, 0 ≤ row → row < m.textRows → 0 ≤ col → col < m.textCols →
      ¬ (c.graphicsCursorDrawn = true ∧ c.graphicsCursorX = col ∧ c.graphicsCursorY = row) →
      ∀ px py : Nat, px < 8 → py < 8 → c.screen.back (col * fontW + px) (row * fontH + py) =
        glyphPixel glyphForChar (c.textBuffer row col) px py := by
  have hm : Roomy m := by
    obtain ⟨hwidth, hheight, _, _⟩ := hg
    exact ⟨by omega, by omega, hready⟩
  have hrun : Pictured glyphForChar m (steps.foldl Console.Step.onTerminal (m.terminal hg))
      (steps.foldl (Console.step glyphForChar) (initConsole m back front text)) := by
    refine List.foldl_rel (r := fun c t => Pictured glyphForChar m t c)
      (.init hm hg glyphForChar_space back front text) (fun a _ c t h => ?_)
    exact h.step hm hg glyphForChar_space a
  intro c t
  refine ⟨hrun.cursor_mem hg, ⟨hrun.held.column, hrun.held.row, hrun.held.cells⟩,
    hrun.fitted.ready, ?_⟩
  intro row col hrow hrow' hcol hcol' hhole px py hpx hpy
  have hx : (col * fontW + px) / fontW = col ∧ ((col * fontW + px) % fontW).toNat = px := by
    unfold fontW
    omega
  have hy : (row * fontH + py) / fontH = row ∧ ((row * fontH + py) % fontH).toNat = py := by
    unfold fontH
    omega
  have hlit := hrun.lit (col * fontW + px) (row * fontH + py)
    (by unfold Mode.OnText; rw [hx.1, hy.1]; exact ⟨hcol, hcol', hrow, hrow'⟩)
    (by
      rintro ⟨hdrawn, hin⟩
      rw [InCell, hx.1, hy.1] at hin
      exact hhole ⟨hdrawn, hin.1.symm, hin.2.symm⟩)
  rw [hlit, picture, hx.1, hx.2, hy.1, hy.2]

/-- A letter, with the cursor behind it. -/
theorem console_exact_letter :
    let c := ([.printChar 0x41, .cursorShow true] : List Console.Step).foldl
      (Console.step glyphForChar) (initConsole mode640 (fun _ _ => 0) (fun _ _ => 0) (fun _ _ => 0))
    c.screen.back (0 * fontW + (3 : Nat)) (0 * fontH + (0 : Nat)) =
      glyphPixel glyphForChar (c.textBuffer 0 0) 3 0 := by
  obtain ⟨_, _, _, hcells⟩ := console_exact mode640 (by unfold Mode.Graphics mode640; decide)
    (fun _ _ => 0) (fun _ _ => 0) (by decide) (fun _ _ => 0) [.printChar 0x41, .cursorShow true]
  have hx : (([.printChar 0x41, .cursorShow true] : List Console.Step).foldl
      (Console.step glyphForChar) (initConsole mode640 (fun _ _ => 0) (fun _ _ => 0)
        (fun _ _ => 0))).graphicsCursorX = 1 := by decide +kernel
  generalize ([.printChar 0x41, .cursorShow true] : List Console.Step).foldl
    (Console.step glyphForChar) (initConsole mode640 (fun _ _ => 0) (fun _ _ => 0)
      (fun _ _ => 0)) = c at hcells hx ⊢
  refine hcells 0 0 (by decide) (by decide) (by decide) (by decide) ?_ 3 0 (by decide) (by decide)
  rw [hx]
  exact fun hno => absurd hno.2.1 (by decide)

end Video
end MiniDos
