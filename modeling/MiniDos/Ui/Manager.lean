import MiniDos.Ui.Rect

/-!
# MiniDos.Ui.Manager

The window manager of the app runtime (`ui_wm.h`): its two tables, and what creates, closes and
orders windows and controls. An entry whose id is 0 is free. Titles, icons, labels and the theme are
only drawn, and left out; the bytes of text inputs lie in the memory of the app.
-/

namespace MiniDos
namespace Ui

open Video Plane

def maxWindows : Nat := 16
def maxControls : Nat := 128

/-- `ui_window_t`. -/
structure Window where
  bounds : Rect
  restoreBounds : Rect
  active : Bool
  hasCloseButton : Bool
  hasMinimizeButton : Bool
  hasMaximizeButton : Bool
  minimized : Bool
  maximized : Bool

/-- `ui_wm_window_t`. -/
structure WmWindow where
  id : Int
  window : Window
  visible : Bool
  zOrder : Int

inductive ControlType where
  | label
  | button
  | textinput
  | listview
  | checkbox
  | radio
  | dropdown
  | menu
  | scrollbar
  deriving DecidableEq

/-- `ui_control_t`; `textBuffer` is an address. -/
structure Control where
  id : Int
  type : ControlType
  windowId : Int
  bounds : Rect
  textBuffer : Option Nat
  textBufferLen : Int
  textLen : Int
  caretPos : Int
  visible : Bool
  enabled : Bool
  focused : Bool
  pressed : Bool
  checked : Bool
  groupId : Int
  itemCount : Int
  selectedIndex : Int
  isOpen : Bool
  hotIndex : Int
  minValue : Int
  maxValue : Int
  pageSize : Int
  value : Int
  dragOffset : Int

/-- `ui_window_manager_t`: the first `window_count` windows and `control_count` controls. -/
structure Manager where
  windows : List WmWindow
  controls : List Control
  nextWindowId : Int
  nextControlId : Int
  activeWindowId : Int
  focusedControlId : Int
  pressedWindowId : Int
  pressedControlId : Int
  pressedHitClose : Bool
  pressedHitMinimize : Bool
  pressedHitMaximize : Bool

def Manager.init : Manager := ⟨[], [], 1, 1, 0, 0, 0, 0, false, false, false⟩

/-! ## Windows -/

/-- `ui_wm_find_window`: where the window is. -/
def findWindow (wm : Manager) (windowId : Int) : Option Nat :=
  if windowId = 0 then none else wm.windows.findIdx? (fun w => w.id = windowId)

def findControl (wm : Manager) (controlId : Int) : Option Nat :=
  if controlId = 0 then none else wm.controls.findIdx? (fun c => c.id = controlId)

def Manager.modifyWindow (wm : Manager) (i : Nat) (f : WmWindow → WmWindow) : Manager :=
  { wm with windows := wm.windows.modify i f }

def Manager.modifyControl (wm : Manager) (i : Nat) (f : Control → Control) : Manager :=
  { wm with controls := wm.controls.modify i f }

def setActiveWindow (wm : Manager) (windowId : Int) : Manager :=
  { wm with
    activeWindowId := windowId
    windows := wm.windows.map (fun w =>
      { w with window := { w.window with active := w.id = windowId } }) }

/-- The first free entry, or one more; `none` when the table is full. -/
def freeSlot {α : Type} (id : α → Int) (capacity : Nat) (table : List α) : Option Nat :=
  match table.findIdx? (fun a => id a = 0) with
  | some slot => some slot
  | none => if capacity ≤ table.length then none else some table.length

/-- An entry of a table, or the one behind its end. -/
def putSlot {α : Type} (table : List α) (slot : Nat) (a : α) : List α :=
  if slot < table.length then table.set slot a else table ++ [a]

/-- The z-order above all other visible windows. -/
def topZOrder (windows : List WmWindow) (id : Int) : Int :=
  windows.foldl (fun z w =>
    if w.id ≠ id ∧ w.visible ∧ w.zOrder ≥ z then int32 (w.zOrder + 1) else z) 0

def createWindowEx (wm : Manager) (bounds : Rect) (hasClose hasMinimize hasMaximize : Bool) :
    Manager × Int :=
  match freeSlot WmWindow.id maxWindows wm.windows with
  | none => (wm, 0)
  | some slot =>
    let id := wm.nextWindowId
    let entry : WmWindow :=
      ⟨id, ⟨bounds, bounds, false, hasClose, hasMinimize, hasMaximize, false, false⟩, true, 0⟩
    let windows := putSlot wm.windows slot entry
    let windows := windows.set slot { entry with zOrder := topZOrder windows id }
    (setActiveWindow { wm with windows := windows, nextWindowId := int32 (id + 1) } id, id)

def lowestUndrawn (windows : List WmWindow) (drawn : List Nat) : Option Nat :=
  (windows.zipIdx.foldl (fun (best : Option (Nat × Int)) (w : WmWindow × Nat) =>
    if w.2 ∈ drawn ∨ w.1.id = 0 ∨ ¬ w.1.visible then best
    else if best.any (fun b => w.1.zOrder ≥ b.2) then best
    else some (w.2, w.1.zOrder)) none).map Prod.fst

/-- The loop of `ui_wm_normalize_z_order`, with `n` turns left. -/
def normalizeFrom : Nat → List Nat → Manager → Manager
  | 0, _, wm => wm
  | n + 1, drawn, wm =>
    match lowestUndrawn wm.windows drawn with
    | none => wm
    | some best =>
      normalizeFrom n (best :: drawn)
        (wm.modifyWindow best (fun w => { w with zOrder := drawn.length }))

def normalizeZOrder (wm : Manager) : Manager := normalizeFrom wm.windows.length [] wm

def bringToFront (wm : Manager) (windowId : Int) : Manager :=
  match findWindow wm windowId with
  | none => wm
  | some target =>
    let wm := normalizeZOrder wm
    let maxZ := wm.windows.foldl (fun z w =>
      if w.id = 0 ∨ ¬ w.visible then z else if w.zOrder > z then w.zOrder else z) (-1)
    setActiveWindow (wm.modifyWindow target (fun w => { w with zOrder := int32 (maxZ + 1) }))
      windowId

/-- The topmost of the windows that are shown and meet `p`, with the last of equals; 0 for none. -/
def topWindow (wm : Manager) (p : WmWindow → Bool) : Int :=
  (wm.windows.foldl (fun (best : Int × Int) w =>
    if w.id = 0 ∨ ¬ w.visible ∨ w.window.minimized then best
    else if p w ∧ w.zOrder ≥ best.2 then (w.id, w.zOrder)
    else best) (0, -2147483647)).1

def topWindowAt (wm : Manager) (x y : Int) : Int :=
  topWindow wm (fun w => rectContains w.window.bounds x y)

def topVisibleWindowId (wm : Manager) : Int := topWindow wm (fun _ => true)

/-- The entry of a window that closes is free. -/
def clearWindow (wm : Manager) (windowId : Int) : Manager :=
  match wm.windows.findIdx? (fun w => w.id = windowId) with
  | none => wm
  | some i => wm.modifyWindow i (fun w =>
      { w with
        id := 0, visible := false, zOrder := 0
        window := { w.window with
          active := false, hasMinimizeButton := false, hasMaximizeButton := false
          minimized := false, maximized := false } })

def clearControls (wm : Manager) (windowId : Int) : Manager :=
  let cleared := (wm.controls.filter (fun c => c.windowId = windowId)).map Control.id
  { wm with
    focusedControlId := if wm.focusedControlId ∈ cleared then 0 else wm.focusedControlId
    pressedControlId := if wm.pressedControlId ∈ cleared then 0 else wm.pressedControlId
    controls := wm.controls.map (fun c =>
      if c.windowId ≠ windowId then c
      else { c with
        id := 0, windowId := 0, visible := false, enabled := false, pressed := false
        focused := false, itemCount := 0, selectedIndex := -1, isOpen := false }) }

def closeWindow (wm : Manager) (windowId : Int) : Manager :=
  let cleared := clearControls (clearWindow wm windowId) windowId
  let cleared :=
    if wm.activeWindowId = windowId then setActiveWindow cleared (topVisibleWindowId cleared)
    else cleared
  if cleared.pressedWindowId = windowId then
    { cleared with
      pressedWindowId := 0, pressedHitClose := false, pressedHitMinimize := false
      pressedHitMaximize := false }
  else cleared

def shownWindow (wm : Manager) (windowId : Int) : Option (Nat × WmWindow) := do
  let i ← findWindow wm windowId
  let w ← wm.windows[i]?
  if w.visible then some (i, w) else none

def minimizeWindow (wm : Manager) (windowId : Int) : Manager :=
  match shownWindow wm windowId with
  | none => wm
  | some (i, w) =>
    if w.window.hasMinimizeButton then
      let wm := wm.modifyWindow i (fun w => { w with window := { w.window with minimized := true } })
      if wm.activeWindowId = windowId then setActiveWindow wm (topVisibleWindowId wm) else wm
    else wm

def unminimizeWindow (wm : Manager) (windowId : Int) : Manager :=
  match shownWindow wm windowId with
  | none => wm
  | some (i, w) =>
    if w.window.hasMinimizeButton || w.window.hasMaximizeButton then
      bringToFront
        (wm.modifyWindow i (fun w => { w with window := { w.window with minimized := false } }))
        windowId
    else wm

def restoreWindow (wm : Manager) (windowId : Int) : Manager :=
  match shownWindow wm windowId with
  | none => wm
  | some (i, w) =>
    if w.window.hasMaximizeButton then
      let wm := wm.modifyWindow i (fun w =>
        { w with window := { w.window with minimized := false } })
      let wm :=
        if w.window.maximized then
          wm.modifyWindow i (fun w =>
            { w with window := { w.window with bounds := w.window.restoreBounds, maximized := false } })
        else wm
      bringToFront wm windowId
    else wm

def maximizeWindow (wm : Manager) (windowId : Int) (desktop : Rect) : Manager :=
  if rectIsEmpty desktop then wm
  else
    match shownWindow wm windowId with
    | none => wm
    | some (i, w) =>
      if w.window.hasMaximizeButton then
        let wm := wm.modifyWindow i (fun w =>
          { w with window := { w.window with minimized := false } })
        let wm :=
          if ¬ w.window.maximized then
            wm.modifyWindow i (fun w =>
              { w with window :=
                { w.window with
                  restoreBounds := w.window.bounds, bounds := desktop, maximized := true } })
          else wm
        bringToFront wm windowId
      else wm

def toggleMaximizeWindow (wm : Manager) (windowId : Int) (desktop : Rect) : Manager :=
  match shownWindow wm windowId with
  | none => wm
  | some (_, w) =>
    if w.window.maximized then restoreWindow wm windowId else maximizeWindow wm windowId desktop

/-! ## Controls -/

/-- `ui_wm_alloc_control`, with what the caller sets afterwards. -/
def allocControl (wm : Manager) (type : ControlType) (windowId : Int) (bounds : Rect)
    (set : Control → Control) : Option (Manager × Int) := do
  let _ ← findWindow wm windowId
  let slot ← freeSlot Control.id maxControls wm.controls
  let id := wm.nextControlId
  let control : Control :=
    { id := id, type := type, windowId := windowId, bounds := bounds, textBuffer := none
      textBufferLen := 0, textLen := 0, caretPos := 0, visible := true, enabled := true
      focused := false, pressed := false, checked := false, groupId := 0, itemCount := 0
      selectedIndex := -1, isOpen := false, hotIndex := -1, minValue := 0, maxValue := 0
      pageSize := 0, value := 0, dragOffset := 0 }
  return ({ wm with
    controls := putSlot wm.controls slot (set control), nextControlId := int32 (id + 1) }, id)

def addControl (wm : Manager) (type : ControlType) (windowId : Int) (bounds : Rect)
    (set : Control → Control) : Manager × Int :=
  (allocControl wm type windowId bounds set).getD (wm, 0)

def addLabel (wm : Manager) (windowId : Int) (bounds : Rect) : Manager × Int :=
  addControl wm .label windowId bounds id

def addButton (wm : Manager) (windowId : Int) (bounds : Rect) : Manager × Int :=
  addControl wm .button windowId bounds id

def addListview (wm : Manager) (windowId : Int) (bounds : Rect) (lv : Bool) : Manager × Int :=
  if lv then addControl wm .listview windowId bounds id else (wm, 0)

def addCheckbox (wm : Manager) (windowId : Int) (bounds : Rect) (checked : Bool) : Manager × Int :=
  addControl wm .checkbox windowId bounds (fun c => { c with checked := checked })

def addRadio (wm : Manager) (windowId : Int) (bounds : Rect) (groupId : Int) (checked : Bool) :
    Manager × Int :=
  addControl wm .radio windowId bounds (fun c => { c with groupId := groupId, checked := checked })

def addDropdown (wm : Manager) (windowId : Int) (bounds : Rect) (itemCount selected : Int) :
    Manager × Int :=
  addControl wm .dropdown windowId bounds (fun c =>
    { c with
      itemCount := itemCount
      selectedIndex :=
        if 0 ≤ selected ∧ selected < itemCount then selected
        else if 0 < itemCount then 0 else -1 })

def addMenu (wm : Manager) (windowId : Int) (bounds : Rect) (itemCount selected : Int) :
    Manager × Int :=
  addControl wm .menu windowId bounds (fun c =>
    { c with itemCount := itemCount, selectedIndex := selected })

def addScrollbar (wm : Manager) (windowId : Int) (bounds : Rect)
    (minValue maxValue pageSize value : Int) : Manager × Int :=
  addControl wm .scrollbar windowId bounds (fun c =>
    let maxValue := if maxValue < minValue then minValue else maxValue
    { c with
      minValue := minValue
      maxValue := maxValue
      pageSize := if pageSize < 1 then 1 else pageSize
      value := clamp minValue maxValue value })

/-! ## Text inputs -/

/-- An app: its window manager, and its memory. -/
structure Desk where
  wm : Manager
  memory : Nat → UInt8

def store (memory : Nat → UInt8) (addr : Nat) (b : UInt8) : Nat → UInt8 :=
  fun a => if a = addr then b else memory a

/-- The length of a text, `n` bytes at most. -/
def textLength (memory : Nat → UInt8) (addr : Nat) : Nat → Nat
  | 0 => 0
  | n + 1 => if memory addr = 0 then 0 else textLength memory (addr + 1) n + 1

def addTextinput (d : Desk) (windowId : Int) (bounds : Rect) (textBuffer : Option Nat)
    (textBufferLen : Int) : Desk × Int :=
  match textBuffer with
  | none => (d, 0)
  | some addr =>
    if textBufferLen ≤ 0 then (d, 0)
    else
      let len := textLength d.memory addr (textBufferLen - 1).toNat
      match allocControl d.wm .textinput windowId bounds (fun c =>
        { c with
          textBuffer := some addr, textBufferLen := textBufferLen, textLen := len
          caretPos := len }) with
      | none => (d, 0)
      | some (wm, id) => (⟨wm, store d.memory (addr + len) 0⟩, id)

end Ui
end MiniDos
