import MiniDos.Ui.Manager

/-!
# MiniDos.Ui.Dispatch

How the window manager takes the mouse and the keyboard (`ui_wm.h`): `ui_wm_dispatch_mouse` and
`ui_wm_dispatch_key`. A divide error in the thumb of a scrollbar ends the app, and is `none` here.
-/

namespace MiniDos
namespace Ui

open Video Plane

/-! ## Where things are -/

def windowClientRect (w : Window) : Rect :=
  let r : Rect :=
    if w.maximized then ⟨w.bounds.x, int32 (w.bounds.y + 18), w.bounds.w, int32 (w.bounds.h - 18)⟩
    else ⟨int32 (w.bounds.x + 4), int32 (w.bounds.y + 22), int32 (w.bounds.w - 8),
      int32 (w.bounds.h - 26)⟩
  ⟨r.x, r.y, if r.w < 0 then 0 else r.w, if r.h < 0 then 0 else r.h⟩

def windowTitleBarRect (w : Window) : Rect :=
  if w.maximized then ⟨w.bounds.x, w.bounds.y, w.bounds.w, 18⟩
  else ⟨int32 (w.bounds.x + 3), int32 (w.bounds.y + 3), int32 (w.bounds.w - 6), 16⟩

def windowCloseButtonRect (w : Window) : Rect :=
  let title := windowTitleBarRect w
  if title.w < 20 then ⟨0, 0, 0, 0⟩
  else ⟨int32 (title.x + title.w - 18), int32 (title.y + 1), 16, 14⟩

def windowMaximizeButtonRect (w : Window) : Rect :=
  let title := windowTitleBarRect w
  if title.w < 56 then ⟨0, 0, 0, 0⟩
  else ⟨int32 (title.x + title.w - 36), int32 (title.y + 1), 16, 14⟩

def windowMinimizeButtonRect (w : Window) : Rect :=
  let title := windowTitleBarRect w
  if title.w < 56 then ⟨0, 0, 0, 0⟩
  else ⟨int32 (title.x + title.w - 54), int32 (title.y + 1), 16, 14⟩

def windowHitClose (w : Window) (x y : Int) : Bool :=
  w.hasCloseButton && rectContains (windowCloseButtonRect w) x y

def controlWindow (wm : Manager) (c : Control) : Option Window := do
  let i ← findWindow wm c.windowId
  let w ← wm.windows[i]?
  return w.window

def controlAbsBounds (wm : Manager) (c : Control) : Rect :=
  match controlWindow wm c with
  | none => ⟨0, 0, 0, 0⟩
  | some w =>
    let client := windowClientRect w
    ⟨int32 (client.x + c.bounds.x), int32 (client.y + c.bounds.y), c.bounds.w, c.bounds.h⟩

def controlRenderBounds (wm : Manager) (c : Control) : Rect :=
  let bounds := controlAbsBounds wm c
  if c.type = .dropdown ∧ c.isOpen ∧ 0 < c.itemCount then
    rectUnion bounds (dropdownPopupRect bounds c.itemCount)
  else bounds

def controlVisibleBounds (wm : Manager) (c : Control) : Rect :=
  match controlWindow wm c with
  | none => ⟨0, 0, 0, 0⟩
  | some w => rectIntersect (controlRenderBounds wm c) (windowClientRect w)

/-- The first item of a list of `n` that contains the point. -/
def itemAt (itemRect : Int → Rect) (n x y : Int) : Int :=
  match (List.range n.toNat).find? (fun i => rectContains (itemRect i) x y) with
  | some i => i
  | none => -1

def dropdownItemAt (c : Control) (absBounds : Rect) (x y : Int) : Int :=
  if c.isOpen then itemAt (dropdownItemRect absBounds) c.itemCount x y else -1

def menuItemAt (c : Control) (absBounds : Rect) (x y : Int) : Int :=
  itemAt (menuItemRect absBounds) c.itemCount x y

def Control.Reachable (c : Control) (windowId : Int) : Bool :=
  c.visible && c.enabled && c.windowId = windowId

/-- The popup of an open dropdown, as far as it is visible. -/
def hitPopup (wm : Manager) (windowId x y : Int) (c : Control) : Bool :=
  let absBounds := controlAbsBounds wm c
  c.Reachable windowId && c.type = .dropdown && c.isOpen &&
    (0 ≤ dropdownItemAt c absBounds x y || rectContains absBounds x y) &&
    rectContains (controlVisibleBounds wm c) x y

def hitTestControl (wm : Manager) (windowId x y : Int) : Int :=
  match wm.controls.find? (hitPopup wm windowId x y) with
  | some c => c.id
  | none =>
    wm.controls.foldl (fun found c =>
      if c.Reachable windowId && rectContains (controlVisibleBounds wm c) x y then c.id
      else found) 0

/-! ## The mouse -/

def setFocusControl (wm : Manager) (controlId : Int) : Manager :=
  { wm with
    focusedControlId := controlId
    controls := wm.controls.map (fun c => { c with focused := c.id = controlId }) }

def closeOpenPopups (wm : Manager) (exceptControlId : Int) : Manager :=
  { wm with
    controls := wm.controls.map (fun c =>
      if c.id ≠ 0 ∧ c.id ≠ exceptControlId ∧ c.type = .dropdown then { c with isOpen := false }
      else c) }

/-- `controls[i].pressed = 0` for all of them. -/
def releaseControls (wm : Manager) : Manager :=
  { wm with controls := wm.controls.map (fun c => { c with pressed := false }) }

def setPressed (wm : Manager) (windowId controlId : Int) (hitClose : Bool) : Manager :=
  { wm with
    pressedWindowId := windowId, pressedControlId := controlId, pressedHitClose := hitClose
    pressedHitMinimize := false, pressedHitMaximize := false }

def clearPressed (wm : Manager) : Manager := setPressed wm 0 0 false

/-- What a call returns: `out_window_id`, `out_control_id`, `out_hit_close` and its result. -/
structure MouseResult where
  windowId : Int
  controlId : Int
  hitClose : Bool
  activated : Bool
  deriving DecidableEq

def clampValue (c : Control) : Control := { c with value := clamp c.minValue c.maxValue c.value }

def scrollbarValueFromThumb (c : Control) (absBounds : Rect) (mouseY : Int) : Option Int := do
  let track := scrollbarTrackRect absBounds
  let thumb ← scrollbarThumbRect absBounds c.minValue c.maxValue c.pageSize c.value
  let range := int32 (c.maxValue - c.minValue)
  let usableH := int32 (track.h - thumb.h)
  if range ≤ 0 ∨ usableH ≤ 0 then return c.minValue
  let top := int32 (mouseY - c.dragOffset)
  let top := if top < track.y then track.y else top
  let top := if top > int32 (track.y + usableH) then int32 (track.y + usableH) else top
  let steps ← div32 (int32 (int32 (top - track.y) * range)) usableH
  return int32 (c.minValue + steps)

def pressScrollbar (c : Control) (absBounds : Rect) (x y : Int) : Option Control := do
  let thumb ← scrollbarThumbRect absBounds c.minValue c.maxValue c.pageSize c.value
  return clampValue (
    if rectContains thumb x y then { c with dragOffset := int32 (y - thumb.y) }
    else if rectContains (scrollbarDecrementRect absBounds) x y then
      { c with value := int32 (c.value - 1) }
    else if rectContains (scrollbarIncrementRect absBounds) x y then
      { c with value := int32 (c.value + 1) }
    else if rectContains (scrollbarTrackRect absBounds) x y then
      if y < thumb.y then { c with value := int32 (c.value - c.pageSize) }
      else if y ≥ int32 (thumb.y + thumb.h) then { c with value := int32 (c.value + c.pageSize) }
      else c
    else c)

def pressDropdown (c : Control) (absBounds : Rect) (x y : Int) : Control :=
  let item := dropdownItemAt c absBounds x y
  if 0 ≤ item ∧ c.isOpen then { c with hotIndex := item, pressed := true }
  else if rectContains absBounds x y then { c with pressed := true, hotIndex := -1 }
  else { c with hotIndex := -1 }

/-- A control under the mouse when the button goes down. -/
def pressControl (c : Control) (absBounds : Rect) (x y : Int) : Option Control :=
  match c.type with
  | .button => some { c with pressed := true }
  | .scrollbar => pressScrollbar c absBounds x y
  | .dropdown => some (pressDropdown c absBounds x y)
  | .menu => some { c with hotIndex := menuItemAt c absBounds x y }
  | _ => some c

def releaseDropdown (c : Control) (absBounds : Rect) (x y : Int) : Control × Bool :=
  let item := dropdownItemAt c absBounds x y
  let released : Control × Bool :=
    if c.pressed ∧ c.isOpen ∧ 0 ≤ item then
      ({ c with selectedIndex := item, isOpen := false }, true)
    else if c.pressed ∧ rectContains absBounds x y then ({ c with isOpen := !c.isOpen }, true)
    else ({ c with isOpen := false }, false)
  ({ released.1 with hotIndex := -1 }, released.2)

/-- The radio buttons of the group of `c` are off. -/
def clearGroup (wm : Manager) (c : Control) : Manager :=
  { wm with
    controls := wm.controls.map (fun d =>
      if d.id ≠ 0 ∧ d.windowId = c.windowId ∧ d.type = .radio ∧ d.groupId = c.groupId then
        { d with checked := false }
      else d) }

/-- Control `i`, under the mouse when the button goes up, and whether that activates it. -/
def releaseControl (wm : Manager) (windowId : Int) (i : Nat) (c : Control) (absBounds : Rect)
    (x y : Int) : Manager × Bool :=
  match c.type with
  | .button =>
    (wm, wm.pressedWindowId = windowId && wm.pressedControlId = c.id && c.pressed)
  | .checkbox => (wm.modifyControl i (fun c => { c with checked := !c.checked }), true)
  | .radio => ((clearGroup wm c).modifyControl i (fun c => { c with checked := true }), true)
  | .dropdown =>
    let released := releaseDropdown c absBounds x y
    (wm.modifyControl i (fun _ => released.1), released.2)
  | .menu =>
    let item := menuItemAt c absBounds x y
    if 0 ≤ item then (wm.modifyControl i (fun c => { c with selectedIndex := item }), true)
    else (wm, false)
  | .scrollbar => (wm, true)
  | _ => (wm, false)

def mouseOutside (wm : Manager) (leftPressed leftReleased : Bool) : Manager :=
  let wm := if leftPressed then closeOpenPopups wm 0 else wm
  if leftReleased then clearPressed (releaseControls wm)
  else if leftPressed then clearPressed wm
  else wm

def dragging (wm : Manager) (leftDown : Bool) : Option (Nat × Control) := do
  if ¬ leftDown ∨ wm.pressedControlId = 0 then none
  let i ← findControl wm wm.pressedControlId
  let c ← wm.controls[i]?
  if c.type = .scrollbar then some (i, c) else none

def mouseOnClose (wm : Manager) (windowId : Int) (leftPressed leftReleased : Bool) :
    Manager × Bool :=
  let wm := if leftPressed then setPressed wm windowId 0 true else wm
  if leftReleased then
    (clearPressed wm, wm.pressedHitClose && wm.pressedWindowId = windowId)
  else (wm, false)

def mouseOnWindow (wm : Manager) (windowId : Int) (leftPressed leftReleased : Bool) : Manager :=
  let wm :=
    if leftPressed then releaseControls (closeOpenPopups (setPressed wm windowId 0 false) 0) else wm
  if leftReleased then clearPressed (releaseControls wm) else wm

/-- The button goes down on control `i`. -/
def mousePress (wm : Manager) (windowId : Int) (i : Nat) (c : Control) (x y : Int) :
    Option Manager := do
  let absBounds := controlAbsBounds wm c
  let wm := setFocusControl (setPressed wm windowId c.id false) c.id
  let wm := releaseControls (closeOpenPopups wm c.id)
  let c ← wm.controls[i]?
  let c ← pressControl c absBounds x y
  return wm.modifyControl i (fun _ => c)

/-- The mouse is on control `i` of the window. -/
def mouseOnControl (wm : Manager) (windowId : Int) (i : Nat) (x y : Int)
    (leftPressed leftReleased : Bool) : Option (Manager × Bool) := do
  let c ← wm.controls[i]?
  let pressed := if leftPressed then mousePress wm windowId i c x y else some wm
  let wm ← pressed
  let c ← wm.controls[i]?
  if leftReleased then
    let released := releaseControl wm windowId i c (controlAbsBounds wm c) x y
    return (clearPressed (released.1.modifyControl i (fun c =>
      { c with pressed := false, dragOffset := 0 })), released.2)
  else return (wm, false)

/-- The mouse is on window `top`, and drags nothing. -/
def mouseOnTop (wm : Manager) (top : Int) (w : Window) (x y : Int)
    (leftPressed leftReleased : Bool) : Option (Manager × MouseResult) :=
  let wm := if leftPressed then bringToFront wm top else wm
  if windowHitClose w x y then
    let closed := mouseOnClose wm top leftPressed leftReleased
    some (closed.1, ⟨top, 0, true, closed.2⟩)
  else
    let controlId := hitTestControl wm top x y
    match findControl wm controlId with
    | none => some (mouseOnWindow wm top leftPressed leftReleased, ⟨top, 0, false, false⟩)
    | some i =>
      (mouseOnControl wm top i x y leftPressed leftReleased).map (fun done =>
        (done.1, ⟨top, controlId, false, done.2⟩))

def dispatchMouse (wm : Manager) (x y : Int) (leftDown leftPressed leftReleased : Bool) :
    Option (Manager × MouseResult) :=
  let top := topWindowAt wm x y
  if top = 0 then some (mouseOutside wm leftPressed leftReleased, ⟨0, 0, false, false⟩)
  else
    match shownWindow wm top with
    | none => some (wm, ⟨0, 0, false, false⟩)
    | some (_, w) =>
      match dragging wm leftDown with
      | some (i, c) =>
        (scrollbarValueFromThumb c (controlAbsBounds wm c) y).map (fun value =>
          (wm.modifyControl i (fun c => clampValue { c with value := value }),
            ⟨c.windowId, c.id, false, true⟩))
      | none => mouseOnTop wm top w.window x y leftPressed leftReleased

/-! ## The keyboard -/

/-- `n` bytes from `addr` on take the byte behind them. -/
def shiftLeft (memory : Nat → UInt8) (addr : Nat) : Nat → Nat → UInt8
  | 0 => memory
  | n + 1 => shiftLeft (store memory addr (memory (addr + 1))) (addr + 1) n

/-- `n` bytes from `addr` on move up by one, from the last. -/
def shiftRight (memory : Nat → UInt8) (addr : Nat) : Nat → Nat → UInt8
  | 0 => memory
  | n + 1 => shiftRight (store memory (addr + n + 1) (memory (addr + n))) addr n

/-- A text input whose text is at `addr`. -/
def textKey (memory : Nat → UInt8) (addr : Nat) (c : Control) (key : UInt8) :
    (Nat → UInt8) × Control × Bool :=
  let c := { c with
    caretPos := if c.caretPos < 0 then 0 else if c.caretPos > c.textLen then c.textLen
      else c.caretPos }
  if key = 0x15 then
    if 0 < c.caretPos then (memory, { c with caretPos := c.caretPos - 1 }, true)
    else (memory, c, false)
  else if key = 0x16 then
    if c.caretPos < c.textLen then (memory, { c with caretPos := c.caretPos + 1 }, true)
    else (memory, c, false)
  else if key = 8 then
    if 0 < c.caretPos then
      (shiftLeft memory (addr + (c.caretPos - 1).toNat) (c.textLen - c.caretPos + 1).toNat,
        { c with textLen := c.textLen - 1, caretPos := c.caretPos - 1 }, true)
    else (memory, c, false)
  else if 32 ≤ key ∧ key ≤ 126 ∧ c.textLen < c.textBufferLen - 1 then
    (store (shiftRight memory (addr + c.caretPos.toNat) (c.textLen - c.caretPos + 1).toNat)
        (addr + c.caretPos.toNat) key,
      { c with caretPos := c.caretPos + 1, textLen := c.textLen + 1 }, true)
  else (memory, c, false)

def isUp (key : UInt8) : Bool := key = 0x11 || key = 0x15
def isDown (key : UInt8) : Bool := key = 0x12 || key = 0x16
def isEnter (key : UInt8) : Bool := key = 13 || key = 32

def dropdownKey (c : Control) (key : UInt8) : Control × Bool :=
  if isEnter key then ({ c with isOpen := !c.isOpen }, true)
  else if isUp key ∧ 0 < c.selectedIndex then
    ({ c with selectedIndex := c.selectedIndex - 1 }, true)
  else if isDown key ∧ c.selectedIndex < c.itemCount - 1 then
    ({ c with selectedIndex := c.selectedIndex + 1 }, true)
  else (c, false)

def menuKey (c : Control) (key : UInt8) : Control × Bool :=
  if isUp key ∧ 0 < c.selectedIndex then
    ({ c with selectedIndex := c.selectedIndex - 1 }, true)
  else if isDown key ∧ c.selectedIndex < c.itemCount - 1 then
    ({ c with selectedIndex := c.selectedIndex + 1 }, true)
  else (c, isEnter key)

def scrollbarKey (c : Control) (key : UInt8) : Control × Bool :=
  if isUp key ∧ c.value > c.minValue then ({ c with value := c.value - 1 }, true)
  else if isDown key ∧ c.value < c.maxValue then ({ c with value := c.value + 1 }, true)
  else (c, false)

/-- A key for control `i`. -/
def keyOnControl (d : Desk) (i : Nat) (c : Control) (key : UInt8) : Desk × Bool :=
  let changed (k : Control × Bool) : Desk × Bool :=
    ({ d with wm := d.wm.modifyControl i (fun _ => k.1) }, k.2)
  match c.type with
  | .checkbox => if isEnter key then changed ({ c with checked := !c.checked }, true) else (d, false)
  | .radio =>
    if isEnter key then
      ({ d with
          wm := (clearGroup d.wm c).modifyControl i (fun c => { c with checked := true }) }, true)
    else (d, false)
  | .dropdown => changed (dropdownKey c key)
  | .menu => changed (menuKey c key)
  | .scrollbar => changed (scrollbarKey c key)
  | .textinput =>
    match c.textBuffer with
    | none => (d, false)
    | some addr =>
      if c.textBufferLen ≤ 0 then (d, false)
      else
        let typed := textKey d.memory addr c key
        (⟨d.wm.modifyControl i (fun _ => typed.2.1), typed.1⟩, typed.2.2)
  | _ => (d, false)

def dispatchKey (d : Desk) (key : UInt8) : Desk × Bool :=
  match findControl d.wm d.wm.focusedControlId with
  | none => (d, false)
  | some i =>
    match d.wm.controls[i]? with
    | none => (d, false)
    | some c => if c.enabled then keyOnControl d i c key else (d, false)

end Ui
end MiniDos
