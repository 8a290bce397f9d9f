import MiniDos.Ui.Roster

/-!
# MiniDos.Ui.Moves

What the functions of the window manager do to its roster.

* Windows are ordered, activated and drawn without a change of the tables.
* `dispatchMouse_moved`, `dispatchKey_roster`: nor do the mouse and the keyboard change them.
-/

namespace MiniDos
namespace Ui

open Video Plane Roster

variable {wm wm' : Manager}
variable {i : Nat} {x y : Int} {c : Control} {id : Int} {absBounds : Rect}

/-! ## Updates -/

theorem map_modify {α β : Type} {f : α → α} {g : α → β} (h : ∀ a, g (f a) = g a) (l : List α)
    (i : Nat) : (l.modify i f).map g = l.map g := by
  refine List.ext_getElem? (fun j => ?_)
  rw [List.getElem?_map, List.getElem?_map, List.getElem?_modify]
  cases l[j]? with
  | none => rfl
  | some a =>
    by_cases hj : i = j
    · simp [hj, h]
    · simp [hj]

theorem roster_modifyWindow {f : WmWindow → WmWindow} (h : ∀ w, (f w).entry = w.entry) (i : Nat) :
    (wm.modifyWindow i f).roster = wm.roster := by
  simp only [Manager.roster, Manager.modifyWindow, map_modify h]

theorem roster_modifyControl {f : Control → Control} (h : ∀ c, (f c).entry = c.entry) (i : Nat) :
    (wm.modifyControl i f).roster = wm.roster := by
  simp only [Manager.roster, Manager.modifyControl, map_modify h]

theorem roster_setControl {c d : Control} (hc : wm.controls[i]? = some c)
    (h : d.entry = c.entry) : (wm.modifyControl i (fun _ => d)).roster = wm.roster := by
  have hmap : (wm.controls.modify i (fun _ => d)).map Control.entry =
      wm.controls.map Control.entry := by
    refine List.ext_getElem? (fun j => ?_)
    rw [List.getElem?_map, List.getElem?_map, List.getElem?_modify]
    by_cases hj : i = j
    · subst hj
      simp [hc, h]
    · simp [hj]
  simp only [Manager.roster, Manager.modifyControl, hmap]

@[simp] theorem roster_setActiveWindow (id : Int) :
    (setActiveWindow wm id).roster = { wm.roster with activeWindowId := id } := by
  simp [Manager.roster, setActiveWindow, WmWindow.entry, Function.comp_def]

@[simp] theorem roster_setFocusControl (id : Int) :
    (setFocusControl wm id).roster = { wm.roster with focusedControlId := id } := by
  simp [Manager.roster, setFocusControl, Control.entry, Function.comp_def]

@[simp] theorem roster_releaseControls : (releaseControls wm).roster = wm.roster := by
  simp [Manager.roster, releaseControls, Control.entry, Function.comp_def]

@[simp] theorem roster_setPressed (windowId controlId : Int) (hitClose : Bool) :
    (setPressed wm windowId controlId hitClose).roster =
      { wm.roster with pressedWindowId := windowId, pressedControlId := controlId } := rfl

@[simp] theorem roster_clearPressed : (clearPressed wm).roster =
    { wm.roster with pressedWindowId := 0, pressedControlId := 0 } := rfl

theorem roster_mapControls {f : Control → Control} (h : ∀ c, (f c).entry = c.entry) :
    ({ wm with controls := wm.controls.map f } : Manager).roster = wm.roster := by
  simp only [Manager.roster, List.map_map, Function.comp_def, h]

@[simp] theorem roster_closeOpenPopups (id : Int) : (closeOpenPopups wm id).roster = wm.roster := by
  refine roster_mapControls (fun c => ?_)
  split <;> rfl

@[simp] theorem roster_clearGroup (c : Control) : (clearGroup wm c).roster = wm.roster := by
  refine roster_mapControls (fun d => ?_)
  split <;> rfl

theorem roster_normalizeFrom (n : Nat) (drawn : List Nat) :
    (normalizeFrom n drawn wm).roster = wm.roster := by
  induction n generalizing drawn wm with
  | zero => rfl
  | succ n ih =>
    unfold normalizeFrom
    split
    · rfl
    · rw [ih]
      exact roster_modifyWindow (by intro w; rfl) _

/-! ## Who is found -/

theorem findWindow_some (h : findWindow wm id = some i) :
    id ≠ 0 ∧ ∃ w, wm.windows[i]? = some w ∧ w.id = id := by
  unfold findWindow at h
  split at h
  · cases h
  rename_i hid
  obtain ⟨hlt, hw, _⟩ := List.findIdx?_eq_some_iff_getElem.mp h
  exact ⟨hid, _, List.getElem?_eq_getElem hlt, by simpa using hw⟩

theorem findControl_some (h : findControl wm id = some i) :
    id ≠ 0 ∧ ∃ c, wm.controls[i]? = some c ∧ c.id = id := by
  unfold findControl at h
  split at h
  · cases h
  rename_i hid
  obtain ⟨hlt, hc, _⟩ := List.findIdx?_eq_some_iff_getElem.mp h
  exact ⟨hid, _, List.getElem?_eq_getElem hlt, by simpa using hc⟩

theorem shownWindow_some {w : WmWindow}
    (h : shownWindow wm id = some (i, w)) :
    findWindow wm id = some i ∧ wm.windows[i]? = some w ∧ w.id = id ∧ id ≠ 0 := by
  unfold shownWindow at h
  simp only [Option.bind_eq_bind, Option.bind_eq_some_iff] at h
  obtain ⟨j, hfind, v, hv, h⟩ := h
  split at h
  · cases h
    obtain ⟨hid, v, hv', hvid⟩ := findWindow_some hfind
    cases hv.symm.trans hv'
    exact ⟨hfind, hv, hvid, hid⟩
  · cases h

theorem entry_mem_windows {w : WmWindow} (h : wm.windows[i]? = some w) :
    w.entry ∈ wm.roster.windows := List.mem_map_of_mem (List.mem_of_getElem? h)

theorem entry_mem_controls (h : wm.controls[i]? = some c) :
    c.entry ∈ wm.roster.controls := List.mem_map_of_mem (List.mem_of_getElem? h)

theorem topWindow_mem (p : WmWindow → Bool) :
    topWindow wm p = 0 ∨ (topWindow wm p, false) ∈ wm.roster.windows := by
  unfold topWindow
  refine List.foldlRecOn (motive := fun best : Int × Int =>
    best.1 = 0 ∨ (best.1, false) ∈ wm.roster.windows) _ _ (.inl rfl) (fun best h w hw => ?_)
  split
  · exact h
  rename_i hshown
  split
  · simp only [not_or, Bool.not_eq_true] at hshown
    have hentry : w.entry ∈ wm.roster.windows := List.mem_map_of_mem hw
    unfold WmWindow.entry at hentry
    rw [hshown.2.2] at hentry
    exact .inr hentry
  · exact h

theorem roster_bringToFront (id : Int) :
    (bringToFront wm id).roster = wm.roster ∨
      (bringToFront wm id).roster = { wm.roster with activeWindowId := id } := by
  unfold bringToFront
  split
  · exact .inl rfl
  · refine .inr ?_
    rw [roster_setActiveWindow, roster_modifyWindow (by intro w; rfl), normalizeZOrder,
      roster_normalizeFrom]

theorem bringToFront_moved (h : (id, false) ∈ wm.roster.windows) :
    Moved wm.roster (bringToFront wm id).roster := by
  rcases @roster_bringToFront wm id with he | he
  · exact .of_eq he
  · rw [he]
    exact ⟨rfl, .inr h, .inl rfl, .inl rfl, .inl rfl⟩

/-! ## The mouse -/

theorem setPressed_moved {windowId controlId : Int} {hitClose : Bool}
    (hw : windowId = 0 ∨ ∃ w ∈ wm.roster.windows, w.1 = windowId)
    (hc : controlId = 0 ∨ ∃ c ∈ wm.roster.controls, c.1 = controlId) :
    Moved wm.roster (setPressed wm windowId controlId hitClose).roster :=
  ⟨rfl, .inl rfl, .inl rfl, .inr hw, .inr hc⟩

theorem clearPressed_moved : Moved wm.roster (clearPressed wm).roster :=
  setPressed_moved (.inl rfl) (.inl rfl)

theorem mouseOutside_moved (leftPressed leftReleased : Bool) :
    Moved wm.roster (mouseOutside wm leftPressed leftReleased).roster := by
  have hpopups : (if leftPressed then closeOpenPopups wm 0 else wm).roster = wm.roster := by
    split
    · exact roster_closeOpenPopups 0
    · rfl
  unfold mouseOutside
  dsimp only
  rw [← hpopups]
  generalize (if leftPressed then closeOpenPopups wm 0 else wm) = v
  split
  · rw [← @roster_releaseControls v]
    exact clearPressed_moved
  · split
    · exact clearPressed_moved
    · exact .refl _

section Window

variable {windowId : Int} (hw : ∃ w ∈ wm.roster.windows, w.1 = windowId)
include hw

theorem mouseOnClose_moved (leftPressed leftReleased : Bool) :
    Moved wm.roster (mouseOnClose wm windowId leftPressed leftReleased).1.roster := by
  have hpress : Moved wm.roster
      (if leftPressed then setPressed wm windowId 0 true else wm).roster := by
    split
    · exact setPressed_moved (.inr hw) (.inl rfl)
    · exact .refl _
  unfold mouseOnClose
  dsimp only
  split
  · exact hpress.trans clearPressed_moved
  · exact hpress

theorem mouseOnWindow_moved (leftPressed leftReleased : Bool) :
    Moved wm.roster (mouseOnWindow wm windowId leftPressed leftReleased).roster := by
  have hpress : Moved wm.roster (if leftPressed then
      releaseControls (closeOpenPopups (setPressed wm windowId 0 false) 0) else wm).roster := by
    split
    · rw [roster_releaseControls, roster_closeOpenPopups]
      exact setPressed_moved (.inr hw) (.inl rfl)
    · exact .refl _
  unfold mouseOnWindow
  dsimp only
  split
  · refine hpress.trans ?_
    rw [← @roster_releaseControls (if leftPressed then _ else wm)]
    exact clearPressed_moved
  · exact hpress

end Window

theorem clampValue_entry (c : Control) : (clampValue c).entry = c.entry := rfl

theorem pressScrollbar_entry {c d : Control}
    (h : pressScrollbar c absBounds x y = some d) : d.entry = c.entry := by
  unfold pressScrollbar at h
  simp only [Option.bind_eq_bind, Option.bind_eq_some_iff] at h
  obtain ⟨thumb, _, h⟩ := h
  cases h
  rw [clampValue_entry]
  repeat' split
  all_goals rfl

theorem pressDropdown_entry (c : Control) (absBounds : Rect) (x y : Int) :
    (pressDropdown c absBounds x y).entry = c.entry := by
  unfold pressDropdown
  dsimp only
  split
  · rfl
  · split <;> rfl

theorem pressControl_entry {c d : Control}
    (h : pressControl c absBounds x y = some d) : d.entry = c.entry := by
  unfold pressControl at h
  split at h
  case h_2 => exact pressScrollbar_entry h
  case h_3 =>
    cases h
    exact pressDropdown_entry c absBounds x y
  all_goals
    cases h
    rfl

theorem releaseControl_roster {windowId : Int}
    (hc : wm.controls[i]? = some c) :
    (releaseControl wm windowId i c absBounds x y).1.roster = wm.roster := by
  unfold releaseControl
  split
  case h_2 => exact roster_modifyControl (by intro c; rfl) i
  case h_3 =>
    rw [roster_modifyControl (by intro c; rfl), roster_clearGroup]
  case h_4 =>
    refine roster_setControl hc ?_
    unfold releaseDropdown
    dsimp only
    repeat' split
    all_goals rfl
  case h_5 =>
    dsimp only
    split
    · exact roster_modifyControl (by intro c; rfl) i
    · rfl
  all_goals rfl

theorem mousePress_moved {windowId : Int}
    (hw : ∃ w ∈ wm.roster.windows, w.1 = windowId) (hc : wm.controls[i]? = some c)
    (h : mousePress wm windowId i c x y = some wm') : Moved wm.roster wm'.roster := by
  unfold mousePress at h
  simp only [Option.bind_eq_bind, Option.bind_eq_some_iff] at h
  obtain ⟨d, hd, e, he, h⟩ := h
  cases h
  have hmem : ∃ d ∈ wm.roster.controls, d.1 = c.id := ⟨c.entry, entry_mem_controls hc, rfl⟩
  rw [roster_setControl hd (pressControl_entry he), roster_releaseControls, roster_closeOpenPopups,
    roster_setFocusControl]
  exact ⟨rfl, .inl rfl, .inr (.inr hmem), .inr (.inr hw), .inr (.inr hmem)⟩

theorem mouseOnControl_moved {windowId : Int}
    {leftPressed leftReleased activated : Bool} (hw : ∃ w ∈ wm.roster.windows, w.1 = windowId)
    (h : mouseOnControl wm windowId i x y leftPressed leftReleased = some (wm', activated)) :
    Moved wm.roster wm'.roster := by
  unfold mouseOnControl at h
  simp only [Option.bind_eq_bind, Option.bind_eq_some_iff] at h
  obtain ⟨c, hc, v, hv, d, hd, h⟩ := h
  have hpress : Moved wm.roster v.roster := by
    split at hv
    · exact mousePress_moved hw hc hv
    · cases hv
      exact .refl _
  split at h
  · cases h
    refine hpress.trans ?_
    have hreleased : ((releaseControl v windowId i d (controlAbsBounds v d) x y).1.modifyControl i
        (fun c => { c with pressed := false, dragOffset := 0 })).roster = v.roster := by
      rw [roster_modifyControl (by intro c; rfl), releaseControl_roster hd]
    rw [← hreleased]
    exact clearPressed_moved
  · cases h
    exact hpress

/-- The manager behind a call with the mouse on a window, which comes to the front before. -/
def OnTop (v : Manager) (top x y : Int) (leftPressed leftReleased : Bool) (v' : Manager) : Prop :=
  v' = (mouseOnClose v top leftPressed leftReleased).1 ∨
  v' = mouseOnWindow v top leftPressed leftReleased ∨
  ∃ i hit, mouseOnControl v top i x y leftPressed leftReleased = some (v', hit)

theorem mouseOnTop_cases {top x y : Int} {w : Window} {leftPressed leftReleased : Bool}
    {done : Manager × MouseResult}
    (h : mouseOnTop wm top w x y leftPressed leftReleased = some done) :
    OnTop (if leftPressed then bringToFront wm top else wm) top x y leftPressed leftReleased
      done.1 := by
  unfold mouseOnTop at h
  dsimp only at h
  split at h
  · cases h
    exact .inl rfl
  split at h
  · cases h
    exact .inr (.inl rfl)
  · rename_i i _
    obtain ⟨done', hdone, rfl⟩ := Option.map_eq_some_iff.mp h
    exact .inr (.inr ⟨i, done'.2, hdone⟩)

theorem dispatchMouse_cases {leftDown leftPressed leftReleased : Bool}
    {done : Manager × MouseResult}
    (h : dispatchMouse wm x y leftDown leftPressed leftReleased = some done) :
    (topWindowAt wm x y = 0 ∧ done.1 = mouseOutside wm leftPressed leftReleased) ∨
    (shownWindow wm (topWindowAt wm x y) = none ∧ done.1 = wm) ∨
    (∃ i c value, dragging wm leftDown = some (i, c) ∧
      done.1 = wm.modifyControl i (fun c => clampValue { c with value := value })) ∨
    (topWindowAt wm x y ≠ 0 ∧ OnTop
      (if leftPressed then bringToFront wm (topWindowAt wm x y) else wm) (topWindowAt wm x y) x y
      leftPressed leftReleased done.1) := by
  unfold dispatchMouse at h
  dsimp only at h
  split at h
  case isTrue htop =>
    cases h
    exact .inl ⟨htop, rfl⟩
  case isFalse htop =>
    split at h
    case h_1 hshown =>
      cases h
      exact .inr (.inl ⟨hshown, rfl⟩)
    case h_2 =>
      split at h
      case h_1 i c hdragging =>
        obtain ⟨value, _, rfl⟩ := Option.map_eq_some_iff.mp h
        exact .inr (.inr (.inl ⟨i, c, value, hdragging, rfl⟩))
      case h_2 => exact .inr (.inr (.inr ⟨htop, mouseOnTop_cases h⟩))

theorem OnTop.moved {top x y : Int} {leftPressed leftReleased : Bool}
    (h : OnTop wm top x y leftPressed leftReleased wm')
    (hthere : ∃ w ∈ wm.roster.windows, w.1 = top) : Moved wm.roster wm'.roster := by
  obtain rfl | rfl | ⟨i, hit, hdone⟩ := h
  · exact mouseOnClose_moved hthere leftPressed leftReleased
  · exact mouseOnWindow_moved hthere leftPressed leftReleased
  · exact mouseOnControl_moved hthere hdone

theorem dispatchMouse_moved {leftDown leftPressed leftReleased : Bool}
    {result : MouseResult}
    (h : dispatchMouse wm x y leftDown leftPressed leftReleased = some (wm', result)) :
    Moved wm.roster wm'.roster := by
  obtain ⟨_, rfl⟩ | ⟨_, rfl⟩ | ⟨i, c, value, _, rfl⟩ | ⟨htop, hon⟩ := dispatchMouse_cases h
  · exact mouseOutside_moved leftPressed leftReleased
  · exact .refl _
  · exact .of_eq (roster_modifyControl (by intro c; rfl) i)
  · have hmem : (topWindowAt wm x y, false) ∈ wm.roster.windows := (topWindow_mem _).resolve_left htop
    have hfront : Moved wm.roster
        (if leftPressed then bringToFront wm (topWindowAt wm x y) else wm).roster := by
      split
      · exact bringToFront_moved hmem
      · exact .refl _
    refine hfront.trans (hon.moved ?_)
    rw [hfront.tables.1]
    exact ⟨_, hmem, rfl⟩

/-! ## The keyboard -/

theorem dropdownKey_entry (c : Control) (key : UInt8) : (dropdownKey c key).1.entry = c.entry := by
  unfold dropdownKey
  repeat' split
  all_goals rfl

theorem menuKey_entry (c : Control) (key : UInt8) : (menuKey c key).1.entry = c.entry := by
  unfold menuKey
  repeat' split
  all_goals rfl

theorem scrollbarKey_entry (c : Control) (key : UInt8) :
    (scrollbarKey c key).1.entry = c.entry := by
  unfold scrollbarKey
  repeat' split
  all_goals rfl

theorem textKey_entry (memory : Nat → UInt8) (addr : Nat) (c : Control) (key : UInt8) :
    (textKey memory addr c key).2.1.entry = c.entry := by
  unfold textKey
  dsimp only
  repeat' split
  all_goals rfl

variable {d : Desk}

theorem keyOnControl_roster (hc : d.wm.controls[i]? = some c) (key : UInt8) :
    (keyOnControl d i c key).1.wm.roster = d.wm.roster := by
  unfold keyOnControl
  dsimp only
  split
  case h_1 =>
    split
    · exact roster_setControl hc rfl
    · rfl
  case h_2 =>
    split
    · rw [roster_modifyControl (by intro c; rfl), roster_clearGroup]
    · rfl
  case h_3 => exact roster_setControl hc (dropdownKey_entry c key)
  case h_4 => exact roster_setControl hc (menuKey_entry c key)
  case h_5 => exact roster_setControl hc (scrollbarKey_entry c key)
  case h_6 =>
    split
    · rfl
    · split
      · rfl
      · exact roster_setControl hc (textKey_entry _ _ c key)
  case h_7 => rfl

theorem dispatchKey_roster (key : UInt8) : (dispatchKey d key).1.wm.roster = d.wm.roster := by
  unfold dispatchKey
  split
  · rfl
  split
  · rfl
  · rename_i hc
    split
    · exact keyOnControl_roster hc key
    · rfl

/-- A key changes controls of one window only: the window of the control that has the focus. -/
theorem keyOnControl_frame (hc : d.wm.controls[i]? = some c) (key : UInt8)
    {j : Nat} {e : Control} (he : d.wm.controls[j]? = some e) (hne : e.windowId ≠ c.windowId) :
    (keyOnControl d i c key).1.wm.controls[j]? = some e := by
  have hij : i ≠ j := by
    intro hij
    subst hij
    exact hne (congrArg Control.windowId (Option.some.inj (he.symm.trans hc)))
  have hmodify : ∀ (v : Manager) (f : Control → Control), v.controls[j]? = some e →
      (v.modifyControl i f).controls[j]? = some e := by
    intro v f hv
    unfold Manager.modifyControl
    rw [List.getElem?_modify, hv]
    simp [hij]
  have hgroup : (clearGroup d.wm c).controls[j]? = some e := by
    unfold clearGroup
    rw [List.getElem?_map, he]
    simp [hne]
  unfold keyOnControl
  dsimp only
  split
  case h_1 =>
    split
    · exact hmodify _ _ he
    · exact he
  case h_2 =>
    split
    · exact hmodify _ _ hgroup
    · exact he
  case h_3 => exact hmodify _ _ he
  case h_4 => exact hmodify _ _ he
  case h_5 => exact hmodify _ _ he
  case h_6 =>
    split
    · exact he
    · split
      · exact he
      · exact hmodify _ _ he
  case h_7 => exact he

end Ui
end MiniDos
