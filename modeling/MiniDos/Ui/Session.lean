import MiniDos.Ui.Moves

/-!
# MiniDos.Ui.Session

Everything an app does with its windows and controls, in any order.

* The invariant of the roster under each operation that changes a table.
* `Coherent`: what a user of the window manager relies on.
* `session_coherent`: the states of all runs, and what a key leaves alone there.
* `minimized_keeps_focus`: the focus stays behind in a window that is minimised.
-/

namespace MiniDos
namespace Ui

open Video Plane Roster Transition

variable {wm wm' : Manager}

/-! ## Windows come and go -/

theorem int32_succ {n : Int} (h : 0 < n) (hn : n < 2 ^ 31 - 1) : int32 (n + 1) = n + 1 := by
  unfold int32
  exact Int.bmod_eq_of_le (by omega) (by omega)

theorem set_putSlot {α : Type} {table : List α} {slot : Nat} (hslot : slot ≤ table.length) (a b : α) :
    (putSlot table slot a).set slot b = putSlot table slot b := by
  unfold putSlot
  split
  · rw [List.set_set]
  · have hend : slot = table.length := by omega
    subst hend
    simp

theorem createWindowEx_sound (h : Sound wm.roster) (hnext : wm.nextWindowId < 2 ^ 31 - 1)
    (bounds : Rect) (hasClose hasMinimize hasMaximize : Bool) :
    Sound (createWindowEx wm bounds hasClose hasMinimize hasMaximize).1.roster := by
  unfold createWindowEx
  split
  · exact h
  rename_i slot hfree
  obtain ⟨hslot, hvacant⟩ := freeSlot_some hfree
  dsimp only
  have hint : int32 (wm.nextWindowId + 1) = wm.nextWindowId + 1 :=
    int32_succ h.nextWindow.1 hnext
  rw [roster_setActiveWindow, set_putSlot hslot, hint]
  have hplace : slot ≤ wm.roster.windows.length := by simpa [Manager.roster] using hslot
  have hadd := h.addWindow hplace (fun w hw => by
    simp only [Manager.roster, List.getElem?_map, Option.map_eq_some_iff] at hw
    obtain ⟨v, hv, rfl⟩ := hw
    exact hvacant v hv)
  simpa only [Manager.roster, map_putSlot, WmWindow.entry] using hadd

theorem map_eq_self {α : Type} {f : α → α} {l : List α} (h : ∀ a ∈ l, f a = a) : l.map f = l := by
  rw [List.map_congr_left h, List.map_id']

/-- The window is gone from the table. -/
theorem roster_clearWindow (h : Sound wm.roster) (id : Int) :
    (clearWindow wm id).roster =
      { wm.roster with windows := wm.roster.windows.map (clearEntry id) } := by
  unfold clearWindow
  split
  · rename_i hnone
    have hno : ∀ w ∈ wm.roster.windows, clearEntry id w = w := by
      intro w hw
      obtain ⟨v, hv, rfl⟩ := List.mem_map.mp hw
      have hne := List.findIdx?_eq_none_iff.mp hnone v hv
      exact if_neg (show v.id ≠ id by simpa using hne)
    rw [map_eq_self hno]
  · rename_i i hfind
    obtain ⟨hlt, hid, _⟩ := List.findIdx?_eq_some_iff_getElem.mp hfind
    have hget := List.getElem?_eq_getElem hlt
    generalize wm.windows[i] = w at hid hget
    have hid : w.id = id := by simpa using hid
    by_cases hz : id = 0
    · -- A free entry is cleared once more.
      subst hz
      have hno : ∀ w ∈ wm.roster.windows, clearEntry 0 w = w := by
        intro v hv
        rcases clearEntry_cases 0 v with he | ⟨he, _⟩
        · unfold clearEntry at he ⊢
          split
          · rename_i hv0
            exact (Prod.ext hv0 (h.freeWindow v hv hv0)).symm
          · rfl
        · exact he
      have hentry : w.entry = (0, false) :=
        Prod.ext hid (h.freeWindow _ (entry_mem_windows hget) hid)
      rw [map_eq_self hno]
      simp only [Manager.roster, Manager.modifyWindow]
      congr 1
      refine List.ext_getElem? (fun j => ?_)
      rw [List.getElem?_map, List.getElem?_map, List.getElem?_modify]
      by_cases hj : i = j
      · subst hj
        simp only [hget, if_pos, Option.map_some, hentry]
        rfl
      · simp [hj]
    · have hids : Distinct (wm.windows.map WmWindow.id) := by
        have hsound := h.windowIds
        rwa [Manager.roster, List.map_map] at hsound
      have hmap := modify_eq_map hids hget (by rw [hid]; exact hz)
      simp only [Manager.roster, Manager.modifyWindow, hmap, List.map_map]
      congr 1
      refine List.map_congr_left (fun v _ => ?_)
      rw [hid]
      by_cases hv : v.id = id <;> simp [clearEntry, WmWindow.entry, hv]

theorem roster_clearControls (id : Int) :
    (clearControls wm id).roster =
      { wm.roster with
        controls := wm.roster.controls.map (clearControl id)
        focusedControlId := wm.roster.dropControl id wm.focusedControlId
        pressedControlId := wm.roster.dropControl id wm.pressedControlId } := by
  have hentry : ∀ c : Control, (if c.windowId ≠ id then c else
      { c with
        id := 0, windowId := 0, visible := false, enabled := false, pressed := false
        focused := false, itemCount := 0, selectedIndex := -1, isOpen := false }).entry =
      clearControl id c.entry := by
    intro c
    by_cases hc : c.windowId = id <;> simp [clearControl, Control.entry, hc]
  have hids : (wm.controls.filter (fun c => c.windowId = id)).map Control.id =
      ((wm.controls.map Control.entry).filter (fun c => c.2.1 = id)).map Prod.fst := by
    rw [List.filter_map, List.map_map]
    rfl
  simp only [Manager.roster, clearControls, dropControl, List.map_map, Function.comp_def, hentry,
    hids]
  rfl

theorem closeWindow_sound (h : Sound wm.roster) (id : Int) :
    Sound (closeWindow wm id).roster := by
  have hcleared : (clearControls (clearWindow wm id) id).roster =
      { wm.roster with
        windows := wm.roster.windows.map (clearEntry id)
        controls := wm.roster.controls.map (clearControl id)
        focusedControlId := wm.roster.dropControl id wm.focusedControlId
        pressedControlId := wm.roster.dropControl id wm.pressedControlId } := by
    have hwindow := roster_clearWindow h id
    have hfocused := congrArg Roster.focusedControlId hwindow
    have hpressed := congrArg Roster.pressedControlId hwindow
    rw [roster_clearControls, hwindow, show (clearWindow wm id).focusedControlId = _ from hfocused,
      show (clearWindow wm id).pressedControlId = _ from hpressed]
    rfl
  unfold closeWindow
  dsimp only
  generalize clearControls (clearWindow wm id) id = v at hcleared
  have htop := @topWindow_mem v (fun _ => true)
  rw [hcleared] at htop
  have hclose := fun a ha p hp => @Roster.Sound.close wm.roster h id a p ha hp
  -- Some window is active, and it is still there.
  obtain ⟨a, ha, hactive⟩ : ∃ a, (a = 0 ∨ (a, false) ∈ wm.roster.windows.map (clearEntry id)) ∧
      (if wm.activeWindowId = id then setActiveWindow v (topVisibleWindowId v) else v).roster =
        { v.roster with activeWindowId := a } := by
    split
    · exact ⟨_, htop, roster_setActiveWindow _⟩
    · rename_i hne
      refine ⟨wm.activeWindowId, ?_, ?_⟩
      · exact h.active.imp_right (fun hmem => mem_clearEntry hmem hne)
      · rw [hcleared]
        rfl
  generalize (if wm.activeWindowId = id then setActiveWindow v (topVisibleWindowId v) else v) = u
    at hactive
  rw [hcleared] at hactive
  have hpressed : u.pressedWindowId = wm.pressedWindowId :=
    congrArg Roster.pressedWindowId hactive
  split
  · have hroster : ({ u with
        pressedWindowId := 0, pressedHitClose := false, pressedHitMinimize := false
        pressedHitMaximize := false } : Manager).roster =
        { u.roster with pressedWindowId := 0 } := rfl
    rw [hroster, hactive]
    exact hclose a ha 0 (.inl rfl)
  · rename_i hne
    rw [hactive]
    exact hclose a ha wm.pressedWindowId (.inr ⟨rfl, by rwa [hpressed] at hne⟩)

/-! ## Windows are shown and hidden -/

theorem roster_setMinimized (h : Sound wm.roster) {id : Int} {i : Nat} {w : WmWindow}
    (hshown : shownWindow wm id = some (i, w)) {f : WmWindow → WmWindow} {b : Bool}
    (hf : ∀ w, (f w).entry = (w.id, b)) :
    (wm.modifyWindow i f).roster =
      { wm.roster with windows := wm.roster.windows.map (setMinimized id b) } := by
  obtain ⟨_, hget, hid, hne⟩ := shownWindow_some hshown
  have hids : Distinct (wm.windows.map WmWindow.id) := by
    have hsound := h.windowIds
    rwa [Manager.roster, List.map_map] at hsound
  have hmap := modify_eq_map hids hget (by rw [hid]; exact hne) f
  simp only [Manager.roster, Manager.modifyWindow, hmap, List.map_map]
  congr 1
  refine List.map_congr_left (fun v _ => ?_)
  rw [hid, Function.comp_apply, Function.comp_apply]
  by_cases hv : v.id = id
  · rw [if_pos hv, hf, setMinimized, if_pos (show v.entry.1 = id from hv)]
    rfl
  · rw [if_neg hv, setMinimized, if_neg (show ¬ v.entry.1 = id from hv)]

theorem minimizeWindow_sound (h : Sound wm.roster) (id : Int) :
    Sound (minimizeWindow wm id).roster := by
  unfold minimizeWindow
  split
  · exact h
  rename_i i w hshown
  obtain ⟨_, _, _, hne⟩ := shownWindow_some hshown
  split
  · dsimp only
    have hroster := roster_setMinimized h hshown
      (f := fun w => { w with window := { w.window with minimized := true } }) (b := true)
      (fun _ => rfl)
    generalize wm.modifyWindow i (fun w =>
      { w with window := { w.window with minimized := true } }) = v at hroster
    have hactive : v.activeWindowId = wm.activeWindowId := congrArg Roster.activeWindowId hroster
    have htop := @topWindow_mem v (fun _ => true)
    rw [hroster] at htop
    split
    · rw [roster_setActiveWindow, hroster]
      exact h.minimize hne true htop
    · rename_i hother
      rw [hroster]
      rw [hactive] at hother
      refine h.minimize hne true (h.active.imp_right (fun hmem => ?_))
      exact List.mem_map.mpr ⟨_, hmem, if_neg hother⟩
  · exact h

theorem bringToFront_sound (h : Sound wm.roster) {id : Int} (hid : id ≠ 0)
    (hthere : ∃ w ∈ wm.roster.windows, w.1 = id) {v : Manager}
    (hv : v.roster = { wm.roster with windows := wm.roster.windows.map (setMinimized id false) }) :
    Sound (bringToFront v id).roster := by
  have hmem : (id, false) ∈ wm.roster.windows.map (setMinimized id false) := by
    obtain ⟨w, hw, he⟩ := hthere
    refine List.mem_map.mpr ⟨w, hw, ?_⟩
    rw [setMinimized, if_pos he, he]
  have hshown : Sound v.roster := by
    rw [hv]
    refine h.minimize hid false (h.active.imp_right (fun hm => ?_))
    refine List.mem_map.mpr ⟨_, hm, ?_⟩
    unfold setMinimized
    split <;> rfl
  exact hshown.moved (bringToFront_moved (by rw [hv]; exact hmem))

theorem unminimizeWindow_sound (h : Sound wm.roster) (id : Int) :
    Sound (unminimizeWindow wm id).roster := by
  unfold unminimizeWindow
  split
  · exact h
  rename_i i w hshown
  obtain ⟨_, hget, hid, hne⟩ := shownWindow_some hshown
  split
  · exact bringToFront_sound h hne ⟨_, entry_mem_windows hget, hid⟩
      (roster_setMinimized h hshown (fun _ => rfl))
  · exact h

theorem restoreWindow_sound (h : Sound wm.roster) (id : Int) :
    Sound (restoreWindow wm id).roster := by
  unfold restoreWindow
  split
  · exact h
  rename_i i w hshown
  obtain ⟨_, hget, hid, hne⟩ := shownWindow_some hshown
  split
  · dsimp only
    refine bringToFront_sound h hne ⟨_, entry_mem_windows hget, hid⟩ ?_
    have hroster := roster_setMinimized h hshown
      (f := fun w => { w with window := { w.window with minimized := false } }) (b := false)
      (fun _ => rfl)
    split
    · rw [roster_modifyWindow (by intro w; rfl)]
      exact hroster
    · exact hroster
  · exact h

theorem maximizeWindow_sound (h : Sound wm.roster) (id : Int) (desktop : Rect) :
    Sound (maximizeWindow wm id desktop).roster := by
  unfold maximizeWindow
  split
  · exact h
  split
  · exact h
  rename_i i w hshown
  obtain ⟨_, hget, hid, hne⟩ := shownWindow_some hshown
  split
  · dsimp only
    refine bringToFront_sound h hne ⟨_, entry_mem_windows hget, hid⟩ ?_
    have hroster := roster_setMinimized h hshown
      (f := fun w => { w with window := { w.window with minimized := false } }) (b := false)
      (fun _ => rfl)
    split
    · rw [roster_modifyWindow (by intro w; rfl)]
      exact hroster
    · exact hroster
  · exact h

theorem toggleMaximizeWindow_sound (h : Sound wm.roster) (id : Int) (desktop : Rect) :
    Sound (toggleMaximizeWindow wm id desktop).roster := by
  unfold toggleMaximizeWindow
  split
  · exact h
  · split
    · exact restoreWindow_sound h id
    · exact maximizeWindow_sound h id desktop

/-! ## Controls -/

theorem allocControl_sound (h : Sound wm.roster) (hnext : wm.nextControlId < 2 ^ 31 - 1)
    {type : ControlType} {windowId : Int} {bounds : Rect} {set : Control → Control}
    (hset : ∀ c, (set c).entry = c.entry) {id : Int}
    (halloc : allocControl wm type windowId bounds set = some (wm', id)) : Sound wm'.roster := by
  unfold allocControl at halloc
  simp only [Option.bind_eq_bind, Option.bind_eq_some_iff] at halloc
  obtain ⟨i, hfind, slot, hfree, halloc⟩ := halloc
  cases halloc
  obtain ⟨hne, w, hget, hid⟩ := findWindow_some hfind
  obtain ⟨hslot, hvacant⟩ := freeSlot_some hfree
  have hplace : slot ≤ wm.roster.controls.length := by simpa [Manager.roster] using hslot
  have hadd := h.addControl hplace (fun c hc => by
    simp only [Manager.roster, List.getElem?_map, Option.map_eq_some_iff] at hc
    obtain ⟨d, hd, rfl⟩ := hc
    exact hvacant d hd) hne ⟨_, entry_mem_windows hget, hid⟩
  have hint : int32 (wm.nextControlId + 1) = wm.nextControlId + 1 :=
    int32_succ h.nextControl.1 hnext
  simp only [Manager.roster, map_putSlot, hset, hint]
  exact hadd

theorem addControl_sound (h : Sound wm.roster) (hnext : wm.nextControlId < 2 ^ 31 - 1)
    (type : ControlType) (windowId : Int) (bounds : Rect) {set : Control → Control}
    (hset : ∀ c, (set c).entry = c.entry) :
    Sound (addControl wm type windowId bounds set).1.roster := by
  unfold addControl
  cases halloc : allocControl wm type windowId bounds set with
  | none => exact h
  | some added => exact allocControl_sound h hnext hset halloc

theorem addTextinput_sound {d : Desk} (h : Sound d.wm.roster)
    (hnext : d.wm.nextControlId < 2 ^ 31 - 1) (windowId : Int) (bounds : Rect)
    (textBuffer : Option Nat) (textBufferLen : Int) :
    Sound (addTextinput d windowId bounds textBuffer textBufferLen).1.wm.roster := by
  unfold addTextinput
  split
  · exact h
  split
  · exact h
  · dsimp only
    split
    · exact h
    · rename_i halloc
      exact allocControl_sound h hnext (by intro c; rfl) halloc

/-! ## Runs -/

inductive WmCall where
  | createWindow (bounds : Rect) (hasClose hasMinimize hasMaximize : Bool)
  | closeWindow (id : Int)
  | minimize (id : Int)
  | unminimize (id : Int)
  | restore (id : Int)
  | maximize (id : Int) (desktop : Rect)
  | toggleMaximize (id : Int) (desktop : Rect)
  | addLabel (id : Int) (bounds : Rect)
  | addButton (id : Int) (bounds : Rect)
  | addTextinput (id : Int) (bounds : Rect) (textBuffer : Option Nat) (textBufferLen : Int)
  | addListview (id : Int) (bounds : Rect) (lv : Bool)
  | addCheckbox (id : Int) (bounds : Rect) (checked : Bool)
  | addRadio (id : Int) (bounds : Rect) (groupId : Int) (checked : Bool)
  | addDropdown (id : Int) (bounds : Rect) (itemCount selected : Int)
  | addMenu (id : Int) (bounds : Rect) (itemCount selected : Int)
  | addScrollbar (id : Int) (bounds : Rect) (minValue maxValue pageSize value : Int)
  | mouse (x y : Int) (leftDown leftPressed leftReleased : Bool)
  | key (k : UInt8)

/-- One call. A divide error ends the app. -/
def WmCall.run (d : Desk) : WmCall → Option Desk
  | .createWindow bounds hasClose hasMinimize hasMaximize =>
    some { d with wm := (createWindowEx d.wm bounds hasClose hasMinimize hasMaximize).1 }
  | .closeWindow id => some { d with wm := Ui.closeWindow d.wm id }
  | .minimize id => some { d with wm := minimizeWindow d.wm id }
  | .unminimize id => some { d with wm := unminimizeWindow d.wm id }
  | .restore id => some { d with wm := restoreWindow d.wm id }
  | .maximize id desktop => some { d with wm := maximizeWindow d.wm id desktop }
  | .toggleMaximize id desktop => some { d with wm := toggleMaximizeWindow d.wm id desktop }
  | .addLabel id bounds => some { d with wm := (Ui.addLabel d.wm id bounds).1 }
  | .addButton id bounds => some { d with wm := (Ui.addButton d.wm id bounds).1 }
  | .addTextinput id bounds textBuffer textBufferLen =>
    some (Ui.addTextinput d id bounds textBuffer textBufferLen).1
  | .addListview id bounds lv => some { d with wm := (Ui.addListview d.wm id bounds lv).1 }
  | .addCheckbox id bounds checked =>
    some { d with wm := (Ui.addCheckbox d.wm id bounds checked).1 }
  | .addRadio id bounds groupId checked =>
    some { d with wm := (Ui.addRadio d.wm id bounds groupId checked).1 }
  | .addDropdown id bounds itemCount selected =>
    some { d with wm := (Ui.addDropdown d.wm id bounds itemCount selected).1 }
  | .addMenu id bounds itemCount selected =>
    some { d with wm := (Ui.addMenu d.wm id bounds itemCount selected).1 }
  | .addScrollbar id bounds minValue maxValue pageSize value =>
    some { d with wm := (Ui.addScrollbar d.wm id bounds minValue maxValue pageSize value).1 }
  | .mouse x y leftDown leftPressed leftReleased =>
    (dispatchMouse d.wm x y leftDown leftPressed leftReleased).map (fun done =>
      { d with wm := done.1 })
  | .key k => some (dispatchKey d k).1

/-- Labels, buttons and listviews do nothing with a key. -/
def Control.takesKeys (c : Control) : Bool :=
  match c.type with
  | .label | .button | .listview => false
  | _ => true

/-- The control that has the focus, if it takes keys, is in a window that is not minimised. -/
def FocusShown (wm : Manager) : Prop :=
  ∀ c ∈ wm.controls, c.id = wm.focusedControlId → c.id ≠ 0 → c.takesKeys →
    ∀ w ∈ wm.windows, w.id = c.windowId → w.window.minimized = false

instance (wm : Manager) : Decidable (FocusShown wm) :=
  have (c : Control) : Decidable (∀ w ∈ wm.windows, w.id = c.windowId →
      w.window.minimized = false) := List.decidableBAll _ _
  List.decidableBAll _ _

/-- There is one more id, and keys go to a control that can be seen. -/
def WmCall.Fair (d : Desk) : WmCall → Prop
  | .createWindow _ _ _ _ => d.wm.nextWindowId < 2 ^ 31 - 1
  | .addLabel _ _ | .addButton _ _ | .addTextinput _ _ _ _ | .addListview _ _ _
  | .addCheckbox _ _ _ | .addRadio _ _ _ _ | .addDropdown _ _ _ _ | .addMenu _ _ _ _
  | .addScrollbar _ _ _ _ _ _ => d.wm.nextControlId < 2 ^ 31 - 1
  | .key _ => FocusShown d.wm
  | _ => True

instance (d : Desk) : (call : WmCall) → Decidable (call.Fair d)
  | .createWindow _ _ _ _ => inferInstanceAs (Decidable (d.wm.nextWindowId < 2 ^ 31 - 1))
  | .addLabel _ _ | .addButton _ _ | .addTextinput _ _ _ _ | .addListview _ _ _
  | .addCheckbox _ _ _ | .addRadio _ _ _ _ | .addDropdown _ _ _ _ | .addMenu _ _ _ _
  | .addScrollbar _ _ _ _ _ _ => inferInstanceAs (Decidable (d.wm.nextControlId < 2 ^ 31 - 1))
  | .key _ => inferInstanceAs (Decidable (FocusShown d.wm))
  | .closeWindow _ | .minimize _ | .unminimize _ | .restore _ | .maximize _ _
  | .toggleMaximize _ _ | .mouse _ _ _ _ _ => .isTrue trivial

/-- What a user of the window manager relies on. -/
structure Coherent (wm : Manager) : Prop where
  windowIds : ∀ (i j : Nat) (v w : WmWindow), wm.windows[i]? = some v → wm.windows[j]? = some w →
    v.id ≠ 0 → v.id = w.id → i = j
  controlIds : ∀ (i j : Nat) (c e : Control), wm.controls[i]? = some c → wm.controls[j]? = some e →
    c.id ≠ 0 → c.id = e.id → i = j
  owned : ∀ c ∈ wm.controls, c.id ≠ 0 → c.windowId ≠ 0 ∧ ∃ w ∈ wm.windows, w.id = c.windowId
  active : wm.activeWindowId = 0 ∨
    ∃ w ∈ wm.windows, w.id = wm.activeWindowId ∧ w.window.minimized = false
  pressedWindow : wm.pressedWindowId = 0 ∨ ∃ w ∈ wm.windows, w.id = wm.pressedWindowId
  focusedControl : wm.focusedControlId = 0 ∨ ∃ c ∈ wm.controls, c.id = wm.focusedControlId
  pressedControl : wm.pressedControlId = 0 ∨ ∃ c ∈ wm.controls, c.id = wm.pressedControlId

/-- The controls of minimised windows stay as they are. -/
def HiddenKept (wm wm' : Manager) : Prop :=
  ∀ (i : Nat) (c : Control), wm.controls[i]? = some c → c.id ≠ 0 →
    (∃ w ∈ wm.windows, w.id = c.windowId ∧ w.window.minimized = true) → wm'.controls[i]? = some c

theorem coherent_of_sound (h : Sound wm.roster) : Coherent wm where
  windowIds i j v w hv hw hne he := by
    refine h.windowIds i j v.id ?_ ?_ hne
    · simp [Manager.roster, WmWindow.entry, hv]
    · simp [Manager.roster, WmWindow.entry, hw, he]
  controlIds i j c e hc he hne hce := by
    refine h.controlIds i j c.id ?_ ?_ hne
    · simp [Manager.roster, Control.entry, hc]
    · simp [Manager.roster, Control.entry, he, hce]
  owned c hc hne := by
    obtain ⟨hwid, w, hw, he⟩ := h.owned c.entry (List.mem_map_of_mem hc) hne
    obtain ⟨v, hv, rfl⟩ := List.mem_map.mp hw
    exact ⟨hwid, v, hv, he⟩
  active := by
    refine h.active.imp_right (fun hmem => ?_)
    obtain ⟨v, hv, he⟩ := List.mem_map.mp hmem
    exact ⟨v, hv, congrArg Prod.fst he, congrArg Prod.snd he⟩
  pressedWindow := by
    refine h.pressedWindow.imp_right (fun hmem => ?_)
    obtain ⟨w, hw, he⟩ := hmem
    obtain ⟨v, hv, rfl⟩ := List.mem_map.mp hw
    exact ⟨v, hv, he⟩
  focusedControl := by
    refine h.focused.imp_right (fun hmem => ?_)
    obtain ⟨c, hc, he⟩ := hmem
    obtain ⟨e, hmem, rfl⟩ := List.mem_map.mp hc
    exact ⟨e, hmem, he⟩
  pressedControl := by
    refine h.pressedControl.imp_right (fun hmem => ?_)
    obtain ⟨c, hc, he⟩ := hmem
    obtain ⟨e, hmem, rfl⟩ := List.mem_map.mp hc
    exact ⟨e, hmem, he⟩

theorem keyOnControl_idle {d : Desk} {i : Nat} {c : Control} (key : UInt8)
    (h : c.takesKeys = false) : (keyOnControl d i c key).1 = d := by
  unfold keyOnControl
  unfold Control.takesKeys at h
  cases htype : c.type <;> rw [htype] at h <;> first | rfl | cases h

theorem dispatchKey_hidden {d : Desk} (hfocus : FocusShown d.wm) (key : UInt8) :
    HiddenKept d.wm (dispatchKey d key).1.wm := by
  intro j e he _ hhidden
  unfold dispatchKey
  split
  · exact he
  rename_i i hfind
  obtain ⟨hne, c, hc, hid⟩ := findControl_some hfind
  rw [hc]
  dsimp only
  split
  · cases htakes : c.takesKeys with
    | false => rwa [keyOnControl_idle key htakes]
    | true =>
      refine keyOnControl_frame hc key he (fun hsame => ?_)
      -- The window of the control that has the focus is shown.
      obtain ⟨w, hw, hwid, hmin⟩ := hhidden
      have hshown := hfocus c (List.mem_of_getElem? hc) hid (by rw [hid]; exact hne) htakes w hw
        (hwid.trans hsame)
      rw [hmin] at hshown
      cases hshown
  · exact he

/-- One call. -/
theorem WmCall.run_sound {d d' : Desk} {call : WmCall} (h : Sound d.wm.roster) (hfair : call.Fair d)
    (hrun : call.run d = some d') : Sound d'.wm.roster := by
  cases call with
  | createWindow bounds hasClose hasMinimize hasMaximize =>
    cases hrun
    exact createWindowEx_sound h hfair bounds hasClose hasMinimize hasMaximize
  | closeWindow id =>
    cases hrun
    exact closeWindow_sound h id
  | minimize id =>
    cases hrun
    exact minimizeWindow_sound h id
  | unminimize id =>
    cases hrun
    exact unminimizeWindow_sound h id
  | restore id =>
    cases hrun
    exact restoreWindow_sound h id
  | maximize id desktop =>
    cases hrun
    exact maximizeWindow_sound h id desktop
  | toggleMaximize id desktop =>
    cases hrun
    exact toggleMaximizeWindow_sound h id desktop
  | addLabel id bounds | addButton id bounds =>
    cases hrun
    exact addControl_sound h hfair _ id bounds (by intro c; rfl)
  | addTextinput id bounds textBuffer textBufferLen =>
    cases hrun
    exact addTextinput_sound h hfair id bounds textBuffer textBufferLen
  | addListview id bounds lv =>
    cases hrun
    cases lv with
    | false => exact h
    | true => exact addControl_sound h hfair _ id bounds (by intro c; rfl)
  | addCheckbox id bounds checked | addRadio id bounds groupId checked =>
    cases hrun
    exact addControl_sound h hfair _ id bounds (by intro c; rfl)
  | addDropdown id bounds itemCount selected | addMenu id bounds itemCount selected =>
    cases hrun
    exact addControl_sound h hfair _ id bounds (by intro c; rfl)
  | addScrollbar id bounds minValue maxValue pageSize value =>
    cases hrun
    exact addControl_sound h hfair _ id bounds (by intro c; rfl)
  | mouse x y leftDown leftPressed leftReleased =>
    obtain ⟨done, hdone, hrun⟩ := Option.map_eq_some_iff.mp hrun
    cases hrun
    exact h.moved (dispatchMouse_moved hdone)
  | key k =>
    cases hrun
    show Sound (dispatchKey d k).1.wm.roster
    rw [dispatchKey_roster]
    exact h

theorem init_sound : Sound Manager.init.roster := by
  have hnone : ∀ (i : Nat) (n : Int), ([] : List Int)[i]? = some n → False := by
    intro i n h
    simp at h
  exact ⟨fun i _ n hi => (hnone i n hi).elim, fun i _ n hi => (hnone i n hi).elim,
    ⟨by decide, fun _ hw => nomatch hw⟩, ⟨by decide, fun _ hc => nomatch hc⟩,
    (fun _ hw => nomatch hw), (fun _ hc => nomatch hc), (fun _ hc => nomatch hc), .inl rfl,
    .inl rfl, .inl rfl, .inl rfl⟩

/-- Whatever an app calls, the window manager stays coherent, as long as there are ids and keys go
to controls that are shown; and such a key leaves the controls of minimised windows alone. -/
theorem session_coherent (memory : Nat → UInt8) (calls : List WmCall) (d : Desk)
    (hrun : run WmCall.run ⟨Manager.init, memory⟩ calls = some d)
    (hfair : Meets WmCall.run (fun e call => call.Fair e) ⟨Manager.init, memory⟩ calls) :
    Coherent d.wm ∧ ∀ key, (WmCall.key key).Fair d → HiddenKept d.wm (dispatchKey d key).1.wm := by
  have hstep : ∀ (e : Desk) (call : WmCall) (e' : Desk), Sound e.wm.roster → call.Fair e →
      call.run e = some e' → Sound e'.wm.roster :=
    fun _ _ _ h hfair hrun => WmCall.run_sound h hfair hrun
  have hsound : Sound d.wm.roster := run_invariant hstep calls _ d init_sound hfair hrun
  exact ⟨coherent_of_sound hsound, fun key hkey => dispatchKey_hidden hkey key⟩

def clicked : List WmCall :=
  [.createWindow ⟨10, 10, 200, 150⟩ true true false, .addCheckbox 1 ⟨8, 8, 80, 16⟩ false,
    .mouse 30 45 true true false, .mouse 30 45 false false true]

theorem session_clicked : ∃ d, run WmCall.run ⟨Manager.init, fun _ => 0⟩ clicked = some d ∧
    Coherent d.wm ∧ HiddenKept d.wm (dispatchKey d 13).1.wm := by
  obtain ⟨hcoherent, hkept⟩ :=
    session_coherent (fun _ => 0) clicked _ rfl (by decide +kernel)
  exact ⟨_, rfl, hcoherent, hkept 13 (by decide +kernel)⟩

/-- The window is minimised, and the checkbox keeps the focus: the next key changes it. -/
theorem minimized_keeps_focus :
    ¬ ∀ (calls : List WmCall) (d : Desk), run WmCall.run ⟨Manager.init, fun _ => 0⟩ calls = some d →
      Coherent d.wm ∧ ∀ key, HiddenKept d.wm (dispatchKey d key).1.wm := by
  intro hall
  have h := (hall (clicked ++ [.minimize 1]) _ rfl).2 13 0 _ rfl (by decide) ⟨_, .head _, rfl, rfl⟩
  exact absurd (congrArg (Option.map Control.checked) h) (by decide +kernel)

end Ui
end MiniDos
