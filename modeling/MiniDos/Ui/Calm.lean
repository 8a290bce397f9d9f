import MiniDos.Ui.Frames

/-!
# MiniDos.Ui.Calm

What the calls of an app (`ui_wm.h`) leave that are not calls of the mouse: no other control is
pressed, and all windows that are there are shown.

* `shownWindow_top`: the window under the mouse is found.
* `StackCall.run_calm`: all calls but those of the mouse.
-/

namespace MiniDos
namespace Ui

open Video Plane

variable {wm wm' : Manager} {x y : Int}

/-! ## Windows are shown -/

/-- The table has room, and the windows that are there are shown. -/
structure AllShown (wm : Manager) : Prop where
  room : wm.windows.length ≤ maxWindows
  visible : ∀ w ∈ wm.windows, w.id ≠ 0 → w.visible = true

theorem shownWindow_top (h : AllShown wm) (htop : topWindowAt wm x y ≠ 0) :
    ∃ e, shownWindow wm (topWindowAt wm x y) = some e := by
  obtain ⟨w, hw, hid⟩ := List.mem_map.mp ((topWindow_mem _).resolve_left htop)
  have hid : w.id = topWindowAt wm x y := congrArg Prod.fst hid
  have hfind : ∃ i, findWindow wm (topWindowAt wm x y) = some i := by
    unfold findWindow
    rw [if_neg htop]
    refine Option.ne_none_iff_exists'.mp (fun hnone => ?_)
    simpa [hid] using List.findIdx?_eq_none_iff.mp hnone w hw
  obtain ⟨i, hfind⟩ := hfind
  obtain ⟨_, v, hv, hvid⟩ := findWindow_some hfind
  have hvisible := h.visible v (List.mem_of_getElem? hv) (by rwa [hvid])
  refine ⟨(i, v), ?_⟩
  unfold shownWindow
  simp [hfind, hv, hvisible]

theorem SameStack.shows (h : SameStack wm wm') (hs : AllShown wm) : AllShown wm' := by
  have hlen : wm'.windows.length = wm.windows.length := by simpa using congrArg List.length h.cards
  refine ⟨by rw [hlen]; exact hs.room, fun w hw hid => ?_⟩
  have hcard : w.card ∈ wm.windows.map WmWindow.card := by
    rw [← h.cards]
    exact List.mem_map_of_mem hw
  obtain ⟨v, hv, hsame⟩ := List.mem_map.mp hcard
  have hvisible := hs.visible v hv (by rw [show v.id = w.id from congrArg Card.id hsame]; exact hid)
  rwa [show v.visible = w.visible from congrArg Card.visible hsame] at hvisible

theorem SameFrames.shows (h : SameFrames wm wm') (hs : AllShown wm) : AllShown wm' := by
  have hlen : wm'.windows.length = wm.windows.length := by simpa using congrArg List.length h
  refine ⟨by rw [hlen]; exact hs.room, fun w hw hid => ?_⟩
  have hframe : w.frame ∈ wm.windows.map WmWindow.frame := by
    rw [← h]
    exact List.mem_map_of_mem hw
  obtain ⟨v, hv, hsame⟩ := List.mem_map.mp hframe
  have hids : v.frame.id = w.frame.id := congrArg WmWindow.id hsame
  have hvisible : v.frame.visible = w.frame.visible := congrArg WmWindow.visible hsame
  exact hvisible.symm.trans (hs.visible v hv (fun hzero => hid (hids.symm.trans hzero)))

theorem FrontOf.shows {id : Int} (h : FrontOf wm wm' id) (hs : AllShown wm) : AllShown wm' := by
  rcases h.front with rfl | ⟨v, hv, rfl⟩
  · exact hs
  · exact (sameFrames_bringToFront v id).shows (hv.shows hs)

theorem length_putSlot {α : Type} {id : α → Int} {capacity slot : Nat} {table : List α} {a : α}
    (hfree : freeSlot id capacity table = some slot) (hroom : table.length ≤ capacity) :
    (putSlot table slot a).length ≤ capacity := by
  unfold freeSlot at hfree
  unfold putSlot
  split
  · rwa [List.length_set]
  · rename_i hnew
    rw [List.length_append, List.length_singleton]
    split at hfree
    · rename_i found hfound
      obtain rfl := Option.some.inj hfree
      exact absurd (List.findIdx?_eq_some_iff_getElem.mp hfound).1 hnew
    · split at hfree
      · cases hfree
      · omega

theorem createWindowEx_shows (hs : AllShown wm) (bounds : Rect) (hasClose hasMinimize hasMaximize : Bool) :
    AllShown (createWindowEx wm bounds hasClose hasMinimize hasMaximize).1 := by
  unfold createWindowEx
  split
  · exact hs
  rename_i slot hfree
  dsimp only
  refine (sameFrames_setActiveWindow _).shows ?_
  rw [set_putSlot (freeSlot_some hfree).1]
  refine ⟨length_putSlot hfree hs.room, fun w hw hid => ?_⟩
  rcases mem_putSlot (freeSlot_some hfree).1 hw with rfl | hold
  · rfl
  · exact hs.visible w hold hid

theorem closeWindow_shows (hs : AllShown wm) (id : Int) : AllShown (closeWindow wm id) := by
  have hcleared : AllShown (clearControls (clearWindow wm id) id) := by
    have hwindow : AllShown (clearWindow wm id) := by
      unfold clearWindow
      split
      · exact hs
      · rename_i i _
        refine ⟨by simpa [Manager.modifyWindow] using hs.room, fun w hw hid => ?_⟩
        obtain ⟨j, hj⟩ := List.mem_iff_getElem?.mp hw
        unfold Manager.modifyWindow at hj
        rw [List.getElem?_modify] at hj
        obtain ⟨v, hv, rfl⟩ := Option.map_eq_some_iff.mp hj
        split at hid
        · exact absurd rfl hid
        · rw [if_neg ‹_›]
          exact hs.visible v (List.mem_of_getElem? hv) hid
    exact ⟨hwindow.room, hwindow.visible⟩
  unfold closeWindow
  dsimp only
  generalize clearControls (clearWindow wm id) id = v at hcleared
  have hactive : AllShown (if wm.activeWindowId = id then setActiveWindow v (topVisibleWindowId v) else v) := by
    split
    · exact (sameFrames_setActiveWindow _).shows hcleared
    · exact hcleared
  generalize (if wm.activeWindowId = id then setActiveWindow v (topVisibleWindowId v) else v) = u
    at hactive
  split
  · exact ⟨hactive.room, hactive.visible⟩
  · exact hactive

/-! ## Calls -/

theorem clearWindow_pressed (wm : Manager) (id : Int) :
    (clearWindow wm id).pressedControlId = wm.pressedControlId := by
  unfold clearWindow
  split <;> rfl

theorem closeWindow_pressed (wm : Manager) (id : Int) :
    (closeWindow wm id).pressedControlId = 0 ∨
      (closeWindow wm id).pressedControlId = wm.pressedControlId := by
  have hcleared : (clearControls (clearWindow wm id) id).pressedControlId = 0 ∨
      (clearControls (clearWindow wm id) id).pressedControlId = wm.pressedControlId := by
    unfold clearControls
    dsimp only
    split
    · exact .inl rfl
    · exact .inr (clearWindow_pressed wm id)
  unfold closeWindow
  dsimp only
  generalize clearControls (clearWindow wm id) id = v at hcleared
  split <;> split <;> exact hcleared

/-- What a call other than those of the mouse leaves. -/
structure Calm (wm wm' : Manager) : Prop where
  shows : AllShown wm → AllShown wm'
  pressed : wm'.pressedControlId = 0 ∨ wm'.pressedControlId = wm.pressedControlId

theorem Untouched.calm (h : Untouched wm wm') (hs : AllShown wm → AllShown wm') : Calm wm wm' :=
  ⟨hs, .inr h.pressed⟩

theorem addControl_calm (wm : Manager) (type : ControlType) (windowId : Int) (bounds : Rect)
    (set : Control → Control) : Calm wm (addControl wm type windowId bounds set).1 := by
  refine ⟨(addControl_sameStack wm type windowId bounds set).shows, .inr ?_⟩
  unfold addControl
  cases halloc : allocControl wm type windowId bounds set with
  | none => rfl
  | some added =>
    obtain ⟨_, _, _, _, _, hpressed⟩ := allocControl_spec halloc
    exact hpressed

theorem addTextinput_calm (d : Desk) (windowId : Int) (bounds : Rect) (textBuffer : Option Nat)
    (textBufferLen : Int) : Calm d.wm (addTextinput d windowId bounds textBuffer textBufferLen).1.wm := by
  refine ⟨(addTextinput_sameStack d windowId bounds textBuffer textBufferLen).shows, .inr ?_⟩
  unfold addTextinput
  split
  · rfl
  split
  · rfl
  dsimp only
  split
  · rfl
  · rename_i halloc
    obtain ⟨_, _, _, _, _, hpressed⟩ := allocControl_spec halloc
    exact hpressed

def WmCall.isMouse : WmCall → Bool
  | .mouse _ _ _ _ _ => true
  | _ => false

theorem WmCall.run_calm {d d' : Desk} {c : WmCall} (hcall : c.isMouse = false)
    (hrun : c.run d = some d') : Calm d.wm d'.wm := by
  cases c with
  | createWindow bounds hasClose hasMinimize hasMaximize =>
    cases hrun
    exact (createWindowEx_untouched d.wm bounds hasClose hasMinimize hasMaximize).calm
      (fun hs => createWindowEx_shows hs bounds hasClose hasMinimize hasMaximize)
  | closeWindow id =>
    cases hrun
    exact ⟨fun hs => closeWindow_shows hs id, closeWindow_pressed d.wm id⟩
  | minimize id =>
    cases hrun
    exact (minimizeWindow_untouched d.wm id).calm (minimizeWindow_sameStack d.wm id).shows
  | unminimize id =>
    cases hrun
    exact (unminimizeWindow_untouched d.wm id).calm (unminimizeWindow_front d.wm id).shows
  | restore id =>
    cases hrun
    exact (restoreWindow_untouched d.wm id).calm (restoreWindow_front d.wm id).shows
  | maximize id desktop =>
    cases hrun
    exact (maximizeWindow_untouched d.wm id desktop).calm (maximizeWindow_front d.wm id desktop).shows
  | toggleMaximize id desktop =>
    cases hrun
    exact (toggleMaximizeWindow_untouched d.wm id desktop).calm
      (toggleMaximizeWindow_front d.wm id desktop).shows
  | addLabel id bounds | addButton id bounds =>
    cases hrun
    exact addControl_calm d.wm _ id bounds _
  | addTextinput id bounds textBuffer textBufferLen =>
    cases hrun
    exact addTextinput_calm d id bounds textBuffer textBufferLen
  | addListview id bounds lv =>
    cases hrun
    cases lv with
    | false => exact ⟨fun hs => hs, .inr rfl⟩
    | true => exact addControl_calm d.wm _ id bounds _
  | addCheckbox id bounds checked | addRadio id bounds groupId checked =>
    cases hrun
    exact addControl_calm d.wm _ id bounds _
  | addDropdown id bounds itemCount selected | addMenu id bounds itemCount selected =>
    cases hrun
    exact addControl_calm d.wm _ id bounds _
  | addScrollbar id bounds minValue maxValue pageSize value =>
    cases hrun
    exact addControl_calm d.wm _ id bounds _
  | mouse => cases hcall
  | key k =>
    cases hrun
    exact ⟨(dispatchKey_sameStack d k).shows, .inr (congrArg Roster.pressedControlId (dispatchKey_roster k))⟩

def StackCall.isMouse : StackCall → Bool
  | .call c => c.isMouse
  | _ => false

theorem StackCall.run_calm {d d' : Desk} {call : StackCall} (hcall : call.isMouse = false)
    (hrun : call.run d = some d') : Calm d.wm d'.wm := by
  cases call with
  | call c => exact WmCall.run_calm hcall hrun
  | bringToFront id =>
    cases hrun
    exact (untouched_front (.refl d.wm) id).calm (sameFrames_bringToFront d.wm id).shows
  | setActiveWindow id =>
    cases hrun
    exact ⟨(sameFrames_setActiveWindow id).shows, .inr rfl⟩

theorem StackCall.run_shows {d d' : Desk} {call : StackCall} (hs : AllShown d.wm)
    (hrun : call.run d = some d') : AllShown d'.wm := by
  cases hcall : call.isMouse
  · exact (StackCall.run_calm hcall hrun).shows hs
  · cases call with
    | call c =>
      cases c with
      | mouse x y leftDown leftPressed leftReleased =>
        obtain ⟨done, hdone, hd⟩ := Option.map_eq_some_iff.mp hrun
        cases hd
        obtain ⟨v, hfront, hsame⟩ := dispatchMouse_front hdone
        exact hsame.shows (hfront.shows hs)
      | _ => cases hcall
    | _ => cases hcall

theorem init_shows : AllShown Manager.init := ⟨Nat.zero_le _, fun _ hw => (nomatch hw)⟩

end Ui
end MiniDos
