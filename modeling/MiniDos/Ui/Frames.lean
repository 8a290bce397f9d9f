import MiniDos.Ui.Stack

/-!
# MiniDos.Ui.Frames

What a window keeps when it comes to the front (`ui_wm.h`): everything but its z-order and whether it
is active. So its controls stay where they are, and the mouse is on the same one.

* `sameFrames_bringToFront`: the windows. `hitTestControl_front`: the mouse.
* `hitControl`: the control that the mouse is on.
-/

namespace MiniDos
namespace Ui

open Video Plane

variable {wm wm' : Manager}

/-- A window without its z-order, and not active. -/
def WmWindow.frame (w : WmWindow) : WmWindow :=
  { w with zOrder := 0, window := { w.window with active := false } }

/-- The windows are the same but for their order. -/
def SameFrames (wm wm' : Manager) : Prop :=
  wm'.windows.map WmWindow.frame = wm.windows.map WmWindow.frame

theorem SameFrames.refl (wm : Manager) : SameFrames wm wm := rfl

theorem SameFrames.trans {wm'' : Manager} (h : SameFrames wm wm') (h' : SameFrames wm' wm'') :
    SameFrames wm wm'' := Eq.trans h' h

theorem sameFrames_setActiveWindow (id : Int) : SameFrames wm (setActiveWindow wm id) := by
  unfold SameFrames setActiveWindow
  dsimp only
  rw [List.map_map]
  rfl

theorem sameFrames_modifyWindow {f : WmWindow → WmWindow} (hf : ∀ w, (f w).frame = w.frame) (i : Nat) :
    SameFrames wm (wm.modifyWindow i f) := map_modify hf wm.windows i

theorem sameFrames_normalizeFrom (n : Nat) (drawn : List Nat) (wm : Manager) :
    SameFrames wm (normalizeFrom n drawn wm) := by
  induction n generalizing drawn wm with
  | zero => exact .refl wm
  | succ n ih =>
    unfold normalizeFrom
    split
    · exact .refl wm
    · exact (sameFrames_modifyWindow (by intro w; rfl) _).trans (ih _ _)

theorem sameFrames_bringToFront (wm : Manager) (id : Int) : SameFrames wm (bringToFront wm id) := by
  unfold bringToFront
  split
  · exact .refl wm
  · exact (sameFrames_normalizeFrom _ _ wm).trans
      ((sameFrames_modifyWindow (by intro w; rfl) _).trans (sameFrames_setActiveWindow id))

theorem normalizeFrom_controls (n : Nat) (drawn : List Nat) (wm : Manager) :
    (normalizeFrom n drawn wm).controls = wm.controls ∧
      (normalizeFrom n drawn wm).pressedControlId = wm.pressedControlId := by
  induction n generalizing drawn wm with
  | zero => exact ⟨rfl, rfl⟩
  | succ n ih =>
    unfold normalizeFrom
    split
    · exact ⟨rfl, rfl⟩
    · exact ih _ _

@[simp] theorem bringToFront_controls (wm : Manager) (id : Int) :
    (bringToFront wm id).controls = wm.controls := by
  unfold bringToFront
  split
  · rfl
  · exact (normalizeFrom_controls _ _ wm).1

@[simp] theorem bringToFront_pressed (wm : Manager) (id : Int) :
    (bringToFront wm id).pressedControlId = wm.pressedControlId := by
  unfold bringToFront
  split
  · rfl
  · exact (normalizeFrom_controls _ _ wm).2

/-! ## Places -/

theorem SameFrames.findWindow (h : SameFrames wm wm') (id : Int) :
    Ui.findWindow wm' id = Ui.findWindow wm id := by
  have hids : ∀ windows : List WmWindow, windows.findIdx? (fun w => w.id = id) =
      (windows.map WmWindow.frame).findIdx? (fun w => w.id = id) := fun windows => by
    rw [List.findIdx?_map]
    rfl
  unfold Ui.findWindow
  rw [hids wm'.windows, hids wm.windows, h]

theorem SameFrames.controlWindow (h : SameFrames wm wm') (c : Control) :
    (Ui.controlWindow wm' c).map windowClientRect = (Ui.controlWindow wm c).map windowClientRect := by
  unfold Ui.controlWindow
  rw [h.findWindow]
  cases Ui.findWindow wm c.windowId with
  | none => rfl
  | some i =>
    have hframe := congrArg (fun l => l[i]?) h
    simp only [List.getElem?_map] at hframe
    simp only [Option.bind_eq_bind, Option.bind_some]
    cases hw : wm.windows[i]? with
    | none =>
      rw [hw, Option.map_none, Option.map_eq_none_iff] at hframe
      rw [hframe]
    | some w =>
      rw [hw, Option.map_some] at hframe
      obtain ⟨w', hw', hsame⟩ := Option.map_eq_some_iff.mp hframe
      have hclient : windowClientRect w'.frame.window = windowClientRect w.frame.window := by
        rw [hsame]
      rw [hw']
      exact congrArg some hclient

theorem controlAbsBounds_eq (wm : Manager) (c : Control) :
    controlAbsBounds wm c = match (Ui.controlWindow wm c).map windowClientRect with
      | none => ⟨0, 0, 0, 0⟩
      | some client =>
        ⟨int32 (client.x + c.bounds.x), int32 (client.y + c.bounds.y), c.bounds.w, c.bounds.h⟩ := by
  unfold controlAbsBounds
  cases Ui.controlWindow wm c <;> rfl

theorem SameFrames.controlAbsBounds (h : SameFrames wm wm') (c : Control) :
    Ui.controlAbsBounds wm' c = Ui.controlAbsBounds wm c := by
  rw [controlAbsBounds_eq, controlAbsBounds_eq, h.controlWindow]

theorem SameFrames.controlVisibleBounds (h : SameFrames wm wm') (c : Control) :
    Ui.controlVisibleBounds wm' c = Ui.controlVisibleBounds wm c := by
  have hrender : controlRenderBounds wm' c = controlRenderBounds wm c := by
    unfold controlRenderBounds
    rw [h.controlAbsBounds]
  have hclip : ∀ v : Manager, Ui.controlVisibleBounds v c =
      match (Ui.controlWindow v c).map windowClientRect with
        | none => ⟨0, 0, 0, 0⟩
        | some client => rectIntersect (controlRenderBounds v c) client := fun v => by
    unfold Ui.controlVisibleBounds
    cases Ui.controlWindow v c <;> rfl
  rw [hclip wm', hclip wm, hrender, h.controlWindow]

theorem SameFrames.hitTestControl (h : SameFrames wm wm') (hcontrols : wm'.controls = wm.controls)
    (id x y : Int) : Ui.hitTestControl wm' id x y = Ui.hitTestControl wm id x y := by
  have hpopup : hitPopup wm' id x y = hitPopup wm id x y := by
    funext c
    unfold hitPopup
    rw [h.controlAbsBounds, h.controlVisibleBounds]
  unfold Ui.hitTestControl
  rw [hcontrols, hpopup]
  simp only [h.controlVisibleBounds]

theorem hitTestControl_front (wm : Manager) (id top x y : Int) :
    hitTestControl (bringToFront wm id) top x y = hitTestControl wm top x y :=
  (sameFrames_bringToFront wm id).hitTestControl (bringToFront_controls wm id) top x y

/-! ## What the mouse is on -/

def hitControl (wm : Manager) (x y : Int) : Int :=
  match shownWindow wm (topWindowAt wm x y) with
  | none => 0
  | some (_, w) =>
    if windowHitClose w.window x y then 0 else hitTestControl wm (topWindowAt wm x y) x y

theorem hitTestControl_mem (wm : Manager) (id x y : Int) :
    hitTestControl wm id x y = 0 ∨ ∃ c ∈ wm.controls, c.id = hitTestControl wm id x y := by
  have hscan : ∀ (l : List Control) (found : Int), (found = 0 ∨ ∃ c ∈ wm.controls, c.id = found) →
      (∀ c ∈ l, c ∈ wm.controls) →
      let hit := l.foldl (fun found c =>
        if c.Reachable id && rectContains (controlVisibleBounds wm c) x y then c.id else found) found
      hit = 0 ∨ ∃ c ∈ wm.controls, c.id = hit := by
    intro l
    induction l with
    | nil => exact fun found hfound _ => hfound
    | cons c l ih =>
      intro found hfound hmem
      refine ih _ ?_ (fun e he => hmem e (List.mem_cons_of_mem c he))
      dsimp only
      split
      · exact .inr ⟨c, hmem c List.mem_cons_self, rfl⟩
      · exact hfound
  unfold hitTestControl
  split
  · rename_i c hfind
    exact .inr ⟨c, List.mem_of_find?_eq_some hfind, rfl⟩
  · exact hscan wm.controls 0 (.inl rfl) (fun _ hc => hc)

theorem findControl_none {id : Int} (h : findControl wm id = none)
    (hmem : id = 0 ∨ ∃ c ∈ wm.controls, c.id = id) : id = 0 := by
  rcases hmem with hzero | ⟨c, hc, rfl⟩
  · exact hzero
  · by_contra hne
    unfold findControl at h
    rw [if_neg hne, List.findIdx?_eq_none_iff] at h
    simpa using h c hc

/-! ## Calls that leave the controls alone -/

/-- The controls, and which one is pressed, are as before. -/
structure Untouched (wm wm' : Manager) : Prop where
  controls : wm'.controls = wm.controls
  pressed : wm'.pressedControlId = wm.pressedControlId

theorem Untouched.refl (wm : Manager) : Untouched wm wm := ⟨rfl, rfl⟩

theorem untouched_front {v : Manager} (h : Untouched wm v) (id : Int) :
    Untouched wm (bringToFront v id) :=
  ⟨(bringToFront_controls v id).trans h.controls, (bringToFront_pressed v id).trans h.pressed⟩

theorem createWindowEx_untouched (wm : Manager) (bounds : Rect)
    (hasClose hasMinimize hasMaximize : Bool) :
    Untouched wm (createWindowEx wm bounds hasClose hasMinimize hasMaximize).1 := by
  unfold createWindowEx
  split <;> exact ⟨rfl, rfl⟩

theorem minimizeWindow_untouched (wm : Manager) (id : Int) : Untouched wm (minimizeWindow wm id) := by
  unfold minimizeWindow
  split
  · exact .refl wm
  split
  · dsimp only
    split <;> exact ⟨rfl, rfl⟩
  · exact .refl wm

theorem unminimizeWindow_untouched (wm : Manager) (id : Int) :
    Untouched wm (unminimizeWindow wm id) := by
  unfold unminimizeWindow
  split
  · exact .refl wm
  split
  · refine untouched_front ?_ id
    exact ⟨rfl, rfl⟩
  · exact .refl wm

theorem restoreWindow_untouched (wm : Manager) (id : Int) : Untouched wm (restoreWindow wm id) := by
  unfold restoreWindow
  split
  · exact .refl wm
  split
  · refine untouched_front ?_ id
    split <;> exact ⟨rfl, rfl⟩
  · exact .refl wm

theorem maximizeWindow_untouched (wm : Manager) (id : Int) (desktop : Rect) :
    Untouched wm (maximizeWindow wm id desktop) := by
  unfold maximizeWindow
  split
  · exact .refl wm
  split
  · exact .refl wm
  split
  · refine untouched_front ?_ id
    split <;> exact ⟨rfl, rfl⟩
  · exact .refl wm

theorem toggleMaximizeWindow_untouched (wm : Manager) (id : Int) (desktop : Rect) :
    Untouched wm (toggleMaximizeWindow wm id desktop) := by
  unfold toggleMaximizeWindow
  split
  · exact .refl wm
  split
  · exact restoreWindow_untouched wm id
  · exact maximizeWindow_untouched wm id desktop

theorem allocControl_spec {type : ControlType} {windowId id : Int} {bounds : Rect}
    {set : Control → Control} (h : allocControl wm type windowId bounds set = some (wm', id)) :
    ∃ (slot : Nat) (c : Control), slot ≤ wm.controls.length ∧ c.type = type ∧
      wm'.controls = putSlot wm.controls slot (set c) ∧
      wm'.pressedControlId = wm.pressedControlId := by
  unfold allocControl at h
  simp only [Option.bind_eq_bind, Option.bind_eq_some_iff] at h
  obtain ⟨i, _, slot, hfree, h⟩ := h
  cases h
  exact ⟨slot, _, (freeSlot_some hfree).1, rfl, rfl, rfl⟩

end Ui
end MiniDos
