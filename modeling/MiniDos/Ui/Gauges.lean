import MiniDos.Ui.Clicks

/-!
# MiniDos.Ui.Gauges

The values of scrollbars over whole runs of the window manager (`ui_wm.h`): each stays between its
bounds.

* `StackCall.run_ranged`: one call.
-/

namespace MiniDos
namespace Ui

open Video Plane Transition

variable {wm wm' : Manager} {x y : Int} {l l' : List Control}
variable {i : Nat} {c : Control} {f : Control → Control}

/-- A scrollbar has a value between its bounds. -/
def Control.Ranged (c : Control) : Prop :=
  c.type = .scrollbar → c.minValue ≤ c.value ∧ c.value ≤ c.maxValue

def Ranged (l : List Control) : Prop := ∀ c ∈ l, c.Ranged

/-- What decides about that. -/
def Control.gauge (c : Control) : ControlType × Int × Int × Int :=
  (c.type, c.minValue, c.maxValue, c.value)

theorem ranged_of_gauge {c d : Control} (h : d.gauge = c.gauge) (hc : c.Ranged) : d.Ranged := by
  unfold Control.gauge at h
  simp only [Prod.mk.injEq] at h
  intro htype
  rw [h.2.1, h.2.2.1, h.2.2.2]
  exact hc (by rw [← h.1]; exact htype)

/-- Nothing about the gauges is different. -/
def SameGauges (l l' : List Control) : Prop := l'.map Control.gauge = l.map Control.gauge

theorem SameGauges.refl (l : List Control) : SameGauges l l := rfl

theorem SameGauges.trans {l'' : List Control} (h : SameGauges l l') (h' : SameGauges l' l'') :
    SameGauges l l'' := Eq.trans h' h

theorem SameGauges.ranged (h : SameGauges l l') (hl : Ranged l) : Ranged l' := by
  intro c hc
  have hgauge : c.gauge ∈ l.map Control.gauge := by
    rw [← h]
    exact List.mem_map_of_mem hc
  obtain ⟨d, hd, hsame⟩ := List.mem_map.mp hgauge
  exact ranged_of_gauge hsame.symm (hl d hd)

theorem Untouched.ranged (h : Untouched wm wm') (hl : Ranged wm.controls) : Ranged wm'.controls := by
  rw [h.controls]
  exact hl

theorem sameGauges_map (h : ∀ c, (f c).gauge = c.gauge) (l : List Control) :
    SameGauges l (l.map f) := by
  unfold SameGauges
  rw [List.map_map]
  exact List.map_congr_left (fun c _ => h c)

theorem sameGauges_modify (h : ∀ c, (f c).gauge = c.gauge) (l : List Control)
    (i : Nat) : SameGauges l (l.modify i f) := map_modify h l i

theorem ranged_modify (hl : Ranged l)
    (h : ∀ c, l[i]? = some c → c.Ranged → (f c).Ranged) : Ranged (l.modify i f) := by
  intro c hc
  obtain ⟨j, hj⟩ := List.mem_iff_getElem?.mp hc
  rw [List.getElem?_modify] at hj
  obtain ⟨e, he, rfl⟩ := Option.map_eq_some_iff.mp hj
  split
  · rename_i hij
    subst hij
    exact h e he (hl e (List.mem_of_getElem? he))
  · exact hl e (List.mem_of_getElem? he)

/-! ## The scrollbar -/

theorem clamp_range {low high v : Int} (h : low ≤ high) :
    low ≤ clamp low high v ∧ clamp low high v ≤ high := by
  unfold clamp
  dsimp only
  split <;> split <;> omega

theorem clamp_self {low high v : Int} (h : low ≤ v ∧ v ≤ high) : clamp low high v = v := by
  unfold clamp
  dsimp only
  rw [if_neg (by omega), if_neg (by omega)]

theorem ranged_clampValue (h : c.type = .scrollbar → c.minValue ≤ c.maxValue) :
    (clampValue c).Ranged := fun htype => clamp_range (h htype)

theorem pressScrollbar_ranged {c d : Control} {r : Rect} (hc : c.Ranged)
    (h : pressScrollbar c r x y = some d) : d.Ranged := by
  unfold pressScrollbar at h
  simp only [Option.bind_eq_bind, Option.bind_eq_some_iff] at h
  obtain ⟨thumb, _, h⟩ := h
  have hbounds : c.type = .scrollbar → c.minValue ≤ c.maxValue := fun htype => by
    have := hc htype
    omega
  cases h
  refine ranged_clampValue ?_
  repeat' split
  all_goals exact hbounds

theorem pressControl_ranged {c d : Control} {r : Rect} (hc : c.Ranged)
    (h : pressControl c r x y = some d) : d.Ranged := by
  unfold pressControl at h
  split at h
  case h_2 => exact pressScrollbar_ranged hc h
  case h_3 =>
    cases h
    refine ranged_of_gauge ?_ hc
    unfold pressDropdown
    dsimp only
    split
    · rfl
    · split <;> rfl
  all_goals
    cases h
    exact hc

theorem scrollbarKey_ranged (hc : c.Ranged) (key : UInt8) :
    (scrollbarKey c key).1.Ranged := by
  unfold scrollbarKey
  split
  · rename_i hup
    intro htype
    have := hc htype
    dsimp only
    omega
  split
  · rename_i hdown
    intro htype
    have := hc htype
    dsimp only
    omega
  · exact hc

/-! ## The mouse -/

theorem closeOpenPopups_gauges (wm : Manager) (id : Int) :
    SameGauges wm.controls (closeOpenPopups wm id).controls := by
  refine sameGauges_map (fun c => ?_) wm.controls
  split <;> rfl

theorem releaseControls_gauges (wm : Manager) : SameGauges wm.controls (releaseControls wm).controls :=
  sameGauges_map (by intro c; rfl) wm.controls

theorem mouseOutside_gauges (wm : Manager) (leftPressed leftReleased : Bool) :
    SameGauges wm.controls (mouseOutside wm leftPressed leftReleased).controls := by
  have hclosed : SameGauges wm.controls (if leftPressed then closeOpenPopups wm 0 else wm).controls := by
    split
    · exact closeOpenPopups_gauges wm 0
    · exact .refl _
  unfold mouseOutside
  dsimp only
  generalize (if leftPressed then closeOpenPopups wm 0 else wm) = v at hclosed
  split
  · exact hclosed.trans (releaseControls_gauges v)
  · split <;> exact hclosed

theorem mouseOnWindow_gauges (wm : Manager) (id : Int) (leftPressed leftReleased : Bool) :
    SameGauges wm.controls (mouseOnWindow wm id leftPressed leftReleased).controls := by
  have hclosed : SameGauges wm.controls (if leftPressed then
      releaseControls (closeOpenPopups (setPressed wm id 0 false) 0) else wm).controls := by
    split
    · exact (closeOpenPopups_gauges (setPressed wm id 0 false) 0).trans (releaseControls_gauges _)
    · exact .refl _
  unfold mouseOnWindow
  dsimp only
  split
  · exact hclosed.trans (releaseControls_gauges _)
  · exact hclosed

theorem mousePress_ranged {id : Int} (hl : Ranged wm.controls)
    (h : mousePress wm id i c x y = some wm') : Ranged wm'.controls := by
  unfold mousePress at h
  simp only [Option.bind_eq_bind, Option.bind_eq_some_iff] at h
  obtain ⟨d, hd, e, he, h⟩ := h
  cases h
  have hfocus : SameGauges wm.controls (setFocusControl (setPressed wm id c.id false) c.id).controls :=
    sameGauges_map (by intro c; rfl) wm.controls
  have hbefore := (hfocus.trans (closeOpenPopups_gauges _ c.id)).trans (releaseControls_gauges _)
  have hl := hbefore.ranged hl
  exact ranged_modify hl (fun _ _ _ => pressControl_ranged (hl d (List.mem_of_getElem? hd)) he)

theorem releaseControl_ranged {id : Int} {r : Rect}
    (hc : wm.controls[i]? = some c) (hl : Ranged wm.controls) :
    Ranged (releaseControl wm id i c r x y).1.controls := by
  unfold releaseControl
  split
  case h_2 => exact (sameGauges_modify (by intro c; rfl) wm.controls i).ranged hl
  case h_3 =>
    have hgroup : SameGauges wm.controls (clearGroup wm c).controls := by
      refine sameGauges_map (fun d => ?_) wm.controls
      split <;> rfl
    exact (hgroup.trans (sameGauges_modify (by intro c; rfl) _ i)).ranged hl
  case h_4 =>
    refine ranged_modify hl (fun _ _ _ => ranged_of_gauge ?_ (hl c (List.mem_of_getElem? hc)))
    unfold releaseDropdown
    dsimp only
    repeat' split
    all_goals rfl
  case h_5 =>
    dsimp only
    split
    · exact (sameGauges_modify (by intro c; rfl) wm.controls i).ranged hl
    · exact hl
  all_goals exact hl

theorem mouseOnControl_ranged {id : Int} {leftPressed leftReleased : Bool}
    {done : Manager × Bool} (hl : Ranged wm.controls)
    (h : mouseOnControl wm id i x y leftPressed leftReleased = some done) : Ranged done.1.controls := by
  unfold mouseOnControl at h
  simp only [Option.bind_eq_bind, Option.bind_eq_some_iff] at h
  obtain ⟨c, _, v, hpress, e, he, h⟩ := h
  have hv : Ranged v.controls := by
    split at hpress
    · exact mousePress_ranged hl hpress
    · cases hpress
      exact hl
  split at h
  · cases h
    exact (sameGauges_modify (by intro c; rfl) _ i).ranged (releaseControl_ranged he hv)
  · cases h
    exact hv

theorem OnTop.ranged {top : Int} {leftPressed leftReleased : Bool}
    (h : OnTop wm top x y leftPressed leftReleased wm') (hl : Ranged wm.controls) :
    Ranged wm'.controls := by
  obtain rfl | rfl | ⟨i, hit, hdone⟩ := h
  · have hclose : SameGauges wm.controls
        (mouseOnClose wm top leftPressed leftReleased).1.controls := by
      cases leftPressed <;> cases leftReleased <;> rfl
    exact hclose.ranged hl
  · exact (mouseOnWindow_gauges wm top leftPressed leftReleased).ranged hl
  · exact mouseOnControl_ranged hl hdone

theorem dispatchMouse_ranged {leftDown leftPressed leftReleased : Bool} {done : Manager × MouseResult}
    (hl : Ranged wm.controls) (h : dispatchMouse wm x y leftDown leftPressed leftReleased = some done) :
    Ranged done.1.controls := by
  obtain ⟨_, hdone⟩ | ⟨_, hdone⟩ | ⟨i, c, value, _, hdone⟩ | ⟨_, hon⟩ := dispatchMouse_cases h
  · rw [hdone]
    exact (mouseOutside_gauges wm leftPressed leftReleased).ranged hl
  · rw [hdone]
    exact hl
  · rw [hdone]
    refine ranged_modify hl (fun c _ hc => ranged_clampValue (fun htype => ?_))
    have := hc htype
    dsimp only
    omega
  · refine hon.ranged ?_
    split
    · rw [bringToFront_controls]
      exact hl
    · exact hl

/-! ## Keys and new controls -/

theorem keyOnControl_ranged {d : Desk} (hc : d.wm.controls[i]? = some c)
    (hl : Ranged d.wm.controls) (key : UInt8) : Ranged (keyOnControl d i c key).1.wm.controls := by
  have hown := hl c (List.mem_of_getElem? hc)
  have hset : ∀ e : Control, e.Ranged → Ranged (d.wm.controls.modify i (fun _ => e)) :=
    fun e he => ranged_modify hl (fun _ _ _ => he)
  unfold keyOnControl
  dsimp only
  split
  case h_1 =>
    split
    · exact hset _ hown
    · exact hl
  case h_2 =>
    split
    · have hgroup : SameGauges d.wm.controls (clearGroup d.wm c).controls := by
        refine sameGauges_map (fun e => ?_) d.wm.controls
        split <;> rfl
      exact (hgroup.trans (sameGauges_modify (by intro c; rfl) _ i)).ranged hl
    · exact hl
  case h_3 =>
    refine hset _ (ranged_of_gauge ?_ hown)
    unfold dropdownKey
    repeat' split
    all_goals rfl
  case h_4 =>
    refine hset _ (ranged_of_gauge ?_ hown)
    unfold menuKey
    repeat' split
    all_goals rfl
  case h_5 => exact hset _ (scrollbarKey_ranged hown key)
  case h_6 =>
    split
    · exact hl
    split
    · exact hl
    · refine hset _ (ranged_of_gauge ?_ hown)
      unfold textKey
      dsimp only
      repeat' split
      all_goals rfl
  case h_7 => exact hl

theorem dispatchKey_ranged {d : Desk} (hl : Ranged d.wm.controls) (key : UInt8) :
    Ranged (dispatchKey d key).1.wm.controls := by
  unfold dispatchKey
  split
  · exact hl
  split
  · exact hl
  · rename_i hc
    split
    · exact keyOnControl_ranged hc hl key
    · exact hl

theorem allocControl_ranged {type : ControlType} {windowId id : Int} {bounds : Rect}
    {set : Control → Control} (hl : Ranged wm.controls) (hset : ∀ c, c.type = type → (set c).Ranged)
    (h : allocControl wm type windowId bounds set = some (wm', id)) : Ranged wm'.controls := by
  obtain ⟨slot, c, hslot, htype, hcontrols, _⟩ := allocControl_spec h
  intro e he
  rw [hcontrols] at he
  rcases mem_putSlot hslot he with rfl | hold
  · exact hset c htype
  · exact hl e hold

theorem addControl_ranged (hl : Ranged wm.controls) (type : ControlType) (windowId : Int)
    (bounds : Rect) {set : Control → Control} (hset : ∀ c, c.type = type → (set c).Ranged) :
    Ranged (addControl wm type windowId bounds set).1.controls := by
  unfold addControl
  cases halloc : allocControl wm type windowId bounds set with
  | none => exact hl
  | some added => exact allocControl_ranged hl hset halloc

theorem addScrollbar_ranged (hl : Ranged wm.controls) (windowId : Int) (bounds : Rect)
    (minValue maxValue pageSize value : Int) :
    Ranged (addScrollbar wm windowId bounds minValue maxValue pageSize value).1.controls := by
  refine addControl_ranged hl .scrollbar windowId bounds (fun c _ _ => clamp_range ?_)
  dsimp only
  split <;> omega

theorem addTextinput_ranged {d : Desk} (hl : Ranged d.wm.controls) (windowId : Int) (bounds : Rect)
    (textBuffer : Option Nat) (textBufferLen : Int) :
    Ranged (addTextinput d windowId bounds textBuffer textBufferLen).1.wm.controls := by
  unfold addTextinput
  split
  · exact hl
  split
  · exact hl
  dsimp only
  split
  · exact hl
  · rename_i halloc
    refine allocControl_ranged hl (fun c htype hscroll => ?_) halloc
    rw [show c.type = .scrollbar from hscroll] at htype
    cases htype

theorem closeWindow_gauges (wm : Manager) (id : Int) :
    SameGauges wm.controls (closeWindow wm id).controls := by
  have hcleared : SameGauges wm.controls (clearControls (clearWindow wm id) id).controls := by
    have hwindow : (clearWindow wm id).controls = wm.controls := by
      unfold clearWindow
      split <;> rfl
    rw [← hwindow]
    refine sameGauges_map (fun c => ?_) _
    split <;> rfl
  unfold closeWindow
  dsimp only
  generalize clearControls (clearWindow wm id) id = v at hcleared
  split <;> split <;> exact hcleared

/-! ## Runs -/

theorem WmCall.run_ranged {d d' : Desk} {c : WmCall} (hl : Ranged d.wm.controls)
    (hrun : c.run d = some d') : Ranged d'.wm.controls := by
  have hplain : ∀ {type : ControlType} {set : Control → Control}, type ≠ .scrollbar →
      (∀ c, (set c).type = c.type) → ∀ c, c.type = type → (set c).Ranged :=
    fun hne hset c htype hscroll => absurd ((htype.symm.trans (hset c).symm).trans hscroll) hne
  cases c with
  | createWindow bounds hasClose hasMinimize hasMaximize =>
    cases hrun
    exact (createWindowEx_untouched d.wm bounds hasClose hasMinimize hasMaximize).ranged hl
  | closeWindow id =>
    cases hrun
    exact (closeWindow_gauges d.wm id).ranged hl
  | minimize id =>
    cases hrun
    exact (minimizeWindow_untouched d.wm id).ranged hl
  | unminimize id =>
    cases hrun
    exact (unminimizeWindow_untouched d.wm id).ranged hl
  | restore id =>
    cases hrun
    exact (restoreWindow_untouched d.wm id).ranged hl
  | maximize id desktop =>
    cases hrun
    exact (maximizeWindow_untouched d.wm id desktop).ranged hl
  | toggleMaximize id desktop =>
    cases hrun
    exact (toggleMaximizeWindow_untouched d.wm id desktop).ranged hl
  | addLabel id bounds | addButton id bounds =>
    cases hrun
    exact addControl_ranged hl _ id bounds (hplain (by decide) (by intro c; rfl))
  | addTextinput id bounds textBuffer textBufferLen =>
    cases hrun
    exact addTextinput_ranged hl id bounds textBuffer textBufferLen
  | addListview id bounds lv =>
    cases hrun
    cases lv with
    | false => exact hl
    | true => exact addControl_ranged hl _ id bounds (hplain (by decide) (by intro c; rfl))
  | addCheckbox id bounds checked | addRadio id bounds groupId checked =>
    cases hrun
    exact addControl_ranged hl _ id bounds (hplain (by decide) (by intro c; rfl))
  | addDropdown id bounds itemCount selected | addMenu id bounds itemCount selected =>
    cases hrun
    exact addControl_ranged hl _ id bounds (hplain (by decide) (by intro c; rfl))
  | addScrollbar id bounds minValue maxValue pageSize value =>
    cases hrun
    exact addScrollbar_ranged hl id bounds minValue maxValue pageSize value
  | mouse x y leftDown leftPressed leftReleased =>
    obtain ⟨done, hdone, hrun⟩ := Option.map_eq_some_iff.mp hrun
    cases hrun
    exact dispatchMouse_ranged hl hdone
  | key k =>
    cases hrun
    exact dispatchKey_ranged hl k

theorem StackCall.run_ranged {d d' : Desk} {call : StackCall} (hl : Ranged d.wm.controls)
    (hrun : call.run d = some d') : Ranged d'.wm.controls := by
  cases call with
  | call c => exact WmCall.run_ranged hl hrun
  | bringToFront id =>
    cases hrun
    exact (untouched_front (.refl d.wm) id).ranged hl
  | setActiveWindow id =>
    cases hrun
    exact hl

end Ui
end MiniDos
