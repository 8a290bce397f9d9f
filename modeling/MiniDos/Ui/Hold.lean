import MiniDos.Ui.Scroll

/-!
# MiniDos.Ui.Hold

The mouse that holds a scrollbar, without moving (`ui_wm_dispatch_mouse` in `ui_wm.h`): every call of
it reckons the value anew from where the pointer is.

* `dispatchMouse_holds`: one such call. `steady_iff`: whether they change the value.
* `press_holds`: behind a press on a scrollbar the mouse holds it.
* `scrollbar_exact`: all runs. `arrow_runs_away`: an arrow that is held.
-/

namespace MiniDos
namespace Ui

open Video Plane Transition Ratio Selection

variable {wm wm' : Manager} {x y : Int} {i : Nat} {c : Control} {r thumb : Rect}

/-! ## A held call -/

/-- The mouse is on a window, and the pressed control is the scrollbar in entry `i`. -/
structure Holds (wm : Manager) (x y : Int) (i : Nat) (c : Control) : Prop where
  window : topWindowAt wm x y ≠ 0 ∧ ∃ e, shownWindow wm (topWindowAt wm x y) = some e
  drag : dragging wm true = some (i, c)

/-- `dragging->value` gets a new value. -/
def setValue (v : Int) (c : Control) : Control := clampValue { c with value := v }

theorem dispatchMouse_holds (h : Holds wm x y i c) (leftPressed leftReleased : Bool) :
    dispatchMouse wm x y true leftPressed leftReleased =
      (scrollbarValueFromThumb c (controlAbsBounds wm c) y).map (fun value =>
        (wm.modifyControl i (setValue value), ⟨c.windowId, c.id, false, true⟩)) := by
  obtain ⟨⟨htop, e, hshown⟩, hdrag⟩ := h
  unfold dispatchMouse
  dsimp only
  rw [if_neg htop, hshown, hdrag]
  rfl

theorem modify_self {α : Type} {l : List α} {i : Nat} {a : α} {f : α → α} (ha : l[i]? = some a)
    (hf : f a = a) : l.modify i f = l := by
  refine List.ext_getElem? (fun j => ?_)
  rw [List.getElem?_modify]
  by_cases hj : i = j
  · subst hj
    simp [ha, hf]
  · simp [hj]

theorem scrollbarValueFromThumb_again {v : Int} (h : scrollbarValueFromThumb c r y = some v) (w : Int) :
    scrollbarValueFromThumb { c with value := w } r y = some v := by
  cases hthumb : scrollbarThumbRect r c.minValue c.maxValue c.pageSize c.value with
  | none =>
    unfold scrollbarValueFromThumb at h
    rw [hthumb] at h
    cases h
  | some thumb =>
    have hthumb : c.Thumb r thumb := hthumb
    obtain ⟨thumb', hthumb', hh⟩ := scrollbarThumbRect_h hthumb w
    have hthumb' : ({ c with value := w } : Control).Thumb r thumb' := hthumb'
    have hu : usableH r thumb' = usableH r thumb := by
      unfold usableH
      rw [hh]
    rw [scrollbarValueFromThumb_eq hthumb', hu]
    rw [scrollbarValueFromThumb_eq hthumb] at h
    exact h

def heldCall (x y : Int) : StackCall := .call (.mouse x y true false false)

/-- Held calls keep the value of entry `i`. -/
def Steady (d : Desk) (x y : Int) (i : Nat) : Prop :=
  ∀ (n : Nat) (d' : Desk), run StackCall.run d (List.replicate n (heldCall x y)) = some d' →
    (d'.wm.controls[i]?).map Control.value = (d.wm.controls[i]?).map Control.value

theorem run_heldCalls {d d' : Desk} (h : (heldCall x y).run d = some d) (n : Nat)
    (hrun : run StackCall.run d (List.replicate n (heldCall x y)) = some d') : d' = d := by
  induction n with
  | zero => exact (Option.some.inj hrun).symm
  | succ n ih =>
    rw [List.replicate_succ] at hrun
    obtain ⟨d₁, hd₁, hrun⟩ := run_cons.mp hrun
    obtain rfl := Option.some.inj (h.symm.trans hd₁)
    exact ih hrun

theorem steady_of_fixed {d : Desk} (h : (heldCall x y).run d = some d) (i : Nat) : Steady d x y i := by
  intro n d' hrun
  rw [run_heldCalls h n hrun]

def Rests (c : Control) (r thumb : Rect) (y : Int) : Prop :=
  (c.Slides r thumb →
    (c.value - c.minValue) * usableH r thumb ≤ travel c r thumb y * c.range ∧
      travel c r thumb y * c.range < (c.value - c.minValue + 1) * usableH r thumb) ∧
  (¬ c.Slides r thumb → c.value = c.minValue)

theorem rests_iff (h : c.Thumb r thumb) (hs : Sized c r thumb) :
    scrollbarValueFromThumb c r y = some c.value ↔ Rests c r thumb y := by
  unfold Rests
  by_cases hslides : c.Slides r thumb
  · have hpos : 0 ≤ travel c r thumb y * c.range :=
      Int.mul_nonneg (travel_range hslides y).1 (Int.le_of_lt hslides.1)
    rw [(scrollbarValueFromThumb_spec h hs hslides y).1, Option.some_inj,
      ← tdiv_eq_iff (k := c.value - c.minValue) hpos hslides.2]
    constructor
    · exact fun hvalue => ⟨fun _ => by omega, fun hno => absurd hslides hno⟩
    · intro hvalue
      have := hvalue.1 hslides
      omega
  · rw [scrollbarValueFromThumb_stuck h hslides, Option.some_inj]
    exact ⟨fun hmin => ⟨fun hyes => absurd hyes hslides, fun _ => hmin.symm⟩,
      fun hvalue => (hvalue.2 hslides).symm⟩

theorem scrollbarValueFromThumb_range (h : c.Thumb r thumb) (hs : Sized c r thumb)
    (hc : c.minValue ≤ c.value ∧ c.value ≤ c.maxValue) (y : Int) :
    ∃ v, scrollbarValueFromThumb c r y = some v ∧ c.minValue ≤ v ∧ v ≤ c.maxValue := by
  by_cases hslides : c.Slides r thumb
  · obtain ⟨hvalue, hlow, hhigh⟩ := scrollbarValueFromThumb_spec h hs hslides y
    have heq := hs.range_eq
    exact ⟨_, hvalue, by omega, by omega⟩
  · exact ⟨_, scrollbarValueFromThumb_stuck h hslides y, by omega, by omega⟩

theorem steady_iff {d : Desk} (h : Holds d.wm x y i c)
    (hthumb : c.Thumb (controlAbsBounds d.wm c) thumb) (hs : Sized c (controlAbsBounds d.wm c) thumb)
    (hc : c.minValue ≤ c.value ∧ c.value ≤ c.maxValue) :
    Steady d x y i ↔ Rests c (controlAbsBounds d.wm c) thumb y := by
  obtain ⟨_, _, _, _, _, hentry⟩ := dragging_some h.drag
  rw [← rests_iff hthumb hs]
  obtain ⟨v, hv, hrange⟩ := scrollbarValueFromThumb_range hthumb hs hc y
  have hheld : (heldCall x y).run d = some { d with
      wm := d.wm.modifyControl i (setValue v) } := by
    show (dispatchMouse d.wm x y true false false).map _ = _
    rw [dispatchMouse_holds h, hv]
    rfl
  rw [hv, Option.some_inj]
  constructor
  · intro hsteady
    have hone := hsteady 1 _ (run_cons.mpr ⟨_, hheld, rfl⟩)
    unfold Manager.modifyControl at hone
    rw [List.getElem?_modify, hentry] at hone
    simp only [if_true, Option.map_eq_map, Option.map_some, Option.some_inj] at hone
    rw [← hone]
    exact (clamp_self hrange).symm
  · rintro rfl
    have hsame : d.wm.modifyControl i (setValue c.value) = d.wm := by
      unfold Manager.modifyControl
      rw [modify_self hentry]
      unfold setValue clampValue
      rw [clamp_self hc]
    rw [hsame] at hheld
    exact steady_of_fixed hheld i

/-! ## A press -/

theorem topWindowAt_windows (h : wm'.windows = wm.windows) (x y : Int) :
    topWindowAt wm' x y = topWindowAt wm x y := by
  unfold topWindowAt topWindow
  rw [h]

theorem topWindowAt_front (hshows : AllShown wm) {id : Int} {target : Nat}
    (hfind : findWindow wm id = some target) (htop : topWindowAt wm x y ≠ 0) :
    topWindowAt (bringToFront wm id) x y ≠ 0 := by
  obtain ⟨w, hw, hunder, _⟩ := under_topWindowAt htop
  obtain ⟨k, hk⟩ := List.mem_iff_getElem?.mp hw
  have hframe : ((bringToFront wm id).windows.map WmWindow.frame)[k]? = some w.frame := by
    rw [sameFrames_bringToFront wm id, List.getElem?_map, hk]
    rfl
  rw [List.getElem?_map] at hframe
  obtain ⟨v, hv, hsame⟩ := Option.map_eq_some_iff.mp hframe
  have hfront : Under x y v := by
    have hframed : Under x y v.frame := by
      rw [hsame]
      exact hunder
    exact hframed
  have hroom := hshows.room
  unfold maxWindows at hroom
  have hrange := (raises (by omega) hfind).range k v.card (getElem?_card hv)
    ⟨hfront.1, hfront.2.1.1⟩
  exact topWindowAt_ne_zero (List.mem_of_getElem? hv) hfront hrange.1

/-- What the rectangles of a scrollbar depend on, beside its value. -/
def Control.place (c : Control) : Int × Rect × ControlType × Int × Int × Int :=
  (c.windowId, c.bounds, c.type, c.minValue, c.maxValue, c.pageSize)

theorem controlAbsBounds_place {c e : Control} (hwindows : wm'.windows = wm.windows)
    (h : e.place = c.place) : controlAbsBounds wm' e = controlAbsBounds wm c := by
  unfold Control.place at h
  simp only [Prod.mk.injEq] at h
  unfold controlAbsBounds controlWindow findWindow
  rw [hwindows, h.1, h.2.1]

theorem pressScrollbar_place {e : Control} (h : pressScrollbar c r x y = some e) :
    e.place = c.place ∧ e.id = c.id ∧
      ∃ thumb, scrollbarThumbRect r c.minValue c.maxValue c.pageSize c.value = some thumb := by
  unfold pressScrollbar at h
  simp only [Option.bind_eq_bind, Option.bind_eq_some_iff] at h
  obtain ⟨thumb, hthumb, h⟩ := h
  cases h
  refine ⟨?_, ?_, thumb, hthumb⟩
  all_goals
    unfold clampValue
    repeat' split
    all_goals rfl

theorem findControl_roster (h : wm'.roster.controls = wm.roster.controls) (id : Int) :
    findControl wm' id = findControl wm id := by
  have hids : ∀ v : Manager, v.controls.findIdx? (fun c => c.id = id) =
      v.roster.controls.findIdx? (fun c => c.1 = id) := fun v => by
    unfold Manager.roster
    rw [List.findIdx?_map]
    rfl
  unfold findControl
  rw [hids, hids, h]

/-- The scrollbar that the mouse goes down on is pressed. -/
theorem mousePress_scrollbar {id : Int} (hthere : ∃ w ∈ wm.roster.windows, w.1 = id)
    (hfind : findControl wm c.id = some i) (hc : wm.controls[i]? = some c) (htype : c.type = .scrollbar)
    (h : mousePress wm id i c x y = some wm') :
    wm'.windows = wm.windows ∧ ∃ e, dragging wm' true = some (i, e) ∧
      ∃ thumb, e.Thumb (controlAbsBounds wm' e) thumb := by
  have htables := (mousePress_moved hthere hc h).tables
  unfold mousePress at h
  simp only [Option.bind_eq_bind, Option.bind_eq_some_iff] at h
  obtain ⟨d, hd, e, he, h⟩ := h
  have h := Option.some.inj h
  have hkeys : (releaseControls (closeOpenPopups (setFocusControl (setPressed wm id c.id false) c.id)
      c.id)).controls.map (fun c => (c.place, c.id)) = wm.controls.map (fun c => (c.place, c.id)) := by
    unfold releaseControls closeOpenPopups setFocusControl setPressed
    dsimp only
    rw [List.map_map, List.map_map, List.map_map]
    refine List.map_congr_left (fun e _ => ?_)
    dsimp only [Function.comp_apply]
    split <;> rfl
  have hkey := congrArg (fun l => l[i]?) hkeys
  simp only [List.getElem?_map, hc, hd, Option.map_some, Option.some_inj, Prod.mk.injEq] at hkey
  unfold pressControl at he
  rw [show d.type = .scrollbar from (congrArg (fun p => p.2.2.1) hkey.1).trans htype] at he
  obtain ⟨hplace, heid, thumb, hthumb⟩ := pressScrollbar_place he
  obtain ⟨thumb', hthumb', _⟩ := scrollbarThumbRect_h hthumb e.value
  have hwindows : wm'.windows = wm.windows := by
    rw [← h]
    rfl
  have hpressed : wm'.pressedControlId = c.id := by
    rw [← h]
    rfl
  have hentry : wm'.controls[i]? = some e := by
    rw [← h]
    unfold Manager.modifyControl
    rw [List.getElem?_modify, hd]
    simp
  have hplace' := hplace.trans hkey.1
  refine ⟨hwindows, e, ?_, thumb', ?_⟩
  · have hne := (findControl_some hfind).1
    have htype' : e.type = .scrollbar := (congrArg (fun p => p.2.2.1) hplace').trans htype
    unfold dragging
    rw [hpressed, findControl_roster htables.2, hfind]
    simp [hne, hentry, htype']
  · unfold Control.Thumb
    rw [controlAbsBounds_place hwindows hplace']
    unfold Control.place at hplace
    simp only [Prod.mk.injEq] at hplace
    rw [hplace.2.2.2.1, hplace.2.2.2.2.1, hplace.2.2.2.2.2]
    exact hthumb'

/-- A call that drags nothing, with the mouse on control `i`. -/
theorem dispatchMouse_control {leftDown : Bool} (leftPressed leftReleased : Bool)
    (hdrag : dragged wm x y leftDown = none) (hfind : findControl wm (hitControl wm x y) = some i) :
    (topWindowAt wm x y ≠ 0 ∧ ∃ e, shownWindow wm (topWindowAt wm x y) = some e) ∧
      dispatchMouse wm x y leftDown leftPressed leftReleased =
        (mouseOnControl (if leftPressed then bringToFront wm (topWindowAt wm x y) else wm)
          (topWindowAt wm x y) i x y leftPressed leftReleased).map (fun done =>
            (done.1, ⟨topWindowAt wm x y, hitControl wm x y, false, done.2⟩)) := by
  have hne := (findControl_some hfind).1
  cases hshown : shownWindow wm (topWindowAt wm x y) with
  | none =>
    unfold hitControl at hne
    rw [hshown] at hne
    exact absurd rfl hne
  | some e =>
    obtain ⟨k, w⟩ := e
    have htop := (shownWindow_some hshown).2.2.2
    unfold dragged at hdrag
    rw [if_neg htop] at hdrag
    have hhit : hitControl wm x y = if windowHitClose w.window x y then 0
        else hitTestControl wm (topWindowAt wm x y) x y := by
      unfold hitControl
      rw [hshown]
    have hclose : ¬ windowHitClose w.window x y = true := fun hclose => by
      rw [if_pos hclose] at hhit
      exact hne hhit
    rw [if_neg hclose] at hhit
    refine ⟨⟨htop, _, rfl⟩, ?_⟩
    unfold dispatchMouse mouseOnTop
    dsimp only
    rw [if_neg htop, hshown, hdrag]
    dsimp only
    have htest : hitTestControl (if leftPressed then bringToFront wm (topWindowAt wm x y) else wm)
        (topWindowAt wm x y) x y = hitControl wm x y := by
      rw [hhit]
      split
      · exact hitTestControl_front wm _ _ x y
      · rfl
    have hfound : findControl (if leftPressed then bringToFront wm (topWindowAt wm x y) else wm)
        (hitControl wm x y) = some i := by
      rw [← hfind]
      split
      · unfold findControl
        rw [bringToFront_controls]
      · rfl
    rw [if_neg hclose, htest, hfound]

/-- Behind a press on a scrollbar, with nothing dragged, the mouse holds it. -/
theorem press_holds {done : Manager × MouseResult} (hshows : AllShown wm)
    (hdrag : dragged wm x y true = none) (hfind : findControl wm (hitControl wm x y) = some i)
    (hc : wm.controls[i]? = some c) (htype : c.type = .scrollbar)
    (h : dispatchMouse wm x y true true false = some done) :
    ∃ e, Holds done.1 x y i e ∧ ∃ thumb, e.Thumb (controlAbsBounds done.1 e) thumb := by
  obtain ⟨⟨htop, ⟨k, w⟩, hshown⟩, hdispatch⟩ := dispatchMouse_control true false hdrag hfind
  obtain ⟨hfindw, _, _, _⟩ := shownWindow_some hshown
  rw [hdispatch] at h
  obtain ⟨done', hdone, rfl⟩ := Option.map_eq_some_iff.mp h
  unfold mouseOnControl at hdone
  simp only [if_true, Option.bind_eq_bind, Option.bind_eq_some_iff, bringToFront_controls] at hdone
  obtain ⟨c', hc', v, hpress, e', _, hdone⟩ := hdone
  obtain rfl := Option.some.inj (hc.symm.trans hc')
  cases hdone
  have hid : c.id = hitControl wm x y := by
    obtain ⟨_, e, he, hid⟩ := findControl_some hfind
    obtain rfl := Option.some.inj (hc.symm.trans he)
    exact hid
  have hthere : ∃ u ∈ (bringToFront wm (topWindowAt wm x y)).roster.windows, u.1 = topWindowAt wm x y := by
    have hmem := (@topWindow_mem wm (fun w => rectContains w.window.bounds x y)).resolve_left htop
    rcases @roster_bringToFront wm (topWindowAt wm x y) with he | he <;>
      exact ⟨_, by rw [he]; exact hmem, rfl⟩
  obtain ⟨hwindows, e, hdragging, hthumb⟩ := mousePress_scrollbar hthere
    (by unfold findControl at hfind ⊢; rw [bringToFront_controls, hid]; exact hfind)
    (by rw [bringToFront_controls]; exact hc) htype hpress
  -- The window that came to the front is still under the mouse.
  have hfront := topWindowAt_front hshows hfindw htop
  have htop' := topWindowAt_windows hwindows x y
  have hshows' : AllShown v := by
    have hframes := (sameFrames_bringToFront wm (topWindowAt wm x y)).shows hshows
    exact ⟨by rw [hwindows]; exact hframes.room, by rw [hwindows]; exact hframes.visible⟩
  have hne : topWindowAt v x y ≠ 0 := by rwa [htop']
  exact ⟨e, ⟨⟨hne, shownWindow_top hshows' hne⟩, hdragging⟩, hthumb⟩

theorem Holds.setValue (h : Holds wm x y i c) (v : Int) (hshows : AllShown wm) :
    Holds (wm.modifyControl i (Ui.setValue v)) x y i (Ui.setValue v c) := by
  obtain ⟨_, hid, hne, htype, hfind, hentry⟩ := dragging_some h.drag
  refine ⟨⟨h.window.1, shownWindow_top ⟨hshows.room, hshows.visible⟩ h.window.1⟩, ?_⟩
  have hfind' : findControl (wm.modifyControl i (Ui.setValue v)) wm.pressedControlId = some i := by
    rw [findControl_roster (congrArg Roster.controls (roster_modifyControl (by intro c; rfl) i))]
    exact hfind
  have hpressed : (wm.modifyControl i (Ui.setValue v)).pressedControlId = wm.pressedControlId := rfl
  have hentry' : (wm.modifyControl i (Ui.setValue v)).controls[i]? = some (Ui.setValue v c) := by
    unfold Manager.modifyControl
    rw [List.getElem?_modify, hentry]
    simp
  have htype' : (Ui.setValue v c).type = .scrollbar := htype
  unfold dragging
  rw [hpressed, hfind', ← hid]
  simp [hne, hentry', htype']

theorem drag_steady {d d' : Desk} {e : Nat × Control} (hdrag : dragged d.wm x y true = some e)
    (hshows : AllShown d.wm) (h : (StackCall.call (.mouse x y true true false)).run d = some d') (i : Nat) :
    Steady d' x y i := by
  obtain ⟨j, c⟩ := e
  have htop : topWindowAt d.wm x y ≠ 0 := fun hzero => by
    unfold dragged at hdrag
    rw [if_pos hzero] at hdrag
    cases hdrag
  unfold dragged at hdrag
  rw [if_neg htop] at hdrag
  have hholds : Holds d.wm x y j c := ⟨⟨htop, shownWindow_top hshows htop⟩, hdrag⟩
  obtain ⟨done, hdone, hd'⟩ := Option.map_eq_some_iff.mp h
  rw [dispatchMouse_holds hholds] at hdone
  obtain ⟨v, hv, rfl⟩ := Option.map_eq_some_iff.mp hdone
  subst hd'
  have hholds' := hholds.setValue v hshows
  obtain ⟨_, _, _, _, _, hentry⟩ := dragging_some hholds'.drag
  have hbounds : controlAbsBounds (d.wm.modifyControl j (setValue v)) (setValue v c) =
      controlAbsBounds d.wm c := controlAbsBounds_place rfl rfl
  have hagain : scrollbarValueFromThumb (setValue v c) (controlAbsBounds d.wm c) y = some v :=
    scrollbarValueFromThumb_again hv (clamp c.minValue c.maxValue v)
  have hsame : (d.wm.modifyControl j (setValue v)).modifyControl j (setValue v) =
      d.wm.modifyControl j (setValue v) := by
    unfold Manager.modifyControl at hentry ⊢
    rw [modify_self hentry rfl]
  refine steady_of_fixed ?_ i
  show (dispatchMouse (d.wm.modifyControl j (setValue v)) x y true false false).map _ = _
  rw [dispatchMouse_holds hholds', hbounds, hagain, Option.map_some, Option.map_some, hsame]

/-! ## Runs -/

/-- Behind a press at a place, from `d` to `d'`: when held calls keep the value of entry `i`. -/
def HeldExactly (d d' : Desk) (x y : Int) (i : Nat) : Prop :=
  (∀ e, dragged d.wm x y true = some e → Steady d' x y i) ∧
  (dragged d.wm x y true = none → ∃ e thumb, d'.wm.controls[i]? = some e ∧
    e.Thumb (controlAbsBounds d'.wm e) thumb ∧
    (Sized e (controlAbsBounds d'.wm e) thumb →
      (Steady d' x y i ↔ Rests e (controlAbsBounds d'.wm e) thumb y)))

theorem press_exact {d d' : Desk} (hshows : AllShown d.wm) (hl : Ranged d.wm.controls)
    (hfind : findControl d.wm (hitControl d.wm x y) = some i) (hc : d.wm.controls[i]? = some c)
    (htype : c.type = .scrollbar) (h : (StackCall.call (.mouse x y true true false)).run d = some d') :
    HeldExactly d d' x y i := by
  refine ⟨fun e hdrag => drag_steady hdrag hshows h i, fun hdrag => ?_⟩
  have hl' := StackCall.run_ranged hl h
  obtain ⟨done, hdone, hd'⟩ := Option.map_eq_some_iff.mp h
  subst hd'
  obtain ⟨e, hholds, thumb, hthumb⟩ := press_holds hshows hdrag hfind hc htype hdone
  obtain ⟨_, _, _, hscroll, _, hentry⟩ := dragging_some hholds.drag
  exact ⟨e, thumb, hentry, hthumb, fun hs =>
    steady_iff hholds hthumb hs (hl' e (List.mem_of_getElem? hentry) hscroll)⟩

theorem scrollbar_exact (memory : Nat → UInt8) (calls : List StackCall) (d : Desk)
    (hrun : run StackCall.run ⟨Manager.init, memory⟩ calls = some d) :
    (∀ c ∈ d.wm.controls, c.type = .scrollbar → c.minValue ≤ c.value ∧ c.value ≤ c.maxValue) ∧
    (∀ (x y : Int) (i : Nat) (c : Control) (d' : Desk),
      findControl d.wm (hitControl d.wm x y) = some i → d.wm.controls[i]? = some c →
      c.type = .scrollbar → (StackCall.call (.mouse x y true true false)).run d = some d' →
      HeldExactly d d' x y i) ∧
    ∀ c ∈ d.wm.controls, c.type = .scrollbar → ∀ (r thumb : Rect) (y : Int), c.Thumb r thumb →
      Sized c r thumb → int32 (y - c.dragOffset) = thumb.y →
      (scrollbarValueFromThumb c r y = some c.value ↔ c.value = c.minValue ∨
        0 < usableH r thumb ∧ c.range ∣ (c.value - c.minValue) * usableH r thumb) := by
  have hstep : ∀ (e : Desk) (call : StackCall) (e' : Desk), Ranged e.wm.controls ∧ AllShown e.wm →
      call.run e = some e' → Ranged e'.wm.controls ∧ AllShown e'.wm :=
    fun _ _ _ h hrun => ⟨StackCall.run_ranged h.1 hrun, StackCall.run_shows h.2 hrun⟩
  obtain ⟨hl, hshows⟩ := run_invariant_all hstep calls _ d
    ⟨fun c hc => absurd hc List.not_mem_nil, init_shows⟩ hrun
  exact ⟨hl, fun x y i c d' hfind hc htype h => press_exact hshows hl hfind hc htype h,
    fun c hc htype r thumb y hthumb hs hy => thumb_roundTrip hthumb hs (hl c hc htype) hy⟩

/-! ## Two presses -/

instance (n : Int) : Decidable (FitsInt n) := inferInstanceAs (Decidable (_ ∧ _))

instance (c : Control) (r thumb : Rect) : Decidable (c.Slides r thumb) :=
  inferInstanceAs (Decidable (_ ∧ _))

instance (c : Control) (r thumb : Rect) : Decidable (Sized c r thumb) :=
  decidable_of_iff (FitsInt c.minValue ∧ FitsInt c.maxValue ∧ FitsInt (c.maxValue - c.minValue) ∧
      (c.Slides r thumb → (scrollbarTrackRect r).y + usableH r thumb < 2 ^ 31) ∧
      (c.Slides r thumb → c.range * usableH r thumb < 2 ^ 31))
    ⟨fun h => ⟨h.1, h.2.1, h.2.2.1, h.2.2.2.1, h.2.2.2.2⟩,
      fun h => ⟨h.low, h.high, h.range, h.track, h.scale⟩⟩

instance (c : Control) (r thumb : Rect) (y : Int) : Decidable (Rests c r thumb y) :=
  inferInstanceAs (Decidable ((_ → _ ∧ _) ∧ (¬ _ → _)))

/-- A window with a scrollbar that is half way down: its track has 110 rows, and the thumb 98 steps. -/
def scrollbarWindow : List StackCall :=
  [.call (.createWindow ⟨10, 10, 200, 200⟩ true true false),
    .call (.addScrollbar 1 ⟨8, 8, 16, 142⟩ 0 100 10 50)]

/-- The thumb is pressed in its fourth row, and held. -/
theorem scrollbar_held : ∃ d d', run StackCall.run ⟨Manager.init, fun _ => 0⟩ scrollbarWindow = some d ∧
    (StackCall.call (.mouse 25 108 true true false)).run d = some d' ∧ Steady d' 25 108 0 ∧
    d'.wm.controls.map Control.value = [50] := by
  obtain ⟨_, hpress, _⟩ := scrollbar_exact (fun _ => 0) scrollbarWindow _ rfl
  obtain ⟨e, thumb, he, hthumb, hsteady⟩ := (hpress 25 108 0 _ _ rfl rfl rfl rfl).2 rfl
  cases he
  cases hthumb
  exact ⟨_, _, rfl, rfl, (hsteady (by decide +kernel)).mpr (by decide +kernel), by decide +kernel⟩

/-- The upper arrow is pressed, and held: the value goes from 49 to 0. -/
theorem arrow_runs_away :
    ¬ ∀ (calls : List StackCall) (d d' : Desk) (x y : Int) (i : Nat) (c : Control),
      run StackCall.run ⟨Manager.init, fun _ => 0⟩ calls = some d →
      findControl d.wm (hitControl d.wm x y) = some i → d.wm.controls[i]? = some c →
      c.type = .scrollbar → (StackCall.call (.mouse x y true true false)).run d = some d' →
      Steady d' x y i := by
  intro hall
  have hsteady := hall scrollbarWindow _ _ 25 45 0 _ rfl rfl rfl rfl rfl
  exact absurd (hsteady 1 _ rfl) (by decide +kernel)

end Ui
end MiniDos
