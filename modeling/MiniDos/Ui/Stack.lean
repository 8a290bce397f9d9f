import MiniDos.Ui.Cards

/-!
# MiniDos.Ui.Stack

Which window is above which, over whole runs of the window manager (`ui_wm.h`), and the two scans that
read it: the one of the mouse, and the one of the painter.

* `StackCall.run_stacked`: every operation keeps the z-orders apart, while there are numbers.
* `topWindow_painted`: what is hit is what is drawn last.
* `stack_layered`: all runs. `counter_runs_out`: one that is too long.
-/

namespace MiniDos
namespace Ui

open Video Plane Transition Selection

variable {wm wm' : Manager}
variable {windows : List WmWindow} {w : WmWindow}

/-! ## The other operations -/

theorem minimizeWindow_sameStack (wm : Manager) (id : Int) :
    SameStack wm (minimizeWindow wm id) := by
  unfold minimizeWindow
  split
  · exact .refl wm
  · rename_i i w _
    split
    · dsimp only
      have hmin : SameStack wm (wm.modifyWindow i (fun w =>
        { w with window := { w.window with minimized := true } })) :=
        sameStack_modifyWindow (by intro w; rfl) i
      split
      · exact hmin.trans (sameStack_setActiveWindow _)
      · exact hmin
    · exact .refl wm

/-- A window that is shown is changed, and brought to the front. -/
structure FrontOf (wm wm' : Manager) (id : Int) : Prop where
  front : wm' = wm ∨ ∃ v, SameStack wm v ∧ wm' = bringToFront v id

theorem FrontOf.stacked {id : Int} (h : FrontOf wm wm' id) (hs : wm.Stacked) : wm'.Stacked := by
  rcases h.front with rfl | ⟨v, hv, rfl⟩
  · exact hs
  · exact bringToFront_stacked (hv.stacked hs) id

theorem unminimizeWindow_front (wm : Manager) (id : Int) :
    FrontOf wm (unminimizeWindow wm id) id := by
  unfold unminimizeWindow
  split
  · exact ⟨.inl rfl⟩
  · split
    · exact ⟨.inr ⟨_, sameStack_modifyWindow (by intro w; rfl) _, rfl⟩⟩
    · exact ⟨.inl rfl⟩

theorem restoreWindow_front (wm : Manager) (id : Int) : FrontOf wm (restoreWindow wm id) id := by
  unfold restoreWindow
  split
  · exact ⟨.inl rfl⟩
  · split
    · refine ⟨.inr ⟨_, ?_, rfl⟩⟩
      split
      · exact (sameStack_modifyWindow (by intro w; rfl) _).trans (sameStack_modifyWindow (by intro w; rfl) _)
      · exact sameStack_modifyWindow (by intro w; rfl) _
    · exact ⟨.inl rfl⟩

theorem maximizeWindow_front (wm : Manager) (id : Int) (desktop : Rect) :
    FrontOf wm (maximizeWindow wm id desktop) id := by
  unfold maximizeWindow
  split
  · exact ⟨.inl rfl⟩
  split
  · exact ⟨.inl rfl⟩
  · split
    · refine ⟨.inr ⟨_, ?_, rfl⟩⟩
      split
      · exact (sameStack_modifyWindow (by intro w; rfl) _).trans (sameStack_modifyWindow (by intro w; rfl) _)
      · exact sameStack_modifyWindow (by intro w; rfl) _
    · exact ⟨.inl rfl⟩

theorem toggleMaximizeWindow_front (wm : Manager) (id : Int) (desktop : Rect) :
    FrontOf wm (toggleMaximizeWindow wm id desktop) id := by
  unfold toggleMaximizeWindow
  split
  · exact ⟨.inl rfl⟩
  · split
    · exact restoreWindow_front wm id
    · exact maximizeWindow_front wm id desktop

/-! ## The mouse -/

theorem mouseOutside_sameStack (wm : Manager) (leftPressed leftReleased : Bool) :
    SameStack wm (mouseOutside wm leftPressed leftReleased) := by
  cases leftPressed <;> cases leftReleased <;> exact ⟨rfl, rfl⟩

theorem mouseOnClose_sameStack (wm : Manager) (id : Int) (leftPressed leftReleased : Bool) :
    SameStack wm (mouseOnClose wm id leftPressed leftReleased).1 := by
  cases leftPressed <;> cases leftReleased <;> exact ⟨rfl, rfl⟩

theorem mouseOnWindow_sameStack (wm : Manager) (id : Int) (leftPressed leftReleased : Bool) :
    SameStack wm (mouseOnWindow wm id leftPressed leftReleased) := by
  cases leftPressed <;> cases leftReleased <;> exact ⟨rfl, rfl⟩

theorem mousePress_sameStack {id x y : Int} {i : Nat} {c : Control}
    (h : mousePress wm id i c x y = some wm') : SameStack wm wm' := by
  unfold mousePress at h
  simp only [Option.bind_eq_bind, Option.bind_eq_some_iff] at h
  obtain ⟨d, _, e, _, h⟩ := h
  cases h
  exact ⟨rfl, rfl⟩

theorem releaseControl_sameStack (wm : Manager) (id : Int) (i : Nat) (c : Control) (r : Rect)
    (x y : Int) : SameStack wm (releaseControl wm id i c r x y).1 := by
  unfold releaseControl
  split
  case h_5 =>
    dsimp only
    split <;> exact ⟨rfl, rfl⟩
  all_goals exact ⟨rfl, rfl⟩

theorem mouseOnControl_sameStack {id x y : Int} {i : Nat} {leftPressed leftReleased : Bool}
    {done : Manager × Bool} (h : mouseOnControl wm id i x y leftPressed leftReleased = some done) :
    SameStack wm done.1 := by
  unfold mouseOnControl at h
  simp only [Option.bind_eq_bind, Option.bind_eq_some_iff] at h
  obtain ⟨c, _, v, hpress, e, _, h⟩ := h
  have hv : SameStack wm v := by
    split at hpress
    · exact mousePress_sameStack hpress
    · cases hpress
      exact .refl wm
  split at h
  · cases h
    exact hv.trans ((releaseControl_sameStack v id i e _ x y).trans ⟨rfl, rfl⟩)
  · cases h
    exact hv

theorem OnTop.sameStack {top x y : Int} {leftPressed leftReleased : Bool}
    (h : OnTop wm top x y leftPressed leftReleased wm') : SameStack wm wm' := by
  obtain rfl | rfl | ⟨i, hit, hdone⟩ := h
  · exact mouseOnClose_sameStack wm top leftPressed leftReleased
  · exact mouseOnWindow_sameStack wm top leftPressed leftReleased
  · exact mouseOnControl_sameStack hdone

theorem dispatchMouse_front {x y : Int} {leftDown leftPressed leftReleased : Bool}
    {done : Manager × MouseResult}
    (h : dispatchMouse wm x y leftDown leftPressed leftReleased = some done) :
    ∃ v, FrontOf wm v (topWindowAt wm x y) ∧ SameStack v done.1 := by
  obtain ⟨_, hdone⟩ | ⟨_, hdone⟩ | ⟨i, c, value, _, hdone⟩ | ⟨_, hon⟩ := dispatchMouse_cases h
  · rw [hdone]
    exact ⟨wm, ⟨.inl rfl⟩, mouseOutside_sameStack wm leftPressed leftReleased⟩
  · rw [hdone]
    exact ⟨wm, ⟨.inl rfl⟩, .refl wm⟩
  · rw [hdone]
    exact ⟨wm, ⟨.inl rfl⟩, ⟨rfl, rfl⟩⟩
  · refine ⟨_, ?_, hon.sameStack⟩
    split
    · exact ⟨.inr ⟨wm, .refl wm, rfl⟩⟩
    · exact ⟨.inl rfl⟩

/-! ## Controls and keys -/

theorem allocControl_sameStack {type : ControlType} {windowId id : Int} {bounds : Rect}
    {set : Control → Control} (h : allocControl wm type windowId bounds set = some (wm', id)) :
    SameStack wm wm' := by
  unfold allocControl at h
  simp only [Option.bind_eq_bind, Option.bind_eq_some_iff] at h
  obtain ⟨i, _, slot, _, h⟩ := h
  cases h
  exact ⟨rfl, rfl⟩

theorem addControl_sameStack (wm : Manager) (type : ControlType) (windowId : Int) (bounds : Rect)
    (set : Control → Control) : SameStack wm (addControl wm type windowId bounds set).1 := by
  unfold addControl
  cases halloc : allocControl wm type windowId bounds set with
  | none => exact .refl wm
  | some added => exact allocControl_sameStack halloc

theorem addTextinput_sameStack (d : Desk) (windowId : Int) (bounds : Rect)
    (textBuffer : Option Nat) (textBufferLen : Int) :
    SameStack d.wm (addTextinput d windowId bounds textBuffer textBufferLen).1.wm := by
  unfold addTextinput
  split
  · exact .refl d.wm
  split
  · exact .refl d.wm
  · dsimp only
    split
    · exact .refl d.wm
    · rename_i halloc
      exact allocControl_sameStack halloc

theorem keyOnControl_sameStack (d : Desk) (i : Nat) (c : Control) (key : UInt8) :
    SameStack d.wm (keyOnControl d i c key).1.wm := by
  unfold keyOnControl
  dsimp only
  repeat' split
  all_goals exact ⟨rfl, rfl⟩

theorem dispatchKey_sameStack (d : Desk) (key : UInt8) :
    SameStack d.wm (dispatchKey d key).1.wm := by
  unfold dispatchKey
  split
  · exact .refl d.wm
  split
  · exact .refl d.wm
  split
  · exact keyOnControl_sameStack d _ _ key
  · exact .refl d.wm

/-! ## What is painted -/

/-- The next window of the loop of `ui_wm_draw`: of those that are shown and not drawn yet,
the lowest, with the first of equals. -/
def nextWindow (windows : List WmWindow) (drawn : List Nat) : Option Nat :=
  (windows.zipIdx.foldl (fun (best : Option (Nat × Int)) (w : WmWindow × Nat) =>
    if ¬ w.1.visible ∨ w.1.window.minimized ∨ w.2 ∈ drawn then best
    else if best.any (fun b => w.1.zOrder ≥ b.2) then best
    else some (w.2, w.1.zOrder)) none).map Prod.fst

/-- The turns of the loop, `n` of them left: the windows, each with its place. -/
def paintOrder (windows : List WmWindow) : Nat → List Nat → List (WmWindow × Nat)
  | 0, _ => []
  | n + 1, drawn =>
    match nextWindow windows drawn with
    | none => []
    | some best =>
      match windows[best]? with
      | none => []
      | some w => (w, best) :: paintOrder windows n (best :: drawn)

/-- The windows, each with its place, in the order in which they are drawn. -/
def Manager.layers (wm : Manager) : List (WmWindow × Nat) := paintOrder wm.windows wm.windows.length []

def WmWindow.Shown (w : WmWindow) : Prop := w.visible = true ∧ w.window.minimized = false

structure Painted (windows : List WmWindow) (drawn : List Nat) (layers : List (WmWindow × Nat)) :
    Prop where
  listed : ∀ p ∈ layers, windows[p.2]? = some p.1 ∧ p.1.Shown ∧ p.2 ∉ drawn
  sorted : layers.Pairwise (fun p q => p.1.zOrder ≤ q.1.zOrder)
  all : ∀ (j : Nat) (w : WmWindow), windows[j]? = some w → w.Shown → j ∉ drawn → (w, j) ∈ layers

theorem nextWindow_some {drawn : List Nat} {i : Nat}
    (h : nextWindow windows drawn = some i) :
    ∃ w, windows[i]? = some w ∧ w.Shown ∧ i ∉ drawn ∧
      ∀ (j : Nat) (v : WmWindow), windows[j]? = some v → v.Shown → j ∉ drawn →
        w.zOrder ≤ v.zOrder := by
  obtain ⟨w, hw, hskip, hmin⟩ := lowest_some
    (fun w : WmWindow × Nat => ¬ w.1.visible ∨ w.1.window.minimized ∨ w.2 ∈ drawn) WmWindow.zOrder h
  simp only [not_or, not_not] at hskip
  refine ⟨w, hw, ⟨hskip.1, by simpa using hskip.2.1⟩, hskip.2.2, fun j v hv hshown hj => hmin j v hv ?_⟩
  simp only [not_or, not_not]
  exact ⟨hshown.1, by simpa using hshown.2, hj⟩

theorem nextWindow_none {drawn : List Nat}
    (h : nextWindow windows drawn = none) {j : Nat} (hw : windows[j]? = some w)
    (hshown : w.Shown) : j ∈ drawn := by
  have hskip := lowest_none
    (fun w : WmWindow × Nat => ¬ w.1.visible ∨ w.1.window.minimized ∨ w.2 ∈ drawn) WmWindow.zOrder h hw
  rcases hskip with hno | hmin | hj
  · exact absurd hshown.1 hno
  · rw [hshown.2] at hmin
    cases hmin
  · exact hj

theorem painted_from (windows : List WmWindow) (n : Nat) (drawn : List Nat) (hnodup : drawn.Nodup)
    (hlt : ∀ i ∈ drawn, i < windows.length) (hn : windows.length ≤ n + drawn.length) :
    Painted windows drawn (paintOrder windows n drawn) := by
  induction n generalizing drawn with
  | zero =>
    refine ⟨fun p hp => (nomatch hp), .nil, fun j w hw _ hj => absurd ?_ hj⟩
    exact exhausts hnodup hlt (by omega) (List.getElem?_eq_some_iff.mp hw).1
  | succ n ih =>
    unfold paintOrder
    cases hnext : nextWindow windows drawn with
    | none =>
      exact ⟨fun p hp => (nomatch hp), .nil,
        fun j w hw hshown hj => absurd (nextWindow_none hnext hw hshown) hj⟩
    | some best =>
      obtain ⟨w, hw, hshown, hbest, hmin⟩ := nextWindow_some hnext
      have hrest := ih (best :: drawn) (List.nodup_cons.mpr ⟨hbest, hnodup⟩) (fun i hi => by
        rcases List.mem_cons.mp hi with rfl | hi
        · exact (List.getElem?_eq_some_iff.mp hw).1
        · exact hlt i hi) (by rw [List.length_cons]; omega)
      dsimp only
      rw [hw]
      dsimp only
      refine ⟨fun p hp => ?_, List.pairwise_cons.mpr ⟨fun p hp => ?_, hrest.sorted⟩,
        fun j v hv hshown' hj => ?_⟩
      · rcases List.mem_cons.mp hp with rfl | hp
        · exact ⟨hw, hshown, hbest⟩
        · obtain ⟨hv, hshown', hnew⟩ := hrest.listed p hp
          exact ⟨hv, hshown', fun hold => hnew (List.mem_cons_of_mem best hold)⟩
      · obtain ⟨hv, hshown', hnew⟩ := hrest.listed p hp
        exact hmin p.2 p.1 hv hshown' (fun hold => hnew (List.mem_cons_of_mem best hold))
      · by_cases hjb : j = best
        · subst hjb
          obtain rfl := Option.some.inj (hw.symm.trans hv)
          exact List.mem_cons_self
        · exact List.mem_cons_of_mem _ (hrest.all j v hv hshown' (by simp [hjb, hj]))

theorem Manager.painted (wm : Manager) : Painted wm.windows [] wm.layers :=
  painted_from wm.windows wm.windows.length [] List.nodup_nil (fun _ hi => nomatch hi) (Nat.le_refl _)

/-- The window that `ui_wm_draw` paints last of those that contain a point; 0 for none. -/
def Manager.lastPainted (wm : Manager) (x y : Int) : Int :=
  ((wm.layers.filter (fun w => rectContains w.1.window.bounds x y)).getLast?.map (fun w => w.1.id)).getD 0

theorem getLast?_highest {α : Type} (key : α → Int) {l : List α} {a b : α}
    (hsorted : l.Pairwise (fun p q => key p ≤ key q)) (hlast : l.getLast? = some a) (hb : b ∈ l) :
    key b ≤ key a := by
  obtain ⟨l', rfl⟩ := List.getLast?_eq_some_iff.mp hlast
  rcases List.mem_append.mp hb with hb | hb
  · exact (List.pairwise_append.mp hsorted).2.2 b hb a List.mem_cons_self
  · rw [List.mem_singleton.mp hb]

/-- A window that the scan of `ui_wm_top_window_at` asks, and that contains the point. -/
def Under (x y : Int) (w : WmWindow) : Prop :=
  w.id ≠ 0 ∧ w.Shown ∧ rectContains w.window.bounds x y = true

instance (x y : Int) (w : WmWindow) : Decidable (Under x y w) :=
  inferInstanceAs (Decidable (_ ∧ (_ ∧ _) ∧ _))

theorem topWindowAt_eq (wm : Manager) (x y : Int) :
    topWindowAt wm x y =
      (wm.windows.foldl (higher (Under x y) WmWindow.id WmWindow.zOrder) (0, -2147483647)).1 := by
  unfold topWindowAt topWindow
  congr 2
  funext best w
  unfold higher Under WmWindow.Shown
  by_cases hskip : w.id = 0 ∨ ¬ w.visible ∨ w.window.minimized
  · rw [if_pos hskip, if_neg]
    rintro ⟨⟨hid, ⟨hvisible, hmin⟩, _⟩, _⟩
    simp [hid, hvisible, hmin] at hskip
  · rw [if_neg hskip]
    simp only [not_or, Bool.not_eq_true] at hskip
    simp [hskip]

theorem under_topWindowAt {x y : Int} (h : topWindowAt wm x y ≠ 0) :
    ∃ w ∈ wm.windows, Under x y w ∧ w.id = topWindowAt wm x y := by
  rw [topWindowAt_eq] at h ⊢
  obtain ⟨hfrom, _, _⟩ := highest_spec (Under x y) WmWindow.id WmWindow.zOrder wm.windows (0, -2147483647)
  rcases hfrom with ⟨w, hw, hunder, heq⟩ | ⟨heq, _⟩
  · exact ⟨w, hw, hunder, by rw [heq]⟩
  · rw [heq] at h
    exact absurd rfl h

theorem topWindowAt_ne_zero {x y : Int} (hw : w ∈ wm.windows) (hunder : Under x y w)
    (hz : 0 ≤ w.zOrder) : topWindowAt wm x y ≠ 0 := by
  rw [topWindowAt_eq]
  obtain ⟨hfrom, _, _⟩ := highest_spec (Under x y) WmWindow.id WmWindow.zOrder wm.windows (0, -2147483647)
  rcases hfrom with ⟨v, _, hv, heq⟩ | ⟨_, hlow⟩
  · rw [heq]
    exact hv.1
  · have : w.zOrder < -2147483647 := hlow w hw hunder
    omega

/-- What is hit is what is painted last. -/
theorem topWindow_painted (h : wm.Stacked) (x y : Int) :
    topWindowAt wm x y = wm.lastPainted x y := by
  have hpainted := wm.painted
  have hfilter : ∀ w i, (w, i) ∈ wm.layers.filter (fun w => rectContains w.1.window.bounds x y) ↔
      wm.windows[i]? = some w ∧ Under x y w := by
    intro w i
    rw [List.mem_filter]
    constructor
    · rintro ⟨hlayer, hin⟩
      obtain ⟨hw, hshown, _⟩ := hpainted.listed (w, i) hlayer
      refine ⟨hw, fun hid => ?_, hshown, hin⟩
      have hfree := h.shown w.card (List.mem_map_of_mem (List.mem_of_getElem? hw))
      rw [show w.card.visible = true from hshown.1, show w.card.id = 0 from hid] at hfree
      exact absurd hfree (by decide)
    · rintro ⟨hw, _, hshown, hin⟩
      exact ⟨hpainted.all i w hw hshown List.not_mem_nil, hin⟩
  have hsorted := hpainted.sorted.filter (fun w => rectContains w.1.window.bounds x y)
  obtain ⟨hfrom, _, hall⟩ := highest_spec (Under x y) WmWindow.id WmWindow.zOrder
    wm.windows (0, -2147483647)
  rw [topWindowAt_eq]
  unfold Manager.lastPainted
  generalize wm.layers.filter (fun w => rectContains w.1.window.bounds x y) = under at hfilter hsorted
  rcases hfrom with ⟨a, ha, hunder, heq⟩ | ⟨heq, hlow⟩
  · rw [heq] at hall ⊢
    obtain ⟨i, hi⟩ := List.mem_iff_getElem?.mp ha
    have hmem := (hfilter a i).mpr ⟨hi, hunder⟩
    cases hlast : under.getLast? with
    | none =>
      rw [List.getLast?_eq_none_iff.mp hlast] at hmem
      cases hmem
    | some q =>
      -- The last one is not lower than `a`, and `a` is the highest: they are at one height.
      obtain ⟨hq, hunderq⟩ := (hfilter q.1 q.2).mp (List.mem_of_getLast? hlast)
      have hle : a.zOrder ≤ q.1.zOrder := getLast?_highest (fun p => p.1.zOrder) hsorted hlast hmem
      have hge : q.1.zOrder ≤ a.zOrder := hall q.1 (List.mem_of_getElem? hq) hunderq
      have hplace : i = q.2 := h.apart i q.2 a.card q.1.card (by rw [List.getElem?_map, hi]; rfl)
        (by rw [List.getElem?_map, hq]; rfl) hunder.1 hunderq.1 (Int.le_antisymm hle hge)
      subst hplace
      obtain rfl := Option.some.inj (hi.symm.trans hq)
      rfl
  · rw [heq]
    cases hlast : under.getLast? with
    | none => rfl
    | some q =>
      obtain ⟨hq, hunderq⟩ := (hfilter q.1 q.2).mp (List.mem_of_getLast? hlast)
      have hq := List.mem_of_getElem? hq
      have hz : q.1.zOrder < -2147483647 := hlow q.1 hq hunderq
      have hrange : 0 ≤ q.1.zOrder := (h.range q.1.card (List.mem_map_of_mem hq)).1
      omega

/-! ## Runs -/

/-- What an app calls, with `ui_wm_bring_to_front` and `ui_wm_set_active_window` as well. -/
inductive StackCall where
  | call (c : WmCall)
  | bringToFront (id : Int)
  | setActiveWindow (id : Int)

def StackCall.run (d : Desk) : StackCall → Option Desk
  | .call c => c.run d
  | .bringToFront id => some { d with wm := Ui.bringToFront d.wm id }
  | .setActiveWindow id => some { d with wm := Ui.setActiveWindow d.wm id }

/-- There is one more id for a window. -/
def StackCall.Fresh (d : Desk) : StackCall → Prop
  | .call (.createWindow _ _ _ _) => d.wm.nextWindowId < 2 ^ 31 - 1
  | _ => True

theorem WmCall.run_stacked {d d' : Desk} {c : WmCall} (h : d.wm.Stacked)
    (hfresh : (StackCall.call c).Fresh d) (hrun : c.run d = some d') : d'.wm.Stacked := by
  cases c with
  | createWindow bounds hasClose hasMinimize hasMaximize =>
    cases hrun
    exact createWindowEx_stacked h hfresh bounds hasClose hasMinimize hasMaximize
  | closeWindow id =>
    cases hrun
    exact closeWindow_stacked h id
  | minimize id =>
    cases hrun
    exact (minimizeWindow_sameStack d.wm id).stacked h
  | unminimize id =>
    cases hrun
    exact (unminimizeWindow_front d.wm id).stacked h
  | restore id =>
    cases hrun
    exact (restoreWindow_front d.wm id).stacked h
  | maximize id desktop =>
    cases hrun
    exact (maximizeWindow_front d.wm id desktop).stacked h
  | toggleMaximize id desktop =>
    cases hrun
    exact (toggleMaximizeWindow_front d.wm id desktop).stacked h
  | addLabel id bounds | addButton id bounds =>
    cases hrun
    exact (addControl_sameStack d.wm _ id bounds _).stacked h
  | addTextinput id bounds textBuffer textBufferLen =>
    cases hrun
    exact (addTextinput_sameStack d id bounds textBuffer textBufferLen).stacked h
  | addListview id bounds lv =>
    cases hrun
    cases lv with
    | false => exact h
    | true => exact (addControl_sameStack d.wm _ id bounds _).stacked h
  | addCheckbox id bounds checked | addRadio id bounds groupId checked =>
    cases hrun
    exact (addControl_sameStack d.wm _ id bounds _).stacked h
  | addDropdown id bounds itemCount selected | addMenu id bounds itemCount selected =>
    cases hrun
    exact (addControl_sameStack d.wm _ id bounds _).stacked h
  | addScrollbar id bounds minValue maxValue pageSize value =>
    cases hrun
    exact (addControl_sameStack d.wm _ id bounds _).stacked h
  | mouse x y leftDown leftPressed leftReleased =>
    obtain ⟨done, hdone, hrun⟩ := Option.map_eq_some_iff.mp hrun
    cases hrun
    obtain ⟨v, hfront, hsame⟩ := dispatchMouse_front hdone
    exact hsame.stacked (hfront.stacked h)
  | key k =>
    cases hrun
    exact (dispatchKey_sameStack d k).stacked h

theorem StackCall.run_stacked {d d' : Desk} {c : StackCall} (h : d.wm.Stacked)
    (hfresh : c.Fresh d) (hrun : c.run d = some d') : d'.wm.Stacked := by
  cases c with
  | call c => exact WmCall.run_stacked h hfresh hrun
  | bringToFront id =>
    cases hrun
    exact bringToFront_stacked h id
  | setActiveWindow id =>
    cases hrun
    exact (sameStack_setActiveWindow id).stacked h

theorem init_stacked : Manager.init.Stacked :=
  ⟨by decide, by decide, fun _ _ _ h => (nomatch h), fun _ h => (nomatch h),
    fun _ h => (nomatch h), fun _ h => (nomatch h), fun _ _ _ _ h => (nomatch h)⟩

/-- The window at `target` is strictly the highest afterwards, and the others are in the order that
they were in. -/
structure Foremost (target : Nat) (windows windows' : List WmWindow) : Prop where
  same : windows'.map (fun w => (w.id, w.visible)) = windows.map (fun w => (w.id, w.visible))
  top : ∀ (j : Nat) (t e : WmWindow), windows'[target]? = some t → windows'[j]? = some e →
    e.card.Live → j ≠ target → e.zOrder < t.zOrder
  order : ∀ (i j : Nat) (c e c' e' : WmWindow), windows[i]? = some c → windows[j]? = some e →
    windows'[i]? = some c' → windows'[j]? = some e' → c.card.Live → e.card.Live → i ≠ target →
    j ≠ target → (c.zOrder < e.zOrder ↔ c'.zOrder < e'.zOrder)

/-- What a user of the window manager relies on, about the order of its windows. -/
structure Layered (wm : Manager) : Prop where
  apart : ∀ (i j : Nat) (v w : WmWindow), wm.windows[i]? = some v → wm.windows[j]? = some w →
    v.card.Live → w.card.Live → v.zOrder = w.zOrder → i = j
  raised : ∀ (id : Int) (target : Nat), findWindow wm id = some target →
    Foremost target wm.windows (bringToFront wm id).windows
  seen : ∀ x y, topWindowAt wm x y = wm.lastPainted x y

theorem getElem?_card {i : Nat} (h : windows[i]? = some w) :
    (windows.map WmWindow.card)[i]? = some w.card := by
  rw [List.getElem?_map, h]
  rfl

theorem Manager.Stacked.foremost (h : wm.Stacked) {id : Int} {target : Nat}
    (hfind : findWindow wm id = some target) :
    Foremost target wm.windows (bringToFront wm id).windows := by
  have hbound := h.bound
  have hcount := h.count
  rw [List.length_map] at hcount
  have hraise := raises (by omega) hfind
  have hnames := hraise.names
  rw [List.map_map, List.map_map] at hnames
  refine ⟨hnames, fun j t e ht he hlive hj => ?_,
    fun i j c e c' e' hc he hc' he' hlive hlive' hi hj => ⟨fun hlt => ?_, fun hlt => ?_⟩⟩
  · exact hraise.top j t.card e.card (getElem?_card ht) (getElem?_card he) hlive hj
  · exact hraise.order i j c.card e.card c'.card e'.card (getElem?_card hc) (getElem?_card he)
      (getElem?_card hc') (getElem?_card he') hlive hlive' hi hj hlt
  · rcases Int.lt_trichotomy c.zOrder e.zOrder with hz | hz | hz
    · exact hz
    · -- Two windows are not at one height.
      obtain rfl := h.apart i j c.card e.card (getElem?_card hc) (getElem?_card he) hlive.1 hlive'.1 hz
      obtain rfl := Option.some.inj (hc'.symm.trans he')
      exact absurd hlt (Int.lt_irrefl c'.zOrder)
    · have hback := hraise.order j i e.card c.card e'.card c'.card (getElem?_card he)
        (getElem?_card hc) (getElem?_card he') (getElem?_card hc') hlive' hlive hj hi hz
      exact absurd hlt (Int.lt_asymm hback)

theorem layered_of_stacked (h : wm.Stacked) : Layered wm where
  apart i j v w hv hw hlive hlive' hz :=
    h.apart i j v.card w.card (getElem?_card hv) (getElem?_card hw) hlive.1 hlive'.1 hz
  raised _ _ hfind := h.foremost hfind
  seen := topWindow_painted h

theorem stack_layered (memory : Nat → UInt8) (calls : List StackCall) (d : Desk)
    (hrun : run StackCall.run ⟨Manager.init, memory⟩ calls = some d)
    (hfresh : Meets StackCall.run (fun e call => call.Fresh e) ⟨Manager.init, memory⟩ calls) :
    Layered d.wm := by
  have hstep : ∀ (e : Desk) (call : StackCall) (e' : Desk), e.wm.Stacked → call.Fresh e →
      call.run e = some e' → e'.wm.Stacked :=
    fun _ _ _ h hfresh hrun => StackCall.run_stacked h hfresh hrun
  exact layered_of_stacked (run_invariant hstep calls _ d init_stacked hfresh hrun)

instance (d : Desk) : (call : StackCall) → Decidable (call.Fresh d)
  | .call (.createWindow _ _ _ _) => inferInstanceAs (Decidable (d.wm.nextWindowId < 2 ^ 31 - 1))
  | .call (.closeWindow _) | .call (.minimize _) | .call (.unminimize _) | .call (.restore _)
  | .call (.maximize _ _) | .call (.toggleMaximize _ _) | .call (.addLabel _ _)
  | .call (.addButton _ _) | .call (.addTextinput _ _ _ _) | .call (.addListview _ _ _)
  | .call (.addCheckbox _ _ _) | .call (.addRadio _ _ _ _) | .call (.addDropdown _ _ _ _)
  | .call (.addMenu _ _ _ _) | .call (.addScrollbar _ _ _ _ _ _) | .call (.mouse _ _ _ _ _)
  | .call (.key _) | .bringToFront _ | .setActiveWindow _ => .isTrue trivial

/-- Two windows, and a click on the lower one. -/
def overlapping : List StackCall :=
  [.call (.createWindow ⟨0, 0, 60, 60⟩ true true true),
    .call (.createWindow ⟨30, 30, 60, 60⟩ true true true), .call (.mouse 10 30 true true false)]

theorem stack_overlapping : ∃ d, run StackCall.run ⟨Manager.init, fun _ => 0⟩ overlapping = some d ∧
    Layered d.wm ∧ topWindowAt d.wm 40 40 = 1 :=
  ⟨_, rfl, stack_layered (fun _ => 0) overlapping _ rfl (by decide +kernel), by decide +kernel⟩

/-! ## Out of numbers -/

def nearRect : Rect := ⟨0, 0, 10, 10⟩

def farRect : Rect := ⟨20, 20, 10, 10⟩

def plainWindow (bounds : Rect) (active : Bool) (id z : Int) : WmWindow :=
  ⟨id, ⟨bounds, bounds, active, false, false, false, false, false⟩, true, z⟩

def goneWindow : WmWindow :=
  ⟨0, ⟨nearRect, nearRect, false, false, false, false, false, false⟩, false, 0⟩

/-- One window, in the first entry or the second. -/
def worn (first : Bool) (id z next : Int) : Manager :=
  { Manager.init with
    windows :=
      if first then [plainWindow nearRect true id z, goneWindow]
      else [goneWindow, plainWindow nearRect true id z]
    nextWindowId := next
    activeWindowId := id }

def createPlain (bounds : Rect) : StackCall := .call (.createWindow bounds false false false)

/-- A new window, and then the old one is closed, whose id is `k + 2`. -/
def wearOut : Nat → List StackCall
  | 0 => [createPlain nearRect, createPlain nearRect, .call (.closeWindow 1)]
  | k + 1 => wearOut k ++ [createPlain nearRect, .call (.closeWindow (k + 2))]

variable {memory : Nat → UInt8}

theorem run_replace {first : Bool} {id z next : Int} (hid : id ≠ 0) (hne : id ≠ next) (hz : 0 ≤ z) :
    run StackCall.run ⟨worn first id z next, memory⟩
        [createPlain nearRect, .call (.closeWindow id)] =
      some ⟨worn (!first) next (int32 (z + 1)) (int32 (next + 1)), memory⟩ := by
  have hcreate : (createPlain nearRect).run ⟨worn first id z next, memory⟩ =
      some ⟨{ worn first id z next with
        windows :=
          if first then [plainWindow nearRect false id z, plainWindow nearRect true next (int32 (z + 1))]
          else [plainWindow nearRect true next (int32 (z + 1)), plainWindow nearRect false id z]
        nextWindowId := int32 (next + 1)
        activeWindowId := next }, memory⟩ := by
    cases first <;>
      simp [StackCall.run, createPlain, WmCall.run, createWindowEx, freeSlot, worn, plainWindow,
        goneWindow, putSlot, topZOrder, setActiveWindow, hid, hne, hz, List.findIdx?_cons]
  refine run_cons.mpr ⟨_, hcreate, run_cons.mpr ⟨_, ?_, rfl⟩⟩
  cases first <;>
    simp [StackCall.run, WmCall.run, closeWindow, clearWindow, clearControls, worn, plainWindow,
      goneWindow, Manager.modifyWindow, Manager.init, hid.symm, hne.symm, List.findIdx?_cons]

theorem run_wearOut (k : Nat) (hk : k ≤ 2 ^ 31 - 3) :
    run StackCall.run ⟨Manager.init, memory⟩ (wearOut k) =
      some ⟨worn (k % 2 = 1) (k + 2) (k + 1) (int32 (k + 3)), memory⟩ := by
  induction k with
  | zero =>
    simp [wearOut, createPlain, run, StackCall.run, WmCall.run, createWindowEx, freeSlot, worn,
      plainWindow, goneWindow, putSlot, topZOrder, setActiveWindow, closeWindow, clearWindow,
      clearControls, Manager.modifyWindow, Manager.init, maxWindows, int32, List.findIdx?_cons]
  | succ k ih =>
    refine run_append.mpr ⟨_, ih (by omega), ?_⟩
    rw [int32_small (n := (k : Int) + 3) (by omega), run_replace (by omega) (by omega) (by omega),
      int32_small (n := (k : Int) + 1 + 1) (by omega)]
    have hparity : (!decide (k % 2 = 1)) = decide ((k + 1) % 2 = 1) := by
      rw [← decide_not, decide_eq_decide]
      omega
    rw [hparity, show (k : Int) + 3 = ((k + 1 : Nat) : Int) + 2 by omega,
      show (k : Int) + 1 + 1 = ((k + 1 : Nat) : Int) + 1 by omega,
      show ((k + 1 : Nat) : Int) + 2 + 1 = ((k + 1 : Nat) : Int) + 3 by omega]

/-- Behind the last number: the window on top of all others is not hit. -/
theorem counter_runs_out :
    ¬ ∀ (calls : List StackCall) (d : Desk),
      run StackCall.run ⟨Manager.init, fun _ => 0⟩ calls = some d → Layered d.wm := by
  intro hall
  obtain ⟨calls, hcalls⟩ : ∃ calls, run StackCall.run ⟨Manager.init, fun _ => 0⟩ calls =
      some ⟨worn true (2 ^ 31 - 1) (2 ^ 31 - 2) (-2 ^ 31), fun _ => 0⟩ :=
    ⟨_, run_wearOut (2 ^ 31 - 3) (Nat.le_refl _)⟩
  have hlayered := hall (calls ++ [createPlain nearRect, createPlain farRect]) _
    (run_append.mpr ⟨_, hcalls, rfl⟩)
  have hseen := hlayered.seen 25 25
  exact absurd hseen (by decide +kernel)

end Ui
end MiniDos
