import MiniDos.Ui.Calm

/-!
# MiniDos.Ui.Clicks

What a click operates (`ui_wm_dispatch_mouse` in `ui_wm.h`). A button asks where the mouse went down
before it is activated; the other controls do not.

* `mousePress_spec`, `releaseControl_spec`: what going down and up do to the flags of the controls.
* `Guarded`: the mouse goes up where it went down, or over a control that asks.
* `clicks_lawful`: then what is operated is what the last press hit. `release_elsewhere`: a run where
  it is not.
-/

namespace MiniDos
namespace Ui

open Video Plane Transition

variable {wm wm' : Manager} {x y : Int}
variable {c : Control} {id : Int} {i : Nat} {l l' : List Control} {leftPressed leftReleased : Bool}
  {call : StackCall}

/-! ## Flags -/

/-- `checked`, `selected_index` and `open`. -/
def Control.flags (c : Control) : Bool × Int × Bool := (c.checked, c.selectedIndex, c.isOpen)

def Control.setting (c : Control) : Int × Int × ControlType × Int × Bool × Int × Bool :=
  (c.id, c.windowId, c.type, c.groupId, c.flags)

/-- What is different are flags of control `id`. -/
def OnlyFlagsOf (id : Int) (l l' : List Control) : Prop :=
  ∀ (j : Nat) (c c' : Control), l[j]? = some c → l'[j]? = some c' → c'.flags ≠ c.flags → c.id = id

/-- Nothing about the settings is different. -/
def SameSettings (l l' : List Control) : Prop := l'.map Control.setting = l.map Control.setting

theorem SameSettings.refl (l : List Control) : SameSettings l l := rfl

theorem SameSettings.trans {l l' l'' : List Control} (h : SameSettings l l')
    (h' : SameSettings l' l'') : SameSettings l l'' := Eq.trans h' h

theorem SameSettings.get (h : SameSettings l l') {j : Nat}
    (hc : l[j]? = some c) : ∃ c', l'[j]? = some c' ∧ c'.setting = c.setting := by
  have hj : (l'.map Control.setting)[j]? = some c.setting := by
    rw [h, List.getElem?_map, hc]
    rfl
  rw [List.getElem?_map] at hj
  exact Option.map_eq_some_iff.mp hj

theorem SameSettings.symm (h : SameSettings l l') : SameSettings l' l := Eq.symm h

theorem setting_flags {c c' : Control} (h : c'.setting = c.setting) : c'.flags = c.flags :=
  congrArg (fun s => s.2.2.2.2) h

theorem setting_id {c c' : Control} (h : c'.setting = c.setting) : c'.id = c.id := congrArg Prod.fst h

theorem SameSettings.only (h : SameSettings l l') (id : Int) :
    OnlyFlagsOf id l l' := by
  intro j c c' hc hc' hne
  obtain ⟨e, he, hsame⟩ := h.get hc
  obtain rfl := Option.some.inj (he.symm.trans hc')
  exact absurd (setting_flags hsame) hne

theorem OnlyFlagsOf.after {l l' l'' : List Control} (h : OnlyFlagsOf id l' l'')
    (hs : SameSettings l l') : OnlyFlagsOf id l l'' := by
  intro j c c'' hc hc'' hne
  obtain ⟨c', hc', hsame⟩ := hs.get hc
  rw [← setting_id hsame]
  exact h j c' c'' hc' hc'' (by rwa [setting_flags hsame])

theorem OnlyFlagsOf.before {l l' l'' : List Control} (h : OnlyFlagsOf id l l')
    (hs : SameSettings l' l'') : OnlyFlagsOf id l l'' := by
  intro j c c'' hc hc'' hne
  obtain ⟨c', hc', hsame⟩ := hs.symm.get hc''
  exact h j c c' hc hc' (by rwa [setting_flags hsame])

theorem sameSettings_map {l : List Control} {f : Control → Control}
    (h : ∀ c ∈ l, (f c).setting = c.setting) : SameSettings l (l.map f) := by
  unfold SameSettings
  rw [List.map_map]
  exact List.map_congr_left h

theorem sameSettings_modify {f : Control → Control} (h : ∀ c, (f c).setting = c.setting)
    (l : List Control) (i : Nat) : SameSettings l (l.modify i f) := map_modify h l i

theorem onlyFlagsOf_set {l : List Control} (hc : l[i]? = some c)
    (f : Control → Control) : OnlyFlagsOf c.id l (l.modify i f) := by
  intro j e e' he he' hne
  by_cases hj : i = j
  · subst hj
    obtain rfl := Option.some.inj (hc.symm.trans he)
    rfl
  · rw [List.getElem?_modify, he] at he'
    simp only [hj, if_false] at he'
    cases he'
    exact absurd rfl hne

theorem sameSettings_set {l : List Control} {c d : Control} (hc : l[i]? = some c)
    (h : d.setting = c.setting) : SameSettings l (l.modify i (fun _ => d)) := by
  refine List.ext_getElem? (fun j => ?_)
  rw [List.getElem?_map, List.getElem?_map, List.getElem?_modify]
  by_cases hj : i = j
  · subst hj
    simp [hc, h]
  · simp [hj]

/-! ## The button goes down -/

/-- No dropdown but control `id` is open. -/
def NoPopup (l : List Control) (id : Int) : Prop :=
  ∀ e ∈ l, e.id ≠ 0 → e.type = .dropdown → e.isOpen = true → e.id = id

theorem closeOpenPopups_settings (h : NoPopup wm.controls id) :
    SameSettings wm.controls (closeOpenPopups wm id).controls := by
  refine sameSettings_map (fun c hc => ?_)
  split
  · rename_i hclose
    have hopen : c.isOpen = false := by
      cases hopen : c.isOpen
      · rfl
      · exact absurd (h c hc hclose.1 hclose.2.2 hopen) hclose.2.1
    unfold Control.setting Control.flags
    rw [hopen]
  · rfl

theorem releaseControls_settings (wm : Manager) :
    SameSettings wm.controls (releaseControls wm).controls := sameSettings_map (fun _ _ => rfl)

theorem pressControl_setting {c d : Control} {r : Rect} (h : pressControl c r x y = some d) :
    d.setting = c.setting := by
  unfold pressControl at h
  split at h
  case h_2 =>
    unfold pressScrollbar at h
    simp only [Option.bind_eq_bind, Option.bind_eq_some_iff] at h
    obtain ⟨thumb, _, h⟩ := h
    cases h
    unfold clampValue
    repeat' split
    all_goals rfl
  case h_3 =>
    cases h
    unfold pressDropdown
    dsimp only
    split
    · rfl
    · split <;> rfl
  all_goals
    cases h
    rfl

theorem mousePress_spec
    (h : mousePress wm id i c x y = some wm') :
    wm'.pressedControlId = c.id ∧
      (NoPopup wm.controls c.id → SameSettings wm.controls wm'.controls) := by
  unfold mousePress at h
  simp only [Option.bind_eq_bind, Option.bind_eq_some_iff] at h
  obtain ⟨d, hd, e, he, h⟩ := h
  cases h
  refine ⟨rfl, fun hpopup => ?_⟩
  have hfocus : SameSettings wm.controls (setFocusControl (setPressed wm id c.id false) c.id).controls :=
    sameSettings_map (fun _ _ => rfl)
  have hnone : NoPopup (setFocusControl (setPressed wm id c.id false) c.id).controls c.id := by
    intro e he
    obtain ⟨e', he', rfl⟩ := List.mem_map.mp he
    exact hpopup e' he'
  have hclosed := hfocus.trans (closeOpenPopups_settings hnone)
  have hreleased := hclosed.trans (releaseControls_settings _)
  exact hreleased.trans (sameSettings_set hd (pressControl_setting he))

/-! ## The button goes up -/

/-- The control does something when the mouse goes up over it, wherever it went down. -/
def Control.Careless (c : Control) (r : Rect) (x y : Int) : Bool :=
  match c.type with
  | .checkbox | .radio | .scrollbar => true
  | .menu => 0 ≤ menuItemAt c r x y
  | .dropdown => c.isOpen || c.pressed
  | _ => false

def GroupOff (l : List Control) (c : Control) : Prop :=
  c.type = .radio → ∀ e ∈ l, e.id ≠ 0 → e.windowId = c.windowId → e.type = .radio →
    e.groupId = c.groupId → e.checked = true → e.id = c.id

theorem clearGroup_only (hradio : c.type = .radio) (hgroup : GroupOff wm.controls c) :
    OnlyFlagsOf c.id wm.controls (clearGroup wm c).controls := by
  intro j e e' he he' hne
  unfold clearGroup at he'
  rw [List.getElem?_map, he] at he'
  have he' := Option.some.inj he'
  dsimp only at he'
  split at he'
  · rename_i hin
    refine hgroup hradio e (List.mem_of_getElem? he) hin.1 hin.2.1 hin.2.2.1 hin.2.2.2 ?_
    by_contra hoff
    rw [Bool.not_eq_true] at hoff
    subst he'
    exact hne (by unfold Control.flags; rw [hoff])
  · subst he'
    exact absurd rfl hne

theorem releaseControl_only {r : Rect}
    (hc : wm.controls[i]? = some c) (hgroup : GroupOff wm.controls c) :
    OnlyFlagsOf c.id wm.controls (releaseControl wm id i c r x y).1.controls := by
  have hsame := (SameSettings.refl wm.controls).only c.id
  unfold releaseControl
  split
  case h_2 => exact onlyFlagsOf_set hc _
  case h_3 htype =>
    -- The group is cleared first, and the control itself is set behind that.
    intro j e e' he he' hne
    by_cases hj : i = j
    · subst hj
      obtain rfl := Option.some.inj (hc.symm.trans he)
      rfl
    · refine clearGroup_only htype hgroup j e e' he ?_ hne
      unfold Manager.modifyControl at he'
      rw [List.getElem?_modify] at he'
      simpa [hj] using he'
  case h_4 => exact onlyFlagsOf_set hc _
  case h_5 =>
    dsimp only
    split
    · exact onlyFlagsOf_set hc _
    · exact hsame
  all_goals exact hsame

theorem releaseControl_careful {r : Rect}
    (hc : wm.controls[i]? = some c) (hcareful : c.Careless r x y = false) :
    SameSettings wm.controls (releaseControl wm id i c r x y).1.controls ∧
      ((releaseControl wm id i c r x y).2 = true → wm.pressedControlId = c.id) := by
  unfold Control.Careless at hcareful
  unfold releaseControl
  cases htype : c.type <;> rw [htype] at hcareful
  case button =>
    refine ⟨rfl, fun hactivated => ?_⟩
    simp only [Bool.and_eq_true, decide_eq_true_eq] at hactivated
    exact hactivated.1.2
  case dropdown =>
    simp only [Bool.or_eq_false_iff] at hcareful
    have hidle : releaseDropdown c r x y = ({ c with isOpen := false, hotIndex := -1 }, false) := by
      unfold releaseDropdown
      simp [hcareful.2]
    dsimp only
    rw [hidle]
    refine ⟨sameSettings_set hc ?_, fun hactivated => Bool.noConfusion hactivated⟩
    unfold Control.setting Control.flags
    rw [hcareful.1]
  case menu =>
    have hitem : ¬ 0 ≤ menuItemAt c r x y := by simpa using hcareful
    dsimp only
    rw [if_neg hitem]
    exact ⟨rfl, fun hactivated => Bool.noConfusion hactivated⟩
  case checkbox | radio | scrollbar => cases hcareful
  all_goals exact ⟨rfl, fun hactivated => Bool.noConfusion hactivated⟩

/-! ## A call -/

def dragged (wm : Manager) (x y : Int) (leftDown : Bool) : Option (Nat × Control) :=
  if topWindowAt wm x y = 0 then none else dragging wm leftDown

theorem dragging_some {leftDown : Bool}
    (h : dragging wm leftDown = some (i, c)) :
    leftDown = true ∧ c.id = wm.pressedControlId ∧ c.id ≠ 0 ∧ c.type = .scrollbar ∧
      findControl wm wm.pressedControlId = some i ∧ wm.controls[i]? = some c := by
  unfold dragging at h
  split at h
  · cases h
  rename_i hdown
  simp only [not_or, not_not] at hdown
  simp only [Option.bind_eq_bind, Option.bind_eq_some_iff] at h
  obtain ⟨j, hfind, e, he, h⟩ := h
  split at h
  · cases h
    obtain ⟨hne, e', he', hid⟩ := findControl_some hfind
    obtain rfl := Option.some.inj (he.symm.trans he')
    exact ⟨hdown.1, hid, by rw [hid]; exact hne, ‹_›, hfind, he⟩
  · cases h

def underMouse (wm : Manager) (x y : Int) : Option Control := do
  let i ← findControl wm (hitControl wm x y)
  wm.controls[i]?

/-- The mouse is on the close button of a window. -/
def onClose (wm : Manager) (x y : Int) : Bool :=
  (shownWindow wm (topWindowAt wm x y)).any (fun e => windowHitClose e.2.window x y)

/-- The mouse goes down on what is dragged, if anything is. If it goes up, and drags nothing: it does
so over a control that is careful, or that is pressed; the control is the only radio button that is on
in its group; and a press in the same call closes no popup of another control. -/
def Guarded (wm : Manager) (x y : Int) (leftDown leftPressed leftReleased : Bool) : Prop :=
  (leftPressed = true → ∀ e ∈ dragged wm x y leftDown, e.2.id = hitControl wm x y) ∧
  (leftReleased = true → (dragged wm x y leftDown).isNone = true →
    (∀ c ∈ underMouse wm x y, GroupOff wm.controls c) ∧
    (leftPressed = false → ∀ c ∈ underMouse wm x y,
      c.Careless (controlAbsBounds wm c) x y = true → wm.pressedControlId = c.id) ∧
    (leftPressed = true → onClose wm x y = false → NoPopup wm.controls (hitControl wm x y)))

/-- What a call operates is control `last`. -/
structure Operates (wm : Manager) (done : Manager × MouseResult) (last : Int) : Prop where
  flags : OnlyFlagsOf last wm.controls done.1.controls
  activated : done.2.activated = true → done.2.controlId ≠ 0 → done.2.controlId = last

theorem mouseOutside_settings
    (hpopup : leftPressed = true → NoPopup wm.controls 0) :
    SameSettings wm.controls (mouseOutside wm leftPressed leftReleased).controls := by
  have hclosed : SameSettings wm.controls (if leftPressed then closeOpenPopups wm 0 else wm).controls := by
    split
    · rename_i hp
      exact closeOpenPopups_settings (hpopup hp)
    · exact .refl _
  unfold mouseOutside
  dsimp only
  generalize (if leftPressed then closeOpenPopups wm 0 else wm) = v at hclosed
  split
  · exact hclosed.trans (releaseControls_settings v)
  · split <;> exact hclosed

theorem mouseOnWindow_settings
    (hpopup : leftPressed = true → NoPopup wm.controls 0) :
    SameSettings wm.controls (mouseOnWindow wm id leftPressed leftReleased).controls := by
  have hclosed : SameSettings wm.controls (if leftPressed then
      releaseControls (closeOpenPopups (setPressed wm id 0 false) 0) else wm).controls := by
    split
    · rename_i hp
      have hp : NoPopup (setPressed wm id 0 false).controls 0 := hpopup hp
      exact (closeOpenPopups_settings hp).trans (releaseControls_settings _)
    · exact .refl _
  unfold mouseOnWindow
  dsimp only
  split
  · exact hclosed.trans (releaseControls_settings _)
  · exact hclosed

theorem groupOff_settings {c c' : Control} (h : SameSettings l l')
    (hc : c'.setting = c.setting) (hgroup : GroupOff l c) : GroupOff l' c' := by
  intro hradio e' he' hne hwindow htype hid hchecked
  obtain ⟨j, hj⟩ := List.mem_iff_getElem?.mp he'
  obtain ⟨e, he, hsame⟩ := h.symm.get hj
  unfold Control.setting Control.flags at hc hsame
  simp only [Prod.mk.injEq] at hc hsame
  have := hgroup (by rw [← hc.2.2.1]; exact hradio) e (List.mem_of_getElem? he)
    (by rw [hsame.1]; exact hne) (by rw [hsame.2.1, hwindow, hc.2.1]) (by rw [hsame.2.2.1, htype])
    (by rw [hsame.2.2.2.1, hid, hc.2.2.2.1]) (by rw [hsame.2.2.2.2.1, hchecked])
  rw [← hsame.1, this, hc.1]

/-- The mouse on a control: what is pressed afterwards, and what is operated. -/
theorem mouseOnControl_clicks {id last : Int}
    {done : Manager × Bool} (hc : wm.controls[i]? = some c)
    (hlast : wm.pressedControlId = 0 ∨ wm.pressedControlId = last) (hid : c.id ≠ 0)
    (hgroup : leftReleased = true → GroupOff wm.controls c)
    (hcareful : leftReleased = true → leftPressed = false →
      c.Careless (controlAbsBounds wm c) x y = true → wm.pressedControlId = c.id)
    (hpopup : leftReleased = true → leftPressed = true → NoPopup wm.controls c.id)
    (h : mouseOnControl wm id i x y leftPressed leftReleased = some done) :
    let after := if leftPressed then c.id else last
    (leftReleased = true → OnlyFlagsOf after wm.controls done.1.controls ∧
      (done.2 = true → c.id = after)) ∧
    (done.1.pressedControlId = 0 ∨ done.1.pressedControlId = after) := by
  unfold mouseOnControl at h
  simp only [Option.bind_eq_bind, Option.bind_eq_some_iff] at h
  obtain ⟨c', hc', v, hpress, e, he, h⟩ := h
  obtain rfl := Option.some.inj (hc.symm.trans hc')
  have hv : v.pressedControlId = 0 ∨ v.pressedControlId = if leftPressed then c.id else last := by
    cases leftPressed
    · cases hpress
      exact hlast
    · exact .inr (mousePress_spec hpress).1
  dsimp only
  cases leftReleased
  · cases h
    exact ⟨fun hno => Bool.noConfusion hno, hv⟩
  cases h
  refine ⟨fun _ => ?_, .inl rfl⟩
  have hback : SameSettings (releaseControl v id i e (controlAbsBounds v e) x y).1.controls
      (clearPressed ((releaseControl v id i e (controlAbsBounds v e) x y).1.modifyControl i (fun c =>
        { c with pressed := false, dragOffset := 0 }))).controls :=
    sameSettings_modify (by intro c; rfl) _ i
  cases leftPressed
  · cases hpress
    obtain rfl := Option.some.inj (hc.symm.trans he)
    cases hcare : c.Careless (controlAbsBounds wm c) x y
    · obtain ⟨hsame, hactivated⟩ := releaseControl_careful hc hcare
      refine ⟨(hsame.trans hback).only last, fun hact => ?_⟩
      have hpressed := hactivated hact
      exact hpressed ▸ hlast.resolve_left (by rw [hpressed]; exact hid)
    · have hpressed := hcareful rfl rfl hcare
      have hown : c.id = last := hpressed ▸ hlast.resolve_left (by rw [hpressed]; exact hid)
      rw [show (if false = true then c.id else last) = c.id from hown.symm]
      exact ⟨(releaseControl_only hc (hgroup rfl)).before hback, fun _ => rfl⟩
  · obtain ⟨_, hsame⟩ := mousePress_spec hpress
    have hsame := hsame (hpopup rfl rfl)
    obtain ⟨e', he', hset⟩ := hsame.get hc
    obtain rfl := Option.some.inj (he'.symm.trans he)
    have honly : OnlyFlagsOf e'.id v.controls
        (releaseControl v id i e' (controlAbsBounds v e') x y).1.controls :=
      releaseControl_only he (groupOff_settings hsame hset (hgroup rfl))
    rw [setting_id hset] at honly
    exact ⟨(honly.before hback).after hsame, fun _ => rfl⟩

/-- The mouse on a window, with nothing dragged. -/
theorem mouseOnTop_clicks {last : Int} {k : Nat} {w : WmWindow}
    {done : Manager × MouseResult} (hshown : shownWindow wm (topWindowAt wm x y) = some (k, w))
    (hlast : wm.pressedControlId = 0 ∨ wm.pressedControlId = last)
    (hgroup : leftReleased = true → ∀ c ∈ underMouse wm x y, GroupOff wm.controls c)
    (hcareful : leftReleased = true → leftPressed = false → ∀ c ∈ underMouse wm x y,
      c.Careless (controlAbsBounds wm c) x y = true → wm.pressedControlId = c.id)
    (hpopup : leftReleased = true → leftPressed = true → onClose wm x y = false →
      NoPopup wm.controls (hitControl wm x y))
    (h : mouseOnTop wm (topWindowAt wm x y) w.window x y leftPressed leftReleased = some done) :
    let after := if leftPressed then hitControl wm x y else last
    (leftReleased = true → Operates wm done after) ∧
      (done.1.pressedControlId = 0 ∨ done.1.pressedControlId = after) := by
  generalize htop : topWindowAt wm x y = top at h hshown
  have hclose : onClose wm x y = windowHitClose w.window x y := by
    unfold onClose
    rw [htop, hshown]
    rfl
  have hhit : hitControl wm x y =
      if windowHitClose w.window x y then 0 else hitTestControl wm top x y := by
    unfold hitControl
    rw [htop, hshown]
  -- The window comes to the front, and the controls stay where they are.
  obtain ⟨v, hv, hcontrols, hpressed, hframes⟩ : ∃ v,
      (if leftPressed then bringToFront wm top else wm) = v ∧ v.controls = wm.controls ∧
      v.pressedControlId = wm.pressedControlId ∧ SameFrames wm v := by
    refine ⟨_, rfl, ?_⟩
    split
    · exact ⟨bringToFront_controls wm top, bringToFront_pressed wm top, sameFrames_bringToFront wm top⟩
    · exact ⟨rfl, rfl, .refl wm⟩
  unfold mouseOnTop at h
  dsimp only at h ⊢
  rw [hv, hframes.hitTestControl hcontrols top x y] at h
  rw [← hpressed] at hlast
  split at h
  · rename_i honclose
    cases h
    rw [hhit, if_pos honclose]
    refine ⟨fun _ => ⟨SameSettings.only ?_ _, fun _ hne => absurd rfl hne⟩, ?_⟩
    · rw [← hcontrols]
      cases leftPressed <;> cases leftReleased <;> rfl
    · cases leftPressed <;> cases leftReleased <;> first | exact .inl rfl | exact hlast
  rename_i hoff
  rw [if_neg hoff] at hhit
  rw [Bool.not_eq_true] at hoff
  rw [hoff] at hclose
  rw [← hhit] at h
  have hfound : ∀ n, findControl v n = findControl wm n := fun n => by
    unfold findControl
    rw [hcontrols]
  rw [hfound] at h
  split at h
  · rename_i hnone
    cases h
    have hzero : hitControl wm x y = 0 := findControl_none hnone (by
      rw [hhit]
      exact hitTestControl_mem wm top x y)
    rw [hzero] at hpopup ⊢
    refine ⟨fun hr => ⟨SameSettings.only ?_ _, fun _ hne => absurd rfl hne⟩, ?_⟩
    · rw [← hcontrols]
      refine mouseOnWindow_settings (fun hp => ?_)
      rw [hcontrols]
      exact hpopup hr hp hclose
    · cases leftPressed <;> cases leftReleased <;> first | exact .inl rfl | exact hlast
  · rename_i i hfind
    obtain ⟨done', hdone, rfl⟩ := Option.map_eq_some_iff.mp h
    obtain ⟨hne, c, hc, hid⟩ := findControl_some hfind
    have hunder : c ∈ underMouse wm x y := by
      unfold underMouse
      rw [hfind]
      exact hc
    have hclicks := mouseOnControl_clicks (by rw [hcontrols]; exact hc) hlast (by rwa [hid])
      (fun hr => by rw [hcontrols]; exact hgroup hr c hunder)
      (fun hr hp hcare => by
        rw [hframes.controlAbsBounds] at hcare
        rw [hpressed]
        exact hcareful hr hp c hunder hcare)
      (fun hr hp => by rw [hcontrols, hid]; exact hpopup hr hp hclose) hdone
    dsimp only at hclicks
    rw [hid, hcontrols] at hclicks
    exact ⟨fun hr => ⟨(hclicks.1 hr).1, fun hact _ => (hclicks.1 hr).2 hact⟩, hclicks.2⟩

/-- A call: what is operated, and what is pressed afterwards. -/
theorem dispatchMouse_clicks {last : Int} {leftDown leftPressed leftReleased : Bool}
    {done : Manager × MouseResult} (hshows : AllShown wm)
    (hlast : wm.pressedControlId = 0 ∨ wm.pressedControlId = last)
    (hguard : Guarded wm x y leftDown leftPressed leftReleased)
    (h : dispatchMouse wm x y leftDown leftPressed leftReleased = some done) :
    let after := if leftPressed then hitControl wm x y else last
    (leftReleased = true → Operates wm done after) ∧
      (done.1.pressedControlId = 0 ∨ done.1.pressedControlId = after) := by
  obtain ⟨hdrag, hup⟩ := hguard
  unfold dispatchMouse at h
  dsimp only at h
  split at h
  case isTrue htop =>
    cases h
    have hhit : hitControl wm x y = 0 := by
      unfold hitControl shownWindow findWindow
      simp [htop]
    have hdragged : (dragged wm x y leftDown).isNone = true := by
      unfold dragged
      rw [if_pos htop]
      rfl
    have hclose : onClose wm x y = false := by
      unfold onClose shownWindow findWindow
      simp [htop]
    dsimp only
    rw [hhit] at hup ⊢
    refine ⟨fun hr => ⟨SameSettings.only ?_ _, fun hact => Bool.noConfusion hact⟩, ?_⟩
    · exact mouseOutside_settings (fun hp => (hup hr hdragged).2.2 hp hclose)
    · cases leftPressed <;> cases leftReleased <;> first | exact .inl rfl | exact hlast
  case isFalse htop =>
    obtain ⟨⟨k, w⟩, hshown⟩ := shownWindow_top hshows htop
    rw [hshown] at h
    dsimp only at h
    have hdragged : dragged wm x y leftDown = dragging wm leftDown := if_neg htop
    rw [hdragged] at hdrag hup
    split at h
    case h_1 i c hdragging =>
      -- The drag reports the scrollbar that is pressed.
      obtain ⟨value, _, rfl⟩ := Option.map_eq_some_iff.mp h
      obtain ⟨_, hid, hne, _, _, hc⟩ := dragging_some hdragging
      have hown : c.id = if leftPressed then hitControl wm x y else last := by
        cases leftPressed
        · exact hid.trans (hlast.resolve_left (by rwa [← hid]))
        · exact hdrag rfl (i, c) (by rw [hdragging]; rfl)
      refine ⟨fun _ => ⟨?_, fun _ _ => hown⟩, .inr (hid.symm.trans hown)⟩
      exact (sameSettings_modify (by intro c; rfl) wm.controls i).only _
    case h_2 hdragging =>
      rw [hdragging] at hup
      exact mouseOnTop_clicks hshown hlast (fun hr => (hup hr rfl).1) (fun hr => (hup hr rfl).2.1)
        (fun hr => (hup hr rfl).2.2) h

/-! ## Runs -/

/-- The control that the last press hit, after a call; `s.2` is the one before it. -/
def StackCall.hit (s : Desk × Int) : StackCall → Int
  | .call (.mouse x y _ true _) => hitControl s.1.wm x y
  | _ => s.2

theorem StackCall.hit_calm (hcall : call.isMouse = false) (s : Desk × Int) :
    call.hit s = s.2 := by
  cases call with
  | call c => cases c <;> first | rfl | cases hcall
  | bringToFront id => rfl
  | setActiveWindow id => rfl

/-- The window manager, and the control that the last press hit. -/
def StackCall.track (s : Desk × Int) (call : StackCall) : Option (Desk × Int) :=
  (call.run s.1).map (fun d => (d, call.hit s))

def StackCall.Guarded (s : Desk × Int) : StackCall → Prop
  | .call (.mouse x y leftDown leftPressed leftReleased) =>
    Ui.Guarded s.1.wm x y leftDown leftPressed leftReleased
  | _ => True

/-- What a call with `left_released` operates is what the last press hit, its own included. -/
def StackCall.Lawful (s : Desk × Int) (call : StackCall) : Prop :=
  ∀ x y leftDown leftPressed, call = .call (.mouse x y leftDown leftPressed true) →
    ∀ done, dispatchMouse s.1.wm x y leftDown leftPressed true = some done →
      Operates s.1.wm done (call.hit s)

/-- What is pressed was hit last. -/
structure Tracked (s : Desk × Int) : Prop where
  shows : AllShown s.1.wm
  last : s.1.wm.pressedControlId = 0 ∨ s.1.wm.pressedControlId = s.2

theorem StackCall.track_tracked {s s' : Desk × Int} (h : Tracked s)
    (hguard : call.Guarded s) (hstep : call.track s = some s') : Tracked s' := by
  obtain ⟨d, hrun, rfl⟩ := Option.map_eq_some_iff.mp hstep
  refine ⟨StackCall.run_shows h.shows hrun, ?_⟩
  cases hcall : call.isMouse
  · rw [StackCall.hit_calm hcall]
    rcases (StackCall.run_calm hcall hrun).pressed with hzero | hsame
    · exact .inl hzero
    · exact h.last.imp hsame.trans hsame.trans
  · cases call with
    | call c =>
      cases c with
      | mouse x y leftDown leftPressed leftReleased =>
        obtain ⟨done, hdone, hd⟩ := Option.map_eq_some_iff.mp hrun
        cases hd
        have hclick := (dispatchMouse_clicks h.shows h.last hguard hdone).2
        cases leftPressed <;> exact hclick
      | _ => cases hcall
    | _ => cases hcall

theorem StackCall.lawful {s : Desk × Int} (h : Tracked s)
    (hguard : call.Guarded s) : call.Lawful s := by
  rintro x y leftDown leftPressed rfl done hdone
  have hclick := (dispatchMouse_clicks h.shows h.last hguard hdone).1 rfl
  cases leftPressed <;> exact hclick

theorem clicks_lawful (memory : Nat → UInt8) (calls : List StackCall)
    (hguard : Meets StackCall.track (fun s call => call.Guarded s) (⟨Manager.init, memory⟩, 0) calls) :
    Meets StackCall.track (fun s call => call.Lawful s) (⟨Manager.init, memory⟩, 0) calls :=
  meets_of_invariant (fun _ _ _ h hguard hstep => StackCall.track_tracked h hguard hstep)
    (fun _ _ h hguard => StackCall.lawful h hguard) calls _
    ⟨init_shows, .inl rfl⟩ hguard

/-! ## Two clicks -/

instance (l : List Control) (c : Control) : Decidable (GroupOff l c) :=
  inferInstanceAs (Decidable (_ → ∀ e ∈ l, _))

instance (l : List Control) (n : Int) : Decidable (NoPopup l n) :=
  inferInstanceAs (Decidable (∀ e ∈ l, _))

instance (wm : Manager) (x y : Int) (leftDown leftPressed leftReleased : Bool) :
    Decidable (Guarded wm x y leftDown leftPressed leftReleased) :=
  inferInstanceAs (Decidable (_ ∧ (_ → _ → _ ∧ _ ∧ _)))

instance (s : Desk × Int) : (call : StackCall) → Decidable (call.Guarded s)
  | .call (.mouse x y leftDown leftPressed leftReleased) =>
    inferInstanceAs (Decidable (Ui.Guarded s.1.wm x y leftDown leftPressed leftReleased))
  | .call (.createWindow _ _ _ _) | .call (.closeWindow _) | .call (.minimize _)
  | .call (.unminimize _) | .call (.restore _) | .call (.maximize _ _) | .call (.toggleMaximize _ _)
  | .call (.addLabel _ _) | .call (.addButton _ _) | .call (.addTextinput _ _ _ _)
  | .call (.addListview _ _ _) | .call (.addCheckbox _ _ _) | .call (.addRadio _ _ _ _)
  | .call (.addDropdown _ _ _ _) | .call (.addMenu _ _ _ _) | .call (.addScrollbar _ _ _ _ _ _)
  | .call (.key _) | .bringToFront _ | .setActiveWindow _ => .isTrue trivial

def checkboxWindow : List StackCall :=
  [.call (.createWindow ⟨10, 10, 200, 150⟩ true true false),
    .call (.addCheckbox 1 ⟨8, 8, 80, 16⟩ false)]

/-- The checkbox is clicked. -/
theorem clicks_checkbox : Meets StackCall.track (fun s call => call.Lawful s)
    (⟨Manager.init, fun _ => 0⟩, 0)
    (checkboxWindow ++ [.call (.mouse 30 45 true true false), .call (.mouse 30 45 false false true)]) :=
  clicks_lawful (fun _ => 0) _ (by decide +kernel)

/-- The mouse goes down beside the window and up over the checkbox. -/
theorem release_elsewhere :
    ¬ ∀ calls : List StackCall, Meets StackCall.track (fun s call => call.Lawful s)
      (⟨Manager.init, fun _ => 0⟩, 0) calls := by
  intro hall
  have h := hall (checkboxWindow ++
    [.call (.mouse 300 300 true true false), .call (.mouse 30 45 false false true)])
  have hlast := (((h.2 _ rfl).2 _ rfl).2 _ rfl).1 30 45 false false rfl _ rfl
  exact absurd (hlast.flags 0 _ _ rfl rfl (by decide +kernel)) (by decide +kernel)

end Ui
end MiniDos
