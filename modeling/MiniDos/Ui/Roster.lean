import MiniDos.Lib.Transition
import MiniDos.Ui.Dispatch

/-!
# MiniDos.Ui.Roster

Who is who in the window manager: the ids of windows and controls, and the four ids that refer to
them.

* `Roster`: what the references are about. Most of the window manager does not change it.
* `Sound`: the invariant of the roster.
* `Moved`: only references change, each to something that is there.
-/

namespace MiniDos
namespace Ui

open Video Plane

/-! ## Tables -/

/-- Ids other than 0 stand at one place each. -/
def Distinct (ids : List Int) : Prop :=
  ∀ (i j : Nat) (n : Int), ids[i]? = some n → ids[j]? = some n → n ≠ 0 → i = j

section Table

variable {α β : Type} {table : List α} {slot : Nat} {a : α}

theorem freeSlot_some {id : α → Int} {capacity : Nat} (h : freeSlot id capacity table = some slot) :
    slot ≤ table.length ∧ ∀ b, table[slot]? = some b → id b = 0 := by
  unfold freeSlot at h
  split at h
  · rename_i i hfind
    cases h
    obtain ⟨hlt, hid, _⟩ := List.findIdx?_eq_some_iff_getElem.mp hfind
    refine ⟨Nat.le_of_lt hlt, fun b hb => ?_⟩
    rw [List.getElem?_eq_getElem hlt] at hb
    cases hb
    simpa using hid
  · split at h
    · cases h
    · cases h
      refine ⟨Nat.le_refl _, fun b hb => ?_⟩
      simp at hb

theorem map_putSlot (f : α → β) : (putSlot table slot a).map f = putSlot (table.map f) slot (f a) := by
  unfold putSlot
  rw [List.length_map]
  split
  · rw [List.map_set]
  · rw [List.map_append, List.map_singleton]

theorem getElem?_putSlot (hslot : slot ≤ table.length) (i : Nat) :
    (putSlot table slot a)[i]? = if i = slot then some a else table[i]? := by
  unfold putSlot
  split
  · rename_i hlt
    rw [List.getElem?_set]
    by_cases hi : i = slot
    · subst hi
      simp [hlt]
    · simp [hi, Ne.symm hi]
  · have hend : slot = table.length := by omega
    subst hend
    rw [List.getElem?_append]
    split
    · rename_i hlt
      rw [if_neg (by omega)]
    · by_cases hi : i = table.length
      · subst hi
        simp
      · rw [if_neg hi, List.getElem?_eq_none (by simp; omega), List.getElem?_eq_none (by omega)]

theorem mem_putSlot_self (hslot : slot ≤ table.length) : a ∈ putSlot table slot a :=
  List.mem_of_getElem? (by rw [getElem?_putSlot hslot slot, if_pos rfl])

theorem mem_putSlot (hslot : slot ≤ table.length) {b : α} (h : b ∈ putSlot table slot a) :
    b = a ∨ b ∈ table := by
  obtain ⟨i, hi⟩ := List.mem_iff_getElem?.mp h
  rw [getElem?_putSlot hslot] at hi
  split at hi
  · cases hi
    exact .inl rfl
  · exact .inr (List.mem_of_getElem? hi)

theorem mem_putSlot_of_mem (hslot : slot ≤ table.length) {b : α} (h : b ∈ table)
    (hne : table[slot]? ≠ some b) : b ∈ putSlot table slot a := by
  obtain ⟨i, hi⟩ := List.mem_iff_getElem?.mp h
  have hi' : i ≠ slot := fun he => hne (he ▸ hi)
  exact List.mem_of_getElem? (by rw [getElem?_putSlot hslot, if_neg hi', hi])

end Table

theorem Distinct.putSlot {ids : List Int} {slot : Nat} {n : Int} (h : Distinct ids)
    (hslot : slot ≤ ids.length) (hnew : n ∉ ids) : Distinct (putSlot ids slot n) := by
  intro i j m hi hj hm
  rw [getElem?_putSlot hslot] at hi hj
  split at hi
  · cases hi
    split at hj
    · rw [‹i = slot›, ‹j = slot›]
    · exact absurd (List.mem_of_getElem? hj) hnew
  · split at hj
    · cases hj
      exact absurd (List.mem_of_getElem? hi) hnew
    · exact h i j m hi hj hm

theorem modify_eq_map {α : Type} {key : α → Int} {table : List α} {i : Nat} {a : α}
    (h : Distinct (table.map key)) (ha : table[i]? = some a) (hid : key a ≠ 0) (f : α → α) :
    table.modify i f = table.map (fun b => if key b = key a then f b else b) := by
  have hkey : (table.map key)[i]? = some (key a) := by simp [ha]
  refine List.ext_getElem? (fun j => ?_)
  rw [List.getElem?_modify, List.getElem?_map]
  cases hb : table[j]? with
  | none => rfl
  | some b =>
    have hbkey : (table.map key)[j]? = some (key b) := by simp [hb]
    by_cases hij : i = j
    · subst hij
      cases ha.symm.trans hb
      simp
    · have hne : key b ≠ key a := by
        intro he
        rw [he] at hbkey
        exact hij (h i j _ hkey hbkey hid)
      simp [hij, hne]

theorem Distinct.cleared {ids ids' : List Int} (h : Distinct ids)
    (hcleared : ∀ (i : Nat) (n : Int), ids'[i]? = some n → n ≠ 0 → ids[i]? = some n) : Distinct ids' :=
  fun i j n hi hj hn => h i j n (hcleared i n hi hn) (hcleared j n hj hn) hn

/-! ## The roster -/

/-- The ids of the windows and whether each is minimised; the ids of the controls, the window of
each and whether it is visible; the next ids; and the references. -/
structure Roster where
  windows : List (Int × Bool)
  controls : List (Int × Int × Bool)
  nextWindowId : Int
  nextControlId : Int
  activeWindowId : Int
  focusedControlId : Int
  pressedWindowId : Int
  pressedControlId : Int

def WmWindow.entry (w : WmWindow) : Int × Bool := (w.id, w.window.minimized)

def Control.entry (c : Control) : Int × Int × Bool := (c.id, c.windowId, c.visible)

def Manager.roster (wm : Manager) : Roster where
  windows := wm.windows.map WmWindow.entry
  controls := wm.controls.map Control.entry
  nextWindowId := wm.nextWindowId
  nextControlId := wm.nextControlId
  activeWindowId := wm.activeWindowId
  focusedControlId := wm.focusedControlId
  pressedWindowId := wm.pressedWindowId
  pressedControlId := wm.pressedControlId

namespace Roster

/-- The invariant. -/
structure Sound (r : Roster) : Prop where
  windowIds : Distinct (r.windows.map Prod.fst)
  controlIds : Distinct (r.controls.map Prod.fst)
  nextWindow : 0 < r.nextWindowId ∧ ∀ w ∈ r.windows, w.1 < r.nextWindowId
  nextControl : 0 < r.nextControlId ∧ ∀ c ∈ r.controls, c.1 < r.nextControlId
  freeWindow : ∀ w ∈ r.windows, w.1 = 0 → w.2 = false
  freeControl : ∀ c ∈ r.controls, c.1 = 0 → c = (0, 0, false)
  owned : ∀ c ∈ r.controls, c.1 ≠ 0 → c.2.1 ≠ 0 ∧ ∃ w ∈ r.windows, w.1 = c.2.1
  active : r.activeWindowId = 0 ∨ (r.activeWindowId, false) ∈ r.windows
  focused : r.focusedControlId = 0 ∨ ∃ c ∈ r.controls, c.1 = r.focusedControlId
  pressedWindow : r.pressedWindowId = 0 ∨ ∃ w ∈ r.windows, w.1 = r.pressedWindowId
  pressedControl : r.pressedControlId = 0 ∨ ∃ c ∈ r.controls, c.1 = r.pressedControlId

/-- Only references change. -/
structure Moved (r r' : Roster) : Prop where
  same : r' = { r with
    activeWindowId := r'.activeWindowId, focusedControlId := r'.focusedControlId
    pressedWindowId := r'.pressedWindowId, pressedControlId := r'.pressedControlId }
  active : r'.activeWindowId = r.activeWindowId ∨ (r'.activeWindowId, false) ∈ r.windows
  focused : r'.focusedControlId = r.focusedControlId ∨ r'.focusedControlId = 0 ∨
    ∃ c ∈ r.controls, c.1 = r'.focusedControlId
  pressedWindow : r'.pressedWindowId = r.pressedWindowId ∨ r'.pressedWindowId = 0 ∨
    ∃ w ∈ r.windows, w.1 = r'.pressedWindowId
  pressedControl : r'.pressedControlId = r.pressedControlId ∨ r'.pressedControlId = 0 ∨
    ∃ c ∈ r.controls, c.1 = r'.pressedControlId

variable {r r' r'' : Roster}

theorem Moved.refl (r : Roster) : Moved r r :=
  ⟨rfl, .inl rfl, .inl rfl, .inl rfl, .inl rfl⟩

theorem Moved.of_eq (h : r' = r) : Moved r r' := h ▸ .refl r

theorem Moved.tables (h : Moved r r') : r'.windows = r.windows ∧ r'.controls = r.controls := by
  rw [h.same]
  exact ⟨rfl, rfl⟩

theorem Moved.trans (h : Moved r r') (h' : Moved r' r'') : Moved r r'' := by
  obtain ⟨hw, hc⟩ := h.tables
  refine ⟨?_, ?_, ?_, ?_, ?_⟩
  · rw [h'.same, h.same]
  · rcases h'.active with he | hm
    · rw [he]
      exact h.active
    · exact .inr (hw ▸ hm)
  · rcases h'.focused with he | hm
    · rw [he]
      exact h.focused
    · exact .inr (hc ▸ hm)
  · rcases h'.pressedWindow with he | hm
    · rw [he]
      exact h.pressedWindow
    · exact .inr (hw ▸ hm)
  · rcases h'.pressedControl with he | hm
    · rw [he]
      exact h.pressedControl
    · exact .inr (hc ▸ hm)

theorem Sound.moved (h : Sound r) (hm : Moved r r') : Sound r' := by
  have hactive : r'.activeWindowId = 0 ∨ (r'.activeWindowId, false) ∈ r.windows := by
    rcases hm.active with he | hmem
    · rw [he]
      exact h.active
    · exact .inr hmem
  have hfocused : r'.focusedControlId = 0 ∨ ∃ c ∈ r.controls, c.1 = r'.focusedControlId := by
    rcases hm.focused with he | hmem
    · rw [he]
      exact h.focused
    · exact hmem
  have hwindow : r'.pressedWindowId = 0 ∨ ∃ w ∈ r.windows, w.1 = r'.pressedWindowId := by
    rcases hm.pressedWindow with he | hmem
    · rw [he]
      exact h.pressedWindow
    · exact hmem
  have hcontrol : r'.pressedControlId = 0 ∨ ∃ c ∈ r.controls, c.1 = r'.pressedControlId := by
    rcases hm.pressedControl with he | hmem
    · rw [he]
      exact h.pressedControl
    · exact hmem
  rw [hm.same]
  exact ⟨h.windowIds, h.controlIds, h.nextWindow, h.nextControl, h.freeWindow, h.freeControl,
    h.owned, hactive, hfocused, hwindow, hcontrol⟩

/-! ## Tables that change -/

/-- A window takes a free entry, or one more, and becomes the active one. -/
theorem Sound.addWindow (h : Sound r) {slot : Nat} (hslot : slot ≤ r.windows.length)
    (hvacant : ∀ w, r.windows[slot]? = some w → w.1 = 0) :
    Sound { r with
      windows := putSlot r.windows slot (r.nextWindowId, false)
      nextWindowId := r.nextWindowId + 1, activeWindowId := r.nextWindowId } := by
  obtain ⟨hpos, hlt⟩ := h.nextWindow
  have hkeep : ∀ w ∈ r.windows, w.1 ≠ 0 →
      w ∈ putSlot r.windows slot (r.nextWindowId, false) :=
    fun w hw hne => mem_putSlot_of_mem hslot hw (fun he => hne (hvacant w he))
  have hnew : r.nextWindowId ∉ r.windows.map Prod.fst := by
    intro hmem
    obtain ⟨w, hw, he⟩ := List.mem_map.mp hmem
    have := hlt w hw
    omega
  refine ⟨?_, h.controlIds, ⟨by dsimp only; omega, fun w hw => ?_⟩, h.nextControl, fun w hw hz => ?_,
    h.freeControl, fun c hc hne => ?_, .inr (mem_putSlot_self hslot), h.focused, ?_,
    h.pressedControl⟩
  · rw [map_putSlot]
    exact h.windowIds.putSlot (by simpa using hslot) hnew
  · dsimp only
    rcases mem_putSlot hslot hw with rfl | hold
    · dsimp only
      omega
    · have := hlt w hold
      omega
  · rcases mem_putSlot hslot hw with rfl | hold
    · rfl
    · exact h.freeWindow w hold hz
  · obtain ⟨hwid, w, hw, he⟩ := h.owned c hc hne
    exact ⟨hwid, w, hkeep w hw (by rw [he]; exact hwid), he⟩
  · by_cases hz : r.pressedWindowId = 0
    · exact .inl hz
    · obtain ⟨w, hw, he⟩ := h.pressedWindow.resolve_left hz
      exact .inr ⟨w, hkeep w hw (by rw [he]; exact hz), he⟩

/-- A control takes a free entry, or one more, in a window that is there. -/
theorem Sound.addControl (h : Sound r) {slot : Nat} {windowId : Int}
    (hslot : slot ≤ r.controls.length) (hvacant : ∀ c, r.controls[slot]? = some c → c.1 = 0)
    (hwid : windowId ≠ 0) (hw : ∃ w ∈ r.windows, w.1 = windowId) :
    Sound { r with
      controls := putSlot r.controls slot (r.nextControlId, windowId, true)
      nextControlId := r.nextControlId + 1 } := by
  obtain ⟨hpos, hlt⟩ := h.nextControl
  have hkeep : ∀ c ∈ r.controls, c.1 ≠ 0 →
      c ∈ putSlot r.controls slot (r.nextControlId, windowId, true) :=
    fun c hc hne => mem_putSlot_of_mem hslot hc (fun he => hne (hvacant c he))
  have hnew : r.nextControlId ∉ r.controls.map Prod.fst := by
    intro hmem
    obtain ⟨c, hc, he⟩ := List.mem_map.mp hmem
    have := hlt c hc
    omega
  refine ⟨h.windowIds, ?_, h.nextWindow, ⟨by dsimp only; omega, fun c hc => ?_⟩, h.freeWindow,
    fun c hc hz => ?_, fun c hc hne => ?_, h.active, ?_, h.pressedWindow, ?_⟩
  · rw [map_putSlot]
    exact h.controlIds.putSlot (by simpa using hslot) hnew
  · dsimp only
    rcases mem_putSlot hslot hc with rfl | hold
    · dsimp only
      omega
    · have := hlt c hold
      omega
  · rcases mem_putSlot hslot hc with rfl | hold
    · exact absurd hz (by dsimp only; omega)
    · exact h.freeControl c hold hz
  · rcases mem_putSlot hslot hc with rfl | hold
    · exact ⟨hwid, hw⟩
    · exact h.owned c hold hne
  · by_cases hz : r.focusedControlId = 0
    · exact .inl hz
    · obtain ⟨c, hc, he⟩ := h.focused.resolve_left hz
      exact .inr ⟨c, hkeep c hc (by rw [he]; exact hz), he⟩
  · by_cases hz : r.pressedControlId = 0
    · exact .inl hz
    · obtain ⟨c, hc, he⟩ := h.pressedControl.resolve_left hz
      exact .inr ⟨c, hkeep c hc (by rw [he]; exact hz), he⟩

/-- A window is minimised or shown again. -/
def setMinimized (id : Int) (b : Bool) (w : Int × Bool) : Int × Bool :=
  if w.1 = id then (w.1, b) else w

@[simp] theorem setMinimized_fst (id : Int) (b : Bool) (w : Int × Bool) :
    (setMinimized id b w).1 = w.1 := by
  unfold setMinimized
  split <;> rfl

theorem map_setMinimized_fst (id : Int) (b : Bool) (ws : List (Int × Bool)) :
    (ws.map (setMinimized id b)).map Prod.fst = ws.map Prod.fst := by
  simp [Function.comp_def]

theorem exists_setMinimized {id n : Int} {b : Bool} {ws : List (Int × Bool)}
    (h : ∃ w ∈ ws, w.1 = n) : ∃ w ∈ ws.map (setMinimized id b), w.1 = n := by
  obtain ⟨w, hw, he⟩ := h
  exact ⟨_, List.mem_map_of_mem hw, by rw [setMinimized_fst, he]⟩

theorem Sound.minimize (h : Sound r) {id : Int} (hid : id ≠ 0) (b : Bool) {a : Int}
    (ha : a = 0 ∨ (a, false) ∈ r.windows.map (setMinimized id b)) :
    Sound { r with windows := r.windows.map (setMinimized id b), activeWindowId := a } := by
  refine ⟨?_, h.controlIds, ⟨h.nextWindow.1, fun w hw => ?_⟩, h.nextControl, fun w hw hz => ?_,
    h.freeControl, fun c hc hne => ?_, ha, h.focused, ?_, h.pressedControl⟩
  · rw [map_setMinimized_fst]
    exact h.windowIds
  · obtain ⟨v, hv, rfl⟩ := List.mem_map.mp hw
    rw [setMinimized_fst]
    exact h.nextWindow.2 v hv
  · obtain ⟨v, hv, rfl⟩ := List.mem_map.mp hw
    rw [setMinimized_fst] at hz
    unfold setMinimized
    rw [if_neg (by rw [hz]; exact Ne.symm hid)]
    exact h.freeWindow v hv hz
  · obtain ⟨hwid, hw⟩ := h.owned c hc hne
    exact ⟨hwid, exists_setMinimized hw⟩
  · exact h.pressedWindow.imp_right exists_setMinimized

/-- A window is closed, and its controls with it. -/
def clearEntry (id : Int) (w : Int × Bool) : Int × Bool := if w.1 = id then (0, false) else w

def clearControl (id : Int) (c : Int × Int × Bool) : Int × Int × Bool :=
  if c.2.1 ≠ id then c else (0, 0, false)

theorem clearEntry_cases (id : Int) (w : Int × Bool) :
    clearEntry id w = (0, false) ∨ clearEntry id w = w ∧ w.1 ≠ id := by
  unfold clearEntry
  by_cases h : w.1 = id
  · exact .inl (if_pos h)
  · exact .inr ⟨if_neg h, h⟩

theorem clearControl_cases (id : Int) (c : Int × Int × Bool) :
    clearControl id c = (0, 0, false) ∨ clearControl id c = c ∧ c.2.1 ≠ id := by
  unfold clearControl
  by_cases h : c.2.1 = id
  · exact .inl (if_neg (fun hne => hne h))
  · exact .inr ⟨if_pos h, h⟩

def dropControl (r : Roster) (id controlId : Int) : Int :=
  if controlId ∈ (r.controls.filter (fun c => c.2.1 = id)).map Prod.fst then 0 else controlId

theorem dropControl_spec {id controlId : Int}
    (h : controlId = 0 ∨ ∃ c ∈ r.controls, c.1 = controlId) :
    dropControl r id controlId = 0 ∨
      ∃ c ∈ r.controls.map (clearControl id), c.1 = dropControl r id controlId := by
  unfold dropControl
  split
  · exact .inl rfl
  rename_i hkept
  refine h.imp_right (fun hc => ?_)
  obtain ⟨c, hc, rfl⟩ := hc
  have hne : c.2.1 ≠ id := fun he => hkept (List.mem_map_of_mem (List.mem_filter.mpr ⟨hc, by simpa⟩))
  exact ⟨_, List.mem_map_of_mem hc, by rw [clearControl, if_pos hne]⟩

theorem mem_clearEntry {id : Int} {w : Int × Bool} {ws : List (Int × Bool)} (hw : w ∈ ws)
    (hne : w.1 ≠ id) : w ∈ ws.map (clearEntry id) :=
  List.mem_map.mpr ⟨w, hw, if_neg hne⟩

theorem Sound.close (h : Sound r) (id : Int) {a p : Int}
    (ha : a = 0 ∨ (a, false) ∈ r.windows.map (clearEntry id))
    (hp : p = 0 ∨ p = r.pressedWindowId ∧ p ≠ id) :
    Sound { r with
      windows := r.windows.map (clearEntry id), controls := r.controls.map (clearControl id)
      focusedControlId := dropControl r id r.focusedControlId
      pressedControlId := dropControl r id r.pressedControlId
      activeWindowId := a, pressedWindowId := p } := by
  refine ⟨?_, ?_, ⟨h.nextWindow.1, fun w hw => ?_⟩, ⟨h.nextControl.1, fun c hc => ?_⟩,
    fun w hw hz => ?_, fun c hc hz => ?_, fun c hc hne => ?_, ha, dropControl_spec h.focused, ?_,
    dropControl_spec h.pressedControl⟩
  · refine h.windowIds.cleared (fun i n hn hne => ?_)
    rw [List.map_map, List.getElem?_map] at hn
    obtain ⟨w, hw, rfl⟩ := Option.map_eq_some_iff.mp hn
    rcases clearEntry_cases id w with he | ⟨he, _⟩
    · exact absurd (by rw [Function.comp_apply, he]) hne
    · rw [List.getElem?_map, hw, Function.comp_apply, he]
      rfl
  · refine h.controlIds.cleared (fun i n hn hne => ?_)
    rw [List.map_map, List.getElem?_map] at hn
    obtain ⟨c, hc, rfl⟩ := Option.map_eq_some_iff.mp hn
    rcases clearControl_cases id c with he | ⟨he, _⟩
    · exact absurd (by rw [Function.comp_apply, he]) hne
    · rw [List.getElem?_map, hc, Function.comp_apply, he]
      rfl
  · obtain ⟨v, hv, rfl⟩ := List.mem_map.mp hw
    rcases clearEntry_cases id v with he | ⟨he, _⟩ <;> rw [he]
    · exact h.nextWindow.1
    · exact h.nextWindow.2 v hv
  · obtain ⟨d, hd, rfl⟩ := List.mem_map.mp hc
    rcases clearControl_cases id d with he | ⟨he, _⟩ <;> rw [he]
    · exact h.nextControl.1
    · exact h.nextControl.2 d hd
  · obtain ⟨v, hv, rfl⟩ := List.mem_map.mp hw
    rcases clearEntry_cases id v with he | ⟨he, _⟩ <;> rw [he] at hz ⊢
    exact h.freeWindow v hv hz
  · obtain ⟨d, hd, rfl⟩ := List.mem_map.mp hc
    rcases clearControl_cases id d with he | ⟨he, _⟩ <;> rw [he] at hz ⊢
    exact h.freeControl d hd hz
  · obtain ⟨d, hd, rfl⟩ := List.mem_map.mp hc
    rcases clearControl_cases id d with he | ⟨he, hkept⟩ <;> rw [he] at hne ⊢
    · exact absurd rfl hne
    · obtain ⟨hwid, w, hw, hwd⟩ := h.owned d hd hne
      exact ⟨hwid, w, mem_clearEntry hw (by rw [hwd]; exact hkept), hwd⟩
  · rcases hp with hp | ⟨hp, hne⟩
    · exact .inl hp
    · refine h.pressedWindow.imp (fun hz => hp.trans hz) (fun hw => ?_)
      obtain ⟨w, hw, he⟩ := hw
      rw [← hp] at he
      exact ⟨w, mem_clearEntry hw (by rw [he]; exact hne), he⟩

end Roster

end Ui
end MiniDos
