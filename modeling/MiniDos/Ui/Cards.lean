import MiniDos.Lib.Selection
import MiniDos.Ui.Paint
import MiniDos.Ui.Session

/-!
# MiniDos.Ui.Cards

The z-orders that the window manager (`ui_wm.h`) hands out to its windows.

* `Stacked`: the z-orders of the windows that are there differ.
* `createWindowEx_stacked`, `closeWindow_stacked`: windows come and go.
* `renumbered`: `ui_wm_normalize_z_order` keeps the order. `raises`: so does `ui_wm_bring_to_front`,
  but for its window.
-/

namespace MiniDos
namespace Ui

open Video Plane Selection

variable {drawn : List Nat}

/-! ## Cards -/

/-- What decides about the order of a window. -/
structure Card where
  id : Int
  visible : Bool
  z : Int

def WmWindow.card (w : WmWindow) : Card := ⟨w.id, w.visible, w.zOrder⟩

def Card.name (c : Card) : Int × Bool := (c.id, c.visible)

/-- A window that is there. -/
def Card.Live (c : Card) : Prop := c.id ≠ 0 ∧ c.visible = true

def freeCard : Card := ⟨0, false, 0⟩

/-- The windows that are there stand at different heights, below the number of the next one. -/
structure Stacked (cards : List Card) (next : Int) : Prop where
  bound : next < 2 ^ 31
  count : (cards.length : Int) < next
  ids : Distinct (cards.map Card.id)
  below : ∀ c ∈ cards, c.id < next
  shown : ∀ c ∈ cards, c.visible = decide (c.id ≠ 0)
  range : ∀ c ∈ cards, 0 ≤ c.z ∧ c.z < next
  apart : ∀ (i j : Nat) (c e : Card), cards[i]? = some c → cards[j]? = some e → c.id ≠ 0 →
    e.id ≠ 0 → c.z = e.z → i = j

variable {cards cards' cards'' : List Card} {next : Int} {wm wm' : Manager}

theorem Stacked.live (h : Stacked cards next) {c : Card} (hc : c ∈ cards) (hid : c.id ≠ 0) :
    c.Live := by
  refine ⟨hid, ?_⟩
  rw [h.shown c hc]
  simpa using hid

/-- Entries may be freed. -/
theorem Stacked.free (h : Stacked cards next) (hlen : cards'.length = cards.length)
    (hfree : ∀ (i : Nat) (c : Card), cards'[i]? = some c → cards[i]? = some c ∨ c = freeCard) :
    Stacked cards' next := by
  have hmem : ∀ c ∈ cards', c ∈ cards ∨ c = freeCard := by
    intro c hc
    obtain ⟨i, hi⟩ := List.mem_iff_getElem?.mp hc
    exact (hfree i c hi).imp_left List.mem_of_getElem?
  have hpos : (0 : Int) < next := by
    have := h.count
    omega
  refine ⟨h.bound, by rw [hlen]; exact h.count, h.ids.cleared (fun i n hn hne => ?_), fun c hc => ?_,
    fun c hc => ?_, fun c hc => ?_, fun i j c e hc he hcid heid hz => ?_⟩
  · rw [List.getElem?_map] at hn ⊢
    obtain ⟨c, hc, rfl⟩ := Option.map_eq_some_iff.mp hn
    rcases hfree i c hc with hold | rfl
    · rw [hold]
      rfl
    · exact absurd rfl hne
  · rcases hmem c hc with hold | rfl
    · exact h.below c hold
    · exact hpos
  · rcases hmem c hc with hold | rfl
    · exact h.shown c hold
    · rfl
  · rcases hmem c hc with hold | rfl
    · exact h.range c hold
    · exact ⟨Int.le_refl 0, hpos⟩
  · rcases hfree i c hc with hc | rfl
    · rcases hfree j e he with he | rfl
      · exact h.apart i j c e hc he hcid heid hz
      · exact absurd rfl heid
    · exact absurd rfl hcid

/-- A new window goes above all others. -/
theorem Stacked.add (h : Stacked cards next) (hnext : next < 2 ^ 31 - 1) {slot : Nat}
    (hslot : slot ≤ cards.length) {z : Int} (hrange : 0 ≤ z ∧ z ≤ next) (htop : ∀ c ∈ cards, c.Live → c.z < z) :
    Stacked (putSlot cards slot ⟨next, true, z⟩) (next + 1) := by
  have hcount := h.count
  have hnew : next ∉ cards.map Card.id := by
    intro hmem
    obtain ⟨c, hc, hid⟩ := List.mem_map.mp hmem
    have := h.below c hc
    omega
  have hlen : (putSlot cards slot ⟨next, true, z⟩).length ≤ cards.length + 1 := by
    unfold putSlot
    split
    · rw [List.length_set]
      omega
    · rw [List.length_append, List.length_singleton]
  refine ⟨by omega, by omega, ?_, fun c hc => ?_, fun c hc => ?_, fun c hc => ?_,
    fun i j c e hc he hcid heid hz => ?_⟩
  · rw [map_putSlot]
    exact h.ids.putSlot (by simpa using hslot) hnew
  · rcases mem_putSlot hslot hc with rfl | hold
    · exact Int.lt_succ next
    · have := h.below c hold
      omega
  · rcases mem_putSlot hslot hc with rfl | hold
    · simp
      omega
    · exact h.shown c hold
  · rcases mem_putSlot hslot hc with rfl | hold
    · dsimp only
      omega
    · have := h.range c hold
      omega
  · rw [getElem?_putSlot hslot] at hc he
    split at hc <;> split at he
    · omega
    · cases hc
      have hlow := htop e (List.mem_of_getElem? he) (h.live (List.mem_of_getElem? he) heid)
      dsimp only at hz
      omega
    · cases he
      have hlow := htop c (List.mem_of_getElem? hc) (h.live (List.mem_of_getElem? hc) hcid)
      dsimp only at hz
      omega
    · exact h.apart i j c e hc he hcid heid hz

/-! ## Windows come and go -/

/-- The scan goes up, past every window that it asks. -/
theorem foldl_top (id : Int) {n : Int} (hn : n < 2 ^ 31) (windows : List WmWindow)
    (hrange : ∀ w ∈ windows, w.zOrder < n) (z : Int) (hz : 0 ≤ z ∧ z ≤ n) :
    let top := windows.foldl (fun z w =>
      if w.id ≠ id ∧ w.visible ∧ w.zOrder ≥ z then int32 (w.zOrder + 1) else z) z
    (z ≤ top ∧ top ≤ n) ∧ ∀ w ∈ windows, w.id ≠ id → w.visible = true → w.zOrder < top := by
  induction windows generalizing z with
  | nil => exact ⟨⟨Int.le_refl z, hz.2⟩, fun w hw => nomatch hw⟩
  | cons w windows ih =>
    have hlow := hrange w List.mem_cons_self
    have hstep : ∃ z', (if w.id ≠ id ∧ w.visible ∧ w.zOrder ≥ z then int32 (w.zOrder + 1) else z) = z' ∧
        (z ≤ z' ∧ z' ≤ n) ∧ (w.id ≠ id → w.visible = true → w.zOrder < z') := by
      refine ⟨_, rfl, ?_⟩
      split
      · rename_i hask
        rw [int32_small (by omega)]
        omega
      · rename_i hask
        refine ⟨⟨Int.le_refl z, hz.2⟩, fun hid hvisible => ?_⟩
        by_contra hno
        exact hask ⟨hid, hvisible, by omega⟩
    obtain ⟨z', heq, hz', hw⟩ := hstep
    obtain ⟨hle, hall⟩ := ih (fun v hv => hrange v (List.mem_cons_of_mem w hv)) z' (by omega)
    dsimp only
    rw [List.foldl_cons, heq]
    refine ⟨⟨by omega, hle.2⟩, fun v hv hid hvisible => ?_⟩
    rcases List.mem_cons.mp hv with rfl | hv
    · have := hw hid hvisible
      omega
    · exact hall v hv hid hvisible

def Manager.Stacked (wm : Manager) : Prop := Ui.Stacked (wm.windows.map WmWindow.card) wm.nextWindowId

/-- Nothing about the order is different. -/
structure SameStack (wm wm' : Manager) : Prop where
  cards : wm'.windows.map WmWindow.card = wm.windows.map WmWindow.card
  next : wm'.nextWindowId = wm.nextWindowId

theorem SameStack.refl (wm : Manager) : SameStack wm wm := ⟨rfl, rfl⟩

theorem SameStack.trans {wm'' : Manager} (h : SameStack wm wm') (h' : SameStack wm' wm'') :
    SameStack wm wm'' := ⟨h'.cards.trans h.cards, h'.next.trans h.next⟩

theorem SameStack.stacked (h : SameStack wm wm') (hs : wm.Stacked) : wm'.Stacked := by
  unfold Manager.Stacked
  rw [h.cards, h.next]
  exact hs

theorem sameStack_modifyWindow {f : WmWindow → WmWindow} (hf : ∀ w, (f w).card = w.card) (i : Nat) :
    SameStack wm (wm.modifyWindow i f) := ⟨map_modify hf _ i, rfl⟩

theorem sameStack_setActiveWindow (id : Int) : SameStack wm (setActiveWindow wm id) := by
  refine ⟨?_, rfl⟩
  unfold setActiveWindow
  dsimp only
  rw [List.map_map]
  rfl

theorem createWindowEx_stacked (h : wm.Stacked) (hnext : wm.nextWindowId < 2 ^ 31 - 1)
    (bounds : Rect) (hasClose hasMinimize hasMaximize : Bool) :
    (createWindowEx wm bounds hasClose hasMinimize hasMaximize).1.Stacked := by
  unfold createWindowEx
  split
  · exact h
  rename_i slot hfree
  obtain ⟨hslot, hvacant⟩ := freeSlot_some hfree
  dsimp only
  refine (sameStack_setActiveWindow _).stacked ?_
  rw [set_putSlot hslot]
  generalize hentry : (⟨wm.nextWindowId, ⟨bounds, bounds, false, hasClose, hasMinimize, hasMaximize,
    false, false⟩, true, 0⟩ : WmWindow) = entry
  have hid : entry.id = wm.nextWindowId := by rw [← hentry]
  have hzero : entry.zOrder = 0 := by rw [← hentry]
  have hpos : 0 < wm.nextWindowId := by
    have := h.count
    omega
  -- What the scan finds out about the windows that were there, it finds out about all cards.
  obtain ⟨hrange, habove⟩ := foldl_top wm.nextWindowId (n := wm.nextWindowId) (by omega)
    (putSlot wm.windows slot entry) (fun w hw => by
      rcases mem_putSlot hslot hw with rfl | hold
      · omega
      · exact (h.range w.card (List.mem_map_of_mem hold)).2) 0 (by omega)
  have hplace : slot ≤ (wm.windows.map WmWindow.card).length := by simpa using hslot
  have hadd := Ui.Stacked.add h hnext hplace hrange (fun c hc hlive => by
    obtain ⟨w, hw, rfl⟩ := List.mem_map.mp hc
    refine habove w (mem_putSlot_of_mem hslot hw (fun he => hlive.1 (hvacant w he))) ?_ hlive.2
    exact fun he => absurd (h.below w.card hc) (by rw [show w.card.id = _ from he]; omega))
  unfold Manager.Stacked
  dsimp only
  rw [map_putSlot, int32_small (by omega)]
  exact hadd

theorem cards_modify (windows : List WmWindow) (f : WmWindow → WmWindow) (i j : Nat) :
    ((windows.modify i f).map WmWindow.card)[j]? =
      if i = j then windows[j]?.map (fun w => (f w).card) else (windows.map WmWindow.card)[j]? := by
  rw [List.getElem?_map, List.getElem?_modify, List.getElem?_map]
  cases windows[j]? with
  | none => simp
  | some w => by_cases hj : i = j <;> simp [hj]

theorem clearWindow_stacked (h : wm.Stacked) (id : Int) : (clearWindow wm id).Stacked := by
  unfold clearWindow
  split
  · exact h
  · refine Ui.Stacked.free h (by simp [Manager.modifyWindow]) (fun j c hc => ?_)
    dsimp only [Manager.modifyWindow] at hc
    rw [cards_modify] at hc
    split at hc
    · obtain ⟨w, _, rfl⟩ := Option.map_eq_some_iff.mp hc
      exact .inr rfl
    · exact .inl hc

theorem closeWindow_stacked (h : wm.Stacked) (id : Int) : (closeWindow wm id).Stacked := by
  have hcontrols : SameStack (clearWindow wm id) (clearControls (clearWindow wm id) id) := ⟨rfl, rfl⟩
  have hcleared := hcontrols.stacked (clearWindow_stacked h id)
  unfold closeWindow
  dsimp only
  generalize clearControls (clearWindow wm id) id = v at hcleared
  have hactive : (if wm.activeWindowId = id then setActiveWindow v (topVisibleWindowId v)
      else v).Stacked := by
    split
    · exact (sameStack_setActiveWindow _).stacked hcleared
    · exact hcleared
  generalize (if wm.activeWindowId = id then setActiveWindow v (topVisibleWindowId v) else v) = u
    at hactive
  split
  · have hpressed : SameStack u { u with
        pressedWindowId := 0, pressedHitClose := false, pressedHitMinimize := false
        pressedHitMaximize := false } := ⟨rfl, rfl⟩
    exact hpressed.stacked hactive
  · exact hactive

/-! ## New numbers -/

theorem lowestUndrawn_some {windows : List WmWindow} {i : Nat}
    (h : lowestUndrawn windows drawn = some i) :
    ∃ c, (windows.map WmWindow.card)[i]? = some c ∧ c.Live ∧ i ∉ drawn ∧
      ∀ (j : Nat) (e : Card), (windows.map WmWindow.card)[j]? = some e → e.Live → j ∉ drawn →
        c.z ≤ e.z := by
  obtain ⟨w, hw, hskip, hmin⟩ := lowest_some
    (fun w : WmWindow × Nat => w.2 ∈ drawn ∨ w.1.id = 0 ∨ ¬ w.1.visible) WmWindow.zOrder h
  simp only [not_or, not_not] at hskip
  refine ⟨w.card, by rw [List.getElem?_map, hw]; rfl, hskip.2, hskip.1, fun j e he hlive hj => ?_⟩
  rw [List.getElem?_map] at he
  obtain ⟨v, hv, rfl⟩ := Option.map_eq_some_iff.mp he
  exact hmin j v hv (by simpa only [not_or, not_not] using ⟨hj, hlive⟩)

theorem lowestUndrawn_none {windows : List WmWindow}
    (h : lowestUndrawn windows drawn = none) {j : Nat} {e : Card}
    (he : (windows.map WmWindow.card)[j]? = some e) (hlive : e.Live) : j ∈ drawn := by
  rw [List.getElem?_map] at he
  obtain ⟨v, hv, rfl⟩ := Option.map_eq_some_iff.mp he
  rcases lowest_none (fun w : WmWindow × Nat => w.2 ∈ drawn ∨ w.1.id = 0 ∨ ¬ w.1.visible) WmWindow.zOrder
    h hv with hj | hid | hvisible
  · exact hj
  · exact absurd hid hlive.1
  · exact absurd hlive.2 hvisible

/-- The windows that are there, but for those of `drawn`, got new numbers in their old order. -/
structure Renumbered (drawn : List Nat) (n : Nat) (cards cards' : List Card) : Prop where
  names : cards'.map Card.name = cards.map Card.name
  kept : ∀ (i : Nat) (c : Card), cards[i]? = some c → (¬ c.Live ∨ i ∈ drawn) → cards'[i]? = some c
  range : ∀ (i : Nat) (c : Card), cards'[i]? = some c → c.Live → i ∉ drawn →
    (drawn.length : Int) ≤ c.z ∧ c.z < drawn.length + n
  order : ∀ (i j : Nat) (c e c' e' : Card), cards[i]? = some c → cards[j]? = some e →
    cards'[i]? = some c' → cards'[j]? = some e' → c.Live → e.Live → i ∉ drawn → j ∉ drawn →
    c.z < e.z → c'.z < e'.z

theorem named (h : cards'.map Card.name = cards.map Card.name) {i : Nat} {c' : Card}
    (hc : cards'[i]? = some c') :
    ∃ c, cards[i]? = some c ∧ c'.id = c.id ∧ (c'.Live ↔ c.Live) := by
  have hname : (cards.map Card.name)[i]? = some c'.name := by
    rw [← h, List.getElem?_map, hc]
    rfl
  rw [List.getElem?_map] at hname
  obtain ⟨c, hc, he⟩ := Option.map_eq_some_iff.mp hname
  have hid : c.id = c'.id := congrArg Prod.fst he
  have hvisible : c.visible = c'.visible := congrArg Prod.snd he
  refine ⟨c, hc, hid.symm, ?_⟩
  unfold Card.Live
  rw [hid, hvisible]

theorem renumbered_none {n : Nat}
    (hall : ∀ (i : Nat) (c : Card), cards[i]? = some c → c.Live → i ∈ drawn) :
    Renumbered drawn n cards cards :=
  ⟨rfl, fun _ _ hc _ => hc, fun i c hc hlive hi => absurd (hall i c hc hlive) hi,
    fun i _ c _ _ _ hc _ _ _ hlive _ hi _ _ => absurd (hall i c hc hlive) hi⟩

theorem renumbered_from (n : Nat) : ∀ (drawn : List Nat) (wm : Manager), drawn.Nodup →
    (∀ i ∈ drawn, i < wm.windows.length) → wm.windows.length ≤ n + drawn.length →
    Renumbered drawn n (wm.windows.map WmWindow.card)
      ((normalizeFrom n drawn wm).windows.map WmWindow.card) := by
  induction n with
  | zero =>
    intro drawn wm hnodup hlt hlen
    refine renumbered_none (fun i c hc _ => exhausts hnodup hlt (by omega) (n := wm.windows.length) ?_)
    simpa using (List.getElem?_eq_some_iff.mp hc).1
  | succ n ih =>
    intro drawn wm hnodup hlt hlen
    unfold normalizeFrom
    split
    · rename_i hnone
      exact renumbered_none (fun i c hc hlive => lowestUndrawn_none hnone hc hlive)
    rename_i best hbest
    obtain ⟨b, hb, hlive, hfresh, hmin⟩ := lowestUndrawn_some hbest
    have hplace : best < wm.windows.length := by simpa using (List.getElem?_eq_some_iff.mp hb).1
    generalize hv : wm.modifyWindow best (fun w => { w with zOrder := drawn.length }) = v
    have hvlen : v.windows.length = wm.windows.length := by
      rw [← hv]
      exact List.length_modify ..
    have hmod : ∀ j, (v.windows.map WmWindow.card)[j]? =
        if best = j then some { b with z := drawn.length }
        else (wm.windows.map WmWindow.card)[j]? := by
      intro j
      rw [← hv]
      refine (cards_modify wm.windows _ best j).trans ?_
      split
      · rename_i hj
        subst hj
        rw [List.getElem?_map] at hb
        obtain ⟨w, hw, rfl⟩ := Option.map_eq_some_iff.mp hb
        rw [hw]
        rfl
      · rfl
    have hrest := ih (best :: drawn) v (List.nodup_cons.mpr ⟨hfresh, hnodup⟩) (fun i hi => by
      rw [hvlen]
      rcases List.mem_cons.mp hi with rfl | hi
      · exact hplace
      · exact hlt i hi) (by rw [hvlen, List.length_cons]; omega)
    generalize (normalizeFrom n (best :: drawn) v).windows.map WmWindow.card = cards' at hrest ⊢
    generalize v.windows.map WmWindow.card = cards₁ at hrest hmod
    generalize wm.windows.map WmWindow.card = cards at hb hmin hmod ⊢
    have hlenCons : ((best :: drawn).length : Int) = drawn.length + 1 := by simp
    have hnew : cards'[best]? = some { b with z := drawn.length } :=
      hrest.kept best _ (by rw [hmod, if_pos rfl]) (.inr List.mem_cons_self)
    have hother : ∀ {i : Nat}, i ≠ best → i ∉ drawn → i ∉ best :: drawn :=
      fun hi hd => List.not_mem_cons_of_ne_of_not_mem hi hd
    refine ⟨?_, fun i c hc hkeep => ?_, fun i c hc hl hi => ?_,
      fun i j c e c' e' hc he hc' he' hl hl' hi hj hz => ?_⟩
    · rw [hrest.names]
      refine List.ext_getElem? (fun j => ?_)
      rw [List.getElem?_map, List.getElem?_map, hmod]
      split
      · rename_i hj
        rw [← hj, hb]
        rfl
      · rfl
    · have hne : i ≠ best := by
        rintro rfl
        rcases hkeep with hno | hd
        · exact hno (Option.some.inj (hb.symm.trans hc) ▸ hlive)
        · exact hfresh hd
      refine hrest.kept i c (by rw [hmod, if_neg (Ne.symm hne)]; exact hc) ?_
      exact hkeep.imp_right (List.mem_cons_of_mem best)
    · by_cases hne : i = best
      · subst hne
        obtain rfl := Option.some.inj (hnew.symm.trans hc)
        push_cast
        omega
      · have := hrest.range i c hc hl (hother hne hi)
        push_cast at this ⊢
        omega
    · by_cases hib : i = best
      · subst hib
        have hjb : j ≠ i := by
          rintro rfl
          obtain rfl := Option.some.inj (hc.symm.trans he)
          omega
        obtain rfl := Option.some.inj (hnew.symm.trans hc')
        obtain ⟨e₁, he₁, _, hiff⟩ := named hrest.names he'
        rw [hmod, if_neg (Ne.symm hjb)] at he₁
        obtain rfl := Option.some.inj (he.symm.trans he₁)
        have := hrest.range j e' he' (hiff.mpr hl') (hother hjb hj)
        dsimp only
        omega
      · by_cases hjb : j = best
        · subst hjb
          obtain rfl := Option.some.inj (hb.symm.trans he)
          have := hmin i c hc hl hi
          omega
        · exact hrest.order i j c e c' e' (by rw [hmod, if_neg (Ne.symm hib)]; exact hc)
            (by rw [hmod, if_neg (Ne.symm hjb)]; exact he) hc' he' hl hl' (hother hib hi)
            (hother hjb hj) hz

theorem renumbered (wm : Manager) : Renumbered [] wm.windows.length (wm.windows.map WmWindow.card)
    ((normalizeZOrder wm).windows.map WmWindow.card) :=
  renumbered_from wm.windows.length [] wm List.nodup_nil (fun _ hi => nomatch hi) (Nat.le_refl _)

/-- The window at `target` is above all others now, which are in their old order. -/
structure Raises (target : Nat) (cards cards' : List Card) : Prop where
  names : cards'.map Card.name = cards.map Card.name
  kept : ∀ (i : Nat) (c : Card), cards[i]? = some c → ¬ c.Live → i ≠ target → cards'[i]? = some c
  range : ∀ (i : Nat) (c : Card), cards'[i]? = some c → c.Live → 0 ≤ c.z ∧ c.z ≤ cards.length
  top : ∀ (j : Nat) (t e : Card), cards'[target]? = some t → cards'[j]? = some e → e.Live →
    j ≠ target → e.z < t.z
  order : ∀ (i j : Nat) (c e c' e' : Card), cards[i]? = some c → cards[j]? = some e →
    cards'[i]? = some c' → cards'[j]? = some e' → c.Live → e.Live → i ≠ target → j ≠ target →
    c.z < e.z → c'.z < e'.z

/-- The scan for the highest number. -/
theorem foldl_max (bound : Int) (windows : List WmWindow)
    (hbound : ∀ w ∈ windows, w.card.Live → w.zOrder ≤ bound) (z : Int) (hz : z ≤ bound) :
    let top := windows.foldl (fun z w =>
      if w.id = 0 ∨ ¬ w.visible then z else if w.zOrder > z then w.zOrder else z) z
    (z ≤ top ∧ top ≤ bound) ∧ ∀ w ∈ windows, w.card.Live → w.zOrder ≤ top := by
  induction windows generalizing z with
  | nil => exact ⟨⟨Int.le_refl z, hz⟩, fun w hw => nomatch hw⟩
  | cons w windows ih =>
    have hstep : ∃ z', (if w.id = 0 ∨ ¬ w.visible then z else if w.zOrder > z then w.zOrder else z) =
        z' ∧ (z ≤ z' ∧ z' ≤ bound) ∧ (w.card.Live → w.zOrder ≤ z') := by
      refine ⟨_, rfl, ?_⟩
      split
      · rename_i hskip
        refine ⟨⟨Int.le_refl z, hz⟩, fun hlive => ?_⟩
        rcases hskip with hid | hvisible
        · exact absurd hid hlive.1
        · exact absurd hlive.2 hvisible
      · rename_i hlive
        simp only [not_or, not_not] at hlive
        have := hbound w List.mem_cons_self hlive
        split <;> omega
    obtain ⟨z', heq, hz', hw⟩ := hstep
    obtain ⟨hle, hall⟩ := ih (fun v hv => hbound v (List.mem_cons_of_mem w hv)) z' hz'.2
    dsimp only
    rw [List.foldl_cons, heq]
    refine ⟨⟨by omega, hle.2⟩, fun v hv hlive => ?_⟩
    rcases List.mem_cons.mp hv with rfl | hv
    · have := hw hlive
      omega
    · exact hall v hv hlive

/-- `ui_wm_bring_to_front`. -/
theorem raises (hlen : (wm.windows.length : Int) < 2 ^ 31) {id : Int} {target : Nat}
    (hfind : findWindow wm id = some target) :
    Raises target (wm.windows.map WmWindow.card) ((bringToFront wm id).windows.map WmWindow.card) := by
  have hnew := renumbered wm
  have hcount : (normalizeZOrder wm).windows.length = wm.windows.length := by
    simpa using congrArg List.length hnew.names
  have hlive : ∀ w ∈ (normalizeZOrder wm).windows, w.card.Live →
      0 ≤ w.zOrder ∧ w.zOrder ≤ wm.windows.length - 1 := by
    intro w hw hlive
    obtain ⟨i, hi⟩ := List.mem_iff_getElem?.mp hw
    have := hnew.range i w.card (by rw [List.getElem?_map, hi]; rfl) hlive (List.not_mem_nil)
    simp only [List.length_nil, Nat.cast_zero, zero_add] at this
    change 0 ≤ w.zOrder ∧ w.zOrder < wm.windows.length at this
    omega
  obtain ⟨hrange, hmax⟩ := foldl_max (wm.windows.length - 1) (normalizeZOrder wm).windows
    (fun w hw hl => (hlive w hw hl).2) (-1) (by omega)
  unfold bringToFront
  rw [hfind]
  dsimp only
  generalize (normalizeZOrder wm).windows.foldl (fun z w =>
    if w.id = 0 ∨ ¬ w.visible then z else if w.zOrder > z then w.zOrder else z) (-1) = top
    at hrange hmax
  rw [(sameStack_setActiveWindow id).cards, int32_small (by omega)]
  have hmod := cards_modify (normalizeZOrder wm).windows (fun w => { w with zOrder := top + 1 }) target
  generalize hcards' : ((normalizeZOrder wm).modifyWindow target (fun w =>
    { w with zOrder := top + 1 })).windows.map WmWindow.card = cards'
  have hmod : ∀ j, cards'[j]? = if target = j then
      (normalizeZOrder wm).windows[j]?.map (fun w => { w.card with z := top + 1 })
      else ((normalizeZOrder wm).windows.map WmWindow.card)[j]? := fun j => by
    rw [← hcards']
    exact hmod j
  have hother : ∀ {j : Nat}, j ≠ target →
      cards'[j]? = ((normalizeZOrder wm).windows.map WmWindow.card)[j]? :=
    fun hj => (hmod _).trans (if_neg (Ne.symm hj))
  have hlow : ∀ {j : Nat} {e : Card}, cards'[j]? = some e → e.Live → j ≠ target →
      0 ≤ e.z ∧ e.z ≤ top := by
    intro j e he hl hj
    rw [hother hj, List.getElem?_map] at he
    obtain ⟨w, hw, rfl⟩ := Option.map_eq_some_iff.mp he
    have hw := List.mem_of_getElem? hw
    exact ⟨(hlive w hw hl).1, hmax w hw hl⟩
  have htarget : ∀ {t : Card}, cards'[target]? = some t → t.z = top + 1 := by
    intro t ht
    rw [hmod, if_pos rfl] at ht
    obtain ⟨w, _, rfl⟩ := Option.map_eq_some_iff.mp ht
    rfl
  refine ⟨?_, fun i c hc hno hi => ?_, fun i c hc hl => ?_, fun j t e ht he hl hj => ?_,
    fun i j c e c' e' hc he hc' he' hl hl' hi hj hz => ?_⟩
  · rw [← hnew.names]
    refine List.ext_getElem? (fun j => ?_)
    rw [List.getElem?_map, List.getElem?_map, hmod]
    split
    · rename_i hj
      rw [List.getElem?_map, Option.map_map, Option.map_map]
      rfl
    · rfl
  · rw [hother hi]
    exact hnew.kept i c hc (.inl hno)
  · rw [List.length_map]
    by_cases hi : i = target
    · subst hi
      rw [htarget hc]
      omega
    · have := hlow hc hl hi
      omega
  · rw [htarget ht]
    have := hlow he hl hj
    omega
  · rw [hother hi] at hc'
    rw [hother hj] at he'
    exact hnew.order i j c e c' e' hc he hc' he' hl hl' List.not_mem_nil List.not_mem_nil hz

/-- A window on top is still apart from the others. -/
theorem Stacked.raise (h : Stacked cards next) {target : Nat}
    (ht : ∀ c, cards[target]? = some c → c.id ≠ 0) (hr : Raises target cards cards') :
    Stacked cards' next := by
  have hlen : cards'.length = cards.length := by simpa using congrArg List.length hr.names
  have hcount := h.count
  have hids : cards'.map Card.id = cards.map Card.id := by
    have hfst := congrArg (List.map Prod.fst) hr.names
    rwa [List.map_map, List.map_map] at hfst
  have hshown : ∀ c ∈ cards', c.id < next ∧ c.visible = decide (c.id ≠ 0) := by
    intro c hc
    obtain ⟨i, hi⟩ := List.mem_iff_getElem?.mp hc
    have hname : (cards.map Card.name)[i]? = some c.name := by
      rw [← hr.names, List.getElem?_map, hi]
      rfl
    rw [List.getElem?_map] at hname
    obtain ⟨e, he, hname⟩ := Option.map_eq_some_iff.mp hname
    have hid : e.id = c.id := congrArg Prod.fst hname
    have hvisible : e.visible = c.visible := congrArg Prod.snd hname
    rw [← hid, ← hvisible]
    exact ⟨h.below e (List.mem_of_getElem? he), h.shown e (List.mem_of_getElem? he)⟩
  have hlive : ∀ c ∈ cards', c.id ≠ 0 → c.Live := fun c hc hid =>
    ⟨hid, by rw [(hshown c hc).2]; simpa using hid⟩
  refine ⟨h.bound, by rw [hlen]; exact hcount, by rw [hids]; exact h.ids, fun c hc => (hshown c hc).1,
    fun c hc => (hshown c hc).2, fun c hc => ?_, fun i j c e hc he hcid heid hz => ?_⟩
  · obtain ⟨i, hi⟩ := List.mem_iff_getElem?.mp hc
    by_cases hl : c.Live
    · have := hr.range i c hi hl
      omega
    · obtain ⟨e, he, hid, hiff⟩ := named hr.names hi
      have hne : i ≠ target := by
        rintro rfl
        exact hl (hlive c hc (by rw [hid]; exact ht e he))
      have hsame := hr.kept i e he (fun hno => hl (hiff.mpr hno)) hne
      obtain rfl := Option.some.inj (hi.symm.trans hsame)
      exact h.range c (List.mem_of_getElem? he)
  · have hl := hlive c (List.mem_of_getElem? hc) hcid
    have hl' := hlive e (List.mem_of_getElem? he) heid
    by_contra hij
    by_cases hi : i = target
    · subst hi
      have := hr.top j c e hc he hl' (Ne.symm hij)
      omega
    by_cases hj : j = target
    · subst hj
      have := hr.top i e c he hc hl hi
      omega
    obtain ⟨c₀, hc₀, hid, hiff⟩ := named hr.names hc
    obtain ⟨e₀, he₀, hid', hiff'⟩ := named hr.names he
    rcases Int.lt_trichotomy c₀.z e₀.z with hlt | heq | hgt
    · have := hr.order i j c₀ e₀ c e hc₀ he₀ hc he (hiff.mp hl) (hiff'.mp hl') hi hj hlt
      omega
    · exact hij (h.apart i j c₀ e₀ hc₀ he₀ (by rwa [← hid]) (by rwa [← hid']) heq)
    · have := hr.order j i e₀ c₀ e c he₀ hc₀ he hc (hiff'.mp hl') (hiff.mp hl) hj hi hgt
      omega

theorem bringToFront_stacked (h : wm.Stacked) (id : Int) : (bringToFront wm id).Stacked := by
  cases hfind : findWindow wm id with
  | none =>
    unfold bringToFront
    rw [hfind]
    exact h
  | some target =>
    obtain ⟨hid, w, hw, hwid⟩ := findWindow_some hfind
    have hbound := h.bound
    have hcount := h.count
    rw [List.length_map] at hcount
    have hraise := Ui.Stacked.raise h (fun c hc => by
      rw [List.getElem?_map, hw] at hc
      obtain rfl := Option.some.inj hc
      show w.id ≠ 0
      rwa [hwid]) (raises (by omega) hfind)
    unfold Manager.Stacked
    have hsame : (bringToFront wm id).nextWindowId = wm.nextWindowId := by
      have hroster := @roster_bringToFront wm id
      rcases hroster with he | he <;> exact congrArg Roster.nextWindowId he
    rw [hsame]
    exact hraise

end Ui
end MiniDos
