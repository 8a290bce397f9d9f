import MiniDos.Lib.Ratio
import MiniDos.Ui.Gauges

/-!
# MiniDos.Ui.Scroll

The thumb of a scrollbar (`ui_draw.h`), and the mouse that holds it (`ui_wm.h`).

* `scrollbarThumbRect_spec`: where the thumb of a value is. `scrollbarValueFromThumb_spec`: the value
  of a place of the thumb.
* `thumb_roundTrip`: there and back.
-/

namespace MiniDos
namespace Ui

open Video Plane Transition Ratio

variable {c : Control} {r thumb : Rect} {y : Int}

/-! ## The thumb -/

/-- `range`. -/
def Control.range (c : Control) : Int := int32 (c.maxValue - c.minValue)

/-- `usable_h`: the steps that the thumb has on the track. -/
def usableH (r thumb : Rect) : Int := int32 ((scrollbarTrackRect r).h - thumb.h)

def Control.Thumb (c : Control) (r thumb : Rect) : Prop :=
  scrollbarThumbRect r c.minValue c.maxValue c.pageSize c.value = some thumb

def Control.Slides (c : Control) (r thumb : Rect) : Prop := 0 < c.range ∧ 0 < usableH r thumb

/-- The bounds are `int`s. No sum and no product of a scrollbar that slides leaves them. -/
structure Sized (c : Control) (r thumb : Rect) : Prop where
  low : FitsInt c.minValue
  high : FitsInt c.maxValue
  range : FitsInt (c.maxValue - c.minValue)
  track : c.Slides r thumb → (scrollbarTrackRect r).y + usableH r thumb < 2 ^ 31
  scale : c.Slides r thumb → c.range * usableH r thumb < 2 ^ 31

def thumbHeight (r : Rect) (range pageSize : Int) : Option Int :=
  (if 0 < pageSize then div32 (int32 ((scrollbarTrackRect r).h * pageSize)) (int32 (range + pageSize))
    else some scrollbarMinThumbH).map (fun h =>
      clamp scrollbarMinThumbH (scrollbarTrackRect r).h h)

/-- How far down it is, with `u` steps. -/
def thumbSteps (range u steps : Int) : Option Int :=
  if 0 < u ∧ 0 < range then div32 (int32 (int32 steps * u)) range else some 0

theorem scrollbarThumbRect_eq (r : Rect) (low high pageSize v : Int) :
    scrollbarThumbRect r low high pageSize v =
      if (scrollbarTrackRect r).h ≤ 0 then
        some ⟨(scrollbarTrackRect r).x, (scrollbarTrackRect r).y, (scrollbarTrackRect r).w, 0⟩
      else
        (thumbHeight r (int32 (high - low)) pageSize).bind (fun h =>
          (thumbSteps (int32 (high - low)) (int32 ((scrollbarTrackRect r).h - h))
            (clamp low high v - low)).map (fun pos =>
              ⟨(scrollbarTrackRect r).x, int32 ((scrollbarTrackRect r).y + pos),
                (scrollbarTrackRect r).w, h⟩)) := by
  unfold scrollbarThumbRect thumbHeight
  dsimp only
  by_cases hflat : (scrollbarTrackRect r).h ≤ 0
  · rw [if_pos hflat, if_pos hflat]
    rfl
  rw [if_neg hflat, if_neg hflat]
  have hrest : ∀ height : Int, (do
      let thumbH := if height < scrollbarMinThumbH then scrollbarMinThumbH else height
      let thumbH := if thumbH > (scrollbarTrackRect r).h then (scrollbarTrackRect r).h else thumbH
      let usableH := int32 ((scrollbarTrackRect r).h - thumbH)
      let pos ←
        if 0 < usableH ∧ 0 < int32 (high - low) then
          div32 (int32 (int32 (clamp low high v - low) * usableH)) (int32 (high - low))
        else some 0
      return (⟨(scrollbarTrackRect r).x, int32 ((scrollbarTrackRect r).y + pos),
        (scrollbarTrackRect r).w, thumbH⟩ : Rect)) =
      (thumbSteps (int32 (high - low))
        (int32 ((scrollbarTrackRect r).h - clamp scrollbarMinThumbH (scrollbarTrackRect r).h height))
        (clamp low high v - low)).map (fun pos =>
          ⟨(scrollbarTrackRect r).x, int32 ((scrollbarTrackRect r).y + pos), (scrollbarTrackRect r).w,
            clamp scrollbarMinThumbH (scrollbarTrackRect r).h height⟩) := fun height => by
    unfold thumbSteps
    by_cases hslides : 0 < int32 ((scrollbarTrackRect r).h -
        clamp scrollbarMinThumbH (scrollbarTrackRect r).h height) ∧ 0 < int32 (high - low)
    · rw [if_pos hslides, Option.map_eq_bind]
      exact if_pos hslides
    · rw [if_neg hslides]
      exact if_neg hslides
  by_cases hpage : 0 < pageSize
  · rw [if_pos hpage, if_pos hpage]
    cases div32 (int32 ((scrollbarTrackRect r).h * pageSize)) (int32 (int32 (high - low) + pageSize)) with
    | none => rfl
    | some height => exact hrest height
  · rw [if_neg hpage, if_neg hpage]
    exact hrest scrollbarMinThumbH

theorem scrollbarThumbRect_h {low high pageSize v : Int}
    (h : scrollbarThumbRect r low high pageSize v = some thumb) (v' : Int) :
    ∃ thumb', scrollbarThumbRect r low high pageSize v' = some thumb' ∧ thumb'.h = thumb.h := by
  rw [scrollbarThumbRect_eq] at h ⊢
  split at h
  · rename_i hflat
    cases h
    rw [if_pos hflat]
    exact ⟨_, rfl, rfl⟩
  rename_i hflat
  obtain ⟨height, hheight, h⟩ := Option.bind_eq_some_iff.mp h
  obtain ⟨pos, _, rfl⟩ := Option.map_eq_some_iff.mp h
  have hsteps : ∃ pos', thumbSteps (int32 (high - low)) (int32 ((scrollbarTrackRect r).h - height))
      (clamp low high v' - low) = some pos' := by
    unfold thumbSteps div32
    split
    · rw [if_neg (by omega)]
      exact ⟨_, rfl⟩
    · exact ⟨0, rfl⟩
  obtain ⟨pos', hsteps⟩ := hsteps
  rw [if_neg hflat, hheight, Option.bind_some, hsteps]
  exact ⟨_, rfl, rfl⟩

theorem trackH_fits (r : Rect) : FitsInt (scrollbarTrackRect r).h := int32_range _

theorem trackY_fits (r : Rect) : FitsInt (scrollbarTrackRect r).y := int32_range _

theorem Control.Thumb.slides (h : c.Thumb r thumb) (hslides : c.Slides r thumb) :
    usableH r thumb < 2 ^ 31 ∧ ∃ pos,
      div32 (int32 (int32 (clamp c.minValue c.maxValue c.value - c.minValue) * usableH r thumb))
        c.range = some pos ∧ thumb.y = int32 ((scrollbarTrackRect r).y + pos) := by
  have hu := int32_range ((scrollbarTrackRect r).h - thumb.h)
  unfold FitsInt at hu
  unfold Control.Thumb at h
  rw [scrollbarThumbRect_eq] at h
  split at h
  · rename_i hflat
    cases h
    have htrack := trackH_fits r
    have hslides := hslides.2
    unfold usableH at hslides
    dsimp only at hslides
    rw [Int.sub_zero, int32_of_fits htrack] at hslides
    omega
  · obtain ⟨height, _, h⟩ := Option.bind_eq_some_iff.mp h
    obtain ⟨pos, hpos, rfl⟩ := Option.map_eq_some_iff.mp h
    unfold thumbSteps at hpos
    rw [if_pos ⟨hslides.2, hslides.1⟩] at hpos
    exact ⟨hu.2, pos, hpos, rfl⟩

theorem Sized.range_eq (h : Sized c r thumb) : c.range = c.maxValue - c.minValue := int32_of_fits h.range

theorem scrollbarThumbRect_spec (h : c.Thumb r thumb) (hs : Sized c r thumb)
    (hslides : c.Slides r thumb) (hc : c.minValue ≤ c.value ∧ c.value ≤ c.maxValue) :
    thumb.y = (scrollbarTrackRect r).y + ((c.value - c.minValue) * usableH r thumb).tdiv c.range ∧
      0 ≤ ((c.value - c.minValue) * usableH r thumb).tdiv c.range ∧
      ((c.value - c.minValue) * usableH r thumb).tdiv c.range ≤ usableH r thumb := by
  obtain ⟨_, pos, hpos, hy⟩ := h.slides hslides
  obtain ⟨hrange, hu⟩ := hslides
  have heq := hs.range_eq
  have hscale := hs.scale ⟨hrange, hu⟩
  have htrack := hs.track ⟨hrange, hu⟩
  have hfits := hs.range
  have hlow := trackY_fits r
  unfold FitsInt at hfits hlow
  have hle : (c.value - c.minValue) * usableH r thumb ≤ c.range * usableH r thumb :=
    Int.mul_le_mul_of_nonneg_right (by omega) (by omega)
  have hpos' : 0 ≤ (c.value - c.minValue) * usableH r thumb := Int.mul_nonneg (by omega) (by omega)
  rw [clamp_self hc, int32_of_fits (n := c.value - c.minValue) ⟨by omega, by omega⟩,
    int32_of_fits ⟨by omega, by omega⟩] at hpos
  unfold div32 at hpos
  rw [if_neg (by omega)] at hpos
  obtain rfl := Option.some.inj hpos
  have hbounds := tdiv_range (k := usableH r thumb) hpos' hrange (by rw [Int.mul_comm _ c.range]; exact hle)
  rw [hy, int32_of_fits ⟨by omega, by omega⟩]
  exact ⟨rfl, hbounds⟩

/-! ## The value of a place -/

/-- The steps from the upper end of the track to where the pointer holds the thumb. -/
def travel (c : Control) (r thumb : Rect) (y : Int) : Int :=
  clamp 0 (usableH r thumb) (int32 (y - c.dragOffset) - (scrollbarTrackRect r).y)

theorem scrollbarValueFromThumb_eq (h : c.Thumb r thumb) (y : Int) :
    scrollbarValueFromThumb c r y =
      if c.range ≤ 0 ∨ usableH r thumb ≤ 0 then some c.minValue
      else
        (div32 (int32 (int32 (clamp (scrollbarTrackRect r).y
            (int32 ((scrollbarTrackRect r).y + usableH r thumb)) (int32 (y - c.dragOffset)) -
          (scrollbarTrackRect r).y) * c.range)) (usableH r thumb)).map
            (fun steps => int32 (c.minValue + steps)) := by
  unfold scrollbarValueFromThumb
  rw [show scrollbarThumbRect r c.minValue c.maxValue c.pageSize c.value = some thumb from h,
    Option.map_eq_bind]
  rfl

theorem scrollbarValueFromThumb_stuck (h : c.Thumb r thumb) (hstuck : ¬ c.Slides r thumb) (y : Int) :
    scrollbarValueFromThumb c r y = some c.minValue := by
  rw [scrollbarValueFromThumb_eq h]
  unfold Control.Slides at hstuck
  exact if_pos (by omega)

theorem travel_range (hslides : c.Slides r thumb) (y : Int) :
    0 ≤ travel c r thumb y ∧ travel c r thumb y ≤ usableH r thumb :=
  clamp_range (Int.le_of_lt hslides.2)

theorem travel_eq (hs : Sized c r thumb) (hslides : c.Slides r thumb) (y : Int) :
    clamp (scrollbarTrackRect r).y (int32 ((scrollbarTrackRect r).y + usableH r thumb))
      (int32 (y - c.dragOffset)) - (scrollbarTrackRect r).y = travel c r thumb y := by
  have htrack := hs.track hslides
  have hu := hslides.2
  have hy := trackY_fits r
  unfold FitsInt at hy
  rw [int32_of_fits ⟨by omega, by omega⟩]
  unfold travel clamp
  dsimp only
  split <;> split <;> split <;> split <;> omega

theorem scrollbarValueFromThumb_spec (h : c.Thumb r thumb) (hs : Sized c r thumb)
    (hslides : c.Slides r thumb) (y : Int) :
    scrollbarValueFromThumb c r y =
        some (c.minValue + (travel c r thumb y * c.range).tdiv (usableH r thumb)) ∧
      0 ≤ (travel c r thumb y * c.range).tdiv (usableH r thumb) ∧
      (travel c r thumb y * c.range).tdiv (usableH r thumb) ≤ c.range := by
  obtain ⟨hsmall, _⟩ := h.slides hslides
  have hscale := hs.scale hslides
  have hrange := hslides.1
  have hu := hslides.2
  have heq := hs.range_eq
  have hlow := hs.low
  have hhigh := hs.high
  obtain ⟨hfirst, hlast⟩ := travel_range hslides y
  unfold FitsInt at hlow hhigh
  rw [scrollbarValueFromThumb_eq h, travel_eq hs hslides]
  generalize travel c r thumb y = t at hfirst hlast ⊢
  have hpos : 0 ≤ t * c.range := Int.mul_nonneg hfirst (Int.le_of_lt hrange)
  have hle : t * c.range ≤ c.range * usableH r thumb := by
    rw [Int.mul_comm c.range]
    exact Int.mul_le_mul_of_nonneg_right hlast (Int.le_of_lt hrange)
  have hsteps := tdiv_range hpos hu hle
  rw [if_neg (by omega), int32_of_fits (n := t) ⟨by omega, by omega⟩,
    int32_of_fits (n := t * c.range) ⟨by omega, by omega⟩]
  unfold div32
  rw [if_neg (by omega), Option.map_some, int32_of_fits ⟨by omega, by omega⟩]
  exact ⟨rfl, hsteps⟩

/-- From the value to the thumb and back. -/
theorem thumb_roundTrip (h : c.Thumb r thumb) (hs : Sized c r thumb)
    (hc : c.minValue ≤ c.value ∧ c.value ≤ c.maxValue) {y : Int}
    (hy : int32 (y - c.dragOffset) = thumb.y) :
    scrollbarValueFromThumb c r y = some c.value ↔
      c.value = c.minValue ∨
        0 < usableH r thumb ∧ c.range ∣ (c.value - c.minValue) * usableH r thumb := by
  by_cases hslides : c.Slides r thumb
  · obtain ⟨hthumb, hlow, hhigh⟩ := scrollbarThumbRect_spec h hs hslides hc
    have htravel : travel c r thumb y =
        ((c.value - c.minValue) * usableH r thumb).tdiv c.range := by
      unfold travel
      rw [hy, hthumb, clamp_self (by omega)]
      omega
    rw [(scrollbarValueFromThumb_spec h hs hslides y).1, htravel, Option.some_inj]
    have hback := scaled_back_iff (k := c.value - c.minValue) (by omega) hslides.1 hslides.2
    constructor
    · intro hvalue
      exact .inr ⟨hslides.2, hback.mp (by omega)⟩
    · rintro (hmin | ⟨_, hdvd⟩)
      · have := hback.mpr (by rw [hmin, Int.sub_self, Int.zero_mul]; exact Int.dvd_zero _)
        omega
      · have := hback.mpr hdvd
        omega
  · rw [scrollbarValueFromThumb_stuck h hslides, Option.some_inj]
    constructor
    · exact fun hmin => .inl hmin.symm
    · rintro (hmin | ⟨hu, hdvd⟩)
      · exact hmin.symm
      · -- The range is empty.
        have heq := hs.range_eq
        unfold Control.Slides at hslides
        omega

end Ui
end MiniDos
