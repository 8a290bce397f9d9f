import Mathlib.Data.List.Induction
import MiniDos.Lib.Plane
import MiniDos.Lib.Cover
import MiniDos.Ui.Paint

/-!
# MiniDos.Ui.Damage

`ui_rect_subtract` and the dirty lists of `ui_rect.h`.

* `rectSubtract_exact`: what is left of a rectangle, in pieces that do not meet.
* `dirty_covers`: a dirty list covers what was added to it.
-/

namespace MiniDos
namespace Ui

open Video Plane Rect

/-! ## A rectangle less another -/

def putResult (maxRects : Int) (keep : Prop) [Decidable keep] (r : Rect) (out : List Rect) : List Rect :=
  if keep ∧ (out.length : Int) < maxRects then out ++ [r] else out

/-- `ui_rect_subtract`: the results, of which there are at most `maxRects`. -/
def rectSubtract (rect cutout : Rect) (maxRects : Int) : List Rect :=
  if maxRects ≤ 0 ∨ rectIsEmpty rect = true then []
  else
    let overlap := rectIntersect rect cutout
    if rectIsEmpty overlap = true then [rect]
    else
      let rectRight := int32 (rect.x + rect.w)
      let rectBottom := int32 (rect.y + rect.h)
      let overlapRight := int32 (overlap.x + overlap.w)
      let overlapBottom := int32 (overlap.y + overlap.h)
      let out := putResult maxRects (overlap.y > rect.y)
        ⟨rect.x, rect.y, rect.w, int32 (overlap.y - rect.y)⟩ []
      let out := putResult maxRects (overlapBottom < rectBottom)
        ⟨rect.x, overlapBottom, rect.w, int32 (rectBottom - overlapBottom)⟩ out
      let out := putResult maxRects (overlap.x > rect.x)
        ⟨rect.x, overlap.y, int32 (overlap.x - rect.x), overlap.h⟩ out
      putResult maxRects (overlapRight < rectRight)
        ⟨overlapRight, overlap.y, int32 (rectRight - overlapRight), overlap.h⟩ out

variable {rect cutout : Rect} {px py : Int}

theorem putResult_solid {maxRects : Int} {keep : Prop} [Decidable keep] {r : Rect} {offered : List Rect}
    (hkeep : keep ↔ r.Solid) (hroom : (offered.length : Int) < maxRects) :
    putResult maxRects keep r (offered.filter (fun s => s.Solid)) =
      (offered ++ [r]).filter (fun s => s.Solid) := by
  have hlength := List.length_filter_le (fun s : Rect => decide s.Solid) offered
  unfold putResult
  by_cases hsolid : r.Solid
  · rw [if_pos ⟨hkeep.mpr hsolid, by omega⟩]
    simp [List.filter_append, hsolid]
  · rw [if_neg (fun h => hsolid (hkeep.mp h.1))]
    simp [List.filter_append, hsolid]

theorem rectIntersect_common (hr : Unwrapped rect) (hc : Unwrapped cutout)
    (hmeet : ¬ rectIsEmpty (rectIntersect rect cutout) = true) :
    (rectIntersect rect cutout).Solid ∧ rect.Covers (rectIntersect rect cutout) ∧
      ∀ px py, (rectIntersect rect cutout).Has px py ↔ rect.Has px py ∧ cutout.Has px py := by
  rw [rectIsEmpty_iff, not_not] at hmeet
  refine ⟨hmeet, ?_⟩
  rw [rectIntersect_unwrapped hr hc] at hmeet ⊢
  split at hmeet
  · exact absurd hmeet.1 (Int.lt_irrefl 0)
  · rename_i hgap
    rw [if_neg hgap]
    refine ⟨?_, fun px py => ?_⟩
    · unfold Covers
      rw [ofCorners_right, ofCorners_bottom]
      unfold ofCorners
      dsimp only
      omega
    · rw [ofCorners_has]
      unfold Has
      omega

theorem rectIntersect_empty (hr : Unwrapped rect) (hc : Unwrapped cutout)
    (hmeet : rectIsEmpty (rectIntersect rect cutout) = true) (hp : rect.Has px py) : ¬ cutout.Has px py := by
  rw [rectIsEmpty_iff, rectIntersect_unwrapped hr hc] at hmeet
  unfold Has at hp ⊢
  split at hmeet
  · omega
  · unfold Solid ofCorners at hmeet
    dsimp only at hmeet
    omega

/-- With room for four results they are the bands around what is cut out. -/
theorem rectSubtract_eq (hr : Unwrapped rect) (hc : Unwrapped cutout) (hsolid : rect.Solid) {maxRects : Int}
    (hroom : 4 ≤ maxRects) (hmeet : ¬ rectIsEmpty (rectIntersect rect cutout) = true) :
    rectSubtract rect cutout maxRects = carve rect (rectIntersect rect cutout) := by
  obtain ⟨hoverlap, hcover, _⟩ := rectIntersect_common hr hc hmeet
  unfold rectSubtract
  rw [if_neg (by rw [rectIsEmpty_iff, not_or, not_not]; exact ⟨by omega, hsolid⟩)]
  dsimp only
  rw [if_neg hmeet]
  generalize rectIntersect rect cutout = overlap at hoverlap hcover ⊢
  obtain ⟨⟨hx, hx'⟩, ⟨hy, hy'⟩, ⟨hw, hw'⟩, ⟨hh, hh'⟩⟩ := hr.toFitsRect
  obtain ⟨hright, hright'⟩ := hr.right
  obtain ⟨hbottom, hbottom'⟩ := hr.bottom
  obtain ⟨hleft, htop, hover, hunder⟩ := hcover
  unfold Solid at hoverlap hsolid
  rw [Rect.right, Rect.right] at hover
  rw [Rect.bottom, Rect.bottom] at hunder
  rw [Rect.right] at hright hright'
  rw [Rect.bottom] at hbottom hbottom'
  rw [int32_small (n := rect.x + rect.w) (by omega), int32_small (n := rect.y + rect.h) (by omega),
    int32_small (n := overlap.x + overlap.w) (by omega), int32_small (n := overlap.y + overlap.h) (by omega),
    int32_small (n := overlap.y - rect.y) (by omega), int32_small (n := overlap.x - rect.x) (by omega),
    int32_small (n := rect.y + rect.h - (overlap.y + overlap.h)) (by omega),
    int32_small (n := rect.x + rect.w - (overlap.x + overlap.w)) (by omega)]
  have habove : (⟨rect.x, rect.y, rect.w, overlap.y - rect.y⟩ : Rect) =
      ofCorners rect.x rect.y rect.right overlap.y := by
    rw [ofCorners, Rect.right, add_sub_cancel_left]
  have hbelow : (⟨rect.x, overlap.y + overlap.h, rect.w, rect.y + rect.h - (overlap.y + overlap.h)⟩ : Rect) =
      ofCorners rect.x overlap.bottom rect.right rect.bottom := by
    rw [ofCorners, Rect.right, Rect.bottom, Rect.bottom, add_sub_cancel_left]
  have hleftOf : (⟨rect.x, overlap.y, overlap.x - rect.x, overlap.h⟩ : Rect) =
      ofCorners rect.x overlap.y overlap.x overlap.bottom := by
    rw [ofCorners, Rect.bottom, add_sub_cancel_left]
  have hrightOf : (⟨overlap.x + overlap.w, overlap.y, rect.x + rect.w - (overlap.x + overlap.w), overlap.h⟩ :
      Rect) = ofCorners overlap.right overlap.y rect.right overlap.bottom := by
    rw [ofCorners, Rect.right, Rect.right, Rect.bottom, add_sub_cancel_left]
  rw [habove, hbelow, hleftOf, hrightOf]
  have hfirst : putResult maxRects (overlap.y > rect.y) (ofCorners rect.x rect.y rect.right overlap.y) [] =
      [ofCorners rect.x rect.y rect.right overlap.y].filter (fun s => s.Solid) :=
    @putResult_solid _ _ _ _ [] (by unfold Solid ofCorners Rect.right; dsimp only; omega) (by simp; omega)
  rw [hfirst, putResult_solid (by unfold Solid ofCorners Rect.right Rect.bottom; dsimp only; omega) (by simp; omega),
    putResult_solid (by unfold Solid ofCorners Rect.bottom; dsimp only; omega) (by simp; omega),
    putResult_solid (by unfold Solid ofCorners Rect.right Rect.bottom; dsimp only; omega) (by simp; omega)]
  rfl

/-- The results do not meet, none is empty, and together they are the rectangle without what is cut out. -/
theorem rectSubtract_exact (hr : Unwrapped rect) (hc : Unwrapped cutout) {maxRects : Int} (hroom : 4 ≤ maxRects) :
    (rectSubtract rect cutout maxRects).Pairwise Apart ∧
      (∀ r ∈ rectSubtract rect cutout maxRects, rectIsEmpty r = false) ∧
      ∀ px py, Region (rectSubtract rect cutout maxRects) px py ↔ rect.Has px py ∧ ¬ cutout.Has px py := by
  by_cases hsolid : rect.Solid
  · by_cases hmeet : rectIsEmpty (rectIntersect rect cutout) = true
    · have hall : rectSubtract rect cutout maxRects = [rect] := by
        unfold rectSubtract
        rw [if_neg (by rw [rectIsEmpty_iff, not_or, not_not]; exact ⟨by omega, hsolid⟩)]
        exact if_pos hmeet
      rw [hall]
      refine ⟨List.pairwise_singleton _ _, fun r hin => ?_, fun px py => ?_⟩
      · rw [List.mem_singleton.mp hin, ← Bool.not_eq_true, rectIsEmpty_iff, not_not]
        exact hsolid
      · simp only [Region, List.mem_singleton, exists_eq_left]
        exact ⟨fun hp => ⟨hp, rectIntersect_empty hr hc hmeet hp⟩, And.left⟩
    · obtain ⟨hoverlap, hcover, hcommon⟩ := rectIntersect_common hr hc hmeet
      rw [rectSubtract_eq hr hc hsolid hroom hmeet]
      refine ⟨carve_apart hoverlap, fun r hin => ?_, fun px py => ?_⟩
      · rw [← Bool.not_eq_true, rectIsEmpty_iff, not_not]
        exact carve_solid hin
      · rw [carve_has hcover hoverlap, hcommon]
        tauto
  · have hnone : rectSubtract rect cutout maxRects = [] := if_pos (.inr (rectIsEmpty_iff.mpr hsolid))
    rw [hnone]
    refine ⟨List.Pairwise.nil, fun r hin => absurd hin List.not_mem_nil, fun px py => ?_⟩
    exact iff_of_false region_nil (fun hp => hsolid hp.1.solid)

/-- A hole in the middle. -/
theorem rectSubtract_exact_hole :
    (rectSubtract ⟨0, 0, 8, 8⟩ ⟨2, 2, 4, 4⟩ 4).Pairwise Apart ∧
      (∀ r ∈ rectSubtract ⟨0, 0, 8, 8⟩ ⟨2, 2, 4, 4⟩ 4, rectIsEmpty r = false) ∧
      ∀ px py, Region (rectSubtract ⟨0, 0, 8, 8⟩ ⟨2, 2, 4, 4⟩ 4) px py ↔
        (⟨0, 0, 8, 8⟩ : Rect).Has px py ∧ ¬ (⟨2, 2, 4, 4⟩ : Rect).Has px py :=
  rectSubtract_exact (Bounded.unwrapped (by decide)) (Bounded.unwrapped (by decide)) (by decide)

/-! ## Dirty lists -/

def dirtyRectsMax : Nat := 8

/-- `ui_dirty_list_add`: the list after it, and whether there was anything to add. -/
def dirtyListAdd (rects : List Rect) (rect : Rect) : List Rect × Bool :=
  if rectIsEmpty rect = true then (rects, false)
  else (Cover.add rectContainsRect rectUnion dirtyRectsMax rects rect, true)

/-- A list after some calls, from `ui_dirty_list_init`. -/
def dirtyList (rects : List Rect) : List Rect := rects.foldl (fun l r => (dirtyListAdd l r).1) []

/-- Where the call joins two rectangles, the sides of the bounding box do not overflow. -/
def JoinFits (rects : List Rect) (rect : Rect) : Prop :=
  ∀ last, Cover.Joined rectContainsRect dirtyRectsMax rects rect last →
    FitsInt (last.hull rect).w ∧ FitsInt (last.hull rect).h

variable {rects : List Rect}

theorem contains_sound (b c : Rect) (hb : Unwrapped b) (hc : Unwrapped c) (h : rectContainsRect b c = true)
    (p : Int × Int) (hp : c.Has p.1 p.2) : b.Has p.1 p.2 :=
  ((rectContainsRect_iff hb hc).mp h).2.has hp

theorem Unwrapped.union {a b : Rect} (ha : Unwrapped a) (hb : Unwrapped b) (hw : FitsInt (a.hull b).w)
    (hh : FitsInt (a.hull b).h) : Unwrapped (rectUnion a b) := by
  rw [rectUnion_unwrapped ha hb hw hh]
  split
  · exact hb
  split
  · exact ha
  obtain ⟨hax, hax'⟩ := ha.x
  obtain ⟨hay, hay'⟩ := ha.y
  obtain ⟨hbx, hbx'⟩ := hb.x
  obtain ⟨hby, hby'⟩ := hb.y
  obtain ⟨har, har'⟩ := ha.right
  obtain ⟨hab, hab'⟩ := ha.bottom
  obtain ⟨hbr, hbr'⟩ := hb.right
  obtain ⟨hbb, hbb'⟩ := hb.bottom
  refine ⟨⟨?_, ?_, hw, hh⟩, ?_, ?_⟩
  · unfold FitsInt hull
    dsimp only
    omega
  · unfold FitsInt hull
    dsimp only
    omega
  · rw [hull_right, FitsInt]
    omega
  · rw [hull_bottom, FitsInt]
    omega

theorem dirtyListAdd_length (hl : rects.length ≤ dirtyRectsMax) (rect : Rect) :
    (dirtyListAdd rects rect).1.length ≤ dirtyRectsMax := by
  unfold dirtyListAdd
  split
  · exact hl
  · exact Cover.add_length hl

theorem dirtyListAdd_covers (hl : ∀ r ∈ rects, Unwrapped r) (hr : Unwrapped rect) (hjoin : JoinFits rects rect) :
    (∀ r ∈ (dirtyListAdd rects rect).1, Unwrapped r) ∧
      ∀ px py, Region rects px py ∨ rect.Has px py → Region (dirtyListAdd rects rect).1 px py := by
  unfold dirtyListAdd
  split
  · rename_i hempty
    refine ⟨hl, fun px py hp => hp.elim id (fun hp => ?_)⟩
    exact absurd hp.solid (rectIsEmpty_iff.mp hempty)
  · have hunwrapped : ∀ b, Cover.Joined rectContainsRect dirtyRectsMax rects rect b → Unwrapped b :=
      fun b hb => hl b (List.mem_of_getLast? hb.2.2)
    have hcap : 0 < dirtyRectsMax := Nat.succ_pos 7
    refine ⟨Cover.add_all hl hr hcap (fun b hb => (hunwrapped b hb).union hr (hjoin b hb).1 (hjoin b hb).2),
      fun px py hp => ?_⟩
    refine @Cover.has_add Rect (Int × Int) rectContainsRect rectUnion dirtyRectsMax (fun r p => r.Has p.1 p.2)
      Unwrapped rects rect (px, py) contains_sound hl hr hcap (fun b hb p hp => ?_) hp
    rw [rectUnion_unwrapped (hunwrapped b hb) hr (hjoin b hb).1 (hjoin b hb).2]
    split
    · rename_i hnone
      exact hp.resolve_left (fun hp => hnone hp.solid)
    split
    · rename_i hnone
      exact hp.resolve_right (fun hp => hnone hp.solid)
    · exact hp.elim hull_has_left hull_has_right

theorem hull_fits {plane b : Rect} (hplane : Unwrapped plane) (hb : Unwrapped b ∧ plane.Covers b)
    (hr : plane.Covers rect) : FitsInt (b.hull rect).w ∧ FitsInt (b.hull rect).h := by
  obtain ⟨hleft, htop, hover, hunder⟩ := hb.2.hull hr
  obtain ⟨hleft', htop', hover', hunder'⟩ := hull_covers_left b rect
  obtain ⟨⟨_, _, ⟨_, hw⟩, ⟨_, hh⟩⟩, _, _⟩ := hplane
  obtain ⟨⟨_, _, ⟨hbw, _⟩, ⟨hbh, _⟩⟩, _, _⟩ := hb.1
  unfold Rect.right Rect.bottom at *
  rw [FitsInt, FitsInt]
  omega

theorem dirtyListAdd_within {plane : Rect} (hplane : Unwrapped plane)
    (hl : ∀ r ∈ rects, Unwrapped r ∧ plane.Covers r) (hr : Unwrapped rect ∧ plane.Covers rect) :
    (∀ r ∈ (dirtyListAdd rects rect).1, Unwrapped r ∧ plane.Covers r) ∧ JoinFits rects rect := by
  have hlast : ∀ b, Cover.Joined rectContainsRect dirtyRectsMax rects rect b → Unwrapped b ∧ plane.Covers b :=
    fun b hb => hl b (List.mem_of_getLast? hb.2.2)
  have hfits : JoinFits rects rect := fun b hb => hull_fits hplane (hlast b hb) hr.2
  refine ⟨?_, hfits⟩
  unfold dirtyListAdd
  split
  · exact hl
  · refine Cover.add_all hl hr (Nat.succ_pos 7) (fun b hb => ?_)
    obtain ⟨hw, hh⟩ := hfits b hb
    refine ⟨(hlast b hb).1.union hr.1 hw hh, ?_⟩
    rw [rectUnion_unwrapped (hlast b hb).1 hr.1 hw hh]
    split
    · exact hr.2
    split
    · exact (hlast b hb).2
    · exact (hlast b hb).2.hull hr.2

theorem dirtyList_snoc (rects : List Rect) (rect : Rect) :
    dirtyList (rects ++ [rect]) = (dirtyListAdd (dirtyList rects) rect).1 := by
  rw [dirtyList, List.foldl_append]
  rfl

theorem joinFits_within {plane : Rect} (hplane : Unwrapped plane)
    (hrects : ∀ r ∈ rects, Unwrapped r ∧ plane.Covers r) (before : List Rect) (r : Rect)
    (after : List Rect) (heq : rects = before ++ r :: after) : JoinFits (dirtyList before) r := by
  have hlist : ∀ r ∈ dirtyList before, Unwrapped r ∧ plane.Covers r := by
    refine List.foldlRecOn (motive := fun l : List Rect => ∀ r ∈ l, Unwrapped r ∧ plane.Covers r) before _
      (fun r hr => absurd hr List.not_mem_nil) (fun l hl r hr => ?_)
    exact (dirtyListAdd_within hplane hl (hrects r (heq ▸ List.mem_append_left _ hr))).1
  exact (dirtyListAdd_within hplane hlist
    (hrects r (heq ▸ List.mem_append_right _ List.mem_cons_self))).2

/-- A dirty list never outgrows its capacity, and covers what was added, where no bounding box overflows. -/
theorem dirtyList_covers (rects : List Rect) (hrects : ∀ r ∈ rects, Unwrapped r) :
    (dirtyList rects).length ≤ dirtyRectsMax ∧
      ((∀ before r after, rects = before ++ r :: after → JoinFits (dirtyList before) r) →
        ∀ r ∈ rects, ∀ px py, r.Has px py → Region (dirtyList rects) px py) := by
  constructor
  · exact List.foldlRecOn (motive := fun l : List Rect => l.length ≤ dirtyRectsMax) rects _ (Nat.zero_le _)
      (fun l hl r _ => dirtyListAdd_length hl r)
  · intro hjoins
    suffices h : (∀ r ∈ dirtyList rects, Unwrapped r) ∧
        ∀ r ∈ rects, ∀ px py, r.Has px py → Region (dirtyList rects) px py from h.2
    -- by the calls, the last one first
    induction rects using List.reverseRecOn with
    | nil => exact ⟨fun r hr => absurd hr List.not_mem_nil, fun r hr => absurd hr List.not_mem_nil⟩
    | append_singleton rects rect ih =>
      obtain ⟨hl, hcovers⟩ := ih (fun r hr => hrects r (List.mem_append_left _ hr))
        (fun before r after heq => hjoins before r (after ++ [rect]) (by rw [heq]; simp))
      obtain ⟨hl', hcovers'⟩ := dirtyListAdd_covers hl (hrects rect (List.mem_append_right _ List.mem_cons_self))
        (hjoins rects rect [] rfl)
      rw [dirtyList_snoc]
      refine ⟨hl', fun r hr px py hp => hcovers' px py ?_⟩
      rcases List.mem_append.mp hr with hr | hr
      · exact .inl (hcovers r hr px py hp)
      · rw [List.mem_singleton.mp hr] at hp
        exact .inr hp

def nineSquares : List Rect := (List.range 9).map (fun i : Nat => ⟨10 * (i : Int), 0, 8, 8⟩)

theorem dirtyList_covers_nine :
    (dirtyList nineSquares).length ≤ dirtyRectsMax ∧
      ∀ r ∈ nineSquares, ∀ px py, r.Has px py → Region (dirtyList nineSquares) px py := by
  have hin : ∀ r ∈ nineSquares, Unwrapped r ∧ (⟨0, 0, 100, 100⟩ : Rect).Covers r := by
    intro r hr
    obtain ⟨i, hi, rfl⟩ := List.mem_map.mp hr
    rw [List.mem_range] at hi
    refine ⟨⟨⟨?_, ?_, ?_, ?_⟩, ?_, ?_⟩, ?_⟩ <;> simp only [FitsInt, Covers, Rect.right, Rect.bottom] <;> omega
  obtain ⟨hlength, hcovers⟩ := dirtyList_covers nineSquares (fun r hr => (hin r hr).1)
  exact ⟨hlength, hcovers (joinFits_within (Bounded.unwrapped (by decide)) hin)⟩

/-- Squares in a row with the left edge of the plane behind them, and then the right edge: too far apart to join. -/
def edgeToEdge : List Rect :=
  (List.range 7).map (fun i : Nat => ⟨10 * (i : Int), 0, 8, 8⟩) ++ [⟨-2147483648, 0, 1, 8⟩, ⟨2147483646, 0, 1, 8⟩]

theorem edgeToEdge_lost :
    (∀ r ∈ edgeToEdge, Unwrapped r) ∧ ¬ (∀ r ∈ edgeToEdge, ∀ px py, r.Has px py → Region (dirtyList edgeToEdge) px py) := by
  constructor
  · intro r hr
    simp only [edgeToEdge, List.mem_append, List.mem_map, List.mem_range, List.mem_cons, List.not_mem_nil,
      or_false] at hr
    rcases hr with ⟨i, hi, rfl⟩ | rfl | rfl <;> refine ⟨⟨?_, ?_, ?_, ?_⟩, ?_, ?_⟩ <;>
      simp only [FitsInt, Rect.right, Rect.bottom] <;> omega
  · intro h
    have hlost := h ⟨-2147483648, 0, 1, 8⟩ (by decide) (-2147483648) 0 (by decide)
    revert hlost
    unfold Region
    decide

end Ui
end MiniDos
