import MiniDos.Lib.Plane
import Mathlib.Tactic.Ring

/-!
# MiniDos.Video.Dirty

The dirty tracking of `video.c`: a bounding box and, until there are too many, the rectangles that
were noted since the last clear, some of them merged.

* `insertLoop`: the insertion, which looks through the list again after each merge.
  `insertLoop_isSome`: it ends.
* `Tracked`: what the statics say of the pixels that were noted.
-/

namespace MiniDos
namespace Video

open Plane

/-! ## Coordinates -/

/-- A sum of two values of type `int`. -/
def int32 (n : Int) : Int := n.bmod (2 ^ 32)

def FitsInt (n : Int) : Prop := -(2 ^ 31) ≤ n ∧ n < 2 ^ 31

theorem int32_of_fits {n : Int} (h : FitsInt n) : int32 n = n := by
  unfold FitsInt at h
  unfold int32
  exact Int.bmod_eq_of_le (by omega) (by omega)

theorem int32_range (n : Int) : FitsInt (int32 n) := by
  have hlow := Int.le_bmod (x := n) (m := 2 ^ 32) (by decide)
  have hhigh := Int.bmod_lt (x := n) (m := 2 ^ 32) (by decide)
  rw [FitsInt, int32]
  omega

theorem int32_sum {n : Int} (hlow : -(2 ^ 31) ≤ n) (hhigh : n < 2 ^ 32) :
    FitsInt n ∧ int32 n = n ∨ 2 ^ 31 ≤ n ∧ int32 n = n - 2 ^ 32 := by
  by_cases hfits : FitsInt n
  · exact .inl ⟨hfits, int32_of_fits hfits⟩
  · rw [FitsInt] at hfits
    refine .inr ⟨by omega, ?_⟩
    rw [int32, Int.bmod_def]
    omega

def clipLow (n : Int) : Int := if n < 0 then 0 else n
def clipHigh (limit n : Int) : Int := if limit < n then limit else n

theorem clipLow_le (n : Int) : 0 ≤ clipLow n ∧ n ≤ clipLow n := by
  unfold clipLow
  split <;> omega

theorem clipHigh_le (limit n : Int) : clipHigh limit n ≤ limit ∧ clipHigh limit n ≤ n := by
  unfold clipHigh
  split <;> omega

/-- The clipping to the screen that the drawing and noting functions start with. -/
def clipRect (width height : Int) (r : Rect) : Option Rect :=
  let x₀ := clipLow r.x
  let y₀ := clipLow r.y
  let x₁ := clipHigh width (int32 (r.x + r.w))
  let y₁ := clipHigh height (int32 (r.y + r.h))
  if x₁ ≤ x₀ ∨ y₁ ≤ y₀ then none else some (.ofCorners x₀ y₀ x₁ y₁)

def screenRect (width height : Int) : Rect := ⟨0, 0, width, height⟩

variable {width height px py : Int} {r s : Rect}

theorem screenRect_has : (screenRect width height).Has px py ↔
    0 ≤ px ∧ px < width ∧ 0 ≤ py ∧ py < height := by
  simp only [screenRect, Rect.Has, Rect.right, Rect.bottom, zero_add]

theorem clipRect_onScreen (h : clipRect width height r = some s) :
    s.Solid ∧ (screenRect width height).Covers s := by
  simp only [clipRect] at h
  split at h
  · cases h
  rename_i hne
  cases h
  unfold Rect.Solid Rect.Covers screenRect
  rw [Rect.ofCorners_right, Rect.ofCorners_bottom]
  simp only [Rect.ofCorners, Rect.right, Rect.bottom]
  unfold clipLow clipHigh at *
  omega

theorem clipRect_has (hx : FitsInt (r.x + r.w)) (hy : FitsInt (r.y + r.h)) :
    (∃ s, clipRect width height r = some s ∧ s.Has px py) ↔
      r.Has px py ∧ (screenRect width height).Has px py := by
  simp only [clipRect, int32_of_fits hx, int32_of_fits hy, screenRect_has]
  split
  · simp only [reduceCtorEq, false_and, exists_false, false_iff]
    unfold Rect.Has Rect.right Rect.bottom
    unfold clipLow clipHigh at *
    omega
  · simp only [Option.some.injEq, exists_eq_left']
    unfold Rect.Has
    rw [Rect.ofCorners_right, Rect.ofCorners_bottom]
    simp only [Rect.ofCorners, Rect.right, Rect.bottom]
    unfold clipLow clipHigh at *
    omega

/-! ## The statics -/

/-- `VIDEO_DIRTY_RECT_CAPACITY`. -/
def dirtyRectCapacity : Nat := 512

/-- `dirty_valid`, the box `dirty_x` to `dirty_h`, the first `dirty_rect_count` of `dirty_rects`,
`dirty_overflow`. -/
structure Dirty where
  valid : Bool
  box : Rect
  rects : List Rect
  overflow : Bool

/-- `video_clear_dirty_locked`. -/
def clearDirty : Dirty := ⟨false, ⟨0, 0, 0, 0⟩, [], false⟩

/-- `video_update_dirty_union`. -/
def updateDirtyUnion (d : Dirty) (r : Rect) : Dirty :=
  if d.valid then { d with box := d.box.hull r } else { d with valid := true, box := r }

/-- How the loop of `video_record_dirty_rect` ends: `r` is covered, or to be put behind the rest. -/
inductive Insert where
  | covered (rects : List Rect)
  | append (rects : List Rect) (r : Rect)

/-- The loop from place `i` on. A merge takes the rectangle out of the list and starts again. The
rectangles are clipped to the screen, so that no sum overflows. -/
def insertLoop : Nat → List Rect → Nat → Rect → Option Insert
  | 0, _, _, _ => none
  | fuel + 1, rects, i, r =>
    match rects[i]? with
    | none => some (.append rects r)
    | some current =>
      if current.Covers r then some (.covered rects)
      else if r.Covers current ∨ current.MeetsInRow r ∨ current.MeetsInColumn r then
        insertLoop fuel (rects.eraseIdx i) 0 (current.hull r)
      else insertLoop fuel rects (i + 1) r

/-- Enough steps for a list of this length. -/
def insertBound (n : Nat) : Nat := (n + 1) * (n + 1)

theorem insertBound_succ (n : Nat) : insertBound (n + 1) = insertBound n + (2 * n + 3) := by
  unfold insertBound
  ring

theorem insertLoop_isSome (fuel : Nat) (rects : List Rect) (i : Nat) (r : Rect)
    (hi : i ≤ rects.length) (h : insertBound rects.length ≤ fuel + i) :
    (insertLoop fuel rects i r).isSome := by
  induction fuel generalizing rects i r with
  | zero =>
    have hpos : rects.length + 1 ≤ insertBound rects.length :=
      Nat.le_mul_of_pos_left _ (Nat.succ_pos _)
    omega
  | succ fuel ih =>
    unfold insertLoop
    cases hc : rects[i]? with
    | none => rfl
    | some current =>
      obtain ⟨hlt, _⟩ := List.getElem?_eq_some_iff.mp hc
      dsimp only
      split
      · rfl
      split
      · obtain ⟨n, hn⟩ : ∃ n, rects.length = n + 1 := ⟨rects.length - 1, by omega⟩
        have hlen : (rects.eraseIdx i).length = n := by
          rw [List.length_eraseIdx_of_lt hlt]
          omega
        rw [hn, insertBound_succ] at h
        exact ih _ _ _ (by omega) (by rw [hlen]; omega)
      · exact ih _ _ _ (by omega) (by omega)

theorem insertLoop_mono {fuel fuel' : Nat} {rects : List Rect} {i : Nat} {r : Rect} {out : Insert}
    (hle : fuel ≤ fuel') (h : insertLoop fuel rects i r = some out) :
    insertLoop fuel' rects i r = some out := by
  induction fuel generalizing fuel' rects i r with
  | zero => cases h
  | succ fuel ih =>
    obtain ⟨n, rfl⟩ : ∃ n, fuel' = n + 1 := ⟨fuel' - 1, by omega⟩
    unfold insertLoop at h ⊢
    cases hc : rects[i]? with
    | none =>
      rw [hc] at h
      exact h
    | some current =>
      rw [hc] at h
      dsimp only at h ⊢
      split at h
      · rename_i hcovers
        rw [if_pos hcovers]
        exact h
      rename_i hcovers
      rw [if_neg hcovers]
      split at h
      · rename_i hmerge
        rw [if_pos hmerge]
        exact ih (by omega) h
      · rename_i hmerge
        rw [if_neg hmerge]
        exact ih (by omega) h

def insertRect (rects : List Rect) (r : Rect) : Insert :=
  (insertLoop (insertBound rects.length) rects 0 r).get
    (insertLoop_isSome _ _ _ _ (Nat.zero_le _) (Nat.le_refl _))

theorem insertLoop_eq {fuel : Nat} {rects : List Rect} (r : Rect)
    (h : insertBound rects.length ≤ fuel) :
    insertLoop fuel rects 0 r = some (insertRect rects r) :=
  insertLoop_mono h (Option.some_get _).symm

/-- `video_record_dirty_rect`. -/
def recordDirtyRect (d : Dirty) (r : Rect) : Dirty :=
  if d.overflow then d
  else
    match insertRect d.rects r with
    | .covered rects => { d with rects := rects }
    | .append rects r =>
      if rects.length < dirtyRectCapacity then { d with rects := rects ++ [r] }
      else { d with overflow := true, rects := [] }

/-- `video_note_dirty_locked`; `on`: graphics mode, with a backbuffer. -/
def noteDirty (on : Bool) (width height : Int) (d : Dirty) (r : Rect) : Dirty :=
  if on = false ∨ r.w ≤ 0 ∨ r.h ≤ 0 then d
  else
    match clipRect width height r with
    | none => d
    | some s => recordDirtyRect (updateDirtyUnion d s) s

/-! ## The insertion -/

def Insert.rects : Insert → List Rect
  | .covered rects => rects
  | .append rects r => rects ++ [r]

def Insert.kept : Insert → List Rect
  | .covered rects => rects
  | .append rects _ => rects

theorem insertLoop_spec (fuel : Nat) {rects : List Rect} {i : Nat} {out : Insert}
    (h : insertLoop fuel rects i r = some out) (hr : r.Solid) (hrects : ∀ s ∈ rects, s.Solid)
    {box : Rect} (hbox : ∀ s ∈ rects, box.Covers s) (hboxr : box.Covers r) :
    out.kept.length ≤ rects.length ∧ (∀ s ∈ out.rects, s.Solid ∧ box.Covers s) ∧
      ∀ px py, Region out.rects px py ↔ Region rects px py ∨ r.Has px py := by
  induction fuel generalizing rects i r with
  | zero => cases h
  | succ fuel ih =>
    unfold insertLoop at h
    cases hc : rects[i]? with
    | none =>
      rw [hc] at h
      cases h
      refine ⟨Nat.le_refl _, fun s hs => ?_, fun px py => region_append rects r⟩
      rcases List.mem_append.mp hs with hs | hs
      · exact ⟨hrects s hs, hbox s hs⟩
      · obtain rfl := List.mem_singleton.mp hs
        exact ⟨hr, hboxr⟩
    | some current =>
      rw [hc] at h
      dsimp only at h
      have hmem : current ∈ rects := List.mem_of_getElem? hc
      split at h
      · rename_i hcovers
        cases h
        refine ⟨Nat.le_refl _, fun s hs => ⟨hrects s hs, hbox s hs⟩, fun px py => ?_⟩
        exact ⟨.inl, fun hp => hp.elim id (fun hp => ⟨current, hmem, hcovers.has hp⟩)⟩
      split at h
      · rename_i hmerge
        have hsub : ∀ s ∈ rects.eraseIdx i, s ∈ rects := fun s hs => List.mem_of_mem_eraseIdx hs
        obtain ⟨hlen, hall, hregion⟩ := ih h ((hrects current hmem).hull r)
          (fun s hs => hrects s (hsub s hs)) (fun s hs => hbox s (hsub s hs))
          ((hbox current hmem).hull hboxr)
        have herase := List.length_eraseIdx_le rects i
        refine ⟨by omega, hall, fun px py => ?_⟩
        rw [hregion, Rect.hull_has_iff hmerge, region_eraseIdx hc, or_assoc]
      · exact ih h hr hrects hbox hboxr

/-! ## Tracking -/

/-- What the statics say of the pixels `Noted`. -/
structure Tracked (width height : Int) (Noted : Int → Int → Prop) (d : Dirty) : Prop where
  idle : d.valid = false → d = clearDirty
  boxed : ∀ px py, Noted px py → d.box.Has px py
  onScreen : d.valid = true → (screenRect width height).Covers d.box
  rects : ∀ s ∈ d.rects, s.Solid ∧ d.box.Covers s
  count : d.rects.length ≤ dirtyRectCapacity
  exact : d.overflow = false → ∀ px py, Region d.rects px py ↔ Noted px py

theorem tracked_clear (width height : Int) : Tracked width height (fun _ _ => False) clearDirty := by
  refine ⟨fun _ => rfl, fun _ _ hf => hf.elim, ?_, ?_, Nat.zero_le _, fun _ px py => ?_⟩
  · rintro ⟨⟩
  · intro s hs
    cases hs
  · exact iff_false_intro region_nil

variable {Noted : Int → Int → Prop} {d : Dirty}

theorem Tracked.congr {Noted' : Int → Int → Prop} (h : Tracked width height Noted d)
    (hsame : ∀ px py, Noted px py ↔ Noted' px py) : Tracked width height Noted' d :=
  { h with
    boxed := fun px py hp => h.boxed px py ((hsame px py).mpr hp)
    exact := fun ho px py => (h.exact ho px py).trans (hsame px py) }

theorem Tracked.union (h : Tracked width height Noted d) (r : Rect) :
    (updateDirtyUnion d r).valid = true ∧ (updateDirtyUnion d r).box.Covers r ∧
      (∀ s, (screenRect width height).Covers r → (updateDirtyUnion d r).box = s →
        (screenRect width height).Covers s) ∧
      (∀ s ∈ d.rects, (updateDirtyUnion d r).box.Covers s) ∧
      ∀ px py, Noted px py → (updateDirtyUnion d r).box.Has px py := by
  unfold updateDirtyUnion
  cases hv : d.valid with
  | true =>
    simp only [↓reduceIte]
    refine ⟨trivial, d.box.hull_covers_right r, fun s hr hs => ?_, fun s hs => ?_, fun px py hp => ?_⟩
    · rw [← hs]
      exact (h.onScreen hv).hull hr
    · exact (d.box.hull_covers_left r).trans (h.rects s hs).2
    · exact Rect.hull_has_left (h.boxed px py hp)
  | false =>
    have hclear := h.idle hv
    simp only [Bool.false_eq_true, ↓reduceIte]
    refine ⟨trivial, .refl r, fun s hr hs => hs ▸ hr, fun s hs => ?_, fun px py hp => ?_⟩
    · rw [hclear] at hs
      cases hs
    · rw [← h.exact (by rw [hclear]; rfl), hclear] at hp
      exact absurd hp region_nil

/-- Noting a rectangle of the screen. -/
theorem Tracked.record (h : Tracked width height Noted d) (hs : s.Solid)
    (hscreen : (screenRect width height).Covers s) :
    Tracked width height (fun px py => Noted px py ∨ s.Has px py)
      (recordDirtyRect (updateDirtyUnion d s) s) := by
  obtain ⟨hvalid, hcovers, hon, hrects, hboxed⟩ := h.union s
  have hfields : (updateDirtyUnion d s).rects = d.rects ∧
      (updateDirtyUnion d s).overflow = d.overflow := by
    unfold updateDirtyUnion
    split <;> exact ⟨rfl, rfl⟩
  have hpixels : ∀ px py, Noted px py ∨ s.Has px py → (updateDirtyUnion d s).box.Has px py :=
    fun px py hp => hp.elim (hboxed px py) hcovers.has
  have hout : ∀ d' : Dirty, d'.valid = true → d'.box = (updateDirtyUnion d s).box →
      (∀ q ∈ d'.rects, q.Solid ∧ (updateDirtyUnion d s).box.Covers q) →
      d'.rects.length ≤ dirtyRectCapacity →
      (d'.overflow = false → ∀ px py, Region d'.rects px py ↔ Noted px py ∨ s.Has px py) →
      Tracked width height (fun px py => Noted px py ∨ s.Has px py) d' := by
    intro d' hv hb hr hc he
    refine ⟨fun hf => ?_, ?_, fun _ => hon _ hscreen hb.symm, ?_, hc, he⟩
    · rw [hv] at hf
      cases hf
    · rw [hb]
      exact hpixels
    · rw [hb]
      exact hr
  unfold recordDirtyRect
  split
  · rename_i hover
    refine hout _ hvalid rfl ?_ ?_ (fun hf => ?_)
    · rw [hfields.1]
      exact fun q hq => ⟨(h.rects q hq).1, hrects q hq⟩
    · rw [hfields.1]
      exact h.count
    · rw [hf] at hover
      cases hover
  · rename_i hover
    rw [hfields.1]
    rw [hfields.2, Bool.not_eq_true] at hover
    obtain ⟨hlen, hall, hregion⟩ := insertLoop_spec _ (insertLoop_eq s (Nat.le_refl _)) hs
      (fun q hq => (h.rects q hq).1) hrects hcovers
    have hexact : ∀ px py, Region (insertRect d.rects s).rects px py ↔ Noted px py ∨ s.Has px py :=
      fun px py => by rw [hregion, h.exact hover]
    have hcount := h.count
    cases hins : insertRect d.rects s with
    | covered rects =>
      rw [hins] at hlen hall hexact
      exact hout _ hvalid rfl hall (Nat.le_trans hlen hcount) (fun _ => hexact)
    | append rects r =>
      rw [hins] at hlen hall hexact
      dsimp only
      split
      · refine hout _ hvalid rfl hall ?_ (fun _ => hexact)
        simp only [List.length_append, List.length_singleton]
        omega
      · refine hout _ hvalid rfl ?_ (Nat.zero_le _) (fun hf => ?_)
        · intro q hq
          cases hq
        · cases hf

/-- The pixels that one call notes. -/
def Marks (on : Bool) (width height : Int) (r : Rect) (px py : Int) : Prop :=
  on = true ∧ 0 < r.w ∧ 0 < r.h ∧ ∃ s, clipRect width height r = some s ∧ s.Has px py

theorem Tracked.note (h : Tracked width height Noted d) (on : Bool) (r : Rect) :
    Tracked width height (fun px py => Noted px py ∨ Marks on width height r px py)
      (noteDirty on width height d r) := by
  unfold noteDirty
  split
  · rename_i hno
    refine h.congr (fun px py => ⟨.inl, fun hp => hp.elim id (fun hm => ?_)⟩)
    obtain ⟨hon, hw, hh, _⟩ := hm
    rcases hno with hoff | hw' | hh'
    · rw [hon] at hoff
      cases hoff
    · omega
    · omega
  · rename_i hyes
    simp only [not_or, Bool.not_eq_false, not_le] at hyes
    cases hc : clipRect width height r with
    | none =>
      refine h.congr (fun px py => ⟨.inl, fun hp => hp.elim id (fun hm => ?_)⟩)
      obtain ⟨s, hs, _⟩ := hm.2.2.2
      rw [hc] at hs
      cases hs
    | some s =>
      obtain ⟨hsolid, hscreen⟩ := clipRect_onScreen hc
      refine (h.record hsolid hscreen).congr (fun px py => or_congr Iff.rfl ?_)
      refine ⟨fun hp => ⟨hyes.1, hyes.2.1, hyes.2.2, s, hc, hp⟩, fun hm => ?_⟩
      obtain ⟨s', hs', hp⟩ := hm.2.2.2
      cases hc.symm.trans hs'
      exact hp

/-- The calls since the last clear. -/
def noteAll (on : Bool) (width height : Int) (notes : List Rect) : Dirty :=
  notes.foldl (noteDirty on width height) clearDirty

theorem tracked_noteAll (on : Bool) (width height : Int) (notes : List Rect) :
    Tracked width height (fun px py => ∃ r ∈ notes, Marks on width height r px py)
      (noteAll on width height notes) := by
  have hrun : ∀ (notes : List Rect) (d : Dirty) (Noted : Int → Int → Prop),
      Tracked width height Noted d →
      Tracked width height (fun px py => Noted px py ∨ ∃ r ∈ notes, Marks on width height r px py)
        (notes.foldl (noteDirty on width height) d) := by
    intro notes
    induction notes with
    | nil => exact fun d Noted h => h.congr (by simp)
    | cons r notes ih =>
      intro d Noted h
      refine (ih _ _ (h.note on r)).congr (fun px py => ?_)
      simp only [List.mem_cons, exists_eq_or_imp, or_assoc]
  exact (hrun notes clearDirty _ (tracked_clear width height)).congr (by simp)

/-- With sums that fit into an `int`: the box covers the pixels of the screen that were noted and
lies on the screen, the rectangles have exactly these pixels until there are too many, and the next
insertion ends. -/
theorem dirty_covers_noted (on : Bool) (width height : Int) (notes : List Rect)
    (hfits : ∀ r ∈ notes, FitsInt (r.x + r.w) ∧ FitsInt (r.y + r.h)) :
    (∀ px py, (∃ r ∈ notes, on = true ∧ r.Has px py ∧ (screenRect width height).Has px py) →
      (noteAll on width height notes).box.Has px py) ∧
    (∀ px py, (noteAll on width height notes).box.Has px py →
      (screenRect width height).Has px py) ∧
    ((noteAll on width height notes).overflow = false → ∀ px py,
      Region (noteAll on width height notes).rects px py ↔
        ∃ r ∈ notes, on = true ∧ r.Has px py ∧ (screenRect width height).Has px py) ∧
    (noteAll on width height notes).rects.length ≤ dirtyRectCapacity ∧
    ∀ r fuel, insertBound (noteAll on width height notes).rects.length ≤ fuel →
      insertLoop fuel (noteAll on width height notes).rects 0 r =
        some (insertRect (noteAll on width height notes).rects r) := by
  have hnoted : ∀ px py, (∃ r ∈ notes, Marks on width height r px py) ↔
      ∃ r ∈ notes, on = true ∧ r.Has px py ∧ (screenRect width height).Has px py := by
    intro px py
    refine exists_congr (fun r => and_congr_right (fun hr => ?_))
    unfold Marks
    rw [clipRect_has (hfits r hr).1 (hfits r hr).2]
    exact ⟨fun h => ⟨h.1, h.2.2.2⟩, fun h => ⟨h.1, h.2.1.solid.1, h.2.1.solid.2, h.2⟩⟩
  have h := (tracked_noteAll on width height notes).congr hnoted
  refine ⟨h.boxed, fun px py hp => ?_, h.exact, h.count, fun r fuel hfuel => insertLoop_eq r hfuel⟩
  cases hv : (noteAll on width height notes).valid with
  | true => exact (h.onScreen hv).has hp
  | false =>
    rw [h.idle hv] at hp
    exact absurd hp.solid.1 (by decide)

/-- Two rectangles in a row, and one that is partly off the screen. -/
theorem dirty_covers_noted_three :
    Region (noteAll true 640 480 [⟨0, 0, 8, 8⟩, ⟨8, 0, 8, 8⟩, ⟨600, 470, 100, 100⟩]).rects 12 3 ∧
      ¬ Region (noteAll true 640 480 [⟨0, 0, 8, 8⟩, ⟨8, 0, 8, 8⟩, ⟨600, 470, 100, 100⟩]).rects
        650 475 := by
  obtain ⟨_, _, hexact, _, _⟩ := dirty_covers_noted true 640 480
    [⟨0, 0, 8, 8⟩, ⟨8, 0, 8, 8⟩, ⟨600, 470, 100, 100⟩] (by simp [FitsInt])
  have hpixels := hexact (by decide +kernel)
  constructor
  · exact (hpixels 12 3).mpr ⟨⟨8, 0, 8, 8⟩, by simp, rfl, by unfold Rect.Has; decide,
      by unfold Rect.Has screenRect; decide⟩
  · intro hp
    obtain ⟨_, _, _, _, hscreen⟩ := (hpixels 650 475).mp hp
    exact absurd hscreen (by unfold Rect.Has screenRect; decide)

end Video
end MiniDos
