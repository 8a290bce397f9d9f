import MiniDos.Video.Blit
import MiniDos.Video.Model
import Mathlib.Tactic.IntervalCases

/-!
# MiniDos.Video.Sync

The framebuffer follows the backbuffer: outside the pending dirty part each of its pixels has the
colors of the backbuffer.

* `Painted`: drawing that changes the backbuffer inside a set of pixels.
* `Synced`: the invariant. A call paints and then notes at least what it painted (`Synced.note`);
  presenting copies what was noted (`Synced.present`).
-/

namespace MiniDos
namespace Video

open Plane

/-! ## Colors -/

def componentMask (size pos : UInt8) : UInt32 :=
  if size = 0 then 0 else (((1 : UInt32) <<< size.toUInt32) - 1) <<< pos.toUInt32

/-- The bits of a pixel of the framebuffer that its three components take. -/
def Mode.colorMask (m : Mode) : UInt32 :=
  (componentMask m.redSize m.redPos ||| componentMask m.greenSize m.greenPos |||
    componentMask m.blueSize m.bluePos) &&& m.pixelMask

/-- The framebuffer pixel `f` has the packed components of the backbuffer pixel `v`. -/
def Carries (m : Mode) (v f : UInt32) : Prop :=
  f &&& m.colorMask = packRgb m v &&& m.colorMask

theorem scaleComponent_eight {c : UInt32} (h : c ≤ 255) (pos : UInt8) :
    scaleComponent c 8 pos = c <<< pos.toUInt32 := by
  have hscale : (c * 255 + 127) / 255 = c := by
    apply UInt32.toNat_inj.mp
    rw [UInt32.le_iff_toNat_le] at h
    simp at h ⊢
    omega
  unfold scaleComponent
  rw [if_neg (by decide)]
  show ((c * 255 + 127) / 255) <<< pos.toUInt32 = _
  rw [hscale]

theorem rgb_components (v : UInt32) :
    ((v >>> 16) &&& 0xFF) <<< 16 ||| ((v >>> 8) &&& 0xFF) <<< 8 ||| (v &&& 0xFF) = v &&& 0xFFFFFF := by
  apply UInt32.eq_of_toBitVec_eq
  simp
  ext i hi
  simp
  interval_cases i <;> simp

theorem and_ff_le (v : UInt32) : v &&& 0xFF ≤ 255 := by
  rw [UInt32.le_iff_toNat_le, UInt32.toNat_and]
  exact Nat.and_le_right

section Modes

variable {m : Mode}

theorem packRgb_true (hrs : m.redSize = 8) (hrp : m.redPos = 16) (hgs : m.greenSize = 8)
    (hgp : m.greenPos = 8) (hbs : m.blueSize = 8) (hbp : m.bluePos = 0) (v : UInt32) :
    packRgb m v = v &&& 0xFFFFFF := by
  unfold packRgb
  rw [hrs, hrp, hgs, hgp, hbs, hbp, scaleComponent_eight (and_ff_le _),
    scaleComponent_eight (and_ff_le _), scaleComponent_eight (and_ff_le _)]
  rw [← rgb_components v]
  simp

theorem and_colorMask (x : UInt32) (m : Mode) :
    x &&& m.pixelMask &&& m.colorMask = x &&& m.colorMask := by
  unfold Mode.colorMask
  rw [UInt32.and_assoc, UInt32.and_comm m.pixelMask, UInt32.and_assoc, UInt32.and_self]

theorem carries_frontPixel (m : Mode) (v : UInt32) : Carries m v (frontPixel m v) :=
  and_colorMask _ m

end Modes

/-! ## The backbuffer -/

theorem u32_of_range {n : Int} (h0 : 0 ≤ n) (h : n < 2 ^ 32) : u32 n = n := Int.emod_eq_of_lt h0 h

structure Roomy (m : Mode) : Prop where
  width : 0 < m.width
  height : 0 < m.height
  roomy : m.roomy = true

/-- The screen has the backbuffer that `init_video_once` found room for. -/
structure Fitted (m : Mode) (s : Screen) : Prop where
  mode : s.mode = m
  ready : s.backbufferReady = true
  pitch : s.backbufferPitch = alignedPitch m.width
  fast : s.fastPresentMode = detectFastPresentMode m true

variable {m : Mode} {s s' s'' : Screen} {r : Rect} {px py : Int}

theorem Roomy.bounds (hm : Roomy m) : m.width ≤ 1280 ∧ m.height ≤ 1024 := by
  have := hm.roomy
  unfold Mode.roomy at this
  rw [decide_eq_true_eq] at this
  exact ⟨this.1, this.2.1⟩

theorem Roomy.fitted (hm : Roomy m) (back front : Int → Int → UInt32) :
    Fitted m (initScreen m back front) := by
  refine ⟨rfl, hm.roomy, if_pos hm.roomy, ?_⟩
  show detectFastPresentMode m m.roomy = _
  rw [hm.roomy]

theorem Fitted.fits (hm : Roomy m) (h : Fitted m s) (hr : r.Solid)
    (hs : (screenRect m.width m.height).Covers r) : s.backbufferRectFits r = true := by
  obtain ⟨hw, hh⟩ := hm.bounds
  have hwpos := hm.width
  unfold Rect.Solid at hr
  unfold Rect.Covers screenRect Rect.right Rect.bottom at hs
  dsimp only at hs
  have hpitch : m.width * 4 ≤ alignedPitch m.width ∧ alignedPitch m.width ≤ 5120 := by
    unfold alignedPitch
    omega
  have hrows : (r.y + r.h - 1) * alignedPitch m.width ≤ 1023 * alignedPitch m.width :=
    Int.mul_le_mul_of_nonneg_right (by omega) (by omega)
  have hpos : 0 ≤ (r.y + r.h - 1) * alignedPitch m.width := Int.mul_nonneg (by omega) (by omega)
  unfold Screen.backbufferRectFits
  rw [h.ready, h.pitch, u32_of_range (n := r.w * 4) (by omega) (by omega),
    u32_of_range (n := r.y + r.h - 1) (by omega) (by omega),
    u32_of_range (n := alignedPitch m.width) (by omega) (by omega),
    u32_of_range (n := r.x * 4) (by omega) (by omega),
    u32_of_range hpos (by omega), u32_of_range (by omega) (by omega)]
  rw [if_neg (by simp only [Bool.true_eq_false, false_or]; omega), if_neg (by omega)]
  unfold backbufferMaxBytes
  rw [if_neg (by omega), if_neg (by omega), decide_eq_true_eq]
  omega

/-- A pixel as presenting writes it has the colors of the backbuffer. -/
theorem Fitted.carries (h : Fitted m s) (v : UInt32) : Carries m v (s.presentPixel v) := by
  have hfast := h.fast
  unfold Screen.presentPixel
  rw [h.mode]
  split
  · exact carries_frontPixel m v
  rename_i hne
  rw [hfast] at hne ⊢
  unfold detectFastPresentMode at hne ⊢
  split at hne
  · exact absurd rfl hne
  rename_i hpitch
  rw [if_neg hpitch]
  split at hne
  · exact absurd rfl hne
  rename_i hcolors
  rw [if_neg hcolors]
  simp only [not_or, not_not] at hcolors
  obtain ⟨hrs, hrp, hgs, hgp, hbs, hbp⟩ := hcolors
  have hmask : (v &&& 0xFFFFFF) &&& m.colorMask = v &&& m.colorMask := by
    unfold Mode.colorMask componentMask
    rw [hrs, hrp, hgs, hgp, hbs, hbp, UInt32.and_assoc]
    congr 1
    rw [← UInt32.and_assoc]
    rfl
  unfold Carries
  rw [packRgb_true hrs hrp hgs hgp hbs hbp]
  split
  · simp [hmask]
  · split <;> simp

/-! ## Painting -/

/-- `s'` is `s` but for pixels of `R` on the backbuffer. -/
structure Painted (R : Int → Int → Prop) (s s' : Screen) : Prop where
  same : s' = { s with back := s'.back }
  outside : ∀ px py, ¬ R px py → s'.back px py = s.back px py

variable {R R' : Int → Int → Prop}

namespace Painted

theorem refl (R : Int → Int → Prop) (s : Screen) : Painted R s s := ⟨rfl, fun _ _ _ => rfl⟩

theorem trans (h : Painted R s s') (h' : Painted R s' s'') : Painted R s s'' := by
  refine ⟨?_, fun px py hp => (h'.outside px py hp).trans (h.outside px py hp)⟩
  rw [h'.same, h.same]

theorem mono (h : Painted R s s') (hR : ∀ px py, R px py → R' px py) : Painted R' s s' :=
  ⟨h.same, fun px py hp => h.outside px py (fun hr => hp (hR px py hr))⟩

theorem fitted (h : Painted R s s') (hs : Fitted m s) : Fitted m s' := by
  rw [h.same]
  exact ⟨hs.mode, hs.ready, hs.pitch, hs.fast⟩

theorem foldl {α : Type} {f : Screen → α → Screen} {l : List α}
    (hf : ∀ s a, Fitted m s → a ∈ l → Painted R s (f s a)) (hs : Fitted m s) :
    Painted R s (l.foldl f s) := by
  induction l generalizing s with
  | nil => exact refl R s
  | cons a l ih =>
    have hstep := hf s a hs List.mem_cons_self
    exact hstep.trans (ih (fun s b hs hb => hf s b hs (List.mem_cons_of_mem a hb))
      (hstep.fitted hs))

end Painted

section Calls

variable (hm : Roomy m)
include hm

theorem Painted.drawClipped (hs : Fitted m s) (hr : r.Solid)
    (hscreen : (screenRect m.width m.height).Covers r) (rgb : UInt32) :
    Painted r.Has s (s.drawClipped r rgb) := by
  unfold Screen.drawClipped
  rw [if_pos hs.ready, if_pos (hs.fits hm hr hscreen)]
  exact ⟨rfl, fun px py hp => if_neg hp⟩

theorem Painted.drawPixel (hs : Fitted m s) {x y : Int}
    (hR : (screenRect m.width m.height).Has x y → R x y) (rgb : UInt32) :
    Painted R s (s.drawPixel x y rgb) := by
  unfold Screen.drawPixel
  rw [hs.mode]
  split
  · exact .refl R s
  · rename_i hin
    have hscreen : (screenRect m.width m.height).Has x y := by
      rw [screenRect_has]
      omega
    refine (Painted.drawClipped hm hs ⟨Int.one_pos, Int.one_pos⟩ ?_ rgb).mono (fun px py hp => ?_)
    · rw [screenRect_has] at hscreen
      unfold Rect.Covers Rect.right Rect.bottom screenRect
      dsimp only
      omega
    · unfold Rect.Has Rect.right Rect.bottom at hp
      dsimp only at hp
      obtain ⟨rfl, rfl⟩ : px = x ∧ py = y := by omega
      exact hR hscreen

theorem Painted.fillRectRgb (hs : Fitted m s) (r : Rect) (rgb : UInt32) :
    Painted (Marks true m.width m.height r) s (s.fillRectRgb r rgb) := by
  unfold Screen.fillRectRgb
  rw [hs.mode]
  split
  · exact .refl _ s
  · rename_i hpos
    cases hc : clipRect m.width m.height r with
    | none => exact .refl _ s
    | some c =>
      obtain ⟨hsolid, hscreen⟩ := clipRect_onScreen hc
      refine (Painted.drawClipped hm hs hsolid hscreen rgb).mono (fun px py hp => ?_)
      exact ⟨rfl, by omega, by omega, c, hc, hp⟩

theorem marks_onScreen (hscreen : (screenRect m.width m.height).Covers r) (hp : r.Has px py) :
    Marks true m.width m.height r px py := by
  obtain ⟨hw, hh⟩ := hm.bounds
  have hfits : FitsInt (r.x + r.w) ∧ FitsInt (r.y + r.h) := by
    have hsolid := hp.solid
    unfold Rect.Solid at hsolid
    unfold Rect.Covers Rect.right Rect.bottom screenRect at hscreen
    unfold FitsInt
    dsimp only at hscreen
    omega
  exact ⟨rfl, hp.solid.1, hp.solid.2, (clipRect_has hfits.1 hfits.2).mpr ⟨hp, hscreen.has hp⟩⟩

end Calls

/-! ## Copying -/

/-- `s'` is `s` but for framebuffer pixels that were copied; those of `R` were. -/
structure Copied (R : Int → Int → Prop) (s s' : Screen) : Prop where
  same : s' = { s with front := s'.front }
  cases : ∀ px py, s'.front px py = s.front px py ∨ s'.front px py = s.presentPixel (s.back px py)
  copied : ∀ px py, R px py → s'.front px py = s.presentPixel (s.back px py)

namespace Copied

theorem fitted (h : Copied R s s') (hs : Fitted m s) : Fitted m s' := by
  rw [h.same]
  exact ⟨hs.mode, hs.ready, hs.pitch, hs.fast⟩

theorem trans (h : Copied R s s') (h' : Copied R' s' s'') :
    Copied (fun px py => R px py ∨ R' px py) s s'' := by
  have hback : s'.back = s.back := by rw [h.same]
  have hpixel : s'.presentPixel = s.presentPixel := by
    rw [h.same]
    rfl
  have hcases := h'.cases
  have hcopied := h'.copied
  rw [hback, hpixel] at hcases hcopied
  refine ⟨?_, fun px py => ?_, fun px py hp => ?_⟩
  · rw [h'.same, h.same]
  · rcases hcases px py with hsame | hnew
    · rw [hsame]
      exact h.cases px py
    · exact .inr hnew
  · rcases hp with hp | hp
    · rcases hcases px py with hsame | hnew
      · rw [hsame]
        exact h.copied px py hp
      · exact hnew
    · exact hcopied px py hp

end Copied

theorem Fitted.copyRect (hm : Roomy m) (hs : Fitted m s)
    (hscreen : (screenRect m.width m.height).Covers r) : Copied r.Has s (s.copyRectToFront r) := by
  unfold Screen.copyRectToFront
  split
  · rename_i hno
    refine ⟨rfl, fun px py => .inl rfl, fun px py hp => ?_⟩
    have hsolid := hp.solid
    unfold Rect.Solid at hsolid
    rcases hno with hoff | hw | hh
    · rw [hs.ready] at hoff
      cases hoff
    · omega
    · omega
  have hclip : clipRect s.mode.width s.mode.height r = clipRect m.width m.height r := by rw [hs.mode]
  rw [hclip]
  cases hc : clipRect m.width m.height r with
  | none =>
    refine ⟨rfl, fun px py => .inl rfl, fun px py hp => ?_⟩
    obtain ⟨_, _, _, c, hclip', _⟩ := marks_onScreen hm hscreen hp
    rw [hc] at hclip'
    cases hclip'
  | some c =>
    obtain ⟨hsolid, hon⟩ := clipRect_onScreen hc
    dsimp only
    rw [if_pos (hs.fits hm hsolid hon)]
    refine ⟨rfl, fun px py => ?_, fun px py hp => ?_⟩
    · dsimp only
      split
      · exact .inr rfl
      · exact .inl rfl
    · obtain ⟨_, _, _, c', hclip', hp'⟩ := marks_onScreen hm hscreen hp
      cases hc.symm.trans hclip'
      exact if_pos hp'

theorem Fitted.copyRects (hm : Roomy m) {rects : List Rect}
    (hrects : ∀ r ∈ rects, (screenRect m.width m.height).Covers r) (hs : Fitted m s) :
    Copied (Region rects) s (rects.foldl Screen.copyRectToFront s) := by
  induction rects generalizing s with
  | nil => exact ⟨rfl, fun _ _ => .inl rfl, fun _ _ hp => absurd hp region_nil⟩
  | cons r rects ih =>
    have hfirst := hs.copyRect hm (hrects r List.mem_cons_self)
    have hrest := ih (fun q hq => hrects q (List.mem_cons_of_mem r hq)) (hfirst.fitted hs)
    have hall := hfirst.trans hrest
    refine ⟨hall.same, hall.cases, fun px py hp => hall.copied px py ?_⟩
    obtain ⟨q, hq, hp⟩ := hp
    rcases List.mem_cons.mp hq with rfl | hq
    · exact .inl hp
    · exact .inr ⟨q, hq, hp⟩

/-! ## The invariant -/

/-- The pixels that the next present copies. -/
def Pending (d : Dirty) (px py : Int) : Prop :=
  if d.overflow then d.box.Has px py else Region d.rects px py

theorem Tracked.pending {Noted : Int → Int → Prop} {width height : Int} {d : Dirty}
    (h : Tracked width height Noted d) (hp : Noted px py) : Pending d px py := by
  unfold Pending
  split
  · exact h.boxed px py hp
  · rename_i ho
    exact (h.exact (by simpa using ho) px py).mpr hp

/-- Outside `Noted`, the framebuffer has the colors of the backbuffer. -/
structure Synced (m : Mode) (Noted : Int → Int → Prop) (s : Screen) : Prop where
  fitted : Fitted m s
  tracked : Tracked m.width m.height Noted s.dirty
  carries : ∀ px py, (screenRect m.width m.height).Has px py → ¬ Noted px py →
    Carries m (s.back px py) (s.front px py)

variable {Noted : Int → Int → Prop}

theorem Synced.note (h : Synced m Noted s) (hp : Painted R s s')
    (hR : ∀ px py, R px py → Marks true m.width m.height r px py) :
    Synced m (fun px py => Noted px py ∨ Marks true m.width m.height r px py) (s'.noteDirty r) := by
  have hfit := hp.fitted h.fitted
  have hdirty : s'.dirty = s.dirty := by rw [hp.same]
  have hfront : s'.front = s.front := by rw [hp.same]
  refine ⟨⟨hfit.mode, hfit.ready, hfit.pitch, hfit.fast⟩, ?_, fun px py hon hno => ?_⟩
  · unfold Screen.noteDirty
    rw [hfit.mode, hfit.ready, hdirty]
    exact h.tracked.note true r
  · rw [not_or] at hno
    show Carries m (s'.back px py) (s'.front px py)
    rw [hfront, hp.outside px py (fun hr => hno.2 (hR px py hr))]
    exact h.carries px py hon hno.1

/-- Presenting copies all that was noted. -/
theorem Synced.present (hm : Roomy m) (h : Synced m Noted s) :
    Synced m (fun _ _ => False) s.presentPending := by
  unfold Screen.presentPending
  split
  · rename_i hno
    have hidle : s.dirty = clearDirty := by
      rcases hno with hoff | hidle
      · rw [h.fitted.ready] at hoff
        cases hoff
      · exact h.tracked.idle hidle
    refine ⟨h.fitted, ?_, fun px py hon _ => h.carries px py hon (fun hp => ?_)⟩
    · rw [hidle]
      exact tracked_clear _ _
    · have := h.tracked.pending hp
      rw [hidle] at this
      exact region_nil this
  · rename_i hyes
    simp only [not_or, Bool.not_eq_false] at hyes
    have hbox := h.tracked.onScreen hyes.2
    obtain ⟨R, hcopy, hR⟩ : ∃ R, Copied R s s.copyDirty ∧ ∀ px py, Noted px py → R px py := by
      unfold Screen.copyDirty
      split
      · exact ⟨_, h.fitted.copyRect hm hbox, h.tracked.boxed⟩
      · rename_i hlist
        rw [not_or, Bool.not_eq_true] at hlist
        refine ⟨_, h.fitted.copyRects hm (fun q hq => hbox.trans (h.tracked.rects q hq).2),
          fun px py hp => (h.tracked.exact hlist.1 px py).mpr hp⟩
    have hfit := hcopy.fitted h.fitted
    have hback : s.copyDirty.back = s.back := by rw [hcopy.same]
    refine ⟨⟨hfit.mode, hfit.ready, hfit.pitch, hfit.fast⟩, tracked_clear _ _, fun px py hon _ => ?_⟩
    show Carries m (s.copyDirty.back px py) (s.copyDirty.front px py)
    rw [hback]
    by_cases hn : Noted px py
    · rw [hcopy.copied px py (hR px py hn)]
      exact h.fitted.carries _
    · rcases hcopy.cases px py with hsame | hnew
      · rw [hsame]
        exact h.carries px py hon hn
      · rw [hnew]
        exact h.fitted.carries _

end Video
end MiniDos
