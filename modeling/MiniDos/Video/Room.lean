import MiniDos.Video.Bytes
import MiniDos.Video.Frame

/-!
# MiniDos.Video.Room

The room that the backbuffer has: no drawing function and no present turns it off, and the words that
they read and write lie in it.

* `Fitted.step`: one function.
* `pixel_inBackbuffer`: the address of a pixel of the screen.
* `backbuffer_has_room`: any number of functions.
-/

namespace MiniDos
namespace Video

open Plane Raster

/-- A function that draws or presents; the calls, and what the console uses of their parts. -/
inductive Stroke where
  | fillRectRgb (r : Rect) (rgb : UInt32)
  | drawPixel (x y : Int) (rgb : UInt32)
  | noteDirty (r : Rect)
  | copyRectToFront (r : Rect)
  | call (c : Call)

def Stroke.run (font : Font) (s : Screen) : Stroke → Screen
  | .fillRectRgb r rgb => s.fillRectRgb r rgb
  | .drawPixel x y rgb => s.drawPixel x y rgb
  | .noteDirty r => s.noteDirty r
  | .copyRectToFront r => s.copyRectToFront r
  | .call c => c.run font s

/-! ## Where words are read and written -/

/-- The word at `a` lies in the backbuffer. -/
def InBackbuffer (a : UInt32) : Prop :=
  backbufferBase.toNat ≤ a.toNat ∧
    (a.toNat : Int) + 4 ≤ backbufferBase.toNat + backbufferMaxBytes

def noteAddress (a : UInt32) (as : List UInt32) : List UInt32 := as ++ [a]

namespace Screen

variable (s : Screen)

/-- What `video_backbuffer_fill_rect32` writes for a clipped rectangle. -/
def fillStores (c : Rect) : List UInt32 :=
  fillRect32 noteAddress (s.backbufferPixel c.x c.y) (UInt32.ofInt s.backbufferPitch) c.w c.h []

/-- What `video_copy_rect_to_front` reads for a clipped rectangle. -/
def presentLoads (fb : UInt32) (c : Rect) : List UInt32 :=
  let note (src : UInt32) (_ : UInt32) (as : List UInt32) : List UInt32 := noteAddress src as
  if s.fastPresentMode = 0 then s.copyLoop fb note c []
  else if s.fastPresentMode = 32 then presentRows note 4 (s.presentArgs fb c) []
  else presentRows note 3 (s.presentArgs fb c) []

/-- What `video_blit_surface` writes and, where it blends, reads for the visible part `r`. -/
def blitWords (b : Blit) (r : Rect) : List UInt32 :=
  if b.Plain s r then
    (List.range r.h.toNat).flatMap fun (py : Nat) => (List.range r.w.toNat).map fun (px : Nat) =>
      s.backbufferPixel r.x (r.y + py) + UInt32.ofNat px * 4
  else (b.scaledSamples r).map fun p => s.backbufferPixel p.x p.y

end Screen

variable {m : Mode} {s : Screen} {r c : Rect} {font : Font}

/-! ## The backbuffer stays -/

theorem Fitted.noteDirty (h : Fitted m s) (r : Rect) : Fitted m (s.noteDirty r) :=
  ⟨h.mode, h.ready, h.pitch, h.fast⟩

section Calls

variable (hm : Roomy m)
include hm

theorem Fitted.copyRectToFront (h : Fitted m s) (r : Rect) : Fitted m (s.copyRectToFront r) := by
  unfold Screen.copyRectToFront
  split
  · exact h
  cases hc : clipRect s.mode.width s.mode.height r with
  | none => exact h
  | some c =>
    rw [h.mode] at hc
    obtain ⟨hsolid, hscreen⟩ := clipRect_onScreen hc
    dsimp only
    rw [if_pos (h.fits hm hsolid hscreen)]
    exact ⟨h.mode, h.ready, h.pitch, h.fast⟩

theorem Fitted.presentPending (h : Fitted m s) : Fitted m s.presentPending := by
  have hcopy : Fitted m s.copyDirty := by
    unfold Screen.copyDirty
    split
    · exact h.copyRectToFront hm _
    · exact List.foldlRecOn s.dirty.rects Screen.copyRectToFront h
        (fun _ ht r _ => ht.copyRectToFront hm r)
  unfold Screen.presentPending
  split
  · exact h
  · exact ⟨hcopy.mode, hcopy.ready, hcopy.pitch, hcopy.fast⟩

theorem Fitted.maybePresent (h : Fitted m s) : Fitted m s.maybePresentPending := by
  unfold Screen.maybePresentPending
  split
  · exact h
  · exact h.presentPending hm

theorem Fitted.setDeferred (h : Fitted m s) (enabled : Bool) :
    Fitted m (s.setDeferredPresent enabled) := by
  have hset : ∀ d, Fitted m { s with presentDeferred := d } := fun _ =>
    ⟨h.mode, h.ready, h.pitch, h.fast⟩
  unfold Screen.setDeferredPresent
  split
  · exact h
  · split
    · exact hset true
    · exact (hset false).presentPending hm

theorem Fitted.fillRectRgb (h : Fitted m s) (r : Rect) (rgb : UInt32) :
    Fitted m (s.fillRectRgb r rgb) :=
  (Painted.fillRectRgb hm h r rgb).fitted h

theorem Fitted.drawPixel (h : Fitted m s) (x y : Int) (rgb : UInt32) :
    Fitted m (s.drawPixel x y rgb) :=
  (Painted.drawPixel hm h (fun hp => hp) rgb).fitted h

theorem Fitted.fillBatch (h : Fitted m s) (rects : List Screen.ColorRect) :
    Fitted m (s.videoFillRectBatch rects).1 := by
  unfold Screen.videoFillRectBatch
  split
  · exact h
  · refine Fitted.maybePresent hm ?_
    exact List.foldlRecOn rects Screen.fillAndNote h
      (fun _ ht r _ => (ht.fillRectRgb hm r.rect r.rgb).noteDirty r.rect)

theorem Fitted.blit (mem : Nat → UInt8) (h : Fitted m s) (b : Blit) :
    Fitted m (videoBlitSurface mem s b).1 := by
  unfold videoBlitSurface
  split
  · exact h
  rename_i hok
  simp only [not_or, not_not] at hok
  obtain ⟨hb, hd, _⟩ := hok
  rw [h.mode]
  cases hw : b.window m.width m.height with
  | none => exact h
  | some r =>
    exact (((Painted.drawSurface hm mem h hb hd hw).fitted h).noteDirty r).maybePresent hm

theorem Fitted.drawText (h : Fitted m s) (x y : Int) (text : List UInt8) (fg bg : UInt32)
    (clip : Rect) (flags : UInt32) (fullGlyphs : Bool) :
    Fitted m (videoDrawTextImpl font s x y text fg bg clip flags fullGlyphs).1 := by
  unfold videoDrawTextImpl
  split
  · exact h
  cases textClip s.mode.width s.mode.height clip with
  | none => exact h
  | some wanted =>
    dsimp only
    cases clipRect s.mode.width s.mode.height wanted with
    | none => exact h
    | some visible =>
      have hstart : Inked visible s ⟨s, none⟩ := ⟨.refl _ s, fun box hb => nomatch hb⟩
      have htext : Inked visible s (inkText font visible fg bg
          (decide (flags &&& textTransparentBg ≠ 0)) x fullGlyphs text x y ⟨s, none⟩) :=
        hstart.text hm h x fullGlyphs text x y
      refine Fitted.maybePresent hm ?_
      unfold noteInk
      split
      · exact htext.painted.fitted h
      · exact (htext.painted.fitted h).noteDirty _

theorem Fitted.step (font : Font) (h : Fitted m s) (a : Stroke) : Fitted m (a.run font s) := by
  cases a with
  | fillRectRgb r rgb => exact h.fillRectRgb hm r rgb
  | drawPixel x y rgb => exact h.drawPixel hm x y rgb
  | noteDirty r => exact h.noteDirty r
  | copyRectToFront r => exact h.copyRectToFront hm r
  | call c =>
    cases c with
    | fillRect r =>
      show Fitted m (s.videoFillRect r)
      unfold Screen.videoFillRect
      split
      · exact h
      · exact h.fillBatch hm [r]
    | fillRectBatch rects => exact h.fillBatch hm rects
    | blitSurface mem b => exact h.blit hm mem b
    | drawTextAt x y text fg bg => exact h.drawText hm _ _ text fg bg _ 0 true
    | drawTextClipped x y text fg bg clip flags =>
      exact h.drawText hm x y text fg bg clip flags false
    | clearColor rgb =>
      show Fitted m (s.videoClearColor rgb)
      unfold Screen.videoClearColor
      rw [if_pos h.ready]
      exact ((h.fillRectRgb hm _ rgb).noteDirty _).maybePresent hm
    | presentPending => exact h.presentPending hm
    | setDeferredPresent enabled => exact h.setDeferred hm enabled

/-! ## The words lie in it -/

theorem pixel_inBackbuffer (h : Fitted m s) {x y : Int}
    (hp : (screenRect m.width m.height).Has x y) : InBackbuffer (s.backbufferPixel x y) := by
  obtain ⟨hw, hh⟩ := hm.bounds
  rw [screenRect_has] at hp
  have hpitch : m.width * 4 ≤ alignedPitch m.width ∧ alignedPitch m.width ≤ 5120 := by
    unfold alignedPitch
    omega
  have hrow : y * alignedPitch m.width ≤ 1023 * alignedPitch m.width :=
    Int.mul_le_mul_of_nonneg_right (by omega) (by omega)
  have hpos : 0 ≤ y * alignedPitch m.width := Int.mul_nonneg hp.2.2.1 (by omega)
  have hbase : backbufferBase.toNat = 0x00B00000 := rfl
  have hnat : ((s.backbufferPixel x y).toNat : Int) =
      0x00B00000 + y * alignedPitch m.width + x * 4 := by
    unfold Screen.backbufferPixel
    rw [h.pitch, UInt32.toNat_add, UInt32.toNat_add, hbase]
    simp only [UInt32.ofInt, UInt32.toNat_ofNat']
    omega
  unfold InBackbuffer backbufferMaxBytes
  omega

omit hm in
theorem foldl_noteAddress {address : Int × Int → UInt32} (l : List (Int × Int))
    (as : List UInt32) :
    l.foldl (fun as p => noteAddress (address p) as) as = as ++ l.map address := by
  show l.foldl (fun as p => as ++ [address p]) as = _
  rw [List.foldl_append_eq_append, ← List.flatMap_def, ← List.map_eq_flatMap]

omit hm in
theorem fillStores_eq (s : Screen) (c : Rect) :
    s.fillStores c = (pixelList c).map fun p => s.backbufferPixel p.1 p.2 := by
  unfold Screen.fillStores
  rw [fillRect32_eq, foldl_noteAddress]
  rfl

omit hm in
theorem detectFastPresentMode_size (m : Mode) (ready : Bool) :
    detectFastPresentMode m ready = 0 ∨
      (detectFastPresentMode m ready = 32 ∧ m.bytesPerPixel = 4) ∨
      (detectFastPresentMode m ready = 24 ∧ m.bytesPerPixel = 3) := by
  unfold detectFastPresentMode
  split
  · exact .inl rfl
  split
  · exact .inl rfl
  split
  · exact .inr (.inl ⟨rfl, ‹_›⟩)
  split
  · exact .inr (.inr ⟨rfl, ‹_›⟩)
  · exact .inl rfl

omit hm in
theorem presentLoads_eq (h : Fitted m s) (fb : UInt32) (c : Rect) :
    s.presentLoads fb c = (pixelList c).map fun p => s.backbufferPixel p.1 p.2 := by
  have hfast := h.fast
  unfold Screen.presentLoads
  dsimp only
  rcases detectFastPresentMode_size m true with hslow | ⟨h32, hsize⟩ | ⟨h24, hsize⟩
  · rw [if_pos (hfast.trans hslow), copyLoop_eq, foldl_noteAddress]
    rfl
  · rw [if_neg (by omega), if_pos (hfast.trans h32),
      presentRows_eq s fb c _ (by rw [h.mode, hsize]; rfl), foldl_noteAddress]
    rfl
  · rw [if_neg (by omega), if_neg (by omega),
      presentRows_eq s fb c _ (by rw [h.mode, hsize]; rfl), foldl_noteAddress]
    rfl

theorem blitWords_inBackbuffer (h : Fitted m s) {b : Blit} (hb : b.SurfaceOk) (hd : b.DestOk)
    (hw : b.window m.width m.height = some r) {a : UInt32} (ha : a ∈ s.blitWords b r) :
    InBackbuffer a := by
  obtain ⟨⟨hsolid, hscreen⟩, _⟩ := Blit.window_spec hw
  unfold Screen.blitWords at ha
  split at ha
  · simp only [List.mem_flatMap, List.mem_map, List.mem_range] at ha
    obtain ⟨j, hj, i, hi, rfl⟩ := ha
    have hin : r.Has (r.x + i) (r.y + j) := by
      unfold Rect.Has Rect.right Rect.bottom
      omega
    have haddress : s.backbufferPixel (r.x + i) (r.y + j) =
        s.backbufferPixel r.x (r.y + j) + UInt32.ofNat i * 4 := by
      have hrow := s.backbufferPixel_add r.x (r.y + j) i 0
      simp only [Nat.cast_zero, add_zero] at hrow
      rw [hrow]
      simp
    rw [← haddress]
    exact pixel_inBackbuffer hm h (hscreen.has hin)
  · obtain ⟨p, hp, rfl⟩ := List.mem_map.mp ha
    exact pixel_inBackbuffer hm h (hscreen.has (Blit.scaledSamples_spec hb hd hw hp).1)

end Calls

/-- With a backbuffer at boot, it stays whatever is drawn and presented, every clipped rectangle fits
into it, and the words that fills, single pixels and blits write and that presents read lie in it. -/
theorem backbuffer_has_room (font : Font) (m : Mode) (back front : Int → Int → UInt32)
    (hgraphics : m.Graphics) (hready : (initScreen m back front).backbufferReady = true)
    (strokes : List Stroke) :
    let s := strokes.foldl (Stroke.run font) (initScreen m back front)
    s.backbufferReady = true ∧
    (∀ r c, clipRect m.width m.height r = some c → s.backbufferRectFits c = true ∧
      (∀ a ∈ s.fillStores c, InBackbuffer a) ∧
      ∀ fb, ∀ a ∈ s.presentLoads fb c, InBackbuffer a) ∧
    (∀ x y, (screenRect m.width m.height).Has x y →
      s.backbufferRectFits ⟨x, y, 1, 1⟩ = true ∧ InBackbuffer (s.backbufferPixel x y)) ∧
    ∀ b r, b.SurfaceOk → b.DestOk → b.window m.width m.height = some r →
      s.backbufferRectFits r = true ∧ ∀ a ∈ s.blitWords b r, InBackbuffer a := by
  have hm : Roomy m := by
    obtain ⟨hwidth, hheight, _, _⟩ := hgraphics
    exact ⟨by omega, by omega, hready⟩
  have hrun : Fitted m (strokes.foldl (Stroke.run font) (initScreen m back front)) :=
    List.foldlRecOn strokes (Stroke.run font) (hm.fitted back front) (fun _ h a _ => h.step hm font a)
  dsimp only
  generalize strokes.foldl (Stroke.run font) (initScreen m back front) = s at hrun ⊢
  refine ⟨hrun.ready, fun r c hc => ?_, fun x y hp => ?_, fun b r hb hd hw => ?_⟩
  · obtain ⟨hsolid, hscreen⟩ := clipRect_onScreen hc
    refine ⟨hrun.fits hm hsolid hscreen, fun a ha => ?_, fun fb a ha => ?_⟩
    · rw [fillStores_eq] at ha
      obtain ⟨p, hp, rfl⟩ := List.mem_map.mp ha
      exact pixel_inBackbuffer hm hrun (hscreen.has (mem_pixelList.mp hp))
    · rw [presentLoads_eq hrun] at ha
      obtain ⟨p, hp, rfl⟩ := List.mem_map.mp ha
      exact pixel_inBackbuffer hm hrun (hscreen.has (mem_pixelList.mp hp))
  · refine ⟨hrun.fits hm ⟨Int.one_pos, Int.one_pos⟩ ?_, pixel_inBackbuffer hm hrun hp⟩
    rw [screenRect_has] at hp
    unfold Rect.Covers Rect.right Rect.bottom screenRect
    dsimp only
    omega
  · obtain ⟨⟨hsolid, hscreen⟩, _⟩ := Blit.window_spec hw
    exact ⟨hrun.fits hm hsolid hscreen, fun a ha => blitWords_inBackbuffer hm hrun hb hd hw ha⟩

/-- The largest mode, after its screen was cleared. -/
theorem backbuffer_has_room_1280 :
    InBackbuffer (([Stroke.fillRectRgb ⟨0, 0, 1280, 1024⟩ 0].foldl (Stroke.run fun _ _ => 0)
      (initScreen ⟨1280, 1024, 5120, 32, 8, 16, 8, 8, 8, 0⟩ (fun _ _ => 0)
        (fun _ _ => 0))).backbufferPixel 1279 1023) :=
  ((backbuffer_has_room (fun _ _ => 0) ⟨1280, 1024, 5120, 32, 8, 16, 8, 8, 8, 0⟩ (fun _ _ => 0)
    (fun _ _ => 0) (by unfold Mode.Graphics; decide) (by decide)
      [Stroke.fillRectRgb ⟨0, 0, 1280, 1024⟩ 0]).2.2.1 1279 1023 (by decide)).2

end Video
end MiniDos
