import MiniDos.Lib.Raster
import MiniDos.Video.Sync

/-!
# MiniDos.Video.Bytes

The two buffers byte by byte: `backbuffer_fill.asm`, `backbuffer_present.asm` and the loops of
`video_copy_rect_to_front`, with the addresses that they compute.

* `fillRect32_eq`, `presentRows_eq`, `copyLoop_eq`: each of the loops comes to the pixels of the
  rectangle, row by row.
* `copyRect_bytes`: what the present routines in assembly leave in the framebuffer.
-/

namespace MiniDos
namespace Video

open Plane Raster

/-! ## Addresses -/

/-- `VIDEO_BACKBUFFER_BASE`. -/
def backbufferBase : UInt32 := 0x00B00000

namespace Screen

variable (s : Screen)

def backbufferPixel (x y : Int) : UInt32 :=
  backbufferBase + UInt32.ofInt (y * s.backbufferPitch) + UInt32.ofInt (x * 4)

/-- The framebuffer begins at `fb`. -/
def framebufferPixel (fb : UInt32) (x y : Int) : UInt32 :=
  fb + UInt32.ofInt (y * s.mode.pitch) + UInt32.ofInt (x * s.mode.bytesPerPixel)

end Screen

/-! ## Filling -/

section Fill

variable {σ : Type} (store : UInt32 → σ → σ)

def tailLoop : Nat → UInt32 → σ → σ
  | 0, _, st => st
  | ebx + 1, edi, st => tailLoop ebx (edi + 4) (store edi st)

def quadLoop : Nat → UInt32 → σ → σ
  | ebx + 4, edi, st =>
    quadLoop ebx (edi + 16) (store (edi + 12) (store (edi + 8) (store (edi + 4) (store edi st))))
  | ebx, edi, st => tailLoop store ebx edi st

def fillRows (esi : UInt32) (ecx : Nat) : Nat → UInt32 → σ → σ
  | 0, _, st => st
  | ebx + 1, edx, st => fillRows esi ecx ebx (edx + esi) (quadLoop store ecx edx st)

/-- `video_backbuffer_fill_rect32`; `store` is `mov [edi], eax`. -/
def fillRect32 (base pitch : UInt32) (w h : Int) (st : σ) : σ :=
  if h ≤ 0 then st else if w ≤ 0 then st else fillRows store pitch w.toNat h.toNat base st

end Fill

/-! ## Presenting -/

/-- `rep movsd`, a pixel of it. -/
def movsd (back : Ram) (esi edi : UInt32) (front : Ram) : Ram :=
  store32 front edi (load32 back esi)

/-- `.pixel24`. -/
def pixel24 (back : Ram) (esi edi : UInt32) (front : Ram) : Ram :=
  let edx := load32 back esi
  store8 (store16 front edi edx.toUInt16) (edi + 2) (edx >>> 16).toUInt8

/-- `video_backbuffer_present_src` and the others. -/
structure PresentArgs where
  src : UInt32
  dst : UInt32
  srcPitch : UInt32
  dstPitch : UInt32
  w : Int
  h : Int

/-- The two loops that `video_backbuffer_present_rect32` and `video_backbuffer_present_rect24` share;
a pixel takes `size` bytes of the framebuffer. -/
def presentRows {σ : Type} (pixel : UInt32 → UInt32 → σ → σ) (size : UInt32) (p : PresentArgs)
    (st : σ) : σ :=
  if p.h ≤ 0 then st
  else if p.w ≤ 0 then st
  else rows pixel 4 size p.srcPitch p.dstPitch p.w.toNat p.h.toNat p.src p.dst st

def presentRect32 (p : PresentArgs) (back front : Ram) : Ram := presentRows (movsd back) 4 p front
def presentRect24 (p : PresentArgs) (back front : Ram) : Ram := presentRows (pixel24 back) 3 p front

def writeFrontbufferPixel (m : Mode) (dst rgb : UInt32) (front : Ram) : Ram :=
  let packed := packRgb m rgb
  if m.bytesPerPixel = 4 then store32 front dst packed
  else if m.bytesPerPixel = 3 then
    store8 (store8 (store8 front dst packed.toUInt8) (dst + 1) (packed >>> 8).toUInt8) (dst + 2)
      (packed >>> 16).toUInt8
  else store16 front dst packed.toUInt16

namespace Screen

variable (s : Screen)

/-- The loops of `video_copy_rect_to_front`; `pixel` is the call of `write_frontbuffer_pixel`. -/
def copyLoop {σ : Type} (fb : UInt32) (pixel : UInt32 → UInt32 → σ → σ) (c : Rect) (st : σ) : σ :=
  (List.range c.h.toNat).foldl (fun st (py : Nat) =>
    let dst := s.framebufferPixel fb c.x (c.y + py)
    let src := s.backbufferPixel c.x (c.y + py)
    (List.range c.w.toNat).foldl (fun st (px : Nat) =>
      pixel (src + UInt32.ofInt (px * 4)) (dst + UInt32.ofInt (px * s.mode.bytesPerPixel)) st) st) st

def copyPixel (back : Ram) (src dst : UInt32) (front : Ram) : Ram :=
  writeFrontbufferPixel s.mode dst (load32 back src) front

def presentArgs (fb : UInt32) (c : Rect) : PresentArgs where
  src := s.backbufferPixel c.x c.y
  dst := s.framebufferPixel fb c.x c.y
  srcPitch := UInt32.ofInt s.backbufferPitch
  dstPitch := UInt32.ofInt s.mode.pitch
  w := c.w
  h := c.h

/-- The framebuffer after `video_copy_rect_to_front`. -/
def copyRectBytes (fb : UInt32) (back front : Ram) (r : Rect) : Ram :=
  if s.backbufferReady = false ∨ r.w ≤ 0 ∨ r.h ≤ 0 then front
  else
    match clipRect s.mode.width s.mode.height r with
    | none => front
    | some c =>
      if s.backbufferRectFits c then
        if s.fastPresentMode = 0 then s.copyLoop fb (s.copyPixel back) c front
        else if s.fastPresentMode = 32 then presentRect32 (s.presentArgs fb c) back front
        else presentRect24 (s.presentArgs fb c) back front
      else front

end Screen

/-! ## The pixels that the loops come to -/

theorem tailLoop_eq {σ : Type} (store : UInt32 → σ → σ) (n : Nat) (edi : UInt32) (st : σ) :
    tailLoop store n edi st = cells (fun _ d st => store d st) 0 4 n 0 edi st := by
  induction n generalizing edi st with
  | zero => rfl
  | succ n ih => rw [tailLoop, cells, ih, UInt32.add_zero]

theorem quadLoop_eq {σ : Type} (store : UInt32 → σ → σ) (n : Nat) (edi : UInt32) (st : σ) :
    quadLoop store n edi st = cells (fun _ d st => store d st) 0 4 n 0 edi st := by
  induction n using Nat.strongRecOn generalizing edi st with
  | ind n ih =>
    match n with
    | 0 => exact tailLoop_eq store 0 edi st
    | 1 => exact tailLoop_eq store 1 edi st
    | 2 => exact tailLoop_eq store 2 edi st
    | 3 => exact tailLoop_eq store 3 edi st
    | n + 4 =>
      have h8 : edi + 4 + 4 = edi + 8 := UInt32.add_assoc edi 4 4
      have h12 : edi + 8 + 4 = edi + 12 := UInt32.add_assoc edi 8 4
      have h16 : edi + 12 + 4 = edi + 16 := UInt32.add_assoc edi 12 4
      rw [quadLoop, ih n (by omega)]
      simp only [cells, UInt32.add_zero, h8, h12, h16]

theorem fillRows_eq {σ : Type} (store : UInt32 → σ → σ) (pitch : UInt32) (w n : Nat) (base : UInt32)
    (st : σ) :
    fillRows store pitch w n base st = rows (fun _ d st => store d st) 0 4 0 pitch w n 0 base st := by
  induction n generalizing base st with
  | zero => rfl
  | succ n ih => rw [fillRows, rows, ih, quadLoop_eq, UInt32.add_zero]

def pixelList (c : Rect) : List (Int × Int) :=
  (List.range c.h.toNat).flatMap fun (j : Nat) =>
    (List.range c.w.toNat).map fun (i : Nat) => (c.x + i, c.y + j)

theorem mem_pixelList {c : Rect} {p : Int × Int} : p ∈ pixelList c ↔ c.Has p.1 p.2 := by
  simp only [pixelList, List.mem_flatMap, List.mem_map, List.mem_range]
  unfold Rect.Has Rect.right Rect.bottom
  constructor
  · rintro ⟨j, hj, i, hi, rfl⟩
    dsimp only
    omega
  · intro h
    exact ⟨(p.2 - c.y).toNat, by omega, (p.1 - c.x).toNat, by omega,
      Prod.ext (by dsimp only; omega) (by dsimp only; omega)⟩

theorem visits_map {ss ds sp dp s d : UInt32} {c : Rect} (address : Int × Int → UInt32 × UInt32)
    (h : ∀ i j : Nat, address (c.x + i, c.y + j) =
      cell ss ds (s + UInt32.ofNat j * sp) (d + UInt32.ofNat j * dp) i) :
    visits ss ds sp dp c.w.toNat c.h.toNat s d = (pixelList c).map address := by
  unfold visits pixelList
  rw [List.map_flatMap]
  refine List.flatMap_congr fun j _ => ?_
  rw [List.map_map]
  refine List.map_congr_left fun i _ => ?_
  exact (h i j).symm

theorem ofInt_natCast (n : Nat) : UInt32.ofInt (n : Int) = UInt32.ofNat n := by
  apply UInt32.toNat_inj.mp
  simp [UInt32.ofInt]
  omega

namespace Screen

variable (s : Screen) (fb : UInt32)

theorem backbufferPixel_add (x y : Int) (i j : Nat) :
    s.backbufferPixel (x + i) (y + j) = s.backbufferPixel x y +
      UInt32.ofNat j * UInt32.ofInt s.backbufferPitch + UInt32.ofNat i * 4 := by
  have h4 : UInt32.ofInt 4 = 4 := rfl
  unfold backbufferPixel
  rw [Int.add_mul, Int.add_mul, UInt32.ofInt_add, UInt32.ofInt_add, UInt32.ofInt_mul (j : Int),
    UInt32.ofInt_mul (i : Int), ofInt_natCast, ofInt_natCast, h4]
  grind

theorem framebufferPixel_add (x y : Int) (i j : Nat) :
    s.framebufferPixel fb (x + i) (y + j) = s.framebufferPixel fb x y +
      UInt32.ofNat j * UInt32.ofInt s.mode.pitch +
        UInt32.ofNat i * UInt32.ofNat s.mode.bytesPerPixel := by
  unfold framebufferPixel
  rw [Int.add_mul, Int.add_mul, UInt32.ofInt_add, UInt32.ofInt_add, UInt32.ofInt_mul (j : Int),
    UInt32.ofInt_mul (i : Int), ofInt_natCast, ofInt_natCast, ofInt_natCast]
  grind

end Screen

section Loops

variable {σ : Type} (s : Screen) (fb : UInt32) (c : Rect)

theorem pixelList_nil (h : c.h ≤ 0 ∨ c.w ≤ 0) : pixelList c = [] := by
  unfold pixelList
  rcases h with h | h
  · rw [Int.toNat_of_nonpos h]
    rfl
  · rw [Int.toNat_of_nonpos h]
    simp

theorem fillRect32_eq (store : UInt32 → σ → σ) (st : σ) :
    fillRect32 store (s.backbufferPixel c.x c.y) (UInt32.ofInt s.backbufferPitch) c.w c.h st =
      (pixelList c).foldl (fun st p => store (s.backbufferPixel p.1 p.2) st) st := by
  unfold fillRect32
  split
  · rw [pixelList_nil c (.inl ‹_›)]
    rfl
  split
  · rw [pixelList_nil c (.inr ‹_›)]
    rfl
  rw [fillRows_eq, rows_eq,
    visits_map (fun p => (0, s.backbufferPixel p.1 p.2)), List.foldl_map]
  intro i j
  simp only [cell, s.backbufferPixel_add, UInt32.mul_zero, UInt32.add_zero]

theorem presentRows_eq (pixel : UInt32 → UInt32 → σ → σ) {size : UInt32}
    (hsize : size = UInt32.ofNat s.mode.bytesPerPixel) (st : σ) :
    presentRows pixel size (s.presentArgs fb c) st = (pixelList c).foldl
      (fun st p => pixel (s.backbufferPixel p.1 p.2) (s.framebufferPixel fb p.1 p.2) st) st := by
  unfold presentRows
  split
  · rw [pixelList_nil c (.inl ‹_›)]
    rfl
  split
  · rw [pixelList_nil c (.inr ‹_›)]
    rfl
  rw [rows_eq]
  show (visits 4 size _ _ c.w.toNat c.h.toNat _ _).foldl _ st = _
  rw [visits_map (fun p => (s.backbufferPixel p.1 p.2, s.framebufferPixel fb p.1 p.2)),
    List.foldl_map]
  intro i j
  simp only [cell, s.backbufferPixel_add, s.framebufferPixel_add, hsize, Screen.presentArgs]

theorem copyLoop_eq (pixel : UInt32 → UInt32 → σ → σ) (st : σ) :
    s.copyLoop fb pixel c st = (pixelList c).foldl
      (fun st p => pixel (s.backbufferPixel p.1 p.2) (s.framebufferPixel fb p.1 p.2) st) st := by
  unfold Screen.copyLoop pixelList
  rw [List.foldl_flatMap]
  refine congrArg (fun f => List.foldl f st _) ?_
  funext st j
  dsimp only
  rw [List.foldl_map]
  refine congrArg (fun f => List.foldl f st _) ?_
  funext st i
  have hzero : ∀ x : Int, x = x + (0 : Nat) := fun x => by simp
  have hdst : s.framebufferPixel fb c.x (c.y + j) + UInt32.ofInt (i * s.mode.bytesPerPixel) =
      s.framebufferPixel fb (c.x + i) (c.y + j) := by
    rw [s.framebufferPixel_add, UInt32.ofInt_mul, ofInt_natCast, ofInt_natCast]
    conv => lhs; rw [hzero c.x, s.framebufferPixel_add]
    simp
  have hsrc : s.backbufferPixel c.x (c.y + j) + UInt32.ofInt (i * 4) =
      s.backbufferPixel (c.x + i) (c.y + j) := by
    rw [s.backbufferPixel_add, UInt32.ofInt_mul, ofInt_natCast]
    conv => lhs; rw [hzero c.x, s.backbufferPixel_add]
    simp
    rfl
  rw [hdst, hsrc]

end Loops

/-! ## What presenting leaves -/

/-- Eight bits for each color, in the order that the fast routines write. -/
structure Mode.EightEightEight (m : Mode) : Prop where
  redSize : m.redSize = 8
  redPos : m.redPos = 16
  greenSize : m.greenSize = 8
  greenPos : m.greenPos = 8
  blueSize : m.blueSize = 8
  bluePos : m.bluePos = 0

theorem Mode.EightEightEight.pack {m : Mode} (h : m.EightEightEight) (rgb : UInt32) :
    packRgb m rgb = rgb &&& 0xFFFFFF :=
  packRgb_true h.redSize h.redPos h.greenSize h.greenPos h.blueSize h.bluePos rgb

theorem low_bytes (v : UInt32) :
    (v &&& 0xFFFFFF).toUInt8 = v.toUInt8 ∧ ((v &&& 0xFFFFFF) >>> 8).toUInt8 = (v >>> 8).toUInt8 ∧
      ((v &&& 0xFFFFFF) >>> 16).toUInt8 = (v >>> 16).toUInt8 := by
  have hand : (v &&& 0xFFFFFF).toNat = v.toNat % 2 ^ 24 := by
    rw [UInt32.toNat_and]
    exact Nat.and_two_pow_sub_one_eq_mod _ 24
  refine ⟨UInt8.toNat_inj.mp ?_, UInt8.toNat_inj.mp ?_, UInt8.toNat_inj.mp ?_⟩
  · rw [UInt32.toNat_toUInt8, UInt32.toNat_toUInt8, hand]
    omega
  · rw [UInt32.toNat_toUInt8, UInt32.toNat_toUInt8, UInt32.toNat_shiftRight,
      UInt32.toNat_shiftRight, hand]
    simp only [Nat.shiftRight_eq_div_pow, UInt32.reduceToNat, Nat.reduceMod, Nat.reducePow]
    omega
  · rw [UInt32.toNat_toUInt8, UInt32.toNat_toUInt8, UInt32.toNat_shiftRight,
      UInt32.toNat_shiftRight, hand]
    simp only [Nat.shiftRight_eq_div_pow, UInt32.reduceToNat, Nat.reduceMod, Nat.reducePow]
    omega

theorem word_bytes (v : UInt32) :
    v.toUInt16.toUInt8 = v.toUInt8 ∧ (v.toUInt16 >>> 8).toUInt8 = (v >>> 8).toUInt8 := by
  refine ⟨UInt8.toNat_inj.mp ?_, UInt8.toNat_inj.mp ?_⟩
  · rw [UInt16.toNat_toUInt8, UInt32.toNat_toUInt16, UInt32.toNat_toUInt8]
    omega
  · rw [UInt16.toNat_toUInt8, UInt16.toNat_shiftRight, UInt32.toNat_toUInt16, UInt32.toNat_toUInt8,
      UInt32.toNat_shiftRight]
    simp only [Nat.shiftRight_eq_div_pow, UInt32.reduceToNat, UInt16.reduceToNat, Nat.reduceMod,
      Nat.reducePow]
    omega

section Pixels

variable {m : Mode} {F : UInt32 → Prop} {front front' : Ram}

theorem pixel24_eq (hrgb : m.EightEightEight) (hsize : m.bytesPerPixel = 3) (back : Ram)
    (src dst : UInt32) (front : Ram) :
    pixel24 back src dst front = writeFrontbufferPixel m dst (load32 back src) front := by
  obtain ⟨h0, h8, h16⟩ := low_bytes (load32 back src)
  obtain ⟨w0, w8⟩ := word_bytes (load32 back src)
  unfold pixel24 writeFrontbufferPixel store16
  rw [hrgb.pack, if_neg (by omega), if_pos hsize]
  dsimp only
  rw [h0, h8, h16, w0, w8]

theorem movsd_agree (hrgb : m.EightEightEight) (hsize : m.bytesPerPixel = 4) (back : Ram)
    {src dst : UInt32} (hF : F (dst + 3)) (h : AgreeOff F front front') :
    AgreeOff F (movsd back src dst front)
      (writeFrontbufferPixel m dst (load32 back src) front') := by
  obtain ⟨h0, h8, h16⟩ := low_bytes (load32 back src)
  unfold movsd writeFrontbufferPixel store32
  rw [hrgb.pack, if_pos hsize]
  exact (((h.store8 (.inl h0.symm)).store8 (.inl h8.symm)).store8 (.inl h16.symm)).store8 (.inr hF)

theorem writeFrontbufferPixel_agree {dst : UInt32}
    (hF : ∀ k < m.bytesPerPixel, F (dst + UInt32.ofNat k)) (rgb : UInt32)
    (h : AgreeOff F front front') : AgreeOff F (writeFrontbufferPixel m dst rgb front) front' := by
  have h0 : dst = dst + UInt32.ofNat 0 := (UInt32.add_zero dst).symm
  unfold writeFrontbufferPixel store32 store16
  dsimp only
  split
  · rename_i h4
    rw [h4] at hF
    have hdst : F dst := h0 ▸ hF 0 (by omega)
    exact (((h.store8_left hdst _).store8_left (hF 1 (by omega)) _).store8_left
      (hF 2 (by omega)) _).store8_left (hF 3 (by omega)) _
  split
  · rename_i h3
    rw [h3] at hF
    have hdst : F dst := h0 ▸ hF 0 (by omega)
    exact ((h.store8_left hdst _).store8_left (hF 1 (by omega)) _).store8_left (hF 2 (by omega)) _
  · have h2 : 2 ≤ m.bytesPerPixel := by
      unfold Mode.bytesPerPixel
      split
      · exact Nat.le_refl 2
      · split <;> omega
    have hdst : F dst := h0 ▸ hF 0 (by omega)
    exact (h.store8_left hdst _).store8_left (hF 1 (by omega)) _

end Pixels

namespace Screen

variable (s : Screen) (fb : UInt32)

def ByteOf (r : Rect) (a : UInt32) : Prop :=
  ∃ c px py k, clipRect s.mode.width s.mode.height r = some c ∧ c.Has px py ∧
    k < s.mode.bytesPerPixel ∧ a = s.framebufferPixel fb px py + UInt32.ofNat k

def FourthByteOf (r : Rect) (a : UInt32) : Prop :=
  ∃ c px py, clipRect s.mode.width s.mode.height r = some c ∧ c.Has px py ∧
    s.mode.bytesPerPixel = 4 ∧ a = s.framebufferPixel fb px py + 3

def slow : Screen := { s with fastPresentMode := 0 }

variable {s fb}

theorem FourthByteOf.byteOf {r : Rect} {a : UInt32} (h : s.FourthByteOf fb r a) :
    s.ByteOf fb r a := by
  obtain ⟨c, px, py, hc, hp, hsize, rfl⟩ := h
  exact ⟨c, px, py, 3, hc, hp, by omega, rfl⟩

variable {back front : Ram} {r : Rect}

theorem copyRect_cases (s : Screen) (fb : UInt32) (back front : Ram) (r : Rect) :
    (s.copyRectBytes fb back front r = front ∧ s.slow.copyRectBytes fb back front r = front) ∨
      ∃ c, clipRect s.mode.width s.mode.height r = some c ∧
        s.slow.copyRectBytes fb back front r = s.slow.copyLoop fb (s.copyPixel back) c front ∧
        s.copyRectBytes fb back front r =
          if s.fastPresentMode = 0 then s.copyLoop fb (s.copyPixel back) c front
          else if s.fastPresentMode = 32 then presentRect32 (s.presentArgs fb c) back front
          else presentRect24 (s.presentArgs fb c) back front := by
  by_cases hno : s.backbufferReady = false ∨ r.w ≤ 0 ∨ r.h ≤ 0
  · exact .inl ⟨if_pos hno, if_pos hno⟩
  have hclip : clipRect s.slow.mode.width s.slow.mode.height r =
      clipRect s.mode.width s.mode.height r := rfl
  unfold copyRectBytes
  rw [if_neg hno, if_neg (show ¬ (s.slow.backbufferReady = false ∨ r.w ≤ 0 ∨ r.h ≤ 0) from hno),
    hclip]
  cases hc : clipRect s.mode.width s.mode.height r with
  | none => exact .inl ⟨rfl, rfl⟩
  | some c =>
    by_cases hfits : s.backbufferRectFits c = true
    · exact .inr ⟨c, rfl, if_pos hfits, if_pos hfits⟩
    · exact .inl ⟨if_neg hfits, if_neg hfits⟩

theorem slow_bytes : AgreeOff (s.ByteOf fb r) (s.slow.copyRectBytes fb back front r) front := by
  rcases copyRect_cases s fb back front r with ⟨-, h⟩ | ⟨c, hc, h, -⟩
  · rw [h]
    exact agreeOff_refl _ _
  · rw [h, copyLoop_eq]
    refine List.foldlRecOn (motive := fun out => AgreeOff (s.ByteOf fb r) out front) _ _
      (agreeOff_refl _ _) (fun out hout p hp => ?_)
    exact writeFrontbufferPixel_agree
      (fun k hk => ⟨c, p.1, p.2, k, hc, mem_pixelList.mp hp, hk, rfl⟩) _ hout

theorem fast_agree (hrgb : s.mode.EightEightEight)
    (hfast : s.fastPresentMode = 32 ∧ s.mode.bytesPerPixel = 4 ∨
      s.fastPresentMode = 24 ∧ s.mode.bytesPerPixel = 3) :
    AgreeOff (s.FourthByteOf fb r) (s.copyRectBytes fb back front r)
      (s.slow.copyRectBytes fb back front r) := by
  rcases copyRect_cases s fb back front r with ⟨h, h'⟩ | ⟨c, hc, h', h⟩
  · rw [h, h']
    exact agreeOff_refl _ _
  rw [h, h', copyLoop_eq s.slow]
  rcases hfast with ⟨hmode, hsize⟩ | ⟨hmode, hsize⟩
  · rw [if_neg (by omega), if_pos hmode, presentRect32,
      presentRows_eq s fb c (movsd back) (by rw [hsize]; rfl)]
    refine List.foldl_rel (agreeOff_refl _ _) (fun p hp st st' hst => ?_)
    exact movsd_agree hrgb hsize back ⟨c, p.1, p.2, hc, mem_pixelList.mp hp, hsize, rfl⟩ hst
  · rw [if_neg (by omega), if_neg (by omega), presentRect24,
      presentRows_eq s fb c (pixel24 back) (by rw [hsize]; rfl)]
    simp only [pixel24_eq hrgb hsize]
    exact agreeOff_refl _ _

theorem row_end_le {x y p : Int} (hp : 0 ≤ p) (h : x < y) : x * p + p ≤ y * p := by
  have hle : (x + 1) * p ≤ y * p := Int.mul_le_mul_of_nonneg_right h hp
  rw [Int.add_mul] at hle
  omega

theorem framebufferPixel_toNat (hsize : s.mode.bytesPerPixel = 4)
    (hpitch : 4 * s.mode.width ≤ s.mode.pitch)
    (hroom : fb.toNat + s.mode.height * s.mode.pitch ≤ 2 ^ 32) {x y : Int} {j : Nat}
    (hp : 0 ≤ x ∧ x < s.mode.width ∧ 0 ≤ y ∧ y < s.mode.height) (hj : j < 4) :
    ((s.framebufferPixel fb x y + UInt32.ofNat j).toNat : Int) =
      fb.toNat + y * s.mode.pitch + x * 4 + j := by
  obtain ⟨hx0, hx, hy0, hy⟩ := hp
  have hrow := row_end_le (p := s.mode.pitch) (by omega) hy
  have hpos : 0 ≤ y * s.mode.pitch := Int.mul_nonneg hy0 (by omega)
  unfold framebufferPixel
  rw [hsize]
  simp only [UInt32.ofInt, UInt32.toNat_add, UInt32.toNat_ofNat']
  omega

/-- With rows that do not overlap, no color is at the place of a fourth byte. -/
theorem not_fourthByteOf (hpitch : 4 * s.mode.width ≤ s.mode.pitch)
    (hroom : fb.toNat + s.mode.height * s.mode.pitch ≤ 2 ^ 32) {px py : Int} {k : Nat}
    (hp : (screenRect s.mode.width s.mode.height).Has px py) (hk : k < 3) :
    ¬ s.FourthByteOf fb r (s.framebufferPixel fb px py + UInt32.ofNat k) := by
  rintro ⟨c, qx, qy, hc, hq, hsize, heq⟩
  have hq' := (clipRect_onScreen hc).2.has hq
  rw [screenRect_has] at hp hq'
  have h1 := framebufferPixel_toNat hsize hpitch hroom hp (Nat.lt_succ_of_lt hk)
  have h2 : ((s.framebufferPixel fb qx qy + 3).toNat : Int) = _ :=
    framebufferPixel_toNat hsize hpitch hroom hq' (j := 3) (by decide)
  rw [heq, h2] at h1
  clear h2 heq hroom
  obtain ⟨hx0, hx, -, -⟩ := hp
  obtain ⟨hx0', hx', -, -⟩ := hq'
  -- The rows are the same, or one of them begins behind the end of the other.
  rcases Int.lt_trichotomy py qy with hlt | heq' | hgt
  · have hrow := row_end_le (p := s.mode.pitch) (by omega) hlt
    omega
  · rw [heq'] at h1
    omega
  · have hrow := row_end_le (p := s.mode.pitch) (by omega) hgt
    omega

/-- Presenting with the routines in assembly, and pixel by pixel: the same bytes, but for those that
are the fourth byte of a pixel of 32 bits, and no byte beside the rectangle. -/
theorem copyRect_bytes (s : Screen) (fb : UInt32) (back front : Ram) (r : Rect)
    (hrgb : s.mode.EightEightEight)
    (hfast : s.fastPresentMode = 32 ∧ s.mode.bytesPerPixel = 4 ∨
      s.fastPresentMode = 24 ∧ s.mode.bytesPerPixel = 3) :
    (∀ a, ¬ s.FourthByteOf fb r a →
      s.copyRectBytes fb back front r a = s.slow.copyRectBytes fb back front r a) ∧
    (s.mode.bytesPerPixel = 3 →
      s.copyRectBytes fb back front r = s.slow.copyRectBytes fb back front r) ∧
    (4 * s.mode.width ≤ s.mode.pitch →
      fb.toNat + s.mode.height * s.mode.pitch ≤ 2 ^ 32 → ∀ px py, ∀ k < 3,
      (screenRect s.mode.width s.mode.height).Has px py →
      s.copyRectBytes fb back front r (s.framebufferPixel fb px py + UInt32.ofNat k) =
        s.slow.copyRectBytes fb back front r (s.framebufferPixel fb px py + UInt32.ofNat k)) ∧
    ∀ a, ¬ s.ByteOf fb r a →
      s.copyRectBytes fb back front r a = front a ∧
        s.slow.copyRectBytes fb back front r a = front a := by
  have hagree : AgreeOff (s.FourthByteOf fb r) (s.copyRectBytes fb back front r)
      (s.slow.copyRectBytes fb back front r) := fast_agree hrgb hfast
  refine ⟨hagree, fun hsize => ?_, fun hpitch hroom px py k hk hp => ?_, fun a ha => ?_⟩
  · funext a
    refine hagree a ?_
    rintro ⟨c, px, py, -, -, h4, -⟩
    omega
  · exact hagree _ (not_fourthByteOf hpitch hroom hp hk)
  · have hslow : s.slow.copyRectBytes fb back front r a = front a := slow_bytes a ha
    exact ⟨(hagree a (fun h => ha h.byteOf)).trans hslow, hslow⟩

end Screen

/-- 320 by 200 pixels of 32 bits, with a pitch that `init_video_once` takes though it has no room for
a row. -/
def narrowMode : Mode := ⟨320, 200, 321, 32, 8, 16, 8, 8, 8, 0⟩

def narrowScreen : Screen := initScreen narrowMode (fun _ _ => 0) (fun _ _ => 0)

def fullBack : Ram := fun _ => 0xFF

def vesaScreen : Screen := initScreen { narrowMode with pitch := 1280 } (fun _ _ => 0) (fun _ _ => 0)

/-- The first pixel of the second row, with the framebuffer at 3 GiB. -/
theorem copyRect_bytes_vesa :
    vesaScreen.copyRectBytes 0xC0000000 fullBack (fun _ => 0) ⟨0, 0, 2, 2⟩
        (vesaScreen.framebufferPixel 0xC0000000 0 1 + UInt32.ofNat 2) =
      vesaScreen.slow.copyRectBytes 0xC0000000 fullBack (fun _ => 0) ⟨0, 0, 2, 2⟩
        (vesaScreen.framebufferPixel 0xC0000000 0 1 + UInt32.ofNat 2) :=
  (Screen.copyRect_bytes vesaScreen 0xC0000000 fullBack (fun _ => 0) ⟨0, 0, 2, 2⟩
    ⟨rfl, rfl, rfl, rfl, rfl, rfl⟩ (.inl ⟨by decide, by decide⟩)).2.2.1 (by decide) (by decide) 0 1
      2 (by decide) (by decide)

/-- The blue byte of pixel 81 of the first row is the fourth byte of the first pixel of the next. -/
theorem narrow_differs : narrowMode.Graphics ∧ narrowMode.EightEightEight ∧
    narrowScreen.fastPresentMode = 32 ∧
    narrowScreen.copyRectBytes 0xC0000000 fullBack (fun _ => 0) ⟨0, 0, 82, 2⟩
        (narrowScreen.framebufferPixel 0xC0000000 81 0) ≠
      narrowScreen.slow.copyRectBytes 0xC0000000 fullBack (fun _ => 0) ⟨0, 0, 82, 2⟩
        (narrowScreen.framebufferPixel 0xC0000000 81 0) := by
  refine ⟨?_, ⟨rfl, rfl, rfl, rfl, rfl, rfl⟩, by decide, ?_⟩
  · unfold Mode.Graphics narrowMode
    decide
  · decide +kernel

end Video
end MiniDos
