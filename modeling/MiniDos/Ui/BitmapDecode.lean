import MiniDos.Ui.BitmapBounds

/-!
# MiniDos.Ui.BitmapDecode

The surface that `ui_wallpaper_surface_load` leaves has the pixels of the file.

* `Decoded`: byte for byte, the fourth of each pixel apart.
* `Done.decodeByte`: the step of the loops. `decodeRows_decoded`: all of them.
-/

namespace MiniDos
namespace Ui

open Video
open Fat16 (CStr)

structure Buffers.Apart (bufs : Buffers) : Prop where
  data : (bufs.data : Int) + bitmapMaxFileSize ≤ 2 ^ 32
  pixels : (bufs.pixels : Int) + wallpaperSurfaceMaxBytes ≤ 2 ^ 32
  apart : (bufs.data : Int) + bitmapMaxFileSize ≤ bufs.pixels ∨
    (bufs.pixels : Int) + wallpaperSurfaceMaxBytes ≤ bufs.data

/-- Byte `k` of a pixel of the file, as the surface has it. -/
def surfaceByte (bufs : Buffers) (memory : Nat → UInt8) (b : Bitmap) (x y k : Int) : UInt8 :=
  if k < 3 then memory (u32 (bufs.data + b.pixelOffset x y k)).toNat else 0

/-- The surface has the pixels of the file. -/
def Decoded (bufs : Buffers) (memory : Nat → UInt8) (b : Bitmap) : Prop :=
  ∀ x y k, b.surfacePixmap.Has x y k →
    memory (u32 (bufs.pixels + b.surfaceOffset x y k)).toNat = surfaceByte bufs memory b x y k

/-- Everything below `n` in the surface has its byte, and nothing else has changed. -/
structure Done (bufs : Buffers) (b : Bitmap) (memory : Nat → UInt8) (n : Int) (memory' : Nat → UInt8) : Prop where
  bytes : ∀ x y k, b.surfacePixmap.Has x y k → b.surfacePixmap.offset x y k < n →
    memory' (bufs.pixels + b.surfacePixmap.offset x y k).toNat = surfaceByte bufs memory b x y k
  outside : ∀ a : Nat, (a : Int) < bufs.pixels ∨ bufs.pixels + n ≤ a → memory' a = memory a

section Loops

variable {bufs : Buffers} {b : Bitmap} {memory memory' : Nat → UInt8} {x y n fileSize : Int}

/-- What the loops rely on: where the pixels are, and that the surface has room. -/
structure Spread (bufs : Buffers) (b : Bitmap) (fileSize : Int) : Prop where
  apart : bufs.Apart
  size : fileSize ≤ bitmapMaxFileSize
  bytes : 3 ≤ b.bytesPerPixel
  inside : b.PixelsInside fileSize
  room : b.surfacePixmap.Fits wallpaperSurfaceMaxBytes

theorem Spread.surface (h : Spread bufs b fileSize) {k : Int} (hin : b.surfacePixmap.Has x y k) :
    0 ≤ b.surfacePixmap.offset x y k ∧ b.surfacePixmap.offset x y k < wallpaperSurfaceMaxBytes ∧
      u32 (bufs.pixels + b.surfaceOffset x y k) = bufs.pixels + b.surfacePixmap.offset x y k := by
  have hlow : 0 ≤ b.surfacePixmap.offset x y k := Pixmap.le_offset h.room.row hin
  have hhigh := Pixmap.offset_lt h.room hin
  have hplace := h.apart.pixels
  have hmax : wallpaperSurfaceMaxBytes < 2 ^ 32 := by decide
  rw [Bitmap.surfaceOffset_eq, u32_of_range hlow (by omega), u32_of_range (by omega) (by omega)]
  exact ⟨hlow, hhigh, rfl⟩

theorem Spread.colors (h : Spread bufs b fileSize) {k : Int} (hin : b.surfacePixmap.Has x y k) (hk : k < 3) :
    b.pixmap.Has x y k := ⟨hin.x, hin.y, hin.k.1, Int.lt_of_lt_of_le hk h.bytes⟩

theorem Spread.source (h : Spread bufs b fileSize) {k : Int} (hin : b.pixmap.Has x y k) {n : Int}
    (hn : n ≤ wallpaperSurfaceMaxBytes) :
    ((u32 (bufs.data + b.pixelOffset x y k)).toNat : Int) < bufs.pixels ∨
      bufs.pixels + n ≤ (u32 (bufs.data + b.pixelOffset x y k)).toNat := by
  have hinside := h.inside x y k hin
  have hplace := h.apart.data
  have happart := h.apart.apart
  have hsize := h.size
  rw [u32_of_range (by omega) (by omega)]
  omega

theorem Done.decodeByte (hs : Spread bufs b fileSize) {k : Nat} (hin : b.surfacePixmap.Has x y k)
    (h : Done bufs b memory (b.surfacePixmap.offset x y k) memory') :
    Done bufs b memory (b.surfacePixmap.offset x y k + 1) (decodeByte bufs b x y memory' k) := by
  obtain ⟨hlow, hhigh, haddr⟩ := hs.surface hin
  have hvalue : (if k < 3 then memory' (u32 (bufs.data + b.pixelOffset x y k)).toNat else 0) =
      surfaceByte bufs memory b x y k := by
    rw [surfaceByte]
    by_cases hk : k < 3
    · have hfile : b.pixmap.Has x y k := hs.colors hin (by omega)
      rw [if_pos hk, if_pos (by omega), h.outside _ (hs.source hfile (Int.le_of_lt hhigh))]
    · rw [if_neg hk, if_neg (by omega)]
  refine ⟨fun x' y' k' hin' hlt => ?_, fun a ha => ?_⟩
  · obtain ⟨hlow', -, -⟩ := hs.surface hin'
    rw [Ui.decodeByte, hvalue, haddr, store]
    by_cases hsame : b.surfacePixmap.offset x' y' k' = b.surfacePixmap.offset x y k
    · obtain ⟨rfl, rfl, rfl⟩ := Pixmap.offset_inj hs.room.row hin' hin hsame
      rw [if_pos rfl]
    · rw [if_neg (by omega)]
      exact h.bytes x' y' k' hin' (by omega)
  · rw [Ui.decodeByte, haddr, store, if_neg (by omega)]
    exact h.outside a (by omega)

theorem surface_offset_eq (x y k : Int) : b.surfacePixmap.offset x y k = 4 * (y * b.srcW + x) + k := by
  show 0 + y * (b.srcW * 4) + x * 4 + k = _
  rw [← Int.mul_assoc]
  omega

theorem Done.decodePixel (hs : Spread bufs b fileSize) (hx : 0 ≤ x ∧ x < b.srcW) (hy : 0 ≤ y ∧ y < b.absSrcH)
    (h : Done bufs b memory (4 * (y * b.srcW + x)) memory') :
    Done bufs b memory (4 * (y * b.srcW + (x + 1))) (decodePixel bufs b x y memory') := by
  have hbyte : ∀ k : Nat, k < 4 → ∀ memory', Done bufs b memory (4 * (y * b.srcW + x) + k) memory' →
      Done bufs b memory (4 * (y * b.srcW + x) + (k + 1 : Nat)) (Ui.decodeByte bufs b x y memory' k) := by
    intro k hk memory' hdone
    have hin : b.surfacePixmap.Has x y k := ⟨hx, hy, ⟨by omega, show (k : Int) < 4 by omega⟩⟩
    rw [← surface_offset_eq] at hdone
    have hnext := hdone.decodeByte hs hin
    rw [surface_offset_eq, Int.add_assoc] at hnext
    exact hnext
  have hstart : Done bufs b memory (4 * (y * b.srcW + x) + (0 : Nat)) memory' := by
    rw [Int.natCast_zero, Int.add_zero]
    exact h
  have hend := hbyte 3 (by decide) _ (hbyte 2 (by decide) _ (hbyte 1 (by decide) _ (hbyte 0 (by decide) _ hstart)))
  have hcell : 4 * (y * b.srcW + (x + 1)) = 4 * (y * b.srcW + x) + (3 + 1 : Nat) := by omega
  rw [hcell]
  exact hend

theorem Done.decodeRow (hs : Spread bufs b fileSize) (hy : 0 ≤ y ∧ y < b.absSrcH) (n : Nat) (hn : n ≤ b.srcW)
    (h : Done bufs b memory (4 * (y * b.srcW)) memory') :
    Done bufs b memory (4 * (y * b.srcW + n)) (decodeRow bufs b y n memory') := by
  induction n with
  | zero =>
    rw [Int.natCast_zero, Int.add_zero]
    exact h
  | succ n ih =>
    rw [Int.natCast_succ] at hn ⊢
    exact (ih (by omega)).decodePixel hs ⟨by omega, by omega⟩ hy

theorem Done.decodeRows (hs : Spread bufs b fileSize) (hw : 0 ≤ b.srcW) (memory : Nat → UInt8) (n : Nat)
    (hn : n ≤ b.absSrcH) : Done bufs b memory (4 * (n * b.srcW)) (decodeRows bufs b n memory) := by
  induction n with
  | zero =>
    refine ⟨fun x y k hin hlt => ?_, fun _ _ => rfl⟩
    have hlow := (hs.surface hin).1
    omega
  | succ n ih =>
    have hrow := (ih (by omega)).decodeRow hs ⟨by omega, by omega⟩ b.srcW.toNat (by omega)
    have hcells : (n : Int) * b.srcW + b.srcW.toNat = (n + 1 : Nat) * b.srcW := by
      rw [Int.toNat_of_nonneg hw, Int.natCast_succ, Int.add_mul, Int.one_mul]
    rw [hcells] at hrow
    exact hrow

theorem decodeRows_decoded (hs : Spread bufs b fileSize) (hw : 0 ≤ b.srcW) (hh : 0 ≤ b.absSrcH)
    (memory : Nat → UInt8) : Decoded bufs (decodeRows bufs b b.absSrcH.toNat memory) b := by
  have hdone := Done.decodeRows hs hw memory b.absSrcH.toNat (by omega)
  rw [Int.toNat_of_nonneg hh] at hdone
  have hcells : 4 * (b.absSrcH * b.srcW) ≤ wallpaperSurfaceMaxBytes := by
    have hlast : 0 + b.absSrcH * (b.srcW * 4) ≤ wallpaperSurfaceMaxBytes := hs.room.last
    rw [← Int.mul_assoc] at hlast
    omega
  intro x y k hin
  obtain ⟨hlow, hhigh, haddr⟩ := hs.surface hin
  have hlt : b.surfacePixmap.offset x y k < 4 * (b.absSrcH * b.srcW) := by
    have hfits : b.surfacePixmap.Fits (4 * (b.absSrcH * b.srcW)) := by
      refine ⟨hs.room.row, ?_⟩
      show 0 + b.absSrcH * (b.srcW * 4) ≤ _
      rw [← Int.mul_assoc]
      omega
    exact Pixmap.offset_lt hfits hin
  rw [haddr, hdone.bytes x y k hin hlt, surfaceByte, surfaceByte]
  by_cases hk : k < 3
  · have hfile : b.pixmap.Has x y k := hs.colors hin hk
    rw [if_pos hk, if_pos hk, hdone.outside _ (hs.source hfile hcells)]
  · rw [if_neg hk, if_neg hk]

end Loops

theorem wallpaperSurfaceLoad_decoded {bufs : Buffers} {calls : FileCalls} {path : CStr} {s s' t : Images}
    (happart : bufs.Apart) (hfresh : ¬ (s.cache.valid = true ∧ pathEqual s.cache.path path))
    (hnew : ¬ (s.surface.valid = true ∧ pathEqual s.surface.path path))
    (hread : readBitmap bufs calls path s = (s', true)) (hfit : SizesFit (s'.data bufs))
    (h : wallpaperSurfaceLoad bufs (some calls) (some path) s = (t, true)) :
    t.cache = s'.cache ∧ t.surface = surfaceOf path t.cache.bitmap ∧ Decoded bufs t.memory t.cache.bitmap := by
  obtain ⟨-, -, hmax, -, -, hparsed⟩ := readBitmap_some hread
  obtain ⟨hcache, htotal, hmemory, hsurface⟩ := wallpaperSurfaceLoad_some hread hfresh hnew h
  rw [hmemory]
  rw [hcache] at htotal hsurface ⊢
  have hbytes : 3 ≤ s'.cache.bitmap.bytesPerPixel := by
    have hbits := hparsed.bitCount.2
    rw [hparsed.bytesPerPixel]
    omega
  have hspread : Spread bufs s'.cache.bitmap (calls.size path) :=
    ⟨happart, hmax, hbytes, hparsed.pixelsInside hfit hmax, hparsed.surfaceFits hfit hmax htotal⟩
  exact ⟨rfl, hsurface, decodeRows_decoded hspread (Int.le_of_lt hparsed.srcW.2)
    (Int.le_of_lt hparsed.absSrcH.2) s'.memory⟩

end Ui
end MiniDos
