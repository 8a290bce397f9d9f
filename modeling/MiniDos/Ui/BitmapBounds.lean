import MiniDos.Lib.Raster
import MiniDos.Ui.Bitmap

/-!
# MiniDos.Ui.BitmapBounds

Where the pixels of an accepted BMP file are.

* `Parsed.pixmapFits`: a header whose sizes fit in 32 bits puts all of them inside the file.
* `Parsed.pixelFar`: another that is accepted has pixels behind its end.
* `bitmap_inside_iff`: both, for the load functions.
-/

namespace MiniDos
namespace Ui

open Video
open Fat16 (CStr)

/-- The bytes of a row before they are rounded up, and the end of the file as the header has it, are
below 2^32. -/
def SizesFit (data : Nat → UInt8) : Prop :=
  let bits := int32 (bitmapReadU32 data 18) * bitmapReadU16 data 28 + 31
  bits < 2 ^ 32 ∧ bitmapReadU32 data 10 + bits / 32 * 4 * (int32 (bitmapReadU32 data 22)).natAbs < 2 ^ 32

instance (data : Nat → UInt8) : Decidable (SizesFit data) := inferInstanceAs (Decidable (_ ∧ _))

namespace Bitmap

variable (b : Bitmap)

def pixmap : Pixmap := ⟨b.dataOffset, b.rowStride, b.bytesPerPixel, b.srcW, b.absSrcH⟩

def surfacePixmap : Pixmap := ⟨0, b.srcW * 4, 4, b.srcW, b.absSrcH⟩

def PixelsInside (fileSize : Int) : Prop :=
  ∀ x y k, b.pixmap.Has x y k → 0 ≤ b.pixelOffset x y k ∧ b.pixelOffset x y k < fileSize

def SurfaceInside : Prop := ∀ x y k, b.surfacePixmap.Has x y k →
  0 ≤ b.surfaceOffset x y k ∧ b.surfaceOffset x y k < wallpaperSurfaceMaxBytes

variable {b} {x y k : Int}

theorem rowIndex_rowIndex (y : Int) : b.rowIndex (b.rowIndex y) = y := by
  simp only [rowIndex]
  split <;> omega

theorem pixmap_has_rowIndex : b.pixmap.Has x (b.rowIndex y) k ↔ b.pixmap.Has x y k := by
  have hrow : (0 ≤ b.rowIndex y ∧ b.rowIndex y < b.absSrcH) ↔ (0 ≤ y ∧ y < b.absSrcH) := by
    rw [rowIndex]
    split <;> omega
  exact ⟨fun h => ⟨h.x, hrow.mp h.y, h.k⟩, fun h => ⟨h.x, hrow.mpr h.y, h.k⟩⟩

theorem pixelOffset_eq : b.pixelOffset x y k = u32 (b.pixmap.offset x (b.rowIndex y) k) := rfl

theorem surfaceOffset_eq : b.surfaceOffset x y k = u32 (b.surfacePixmap.offset x y k) := by
  rw [surfaceOffset, Pixmap.offset, surfacePixmap, Int.zero_add, Int.mul_assoc]

end Bitmap

/-! ## Headers -/

section Header

variable {data : Nat → UInt8} {fileSize : Int} {b : Bitmap} {x y k : Int}

theorem u32_range (n : Int) : 0 ≤ u32 n ∧ u32 n < 2 ^ 32 :=
  ⟨Int.emod_nonneg _ (by decide), Int.emod_lt_of_pos _ (by decide)⟩

theorem Parsed.sizesFit_iff (h : Parsed data fileSize b) :
    SizesFit data ↔ b.srcW * b.bitCount + 31 < 2 ^ 32 ∧
      b.dataOffset + (b.srcW * b.bitCount + 31) / 32 * 4 * b.absSrcH < 2 ^ 32 := by
  rw [SizesFit, h.srcW.1, h.bitCount.1, h.absSrcH.1, h.dataOffset.1]

theorem Parsed.bits (h : Parsed data fileSize b) :
    0 < b.bytesPerPixel ∧ b.bytesPerPixel ≤ 4 ∧ b.srcW * b.bitCount = 8 * (b.srcW * b.bytesPerPixel) := by
  have hbytes : b.bytesPerPixel = b.bitCount / 8 := h.bytesPerPixel
  have hcount : b.bitCount = 8 * b.bytesPerPixel := by
    rcases h.bitCount.2 with hbits | hbits <;> omega
  refine ⟨by have := h.bitCount.2; omega, by have := h.bitCount.2; omega, ?_⟩
  rw [hcount, Int.mul_left_comm]

theorem Parsed.rowStride_eq (h : Parsed data fileSize b) (hrow : b.srcW * b.bitCount + 31 < 2 ^ 32) :
    b.rowStride = (b.srcW * b.bitCount + 31) / 32 * 4 := by
  have hw := h.srcW.2
  have hbits := h.bits
  have hpos : 0 < b.srcW * b.bytesPerPixel := Int.mul_pos hw hbits.1
  rw [h.rowStride.1, u32_of_range (by omega) hrow, u32_of_range (by omega) (by omega)]

theorem Parsed.pixmapFits (h : Parsed data fileSize b) (hsizes : SizesFit data) : b.pixmap.Fits fileSize := by
  obtain ⟨hrow, hlast⟩ := h.sizesFit_iff.mp hsizes
  have hbits := h.bits
  have hstride := h.rowStride_eq hrow
  have hw : 0 < b.srcW * b.bytesPerPixel := Int.mul_pos h.srcW.2 hbits.1
  have hoffset := h.dataOffset.2
  rw [← hstride] at hlast
  have hrows : 0 ≤ b.rowStride * b.absSrcH := Int.mul_nonneg (by omega) (by have := h.absSrcH.2; omega)
  have hroom := h.room
  rw [u32_of_range hrows (by omega), u32_of_range (by omega) hlast] at hroom
  refine ⟨?_, ?_⟩ <;> simp only [Bitmap.pixmap]
  · omega
  · rw [Int.mul_comm b.absSrcH]
    exact hroom

theorem Parsed.pixelOffset_pixmap (h : Parsed data fileSize b) (hsizes : SizesFit data)
    (hmax : fileSize ≤ bitmapMaxFileSize) (hin : b.pixmap.Has x y k) :
    b.pixelOffset x y k = b.pixmap.offset x (b.rowIndex y) k := by
  have hfits := h.pixmapFits hsizes
  have hin := Bitmap.pixmap_has_rowIndex.mpr hin
  have hlt := Pixmap.offset_lt hfits hin
  have hbase := Pixmap.le_offset hfits.row hin
  have hoffset := h.dataOffset.2.1
  have hmax' : fileSize ≤ 262144 := hmax
  simp only [Bitmap.pixmap] at hbase hlt
  rw [Bitmap.pixelOffset_eq]
  exact u32_of_range (by simp only [Bitmap.pixmap]; omega) (by simp only [Bitmap.pixmap]; omega)

theorem Parsed.pixelsInside (h : Parsed data fileSize b) (hsizes : SizesFit data)
    (hmax : fileSize ≤ bitmapMaxFileSize) : b.PixelsInside fileSize := by
  intro x y k hin
  refine ⟨(u32_range _).1, ?_⟩
  rw [h.pixelOffset_pixmap hsizes hmax hin]
  exact Pixmap.offset_lt (h.pixmapFits hsizes) (Bitmap.pixmap_has_rowIndex.mpr hin)

theorem Parsed.pixel_outside (h : Parsed data fileSize b) (hmax : fileSize ≤ bitmapMaxFileSize)
    (hx : 0 ≤ x ∧ x < b.srcW) (hy : 0 ≤ y ∧ y < b.absSrcH)
    (hlow : bitmapMaxFileSize ≤ y * b.rowStride + x * b.bytesPerPixel)
    (hhigh : y * b.rowStride + x * b.bytesPerPixel < 2 ^ 30) : ¬ b.PixelsInside fileSize := by
  intro hinside
  have hbytes := h.bits
  have hoffset := h.dataOffset
  have hmax' : fileSize ≤ 262144 := hmax
  have hlow' : 262144 ≤ y * b.rowStride + x * b.bytesPerPixel := hlow
  have hhas : b.pixmap.Has x (b.rowIndex y) 0 :=
    Bitmap.pixmap_has_rowIndex.mpr ⟨hx, hy, Int.le_refl 0, hbytes.1⟩
  have hlt := (hinside _ _ _ hhas).2
  rw [Bitmap.pixelOffset, Bitmap.rowIndex_rowIndex, u32_of_range (by omega) (by omega)] at hlt
  omega

/-- Sizes that do not fit leave a pixel outside the file. -/
theorem Parsed.pixelFar (h : Parsed data fileSize b) (hmax : fileSize ≤ bitmapMaxFileSize)
    (hsizes : ¬ SizesFit data) : ¬ b.PixelsInside fileSize := by
  have hbits := h.bits
  have hw := h.srcW.2
  have hh := h.absSrcH.2
  have hoffset := h.dataOffset.2
  have hmax' : fileSize ≤ 262144 := hmax
  rw [h.sizesFit_iff, not_and, Int.not_lt] at hsizes
  by_cases hrow : b.srcW * b.bitCount + 31 < 2 ^ 32
  · -- the rows are as they should be, but their end wraps
    have hlast := hsizes hrow
    rw [← h.rowStride_eq hrow] at hlast
    have hstride := h.rowStride_eq hrow
    have hstart : 0 < b.srcW * b.bytesPerPixel := Int.mul_pos hw hbits.1
    have hfar : bitmapMaxFileSize ≤ (b.absSrcH - 1) * b.rowStride := by
      rw [Int.sub_mul, Int.one_mul, Int.mul_comm]
      show (262144 : Int) ≤ _
      omega
    obtain ⟨y, hy, hy', hlow, hhigh⟩ := Pixmap.exists_step (by omega) (by decide) hfar
    have hhigh' : y * b.rowStride < 262144 + b.rowStride := hhigh
    refine h.pixel_outside hmax (x := 0) ⟨Int.le_refl 0, hw⟩ ⟨hy, hy'⟩ ?_ ?_
    · rw [Int.zero_mul, Int.add_zero]
      exact hlow
    · omega
  · -- a row is longer than its stride says
    have hfar : bitmapMaxFileSize ≤ (b.srcW - 1) * b.bytesPerPixel := by
      rw [Int.sub_mul, Int.one_mul]
      show (262144 : Int) ≤ _
      omega
    obtain ⟨x, hx, hx', hlow, hhigh⟩ := Pixmap.exists_step hbits.1 (by decide) hfar
    have hhigh' : x * b.bytesPerPixel < 262144 + b.bytesPerPixel := hhigh
    refine h.pixel_outside hmax (y := 0) ⟨hx, hx'⟩ ⟨Int.le_refl 0, hh⟩ ?_ ?_
    · rw [Int.zero_mul, Int.zero_add]
      exact hlow
    · omega

theorem Parsed.surfaceFits (h : Parsed data fileSize b) (hsizes : SizesFit data)
    (hmax : fileSize ≤ bitmapMaxFileSize) (htotal : u32 (b.srcW * b.absSrcH * 4) ≤ wallpaperSurfaceMaxBytes) :
    b.surfacePixmap.Fits wallpaperSurfaceMaxBytes := by
  have hfits := h.pixmapFits hsizes
  have hrow : b.srcW * b.bytesPerPixel ≤ b.rowStride := hfits.row
  have hlast : b.dataOffset + b.absSrcH * b.rowStride ≤ fileSize := hfits.last
  have hbytes := h.bits
  have hmax' : fileSize ≤ 262144 := hmax
  have hoffset := h.dataOffset.2.1
  -- a pixel has three bytes at least, so four times the pixels do not wrap
  have hpixels : b.srcW * b.absSrcH * 3 ≤ 262144 := by
    have hone : b.srcW * 3 ≤ b.rowStride := by
      have hthree : b.srcW * 3 ≤ b.srcW * b.bytesPerPixel :=
        Int.mul_le_mul_of_nonneg_left (by have := h.bitCount.2; have := h.bytesPerPixel; omega)
          (Int.le_of_lt h.srcW.2)
      omega
    have hall := Int.mul_le_mul_of_nonneg_left hone (Int.le_of_lt h.absSrcH.2)
    rw [Int.mul_comm b.srcW, Int.mul_assoc]
    omega
  have hpos : 0 < b.srcW * b.absSrcH := Int.mul_pos h.srcW.2 h.absSrcH.2
  rw [u32_of_range (by omega) (by omega)] at htotal
  refine ⟨Int.le_refl _, ?_⟩
  show 0 + b.absSrcH * (b.srcW * 4) ≤ wallpaperSurfaceMaxBytes
  rw [Int.zero_add, ← Int.mul_assoc, Int.mul_comm b.absSrcH]
  exact htotal

theorem Bitmap.surfaceInside_of_fits (hsurface : b.surfacePixmap.Fits wallpaperSurfaceMaxBytes) :
    b.SurfaceInside := by
  intro x y k hin
  have hlt := Pixmap.offset_lt hsurface hin
  have hle : 0 ≤ b.surfacePixmap.offset x y k := Pixmap.le_offset hsurface.row hin
  have hmax : wallpaperSurfaceMaxBytes < 2 ^ 32 := by decide
  rw [Bitmap.surfaceOffset_eq, u32_of_range hle (by omega)]
  exact ⟨hle, hlt⟩

end Header

/-! ## Loading -/

section Load

variable {bufs : Buffers} {calls : FileCalls} {path : CStr} {s s' t : Images}

theorem readBitmap_some (h : readBitmap bufs calls path s = (s', true)) :
    s'.cache.valid = true ∧ 0 < calls.size path ∧ calls.size path ≤ bitmapMaxFileSize ∧
      ((calls.read path (calls.size path).toNat).length : Int) = calls.size path ∧
      s'.memory = storeBytes s.memory bufs.data (calls.read path (calls.size path).toNat) ∧
      Parsed (s'.data bufs) (calls.size path) s'.cache.bitmap := by
  simp only [readBitmap] at h
  split at h
  · cases h
  rename_i hsize
  split at h
  · cases h
  rename_i hread
  split at h
  · cases h
  rename_i bitmap hparse
  cases h
  exact ⟨rfl, by omega, by omega, by omega, rfl, parseBitmap_some hparse⟩

theorem readBitmap_dropSurface (s : Images) : readBitmap bufs calls path s.dropSurface =
    ((readBitmap bufs calls path s).1.dropSurface, (readBitmap bufs calls path s).2) := by
  simp only [readBitmap, Images.dropSurface, Images.dropCache]
  split
  · rfl
  · split
    · rfl
    · cases parseBitmap _ (calls.size path) <;> rfl

theorem wallpaperSurfaceLoad_some (hload : readBitmap bufs calls path s = (s', true))
    (hfresh : ¬ (s.cache.valid = true ∧ pathEqual s.cache.path path))
    (hnew : ¬ (s.surface.valid = true ∧ pathEqual s.surface.path path))
    (h : wallpaperSurfaceLoad bufs (some calls) (some path) s = (t, true)) :
    t.cache = s'.cache ∧
      u32 (t.cache.bitmap.srcW * t.cache.bitmap.absSrcH * 4) ≤ wallpaperSurfaceMaxBytes ∧
      t.memory = decodeRows bufs t.cache.bitmap t.cache.bitmap.absSrcH.toNat s'.memory ∧
      t.surface = surfaceOf path t.cache.bitmap := by
  have hcache : bitmapCacheLoad bufs (some calls) (some path) s.dropSurface = (s'.dropSurface, true) := by
    have hread := @readBitmap_dropSurface bufs calls path s
    rw [hload] at hread
    exact (if_neg hfresh).trans hread
  simp only [wallpaperSurfaceLoad] at h
  rw [if_neg hnew, hcache, if_pos rfl] at h
  simp only [decodeSurface] at h
  split at h
  · cases h
  rename_i hroom
  rw [not_or, not_or] at hroom
  cases h
  exact ⟨rfl, Int.not_lt.mp hroom.2.2, rfl, rfl⟩

def fileData (bytes : List UInt8) : Nat → UInt8 := fun i => bytes.getD i 0

theorem SizesFit.congr {data data' : Nat → UInt8} (h : ∀ i < 54, data i = data' i) :
    SizesFit data ↔ SizesFit data' := by
  simp only [SizesFit, bitmapReadU16, bitmapReadU32]
  rw [h 10 (by decide), h 11 (by decide), h 12 (by decide), h 13 (by decide), h 18 (by decide),
    h 19 (by decide), h 20 (by decide), h 21 (by decide), h 22 (by decide), h 23 (by decide),
    h 24 (by decide), h 25 (by decide), h 28 (by decide), h 29 (by decide)]

theorem data_storeBytes {bytes : List UInt8} (h : s'.memory = storeBytes s.memory bufs.data bytes) {i : Nat}
    (hi : i < bytes.length) : s'.data bufs i = fileData bytes i := by
  have hbyte : storeBytes s.memory bufs.data bytes (bufs.data + i) = bytes.getD (bufs.data + i - bufs.data) 0 :=
    if_pos (by omega)
  rw [Images.data, bytesAt, h, hbyte, Nat.add_sub_cancel_left, fileData]

/-- The pixels of a file that is accepted are all inside it, and inside the surface they are decoded
into, just when the sizes of its header fit. -/
theorem bitmap_inside_iff (hfresh : ¬ (s.cache.valid = true ∧ pathEqual s.cache.path path))
    (hload : bitmapCacheLoad bufs (some calls) (some path) s = (s', true)) :
    (s'.cache.bitmap.PixelsInside (calls.size path) ∧
      ∀ t, ¬ (s.surface.valid = true ∧ pathEqual s.surface.path path) →
        wallpaperSurfaceLoad bufs (some calls) (some path) s = (t, true) → t.cache.bitmap.SurfaceInside) ↔
      SizesFit (fileData (calls.read path (calls.size path).toNat)) := by
  simp only [bitmapCacheLoad] at hload
  rw [if_neg hfresh] at hload
  obtain ⟨-, hpos, hmax, hlength, hmemory, hparsed⟩ := readBitmap_some hload
  have hsizes : SizesFit (s'.data bufs) ↔ SizesFit (fileData (calls.read path (calls.size path).toNat)) := by
    refine SizesFit.congr (fun i hi => data_storeBytes hmemory ?_)
    have hoffset := hparsed.dataOffset.2
    omega
  rw [← hsizes]
  refine ⟨fun hinside => by_contra (fun hno => hparsed.pixelFar hmax hno hinside.1), fun hfit => ?_⟩
  refine ⟨hparsed.pixelsInside hfit hmax, fun t hnew hsurface => ?_⟩
  obtain ⟨hcache, htotal, -, -⟩ := wallpaperSurfaceLoad_some hload hfresh hnew hsurface
  rw [hcache] at htotal ⊢
  exact Bitmap.surfaceInside_of_fits (hparsed.surfaceFits hfit hmax htotal)

end Load

/-! ## Two files -/

def bmpFile (width height pixels : List UInt8) : List UInt8 :=
  [0x42, 0x4D] ++ List.replicate 8 0 ++ [54, 0, 0, 0] ++ [40, 0, 0, 0] ++ width ++ height ++ [1, 0] ++ [24, 0] ++
    List.replicate 24 0 ++ pixels

def oneFile (bytes : List UInt8) : FileCalls := ⟨fun _ => bytes.length, fun _ _ => bytes⟩

/-- An app that has loaded nothing. -/
def noImages : Images := ⟨⟨[], false, ⟨0, 0, 0, false, 0, 0, 0, 0⟩⟩, ⟨[], 0, 0, 0, false⟩, fun _ => 0⟩

def appBuffers : Buffers := ⟨0x01010000, 0x01050000⟩

/-- One pixel. -/
theorem bitmap_inside_onePixel : ∃ s',
    bitmapCacheLoad appBuffers (some (oneFile (bmpFile [1, 0, 0, 0] [1, 0, 0, 0] [1, 2, 3, 0]))) (some [0x41]) noImages =
      (s', true) ∧ s'.cache.bitmap.PixelsInside 58 := by
  obtain ⟨s', hload⟩ : ∃ s', bitmapCacheLoad appBuffers
      (some (oneFile (bmpFile [1, 0, 0, 0] [1, 0, 0, 0] [1, 2, 3, 0]))) (some [0x41]) noImages = (s', true) := ⟨_, rfl⟩
  have hfresh : ¬ (noImages.cache.valid = true ∧ pathEqual noImages.cache.path [0x41]) := by decide
  have hfit : SizesFit (fileData (bmpFile [1, 0, 0, 0] [1, 0, 0, 0] [1, 2, 3, 0])) := by decide
  exact ⟨s', hload, ((bitmap_inside_iff hfresh hload).mpr hfit).1⟩

/-- A width of 178956971: the bytes of a row wrap to 4, and the third pixel is behind the end of the file. -/
theorem crafted_outside : ∃ s',
    bitmapCacheLoad appBuffers (some (oneFile (bmpFile [0xAB, 0xAA, 0xAA, 0x0A] [1, 0, 0, 0] [1, 2, 3, 0])))
      (some [0x41]) noImages = (s', true) ∧ ¬ s'.cache.bitmap.PixelsInside 58 := by
  refine ⟨_, rfl, fun h => ?_⟩
  have hthird := (h 2 0 0 ⟨by decide, by decide, by decide⟩).2
  exact absurd hthird (by decide)

end Ui
end MiniDos
