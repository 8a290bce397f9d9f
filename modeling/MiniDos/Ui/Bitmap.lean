import MiniDos.Fat.Name
import MiniDos.Ui.Manager
import MiniDos.Video.Sync

/-!
# MiniDos.Ui.Bitmap

BMP files of an app (`ui_bitmap.h`): the file cache, and the surface that an image is decoded into.

* `parseBitmap`: the header, in 32-bit arithmetic.
* `pixelOffset`, `surfaceOffset`: where the loops read and write, from the start of the two buffers.
* `Parsed`: what an accepted header says.
-/

namespace MiniDos
namespace Ui

open Video
open Fat16 (CStr)

def bitmapMaxFileSize : Int := 256 * 1024
def bitmapTransparentColor : UInt32 := 0xFF00FF
def bitmapPathMax : Nat := 128
def wallpaperSurfaceMaxBytes : Int := 348160

/-! ## Paths -/

/-- `ui_path_equal` from character `i` on. -/
def pathEqualFrom (a b : CStr) : Nat → Nat → Bool
  | 0, _ => true
  | n + 1, i =>
    if a.at i = 0 ∧ b.at i = 0 then true
    else if a.at i ≠ b.at i then false
    else pathEqualFrom a b n (i + 1)

def pathEqual (a b : CStr) : Bool := pathEqualFrom a b bitmapPathMax 0

def pathCopy (src : CStr) : CStr := src.take (bitmapPathMax - 1)

/-! ## The header -/

def bitmapReadU16 (data : Nat → UInt8) (i : Nat) : Int := (data i).toNat + (data (i + 1)).toNat * 2 ^ 8

def bitmapReadU32 (data : Nat → UInt8) (i : Nat) : Int :=
  (data i).toNat + (data (i + 1)).toNat * 2 ^ 8 + (data (i + 2)).toNat * 2 ^ 16 + (data (i + 3)).toNat * 2 ^ 24

/-- What `ui_bitmap_cache_t` keeps of a header. -/
structure Bitmap where
  srcW : Int
  srcH : Int
  absSrcH : Int
  topDown : Bool
  bitCount : Int
  rowStride : Int
  dataOffset : Int
  bytesPerPixel : Int
  deriving DecidableEq

/-- The checks of `ui_bitmap_cache_load`, of a file of `fileSize` bytes. -/
def parseBitmap (data : Nat → UInt8) (fileSize : Int) : Option Bitmap :=
  if data 0 ≠ 0x42 ∨ data 1 ≠ 0x4D then none
  else
    let dataOffset := bitmapReadU32 data 10
    if fileSize ≤ dataOffset ∨ dataOffset < 54 then none
    else if bitmapReadU32 data 14 < 40 then none
    else
      let srcW := int32 (bitmapReadU32 data 18)
      let srcH := int32 (bitmapReadU32 data 22)
      let bitCount := bitmapReadU16 data 28
      if bitmapReadU16 data 26 ≠ 1 ∨ bitmapReadU32 data 30 ≠ 0 ∨ srcW ≤ 0 ∨ srcH = 0 then none
      else if bitCount ≠ 24 ∧ bitCount ≠ 32 then none
      else
        let absSrcH := if srcH < 0 then int32 (-srcH) else srcH
        if absSrcH ≤ 0 then none
        else
          let rowStride := u32 (u32 (srcW * bitCount + 31) / 32 * 4)
          if rowStride = 0 then none
          else
            let pixelBytes := u32 (rowStride * absSrcH)
            if fileSize < u32 (dataOffset + pixelBytes) then none
            else
              some
                { srcW := srcW, srcH := srcH, absSrcH := absSrcH, topDown := srcH < 0
                  bitCount := bitCount, rowStride := rowStride, dataOffset := dataOffset
                  bytesPerPixel := bitCount / 8 }

namespace Bitmap

variable (b : Bitmap)

/-- The row of the file that row `y` of the image is in. -/
def rowIndex (y : Int) : Int := if b.topDown then y else b.absSrcH - 1 - y

/-- Byte `k` of pixel `(x, y)`, from the start of the file. -/
def pixelOffset (x y k : Int) : Int :=
  u32 (b.dataOffset + b.rowIndex y * b.rowStride + x * b.bytesPerPixel + k)

/-- Byte `k` of pixel `(x, y)`, from the start of the surface. -/
def surfaceOffset (x y k : Int) : Int := u32 (y * b.srcW * 4 + x * 4 + k)

end Bitmap

/-! ## The cache and the surface -/

structure BitmapCache where
  path : CStr
  valid : Bool
  bitmap : Bitmap

/-- `ui_wallpaper_surface_t`, but for the pixels. -/
structure WallpaperSurface where
  path : CStr
  width : Int
  height : Int
  stride : Int
  valid : Bool

/-- Both, with the memory of the app. -/
structure Images where
  cache : BitmapCache
  surface : WallpaperSurface
  memory : Nat → UInt8

/-- `app_file_size`, and the bytes that `app_file_read` delivers. -/
structure FileCalls where
  size : CStr → Int
  read : CStr → Nat → List UInt8

/-- Where `g_ui_bitmap_cache.data` and `g_ui_wallpaper_surface.pixels` are. -/
structure Buffers where
  data : Nat
  pixels : Nat

section Load

variable (bufs : Buffers) (calls : Option FileCalls) (path : Option CStr)

def bytesAt (memory : Nat → UInt8) (addr : Nat) : Nat → UInt8 := fun i => memory (addr + i)

def Images.data (s : Images) : Nat → UInt8 := bytesAt s.memory bufs.data

def storeBytes (memory : Nat → UInt8) (addr : Nat) (bytes : List UInt8) : Nat → UInt8 :=
  fun a => if addr ≤ a ∧ a < addr + bytes.length then bytes.getD (a - addr) 0 else memory a

def Images.dropCache (s : Images) : Images := { s with cache := { s.cache with valid := false } }

/-- `ui_bitmap_cache_load` of a file that is not in the cache. -/
def readBitmap (calls : FileCalls) (path : CStr) (s : Images) : Images × Bool :=
  let fileSize := calls.size path
  if fileSize ≤ 0 ∨ bitmapMaxFileSize < fileSize then (s.dropCache, false)
  else
    let bytes := calls.read path fileSize.toNat
    let memory := storeBytes s.memory bufs.data bytes
    if (bytes.length : Int) ≠ fileSize ∨ fileSize < 54 then ({ s with memory := memory }.dropCache, false)
    else
      match parseBitmap (bytesAt memory bufs.data) fileSize with
      | none => ({ s with memory := memory }.dropCache, false)
      | some bitmap => ({ s with memory := memory, cache := ⟨pathCopy path, true, bitmap⟩ }, true)

def bitmapCacheLoad (s : Images) : Images × Bool :=
  match calls, path with
  | some calls, some path =>
    if s.cache.valid = true ∧ pathEqual s.cache.path path then (s, true) else readBitmap bufs calls path s
  | _, _ => (s.dropCache, false)

/-- One byte of the surface. The fourth of a pixel is 0. -/
def decodeByte (b : Bitmap) (x y : Int) (memory : Nat → UInt8) (k : Nat) : Nat → UInt8 :=
  store memory (u32 (bufs.pixels + b.surfaceOffset x y k)).toNat
    (if k < 3 then memory (u32 (bufs.data + b.pixelOffset x y k)).toNat else 0)

def decodePixel (b : Bitmap) (x y : Int) (memory : Nat → UInt8) : Nat → UInt8 :=
  [0, 1, 2, 3].foldl (decodeByte bufs b x y) memory

/-- The first `n` pixels of row `y`. -/
def decodeRow (b : Bitmap) (y : Int) : Nat → (Nat → UInt8) → Nat → UInt8
  | 0, memory => memory
  | n + 1, memory => decodePixel bufs b n y (decodeRow b y n memory)

/-- The first `n` rows. -/
def decodeRows (b : Bitmap) : Nat → (Nat → UInt8) → Nat → UInt8
  | 0, memory => memory
  | n + 1, memory => decodeRow bufs b n b.srcW.toNat (decodeRows b n memory)

def surfaceOf (path : CStr) (b : Bitmap) : WallpaperSurface :=
  ⟨pathCopy path, b.srcW, b.absSrcH, int32 (b.srcW * 4), true⟩

/-- `ui_wallpaper_surface_load` of an image that is in the cache. -/
def decodeSurface (path : CStr) (s : Images) : Images × Bool :=
  let b := s.cache.bitmap
  let w := b.srcW
  let h := b.absSrcH
  let totalBytes := u32 (w * h * 4)
  if w ≤ 0 ∨ h ≤ 0 ∨ wallpaperSurfaceMaxBytes < totalBytes then (s, false)
  else
    ({ s with memory := decodeRows bufs b h.toNat s.memory, surface := surfaceOf path b }, true)

def Images.dropSurface (s : Images) : Images := { s with surface := { s.surface with valid := false } }

def wallpaperSurfaceLoad (s : Images) : Images × Bool :=
  match calls, path with
  | some _, some name =>
    if s.surface.valid = true ∧ pathEqual s.surface.path name then (s, true)
    else
      let (s, loaded) := bitmapCacheLoad bufs calls path s.dropSurface
      if loaded then decodeSurface bufs name s else (s, false)
  | _, _ => (s.dropSurface, false)

end Load

/-! ## Accepted headers -/

/-- What the checks say about the fields. -/
structure Parsed (data : Nat → UInt8) (fileSize : Int) (b : Bitmap) : Prop where
  srcW : b.srcW = int32 (bitmapReadU32 data 18) ∧ 0 < b.srcW
  absSrcH : b.absSrcH = (int32 (bitmapReadU32 data 22)).natAbs ∧ 0 < b.absSrcH
  fits : FitsInt b.srcW ∧ FitsInt b.absSrcH
  bitCount : b.bitCount = bitmapReadU16 data 28 ∧ (b.bitCount = 24 ∨ b.bitCount = 32)
  bytesPerPixel : b.bytesPerPixel = b.bitCount / 8
  rowStride : b.rowStride = u32 (u32 (b.srcW * b.bitCount + 31) / 32 * 4) ∧ b.rowStride ≠ 0
  dataOffset : b.dataOffset = bitmapReadU32 data 10 ∧ 54 ≤ b.dataOffset ∧ b.dataOffset < fileSize
  room : u32 (b.dataOffset + u32 (b.rowStride * b.absSrcH)) ≤ fileSize

theorem absHeight_eq {n : Int} (hn : FitsInt n) (h : 0 < if n < 0 then int32 (-n) else n) :
    (if n < 0 then int32 (-n) else n) = n.natAbs := by
  rw [FitsInt] at hn
  split at h
  · rename_i hneg
    rw [if_pos hneg]
    have hfits : FitsInt (-n) := by
      refine ⟨by omega, ?_⟩
      by_contra hbig
      obtain rfl : n = -2 ^ 31 := by omega
      exact absurd h (by decide)
    rw [int32_of_fits hfits]
    omega
  · rename_i hpos
    rw [if_neg hpos]
    omega

theorem parseBitmap_some {data : Nat → UInt8} {fileSize : Int} {b : Bitmap}
    (h : parseBitmap data fileSize = some b) : Parsed data fileSize b := by
  simp only [parseBitmap, ite_eq_iff, reduceCtorEq, and_false, false_or] at h
  obtain ⟨-, hoffset, -, hsize, hbits, habs, hstride, hroom, hb⟩ := h
  have hb := Option.some.inj hb
  subst hb
  have hheight := absHeight_eq (int32_range _) (Int.not_le.mp habs)
  refine ⟨?_, ?_, ⟨?_, ?_⟩, ?_, rfl, ⟨?_, hstride⟩, ?_, ?_⟩ <;> dsimp only
  · exact ⟨rfl, by omega⟩
  · exact ⟨hheight, Int.not_le.mp habs⟩
  · exact int32_range _
  · split <;> exact int32_range _
  · exact ⟨rfl, by omega⟩
  · exact ⟨rfl, by omega, by omega⟩
  · exact Int.not_lt.mp hroom

end Ui
end MiniDos
