import MiniDos.Files.Model
import MiniDos.Lib.Touch
import MiniDos.Video.Gfx
import MiniDos.Video.Blit
import MiniDos.Video.Model

/-!
# MiniDos.User.Memory

How a system call gets at the memory of the app that makes it (`shell_apps.c`): every byte that the
kernel reads or stores there is a step of its own.

* `copyUserBytes`, `copyUserString`: the copies of the source.
* `GfxRect`, `GfxText`, `SurfaceBlit`: the structures that apps pass, from their bytes.
-/

namespace MiniDos
namespace User

open BlockIO Fat16 Files Video Plane

/-- What the calls work on: the file system with the task of the app, and the screen. -/
abbrev Machine := (Kernel × Task) × Screen

abbrev UserProg := Touch Byte Machine

def onFiles {α : Type} (p : Action (Kernel × Task) α) : UserProg α := Touch.lift p.onFst

def onScreen {α : Type} (f : Screen → α × Screen) : UserProg α :=
  Touch.lift (fun m => some ((f m.2).1, m.1, (f m.2).2))

def getScreen : UserProg Screen := onScreen (fun s => (s, s))

def updateScreen (f : Screen → Screen) : UserProg Unit := onScreen (fun s => ((), f s))

def Own (task : Task) (addr : Nat) : Prop :=
  loadVirtBase ≤ addr ∧ addr < loadVirtBase + task.appSlotBytes

/-! ## Copies -/

def userTextMax : Nat := 256

/-- `shell_apps_copy_user_bytes`. -/
def copyUserBytes (task : Task) (input size : UInt32) : UserProg (Option (List Byte)) :=
  if size = 0 then pure (some [])
  else if ¬ userRangeValid task input size then pure none
  else do
    let bytes ← Touch.readCells input.toNat size.toNat
    pure (some bytes)

/-- The loop of `shell_apps_copy_user_string`, with room for `n` bytes. -/
def readUserString (limit : Nat) : Nat → Nat → UserProg (Option CStr)
  | 0, _ => pure none
  | n + 1, addr =>
    if limit ≤ addr then pure none
    else do
      let c ← Touch.read addr
      if c = 0 then pure (some [])
      else do
        let rest ← readUserString limit n (addr + 1)
        pure (rest.map (c :: ·))

/-- `shell_apps_copy_user_string`. -/
def copyUserString (task : Task) (input : UInt32) (outSize : Nat) : UserProg (Option CStr) :=
  if input = 0 then pure none
  else if task.appSlotBytes = 0 ∨ slotMaxSize < task.appSlotBytes then pure none
  else if input.toNat < loadVirtBase ∨ loadVirtBase + task.appSlotBytes ≤ input.toNat then pure none
  else readUserString (loadVirtBase + task.appSlotBytes) (outSize - 1) input.toNat

def copyUserUpper (task : Task) (input : UInt32) : UserProg (Option CStr) := do
  let name ← copyUserString task input nameSize
  pure (name.map strToUpper)

/-- Two names, the second one only behind the first. -/
def copyUserNames (task : Task) (a0 a1 : UInt32) : UserProg (Option (CStr × CStr)) := do
  let nameA ← copyUserUpper task a0
  match nameA with
  | none => pure none
  | some nameA => do
    let nameB ← copyUserUpper task a1
    pure (nameB.map (nameA, ·))

/-! ## Structures -/

/-- The bytes of an `unsigned int`, from the lowest on. -/
def wordBytes (w : UInt32) : List Byte :=
  [w.toUInt8, (w >>> 8).toUInt8, (w >>> 16).toUInt8, (w >>> 24).toUInt8]

def writeWord (addr : Nat) (w : UInt32) : UserProg Unit := Touch.writeCells addr (wordBytes w)

/-- An `int` as it is stored. -/
def ofInt (n : Int) : UInt32 := UInt32.ofInt n

/-- Word `i` of a structure. -/
def wordAt (bytes : List Byte) (i : Nat) : UInt32 :=
  let byte (k : Nat) : UInt32 := (bytes.getD (4 * i + k) 0).toUInt32
  byte 0 ||| (byte 1 <<< 8) ||| (byte 2 <<< 16) ||| (byte 3 <<< 24)

def intAt (bytes : List Byte) (i : Nat) : Int := asInt (wordAt bytes i)

def rectAt (bytes : List Byte) (i : Nat) : Rect :=
  ⟨intAt bytes i, intAt bytes (i + 1), intAt bytes (i + 2), intAt bytes (i + 3)⟩

/-- `app_gfx_rect_t`. -/
def gfxRectSize : UInt32 := 20

def gfxRectOf (bytes : List Byte) : Screen.ColorRect := ⟨rectAt bytes 0, wordAt bytes 4⟩

/-- `app_gfx_rect_batch_t`. -/
structure RectBatch where
  rects : UInt32
  count : UInt32

def rectBatchSize : UInt32 := 8

def rectBatchOf (bytes : List Byte) : RectBatch := ⟨wordAt bytes 0, wordAt bytes 1⟩

/-- `app_gfx_text_t`. -/
structure GfxText where
  x : Int
  y : Int
  text : UInt32
  fg : UInt32
  bg : UInt32

def gfxTextSize : UInt32 := 20

def gfxTextOf (bytes : List Byte) : GfxText :=
  ⟨intAt bytes 0, intAt bytes 1, wordAt bytes 2, wordAt bytes 3, wordAt bytes 4⟩

/-- `app_gfx_text_clipped_t`. -/
structure GfxTextClipped extends GfxText where
  clip : Rect
  flags : UInt32

def gfxTextClippedSize : UInt32 := 40

def gfxTextClippedOf (bytes : List Byte) : GfxTextClipped :=
  ⟨gfxTextOf bytes, rectAt bytes 5, wordAt bytes 9⟩

/-- `app_gfx_surface_blit_t`, and the `video_surface_blit_t` that is made of it. -/
def surfaceBlitSize : UInt32 := 52

def surfaceBlitOf (bytes : List Byte) : Blit where
  buffer := (wordAt bytes 0).toNat
  width := intAt bytes 1
  height := intAt bytes 2
  stride := intAt bytes 3
  format := intAt bytes 4
  destX := intAt bytes 5
  destY := intAt bytes 6
  clipX := intAt bytes 7
  clipY := intAt bytes 8
  clipW := intAt bytes 9
  clipH := intAt bytes 10
  destW := intAt bytes 11
  destH := intAt bytes 12

/-- `app_thread_create_t`. -/
structure ThreadCreate where
  name : UInt32
  entry : UInt32
  arg : UInt32

def threadCreateSize : UInt32 := 12

def threadCreateOf (bytes : List Byte) : ThreadCreate :=
  ⟨wordAt bytes 0, wordAt bytes 1, wordAt bytes 2⟩

end User
end MiniDos
