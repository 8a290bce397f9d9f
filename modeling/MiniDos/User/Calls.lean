import MiniDos.Apps.Model
import MiniDos.User.FileCalls

/-!
# MiniDos.User.Calls

`shell_apps_syscall`: all system calls of an app, with their accesses of its memory.

* What the keyboard, the mouse, the clocks and the scheduler answer is a parameter.
* `blitSurface`: the loops of `video_blit_surface`, which read the surface in the memory of the app.
-/

namespace MiniDos
namespace User

open BlockIO Fat16 Files Plane
open Video (Screen Blit Font)

/-- `mouse_state_t`. -/
structure MouseState where
  x : Int
  y : Int
  dx : Int
  dy : Int
  buttons : UInt32
  seq : UInt32
  present : Int

/-- `rtc_time_t`. -/
structure RtcTime where
  hours : UInt8
  minutes : UInt8
  seconds : UInt8

/-- What the rest of the kernel answers during the call. `spawn` gets a thread that was checked: its
entry, its argument and its name. -/
structure Devices where
  getChar : UInt8
  tryGetChar : Option UInt8
  mouse : Option MouseState
  event : UInt32 → UInt32 → Int
  ticks : UInt32
  time : Option RtcTime
  random : UInt32
  spawn : UInt32 → UInt32 → Option CStr → Int

/-- The fields of the task that the calls of this module use. -/
structure Caller where
  pid : Int
  background : Bool

section Calls

variable (fails : Nat → Bool) (fuel : Nat) (font : Font) (dev : Devices) (caller : Caller)
  (task : Task)

/-! ## Console, input, time and threads -/

def puts (a0 : UInt32) : UserProg Int := do
  let text ← copyUserString task a0 userTextMax
  match text with
  | none => pure (-1)
  | some _ => pure 0

/-- `shell_apps_flush_graphics`, for an app in the foreground. -/
def flushGraphics : UserProg Unit :=
  if caller.background then pure () else updateScreen Screen.presentPending

/-- In the background it waits for ever. -/
def getChar : UserProg Int :=
  if caller.background then .diverge
  else do
    flushGraphics caller
    pure dev.getChar.toNat

def getCharNonblock : UserProg Int :=
  if caller.background then pure (-1)
  else do
    flushGraphics caller
    match dev.tryGetChar with
    | none => pure (-1)
    | some c => pure c.toNat

/-- The words of `app_mouse_state_t`. -/
def mouseWords (m : MouseState) : List UInt32 :=
  [ofInt m.x, ofInt m.y, ofInt m.dx, ofInt m.dy, m.buttons, m.seq, ofInt m.present]

def writeWords (addr : Nat) (words : List UInt32) : UserProg Unit :=
  Touch.writeCells addr (words.flatMap wordBytes)

def mouseStateSize : UInt32 := 28

def getMouseState (a0 : UInt32) : UserProg Int :=
  if ¬ userRangeValid task a0 mouseStateSize then pure 0
  else if a0 = 0 ∨ caller.background = true then pure 0
  else do
    flushGraphics caller
    match dev.mouse with
    | none => pure 0
    | some m => do
      writeWords a0.toNat (mouseWords m)
      pure 1

def waitEvent (a0 a1 : UInt32) : UserProg Int := do
  flushGraphics caller
  pure (dev.event a0 a1)

def getTicks : UserProg Int := do
  flushGraphics caller
  pure (asInt dev.ticks)

def timeSize : UInt32 := 3

def getTime (a0 : UInt32) : UserProg Int :=
  if a0 = 0 ∨ ¬ userRangeValid task a0 timeSize then pure 0
  else
    match dev.time with
    | none => pure 0
    | some t => do
      Touch.writeCells a0.toNat [t.hours, t.minutes, t.seconds]
      pure 1

def userImageLimit : Nat :=
  if task.appSlotBytes < Apps.runtimeReservedBytes ∨ slotMaxSize < task.appSlotBytes then 0
  else loadVirtBase + task.appSlotBytes - Apps.runtimeReservedBytes

def UserExecPtrValid (addr : UInt32) : Prop :=
  userImageLimit task ≠ 0 ∧ loadVirtBase ≤ addr.toNat ∧ addr.toNat < userImageLimit task

instance (addr : UInt32) : Decidable (UserExecPtrValid task addr) :=
  inferInstanceAs (Decidable (_ ∧ _))

def childNameSize : Nat := 24

/-- `shell_apps_spawn_app_thread`. -/
def threadSpawn (a0 : UInt32) : UserProg Int :=
  if a0 = 0 ∨ caller.background = false then pure (-1)
  else do
    let bytes ← copyUserBytes task a0 threadCreateSize
    match bytes with
    | none => pure (-1)
    | some bytes =>
      let spec := threadCreateOf bytes
      if spec.entry = 0 ∨ ¬ UserExecPtrValid task spec.entry then pure (-1)
      else if spec.name = 0 then pure (dev.spawn spec.entry spec.arg none)
      else do
        let name ← copyUserString task spec.name childNameSize
        match name with
        | none => pure (-1)
        | some name =>
          pure (dev.spawn spec.entry spec.arg (if name.at 0 = 0 then none else some name))

def random (a0 : UInt32) : UserProg Int :=
  let value := dev.random &&& 0x7FFFFFFF
  pure (asInt (if 0 < a0 then value % a0 else value))

def driveValid (a0 : UInt32) : UserProg Int :=
  onFiles (do
    let s ← Action.get
    pure (flag (decide (0 ≤ asInt a0 ∧ s.1.Valid (asInt a0).toNat))))

/-! ## Graphics -/

def gfxClear (a0 : UInt32) : UserProg Int :=
  if caller.background then pure 0
  else do
    updateScreen (fun s => s.videoClearColor a0)
    pure 1

def gfxRect (a0 : UInt32) : UserProg Int :=
  if caller.background then pure 0
  else do
    let bytes ← copyUserBytes task a0 gfxRectSize
    match bytes with
    | none => pure 0
    | some bytes => onScreen (fun s => (Video.gfxRect false s (gfxRectOf bytes)).swap)

/-- The loop over the entries of a batch; `none`: one of them was refused. -/
def copyRects : Nat → UInt32 → UserProg (Option (List Screen.ColorRect))
  | 0, _ => pure (some [])
  | n + 1, userRect => do
    let bytes ← copyUserBytes task userRect gfxRectSize
    match bytes with
    | none => pure none
    | some bytes =>
      if ¬ Video.GfxRectValid (gfxRectOf bytes).rect then pure none
      else do
        let rects ← copyRects n (userRect + gfxRectSize)
        pure (rects.map (gfxRectOf bytes :: ·))

def gfxRectBatchMax : UInt32 := 64

def gfxRectBatch (a0 : UInt32) : UserProg Int :=
  if caller.background then pure 0
  else do
    let bytes ← copyUserBytes task a0 rectBatchSize
    match bytes with
    | none => pure 0
    | some bytes =>
      let batch := rectBatchOf bytes
      if batch.rects = 0 ∨ batch.count = 0 ∨ gfxRectBatchMax < batch.count then pure 0
      else if ¬ userRangeValid task batch.rects (batch.count * gfxRectSize) then pure 0
      else do
        let rects ← copyRects task batch.count.toNat batch.rects
        match rects with
        | none => pure 0
        | some rects => onScreen (fun s =>
          (flag (s.videoFillRectBatch rects).2, (s.videoFillRectBatch rects).1))

def gfxText (a0 : UInt32) : UserProg Int :=
  if caller.background then pure 0
  else do
    let bytes ← copyUserBytes task a0 gfxTextSize
    match bytes with
    | none => pure 0
    | some bytes =>
      let text := gfxTextOf bytes
      if text.text = 0 then pure 0
      else do
        let rendered ← copyUserString task text.text userTextMax
        match rendered with
        | none => pure 0
        | some rendered => do
          updateScreen (fun s =>
            Video.videoDrawTextAt font s text.x text.y rendered text.fg text.bg)
          pure 1

def ClipValid (r : Rect) : Prop :=
  0 < r.w ∧ 0 < r.h → Video.GfxExtentValid r.x r.w ∧ Video.GfxExtentValid r.y r.h

instance (r : Rect) : Decidable (ClipValid r) := inferInstanceAs (Decidable (_ → _))

def gfxTextClipped (a0 : UInt32) : UserProg Int :=
  if caller.background then pure 0
  else do
    let bytes ← copyUserBytes task a0 gfxTextClippedSize
    match bytes with
    | none => pure 0
    | some bytes =>
      let text := gfxTextClippedOf bytes
      if text.text = 0 ∨ text.flags &&& ~~~Video.textTransparentBg ≠ 0 ∨
          ¬ Video.GfxPositionValid text.x ∨ ¬ Video.GfxPositionValid text.y then pure 0
      else do
        let rendered ← copyUserString task text.text userTextMax
        match rendered with
        | none => pure 0
        | some rendered =>
          if ¬ ClipValid text.clip then pure 0
          else onScreen (fun s =>
            let drawn := Video.videoDrawTextClipped font s text.x text.y rendered text.fg text.bg
              text.clip text.flags
            (flag drawn.2, drawn.1))

def gfxSize (a0 a1 : UInt32) : UserProg Int :=
  if a0 = 0 ∨ a1 = 0 ∨ caller.background = true ∨ ¬ userRangeValid task a0 4 ∨
      ¬ userRangeValid task a1 4 then pure 0
  else do
    let s ← getScreen
    writeWord a0.toNat (ofInt s.mode.width)
    writeWord a1.toNat (ofInt s.mode.height)
    pure 1

def gfxPresent : UserProg Int :=
  if caller.background then pure 0
  else do
    updateScreen Screen.presentPending
    pure 1

/-! ## Surfaces -/

/-- A byte `k` behind an address. -/
def readByteAt (addr k : Int) : UserProg UInt32 := do
  let b ← Touch.read (Video.u32 (addr + k)).toNat
  pure b.toUInt32

/-- `read_u32_le`. -/
def readU32 (addr : Int) : UserProg UInt32 := do
  let b₀ ← readByteAt addr 0
  let b₁ ← readByteAt addr 1
  let b₂ ← readByteAt addr 2
  let b₃ ← readByteAt addr 3
  pure (b₀ ||| (b₁ <<< 8) ||| (b₂ <<< 16) ||| (b₃ <<< 24))

/-- The color of a sample, and its alpha component. -/
def readSample (format addr : Int) : UserProg (UInt32 × UInt32) :=
  if format = Video.formatLegacyXrgb then do
    let b₁ ← readByteAt addr 1
    let b₂ ← readByteAt addr 2
    let b₃ ← readByteAt addr 3
    pure ((b₁ <<< 16) ||| (b₂ <<< 8) ||| b₃, 255)
  else do
    let packed ← readU32 addr
    pure (packed &&& 0xFFFFFF, if format = Video.formatArgbLe then packed >>> 24 else 255)

/-- A pixel of the general path. -/
def drawSample (format : Int) (p : Blit.Sample) : UserProg Unit := do
  let c ← readSample format p.addr
  updateScreen (fun s =>
    if c.2 = 255 then s.drawPixel p.x p.y c.1
    else if c.2 ≠ 0 then
      s.drawPixel p.x p.y
        (Video.blendRgbSourceOver c.1 (Video.readDrawTargetRgb s p.x p.y) c.2)
    else s)

/-- A pixel of the plain path. -/
def copySample (p : Blit.Sample) : UserProg Unit := do
  let c ← readU32 p.addr
  updateScreen (fun s => { s with back := Video.paint ⟨p.x, p.y, 1, 1⟩ (c &&& 0xFFFFFF) s.back })

def forSamples (body : Blit.Sample → UserProg Unit) : List Blit.Sample → UserProg Unit
  | [] => pure ()
  | p :: ps => do
    body p
    forSamples body ps

def drawSurface (b : Blit) (r : Rect) : UserProg Unit := do
  let s ← getScreen
  if b.Plain s r then forSamples copySample (b.plainSamples r)
  else forSamples (drawSample b.format) (b.scaledSamples r)

/-- `video_blit_surface`. -/
def blitSurface (b : Blit) : UserProg Bool :=
  if ¬ b.SurfaceOk ∨ ¬ b.DestOk ∨ ¬ b.ClipOk then pure false
  else do
    let s ← getScreen
    match b.window s.mode.width s.mode.height with
    | none => pure true
    | some r => do
      drawSurface b r
      updateScreen (fun s => (s.noteDirty r).maybePresentPending)
      pure true

/-- `source_span`, in 32 bits. -/
def sourceSpan (b : Blit) : UInt32 :=
  ofInt (b.height - 1) * ofInt b.stride + ofInt b.width * 4

def SurfaceAccepted (b : Blit) : Prop :=
  b.buffer ≠ 0 ∧ 0 < b.width ∧ 0 < b.height ∧ b.width ≤ Video.appGfxMaxDimension ∧
    b.height ≤ Video.appGfxMaxDimension ∧ 0 < b.stride ∧
    (b.format = Video.formatLegacyXrgb ∨ b.format = Video.formatXrgbLe ∨
      b.format = Video.formatArgbLe) ∧
    ofInt b.width * 4 ≤ ofInt b.stride ∧
    ofInt (b.height - 1) ≤ (0xFFFFFFFF - ofInt b.width * 4) / ofInt b.stride

instance (b : Blit) : Decidable (SurfaceAccepted b) := inferInstanceAs (Decidable (_ ∧ _))

/-- The checks behind it. -/
def DestAccepted (b : Blit) : Prop :=
  Video.GfxExtentValid b.destX b.outW ∧ Video.GfxExtentValid b.destY b.outH ∧
    ClipValid ⟨b.clipX, b.clipY, b.clipW, b.clipH⟩

instance (b : Blit) : Decidable (DestAccepted b) := inferInstanceAs (Decidable (_ ∧ _))

def gfxSurfaceBlit (a0 : UInt32) : UserProg Int :=
  if caller.background then pure 0
  else do
    let bytes ← copyUserBytes task a0 surfaceBlitSize
    match bytes with
    | none => pure 0
    | some bytes =>
      let b := surfaceBlitOf bytes
      if ¬ SurfaceAccepted b then pure 0
      else if ¬ userRangeValid task (UInt32.ofNat b.buffer) (sourceSpan b) then pure 0
      else if ¬ DestAccepted b then pure 0
      else do
        let ok ← blitSurface b
        pure (flag ok)

/-! ## The dispatcher -/

/-- `shell_apps_syscall`, for a task that is found and valid. -/
def dispatch (num a0 a1 a2 : UInt32) : UserProg Int :=
  match num.toNat with
  | 1 => puts task a0
  | 2 => getChar dev caller
  | 3 => fileSize fails fuel task a0
  | 4 => listEntry fails fuel task a0 a1 a2
  | 5 => copyFile fails fuel task a0 a1
  | 6 => moveFile fails fuel task a0 a1
  | 7 => gfxClear caller a0
  | 8 => gfxRect caller task a0
  | 9 => gfxText font caller task a0
  | 10 => gfxSize caller task a0 a1
  | 11 => chdir fails fuel task a0
  | 12 => mkdir fails fuel task a0
  | 13 => rmdir fails fuel task a0
  | 14 => deleteEntry fails fuel task a0
  | 15 => renameEntry fails fuel task a0 a1
  | 16 => copyToDir fails fuel task false a0 a1
  | 17 => copyToDir fails fuel task true a0 a1
  | 18 => clipSet fails fuel task a0 a1
  | 19 => clipPaste fails fuel task a0
  | 20 => random dev a0
  | 21 => fileRead fails fuel task a0 a1 a2
  | 22 => fileWrite fails fuel task a0 a1 a2
  | 23 => getCharNonblock dev caller
  | 24 => getTicks dev caller
  | 25 => getMouseState dev caller task a0
  | 26 => waitEvent dev caller a0 a1
  | 27 => gfxPresent caller
  | 28 => getTime dev task a0
  | 29 => threadSpawn dev caller task a0
  | 30 => pure 0
  | 31 => pure caller.pid
  | 33 => gfxSurfaceBlit caller task a0
  | 34 => driveValid a0
  | 35 => gfxRectBatch caller task a0
  | 36 => gfxTextClipped font caller task a0
  | _ => pure (-1)

/-- A system call of the app whose task the machine holds. -/
def syscall (num a0 a1 a2 : UInt32) : UserProg Int := do
  let m ← Touch.state
  dispatch fails fuel font dev caller m.1.2 num a0 a1 a2

end Calls

end User
end MiniDos
