import MiniDos.Drive.Table
import MiniDos.Lib.Action
import MiniDos.Fat.File
import Mathlib.Algebra.Group.Int.Defs
import Mathlib.Algebra.Group.Nat.Defs

/-!
# MiniDos.Files.Model

The callers of the driver: the file system calls of apps (`shell_apps_syscall` of `shell_apps.c`).

* `drive.c` and `fat16.c` keep a current drive each, and the driver keeps the globals of the volume
  that `fat16_init` read last. A task has a drive of its own and a flag that says that the globals
  are set up; `enterDriveContext` and `leaveDriveContext` stand around its calls of the driver.
* System calls run with interrupts disabled. Bytes that a call stores into the memory of the app are
  left out.
-/

namespace MiniDos
namespace Files

open BlockIO Fat16 Drive

/-! ## The kernel -/

/-- A call of the driver as it began: the drive, the globals, and sector 0 of the drive. -/
structure Begun where
  letter : Nat
  globals : Globals
  boot : Sector

/-- `letter` is `current_drive_letter` of `fat16.c`. The calls that began are kept beside it. -/
structure Kernel where
  drives : Drives
  currentDrive : Nat
  letter : Nat
  globals : Globals
  disks : Nat → Disk
  buf : Buffer → Sector
  accesses : Nat
  stores : Nat
  begun : List Begun

/-- `drive_get_info`. -/
def driveGetInfo (drives : Drives) (letter : Nat) : Option DriveInfo :=
  if letter < maxDrives then drives letter else none

def Kernel.Valid (k : Kernel) (letter : Nat) : Prop := (driveGetInfo k.drives letter).isSome = true

instance (k : Kernel) (letter : Nat) : Decidable (k.Valid letter) :=
  inferInstanceAs (Decidable (_ = true))

/-- The drive that `drive_get_current` settles on. -/
def settledDrive (drives : Drives) (current : Nat) : Nat :=
  if (driveGetInfo drives current).isSome then current
  else ((List.range maxDrives).find? (fun i => (driveGetInfo drives i).isSome)).getD 0

def Kernel.current (k : Kernel) : Nat := settledDrive k.drives k.currentDrive

def driveGetCurrent : Action Kernel Nat := do
  let k ← Action.get
  Action.modify (fun k => { k with currentDrive := k.current })
  pure k.current

def driveSetCurrent (letter : Nat) : Action Kernel Unit :=
  Action.modify (fun k => if k.Valid letter then { k with currentDrive := letter } else k)

def setDrive (letter : Nat) : Action Kernel Unit :=
  Action.modify (fun k => { k with letter := letter })

def Kernel.mem (k : Kernel) : DriverMem where
  buf := k.buf
  disk := k.disks k.letter
  accesses := k.accesses
  stores := k.stores

def Kernel.setMem (k : Kernel) (m : DriverMem) : Kernel :=
  { k with
    disks := fun l => if l = k.letter then m.disk else k.disks l
    buf := m.buf
    accesses := m.accesses
    stores := m.stores }

theorem Kernel.setMem_disks {k : Kernel} {m : DriverMem} (h : m.disk = k.disks k.letter) :
    (k.setMem m).disks = k.disks := by
  funext l
  show (if l = k.letter then m.disk else k.disks l) = k.disks l
  split
  · rename_i hl
    rw [h, hl]
  · rfl

section Calls

variable (fails : Nat → Bool) (fuel : Nat)

def Kernel.failing (k : Kernel) : Nat → Bool := fun n => !decide (k.Valid k.letter) || fails n

def onDrive {α : Type} (p : DiskProg α) : Action Kernel α :=
  fun k => (p.run (k.failing fails) k.mem).map (fun r => (r.1, k.setMem r.2))

def readBoot : DiskProg (Option Sector) := do
  let ok ← readSector .main 0
  if ok then do
    let s ← load .main
    pure (some s)
  else pure none

/-- `fat16_init`. -/
def init : Action Kernel Bool := do
  let boot ← onDrive fails readBoot
  match boot with
  | none => pure false
  | some s => do
    let k ← Action.get
    match Fat16.fat16Init .cpu k.globals s with
    | none => Action.diverge
    | some (g, ok) => do
      Action.modify (fun k => { k with globals := g })
      pure ok

def Kernel.begin (k : Kernel) : Kernel :=
  { k with begun := ⟨k.letter, k.globals, k.disks k.letter 0⟩ :: k.begun }

/-- A call of the driver, for a caller with a state of its own. -/
def fat {σ α : Type} (p : Globals → DiskProg α) : Action (Kernel × σ) α :=
  Action.onFst (do
    Action.modify Kernel.begin
    let k ← Action.get
    onDrive fails (p k.globals))

/-! ## Strings -/

def chBackslash : Byte := 0x5C
def chSlash : Byte := 0x2F
def chColon : Byte := 0x3A

def strToUpper (s : CStr) : CStr := s.map upperChar

def pathReset : CStr := [chBackslash]

/-- The path in front of its last backslash but the leading one, looked for from place `i` down. -/
def popFrom (path : CStr) : Nat → CStr
  | 0 => pathReset
  | i + 1 => if path.at (i + 1) = chBackslash then path.take (i + 1) else popFrom path i

def pathPop (path : CStr) : CStr :=
  if path.length ≤ 1 then pathReset else popFrom path (path.length - 1)

def pathPush (path : CStr) (maxLen : Nat) (name : CStr) : Option CStr :=
  if path = pathReset then
    if maxLen < 1 + name.length + 1 then none else some (path ++ name)
  else if maxLen < path.length + 1 + name.length + 1 then none
  else if path.getLast? = some chBackslash then some (path ++ name)
  else some (path ++ [chBackslash] ++ name)

def pathMax : Nat := 64

/-! ## Tasks -/

/-- The fields of `shell_app_task_t` that the calls use. -/
structure Task where
  drive : Nat
  fat16Initialized : Bool
  currentDirCluster : Nat
  currentPath : CStr
  appClipMode : Nat
  appClipName : CStr
  appClipSrcCluster : Nat
  appSlotBytes : Nat

/-- The arguments of a call, and the memory of the app. -/
structure Args where
  a0 : UInt32
  a1 : UInt32
  a2 : UInt32
  mem : Nat → Byte

def loadVirtBase : Nat := 0x01000000
def slotMaxSize : Nat := 0x400000

/-- `(int)a`. -/
def asInt (a : UInt32) : Int := if a.toNat < 2 ^ 31 then a.toNat else (a.toNat : Int) - 2 ^ 32

/-- At most `n` bytes from address `addr` on, the terminating NUL among them. -/
def readString (mem : Nat → Byte) (limit : Nat) : Nat → Nat → Option CStr
  | 0, _ => none
  | n + 1, addr =>
    if limit ≤ addr then none
    else if mem addr = 0 then some []
    else (readString mem limit n (addr + 1)).map (mem addr :: ·)

def copyUserString (task : Task) (mem : Nat → Byte) (input : UInt32) (outSize : Nat) :
    Option CStr :=
  if input = 0 then none
  else if task.appSlotBytes = 0 ∨ slotMaxSize < task.appSlotBytes then none
  else if input.toNat < loadVirtBase ∨ loadVirtBase + task.appSlotBytes ≤ input.toNat then none
  else readString mem (loadVirtBase + task.appSlotBytes) (outSize - 1) input.toNat

def nameSize : Nat := 64

def copyUserUpper (task : Task) (mem : Nat → Byte) (input : UInt32) : Option CStr :=
  (copyUserString task mem input nameSize).map strToUpper

def userRangeValid (task : Task) (addr size : UInt32) : Bool :=
  if size = 0 then true
  else if task.appSlotBytes = 0 ∨ slotMaxSize < task.appSlotBytes then false
  else if addr.toNat < loadVirtBase ∨ loadVirtBase + task.appSlotBytes ≤ addr.toNat then false
  else decide (addr ≤ addr + size) && decide ((addr + size).toNat ≤ loadVirtBase + task.appSlotBytes)

/-- The result of a call of the driver that returns 0 or 1. -/
def flag (ok : Bool) : Int := if ok then 1 else 0

/-! ## Drive contexts -/

abbrev Call := Action (Kernel × Task) Int

def getTask : Action (Kernel × Task) Task := do
  let s ← Action.get
  pure s.2

def setTask (f : Task → Task) : Action (Kernel × Task) Unit :=
  Action.modify (fun s => (s.1, f s.2))

/-- `shell_apps_enter_drive_context`: whether it was entered, and the drive before. -/
def enterDriveContext : Action (Kernel × Task) (Bool × Nat) := do
  let previous ← driveGetCurrent.onFst
  let task ← getTask
  (driveSetCurrent task.drive).onFst
  (setDrive task.drive).onFst
  if task.fat16Initialized then pure (true, previous)
  else do
    let ok ← (init fails).onFst
    setTask (fun task => { task with fat16Initialized := ok })
    pure (ok, previous)

def leaveDriveContext (previous : Nat) : Action (Kernel × Task) Unit := do
  (driveSetCurrent previous).onFst
  (setDrive previous).onFst

/-! ## Files -/

def fileSize (args : Args) : Call := do
  let task ← getTask
  match copyUserUpper task args.mem args.a0 with
  | none => pure (-1)
  | some nameA => do
    let (entered, previous) ← enterDriveContext fails
    if entered then do
      let found ← fat fails (fun g => findEntry g fuel task.currentDirCluster nameA)
      leaveDriveContext previous
      match found with
      | none => pure (-1)
      | some x => pure (if x.entry.isDirectory then -1 else x.entry.fileSize.toNat)
    else pure (-1)

def fileRead (args : Args) : Call := do
  let task ← getTask
  if args.a1 = 0 ∨ asInt args.a2 ≤ 0 ∨ ¬ userRangeValid task args.a1 args.a2 then pure (-1)
  else
    match copyUserUpper task args.mem args.a0 with
    | none => pure (-1)
    | some nameA => do
      let (entered, previous) ← enterDriveContext fails
      if entered then do
        let bytes ← fat fails
          (fun g => readFileFromDir g fuel task.currentDirCluster nameA args.a2.toNat)
        leaveDriveContext previous
        pure bytes.length
      else pure (-1)

def writeBuffer (args : Args) : Option (Nat → Byte) :=
  if args.a1 = 0 then none else some (fun i => args.mem (args.a1.toNat + i))

def fileWrite (args : Args) : Call := do
  let task ← getTask
  if (args.a1 = 0 ∧ 0 < asInt args.a2) ∨ asInt args.a2 < 0 ∨
      (0 < asInt args.a2 ∧ ¬ userRangeValid task args.a1 args.a2) then pure 0
  else
    match copyUserUpper task args.mem args.a0 with
    | none => pure 0
    | some nameA => do
      let (entered, previous) ← enterDriveContext fails
      if entered then do
        let ok ← fat fails (fun g =>
          writeFileFromDir g fuel task.currentDirCluster nameA (writeBuffer args) (asInt args.a2))
        leaveDriveContext previous
        pure (flag ok)
      else pure 0

def listEntry (args : Args) : Call := do
  let task ← getTask
  if args.a1 = 0 ∨ ¬ userRangeValid task args.a1 13 ∨
      (args.a2 ≠ 0 ∧ ¬ userRangeValid task args.a2 4) then pure 0
  else do
    let (entered, previous) ← enterDriveContext fails
    if entered then do
      let found ← fat fails
        (fun g => getEntryByIndex g fuel task.currentDirCluster args.a0.toNat)
      leaveDriveContext previous
      pure (flag found.isSome)
    else pure 0

def copyFile (args : Args) : Call := do
  let task ← getTask
  match copyUserUpper task args.mem args.a0, copyUserUpper task args.mem args.a1 with
  | some nameA, some nameB => do
    let (entered, previous) ← enterDriveContext fails
    if entered then do
      let ok ← fat fails (fun g => Fat16.copyFile g fuel task.currentDirCluster nameA nameB)
      leaveDriveContext previous
      pure (flag ok)
    else pure 0
  | _, _ => pure 0

/-- `MINIDOS_SYSCALL_MOVE_FILE` behind its `fat16_find_entry`. -/
def moveFound (dir : Nat) (nameA nameB : CStr) : Option Located → Action (Kernel × Task) Bool
  | none => pure false
  | some x =>
    if x.entry.isDirectory then pure false
    else fat fails (fun g => updateEntry g fuel dir nameA nameB x.entry.clusterLow.toNat
      x.entry.fileSize.toNat x.entry.attributes)

def moveFile (args : Args) : Call := do
  let task ← getTask
  match copyUserUpper task args.mem args.a0, copyUserUpper task args.mem args.a1 with
  | some nameA, some nameB => do
    let (entered, previous) ← enterDriveContext fails
    if entered then do
      let found ← fat fails (fun g => findEntry g fuel task.currentDirCluster nameA)
      let result ← moveFound fails fuel task.currentDirCluster nameA nameB found
      leaveDriveContext previous
      pure (flag result)
    else pure 0
  | _, _ => pure 0

/-! ## Directories -/

def driveName (s : CStr) : Option Nat :=
  if ((0x41 ≤ s.at 0 ∧ s.at 0 ≤ 0x5A) ∨ (0x61 ≤ s.at 0 ∧ s.at 0 ≤ 0x7A)) ∧
      s.at 1 = chColon ∧ s.at 2 = 0 then
    some ((upperChar (s.at 0)).toNat - 0x41)
  else none

def chdirDrive (letter : Nat) : Call := do
  let s ← Action.get
  if s.1.Valid letter then do
    setTask (fun task =>
      { task with drive := letter, currentDirCluster := 0, currentPath := pathReset })
    pure 1
  else pure 0

def chdirTo (path : CStr → Option CStr) : Option Nat → Call
  | none => pure 0
  | some cluster => do
    let task ← getTask
    match path task.currentPath with
    | none => pure 0
    | some path => do
      setTask (fun task => { task with currentDirCluster := cluster, currentPath := path })
      pure 1

def chdirParent : Call := do
  let task ← getTask
  let (entered, previous) ← enterDriveContext fails
  if entered then do
    let parent ← fat fails (fun g => getParentCluster g fuel task.currentDirCluster)
    let result ← chdirTo (fun path => some (pathPop path)) parent
    leaveDriveContext previous
    pure result
  else pure 0

def chdirName (nameA : CStr) : Call := do
  let task ← getTask
  let (entered, previous) ← enterDriveContext fails
  if entered then do
    let next ← fat fails (fun g => findDirCluster g fuel task.currentDirCluster nameA)
    let result ← chdirTo (fun path => pathPush path pathMax nameA) next
    leaveDriveContext previous
    pure result
  else pure 0

def chdir (args : Args) : Call := do
  let task ← getTask
  match copyUserString task args.mem args.a0 nameSize with
  | none => pure 0
  | some nameA =>
    match driveName nameA with
    | some letter => chdirDrive letter
    | none =>
      if nameA.at 0 = chBackslash ∨ nameA.at 0 = chSlash then do
        setTask (fun task => { task with currentDirCluster := 0, currentPath := pathReset })
        pure 1
      else if nameA.at 0 = chDot ∧ nameA.at 1 = chDot ∧ nameA.at 2 = 0 then
        chdirParent fails fuel
      else if nameA.at 0 = chDot ∧ nameA.at 1 = 0 then pure 1
      else chdirName fails fuel (strToUpper nameA)

def mkdir (args : Args) : Call := do
  let task ← getTask
  match copyUserUpper task args.mem args.a0 with
  | none => pure 0
  | some nameA => do
    let (entered, previous) ← enterDriveContext fails
    if entered then do
      let ok ← fat fails (fun g => Fat16.mkdir g fuel task.currentDirCluster nameA)
      leaveDriveContext previous
      pure (flag ok)
    else pure 0

def rmdir (args : Args) : Call := do
  let task ← getTask
  match copyUserUpper task args.mem args.a0 with
  | none => pure 0
  | some nameA => do
    let (entered, previous) ← enterDriveContext fails
    if entered then do
      let ok ← fat fails (fun g => Fat16.rmdir g fuel task.currentDirCluster nameA)
      leaveDriveContext previous
      pure (flag ok)
    else pure 0

/-- `MINIDOS_SYSCALL_DELETE_ENTRY` behind its `fat16_find_entry`. -/
def deleteFound (dir : Nat) (nameA : CStr) : Option Located → Action (Kernel × Task) Bool
  | none => pure false
  | some x =>
    if x.entry.isDirectory then fat fails (fun g => Fat16.rmdir g fuel dir nameA)
    else fat fails (fun g => Fat16.deleteEntry g fuel dir nameA true)

def deleteEntry (args : Args) : Call := do
  let task ← getTask
  match copyUserUpper task args.mem args.a0 with
  | none => pure 0
  | some nameA => do
    let (entered, previous) ← enterDriveContext fails
    if entered then do
      let found ← fat fails (fun g => findEntry g fuel task.currentDirCluster nameA)
      let result ← deleteFound fails fuel task.currentDirCluster nameA found
      leaveDriveContext previous
      pure (flag result)
    else pure 0

/-- `MINIDOS_SYSCALL_RENAME_ENTRY` behind its `fat16_find_entry`. -/
def renameFound (dir : Nat) (nameA nameB : CStr) : Option Located → Action (Kernel × Task) Bool
  | none => pure false
  | some x => fat fails (fun g => updateEntry g fuel dir nameA nameB x.entry.clusterLow.toNat
      x.entry.fileSize.toNat x.entry.attributes)

def renameEntry (args : Args) : Call := do
  let task ← getTask
  match copyUserUpper task args.mem args.a0, copyUserUpper task args.mem args.a1 with
  | some nameA, some nameB => do
    let (entered, previous) ← enterDriveContext fails
    if entered then do
      let found ← fat fails (fun g => findEntry g fuel task.currentDirCluster nameA)
      let result ← renameFound fails fuel task.currentDirCluster nameA nameB found
      leaveDriveContext previous
      pure (flag result)
    else pure 0
  | _, _ => pure 0

def copyInto (move : Bool) (dir : Nat) (nameA : CStr) : Option Nat → Action (Kernel × Task) Bool
  | none => pure false
  | some dstDirCluster => do
    let copied ← fat fails (fun g => copyFileBetweenDirs g fuel dir nameA dstDirCluster nameA)
    if copied && move then fat fails (fun g => Fat16.deleteEntry g fuel dir nameA true)
    else pure copied

/-- `MINIDOS_SYSCALL_COPY_TO_DIR`, and with `move` `MINIDOS_SYSCALL_MOVE_TO_DIR`. -/
def copyToDir (move : Bool) (args : Args) : Call := do
  let task ← getTask
  match copyUserUpper task args.mem args.a0, copyUserUpper task args.mem args.a1 with
  | some nameA, some nameB => do
    let (entered, previous) ← enterDriveContext fails
    if entered then do
      let dst ← fat fails (fun g => findDirCluster g fuel task.currentDirCluster nameB)
      let result ← copyInto fails fuel move task.currentDirCluster nameA dst
      leaveDriveContext previous
      pure (flag result)
    else pure 0
  | _, _ => pure 0

/-! ## The clipboard -/

/-- `MINIDOS_SYSCALL_CLIP_SET` behind its `fat16_find_entry`. -/
def clipFound (args : Args) (nameA : CStr) : Option Located → Call
  | none => pure 0
  | some x =>
    if x.entry.isDirectory then pure 0
    else do
      setTask (fun task =>
        { task with
          appClipName := nameA
          appClipSrcCluster := task.currentDirCluster
          appClipMode := if asInt args.a1 = 2 then 2 else 1 })
      pure 1

def clipSet (args : Args) : Call := do
  let task ← getTask
  match copyUserUpper task args.mem args.a0 with
  | none => pure 0
  | some nameA => do
    let (entered, previous) ← enterDriveContext fails
    if entered then do
      let found ← fat fails (fun g => findEntry g fuel task.currentDirCluster nameA)
      let result ← clipFound args nameA found
      leaveDriveContext previous
      pure result
    else pure 0

/-- The move of `MINIDOS_SYSCALL_CLIP_PASTE` takes the file away and empties the clipboard. -/
def pasteMoved (task : Task) : Call := do
  let ok ← fat fails (fun g =>
    Fat16.deleteEntry g fuel task.appClipSrcCluster task.appClipName true)
  if ok then do
    setTask (fun task => { task with appClipMode := 0, appClipName := [] })
    pure 1
  else pure 0

def pasteInto (task : Task) (dstDirCluster : Nat) : Call := do
  let copied ← fat fails (fun g =>
    copyFileBetweenDirs g fuel task.appClipSrcCluster task.appClipName dstDirCluster
      task.appClipName)
  if ¬ copied then pure 0
  else if task.appClipMode = 2 then pasteMoved fails fuel task
  else pure 1

def clipPaste (args : Args) : Call := do
  let task ← getTask
  if task.appClipMode = 0 ∨ task.appClipName = [] then pure 0
  else do
    let (entered, previous) ← enterDriveContext fails
    if entered then
      if args.a0 = 0 then do
        let result ← pasteInto fails fuel task task.currentDirCluster
        leaveDriveContext previous
        pure result
      else
        match copyUserString task args.mem args.a0 nameSize with
        | none => do
          leaveDriveContext previous
          pure 0
        | some [] => do
          let result ← pasteInto fails fuel task task.currentDirCluster
          leaveDriveContext previous
          pure result
        | some nameA => do
          let dst ← fat fails
            (fun g => findDirCluster g fuel task.currentDirCluster (strToUpper nameA))
          match dst with
          | none => do
            leaveDriveContext previous
            pure 0
          | some dstDirCluster => do
            let result ← pasteInto fails fuel task dstDirCluster
            leaveDriveContext previous
            pure result
    else pure 0

/-! ## The dispatcher -/

/-- The numbers of the file system calls. -/
inductive Syscall where
  | fileSize
  | fileRead
  | fileWrite
  | listEntry
  | copyFile
  | moveFile
  | chdir
  | mkdir
  | rmdir
  | deleteEntry
  | renameEntry
  | copyToDir
  | moveToDir
  | clipSet
  | clipPaste
  deriving DecidableEq

/-- `shell_apps_syscall`. -/
def syscall (num : Syscall) (args : Args) : Call :=
  match num with
  | .fileSize => fileSize fails fuel args
  | .fileRead => fileRead fails fuel args
  | .fileWrite => fileWrite fails fuel args
  | .listEntry => listEntry fails fuel args
  | .copyFile => copyFile fails fuel args
  | .moveFile => moveFile fails fuel args
  | .chdir => chdir fails fuel args
  | .mkdir => mkdir fails fuel args
  | .rmdir => rmdir fails fuel args
  | .deleteEntry => deleteEntry fails fuel args
  | .renameEntry => renameEntry fails fuel args
  | .copyToDir => copyToDir fails fuel false args
  | .moveToDir => copyToDir fails fuel true args
  | .clipSet => clipSet fails fuel args
  | .clipPaste => clipPaste fails fuel args

end Calls

end Files
end MiniDos
