import MiniDos.Files.Model

/-!
# MiniDos.Files.Shell

The shell's side: `shell_fs.c`, the drive switch of `shell.c`, and the launches of
`shell_apps_launch.inc` as far as they touch the file system. `Machine` has the kernel, the shell and
the app tasks; `step` is one command, one launch or exit, or one file system call of an app.

* What a command prints is left out, and so is the search of a launch for a slot and memory:
  whether an image that was read is started, and in which slot, is part of the event.
* A foreground app has the shell wait. Here the shell may go on; the runs of the code are among the
  runs of this machine.
-/

namespace MiniDos
namespace Files

open BlockIO Fat16 Drive

/-- The statics of `shell.c`, which hosts get pointers to. -/
structure Host where
  fat16Initialized : Bool
  currentDirCluster : Nat
  currentPath : CStr
  appClipMode : Nat
  appClipName : CStr
  appClipSrcCluster : Nat

abbrev Cmd := Action (Kernel × Host) Unit

def getHost : Action (Kernel × Host) Host := do
  let s ← Action.get
  pure s.2

def setHost (f : Host → Host) : Action (Kernel × Host) Unit :=
  Action.modify (fun s => (s.1, f s.2))

section Commands

variable (fails : Nat → Bool) (fuel : Nat)

/-- `fat16_init` for the current drive, tried at most `n` times. -/
def readyWithin : Nat → Action (Kernel × Host) Bool
  | 0 => do
    let host ← getHost
    pure host.fat16Initialized
  | n + 1 => do
    let host ← getHost
    if host.fat16Initialized then pure true
    else do
      let drive ← driveGetCurrent.onFst
      (setDrive drive).onFst
      let ok ← (init fails).onFst
      setHost (fun host => { host with fat16Initialized := ok })
      readyWithin n

/-- `ensure_fat16_ready` of `shell.c`. -/
def ensureFat16Ready : Action (Kernel × Host) Bool := readyWithin fails 3

/-- `shell_apps_ensure_host_fat16_ready`. -/
def ensureHostFat16Ready : Action (Kernel × Host) Bool := readyWithin fails 1

/-! ## Arguments -/

/-- One word of an argument, of at most 63 characters, and what follows it. -/
def parseWord (args : CStr) : Option (CStr × CStr) :=
  let s := args.dropWhile isBlank
  let word := s.takeWhile (fun c => !isBlank c)
  if s = [] ∨ nameSize - 1 < word.length then none else some (word, s.dropWhile (fun c => !isBlank c))

def parseTwoArgs (args : CStr) : Option (CStr × CStr) :=
  match parseWord args with
  | none => none
  | some (first, rest) =>
    match parseWord rest with
    | none => none
    | some (second, rest) => if rest.dropWhile isBlank = [] then some (first, second) else none

/-- `str_copy_upper` into 64 bytes. -/
def strCopyUpper (s : CStr) : CStr := strToUpper (s.take (nameSize - 1))

def hasWildcards (s : CStr) : Bool := s.any (fun c => c == chStar || c == chQuestion)

/-! ## Commands -/

def listVerdict (e : DirectoryEntry) : Verdict := if e.isEnd then .stop else .skip

def listBody (sector : Nat) : DiskProg (Option Unit) := do
  let ok ← readSector .main sector
  if ok then do
    let s ← load .main
    match scanSector listVerdict s with
    | .more => pure none
    | _ => pure (some ())
  else pure (some ())

/-- `fat16_list_root_filtered` and `fat16_list_dir_filtered`: the sectors they read. -/
def listDir (g : Globals) (dir : Nat) : DiskProg Unit := do
  let _ ← forDirSectors g fuel dir listBody
  pure ()

/-- `dir` and `elfls`. -/
def cmdDir : Cmd := do
  let ready ← ensureFat16Ready fails
  if ready then do
    let host ← getHost
    fat fails (fun g => listDir fuel g host.currentDirCluster)
  else pure ()

/-- How `cd` ends: it shows the path, changes the directory or has nothing to do, or gives a
message. -/
inductive CdReply where
  | shown
  | done
  | noDisk
  | notFound
  | tooLong

def cdTo (path : CStr → Option CStr) : Option Nat → Action (Kernel × Host) CdReply
  | none => pure .notFound
  | some cluster => do
    let host ← getHost
    match path host.currentPath with
    | none => pure .tooLong
    | some path => do
      setHost (fun host => { host with currentDirCluster := cluster, currentPath := path })
      pure .done

/-- `cd` behind its `ensure_fat16_ready`. -/
def cdReady (args : CStr) : Action (Kernel × Host) CdReply := do
  let host ← getHost
  if args.at 0 = 0 then pure .shown
  else if args.at 0 = chBackslash ∨ args.at 0 = chSlash then do
    setHost (fun host => { host with currentDirCluster := 0, currentPath := pathReset })
    pure .done
  else if args.at 0 = chDot ∧ args.at 1 = chDot ∧ args.at 2 = 0 then do
    let parent ← fat fails (fun g => getParentCluster g fuel host.currentDirCluster)
    cdTo (fun path => some (pathPop path)) parent
  else if args.at 0 = chDot ∧ args.at 1 = 0 then pure .done
  else do
    let next ← fat fails (fun g => findDirCluster g fuel host.currentDirCluster (strCopyUpper args))
    cdTo (fun path => pathPush path pathMax (strCopyUpper args)) next

/-- `shell_fs_cmd_cd`, with what it prints. -/
def cdReply (args : CStr) : Action (Kernel × Host) CdReply := do
  let ready ← ensureFat16Ready fails
  if ready then cdReady fails fuel args else pure .noDisk

def cmdCd (args : CStr) : Cmd := do
  let _ ← cdReply fails fuel args
  pure ()

def cmdType (args : CStr) : Cmd :=
  if args.at 0 = 0 then pure ()
  else do
    let ready ← ensureFat16Ready fails
    if ready then do
      let host ← getHost
      let _ ← fat fails (fun g => readFileFromDir g fuel host.currentDirCluster (strCopyUpper args) 8192)
      pure ()
    else pure ()

def cmdMkdir (args : CStr) : Cmd :=
  if args.at 0 = 0 then pure ()
  else do
    let ready ← ensureFat16Ready fails
    if ready then do
      let host ← getHost
      let _ ← fat fails (fun g => Fat16.mkdir g fuel host.currentDirCluster (strCopyUpper args))
      pure ()
    else pure ()

def cmdRmdir (args : CStr) : Cmd :=
  if args.at 0 = 0 then pure ()
  else do
    let ready ← ensureFat16Ready fails
    if ready then do
      let host ← getHost
      let _ ← fat fails (fun g => Fat16.rmdir g fuel host.currentDirCluster (strCopyUpper args))
      pure ()
    else pure ()

/-- `del` and `rm`. -/
def cmdDel (args : CStr) : Cmd :=
  if args.at 0 = 0 then pure ()
  else do
    let ready ← ensureFat16Ready fails
    if ready then do
      let host ← getHost
      if hasWildcards (strCopyUpper args) then do
        let _ ← fat fails
          (fun g => deleteMatching g fuel host.currentDirCluster (strCopyUpper args) true)
        pure ()
      else do
        let _ ← fat fails
          (fun g => Fat16.deleteEntry g fuel host.currentDirCluster (strCopyUpper args) true)
        pure ()
    else pure ()

/-- `copy` and `cp`. -/
def cmdCopy (args : CStr) : Cmd :=
  match parseTwoArgs args with
  | none => pure ()
  | some (srcName, dstName) => do
    let ready ← ensureFat16Ready fails
    if ready then do
      let host ← getHost
      let _ ← fat fails (fun g => Fat16.copyFile g fuel host.currentDirCluster (strToUpper srcName)
        (strToUpper dstName))
      pure ()
    else pure ()

/-- `move` behind its `fat16_find_entry`. -/
def moveEntry (dir : Nat) (srcName dstName : CStr) : Option Located → Cmd
  | none => pure ()
  | some x =>
    if x.entry.isDirectory then pure ()
    else do
      let _ ← fat fails (fun g => updateEntry g fuel dir srcName dstName x.entry.clusterLow.toNat
        x.entry.fileSize.toNat x.entry.attributes)
      pure ()

/-- `move`, `mv` and `ren`. -/
def cmdMove (args : CStr) : Cmd :=
  match parseTwoArgs args with
  | none => pure ()
  | some (srcName, dstName) => do
    let ready ← ensureFat16Ready fails
    if ready then do
      let host ← getHost
      let found ← fat fails (fun g => findEntry g fuel host.currentDirCluster (strToUpper srcName))
      moveEntry fails fuel host.currentDirCluster (strToUpper srcName) (strToUpper dstName) found
    else pure ()

def switchDrive (letter : Nat) : Cmd := do
  let s ← Action.get
  if s.1.Valid letter then do
    (driveSetCurrent letter).onFst
    (setDrive letter).onFst
    setHost (fun host =>
      { host with currentDirCluster := 0, currentPath := pathReset, fat16Initialized := false })
  else pure ()

def completeEntry (index : Nat) : Cmd := do
  let ready ← ensureFat16Ready fails
  if ready then do
    let host ← getHost
    let _ ← fat fails (fun g => getEntryByIndex g fuel host.currentDirCluster index)
    pure ()
  else pure ()

/-- The image or script `name` is looked for: whether it has any bytes. -/
def stageImage (name : CStr) (maxSize : Nat) : Action (Kernel × Host) Bool := do
  let ready ← ensureHostFat16Ready fails
  if ready then do
    let host ← getHost
    let bytes ← fat fails (fun g => readFileFromDir g fuel host.currentDirCluster name maxSize)
    pure (!bytes.isEmpty)
  else pure false

inductive Command where
  | dir
  | cd (args : CStr)
  | type (args : CStr)
  | mkdir (args : CStr)
  | rmdir (args : CStr)
  | del (args : CStr)
  | copy (args : CStr)
  | move (args : CStr)
  | drive (letter : Nat)
  | complete (index : Nat)

def Command.run : Command → Cmd
  | .dir => cmdDir fails fuel
  | .cd args => cmdCd fails fuel args
  | .type args => cmdType fails fuel args
  | .mkdir args => cmdMkdir fails fuel args
  | .rmdir args => cmdRmdir fails fuel args
  | .del args => cmdDel fails fuel args
  | .copy args => cmdCopy fails fuel args
  | .move args => cmdMove fails fuel args
  | .drive letter => switchDrive letter
  | .complete index => completeEntry fails fuel index

end Commands

/-! ## The machine -/

structure Machine where
  kernel : Kernel
  shell : Host
  tasks : Nat → Option Task

/-- `shell_apps_copy_host_state`. -/
def copyHostState (k : Kernel) (host : Host) (slotBytes : Nat) : Task where
  drive := k.current
  fat16Initialized := host.fat16Initialized
  currentDirCluster := host.currentDirCluster
  currentPath := host.currentPath
  appClipMode := host.appClipMode
  appClipName := host.appClipName
  appClipSrcCluster := host.appClipSrcCluster
  appSlotBytes := slotBytes

/-- `shell_apps_sync_host_state`. -/
def syncHostState (task : Task) (host : Host) : Host :=
  { host with
    fat16Initialized := task.fat16Initialized
    appClipSrcCluster := task.appClipSrcCluster
    appClipMode := task.appClipMode
    appClipName := task.appClipName }

/-- `launch`: the file `name` is read, and when it holds an image that is started, it gets slot
`pid`. `thread`: task `pid` starts a thread. `exit`: task `pid` is gone; `join` when the shell
waited for it. -/
inductive Event where
  | command (cmd : Command)
  | launch (name : CStr) (maxSize : Nat) (start : Option (Nat × Nat))
  | thread (pid newPid : Nat)
  | exit (pid : Nat) (join : Bool)
  | syscall (pid : Nat) (num : Syscall) (args : Args)

def Machine.setTask (m : Machine) (pid : Nat) (task : Option Task) : Machine :=
  { m with tasks := fun i => if i = pid then task else m.tasks i }

def Machine.setShell (m : Machine) (s : Kernel × Host) : Machine :=
  { m with kernel := s.1, shell := s.2 }

/-- A task with a drive of the kernel as its own. -/
def Machine.start (m : Machine) (pid slotBytes : Nat) : Machine :=
  { m.setTask pid (some (copyHostState m.kernel m.shell slotBytes)) with
    kernel := { m.kernel with currentDrive := m.kernel.current } }

variable (fails : Nat → Bool) (fuel : Nat)

def step (m : Machine) : Event → Option Machine
  | .command cmd => (cmd.run fails fuel (m.kernel, m.shell)).map (fun r => m.setShell r.2)
  | .launch name maxSize start =>
    (stageImage fails fuel name maxSize (m.kernel, m.shell)).map (fun r =>
      match start with
      | some (pid, slotBytes) => if r.1 then (m.setShell r.2).start pid slotBytes else m.setShell r.2
      | none => m.setShell r.2)
  | .thread pid newPid => (m.tasks pid).map (fun task => m.setTask newPid (some task))
  | .exit pid join => (m.tasks pid).map (fun task =>
      if join then { m.setTask pid none with shell := syncHostState task m.shell }
      else m.setTask pid none)
  | .syscall pid num args => (m.tasks pid).bind (fun task =>
      (Files.syscall fails fuel num args (m.kernel, task)).map (fun r =>
        { m.setTask pid (some r.2.2) with kernel := r.2.1 }))

end Files
end MiniDos
