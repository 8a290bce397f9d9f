import MiniDos.User.Memory

/-!
# MiniDos.User.FileCalls

The file system calls of `shell_apps_syscall`, with their accesses of the memory of the app. What
they do to the file system is that of `MiniDos.Files`.

* `fat16_write_file_from_dir` takes its bytes from the memory of the app while it writes sectors, so
  its loops stand here once more.
* The bytes of `fat16_read_file_from_dir` are stored behind its reads.
-/

namespace MiniDos
namespace User

open BlockIO Fat16 Files

section Calls

variable (fails : Nat → Bool) (fuel : Nat) (task : Task)

def onDisk {α : Type} (p : DiskProg α) : UserProg α := onFiles ((onDrive fails p).onFst)

/-- `k` in the drive context of the task. -/
def inDrive (other : Int) (k : Call) : Call := do
  let (entered, previous) ← enterDriveContext fails
  if entered then do
    let result ← k
    leaveDriveContext previous
    pure result
  else pure other

def withName (other : Int) (a0 : UInt32) (k : CStr → Call) : UserProg Int := do
  let nameA ← copyUserUpper task a0
  match nameA with
  | none => pure other
  | some nameA => onFiles (inDrive fails other (k nameA))

def withNames (a0 a1 : UInt32) (k : CStr → CStr → Call) : UserProg Int := do
  let names ← copyUserNames task a0 a1
  match names with
  | none => pure 0
  | some (nameA, nameB) => onFiles (inDrive fails 0 (k nameA nameB))

/-! ## Files -/

def fileSize (a0 : UInt32) : UserProg Int :=
  withName fails task (-1) a0 (fun nameA => do
    let found ← fat fails (fun g => findEntry g fuel task.currentDirCluster nameA)
    match found with
    | none => pure (-1)
    | some x => pure (if x.entry.isDirectory then -1 else x.entry.fileSize.toNat))

def fileRead (a0 a1 a2 : UInt32) : UserProg Int :=
  if a1 = 0 ∨ asInt a2 ≤ 0 ∨ ¬ userRangeValid task a1 a2 then pure (-1)
  else do
    let nameA ← copyUserUpper task a0
    match nameA with
    | none => pure (-1)
    | some nameA => do
      let (entered, previous) ← onFiles (enterDriveContext fails)
      if entered then do
        let bytes ← onFiles (fat fails
          (fun g => readFileFromDir g fuel task.currentDirCluster nameA a2.toNat))
        Touch.writeCells a1.toNat bytes
        onFiles (leaveDriveContext previous)
        pure bytes.length
      else pure (-1)

/-- The sectors of one new cluster, with `n` of them left. -/
def writeUserSectors (buffer base : Nat) :
    Nat → Nat → Nat → Nat → UserProg (Option (Nat × Nat))
  | 0, _, offset, remaining => pure (some (offset, remaining))
  | n + 1, s, offset, remaining => do
    let chunk := if remaining > sectorSize then sectorSize else remaining
    let bytes ← Touch.readCells (buffer + offset) chunk
    let ok ← onDisk fails (do
      store .main (chunkSector (fun i => bytes.getD i 0) 0 chunk)
      writeSector .main (base + s))
    if ok then writeUserSectors buffer base n (s + 1) (offset + chunk) (remaining - chunk)
    else pure none

/-- The loop of `fat16_write_file_from_dir` with `n` steps left; `none`: it returned 0. -/
def writeUserLoop (g : Globals) (buffer : Nat) : Nat → WriteState → UserProg (Option WriteState)
  | 0, st => pure (some st)
  | n + 1, st =>
    if st.remaining = 0 then pure (some st)
    else do
      let r ← onDisk fails (allocCluster g)
      match r with
      | none => do
        onDisk fails (rollback g st.newFirst)
        pure none
      | some cluster => do
        let first := if st.newFirst = 0 then cluster else st.newFirst
        let ok ← onDisk fails (if 2 ≤ st.prev then linkCluster g st.prev cluster else pure true)
        if ok then do
          let r ← writeUserSectors fails buffer (g.clusterSector cluster) g.bpb.sectorsPerCluster 0
            st.offset st.remaining
          match r with
          | none => do
            let _ ← onDisk fails (freeClusterChain g first)
            pure none
          | some (offset, remaining) => writeUserLoop g buffer n ⟨first, cluster, offset, remaining⟩
        else do
          let _ ← onDisk fails (freeClusterChain g first)
          pure none

/-- The entry and the old chain, behind the loop. -/
def finishWrite (g : Globals) (dir : Nat) (filename : CStr) (existing : Option Located) (size : Nat)
    (st : WriteState) : DiskProg Bool :=
  if st.remaining ≠ 0 then do
    rollback g st.newFirst
    pure false
  else do
    let ok ← commitEntry g fuel dir filename existing st.newFirst size
    let oldFirst := (existing.map (fun found => found.entry.clusterLow.toNat)).getD 0
    if ok then
      if 2 ≤ oldFirst ∧ oldFirst ≠ st.newFirst then freeClusterChain g oldFirst
      else pure true
    else do
      rollback g st.newFirst
      pure false

/-- `fat16_write_file_from_dir` on a buffer of the app; 0 is the null pointer. -/
def writeUserFile (g : Globals) (dir : Nat) (filename : CStr) (buffer : UInt32) (size : Int) :
    UserProg Bool :=
  if filename.at 0 = 0 ∨ size < 0 then pure false
  else if size > 0 ∧ buffer = 0 then pure false
  else if g.bpb.sectorsPerCluster * sectorSize = 0 then pure false
  else do
    let existing ← onDisk fails (findEntryInternal g fuel dir filename)
    if existing.any (fun found => found.entry.isDirectory) then pure false
    else do
      let r ← writeUserLoop fails g buffer.toNat (g.getTotalClusters + 2) ⟨0, 0, 0, size.toNat⟩
      match r with
      | none => pure false
      | some st => onDisk fails (finishWrite fuel g dir filename existing size.toNat st)

def beginCall : Action (Kernel × Task) Globals :=
  Action.onFst (do
    Action.modify Kernel.begin
    let k ← Action.get
    pure k.globals)

def fileWrite (a0 a1 a2 : UInt32) : UserProg Int :=
  if (a1 = 0 ∧ 0 < asInt a2) ∨ asInt a2 < 0 ∨
      (0 < asInt a2 ∧ ¬ userRangeValid task a1 a2) then pure 0
  else do
    let nameA ← copyUserUpper task a0
    match nameA with
    | none => pure 0
    | some nameA => do
      let (entered, previous) ← onFiles (enterDriveContext fails)
      if entered then do
        let g ← onFiles beginCall
        let ok ← writeUserFile fails fuel g task.currentDirCluster nameA a1 (asInt a2)
        onFiles (leaveDriveContext previous)
        pure (flag ok)
      else pure 0

def storeWord (addr w : UInt32) : UserProg Unit :=
  if addr = 0 then pure () else writeWord addr.toNat w

/-- What `fat16_get_entry_by_index` stores for the entry that it found. -/
def storeEntry (a1 a2 : UInt32) : Option (CStr × Bool × Nat) → UserProg Unit
  | none => pure ()
  | some (name, isDir, _) => do
    Touch.writeCells a1.toNat (name ++ [0])
    storeWord a2 (if isDir then 1 else 0)

def listEntry (a0 a1 a2 : UInt32) : UserProg Int :=
  if a1 = 0 ∨ ¬ userRangeValid task a1 13 ∨ (a2 ≠ 0 ∧ ¬ userRangeValid task a2 4) then pure 0
  else do
    let (entered, previous) ← onFiles (enterDriveContext fails)
    if entered then do
      Touch.write a1.toNat 0
      storeWord a2 0
      let found ← onFiles (fat fails
        (fun g => getEntryByIndex g fuel task.currentDirCluster a0.toNat))
      storeEntry a1 a2 found
      onFiles (leaveDriveContext previous)
      pure (flag found.isSome)
    else pure 0

def copyFile (a0 a1 : UInt32) : UserProg Int :=
  withNames fails task a0 a1 (fun nameA nameB => do
    let ok ← fat fails (fun g => Fat16.copyFile g fuel task.currentDirCluster nameA nameB)
    pure (flag ok))

def moveFile (a0 a1 : UInt32) : UserProg Int :=
  withNames fails task a0 a1 (fun nameA nameB => do
    let found ← fat fails (fun g => findEntry g fuel task.currentDirCluster nameA)
    let result ← moveFound fails fuel task.currentDirCluster nameA nameB found
    pure (flag result))

/-! ## Directories -/

def chdir (a0 : UInt32) : UserProg Int := do
  let nameA ← copyUserString task a0 nameSize
  match nameA with
  | none => pure 0
  | some nameA =>
    match driveName nameA with
    | some letter => onFiles (chdirDrive letter)
    | none =>
      if nameA.at 0 = chBackslash ∨ nameA.at 0 = chSlash then
        onFiles (do
          setTask (fun task => { task with currentDirCluster := 0, currentPath := pathReset })
          pure 1)
      else if nameA.at 0 = chDot ∧ nameA.at 1 = chDot ∧ nameA.at 2 = 0 then
        onFiles (chdirParent fails fuel)
      else if nameA.at 0 = chDot ∧ nameA.at 1 = 0 then pure 1
      else onFiles (chdirName fails fuel (strToUpper nameA))

def mkdir (a0 : UInt32) : UserProg Int :=
  withName fails task 0 a0 (fun nameA => do
    let ok ← fat fails (fun g => Fat16.mkdir g fuel task.currentDirCluster nameA)
    pure (flag ok))

def rmdir (a0 : UInt32) : UserProg Int :=
  withName fails task 0 a0 (fun nameA => do
    let ok ← fat fails (fun g => Fat16.rmdir g fuel task.currentDirCluster nameA)
    pure (flag ok))

def deleteEntry (a0 : UInt32) : UserProg Int :=
  withName fails task 0 a0 (fun nameA => do
    let found ← fat fails (fun g => findEntry g fuel task.currentDirCluster nameA)
    let result ← deleteFound fails fuel task.currentDirCluster nameA found
    pure (flag result))

def renameEntry (a0 a1 : UInt32) : UserProg Int :=
  withNames fails task a0 a1 (fun nameA nameB => do
    let found ← fat fails (fun g => findEntry g fuel task.currentDirCluster nameA)
    let result ← renameFound fails fuel task.currentDirCluster nameA nameB found
    pure (flag result))

def copyToDir (move : Bool) (a0 a1 : UInt32) : UserProg Int :=
  withNames fails task a0 a1 (fun nameA nameB => do
    let dst ← fat fails (fun g => findDirCluster g fuel task.currentDirCluster nameB)
    let result ← copyInto fails fuel move task.currentDirCluster nameA dst
    pure (flag result))

/-! ## The clipboard -/

/-- `MINIDOS_SYSCALL_CLIP_SET` behind its `fat16_find_entry`. -/
def clipFound (a1 : UInt32) (nameA : CStr) : Option Located → Call
  | none => pure 0
  | some x =>
    if x.entry.isDirectory then pure 0
    else do
      setTask (fun task =>
        { task with
          appClipName := nameA
          appClipSrcCluster := task.currentDirCluster
          appClipMode := if asInt a1 = 2 then 2 else 1 })
      pure 1

def clipSet (a0 a1 : UInt32) : UserProg Int :=
  withName fails task 0 a0 (fun nameA => do
    let found ← fat fails (fun g => findEntry g fuel task.currentDirCluster nameA)
    clipFound a1 nameA found)

def pasteFound (previous : Nat) : Option Nat → Call
  | none => do
    leaveDriveContext previous
    pure 0
  | some dstDirCluster => do
    let result ← pasteInto fails fuel task dstDirCluster
    leaveDriveContext previous
    pure result

def clipPaste (a0 : UInt32) : UserProg Int :=
  if task.appClipMode = 0 ∨ task.appClipName = [] then pure 0
  else do
    let (entered, previous) ← onFiles (enterDriveContext fails)
    if entered then
      if a0 = 0 then onFiles (pasteFound fails fuel task previous (some task.currentDirCluster))
      else do
        let nameA ← copyUserString task a0 nameSize
        match nameA with
        | none => onFiles (pasteFound fails fuel task previous none)
        | some [] => onFiles (pasteFound fails fuel task previous (some task.currentDirCluster))
        | some nameA => onFiles (do
          let dst ← fat fails
            (fun g => findDirCluster g fuel task.currentDirCluster (strToUpper nameA))
          pasteFound fails fuel task previous dst)
    else pure 0

end Calls

end User
end MiniDos
