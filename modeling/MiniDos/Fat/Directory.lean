import MiniDos.Fat.Table
import MiniDos.Fat.Name

/-!
# MiniDos.Fat.Directory

Directory lookup (`fat16_dir_lookup.inc`) and the operations on directory entries
(`fat16_dir_mutation.inc`). A function that returns 0 or 1 gives a `Bool`, one that also has out
parameters gives an `Option`.
-/

namespace MiniDos
namespace Fat16

open BlockIO

/-! ## Scanning the slots of a sector -/

/-- What a scan does at one slot. -/
inductive Verdict where
  | skip
  | stop
  | hit
  deriving DecidableEq

/-- How the scan of one sector ends. -/
inductive Scan where
  | more
  | stopped
  | found (index : Nat)
  deriving DecidableEq

/-- The slots from index `i` on, with `n` of them left. -/
def scanFrom (f : DirectoryEntry → Verdict) (s : Sector) : Nat → Nat → Scan
  | 0, _ => .more
  | n + 1, i =>
    match f (s.entry i) with
    | .skip => scanFrom f s n (i + 1)
    | .stop => .stopped
    | .hit => .found i

def scanSector (f : DirectoryEntry → Verdict) (s : Sector) : Scan := scanFrom f s entriesPerSector 0

namespace DirectoryEntry

/-- `name[0] == 0x00`: no slot from here on was ever used. -/
def isEnd (e : DirectoryEntry) : Bool := e.nameAt 0 == 0x00

/-- `name[0] == 0xE5`. -/
def isDeleted (e : DirectoryEntry) : Bool := e.nameAt 0 == 0xE5

/-- `fat16_entry_is_visible`. -/
def isVisible (e : DirectoryEntry) : Bool :=
  !e.isEnd && !e.isDeleted && !e.isVolumeId && !e.isLongName

end DirectoryEntry

/-- An entry with the place it was read from. -/
structure Located where
  entry : DirectoryEntry
  sector : Nat
  index : Nat

/-! ## Lookup -/

def findVerdict (name : CStr) (e : DirectoryEntry) : Verdict :=
  if e.isEnd then .stop
  else if e.isDeleted then .skip
  else if e.isVolumeId then .skip
  else if e.isLongName then .skip
  else if !matchName name e then .skip
  else .hit

def findBody (name : CStr) (sector : Nat) : DiskProg (Option (Option Located)) := do
  let ok ← readSector .main sector
  if ok then do
    let s ← load .main
    match scanSector (findVerdict name) s with
    | .more => pure none
    | .stopped => pure (some none)
    | .found i => pure (some (some ⟨s.entry i, sector, i⟩))
  else pure (some none)

/-- `fat16_find_entry_internal`. -/
def findEntryInternal (g : Globals) (fuel dir : Nat) (name : CStr) : DiskProg (Option Located) := do
  let r ← forDirSectors g fuel dir (findBody name)
  pure (r.getD none)

def findEntry (g : Globals) (fuel dir : Nat) (name : CStr) : DiskProg (Option Located) :=
  if name.at 0 = 0 then pure none else findEntryInternal g fuel dir name

def findDirCluster (g : Globals) (fuel dir : Nat) (name : CStr) : DiskProg (Option Nat) := do
  let r ← findEntryInternal g fuel dir name
  match r with
  | none => pure none
  | some found =>
    if found.entry.isDirectory then pure (some found.entry.clusterLow.toNat) else pure none

def getParentCluster (g : Globals) (fuel dir : Nat) : DiskProg (Option Nat) :=
  if dir = 0 then pure (some 0) else findDirCluster g fuel dir dotDot

/-- The visible slots of one sector, with `n` slots left and `current` visible ones passed: the
slot with number `index`, the end mark, or the new count. -/
def indexFrom (index : Nat) (s : Sector) : Nat → Nat → Nat → Except Nat (Option Nat)
  | 0, _, current => .error current
  | n + 1, i, current =>
    if (s.entry i).isEnd then .ok none
    else if !(s.entry i).isVisible then indexFrom index s n (i + 1) current
    else if current = index then .ok (some i)
    else indexFrom index s n (i + 1) (current + 1)

/-- The loop of `fat16_get_entry_by_index` over the `n` sectors left from `base + k`. -/
def indexSectors (index base : Nat) :
    Nat → Nat → Nat → DiskProg (Except Nat (Option DirectoryEntry))
  | 0, _, current => pure (.error current)
  | n + 1, k, current => do
    let ok ← readSector .main (base + k)
    if ok then do
      let s ← load .main
      match indexFrom index s entriesPerSector 0 current with
      | .ok none => pure (.ok none)
      | .ok (some i) => pure (.ok (some (s.entry i)))
      | .error current => indexSectors index base n (k + 1) current
    else pure (.ok none)

def indexClusters (g : Globals) (index : Nat) :
    Nat → Nat → Nat → DiskProg (Option DirectoryEntry)
  | 0, cluster, _ => if g.isDataCluster cluster then diverge else pure none
  | fuel + 1, cluster, current =>
    if g.isDataCluster cluster then do
      let r ← indexSectors index (g.clusterSector cluster) g.bpb.sectorsPerCluster 0 current
      match r with
      | .ok r => pure r
      | .error current => do
        let next ← getNextCluster g (cluster % 65536)
        indexClusters g index fuel next current
    else pure none

/-- `fat16_get_entry_by_index`, with room for the name: display name, directory flag and size. -/
def getEntryByIndex (g : Globals) (fuel dir index : Nat) :
    DiskProg (Option (CStr × Bool × Nat)) := do
  let r ← if dir = 0 then do
      let r ← indexSectors index g.getRootDirStart g.getRootDirSectors 0 0
      match r with
      | .ok r => pure r
      | .error _ => pure none
    else indexClusters g index fuel dir 0
  pure (r.map (fun e => (buildDisplayName e, e.isDirectory, e.fileSize.toNat)))

/-! ## Placing entries -/

def freeVerdict (e : DirectoryEntry) : Verdict :=
  if e.isEnd || e.isDeleted then .hit else .skip

/-- One sector of `fat16_find_free_root_entry`. -/
def findFreeBody (sector : Nat) : DiskProg (Option (Option (Nat × Nat))) := do
  let ok ← readSector .main sector
  if ok then do
    let s ← load .main
    match scanSector freeVerdict s with
    | .found i => pure (some (some (sector, i)))
    | _ => pure none
  else pure (some none)

def findFreeRootEntry (g : Globals) : DiskProg (Option (Nat × Nat)) := do
  let r ← forSectors g.getRootDirStart findFreeBody g.getRootDirSectors 0
  pure (r.getD none)

def writeDirEntryAt (sector index : Nat) (e : DirectoryEntry) : DiskProg Bool := do
  let ok ← readSector .main sector
  if ok then do
    let s ← load .main
    store .main (s.setEntry index e)
    writeSector .main sector
  else pure false

def newEntry (name : Name) (cluster fileSize : Nat) (attributes : UInt8) : DirectoryEntry where
  name := name
  attributes := attributes
  reserved := 0
  creationTimeMs := 0
  creationTime := 0
  creationDate := 0
  accessDate := 0
  clusterHigh := 0
  modifiedTime := 0
  modifiedDate := 0
  clusterLow := UInt16.ofNat cluster
  fileSize := UInt32.ofNat fileSize

def dotName : Name := padName [chDot] []
def dotDotName : Name := padName [chDot, chDot] []

/-- `fat16_init_dir_entries`. -/
def initDirEntries (g : Globals) (dir parent : Nat) : DiskProg Bool := do
  let firstSector := g.clusterSector dir
  let ok ← readSector .main firstSector
  if ok then do
    let s ← load .main
    store .main ((s.setEntry 0 (newEntry dotName dir 0 attrDirectory)).setEntry 1
      (newEntry dotDotName parent 0 attrDirectory))
    writeSector .main firstSector
  else pure false

/-- One sector of the search of `fat16_add_dir_entry_internal` for a free slot. -/
def placeBody (e : DirectoryEntry) (sector : Nat) : DiskProg (Option Bool) := do
  let ok ← readSector .main sector
  if ok then do
    let s ← load .main
    match scanSector freeVerdict s with
    | .found i => do
      store .main (s.setEntry i e)
      let ok ← writeSector .main sector
      pure (some ok)
    | _ => pure none
  else pure (some false)

/-- The search along a directory's chain: the value returned from inside the loop, or the
cluster at which it left the loop. -/
def placeInChain (g : Globals) (e : DirectoryEntry) : Nat → Nat → DiskProg (Except Nat Bool)
  | 0, cluster => if g.isDataCluster cluster then diverge else pure (.error cluster)
  | fuel + 1, cluster =>
    if g.isDataCluster cluster then do
      let r ← forSectors (g.clusterSector cluster) (placeBody e) g.bpb.sectorsPerCluster 0
      match r with
      | some r => pure (.ok r)
      | none => do
        let next ← getNextCluster g (cluster % 65536)
        if g.isDataCluster next then placeInChain g e fuel next else pure (.error cluster)
    else pure (.error cluster)

/-- The directory is full: a new cluster is taken, linked behind `last`, zeroed, and gets the
entry in its first slot. -/
def growDir (g : Globals) (last : Nat) (e : DirectoryEntry) : DiskProg Bool := do
  let r ← allocCluster g
  match r with
  | none => pure false
  | some newCluster => do
    let ok ← writeFatEntry g (last % 65536) newCluster
    if ok then do
      let ok ← writeFatEntry g newCluster g.endOfChainValue
      if ok then do
        let ok ← zeroCluster g newCluster
        if ok then writeDirEntryAt (g.clusterSector newCluster) 0 e else pure false
      else pure false
    else pure false

/-- `fat16_add_dir_entry_internal`. -/
def addDirEntry (g : Globals) (fuel dir : Nat) (name : Name) (cluster fileSize : Nat)
    (attributes : UInt8) : DiskProg Bool :=
  let e := newEntry name cluster fileSize attributes
  if dir = 0 then do
    let r ← findFreeRootEntry g
    match r with
    | none => pure false
    | some (sector, index) => writeDirEntryAt sector index e
  else do
    let r ← placeInChain g e fuel dir
    match r with
    | .ok r => pure r
    | .error last => growDir g last e

/-- The slots that `fat16_is_directory_empty` passes over. -/
def emptyVerdict (e : DirectoryEntry) : Verdict :=
  if e.isEnd then .stop
  else if e.isDeleted then .skip
  else if e.isLongName then .skip
  else if e.isVolumeId then .skip
  else if matchName [chDot] e then .skip
  else if matchName dotDot e then .skip
  else .hit

def emptyBody (sector : Nat) : DiskProg (Option Bool) := do
  let ok ← readSector .main sector
  if ok then do
    let s ← load .main
    match scanSector emptyVerdict s with
    | .more => pure none
    | .stopped => pure (some true)
    | .found _ => pure (some false)
  else pure (some false)

def isDirectoryEmpty (g : Globals) (fuel dir : Nat) : DiskProg Bool :=
  if dir < 2 then pure false
  else do
    let r ← whileDataCluster g emptyBody fuel dir
    pure (r.getD true)

/-! ## The operations on entries -/

def createEntry (g : Globals) (fuel dir : Nat) (name : CStr) (firstCluster fileSize : Nat)
    (attributes : UInt8) : DiskProg Bool :=
  if name.at 0 = 0 then pure false
  else
    match formatName name with
    | none => pure false
    | some name83 => do
      let existing ← findEntryInternal g fuel dir name
      match existing with
      | some _ => pure false
      | none => addDirEntry g fuel dir name83 firstCluster fileSize attributes

/-- The slot after `fat16_update_entry`: the time stamps stay. -/
def updatedEntry (e : DirectoryEntry) (name : Name) (firstCluster fileSize : Nat)
    (attributes : UInt8) : DirectoryEntry :=
  { e with
    name := name
    attributes := attributes
    clusterHigh := 0
    clusterLow := UInt16.ofNat firstCluster
    fileSize := UInt32.ofNat fileSize }

def updateEntry (g : Globals) (fuel dir : Nat) (oldName newName : CStr)
    (firstCluster fileSize : Nat) (attributes : UInt8) : DiskProg Bool :=
  if oldName.at 0 = 0 ∨ newName.at 0 = 0 then pure false
  else
    match formatName newName with
    | none => pure false
    | some name83 => do
      let current ← findEntryInternal g fuel dir oldName
      match current with
      | none => pure false
      | some current => do
        let conflict ←
          if ∀ i, current.entry.name i = name83 i then pure none
          else findEntryInternal g fuel dir newName
        match conflict with
        | some _ => pure false
        | none => do
          let ok ← readSector .main current.sector
          if ok then do
            let s ← load .main
            store .main (s.setEntry current.index
              (updatedEntry (s.entry current.index) name83 firstCluster fileSize attributes))
            writeSector .main current.sector
          else pure false

/-- `name[0] = 0xE5`. -/
def deletedEntry (e : DirectoryEntry) : DirectoryEntry :=
  { e with name := fun i => if i.val = 0 then 0xE5 else e.name i }

def markDeleted (sector index : Nat) : DiskProg Bool := do
  let ok ← readSector .main sector
  if ok then do
    let s ← load .main
    store .main (s.setEntry index (deletedEntry (s.entry index)))
    writeSector .main sector
  else pure false

def deleteEntry (g : Globals) (fuel dir : Nat) (name : CStr) (freeChain : Bool) : DiskProg Bool :=
  if name.at 0 = 0 then pure false
  else if isDotName name then pure false
  else do
    let r ← findEntryInternal g fuel dir name
    match r with
    | none => pure false
    | some target =>
      if target.entry.isDirectory then pure false
      else if freeChain && decide (2 ≤ target.entry.clusterLow.toNat) then do
        let ok ← freeClusterChain g target.entry.clusterLow.toNat
        if ok then markDeleted target.sector target.index else pure false
      else markDeleted target.sector target.index

/-- How the scan of one sector by `fat16_delete_matching` ends: the end mark was met, the sector
is done, or a chain could not be freed. -/
inductive Sweep where
  | endMark (deleted : Nat)
  | done (deleted : Nat)
  | failed

/-- The slots of the sector in `sector_buffer` from index `i` on, with `n` slots left. Freeing a
chain reads and writes FAT sectors through the same buffer. -/
def sweepSlots (g : Globals) (pattern : CStr) (freeChain : Bool) :
    Nat → Nat → Nat → DiskProg Sweep
  | 0, _, deleted => pure (.done deleted)
  | n + 1, i, deleted => do
    let s ← load .main
    let e := s.entry i
    if e.isEnd then pure (.endMark deleted)
    else if !e.isVisible then sweepSlots g pattern freeChain n (i + 1) deleted
    else if e.isDirectory then sweepSlots g pattern freeChain n (i + 1) deleted
    else if !matchPattern pattern e then sweepSlots g pattern freeChain n (i + 1) deleted
    else do
      let ok ←
        if freeChain && decide (2 ≤ e.clusterLow.toNat) then freeClusterChain g e.clusterLow.toNat
        else pure true
      if ok then do
        let s ← load .main
        store .main (s.setEntry i (deletedEntry (s.entry i)))
        sweepSlots g pattern freeChain n (i + 1) (deleted + 1)
      else pure .failed

/-- The sectors `base + k`, with `n` left: the return value with the count, or the count so far
at the end of the loop. -/
def sweepSectors (g : Globals) (pattern : CStr) (freeChain : Bool) (base : Nat) :
    Nat → Nat → Nat → DiskProg (Except Nat (Bool × Nat))
  | 0, _, deleted => pure (.error deleted)
  | n + 1, k, deleted => do
    let ok ← readSector .main (base + k)
    if ok then do
      let r ← sweepSlots g pattern freeChain entriesPerSector 0 deleted
      match r with
      | .endMark deleted => pure (.ok (true, deleted))
      | .failed => pure (.ok (false, 0))
      | .done deleted => do
        let ok ← writeSector .main (base + k)
        if ok then sweepSectors g pattern freeChain base n (k + 1) deleted
        else pure (.ok (false, 0))
    else pure (.ok (false, 0))

def sweepClusters (g : Globals) (pattern : CStr) (freeChain : Bool) :
    Nat → Nat → Nat → DiskProg (Bool × Nat)
  | 0, cluster, deleted => if g.isDataCluster cluster then diverge else pure (true, deleted)
  | fuel + 1, cluster, deleted =>
    if g.isDataCluster cluster then do
      let r ← sweepSectors g pattern freeChain (g.clusterSector cluster)
        g.bpb.sectorsPerCluster 0 deleted
      match r with
      | .ok r => pure r
      | .error deleted => do
        let next ← getNextCluster g (cluster % 65536)
        sweepClusters g pattern freeChain fuel next deleted
    else pure (true, deleted)

/-- `fat16_delete_matching`: return value and, when it is 1, the count. -/
def deleteMatching (g : Globals) (fuel dir : Nat) (pattern : CStr) (freeChain : Bool) :
    DiskProg (Bool × Nat) :=
  if pattern.at 0 = 0 then pure (false, 0)
  else if dir = 0 then do
    let r ← sweepSectors g pattern freeChain g.getRootDirStart g.getRootDirSectors 0 0
    match r with
    | .ok r => pure r
    | .error deleted => pure (true, deleted)
  else sweepClusters g pattern freeChain fuel dir 0

/-- `fat16_mkdir` behind its checks. -/
def makeDir (g : Globals) (fuel dir : Nat) (name83 : Name) : DiskProg Bool := do
  let r ← allocCluster g
  match r with
  | none => pure false
  | some newCluster => do
    let ok ← zeroCluster g newCluster
    if ok then do
      let ok ← initDirEntries g newCluster dir
      if ok then addDirEntry g fuel dir name83 newCluster 0 attrDirectory else pure false
    else pure false

def mkdir (g : Globals) (fuel dir : Nat) (name : CStr) : DiskProg Bool :=
  match formatName name with
  | none => pure false
  | some name83 => do
    let existing ← findDirCluster g fuel dir name
    match existing with
    | some _ => pure false
    | none => makeDir g fuel dir name83

def rmdir (g : Globals) (fuel dir : Nat) (name : CStr) : DiskProg Bool :=
  if name.at 0 = 0 then pure false
  else if isDotName name then pure false
  else do
    let r ← findEntryInternal g fuel dir name
    match r with
    | none => pure false
    | some target =>
      if !target.entry.isDirectory then pure false
      else if target.entry.clusterLow.toNat < 2 then pure false
      else do
        let empty ← isDirectoryEmpty g fuel target.entry.clusterLow.toNat
        if empty then do
          let ok ← freeClusterChain g target.entry.clusterLow.toNat
          if ok then markDeleted target.sector target.index else pure false
        else pure false

end Fat16
end MiniDos
