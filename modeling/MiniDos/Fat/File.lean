import MiniDos.Fat.Directory

/-!
# MiniDos.Fat.File

Whole-file operations (`fat16_file.c`): write, read and copy. A write allocates and fills a new
chain, then points the entry at it, then frees the old chain; every failure before that frees the
clusters taken so far.
-/

namespace MiniDos
namespace Fat16

open BlockIO

/-- Rollback of the exits that test `first >= 2` before freeing. -/
def rollback (g : Globals) (first : Nat) : DiskProg Unit :=
  if 2 ≤ first then do
    let _ ← freeClusterChain g first
    pure ()
  else pure ()

/-- `sector_buffer` with the next `chunk` bytes of the caller's buffer, zero behind them. -/
def chunkSector (data : Nat → Byte) (offset chunk : Nat) : Sector :=
  fun k => if k.val < chunk then data (offset + k.val) else 0

/-- The sectors of one new cluster, with `n` of them left: the new offset and remaining count,
or `none` when a sector write failed. -/
def writeSectors (data : Nat → Byte) (base : Nat) :
    Nat → Nat → Nat → Nat → DiskProg (Option (Nat × Nat))
  | 0, _, offset, remaining => pure (some (offset, remaining))
  | n + 1, s, offset, remaining => do
    let chunk := if remaining > sectorSize then sectorSize else remaining
    store .main (chunkSector data offset chunk)
    let ok ← writeSector .main (base + s)
    if ok then writeSectors data base n (s + 1) (offset + chunk) (remaining - chunk)
    else pure none

/-- First and last cluster of the new chain (0: none yet), and the data still to be written. -/
structure WriteState where
  newFirst : Nat
  prev : Nat
  offset : Nat
  remaining : Nat

/-- `fat16_write_fat_entry(prev, next)` and the end mark behind it. -/
def linkCluster (g : Globals) (prev next : Nat) : DiskProg Bool := do
  let ok ← writeFatEntry g prev next
  if ok then writeFatEntry g next g.endOfChainValue else pure false

/-- The loop of `fat16_write_file_from_dir` with `n` steps left; `none`: it returned 0. -/
def writeLoop (g : Globals) (data : Nat → Byte) : Nat → WriteState → DiskProg (Option WriteState)
  | 0, st => pure (some st)
  | n + 1, st =>
    if st.remaining = 0 then pure (some st)
    else do
      let r ← allocCluster g
      match r with
      | none => do
        rollback g st.newFirst
        pure none
      | some cluster => do
        let first := if st.newFirst = 0 then cluster else st.newFirst
        let ok ← if 2 ≤ st.prev then linkCluster g st.prev cluster else pure true
        if ok then do
          let r ← writeSectors data (g.clusterSector cluster) g.bpb.sectorsPerCluster 0
            st.offset st.remaining
          match r with
          | none => do
            let _ ← freeClusterChain g first
            pure none
          | some (offset, remaining) => writeLoop g data n ⟨first, cluster, offset, remaining⟩
        else do
          let _ ← freeClusterChain g first
          pure none

/-- The entry is pointed at the new chain, or made. -/
def commitEntry (g : Globals) (fuel dir : Nat) (filename : CStr) (existing : Option Located)
    (newFirst size : Nat) : DiskProg Bool :=
  match existing with
  | some found =>
    updateEntry g fuel dir filename filename newFirst size
      ((found.entry.attributes &&& attrReadOnly) ||| attrArchive)
  | none => createEntry g fuel dir filename newFirst size attrArchive

/-- `fat16_write_file_from_dir`. The buffer is `none` for a null pointer. -/
def writeFileFromDir (g : Globals) (fuel dir : Nat) (filename : CStr)
    (buffer : Option (Nat → Byte)) (size : Int) : DiskProg Bool :=
  if filename.at 0 = 0 ∨ size < 0 then pure false
  else if size > 0 ∧ buffer.isNone then pure false
  else if g.bpb.sectorsPerCluster * sectorSize = 0 then pure false
  else do
    let existing ← findEntryInternal g fuel dir filename
    if existing.any (fun found => found.entry.isDirectory) then pure false
    else do
      let data := buffer.getD (fun _ => 0)
      let oldFirst := (existing.map (fun found => found.entry.clusterLow.toNat)).getD 0
      let r ← writeLoop g data (g.getTotalClusters + 2) ⟨0, 0, 0, size.toNat⟩
      match r with
      | none => pure false
      | some st =>
        if st.remaining ≠ 0 then do
          rollback g st.newFirst
          pure false
        else do
          let ok ← commitEntry g fuel dir filename existing st.newFirst size.toNat
          if ok then
            if 2 ≤ oldFirst ∧ oldFirst ≠ st.newFirst then freeClusterChain g oldFirst
            else pure true
          else do
            rollback g st.newFirst
            pure false

/-! ## Reading -/

/-- `for (j = 0; j < bytes_to_read && bytes_read < max_size; j++)`: the next `take` bytes. When
there is no room left the sector buffer is not looked at. -/
def copyBytes (take : Nat) (out : List Byte) : DiskProg (List Byte) :=
  if take = 0 then pure out
  else do
    let buf ← load .main
    pure (out ++ (List.range take).map buf.get)

/-- The sectors of one cluster, with `n` of them left. Failed reads are not noticed: the bytes
are taken from the buffer as it is. Gives the bytes so far and the size left. -/
def readSectors (base maxSize : Nat) :
    Nat → Nat → List Byte → Nat → DiskProg (List Byte × Nat)
  | 0, _, out, fileSize => pure (out, fileSize)
  | n + 1, s, out, fileSize =>
    if fileSize > 0 then do
      let bytesToRead := if fileSize > 512 then 512 else fileSize
      let _ ← readSector .main (base + s)
      let out ← copyBytes (min bytesToRead (maxSize - out.length)) out
      readSectors base maxSize n (s + 1) out (fileSize - bytesToRead)
    else pure (out, fileSize)

def readClusters (g : Globals) (maxSize : Nat) :
    Nat → Nat → List Byte → Nat → DiskProg (List Byte)
  | 0, cluster, out, fileSize =>
    if g.isDataCluster cluster && decide (out.length < maxSize) && decide (fileSize > 0)
    then diverge else pure out
  | fuel + 1, cluster, out, fileSize =>
    if g.isDataCluster cluster && decide (out.length < maxSize) && decide (fileSize > 0) then do
      let (out, fileSize) ← readSectors (g.clusterSector cluster) maxSize
        g.bpb.sectorsPerCluster 0 out fileSize
      let next ← getNextCluster g (cluster % 65536)
      readClusters g maxSize fuel next out fileSize
    else pure out

def readVerdict (name : CStr) (e : DirectoryEntry) : Verdict :=
  if e.isEnd then .stop
  else if e.isDeleted then .skip
  else if e.isDirectory then .skip
  else if e.isLongName then .skip
  else if !matchName name e then .skip
  else .hit

/-- One directory sector of `fat16_read_file_from_dir`; its read is not checked either. -/
def readBody (g : Globals) (fuel : Nat) (name : CStr) (maxSize sector : Nat) :
    DiskProg (Option (List Byte)) := do
  let _ ← readSector .main sector
  let s ← load .main
  match scanSector (readVerdict name) s with
  | .more => pure none
  | .stopped => pure (some [])
  | .found i => do
    let e := s.entry i
    let out ← readClusters g maxSize fuel e.clusterLow.toNat [] e.fileSize.toNat
    pure (some out)

/-- `fat16_read_file_from_dir`: the bytes placed in the buffer; their number is the return value. -/
def readFileFromDir (g : Globals) (fuel dir : Nat) (filename : CStr) (maxSize : Nat) :
    DiskProg (List Byte) := do
  let r ← forDirSectors g fuel dir (readBody g fuel filename maxSize)
  pure (r.getD [])

/-! ## Copying -/

/-- The sectors of one cluster pair, with `n` of them left: the remaining count, or `none` when a
sector could not be read or written. -/
def copySectors (src dst : Nat) : Nat → Nat → Nat → DiskProg (Option Nat)
  | 0, _, remaining => pure (some remaining)
  | n + 1, s, remaining =>
    if remaining > 0 then do
      let bytes := if remaining > sectorSize then sectorSize else remaining
      let ok ← readSector .main (src + s)
      if ok then do
        let ok ← writeSector .main (dst + s)
        if ok then copySectors src dst n (s + 1) (remaining - bytes) else pure none
      else pure none
    else pure (some remaining)

/-- The loop of `fat16_copy_file_between_dirs` with `n` steps left: the remaining count, or
`none` when it returned 0. -/
def copyLoop (g : Globals) (dstFirst : Nat) : Nat → Nat → Nat → Nat → DiskProg (Option Nat)
  | 0, _, _, remaining => pure (some remaining)
  | n + 1, src, dst, remaining =>
    if remaining = 0 then pure (some remaining)
    else do
      let r ← copySectors (g.clusterSector src) (g.clusterSector dst)
        g.bpb.sectorsPerCluster 0 remaining
      match r with
      | none => do
        rollback g dstFirst
        pure none
      | some remaining =>
        if remaining > 0 then do
          let nextSrc ← getNextCluster g src
          if g.isDataCluster nextSrc then do
            let r ← allocCluster g
            match r with
            | none => do
              rollback g dstFirst
              pure none
            | some nextDst => do
              let ok ← linkCluster g dst nextDst
              if ok then copyLoop g dstFirst n nextSrc nextDst remaining
              else do
                let _ ← freeClusterChain g nextDst
                rollback g dstFirst
                pure none
          else do
            rollback g dstFirst
            pure none
        else copyLoop g dstFirst n src dst remaining

/-- `fat16_copy_file_between_dirs` behind its checks, for a source entry that was found and a
destination name that is free. -/
def copyContents (g : Globals) (fuel : Nat) (e : DirectoryEntry) (dstDir : Nat) (dstName : CStr)
    (dstFirst : Nat) : DiskProg Bool := do
  let r ← copyLoop g dstFirst (g.getTotalClusters + 2) e.clusterLow.toNat dstFirst
    e.fileSize.toNat
  match r with
  | none => pure false
  | some remaining =>
    if remaining ≠ 0 then do
      rollback g dstFirst
      pure false
    else do
      let ok ← createEntry g fuel dstDir dstName dstFirst e.fileSize.toNat e.attributes
      if ok then pure true
      else do
        rollback g dstFirst
        pure false

def copyFileBetweenDirs (g : Globals) (fuel srcDir : Nat) (srcName : CStr) (dstDir : Nat)
    (dstName : CStr) : DiskProg Bool :=
  if srcName.at 0 = 0 ∨ dstName.at 0 = 0 then pure false
  else
    match formatName srcName, formatName dstName with
    | some src83, some dst83 =>
      if (∀ i, src83 i = dst83 i) ∧ srcDir = dstDir then pure false
      else do
        let src ← findEntryInternal g fuel srcDir srcName
        match src with
        | none => pure false
        | some src =>
          if src.entry.isDirectory then pure false
          else do
            let dst ← findEntryInternal g fuel dstDir dstName
            match dst with
            | some _ => pure false
            | none =>
              if src.entry.fileSize.toNat > 0 then
                if src.entry.clusterLow.toNat < 2 then pure false
                else do
                  let r ← allocCluster g
                  match r with
                  | none => pure false
                  | some dstFirst => copyContents g fuel src.entry dstDir dstName dstFirst
              else copyContents g fuel src.entry dstDir dstName 0
    | _, _ => pure false

def copyFile (g : Globals) (fuel dir : Nat) (srcName dstName : CStr) : DiskProg Bool :=
  copyFileBetweenDirs g fuel dir srcName dir dstName

end Fat16
end MiniDos
