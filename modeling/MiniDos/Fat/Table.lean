import MiniDos.Fat.Layout

/-!
# MiniDos.Fat.Table

The file allocation table as `fat16.c` reads and writes it: single entries, allocation of a
cluster, freeing of a chain, zeroing of a cluster. Every access goes through the one shared
`sector_buffer`; an entry that straddles two sectors (FAT12) also uses the second buffer.
-/

namespace MiniDos
namespace Fat16

open BlockIO

/-- The 12 bits of `cluster` in the byte pair that holds them. -/
def fat12Value (cluster pair : Nat) : Nat :=
  (if cluster &&& 1 ≠ 0 then pair >>> 4 else pair &&& 0x0FFF) &&& 0x0FFF

/-- The byte pair with the 12 bits of `cluster` replaced. -/
def fat12Merge (cluster pair value : Nat) : Nat :=
  if cluster &&& 1 ≠ 0 then (pair &&& 0x000F) ||| (value <<< 4) else (pair &&& 0xF000) ||| value

def bytePair (a b : Byte) : Nat := a.toNat ||| (b.toNat <<< 8)

/-- `fat16_read_fat_entry`: a failed sector read is answered with the end-of-chain value. -/
def readFatEntry (g : Globals) (cluster : Nat) : DiskProg Nat :=
  match g.fatType with
  | .fat12 => do
    let fatOffset := cluster + cluster / 2
    let fatSector := g.bpb.reservedSectors + fatOffset / sectorSize
    let off := fatOffset % sectorSize
    let ok ← readSector .main fatSector
    if ok then
      if off = sectorSize - 1 then do
        let ok ← readSector .aux (fatSector + 1)
        if ok then do
          let s ← load .main
          let t ← load .aux
          pure (fat12Value cluster (bytePair (s.get off) (t.get 0)))
        else pure g.endOfChainValue
      else do
        let s ← load .main
        pure (fat12Value cluster (bytePair (s.get off) (s.get (off + 1))))
    else pure g.endOfChainValue
  | .fat16 => do
    let fatSector := g.bpb.reservedSectors + (cluster * 2) / sectorSize
    let off := (cluster * 2) % sectorSize
    let ok ← readSector .main fatSector
    if ok then do
      let s ← load .main
      pure (s.word off)
    else pure g.endOfChainValue

/-- The body of the loop over the FAT copies in `fat16_write_fat_entry`. -/
def writeFatCopy (g : Globals) (cluster value fat : Nat) : DiskProg Bool :=
  match g.fatType with
  | .fat12 => do
    let masked := value &&& 0x0FFF
    let fatOffset := cluster + cluster / 2
    let off := fatOffset % sectorSize
    let fatSector := g.bpb.reservedSectors + fat * g.bpb.sectorsPerFat + fatOffset / sectorSize
    let ok ← readSector .main fatSector
    if ok then
      if off = sectorSize - 1 then do
        let ok ← readSector .aux (fatSector + 1)
        if ok then do
          let s ← load .main
          let t ← load .aux
          let pair := fat12Merge cluster (bytePair (s.get off) (t.get 0)) masked
          store .main (s.set off (UInt8.ofNat (pair &&& 0xFF)))
          store .aux (t.set 0 (UInt8.ofNat ((pair >>> 8) &&& 0xFF)))
          let ok ← writeSector .main fatSector
          if ok then writeSector .aux (fatSector + 1) else pure false
        else pure false
      else do
        let s ← load .main
        let pair := fat12Merge cluster (bytePair (s.get off) (s.get (off + 1))) masked
        store .main ((s.set off (UInt8.ofNat (pair &&& 0xFF))).set (off + 1)
          (UInt8.ofNat ((pair >>> 8) &&& 0xFF)))
        writeSector .main fatSector
    else pure false
  | .fat16 => do
    let off := (cluster * 2) % sectorSize
    let fatSector :=
      g.bpb.reservedSectors + fat * g.bpb.sectorsPerFat + (cluster * 2) / sectorSize
    let ok ← readSector .main fatSector
    if ok then do
      let s ← load .main
      store .main ((s.set off (UInt8.ofNat (value % 256))).set (off + 1)
        (UInt8.ofNat (value / 256)))
      writeSector .main fatSector
    else pure false

/-- `for (fat = ...; fat < bpb.fat_count; fat++)`, with `n` copies left. -/
def writeFatCopies (g : Globals) (cluster value : Nat) : Nat → Nat → DiskProg Bool
  | 0, _ => pure true
  | n + 1, fat => do
    let ok ← writeFatCopy g cluster value fat
    if ok then writeFatCopies g cluster value n (fat + 1) else pure false

def writeFatEntry (g : Globals) (cluster value : Nat) : DiskProg Bool :=
  writeFatCopies g cluster value g.bpb.fatCount 0

def getNextCluster (g : Globals) (cluster : Nat) : DiskProg Nat := readFatEntry g cluster

/-- `for (cluster = ...; cluster <= max_cluster; cluster++)`, with `n` clusters left. -/
def allocFrom (g : Globals) : Nat → Nat → DiskProg (Option Nat)
  | 0, _ => pure none
  | n + 1, cluster => do
    let v ← readFatEntry g (cluster % 65536)
    if v = 0 then do
      let ok ← writeFatEntry g (cluster % 65536) g.endOfChainValue
      if ok then pure (some (cluster % 65536)) else pure none
    else allocFrom g n (cluster + 1)

/-- `fat16_alloc_cluster_internal`; `none` is the return value 0. -/
def allocCluster (g : Globals) : DiskProg (Option Nat) := allocFrom g g.getTotalClusters 2

/-- `fat16_zero_cluster`, with `n` sectors left. -/
def zeroSectors (base : Nat) : Nat → Nat → DiskProg Bool
  | 0, _ => pure true
  | n + 1, s => do
    store .main Sector.zero
    let ok ← writeSector .main (base + s)
    if ok then zeroSectors base n (s + 1) else pure false

def zeroCluster (g : Globals) (cluster : Nat) : DiskProg Bool :=
  zeroSectors (g.clusterSector cluster) g.bpb.sectorsPerCluster 0

/-- The loop of `fat16_free_cluster_chain_internal` with `n` steps left. -/
def freeLoop (g : Globals) : Nat → Nat → DiskProg Bool
  | 0, _ => pure true
  | n + 1, cluster =>
    if g.isDataCluster cluster then do
      let next ← getNextCluster g cluster
      let ok ← writeFatEntry g cluster 0
      if ok then
        if next = cluster then pure true else freeLoop g n next
      else pure false
    else pure true

def freeClusterChain (g : Globals) (start : Nat) : DiskProg Bool :=
  if start < 2 then pure false else freeLoop g (g.getTotalClusters + 2) start

/-! ## Walking the sectors of a directory -/

/-- `for (s = ...; s < count; s++)` over the sectors `base + s`, with `n` of them left; the body
leaves the loop by giving a result. -/
def forSectors {γ : Type} (base : Nat) (body : Nat → DiskProg (Option γ)) :
    Nat → Nat → DiskProg (Option γ)
  | 0, _ => pure none
  | n + 1, s => do
    let r ← body (base + s)
    match r with
    | some r => pure (some r)
    | none => forSectors base body n (s + 1)

/-- `while (fat_is_data_cluster(cluster))` over the sectors of each cluster of a chain. The loop
of the source has no bound: running out of fuel is divergence. -/
def whileDataCluster {γ : Type} (g : Globals) (body : Nat → DiskProg (Option γ)) :
    Nat → Nat → DiskProg (Option γ)
  | 0, cluster => if g.isDataCluster cluster then diverge else pure none
  | fuel + 1, cluster =>
    if g.isDataCluster cluster then do
      let r ← forSectors (g.clusterSector cluster) body g.bpb.sectorsPerCluster 0
      match r with
      | some r => pure (some r)
      | none => do
        let next ← getNextCluster g (cluster % 65536)
        whileDataCluster g body fuel next
    else pure none

/-- The sectors of the directory `dir`: the fixed root area for 0, a cluster chain otherwise. -/
def forDirSectors {γ : Type} (g : Globals) (fuel dir : Nat) (body : Nat → DiskProg (Option γ)) :
    DiskProg (Option γ) :=
  if dir = 0 then forSectors g.getRootDirStart body g.getRootDirSectors 0
  else whileDataCluster g body fuel dir

end Fat16
end MiniDos
