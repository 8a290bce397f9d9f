import Mathlib.Algebra.Group.Nat.Defs
import MiniDos.Lib.BlockIO

/-!
# MiniDos.Fat.Layout

The on-disk layout the FAT driver works with: sectors, directory entries, the BIOS parameter
block and the geometry computed from it (`fat16.h`, and `get_root_dir_start` to
`fat_end_of_chain_value` of `fat16.c`).
-/

namespace MiniDos
namespace Fat16

open BlockIO

def sectorSize : Nat := 512

abbrev Byte := UInt8
abbrev Sector := Fin 512 → Byte
abbrev Disk := Nat → Sector

namespace Sector

/-- `buffer[i]`. -/
def get (s : Sector) (i : Nat) : Byte := s (Fin.ofNat 512 i)

/-- `buffer[i] = b`. -/
def set (s : Sector) (i : Nat) (b : Byte) : Sector :=
  fun k => if k = Fin.ofNat 512 i then b else s k

def zero : Sector := fun _ => 0

/-- The little-endian 16-bit word at offset `i`. -/
def word (s : Sector) (i : Nat) : Nat := (s.get i).toNat + 256 * (s.get (i + 1)).toNat

def dword (s : Sector) (i : Nat) : Nat := s.word i + 65536 * s.word (i + 2)

end Sector

/-! ## Directory entries -/

abbrev Name := Fin 11 → Byte

structure DirectoryEntry where
  name : Name
  attributes : UInt8
  reserved : UInt8
  creationTimeMs : UInt8
  creationTime : UInt16
  creationDate : UInt16
  accessDate : UInt16
  clusterHigh : UInt16
  modifiedTime : UInt16
  modifiedDate : UInt16
  clusterLow : UInt16
  fileSize : UInt32

def attrReadOnly : UInt8 := 0x01
def attrVolumeId : UInt8 := 0x08
def attrDirectory : UInt8 := 0x10
def attrArchive : UInt8 := 0x20

def lo (w : UInt16) : Byte := UInt8.ofNat (w.toNat % 256)
def hi (w : UInt16) : Byte := UInt8.ofNat (w.toNat / 256)
def le16 (a b : Byte) : UInt16 := UInt16.ofNat (a.toNat + 256 * b.toNat)
def le32 (a b c d : Byte) : UInt32 :=
  UInt32.ofNat (a.toNat + 256 * b.toNat + 65536 * c.toNat + 16777216 * d.toNat)

namespace DirectoryEntry

/-- The packed structure in 32 bytes of memory. -/
def ofBytes (f : Nat → Byte) : DirectoryEntry where
  name := fun i => f i.val
  attributes := f 11
  reserved := f 12
  creationTimeMs := f 13
  creationTime := le16 (f 14) (f 15)
  creationDate := le16 (f 16) (f 17)
  accessDate := le16 (f 18) (f 19)
  clusterHigh := le16 (f 20) (f 21)
  modifiedTime := le16 (f 22) (f 23)
  modifiedDate := le16 (f 24) (f 25)
  clusterLow := le16 (f 26) (f 27)
  fileSize := le32 (f 28) (f 29) (f 30) (f 31)

def toByte (e : DirectoryEntry) (j : Nat) : Byte :=
  if h : j < 11 then e.name ⟨j, h⟩
  else match j with
    | 11 => e.attributes
    | 12 => e.reserved
    | 13 => e.creationTimeMs
    | 14 => lo e.creationTime
    | 15 => hi e.creationTime
    | 16 => lo e.creationDate
    | 17 => hi e.creationDate
    | 18 => lo e.accessDate
    | 19 => hi e.accessDate
    | 20 => lo e.clusterHigh
    | 21 => hi e.clusterHigh
    | 22 => lo e.modifiedTime
    | 23 => hi e.modifiedTime
    | 24 => lo e.modifiedDate
    | 25 => hi e.modifiedDate
    | 26 => lo e.clusterLow
    | 27 => hi e.clusterLow
    | 28 => UInt8.ofNat (e.fileSize.toNat % 256)
    | 29 => UInt8.ofNat (e.fileSize.toNat / 256 % 256)
    | 30 => UInt8.ofNat (e.fileSize.toNat / 65536 % 256)
    | _ => UInt8.ofNat (e.fileSize.toNat / 16777216)

/-- `name[i]`. -/
def nameAt (e : DirectoryEntry) (i : Nat) : Byte := if h : i < 11 then e.name ⟨i, h⟩ else 0

def isDirectory (e : DirectoryEntry) : Bool := e.attributes &&& attrDirectory != 0
def isVolumeId (e : DirectoryEntry) : Bool := e.attributes &&& attrVolumeId != 0
def isLongName (e : DirectoryEntry) : Bool := e.attributes &&& 0x0F == 0x0F

end DirectoryEntry

/-- Directory entries in one sector: `SECTOR_SIZE / sizeof(FAT16_DirectoryEntry)`. -/
def entriesPerSector : Nat := 16

namespace Sector

/-- `((FAT16_DirectoryEntry*)buffer)[i]`. -/
def entry (s : Sector) (i : Nat) : DirectoryEntry :=
  DirectoryEntry.ofBytes (fun j => s.get (32 * i + j))

def setEntry (s : Sector) (i : Nat) (e : DirectoryEntry) : Sector :=
  fun k => if k.val / 32 = i then e.toByte (k.val % 32) else s k

end Sector

/-! ## The BIOS parameter block and the geometry -/

structure Bpb where
  bytesPerSector : Nat
  sectorsPerCluster : Nat
  reservedSectors : Nat
  fatCount : Nat
  rootEntries : Nat
  totalSectors16 : Nat
  mediaType : Nat
  sectorsPerFat : Nat
  sectorsPerTrack : Nat
  heads : Nat
  hiddenSectors : Nat
  totalSectors32 : Nat
  deriving DecidableEq

inductive FatType where
  | fat12
  | fat16
  deriving DecidableEq

/-- The globals `bpb` and `current_fat_type` that `fat16_init` sets. -/
structure Globals where
  bpb : Bpb
  fatType : FatType
  deriving DecidableEq

namespace Globals

variable (g : Globals)

def getRootDirStart : Nat := g.bpb.reservedSectors + g.bpb.fatCount * g.bpb.sectorsPerFat

def getRootDirSectors : Nat :=
  (g.bpb.rootEntries * 32 + (g.bpb.bytesPerSector - 1)) / g.bpb.bytesPerSector

def getDataStart : Nat := g.getRootDirStart + g.getRootDirSectors

def getTotalSectors : Nat :=
  if g.bpb.totalSectors16 ≠ 0 then g.bpb.totalSectors16 else g.bpb.totalSectors32

/-- The subtraction is on `unsigned int` and wraps. -/
def getTotalClusters : Nat :=
  (g.getTotalSectors + 2 ^ 32 -
    (g.bpb.reservedSectors + g.bpb.fatCount * g.bpb.sectorsPerFat + g.getRootDirSectors)) % 2 ^ 32
    / g.bpb.sectorsPerCluster

/-- `fat_is_data_cluster`. -/
def isDataCluster (cluster : Nat) : Bool :=
  decide (2 ≤ cluster) && decide (cluster ≤ g.getTotalClusters + 1)

def endOfChainValue : Nat :=
  match g.fatType with
  | .fat12 => 0x0FFF
  | .fat16 => 0xFFFF

def clusterSector (cluster : Nat) : Nat :=
  g.getDataStart + (cluster - 2) * g.bpb.sectorsPerCluster

end Globals

/-- The driver's two static buffers: `sector_buffer` and `fat_sector_buffer_aux`. -/
inductive Buffer where
  | main
  | aux
  deriving DecidableEq

abbrev DriverMem := Mem Buffer Sector
abbrev DiskProg (α : Type) := Prog Buffer Sector α

end Fat16
end MiniDos
