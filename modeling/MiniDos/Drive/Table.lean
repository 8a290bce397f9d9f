import MiniDos.Fat.Boot

/-!
# MiniDos.Drive.Table

The drive letters of `drive.c`: the partition table of a disk, the drives made from it, and how a
sector of a drive reaches the ATA registers (`disk_write_lba_internal` of `disk.c`).

* `detectDiskPartitions_accepted`: every drive that detection adds comes from a partition entry
  that it accepts.
* `ataAddress_eq`: the registers carry the low 28 bits of the absolute sector number.
-/

namespace MiniDos
namespace Drive

open Fat16

def maxDrives : Nat := 26

/-- An entry of the table in a master boot record; the addresses in cylinders, heads and sectors are
not used. -/
structure PartitionEntry where
  active : Byte
  partitionType : Byte
  lbaStart : Nat
  sectorCount : Nat

/-- `mbr->partitions[i]`. -/
def partitionEntry (mbr : Sector) (i : Nat) : PartitionEntry where
  active := mbr.get (446 + 16 * i)
  partitionType := mbr.get (446 + 16 * i + 4)
  lbaStart := mbr.dword (446 + 16 * i + 8)
  sectorCount := mbr.dword (446 + 16 * i + 12)

structure DriveInfo where
  diskId : Nat
  partitionNum : Int
  lbaStart : Nat
  sectorCount : Nat
  fsType : Byte
  deriving DecidableEq

/-- The slots of `drives`; an invalid one is `none`. -/
abbrev Drives := Nat → Option DriveInfo

/-! ## Detection -/

/-- The drive for partition `i`: empty and extended partitions are passed over. -/
def acceptPartition (diskId : Nat) (mbr : Sector) (i : Nat) : Option DriveInfo :=
  let part := partitionEntry mbr i
  if part.partitionType = 0 ∨ part.sectorCount = 0 then none
  else if part.partitionType = 0x05 ∨ part.partitionType = 0x0F then none
  else some ⟨diskId, i, part.lbaStart, part.sectorCount, part.partitionType⟩

/-- The loop of `detect_disk_partitions` with `n` entries left: the drives, the next letter, and the
number of partitions found. -/
def scanPartitions (diskId : Nat) (mbr : Sector) :
    Nat → Nat → Drives × Nat × Nat → Drives × Nat × Nat
  | 0, _, st => st
  | n + 1, i, (drives, next, found) =>
    match acceptPartition diskId mbr i with
    | none => scanPartitions diskId mbr n (i + 1) (drives, next, found)
    | some info =>
      if next < maxDrives then
        scanPartitions diskId mbr n (i + 1)
          (fun k => if k = next then some info else drives k, next + 1, found + 1)
      else scanPartitions diskId mbr n (i + 1) (drives, next, found)

/-- `detect_disk_partitions`, the master boot record having been read. -/
def detectDiskPartitions (diskId : Nat) (mbr : Sector) (drives : Drives) (next : Nat) :
    Drives × Nat × Nat :=
  if ¬ Signed mbr then (drives, next, 0) else scanPartitions diskId mbr 4 0 (drives, next, 0)

theorem scanPartitions_accepted (diskId : Nat) (mbr : Sector) :
    ∀ n i drives next found k info,
      (scanPartitions diskId mbr n i (drives, next, found)).1 k = some info →
      drives k = some info ∨ ∃ j < i + n, acceptPartition diskId mbr j = some info := by
  intro n
  induction n with
  | zero => exact fun _ _ _ _ _ _ h => .inl h
  | succ n ih =>
    intro i drives next found k info h
    unfold scanPartitions at h
    cases hp : acceptPartition diskId mbr i with
    | none =>
      simp only [hp] at h
      rw [show i + (n + 1) = i + 1 + n by omega]
      exact ih _ _ _ _ _ _ h
    | some added =>
      simp only [hp] at h
      rw [show i + (n + 1) = i + 1 + n by omega]
      split at h
      · obtain h | h := ih _ _ _ _ _ _ h
        · split at h
          · exact .inr ⟨i, by omega, hp.trans h⟩
          · exact .inl h
        · exact .inr h
      · exact ih _ _ _ _ _ _ h

theorem detectDiskPartitions_accepted {diskId : Nat} {mbr : Sector} {drives : Drives} {next k : Nat}
    {info : DriveInfo} (h : (detectDiskPartitions diskId mbr drives next).1 k = some info) :
    drives k = some info ∨ ∃ j < 4, acceptPartition diskId mbr j = some info := by
  unfold detectDiskPartitions at h
  split at h
  · exact .inl h
  · simpa using scanPartitions_accepted diskId mbr 4 0 _ _ _ _ _ h

/-! ## Addresses -/

/-- `info->lba_start + lba` on `unsigned int`. -/
def DriveInfo.absoluteLba (info : DriveInfo) (lba : Nat) : Nat := (info.lbaStart + lba) % 2 ^ 32

/-- The bytes of an address as the controller gets them: `ATA_LBALO`, `ATA_LBAMID`, `ATA_LBAHI` and
the low half of `ATA_DRIVE`. -/
structure AtaRegisters where
  lbaLo : Nat
  lbaMid : Nat
  lbaHi : Nat
  drive : Nat

def ataRegisters (lba : Nat) : AtaRegisters where
  lbaLo := lba &&& 0xFF
  lbaMid := (lba >>> 8) &&& 0xFF
  lbaHi := (lba >>> 16) &&& 0xFF
  drive := (lba >>> 24) &&& 0x0F

def AtaRegisters.sector (r : AtaRegisters) : Nat :=
  r.lbaLo + 2 ^ 8 * r.lbaMid + 2 ^ 16 * r.lbaHi + 2 ^ 24 * r.drive

/-- The sector of the disk that `drive_write_sector` ends up writing. -/
def DriveInfo.ataAddress (info : DriveInfo) (lba : Nat) : Nat :=
  (ataRegisters (info.absoluteLba lba)).sector

theorem ataAddress_eq (info : DriveInfo) (lba : Nat) :
    info.ataAddress lba = (info.lbaStart + lba) % 2 ^ 28 := by
  simp only [DriveInfo.ataAddress, DriveInfo.absoluteLba, AtaRegisters.sector, ataRegisters]
  have hff : ∀ n, n &&& 0xFF = n % 256 := fun n => Nat.and_two_pow_sub_one_eq_mod n 8
  have hf : ∀ n, n &&& 0x0F = n % 16 := fun n => Nat.and_two_pow_sub_one_eq_mod n 4
  simp only [hff, hf, Nat.shiftRight_eq_div_pow]
  omega

def DriveInfo.Owns (info : DriveInfo) (sector : Nat) : Prop :=
  info.lbaStart ≤ sector ∧ sector < info.lbaStart + info.sectorCount

instance (info : DriveInfo) (sector : Nat) : Decidable (info.Owns sector) :=
  inferInstanceAs (Decidable (_ ∧ _))

end Drive
end MiniDos
