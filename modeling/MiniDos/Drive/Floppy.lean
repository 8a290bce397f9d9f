import MiniDos.Fat.Boot

/-!
# MiniDos.Drive.Floppy

The boot volume behind the BIOS (`disk.c`, and the thunk of `entry.asm`). A sector number is split
into cylinder, head and sector, and these go into fields of 10, 8 and 6 bits.

* `cl_sector`, `cl_cylinder`: what can be read back from the byte that two fields share.
* `chs_linear`: the split itself loses nothing.
* `floppy_sector_iff`: the BIOS is asked for the sector itself exactly when the three numbers fit
  their fields.
-/

namespace MiniDos
namespace Drive

open Fat16

/-- `boot_media_t`. -/
structure BootMedia where
  driveNumber : UInt8
  sectorsPerTrack : UInt16
  heads : UInt16
  totalSectors : UInt32
  isBootVolume : Bool
  geometryValid : Bool
  deriving DecidableEq

/-- Cylinder, head and sector of a sector number, or `none` when it is refused. -/
def bootFloppyLbaToChs (media : BootMedia) (lba : UInt32) : Option (UInt16 × UInt16 × UInt16) :=
  let sectorsPerTrack := media.sectorsPerTrack.toUInt32
  let heads := media.heads.toUInt32
  if !media.isBootVolume || sectorsPerTrack == 0 || heads == 0 then none
  else if media.totalSectors ≠ 0 ∧ media.totalSectors ≤ lba then none
  else
    let tmp := lba / sectorsPerTrack
    some ((tmp / heads).toUInt16, (tmp % heads).toUInt16, (lba % sectorsPerTrack + 1).toUInt16)

/-- The registers of `int 0x13`. -/
structure Registers where
  ah : UInt8
  al : UInt8
  ch : UInt8
  cl : UInt8
  dh : UInt8
  dl : UInt8
  deriving DecidableEq

/-- `biosdisk_boot_rw_common`: the arguments are stored as a word and three bytes first. -/
def biosdiskBootRwCommon (rwCommand drive : UInt8) (cylinder head sector : UInt16) : Registers where
  ah := rwCommand
  al := 1
  ch := cylinder.toUInt8
  cl := sector.toUInt8 ||| (((cylinder >>> 8).toUInt8 &&& 0x03) <<< 6)
  dh := head.toUInt8
  dl := drive

def readCommand : UInt8 := 0x02
def writeCommand : UInt8 := 0x03

/-- The call of the BIOS that `boot_floppy_rw_sector` makes. -/
def bootFloppyCall (media : BootMedia) (lba : UInt32) (write : Bool) : Option Registers := do
  let (cylinder, head, sector) ← bootFloppyLbaToChs media lba
  some (biosdiskBootRwCommon (if write then writeCommand else readCommand) media.driveNumber
    cylinder head sector)

/-! ## Initialisation -/

/-- What the second stage of the boot has left for the kernel. -/
structure BootData where
  driveNumber : UInt8
  sectorsPerTrack : UInt16
  heads : UInt16
  flags : UInt8

def bootGeometryValidFlag : UInt8 := 0x02
def bootBiosVolumeFlag : UInt8 := 0x04

/-- `disk_init_bios_boot_volume`; `bios` gives the sector that a call reads. -/
def diskInitBiosBootVolume (bios : Registers → Option Sector) (media : BootMedia) : BootMedia :=
  let media :=
    if !media.geometryValid then
      { media with sectorsPerTrack := 18, heads := 2, geometryValid := true }
    else media
  match (bootFloppyCall media 0 false).bind bios with
  | none => media
  | some bootSector =>
    let total16 := bootSector.word 19
    let total32 := bootSector.dword 32
    let media := if media.sectorsPerTrack == 0 then
      { media with sectorsPerTrack := UInt16.ofNat (bootSector.word 24) } else media
    let media := if media.heads == 0 then
      { media with heads := UInt16.ofNat (bootSector.word 26) } else media
    { media with totalSectors := UInt32.ofNat (if total16 ≠ 0 then total16 else total32) }

/-- `disk_init`, as far as the boot volume goes; `matches'` is `ata_primary_matches_boot_sector`. -/
def diskInit (bios : Registers → Option Sector) (boot : BootData) (ataMatches : Bool) : BootMedia :=
  let media : BootMedia :=
    { driveNumber := boot.driveNumber
      sectorsPerTrack := boot.sectorsPerTrack
      heads := boot.heads
      totalSectors := 0
      isBootVolume := boot.flags &&& bootBiosVolumeFlag != 0
      geometryValid := boot.flags &&& bootGeometryValidFlag != 0 }
  if media.isBootVolume then diskInitBiosBootVolume bios media
  else if !ataMatches then diskInitBiosBootVolume bios { media with isBootVolume := true }
  else media

/-! ## What the BIOS makes of the registers -/

def Registers.cylinder (r : Registers) : Nat := r.ch.toNat + 2 ^ 8 * (r.cl >>> 6).toNat
def Registers.head (r : Registers) : Nat := r.dh.toNat
def Registers.sector (r : Registers) : Nat := (r.cl &&& 0x3F).toNat

/-- The sector of the disk, counted from 0, that the BIOS works on; sectors of a track start at 1. -/
def Registers.address (r : Registers) (media : BootMedia) : Int :=
  (r.cylinder * media.heads.toNat + r.head) * media.sectorsPerTrack.toNat + r.sector - 1

theorem address_eq_iff {r : Registers} {media : BootMedia} {lba : Nat} :
    r.address media = lba ↔ (r.cylinder * media.heads.toNat + r.head) *
      media.sectorsPerTrack.toNat + r.sector = lba + 1 := by
  rw [Registers.address, ← Int.natCast_inj]
  push_cast
  omega

section Fields

variable {rwCommand drive : UInt8} {cylinder head sector : UInt16}

theorem cl_toNat : (biosdiskBootRwCommon rwCommand drive cylinder head sector).cl.toNat =
    sector.toNat % 256 ||| (cylinder.toNat / 256 % 4) <<< 6 := by
  have hand : (cylinder.toNat / 256 % 256) &&& 3 = cylinder.toNat / 256 % 4 := by
    rw [Nat.and_two_pow_sub_one_eq_mod _ 2]
    omega
  have hshift : (cylinder.toNat / 256 % 4) <<< 6 % 256 = (cylinder.toNat / 256 % 4) <<< 6 := by
    rw [Nat.shiftLeft_eq]
    omega
  simp [biosdiskBootRwCommon, Nat.shiftRight_eq_div_pow, hand, hshift]

theorem cl_sector : (biosdiskBootRwCommon rwCommand drive cylinder head sector).sector =
    sector.toNat % 64 := by
  have hlow : (cylinder.toNat / 256 % 4) <<< 6 % 2 ^ 6 = 0 := by
    rw [Nat.shiftLeft_eq]
    omega
  rw [Registers.sector, UInt8.toNat_and, cl_toNat]
  rw [show (0x3F : UInt8).toNat = 2 ^ 6 - 1 from rfl, Nat.and_two_pow_sub_one_eq_mod,
    Nat.or_mod_two_pow, hlow, Nat.or_zero]
  omega

theorem cl_cylinder : (biosdiskBootRwCommon rwCommand drive cylinder head sector).cylinder % 256 =
    cylinder.toNat % 256 := by
  have hch : (biosdiskBootRwCommon rwCommand drive cylinder head sector).ch.toNat =
      cylinder.toNat % 256 := by simp [biosdiskBootRwCommon]
  rw [Registers.cylinder, hch]
  omega

theorem cl_cylinder_of_sector (h : sector.toNat < 64) :
    (biosdiskBootRwCommon rwCommand drive cylinder head sector).cylinder =
      cylinder.toNat % 1024 := by
  have hch : (biosdiskBootRwCommon rwCommand drive cylinder head sector).ch.toNat =
      cylinder.toNat % 256 := by simp [biosdiskBootRwCommon]
  have hlow : sector.toNat % 256 / 2 ^ 6 = 0 := by omega
  have hhigh : (cylinder.toNat / 256 % 4) <<< 6 / 2 ^ 6 = cylinder.toNat / 256 % 4 := by
    rw [Nat.shiftLeft_eq]
    omega
  have hcl : ((biosdiskBootRwCommon rwCommand drive cylinder head sector).cl >>> 6).toNat =
      cylinder.toNat / 256 % 4 := by
    rw [UInt8.toNat_shiftRight, cl_toNat]
    rw [show (6 : UInt8).toNat % 8 = 6 from rfl, Nat.shiftRight_or_distrib]
    simp only [Nat.shiftRight_eq_div_pow, hlow, hhigh, Nat.zero_or]
  rw [Registers.cylinder, hch, hcl]
  omega

end Fields

/-! ## The split -/

section Split

variable {spt heads : Nat}

theorem chs_linear (lba spt heads : Nat) :
    (lba / spt / heads * heads + lba / spt % heads) * spt + lba % spt = lba := by
  rw [Nat.div_add_mod', Nat.div_add_mod']

theorem chs_inj {c h s c' h' s' : Nat} (hh : h ≤ h') (hs : s ≤ s') (hh' : h' < heads)
    (hs' : s' ≤ spt) (hpos : 0 < s') (hc : c % 256 = c' % 256)
    (heq : (c * heads + h) * spt + s = (c' * heads + h') * spt + s') :
    c = c' ∧ h = h' ∧ s = s' := by
  have hstep : ∀ {a b : Nat}, a < b → a * spt + spt ≤ b * spt := by
    intro a b hab
    have := Nat.mul_le_mul_right spt (Nat.succ_le_of_lt hab)
    rwa [Nat.succ_mul] at this
  obtain hlt | rfl | hgt := Nat.lt_trichotomy c c'
  · have hrow := Nat.mul_le_mul_right heads (Nat.succ_le_of_lt hlt)
    rw [Nat.succ_mul] at hrow
    have := hstep (show c * heads + h < c' * heads + h' by omega)
    omega
  · obtain hlt | rfl := Nat.lt_or_eq_of_le hh
    · have := hstep (show c * heads + h < c * heads + h' by omega)
      omega
    · exact ⟨rfl, rfl, by omega⟩
  · -- congruent cylinders are two apart at least
    have hrow := Nat.mul_le_mul_right heads (show c' + 2 ≤ c by omega)
    rw [Nat.add_mul] at hrow
    have h1 := hstep (show c' * heads + h' < c' * heads + h' + 1 by omega)
    have h2 := hstep (show c' * heads + h' + 1 < c * heads + h by omega)
    omega

end Split

theorem bootFloppyLbaToChs_spec {media : BootMedia} {lba : UInt32} {cylinder head sector : UInt16}
    (h : bootFloppyLbaToChs media lba = some (cylinder, head, sector)) :
    0 < media.sectorsPerTrack.toNat ∧ 0 < media.heads.toNat ∧
      cylinder.toNat = lba.toNat / media.sectorsPerTrack.toNat / media.heads.toNat % 65536 ∧
      head.toNat = lba.toNat / media.sectorsPerTrack.toNat % media.heads.toNat ∧
      sector.toNat = lba.toNat % media.sectorsPerTrack.toNat + 1 := by
  have hspt := media.sectorsPerTrack.toNat_lt
  have hheads := media.heads.toNat_lt
  simp only [bootFloppyLbaToChs] at h
  split at h
  · cases h
  rename_i hok
  split at h
  · cases h
  simp only [Bool.or_eq_true, beq_iff_eq, not_or, ← UInt32.toNat_inj] at hok
  have h1 : 0 < media.sectorsPerTrack.toNat := by
    have := hok.1.2
    simp at this
    omega
  have h2 : 0 < media.heads.toNat := by
    have := hok.2
    simp at this
    omega
  have hmod := Nat.mod_lt (lba.toNat / media.sectorsPerTrack.toNat) h2
  have hmod' := Nat.mod_lt lba.toNat h1
  cases h
  refine ⟨h1, h2, ?_, ?_, ?_⟩
  · simp
  · simp
    omega
  · simp
    omega

/-- The three numbers fit their fields. -/
def Addressable (media : BootMedia) (lba : UInt32) : Prop :=
  lba.toNat < 1024 * (media.heads.toNat * media.sectorsPerTrack.toNat) ∧
    lba.toNat / media.sectorsPerTrack.toNat % media.heads.toNat < 256 ∧
    lba.toNat % media.sectorsPerTrack.toNat < 63

/-- A call for any sector that is not refused reaches that sector exactly when it is addressable;
otherwise the BIOS gets the address of another one, and no error is reported. -/
theorem floppy_sector_iff {media : BootMedia} {lba : UInt32} {write : Bool} {r : Registers}
    (h : bootFloppyCall media lba write = some r) :
    r.address media = lba.toNat ↔ Addressable media lba := by
  obtain ⟨⟨cylinder, head, sector⟩, hchs, hr⟩ := Option.bind_eq_some_iff.mp h
  obtain rfl := Option.some.inj hr
  obtain ⟨hspt, hheads, hc, hh, hs⟩ := bootFloppyLbaToChs_spec hchs
  have hline := chs_linear lba.toNat media.sectorsPerTrack.toNat media.heads.toNat
  have hhead := Nat.mod_lt (lba.toNat / media.sectorsPerTrack.toNat) hheads
  have hsector := Nat.mod_lt lba.toNat hspt
  have hrange : lba.toNat < 1024 * (media.heads.toNat * media.sectorsPerTrack.toNat) ↔
      lba.toNat / media.sectorsPerTrack.toNat / media.heads.toNat < 1024 := by
    rw [Nat.div_div_eq_div_mul, Nat.div_lt_iff_lt_mul (Nat.mul_pos hspt hheads),
      Nat.mul_comm media.heads.toNat]
  rw [address_eq_iff, Addressable, hrange]
  generalize hC : lba.toNat / media.sectorsPerTrack.toNat / media.heads.toNat = C at *
  generalize hH : lba.toNat / media.sectorsPerTrack.toNat % media.heads.toNat = H at *
  generalize hS : lba.toNat % media.sectorsPerTrack.toNat = S at *
  generalize hregs : biosdiskBootRwCommon (if write then writeCommand else readCommand)
    media.driveNumber cylinder head sector = regs at *
  have hrhead : regs.head = H % 256 := by
    rw [← hregs, ← hh]
    simp [Registers.head, biosdiskBootRwCommon]
  have hrsector : regs.sector = (S + 1) % 64 := by
    rw [← hregs, cl_sector, hs]
  have hrcylinder : regs.cylinder % 256 = C % 256 := by
    rw [← hregs, cl_cylinder, hc]
    omega
  constructor
  · intro haddr
    have heq : (regs.cylinder * media.heads.toNat + regs.head) * media.sectorsPerTrack.toNat +
        regs.sector = (C * media.heads.toNat + H) * media.sectorsPerTrack.toNat + (S + 1) := by
      rw [haddr, ← hline, Nat.add_assoc]
    obtain ⟨hcyl, hhd, hsec⟩ := chs_inj (by omega) (by omega) hhead (by omega) (by omega)
      hrcylinder heq
    have hlow : S < 63 := by omega
    have hfield : regs.cylinder = C % 65536 % 1024 := by
      rw [← hregs, cl_cylinder_of_sector (by omega), hc]
    exact ⟨by omega, by omega, hlow⟩
  · rintro ⟨hC', hH', hS'⟩
    have hfield : regs.cylinder = C % 65536 % 1024 := by
      rw [← hregs, cl_cylinder_of_sector (by omega), hc]
    rw [hfield, hrhead, hrsector, Nat.mod_eq_of_lt (by omega : C < 65536), Nat.mod_eq_of_lt hC',
      Nat.mod_eq_of_lt hH', Nat.mod_eq_of_lt (by omega : S + 1 < 64), ← Nat.add_assoc, hline]

/-- The last sector of a floppy disk. -/
theorem floppy_sector_last :
    ∃ r, bootFloppyCall ⟨0, 18, 2, 2880, true, true⟩ 2879 true = some r ∧
      r.address ⟨0, 18, 2, 2880, true, true⟩ = 2879 := by
  have hcall : (bootFloppyCall ⟨0, 18, 2, 2880, true, true⟩ 2879 true).isSome := by decide
  obtain ⟨r, hr⟩ := Option.isSome_iff_exists.mp hcall
  exact ⟨r, hr, (floppy_sector_iff hr).mpr ⟨by decide, by decide, by decide⟩⟩

/-- The boot sector of a volume of 2097152 sectors, as far as its size goes. -/
def gigabyteSector : Sector := fun i => if i.val = 34 then 0x20 else 0

/-- A USB stick of that size with 16 heads: the first sector of cylinder 1024 is written to the boot
sector. -/
theorem floppy_write_hits_boot_sector :
    ∃ media, diskInit (fun _ => some gigabyteSector) ⟨0x80, 63, 16, 0x07⟩ true = media ∧
      ∃ r, bootFloppyCall media 1032192 true = some r ∧ r.address media = 0 :=
  ⟨⟨0x80, 63, 16, 2097152, true, true⟩, by decide, ⟨0x03, 1, 0, 1, 0, 0x80⟩, by decide, by decide⟩

end Drive
end MiniDos
