import MiniDos.Drive.Floppy
import MiniDos.Lib.Real16

/-!
# MiniDos.Boot.Split

`lba_to_chs` of `boot.asm`: the boot sector splits a sector number into cylinder, head and sector.

* `splitChs`: the two divisions, which `stage2.asm` has too.
* `lbaToChs_call`: the registers that are left for the BIOS. The head is not among them: `pop dx` takes
  it away.
* `lbaToChs_names_iff`: the calls that reach their sector.
-/

namespace MiniDos
namespace Boot

open Real16 Drive

/-- `bdb_sectors_per_track`, `bdb_heads`, `ebr_drive_number`. -/
structure Bpb where
  sectorsPerTrack : UInt16
  heads : UInt16
  driveNumber : UInt8

/-- From `xor dx, dx` to `mov ch, al`. -/
def splitChs (sectorsPerTrack heads : UInt16) (r : Regs) : Option Regs := do
  let r := { r with dx := 0 }
  let r ← r.div sectorsPerTrack
  let r := { r with dx := r.dx + 1 }
  let r := { r with cx := setLo r.cx (lo r.dx) }
  let r := { r with dx := 0 }
  let r ← r.div heads
  let r := { r with dx := setHi r.dx (lo r.dx) }
  some { r with cx := setHi r.cx (lo r.ax) }

/-- `lba_to_chs`; it pushes `ax` and `dx` first. -/
def lbaToChs (bpb : Bpb) (entry : Regs) : Option Regs := do
  let r ← splitChs bpb.sectorsPerTrack bpb.heads entry
  let r := { r with ax := setHi r.ax (hi r.ax <<< 6) }
  let r := { r with cx := setLo r.cx (lo r.cx ||| hi r.ax) }
  let r := { r with dx := entry.dx, ax := entry.ax }
  some { r with dx := setLo r.dx bpb.driveNumber }

/-- The registers of an `int 0x13`. -/
def call (r : Regs) : Registers where
  ah := hi r.ax
  al := lo r.ax
  ch := hi r.cx
  cl := lo r.cx
  dh := hi r.dx
  dl := lo r.dx

/-- `disk_read`, as far as its `int 0x13`; `cx` goes through the stack into `ax`. -/
def diskReadCall (bpb : Bpb) (entry : Regs) : Option Registers := do
  let r ← lbaToChs bpb entry
  let r := { r with ax := entry.cx }
  let r := { r with ax := setHi r.ax readCommand }
  some (call { r with di := 3 })

theorem splitChs_spec {sectorsPerTrack heads : UInt16} (hspt : 0 < sectorsPerTrack.toNat)
    (hheads : 0 < heads.toNat) (r : Regs) :
    splitChs sectorsPerTrack heads r =
      some { r with
        ax := r.ax / sectorsPerTrack / heads
        cx := pair (lo (r.ax / sectorsPerTrack / heads)) (lo (r.ax % sectorsPerTrack + 1))
        dx := setHi (r.ax / sectorsPerTrack % heads) (lo (r.ax / sectorsPerTrack % heads)) } := by
  unfold splitChs
  simp [Regs.div_zero hspt, Regs.div_zero hheads, setLo]

theorem high_bits {cylinder : UInt16} (h : cylinder.toNat < 1024) :
    hi cylinder = (cylinder >>> 8).toUInt8 &&& 0x03 := by
  have hshift : (cylinder >>> 8).toUInt8.toNat = cylinder.toNat / 256 % 256 := by
    simp [Nat.shiftRight_eq_div_pow]
  rw [← UInt8.toNat_inj, UInt8.toNat_and, hshift, hi_toNat]
  have hand := Nat.and_two_pow_sub_one_eq_mod (cylinder.toNat / 256 % 256) 2
  refine Eq.trans ?_ hand.symm
  omega

theorem lbaToChs_call {bpb : Bpb} {entry : Regs} (hspt : 0 < bpb.sectorsPerTrack.toNat)
    (hheads : 0 < bpb.heads.toNat)
    (hcylinder : entry.ax.toNat / bpb.sectorsPerTrack.toNat / bpb.heads.toNat < 1024) :
    diskReadCall bpb entry = some
      { biosdiskBootRwCommon readCommand bpb.driveNumber (entry.ax / bpb.sectorsPerTrack / bpb.heads) 0
          (entry.ax % bpb.sectorsPerTrack + 1) with
        al := lo entry.cx
        dh := hi entry.dx } := by
  have hlow : ∀ x : UInt16, lo x = x.toUInt8 := by
    intro x
    rw [← UInt8.toNat_inj, lo_toNat, UInt16.toNat_toUInt8]
  have hword : (entry.ax / bpb.sectorsPerTrack / bpb.heads).toNat < 1024 := by
    rw [UInt16.toNat_div, UInt16.toNat_div]
    exact hcylinder
  have hcall : diskReadCall bpb entry = some
      { ah := readCommand
        al := lo entry.cx
        ch := lo (entry.ax / bpb.sectorsPerTrack / bpb.heads)
        cl := lo (entry.ax % bpb.sectorsPerTrack + 1) ||| hi (entry.ax / bpb.sectorsPerTrack / bpb.heads) <<< 6
        dh := hi entry.dx
        dl := bpb.driveNumber } := by
    simp [diskReadCall, lbaToChs, splitChs_spec hspt hheads, call]
  rw [hcall, high_bits hword, hlow (entry.ax / bpb.sectorsPerTrack / bpb.heads),
    hlow (entry.ax % bpb.sectorsPerTrack + 1)]
  rfl

/-- The call names the drive, and the sector `lba` of a disk with this geometry. -/
structure Names (sectorsPerTrack heads : Nat) (drive : UInt8) (lba : Nat) (r : Registers) : Prop where
  drive : r.dl = drive
  head : r.head < heads
  sector : 1 ≤ r.sector ∧ r.sector ≤ sectorsPerTrack
  linear : (r.cylinder * heads + r.head) * sectorsPerTrack + r.sector = lba + 1

/-- The call names its sector exactly when `dh` holds the head already. -/
theorem lbaToChs_names_iff (bpb : Bpb) (entry : Regs)
    (hspt : 1 ≤ bpb.sectorsPerTrack.toNat ∧ bpb.sectorsPerTrack.toNat ≤ 63)
    (hheads : 1 ≤ bpb.heads.toNat ∧ bpb.heads.toNat ≤ 255)
    (hcylinder : entry.ax.toNat / bpb.sectorsPerTrack.toNat / bpb.heads.toNat < 1024) :
    (∃ r, diskReadCall bpb entry = some r ∧
        Names bpb.sectorsPerTrack.toNat bpb.heads.toNat bpb.driveNumber entry.ax.toNat r) ↔
      (hi entry.dx).toNat = entry.ax.toNat / bpb.sectorsPerTrack.toNat % bpb.heads.toNat := by
  obtain ⟨hspt, hspt'⟩ := hspt
  obtain ⟨hheads, _⟩ := hheads
  rw [lbaToChs_call hspt hheads hcylinder]
  have hmod := Nat.mod_lt entry.ax.toNat hspt
  have hhead := Nat.mod_lt (entry.ax.toNat / bpb.sectorsPerTrack.toNat) hheads
  have hline := chs_linear entry.ax.toNat bpb.sectorsPerTrack.toNat bpb.heads.toNat
  have hsectorNat : (entry.ax % bpb.sectorsPerTrack + 1).toNat = entry.ax.toNat % bpb.sectorsPerTrack.toNat + 1 := by
    rw [UInt16.toNat_add, UInt16.toNat_mod]
    exact Nat.mod_eq_of_lt (Nat.lt_of_le_of_lt (Nat.succ_le_of_lt hmod) (Nat.lt_of_le_of_lt hspt' (by decide)))
  have hcylinderNat : (entry.ax / bpb.sectorsPerTrack / bpb.heads).toNat =
      entry.ax.toNat / bpb.sectorsPerTrack.toNat / bpb.heads.toNat := by
    rw [UInt16.toNat_div, UInt16.toNat_div]
  generalize hr : ({ biosdiskBootRwCommon readCommand bpb.driveNumber
    (entry.ax / bpb.sectorsPerTrack / bpb.heads) 0 (entry.ax % bpb.sectorsPerTrack + 1) with
      al := lo entry.cx, dh := hi entry.dx } : Registers) = r
  have hsector : r.sector = entry.ax.toNat % bpb.sectorsPerTrack.toNat + 1 := by
    rw [← hr]
    refine (@cl_sector readCommand bpb.driveNumber _ 0 _).trans ?_
    rw [hsectorNat, Nat.mod_eq_of_lt (by omega)]
  have hcyl : r.cylinder = entry.ax.toNat / bpb.sectorsPerTrack.toNat / bpb.heads.toNat := by
    rw [← hr]
    refine (@cl_cylinder_of_sector readCommand bpb.driveNumber _ 0 _ (by omega)).trans ?_
    rw [hcylinderNat, Nat.mod_eq_of_lt hcylinder]
  have hdh : r.head = (hi entry.dx).toNat := by
    rw [← hr]
    rfl
  have hdl : r.dl = bpb.driveNumber := by
    rw [← hr]
    rfl
  constructor
  · rintro ⟨r', hr', hnames⟩
    obtain rfl := Option.some.inj hr'
    have hlinear := hnames.linear
    rw [hcyl, hsector] at hlinear
    have hsame : r.head * bpb.sectorsPerTrack.toNat =
        entry.ax.toNat / bpb.sectorsPerTrack.toNat % bpb.heads.toNat * bpb.sectorsPerTrack.toNat := by
      rw [Nat.add_mul] at hlinear hline
      omega
    rw [← hdh]
    exact Nat.eq_of_mul_eq_mul_right hspt hsame
  · intro hdx
    refine ⟨r, rfl, ⟨hdl, by omega, by omega, ?_⟩⟩
    rw [hcyl, hsector, hdh, hdx, ← Nat.add_assoc, hline]

def floppyBpb : Bpb := ⟨18, 2, 0⟩

/-- `ax` is the sector; `cx` asks for one sector. -/
def entryRegs (lba dx : UInt16) : Regs := ⟨lba, 0x7E00, 1, dx, 0, 0⟩

theorem lbaToChs_names_first :
    ∃ r, diskReadCall floppyBpb (entryRegs 1 0) = some r ∧
      Names floppyBpb.sectorsPerTrack.toNat floppyBpb.heads.toNat floppyBpb.driveNumber
        (entryRegs 1 0).ax.toNat r :=
  (lbaToChs_names_iff floppyBpb (entryRegs 1 0) (by decide) (by decide) (by decide)).mpr (by decide)

/-- The first sector under the second head: sector 0 is read in its place. -/
theorem second_head_is_lost :
    ¬ ∃ r, diskReadCall floppyBpb (entryRegs 18 0) = some r ∧
      Names floppyBpb.sectorsPerTrack.toNat floppyBpb.heads.toNat floppyBpb.driveNumber
        (entryRegs 18 0).ax.toNat r := by
  rintro ⟨r, hr, hnames⟩
  obtain rfl : (⟨2, 1, 0, 1, 0, 0⟩ : Registers) = r := Option.some.inj hr
  exact absurd hnames.linear (by decide)

end Boot
end MiniDos
