import MiniDos.Boot.Split

/-!
# MiniDos.Boot.Read

`stage2.asm` reads a sector: the geometry query, and `disk_read` with its fallback from extended to CHS
reads.

* `Bios`: what `int 0x13` answers. Which calls fail, and with what status, is left open.
* `diskRead_spec`: the sector that comes into the buffer, if any does, and what is left for the next read.
* `leads_known`: the sectors that a CHS read finds.
-/

namespace MiniDos
namespace Boot

open Real16 Drive
open Fat16 (Byte)

/-! ## The BIOS -/

structure Geometry where
  sectorsPerTrack : Nat
  heads : Nat
  cylinders : Nat
  sectorsPerTrack_mem : 1 ≤ sectorsPerTrack ∧ sectorsPerTrack ≤ 63
  heads_mem : 1 ≤ heads ∧ heads ≤ 256
  cylinders_mem : 1 ≤ cylinders ∧ cylinders ≤ 1024

/-- The sector that a call addresses, if the disk has it. -/
def Geometry.sectorOf (g : Geometry) (r : Registers) : Option Nat :=
  if r.cylinder < g.cylinders ∧ r.head < g.heads ∧ 1 ≤ r.sector ∧ r.sector ≤ g.sectorsPerTrack then
    some ((r.cylinder * g.heads + r.head) * g.sectorsPerTrack + r.sector - 1)
  else none

/-- The status of a call that fails, and what it leaves in the buffer. -/
structure Failure where
  status : UInt8
  left : Nat → Byte

structure Bios where
  geometry : Geometry
  /-- `bx` and `cx` after `ah = 0x41`, unless that fails. -/
  extensions : Option (UInt16 × UInt16)
  /-- `ah = 0x08` succeeds. -/
  geometryKnown : Bool
  /-- By the number of the call, of those that read. -/
  fails : Nat → Option Failure

abbrev Disk := Nat → Nat → Byte

/-! ## What the second stage knows of the drive -/

structure DriveVars where
  driveNumber : UInt8
  lbaSupported : Bool
  sectorsPerTrack : UInt16
  heads : UInt16

def detectLba (bios : Bios) (drive : UInt8) : Bool :=
  if drive < 0x80 then false
  else
    match bios.extensions with
    | none => false
    | some (bx, cx) => bx == 0xAA55 && cx &&& 0x0001 != 0

/-- `ah = 0x08` returns the last cylinder and the sectors of a track in `cx`, and the last head in `dh`. -/
def queryGeometry (bios : Bios) (drive : UInt8) : UInt16 × UInt16 :=
  if bios.geometryKnown then
    let cl := UInt8.ofNat (bios.geometry.sectorsPerTrack + 64 * ((bios.geometry.cylinders - 1) / 256))
    let dh := UInt8.ofNat (bios.geometry.heads - 1)
    (pair 0 (cl &&& 0x3F), pair 0 dh + 1)
  else if drive < 0x80 then (18, 2)
  else (63, 255)

def detect (bios : Bios) (drive : UInt8) : DriveVars where
  driveNumber := drive
  lbaSupported := detectLba bios drive
  sectorsPerTrack := (queryGeometry bios drive).1
  heads := (queryGeometry bios drive).2

/-! ## Reads -/

structure Machine where
  regs : Regs
  es : UInt16
  carry : Bool
  vars : DriveVars
  mem : Nat → Byte
  /-- The calls that read so far. -/
  calls : Nat
  /-- For every sector that the loop has counted, whether the carry flag was clear behind its read. -/
  reads : List Bool

/-- A sector's bytes at `dest`. -/
def fill (mem : Nat → Byte) (dest : Nat) (bytes : Nat → Byte) (p : Nat) : Byte :=
  if dest ≤ p ∧ p < dest + 512 then bytes (p - dest) else mem p

/-- A call that is to read the sector `source` of the disk to `dest`. -/
def transfer (bios : Bios) (disk : Disk) (m : Machine) (source : Option Nat) (dest : Nat) : Machine :=
  match bios.fails m.calls, source with
  | some f, _ =>
    { m with
      mem := fill m.mem dest f.left
      carry := true
      regs := { m.regs with ax := setHi m.regs.ax f.status }
      calls := m.calls + 1 }
  | none, some sector =>
    { m with
      mem := fill m.mem dest (disk sector)
      carry := false
      regs := { m.regs with ax := setHi m.regs.ax 0 }
      calls := m.calls + 1 }
  | none, none =>
    { m with
      carry := true
      regs := { m.regs with ax := setHi m.regs.ax 0x04 }
      calls := m.calls + 1 }

/-- The disk address packet. -/
structure Dap where
  sectors : UInt16
  offset : UInt16
  segment : UInt16
  lbaLow : UInt16
  lbaHigh : UInt16

/-- `int 0x13` with `ah = 0x42`, which leaves all but `ah` as it was. -/
def int13Extended (bios : Bios) (disk : Disk) (m : Machine) (dap : Dap) : Machine :=
  transfer bios disk m (some (dap.lbaHigh.toNat * 65536 + dap.lbaLow.toNat)) (linear dap.segment dap.offset)

/-- `int 0x13` with `ah = 0x02`. -/
def int13Read (bios : Bios) (disk : Disk) (m : Machine) : Machine :=
  transfer bios disk m (bios.geometry.sectorOf (call m.regs)) (linear m.es m.regs.bx)

/-- From `.chs_fallback` on. -/
def chsFallback (bios : Bios) (disk : Disk) (m : Machine) : Option Machine := do
  let r ← splitChs m.vars.sectorsPerTrack m.vars.heads m.regs
  let r := { r with ax := setLo r.ax 1 }
  let r := { r with dx := setLo r.dx m.vars.driveNumber }
  let r := { r with ax := setHi r.ax readCommand }
  some (int13Read bios disk { m with regs := r })

/-- From `pusha` on, with extensions. `si` points to the packet and is left out. -/
def lbaRead (bios : Bios) (disk : Disk) (m : Machine) : Option Machine :=
  let dap : Dap := ⟨1, m.regs.bx, m.es, m.regs.ax, 0⟩
  let r := { m.regs with dx := setLo 0 m.vars.driveNumber, ax := setHi m.regs.ax 0x42 }
  let m := int13Extended bios disk { m with regs := r } dap
  if m.carry then chsFallback bios disk { m with vars := { m.vars with lbaSupported := false } }
  else some m

/-- `disk_read`; `popa` leaves the carry flag. -/
def diskRead (bios : Bios) (disk : Disk) (m : Machine) : Option Machine := do
  let m' ← if m.vars.lbaSupported then lbaRead bios disk m else chsFallback bios disk m
  some { m' with regs := m.regs }

/-! ## One read -/

theorem queryGeometry_known {bios : Bios} (h : bios.geometryKnown = true) (drive : UInt8) :
    (queryGeometry bios drive).1.toNat = bios.geometry.sectorsPerTrack ∧
      (queryGeometry bios drive).2.toNat = bios.geometry.heads := by
  obtain ⟨hspt, hspt'⟩ := bios.geometry.sectorsPerTrack_mem
  obtain ⟨hheads, hheads'⟩ := bios.geometry.heads_mem
  obtain ⟨_, hcylinders⟩ := bios.geometry.cylinders_mem
  have hzero : (0 : UInt8).toNat = 0 := rfl
  unfold queryGeometry
  rw [if_pos h]
  constructor
  · dsimp only
    rw [pair_toNat, hzero, UInt8.toNat_and, UInt8.toNat_ofNat']
    have hand := Nat.and_two_pow_sub_one_eq_mod ((bios.geometry.sectorsPerTrack +
      64 * ((bios.geometry.cylinders - 1) / 256)) % 2 ^ 8) 6
    refine (congrArg (0 * 256 + ·) hand).trans ?_
    omega
  · dsimp only
    have hone : UInt16.toNat 1 = 1 := rfl
    rw [UInt16.toNat_add, pair_toNat, hzero, UInt8.toNat_ofNat', hone]
    omega

theorem queryGeometry_pos (bios : Bios) (drive : UInt8) :
    0 < (queryGeometry bios drive).1.toNat ∧ 0 < (queryGeometry bios drive).2.toNat := by
  cases h : bios.geometryKnown
  · unfold queryGeometry
    rw [h]
    by_cases hdrive : drive < 0x80
    · simp [hdrive]
    · simp [hdrive]
  · rw [(queryGeometry_known h drive).1, (queryGeometry_known h drive).2]
    exact ⟨bios.geometry.sectorsPerTrack_mem.1, bios.geometry.heads_mem.1⟩

/-- The registers of a CHS read when `ax` is `x`. The high bits of the cylinder are dropped. -/
def chsCall (vars : DriveVars) (x : UInt16) : Registers where
  ah := readCommand
  al := 1
  ch := lo (x / vars.sectorsPerTrack / vars.heads)
  cl := lo (x % vars.sectorsPerTrack + 1)
  dh := lo (x / vars.sectorsPerTrack % vars.heads)
  dl := vars.driveNumber

theorem queryGeometry_le (bios : Bios) (drive : UInt8) :
    (queryGeometry bios drive).1.toNat ≤ 63 ∧ (queryGeometry bios drive).2.toNat ≤ 256 := by
  cases h : bios.geometryKnown
  · unfold queryGeometry
    rw [h]
    by_cases hdrive : drive < 0x80
    · simp [hdrive]
    · simp [hdrive]
  · rw [(queryGeometry_known h drive).1, (queryGeometry_known h drive).2]
    exact ⟨bios.geometry.sectorsPerTrack_mem.2, bios.geometry.heads_mem.2⟩

section Numbers

variable {vars : DriveVars} {x : UInt16}

theorem chsCall_head (hheads : 0 < vars.heads.toNat) (hheads' : vars.heads.toNat ≤ 256) :
    (chsCall vars x).head = x.toNat / vars.sectorsPerTrack.toNat % vars.heads.toNat := by
  have hlt := Nat.mod_lt (x.toNat / vars.sectorsPerTrack.toNat) hheads
  rw [Registers.head, chsCall, lo_toNat, UInt16.toNat_mod, UInt16.toNat_div, Nat.mod_eq_of_lt (by omega)]

theorem chsCall_cl (hspt : 0 < vars.sectorsPerTrack.toNat) (hspt' : vars.sectorsPerTrack.toNat ≤ 63) :
    (chsCall vars x).cl.toNat = x.toNat % vars.sectorsPerTrack.toNat + 1 := by
  have hlt := Nat.mod_lt x.toNat hspt
  have hone : UInt16.toNat 1 = 1 := rfl
  rw [chsCall, lo_toNat, UInt16.toNat_add, UInt16.toNat_mod, hone]
  omega

theorem chsCall_sector (hspt : 0 < vars.sectorsPerTrack.toNat) (hspt' : vars.sectorsPerTrack.toNat ≤ 63) :
    (chsCall vars x).sector = x.toNat % vars.sectorsPerTrack.toNat + 1 := by
  have hlt := Nat.mod_lt x.toNat hspt
  have hand := Nat.and_two_pow_sub_one_eq_mod (x.toNat % vars.sectorsPerTrack.toNat + 1) 6
  rw [Registers.sector, UInt8.toNat_and, chsCall_cl hspt hspt']
  refine hand.trans ?_
  omega

theorem chsCall_cylinder (hspt : 0 < vars.sectorsPerTrack.toNat) (hspt' : vars.sectorsPerTrack.toNat ≤ 63) :
    (chsCall vars x).cylinder =
      x.toNat / vars.sectorsPerTrack.toNat / vars.heads.toNat % 256 := by
  have hlt := Nat.mod_lt x.toNat hspt
  have hhigh : ((chsCall vars x).cl >>> 6).toNat = 0 := by
    rw [UInt8.toNat_shiftRight, chsCall_cl hspt hspt', Nat.shiftRight_eq_div_pow]
    exact Nat.div_eq_of_lt (Nat.lt_of_le_of_lt (Nat.succ_le_of_lt hlt) (Nat.lt_succ_of_le hspt'))
  have hlow : (chsCall vars x).ch.toNat = x.toNat / vars.sectorsPerTrack.toNat / vars.heads.toNat % 256 := by
    rw [chsCall, lo_toNat, UInt16.toNat_div, UInt16.toNat_div]
  rw [Registers.cylinder, hhigh, hlow, Nat.mul_zero, Nat.add_zero]

end Numbers

/-- What comes from a call that is to read `source`. -/
def Bios.got (bios : Bios) (call : Nat) (source : Option Nat) : Option Nat :=
  if (bios.fails call).isSome then none else source

/-- `m'` has the sector `source` at `dest`, or the carry flag set. -/
structure Fetched (disk : Disk) (m m' : Machine) (source : Option Nat) (dest : Nat) : Prop where
  carry : m'.carry = source.isNone
  bytes : ∀ s, source = some s → ∀ j, j < 512 → m'.mem (dest + j) = disk s j
  frame : ∀ p, p < dest ∨ dest + 512 ≤ p → m'.mem p = m.mem p
  es : m'.es = m.es
  reads : m'.reads = m.reads

variable {bios : Bios} {disk : Disk} {m m' : Machine}

theorem fill_inside {mem : Nat → Byte} {dest : Nat} {bytes : Nat → Byte} {j : Nat} (hj : j < 512) :
    fill mem dest bytes (dest + j) = bytes j := by
  unfold fill
  rw [if_pos ⟨Nat.le_add_right dest j, Nat.add_lt_add_left hj dest⟩, Nat.add_sub_cancel_left]

theorem fill_outside {mem : Nat → Byte} {dest p : Nat} {bytes : Nat → Byte} (hp : p < dest ∨ dest + 512 ≤ p) :
    fill mem dest bytes p = mem p := if_neg (by omega)

theorem transfer_fetched (bios : Bios) (disk : Disk) (m : Machine) (source : Option Nat) (dest : Nat) :
    Fetched disk m (transfer bios disk m source dest) (bios.got m.calls source) dest := by
  unfold transfer Bios.got
  cases bios.fails m.calls with
  | some f =>
    exact ⟨rfl, fun s hs => absurd hs (by simp), fun p hp => fill_outside hp, rfl, rfl⟩
  | none =>
    cases source with
    | none => exact ⟨rfl, fun s hs => absurd hs (by simp), fun p hp => rfl, rfl, rfl⟩
    | some s =>
      refine ⟨rfl, fun s' hs j hj => ?_, fun p hp => fill_outside hp, rfl, rfl⟩
      obtain rfl : s = s' := by simpa using hs
      exact fill_inside hj

theorem transfer_frame (bios : Bios) (disk : Disk) (m : Machine) (source : Option Nat) (dest : Nat) :
    (transfer bios disk m source dest).calls = m.calls + 1 ∧
      (transfer bios disk m source dest).vars = m.vars ∧
      (transfer bios disk m source dest).regs.bx = m.regs.bx := by
  unfold transfer
  cases bios.fails m.calls with
  | some f => exact ⟨rfl, rfl, rfl⟩
  | none => cases source <;> exact ⟨rfl, rfl, rfl⟩

theorem transfer_status {f : Failure} (h : bios.fails m.calls = some f) (source : Option Nat) (dest : Nat) :
    (transfer bios disk m source dest).regs.ax = setHi m.regs.ax f.status := by
  unfold transfer
  rw [h]

theorem chsFallback_spec (hspt : 0 < m.vars.sectorsPerTrack.toNat) (hheads : 0 < m.vars.heads.toNat) :
    ∃ m', chsFallback bios disk m = some m' ∧
      Fetched disk m m' (bios.got m.calls (bios.geometry.sectorOf (chsCall m.vars m.regs.ax)))
        (linear m.es m.regs.bx) ∧
      m'.calls = m.calls + 1 ∧ m'.vars = m.vars := by
  unfold chsFallback
  rw [splitChs_spec hspt hheads]
  have hcall : ∀ r : Regs, call { r with
      ax := setHi (setLo (m.regs.ax / m.vars.sectorsPerTrack / m.vars.heads) 1) readCommand
      cx := pair (lo (m.regs.ax / m.vars.sectorsPerTrack / m.vars.heads)) (lo (m.regs.ax % m.vars.sectorsPerTrack + 1))
      dx := setLo (setHi (m.regs.ax / m.vars.sectorsPerTrack % m.vars.heads)
        (lo (m.regs.ax / m.vars.sectorsPerTrack % m.vars.heads))) m.vars.driveNumber } =
      chsCall m.vars m.regs.ax := by
    intro r
    simp [call, chsCall]
  refine ⟨_, rfl, ?_⟩
  unfold int13Read
  dsimp only
  rw [hcall]
  generalize bios.geometry.sectorOf (chsCall m.vars m.regs.ax) = source
  obtain ⟨hcarry, hbytes, hframe, hes, hreads⟩ := transfer_fetched bios disk _ source (linear m.es m.regs.bx)
  obtain ⟨hcalls, hvars, _⟩ := transfer_frame bios disk _ source (linear m.es m.regs.bx)
  exact ⟨⟨hcarry, hbytes, hframe, hes, hreads⟩, hcalls, hvars⟩

theorem Fetched.trans {m₁ m₂ m₃ : Machine} {source₁ source₂ : Option Nat} {dest : Nat}
    (h₁ : Fetched disk m₁ m₂ source₁ dest) (h₂ : Fetched disk m₂ m₃ source₂ dest) :
    Fetched disk m₁ m₃ source₂ dest :=
  ⟨h₂.carry, h₂.bytes, fun p hp => (h₂.frame p hp).trans (h₁.frame p hp), h₂.es.trans h₁.es,
    h₂.reads.trans h₁.reads⟩

def atExtended (m : Machine) : Machine :=
  { m with regs := { m.regs with dx := setLo 0 m.vars.driveNumber, ax := setHi m.regs.ax 0x42 } }

theorem lbaRead_eq (bios : Bios) (disk : Disk) (m : Machine) :
    lbaRead bios disk m =
      let m₂ := transfer bios disk (atExtended m) (some m.regs.ax.toNat) (linear m.es m.regs.bx)
      if m₂.carry then chsFallback bios disk { m₂ with vars := { m₂.vars with lbaSupported := false } }
      else some m₂ := by
  have hlba : (0 : UInt16).toNat * 65536 + m.regs.ax.toNat = m.regs.ax.toNat := Nat.zero_add _
  unfold lbaRead int13Extended
  dsimp only
  rw [hlba]
  rfl

theorem atExtended_frame (m : Machine) :
    (atExtended m).calls = m.calls ∧ (atExtended m).vars = m.vars ∧ (atExtended m).regs.bx = m.regs.bx ∧
      (atExtended m).mem = m.mem ∧ (atExtended m).es = m.es ∧ (atExtended m).reads = m.reads := by
  simp [atExtended]

theorem extended_spec (bios : Bios) (disk : Disk) (m : Machine) (source : Option Nat) (dest : Nat) :
    Fetched disk m (transfer bios disk (atExtended m) source dest) (bios.got m.calls source) dest ∧
      (transfer bios disk (atExtended m) source dest).calls = m.calls + 1 ∧
      (transfer bios disk (atExtended m) source dest).vars = m.vars ∧
      (transfer bios disk (atExtended m) source dest).regs.bx = m.regs.bx := by
  obtain ⟨hcalls, hvars, hbx, hmem, hes, hreads⟩ := atExtended_frame m
  obtain ⟨hcarry, hbytes, hframe, hes', hreads'⟩ := transfer_fetched bios disk (atExtended m) source dest
  obtain ⟨hcalls', hvars', hbx'⟩ := transfer_frame bios disk (atExtended m) source dest
  rw [hcalls] at hcarry hbytes hcalls'
  rw [hmem] at hframe
  exact ⟨⟨hcarry, hbytes, hframe, hes'.trans hes, hreads'.trans hreads⟩, hcalls', hvars'.trans hvars,
    hbx'.trans hbx⟩

theorem extended_status {f : Failure} (hfails : bios.fails m.calls = some f) (source : Option Nat) (dest : Nat) :
    (transfer bios disk (atExtended m) source dest).regs.ax = setHi m.regs.ax f.status := by
  rw [← (atExtended_frame m).1] at hfails
  rw [transfer_status hfails]
  simp [atExtended, setHi]

theorem lbaRead_ok (hok : bios.fails m.calls = none) :
    ∃ m', lbaRead bios disk m = some m' ∧ Fetched disk m m' (some m.regs.ax.toNat) (linear m.es m.regs.bx) ∧
      m'.calls = m.calls + 1 ∧ m'.vars = m.vars := by
  rw [lbaRead_eq]
  generalize m.regs.ax.toNat = sector
  obtain ⟨hfetched, hcalls, hvars, _⟩ := extended_spec bios disk m (some sector) (linear m.es m.regs.bx)
  have hgot : bios.got m.calls (some sector) = some sector := by simp [Bios.got, hok]
  rw [hgot] at hfetched
  exact ⟨_, if_neg (Bool.eq_false_iff.mp hfetched.carry), hfetched, hcalls, hvars⟩

theorem lbaRead_failed (hspt : 0 < m.vars.sectorsPerTrack.toNat) (hheads : 0 < m.vars.heads.toNat) {f : Failure}
    (hfails : bios.fails m.calls = some f) :
    ∃ m', lbaRead bios disk m = some m' ∧
      Fetched disk m m' (bios.got (m.calls + 1) (bios.geometry.sectorOf
        (chsCall m.vars (setHi m.regs.ax f.status)))) (linear m.es m.regs.bx) ∧
      m'.calls = m.calls + 2 ∧ m'.vars = { m.vars with lbaSupported := false } := by
  rw [lbaRead_eq]
  generalize some m.regs.ax.toNat = source
  obtain ⟨hfetched, hcalls, hvars, hbx⟩ := extended_spec bios disk m source (linear m.es m.regs.bx)
  have hax := @extended_status bios disk m f hfails source (linear m.es m.regs.bx)
  have hgot : bios.got m.calls source = none := by simp [Bios.got, hfails]
  rw [hgot] at hfetched
  generalize transfer bios disk (atExtended m) source (linear m.es m.regs.bx) = m₂ at *
  obtain ⟨m', hrun, hfetched', hcalls', hvars'⟩ := @chsFallback_spec bios disk
    { m₂ with vars := { m₂.vars with lbaSupported := false } } (by rw [hvars]; exact hspt)
    (by rw [hvars]; exact hheads)
  have hcall : chsCall { m₂.vars with lbaSupported := false } m₂.regs.ax =
      chsCall m.vars (setHi m.regs.ax f.status) := by
    rw [hvars, hax]
    rfl
  dsimp only at hfetched' hcalls' hvars'
  have hagain : Fetched disk m₂ m' (bios.got m₂.calls (bios.geometry.sectorOf
      (chsCall { m₂.vars with lbaSupported := false } m₂.regs.ax))) (linear m₂.es m₂.regs.bx) :=
    ⟨hfetched'.carry, hfetched'.bytes, hfetched'.frame, hfetched'.es, hfetched'.reads⟩
  rw [hcall, hcalls, hfetched.es, hbx] at hagain
  rw [hcalls] at hcalls'
  rw [hvars] at hvars'
  exact ⟨m', (if_pos hfetched.carry).trans hrun, hfetched.trans hagain, hcalls', hvars'⟩

/-- How far the reads have come: whether `lba_supported` is still set, and the calls made. -/
structure Progress where
  lba : Bool
  calls : Nat

def Machine.progress (m : Machine) : Progress := ⟨m.vars.lbaSupported, m.calls⟩

/-- Behind the read of one more sector. -/
def Progress.next (bios : Bios) (p : Progress) : Progress :=
  if p.lba then
    if (bios.fails p.calls).isSome then ⟨false, p.calls + 2⟩ else ⟨true, p.calls + 1⟩
  else ⟨false, p.calls + 1⟩

/-- The sector that comes into the buffer when `disk_read` is asked for `lba`. -/
def Progress.source (bios : Bios) (vars : DriveVars) (p : Progress) (lba : UInt16) : Option Nat :=
  if p.lba then
    match bios.fails p.calls with
    | none => some lba.toNat
    | some f => bios.got (p.calls + 1) (bios.geometry.sectorOf (chsCall vars (setHi lba f.status)))
  else bios.got p.calls (bios.geometry.sectorOf (chsCall vars lba))

theorem vars_eta {vars : DriveVars} {b : Bool} (h : vars.lbaSupported = b) :
    vars = { vars with lbaSupported := b } := by
  rw [← h]

/-- One `disk_read`. -/
theorem diskRead_spec (hspt : 0 < m.vars.sectorsPerTrack.toNat) (hheads : 0 < m.vars.heads.toNat) :
    ∃ m', diskRead bios disk m = some m' ∧
      Fetched disk m m' (m.progress.source bios m.vars m.regs.ax) (linear m.es m.regs.bx) ∧
      m'.vars = { m.vars with lbaSupported := (m.progress.next bios).lba } ∧
      m'.calls = (m.progress.next bios).calls ∧ m'.regs = m.regs := by
  have hback : ∀ {m' : Machine} {source : Option Nat} {dest : Nat}, Fetched disk m m' source dest →
      Fetched disk m { m' with regs := m.regs } source dest :=
    fun h => ⟨h.carry, h.bytes, h.frame, h.es, h.reads⟩
  unfold diskRead Progress.source Progress.next Machine.progress
  cases hlba : m.vars.lbaSupported with
  | false =>
    obtain ⟨m', hrun, hfetched, hcalls, hvars⟩ := @chsFallback_spec bios disk m hspt hheads
    refine ⟨{ m' with regs := m.regs }, ?_, hback hfetched, ?_, hcalls, rfl⟩
    · simp [hrun]
    · exact hvars.trans (vars_eta hlba)
  | true =>
    cases hfails : bios.fails m.calls with
    | none =>
      obtain ⟨m', hrun, hfetched, hcalls, hvars⟩ := @lbaRead_ok bios disk m hfails
      refine ⟨{ m' with regs := m.regs }, ?_, hback ?_, ?_, ?_, rfl⟩
      · simp [hrun]
      · simpa [hfails] using hfetched
      · simpa [hfails] using hvars.trans (vars_eta hlba)
      · simpa [hfails] using hcalls
    | some f =>
      obtain ⟨m', hrun, hfetched, hcalls, hvars⟩ := @lbaRead_failed bios disk m hspt hheads f hfails
      refine ⟨{ m' with regs := m.regs }, ?_, hback ?_, ?_, ?_, rfl⟩
      · simp [hrun]
      · simpa [hfails] using hfetched
      · simpa [hfails] using hvars
      · simpa [hfails] using hcalls

/-- Divided by `spt` and `heads`, and with the cylinder modulo 256, the number `x` comes to the sector
number `sector` of the disk. -/
def Geometry.Leads (g : Geometry) (spt heads x sector : Nat) : Prop :=
  x / spt / heads % 256 < g.cylinders ∧ x / spt % heads < g.heads ∧ x % spt < g.sectorsPerTrack ∧
    (x / spt / heads % 256 * g.heads + x / spt % heads) * g.sectorsPerTrack + x % spt = sector

instance (g : Geometry) (spt heads x sector : Nat) : Decidable (g.Leads spt heads x sector) :=
  inferInstanceAs (Decidable (_ ∧ _))

theorem sectorOf_chsCall (bios : Bios) (drive : UInt8) {x : UInt16} {sector : Nat} :
    bios.geometry.sectorOf (chsCall (detect bios drive) x) = some sector ↔
      bios.geometry.Leads (queryGeometry bios drive).1.toNat (queryGeometry bios drive).2.toNat
        x.toNat sector := by
  obtain ⟨hspt, hheads⟩ := queryGeometry_pos bios drive
  obtain ⟨hspt', hheads'⟩ := queryGeometry_le bios drive
  have hcylinder := @chsCall_cylinder (detect bios drive) x hspt hspt'
  have hhead := @chsCall_head (detect bios drive) x hheads hheads'
  have hsector := @chsCall_sector (detect bios drive) x hspt hspt'
  rw [show (detect bios drive).sectorsPerTrack = (queryGeometry bios drive).1 from rfl] at *
  rw [show (detect bios drive).heads = (queryGeometry bios drive).2 from rfl] at *
  unfold Geometry.sectorOf Geometry.Leads
  rw [hcylinder, hhead, hsector]
  have hend : ∀ n k : Nat, n + (k + 1) - 1 = n + k := fun _ _ => rfl
  rw [Option.ite_none_right_eq_some, Option.some.injEq, hend]
  simp only [Nat.succ_pos, true_and, Nat.succ_le_iff, and_assoc]

/-- With the geometry of the BIOS a sector of the disk comes to itself where its cylinder is below
256. -/
theorem leads_known {bios : Bios} (h : bios.geometryKnown = true) (drive : UInt8) {x : Nat}
    (hdisk : x < bios.geometry.cylinders * (bios.geometry.heads * bios.geometry.sectorsPerTrack)) :
    bios.geometry.Leads (queryGeometry bios drive).1.toNat (queryGeometry bios drive).2.toNat x x ↔
      x / bios.geometry.sectorsPerTrack / bios.geometry.heads < 256 := by
  obtain ⟨hspt, hheads⟩ := queryGeometry_pos bios drive
  obtain ⟨hsptEq, hheadsEq⟩ := queryGeometry_known h drive
  rw [hsptEq] at hspt
  rw [hheadsEq] at hheads
  rw [hsptEq, hheadsEq]
  have hline := chs_linear x bios.geometry.sectorsPerTrack bios.geometry.heads
  have hmod := Nat.mod_lt x hspt
  have hmod' := Nat.mod_lt (x / bios.geometry.sectorsPerTrack) hheads
  have hlast : x / bios.geometry.sectorsPerTrack / bios.geometry.heads < bios.geometry.cylinders := by
    rw [Nat.div_div_eq_div_mul, Nat.div_lt_iff_lt_mul (Nat.mul_pos hspt hheads),
      Nat.mul_comm bios.geometry.sectorsPerTrack]
    exact hdisk
  unfold Geometry.Leads
  generalize x / bios.geometry.sectorsPerTrack / bios.geometry.heads = c at *
  constructor
  · rintro ⟨-, -, -, hsame⟩
    have hrow : c % 256 * bios.geometry.heads * bios.geometry.sectorsPerTrack =
        c * bios.geometry.heads * bios.geometry.sectorsPerTrack := by
      rw [Nat.add_mul] at hsame hline
      omega
    have hsmall := Nat.eq_of_mul_eq_mul_right hheads (Nat.eq_of_mul_eq_mul_right hspt hrow)
    omega
  · intro hsmall
    rw [Nat.mod_eq_of_lt hsmall]
    exact ⟨hlast, hmod', hmod, hline⟩

end Boot
end MiniDos
