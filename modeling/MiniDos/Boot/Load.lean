import MiniDos.Boot.Read
import MiniDos.Lib.Scan

/-!
# MiniDos.Boot.Load

`stage2.asm` loads the kernel, sector by sector to physical 0x10000.

* `Behind`: the invariant of the load loop. Nobody looks at the carry flag of a read.
* `loadKernel_iff`: the images that arrive whole.
-/

namespace MiniDos
namespace Boot

open Real16 Drive
open Fat16 (Byte)

/-! ## The load loop -/

/-- Behind the read: `ax` to the next sector, and `es:bx` to the next 512 bytes. -/
def nextSector (m : Machine) : Machine :=
  let r := { m.regs with ax := m.regs.ax + 1, bx := m.regs.bx + 512 }
  if 65536 ≤ m.regs.bx.toNat + 512 then
    { m with regs := { r with dx := m.es + 0x1000 }, es := m.es + 0x1000 }
  else { m with regs := r }

/-- From `.load_loop` to `loop`. The dot on the screen changes nothing here. -/
def loadBody (bios : Bios) (disk : Disk) (m : Machine) : Option Machine := do
  let m' ← diskRead bios disk { m with regs := { m.regs with cx := 1 } }
  let r := { m'.regs with bx := m.regs.bx, ax := m.regs.ax, cx := m.regs.cx }
  let m' := nextSector { m' with regs := r, reads := m'.reads ++ [!m'.carry] }
  some { m' with regs := { m'.regs with cx := m'.regs.cx - 1 } }

/-- `none` means that the fuel ran out, or a division trapped. -/
def loadLoop (bios : Bios) (disk : Disk) : Nat → Machine → Option Machine
  | 0, _ => none
  | fuel + 1, m => do
    let m ← loadBody bios disk m
    if m.regs.cx ≠ 0 then loadLoop bios disk fuel m else some m

/-- `kernel_sectors`, or 32 if it was not patched. -/
def sectorCount (kernelSectors : UInt16) : UInt16 := if kernelSectors ≠ 0 then kernelSectors else 32

/-- The loading part of `stage2.asm`. -/
def loadKernel (bios : Bios) (disk : Disk) (drive : UInt8) (kernelSectors : UInt16) (m : Machine) :
    Option Machine :=
  loadLoop bios disk 65536
    { m with
      regs := { m.regs with ax := 5, bx := 0, cx := sectorCount kernelSectors }
      es := 0x1000
      vars := detect bios drive
      calls := 0
      reads := [] }

variable {bios : Bios} {disk : Disk} {m m' : Machine}

/-! ## Turns -/

/-- Before the read number `i`. -/
def progressAt (bios : Bios) (drive : UInt8) : Nat → Progress
  | 0 => ⟨detectLba bios drive, 0⟩
  | i + 1 => (progressAt bios drive i).next bios

/-- The sector that comes to place `i`. -/
def sourceAt (bios : Bios) (drive : UInt8) (i : Nat) : Option Nat :=
  (progressAt bios drive i).source bios (detect bios drive) (UInt16.ofNat (5 + i))

/-- Physical address of place `i`. -/
def place (i : Nat) : Nat := 0x10000 + 512 * i

/-- Behind `i` of `n` sectors. -/
structure Behind (bios : Bios) (disk : Disk) (drive : UInt8) (n i : Nat) (m : Machine) : Prop where
  ax : m.regs.ax = UInt16.ofNat (5 + i)
  bx : m.regs.bx = UInt16.ofNat (512 * i)
  es : m.es = UInt16.ofNat (0x1000 * (1 + i / 128))
  cx : m.regs.cx = UInt16.ofNat (n - i)
  vars : m.vars = { detect bios drive with lbaSupported := (progressAt bios drive i).lba }
  calls : m.calls = (progressAt bios drive i).calls
  reads : m.reads = (List.range i).map (fun k => (sourceAt bios drive k).isSome)
  bytes : ∀ k, k < i → ∀ s, sourceAt bios drive k = some s → ∀ j, j < 512 → m.mem (place k + j) = disk s j

variable {drive : UInt8} {n i : Nat}

theorem Behind.linear (h : Behind bios disk drive n i m) (hi : i < 1152) : linear m.es m.regs.bx = place i := by
  rw [h.es, h.bx, Real16.linear, place, UInt16.toNat_ofNat', UInt16.toNat_ofNat']
  omega

theorem nextSector_spec (hbx : m.regs.bx = UInt16.ofNat (512 * i))
    (hes : m.es = UInt16.ofNat (0x1000 * (1 + i / 128))) :
    (nextSector m).regs.ax = m.regs.ax + 1 ∧ (nextSector m).regs.bx = UInt16.ofNat (512 * (i + 1)) ∧
      (nextSector m).regs.cx = m.regs.cx ∧ (nextSector m).es = UInt16.ofNat (0x1000 * (1 + (i + 1) / 128)) := by
  have hoffset : m.regs.bx.toNat = 512 * i % 65536 := by rw [hbx, UInt16.toNat_ofNat']
  have hnext : m.regs.bx + 512 = UInt16.ofNat (512 * (i + 1)) := by
    rw [hbx, Nat.mul_succ, UInt16.ofNat_add]
    rfl
  unfold nextSector
  dsimp only
  split
  · refine ⟨rfl, hnext, rfl, ?_⟩
    have hstep : 0x1000 * (1 + (i + 1) / 128) = 0x1000 * (1 + i / 128) + 0x1000 := by omega
    rw [hes, hstep, UInt16.ofNat_add]
    rfl
  · refine ⟨rfl, hnext, rfl, ?_⟩
    have hsame : (i + 1) / 128 = i / 128 := by omega
    rw [hes, hsame]

theorem nextSector_frame (m : Machine) :
    (nextSector m).vars = m.vars ∧ (nextSector m).calls = m.calls ∧ (nextSector m).mem = m.mem ∧
      (nextSector m).reads = m.reads := by
  unfold nextSector
  dsimp only
  split
  · exact ⟨rfl, rfl, rfl, rfl⟩
  · exact ⟨rfl, rfl, rfl, rfl⟩

/-- One turn. -/
theorem Behind.body (h : Behind bios disk drive n i m) (hi : i < n) (hn : n ≤ 1152) :
    ∃ m', loadBody bios disk m = some m' ∧ Behind bios disk drive n (i + 1) m' := by
  obtain ⟨hspt, hheads⟩ := queryGeometry_pos bios drive
  have hvars := h.vars
  obtain ⟨m₁, hrun, hfetched, hvars₁, hcalls₁, hregs₁⟩ := @diskRead_spec bios disk
    { m with regs := { m.regs with cx := 1 } } (by rw [hvars]; exact hspt) (by rw [hvars]; exact hheads)
  have hprogress : ({ m with regs := { m.regs with cx := 1 } } : Machine).progress = progressAt bios drive i := by
    unfold Machine.progress
    dsimp only
    rw [hvars, h.calls]
  have hsource : (progressAt bios drive i).source bios m.vars m.regs.ax = sourceAt bios drive i := by
    rw [hvars, h.ax]
    rfl
  rw [hprogress] at hfetched hvars₁ hcalls₁
  dsimp only at hfetched hvars₁ hregs₁
  rw [hsource, h.linear (by omega)] at hfetched
  generalize hm₂ : ({ m₁ with
    regs := { m₁.regs with bx := m.regs.bx, ax := m.regs.ax, cx := m.regs.cx },
    reads := m₁.reads ++ [!m₁.carry] } : Machine) = m₂
  have hbody : loadBody bios disk m = some { nextSector m₂ with
      regs := { (nextSector m₂).regs with cx := (nextSector m₂).regs.cx - 1 } } := by
    simp [loadBody, hrun, ← hm₂]
  obtain ⟨hax, hbx, hcx, hes⟩ := @nextSector_spec m₂ i (by rw [← hm₂]; exact h.bx)
    (by rw [← hm₂]; exact hfetched.es.trans h.es)
  obtain ⟨hvars₂, hcalls₂, hmem₂, hreads₂⟩ := nextSector_frame m₂
  refine ⟨_, hbody, ?_, ?_, ?_, ?_, ?_, ?_, ?_, ?_⟩
  · dsimp only
    rw [hax, ← hm₂]
    dsimp only
    rw [h.ax, ← Nat.add_assoc, UInt16.ofNat_add (5 + i)]
    rfl
  · dsimp only
    exact hbx
  · dsimp only
    exact hes
  · dsimp only
    rw [hcx, ← hm₂]
    dsimp only
    rw [h.cx, (by omega : n - i = n - (i + 1) + 1), UInt16.ofNat_add]
    exact UInt16.add_sub_cancel _ _
  · dsimp only
    rw [hvars₂, ← hm₂]
    dsimp only
    rw [hvars₁, hvars]
    rfl
  · dsimp only
    rw [hcalls₂, ← hm₂]
    dsimp only
    rw [hcalls₁]
    rfl
  · dsimp only
    rw [hreads₂, ← hm₂]
    dsimp only
    rw [hfetched.reads, hfetched.carry, h.reads, List.range_succ, List.map_append, List.map_singleton]
    cases sourceAt bios drive i <;> rfl
  · intro k hk s hs j hj
    dsimp only
    rw [hmem₂, ← hm₂]
    dsimp only
    rcases Nat.lt_succ_iff_lt_or_eq.mp hk with hlt | rfl
    · rw [hfetched.frame _ (by unfold place; omega)]
      exact h.bytes k hlt s hs j hj
    · exact hfetched.bytes s hs j hj

theorem Behind.loop (hn : n ≤ 1152) : ∀ (k i fuel : Nat) (m : Machine), i + k = n → 0 < k → k ≤ fuel →
    Behind bios disk drive n i m →
      ∃ m', loadLoop bios disk fuel m = some m' ∧ Behind bios disk drive n n m' := by
  intro k
  induction k with
  | zero =>
    intro i fuel m _ hk
    omega
  | succ k ih =>
    intro i fuel m hik _ hfuel h
    obtain ⟨fuel, rfl⟩ : ∃ f, fuel = f + 1 := ⟨fuel - 1, by omega⟩
    obtain ⟨m₁, hbody, h₁⟩ := h.body (by omega) hn
    have hcx : m₁.regs.cx ≠ 0 ↔ 0 < k := by
      have hzero : (0 : UInt16).toNat = 0 := rfl
      rw [h₁.cx, ne_eq, ← UInt16.toNat_inj, UInt16.toNat_ofNat', hzero]
      omega
    by_cases hk : 0 < k
    · obtain ⟨m', hrun, h'⟩ := ih (i + 1) fuel m₁ (by omega) hk (by omega) h₁
      refine ⟨m', ?_, h'⟩
      simp [loadLoop, hbody, hcx.mpr hk, hrun]
    · have hlast : i + 1 = n := by omega
      rw [hlast] at h₁
      refine ⟨m₁, ?_, h₁⟩
      have hzero : m₁.regs.cx = 0 := not_not.mp (fun h0 => hk (hcx.mp h0))
      simp [loadLoop, hbody, hzero]

theorem sectorCount_pos (kernelSectors : UInt16) : 0 < (sectorCount kernelSectors).toNat := by
  unfold sectorCount
  split
  · rename_i h
    rw [Nat.pos_iff_ne_zero]
    exact fun h0 => h (UInt16.toNat_inj.mp h0)
  · exact Nat.succ_pos 31

theorem loadKernel_spec (bios : Bios) (disk : Disk) (drive : UInt8) (kernelSectors : UInt16) (m : Machine)
    (hfits : (sectorCount kernelSectors).toNat ≤ 1152) :
    ∃ m', loadKernel bios disk drive kernelSectors m = some m' ∧
      Behind bios disk drive (sectorCount kernelSectors).toNat (sectorCount kernelSectors).toNat m' := by
  refine Behind.loop hfits _ 0 65536 _ (Nat.zero_add _) (sectorCount_pos kernelSectors) (by omega) ?_
  refine ⟨rfl, rfl, rfl, ?_, rfl, rfl, rfl, fun k hk => absurd hk (Nat.not_lt_zero k)⟩
  dsimp only
  rw [Nat.sub_zero, UInt16.ofNat_toNat]

/-! ## Which images arrive whole -/

/-- The image is in memory, and no read was counted that failed. -/
def Loaded (disk : Disk) (n : Nat) (m : Machine) : Prop :=
  (∀ i, i < n → ∀ j, j < 512 → m.mem (place i + j) = disk (5 + i) j) ∧ ∀ ok ∈ m.reads, ok = true

/-- The call number `call` does not fail, and `x`, divided by what the code has for the geometry, comes
to `sector`. -/
def ReadsByChs (bios : Bios) (drive : UInt8) (call : Nat) (x : UInt16) (sector : Nat) : Prop :=
  bios.fails call = none ∧ bios.geometry.Leads (queryGeometry bios drive).1.toNat
    (queryGeometry bios drive).2.toNat x.toNat sector

/-- Without extensions every read is right. With them none fails, or there is a first one that does: its
status and the low byte of its sector number lead to that sector all the same, and every later read,
without extensions, is right. -/
def LoadsRight (bios : Bios) (drive : UInt8) (n : Nat) : Prop :=
  if detectLba bios drive then
    (∀ i, i < n → bios.fails i = none) ∨
      ∃ first, first < n ∧ (∀ i, i < first → bios.fails i = none) ∧
        (∃ f, bios.fails first = some f ∧
          ReadsByChs bios drive (first + 1) (setHi (UInt16.ofNat (5 + first)) f.status) (5 + first)) ∧
        ∀ i, first < i → i < n → ReadsByChs bios drive (i + 1) (UInt16.ofNat (5 + i)) (5 + i)
  else ∀ i, i < n → ReadsByChs bios drive i (UInt16.ofNat (5 + i)) (5 + i)

theorem got_eq_iff {call : Nat} {source : Option Nat} {sector : Nat} :
    bios.got call source = some sector ↔ bios.fails call = none ∧ source = some sector := by
  unfold Bios.got
  cases bios.fails call <;> simp

theorem readsByChs_iff {call sector : Nat} {x : UInt16} : ReadsByChs bios drive call x sector ↔
    bios.got call (bios.geometry.sectorOf (chsCall (detect bios drive) x)) = some sector := by
  rw [got_eq_iff, sectorOf_chsCall]
  rfl

/-- Two disks that differ tell two sectors apart. -/
theorem loaded_iff_sources {kernelSectors : UInt16} (m : Machine) (hfits : (sectorCount kernelSectors).toNat ≤ 1152) :
    (∀ disk, ∃ m', loadKernel bios disk drive kernelSectors m = some m' ∧
        Loaded disk (sectorCount kernelSectors).toNat m') ↔
      ∀ i, i < (sectorCount kernelSectors).toNat → sourceAt bios drive i = some (5 + i) := by
  constructor
  · intro hall i hi
    have hsome : (sourceAt bios drive i).isSome = true := by
      obtain ⟨m', hrun, hloaded⟩ := hall (fun _ _ => 0)
      obtain ⟨m₁, hrun₁, hbehind⟩ := loadKernel_spec bios (fun _ _ => 0) drive kernelSectors m hfits
      obtain rfl : m₁ = m' := Option.some.inj (hrun₁.symm.trans hrun)
      refine hloaded.2 _ ?_
      rw [hbehind.reads]
      exact List.mem_map.mpr ⟨i, List.mem_range.mpr hi, rfl⟩
    obtain ⟨s, hs⟩ := Option.isSome_iff_exists.mp hsome
    obtain ⟨m', hrun, hloaded⟩ := hall (fun sector _ => if sector = s then 1 else 0)
    obtain ⟨m₁, hrun₁, hbehind⟩ := loadKernel_spec bios (fun sector _ => if sector = s then 1 else 0) drive
      kernelSectors m hfits
    obtain rfl : m₁ = m' := Option.some.inj (hrun₁.symm.trans hrun)
    have hread := hbehind.bytes i hi s hs 0 (by omega)
    rw [hloaded.1 i hi 0 (by omega), if_pos rfl] at hread
    by_cases hsame : 5 + i = s
    · rw [hs, hsame]
    · exact absurd ((if_neg hsame).symm.trans hread) (by decide)
  · intro hsources disk
    obtain ⟨m', hrun, hbehind⟩ := loadKernel_spec bios disk drive kernelSectors m hfits
    refine ⟨m', hrun, fun i hi => hbehind.bytes i hi (5 + i) (hsources i hi), fun ok hok => ?_⟩
    rw [hbehind.reads] at hok
    obtain ⟨i, hi, rfl⟩ := List.mem_map.mp hok
    rw [hsources i (List.mem_range.mp hi)]
    rfl

theorem progressAt_lba (hlba : detectLba bios drive = true) (hok : ∀ k, k < i → bios.fails k = none) :
    progressAt bios drive i = ⟨true, i⟩ := by
  induction i with
  | zero => rw [progressAt, hlba]
  | succ i ih =>
    rw [progressAt, ih (fun k hk => hok k (by omega))]
    simp [Progress.next, hok i (Nat.lt_succ_self i)]

theorem progressAt_chs (hlba : detectLba bios drive = false) : progressAt bios drive i = ⟨false, i⟩ := by
  induction i with
  | zero => rw [progressAt, hlba]
  | succ i ih =>
    rw [progressAt, ih]
    rfl

theorem progressAt_failed (hlba : detectLba bios drive = true) {first : Nat}
    (hok : ∀ k, k < first → bios.fails k = none) (hfails : (bios.fails first).isSome = true) (hi : first < i) :
    progressAt bios drive i = ⟨false, i + 1⟩ := by
  induction i with
  | zero => omega
  | succ i ih =>
    rw [progressAt]
    by_cases hfirst : i = first
    · subst hfirst
      rw [progressAt_lba hlba hok]
      simp [Progress.next, hfails]
    · rw [ih (by omega)]
      rfl

theorem sourceAt_lba (hlba : detectLba bios drive = true) (hi : i < 1152) (hok : ∀ k, k ≤ i → bios.fails k = none) :
    sourceAt bios drive i = some (5 + i) := by
  have hword : (UInt16.ofNat (5 + i)).toNat = 5 + i := by
    rw [UInt16.toNat_ofNat', Nat.mod_eq_of_lt (by omega)]
  rw [sourceAt, progressAt_lba hlba (fun k hk => hok k (Nat.le_of_lt hk)), Progress.source, if_pos rfl,
    hok i (Nat.le_refl i)]
  exact congrArg some hword

theorem sourceAt_failed (hlba : detectLba bios drive = true) {first : Nat}
    (hok : ∀ k, k < first → bios.fails k = none) {f : Failure} (hfails : bios.fails first = some f) :
    sourceAt bios drive first = some (5 + first) ↔
      ReadsByChs bios drive (first + 1) (setHi (UInt16.ofNat (5 + first)) f.status) (5 + first) := by
  rw [sourceAt, progressAt_lba hlba hok, readsByChs_iff]
  simp [Progress.source, hfails]

theorem sourceAt_behind (hlba : detectLba bios drive = true) {first : Nat}
    (hok : ∀ k, k < first → bios.fails k = none) (hfails : (bios.fails first).isSome = true) (hi : first < i) :
    sourceAt bios drive i = some (5 + i) ↔ ReadsByChs bios drive (i + 1) (UInt16.ofNat (5 + i)) (5 + i) := by
  rw [sourceAt, progressAt_failed hlba hok hfails hi, readsByChs_iff]
  rfl

theorem sources_iff (hn : n ≤ 1152) :
    (∀ i, i < n → sourceAt bios drive i = some (5 + i)) ↔ LoadsRight bios drive n := by
  unfold LoadsRight
  cases hlba : detectLba bios drive with
  | false =>
    simp only [sourceAt, progressAt_chs hlba, Progress.source]
    exact forall_congr' fun i => imp_congr_right fun _ => readsByChs_iff.symm
  | true =>
    rw [if_pos rfl]
    cases hfirst : Scan.firstFrom (fun k => (bios.fails k).isSome) n 0 with
    | none =>
      have hok : ∀ k, k < n → bios.fails k = none := by
        intro k hk
        simpa using Scan.firstFrom_none hfirst k (Nat.zero_le k) (by omega)
      exact iff_of_true (fun i hi => sourceAt_lba hlba (by omega) (fun k hk => hok k (by omega))) (.inl hok)
    | some first =>
      obtain ⟨_, hlt, hfails, hbefore⟩ := Scan.firstFrom_some hfirst
      have hok : ∀ k, k < first → bios.fails k = none := by
        intro k hk
        simpa using hbefore k (Nat.zero_le k) hk
      obtain ⟨f, hf⟩ := Option.isSome_iff_exists.mp hfails
      constructor
      · intro hall
        refine .inr ⟨first, by omega, hok, ⟨f, hf, (sourceAt_failed hlba hok hf).mp (hall first (by omega))⟩, ?_⟩
        intro i hi hin
        exact (sourceAt_behind hlba hok hfails hi).mp (hall i hin)
      · rintro (hall | ⟨first', hlt', hok', ⟨f', hf', hswitch⟩, hrest⟩)
        · rw [hall first (by omega)] at hf
          cases hf
        · -- the first failure is the first failure
          obtain rfl : first' = first := by
            rcases Nat.lt_trichotomy first' first with h | h | h
            · rw [hok first' h] at hf'
              cases hf'
            · exact h
            · rw [hok' first h] at hf
              cases hf
          intro i hi
          rcases Nat.lt_trichotomy i first' with h | rfl | h
          · exact sourceAt_lba hlba (by omega) (fun k hk => hok k (by omega))
          · exact (sourceAt_failed hlba hok hf').mpr hswitch
          · exact (sourceAt_behind hlba hok hfails h).mpr (hrest i h hi)

/-- The kernel of every disk arrives whole exactly where the reads do. -/
theorem loadKernel_iff (bios : Bios) (drive : UInt8) (kernelSectors : UInt16) (m : Machine)
    (hfits : (sectorCount kernelSectors).toNat ≤ 1152) :
    (∀ disk, ∃ m', loadKernel bios disk drive kernelSectors m = some m' ∧
        Loaded disk (sectorCount kernelSectors).toNat m') ↔
      LoadsRight bios drive (sectorCount kernelSectors).toNat :=
  (loaded_iff_sources m hfits).trans (sources_iff hfits)

/-- The variables as they are assembled. -/
def startMachine : Machine where
  regs := ⟨0, 0, 0, 0, 0, 0⟩
  es := 0
  carry := false
  vars := ⟨0x80, false, 63, 255⟩
  mem := fun _ => 0
  calls := 0
  reads := []

def floppyBios : Bios where
  geometry := ⟨18, 2, 80, by decide, by decide, by decide⟩
  extensions := none
  geometryKnown := true
  fails := fun _ => none

theorem loadKernel_floppy : (sectorCount 64).toNat = 64 ∧
    ∀ disk, ∃ m', loadKernel floppyBios disk 0 64 startMachine = some m' ∧
      Loaded disk (sectorCount 64).toNat m' := by
  have hright : LoadsRight floppyBios 0 (sectorCount 64).toNat := by
    unfold LoadsRight ReadsByChs
    rw [if_neg (by decide)]
    decide +kernel
  exact ⟨by decide, (loadKernel_iff floppyBios 0 64 startMachine (by decide)).mpr hright⟩

/-- A BIOS with extensions, for a hard disk. The first read times out. -/
def slowBios : Bios where
  geometry := ⟨63, 255, 1024, by decide, by decide, by decide⟩
  extensions := some (0xAA55, 1)
  geometryKnown := true
  fails := fun call => if call = 0 then some ⟨0x80, fun _ => 0⟩ else none

/-- The read is made again without extensions: of sector 0x8005 in the place of sector 5. -/
theorem timeout_loads_other :
    ¬ ∀ disk, ∃ m', loadKernel slowBios disk 0x80 1 startMachine = some m' ∧
      Loaded disk (sectorCount 1).toNat m' := by
  rw [loaded_iff_sources startMachine (by decide)]
  intro h
  exact absurd (h 0 (by decide)) (by decide)

end Boot
end MiniDos
