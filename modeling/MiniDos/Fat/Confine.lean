import MiniDos.Drive.Table
import MiniDos.Lib.Confine
import MiniDos.Fat.Preempt

/-!
# MiniDos.Fat.Confine

Which sectors of a drive the driver writes, and where the controller puts them. Nothing compares a
sector with the size of the partition, so the answer depends on the boot sector alone: the driver
reaches up to the end of the last whole cluster, and up to the table entry of cluster 65535, since a
directory cluster handed to it is not checked before its entry is linked.

* `DriverCall.confined`: no call, with any arguments on any disk, writes beyond `Globals.reach`.
* `DriverCall.attains`: some call writes the last sector below it.
* `writes_owned_iff`: the writes stay in the partition exactly when `Globals.reach` does.
-/

namespace MiniDos
namespace Fat16

open BlockIO Drive

variable {c : Nat} {m : DriverMem}

/-- Sectors of a table copy that hold the entries of all 16-bit cluster numbers. -/
def FatType.entrySectors : FatType → Nat
  | .fat12 => 192
  | .fat16 => 256

/-- One past the last table sector written. -/
def Globals.tableReach (g : Globals) : Nat :=
  if g.getTotalClusters = 0 ∨ g.bpb.fatCount = 0 then 0
  else g.bpb.reservedSectors + (g.bpb.fatCount - 1) * g.bpb.sectorsPerFat + g.fatType.entrySectors

/-- One past the last sector written. -/
def Globals.reach (g : Globals) : Nat :=
  max (g.getDataStart + g.getTotalClusters * g.bpb.sectorsPerCluster) g.tableReach

/-- A call of the driver's interface, `fat16.h`. -/
inductive DriverCall where
  | call (c : FsCall)
  | createEntry (dir : Nat) (name : CStr) (firstCluster fileSize : Nat) (attributes : UInt8)
  | deleteEntry (dir : Nat) (name : CStr) (freeChain : Bool)
  | deleteMatching (dir : Nat) (pattern : CStr) (freeChain : Bool)
  | allocCluster
  | freeClusterChain (start : Nat)

def DriverCall.prog (g : Globals) (fuel : Nat) : DriverCall → DiskProg Unit
  | .call c => do
    let _ ← c.prog g fuel
    pure ()
  | .createEntry dir name firstCluster fileSize attributes => do
    let _ ← Fat16.createEntry g fuel dir name firstCluster fileSize attributes
    pure ()
  | .deleteEntry dir name freeChain => do
    let _ ← Fat16.deleteEntry g fuel dir name freeChain
    pure ()
  | .deleteMatching dir pattern freeChain => do
    let _ ← Fat16.deleteMatching g fuel dir pattern freeChain
    pure ()
  | .allocCluster => do
    let _ ← Fat16.allocCluster g
    pure ()
  | .freeClusterChain start => do
    let _ ← Fat16.freeClusterChain g start
    pure ()

/-- The program writes below the reach only, and `Q` holds of its result. -/
abbrev Below {α : Type} (g : Globals) (p : DiskProg α) (Q : α → Prop) : Prop :=
  p.Confined (fun lba => lba < g.reach) Q

def Globals.InReach (g : Globals) (lba : Nat) : Prop := g.bpb.reservedSectors ≤ lba ∧ lba < g.reach

abbrev Within {α : Type} (g : Globals) (p : DiskProg α) (Q : α → Prop) : Prop :=
  p.Confined g.InReach Q

section Reach

variable {g : Globals}

theorem tableReach_le : g.tableReach ≤ g.reach := Nat.le_max_right _ _

theorem root_lt_reach {k : Nat} (h : k < g.getRootDirSectors) : g.getRootDirStart + k < g.reach := by
  refine Nat.lt_of_lt_of_le ?_ (Nat.le_max_left _ _)
  unfold Globals.getDataStart
  omega

theorem root_inReach {k : Nat} (h : k < g.getRootDirSectors) :
    g.InReach (g.getRootDirStart + k) := by
  refine ⟨?_, root_lt_reach h⟩
  unfold Globals.getRootDirStart
  omega

theorem data_inReach {c k : Nat} (hc : g.isDataCluster c = true)
    (h : k < g.bpb.sectorsPerCluster) : g.InReach (g.clusterSector c + k) := by
  obtain ⟨h2, hmax⟩ := isDataCluster_iff.mp hc
  have hmul : (c - 2 + 1) * g.bpb.sectorsPerCluster ≤
      g.getTotalClusters * g.bpb.sectorsPerCluster := Nat.mul_le_mul_right _ (by omega)
  rw [Nat.add_mul, Nat.one_mul] at hmul
  constructor
  · unfold Globals.clusterSector Globals.getDataStart Globals.getRootDirStart
    omega
  · refine Nat.lt_of_lt_of_le ?_ (Nat.le_max_left _ _)
    unfold Globals.clusterSector
    omega

theorem table_inReach {c fat : Nat} (hn : g.getTotalClusters ≠ 0) (hc : c < 65536)
    (hf : fat < g.bpb.fatCount) :
    (g.fatType = .fat12 → g.InReach (g.bpb.reservedSectors + fat * g.bpb.sectorsPerFat +
        (c + c / 2) / sectorSize) ∧
      ((c + c / 2) % sectorSize = sectorSize - 1 → g.InReach (g.bpb.reservedSectors +
        fat * g.bpb.sectorsPerFat + (c + c / 2) / sectorSize + 1))) ∧
    (g.fatType = .fat16 → g.InReach (g.bpb.reservedSectors + fat * g.bpb.sectorsPerFat +
      c * 2 / sectorSize)) := by
  have hmul : fat * g.bpb.sectorsPerFat ≤ (g.bpb.fatCount - 1) * g.bpb.sectorsPerFat :=
    Nat.mul_le_mul_right _ (by omega)
  have hreach := tableReach_le (g := g)
  rw [Globals.tableReach, if_neg (by omega)] at hreach
  unfold Globals.InReach
  refine ⟨fun ht => ?_, fun ht => ?_⟩
  · rw [ht] at hreach
    simp only [FatType.entrySectors, sectorSize] at hreach ⊢
    constructor
    · omega
    · intro _
      omega
  · rw [ht] at hreach
    simp only [FatType.entrySectors, sectorSize] at hreach ⊢
    omega

end Reach

section Calls

variable {g : Globals} {S : Nat → Prop} (hsmall : g.getTotalClusters < 65525)

/-! ## The table -/

theorem readFatEntry_confined (c : Nat) : (readFatEntry g c).Confined S (fun _ => True) := by
  unfold readFatEntry
  cases g.fatType with
  | fat12 =>
    simp only [Prog.confined_bind, confined_readSector]
    intro ok
    refine .ite (fun _ => .ite (fun _ => ?_) (fun _ => ?_)) (fun _ => trivial)
    · simp only [Prog.confined_bind, confined_readSector]
      exact fun ok => .ite (fun _ => fun _ _ => trivial) (fun _ => trivial)
    · exact fun _ => trivial
  | fat16 =>
    simp only [Prog.confined_bind, confined_readSector]
    exact fun ok => .ite (fun _ => fun _ => trivial) (fun _ => trivial)

theorem writeFatCopy_within {c fat : Nat} (hn : g.getTotalClusters ≠ 0) (hc : c < 65536)
    (hf : fat < g.bpb.fatCount) (v : Nat) : Within g (writeFatCopy g c v fat) (fun _ => True) := by
  obtain ⟨h12, h16⟩ := table_inReach hn hc hf
  unfold Within writeFatCopy
  cases ht : g.fatType with
  | fat12 =>
    obtain ⟨hfirst, hsecond⟩ := h12 ht
    simp only [Prog.confined_bind, confined_readSector]
    intro ok
    refine .ite (fun _ => .ite (fun hoff => ?_) (fun _ => ?_)) (fun _ => trivial)
    · simp only [Prog.confined_bind, confined_readSector]
      refine fun ok => .ite (fun _ => ?_) (fun _ => trivial)
      simp only [Prog.confined_bind, confined_load, confined_store, confined_writeSector]
      exact fun _ _ => ⟨hfirst, fun ok => .ite (fun _ => ⟨hsecond hoff, fun _ => trivial⟩)
        (fun _ => trivial)⟩
    · simp only [Prog.confined_bind, confined_load, confined_store, confined_writeSector]
      exact fun _ => ⟨hfirst, fun _ => trivial⟩
  | fat16 =>
    simp only [Prog.confined_bind, confined_readSector]
    refine fun ok => .ite (fun _ => ?_) (fun _ => trivial)
    simp only [Prog.confined_bind, confined_load, confined_store, confined_writeSector]
    exact fun _ => ⟨h16 ht, fun _ => trivial⟩

theorem writeFatCopies_within (hn : g.getTotalClusters ≠ 0) (hc : c < 65536) (v : Nat) :
    ∀ n fat, fat + n ≤ g.bpb.fatCount → Within g (writeFatCopies g c v n fat) (fun _ => True) := by
  intro n
  induction n with
  | zero => exact fun _ _ => trivial
  | succ n ih =>
    intro fat hle
    refine (writeFatCopy_within hn hc (by omega) v).bind (fun ok _ => ?_)
    exact .ite (fun _ => ih (fat + 1) (by omega)) (fun _ => trivial)

theorem writeFatEntry_within (hn : g.getTotalClusters ≠ 0) (hc : c < 65536) (v : Nat) :
    Within g (writeFatEntry g c v) (fun _ => True) :=
  writeFatCopies_within hn hc v _ 0 (by omega)

theorem data_ne_zero (hc : g.isDataCluster c = true) : g.getTotalClusters ≠ 0 := by
  have := isDataCluster_iff.mp hc
  omega

abbrev Allocated (g : Globals) (r : Option Nat) : Prop := ∀ c, r = some c → g.isDataCluster c = true

include hsmall

theorem writeDataEntry_within (hc : g.isDataCluster c = true) (v : Nat) :
    Within g (writeFatEntry g c v) (fun _ => True) := by
  have := isDataCluster_iff.mp hc
  exact writeFatEntry_within (data_ne_zero hc) (by omega) v

theorem allocFrom_within : ∀ n c, 2 ≤ c → c + n ≤ g.getTotalClusters + 2 →
    Within g (allocFrom g n c) (Allocated g) := by
  intro n
  induction n with
  | zero =>
    intro c _ _ c' h
    cases h
  | succ n ih =>
    intro c h2 hle
    have hmod : c % 65536 = c := by omega
    have hdata : g.isDataCluster c = true := isDataCluster_iff.mpr (by omega)
    unfold allocFrom
    rw [hmod]
    refine (readFatEntry_confined c).bind (fun v _ => .ite (fun _ => ?_) (fun _ => ?_))
    · refine (writeDataEntry_within hsmall hdata _).bind (fun ok _ => .ite (fun _ => ?_) (fun _ => ?_))
      · exact fun c' h => Option.some.inj h ▸ hdata
      · exact fun c' h => by cases h
    · exact ih (c + 1) (by omega) (by omega)

theorem allocCluster_within : Within g (allocCluster g) (Allocated g) :=
  allocFrom_within hsmall _ 2 (by omega) (by omega)

theorem freeLoop_within : ∀ n c, Within g (freeLoop g n c) (fun _ => True) := by
  intro n
  induction n with
  | zero => exact fun _ => trivial
  | succ n ih =>
    intro c
    refine .ite (fun hc => (readFatEntry_confined c).bind (fun next _ => ?_)) (fun _ => trivial)
    refine (writeDataEntry_within hsmall hc 0).bind (fun ok _ => ?_)
    exact .ite (fun _ => .ite (fun _ => trivial) (fun _ => ih next)) (fun _ => trivial)

theorem freeClusterChain_within (start : Nat) :
    Within g (freeClusterChain g start) (fun _ => True) :=
  .ite (fun _ => trivial) (fun _ => freeLoop_within hsmall _ _)

theorem rollback_within (first : Nat) : Within g (rollback g first) (fun _ => True) :=
  .ite (fun _ => (freeClusterChain_within hsmall _).bind (fun _ _ => trivial)) (fun _ => trivial)

theorem linkCluster_within {prev next : Nat} (hp : g.isDataCluster prev = true)
    (hn : g.isDataCluster next = true) : Within g (linkCluster g prev next) (fun _ => True) :=
  (writeDataEntry_within hsmall hp _).bind (fun _ _ =>
    .ite (fun _ => writeDataEntry_within hsmall hn _) (fun _ => trivial))

omit hsmall

theorem zeroSectors_within (hc : g.isDataCluster c = true) :
    ∀ n s, s + n ≤ g.bpb.sectorsPerCluster →
      Within g (zeroSectors (g.clusterSector c) n s) (fun _ => True) := by
  intro n
  induction n with
  | zero => exact fun _ _ => trivial
  | succ n ih =>
    intro s hle
    unfold Within zeroSectors
    simp only [Prog.confined_bind, confined_store, confined_writeSector]
    exact ⟨data_inReach hc (by omega), fun ok => .ite (fun _ => ih (s + 1) (by omega))
      (fun _ => trivial)⟩

/-! ## Directories -/

theorem forSectors_confined {γ : Type} {body : Nat → DiskProg (Option γ)} {base w : Nat}
    {R : γ → Prop} (hb : ∀ k, k < w → (body (base + k)).Confined S (fun r => ∀ x ∈ r, R x)) :
    ∀ n s, s + n ≤ w → (forSectors base body n s).Confined S (fun r => ∀ x ∈ r, R x) := by
  intro n
  induction n with
  | zero =>
    intro s _ x hx
    cases hx
  | succ n ih =>
    intro s hle
    refine (hb s (by omega)).bind (fun r hr => ?_)
    cases r with
    | none => exact ih (s + 1) (by omega)
    | some x => exact hr

/-- A sector of a directory: of the root area or of a data cluster. -/
def DirSector (g : Globals) (lba : Nat) : Prop :=
  (∃ k < g.getRootDirSectors, lba = g.getRootDirStart + k) ∨
    ∃ c k, g.isDataCluster c = true ∧ k < g.bpb.sectorsPerCluster ∧ lba = g.clusterSector c + k

theorem DirSector.inReach {lba : Nat} (h : DirSector g lba) : g.InReach lba := by
  obtain ⟨k, hk, rfl⟩ | ⟨c, k, hc, hk, rfl⟩ := h
  · exact root_inReach hk
  · exact data_inReach hc hk

theorem whileDataCluster_confined {γ : Type} {body : Nat → DiskProg (Option γ)} {R : γ → Prop}
    (hb : ∀ lba, DirSector g lba → (body lba).Confined S (fun r => ∀ x ∈ r, R x)) :
    ∀ fuel c, (whileDataCluster g body fuel c).Confined S (fun r => ∀ x ∈ r, R x) := by
  intro fuel
  induction fuel with
  | zero =>
    intro c
    refine .ite (fun _ => trivial) (fun _ => ?_)
    intro x hx
    cases hx
  | succ fuel ih =>
    intro c
    refine .ite (fun hc => ?_) (fun _ => fun x hx => by cases hx)
    refine (forSectors_confined (fun k hk => hb _ (.inr ⟨c, k, hc, hk, rfl⟩)) _ 0 (by omega)).bind
      (fun r hr => ?_)
    cases r with
    | none => exact (readFatEntry_confined _).bind (fun next _ => ih next)
    | some x => exact hr

theorem forDirSectors_confined {γ : Type} {body : Nat → DiskProg (Option γ)} {R : γ → Prop}
    (hb : ∀ lba, DirSector g lba → (body lba).Confined S (fun r => ∀ x ∈ r, R x)) (fuel dir : Nat) :
    (forDirSectors g fuel dir body).Confined S (fun r => ∀ x ∈ r, R x) :=
  .ite (fun _ => forSectors_confined (fun k hk => hb _ (.inl ⟨k, hk, rfl⟩)) _ 0 (by omega))
    (fun _ => whileDataCluster_confined hb fuel dir)

abbrev FoundIn (g : Globals) (r : Option Located) : Prop := ∀ x ∈ r, DirSector g x.sector

theorem findEntryInternal_confined (fuel dir : Nat) (name : CStr) :
    (findEntryInternal g fuel dir name).Confined S (FoundIn g) := by
  refine (forDirSectors_confined (R := FoundIn g) (fun lba hl => ?_) fuel dir).bind (fun r hr => ?_)
  · unfold findBody
    simp only [Prog.confined_bind, confined_readSector]
    refine fun ok => .ite (fun _ => ?_) (fun _ => ?_)
    · simp only [Prog.confined_bind, confined_load]
      intro s
      cases scanSector (findVerdict name) s with
      | more => exact fun x hx => by cases hx
      | stopped => exact fun x hx y hy => by cases hx; cases hy
      | found i => exact fun x hx y hy => by cases hx; cases hy; exact hl
    · exact fun x hx y hy => by cases hx; cases hy
  · cases r with
    | none => exact fun x hx => by cases hx
    | some x => exact hr x rfl

theorem findEntry_confined (fuel dir : Nat) (name : CStr) :
    (findEntry g fuel dir name).Confined S (FoundIn g) :=
  .ite (fun _ => fun _ hx => nomatch hx) (fun _ => findEntryInternal_confined fuel dir name)

theorem findDirCluster_confined (fuel dir : Nat) (name : CStr) :
    (findDirCluster g fuel dir name).Confined S (fun _ => True) := by
  refine (findEntryInternal_confined fuel dir name).bind (fun r _ => ?_)
  cases r with
  | none => trivial
  | some x => exact .ite (fun _ => trivial) (fun _ => trivial)

theorem getParentCluster_confined (fuel dir : Nat) :
    (getParentCluster g fuel dir).Confined S (fun _ => True) :=
  .ite (fun _ => trivial) (fun _ => findDirCluster_confined fuel dir dotDot)

theorem editSector_within {sector : Nat} (hs : g.InReach sector) (f : Sector → Sector) :
    Within g (do
      let ok ← readSector .main sector
      if ok then do
        let s ← load .main
        store .main (f s)
        writeSector .main sector
      else pure false) (fun _ => True) := by
  simp only [Prog.confined_bind, confined_readSector]
  refine fun ok => .ite (fun _ => ?_) (fun _ => trivial)
  simp only [Prog.confined_bind, confined_load, confined_store, confined_writeSector]
  exact fun _ => ⟨hs, fun _ => trivial⟩

theorem writeDirEntryAt_within {sector : Nat} (hs : DirSector g sector) (index : Nat)
    (e : DirectoryEntry) : Within g (writeDirEntryAt sector index e) (fun _ => True) :=
  editSector_within hs.inReach _

theorem markDeleted_within {sector : Nat} (hs : DirSector g sector) (index : Nat) :
    Within g (markDeleted sector index) (fun _ => True) :=
  editSector_within hs.inReach _

theorem findFreeRootEntry_within : Within g (findFreeRootEntry g)
    (fun r => ∀ x ∈ r, DirSector g x.1) := by
  refine (forSectors_confined (R := fun r : Option (Nat × Nat) => ∀ x ∈ r, DirSector g x.1)
    (w := g.getRootDirSectors) (fun k hk => ?_) _ 0 (by omega)).bind (fun r hr => ?_)
  · unfold findFreeBody
    simp only [Prog.confined_bind, confined_readSector]
    refine fun ok => .ite (fun _ => ?_) (fun _ => fun x hx y hy => by cases hx; cases hy)
    simp only [Prog.confined_bind, confined_load]
    intro s
    cases scanSector freeVerdict s with
    | more => exact fun x hx => by cases hx
    | stopped => exact fun x hx => by cases hx
    | found i => exact fun x hx y hy => by cases hx; cases hy; exact .inl ⟨k, hk, rfl⟩
  · cases r with
    | none => exact fun x hx => by cases hx
    | some x => exact hr x rfl

theorem placeBody_within (e : DirectoryEntry) (lba : Nat) (hl : DirSector g lba) :
    Within g (placeBody e lba) (fun r => ∀ x ∈ r, True) := by
  unfold Within placeBody
  simp only [Prog.confined_bind, confined_readSector]
  refine fun ok => .ite (fun _ => ?_) (fun _ => fun _ _ => trivial)
  simp only [Prog.confined_bind, confined_load]
  intro s
  cases scanSector freeVerdict s with
  | more => exact fun _ _ => trivial
  | stopped => exact fun _ _ => trivial
  | found i =>
    simp only [Prog.confined_bind, confined_store, confined_writeSector]
    exact ⟨hl.inReach, fun _ _ _ => trivial⟩

theorem placeInChain_within (e : DirectoryEntry) : ∀ fuel c,
    Within g (placeInChain g e fuel c) (fun _ => True) := by
  intro fuel
  induction fuel with
  | zero => exact fun _ => .ite (fun _ => trivial) (fun _ => trivial)
  | succ fuel ih =>
    intro c
    refine .ite (fun hc => ?_) (fun _ => trivial)
    refine (forSectors_confined (w := g.bpb.sectorsPerCluster)
      (fun k hk => placeBody_within e _ (.inr ⟨c, k, hc, hk, rfl⟩)) _ 0 (by omega)).bind
      (fun r _ => ?_)
    cases r with
    | some x => trivial
    | none => exact (readFatEntry_confined _).bind (fun next _ =>
        .ite (fun _ => ih next) (fun _ => trivial))

theorem isDirectoryEmpty_confined (fuel dir : Nat) :
    (isDirectoryEmpty g fuel dir).Confined S (fun _ => True) := by
  refine .ite (fun _ => trivial) (fun _ => ?_)
  refine (whileDataCluster_confined (R := fun _ => True) (fun lba _ => ?_) fuel dir).bind
    (fun _ _ => trivial)
  unfold emptyBody
  simp only [Prog.confined_bind, confined_readSector]
  refine fun ok => .ite (fun _ => ?_) (fun _ => fun _ _ => trivial)
  simp only [Prog.confined_bind, confined_load]
  intro s
  cases scanSector emptyVerdict s with
  | more => exact fun _ _ => trivial
  | stopped => exact fun _ _ => trivial
  | found i => exact fun _ _ => trivial

theorem updateEntry_within (fuel dir : Nat) (oldName newName : CStr) (firstCluster fileSize : Nat)
    (attributes : UInt8) :
    Within g (updateEntry g fuel dir oldName newName firstCluster fileSize attributes)
      (fun _ => True) := by
  refine .ite (fun _ => trivial) (fun _ => ?_)
  cases formatName newName with
  | none => trivial
  | some name83 =>
    refine (findEntryInternal_confined fuel dir oldName).bind (fun current hcur => ?_)
    cases current with
    | none => trivial
    | some current =>
      have hwrite : Within g (do
          let ok ← readSector .main current.sector
          if ok then do
            let s ← load .main
            store .main (s.setEntry current.index
              (updatedEntry (s.entry current.index) name83 firstCluster fileSize attributes))
            writeSector .main current.sector
          else pure false) (fun _ => True) :=
        editSector_within (hcur current rfl).inReach _
      refine .ite (fun _ => hwrite)
        (fun _ => (findEntryInternal_confined fuel dir newName).bind (fun conflict _ => ?_))
      cases conflict with
      | some _ => trivial
      | none => exact hwrite

theorem initDirEntries_within (hc : g.isDataCluster c = true)
    (hspc : 0 < g.bpb.sectorsPerCluster) (parent : Nat) :
    Within g (initDirEntries g c parent) (fun _ => True) :=
  editSector_within (data_inReach hc hspc) _

include hsmall

theorem deleteEntry_within (fuel dir : Nat) (name : CStr) (freeChain : Bool) :
    Within g (deleteEntry g fuel dir name freeChain) (fun _ => True) := by
  refine .ite (fun _ => trivial) (fun _ => .ite (fun _ => trivial) (fun _ => ?_))
  refine (findEntryInternal_confined fuel dir name).bind (fun r hr => ?_)
  cases r with
  | none => trivial
  | some target =>
    have hmark := markDeleted_within (hr target rfl) target.index
    refine .ite (fun _ => trivial) (fun _ => .ite (fun _ => ?_) (fun _ => hmark))
    exact (freeClusterChain_within hsmall _).bind (fun ok _ => .ite (fun _ => hmark)
      (fun _ => trivial))

theorem sweepSlots_within (pattern : CStr) (freeChain : Bool) : ∀ n i deleted,
    Within g (sweepSlots g pattern freeChain n i deleted) (fun _ => True) := by
  intro n
  induction n with
  | zero => exact fun _ _ => trivial
  | succ n ih =>
    intro i deleted
    unfold Within sweepSlots
    simp only [Prog.confined_bind, confined_load]
    intro s
    refine .ite (fun _ => trivial) (fun _ => .ite (fun _ => ih _ _) (fun _ => .ite (fun _ => ih _ _)
      (fun _ => .ite (fun _ => ih _ _) (fun _ => ?_))))
    have hmark : ∀ ok : Bool, Within g ((if ok then do
          let s ← load .main
          store .main (s.setEntry i (deletedEntry (s.entry i)))
          sweepSlots g pattern freeChain n (i + 1) (deleted + 1)
        else pure .failed) : DiskProg Sweep) (fun _ => True) := by
      refine fun ok => .ite (fun _ => ?_) (fun _ => trivial)
      simp only [Prog.confined_bind, confined_load, confined_store]
      exact fun _ => ih _ _
    exact .ite (fun _ => (freeClusterChain_within hsmall _).bind (fun ok _ => hmark ok))
      (fun _ => hmark true)

theorem sweepSectors_within (pattern : CStr) (freeChain : Bool) {base w : Nat}
    (hb : ∀ k, k < w → g.InReach (base + k)) : ∀ n k deleted, k + n ≤ w →
      Within g (sweepSectors g pattern freeChain base n k deleted) (fun _ => True) := by
  intro n
  induction n with
  | zero => exact fun _ _ _ => trivial
  | succ n ih =>
    intro k deleted hle
    unfold Within sweepSectors
    simp only [Prog.confined_bind, confined_readSector]
    refine fun ok => .ite (fun _ => ?_) (fun _ => trivial)
    refine (sweepSlots_within hsmall pattern freeChain _ _ _).bind (fun r _ => ?_)
    cases r with
    | endMark deleted => trivial
    | failed => trivial
    | done deleted =>
      simp only [Prog.confined_bind, confined_writeSector]
      exact ⟨hb k (by omega), fun ok => .ite (fun _ => ih _ _ (by omega)) (fun _ => trivial)⟩

theorem sweepClusters_within (pattern : CStr) (freeChain : Bool) : ∀ fuel c deleted,
    Within g (sweepClusters g pattern freeChain fuel c deleted) (fun _ => True) := by
  intro fuel
  induction fuel with
  | zero => exact fun _ _ => .ite (fun _ => trivial) (fun _ => trivial)
  | succ fuel ih =>
    intro c deleted
    refine .ite (fun hc => ?_) (fun _ => trivial)
    refine (sweepSectors_within hsmall pattern freeChain (fun k hk => data_inReach hc hk) _ 0 _
      (by omega)).bind (fun r _ => ?_)
    cases r with
    | ok r => trivial
    | error deleted => exact (readFatEntry_confined _).bind (fun next _ => ih next deleted)

theorem deleteMatching_within (fuel dir : Nat) (pattern : CStr) (freeChain : Bool) :
    Within g (deleteMatching g fuel dir pattern freeChain) (fun _ => True) := by
  refine .ite (fun _ => trivial) (fun _ => .ite (fun _ => ?_)
    (fun _ => sweepClusters_within hsmall pattern freeChain fuel dir 0))
  refine (sweepSectors_within hsmall pattern freeChain (fun k hk => root_inReach hk) _ 0 _
    (by omega)).bind (fun r _ => ?_)
  cases r with
  | ok r => trivial
  | error deleted => trivial

theorem rmdir_within (fuel dir : Nat) (name : CStr) :
    Within g (rmdir g fuel dir name) (fun _ => True) := by
  refine .ite (fun _ => trivial) (fun _ => .ite (fun _ => trivial) (fun _ => ?_))
  refine (findEntryInternal_confined fuel dir name).bind (fun r hr => ?_)
  cases r with
  | none => trivial
  | some target =>
    refine .ite (fun _ => trivial) (fun _ => .ite (fun _ => trivial) (fun _ => ?_))
    refine (isDirectoryEmpty_confined fuel _).bind (fun ok _ => .ite (fun _ => ?_) (fun _ => trivial))
    refine (freeClusterChain_within hsmall _).bind (fun ok _ => .ite (fun _ => ?_) (fun _ => trivial))
    exact markDeleted_within (hr target rfl) target.index

variable (hspc : 0 < g.bpb.sectorsPerCluster)

include hspc

theorem growDir_within (last : Nat) (e : DirectoryEntry) :
    Within g (growDir g last e) (fun _ => True) := by
  refine (allocCluster_within hsmall).bind (fun r hr => ?_)
  cases r with
  | none => trivial
  | some c =>
    have hc := hr c rfl
    refine (writeFatEntry_within (data_ne_zero hc) (Nat.mod_lt _ (by omega)) c).bind
      (fun ok _ => .ite (fun _ => ?_) (fun _ => trivial))
    refine (writeDataEntry_within hsmall hc _).bind
      (fun ok _ => .ite (fun _ => ?_) (fun _ => trivial))
    refine (zeroSectors_within hc _ 0 (by omega)).bind
      (fun ok _ => .ite (fun _ => ?_) (fun _ => trivial))
    exact writeDirEntryAt_within (.inr ⟨c, 0, hc, hspc, rfl⟩) 0 e

theorem addDirEntry_within (fuel dir : Nat) (name : Name) (cluster fileSize : Nat)
    (attributes : UInt8) :
    Within g (addDirEntry g fuel dir name cluster fileSize attributes) (fun _ => True) := by
  refine .ite (fun _ => findFreeRootEntry_within.bind (fun r hr => ?_))
    (fun _ => (placeInChain_within _ fuel dir).bind (fun r _ => ?_))
  · cases r with
    | none => trivial
    | some x => exact writeDirEntryAt_within (hr x rfl) x.2 _
  · cases r with
    | ok r => trivial
    | error last => exact growDir_within hsmall hspc last _

theorem createEntry_within (fuel dir : Nat) (name : CStr) (firstCluster fileSize : Nat)
    (attributes : UInt8) :
    Within g (createEntry g fuel dir name firstCluster fileSize attributes) (fun _ => True) := by
  refine .ite (fun _ => trivial) (fun _ => ?_)
  cases formatName name with
  | none => trivial
  | some name83 =>
    refine (findEntryInternal_confined fuel dir name).bind (fun existing _ => ?_)
    cases existing with
    | some _ => trivial
    | none => exact addDirEntry_within hsmall hspc fuel dir name83 _ _ _

theorem mkdir_within (fuel dir : Nat) (name : CStr) :
    Within g (mkdir g fuel dir name) (fun _ => True) := by
  unfold mkdir
  cases formatName name with
  | none => trivial
  | some name83 =>
    have hfind : Within g (findDirCluster g fuel dir name) (fun _ => True) := by
      refine (findEntryInternal_confined fuel dir name).bind (fun r _ => ?_)
      cases r with
      | none => trivial
      | some found => exact .ite (fun _ => trivial) (fun _ => trivial)
    refine hfind.bind (fun existing _ => ?_)
    cases existing with
    | some _ => trivial
    | none =>
      refine (allocCluster_within hsmall).bind (fun r hr => ?_)
      cases r with
      | none => trivial
      | some c =>
        have hc := hr c rfl
        refine (zeroSectors_within hc _ 0 (by omega)).bind
          (fun ok _ => .ite (fun _ => ?_) (fun _ => trivial))
        refine (initDirEntries_within hc hspc dir).bind
          (fun ok _ => .ite (fun _ => ?_) (fun _ => trivial))
        exact addDirEntry_within hsmall hspc fuel dir name83 c 0 attrDirectory

/-! ## Files -/

omit hsmall hspc in
theorem writeSectors_within (data : Nat → Byte) (hc : g.isDataCluster c = true) :
    ∀ n s offset remaining, s + n ≤ g.bpb.sectorsPerCluster →
      Within g (writeSectors data (g.clusterSector c) n s offset remaining) (fun _ => True) := by
  intro n
  induction n with
  | zero => exact fun _ _ _ _ => trivial
  | succ n ih =>
    intro s offset remaining hle
    unfold Within writeSectors
    simp only [Prog.confined_bind, confined_store, confined_writeSector]
    exact ⟨data_inReach hc (by omega), fun ok => .ite (fun _ => ih _ _ _ (by omega))
      (fun _ => trivial)⟩

omit hspc in
theorem writeLoop_within (data : Nat → Byte) : ∀ n st,
    (2 ≤ st.prev → g.isDataCluster st.prev = true) →
      Within g (writeLoop g data n st) (fun _ => True) := by
  intro n
  induction n with
  | zero => exact fun _ _ => trivial
  | succ n ih =>
    intro st hprev
    unfold writeLoop
    refine .ite (fun _ => trivial) (fun _ => (allocCluster_within hsmall).bind (fun r hr => ?_))
    cases r with
    | none => exact (rollback_within hsmall _).bind (fun _ _ => trivial)
    | some cluster =>
      have hc := hr cluster rfl
      refine .ite (fun h2 => ?_) (fun _ => ?_)
      · refine (linkCluster_within hsmall (hprev h2) hc).bind (fun ok _ => .ite (fun _ => ?_)
          (fun _ => (freeClusterChain_within hsmall _).bind (fun _ _ => trivial)))
        refine (writeSectors_within data hc _ 0 _ _ (by omega)).bind (fun r _ => ?_)
        cases r with
        | none => exact (freeClusterChain_within hsmall _).bind (fun _ _ => trivial)
        | some r => exact ih _ (fun _ => hc)
      · refine (writeSectors_within data hc _ 0 _ _ (by omega)).bind (fun r _ => ?_)
        cases r with
        | none => exact (freeClusterChain_within hsmall _).bind (fun _ _ => trivial)
        | some r => exact ih _ (fun _ => hc)

theorem writeFileFromDir_within (fuel dir : Nat) (name : CStr) (buffer : Option (Nat → Byte))
    (size : Int) : Within g (writeFileFromDir g fuel dir name buffer size) (fun _ => True) := by
  refine .ite (fun _ => trivial) (fun _ => .ite (fun _ => trivial) (fun _ => .ite (fun _ => trivial)
    (fun _ => (findEntryInternal_confined fuel dir name).bind (fun existing _ =>
      .ite (fun _ => trivial) (fun _ => ?_)))))
  refine (writeLoop_within hsmall _ _ _ (fun h : 2 ≤ 0 => absurd h (by decide))).bind
    (fun r _ => ?_)
  cases r with
  | none => trivial
  | some st =>
    have hcommit : ∀ size,
        Within g (commitEntry g fuel dir name existing st.newFirst size) (fun _ => True) := by
      intro size
      cases existing with
      | some found => exact updateEntry_within fuel dir name name _ _ _
      | none => exact createEntry_within hsmall hspc fuel dir name _ _ _
    refine .ite (fun _ => (rollback_within hsmall _).bind (fun _ _ => trivial))
      (fun _ => (hcommit _).bind (fun ok _ => .ite (fun _ => ?_) (fun _ => ?_)))
    · exact .ite (fun _ => freeClusterChain_within hsmall _) (fun _ => trivial)
    · exact (rollback_within hsmall _).bind (fun _ _ => trivial)

omit hsmall hspc in
theorem copySectors_within (src : Nat) {dst : Nat} (hdst : g.isDataCluster dst = true) :
    ∀ n s remaining, s + n ≤ g.bpb.sectorsPerCluster →
      Within g (copySectors src (g.clusterSector dst) n s remaining) (fun _ => True) := by
  intro n
  induction n with
  | zero => exact fun _ _ _ => trivial
  | succ n ih =>
    intro s remaining hle
    refine .ite (fun _ => ?_) (fun _ => trivial)
    simp only [Prog.confined_bind, confined_readSector]
    refine fun ok => .ite (fun _ => ?_) (fun _ => trivial)
    simp only [Prog.confined_bind, confined_writeSector]
    exact ⟨data_inReach hdst (by omega), fun ok => .ite (fun _ => ih _ _ (by omega))
      (fun _ => trivial)⟩

omit hspc in
theorem copyLoop_within (dstFirst : Nat) : ∀ n src dst remaining,
    (remaining ≠ 0 → g.isDataCluster dst = true) →
      Within g (copyLoop g dstFirst n src dst remaining) (fun _ => True) := by
  intro n
  induction n with
  | zero => exact fun _ _ _ _ => trivial
  | succ n ih =>
    intro src dst remaining hdst
    unfold copyLoop
    refine .ite (fun _ => trivial) (fun hrem => ?_)
    refine (copySectors_within _ (hdst hrem) _ 0 _ (by omega)).bind (fun r _ => ?_)
    cases r with
    | none => exact (rollback_within hsmall _).bind (fun _ _ => trivial)
    | some remaining =>
      refine .ite (fun _ => (readFatEntry_confined src).bind (fun next _ => .ite (fun _ => ?_)
        (fun _ => (rollback_within hsmall _).bind (fun _ _ => trivial))))
        (fun _ => ih _ _ _ (fun _ => hdst hrem))
      refine (allocCluster_within hsmall).bind (fun r hr => ?_)
      cases r with
      | none => exact (rollback_within hsmall _).bind (fun _ _ => trivial)
      | some nextDst =>
        refine (linkCluster_within hsmall (hdst hrem) (hr nextDst rfl)).bind
          (fun ok _ => .ite (fun _ => ih _ _ _ (fun _ => hr nextDst rfl)) (fun _ => ?_))
        exact (freeClusterChain_within hsmall _).bind (fun _ _ =>
          (rollback_within hsmall _).bind (fun _ _ => trivial))

theorem copyContents_within (fuel : Nat) (e : DirectoryEntry) (dstDir : Nat) (dstName : CStr)
    {dstFirst : Nat} (hdst : e.fileSize.toNat ≠ 0 → g.isDataCluster dstFirst = true) :
    Within g (copyContents g fuel e dstDir dstName dstFirst) (fun _ => True) := by
  refine (copyLoop_within hsmall dstFirst _ _ _ _ hdst).bind (fun r _ => ?_)
  cases r with
  | none => trivial
  | some remaining =>
    refine .ite (fun _ => (rollback_within hsmall _).bind (fun _ _ => trivial)) (fun _ => ?_)
    refine (createEntry_within hsmall hspc fuel dstDir dstName _ _ _).bind
      (fun ok _ => .ite (fun _ => trivial) (fun _ => ?_))
    exact (rollback_within hsmall _).bind (fun _ _ => trivial)

theorem copyFileBetweenDirs_within (fuel srcDir : Nat) (srcName : CStr) (dstDir : Nat)
    (dstName : CStr) :
    Within g (copyFileBetweenDirs g fuel srcDir srcName dstDir dstName) (fun _ => True) := by
  refine .ite (fun _ => trivial) (fun _ => ?_)
  cases formatName srcName with
  | none => trivial
  | some src83 =>
    cases formatName dstName with
    | none => trivial
    | some dst83 =>
      refine .ite (fun _ => trivial) (fun _ => ?_)
      refine (findEntryInternal_confined fuel srcDir srcName).bind (fun r _ => ?_)
      cases r with
      | none => trivial
      | some src =>
        refine .ite (fun _ => trivial) (fun _ => ?_)
        refine (findEntryInternal_confined fuel dstDir dstName).bind (fun r _ => ?_)
        cases r with
        | some _ => trivial
        | none =>
          refine .ite (fun _ => .ite (fun _ => trivial) (fun _ => ?_)) (fun hsize => ?_)
          · refine (allocCluster_within hsmall).bind (fun r hr => ?_)
            cases r with
            | none => trivial
            | some dstFirst =>
              exact copyContents_within hsmall hspc fuel _ dstDir dstName (fun _ => hr dstFirst rfl)
          · exact copyContents_within hsmall hspc fuel _ dstDir dstName (fun h => absurd h (by omega))

omit hsmall hspc in
/-- No more bytes than there is room for. -/
theorem readFileFromDir_confined (fuel dir : Nat) (name : CStr) (maxSize : Nat) :
    (readFileFromDir g fuel dir name maxSize).Confined S (fun out => out.length ≤ maxSize) := by
  have hsectors : ∀ base n s out fileSize, out.length ≤ maxSize →
      (readSectors base maxSize n s out fileSize).Confined S (fun r => r.1.length ≤ maxSize) := by
    intro base n
    induction n with
    | zero => exact fun _ _ _ hout => hout
    | succ n ih =>
      intro s out fileSize hout
      refine .ite (fun _ => ?_) (fun _ => hout)
      simp only [Prog.confined_bind, confined_readSector]
      unfold copyBytes
      refine fun _ => .ite (fun _ => ih _ _ _ hout) (fun _ => ?_)
      simp only [Prog.confined_bind, confined_load]
      refine fun buf => ih _ _ _ ?_
      rw [List.length_append, List.length_map, List.length_range]
      omega
  have hclusters : ∀ fuel c out fileSize, out.length ≤ maxSize →
      (readClusters g maxSize fuel c out fileSize).Confined S (fun out => out.length ≤ maxSize) := by
    intro fuel
    induction fuel with
    | zero => exact fun _ _ _ hout => .ite (fun _ => trivial) (fun _ => hout)
    | succ fuel ih =>
      intro c out fileSize hout
      refine .ite (fun _ => (hsectors _ _ _ _ _ hout).bind (fun r hr => ?_)) (fun _ => hout)
      exact (readFatEntry_confined _).bind (fun next _ => ih _ _ _ hr)
  refine (forDirSectors_confined (R := fun out => out.length ≤ maxSize) (fun lba _ => ?_)
    fuel dir).bind (fun r hr => ?_)
  · unfold readBody
    simp only [Prog.confined_bind, confined_readSector, confined_load]
    intro _ s
    cases scanSector (readVerdict name) s with
    | more => exact fun x hx => by cases hx
    | stopped =>
      intro x hx
      cases hx
      exact Nat.zero_le _
    | found i =>
      simp only [Prog.confined_bind]
      refine (hclusters fuel _ _ _ (Nat.zero_le _)).mono (fun _ h => h) (fun out hout x hx => ?_)
      cases hx
      exact hout
  · cases r with
    | none => exact Nat.zero_le _
    | some out => exact hr out rfl

omit hsmall hspc in
theorem getEntryByIndex_confined (fuel dir index : Nat) :
    (getEntryByIndex g fuel dir index).Confined S (fun r => ∀ x ∈ r, x.1.length ≤ 12) := by
  have hsectors : ∀ base n k current,
      (indexSectors index base n k current).Confined S (fun _ => True) := by
    intro base n
    induction n with
    | zero => exact fun _ _ => trivial
    | succ n ih =>
      intro k current
      unfold indexSectors
      simp only [Prog.confined_bind, confined_readSector]
      refine fun ok => .ite (fun _ => ?_) (fun _ => trivial)
      simp only [Prog.confined_bind, confined_load]
      intro s
      cases indexFrom index s entriesPerSector 0 current with
      | ok r =>
        cases r with
        | none => trivial
        | some i => trivial
      | error current => exact ih _ _
  have hclusters : ∀ fuel c current,
      (indexClusters g index fuel c current).Confined S (fun _ => True) := by
    intro fuel
    induction fuel with
    | zero => exact fun _ _ => .ite (fun _ => trivial) (fun _ => trivial)
    | succ fuel ih =>
      intro c current
      refine .ite (fun _ => (hsectors _ _ _ _).bind (fun r _ => ?_)) (fun _ => trivial)
      cases r with
      | ok r => trivial
      | error current => exact (readFatEntry_confined _).bind (fun next _ => ih _ _)
  have hname : ∀ r : Option DirectoryEntry, ∀ x ∈ r.map (fun e =>
      (buildDisplayName e, e.isDirectory, e.fileSize.toNat)), x.1.length ≤ 12 := by
    intro r x hx
    obtain ⟨e, _, rfl⟩ := Option.map_eq_some_iff.mp hx
    exact buildDisplayName_length e
  refine .ite (fun _ => (hsectors _ _ _ _).bind (fun r _ => ?_))
    (fun _ => (hclusters fuel dir 0).bind (fun r _ => hname r))
  cases r with
  | ok r => exact hname r
  | error current => exact hname none

/-! ## All calls -/

theorem FsCall.within (fuel : Nat) (c : FsCall) : Within g (c.prog g fuel) (fun _ => True) := by
  cases c with
  | change op =>
    refine Prog.Confined.bind (R := fun _ => True) ?_ (fun _ _ => trivial)
    cases op with
    | writeFileFromDir dir name buffer size =>
      exact writeFileFromDir_within hsmall hspc fuel dir name buffer size
    | deleteEntry dir name => exact deleteEntry_within hsmall fuel dir name true
    | copyFileBetweenDirs srcDir srcName dstDir dstName =>
      exact copyFileBetweenDirs_within hsmall hspc fuel srcDir srcName dstDir dstName
    | mkdir dir name => exact mkdir_within hsmall hspc fuel dir name
    | rmdir dir name => exact rmdir_within hsmall fuel dir name
    | updateEntry dir oldName newName firstCluster fileSize attributes =>
      exact updateEntry_within fuel dir oldName newName _ _ _
  | deleteMatching dir pattern =>
    exact (deleteMatching_within hsmall fuel dir pattern true).bind (fun _ _ => trivial)
  | readFile dir name maxSize =>
    exact (readFileFromDir_confined fuel dir name maxSize).bind (fun _ _ => trivial)
  | findEntry dir name =>
    exact (findEntry_confined fuel dir name).bind (fun _ _ => trivial)
  | getEntry dir index => exact (getEntryByIndex_confined fuel dir index).bind (fun _ _ => trivial)

theorem DriverCall.within (fuel : Nat) (c : DriverCall) :
    Within g (c.prog g fuel) (fun _ => True) := by
  cases c with
  | call c => exact (c.within hsmall hspc fuel).bind (fun _ _ => trivial)
  | createEntry dir name firstCluster fileSize attributes =>
    exact (createEntry_within hsmall hspc fuel dir name _ _ _).bind (fun _ _ => trivial)
  | deleteEntry dir name freeChain =>
    exact (deleteEntry_within hsmall fuel dir name freeChain).bind (fun _ _ => trivial)
  | deleteMatching dir pattern freeChain =>
    exact (deleteMatching_within hsmall fuel dir pattern freeChain).bind (fun _ _ => trivial)
  | allocCluster => exact (allocCluster_within hsmall).bind (fun _ _ => trivial)
  | freeClusterChain start => exact (freeClusterChain_within hsmall start).bind (fun _ _ => trivial)

theorem DriverCall.confined (fuel : Nat) (c : DriverCall) :
    Below g (c.prog g fuel) (fun _ => True) :=
  (c.within hsmall hspc fuel).mono (fun _ h => h.2) (fun _ h => h)

end Calls

/-! ## The last sector is written -/

section Attained

variable {g : Globals}

/-- A directory sector in which every slot was deleted. -/
def usedUp : Sector := fun _ => 0xE5

theorem sweepSlots_usedUp (pattern : CStr) (freeChain : Bool)
    (hm : m.buf .main = usedUp) : ∀ n i deleted,
      (sweepSlots g pattern freeChain n i deleted).run noFaults m = some (.done deleted, m) := by
  intro n
  induction n with
  | zero => exact fun _ _ => rfl
  | succ n ih =>
    intro i deleted
    show (if (Sector.entry (m.buf .main) i).isEnd then _ else _ : DiskProg Sweep).run noFaults m = _
    rw [hm]
    exact ih (i + 1) deleted

theorem sweepSectors_usedUp (pattern : CStr) (freeChain : Bool) (base : Nat) :
    ∀ n k deleted (m : DriverMem), m.disk = (fun _ => usedUp) →
      base + (k + n) ∈ (sweepSectors g pattern freeChain base (n + 1) k deleted).targets noFaults m := by
  intro n
  induction n with
  | zero =>
    intro k deleted m hm
    refine Prog.targets_bind_right _ (show (readSector .main (base + k)).run noFaults m =
      some (true, m.fetch .main (base + k)) from rfl) ?_
    refine Prog.targets_bind_right _ (sweepSlots_usedUp pattern freeChain (by simp [hm]) _ _ _) ?_
    exact Prog.targets_bind_left noFaults _ _ _ (List.mem_cons_self ..)
  | succ n ih =>
    intro k deleted m hm
    have hbuf : (m.fetch .main (base + k)).buf .main = usedUp := by simp [hm]
    refine Prog.targets_bind_right _ (show (readSector .main (base + k)).run noFaults m =
      some (true, m.fetch .main (base + k)) from rfl) ?_
    refine Prog.targets_bind_right _ (sweepSlots_usedUp pattern freeChain hbuf _ _ _) ?_
    refine Prog.targets_bind_right _ (show (writeSector .main (base + k)).run noFaults _ =
      some (true, (m.fetch .main (base + k)).flush .main (base + k)) from rfl) ?_
    rw [show k + (n + 1) = k + 1 + n by omega]
    refine ih (k + 1) deleted _ ?_
    simp only [Mem.flush_disk, hbuf, Mem.fetch_disk, hm]
    exact putSector_same (fun _ => usedUp) (base + k)

theorem writeFatCopy_run (c v fat : Nat) (m : DriverMem) :
    ∃ m', (writeFatCopy g c v fat).run noFaults m = some (true, m') := by
  have h : (writeFatCopy g c v fat).wp (Ctx.total (fun _ => True)) (fun ok _ => ok = true) m := by
    unfold writeFatCopy
    cases g.fatType with
    | fat12 =>
      simp only [Prog.wp_bind, wp_readSector, Ctx.total, false_imp_iff, true_and, if_true]
      split
      · simp only [Prog.wp_bind, wp_readSector, wp_load, wp_store, wp_writeSector, false_imp_iff,
          true_and, if_true]
      · simp only [Prog.wp_bind, wp_load, wp_store, wp_writeSector, false_imp_iff, true_and]
    | fat16 =>
      simp only [Prog.wp_bind, wp_readSector, wp_load, wp_store, wp_writeSector, Ctx.total,
        false_imp_iff, true_and, if_true]
  obtain ⟨hpost, hback⟩ := Prog.run_of_wp noFaults (fun _ hf => by cases hf) h
  obtain ⟨ok, m', hrun⟩ := hback (fun hd => hd)
  have hok := hpost ok m' hrun
  subst hok
  exact ⟨m', hrun⟩

theorem writeFatCopies_run (c v : Nat) : ∀ n fat (m : DriverMem),
    ∃ m', (writeFatCopies g c v n fat).run noFaults m = some (true, m') := by
  intro n
  induction n with
  | zero => exact fun _ m => ⟨m, rfl⟩
  | succ n ih =>
    intro fat m
    obtain ⟨m₁, h₁⟩ := writeFatCopy_run (g := g) c v fat m
    obtain ⟨m₂, h₂⟩ := ih (fat + 1) m₁
    exact ⟨m₂, Prog.run_bind h₁ h₂⟩

theorem writeFatCopy_top (v fat : Nat) (m : DriverMem) :
    g.bpb.reservedSectors + fat * g.bpb.sectorsPerFat + g.fatType.entrySectors - 1 ∈
      (writeFatCopy g 65535 v fat).targets noFaults m := by
  unfold writeFatCopy
  cases g.fatType with
  | fat12 => exact List.mem_cons_self ..
  | fat16 => exact List.mem_cons_self ..

theorem writeFatCopies_top (v : Nat) : ∀ n fat (m : DriverMem),
    g.bpb.reservedSectors + (fat + n) * g.bpb.sectorsPerFat + g.fatType.entrySectors - 1 ∈
      (writeFatCopies g 65535 v (n + 1) fat).targets noFaults m := by
  intro n
  induction n with
  | zero => exact fun fat m => Prog.targets_bind_left noFaults _ _ _ (writeFatCopy_top v fat m)
  | succ n ih =>
    intro fat m
    obtain ⟨m₁, h₁⟩ := writeFatCopy_run (g := g) 65535 v fat m
    refine Prog.targets_bind_right _ h₁ ?_
    rw [show fat + (n + 1) = fat + 1 + n by omega]
    exact ih (fat + 1) m₁

theorem allocCluster_zero (hn : g.getTotalClusters ≠ 0)
    (hm : m.disk = (fun _ => Sector.zero)) :
    ∃ m', (allocCluster g).run noFaults m = some (some 2, m') := by
  have hfree : ∃ m', (readFatEntry g 2).run noFaults m = some (0, m') := by
    have hget : ∀ lba i, Sector.get (m.disk lba) i = 0 := fun lba i => by rw [hm]; rfl
    refine ⟨m.fetch .main g.bpb.reservedSectors, ?_⟩
    unfold readFatEntry
    cases g.fatType with
    | fat12 =>
      show some (fat12Value 2 (bytePair (Sector.get ((m.fetch .main _).buf .main) 3)
        (Sector.get ((m.fetch .main _).buf .main) 4)), _) = _
      simp only [Mem.fetch_buf, hget]
      rfl
    | fat16 =>
      show some (Sector.word ((m.fetch .main _).buf .main) 4, _) = _
      simp only [Mem.fetch_buf, Sector.word, hget]
      rfl
  obtain ⟨m₁, h₁⟩ := hfree
  obtain ⟨m₂, h₂⟩ := writeFatCopies_run (g := g) 2 g.endOfChainValue g.bpb.fatCount 0 m₁
  obtain ⟨n, hn'⟩ := Nat.exists_eq_succ_of_ne_zero hn
  refine ⟨m₂, ?_⟩
  unfold allocCluster
  rw [hn']
  exact Prog.run_bind h₁ (Prog.run_bind h₂ rfl)

theorem createEntry_top (hn : g.getTotalClusters ≠ 0) (hf : g.bpb.fatCount ≠ 0)
    (hsmall : g.getTotalClusters < 65525)
    (hm : m.disk = (fun _ => Sector.zero)) :
    g.tableReach - 1 ∈ (createEntry g 0 65535 [0x41] 0 0 0).targets noFaults m := by
  have hout : g.isDataCluster 65535 = false := by
    rw [Bool.eq_false_iff]
    intro h
    have := isDataCluster_iff.mp h
    omega
  have hlook : (findEntryInternal g 0 65535 [0x41]).run noFaults m = some (none, m) := by
    refine Prog.run_bind (show _ = some (none, m) from ?_) rfl
    simp [forDirSectors, whileDataCluster, hout, Prog.run, pure]
  have hplace : ∀ e, (placeInChain g e 0 65535).run noFaults m = some (.error 65535, m) := by
    intro e
    simp [placeInChain, hout, Prog.run, pure]
  obtain ⟨m₁, h₁⟩ := allocCluster_zero hn hm
  obtain ⟨n, hn'⟩ := Nat.exists_eq_succ_of_ne_zero hf
  refine Prog.targets_bind_right _ hlook (Prog.targets_bind_right _ (hplace _)
    (Prog.targets_bind_right _ h₁ (Prog.targets_bind_left noFaults _ _ _ ?_)))
  have hreach : g.tableReach - 1 = g.bpb.reservedSectors + (0 + n) * g.bpb.sectorsPerFat +
      g.fatType.entrySectors - 1 := by
    rw [Globals.tableReach, if_neg (by omega), hn', Nat.zero_add, Nat.succ_sub_one]
  rw [hreach]
  unfold writeFatEntry
  rw [hn']
  exact writeFatCopies_top 2 n 0 m₁

/-- Some call writes the last sector below the reach. -/
theorem DriverCall.attains (hspc : 0 < g.bpb.sectorsPerCluster) (hroot : 0 < g.getRootDirSectors)
    (hsmall : g.getTotalClusters < 65525) :
    ∃ (c : DriverCall) (fuel : Nat) (m : DriverMem),
      g.reach - 1 ∈ (c.prog g fuel).targets noFaults m := by
  let worn : DriverMem := { buf := fun _ => usedUp, disk := fun _ => usedUp }
  by_cases htop : g.tableReach ≤ g.getDataStart + g.getTotalClusters * g.bpb.sectorsPerCluster
  · have hreach : g.reach = g.getDataStart + g.getTotalClusters * g.bpb.sectorsPerCluster :=
      Nat.max_eq_left htop
    by_cases hn : g.getTotalClusters = 0
    · -- the root directory is swept to its end
      refine ⟨.deleteMatching 0 [0x41] false, 0, worn, Prog.targets_bind_left noFaults _ _ _ ?_⟩
      refine Prog.targets_bind_left noFaults _ _ _ ?_
      have hlast : g.reach - 1 = g.getRootDirStart + (0 + (g.getRootDirSectors - 1)) := by
        rw [hreach, hn, Globals.getDataStart]
        omega
      rw [hlast, show g.getRootDirSectors = g.getRootDirSectors - 1 + 1 by omega]
      exact sweepSectors_usedUp [0x41] false g.getRootDirStart _ 0 0 worn rfl
    · -- the last cluster is swept as a directory
      have hdata : g.isDataCluster (g.getTotalClusters + 1) = true :=
        isDataCluster_iff.mpr (by omega)
      have hsweep : Fat16.deleteMatching g 1 (g.getTotalClusters + 1) [0x41] false =
          sweepClusters g [0x41] false 1 (g.getTotalClusters + 1) 0 := by
        unfold Fat16.deleteMatching
        rw [if_neg (by decide), if_neg (Nat.succ_ne_zero _)]
      refine ⟨.deleteMatching (g.getTotalClusters + 1) [0x41] false, 1, worn,
        Prog.targets_bind_left noFaults _ _ _ ?_⟩
      rw [hsweep]
      unfold sweepClusters
      rw [if_pos hdata]
      refine Prog.targets_bind_left noFaults _ _ _ ?_
      have hlast : g.reach - 1 = g.clusterSector (g.getTotalClusters + 1) +
          (0 + (g.bpb.sectorsPerCluster - 1)) := by
        have hmul : g.getTotalClusters * g.bpb.sectorsPerCluster =
            (g.getTotalClusters - 1) * g.bpb.sectorsPerCluster + g.bpb.sectorsPerCluster := by
          rw [← Nat.succ_mul]
          congr 1
          omega
        rw [hreach, hmul, Globals.clusterSector,
          show g.getTotalClusters + 1 - 2 = g.getTotalClusters - 1 by omega]
        omega
      rw [hlast, show g.bpb.sectorsPerCluster = g.bpb.sectorsPerCluster - 1 + 1 by omega]
      exact sweepSectors_usedUp [0x41] false _ _ 0 0 worn rfl
  · -- the table of the last cluster number lies beyond the data area
    have hboth : ¬ (g.getTotalClusters = 0 ∨ g.bpb.fatCount = 0) := by
      intro h
      rw [Globals.tableReach, if_pos h] at htop
      omega
    refine ⟨.createEntry 65535 [0x41] 0 0 0, 0,
      { buf := fun _ => Sector.zero, disk := fun _ => Sector.zero },
      Prog.targets_bind_left noFaults _ _ _ ?_⟩
    rw [show g.reach = g.tableReach from Nat.max_eq_right (by omega)]
    exact createEntry_top (fun h => hboth (.inl h)) (fun h => hboth (.inr h)) hsmall rfl

end Attained

/-! ## Partitions -/

/-- What a mounted volume has that the driver's writes depend on. -/
structure Mounted (g : Globals) : Prop where
  sectorsPerCluster : 0 < g.bpb.sectorsPerCluster
  rootDirSectors : 0 < g.getRootDirSectors
  clusters : g.getTotalClusters < 65525
  reach : g.reach ≤ 2 ^ 28

theorem mounted_of_init {g g' : Globals} {s : Sector}
    (h : fat16Init .cpu g s = some (g', true)) : Mounted g' := by
  have hs : Signed s := by
    by_contra hs
    simp [fat16Init, hs] at h
  obtain ⟨hbpb, hfilled, hspc, hle, htype⟩ := fat16Init_accepted hs g h
  have hover := overhead_lt s
  have htotal := totalSectors_lt s
  rw [← hbpb] at hover htotal
  have hcount := getTotalClusters_eq hle htotal
  have hsmall : g'.getTotalClusters < 65525 := by
    rw [hcount]
    by_contra hbig
    rw [typeOfCount_eq_none.mpr (by omega)] at htype
    cases htype
  have hspc' : g'.bpb.sectorsPerCluster < 256 := by
    rw [hbpb]
    exact (s.get 13).toNat_lt
  have hroot : 0 < g'.getRootDirSectors := by
    obtain ⟨hb, _, hr⟩ := hfilled
    exact Nat.div_pos (by omega) (by omega)
  refine ⟨by omega, hroot, hsmall, ?_⟩
  have hdata : g'.getDataStart = g'.bpb.overhead := rfl
  have hmul : g'.getTotalClusters * g'.bpb.sectorsPerCluster ≤ 65525 * 256 :=
    Nat.mul_le_mul (by omega) (by omega)
  have hstart : g'.getRootDirStart ≤ g'.getDataStart := Nat.le_add_right _ _
  have htable : g'.tableReach ≤ g'.getRootDirStart + 256 := by
    unfold Globals.tableReach Globals.getRootDirStart
    split
    · omega
    · have hfat : (g'.bpb.fatCount - 1) * g'.bpb.sectorsPerFat ≤
          g'.bpb.fatCount * g'.bpb.sectorsPerFat := Nat.mul_le_mul_right _ (by omega)
      have hent : g'.fatType.entrySectors ≤ 256 := by cases g'.fatType <;> decide
      omega
  exact Nat.max_le.mpr ⟨by omega, by omega⟩

theorem owns_ataAddress {info : DriveInfo} {lba : Nat} (hlba : lba < 2 ^ 28) :
    info.Owns (info.ataAddress lba) ↔
      info.lbaStart + lba < 2 ^ 28 ∧ lba < info.sectorCount := by
  rw [ataAddress_eq]
  unfold DriveInfo.Owns
  constructor
  · intro h
    omega
  · intro h
    rw [Nat.mod_eq_of_lt h.1]
    omega

/-- The writes of the driver stay in the partition exactly when the reach of the mounted volume does,
below the last sector that 28 bits can address. -/
theorem writes_owned_iff {diskId i : Nat} {mbr s : Sector} {info : DriveInfo} {g₀ g : Globals}
    (_ : acceptPartition diskId mbr i = some info) (hmount : fat16Init .cpu g₀ s = some (g, true)) :
    (∀ (c : DriverCall) (fuel : Nat) (fails : Nat → Bool) (m : DriverMem),
      ∀ lba ∈ (c.prog g fuel).targets fails m, info.Owns (info.ataAddress lba)) ↔
    info.lbaStart + g.reach ≤ 2 ^ 28 ∧ g.reach ≤ info.sectorCount := by
  have hg := mounted_of_init hmount
  have hreach := hg.reach
  constructor
  · intro h
    obtain ⟨c, fuel, m, hmem⟩ :=
      DriverCall.attains hg.sectorsPerCluster hg.rootDirSectors hg.clusters
    have hpos : 0 < g.reach := Nat.lt_of_le_of_lt (Nat.zero_le _) (root_lt_reach hg.rootDirSectors)
    have := (owns_ataAddress (by omega)).mp (h c fuel noFaults m _ hmem)
    omega
  · intro h c fuel fails m lba hmem
    have hlt : lba < g.reach :=
      (c.confined hg.clusters hg.sectorsPerCluster fuel).targets fails m lba hmem
    exact (owns_ataAddress (by omega)).mpr (by omega)

def partitionedMbr (sectorCount : Byte) : Sector :=
  ((Sector.zero.set 450 0x06).set 454 63).set 458 sectorCount

/-- The volume of `bootSector` fits into a partition of 255 sectors. -/
theorem writes_owned_roomy : ∃ (info : DriveInfo) (g : Globals),
    acceptPartition 0 (partitionedMbr 255) 0 = some info ∧
    fat16Init .cpu smallVolume (bootSector 1) = some (g, true) ∧
    ∀ (c : DriverCall) (fuel : Nat) (fails : Nat → Bool) (m : DriverMem),
      ∀ lba ∈ (c.prog g fuel).targets fails m, info.Owns (info.ataAddress lba) := by
  have haccept : acceptPartition 0 (partitionedMbr 255) 0 = some ⟨0, 0, 63, 255, 0x06⟩ := by decide
  have hmount : fat16Init .cpu smallVolume (bootSector 1) =
      some (⟨Bpb.ofSector (bootSector 1), .fat12⟩, true) := by decide
  exact ⟨_, _, haccept, hmount, (writes_owned_iff haccept hmount).mpr (by decide)⟩

/-- In a partition of 16 sectors the last cluster of that volume lies behind its end. -/
theorem delete_writes_behind_partition : ∃ (info : DriveInfo) (g : Globals),
    acceptPartition 0 (partitionedMbr 16) 0 = some info ∧
    fat16Init .cpu smallVolume (bootSector 1) = some (g, true) ∧
    ∃ lba ∈ ((DriverCall.deleteMatching 17 [0x2A] true).prog g 1).targets noFaults
        { buf := fun _ => usedUp, disk := fun _ => usedUp },
      ¬ info.Owns (info.ataAddress lba) := by
  refine ⟨⟨0, 0, 63, 16, 0x06⟩, ⟨Bpb.ofSector (bootSector 1), .fat12⟩, by decide, by decide, 19, ?_⟩
  decide +kernel

end Fat16
end MiniDos
