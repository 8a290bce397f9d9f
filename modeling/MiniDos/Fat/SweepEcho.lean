import MiniDos.Fat.Rollback
import MiniDos.Fat.SweepHalt

/-!
# MiniDos.Fat.SweepEcho

`fat16_delete_matching` where a match has a chain. Freeing the chain leaves a table sector in
`sector_buffer`; the loop marks slots of that, and either stops at what looks like an end mark there,
with the directory sector as it was, or writes the table sector over the directory.

* `Echoed`: what a slot may hold after the call. A match with a chain is as it was, or is spelled by
  the table.
* `deleteMatching_swept`: the call does what it should where no match has a chain or shares a sector
  with the end mark, and nowhere else, unless the table spells a match.
-/

namespace MiniDos
namespace Fat16

open BlockIO Chain

variable {g : Globals} {m : DriverMem} {d d' : Disk} {dir fuel : Nat} {pattern : CStr}

/-- Each half of the byte is as it was, or zero. -/
def Wiped (b b' : Byte) : Prop :=
  (b'.toNat % 16 = b.toNat % 16 ∨ b'.toNat % 16 = 0) ∧
    (b'.toNat / 16 = b.toNat / 16 ∨ b'.toNat / 16 = 0)

theorem Wiped.refl (b : Byte) : Wiped b b := ⟨.inl rfl, .inl rfl⟩

theorem Wiped.trans {b b' b'' : Byte} (h : Wiped b b') (h' : Wiped b' b'') : Wiped b b'' := by
  obtain ⟨hl, hh⟩ := h
  obtain ⟨hl', hh'⟩ := h'
  exact ⟨by omega, by omega⟩

/-- A sector of the table, with some of its numbers freed, spells the entry in slot `k`, the first
byte apart. -/
def Spelled (g : Globals) (d : Disk) (k : Nat) (e : DirectoryEntry) : Prop :=
  ∃ (lba : Nat) (s : Sector), g.isFatSector lba ∧ (∀ i, Wiped (d lba i) (s i)) ∧
    deletedEntry e = deletedEntry (s.entry k)

@[simp] theorem deletedEntry_deletedEntry (e : DirectoryEntry) :
    deletedEntry (deletedEntry e) = deletedEntry e := by
  simp only [deletedEntry, DirectoryEntry.mk.injEq, and_true]
  funext i
  split <;> rfl

/-! ## Freeing -/

/-- Numbers of the table have been freed, and nothing else has changed. -/
structure NumbersFreed (g : Globals) (d d' : Disk) : Prop where
  table : ∀ lba, g.isFatSector lba → ∀ i, Wiped (d lba i) (d' lba i)
  rest : ∀ lba, ¬ g.isFatSector lba → d' lba = d lba

theorem NumbersFreed.refl (g : Globals) (d : Disk) : NumbersFreed g d d :=
  ⟨fun _ _ _ => .refl _, fun _ _ => rfl⟩

theorem NumbersFreed.trans {d'' : Disk} (h : NumbersFreed g d d') (h' : NumbersFreed g d' d'') : NumbersFreed g d d'' :=
  ⟨fun lba hl i => (h.table lba hl i).trans (h'.table lba hl i),
    fun lba hl => (h'.rest lba hl).trans (h.rest lba hl)⟩

theorem patchNib_zero (w c q x : Nat) : patchNib w c 0 q x = x ∨ patchNib w c 0 q x = 0 := by
  unfold patchNib
  split
  · refine .inr ?_
    unfold digit
    split <;> rfl
  · exact .inl rfl

theorem freed_fatPut (g : Globals) (c : Nat) (d : Disk) : NumbersFreed g d (fatPut g c 0 d) := by
  refine ⟨fun lba hl i => ?_, fun lba hl => fatPut_of_not_fatSector hl c 0 d⟩
  have hb := UInt8.toNat_lt (d lba i)
  have hpatch : ∀ j, Wiped (d lba i) (UInt8.ofNat (patchByte g.fatType.width c 0 j (d lba i).toNat)) := by
    intro j
    have hlt := patchByte_lt (w := g.fatType.width) (c := c) (v := 0) (j := j) hb
    have hlow := patchNib_zero g.fatType.width c (2 * j) ((d lba i).toNat % 16)
    have hhigh := patchNib_zero g.fatType.width c (2 * j + 1) ((d lba i).toNat / 16)
    unfold Wiped
    rw [UInt8.toNat_ofNat', Nat.mod_eq_of_lt hlt, patchByte]
    constructor <;> omega
  unfold fatPut fatPutN
  rw [if_pos ⟨hl.1, copyStart_count g ▸ hl.2⟩]
  exact hpatch _

/-- The buffer holds a sector of the table. -/
def FromTable (g : Globals) (m : DriverMem) : Prop :=
  ∃ lba, g.isFatSector lba ∧ m.buf .main = m.disk lba

theorem wp_writeFatCopy_from {c k : Nat} (v : Nat) (hc : g.inTable c) (hk : k < g.bpb.fatCount) :
    (writeFatCopy g c v k).wp Ctx.quiet (fun ok m' => ok = true ∧ FromTable g m') m := by
  have hsector : ∀ i, i < g.bpb.sectorsPerFat →
      g.isFatSector (g.bpb.reservedSectors + k * g.bpb.sectorsPerFat + i) := by
    intro i hi
    have : (k + 1) * g.bpb.sectorsPerFat ≤ g.bpb.fatCount * g.bpb.sectorsPerFat :=
      Nat.mul_le_mul_right _ hk
    rw [Nat.succ_mul] at this
    refine ⟨by omega, ?_⟩
    rw [← copyStart_count, Globals.copyStart]
    omega
  unfold Globals.inTable at hc
  have haux : (Buffer.main : Buffer) ≠ .aux := by decide
  unfold writeFatCopy
  cases ht : g.fatType with
  | fat12 =>
    rw [ht] at hc
    have hin := hsector ((c + c / 2) / 512) (by simp only [FatType.width] at hc; omega)
    simp only [Prog.wp_bind, wp_readSector_quiet, if_true, sectorSize]
    by_cases hs : (c + c / 2) % 512 = 512 - 1
    · simp only [hs, if_true, Prog.wp_bind, wp_readSector_quiet, wp_load, wp_store,
        wp_writeSector_quiet]
      refine ⟨trivial, _, hin, ?_⟩
      simp only [Mem.flush_disk, Mem.flush_buf, Mem.setBuf_buf, Mem.setBuf_disk,
        Mem.setBuf_buf_ne _ _ haux]
      rw [putSector_of_ne _ _ (by omega), putSector_self]
    · simp only [hs, if_false, Prog.wp_bind, wp_load, wp_store, wp_writeSector_quiet]
      refine ⟨trivial, _, hin, ?_⟩
      simp only [Mem.flush_disk, Mem.flush_buf, Mem.setBuf_buf, putSector_self]
  | fat16 =>
    rw [ht] at hc
    have hin := hsector (c * 2 / 512) (by simp only [FatType.width] at hc; omega)
    simp only [Prog.wp_bind, wp_readSector_quiet, if_true, sectorSize, wp_load, wp_store,
      wp_writeSector_quiet]
    refine ⟨trivial, _, hin, ?_⟩
    simp only [Mem.flush_disk, Mem.flush_buf, Mem.setBuf_buf, putSector_self]

theorem wp_writeFatCopies_from {c : Nat} (v : Nat) (hc : g.inTable c) : ∀ (n k : Nat) (m : DriverMem),
    k + n = g.bpb.fatCount → 0 < n ∨ FromTable g m →
    (writeFatCopies g c v n k).wp Ctx.quiet (fun ok m' => ok = true ∧ FromTable g m') m := by
  intro n
  induction n with
  | zero => exact fun k m _ h => ⟨rfl, h.resolve_left (Nat.lt_irrefl 0)⟩
  | succ n ih =>
    intro k m hk _
    unfold writeFatCopies
    rw [Prog.wp_bind]
    refine Prog.wp_mono (wp_writeFatCopy_from v hc (by omega)) ?_
    rintro ok m' ⟨rfl, hfrom⟩
    exact ih (k + 1) m' (by omega) (.inr hfrom)

theorem wp_freeNumber (hg : g.Valid) {c : Nat} (hc : g.isDataCluster c = true) :
    (writeFatEntry g c 0).wp Ctx.quiet
      (fun ok m' => ok = true ∧ NumbersFreed g m.disk m'.disk ∧ FromTable g m') m := by
  have hin := inTable_of_data hg hc
  have hdisk : (writeFatEntry g c 0).wp Ctx.quiet _ m :=
    wp_writeFatEntry hin (Nat.pow_pos (by decide)) (fun _ _ => trivial)
  have hbuf : (writeFatEntry g c 0).wp Ctx.quiet (fun ok m' => ok = true ∧ FromTable g m') m :=
    wp_writeFatCopies_from 0 hin g.bpb.fatCount 0 m (by omega) (.inl hg.fatCount)
  refine Prog.wp_mono (Prog.wp_and hdisk hbuf) ?_
  rintro ok m' ⟨hout, rfl, hfrom⟩
  exact ⟨rfl, hout.done rfl ▸ freed_fatPut g c m.disk, hfrom⟩

/-- How freeing from `c` leaves the disk and the buffer: as they were where `c` is no data cluster. -/
def FreedFrom (g : Globals) (c : Nat) (m : DriverMem) (ok : Bool) (m' : DriverMem) : Prop :=
  ok = true ∧ NumbersFreed g m.disk m'.disk ∧
    (FromTable g m' ∨ g.isDataCluster c = false ∧ m'.disk = m.disk ∧ m'.buf .main = m.buf .main)

theorem wp_freeLoop_from (hg : g.Valid) : ∀ (n c : Nat) (m : DriverMem), 0 < n ∨ FromTable g m →
    (freeLoop g n c).wp Ctx.quiet (FreedFrom g c m) m := by
  intro n
  induction n with
  | zero =>
    exact fun c m h => ⟨rfl, .refl g _, .inl (h.resolve_left (Nat.lt_irrefl 0))⟩
  | succ n ih =>
    intro c m _
    by_cases hc : g.isDataCluster c = true
    · unfold freeLoop getNextCluster
      rw [if_pos hc, Prog.wp_bind]
      refine Prog.wp_mono (wp_readFatEntry c) ?_
      rintro next m1 ⟨hd1, _⟩
      rw [Prog.wp_bind]
      refine Prog.wp_mono (wp_freeNumber hg hc) ?_
      rintro ok m2 ⟨rfl, hfreed, hfrom⟩
      rw [hd1] at hfreed
      rw [if_pos rfl]
      split
      · exact ⟨rfl, hfreed, .inl hfrom⟩
      · refine Prog.wp_mono (ih next m2 (.inr hfrom)) ?_
        rintro ok m3 ⟨rfl, hfreed3, hend⟩
        refine ⟨rfl, hfreed.trans hfreed3, .inl ?_⟩
        rcases hend with hend | ⟨_, hd3, hb3⟩
        · exact hend
        · obtain ⟨lba, hl, hb⟩ := hfrom
          exact ⟨lba, hl, by rw [hb3, hd3, hb]⟩
    · rw [freeLoop_stop hc]
      exact ⟨rfl, .refl g _, .inr ⟨by simpa using hc, rfl, rfl⟩⟩

theorem wp_freeClusterChain_from (hg : g.Valid) {c : Nat} (h2 : 2 ≤ c) :
    (freeClusterChain g c).wp Ctx.quiet (FreedFrom g c m) m := by
  unfold freeClusterChain
  rw [if_neg (by omega)]
  exact wp_freeLoop_from hg _ c m (.inl (by omega))

/-! ## The sweep -/

/-- What the entry of slot `p` may have become: a match with a chain is not marked. -/
def SlotFrom (g : Globals) (d : Disk) (p : Slot) (e : DirectoryEntry) : Prop :=
  e = entryAt d p ∨
    (g.isDataCluster (entryAt d p).first = false ∧ e = deletedEntry (entryAt d p)) ∨
    Spelled g d p.2 e

theorem SlotFrom.mark {p : Slot} {e : DirectoryEntry} (h : SlotFrom g d p e)
    (hnone : g.isDataCluster e.first = false) : SlotFrom g d p (deletedEntry e) := by
  rcases h with rfl | ⟨hdata, rfl⟩ | ⟨lba, s, hl, hs, he⟩
  · exact .inr (.inl ⟨hnone, rfl⟩)
  · exact .inr (.inl ⟨hdata, deletedEntry_deletedEntry _⟩)
  · exact .inr (.inr ⟨lba, s, hl, hs, by rw [deletedEntry_deletedEntry, he]⟩)

structure Echoed (g : Globals) (d d' : Disk) : Prop where
  table : ∀ lba, g.isFatSector lba → ∀ i, Wiped (d lba i) (d' lba i)
  slot : ∀ p : Slot, p.2 < 16 → ¬ g.isFatSector p.1 → SlotFrom g d p (entryAt d' p)

theorem Echoed.refl (g : Globals) (d : Disk) : Echoed g d d :=
  ⟨fun _ _ _ => .refl _, fun _ _ _ => .inl rfl⟩

theorem Echoed.freed (h : Echoed g d d') {d'' : Disk} (hf : NumbersFreed g d' d'') :
    Echoed g d d'' := by
  refine ⟨fun lba hl i => (h.table lba hl i).trans (hf.table lba hl i), fun p hp hl => ?_⟩
  rw [entryAt_congr (hf.rest p.1 hl)]
  exact h.slot p hp hl

/-- The buffer while the sector `lba` is swept. -/
def Buffered (g : Globals) (d : Disk) (lba : Nat) (s : Sector) : Prop :=
  ∀ k < 16, SlotFrom g d (lba, k) (s.entry k)

theorem FromTable.spelled (hfrom : FromTable g m) (h : Echoed g d m.disk) (k : Nat) :
    Spelled g d k ((m.buf .main).entry k) := by
  obtain ⟨lba, hl, hb⟩ := hfrom
  exact ⟨lba, m.buf .main, hl, fun i => hb ▸ h.table lba hl i, rfl⟩

theorem Buffered.mark {lba i : Nat} {s : Sector} (h : Buffered g d lba s) (hi : i < 16)
    (hmark : SlotFrom g d (lba, i) (deletedEntry (s.entry i))) :
    Buffered g d lba (s.setEntry i (deletedEntry (s.entry i))) := by
  intro k hk
  by_cases hki : k = i
  · rw [hki, Sector.entry_setEntry _ hi]
    exact hmark
  · rw [Sector.entry_setEntry_ne _ hk hki]
    exact h k hk

theorem wp_sweepSlots_echoed (hg : g.Valid) (lba : Nat) : ∀ (n i deleted : Nat) (m : DriverMem),
    i + n ≤ 16 → Echoed g d m.disk → Buffered g d lba (m.buf .main) →
    (sweepSlots g pattern true n i deleted).wp Ctx.quiet (fun r m' =>
      r ≠ .failed ∧ Echoed g d m'.disk ∧ Buffered g d lba (m'.buf .main)) m := by
  intro n
  induction n with
  | zero => exact fun i deleted m _ hd hb => ⟨Sweep.noConfusion, hd, hb⟩
  | succ n ih =>
    intro i deleted m hn hd hb
    unfold sweepSlots
    simp only [Prog.wp_bind, wp_load]
    split
    · exact ⟨Sweep.noConfusion, hd, hb⟩
    split
    · exact ih _ _ m (by omega) hd hb
    split
    · exact ih _ _ m (by omega) hd hb
    split
    · exact ih _ _ m (by omega) hd hb
    -- the slot is marked in whatever the buffer holds by then
    have hmark : ∀ m1 : DriverMem, Echoed g d m1.disk → Buffered g d lba (m1.buf .main) →
        SlotFrom g d (lba, i) (deletedEntry ((m1.buf .main).entry i)) →
        (do
          let s ← load .main
          store .main (s.setEntry i (deletedEntry (s.entry i)))
          sweepSlots g pattern true n (i + 1) (deleted + 1) : DiskProg Sweep).wp Ctx.quiet
            (fun r m' => r ≠ .failed ∧ Echoed g d m'.disk ∧ Buffered g d lba (m'.buf .main)) m1 := by
      intro m1 hd1 hb1 hslot
      simp only [Prog.wp_bind, wp_load, wp_store]
      refine ih _ _ _ (by omega) hd1 ?_
      rw [Mem.setBuf_buf]
      exact hb1.mark (by omega) hslot
    split
    case isTrue hchain =>
      simp only [Bool.true_and, decide_eq_true_eq] at hchain
      rw [Prog.wp_bind]
      refine Prog.wp_mono (wp_freeClusterChain_from hg hchain) ?_
      rintro ok m1 ⟨rfl, hfreed, hend⟩
      have hd1 := hd.freed hfreed
      rw [if_pos rfl]
      rcases hend with hfrom | ⟨hnone, hdisk, hbuf⟩
      · have hspelled := hfrom.spelled hd1
        refine hmark m1 hd1 (fun k _ => .inr (.inr (hspelled k))) (.inr (.inr ?_))
        obtain ⟨x, s, hx, hs, he⟩ := hspelled i
        exact ⟨x, s, hx, hs, by rw [deletedEntry_deletedEntry, he]⟩
      · refine hmark m1 hd1 (hbuf ▸ hb) ?_
        rw [hbuf]
        exact (hb i (by omega)).mark hnone
    case isFalse hchain =>
      simp only [Bool.true_and, decide_eq_true_eq] at hchain
      rw [Prog.wp_bind, Prog.wp_pure, if_pos rfl]
      refine hmark m hd hb ((hb i (by omega)).mark ?_)
      rw [← Bool.not_eq_true, isDataCluster_iff]
      exact fun h => hchain h.1

theorem wp_sweepSectors_echoed (hg : g.Valid) (base : Nat) : ∀ (n k deleted : Nat) (m : DriverMem),
    (∀ i < k + n, ¬ g.isFatSector (base + i)) → Echoed g d m.disk →
    (sweepSectors g pattern true base n k deleted).wp Ctx.quiet (fun r m' =>
      (∀ x, r = .ok x → x.1 = true) ∧ Echoed g d m'.disk) m := by
  intro n
  induction n with
  | zero => exact fun k deleted m _ hd => ⟨fun x h => (by cases h), hd⟩
  | succ n ih =>
    intro k deleted m hnot hd
    have hfat := hnot k (by omega)
    unfold sweepSectors
    simp only [Prog.wp_bind, wp_readSector_quiet, if_true]
    have hb : Buffered g d (base + k) ((m.fetch .main (base + k)).buf .main) := by
      rw [Mem.fetch_buf]
      exact fun i hi => hd.slot (base + k, i) hi hfat
    refine Prog.wp_mono (wp_sweepSlots_echoed hg (base + k) entriesPerSector 0 deleted _
      (Nat.le_refl 16) hd hb) ?_
    rintro r m1 ⟨hr, hd1, hb1⟩
    cases r with
    | failed => exact absurd rfl hr
    | endMark deleted => exact ⟨fun x h => (by cases h; rfl), hd1⟩
    | done deleted =>
      simp only [Prog.wp_bind, wp_writeSector_quiet, if_true]
      refine ih (k + 1) deleted _ (fun i hi => hnot i (by omega)) ⟨fun lba hl i => ?_, fun p hp hl => ?_⟩
      · have hne : lba ≠ base + k := fun h => hfat (by rwa [h] at hl)
        rw [Mem.flush_disk, putSector_of_ne _ _ hne]
        exact hd1.table lba hl i
      · rw [Mem.flush_disk]
        by_cases hpl : p.1 = base + k
        · have hput := hb1 p.2 hp
          unfold entryAt
          rw [hpl, putSector_self]
          rwa [← hpl] at hput
        · rw [entryAt_congr (putSector_of_ne _ _ hpl)]
          exact hd1.slot p hp hl

theorem wp_sweepClusters_echoed (hg : g.Valid) : ∀ (fuel c deleted : Nat) (m : DriverMem),
    Echoed g d m.disk → (sweepClusters g pattern true fuel c deleted).wp Ctx.quiet
      (fun r m' => r.1 = true ∧ Echoed g d m'.disk) m := by
  intro fuel
  induction fuel with
  | zero =>
    intro c deleted m hd
    unfold sweepClusters
    split
    · trivial
    · exact ⟨rfl, hd⟩
  | succ fuel ih =>
    intro c deleted m hd
    unfold sweepClusters
    split
    case isFalse => exact ⟨rfl, hd⟩
    rw [Prog.wp_bind]
    have hnot : ∀ i < 0 + g.bpb.sectorsPerCluster, ¬ g.isFatSector (g.clusterSector c + i) :=
      fun i hi => clusterSector_not_fat (c := c) (mem_clusterSectors.mpr (by omega))
    refine Prog.wp_mono (wp_sweepSectors_echoed hg _ _ 0 deleted m hnot hd) ?_
    rintro r m1 ⟨hr, hd1⟩
    cases r with
    | ok x => exact ⟨hr x rfl, hd1⟩
    | error deleted =>
      simp only [Prog.wp_bind, getNextCluster]
      refine Prog.wp_mono (wp_readFatEntry _) ?_
      rintro next m2 ⟨hd2, _⟩
      exact ih next deleted m2 (hd2 ▸ hd1)

theorem wp_deleteMatching_echoed (hg : g.Valid) (hpat : pattern.at 0 ≠ 0) :
    (deleteMatching g fuel dir pattern true).wp Ctx.quiet
      (fun r m' => r.1 = true ∧ Echoed g m.disk m'.disk) m := by
  unfold deleteMatching
  rw [if_neg hpat]
  split
  · rw [Prog.wp_bind]
    refine Prog.wp_mono (wp_sweepSectors_echoed hg _ _ 0 0 m (fun i _ hfat => ?_) (.refl g _)) ?_
    · exact absurd hfat.2 (by omega)
    · rintro r m1 ⟨hr, hd1⟩
      cases r with
      | ok x => exact ⟨hr x rfl, hd1⟩
      | error deleted => exact ⟨rfl, hd1⟩
  · exact wp_sweepClusters_echoed hg fuel dir 0 m (.refl g _)

/-! ## The whole call -/

theorem Globals.Valid.tableRoom (hg : g.Valid) : TableRoom g := by
  refine ⟨hg.fatCount, hg.room, ?_⟩
  have := hg.clusters
  cases ht : g.fatType <;> rw [ht] at this <;> simp only at this <;> omega

theorem ChainFrom.leaves (hg : g.Valid) : ∀ (l : List Nat) (c : Nat), ChainFrom g d c l →
    ¬ g.isDataCluster ((nextCluster g d)^[l.length] c) = true := by
  intro l
  induction l with
  | nil =>
    intro c hc
    have hstop : g.isDataCluster c = false := hc
    simp [hstop]
  | cons x l ih =>
    intro c hc
    obtain ⟨rfl, hx, hl⟩ := hc
    rw [List.length_cons, Function.iterate_succ_apply, nextCluster, hg.tableRoom.mod_eq hx]
    exact ih _ hl

theorem deleteMatching_ends (hg : g.Valid) (hfuel : g.getTotalClusters ≤ fuel) (hpat : pattern.at 0 ≠ 0)
    {l : List Nat} (hl : Chained g m.disk dir l) :
    (deleteMatching g fuel dir pattern true).Ends m := by
  by_cases h0 : dir = 0
  · subst h0
    exact deleteMatching_ends_root fuel m
  · unfold deleteMatching
    rw [if_neg hpat, if_neg h0]
    have hlen := hl.length_le hg
    exact hg.tableRoom.ends_sweepClusters_of_leaves l.length fuel dir 0 m (by omega)
      (ChainFrom.leaves hg l dir ((hl.chainOf h0).from hg)) (.refl g _)

/-- The call does what it should, or refuses the empty pattern, where no match has a chain or shares
a sector with the end mark. Anywhere else it does not, unless the table spells a match with a
chain. -/
theorem deleteMatching_swept (hg : g.Valid) (hfuel : g.getTotalClusters ≤ fuel)
    (hw : WellFormed g m.disk) (hdir : IsDir g m.disk dir) {l : List Nat}
    (hl : Chained g m.disk dir l) :
    ∃ r m', (deleteMatching g fuel dir pattern true).run noFaults m = some (r, m') ∧
      ((pattern.at 0 = 0 ∨ ∀ q ∈ dirSlots g dir l, doomed pattern (entryAt m.disk q) = true →
          g.isDataCluster (entryAt m.disk q).first = false ∧ noEnd m.disk q.1 = true) →
        (r.1 = true → Swept g pattern dir l m.disk m'.disk r.2)) ∧
      ((r.1 = true → Swept g pattern dir l m.disk m'.disk r.2) →
        (pattern.at 0 = 0 ∨ ∀ q ∈ dirSlots g dir l, doomed pattern (entryAt m.disk q) = true →
          g.isDataCluster (entryAt m.disk q).first = false ∧ noEnd m.disk q.1 = true) ∨
        ∃ q ∈ dirSlots g dir l, doomed pattern (entryAt m.disk q) = true ∧
          g.isDataCluster (entryAt m.disk q).first = true ∧ Spelled g m.disk q.2 (entryAt m.disk q)) := by
  by_cases hnone : ∀ q ∈ dirSlots g dir l, doomed pattern (entryAt m.disk q) = true →
      g.isDataCluster (entryAt m.disk q).first = false
  · obtain ⟨r, m', hrun, hiff⟩ := deleteMatching_chainless hg hfuel hw hdir hl hnone
    exact ⟨r, m', hrun, fun h => hiff.mpr (h.imp_right fun h q hq hqd => (h q hq hqd).2),
      fun h => .inl ((hiff.mp h).imp_right fun h q hq hqd => ⟨hnone q hq hqd, h q hq hqd⟩)⟩
  by_cases hpat : pattern.at 0 = 0
  · refine ⟨(false, 0), m, ?_, fun _ h => (by cases h), fun _ => .inl (.inl hpat)⟩
    unfold deleteMatching
    rw [if_pos hpat]
    rfl
  simp only [not_forall, Bool.not_eq_false] at hnone
  obtain ⟨q, hq, hqd, hdata⟩ := hnone
  obtain ⟨r, m', hrun⟩ := deleteMatching_ends hg hfuel hpat hl
  have hwp : (deleteMatching g fuel dir pattern true).wp Ctx.quiet
      (fun r m' => r.1 = true ∧ Echoed g m.disk m'.disk) m := wp_deleteMatching_echoed hg hpat
  have hpost := (Prog.run_of_wp noFaults (fun _ hf => by cases hf) hwp).1
  obtain ⟨htrue, hechoed⟩ := hpost r m' hrun
  refine ⟨r, m', hrun, fun h => ?_, fun hs => .inr ⟨q, hq, hqd, hdata, ?_⟩⟩
  · have hnot := (h.resolve_left hpat q hq hqd).1
    rw [hdata] at hnot
    cases hnot
  · have hmark := (hs htrue).marked q hq hqd
    obtain ⟨hq1, hq2⟩ := mem_slotsOf.mp hq
    rcases hechoed.slot q hq2 (dirSector_not_fat hq1) with hsame | ⟨hnot, _⟩ | ⟨lba, s, hfat, hs, he⟩
    · exact absurd (hsame.symm.trans hmark) (doomed_ne_deleted hqd)
    · rw [hdata] at hnot
      cases hnot
    · exact ⟨lba, s, hfat, hs, by rw [← he, hmark, deletedEntry_deletedEntry]⟩

/-- A full root directory: sixteen empty files, `A` to `P`. -/
def crowdedMem : DriverMem where
  disk := fun lba => if lba = 3 then fun k =>
      if k.val % 32 = 0 then UInt8.ofNat (0x41 + k.val / 32) else if k.val % 32 < 11 then 0x20 else 0
    else Sector.zero
  buf := fun _ => Sector.zero
  accesses := 0
  stores := 0

theorem crowdedMem_wellFormed : WellFormed smallVolume crowdedMem.disk := by
  have hslot : ∀ p ∈ dirSlots smallVolume 0 [], (entryAt crowdedMem.disk p).isEnd = false ∧
      (entryAt crowdedMem.disk p).isDirectory = false ∧ (entryAt crowdedMem.disk p).first = 0 := by decide
  have hroot : ∀ c l p, IsDir smallVolume crowdedMem.disk c → p ∈ dirSlots smallVolume c l →
      p ∈ dirSlots smallVolume 0 [] := by
    intro c l p hc hp
    rw [hc.eq_zero fun p hp _ => (hslot p hp).2.1] at hp
    exact hp
  have hzero : ∀ p, LiveSlot smallVolume crowdedMem.disk p → (entryAt crowdedMem.disk p).first = 0 :=
    fun p ⟨c, l, hc, _, hp, _⟩ => (hslot p (hroot c l p hc hp)).2.2
  refine ⟨fun c l hc _ => ?_, fun p hp => ⟨[], .inl ⟨hzero p hp, rfl⟩⟩, fun p q lp lq hp _ _ hlp _ x hx => ?_⟩
  · refine List.pairwise_of_forall_mem_list fun p hp _ _ hend => ?_
    rw [(hslot p (hroot c l p hc hp)).1] at hend
    cases hend
  · rw [hzero p hp] at hlp
    rw [hlp.nil_of_zero] at hx
    cases hx

/-- `DEL A*` there. -/
theorem deleteMatching_swept_full : ∃ n m', (deleteMatching smallVolume 3 0 [0x41, chStar] true).run
    noFaults crowdedMem = some ((true, n), m') ∧
      Swept smallVolume [0x41, chStar] 0 [] crowdedMem.disk m'.disk n := by
  have hres : ((deleteMatching smallVolume 3 0 [0x41, chStar] true).run noFaults crowdedMem).map
      (fun r => r.1.1) = some true := by decide +kernel
  obtain ⟨r, m', hrun, hdo, _⟩ := @deleteMatching_swept smallVolume crowdedMem 0 3 [0x41, chStar]
    smallVolume_valid (by decide) crowdedMem_wellFormed .root [] (.inl ⟨rfl, rfl⟩)
  have htrue : r.1 = true := by
    rw [hrun] at hres
    exact Option.some.inj hres
  exact ⟨r.2, m', by rw [hrun, ← htrue], hdo (.inr (by decide)) htrue⟩

/-- `DEL *` with the file `A` of one cluster: the call returns 1, and `A` is still there without its
cluster. -/
theorem deleteMatching_keeps_entry : WellFormed smallVolume fileMem.disk ∧ ∃ n m',
    (deleteMatching smallVolume 3 0 [chStar] true).run noFaults fileMem = some ((true, n), m') ∧
      ¬ Swept smallVolume [chStar] 0 [] fileMem.disk m'.disk n := by
  have hres : ((deleteMatching smallVolume 3 0 [chStar] true).run noFaults fileMem).map (fun r =>
      (r.1.1, (entryAt r.2.disk (3, 0)).isDeleted, doomed [chStar] (entryAt fileMem.disk (3, 0)))) =
      some (true, false, true) := by decide +kernel
  obtain ⟨⟨⟨ok, n⟩, m'⟩, hrun, hvals⟩ := Option.map_eq_some_iff.mp hres
  simp only [Prod.mk.injEq] at hvals
  obtain ⟨rfl, hkept, hdoomed⟩ := hvals
  refine ⟨fileMem_wellFormed, n, m', hrun, fun hs => ?_⟩
  rw [hs.marked (3, 0) (by decide) hdoomed, deletedEntry_isDeleted] at hkept
  cases hkept

end Fat16
end MiniDos
