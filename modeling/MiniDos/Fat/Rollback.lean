import MiniDos.Fat.Session

/-!
# MiniDos.Fat.Rollback

Calls that return 0 without a fault. The arguments are arbitrary here: the directory need not be one
of the volume, so nothing is known of the chains the driver walks. What matters is that without
faults a write to the disk never makes a call fail, and that every exit after an allocation gives
the clusters back.

* `wp_writeFatEntry_true`, `wp_freeClusterChain_true`: writes succeed.
* `wp_createEntry_false`, `wp_updateEntry_false`: 0 means nothing was written.
* `Op.wp_false`: what any call leaves behind when it returns 0.
-/

namespace MiniDos
namespace Fat16

open BlockIO Chain

variable {g : Globals} {m : DriverMem} {d e : Disk} {dir fuel : Nat} {name : CStr}

/-! ## Writes succeed -/

theorem wp_writeFatCopy_true (c v k : Nat) :
    (writeFatCopy g c v k).wp Ctx.quiet (fun ok _ => ok = true) m := by
  unfold writeFatCopy
  cases g.fatType with
  | fat12 =>
    simp only [Prog.wp_bind, wp_readSector_quiet, if_true]
    split <;> simp
  | fat16 => simp

theorem wp_writeFatCopies_true (c v : Nat) : ∀ (n k : Nat) (m : DriverMem),
    (writeFatCopies g c v n k).wp Ctx.quiet (fun ok _ => ok = true) m := by
  intro n
  induction n with
  | zero => intro k m; exact rfl
  | succ n ih =>
    intro k m
    unfold writeFatCopies
    rw [Prog.wp_bind]
    refine Prog.wp_mono (wp_writeFatCopy_true c v k) ?_
    rintro ok m' rfl
    exact ih (k + 1) m'

theorem wp_writeFatEntry_true (c v : Nat) :
    (writeFatEntry g c v).wp Ctx.quiet (fun ok _ => ok = true) m :=
  wp_writeFatCopies_true c v g.bpb.fatCount 0 m

theorem wp_freeLoop_true : ∀ (n c : Nat) (m : DriverMem),
    (freeLoop g n c).wp Ctx.quiet (fun ok _ => ok = true) m := by
  intro n
  induction n with
  | zero => intro c m; exact rfl
  | succ n ih =>
    intro c m
    unfold freeLoop getNextCluster
    split
    · simp only [Prog.wp_bind]
      refine Prog.wp_mono (wp_readFatEntry c) ?_
      intro v m1 _
      refine Prog.wp_mono (wp_writeFatEntry_true c 0) ?_
      rintro ok m2 rfl
      simp only [if_true]
      split
      · exact rfl
      · exact ih v m2
    · exact rfl

theorem wp_freeClusterChain_true {c : Nat} (h2 : 2 ≤ c) :
    (freeClusterChain g c).wp Ctx.quiet (fun ok _ => ok = true) m := by
  unfold freeClusterChain
  rw [if_neg (by omega)]
  exact wp_freeLoop_true _ c m

theorem wp_zeroSectors_true (base : Nat) : ∀ (n s : Nat) (m : DriverMem),
    (zeroSectors base n s).wp Ctx.quiet (fun ok _ => ok = true) m := by
  intro n
  induction n with
  | zero => intro s m; exact rfl
  | succ n ih =>
    intro s m
    unfold zeroSectors
    simp only [Prog.wp_bind, wp_store, wp_writeSector_quiet, if_true]
    exact ih (s + 1) _

theorem wp_markDeleted_true (sector index : Nat) :
    (markDeleted sector index).wp Ctx.quiet (fun ok _ => ok = true) m := by
  unfold markDeleted
  simp

theorem wp_writeDirEntryAt_true (sector index : Nat) (x : DirectoryEntry) :
    (writeDirEntryAt sector index x).wp Ctx.quiet (fun ok _ => ok = true) m := by
  unfold writeDirEntryAt
  simp

/-! ## Entries -/

/-- A failure of the operation has left the disk as it was. -/
def Unchanged (d : Disk) (ok : Bool) (m : DriverMem) : Prop := ok = false → m.disk = d

theorem unchanged_of_true {ok : Bool} (h : ok = true) : Unchanged d ok m :=
  fun hf => by rw [h] at hf; cases hf

theorem wp_growDir_quiet (hg : g.Valid) (t : Nat) (x : DirectoryEntry) :
    (growDir g t x).wp Ctx.quiet
      (fun ok m' => ok = true ∨ (m'.disk = m.disk ∧ ∀ c, ¬ FreeCluster g m.disk c)) m := by
  unfold growDir
  rw [Prog.wp_bind]
  refine Prog.wp_mono (wp_allocCluster hg (fun _ _ _ _ _ => trivial)) ?_
  intro r m1 hr
  cases hr with
  | full hd hfull => exact .inr ⟨hd, fun c hc => hfull Ctx.quiet_not_faulty c hc.1 hc.2⟩
  | broke _ _ _ hf => exact absurd hf.faulty Ctx.quiet_not_faulty
  | took _ _ _ _ =>
    simp only [Prog.wp_bind]
    refine Prog.wp_mono (wp_writeFatEntry_true _ _) ?_
    rintro ok m2 rfl
    simp only [if_true, Prog.wp_bind]
    refine Prog.wp_mono (wp_writeFatEntry_true _ _) ?_
    rintro ok m3 rfl
    simp only [if_true, Prog.wp_bind, zeroCluster]
    refine Prog.wp_mono (wp_zeroSectors_true _ _ 0 m3) ?_
    rintro ok m4 rfl
    exact Prog.wp_mono (wp_writeDirEntryAt_true _ 0 x) (fun ok m5 h => .inl h)

theorem wp_placeBody_quiet (x : DirectoryEntry) (lba : Nat) :
    (placeBody x lba).wp Ctx.quiet (fun r m' => r = some true ∨ (r = none ∧ m'.disk = m.disk)) m := by
  unfold placeBody
  simp only [Prog.wp_bind, wp_readSector_quiet, if_true, wp_load]
  split
  · simp
  · exact .inr ⟨rfl, rfl⟩

theorem wp_placeSectors_quiet (x : DirectoryEntry) (base : Nat) : ∀ (n s : Nat) (m : DriverMem),
    (forSectors base (placeBody x) n s).wp Ctx.quiet
      (fun r m' => r = some true ∨ (r = none ∧ m'.disk = m.disk)) m := by
  intro n
  induction n with
  | zero => intro s m; exact .inr ⟨rfl, rfl⟩
  | succ n ih =>
    intro s m
    unfold forSectors
    rw [Prog.wp_bind]
    refine Prog.wp_mono (wp_placeBody_quiet x (base + s)) ?_
    rintro r m1 (rfl | ⟨rfl, hd⟩)
    · exact .inl rfl
    · refine Prog.wp_mono (ih (s + 1) m1) ?_
      rintro r m2 (rfl | ⟨rfl, hd2⟩)
      · exact .inl rfl
      · exact .inr ⟨rfl, hd2.trans hd⟩

theorem wp_placeInChain_quiet (x : DirectoryEntry) : ∀ (fuel c : Nat) (m : DriverMem),
    (placeInChain g x fuel c).wp Ctx.quiet
      (fun r m' => r = .ok true ∨ (∃ t, r = .error t ∧ m'.disk = m.disk)) m := by
  intro fuel
  induction fuel with
  | zero =>
    intro c m
    unfold placeInChain
    split
    · trivial
    · exact .inr ⟨c, rfl, rfl⟩
  | succ fuel ih =>
    intro c m
    unfold placeInChain
    split
    · rw [Prog.wp_bind]
      refine Prog.wp_mono (wp_placeSectors_quiet x _ _ 0 m) ?_
      rintro r m1 (rfl | ⟨rfl, hd⟩)
      · exact .inl rfl
      · simp only [Prog.wp_bind, getNextCluster]
        refine Prog.wp_mono (wp_readFatEntry _) ?_
        rintro v m2 ⟨hd2, _⟩
        split
        · refine Prog.wp_mono (ih v m2) ?_
          rintro r m3 (rfl | ⟨t, rfl, hd3⟩)
          · exact .inl rfl
          · exact .inr ⟨t, rfl, hd3.trans (hd2.trans hd)⟩
        · exact .inr ⟨c, rfl, hd2.trans hd⟩
    · exact .inr ⟨c, rfl, rfl⟩

theorem wp_addDirEntry_false (hg : g.Valid) (name83 : Name) (cluster fileSize : Nat)
    (attributes : UInt8) : (addDirEntry g fuel dir name83 cluster fileSize attributes).wp Ctx.quiet
      (Unchanged m.disk) m := by
  unfold addDirEntry
  by_cases h0 : dir = 0
  · simp only [h0, if_true, Prog.wp_bind, findFreeRootEntry]
    refine Prog.wp_mono (wp_forSectors findFreeBody_reads _ _ 0 m) ?_
    rintro r m1 ⟨hd, _⟩
    simp only [Prog.wp_pure]
    cases r.getD none with
    | none => exact fun _ => hd
    | some p =>
      exact Prog.wp_mono (wp_writeDirEntryAt_true p.1 p.2 _) (fun ok m2 h => unchanged_of_true h)
  · simp only [h0, if_false, Prog.wp_bind]
    refine Prog.wp_mono (wp_placeInChain_quiet _ fuel dir m) ?_
    rintro r m1 (rfl | ⟨t, rfl, hd⟩)
    · exact unchanged_of_true rfl
    · refine Prog.wp_mono (wp_growDir_quiet hg t (newEntry name83 cluster fileSize attributes)) ?_
      rintro ok m2 (hok | ⟨hd2, _⟩)
      · exact unchanged_of_true hok
      · exact fun _ => hd2.trans hd

theorem wp_createEntry_false (hg : g.Valid) (name : CStr) (cluster fileSize : Nat)
    (attributes : UInt8) : (createEntry g fuel dir name cluster fileSize attributes).wp Ctx.quiet
      (Unchanged m.disk) m := by
  unfold createEntry
  split
  · exact fun _ => rfl
  cases formatName name with
  | none => exact fun _ => rfl
  | some name83 =>
    simp only [Prog.wp_bind]
    refine Prog.wp_mono (wp_findEntryInternal_frame trivial dir fuel name) ?_
    rintro r m1 ⟨hd, _⟩
    cases r with
    | some _ => exact fun _ => hd
    | none =>
      have hadd : (addDirEntry g fuel dir name83 cluster fileSize attributes).wp Ctx.quiet _ m1 :=
        wp_addDirEntry_false hg name83 cluster fileSize attributes
      rw [hd] at hadd
      exact hadd

theorem wp_updateEntry_false (oldName newName : CStr) (firstCluster fileSize : Nat)
    (attributes : UInt8) : (updateEntry g fuel dir oldName newName firstCluster fileSize
      attributes).wp Ctx.quiet (Unchanged m.disk) m := by
  unfold updateEntry
  split
  · exact fun _ => rfl
  cases formatName newName with
  | none => exact fun _ => rfl
  | some name83 =>
    simp only [Prog.wp_bind]
    refine Prog.wp_mono (wp_findEntryInternal_frame trivial dir fuel oldName) ?_
    rintro r m1 ⟨hd, _⟩
    cases r with
    | none => exact fun _ => hd
    | some current =>
      -- the store is the last step and does not fail
      by_cases hsame : ∀ i, current.entry.name i = name83 i
      · simp only [hsame, implies_true, if_true, Prog.wp_bind, Prog.wp_pure, wp_readSector_quiet,
          wp_load, wp_store, wp_writeSector_quiet]
        exact unchanged_of_true rfl
      · simp only [hsame, if_false, Prog.wp_bind]
        refine Prog.wp_mono (wp_findEntryInternal_frame trivial dir fuel newName) ?_
        rintro r m2 ⟨hd2, _⟩
        cases r with
        | some _ => exact fun _ => hd2.trans hd
        | none =>
          simp only [Prog.wp_bind, wp_readSector_quiet, if_true, wp_load, wp_store,
            wp_writeSector_quiet]
          exact unchanged_of_true rfl

theorem wp_freeAndMark_true {c : Nat} (h2 : 2 ≤ c) (sector index : Nat) :
    (do
      let ok ← freeClusterChain g c
      if ok then markDeleted sector index else pure false : DiskProg Bool).wp Ctx.quiet
      (fun ok _ => ok = true) m := by
  rw [Prog.wp_bind]
  refine Prog.wp_mono (wp_freeClusterChain_true h2) ?_
  rintro ok m1 rfl
  exact wp_markDeleted_true sector index

theorem wp_deleteEntry_false (name : CStr) (freeChain : Bool) :
    (deleteEntry g fuel dir name freeChain).wp Ctx.quiet (Unchanged m.disk) m := by
  unfold deleteEntry
  split
  · exact fun _ => rfl
  split
  · exact fun _ => rfl
  rw [Prog.wp_bind]
  refine Prog.wp_mono (wp_findEntryInternal_frame trivial dir fuel name) ?_
  rintro r m1 ⟨hd, _⟩
  cases r with
  | none => exact fun _ => hd
  | some target =>
    by_cases hk : target.entry.isDirectory = true
    · simp only [hk, if_true]
      exact fun _ => hd
    · by_cases h2 : (freeChain && decide (2 ≤ target.entry.clusterLow.toNat)) = true
      · simp only [hk, h2, Bool.false_eq_true, if_false, if_true]
        exact Prog.wp_mono (wp_freeAndMark_true (by simp at h2; exact h2.2) _ _)
          (fun ok m2 h => unchanged_of_true h)
      · simp only [hk, h2, Bool.false_eq_true, if_false]
        exact Prog.wp_mono (wp_markDeleted_true _ _) (fun ok m2 h => unchanged_of_true h)

theorem wp_rmdir_false (name : CStr) :
    (rmdir g fuel dir name).wp Ctx.quiet (Unchanged m.disk) m := by
  unfold rmdir
  split
  · exact fun _ => rfl
  split
  · exact fun _ => rfl
  rw [Prog.wp_bind]
  refine Prog.wp_mono (wp_findEntryInternal_frame trivial dir fuel name) ?_
  rintro r m1 ⟨hd, _⟩
  cases r with
  | none => exact fun _ => hd
  | some target =>
    by_cases hk : target.entry.isDirectory = true
    · by_cases h2 : target.entry.clusterLow.toNat < 2
      · simp only [hk, h2, Bool.not_true, Bool.false_eq_true, if_false, if_true]
        exact fun _ => hd
      · simp only [hk, h2, Bool.not_true, Bool.false_eq_true, if_false, Prog.wp_bind]
        refine Prog.wp_mono (wp_isDirectoryEmpty_frame trivial fuel _) ?_
        rintro empty m2 ⟨hd2, _⟩
        cases empty with
        | false => exact fun _ => hd2.trans hd
        | true =>
          simp only [if_true]
          exact Prog.wp_mono (wp_freeAndMark_true (Nat.le_of_not_lt h2) _ _)
            (fun ok m3 h => unchanged_of_true h)
    · simp only [hk, Bool.not_false, if_true]
      exact fun _ => hd

/-! ## Files -/

/-- When the call returns 0, the clusters it took are free again. -/
def RolledBack (g : Globals) (d : Disk) (ok : Bool) (m : DriverMem) : Prop :=
  ok = false → Restored g d m.disk

theorem rolledBack_of_true {ok : Bool} (h : ok = true) : RolledBack g d ok m :=
  fun hf => by rw [h] at hf; cases hf

theorem rolledBack_of_eq {ok : Bool} (h : m.disk = d) : RolledBack g d ok m :=
  fun _ => by rw [h]; exact Restored.refl g d

theorem quiet_careful (m : DriverMem) : Careful Ctx.quiet g m :=
  careful_of_not_faulty Ctx.quiet_not_faulty m

theorem NewChain.wp_giveBack (hg : g.Valid) {l : List Nat} {first last : Nat}
    (h : NewChain g d l first last m.disk) :
    (do
      rollback g first
      pure false : DiskProg Bool).wp Ctx.quiet (RolledBack g d) m := by
  rw [Prog.wp_bind]
  refine Prog.wp_mono (h.wp_rollback hg (fun _ _ => trivial)) ?_
  exact fun _ _ hs _ => hs.2 Ctx.quiet_not_faulty

theorem wp_commitEntry_false (hg : g.Valid) (existing : Option Located) (first size : Nat) :
    (commitEntry g fuel dir name existing first size).wp Ctx.quiet (Unchanged m.disk) m := by
  unfold commitEntry
  cases existing with
  | some found => exact wp_updateEntry_false name name first size _
  | none => exact wp_createEntry_false hg name first size attrArchive

theorem wp_writeFileFromDir_false (hg : g.Valid) (buffer : Option (Nat → Byte)) (size : Int) :
    (writeFileFromDir g fuel dir name buffer size).wp Ctx.quiet (RolledBack g m.disk) m := by
  unfold writeFileFromDir
  split
  · exact rolledBack_of_eq rfl
  split
  · exact rolledBack_of_eq rfl
  split
  · exact rolledBack_of_eq rfl
  rw [Prog.wp_bind]
  refine Prog.wp_mono (wp_findEntryInternal_frame trivial dir fuel name) ?_
  rintro existing m1 ⟨hd1, hst1⟩
  split
  · exact rolledBack_of_eq hd1
  simp only [Prog.wp_bind]
  have hstart : Writing g m (buffer.getD (fun _ => 0)) size.toNat ⟨0, 0, 0, size.toNat⟩ [] m1 := by
    refine ⟨?_, fun k hk => absurd hk (Nat.not_lt_zero k), fun _ => by simp, by simp,
      by omega, fun _ => hd1⟩
    rw [hd1]
    exact NewChain.empty g m.disk
  refine Prog.wp_mono (wp_writeLoop hg (quiet_careful m) (fun _ _ => trivial) _ _ [] m1 hstart) ?_
  intro r m2 hr
  cases hr with
  | gaveUp _ hrs => exact fun _ => hrs Ctx.quiet_not_faulty
  | @done st l _ h =>
    by_cases hrem : st.remaining = 0
    · simp only [hrem, ne_eq, not_true_eq_false, if_false, Prog.wp_bind]
      refine Prog.wp_mono (wp_commitEntry_false hg existing _ _) ?_
      intro ok m3 hun
      cases ok with
      | false =>
        simp only [Bool.false_eq_true, if_false]
        exact NewChain.wp_giveBack hg (by rw [hun rfl]; exact h.chain)
      | true =>
        simp only [if_true]
        split
        · rename_i hold
          exact Prog.wp_mono (wp_freeClusterChain_true hold.1) (fun ok m4 h => rolledBack_of_true h)
        · exact rolledBack_of_true rfl
    · simp only [hrem, ne_eq, not_false_eq_true, if_true]
      exact h.chain.wp_giveBack hg

theorem wp_copyContents_false (hg : g.Valid) {x : DirectoryEntry} {l : List Nat} {first : Nat}
    {m₀ : DriverMem} (h : NewChain g m₀.disk l first first m.disk)
    (hstart : x.fileSize.toNat ≠ 0 → l ≠ []) (hmoved : m₀.Moved m) :
    (copyContents g fuel x dir name first).wp Ctx.quiet (RolledBack g m₀.disk) m := by
  unfold copyContents
  rw [Prog.wp_bind]
  refine Prog.wp_mono (wp_copyLoop hg (quiet_careful m₀) (fun _ _ => trivial) _ _ first _ l m h hstart
    hmoved) ?_
  intro r m1 hr
  cases hr with
  | gaveUp _ hrs => exact fun _ => hrs Ctx.quiet_not_faulty
  | @done remaining last l' _ h1 _ =>
    by_cases hrem : remaining = 0
    · simp only [hrem, ne_eq, not_true_eq_false, if_false, Prog.wp_bind]
      refine Prog.wp_mono (wp_createEntry_false hg name _ _ _) ?_
      intro ok m2 hun
      cases ok with
      | false =>
        simp only [Bool.false_eq_true, if_false]
        exact NewChain.wp_giveBack hg (by rw [hun rfl]; exact h1)
      | true => exact rolledBack_of_true rfl
    · simp only [hrem, ne_eq, not_false_eq_true, if_true]
      exact h1.wp_giveBack hg

theorem wp_copyFileBetweenDirs_false (hg : g.Valid) (srcDir : Nat) (srcName : CStr) (dstDir : Nat)
    (dstName : CStr) : (copyFileBetweenDirs g fuel srcDir srcName dstDir dstName).wp Ctx.quiet
      (RolledBack g m.disk) m := by
  unfold copyFileBetweenDirs
  split
  · exact rolledBack_of_eq rfl
  cases formatName srcName with
  | none => exact rolledBack_of_eq rfl
  | some src83 =>
    cases formatName dstName with
    | none => exact rolledBack_of_eq rfl
    | some dst83 =>
      by_cases hsame : (∀ i, src83 i = dst83 i) ∧ srcDir = dstDir
      · simp only [if_pos hsame]
        exact rolledBack_of_eq rfl
      simp only [if_neg hsame, Prog.wp_bind]
      refine Prog.wp_mono (wp_findEntryInternal_frame trivial srcDir fuel srcName) ?_
      rintro r m1 ⟨hd1, hst1⟩
      cases r with
      | none => exact rolledBack_of_eq hd1
      | some src =>
        by_cases hk : src.entry.isDirectory = true
        · simp only [hk, if_true]
          exact rolledBack_of_eq hd1
        simp only [hk, Bool.false_eq_true, if_false, Prog.wp_bind]
        refine Prog.wp_mono (wp_findEntryInternal_frame trivial dstDir fuel dstName) ?_
        rintro r2 m2 ⟨hd2, hst2⟩
        have hdisk2 : m2.disk = m.disk := hd2.trans hd1
        have hmoved2 : m.Moved m2 := ⟨by omega, fun _ => hdisk2⟩
        have hempty : NewChain g m.disk [] 0 0 m2.disk := by
          rw [hdisk2]; exact NewChain.empty g m.disk
        cases r2 with
        | some _ => exact rolledBack_of_eq hdisk2
        | none =>
          by_cases hsize : src.entry.fileSize.toNat > 0
          · simp only [hsize, if_true]
            by_cases h2 : src.entry.clusterLow.toNat < 2
            · simp only [h2, if_true]
              exact rolledBack_of_eq hdisk2
            · simp only [h2, if_false, Prog.wp_bind]
              refine Prog.wp_mono (Prog.wp_moved (wp_allocCluster hg (fun _ _ _ _ _ => trivial))) ?_
              rintro r3 m3 ⟨ha, hmv3⟩
              cases ha with
              | full hd3 _ => exact rolledBack_of_eq (hd3.trans hdisk2)
              | broke _ _ _ hf => exact absurd hf.faulty Ctx.quiet_not_faulty
              | took hc hfree _ hd3 =>
                exact wp_copyContents_false hg (hempty.start hg ⟨hc, hfree⟩ hd3) (fun _ => by simp)
                  (hmoved2.trans hmv3)
          · simp only [hsize, if_false]
            exact wp_copyContents_false hg hempty (fun h => absurd (Nat.pos_of_ne_zero h) hsize)
              hmoved2

/-! ## What a failed call leaves -/

/-- A cluster that is free in the first copy of the table is free in every copy. -/
def Mirrored (g : Globals) (d : Disk) : Prop :=
  ∀ c, FreeCluster g d c → ∀ k < g.bpb.fatCount, fatValue g.fatType d (g.copyStart k) c = 0

/-- Every copy of the table, every directory slot and the data of every allocated cluster are the
same on both disks. -/
structure Untouched (g : Globals) (d d' : Disk) : Prop where
  fat : ∀ lba, g.isFatSector lba → d' lba = d lba
  slots : ∀ c l p, IsDir g d c → Chained g d c l → p ∈ dirSlots g c l → entryAt d' p = entryAt d p
  data : ∀ c, g.isDataCluster c = true → fatGet g d c ≠ 0 → ∀ lba ∈ clusterSectors g c,
    d' lba = d lba

theorem nib_of_fatValue_zero {t : FatType} {base c : Nat} (h : fatValue t d base c = 0) :
    ∀ i < t.width, nib d base (t.width * c + i) = 0 := by
  intro i hi
  cases t with
  | fat12 =>
    simp only [fatValue, FatType.width] at h hi ⊢
    rcases (by omega : i = 0 ∨ i = 1 ∨ i = 2) with rfl | rfl | rfl
    · rw [Nat.add_zero]; omega
    · omega
    · omega
  | fat16 =>
    simp only [fatValue, FatType.width] at h hi ⊢
    rcases (by omega : i = 0 ∨ i = 1 ∨ i = 2 ∨ i = 3) with rfl | rfl | rfl | rfl
    · rw [Nat.add_zero]; omega
    · omega
    · omega
    · omega

theorem Restored.table_eq (hm : Mirrored g d) (h : Restored g d e) :
    Touches g (fun _ => False) (SectorOf g (FreeCluster g d)) d e := by
  obtain ⟨l, hfree, ht, hzero⟩ := h.ex
  have hwidth : 0 < g.fatType.width := by cases g.fatType <;> decide
  refine ⟨fun k hk q hq _ => ?_, fun lba hl hs => ?_⟩
  · by_cases hql : q / g.fatType.width ∈ l
    · have hmod := Nat.mod_lt q hwidth
      have h0 := nib_of_fatValue_zero (hm _ (hfree _ hql) k hk) _ hmod
      have h1 := nib_of_fatValue_zero (hzero _ hql k hk) _ hmod
      rw [Nat.div_add_mod] at h0 h1
      rw [h0, h1]
    · exact ht.fat k hk q hq hql
  · refine ht.sec lba hl ?_
    rintro ⟨c, hc, hlc⟩
    exact hs ⟨c, hfree c hc, hlc⟩

theorem Restored.untouched (hm : Mirrored g d) (h : Restored g d e) : Untouched g d e := by
  have ht := h.table_eq hm
  refine ⟨fun lba hl => ht.fatSector_eq hl, fun c l p _ hl hp => ?_, fun c hc hnz lba hlba => ?_⟩
  · have hp1 := (mem_slotsOf.mp hp).1
    exact entryAt_congr (ht.sec p.1 (dirSector_not_fat hp1) (dirSector_not_scratch hl hp1))
  · refine ht.sec lba (clusterSector_not_fat hlba) ?_
    rintro ⟨x, ⟨hx, hfree⟩, hlx⟩
    have := clusterSectors_disjoint (isDataCluster_iff.mp hx).1 (isDataCluster_iff.mp hc).1 hlx hlba
    exact hnz (this ▸ hfree)

/-- The calls that give back what they took: all but `fat16_mkdir`. -/
inductive RollsBack (g : Globals) (fuel : Nat) : DiskProg Bool → Prop where
  | writeFileFromDir (dir : Nat) (name : CStr) (buffer : Option (Nat → Byte)) (size : Int) :
      RollsBack g fuel (Fat16.writeFileFromDir g fuel dir name buffer size)
  | deleteEntry (dir : Nat) (name : CStr) (freeChain : Bool) :
      RollsBack g fuel (Fat16.deleteEntry g fuel dir name freeChain)
  | copyFileBetweenDirs (srcDir : Nat) (srcName : CStr) (dstDir : Nat) (dstName : CStr) :
      RollsBack g fuel (Fat16.copyFileBetweenDirs g fuel srcDir srcName dstDir dstName)
  | rmdir (dir : Nat) (name : CStr) : RollsBack g fuel (Fat16.rmdir g fuel dir name)
  | updateEntry (dir : Nat) (oldName newName : CStr) (firstCluster fileSize : Nat)
      (attributes : UInt8) : RollsBack g fuel
        (Fat16.updateEntry g fuel dir oldName newName firstCluster fileSize attributes)

theorem RollsBack.wp_false {p : DiskProg Bool} (hg : g.Valid) (hp : RollsBack g fuel p) :
    p.wp Ctx.quiet (RolledBack g m.disk) m := by
  have hsame : ∀ ok (m' : DriverMem), Unchanged m.disk ok m' → RolledBack g m.disk ok m' :=
    fun ok m' h hf => by rw [h hf]; exact Restored.refl g m.disk
  cases hp with
  | writeFileFromDir dir name buffer size => exact wp_writeFileFromDir_false hg buffer size
  | deleteEntry dir name freeChain =>
    exact Prog.wp_mono (wp_deleteEntry_false name freeChain) hsame
  | copyFileBetweenDirs srcDir srcName dstDir dstName =>
    exact wp_copyFileBetweenDirs_false hg srcDir srcName dstDir dstName
  | rmdir dir name => exact Prog.wp_mono (wp_rmdir_false name) hsame
  | updateEntry dir oldName newName firstCluster fileSize attributes =>
    exact Prog.wp_mono (wp_updateEntry_false oldName newName _ _ _) hsame

/-- A call that returns 0 has changed nothing but free clusters, whatever its arguments. -/
theorem failed_call_untouched {p : DiskProg Bool} (hp : RollsBack g fuel p) (hg : g.Valid)
    (hm : Mirrored g m.disk) {m' : DriverMem} (hrun : p.run noFaults m = some (false, m')) :
    Untouched g m.disk m'.disk := by
  have h := (Prog.run_of_wp noFaults (fun _ hf => by cases hf) (hp.wp_false hg)).1 false m' hrun
  exact (h rfl).untouched hm

theorem blankDisk_mirrored : Mirrored smallVolume blankDisk := by
  rintro c - k -
  have hbyte : ∀ base j, fatByte blankDisk base j = 0 := fun _ _ => rfl
  have hnib : ∀ base q, nib blankDisk base q = 0 := by
    intro base q
    simp [nib, hbyte]
  show nib _ _ _ + 16 * nib _ _ _ + 256 * nib _ _ _ = 0
  rw [hnib, hnib, hnib]

/-- A write of one byte to `A B`, which is no name. -/
theorem failed_call_untouched_blank : ∃ m', (writeFileFromDir smallVolume 3 0 [0x41, 0x20, 0x42]
      (some (fun _ => 1)) 1).run noFaults blankMem = some (false, m') ∧
    Untouched smallVolume blankDisk m'.disk := by
  have hok : ((writeFileFromDir smallVolume 3 0 [0x41, 0x20, 0x42] (some (fun _ => 1)) 1).run
      noFaults blankMem).map Prod.fst = some false := by decide +kernel
  obtain ⟨⟨ok, m'⟩, hrun, rfl⟩ := Option.map_eq_some_iff.mp hok
  exact ⟨m', hrun, failed_call_untouched (.writeFileFromDir 0 [0x41, 0x20, 0x42] _ 1)
    smallVolume_valid blankDisk_mirrored hrun⟩

/-- The blank volume with a stray value for cluster 2 in the second copy of the table. -/
def strayMem : DriverMem :=
  { blankMem with disk := putSector blankDisk 2 (Sector.zero.set 3 0x55) }

/-- The driver reads the first copy and writes all of them: there the same write leaves 0. -/
theorem failed_write_clears_copy : WellFormed smallVolume strayMem.disk ∧
    ∃ m', (writeFileFromDir smallVolume 3 0 [0x41, 0x20, 0x42] (some (fun _ => 1)) 1).run noFaults
      strayMem = some (false, m') ∧ smallVolume.isFatSector 2 ∧
      (m'.disk 2).get 3 = 0 ∧ (strayMem.disk 2).get 3 = 0x55 := by
  have hok : ((writeFileFromDir smallVolume 3 0 [0x41, 0x20, 0x42] (some (fun _ => 1)) 1).run
      noFaults strayMem).map (fun r => (r.1, (r.2.disk 2).get 3)) = some (false, 0) := by
    decide +kernel
  obtain ⟨⟨ok, m'⟩, hrun, hres⟩ := Option.map_eq_some_iff.mp hok
  obtain ⟨rfl, hbyte⟩ := Prod.mk.inj hres
  exact ⟨wellFormed_of_empty_root (by decide +kernel), m', hrun, ⟨by decide, by decide⟩, hbyte,
    by decide +kernel⟩

end Fat16
end MiniDos
