import MiniDos.Fat.Halting
import MiniDos.Fat.Sweep

/-!
# MiniDos.Fat.SweepHalt

Which walks of `fat16_delete_matching` come back. Unlike the other walks this one changes the disk
as it goes: it marks slots, and it frees chains.

* `Eroded`: freeing can only cut the walk short, so a walk that leaves the data clusters still does.
* `Worn`: where no chain is freed the end marks and the links stay, so the walk comes back exactly
  when it meets an end mark or leaves the data clusters.
-/

namespace MiniDos
namespace Fat16

open BlockIO Walk

variable {g : Globals} {m : DriverMem} {d d' : Disk} {pattern : CStr} {freeChain : Bool}

/-- Every link is as it was, or zero. -/
def Eroded (g : Globals) (d d' : Disk) : Prop :=
  ∀ c, g.isDataCluster c = true → fatGet g d' c = fatGet g d c ∨ fatGet g d' c = 0

theorem Eroded.refl (g : Globals) (d : Disk) : Eroded g d d := fun _ _ => .inl rfl

theorem Eroded.trans {d'' : Disk} (h : Eroded g d d') (h' : Eroded g d' d'') : Eroded g d d'' := by
  intro c hc
  rcases h' c hc with h' | h'
  · rw [h']
    exact h c hc
  · exact .inr h'

structure TableRoom (g : Globals) : Prop where
  copies : 0 < g.bpb.fatCount
  room : g.fatType.width * (g.getTotalClusters + 2) ≤ 1024 * g.bpb.sectorsPerFat
  small : g.getTotalClusters < 65525

namespace TableRoom

variable (hg : TableRoom g)
include hg

theorem acts : Acts g g := acts_of_room hg.copies hg.room

theorem mod_eq {c : Nat} (hc : g.isDataCluster c = true) : c % 65536 = c := by
  have := (isDataCluster_iff.mp hc).2
  have := hg.small
  omega

theorem fatGet_eq {S : Nat → Prop} (hS : ∀ lba, S lba → ¬ g.isFatSector lba)
    (h : ∀ lba, ¬ S lba → d' lba = d lba) {c : Nat} (hc : g.isDataCluster c = true) :
    fatGet g d' c = fatGet g d c := by
  have ht : Touches g (fun _ => False) S d d' := .of_sectors hS h
  have hv := ht.fatValue_eq hg.copies (hg.acts.inTable c (isDataCluster_iff.mp hc).2) not_false
  rwa [copyStart_zero] at hv

theorem eroded_putSector {c lba : Nat} (hl : lba ∈ clusterSectors g c) (s : Sector) :
    Eroded g d (putSector d lba s) := by
  have hfat : ∀ x, x = lba → ¬ g.isFatSector x := fun _ he => he ▸ clusterSector_not_fat hl
  exact fun _ hc => .inl (hg.fatGet_eq hfat (fun _ hne => putSector_of_ne _ _ hne) hc)

theorem wp_freeClusterChain (start : Nat) : (freeClusterChain g start).wp (.total fun _ => True)
    (fun _ m' => Eroded g m.disk m'.disk) m := by
  unfold freeClusterChain
  split
  · exact .refl g _
  · refine Prog.wp_mono (wp_freeLoop_any hg.acts _ start [] m .refl
      ⟨fun _ h => absurd h List.not_mem_nil, .refl⟩ (by simp)) ?_
    rintro ok m' ⟨l, _, hl⟩ c hc
    by_cases hm : c ∈ l
    · exact .inr (hl.free c hm)
    · exact .inl (hg.acts.fatGet_kept hl.touches (isDataCluster_iff.mp hc).2 hm)

theorem wp_sweepSlots_eroded : ∀ (n i deleted : Nat) (m : DriverMem),
    (sweepSlots g pattern freeChain n i deleted).wp (.total fun _ => True)
      (fun _ m' => Eroded g m.disk m'.disk) m := by
  intro n
  induction n with
  | zero => exact fun _ _ m => .refl g m.disk
  | succ n ih =>
    intro i deleted m
    have hmark : ∀ (ok : Bool) (m' : DriverMem), Eroded g m.disk m'.disk →
        ((if ok then do
          let s ← load .main
          store .main (s.setEntry i (deletedEntry (s.entry i)))
          sweepSlots g pattern freeChain n (i + 1) (deleted + 1)
        else pure .failed) : DiskProg Sweep).wp (.total fun _ => True)
          (fun _ m' => Eroded g m.disk m'.disk) m' := by
      intro ok m' he
      cases ok with
      | false => exact he
      | true =>
        simp only [if_true, Prog.wp_bind, wp_load, wp_store]
        exact Prog.wp_mono (ih _ _ _) (fun _ _ h => he.trans h)
    unfold sweepSlots
    simp only [Prog.wp_bind, wp_load]
    split
    · exact .refl g m.disk
    split
    · exact ih _ _ m
    split
    · exact ih _ _ m
    split
    · exact ih _ _ m
    split
    · rw [Prog.wp_bind]
      exact Prog.wp_mono (hg.wp_freeClusterChain _) (fun ok m' he => hmark ok m' he)
    · exact hmark true m (.refl g m.disk)

theorem wp_sweepCluster_eroded {c w : Nat}
    (hw : ∀ k < w, g.clusterSector c + k ∈ clusterSectors g c) : ∀ (n k deleted : Nat)
    (m : DriverMem), k + n ≤ w → (sweepSectors g pattern freeChain (g.clusterSector c) n k deleted).wp
      (.total fun _ => True) (fun _ m' => Eroded g m.disk m'.disk) m := by
  intro n
  induction n with
  | zero => exact fun _ _ m _ => .refl g m.disk
  | succ n ih =>
    intro k deleted m hle
    unfold sweepSectors
    simp only [Prog.wp_bind, wp_readSector]
    refine ⟨fun h => h.elim, ?_⟩
    simp only [if_true, Prog.wp_bind]
    refine Prog.wp_mono (hg.wp_sweepSlots_eroded entriesPerSector 0 deleted _) ?_
    intro r m1 he
    cases r with
    | endMark deleted => exact he
    | failed => exact he
    | done deleted =>
      simp only [Prog.wp_bind, wp_writeSector]
      refine ⟨fun h => h.elim, trivial, ?_⟩
      simp only [if_true]
      refine Prog.wp_mono (ih (k + 1) deleted _ (by omega)) ?_
      intro r m2 he2
      exact he.trans ((hg.eroded_putSector (hw k (by omega)) _).trans he2)

theorem wp_sweepCluster_any (c deleted : Nat) :
    (sweepSectors g pattern freeChain (g.clusterSector c) g.bpb.sectorsPerCluster 0 deleted).wp
      (.total fun _ => True) (fun _ m' => Eroded g m.disk m'.disk) m := by
  have hw : ∀ k < g.bpb.sectorsPerCluster, g.clusterSector c + k ∈ clusterSectors g c :=
    fun k hk => mem_clusterSectors.mpr (by omega)
  exact hg.wp_sweepCluster_eroded hw _ 0 deleted m (by omega)

/-- A walk that leaves the data clusters after `k` rounds does so however it is cut short. -/
theorem ends_sweepClusters_of_leaves : ∀ (k fuel c deleted : Nat) (m : DriverMem), k ≤ fuel →
    ¬ g.isDataCluster ((nextCluster g d)^[k] c) = true → Eroded g d m.disk →
      (sweepClusters g pattern freeChain fuel c deleted).Ends m := by
  have hstop : ∀ (fuel c deleted : Nat) (m : DriverMem), ¬ g.isDataCluster c = true →
      (sweepClusters g pattern freeChain fuel c deleted).Ends m := by
    intro fuel c deleted m hc
    cases fuel with
    | zero => rw [sweepClusters, if_neg hc]; exact Prog.ends_pure _ _
    | succ fuel => rw [sweepClusters, if_neg hc]; exact Prog.ends_pure _ _
  intro k
  induction k with
  | zero => exact fun fuel c deleted m _ hc _ => hstop fuel c deleted m hc
  | succ k ih =>
    intro fuel c deleted m hk hleaves he
    by_cases hc : g.isDataCluster c = true
    · obtain ⟨fuel, rfl⟩ : ∃ f, fuel = f + 1 := ⟨fuel - 1, by omega⟩
      rw [sweepClusters, if_pos hc]
      refine (Prog.ends_bind_iff (hg.wp_sweepCluster_any c deleted)
        (fun r m1 he1 => iff_true_intro ?_)).mpr trivial
      cases r with
      | ok r => exact Prog.ends_pure _ _
      | error deleted =>
        refine (Prog.ends_bind_iff (wp_readFatEntry_total _ m1)
          (fun v m2 hv => iff_true_intro ?_)).mpr trivial
        obtain ⟨hd2, rfl⟩ := hv
        have he2 : Eroded g d m2.disk := hd2.symm ▸ he.trans he1
        rw [hg.mod_eq hc]
        rcases he.trans he1 c hc with hsame | hzero
        · refine ih fuel _ deleted m2 (by omega) ?_ he2
          rw [hsame]
          rw [Function.iterate_succ_apply, nextCluster, hg.mod_eq hc] at hleaves
          exact hleaves
        · rw [hzero]
          exact hstop fuel 0 deleted m2 (by rw [zero_not_data]; decide)
    · exact hstop fuel c deleted m hc

end TableRoom

/-! ## Sweeps that free no chain -/

def hasChain (pattern : CStr) (freeChain : Bool) (e : DirectoryEntry) : Bool :=
  doomed pattern e && (freeChain && decide (2 ≤ e.clusterLow.toNat))

/-- No entry with a chain to free stands in front of the first end mark. -/
def Quiet (pattern : CStr) (freeChain : Bool) (d : Disk) : List Slot → Prop
  | [] => True
  | p :: ps => (entryAt d p).isEnd = true ∨
      (hasChain pattern freeChain (entryAt d p) = false ∧ Quiet pattern freeChain d ps)

def SlotKept (pattern : CStr) (e e' : DirectoryEntry) : Prop :=
  e' = e ∨ (doomed pattern e = true ∧ e' = deletedEntry e)

theorem SlotKept.isEnd_eq {e e' : DirectoryEntry} (h : SlotKept pattern e e') : e'.isEnd = e.isEnd := by
  rcases h with rfl | ⟨hd, rfl⟩
  · rfl
  · rw [deletedEntry_isEnd]
    cases he : e.isEnd with
    | false => rfl
    | true => rw [doomed_of_isEnd he] at hd; cases hd

theorem SlotKept.hasChain {e e' : DirectoryEntry} (h : SlotKept pattern e e')
    (hc : hasChain pattern freeChain e = false) : hasChain pattern freeChain e' = false := by
  rcases h with rfl | ⟨_, rfl⟩
  · exact hc
  · have : doomed pattern (deletedEntry e) = false := by
      simp [doomed, DirectoryEntry.isVisible, deletedEntry_isDeleted]
    simp [Fat16.hasChain, this]

theorem SlotKept.trans {e e' e'' : DirectoryEntry} (h : SlotKept pattern e e') (h' : SlotKept pattern e' e'') :
    SlotKept pattern e e'' := by
  rcases h' with rfl | ⟨hd, rfl⟩
  · exact h
  · rcases h with rfl | ⟨_, rfl⟩
    · exact .inr ⟨hd, rfl⟩
    · rw [doomed, DirectoryEntry.isVisible, deletedEntry_isDeleted] at hd
      simp at hd

/-- Nothing but sectors of data clusters was written, and in them slots were marked. -/
structure Worn (g : Globals) (pattern : CStr) (d d' : Disk) : Prop where
  sector : ∀ lba, (∀ c, lba ∉ clusterSectors g c) → d' lba = d lba
  slot : ∀ p : Slot, p.2 < 16 → SlotKept pattern (entryAt d p) (entryAt d' p)

namespace Worn

theorem refl (g : Globals) (pattern : CStr) (d : Disk) : Worn g pattern d d :=
  ⟨fun _ _ => rfl, fun _ _ => .inl rfl⟩

theorem trans {d'' : Disk} (h : Worn g pattern d d') (h' : Worn g pattern d' d'') :
    Worn g pattern d d'' :=
  ⟨fun lba hl => (h'.sector lba hl).trans (h.sector lba hl),
    fun p hp => (h.slot p hp).trans (h'.slot p hp)⟩

variable (h : Worn g pattern d d')
include h

theorem fatGet_eq (hg : TableRoom g) {c : Nat} (hc : g.isDataCluster c = true) :
    fatGet g d' c = fatGet g d c := by
  have hfat : ∀ lba, (∃ c, lba ∈ clusterSectors g c) → ¬ g.isFatSector lba :=
    fun lba ⟨_, hl⟩ => clusterSector_not_fat hl
  exact hg.fatGet_eq hfat (fun lba hl => h.sector lba (fun c hc => hl ⟨c, hc⟩)) hc

theorem quiet {ps : List Slot} (hps : ∀ p ∈ ps, p.2 < 16) (hq : Quiet pattern freeChain d ps) :
    Quiet pattern freeChain d' ps := by
  induction ps with
  | nil => trivial
  | cons p ps ih =>
    have hp := h.slot p (hps p List.mem_cons_self)
    rcases hq with hend | ⟨hc, hq⟩
    · exact .inl (by rw [hp.isEnd_eq]; exact hend)
    · exact .inr ⟨hp.hasChain hc, ih (fun q hq => hps q (List.mem_cons_of_mem _ hq)) hq⟩

end Worn

/-- How the scan of the `n` slots from `i` on ends when no chain is freed and the buffer held `s`. -/
def Passed (pattern : CStr) (d : Disk) (lba : Nat) (s : Sector) (n i : Nat) (disk : Disk) (r : Sweep)
    (m : DriverMem) : Prop :=
  m.disk = disk ∧
    (((∃ p ∈ (List.range' i n).map (fun k => (lba, k)), (entryAt d p).isEnd = true) ∧
        ∃ deleted, r = .endMark deleted) ∨
      ((¬ ∃ p ∈ (List.range' i n).map (fun k => (lba, k)), (entryAt d p).isEnd = true) ∧
        (∃ deleted, r = .done deleted) ∧ m.buf .main = markSlots pattern n i s))

theorem Passed.cons {lba : Nat} {s : Sector} {n i : Nat} {disk : Disk} {r : Sweep}
    (hend : ¬ (entryAt d (lba, i)).isEnd = true)
    (h : Passed pattern d lba (markSlot pattern s i) n (i + 1) disk r m) :
    Passed pattern d lba s (n + 1) i disk r m := by
  refine ⟨h.1, ?_⟩
  rw [List.range'_succ, List.map_cons, List.exists_mem_cons_iff]
  simp only [hend, Bool.false_eq_true, false_or]
  exact h.2

theorem straight_freeLoop : ∀ n c, (freeLoop g n c).Straight := by
  intro n
  induction n with
  | zero => exact fun _ => trivial
  | succ n ih =>
    intro c
    refine .ite (.bind (straight_readFatEntry _) (fun next => ?_)) trivial
    exact .bind (straight_writeFatEntry _ _) (fun ok => .ite (.ite trivial (ih next)) trivial)

theorem straight_freeClusterChain (start : Nat) : (freeClusterChain g start).Straight :=
  .ite trivial (straight_freeLoop _ start)

theorem straight_sweepSlots : ∀ n i deleted, (sweepSlots g pattern freeChain n i deleted).Straight := by
  intro n
  induction n with
  | zero => exact fun _ _ => trivial
  | succ n ih =>
    intro i deleted
    have hmark : ∀ ok : Bool, ((if ok then do
        let s ← load .main
        store .main (s.setEntry i (deletedEntry (s.entry i)))
        sweepSlots g pattern freeChain n (i + 1) (deleted + 1)
      else pure .failed) : DiskProg Sweep).Straight := by
      refine fun ok => .ite (.bind (by simp) (fun s => .bind (by simp) (fun _ => ih _ _))) trivial
    refine .bind (by simp) (fun s => .ite trivial ?_)
    refine .ite (ih _ _) (.ite (ih _ _) (.ite (ih _ _) ?_))
    exact .ite (.bind (straight_freeClusterChain _) hmark) (.bind trivial hmark)

theorem straight_sweepSectors (base : Nat) : ∀ n k deleted,
    (sweepSectors g pattern freeChain base n k deleted).Straight := by
  intro n
  induction n with
  | zero => exact fun _ _ => trivial
  | succ n ih =>
    intro k deleted
    refine .bind (by simp) (fun ok => .ite ?_ trivial)
    refine .bind (straight_sweepSlots _ _ _) (fun r => ?_)
    cases r with
    | endMark deleted => trivial
    | failed => trivial
    | done deleted => exact .bind (by simp) (fun ok => .ite (ih _ _) trivial)

theorem deleteMatching_ends_root (fuel : Nat) (m : DriverMem) :
    (deleteMatching g fuel 0 pattern freeChain).Ends m := by
  have hs : (deleteMatching g fuel 0 pattern freeChain).Straight := by
    refine .ite trivial (.bind (straight_sweepSectors _ _ _ _) (fun r => ?_))
    cases r <;> trivial
  exact hs.ends m

end Fat16
end MiniDos
