import MiniDos.Fat.ReadFound

/-!
# MiniDos.Fat.ReadFault

`fat16_read_file_from_dir` on a device whose reads fail in any pattern. Reads of the table are
checked, those of directories and files are not.

* `tells_readFileFromDir`: stale content is taken exactly when a read of a sector of the directory,
  or of one with bytes to be returned, fails.
* `read_survives_iff`: otherwise the bytes returned are a front of the file.
-/

namespace MiniDos
namespace Fat16

open BlockIO Chain

variable {g : Globals} {m : DriverMem} {d : Disk} {dir fuel max : Nat} {name : CStr} {F : Nat → Prop}

/-! ## The table -/

theorem isFatSector_of_data (hg : g.Valid) {c j : Nat} (hc : g.isDataCluster c = true)
    (hj : j ≤ g.fatType.entryByte c + 1) : g.isFatSector (g.bpb.reservedSectors + j / 512) := by
  have hroom := entryByte_inTable (inTable_of_data hg hc)
  have hcopies : g.bpb.sectorsPerFat ≤ g.bpb.fatCount * g.bpb.sectorsPerFat :=
    Nat.le_mul_of_pos_left _ hg.fatCount
  unfold Globals.isFatSector Globals.getRootDirStart
  omega

/-- All reads of the table are checked before the buffers are looked at. -/
theorem tells_readFatEntry (hfat : ∀ lba, g.isFatSector lba → F lba) (hg : g.Valid) {c : Nat}
    (hc : g.isDataCluster c = true) (m : DriverMem) : (readFatEntry g c).Tells F m := by
  have hsector := fun j hj => hfat _ (isFatSector_of_data (j := j) hg hc hj)
  intro fails stale
  unfold readFatEntry
  have haux : (Buffer.main : Buffer) ≠ .aux := by decide
  cases ht : g.fatType with
  | fat12 =>
    rw [ht] at hsector
    have h0 := hsector (c + c / 2) (Nat.le_succ _)
    simp only [sectorSize, Prog.takesStale_readSector_bind, Prog.failedAt_readSector_bind]
    cases hf : fails m.accesses with
    | true => simp [h0, Prog.takesStale_pure, Prog.failedAt_pure]
    | false =>
      by_cases hs : (c + c / 2) % 512 = 512 - 1
      · have h1 := hsector (c + c / 2 + 1) (Nat.le_refl _)
        rw [show (c + c / 2 + 1) / 512 = (c + c / 2) / 512 + 1 by omega, ← Nat.add_assoc] at h1
        simp only [hs, if_true, Prog.takesStale_readSector_bind, Prog.failedAt_readSector_bind]
        cases hf' : fails (m.fetch .main (g.bpb.reservedSectors + (c + c / 2) / 512)).accesses with
        | true => simp [h1, Prog.takesStale_pure, Prog.failedAt_pure]
        | false => simp [haux, Prog.takesStale_pure, Prog.failedAt_pure,
            Prog.takesStale_load_bind, Prog.failedAt_load_bind]
      · simp [hs, Prog.takesStale_pure, Prog.failedAt_pure, Prog.takesStale_load_bind,
          Prog.failedAt_load_bind]
  | fat16 =>
    rw [ht] at hsector
    have h0 := hsector (c * 2) (Nat.le_succ _)
    simp only [sectorSize, Prog.takesStale_readSector_bind, Prog.failedAt_readSector_bind]
    cases hf : fails m.accesses with
    | true => simp [h0, Prog.takesStale_pure, Prog.failedAt_pure]
    | false => simp [Prog.takesStale_pure, Prog.failedAt_pure, Prog.takesStale_load_bind,
        Prog.failedAt_load_bind]

/-! ## Files -/

theorem exists_of_mem_wanted {lba : Nat} : ∀ {l : List Nat} {n c k : Nat}, ChainFrom g d c l →
    lba ∈ wanted g d n c k → ∃ x ∈ l, lba ∈ clusterSectors g x := by
  intro l
  induction l with
  | nil =>
    intro n c k hc h
    have hstop : g.isDataCluster c = false := hc
    cases n with
    | zero => cases h
    | succ n => simp [wanted, hstop] at h
  | cons x l ih =>
    intro n c k hc h
    obtain ⟨rfl, hx, hl⟩ := hc
    cases n with
    | zero => cases h
    | succ n =>
      unfold wanted at h
      split at h
      · rcases List.mem_append.mp h with h | h
        · obtain ⟨i, hi, rfl⟩ := List.mem_map.mp h
          have := List.mem_range.mp (List.mem_filter.mp hi).1
          exact ⟨c, List.mem_cons_self, mem_clusterSectors.mpr (by omega)⟩
        · obtain ⟨y, hy, hlba⟩ := ih hl h
          exact ⟨y, List.mem_cons_of_mem _ hy, hlba⟩
      · cases h

theorem tells_readCopy {α : Type} {lba take : Nat} {out : List Byte} {f : List Byte → DiskProg α}
    (hF : F lba ↔ take = 0)
    (hf : ∀ m' : DriverMem, (f (out ++ (List.range take).map (m.disk lba).get)).Tells F m') :
    (do
      let _ ← readSector .main lba
      let out ← copyBytes take out
      f out : DiskProg α).Tells F m := by
  unfold copyBytes
  by_cases h0 : take = 0
  · subst h0
    rw [List.range_zero, List.map_nil, List.append_nil] at hf
    simp only [if_true]
    exact .read (hF.mpr rfl) (hf _) (hf _)
  · simp only [if_neg h0]
    exact .readLoad (fun hin => h0 (hF.mp hin)) (hf _)

theorem tells_readSectors (base max : Nat) : ∀ (n s : Nat) (pre : List Byte) (size : Nat)
    (m : DriverMem), (∀ i < n, F (base + s + i) ↔ ¬ 512 * i < min size (max - pre.length)) →
    (readSectors base max n s (pre.take max) size).Tells F m := by
  intro n
  induction n with
  | zero => exact fun _ _ _ _ _ => .pure _
  | succ n ih =>
    intro s pre size m hF
    unfold readSectors
    by_cases hsize : size > 0
    · rw [if_pos hsize]
      have hnext : ∀ m' : DriverMem, (readSectors base max n (s + 1) ((pre ++
          (List.ofFn (m.disk (base + s))).take (if size > 512 then 512 else size)).take max)
          (size - if size > 512 then 512 else size)).Tells F m' := by
        refine fun m' => ih (s + 1) _ _ m' (fun i hi => ?_)
        have hnext := hF (i + 1) (by omega)
        rw [show base + s + (i + 1) = base + (s + 1) + i by omega] at hnext
        rw [hnext, List.length_append, List.length_take, List.length_ofFn]
        split <;> omega
      rw [← take_chunk pre (m.disk (base + s)) max (by split <;> omega)] at hnext
      have hhead := hF 0 (by omega)
      rw [Nat.add_zero, Nat.mul_zero] at hhead
      refine tells_readCopy (hhead.trans ?_) hnext
      rw [List.length_take]
      split <;> omega
    · rw [if_neg hsize]
      exact .pure _

theorem mem_wanted_cons {n c k lba : Nat} (h : lba ∈ wanted g d (n + 1) c k) :
    (∃ i, lba = g.clusterSector c + i ∧ i < g.bpb.sectorsPerCluster ∧ 512 * i < k) ∨
      lba ∈ wanted g d n (fatGet g d c) (k - 512 * g.bpb.sectorsPerCluster) := by
  unfold wanted at h
  split at h
  · rcases List.mem_append.mp h with h | h
    · obtain ⟨i, hi, rfl⟩ := List.mem_map.mp h
      obtain ⟨hlt, hk⟩ := List.mem_filter.mp hi
      exact .inl ⟨i, rfl, List.mem_range.mp hlt, of_decide_eq_true hk⟩
    · exact .inr h
  · cases h

theorem clusters_disjoint {l : List Nat} {c x lba : Nat} (hl : ∀ y ∈ l, g.isDataCluster y = true)
    (hc : g.isDataCluster c = true) (hne : c ∉ l) (hx : x ∈ l) (hlba : lba ∈ clusterSectors g x) :
    lba ∉ clusterSectors g c := by
  intro h
  have := clusterSectors_disjoint (isDataCluster_iff.mp hc).1 (isDataCluster_iff.mp (hl x hx)).1 h hlba
  exact hne (this ▸ hx)

theorem tells_readClusters (hfat : ∀ lba, g.isFatSector lba → F lba) (hg : g.Valid) (max : Nat) :
    ∀ (fuel n c : Nat) (l : List Nat) (pre : List Byte) (size : Nat) (m : DriverMem),
    size ≤ fuel → size ≤ n → ChainFrom g m.disk c l →
    (∀ lba ∈ wanted g m.disk n c (min size (max - pre.length)), ¬ F lba) →
    (∀ x ∈ l, ∀ lba ∈ clusterSectors g x,
      lba ∉ wanted g m.disk n c (min size (max - pre.length)) → F lba) →
    (readClusters g max fuel c (pre.take max) size).Tells F m := by
  intro fuel
  induction fuel with
  | zero =>
    intro n c l pre size m hf _ _ _ _
    have hzero : size = 0 := by omega
    subst hzero
    rw [readClusters_stop (by simp)]
    exact .pure _
  | succ fuel ih =>
    intro n c l pre size m hf hn hl hin hout
    cases hgo : g.isDataCluster c && decide ((pre.take max).length < max) && decide (size > 0) with
    | false =>
      rw [readClusters_stop hgo]
      exact .pure _
    | true =>
      have hgo' := hgo
      simp only [Bool.and_eq_true, decide_eq_true_eq, List.length_take] at hgo'
      obtain ⟨⟨hc, hroom⟩, hsize⟩ := hgo'
      cases n with
      | zero => omega
      | succ n =>
        cases l with
        | nil => exact absurd hc (by rw [show g.isDataCluster c = false from hl]; simp)
        | cons x l =>
          have hnodup := List.nodup_cons.mp hl.nodup
          obtain ⟨rfl, _, hl⟩ := hl
          have hspc := hg.sectorsPerCluster
          have hapart : ∀ y ∈ l, ∀ lba ∈ clusterSectors g y, lba ∉ clusterSectors g c :=
            fun y hy lba hlba => clusters_disjoint hl.node_of_mem hc hnodup.1 hy hlba
          have hchunk : ((clusterBytes g m.disk c).take size).length =
              min size (512 * g.bpb.sectorsPerCluster) := by
            rw [List.length_take, clusterBytes_length]
          have hbytes : (List.range' 0 g.bpb.sectorsPerCluster).flatMap
              (fun i => List.ofFn (m.disk (g.clusterSector c + i))) = clusterBytes g m.disk c := by
            unfold clusterBytes clusterSectors
            rw [← List.range_eq_range', List.flatMap_map]
          have hwanted : ∀ i < g.bpb.sectorsPerCluster, F (g.clusterSector c + 0 + i) ↔
              ¬ 512 * i < min size (max - pre.length) := by
            intro i hi
            have hmem : g.clusterSector c + i ∈ clusterSectors g c := mem_clusterSectors.mpr (by omega)
            refine ⟨fun h hk => hin _ (mem_wanted_head hc hi hk) h, fun hk => ?_⟩
            refine hout c List.mem_cons_self _ hmem (fun h => ?_)
            rcases mem_wanted_cons h with ⟨j, hj, _, hjk⟩ | h
            · exact hk (by omega)
            · obtain ⟨y, hy, hly⟩ := exists_of_mem_wanted hl h
              exact hapart y hy _ hly hmem
          unfold readClusters
          rw [if_pos hgo]
          refine (tells_readSectors _ _ _ 0 pre size m hwanted).bind ?_
          refine Prog.wpAt_mono (wpAt_readSectors _ _ _ 0 pre size m (fun i hi hk =>
            hin _ (mem_wanted_head hc hi hk))) ?_
          rintro r m' ⟨hd, rfl⟩
          simp only [getNextCluster, Nat.mod_eq_of_lt (data_lt hg hc), hbytes]
          refine (tells_readFatEntry hfat hg hc m').bind ?_
          refine Prog.wpAt_mono (wpAt_readFatEntry c m') ?_
          rintro v m2 ⟨hd2, hv⟩
          rw [hd] at hd2 hv
          rcases hv with rfl | ⟨_, rfl⟩
          · have hleft := left_after pre max hchunk
            refine ih n _ l _ _ m2 (by omega) (by omega) (by rw [hd2]; exact hl) ?_ ?_
            · rw [hleft, hd2]
              exact fun lba h => hin lba (mem_wanted_tail hc (by omega) h)
            · rw [hleft, hd2]
              intro y hy lba hlba hnot
              refine hout y (List.mem_cons_of_mem _ hy) lba hlba (fun h => ?_)
              rcases mem_wanted_cons h with ⟨i, rfl, hi, _⟩ | h
              · exact hapart y hy _ hlba (mem_clusterSectors.mpr (by omega))
              · exact hnot h
          · rw [readClusters_stop (by
              rw [endMark_not_data hg (endOfChain_isEndMark g)]; rfl)]
            exact .pure _

/-! ## Directories -/

section Loops

variable {γ δ : Type} {body : Nat → DiskProg (Option γ)} {t : Nat → Option δ} {G : δ → γ → Prop}

/-- The body decides on the sector as `t` says, and takes no stale content unless a read outside `F`
fails. -/
structure Tracked (F : Nat → Prop) (d : Disk) (body : Nat → DiskProg (Option γ)) (t : Nat → Option δ)
    (G : δ → γ → Prop) (lba : Nat) : Prop where
  decides : Decides F d body t G lba
  tells : ∀ m : DriverMem, m.disk = d → (body lba).Tells F m

theorem tells_forSectors (base : Nat) : ∀ (n s : Nat) (m : DriverMem),
    (∀ lba, GetsTo t ((List.range' s n).map (fun i => base + i)) lba → Tracked F d body t G lba) →
    m.disk = d → (forSectors base body n s).Tells F m := by
  intro n
  induction n with
  | zero => exact fun _ _ _ _ => .pure _
  | succ n ih =>
    intro s m hb hd
    rw [List.range'_succ, List.map_cons] at hb
    have hhead := hb _ (.head _ _)
    unfold forSectors
    refine (hhead.tells m hd).bind (Prog.wpAt_mono (hhead.decides m hd) ?_)
    rintro r m' ⟨hd', hr⟩
    generalize hfound : t (base + s) = found at hr
    cases hr with
    | none =>
      refine ih (s + 1) m' (fun lba hl => hb lba ?_) hd'
      exact hl.right (a := [base + s]) (by rw [List.findSome?_cons, hfound]; rfl)
    | some h => exact .pure _

theorem tells_whileDataCluster (hfat : ∀ lba, g.isFatSector lba → F lba) (hg : g.Valid) :
    ∀ (l : List Nat) (fuel c : Nat) (m : DriverMem), ChainFrom g d c l → l.length ≤ fuel →
    (∀ lba, GetsTo t (l.flatMap (clusterSectors g)) lba → Tracked F d body t G lba) →
    m.disk = d → (whileDataCluster g body fuel c).Tells F m := by
  intro l
  induction l with
  | nil =>
    intro fuel c m hc _ _ _
    rw [whileDataCluster_stop hc]
    exact .pure _
  | cons x l ih =>
    intro fuel c m hc hlen hb hd
    obtain ⟨rfl, hx, hl⟩ := hc
    cases fuel with
    | zero => simp at hlen
    | succ fuel =>
      rw [List.flatMap_cons] at hb
      have hhere : ∀ lba, GetsTo t ((List.range' 0 g.bpb.sectorsPerCluster).map
          (fun i => g.clusterSector c + i)) lba → Tracked F d body t G lba := by
        rw [sectors_of_cluster]
        exact fun lba hr => hb lba (hr.left _)
      unfold whileDataCluster
      rw [if_pos hx]
      refine (tells_forSectors _ _ 0 m hhere hd).bind (Prog.wpAt_mono
        (wpAt_forSectors _ _ 0 m (fun lba hr => (hhere lba hr).decides) hd) ?_)
      rw [sectors_of_cluster]
      rintro r m' ⟨hd', hr⟩
      generalize hfound : (clusterSectors g c).findSome? t = found at hr
      cases hr with
      | some h => exact .pure _
      | none =>
        simp only [getNextCluster, Nat.mod_eq_of_lt (data_lt hg hx)]
        refine (tells_readFatEntry hfat hg hx m').bind
          (Prog.wpAt_mono (wpAt_readFatEntry c m') ?_)
        rintro v m2 ⟨hd2, hv⟩
        rw [hd'] at hd2 hv
        rcases hv with rfl | ⟨_, rfl⟩
        · exact ih fuel _ m2 hl (by simp at hlen; omega) (fun lba hr => hb lba (hr.right hfound)) hd2
        · rw [whileDataCluster_stop (endMark_not_data hg (endOfChain_isEndMark g))]
          exact .pure _

theorem tells_forDirSectors (hfat : ∀ lba, g.isFatSector lba → F lba) (hg : g.Valid) {l : List Nat}
    (hl : Chained g d dir l) (hfuel : g.getTotalClusters ≤ fuel)
    (hb : ∀ lba, GetsTo t (dirSectors g dir l) lba → Tracked F d body t G lba) (hd : m.disk = d) :
    (forDirSectors g fuel dir body).Tells F m := by
  unfold dirSectors at hb
  unfold forDirSectors
  by_cases h0 : dir = 0
  · rw [if_pos h0] at hb ⊢
    unfold rootSectors at hb
    rw [List.range_eq_range'] at hb
    exact tells_forSectors _ _ 0 m hb hd
  · rw [if_neg h0] at hb ⊢
    have hlen := hl.length_le hg
    exact tells_whileDataCluster hfat hg l fuel dir m ((hl.chainOf h0).from hg) (by omega) hb hd

end Loops

/-! ## Reading a file -/

/-- The sectors of `F` are those that neither the scan of the directory nor the bytes to be returned
depend on. -/
structure Spared (g : Globals) (F : Nat → Prop) (d : Disk) (name : CStr) (max : Nat)
    (secs : List Nat) : Prop where
  table : ∀ lba, g.isFatSector lba → F lba
  readable : Readable g F d name max secs
  chained : ∀ p, firstHit (readVerdict name) d (slotsOf secs) = some p → ∃ l,
    Chained g d (entryAt d p).first l ∧ ∀ x ∈ l, ∀ lba ∈ clusterSectors g x,
      lba ∉ wantedOf g d max (entryAt d p) → F lba

theorem tells_readEntry (hfat : ∀ lba, g.isFatSector lba → F lba) (hg : g.Valid)
    (hfuel : 2 ^ 32 ≤ fuel) {e : DirectoryEntry} (hin : ∀ lba ∈ wantedOf g m.disk max e, ¬ F lba)
    (hout : ∃ l, Chained g m.disk e.first l ∧ ∀ x ∈ l, ∀ lba ∈ clusterSectors g x,
      lba ∉ wantedOf g m.disk max e → F lba) :
    (readClusters g max fuel e.first [] e.fileSize.toNat).Tells F m := by
  have hsize := e.fileSize.toNat_lt
  obtain ⟨l, hl, hout⟩ := hout
  rw [wantedOf, ← Nat.sub_zero max] at hin hout
  have hread := tells_readClusters hfat hg max fuel e.fileSize.toNat e.first l [] e.fileSize.toNat m
    (by omega) (Nat.le_refl _) (hl.chainFrom hg) hin hout
  rw [List.take_nil] at hread
  exact hread

theorem readBody_tracked (hg : g.Valid) (hfuel : 2 ^ 32 ≤ fuel) {secs : List Nat}
    (hF : Spared g F d name max secs) {lba : Nat} (hl : GetsTo (readScan name d) secs lba) :
    Tracked F d (readBody g fuel name max) (readScan name d) (Reads g F d max) lba := by
  refine ⟨readBody_decides hg hfuel hF.readable hl, ?_⟩
  rintro m rfl
  unfold readBody
  refine .readLoad (hF.readable.dir lba hl.mem) ?_
  cases hscan : scanSector (readVerdict name) (m.disk lba) with
  | more => exact .pure _
  | stopped => exact .pure _
  | found i =>
    have hhit := hl.firstHit hscan
    have hin := hF.readable.file _ hhit
    have hout := hF.chained _ hhit
    rw [← Mem.fetch_disk m .main lba] at hin hout
    exact (tells_readEntry hF.table hg hfuel hin hout).bind
      (Prog.wpAt_mono (wpAt_readEntry hg hfuel hin) (fun _ _ _ => .pure _))

theorem tells_readFileFromDir (hg : g.Valid) (hfuel : 2 ^ 32 ≤ fuel) {l : List Nat}
    (hl : Chained g m.disk dir l) (hF : Spared g F m.disk name max (dirSectors g dir l)) :
    (readFileFromDir g fuel dir name max).Tells F m := by
  unfold readFileFromDir
  refine (tells_forDirSectors hF.table hg hl (hg.clusters_le hfuel)
    (fun lba hr => readBody_tracked hg hfuel hF hr) rfl).bind ?_
  exact Prog.wpAt_mono (wpAt_forDirSectors hg hl (hg.clusters_le hfuel)
    (fun lba hr => readBody_decides hg hfuel hF.readable hr) rfl) (fun _ _ _ => .pure _)

/-! ## Well-formed volumes -/

/-- The sectors a read depends on: those of the directory, and those with the bytes to be returned. -/
def needed (g : Globals) (d : Disk) (dir : Nat) (l : List Nat) (name : CStr) (max : Nat) : List Nat :=
  dirSectors g dir l ++
    ((readSlot name d (dirSlots g dir l)).map (fun p => wantedOf g d max (entryAt d p))).getD []

theorem mem_needed {l : List Nat} {lba : Nat} : lba ∈ needed g d dir l name max ↔
    lba ∈ dirSectors g dir l ∨ ∃ p, readSlot name d (dirSlots g dir l) = some p ∧
      lba ∈ wantedOf g d max (entryAt d p) := by
  unfold needed
  rw [List.mem_append]
  cases readSlot name d (dirSlots g dir l) <;> simp

theorem file_not_in_dir (hw : WellFormed g d) (hdir : IsDir g d dir) {l lf : List Nat}
    (hl : Chained g d dir l) {p : Slot} (hp : p ∈ dirSlots g dir l)
    (hlive : (entryAt d p).isLive = true) (hdot : (entryAt d p).isDot = false)
    (hfile : (entryAt d p).isDirectory = false) (hlf : Chained g d (entryAt d p).first lf)
    {x lba : Nat} (hx : x ∈ lf) (hlba : lba ∈ clusterSectors g x) : lba ∉ dirSectors g dir l := by
  have hslot : LiveSlot g d p := ⟨dir, l, hdir, hl, hp, hlive, hdot⟩
  have h2 := (isDataCluster_iff.mp (hlf.data_of_mem x hx)).1
  rw [mem_dirSectors]
  rintro (⟨_, hroot⟩ | ⟨hne, y, hy, hly⟩)
  · have hfirst := (mem_clusterSectors.mp hlba).1
    have hlast := (mem_rootSectors.mp hroot).2
    unfold Globals.clusterSector at hfirst
    omega
  · have hxy := clusterSectors_disjoint h2 (isDataCluster_iff.mp (hl.data_of_mem y hy)).1 hlba hly
    cases hdir with
    | root => exact hne rfl
    | @sub c lc q hc hlc hq hqlive hqdot hqdir =>
      have hqslot : LiveSlot g d q := ⟨c, lc, hc, hlc, hq, hqlive, hqdot⟩
      have hpq : p ≠ q := by
        rintro rfl
        rw [hfile] at hqdir
        cases hqdir
      exact hw.disjoint p q lf l hslot hqslot hpq hlf hl x hx (hxy ▸ hy)

theorem spared_needed (max : Nat) (hg : g.Valid) (hw : WellFormed g d) (hdir : IsDir g d dir) {l : List Nat}
    (hl : Chained g d dir l) (hfile : ∀ p, readSlot name d (dirSlots g dir l) = some p →
      (entryAt d p).isDot = false) :
    Spared g (fun lba => lba ∉ needed g d dir l name max) d name max (dirSectors g dir l) := by
  have hslot : ∀ p, firstHit (readVerdict name) d (slotsOf (dirSectors g dir l)) = some p →
      readSlot name d (dirSlots g dir l) = some p := by
    intro p hp
    rw [← hp]
    exact (firstHit_readVerdict (hw.endMarked dir l hdir hl) name).symm
  have hchain : ∀ p, readSlot name d (dirSlots g dir l) = some p → ∃ lf,
      Chained g d (entryAt d p).first lf ∧ ∀ x ∈ lf, ∀ lba ∈ clusterSectors g x,
        lba ∉ dirSectors g dir l := by
    intro p hp
    have hread : (entryAt d p).isRead name = true := by simpa using List.find?_some hp
    have hmem := List.mem_of_find?_eq_some hp
    have hlive := isLive_of_isRead hread
    simp only [DirectoryEntry.isRead, Bool.and_eq_true, Bool.not_eq_true'] at hread
    obtain ⟨lf, hlf⟩ := hw.chained p ⟨dir, l, hdir, hl, hmem, hlive, hfile p hp⟩
    exact ⟨lf, hlf, fun x hx lba hlba =>
      file_not_in_dir hw hdir hl hmem hlive (hfile p hp) hread.1.1.2 hlf hx hlba⟩
  refine ⟨fun lba hfat hneed => ?_, ⟨fun lba hlba hn => ?_, fun p hp lba hlba hn => ?_⟩, ?_⟩
  · rcases mem_needed.mp hneed with h | ⟨p, hp, hwant⟩
    · exact dirSector_not_fat h hfat
    · obtain ⟨lf, hlf, _⟩ := hchain p hp
      obtain ⟨x, _, hlba⟩ := exists_of_mem_wanted (hlf.chainFrom hg) hwant
      exact clusterSector_not_fat hlba hfat
  · exact hn (mem_needed.mpr (.inl hlba))
  · exact hn (mem_needed.mpr (.inr ⟨p, hslot p hp, hlba⟩))
  · intro p hp
    obtain ⟨lf, hlf, hapart⟩ := hchain p (hslot p hp)
    refine ⟨lf, hlf, fun x hx lba hlba hnot hneed => ?_⟩
    rcases mem_needed.mp hneed with h | ⟨q, hq, hwant⟩
    · exact hapart x hx lba hlba h
    · rw [hslot p hp] at hq
      obtain rfl := Option.some.inj hq
      exact hnot hwant

/-- The bytes returned are bytes of the file, and the content of no sector that could not be read
was taken for a directory's or a file's. -/
structure ReadSound (g : Globals) (fuel : Nat) (m : DriverMem) (dir : Nat) (l : List Nat) (name : CStr)
    (max : Nat) (fails : Nat → Bool) : Prop where
  bytes : ∀ out m', (readFileFromDir g fuel dir name max).run fails m = some (out, m') → out ≠ [] →
    ∃ p, readSlot name m.disk (dirSlots g dir l) = some p ∧ out <+: held g m.disk (entryAt m.disk p)
  fresh : (readFileFromDir g fuel dir name max).takesStale fails m (fun _ => false) = false

/-- Reads of the table may fail, and of sectors behind the bytes to be returned, but no others. -/
theorem readSound_iff (hg : g.Valid) (hfuel : 2 ^ 32 ≤ fuel) (hw : WellFormed g m.disk)
    (hdir : IsDir g m.disk dir) {l : List Nat} (hl : Chained g m.disk dir l)
    (hfile : ∀ p, readSlot name m.disk (dirSlots g dir l) = some p →
      (entryAt m.disk p).isDot = false) (max : Nat) (fails : Nat → Bool) :
    ReadSound g fuel m dir l name max fails ↔
      ∀ lba ∈ (readFileFromDir g fuel dir name max).failedAt fails m,
        lba ∉ needed g m.disk dir l name max := by
  have hspared := spared_needed max hg hw hdir hl hfile
  have htells := tells_readFileFromDir hg hfuel hl hspared fails (fun _ => false)
  refine ⟨fun hs lba hlba hneed => ?_, fun hfar => ⟨?_, ?_⟩⟩
  · have hstale := htells.mpr ⟨lba, hlba, fun hn => hn hneed⟩
    rw [hs.fresh] at hstale
    cases hstale
  · intro out m' hrun hne
    obtain ⟨out', m₂, hrun', hreads⟩ := Prog.run_of_wpAt
      (wpAt_readFileFromDir hg hfuel hl hspared.readable) hfar
    obtain ⟨rfl, rfl⟩ := Prod.mk.inj (Option.some.inj (hrun.symm.trans hrun'))
    have hend := hw.endMarked dir l hdir hl
    rw [firstHit_readVerdict hend] at hreads
    cases hslot : readSlot name m.disk (dirSlots g dir l) with
    | none =>
      rw [hslot] at hreads
      have hnil := hreads.1
      rw [show heldIn g m.disk none = [] from rfl, List.take_nil] at hnil
      exact absurd (List.prefix_nil.mp hnil) hne
    | some p =>
      rw [hslot] at hreads
      exact ⟨p, rfl, hreads.1.trans (List.take_prefix _ _)⟩
  · refine Bool.eq_false_iff.mpr (fun hstale => ?_)
    obtain ⟨lba, hlba, hn⟩ := htells.mp hstale
    exact hn (hfar lba hlba)

/-- `A` is read while the first read of the table fails. -/
theorem readSound_iff_file :
    ReadSound smallVolume (2 ^ 32) fileMem 0 [] [0x41] 8 (fun n => n == fileMem.accesses + 2) ↔
      ∀ lba ∈ (readFileFromDir smallVolume (2 ^ 32) 0 [0x41] 8).failedAt
        (fun n => n == fileMem.accesses + 2) fileMem,
        lba ∉ needed smallVolume fileMem.disk 0 [] [0x41] 8 :=
  readSound_iff smallVolume_valid (Nat.le_refl _) fileMem_wellFormed .root (.inl ⟨rfl, rfl⟩)
    (fun p hp => by
      have hslot : readSlot [0x41] fileMem.disk (dirSlots smallVolume 0 []) = some (3, 0) := by
        decide +kernel
      rw [hslot] at hp
      obtain rfl := Option.some.inj hp
      decide +kernel) 8 _

/-- When the sector with its two bytes cannot be read, the first two bytes of the directory are
returned in their place. -/
theorem read_returns_directory : WellFormed smallVolume fileMem.disk ∧
    ∃ m', (readFileFromDir smallVolume (2 ^ 32) 0 [0x41] 8).run (fun n => n == fileMem.accesses + 1)
      fileMem = some ([0x41, 0x20], m') ∧
    ¬ ReadSound smallVolume (2 ^ 32) fileMem 0 [] [0x41] 8 (fun n => n == fileMem.accesses + 1) := by
  have hres : ((readFileFromDir smallVolume (2 ^ 32) 0 [0x41] 8).run
      (fun n => n == fileMem.accesses + 1) fileMem).map Prod.fst = some [0x41, 0x20] := by
    decide +kernel
  obtain ⟨⟨out, m'⟩, hrun, hout⟩ := Option.map_eq_some_iff.mp hres
  obtain rfl : out = [0x41, 0x20] := hout
  refine ⟨fileMem_wellFormed, m', hrun, fun hs => ?_⟩
  have hslot : readSlot [0x41] fileMem.disk (dirSlots smallVolume 0 []) = some (3, 0) := by
    decide +kernel
  obtain ⟨p, hp, hpre⟩ := hs.bytes _ m' hrun (by simp)
  rw [hslot] at hp
  obtain rfl := Option.some.inj hp
  have hheld : (held smallVolume fileMem.disk (entryAt fileMem.disk (3, 0))) = [0x68, 0x69] := by
    decide +kernel
  rw [hheld] at hpre
  exact absurd hpre (by decide)

end Fat16
end MiniDos
