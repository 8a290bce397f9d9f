import MiniDos.Fat.WriteSpec

/-!
# MiniDos.Fat.OpSpec

`fat16_delete_entry`, `fat16_rmdir` and `fat16_mkdir`, in every context.

* `wp_deleteEntry`, `wp_rmdir`: the chain is freed first and the slot marked last, so a fault in
  between leaves the entry (`Removal.stuck`).
* `wp_mkdir`: a cluster with the two dot entries, then an entry for it.
-/

namespace MiniDos
namespace Fat16

open BlockIO Chain

variable {ctx : Ctx Buffer Sector} {g : Globals} {m : DriverMem}

/-! ## Removing an entry -/

theorem Touches.putSlot {X : Nat → Prop} {d d' : Disk} (h : Touches g X (fun _ => False) d d')
    {p : Slot} (hp : ¬ g.isFatSector p.1) (x : DirectoryEntry) :
    Touches g X (fun _ => False) (Fat16.putSlot d p x) (Fat16.putSlot d' p x) := by
  have hput : ∀ e : Disk, Touches g X (fun lba => lba = p.1) e (Fat16.putSlot e p x) :=
    fun e => (putSlot_touches hp x).mono (fun _ h => h.elim) (fun _ h => h)
  refine ⟨fun k hk q hq hX => ?_, fun lba hl _ => ?_⟩
  · rw [(hput d').fat k hk q hq hX, h.fat k hk q hq hX, (hput d).fat k hk q hq hX]
  · by_cases he : lba = p.1
    · subst he
      unfold Fat16.putSlot
      rw [putSector_self, putSector_self, h.sec p.1 hl not_false]
    · rw [putSlot_sector_ne he, putSlot_sector_ne he, h.sec lba hl not_false]

/-- How the removal of the entry in slot `p` with chain `lo` ends. -/
inductive Removal (ctx : Ctx Buffer Sector) (g : Globals) (d : Disk) (p : Slot) (lo : List Nat) :
    Bool → DriverMem → Prop where
  | removed {m : DriverMem} (ht : Touches g (fun c => c ∈ lo) (fun _ => False)
        (putSlot d p (deletedEntry (entryAt d p))) m.disk)
      (hx : ¬ ctx.Faulty → m.disk = putSlot (freeAll g lo d) p (deletedEntry (entryAt d p))) :
      Removal ctx g d p lo true m
  | stuck {m : DriverMem} (ht : Touches g (fun c => c ∈ lo) (fun _ => False) d m.disk)
      (hf : ctx.Failed m) : Removal ctx g d p lo false m

theorem wp_markRemoved {p : Slot} {lo : List Nat} {d : Disk} (hall : ∀ e, ctx.inv e)
    (hp : ¬ g.isFatSector p.1) (ht : Touches g (fun c => c ∈ lo) (fun _ => False) d m.disk)
    (hx : ¬ ctx.Faulty → m.disk = freeAll g lo d) :
    (markDeleted p.1 p.2).wp ctx (Removal ctx g d p lo) m := by
  have hentry : entryAt m.disk p = entryAt d p := entryAt_congr (ht.sec p.1 hp not_false)
  refine Prog.wp_mono (wp_markDeleted (hall _)) ?_
  rintro ok m1 (⟨rfl, hd⟩ | ⟨rfl, hd, hf⟩)
  · have hd' : m1.disk = putSlot m.disk p (deletedEntry (entryAt d p)) := by rw [hd, ← hentry]
    refine .removed ?_ (fun hnf => ?_)
    · rw [hd']
      exact ht.putSlot hp _
    · rw [hd', hx hnf]
  · exact .stuck (by rw [hd]; exact ht) hf

theorem wp_freeAndMark (hg : g.Valid) {p : Slot} {c : Nat} {lo : List Nat}
    (hall : ∀ e, ctx.inv e) (hp : ¬ g.isFatSector p.1) (h2 : 2 ≤ c)
    (hlo : ChainFrom g m.disk c lo) :
    (do
      let ok ← freeClusterChain g c
      if ok then markDeleted p.1 p.2 else pure false : DiskProg Bool).wp ctx
      (Removal ctx g m.disk p lo) m := by
  rw [Prog.wp_bind]
  refine Prog.wp_mono (wp_freeClusterChain hg h2 hlo (fun e _ => hall e)) ?_
  intro ok m1 hf
  cases ok with
  | false => exact .stuck hf.touches (hf.failed rfl)
  | true => exact wp_markRemoved hall hp hf.touches (fun hnf => (hf.exact hnf).2)

/-- How `fat16_delete_entry` and `fat16_rmdir` end: they refuse, or remove an entry that was
found. -/
inductive RemoveEnd (ctx : Ctx Buffer Sector) (g : Globals) (d : Disk) (ps : List Slot)
    (name : CStr) (kind : Bool) : Bool → DriverMem → Prop where
  | refused {m : DriverMem} (hd : m.disk = d) : RemoveEnd ctx g d ps name kind false m
  | found {m : DriverMem} {ok : Bool} {p : Slot} {lo : List Nat}
      (hname : isDotName name = false) (hfound : lookup name d ps = some p)
      (hkind : (entryAt d p).isDirectory = kind)
      (hlo : Chained g d (entryAt d p).clusterLow.toNat lo) (hr : Removal ctx g d p lo ok m) :
      RemoveEnd ctx g d ps name kind ok m

section Removal

variable {dir fuel : Nat} {ldir : List Nat} {name : CStr}

theorem lookup_not_fat {d : Disk} {p : Slot} (h : lookup name d (dirSlots g dir ldir) = some p) :
    ¬ g.isFatSector p.1 := dirSector_not_fat (mem_slotsOf.mp (lookup_mem h)).1

/-- What `fat16_delete_entry` and `fat16_rmdir` begin with: the lookup of a name that is neither
empty nor a dot name. -/
theorem wp_foundSlot (hg : g.Valid) (hd : DirOk g m.disk dir ldir) (hfuel : g.getTotalClusters ≤ fuel)
    {k : Option Located → DiskProg Bool} {Q : Bool → DriverMem → Prop}
    (hrefused : ∀ m1 : DriverMem, m1.disk = m.disk → Q false m1)
    (hnone : ∀ m1 : DriverMem, m1.disk = m.disk → (k none).wp ctx Q m1)
    (hsome : name.at 0 ≠ 0 → isDotName name = false → ∀ (p : Slot) (m1 : DriverMem), m1.disk = m.disk →
      lookup name m.disk (dirSlots g dir ldir) = some p → (k (some (locate m.disk p))).wp ctx Q m1) :
    (if name.at 0 = 0 then pure false
      else if isDotName name then pure false
      else findEntryInternal g fuel dir name >>= k).wp ctx Q m := by
  split
  · exact hrefused m rfl
  rename_i hempty
  split
  · exact hrefused m rfl
  rename_i hdot
  have hname : isDotName name = false := by simpa using hdot
  rw [Prog.wp_bind]
  refine Prog.wp_mono (wp_findEntryInternal hg hd hfuel name) ?_
  rintro r m1 ⟨hd1, _, hr⟩
  cases r with
  | none => exact hnone m1 hd1
  | some target =>
    rcases hr with hr | ⟨_, hr⟩
    · obtain ⟨p, hp, rfl⟩ := Option.map_eq_some_iff.mp hr.symm
      exact hsome hempty hname p m1 hd1 hp
    · cases hr

/-- `fat16_delete_entry` with `free_cluster_chain` set. -/
theorem wp_deleteEntry (hg : g.Valid) (hd : DirOk g m.disk dir ldir)
    (hfuel : g.getTotalClusters ≤ fuel) (hall : ∀ e, ctx.inv e)
    (hold : ∀ p, isDotName name = false → lookup name m.disk (dirSlots g dir ldir) = some p →
      ∃ lo, Chained g m.disk (entryAt m.disk p).clusterLow.toNat lo) :
    (deleteEntry g fuel dir name true).wp ctx
      (RemoveEnd ctx g m.disk (dirSlots g dir ldir) name false) m := by
  refine wp_foundSlot hg hd hfuel (fun _ hd1 => .refused hd1) (fun _ hd1 => .refused hd1)
    (fun _ hname p m1 hd1 hp => ?_)
  obtain ⟨lo, hlo⟩ := hold p hname hp
  have hnf := lookup_not_fat hp
  by_cases hkind : (locate m.disk p).entry.isDirectory = true
  · simp only [hkind, if_true]
    exact .refused hd1
  · have hk : (entryAt m.disk p).isDirectory = false := by simpa [locate] using hkind
    simp only [hkind, Bool.false_eq_true, if_false]
    by_cases h2 : 2 ≤ (locate m.disk p).entry.clusterLow.toNat
    · have hch : ChainFrom g m1.disk (entryAt m.disk p).clusterLow.toNat lo := by
        rw [hd1]
        exact (hlo.chainOf (fun h0 => by rw [locate, h0] at h2; omega)).from hg
      have hfm := wp_freeAndMark hg hall hnf h2 hch
      rw [hd1] at hfm
      simp only [h2, decide_true, Bool.and_true, if_true]
      exact Prog.wp_mono hfm (fun ok m2 h => .found hname hp hk hlo h)
    · have hnil : lo = [] := by
        by_cases h0 : (entryAt m.disk p).clusterLow.toNat = 0
        · rw [h0] at hlo; exact hlo.nil_of_zero
        · exact absurd (hlo.two_le h0) h2
      subst hnil
      simp only [h2, decide_false, Bool.and_false, Bool.false_eq_true, if_false]
      have hmark : (markDeleted p.1 p.2).wp ctx (Removal ctx g m.disk p []) m1 :=
        wp_markRemoved hall hnf (by rw [hd1]; exact .refl) (fun _ => hd1)
      exact Prog.wp_mono hmark (fun ok m2 h => .found hname hp hk hlo h)

/-- `fat16_rmdir` up to the check of the directory: what is left is to look into it, and to free and
mark. -/
theorem wp_rmdirFound (hg : g.Valid) (hd : DirOk g m.disk dir ldir) (hfuel : g.getTotalClusters ≤ fuel)
    {Q : Bool → DriverMem → Prop} (hrefused : ∀ m1 : DriverMem, m1.disk = m.disk → Q false m1)
    (hfound : name.at 0 ≠ 0 → isDotName name = false → ∀ (p : Slot) (m1 : DriverMem), m1.disk = m.disk →
      lookup name m.disk (dirSlots g dir ldir) = some p → (entryAt m.disk p).isDirectory = true →
      2 ≤ (entryAt m.disk p).clusterLow.toNat →
      (isDirectoryEmpty g fuel (entryAt m.disk p).clusterLow.toNat).wp ctx (fun empty m2 =>
        (if empty then do
          let ok ← freeClusterChain g (entryAt m.disk p).clusterLow.toNat
          if ok then markDeleted p.1 p.2 else pure false
        else pure false : DiskProg Bool).wp ctx Q m2) m1) :
    (rmdir g fuel dir name).wp ctx Q m := by
  refine wp_foundSlot hg hd hfuel hrefused hrefused (fun hempty hname p m1 hd1 hp => ?_)
  by_cases hkind : (locate m.disk p).entry.isDirectory = true
  case neg =>
    simp only [hkind, Bool.not_false, if_true]
    exact hrefused m1 hd1
  simp only [hkind, Bool.not_true, Bool.false_eq_true, if_false]
  by_cases h2 : (locate m.disk p).entry.clusterLow.toNat < 2
  · simp only [h2, if_true]
    exact hrefused m1 hd1
  simp only [h2, if_false]
  rw [Prog.wp_bind]
  exact hfound hempty hname p m1 hd1 hp hkind (Nat.le_of_not_lt h2)

theorem wp_rmdir (hg : g.Valid) (hd : DirOk g m.disk dir ldir)
    (hfuel : g.getTotalClusters ≤ fuel) (hall : ∀ e, ctx.inv e)
    (hold : ∀ p, isDotName name = false → lookup name m.disk (dirSlots g dir ldir) = some p →
      ∃ lo, Chained g m.disk (entryAt m.disk p).clusterLow.toNat lo) :
    (rmdir g fuel dir name).wp ctx
      (RemoveEnd ctx g m.disk (dirSlots g dir ldir) name true) m := by
  refine wp_rmdirFound hg hd hfuel (fun _ hd1 => .refused hd1) (fun _ hname p m1 hd1 hp hk h2 => ?_)
  obtain ⟨lo, hlo⟩ := hold p hname hp
  refine Prog.wp_mono (wp_isDirectoryEmpty hg (by rw [hd1]; exact hlo) hfuel) ?_
  rintro empty m2 ⟨hd2, _⟩
  cases empty with
  | false => exact .refused (hd2.trans hd1)
  | true =>
    have hch : ChainFrom g m2.disk (entryAt m.disk p).clusterLow.toNat lo := by
      rw [hd2, hd1]
      exact (hlo.chainOf (by omega)).from hg
    have hfm := wp_freeAndMark hg hall (lookup_not_fat hp) h2 hch
    rw [hd2, hd1] at hfm
    exact Prog.wp_mono hfm (fun ok m3 h => .found hname hp hk hlo h)

end Removal

/-! ## Making a directory -/

/-- Cluster `n`, free on `d`, is on disk `e` a directory with the two dot entries only. -/
structure NewDir (g : Globals) (d : Disk) (n parent : Nat) (e : Disk) : Prop where
  chain : NewChain g d [n] n n e
  dot : entryAt e (headSlot g n) = newEntry dotName n 0 attrDirectory
  dotDot : entryAt e (g.clusterSector n, 1) = newEntry dotDotName parent 0 attrDirectory
  unused : ∀ p ∈ slotsOf (clusterSectors g n), p ≠ headSlot g n → p ≠ (g.clusterSector n, 1) →
    (entryAt e p).isEnd = true

/-- How `fat16_mkdir` ends. A failure may leave the new cluster allocated. -/
inductive MkdirEnd (ctx : Ctx Buffer Sector) (g : Globals) (d : Disk) (dir : Nat)
    (ldir : List Nat) (name : CStr) : Bool → DriverMem → Prop where
  | refused {m : DriverMem} (hs : Scratch g d m.disk) : MkdirEnd ctx g d dir ldir name false m
  | made {m : DriverMem} {n : Nat} {e : Disk} {name83 : Name}
      (hformat : formatName name = some name83)
      (hnew : (∀ p, lookup name d (dirSlots g dir ldir) = some p →
        (entryAt d p).isDirectory = false) ∨ ctx.Faulty)
      (hdir : NewDir g d n dir e)
      (hadd : Added ctx g e dir ldir (newEntry name83 n 0 attrDirectory) true m) :
      MkdirEnd ctx g d dir ldir name true m

theorem wp_initDirEntries {n parent : Nat} (hinv : ∀ e, ctx.inv e) :
    (initDirEntries g n parent).wp ctx (Stored ctx m.disk
      (putSlot (putSlot m.disk (headSlot g n) (newEntry dotName n 0 attrDirectory))
        (g.clusterSector n, 1) (newEntry dotDotName parent 0 attrDirectory))) m := by
  refine Prog.wp_mono (wp_editSector (g.clusterSector n) (fun s => (s.setEntry 0
    (newEntry dotName n 0 attrDirectory)).setEntry 1 (newEntry dotDotName parent 0 attrDirectory))
    (hinv _)) ?_
  rintro ok m' (⟨rfl, hd⟩ | hfailed)
  · refine .inl ⟨rfl, hd.trans ?_⟩
    funext lba
    unfold putSlot headSlot
    by_cases h : lba = g.clusterSector n
    · subst h
      simp only [putSector_self]
    · simp only [putSector_of_ne _ _ h]
  · exact .inr hfailed

/-- The new directory after zeroing and writing the dot entries. -/
theorem NewDir.of_init (hg : g.Valid) {d e₁ e₂ : Disk} {n parent : Nat}
    (hchain : NewChain g d [n] n n e₁) (hfill : Fills g n e₁ e₂)
    (hz : ∀ lba ∈ clusterSectors g n, e₂ lba = Sector.zero) :
    NewDir g d n parent (putSlot (putSlot e₂ (headSlot g n) (newEntry dotName n 0 attrDirectory))
      (g.clusterSector n, 1) (newEntry dotDotName parent 0 attrDirectory)) := by
  have hhead := headSlot_mem hg n
  have hh1 : (headSlot g n).1 ∈ clusterSectors g n := (mem_slotsOf.mp hhead).1
  have hne : headSlot g n ≠ (g.clusterSector n, 1) := by
    intro h
    have := congrArg Prod.snd h
    cases this
  have hput : ∀ (d : Disk) (i : Nat) (x : DirectoryEntry),
      Fills g n d (putSlot d (g.clusterSector n, i) x) := by
    intro d i x
    refine (putSlot_touches (p := (g.clusterSector n, i)) ?_ x).mono (fun _ h => h) ?_
    · exact clusterSector_not_fat hh1
    · rintro lba rfl
      exact hh1
  refine ⟨?_, ?_, ?_, ?_⟩
  · have h1 := hchain.fill hg (List.mem_singleton.mpr rfl) hfill
    have h2 := h1.fill hg (List.mem_singleton.mpr rfl) (hput e₂ 0 (newEntry dotName n 0 attrDirectory))
    exact h2.fill hg (List.mem_singleton.mpr rfl) (hput _ 1 _)
  · rw [entryAt_putSlot_ne (mem_slotsOf.mp hhead).2 hne]
    exact entryAt_putSlot (mem_slotsOf.mp hhead).2 _
  · exact entryAt_putSlot (show 1 < 16 by decide) _
  · intro p hp h0 h1
    obtain ⟨hp1, hp2⟩ := mem_slotsOf.mp hp
    rw [entryAt_putSlot_ne hp2 h1, entryAt_putSlot_ne hp2 h0]
    unfold entryAt
    rw [hz p.1 hp1]
    exact zero_entry_isEnd p.2

section Mkdir

variable {dir fuel : Nat} {ldir : List Nat} {name : CStr}

theorem wp_makeDir (hg : g.Valid) {m₀ : DriverMem} (hd : DirOk g m₀.disk dir ldir)
    (hfuel : g.getTotalClusters ≤ fuel) (hall : ∀ e, ctx.inv e) (hroom : Roomy ctx g m₀ dir)
    {name83 : Name} (hformat : formatName name = some name83)
    (hnew : (∀ p, lookup name m₀.disk (dirSlots g dir ldir) = some p →
      (entryAt m₀.disk p).isDirectory = false) ∨ ctx.Faulty)
    (hd1 : m.disk = m₀.disk) (hmv1 : m₀.Moved m) :
    (makeDir g fuel dir name83).wp ctx (MkdirEnd ctx g m₀.disk dir ldir name) m := by
  have hscr1 : Scratch g m₀.disk m.disk := by rw [hd1]; exact Scratch.refl g m₀.disk
  have hstart : NewChain g m₀.disk [] 0 0 m.disk := by rw [hd1]; exact NewChain.empty g m₀.disk
  unfold makeDir
  rw [Prog.wp_bind]
  refine Prog.wp_mono (Prog.wp_moved (wp_allocCluster hg (fun _ _ _ e _ => hall e))) ?_
  rintro r m2 ⟨ha, hmv2⟩
  cases ha with
  | full hdisk _ => exact .refused (by rw [hdisk]; exact hscr1)
  | broke hc hfree hb _ => exact .refused (.of_alloc hg hstart ⟨hc, hfree⟩ hb)
  | @took n _ hn hfree _ hdisk =>
    have hfc : FreeCluster g m.disk n := ⟨hn, hfree⟩
    have hchain := hstart.start hg hfc hdisk
    simp only [Prog.wp_bind]
    refine Prog.wp_mono (Prog.wp_moved (wp_zeroCluster (fun e _ => hall e))) ?_
    rintro ok m3 ⟨⟨hfill, _, hz⟩, hmv3⟩
    have hchain3 := hchain.fill hg (List.mem_singleton.mpr rfl) hfill
    cases ok with
    | false => exact .refused hchain3.scratch
    | true =>
      simp only [if_true, Prog.wp_bind]
      refine Prog.wp_mono (Prog.wp_moved (wp_initDirEntries hall)) ?_
      rintro ok m4 ⟨hinit, hmv4⟩
      rcases hinit with ⟨rfl, hd4⟩ | ⟨rfl, hd4, _⟩
      · have hdir : NewDir g m₀.disk n dir _ := NewDir.of_init hg hchain hfill (hz rfl)
        rw [← hd4] at hdir
        have hscr4 := hdir.chain.scratch
        have hok4 := hscr4.dirOk hg hd
        simp only [if_true]
        refine Prog.wp_mono (Prog.wp_moved (wp_addDirEntry hg hall hok4.chained hfuel)) ?_
        rintro ok m5 ⟨hadd, hmv5⟩
        cases ok with
        | true => exact .made hformat hnew hdir hadd
        | false =>
          cases hadd with
          | full hdisk5 => exact .refused (by rw [hdisk5]; exact hscr4)
          | failed h0 hl hfull hf =>
            have hprefix := firstFree_prefix h0 hok4.chained hl hfull
            rcases hroom with hquiet | hzero | hroom
            · -- the disk had been written, so nothing fails any more
              exfalso
              obtain ⟨m', hm', hst⟩ := hf
              have hs := hquiet m' hm'
              have hmoved := hmv1.trans (hmv2.trans (hmv3.trans hmv4))
              have h1 := hmoved.1
              have h2 := hmv5.1
              have hback : m4.disk = m₀.disk := hmoved.2 (by omega)
              have hz4 := hdir.chain.chained.ne_zero n (List.mem_singleton.mpr rfl)
              rw [hback, ← hd1] at hz4
              exact hz4 hfree
            · exact absurd hzero h0
            · exact absurd (hscr4.firstFree_head hd.chained h0 hprefix) hroom
      · exact .refused (by rw [hd4]; exact hchain3.scratch)

theorem wp_mkdir (hg : g.Valid) (hd : DirOk g m.disk dir ldir)
    (hfuel : g.getTotalClusters ≤ fuel) (hall : ∀ e, ctx.inv e) (hroom : Roomy ctx g m dir) :
    (mkdir g fuel dir name).wp ctx (MkdirEnd ctx g m.disk dir ldir name) m := by
  unfold mkdir
  cases hformat : formatName name with
  | none => exact .refused (Scratch.refl g m.disk)
  | some name83 =>
    simp only [findDirCluster, Prog.wp_bind]
    refine Prog.wp_mono (wp_findEntryInternal hg hd hfuel name) ?_
    rintro r m1 ⟨hd1, hst1, hr⟩
    have hmv1 : m.Moved m1 := ⟨by omega, fun _ => hd1⟩
    cases r with
    | none =>
      simp only [Prog.wp_pure]
      refine wp_makeDir hg hd hfuel hall hroom hformat ?_ hd1 hmv1
      rcases hr with hr | ⟨hf, _⟩
      · left
        intro p hp
        rw [hp] at hr
        cases hr
      · exact .inr hf.faulty
    | some found =>
      rcases hr with hr | ⟨_, hr⟩
      · obtain ⟨p, hp, rfl⟩ := Option.map_eq_some_iff.mp hr.symm
        by_cases hk : (locate m.disk p).entry.isDirectory = true
        · simp only [hk, if_true, Prog.wp_pure]
          exact .refused (by rw [hd1]; exact Scratch.refl g m.disk)
        · simp only [hk, Bool.false_eq_true, if_false, Prog.wp_pure]
          refine wp_makeDir hg hd hfuel hall hroom hformat (.inl ?_) hd1 hmv1
          intro q hq
          rw [hp] at hq
          obtain rfl := Option.some.inj hq
          simpa [locate] using hk
      · cases hr

end Mkdir

end Fat16
end MiniDos
