import MiniDos.Fat.Tree

/-!
# MiniDos.Fat.TreeOps

Each operation, without faults, on a well-formed volume with its dots (`Evolved`), and the
directories that lookups find.

* Writing, copying, making directories and deleting files lose no directory.
* `rmdir` loses what is below a directory it takes for empty (`Bare`), and an update what is below
  a directory that gets a name with the mark of a deleted entry.
* `lookup_isDir`: a directory found by name is a directory of the volume; with the names `.` and
  `..` that rests on the dots.
-/

namespace MiniDos
namespace Fat16

open BlockIO Chain

variable {ctx : Ctx Buffer Sector} {g : Globals} {m : DriverMem} {d e : Disk} {dir : Nat}
  {ldir : List Nat} {name : CStr}

variable {p : Slot} {l : List Nat} {x : DirectoryEntry}

/-! ## Lookup -/

theorem IsDir.lt {c : Nat} (h : IsDir g d c) : c < 65536 := by
  cases h with
  | root => omega
  | sub => exact UInt16.toNat_lt _

theorem Globals.Valid.dirSlots_head (hg : g.Valid) {c : Nat} (hl : Chained g d c l)
    (h0 : c ≠ 0) : ∃ rest, dirSlots g c l = headSlot g c :: (g.clusterSector c, 1) :: rest := by
  obtain ⟨rest, hrest⟩ := Inventory.slotsOf_cluster hg c
  cases l with
  | nil => exact absurd rfl (hl.ne_nil h0)
  | cons y l =>
    obtain ⟨rfl, _⟩ := hl.chainOf h0
    refine ⟨rest ++ slotsOf (l.flatMap (clusterSectors g)), ?_⟩
    unfold dirSlots dirSectors
    rw [if_neg h0, List.flatMap_cons, slotsOf_append, hrest]
    rfl

/-- A dot entry found by name is one of the two that the directory begins with. -/
theorem lookup_dot (hg : g.Valid) (hd : Dotted g d) (hdir : IsDir g d dir)
    (hl : Chained g d dir ldir)
    (hp : lookup name d (dirSlots g dir ldir) = some p) (hdot : (entryAt d p).isDot = true) :
    ∃ n c, DotEntry (entryAt d p) n c ∧ IsDir g d c := by
  cases hdir with
  | root =>
    rw [hl.nil_of_zero] at hp
    rw [hd.root p (lookup_mem hp) (DirectoryEntry.isLive_of_hits (lookup_hits hp))] at hdot
    cases hdot
  | @sub parent l q hparent hlp hq hqlive hqdot hqdir =>
    have hchild : Child g d parent q := ⟨⟨l, hlp, hq⟩, hqlive, hqdot, hqdir⟩
    have hdots := hd.sub parent q hparent hchild
    obtain ⟨rest, hrest⟩ := hg.dirSlots_head hl hdots.nonzero
    have hhits := lookup_hits hp
    simp only [DirectoryEntry.hits, Bool.and_eq_true] at hhits
    -- the dot entry of the same name comes first
    have hsame : ∀ r n f, DotEntry (entryAt d r) n f → (∀ i, (entryAt d p).name i = n i) →
        (entryAt d r).hits name = true := by
      intro r n f hr hn
      have hname : (entryAt d r).name = (entryAt d p).name := hr.name.trans (funext hn).symm
      simp only [DirectoryEntry.hits, Bool.and_eq_true]
      exact ⟨hr.visible, (matchName_congr hname name).trans hhits.2⟩
    unfold lookup at hp
    rw [hrest, List.find?_cons] at hp
    cases h0 : (entryAt d (headSlot g (entryAt d q).first)).hits name with
    | true =>
      rw [h0] at hp
      cases hp
      exact ⟨dotName, _, hdots.dot, hchild.isDir hparent⟩
    | false =>
      rw [h0, List.find?_cons] at hp
      simp only [DirectoryEntry.isDot, Bool.or_eq_true, decide_eq_true_eq] at hdot
      rcases hdot with hdot | hdot
      · rw [hsame _ _ _ hdots.dot hdot] at h0
        cases h0
      · rw [hsame _ _ _ hdots.dotDot hdot] at hp
        cases hp
        exact ⟨dotDotName, _, hdots.dotDot, hparent⟩

theorem lookup_isDir (hg : g.Valid) (hd : Dotted g d) (hdir : IsDir g d dir)
    (hl : Chained g d dir ldir)
    (hp : lookup name d (dirSlots g dir ldir) = some p)
    (hpd : (entryAt d p).isDirectory = true) : IsDir g d (entryAt d p).first := by
  cases hdot : (entryAt d p).isDot with
  | false =>
    exact .sub hdir hl (lookup_mem hp) (DirectoryEntry.isLive_of_hits (lookup_hits hp)) hdot hpd
  | true =>
    obtain ⟨n, c, hentry, hc⟩ := lookup_dot hg hd hdir hl hp hdot
    rw [hentry.first]
    exact hc

theorem wp_findDirCluster (hg : g.Valid) (hw : WellFormed g m.disk) (hd : Dotted g m.disk)
    (hdir : IsDir g m.disk dir) {fuel : Nat} (hfuel : g.getTotalClusters ≤ fuel) :
    (findDirCluster g fuel dir name).wp ctx
      (fun r m' => m'.disk = m.disk ∧ ∀ c, r = some c → IsDir g m.disk c) m := by
  obtain ⟨l, hok⟩ := hw.dirOk hdir
  unfold findDirCluster
  rw [Prog.wp_bind]
  refine Prog.wp_mono (wp_findEntryInternal hg hok hfuel name) ?_
  rintro r m' ⟨hdisk, _, hr⟩
  cases r with
  | none => exact ⟨hdisk, fun c hc => by cases hc⟩
  | some found =>
    rcases hr with hr | ⟨_, hr⟩
    case inr => cases hr
    obtain ⟨p, hp, rfl⟩ := Option.map_eq_some_iff.mp hr.symm
    by_cases hpd : (entryAt m.disk p).isDirectory = true
    · simp only [locate, hpd, if_true]
      refine ⟨hdisk, fun c hc => ?_⟩
      cases hc
      exact lookup_isDir hg hd hdir hok.chained hp hpd
    · simp only [locate, hpd]
      exact ⟨hdisk, fun c hc => by cases hc⟩

theorem wp_findEntry (hg : g.Valid) (hw : WellFormed g m.disk) (hdir : IsDir g m.disk dir)
    {fuel : Nat} (hfuel : g.getTotalClusters ≤ fuel) :
    (findEntry g fuel dir name).wp ctx (fun r m' => m'.disk = m.disk ∧ ∀ x, r = some x →
      name.at 0 ≠ 0 ∧ ∃ l p, Chained g m.disk dir l ∧
        lookup name m.disk (dirSlots g dir l) = some p ∧ x = locate m.disk p) m := by
  obtain ⟨l, hok⟩ := hw.dirOk hdir
  unfold findEntry
  split
  · exact ⟨rfl, fun x hx => by cases hx⟩
  rename_i hname
  refine Prog.wp_mono (wp_findEntryInternal hg hok hfuel name) ?_
  rintro r m' ⟨hdisk, _, hr⟩
  refine ⟨hdisk, fun x hx => ⟨hname, ?_⟩⟩
  subst hx
  rcases hr with hr | ⟨_, hr⟩
  case inr => cases hr
  obtain ⟨p, hp, hx⟩ := Option.map_eq_some_iff.mp hr.symm
  exact ⟨l, p, hok.chained, hp, hx.symm⟩

theorem wp_getParentCluster (hg : g.Valid) (hw : WellFormed g m.disk) (hd : Dotted g m.disk)
    (hdir : IsDir g m.disk dir) {fuel : Nat} (hfuel : g.getTotalClusters ≤ fuel) :
    (getParentCluster g fuel dir).wp ctx
      (fun r m' => m'.disk = m.disk ∧ ∀ c, r = some c → IsDir g m.disk c) m := by
  unfold getParentCluster
  split
  · refine ⟨rfl, fun c hc => ?_⟩
    cases hc
    exact .root
  · exact wp_findDirCluster hg hw hd hdir hfuel

/-! ## Emptiness -/

/-- No entry that `fat16_is_directory_empty` would stop at. -/
def Bare (d : Disk) (ps : List Slot) : Prop := ∀ q ∈ ps, emptyVerdict (entryAt d q) ≠ .hit

theorem emptyVerdict_stop : emptyVerdict x = .stop ↔ x.isEnd = true := by
  unfold emptyVerdict
  split
  · simp [*]
  · rename_i h
    simp only [h]
    repeat' split
    all_goals decide

theorem emptyVerdict_end (h : decide (emptyVerdict x = .hit) = true) :
    x.isEnd = false := by
  cases hx : x.isEnd with
  | false => rfl
  | true =>
    rw [emptyVerdict_stop.mpr hx] at h
    cases h

theorem emptyResult_eq (d : Disk) (lba : Nat) : emptyResult lba (d lba) =
    ((scanSector emptyVerdict (d lba)).toSlot lba).map Option.isNone := by
  unfold emptyResult
  cases scanSector emptyVerdict (d lba) <;> rfl

/-- A directory that is taken for empty is bare. -/
theorem wp_isDirectoryEmpty_bare (hg : g.Valid) {c fuel : Nat}
    (hok : DirOk g m.disk c l) (hfuel : g.getTotalClusters ≤ fuel) (hnf : ¬ ctx.Faulty) :
    (isDirectoryEmpty g fuel c).wp ctx
      (fun ok m' => m'.disk = m.disk ∧ (ok = true → Bare m.disk (dirSlots g c l))) m := by
  have hlen := hok.chained.length_le hg
  unfold isDirectoryEmpty
  split
  · exact ⟨rfl, fun h => by cases h⟩
  rename_i h2
  rw [Prog.wp_bind]
  refine Prog.wp_mono (wp_whileDataCluster hg emptyBody_reads l fuel c m
    ((hok.chained.chainOf (by omega)).from hg) (by omega)) ?_
  rintro r m' ⟨hdisk, _, hr⟩
  refine ⟨hdisk, fun hempty => ?_⟩
  rcases hr with hr | ⟨hf, _⟩
  case inr => exact absurd hf.faulty hnf
  have hfind := hok.endMarked.find (f := emptyVerdict)
    (G := fun x => decide (emptyVerdict x = .hit)) (fun x => by simp)
    (fun _ => emptyVerdict_stop) (fun _ => emptyVerdict_end)
  have hsecs : dirSectors g c l = l.flatMap (clusterSectors g) := if_neg (by omega)
  unfold dirSlots at hfind ⊢
  rw [hsecs] at hfind ⊢
  rw [← findSome?_scanSector] at hfind
  have hrw : (fun lba => emptyResult lba (m.disk lba)) = fun lba =>
      ((scanSector emptyVerdict (m.disk lba)).toSlot lba).map Option.isNone :=
    funext (emptyResult_eq m.disk)
  rw [hrw, findSome?_map_comp] at hr
  have hnone : (slotsOf (l.flatMap (clusterSectors g))).find?
      (fun p => decide (emptyVerdict (entryAt m.disk p) = .hit)) = none := by
    rw [← hfind]
    cases hs : (l.flatMap (clusterSectors g)).findSome?
        (fun lba => (scanSector emptyVerdict (m.disk lba)).toSlot lba) with
    | none => rfl
    | some s =>
      rw [hs] at hr
      subst hr
      cases s with
      | none => rfl
      | some _ => cases hempty
  intro q hq hhit
  have := List.find?_eq_none.mp hnone q hq
  simp [hhit] at this

/-- Where nothing was found, or what was found is not bare, `rmdir` changes nothing. -/
theorem wp_rmdir_bare (hg : g.Valid) (hd : DirOk g m.disk dir ldir) {fuel : Nat}
    (hfuel : g.getTotalClusters ≤ fuel) (hall : ∀ e, ctx.inv e) (hnf : ¬ ctx.Faulty)
    (hold : ∀ p, isDotName name = false → lookup name m.disk (dirSlots g dir ldir) = some p →
      (entryAt m.disk p).isDirectory = true → ∃ lo, DirOk g m.disk (entryAt m.disk p).first lo) :
    (rmdir g fuel dir name).wp ctx (fun _ m' => m'.disk = m.disk ∨ (name.at 0 ≠ 0 ∧
      isDotName name = false ∧ ∃ p lo, lookup name m.disk (dirSlots g dir ldir) = some p ∧
      (entryAt m.disk p).isDirectory = true ∧ Chained g m.disk (entryAt m.disk p).first lo ∧
      Bare m.disk (dirSlots g (entryAt m.disk p).first lo))) m := by
  refine wp_rmdirFound hg hd hfuel (fun _ hd1 => .inl hd1) (fun hempty hname p m1 hd1 hp hkind h2 => ?_)
  obtain ⟨lo, hlo⟩ := hold p hname hp hkind
  refine Prog.wp_mono (wp_isDirectoryEmpty_bare hg (by rw [hd1]; exact hlo) hfuel hnf) ?_
  rintro empty m2 ⟨hd2, hbare⟩
  cases empty with
  | false => exact .inl (hd2.trans hd1)
  | true =>
    rw [hd1] at hbare
    have hch : ChainFrom g m2.disk (entryAt m.disk p).clusterLow.toNat lo := by
      rw [hd2, hd1]
      exact (hlo.chained.chainOf (show (entryAt m.disk p).clusterLow.toNat ≠ 0 by omega)).from hg
    refine Prog.wp_mono (wp_freeAndMark hg hall (lookup_not_fat hp) h2 hch) ?_
    exact fun _ _ _ => .inr ⟨hempty, hname, p, lo, hp, hkind, hlo.chained, hbare rfl⟩

/-! ## The operations -/

theorem isDot_of_formatName {name83 : Name} (h : formatName name = some name83)
    (hx : x.name = name83) : x.isDot = false := by
  cases hdot : x.isDot with
  | false => rfl
  | true =>
    have h0 : x.name 0 = chDot := (isDot_nameAt hdot).1
    rw [hx] at h0
    exact absurd h0 (formatName_ne_dot h)

theorem Child.not_free {parent : Nat} (h : Child g d parent p)
    (hfree : (entryAt d p).isFree = true) : False := by
  have := h.live
  simp [DirectoryEntry.isLive, hfree] at this

section Ops

variable (hg : g.Valid) (hres : 0 < g.bpb.reservedSectors) (hw : WellFormed g d)
  (hd : Dotted g d) (hnf : ¬ ctx.Faulty)
include hg hres hw hd hnf

/-- An entry was added to a directory; `hnew`: that of a new directory with its dots. -/
theorem Entered.evolved (hdir : IsDir g d dir) {d' : Disk}
    {D' : Nat → Prop} {ch' : Nat → List Nat} (hs : Scratch g d e)
    (h : Entered ctx g e (IsDir g d) (chainOf g d) dir x l d' D' ch' p)
    (hdot : x.isDot = false)
    (hnew : x.isDirectory = true → Chained g e x.first l ∧ Dots g e x.first dir ∧
      x.first ≠ dir ∧ ∀ q ∈ dirSlots g x.first l, (entryAt e q).isLive = true →
        (entryAt e q).isDot = true) :
    Evolved g d d' (fun _ => False) := by
  have hold := (hw.inventory hg).dir dir hdir
  have hspare : ∀ e', Scratch g d e' → Scratch g e' e → Spare g e' p := by
    intro e' hs' hse
    rcases h.place with ⟨hp, hfree⟩ | ⟨n, hn, hpn⟩
    · refine .inr ⟨⟨_, _, hp⟩, fun hlive => ?_⟩
      rw [hse.entryAt_eq (hs'.chained hg hold.chained) hp] at hfree
      simp [DirectoryEntry.isLive, hfree] at hlive
    · exact .inl ⟨n, hse.free_of_free hg hn, hpn⟩
  have hparent : ∀ parent, D' parent → p ∈ dirSlots g parent (ch' parent) → parent = dir :=
    fun parent hpar hp => h.kept.inv.slot_unique hpar (h.keep dir hdir) hp h.slot
  refine evolved_of_edit hg hres hw hd h.kept (h.edit.after_scratch hg hs)
    (hspare d (Scratch.refl g d) hs) (fun c hc _ => h.longer hnf c hc) ?_ (fun _ => hdot) ?_
    (fun _ _ hf => hf.elim) ?_
  · rintro c hc ⟨hxd, rfl⟩ q hq hlive
    obtain ⟨hl, _, hne, hdots⟩ := hnew hxd
    rw [h.chain] at hq
    have hqp : q ≠ p := by
      rintro rfl
      exact hne (hparent x.first hc (by rw [h.chain]; exact hq))
    rw [h.edit.entry_eq hl hq hqp] at hlive ⊢
    exact hdots q hq hlive
  · intro parent hpar hp _ hxd
    obtain ⟨hl, hdots, _⟩ := hnew hxd
    rw [hparent parent (h.keep parent hpar) hp]
    exact h.edit.dots hg (hspare e hs (Scratch.refl g e)) hl hdots
  · intro parent _ hchild
    exfalso
    obtain ⟨lp, hlp, hp⟩ := hchild.slot
    rcases h.place with ⟨_, hfree⟩ | ⟨n, hn, hpn⟩
    · rw [hs.entryAt_eq hlp hp] at hfree
      exact hchild.not_free hfree
    · exact dirSector_not_scratch hlp (mem_slotsOf.mp hp).1 ⟨n, hs.free_of_free hg hn, hpn⟩

theorem WriteEnd.evolved (hdir : IsDir g d dir) (hl : Chained g d dir ldir)
    {data : Nat → Byte} {size : Nat} {ok : Bool}
    (h : WriteEnd ctx g d dir ldir name data size ok m) :
    Evolved g d m.disk (fun _ => False) := by
  cases h with
  | aborted hs _ => exact hs.evolved hg hres hw hd
  | created hready hformat _ hadd =>
    obtain ⟨⟨last, hchain⟩, _⟩ := hready
    obtain ⟨_, _, _, hent⟩ := hadd.entered_file hg hw hdir hl hchain hformat archive_not_directory
    refine hent.evolved hg hres hw hd hnf hdir hchain.scratch (isDot_of_formatName hformat rfl) ?_
    intro hxd
    rw [archive_not_directory] at hxd
    cases hxd
  | @overwritten _ _ _ _ _ _ name83 p hready hformat hfound hfile _ hold ht _ =>
    obtain ⟨⟨last, hchain⟩, _⟩ := hready
    obtain ⟨D', ch', hk, hch, _⟩ :=
      replaced_of_write hg hw hdir hl hchain hformat hfound hold ht
    obtain ⟨c, hc, hps, hlive, hdot⟩ := held_of_lookup hg hdir hl (formatName_not_dot hformat) hfound
    have hslot := lookup_mem hfound
    refine evolved_of_edit hg hres hw hd hk
      (.of_scratch hchain.scratch (Inventory.slot_not_fat hslot) (Inventory.slot_lt hslot) ht)
      (.inr ⟨⟨_, _, hslot⟩, fun _ => hdot⟩) (fun c hc _ => ?_) (fun _ _ hf => hf.elim)
      (fun _ => isDot_of_formatName hformat rfl) (fun _ _ _ _ hxd => ?_) (fun _ _ hf => hf.elim)
      (fun _ _ hchild => ?_)
    · simp only [hch c hc, List.prefix_refl]
    · rw [overwrittenEntry_isDirectory] at hxd
      cases hxd
    · have := hchild.isDirectory
      rw [hfile] at this
      cases this

theorem CopyEnd.evolved {srcDir dstDir : Nat} {lsrc ldst : List Nat} {srcName dstName : CStr}
    (hdst : IsDir g d dstDir) (hl : Chained g d dstDir ldst) {ok : Bool}
    (h : CopyEnd ctx g d srcDir lsrc srcName dstDir ldst dstName ok m) :
    Evolved g d m.disk (fun _ => False) := by
  cases h with
  | aborted hs _ => exact hs.evolved hg hres hw hd
  | copied hfound hfile hchain hformat _ hadd =>
    obtain ⟨_, _, _, hent⟩ := hadd.entered_file hg hw hdst hl hchain hformat hfile
    refine hent.evolved hg hres hw hd hnf hdst hchain.scratch (isDot_of_formatName hformat rfl) ?_
    intro hxd
    exact absurd (hxd.symm.trans hfile) (by decide)

theorem MkdirEnd.evolved (hdir : IsDir g d dir) (hl : Chained g d dir ldir) {ok : Bool}
    (h : MkdirEnd ctx g d dir ldir name ok m) : Evolved g d m.disk (fun _ => False) := by
  cases h with
  | refused hs => exact hs.evolved hg hres hw hd
  | @made _ n _ name83 hformat _ hnew hadd =>
    obtain ⟨_, _, _, hent⟩ := hnew.entered hg hw hdir hl hformat hadd
    have hn := hnew.chain.free n (List.mem_singleton.mpr rfl)
    have hfirst : (newEntry name83 n 0 attrDirectory).first = n :=
      newEntry_first name83 (data_lt hg hn.1) 0 attrDirectory
    refine hent.evolved hg hres hw hd hnf hdir hnew.chain.scratch
      (isDot_of_formatName hformat rfl) (fun _ => ?_)
    rw [hfirst]
    refine ⟨hnew.chain.chained, hnew.dots hg hdir.lt, ?_, (hnew.slots hg).2⟩
    -- the new cluster was free, that of the directory is not
    rintro rfl
    have h2 := (isDataCluster_iff.mp hn.1).1
    exact hl.ne_zero n (hl.head_mem (by omega)) hn.2

theorem RemoveEnd.evolved (hdir : IsDir g d dir) (hl : Chained g d dir ldir) {kind ok : Bool}
    (h : RemoveEnd ctx g d (dirSlots g dir ldir) name kind ok m) :
    Evolved g d m.disk (fun c => kind = true ∧ ∃ p,
      lookup name d (dirSlots g dir ldir) = some p ∧ Under g d (entryAt d p).first c) := by
  cases h with
  | refused hdisk =>
    rw [hdisk]
    exact .refl hw hd
  | @found _ _ p lo hname hfound hkind hlo hr =>
    cases hr with
    | stuck _ hf => exact absurd hf.faulty hnf
    | removed ht _ =>
      have hslot := lookup_mem hfound
      obtain ⟨_, _, _, _, hdot⟩ := held_of_lookup hg hdir hl hname hfound
      refine evolved_of_edit hg hres hw hd (kept_of_removed hg hw hdir hl hname hfound hlo ht)
        (.of_scratch (Scratch.refl g d) (Inventory.slot_not_fat hslot) (Inventory.slot_lt hslot) ht)
        (.inr ⟨⟨_, _, hslot⟩, fun _ => hdot⟩) (fun c _ _ => List.prefix_refl _)
        (fun _ _ hf => hf.elim) (fun hlive => ?_) (fun _ _ _ hlive => ?_) ?_ ?_
      · rw [deletedEntry_isLive] at hlive
        cases hlive
      · rw [deletedEntry_isLive] at hlive
        cases hlive
      · rintro c q ⟨hk, r, hr, hunder⟩ hchild
        exact ⟨hk, r, hr, hunder.sub hchild⟩
      · intro parent _ hchild
        exact .inl ⟨hkind ▸ hchild.isDirectory, p, hfound, .top⟩

omit hnf in
/-- An entry, not `.` or `..`, has got another name. With the mark of a deleted entry in it, what
was below it is lost. -/
theorem Updated.evolved (hdir : IsDir g d dir) (hl : Chained g d dir ldir) {newName : CStr}
    {name83 : Name} (hdot : (entryAt d p).isDot = false)
    (h : Updated ctx d (dirSlots g dir ldir) name newName (entryAt d p).clusterLow.toNat
      (entryAt d p).fileSize.toNat (entryAt d p).attributes p name83 m) :
    Evolved g d m.disk (fun c => name83 0 = 0xE5 ∧ (entryAt d p).isDirectory = true ∧
      Under g d (entryAt d p).first c) := by
  have hslot := lookup_mem h.found
  have hheld : Held g d (IsDir g d) (chainOf g d) p :=
    ⟨dir, hdir, by rw [chainOf_eq hg hl]; exact hslot,
      DirectoryEntry.isLive_of_hits (lookup_hits h.found), hdot⟩
  have hnot := isDot_of_formatName h.format (x := updatedEntry (entryAt d p) name83
    (entryAt d p).clusterLow.toNat (entryAt d p).fileSize.toNat (entryAt d p).attributes) rfl
  have hfirst := updatedEntry_first (entryAt d p) name83 (entryAt d p).clusterLow.toNat_lt
    (entryAt d p).fileSize.toNat (entryAt d p).attributes
  have hend := updatedEntry_isEnd h.format (entryAt d p) (entryAt d p).clusterLow.toNat
    (entryAt d p).fileSize.toNat (entryAt d p).attributes
  have hname0 : (updatedEntry (entryAt d p) name83 (entryAt d p).clusterLow.toNat
      (entryAt d p).fileSize.toNat (entryAt d p).attributes).nameAt 0 = name83 0 := rfl
  have hedit : Edit g d m.disk (fun _ => False) p (updatedEntry (entryAt d p) name83
      (entryAt d p).clusterLow.toNat (entryAt d p).fileSize.toNat (entryAt d p).attributes) := by
    refine .of_scratch (Scratch.refl g d) (Inventory.slot_not_fat hslot) (Inventory.slot_lt hslot) ?_
    rw [h.disk]
    exact .refl
  have hspare : Spare g d p := .inr ⟨⟨_, _, hslot⟩, fun _ => hdot⟩
  have hlost : ∀ c q, (name83 0 = 0xE5 ∧ (entryAt d p).isDirectory = true ∧
      Under g d (entryAt d p).first c) → Child g d c q → (name83 0 = 0xE5 ∧
      (entryAt d p).isDirectory = true ∧ Under g d (entryAt d p).first (entryAt d q).first) :=
    fun c q hc hchild => ⟨hc.1, hc.2.1, hc.2.2.sub hchild⟩
  cases hlive : (updatedEntry (entryAt d p) name83 (entryAt d p).clusterLow.toNat
      (entryAt d p).fileSize.toNat (entryAt d p).attributes).isLive with
  | true =>
    have hinv := (hw.inventory hg).rename hg hheld hlive hfirst rfl
    rw [← h.disk] at hinv
    have hkept : Kept g (IsDir g d) (chainOf g d) m.disk _ _ p (fun _ => False) :=
      ⟨hinv, fun c hc => .inl hc, fun c _ y hy => .inl hy⟩
    refine evolved_of_edit hg hres hw hd hkept hedit hspare
      (fun c _ _ => List.prefix_refl _) (fun _ _ hf => hf.elim) (fun _ => hnot) ?_ hlost ?_
    · intro parent hpar hp _ hxd
      have hchild : Child g d parent p :=
        ⟨⟨_, ((hw.inventory hg).dir parent hpar).chained, hp⟩,
          DirectoryEntry.isLive_of_hits (lookup_hits h.found), hdot, hxd⟩
      rw [show (updatedEntry (entryAt d p) name83 (entryAt d p).clusterLow.toNat
        (entryAt d p).fileSize.toNat (entryAt d p).attributes).first = (entryAt d p).first from hfirst]
      exact hedit.dots hg hspare ((hw.inventory hg).chain p hheld) (hd.sub parent p hpar hchild)
    · exact fun _ _ hchild => .inr ⟨hlive, hnot, hchild.isDirectory, hfirst⟩
  | false =>
    have hgone : name83 0 = 0xE5 := by
      cases hdel : (updatedEntry (entryAt d p) name83 (entryAt d p).clusterLow.toNat
          (entryAt d p).fileSize.toNat (entryAt d p).attributes).isDeleted with
      | true => simpa [DirectoryEntry.isDeleted, hname0] using hdel
      | false =>
        have := DirectoryEntry.isLive_iff.mpr ⟨hend, hdel⟩
        rw [hlive] at this
        cases this
    have hinv := ((hw.inventory hg).erase hg hheld hlive hend).1
    rw [← h.disk] at hinv
    have hkept : Kept g (IsDir g d) (chainOf g d) m.disk _ _ p (fun _ => False) :=
      ⟨hinv, fun c hc => .inl hc.1, fun c _ y hy => .inl hy⟩
    refine evolved_of_edit hg hres hw hd hkept hedit hspare
      (fun c _ _ => List.prefix_refl _) (fun _ _ hf => hf.elim) (fun _ => hnot) ?_ hlost ?_
    · intro _ _ _ hl'
      rw [hlive] at hl'
      cases hl'
    · exact fun _ _ hchild => .inl ⟨hgone, hchild.isDirectory, .top⟩

end Ops

/-! ## The calls -/

section Calls

variable {fuel : Nat} (hg : g.Valid) (hres : 0 < g.bpb.reservedSectors)
  (hfuel : g.getTotalClusters ≤ fuel) (hnf : ¬ ctx.Faulty) (hinv : ∀ e, ctx.inv e)
  (hw : WellFormed g m.disk) (hd : Dotted g m.disk) (hdir : IsDir g m.disk dir)
include hg hres hfuel hnf hinv hw hd hdir

theorem wp_write_evolved (buffer : Option (Nat → Byte)) (size : Int) :
    (writeFileFromDir g fuel dir name buffer size).wp ctx
      (fun _ m' => Evolved g m.disk m'.disk (fun _ => False)) m := by
  obtain ⟨ldir, hok⟩ := hw.dirOk hdir
  refine Prog.wp_mono (hw.wp_write hg hfuel hnf hinv hdir hok name buffer size) ?_
  exact fun _ m' h => h.evolved hg hres hw hd hnf hdir hok.chained

theorem wp_copy_evolved {dstDir : Nat} (hdst : IsDir g m.disk dstDir) {dstName : CStr} :
    (copyFileBetweenDirs g fuel dir name dstDir dstName).wp ctx
      (fun _ m' => Evolved g m.disk m'.disk (fun _ => False)) m := by
  obtain ⟨lsrc, hsrc⟩ := hw.dirOk hdir
  obtain ⟨ldst, hok⟩ := hw.dirOk hdst
  refine Prog.wp_mono (wp_copyFileBetweenDirs hg hsrc hok hfuel (careful_of_not_faulty hnf m)
    (.inl (fun m' hm' => absurd ⟨m', hm'⟩ hnf)) hinv) ?_
  exact fun _ m' h => h.evolved hg hres hw hd hnf hdst hok.chained

theorem wp_mkdir_evolved : (mkdir g fuel dir name).wp ctx
    (fun _ m' => Evolved g m.disk m'.disk (fun _ => False)) m := by
  obtain ⟨ldir, hok⟩ := hw.dirOk hdir
  refine Prog.wp_mono (wp_mkdir hg hok hfuel hinv
    (.inl (fun m' hm' => absurd ⟨m', hm'⟩ hnf))) ?_
  exact fun _ m' h => h.evolved hg hres hw hd hnf hdir hok.chained

theorem wp_delete_evolved : (deleteEntry g fuel dir name true).wp ctx
    (fun _ m' => Evolved g m.disk m'.disk (fun _ => False)) m := by
  obtain ⟨ldir, hok⟩ := hw.dirOk hdir
  refine Prog.wp_mono (wp_deleteEntry hg hok hfuel hinv
    (fun p hn hp => hw.found_chained hg hdir hok.chained hn hp)) ?_
  intro _ m' h
  exact (h.evolved hg hres hw hd hnf hdir hok.chained).mono (fun _ hc => absurd hc.1 (by decide))

/-- `c` lies in a bare directory with this name, not `.` or `..`. -/
def Gone (g : Globals) (d : Disk) (dir : Nat) (name : CStr) (c : Nat) : Prop :=
  name.at 0 ≠ 0 ∧ isDotName name = false ∧ ∃ l p lo, Chained g d dir l ∧
    lookup name d (dirSlots g dir l) = some p ∧ (entryAt d p).isDirectory = true ∧
    Chained g d (entryAt d p).first lo ∧ Bare d (dirSlots g (entryAt d p).first lo) ∧
    Under g d (entryAt d p).first c

theorem wp_rmdir_evolved : (rmdir g fuel dir name).wp ctx
    (fun _ m' => Evolved g m.disk m'.disk (Gone g m.disk dir name)) m := by
  obtain ⟨ldir, hok⟩ := hw.dirOk hdir
  have hend : (rmdir g fuel dir name).wp ctx _ m := wp_rmdir hg hok hfuel hinv
    (fun p hn hp => hw.found_chained hg hdir hok.chained hn hp)
  have hbare : (rmdir g fuel dir name).wp ctx _ m := wp_rmdir_bare hg hok hfuel hinv hnf
    (fun p _ hp hpd => hw.dirOk (lookup_isDir hg hd hdir hok.chained hp hpd))
  refine Prog.wp_mono (Prog.wp_and hend hbare) ?_
  rintro _ m' ⟨h, hcases⟩
  rcases hcases with hsame | ⟨hname, hdot, p, lo, hp, hpd, hlo, hbare⟩
  · rw [hsame]
    exact .refl hw hd
  · refine (h.evolved hg hres hw hd hnf hdir hok.chained).mono ?_
    rintro c ⟨_, r, hr, hunder⟩
    cases hr.symm.trans hp
    exact ⟨hname, hdot, ldir, p, lo, hok.chained, hp, hpd, hlo, hbare, hunder⟩

/-- `c` lies below the directory of this name, whose new name marks it deleted. -/
def Erased (g : Globals) (d : Disk) (dir : Nat) (oldName newName : CStr) (c : Nat) : Prop :=
  oldName.at 0 ≠ 0 ∧ ∃ l p name83, Chained g d dir l ∧ lookup oldName d (dirSlots g dir l) = some p ∧
    formatName newName = some name83 ∧ name83 0 = 0xE5 ∧ (entryAt d p).isDirectory = true ∧
    Under g d (entryAt d p).first c

/-- The update renames an entry; `hkeep`: a dot entry would not be renamed. -/
theorem wp_update_evolved {newName : CStr} (hname : name.at 0 ≠ 0)
    (hl : Chained g m.disk dir l) (hp : lookup name m.disk (dirSlots g dir l) = some p)
    (hkeep : (entryAt m.disk p).isDot = true → formatName newName = none ∨
      lookup newName m.disk (dirSlots g dir l) ≠ none) :
    (updateEntry g fuel dir name newName (entryAt m.disk p).clusterLow.toNat
      (entryAt m.disk p).fileSize.toNat (entryAt m.disk p).attributes).wp ctx
      (fun _ m' => Evolved g m.disk m'.disk (Erased g m.disk dir name newName)) m := by
  obtain ⟨ldir, hok⟩ := hw.dirOk hdir
  have := hl.unique hg hok.chained
  subst this
  refine Prog.wp_mono (wp_updateEntry hg hok hfuel (fun _ _ _ _ _ => hinv _)) ?_
  rintro ok m' (⟨_, hsame⟩ | ⟨_, q, name83, hu⟩)
  · rw [hsame]
    exact .refl hw hd
  · cases hu.found.symm.trans hp
    have hdot : (entryAt m.disk p).isDot = false := by
      cases hdot : (entryAt m.disk p).isDot with
      | false => rfl
      | true =>
        exfalso
        rcases hkeep hdot with hnone | hthere
        · rw [hu.format] at hnone
          cases hnone
        rcases hu.free with hsame | hfree | hf
        · exact formatName_ne_dot hu.format ((hsame 0).symm.trans (isDot_nameAt hdot).1)
        · exact hthere hfree
        · exact hnf hf
    refine (hu.evolved hg hres hw hd hdir hl hdot).mono ?_
    exact fun c hc => ⟨hname, l, p, name83, hl, hp, hu.format, hc⟩

theorem wp_deleteMatching_evolved {pattern : CStr} (hl : Chained g m.disk dir l)
    (hlow : ∀ q ∈ dirSlots g dir l, doomed pattern (entryAt m.disk q) = true →
      (entryAt m.disk q).first < 2) :
    (deleteMatching g fuel dir pattern true).wp ctx
      (fun _ m' => Evolved g m.disk m'.disk (fun _ => False)) m := by
  by_cases hpat : pattern.at 0 = 0
  · unfold deleteMatching
    rw [if_pos hpat]
    exact .refl hw hd
  have hnone : ∀ q ∈ dirSlots g dir l, doomed pattern (entryAt m.disk q) = true →
      g.isDataCluster (entryAt m.disk q).first = false := by
    intro q hq hqd
    rw [← Bool.not_eq_true, isDataCluster_iff]
    exact fun h => absurd h.1 (Nat.not_le.mpr (hlow q hq hqd))
  refine Prog.wp_mono (wp_deleteMatching hg hnf hinv true hl hfuel hpat
    ⟨hw.endMarked dir l hdir hl, hnone⟩) ?_
  rintro _ m' ⟨_, hdisk⟩
  rw [hdisk]
  exact sweptDisk_evolved hg hres hw hd

end Calls

end Fat16
end MiniDos
