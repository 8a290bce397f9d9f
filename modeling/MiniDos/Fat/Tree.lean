import MiniDos.Fat.Session
import MiniDos.Fat.Sweep

/-!
# MiniDos.Fat.Tree

The tree of directories and the dot entries in it, across the operations.

* `Dotted`: every subdirectory starts with the live entries `.` and `..`.
* `Evolved`: what an operation leaves: a well-formed volume with its dots and its boot sector, and
  every directory but the lost ones.
* `evolved_of_edit`: the one argument behind all operations. Each changes one slot, and what it is
  asked about is that slot: it is no dot entry, and a new directory in it has its dots.
-/

namespace MiniDos
namespace Fat16

open BlockIO Chain

variable {ctx : Ctx Buffer Sector} {g : Globals} {d d' e : Disk}
variable {c : Nat} {l : List Nat}

/-! ## Subdirectories -/

/-- Slot `p` of directory `parent` has the entry of a subdirectory. -/
structure Child (g : Globals) (d : Disk) (parent : Nat) (p : Slot) : Prop where
  slot : ∃ l, Chained g d parent l ∧ p ∈ dirSlots g parent l
  live : (entryAt d p).isLive = true
  notDot : (entryAt d p).isDot = false
  isDirectory : (entryAt d p).isDirectory = true

theorem Child.isDir {parent : Nat} {p : Slot} (h : Child g d parent p) (hp : IsDir g d parent) :
    IsDir g d (entryAt d p).first := by
  obtain ⟨l, hl, hps⟩ := h.slot
  exact .sub hp hl hps h.live h.notDot h.isDirectory

theorem Child.held (hg : g.Valid) {parent : Nat} {p : Slot} (h : Child g d parent p)
    (hp : IsDir g d parent) : Held g d (IsDir g d) (chainOf g d) p := by
  obtain ⟨l, hl, hps⟩ := h.slot
  exact ⟨parent, hp, by rw [chainOf_eq hg hl]; exact hps, h.live, h.notDot⟩

/-- The directory `r` and the directories below it. -/
inductive Under (g : Globals) (d : Disk) (r : Nat) : Nat → Prop where
  | top : Under g d r r
  | sub {c : Nat} {p : Slot} (h : Under g d r c) (hp : Child g d c p) :
      Under g d r (entryAt d p).first

/-- A live entry with this name, `.` or `..`, for the directory with first cluster `c`. -/
structure DotEntry (e : DirectoryEntry) (name : Name) (c : Nat) : Prop where
  visible : e.isVisible = true
  name : e.name = name
  isDirectory : e.isDirectory = true
  first : e.first = c

/-- The first two slots of directory `c` are its entries `.` and `..`. -/
structure Dots (g : Globals) (d : Disk) (c parent : Nat) : Prop where
  nonzero : c ≠ 0
  dot : DotEntry (entryAt d (headSlot g c)) dotName c
  dotDot : DotEntry (entryAt d (g.clusterSector c, 1)) dotDotName parent

/-- Every subdirectory has its dots, and the root has none. -/
structure Dotted (g : Globals) (d : Disk) : Prop where
  sub : ∀ parent p, IsDir g d parent → Child g d parent p → Dots g d (entryAt d p).first parent
  root : ∀ p ∈ dirSlots g 0 [], (entryAt d p).isLive = true → (entryAt d p).isDot = false

theorem DotEntry.isDot {x : DirectoryEntry} {n : Name} (h : DotEntry x n c)
    (hn : n = dotName ∨ n = dotDotName) : x.isDot = true := by
  rcases hn with rfl | rfl <;> simp [DirectoryEntry.isDot, h.name]

theorem newEntry_dotEntry {n : Name} (hn : n = dotName ∨ n = dotDotName) (hc : c < 65536) :
    DotEntry (newEntry n c 0 attrDirectory) n c := by
  refine ⟨?_, rfl, ?_, newEntry_first n hc 0 attrDirectory⟩
  · rcases hn with rfl | rfl
    · exact (show (newEntry dotName 0 0 attrDirectory).isVisible = true by decide)
    · exact (show (newEntry dotDotName 0 0 attrDirectory).isVisible = true by decide)
  · show (attrDirectory &&& attrDirectory != 0) = true
    decide

theorem NewDir.dots (hg : g.Valid) {n parent : Nat} (h : NewDir g d n parent e)
    (hp : parent < 65536) : Dots g e n parent := by
  have hn := (h.chain.free n (List.mem_singleton.mpr rfl)).1
  refine ⟨fun h0 => ?_, ?_, ?_⟩
  · have := (isDataCluster_iff.mp hn).1
    omega
  · rw [h.dot]
    exact newEntry_dotEntry (.inl rfl) (data_lt hg hn)
  · rw [h.dotDot]
    exact newEntry_dotEntry (.inr rfl) hp

/-! ## One operation -/

/-- What an operation leaves of the volume. -/
structure Evolved (g : Globals) (d d' : Disk) (Lost : Nat → Prop) : Prop where
  wellFormed : WellFormed g d'
  dotted : Dotted g d'
  boot : d' 0 = d 0
  dirs : ∀ c, IsDir g d c → Lost c ∨ IsDir g d' c

theorem Evolved.refl (hw : WellFormed g d) (hd : Dotted g d) {Lost : Nat → Prop} :
    Evolved g d d Lost := ⟨hw, hd, rfl, fun _ hc => .inr hc⟩

theorem Evolved.mono {Lost Lost' : Nat → Prop} (h : Evolved g d d' Lost)
    (hlost : ∀ c, Lost c → Lost' c) : Evolved g d d' Lost' :=
  ⟨h.wellFormed, h.dotted, h.boot, fun c hc => (h.dirs c hc).imp (hlost c) id⟩

theorem boot_not_fat (hres : 0 < g.bpb.reservedSectors) : ¬ g.isFatSector 0 := by
  unfold Globals.isFatSector
  omega

theorem clusterSector_pos (hres : 0 < g.bpb.reservedSectors) {c lba : Nat}
    (h : lba ∈ clusterSectors g c) : 0 < lba := by
  rw [mem_clusterSectors] at h
  unfold Globals.clusterSector Globals.getDataStart Globals.getRootDirStart at h
  omega

theorem dirSector_pos (hres : 0 < g.bpb.reservedSectors) {c lba : Nat}
    (h : lba ∈ dirSectors g c l) : 0 < lba := by
  rcases mem_dirSectors.mp h with ⟨_, hr⟩ | ⟨_, x, _, hx⟩
  · rw [mem_rootSectors] at hr
    unfold Globals.getRootDirStart at hr
    omega
  · exact clusterSector_pos hres hx

/-- A slot that may change: in a free cluster, or in a directory and not of a dot entry. -/
def Spare (g : Globals) (d : Disk) (p : Slot) : Prop :=
  (∃ n, FreeCluster g d n ∧ p.1 ∈ clusterSectors g n) ∨
    ((∃ c l, p ∈ dirSlots g c l) ∧ ((entryAt d p).isLive = true → (entryAt d p).isDot = false))

section Edit

variable {D' : Nat → Prop} {ch' : Nat → List Nat} {p : Slot} {new X Lost : Nat → Prop}
  {x : DirectoryEntry}

theorem Spare.sector_pos (hres : 0 < g.bpb.reservedSectors) (h : Spare g d p) : 0 < p.1 := by
  rcases h with ⟨n, _, hp⟩ | ⟨⟨c, l, hp⟩, _⟩
  · exact clusterSector_pos hres hp
  · exact dirSector_pos hres (mem_slotsOf.mp hp).1

theorem Spare.ne_dot (h : Spare g d p) {c i : Nat} (hl : Chained g d c l)
    (h0 : c ≠ 0) (hi : (g.clusterSector c, i) ∈ slotsOf (clusterSectors g c)) {n : Name} {f : Nat}
    (hn : n = dotName ∨ n = dotDotName) (hq : DotEntry (entryAt d (g.clusterSector c, i)) n f) :
    (g.clusterSector c, i) ≠ p := by
  rintro rfl
  rcases h with ⟨m, ⟨hm, hfree⟩, hpm⟩ | ⟨_, hdot⟩
  · have hc := hl.head_mem h0
    have hcd := hl.data_of_mem c hc
    have hmc := clusterSectors_disjoint (isDataCluster_iff.mp hm).1 (isDataCluster_iff.mp hcd).1
      hpm (mem_slotsOf.mp hi).1
    exact hl.ne_zero c hc (hmc ▸ hfree)
  · have := hdot (DirectoryEntry.isLive_of_isVisible hq.visible)
    rw [hq.isDot hn] at this
    cases this

theorem dotSlots_mem (hg : g.Valid) (c : Nat) : headSlot g c ∈ slotsOf (clusterSectors g c) ∧
    (g.clusterSector c, 1) ∈ slotsOf (clusterSectors g c) := by
  obtain ⟨rest, hrest⟩ := Inventory.slotsOf_cluster hg c
  rw [hrest]
  simp

theorem Dots.slots_mem (hg : g.Valid) {c parent : Nat} (h : Dots g d c parent)
    (hl : Chained g d c l) :
    headSlot g c ∈ dirSlots g c l ∧ (g.clusterSector c, 1) ∈ dirSlots g c l := by
  have hslots : ∀ q ∈ slotsOf (clusterSectors g c), q ∈ dirSlots g c l := by
    intro q hq
    obtain ⟨hq1, hq2⟩ := mem_slotsOf.mp hq
    exact mem_slotsOf.mpr ⟨mem_dirSectors.mpr (.inr ⟨h.nonzero, c, hl.head_mem h.nonzero, hq1⟩), hq2⟩
  exact ⟨hslots _ (dotSlots_mem hg c).1, hslots _ (dotSlots_mem hg c).2⟩

theorem Edit.dots (hg : g.Valid) (he : Edit g d d' X p x) (hspare : Spare g d p) {c parent : Nat}
    (hl : Chained g d c l) (h : Dots g d c parent) : Dots g d' c parent := by
  have hne0 := hspare.ne_dot hl h.nonzero (dotSlots_mem hg c).1 (.inl rfl) h.dot
  have hne1 := hspare.ne_dot hl h.nonzero (dotSlots_mem hg c).2 (.inr rfl) h.dotDot
  obtain ⟨hm0, hm1⟩ := h.slots_mem hg hl
  refine ⟨h.nonzero, ?_, ?_⟩
  · rw [he.entry_eq hl hm0 hne0]
    exact h.dot
  · rw [he.entry_eq hl hm1 hne1]
    exact h.dotDot

/-- A directory is lost, or still there. The path to it leads through slot `p` only if that has the
entry of a directory. -/
theorem IsDir.edit (hg : g.Valid) (hk : Kept g (IsDir g d) (chainOf g d) d' D' ch' p new)
    (he : Edit g d d' X p x)
    (hlong : ∀ c, IsDir g d c → D' c → chainOf g d c <+: ch' c)
    (hlost : ∀ c q, Lost c → Child g d c q → Lost (entryAt d q).first)
    (hold : ∀ parent, IsDir g d parent → Child g d parent p → Lost (entryAt d p).first ∨
      (x.isLive = true ∧ x.isDot = false ∧ x.isDirectory = true ∧ x.first = (entryAt d p).first))
    (hc : IsDir g d c) : Lost c ∨ IsDir g d' c := by
  induction hc with
  | root => exact .inr .root
  | @sub parent l q hparent hl hq hlive hdot hdir ih =>
    have hchild : Child g d parent q := ⟨⟨l, hl, hq⟩, hlive, hdot, hdir⟩
    rcases ih with hgone | hthere
    · exact .inl (hlost parent q hgone hchild)
    have hD := hk.inv.isDir hg hthere
    have hslot : q ∈ dirSlots g parent (ch' parent) := by
      have hpre := hlong parent hparent hD
      rw [chainOf_eq hg hl] at hpre
      obtain ⟨hq1, hq2⟩ := mem_slotsOf.mp hq
      refine mem_slotsOf.mpr ⟨?_, hq2⟩
      rcases mem_dirSectors.mp hq1 with hr | ⟨h0, y, hy, hly⟩
      · exact mem_dirSectors.mpr (.inl hr)
      · exact mem_dirSectors.mpr (.inr ⟨h0, y, hpre.subset hy, hly⟩)
    by_cases hqp : q = p
    · subst hqp
      rcases hold parent hparent hchild with hgone | ⟨hxl, hxd, hxdir, hxf⟩
      · exact .inl hgone
      · right
        rw [← hxf, ← he.entry_self]
        rw [← he.entry_self] at hxl hxd hxdir
        exact .sub hthere (hk.inv.dir parent hD).chained hslot hxl hxd hxdir
    · right
      have heq := he.entry_eq hl hq hqp
      rw [← heq]
      rw [← heq] at hlive hdot hdir
      exact .sub hthere (hk.inv.dir parent hD).chained hslot hlive hdot hdir

/-- The change of one slot. `hnew`: a new directory has no entries but its dots; `hdot`, `hx`: the
new entry is no dot entry, and a directory in it has its dots; `hold`: what becomes of a directory
whose entry was there. -/
theorem evolved_of_edit (hg : g.Valid) (hres : 0 < g.bpb.reservedSectors) (hw : WellFormed g d)
    (hd : Dotted g d) (hk : Kept g (IsDir g d) (chainOf g d) d' D' ch' p new)
    (he : Edit g d d' X p x) (hspare : Spare g d p)
    (hlong : ∀ c, IsDir g d c → D' c → chainOf g d c <+: ch' c)
    (hnew : ∀ c, D' c → new c → ∀ q ∈ dirSlots g c (ch' c), (entryAt d' q).isLive = true →
      (entryAt d' q).isDot = true)
    (hdot : x.isLive = true → x.isDot = false)
    (hx : ∀ parent, IsDir g d parent → p ∈ dirSlots g parent (ch' parent) → x.isLive = true →
      x.isDirectory = true → Dots g d' x.first parent)
    (hlost : ∀ c q, Lost c → Child g d c q → Lost (entryAt d q).first)
    (hold : ∀ parent, IsDir g d parent → Child g d parent p → Lost (entryAt d p).first ∨
      (x.isLive = true ∧ x.isDot = false ∧ x.isDirectory = true ∧ x.first = (entryAt d p).first)) :
    Evolved g d d' Lost := by
  refine ⟨hk.inv.wellFormed hg, ⟨?_, fun q hq hlive => ?_⟩, ?_,
    fun c hc => hc.edit hg hk he hlong hlost hold⟩
  · intro parent q hparent hchild
    -- the slot that changed
    have hself : IsDir g d parent → q = p → q ∈ dirSlots g parent (ch' parent) →
        Dots g d' (entryAt d' q).first parent := by
      rintro hpar rfl hq
      have hlive := hchild.live
      have hdir := hchild.isDirectory
      rw [he.entry_self] at hlive hdir ⊢
      exact hx parent hpar hq hlive hdir
    obtain ⟨l, hl, hq⟩ := hchild.slot
    have hD := hk.inv.isDir hg hparent
    have := hl.unique hg (hk.inv.dir parent hD).chained
    subst this
    rcases hk.dirs parent hD with hpar | hpar
    case inr =>
      have := hnew parent hD hpar q hq hchild.live
      rw [hchild.notDot] at this
      cases this
    rcases hk.slot_cases hpar hq with hqp | hqold | hqend
    · exact hself hpar hqp hq
    · have hlp := (hw.inventory hg).dir parent hpar
      by_cases hqp : q = p
      · exact hself hpar hqp hq
      have heq := he.entry_eq hlp.chained hqold hqp
      have hchild' : Child g d parent q :=
        ⟨⟨_, hlp.chained, hqold⟩, heq ▸ hchild.live, heq ▸ hchild.notDot, heq ▸ hchild.isDirectory⟩
      rw [heq]
      have hlq := (hw.inventory hg).chain q (hchild'.held hg hpar)
      exact he.dots hg hspare hlq (hd.sub parent q hpar hchild')
    · have := (DirectoryEntry.isLive_iff.mp hchild.live).1
      rw [hqend] at this
      cases this
  · by_cases hqp : q = p
    · subst hqp
      rw [he.entry_self] at hlive ⊢
      exact hdot hlive
    · rw [he.entry_eq (.inl ⟨rfl, rfl⟩) hq hqp] at hlive ⊢
      exact hd.root q hq hlive
  · have hp := hspare.sector_pos hres
    obtain ⟨e₁, h1, h2⟩ := he.via
    have hnf := boot_not_fat hres
    rw [h2.sec 0 hnf not_false, putSlot_sector_ne (show 0 ≠ p.1 by omega)]
    refine h1.sec 0 hnf ?_
    rintro ⟨n, _, hn⟩
    have := clusterSector_pos hres hn
    omega

end Edit

/-! ## Changes that add nothing -/

/-- The slot keeps its entry, or loses that of a file. -/
def Dropped (d d' : Disk) (q : Slot) : Prop :=
  entryAt d' q = entryAt d q ∨ (entryAt d' q = deletedEntry (entryAt d q) ∧
    (entryAt d q).isDirectory = false ∧ (entryAt d q).isEnd = false)

theorem Dropped.eq_of_live {q : Slot} (h : Dropped d d' q) (hlive : (entryAt d' q).isLive = true) :
    entryAt d' q = entryAt d q := by
  rcases h with h | ⟨h, _⟩
  · exact h
  · rw [h, deletedEntry_isLive] at hlive
    cases hlive

theorem Dropped.eq_of_directory {q : Slot} (h : Dropped d d' q)
    (hdir : (entryAt d q).isDirectory = true) : entryAt d' q = entryAt d q := by
  rcases h with h | ⟨_, h, _⟩
  · exact h
  · rw [h] at hdir
    cases hdir

theorem Dropped.isEnd_eq {q : Slot} (h : Dropped d d' q) :
    (entryAt d' q).isEnd = (entryAt d q).isEnd := by
  rcases h with h | ⟨h, _, hend⟩
  · rw [h]
  · rw [h, hend, deletedEntry_isEnd]

section Frame

variable (hg : g.Valid) (hw : WellFormed g d)
  (hchain : ∀ c l, Chained g d c l → Chained g d' c l)
  (hdrop : ∀ c l, Chained g d c l → ∀ q ∈ dirSlots g c l, Dropped d d' q)
include hg hw hchain hdrop

theorem isDir_of_dropped (h : IsDir g d' c) : IsDir g d c := by
  induction h with
  | root => exact .root
  | @sub parent l q _ hl hq hlive hdot hdir ih =>
    obtain ⟨l₀, hl₀⟩ := hw.dir_chained ih
    have := hl.unique hg (hchain parent l₀ hl₀)
    subst this
    have heq := (hdrop parent l hl₀ q hq).eq_of_live hlive
    rw [heq] at hlive hdot hdir ⊢
    exact .sub ih hl₀ hq hlive hdot hdir

omit hg hw in
theorem isDir_dropped (h : IsDir g d c) : IsDir g d' c := by
  induction h with
  | root => exact .root
  | @sub parent l q _ hl hq hlive hdot hdir ih =>
    have heq := (hdrop parent l hl q hq).eq_of_directory hdir
    rw [← heq] at hlive hdot hdir ⊢
    exact .sub ih (hchain parent l hl) hq hlive hdot hdir

theorem liveSlot_of_dropped {p : Slot} (h : LiveSlot g d' p) :
    LiveSlot g d p ∧ entryAt d' p = entryAt d p := by
  obtain ⟨c, l, hc, hl, hp, hlive, hdot⟩ := h
  have hc₀ := isDir_of_dropped hg hw hchain hdrop hc
  obtain ⟨l₀, hl₀⟩ := hw.dir_chained hc₀
  have := hl.unique hg (hchain c l₀ hl₀)
  subst this
  have heq := (hdrop c l hl₀ p hp).eq_of_live hlive
  rw [heq] at hlive hdot
  exact ⟨⟨c, l, hc₀, hl₀, hp, hlive, hdot⟩, heq⟩

theorem wellFormed_of_dropped : WellFormed g d' := by
  refine ⟨fun c l hc hl => ?_, fun p hp => ?_, fun p q lp lq hp hq hne hlp hlq => ?_⟩
  · have hc₀ := isDir_of_dropped hg hw hchain hdrop hc
    obtain ⟨l₀, hl₀⟩ := hw.dir_chained hc₀
    have := hl.unique hg (hchain c l₀ hl₀)
    subst this
    refine List.Pairwise.imp_of_mem (fun {a b} ha hb hab => ?_) (hw.endMarked c l hc₀ hl₀)
    rw [(hdrop c l hl₀ a ha).isEnd_eq, (hdrop c l hl₀ b hb).isEnd_eq]
    exact hab
  · obtain ⟨hp₀, heq⟩ := liveSlot_of_dropped hg hw hchain hdrop hp
    obtain ⟨l, hl⟩ := hw.chained p hp₀
    exact ⟨l, heq ▸ hchain _ l hl⟩
  · obtain ⟨hp₀, heqp⟩ := liveSlot_of_dropped hg hw hchain hdrop hp
    obtain ⟨hq₀, heqq⟩ := liveSlot_of_dropped hg hw hchain hdrop hq
    obtain ⟨lp₀, hlp₀⟩ := hw.chained p hp₀
    obtain ⟨lq₀, hlq₀⟩ := hw.chained q hq₀
    rw [heqp] at hlp
    rw [heqq] at hlq
    have h1 := hlp.unique hg (hchain _ lp₀ hlp₀)
    have h2 := hlq.unique hg (hchain _ lq₀ hlq₀)
    subst h1
    subst h2
    exact hw.disjoint p q lp lq hp₀ hq₀ hne hlp₀ hlq₀

theorem evolved_of_dropped (hd : Dotted g d) (hboot : d' 0 = d 0) :
    Evolved g d d' (fun _ => False) := by
  refine ⟨wellFormed_of_dropped hg hw hchain hdrop, ⟨fun parent q hparent hchild => ?_,
    fun q hq hlive => ?_⟩, hboot, fun c hc => .inr (isDir_dropped hchain hdrop hc)⟩
  · have hpar := isDir_of_dropped hg hw hchain hdrop hparent
    obtain ⟨l, hl, hq⟩ := hchild.slot
    obtain ⟨l₀, hl₀⟩ := hw.dir_chained hpar
    have := hl.unique hg (hchain parent l₀ hl₀)
    subst this
    have heq := (hdrop parent l hl₀ q hq).eq_of_live hchild.live
    have hchild' : Child g d parent q :=
      ⟨⟨l, hl₀, hq⟩, heq ▸ hchild.live, heq ▸ hchild.notDot, heq ▸ hchild.isDirectory⟩
    rw [heq]
    have hdots := hd.sub parent q hpar hchild'
    have hlq := (hw.inventory hg).chain q (hchild'.held hg hpar)
    obtain ⟨hm0, hm1⟩ := hdots.slots_mem hg hlq
    refine ⟨hdots.nonzero, ?_, ?_⟩
    · rw [(hdrop _ _ hlq _ hm0).eq_of_directory hdots.dot.isDirectory]
      exact hdots.dot
    · rw [(hdrop _ _ hlq _ hm1).eq_of_directory hdots.dotDot.isDirectory]
      exact hdots.dotDot
  · have heq := (hdrop 0 [] (.inl ⟨rfl, rfl⟩) q hq).eq_of_live hlive
    rw [heq] at hlive ⊢
    exact hd.root q hq hlive

end Frame

theorem Scratch.evolved (hg : g.Valid) (hres : 0 < g.bpb.reservedSectors) (hw : WellFormed g d)
    (hd : Dotted g d) (hs : Scratch g d d') : Evolved g d d' (fun _ => False) := by
  refine evolved_of_dropped hg hw (fun c l hl => hs.chained hg hl)
    (fun c l hl q hq => .inl (hs.entryAt_eq hl hq)) hd ?_
  refine hs.sec 0 (boot_not_fat hres) ?_
  rintro ⟨n, _, hn⟩
  have := clusterSector_pos hres hn
  omega

theorem sweptDisk_evolved (hg : g.Valid) (hres : 0 < g.bpb.reservedSectors) (hw : WellFormed g d)
    (hd : Dotted g d) {pattern : CStr} {dir : Nat} :
    Evolved g d (sweptDisk pattern ((dirSectors g dir l).takeWhile (noEnd d)) d)
      (fun _ => False) := by
  have hsecs : ∀ lba ∈ (dirSectors g dir l).takeWhile (noEnd d), lba ∈ dirSectors g dir l :=
    fun lba hlba => List.takeWhile_subset _ hlba
  have ht : Touches g (fun _ => False)
      (fun lba => lba ∈ (dirSectors g dir l).takeWhile (noEnd d)) d
      (sweptDisk pattern ((dirSectors g dir l).takeWhile (noEnd d)) d) :=
    sweptDisk_touches (fun lba hlba => dirSector_not_fat (hsecs lba hlba))
  refine evolved_of_dropped hg hw (fun c l hl => hl.touches hg ht (fun _ _ => not_false))
    (fun c l' _ q hq => ?_) hd (ht.sec 0 (boot_not_fat hres) (fun h0 => ?_))
  · have hq2 := (mem_slotsOf.mp hq).2
    unfold Dropped entryAt sweptDisk
    split
    · rw [markSlots_entry hq2 16 0 _ (by omega)]
      split
      · rename_i hdoomed
        obtain ⟨_, _, hdoomed⟩ := hdoomed
        right
        have hvis := doomed_isVisible hdoomed
        simp only [doomed, Bool.and_eq_true, Bool.not_eq_true'] at hdoomed
        exact ⟨rfl, hdoomed.1.2,
          (DirectoryEntry.isLive_iff.mp (DirectoryEntry.isLive_of_isVisible hvis)).1⟩
      · exact .inl rfl
    · exact .inl rfl
  · have := dirSector_pos hres (hsecs 0 h0)
    omega

end Fat16
end MiniDos
