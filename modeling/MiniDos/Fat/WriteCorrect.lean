import MiniDos.Fat.Session

/-!
# MiniDos.Fat.WriteCorrect

What `fat16_write_file_from_dir` achieves on a well-formed volume without faults.

* `chainBytes`: the bytes a chain of clusters spells.
* `HoldsFile`: the file found under a name, its size and its content.
* `OthersKept`: nothing that belongs to another entry has changed.
* `writeFileFromDir_correct`: after a successful write both hold.
-/

namespace MiniDos
namespace Fat16

open BlockIO Chain

variable {p : Slot} {bytes : List Byte} {x : DirectoryEntry} {l : List Nat} {D' : Nat → Prop}
  {ch' : Nat → List Nat}

/-! ## The content of a chain -/

def chainBytes (g : Globals) (d : Disk) (l : List Nat) : List Byte :=
  (l.flatMap (clusterSectors g)).flatMap (fun lba => List.ofFn (d lba))

variable {ctx : Ctx Buffer Sector} {g : Globals} {m m' : DriverMem} {d d' e : Disk} {dir fuel : Nat}
  {name : CStr}

theorem getElem?_flatMap_blocks {α : Type} (f : α → List Byte) (hf : ∀ a, (f a).length = 512) :
    ∀ (l : List α) (k : Nat), (l.flatMap f)[k]? = (l[k / 512]?).bind (fun a => (f a)[k % 512]?) := by
  intro l
  induction l with
  | nil => intro k; simp
  | cons a l ih =>
    intro k
    rw [List.flatMap_cons]
    by_cases hk : k < 512
    · rw [List.getElem?_append_left (by rw [hf]; exact hk), Nat.div_eq_of_lt hk,
        Nat.mod_eq_of_lt hk]
      rfl
    · rw [List.getElem?_append_right (by rw [hf]; omega), hf, ih,
        show k / 512 = (k - 512) / 512 + 1 by omega, show k % 512 = (k - 512) % 512 by omega]
      rfl

theorem Spells.take_chainBytes
    (h : Spells g d l (fun k => bytes.getD k 0) bytes.length) :
    (chainBytes g d l).take bytes.length = bytes := by
  refine List.ext_getElem? (fun k => ?_)
  rw [List.getElem?_take]
  by_cases hk : k < bytes.length
  · obtain ⟨lba, hl, hb⟩ := h k hk
    unfold chainBytes
    rw [if_pos hk, getElem?_flatMap_blocks _ (fun _ => List.length_ofFn), hl]
    have hk512 : k % 512 < 512 := Nat.mod_lt _ (by decide)
    simp only [Option.bind_some, List.getElem?_ofFn, hk512, dif_pos]
    rw [List.getElem?_eq_getElem hk]
    have hv : (⟨k % 512, hk512⟩ : Fin 512) = Fin.ofNat 512 (k % 512) :=
      Fin.ext (Nat.mod_eq_of_lt hk512).symm
    rw [hv]
    simpa [Sector.get, hk] using hb
  · rw [if_neg hk, List.getElem?_eq_none (Nat.le_of_not_lt hk)]

theorem chainBytes_congr
    (h : ∀ c ∈ l, ∀ lba ∈ clusterSectors g c, d' lba = d lba) :
    chainBytes g d' l = chainBytes g d l := by
  unfold chainBytes
  refine List.flatMap_congr (fun lba hl => ?_)
  obtain ⟨c, hc, hlc⟩ := List.mem_flatMap.mp hl
  rw [h c hc lba hlc]

/-! ## What a write promises -/

/-- `fat16_find_entry` on `dir` and `name` gives the file entry in slot `p`; its chain `l` spells
`bytes`, which is as long as the entry says. -/
structure HoldsFile (g : Globals) (fuel : Nat) (m : DriverMem) (dir : Nat) (name : CStr) (p : Slot)
    (l : List Nat) (bytes : List Byte) : Prop where
  found : ∃ m₁, (findEntry g fuel dir name).run noFaults m = some (some (locate m.disk p), m₁)
  file : (entryAt m.disk p).isDirectory = false
  size : (entryAt m.disk p).fileSize.toNat = bytes.length
  chain : Chained g m.disk (entryAt m.disk p).first l
  content : (chainBytes g m.disk l).take bytes.length = bytes

/-- From `d` to `d'`, every directory slot but `p` and the chain and content of every live entry
but that in `p` are the same. The directory `dir` itself, whose content are its slots, may have got
further clusters. -/
structure OthersKept (g : Globals) (d d' : Disk) (dir : Nat) (p : Slot) : Prop where
  slots : ∀ c l q, IsDir g d c → Chained g d c l → q ∈ dirSlots g c l → q ≠ p →
    entryAt d' q = entryAt d q
  files : ∀ q l, LiveSlot g d q → q ≠ p → (entryAt d q).first ≠ dir ∨ dir = 0 →
    Chained g d (entryAt d q).first l →
    Chained g d' (entryAt d q).first l ∧ chainBytes g d' l = chainBytes g d l
  own : ∀ l, Chained g d dir l → ∃ l', Chained g d' dir l' ∧ l <+: l'

theorem run_findEntry (hg : g.Valid) (hfuel : g.getTotalClusters ≤ fuel)
    (hd : DirOk g m.disk dir l) (hname : name.at 0 ≠ 0)
    (h : lookup name m.disk (dirSlots g dir l) = some p) :
    ∃ m₁, (findEntry g fuel dir name).run noFaults m = some (some (locate m.disk p), m₁) := by
  unfold findEntry
  rw [if_neg hname]
  have hwp : (findEntryInternal g fuel dir name).wp (Ctx.total (fun _ => True)) _ m :=
    wp_findEntryInternal hg hd hfuel name
  obtain ⟨hpost, hterm⟩ := Prog.run_of_wp noFaults (fun _ hf => by cases hf) hwp
  obtain ⟨r, m₁, hrun⟩ := hterm not_false
  refine ⟨m₁, ?_⟩
  rw [hrun]
  rcases (hpost r m₁ hrun).2.2 with hr | ⟨hf, _⟩
  · rw [hr, h]; rfl
  · exact absurd hf.faulty (Ctx.total_not_faulty _)

theorem lookup_of_unique {ps : List Slot} (hp : p ∈ ps)
    (hhit : (entryAt d p).hits name = true)
    (huniq : ∀ q ∈ ps, (entryAt d q).hits name = true → q = p) : lookup name d ps = some p := by
  unfold lookup
  cases hf : ps.find? (fun p => (entryAt d p).hits name) with
  | none => exact absurd hhit (List.find?_eq_none.mp hf p hp)
  | some q => rw [huniq q (List.mem_of_find?_eq_some hf) (by simpa using List.find?_some hf)]

theorem find?_congr_of_mem {α : Type} {p q : α → Bool} {l : List α} (h : ∀ a ∈ l, p a = q a) :
    l.find? p = l.find? q := by
  induction l with
  | nil => rfl
  | cons a l ih =>
    rw [List.find?_cons, List.find?_cons, h a List.mem_cons_self,
      ih (fun b hb => h b (List.mem_cons_of_mem _ hb))]

theorem lookup_congr {ps : List Slot}
    (h : ∀ q ∈ ps, (entryAt d' q).hits name = (entryAt d q).hits name) :
    lookup name d' ps = lookup name d ps := find?_congr_of_mem h

/-! ## A successful write -/

theorem kept_not_volumeId (x : DirectoryEntry) (n : Name) (cluster fileSize : Nat) :
    (overwrittenEntry x n cluster fileSize).isVolumeId = false := by
  have h : ∀ b : BitVec 8, (b &&& attrReadOnly.toBitVec ||| attrArchive.toBitVec) &&&
      attrVolumeId.toBitVec = 0 := by decide
  have hattr : (overwrittenEntry x n cluster fileSize).attributes &&& attrVolumeId = 0 := by
    refine UInt8.toBitVec_inj.mp ?_
    simpa [overwrittenEntry, updatedEntry, keptAttributes] using h x.attributes.toBitVec
  unfold DirectoryEntry.isVolumeId
  rw [hattr]
  rfl

theorem archive_not_volumeId {n : Name} {cluster fileSize : Nat} :
    (newEntry n cluster fileSize attrArchive).isVolumeId = false := by
  have : (newEntry n cluster fileSize attrArchive).attributes = attrArchive := rfl
  unfold DirectoryEntry.isVolumeId
  rw [this]
  decide

section Success

variable (hg : g.Valid) (hw : WellFormed g d) (hdir : IsDir g d dir)
include hg hw hdir

theorem Edit.othersKept {X : Nat → Prop}
    (h : Edit g d d' X p x) (hplace : p ∈ dirSlots g dir (chainOf g d dir) ∨
      ∃ n, FreeCluster g d n ∧ p.1 ∈ clusterSectors g n)
    (hX : ∀ q, Held g d (IsDir g d) (chainOf g d) q → q ≠ p → (entryAt d q).first ≠ 0 →
      (entryAt d q).first ≠ dir → ∀ y ∈ chainOf g d (entryAt d q).first, ¬ X y)
    (hown : ∃ l', Chained g d' dir l' ∧ chainOf g d dir <+: l') : OthersKept g d d' dir p := by
  have hi := hw.inventory hg
  refine ⟨fun c l q _ hl hq hne => h.entry_eq hl hq hne, fun q l hq hne hfirst hl => ?_,
    fun l hl => ?_⟩
  · have hheld := hi.held hg hq
    by_cases h0 : (entryAt d q).first = 0
    · rw [h0] at hl ⊢
      rw [hl.nil_of_zero]
      exact ⟨.inl ⟨rfl, rfl⟩, chainBytes_congr (fun _ hc => by cases hc)⟩
    · have hnd : (entryAt d q).first ≠ dir := by
        rcases hfirst with hf | hz
        · exact hf
        · exact hz ▸ h0
      obtain ⟨hc, hsec⟩ := h.file_eq hg hi hdir hplace ⟨h0, .inr ⟨q, hheld, rfl⟩⟩ hnd
        (hX q hheld hne h0 hnd)
      rw [chainOf_eq hg hl] at hc hsec
      exact ⟨hc, chainBytes_congr hsec⟩
  · rw [chainOf_eq hg hl] at hown
    exact hown

omit hw hdir in
/-- The entry `x` in slot `p` of a directory of the new disk, with the new chain `l`, is the file
the name now stands for. -/
theorem HoldsFile.of_entry {ldir l : List Nat}
    {last : Nat} (hi : Inventory g m'.disk D' ch')
    (hfuel : g.getTotalClusters ≤ fuel) (hD : D' dir) (hname : name.at 0 ≠ 0)
    (hlook : lookup name m'.disk (dirSlots g dir (ch' dir)) = some p)
    (hdot : isDotName name = false) (hx : entryAt m'.disk p = x) (hfile : x.isDirectory = false)
    (hsize : x.fileSize.toNat = bytes.length) (hch : ch' x.first = l)
    (hl : Chained g d dir ldir) (hchain : NewChain g d l x.first last e)
    (hspells : Spells g e l (fun k => bytes.getD k 0) bytes.length)
    (hsec : ∀ y ∈ l, ∀ lba ∈ clusterSectors g y, lba ≠ p.1 → m'.disk lba = e lba) :
    HoldsFile g fuel m' dir name p l bytes := by
  have hhit := lookup_hits hlook
  have hps := lookup_mem hlook
  have hheld : Held g m'.disk D' ch' p := by
    refine ⟨dir, hD, hps, DirectoryEntry.isLive_of_hits hhit, ?_⟩
    simp only [DirectoryEntry.hits, Bool.and_eq_true] at hhit
    exact not_dot_of_matchName hdot hhit.2
  have hc := hi.chain p hheld
  rw [hx, hch] at hc
  refine ⟨run_findEntry hg hfuel (hi.dir dir hD) hname hlook, by rw [hx]; exact hfile,
    by rw [hx]; exact hsize, by rw [hx]; exact hc, Spells.take_chainBytes ?_⟩
  refine hspells.congr (fun y hy lba hlba => hsec y hy lba hlba ?_)
  have h0 : x.first ≠ 0 := fun h0 => by
    rw [h0] at hc
    rw [hc.nil_of_zero] at hy
    cases hy
  have hne : x.first ≠ dir := by
    rintro rfl
    exact hl.ne_zero _ (hl.head_mem h0) (hchain.free _ (hchain.chained.head_mem h0)).2
  refine hi.slot_not_in_chain hD hps ⟨h0, .inr ⟨p, hheld, by rw [hx]⟩⟩ hne y ?_ lba hlba
  rw [hch]
  exact hy

omit hw in
theorem lookup_entered {ldir l : List Nat}
    (hs : Scratch g d e) (hl : Chained g d dir ldir)
    (hent : Entered ctx g e (IsDir g d) (chainOf g d) dir x l d' D' ch' p)
    (hhit : x.hits name = true) (hnew : lookup name d (dirSlots g dir ldir) = none) :
    lookup name d' (dirSlots g dir (ch' dir)) = some p := by
  have hedit := hent.edit.after_scratch hg hs
  refine lookup_of_unique hent.slot (by rw [hedit.entry_self]; exact hhit) (fun q hq hhit => ?_)
  rcases hent.kept.slot_cases hdir hq with hqp | hold | hend
  · exact hqp
  · by_cases hqp : q = p
    · exact hqp
    · rw [chainOf_eq hg hl] at hold
      rw [hedit.entry_eq hl hold hqp] at hhit
      exact absurd hhit (List.find?_eq_none.mp hnew q hold)
  · have := (DirectoryEntry.isLive_iff.mp (DirectoryEntry.isLive_of_hits hhit)).1
    rw [hend] at this
    cases this

theorem Entered.othersKept
    (hnf : ¬ ctx.Faulty) (hs : Scratch g d e)
    (hent : Entered ctx g e (IsDir g d) (chainOf g d) dir x l d' D' ch' p) :
    OthersKept g d d' dir p := by
  have hi := hw.inventory hg
  refine (hent.edit.after_scratch hg hs).othersKept hg hw hdir ?_ ?_
    ⟨_, (hent.kept.inv.dir dir (hent.keep dir hdir)).chained, hent.longer hnf dir hdir⟩
  · rcases hent.place with ⟨hp, _⟩ | ⟨n, hn, hpn⟩
    · exact .inl hp
    · exact .inr ⟨n, hs.free_of_free hg hn, hpn⟩
  · intro q hq _ h0 hne y hy hyd
    by_cases hz : dir = 0
    · rw [hz, (hi.dir 0 hi.root).chained.nil_of_zero] at hyd
      cases hyd
    · exact hi.disj _ dir ⟨h0, .inr ⟨q, hq, rfl⟩⟩ (Inventory.head_of_dir hdir hz) hne y hy hyd

theorem entered_correct {ldir l : List Nat}
    {last : Nat} (hfuel : g.getTotalClusters ≤ fuel)
    (hnf : ¬ ctx.Faulty) (hl : Chained g d dir ldir) (hname : name.at 0 ≠ 0)
    (hdot : isDotName name = false) (hchain : NewChain g d l x.first last e)
    (hspells : Spells g e l (fun k => bytes.getD k 0) bytes.length) (hfile : x.isDirectory = false)
    (hsize : x.fileSize.toNat = bytes.length) (hhit : x.hits name = true)
    (hnew : lookup name d (dirSlots g dir ldir) = none)
    (hent : Entered ctx g e (IsDir g d) (chainOf g d) dir x l m'.disk D' ch' p) :
    HoldsFile g fuel m' dir name p l bytes ∧ OthersKept g d m'.disk dir p := by
  have hedit := hent.edit.after_scratch hg hchain.scratch
  have hD := hent.keep dir hdir
  have hlook := lookup_entered hg hdir hchain.scratch hl hent hhit hnew
  exact ⟨HoldsFile.of_entry hg hent.kept.inv hfuel hD hname hlook hdot hedit.entry_self hfile
    hsize hent.chain hl hchain hspells
    (fun y hy lba hlba hne => hent.edit.sector_eq hchain.chained hy hlba hne),
    hent.othersKept hg hw hdir hnf hchain.scratch⟩

theorem created_correct {ldir l : List Nat} {first last : Nat} {name83 : Name}
    (hfuel : g.getTotalClusters ≤ fuel) (hnf : ¬ ctx.Faulty) (hl : Chained g d dir ldir)
    (hname : name.at 0 ≠ 0) (hup : name.Upper) (hlen : bytes.length < 2 ^ 32)
    (hchain : NewChain g d l first last e)
    (hspells : Spells g e l (fun k => bytes.getD k 0) bytes.length)
    (hformat : formatName name = some name83)
    (hnew : lookup name d (dirSlots g dir ldir) = none)
    (hadd : Added ctx g e dir ldir (newEntry name83 first bytes.length attrArchive) true m') :
    ∃ p l, HoldsFile g fuel m' dir name p l bytes ∧ OthersKept g d m'.disk dir p := by
  obtain ⟨D', ch', p, hent⟩ := hadd.entered_file hg hw hdir hl hchain hformat archive_not_directory
  have hfirst : (newEntry name83 first bytes.length attrArchive).first = first :=
    newEntry_first name83 (hchain.first_lt hg) _ _
  exact ⟨p, l, entered_correct hg hw hdir hfuel hnf hl hname (formatName_not_dot hformat)
    (by rw [hfirst]; exact hchain) hspells archive_not_directory (UInt32.toNat_ofNat_of_lt' hlen)
    (hits_of_formatName hup hformat rfl archive_not_volumeId) hnew hent⟩

theorem overwritten_correct {ldir l lo : List Nat} {first last : Nat} {name83 : Name}
    (hfuel : g.getTotalClusters ≤ fuel) (hl : Chained g d dir ldir)
    (hname : name.at 0 ≠ 0) (hlen : bytes.length < 2 ^ 32)
    (hchain : NewChain g d l first last e)
    (hspells : Spells g e l (fun k => bytes.getD k 0) bytes.length)
    (hformat : formatName name = some name83)
    (hfound : lookup name d (dirSlots g dir ldir) = some p)
    (hsame : ∀ i, (entryAt d p).name i = name83 i)
    (hold : Chained g d (entryAt d p).clusterLow.toNat lo)
    (ht : Touches g (fun c => c ∈ lo) (fun _ => False)
      (putSlot e p (overwrittenEntry (entryAt d p) name83 first bytes.length)) m'.disk) :
    HoldsFile g fuel m' dir name p l bytes ∧ OthersKept g d m'.disk dir p := by
  have hi := hw.inventory hg
  have hps := lookup_mem hfound
  have hnotfat := lookup_not_fat hfound
  have h16 := (mem_slotsOf.mp hps).2
  obtain ⟨D', ch', hk, hsamech, hD, hch⟩ :=
    replaced_of_write hg hw hdir hl hchain hformat hfound hold ht
  have hedit : Edit g d m'.disk (fun c => c ∈ lo) p _ :=
    .of_scratch hchain.scratch hnotfat h16 ht
  have hfirst : (overwrittenEntry (entryAt d p) name83 first bytes.length).first = first :=
    updatedEntry_first _ _ (hchain.first_lt hg) _ _
  have hdirch : ch' dir = ldir := by rw [hsamech dir hdir, chainOf_eq hg hl]
  have hheld := held_of_lookup hg hdir hl (formatName_not_dot hformat) hfound
  have hlo : chainOf g d (entryAt d p).first = lo := chainOf_eq hg hold
  -- the name of the entry is the same, so it still answers to the name
  have hlook : lookup name m'.disk (dirSlots g dir (ch' dir)) = some p := by
    rw [hdirch, ← hfound]
    refine lookup_congr (fun q hq => ?_)
    by_cases hqp : q = p
    · subst hqp
      have hhit := lookup_hits hfound
      rw [hhit, hedit.entry_self]
      unfold DirectoryEntry.hits at hhit ⊢
      rw [Bool.and_eq_true] at hhit ⊢
      have hnm : (overwrittenEntry (entryAt d q) name83 first bytes.length).name =
          (entryAt d q).name := (funext hsame).symm
      have hlive := (isVisible_iff.mp hhit.1).1
      refine ⟨isVisible_iff.mpr ⟨?_, kept_not_volumeId _ _ _ _⟩, ?_⟩
      · rw [DirectoryEntry.isLive_congr hnm]
        exact hlive
      · rw [matchName_congr hnm]
        exact hhit.2
    · rw [hedit.entry_eq hl hq hqp]
  refine ⟨HoldsFile.of_entry hg hk.inv hfuel hD hname hlook (formatName_not_dot hformat)
    hedit.entry_self (overwrittenEntry_isDirectory _ _ _ _) (UInt32.toNat_ofNat_of_lt' hlen)
    (by rw [hfirst]; exact hch) hl (by rw [hfirst]; exact hchain) hspells
    (fun y hy lba hlba hne => by
      rw [ht.sec lba (clusterSector_not_fat hlba) not_false, putSlot_sector_ne hne]),
    hedit.othersKept hg hw hdir (.inl (by rw [chainOf_eq hg hl]; exact hps)) ?_
      ⟨_, (hk.inv.dir dir hD).chained, by simp only [hsamech dir hdir, List.prefix_refl]⟩⟩
  intro q hq hqp h0 _ y hy hyo
  rw [← hlo] at hyo
  have hp0 : (entryAt d p).first ≠ 0 := fun hz => by
    rw [hz, (hi.dir 0 hi.root).chained.nil_of_zero] at hyo
    cases hyo
  exact hi.disj _ _ ⟨h0, .inr ⟨q, hq, rfl⟩⟩ ⟨hp0, .inr ⟨p, hheld, rfl⟩⟩
    (fun he => hqp (hi.inj q p hq hheld he h0)) y hy hyo

end Success

theorem write_name_ne {buffer : Option (Nat → Byte)} {size : Int}
    (hrun : (writeFileFromDir g fuel dir name buffer size).run noFaults m = some (true, m')) :
    name.at 0 ≠ 0 := by
  intro h0
  unfold writeFileFromDir at hrun
  rw [if_pos (.inl h0)] at hrun
  cases hrun

/-- When `fat16_write_file_from_dir` returns 1, the file is found under its name with exactly the
bytes given, and nothing else has changed. -/
theorem writeFileFromDir_correct (hg : g.Valid) (hfuel : g.getTotalClusters ≤ fuel)
    (hw : WellFormed g m.disk) (hdir : IsDir g m.disk dir) (hup : name.Upper) {bytes : List Byte}
    (hlen : bytes.length < 2 ^ 31)
    (hrun : (writeFileFromDir g fuel dir name (some (fun k => bytes.getD k 0)) bytes.length).run
      noFaults m = some (true, m')) :
    ∃ p l, HoldsFile g fuel m' dir name p l bytes ∧ OthersKept g m.disk m'.disk dir p := by
  have hname := write_name_ne hrun
  have hlen32 : bytes.length < 2 ^ 32 := by omega
  obtain ⟨ldir, hd⟩ := hw.dirOk hdir
  have hnf : ¬ (Ctx.total (fun _ => True) : Ctx Buffer Sector).Faulty := Ctx.total_not_faulty _
  have hwp := hw.wp_write hg hfuel hnf (fun _ => trivial) hdir hd name
    (some (fun k => bytes.getD k 0)) bytes.length
  have hend := (Prog.run_of_wp noFaults (fun _ hf => by cases hf) hwp).1 true m' hrun
  rw [Option.getD_some, Int.toNat_natCast] at hend
  cases hend with
  | created hready hformat hnew hadd =>
    obtain ⟨⟨last, hchain⟩, hspells⟩ := hready
    exact created_correct hg hw hdir hfuel hnf hd.chained hname hup hlen32 hchain hspells hformat
      (hnew.resolve_right hnf) hadd
  | overwritten hready hformat hfound _ hsame hold ht _ =>
    obtain ⟨⟨last, hchain⟩, hspells⟩ := hready
    exact ⟨_, _, overwritten_correct hg hw hdir hfuel hd.chained hname hlen32 hchain hspells hformat
      hfound (hsame.resolve_right hnf) hold ht⟩

/-- Two bytes written to `A` on a blank volume. -/
theorem writeFileFromDir_correct_blank : ∃ m', (writeFileFromDir smallVolume 3 0 [0x41]
      (some (fun k => [0x68, 0x69].getD k 0)) 2).run noFaults blankMem = some (true, m') ∧
    ∃ p l, HoldsFile smallVolume 3 m' 0 [0x41] p l [0x68, 0x69] ∧
      OthersKept smallVolume blankDisk m'.disk 0 p := by
  have hok : ((writeFileFromDir smallVolume 3 0 [0x41] (some (fun k => [0x68, 0x69].getD k 0)) 2).run
      noFaults blankMem).map Prod.fst = some true := by decide +kernel
  obtain ⟨⟨ok, m'⟩, hrun, rfl⟩ := Option.map_eq_some_iff.mp hok
  exact ⟨m', hrun, writeFileFromDir_correct smallVolume_valid (by decide)
    (blankDisk_wellFormed smallVolume) .root (by decide) (by decide) hrun⟩

end Fat16
end MiniDos
