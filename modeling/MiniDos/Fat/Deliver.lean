import MiniDos.Fat.CopyCorrect
import MiniDos.Fat.TreeOps

/-!
# MiniDos.Fat.Deliver

A file goes from one directory to another: a copy, and for a move the removal of the source behind
it, which looks the source up again. No access fails.

* `HoldsFile.kept`: a file of another directory is found as before.
* `Removed`: an entry is gone, and its clusters are free; `deleteEntry_removes`.
* `Delivered`: what copy and removal leave; `copyFile_twice`, `Twice.cut`.
-/

namespace MiniDos
namespace Fat16

open BlockIO Chain

variable {g : Globals} {m m' : DriverMem} {d d' : Disk} {c dir fuel : Nat} {name : CStr} {q : Slot}
  {l : List Nat}

/-! ## Files of other directories -/

theorem HoldsFile.lookup_eq (hg : g.Valid) (hfuel : g.getTotalClusters ≤ fuel) {ldir : List Nat}
    (hd : DirOk g m.disk dir ldir) {bytes : List Byte} (h : HoldsFile g fuel m dir name q l bytes) :
    name.at 0 ≠ 0 ∧ lookup name m.disk (dirSlots g dir ldir) = some q := by
  obtain ⟨m₁, hrun⟩ := h.found
  obtain ⟨m₂, hrun₂, _⟩ := exists_run_findEntry hg hfuel hd name
  obtain ⟨hsome, _⟩ := Prod.mk.inj (Option.some.inj (hrun.symm.trans hrun₂))
  obtain ⟨p, hp, hloc⟩ := Option.map_eq_some_iff.mp hsome.symm
  unfold foundSlot at hp
  by_cases h0 : name.at 0 = 0
  · rw [if_pos h0] at hp
    cases hp
  · rw [if_neg h0] at hp
    obtain rfl : p = q := Prod.ext (congrArg Located.sector hloc) (congrArg Located.index hloc)
    exact ⟨h0, hp⟩

theorem HoldsFile.scratch (hg : g.Valid) (hfuel : g.getTotalClusters ≤ fuel) {ldir : List Nat}
    (hd : DirOk g m.disk dir ldir) (hs : Scratch g m.disk m'.disk) {bytes : List Byte}
    (h : HoldsFile g fuel m dir name q l bytes) : HoldsFile g fuel m' dir name q l bytes := by
  obtain ⟨hname, hlook⟩ := h.lookup_eq hg hfuel hd
  have hentry := hs.entryAt_eq hd.chained (lookup_mem hlook)
  rw [← hs.lookup_eq hd.chained] at hlook
  refine ⟨run_findEntry hg hfuel (hs.dirOk hg hd) hname hlook, ?_, ?_, ?_, ?_⟩
  · rw [hentry]
    exact h.file
  · rw [hentry]
    exact h.size
  · rw [hentry]
    exact hs.chained hg h.chain
  · rw [hs.chainBytes_eq h.chain]
    exact h.content

theorem OthersKept.chained (h : OthersKept g d d' dir q)
    (hc : IsDir g d c) (hne : c ≠ dir)
    (hq : LiveSlot g d q → (entryAt d q).isDirectory = false) (hl : Chained g d c l) :
    Chained g d' c l := by
  cases hc with
  | root =>
    rw [hl.nil_of_zero]
    exact .inl ⟨rfl, rfl⟩
  | @sub parent lp s hparent hlp hs hlive hdot hdir =>
    have hslot : LiveSlot g d s := ⟨parent, lp, hparent, hlp, hs, hlive, hdot⟩
    refine (h.files s l hslot ?_ (.inl hne) hl).1
    rintro rfl
    exact absurd (hdir.symm.trans (hq hslot)) (by decide)

theorem OthersKept.dirOk (hw : WellFormed g d) (h : OthersKept g d d' dir q)
    (hc : IsDir g d c) (hne : c ≠ dir)
    (hq : LiveSlot g d q → (entryAt d q).isDirectory = false) (hl : Chained g d c l)
    (hslot : q ∉ dirSlots g c l) :
    DirOk g d' c l ∧ ∀ s ∈ dirSlots g c l, entryAt d' s = entryAt d s := by
  have hsame : ∀ s ∈ dirSlots g c l, entryAt d' s = entryAt d s :=
    fun s hs => h.slots c l s hc hl hs (fun he => hslot (he ▸ hs))
  exact ⟨⟨h.chained hc hne hq hl, (hw.endMarked c l hc hl).congr hsame⟩, hsame⟩

theorem WellFormed.first_ne_dir (hg : g.Valid) (hw : WellFormed g d) (hdir : IsDir g d dir)
    (hq : LiveSlot g d q) (hfile : (entryAt d q).isDirectory = false) :
    (entryAt d q).first ≠ dir ∨ dir = 0 := by
  by_cases h0 : dir = 0
  · exact .inr h0
  left
  intro he
  have hi := hw.inventory hg
  cases hdir with
  | root => exact h0 rfl
  | @sub parent lp s hparent hlp hs hlive hdot hsdir =>
    have hsame := hi.inj q s (hi.held hg hq)
      (hi.held hg ⟨parent, lp, hparent, hlp, hs, hlive, hdot⟩) he (he ▸ h0)
    rw [hsame, hsdir] at hfile
    cases hfile

theorem HoldsFile.kept (hg : g.Valid) (hfuel : g.getTotalClusters ≤ fuel) (hw : WellFormed g m.disk)
    (hdir : IsDir g m.disk dir) (hkept : OthersKept g m.disk m'.disk dir q)
    (hq : LiveSlot g m.disk q → (entryAt m.disk q).isDirectory = false)
    (hc : IsDir g m.disk c) (hne : c ≠ dir) {ldir : List Nat} (hl : Chained g m.disk c ldir)
    (hslot : q ∉ dirSlots g c ldir) (hdot : isDotName name = false) {p : Slot} {lp : List Nat}
    {bytes : List Byte} (h : HoldsFile g fuel m c name p lp bytes) :
    HoldsFile g fuel m' c name p lp bytes := by
  obtain ⟨hname, hlook⟩ := h.lookup_eq hg hfuel ⟨hl, hw.endMarked c ldir hc hl⟩
  obtain ⟨hok, hsame⟩ := hkept.dirOk hw hc hne hq hl hslot
  have hmem := lookup_mem hlook
  have hlive : LiveSlot g m.disk p := ⟨c, ldir, hc, hl, hmem,
    DirectoryEntry.isLive_of_hits (lookup_hits hlook), not_dot_of_hits hdot (lookup_hits hlook)⟩
  have hentry := hsame p hmem
  obtain ⟨hchain, hbytes⟩ := hkept.files p lp hlive (fun he => hslot (he ▸ hmem))
    (hw.first_ne_dir hg hdir hlive h.file) h.chain
  refine ⟨run_findEntry hg hfuel hok hname ((lookup_of_eq hsame).trans hlook), ?_, ?_, ?_, ?_⟩
  · rw [hentry]
    exact h.file
  · rw [hentry]
    exact h.size
  · rw [hentry]
    exact hchain
  · rw [hbytes]
    exact h.content

/-! ## A removal -/

/-- The entry in slot `q` of `dir` is gone and its clusters `ls` are free. All others are as
before. -/
structure Removed (g : Globals) (d d' : Disk) (dir : Nat) (q : Slot) (ls : List Nat) : Prop where
  marked : entryAt d' q = deletedEntry (entryAt d q)
  freed : ∀ x ∈ ls, fatGet g d' x = 0
  chain : ∀ l, Chained g d dir l → Chained g d' dir l
  others : OthersKept g d d' dir q

section Remove

variable {ldir ls : List Nat} (hg : g.Valid) (hw : WellFormed g d) (hdir : IsDir g d dir)
  (hl : Chained g d dir ldir) (hdot : isDotName name = false)
  (hfound : lookup name d (dirSlots g dir ldir) = some q) (hls : Chained g d (entryAt d q).first ls)
include hg hw hdir hl hdot hfound hls

theorem dir_apart (h0 : (entryAt d q).first ≠ 0) : ∀ x ∈ ldir, x ∉ ls := by
  intro x hx hxs
  have hi := hw.inventory hg
  have hheld := held_of_lookup hg hdir hl hdot hfound
  have hdir0 : dir ≠ 0 := by
    rintro rfl
    rw [hl.nil_of_zero] at hx
    cases hx
  have hne : dir ≠ (entryAt d q).first := by
    obtain ⟨_, _, _, hlive, hnot⟩ := hheld
    refine (hw.not_own_entry hg hdir q ?_ hlive hnot).resolve_left hdir0
    rw [chainOf_eq hg hl]
    exact lookup_mem hfound
  rw [← chainOf_eq hg hl] at hx
  rw [← chainOf_eq hg hls] at hxs
  exact hi.disj dir _ (Inventory.head_of_dir hdir hdir0) ⟨h0, .inr ⟨q, hheld, rfl⟩⟩ hne x hx hxs

theorem removed_of (hd' : d' = putSlot (freeAll g ls d) q (deletedEntry (entryAt d q))) :
    Removed g d d' dir q ls := by
  have hi := hw.inventory hg
  have hheld := held_of_lookup hg hdir hl hdot hfound
  have hmem := lookup_mem hfound
  have hnf := Inventory.slot_not_fat hmem
  have h16 := Inventory.slot_lt hmem
  have hch : chainOf g d (entryAt d q).first = ls := chainOf_eq hg hls
  have hcut : ∀ x ∈ ls, (entryAt d q).first ≠ 0 := by
    intro x hx h0
    rw [h0] at hls
    rw [hls.nil_of_zero] at hx
    cases hx
  have hfree := freeAll_touches g ls d
  have hedit : Edit g d d' (fun x => x ∈ ls) q (deletedEntry (entryAt d q)) := by
    refine ⟨hnf, h16, freeAll g ls d, hfree.mono (fun _ hx => .inr hx) (fun _ h => h.elim), ?_⟩
    rw [hd']
    exact .refl
  have hchain : Chained g d' dir ldir := hedit.chained hg hl (fun y hy hyq =>
    dir_apart hg hw hdir hl hdot hfound hls (hcut y hyq) y hy hyq)
  refine ⟨hedit.entry_self, fun x hx => ?_, fun l hl' => ?_,
    hedit.othersKept hg hw hdir ?_ ?_ ⟨ldir, hchain, ?_⟩⟩
  · have hvalue := freeAll_value hg hls.data_of_mem d x hx 0 hg.fatCount
    rw [copyStart_zero] at hvalue
    rw [hd', (putSlot_touches hnf _).fatGet_eq hg (inTable_of_data hg (hls.data_of_mem x hx)) not_false]
    exact hvalue
  · rw [hl'.unique hg hl]
    exact hchain
  · rw [chainOf_eq hg hl]
    exact .inl hmem
  · intro s hs hne h0 _ y hy hyq
    rw [← hch] at hyq
    exact hi.disj _ _ ⟨h0, .inr ⟨s, hs, rfl⟩⟩ ⟨hcut y (hch ▸ hyq), .inr ⟨q, hheld, rfl⟩⟩
      (fun he => hne (hi.inj s q hs hheld he h0)) y hy hyq
  · exact (chainOf_eq hg hl) ▸ List.prefix_refl ldir

end Remove

theorem wp_deleteEntry_true (hg : g.Valid) (hfuel : g.getTotalClusters ≤ fuel) {ldir : List Nat}
    (hd : DirOk g m.disk dir ldir) (hname : name.at 0 ≠ 0) (hdot : isDotName name = false)
    (hfound : lookup name m.disk (dirSlots g dir ldir) = some q)
    (hfile : (entryAt m.disk q).isDirectory = false) :
    (deleteEntry g fuel dir name true).wp Ctx.quiet (fun ok _ => ok = true) m := by
  unfold deleteEntry
  rw [if_neg hname, if_neg (by rw [hdot]; decide), Prog.wp_bind]
  refine Prog.wp_mono (wp_findEntryInternal hg hd hfuel name) ?_
  rintro r m1 ⟨_, _, hr⟩
  obtain rfl := hr.resolve_right (fun hno => Ctx.quiet_not_faulty hno.1.faulty)
  have hk : (locate m.disk q).entry.isDirectory = false := hfile
  simp only [hfound, Option.map_some, hk, Bool.false_eq_true, if_false, Bool.true_and]
  split
  · rename_i h2
    exact wp_freeAndMark_true (by simpa using h2) _ _
  · exact wp_markDeleted_true _ _

theorem deleteEntry_removes (hg : g.Valid) (hfuel : g.getTotalClusters ≤ fuel)
    (hw : WellFormed g m.disk) (hdir : IsDir g m.disk dir) {ldir ls : List Nat}
    (hl : Chained g m.disk dir ldir) (hname : name.at 0 ≠ 0) (hdot : isDotName name = false)
    (hfound : lookup name m.disk (dirSlots g dir ldir) = some q)
    (hfile : (entryAt m.disk q).isDirectory = false)
    (hls : Chained g m.disk (entryAt m.disk q).first ls) {ok : Bool}
    (hrun : (deleteEntry g fuel dir name true).run noFaults m = some (ok, m')) :
    ok = true ∧ Removed g m.disk m'.disk dir q ls := by
  have hd : DirOk g m.disk dir ldir := ⟨hl, hw.endMarked dir ldir hdir hl⟩
  have hwp := Prog.wp_and (wp_deleteEntry_true hg hfuel hd hname hdot hfound hfile)
    (wp_deleteEntry hg hd hfuel (fun _ => trivial) (fun _ hn hp => hw.found_chained hg hdir hl hn hp))
  obtain ⟨rfl, hend⟩ := (Prog.run_of_wp noFaults (fun _ hf => by cases hf) hwp).1 ok m' hrun
  cases hend with
  | @found _ _ p lo _ hp _ hlo hr =>
    obtain rfl := Option.some.inj (hfound.symm.trans hp)
    cases hr with
    | removed _ hx =>
      have hsame := hls.unique hg hlo
      subst hsame
      exact ⟨rfl, removed_of hg hw hdir hl hdot hfound hls (hx Ctx.quiet_not_faulty)⟩

/-! ## A file moves -/

/-- The file that `srcDir` holds under the name is in `dstDir` under that name. With `cut` the source
is gone; nothing else has changed. -/
structure Delivered (g : Globals) (fuel : Nat) (m m' : DriverMem) (srcDir : Nat) (name : CStr)
    (dstDir : Nat) (cut : Bool) (q p : Slot) (ls l : List Nat) (bytes : List Byte) : Prop where
  source : HoldsFile g fuel m srcDir name q ls bytes
  copy : HoldsFile g fuel m' dstDir name p l bytes
  vacant : Vacant g m.disk p
  steps : ∃ e, OthersKept g m.disk e dstDir p ∧
    if cut then Removed g e m'.disk srcDir q ls else m'.disk = e

def Single (name : CStr) (d : Disk) (ps : List Slot) : Prop :=
  ∀ p ∈ ps, ∀ q ∈ ps, (entryAt d p).hits name = true → (entryAt d q).hits name = true → p = q

theorem Removed.no_hit {dir : Nat} {ls : List Nat} (h : Removed g d d' dir q ls) :
    (entryAt d' q).hits name = false := by
  rw [h.marked]
  refine Bool.eq_false_iff.mpr (fun hhit => ?_)
  have hlive := DirectoryEntry.isLive_of_hits hhit
  rw [deletedEntry_isLive] at hlive
  cases hlive

theorem lookup_none_iff_single {ps : List Slot} (hq : q ∈ ps) (hhit : (entryAt d q).hits name = true)
    (hsame : ∀ s ∈ ps, s ≠ q → entryAt d' s = entryAt d s)
    (hgone : (entryAt d' q).hits name = false) : lookup name d' ps = none ↔ Single name d ps := by
  constructor
  · intro hnone
    have hmiss := List.find?_eq_none.mp hnone
    have hall : ∀ s ∈ ps, (entryAt d s).hits name = true → s = q := by
      intro s hs hshit
      by_contra hsq
      refine hmiss s hs ?_
      rw [hsame s hs hsq]
      exact hshit
    exact fun a ha b hb hahit hbhit => (hall a ha hahit).trans (hall b hb hbhit).symm
  · intro hsingle
    refine List.find?_eq_none.mpr (fun s hs hshit => ?_)
    by_cases hsq : s = q
    · rw [hsq, hgone] at hshit
      cases hshit
    · rw [hsame s hs hsq] at hshit
      exact hsq (hsingle s hs q hq hshit hhit)

theorem Duplicated.dirs_ne (hg : g.Valid) {srcDir dstDir : Nat} {lsrc ldst : List Nat}
    (hlsrc : Chained g d srcDir lsrc) (hldst : Chained g d dstDir ldst)
    (h : Duplicated g d srcDir lsrc name dstDir ldst name m') : srcDir ≠ dstDir := by
  rintro rfl
  obtain ⟨_, q, _, hfound, _, _, _, _, _, _, hmade⟩ := h
  have hsame := hlsrc.unique hg hldst
  subst hsame
  cases hfound.symm.trans hmade.new

theorem Vacant.no_directory {p : Slot} (h : Vacant g d p) :
    LiveSlot g d p → (entryAt d p).isDirectory = false := by
  rintro ⟨c, l, hc, hl, hp, hlive, _⟩
  have hfree := h c l hc hl hp
  simp [DirectoryEntry.isLive, hfree] at hlive

/-- Between the copy and the removal of the source: the file is in two directories. -/
structure Twice (g : Globals) (fuel : Nat) (m m₁ : DriverMem) (srcDir : Nat) (name : CStr)
    (dstDir : Nat) (q p : Slot) (ls l : List Nat) (bytes : List Byte) : Prop where
  ne : srcDir ≠ dstDir
  notDot : isDotName name = false
  evolved : Evolved g m.disk m₁.disk (fun _ => False)
  copy : CopyOf g fuel m m₁ srcDir name dstDir name q p ls l bytes

section Transfer

variable {srcDir dstDir : Nat} {lsrc ls : List Nat} {p : Slot} {bytes : List Byte} {m₁ : DriverMem}
  (hg : g.Valid) (hfuel : g.getTotalClusters ≤ fuel) (hw : WellFormed g m.disk)
  (hsrc : IsDir g m.disk srcDir) (hdst : IsDir g m.disk dstDir)

include hg hfuel hw hsrc hdst in
theorem copyFile_twice (hres : 0 < g.bpb.reservedSectors) (hd : Dotted g m.disk) (hup : name.Capital)
    (hrun : (copyFileBetweenDirs g fuel srcDir name dstDir name).run noFaults m = some (true, m₁)) :
    ∃ q p ls l bytes, Twice g fuel m m₁ srcDir name dstDir q p ls l bytes := by
  obtain ⟨lsrc, hlsrc⟩ := hw.dir_chained hsrc
  obtain ⟨ldst, hldst⟩ := hw.dir_chained hdst
  have hdup := copyFile_duplicated hg hfuel hw hsrc hdst hlsrc hldst hrun
  have hev := (Prog.run_of_wp noFaults (fun _ hf => by cases hf)
    (wp_copy_evolved hg hres hfuel Ctx.quiet_not_faulty (fun _ => trivial) hw hd hsrc hdst)).1 true m₁
      hrun
  have hne := hdup.dirs_ne hg hlsrc hldst
  obtain ⟨hs83, _, _, hfound, _⟩ := hdup
  obtain ⟨src83, hs83⟩ := Option.isSome_iff_exists.mp hs83
  obtain ⟨q, p, ls, l, bytes, hcopy⟩ :=
    (copyFile_hasCopy_iff hg hfuel hw hsrc hdst hrun).mpr (recalled_of_found hup hfound)
  exact ⟨q, p, ls, l, bytes, hne, formatName_not_dot hs83, hev, hcopy⟩

variable (hlsrc : Chained g m.disk srcDir lsrc)
  (h : Twice g fuel m m₁ srcDir name dstDir q p ls l bytes)
include hg hfuel hsrc hdst hlsrc h

theorem Twice.slot_apart : p ∉ dirSlots g srcDir lsrc := by
  intro hp
  have hdirs := fun c hc => (h.evolved.dirs c hc).resolve_left not_false
  obtain ⟨ldst, hldst⟩ := h.evolved.wellFormed.dirOk (hdirs dstDir hdst)
  obtain ⟨_, hlook⟩ := h.copy.copy.lookup_eq hg hfuel hldst
  have hl := h.copy.others.chained hsrc h.ne h.copy.vacant.no_directory hlsrc
  have hi := h.evolved.wellFormed.inventory hg
  refine h.ne (hi.slot_unique (hdirs srcDir hsrc) (hdirs dstDir hdst) (p := p) ?_ ?_)
  · rw [chainOf_eq hg hl]
    exact hp
  · rw [chainOf_eq hg hldst.chained]
    exact lookup_mem hlook

include hw in
theorem Twice.source_kept : HoldsFile g fuel m₁ srcDir name q ls bytes ∧
    DirOk g m₁.disk srcDir lsrc ∧ ∀ s ∈ dirSlots g srcDir lsrc, entryAt m₁.disk s = entryAt m.disk s := by
  have hslot := h.slot_apart hg hfuel hsrc hdst hlsrc
  have hnew := h.copy.vacant.no_directory
  obtain ⟨hok, hsame⟩ := h.copy.others.dirOk hw hsrc h.ne hnew hlsrc hslot
  exact ⟨h.copy.source.kept hg hfuel hw hdst h.copy.others hnew hsrc h.ne hlsrc hslot h.notDot, hok,
    hsame⟩

include hw in
/-- The removal behind the copy finds the source, and leaves the copy alone. Then the name is found
in the source directory unless it was the only one there. -/
theorem Twice.cut {m₂ : DriverMem} (hm₂ : m₂.disk = m₁.disk) {ok : Bool}
    (hrun : (deleteEntry g fuel srcDir name true).run noFaults m₂ = some (ok, m'))
    (hev' : Evolved g m₁.disk m'.disk (fun _ => False)) :
    ok = true ∧ Delivered g fuel m m' srcDir name dstDir true q p ls l bytes ∧
      ((∃ m₃, (findEntry g fuel srcDir name).run noFaults m' = some (none, m₃)) ↔
        Single name m.disk (dirSlots g srcDir lsrc)) := by
  obtain ⟨hsource, hok, hsame⟩ := h.source_kept hg hfuel hw hsrc hdst hlsrc
  obtain ⟨hname, hlook⟩ := hsource.lookup_eq hg hfuel hok
  have hdirs := fun c hc => (h.evolved.dirs c hc).resolve_left not_false
  have hw₁ := h.evolved.wellFormed
  obtain ⟨hyes, hremoved⟩ := deleteEntry_removes hg hfuel (hm₂ ▸ hw₁) (hm₂ ▸ hdirs srcDir hsrc)
    (hm₂ ▸ hok.chained) hname h.notDot (hm₂ ▸ hlook) (hm₂ ▸ hsource.file) (hm₂ ▸ hsource.chain) hrun
  rw [hm₂] at hremoved
  have hq := lookup_mem hlook
  have hhit := lookup_hits hlook
  refine ⟨hyes, ⟨h.copy.source, ?_, h.copy.vacant, m₁.disk, h.copy.others, hremoved⟩, ?_⟩
  · obtain ⟨ldst, hldst⟩ := hw₁.dirOk (hdirs dstDir hdst)
    have hi := hw₁.inventory hg
    refine h.copy.copy.kept hg hfuel hw₁ (hdirs srcDir hsrc) hremoved.others (fun _ => hsource.file)
      (hdirs dstDir hdst) h.ne.symm hldst.chained (fun hqd => h.ne ?_) h.notDot
    refine hi.slot_unique (hdirs srcDir hsrc) (hdirs dstDir hdst) (p := q) ?_ ?_
    · rw [chainOf_eq hg hok.chained]
      exact hq
    · rw [chainOf_eq hg hldst.chained]
      exact hqd
  have hslots : ∀ s ∈ dirSlots g srcDir lsrc, s ≠ q → entryAt m'.disk s = entryAt m.disk s := by
    intro s hs hsq
    rw [hremoved.others.slots srcDir lsrc s (hdirs srcDir hsrc) hok.chained hs hsq, hsame s hs]
  have hchain := hremoved.chain lsrc hok.chained
  have hok' : DirOk g m'.disk srcDir lsrc := ⟨hchain, hev'.wellFormed.endMarked srcDir lsrc
    ((hev'.dirs srcDir (hdirs srcDir hsrc)).resolve_left not_false) hchain⟩
  obtain ⟨m₃, hrun₃, _⟩ := exists_run_findEntry hg hfuel hok' name
  unfold foundSlot at hrun₃
  rw [if_neg hname] at hrun₃
  rw [hsame q hq] at hhit
  rw [← lookup_none_iff_single hq hhit hslots hremoved.no_hit, ← Option.map_eq_none_iff]
  constructor
  · rintro ⟨m₄, hrun₄⟩
    exact (Prod.mk.inj (Option.some.inj (hrun₄.symm.trans hrun₃))).1.symm
  · intro hnone
    rw [hnone] at hrun₃
    exact ⟨m₃, hrun₃⟩

end Transfer

/-! ## The disk is what counts -/

theorem Delivered.of_disk_eq (hg : g.Valid) (hfuel : g.getTotalClusters ≤ fuel)
    (hw : WellFormed g m.disk) {m₀ : DriverMem} {srcDir dstDir : Nat} {cut : Bool} {p : Slot}
    {ls : List Nat} {bytes : List Byte} (hsrc : IsDir g m.disk srcDir) (hdisk : m₀.disk = m.disk)
    (h : Delivered g fuel m m' srcDir name dstDir cut q p ls l bytes) :
    Delivered g fuel m₀ m' srcDir name dstDir cut q p ls l bytes := by
  obtain ⟨lsrc, hlsrc⟩ := hw.dirOk hsrc
  have hsame : Scratch g m.disk m₀.disk := by
    rw [hdisk]
    exact .refl g m.disk
  refine ⟨h.source.scratch hg hfuel hlsrc hsame, h.copy, ?_, ?_⟩
  · rw [hdisk]
    exact h.vacant
  · rw [hdisk]
    exact h.steps

theorem findDirCluster_of_disk_eq (hg : g.Valid) (hfuel : g.getTotalClusters ≤ fuel)
    (hw : WellFormed g m.disk) {m₀ : DriverMem} (hdir : IsDir g m.disk dir) (hdisk : m₀.disk = m.disk)
    {r : Option Nat} (hrun : (findDirCluster g fuel dir name).run noFaults m = some (r, m')) :
    ∃ m₁, (findDirCluster g fuel dir name).run noFaults m₀ = some (r, m₁) := by
  obtain ⟨ldir, hd⟩ := hw.dirOk hdir
  obtain ⟨m₂, hrun₂⟩ := exists_run_findDirCluster hg hfuel hd name
  obtain ⟨m₁, hrun₁⟩ := exists_run_findDirCluster hg hfuel (hdisk ▸ hd) name
  obtain ⟨rfl, _⟩ := Prod.mk.inj (Option.some.inj (hrun.symm.trans hrun₂))
  rw [hdisk] at hrun₁
  exact ⟨m₁, hrun₁⟩

end Fat16
end MiniDos
