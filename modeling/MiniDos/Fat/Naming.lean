import MiniDos.Fat.Crash

/-!
# MiniDos.Fat.Naming

No two live entries of a directory have the same 11 bytes of name.

Every call that makes an entry or names one anew first looks whether the name is taken, and looks
in its own way. `fat16_find_entry_internal` passes over volume labels and long names, and
`fat16_mkdir` counts only directories: a file of that name does not stop it.

* `DistinctNames`: the invariant.
* `Naming.Clear`: the name is free of entries that the check of the call does not see.
* `naming_distinct`: runs of clear calls keep the invariant.
-/

namespace MiniDos
namespace Fat16

open BlockIO Chain

variable {ctx : Ctx Buffer Sector} {g : Globals} {m : DriverMem} {d d' e : Disk} {dir fuel : Nat}
  {ldir : List Nat} {name : CStr}

variable {p : Slot} {name83 : Name} {D' : Nat → Prop} {ch' : Nat → List Nat}

def DistinctNames (g : Globals) (d : Disk) : Prop :=
  ∀ c l p q, IsDir g d c → Chained g d c l → p ∈ dirSlots g c l → q ∈ dirSlots g c l →
    (entryAt d p).isLive = true → (entryAt d q).isLive = true →
    (entryAt d p).name = (entryAt d q).name → p = q

/-- The name `n` is that of no live entry in the slots other than `p`. -/
def Unnamed (d : Disk) (ps : List Slot) (p : Slot) (n : Name) : Prop :=
  ∀ q ∈ ps, q ≠ p → (entryAt d q).isLive = true → (entryAt d q).name ≠ n

/-! ## One slot changes -/

section Step

variable (hg : g.Valid) (hw : WellFormed g d) (hn : DistinctNames g d)
include hg hw hn

/-- The entry that is new in slot `p`, if it is live, has a name of its own in its directory. -/
theorem Kept.distinctNames (dir : Nat) {new : Nat → Prop}
    (hk : Kept g (IsDir g d) (chainOf g d) d' D' ch' p new)
    (hsame : ∀ c, IsDir g d c → ∀ q ∈ dirSlots g c (chainOf g d c), q ≠ p →
      entryAt d' q = entryAt d q)
    (hp : (entryAt d' p).isLive = true → D' dir ∧ p ∈ dirSlots g dir (ch' dir) ∧
      Unnamed d (dirSlots g dir (chainOf g d dir)) p (entryAt d' p).name)
    (hnew : ∀ c, new c → ∀ q r, q ∈ dirSlots g c (ch' c) → r ∈ dirSlots g c (ch' c) →
      (entryAt d' q).isLive = true → (entryAt d' r).isLive = true →
      (entryAt d' q).name = (entryAt d' r).name → q = r) : DistinctNames g d' := by
  intro c l q r hc hl hq hr hql hrl hqr
  have hD := hk.inv.isDir hg hc
  have hll := hl.unique hg (hk.inv.dir c hD).chained
  subst hll
  rcases hk.dirs c hD with hcd | hcn
  case inr => exact hnew c hcn q r hq hr hql hrl hqr
  -- a live slot of an old directory is `p` or was there before
  have hold : ∀ s ∈ dirSlots g c (ch' c), (entryAt d' s).isLive = true →
      s = p ∨ s ∈ dirSlots g c (chainOf g d c) := by
    intro s hs hsl
    rcases hk.slot_cases hcd hs with h | h | h
    · exact .inl h
    · exact .inr h
    · rw [(DirectoryEntry.isLive_iff.mp hsl).1] at h
      cases h
  -- the other live entries of the directory of `p` have other names
  have hother : ∀ s ∈ dirSlots g c (chainOf g d c), s ≠ p → (entryAt d' s).isLive = true →
      p ∈ dirSlots g c (ch' c) → (entryAt d' p).isLive = true →
      (entryAt d' s).name ≠ (entryAt d' p).name := by
    intro s hs hsp hsl hpc hpl
    obtain ⟨hdD, hpd, hun⟩ := hp hpl
    have hcdir := hk.inv.slot_unique hD hdD hpc hpd
    subst hcdir
    rw [hsame c hcd s hs hsp] at hsl ⊢
    exact hun s hs hsp hsl
  by_cases hqp : q = p
  · by_cases hrp : r = p
    · rw [hqp, hrp]
    · subst hqp
      have hro := (hold r hr hrl).resolve_left hrp
      exact absurd hqr.symm (hother r hro hrp hrl hq hql)
  · have hqo := (hold q hq hql).resolve_left hqp
    by_cases hrp : r = p
    · subst hrp
      exact absurd hqr (hother q hqo hqp hql hr hrl)
    · have hro := (hold r hr hrl).resolve_left hrp
      obtain ⟨l, hl⟩ := hw.dir_chained hcd
      rw [hsame c hcd q hqo hqp, hsame c hcd r hro hrp] at hqr
      rw [hsame c hcd q hqo hqp] at hql
      rw [hsame c hcd r hro hrp] at hrl
      rw [chainOf_eq hg hl] at hqo hro
      exact hn c l q r hcd hl hqo hro hql hrl hqr

theorem Scratch.distinctNames (hs : Scratch g d e) : DistinctNames g e := by
  have hi := (hw.inventory hg).scratch hg hs
  have hent : ∀ c, IsDir g d c → ∀ q ∈ dirSlots g c (chainOf g d c), entryAt e q = entryAt d q :=
    fun c hc q hq => hs.entryAt_eq ((hw.inventory hg).dir c hc).chained hq
  intro c l p q hc hl hp hq hpl hql hpq
  have hD := hi.1.isDir hg hc
  have hll := hl.unique hg (hi.1.dir c hD).chained
  subst hll
  obtain ⟨l, hl⟩ := hw.dir_chained hD
  rw [hent c hD p hp] at hpl hpq
  rw [hent c hD q hq] at hql hpq
  rw [chainOf_eq hg hl] at hp hq
  exact hn c l p q hD hl hp hq hpl hql hpq

theorem Entered.distinctNames {l : List Nat}
    {x : DirectoryEntry} (hdir : IsDir g d dir) (hs : Scratch g d e)
    (h : Entered ctx g e (IsDir g d) (chainOf g d) dir x l d' D' ch' p)
    (hun : ∀ q ∈ dirSlots g dir (chainOf g d dir), (entryAt d q).isLive = true →
      (entryAt d q).name ≠ x.name)
    (hnew : x.isDirectory = true → ∀ q r, q ∈ dirSlots g x.first l → r ∈ dirSlots g x.first l →
      (entryAt d' q).isLive = true → (entryAt d' r).isLive = true →
      (entryAt d' q).name = (entryAt d' r).name → q = r) : DistinctNames g d' := by
  have hi := hw.inventory hg
  refine h.kept.distinctNames hg hw hn dir (fun c hc q hq hne => ?_) (fun _ => ?_) ?_
  · have hl := (hi.dir c hc).chained
    rw [h.edit.entry_eq (hs.chained hg hl) hq hne, hs.entryAt_eq hl hq]
  · refine ⟨h.keep dir hdir, h.slot, fun q hq _ hql => ?_⟩
    rw [h.edit.entry_self]
    exact hun q hq hql
  · rintro c ⟨hd, rfl⟩ q r hq hr
    rw [h.chain] at hq hr
    exact hnew hd q r hq hr

end Step

/-! ## The checks -/

/-- No volume label or long name in the directory has the formatted name. -/
def Unlabelled (g : Globals) (d : Disk) (dir : Nat) (name : CStr) : Prop :=
  ∀ l q name83, Chained g d dir l → q ∈ dirSlots g dir l → formatName name = some name83 →
    (entryAt d q).name = name83 → (entryAt d q).isVolumeId = false

theorem unnamed_of_lookup (hl : Chained g d dir ldir) (hup : name.Upper)
    (hlab : Unlabelled g d dir name) (hformat : formatName name = some name83)
    (hnone : lookup name d (dirSlots g dir ldir) = none) :
    ∀ q ∈ dirSlots g dir ldir, (entryAt d q).name ≠ name83 := by
  intro q hq hname
  have hhit := hits_of_formatName hup hformat hname (hlab ldir q name83 hl hq hformat hname)
  have := List.find?_eq_none.mp hnone q hq
  exact this hhit

theorem unnamed_of_lookup' (hg : g.Valid) (hl : Chained g d dir ldir)
    (hup : name.Upper) (hlab : Unlabelled g d dir name) (hformat : formatName name = some name83)
    (hnone : lookup name d (dirSlots g dir ldir) = none) :
    ∀ q ∈ dirSlots g dir (chainOf g d dir), (entryAt d q).isLive = true →
      (entryAt d q).name ≠ name83 := by
  intro q hq _
  rw [chainOf_eq hg hl] at hq
  exact unnamed_of_lookup hl hup hlab hformat hnone q hq

section Ends

variable (hg : g.Valid) (hw : WellFormed g d) (hn : DistinctNames g d) (hnf : ¬ ctx.Faulty)
  (hdir : IsDir g d dir) (hl : Chained g d dir ldir) (hup : name.Upper)
  (hlab : Unlabelled g d dir name)
include hg hw hn hnf hdir hl

omit hw hnf in
theorem unnamed_of_same (hp : p ∈ dirSlots g dir ldir)
    (hlive : (entryAt d p).isLive = true) :
    Unnamed d (dirSlots g dir (chainOf g d dir)) p (entryAt d p).name := by
  intro q hq hqp hql hname
  rw [chainOf_eq hg hl] at hq
  exact hqp (hn dir ldir q p hdir hl hq hp hql hlive hname)

include hup hlab in
theorem WriteEnd.distinctNames {data : Nat → Byte} {size : Nat} {ok : Bool}
    (h : WriteEnd ctx g d dir ldir name data size ok m) : DistinctNames g m.disk := by
  cases h with
  | aborted hs _ => exact hs.distinctNames hg hw hn
  | created hready hformat hnew hadd =>
    obtain ⟨⟨last, hchain⟩, _⟩ := hready
    obtain ⟨_, _, _, hent⟩ := hadd.entered_file hg hw hdir hl hchain hformat archive_not_directory
    refine hent.distinctNames hg hw hn hdir hchain.scratch
      (unnamed_of_lookup' hg hl hup hlab hformat (hnew.resolve_right hnf)) (fun hd => ?_)
    rw [archive_not_directory] at hd
    cases hd
  | @overwritten _ _ l lo first e name83 p hready hformat hfound _ hsame hold ht _ =>
    obtain ⟨⟨last, hchain⟩, _⟩ := hready
    obtain ⟨_, _, hk, hch, hD, _⟩ := replaced_of_write hg hw hdir hl hchain hformat hfound hold ht
    have hp := lookup_mem hfound
    have hnotFat := lookup_not_fat hfound
    have hp16 : p.2 < 16 := (mem_slotsOf.mp hp).2
    have hself : entryAt m.disk p = overwrittenEntry (entryAt d p) name83 first size := by
      rw [entryAt_congr (ht.sec p.1 hnotFat not_false), entryAt_putSlot hp16]
    have hname : (entryAt m.disk p).name = (entryAt d p).name := by
      rw [hself]
      exact funext (fun i => ((hsame.resolve_right hnf) i).symm)
    refine hk.distinctNames hg hw hn dir (fun c hc q hq hne => ?_) (fun _ => ?_)
      (fun _ hc => hc.elim)
    · have hlc := ((hw.inventory hg).dir c hc).chained
      obtain ⟨hq1, hq2⟩ := mem_slotsOf.mp hq
      rw [entryAt_congr (ht.sec q.1 (dirSector_not_fat hq1) not_false), entryAt_putSlot_ne hq2 hne,
        hchain.scratch.entryAt_eq hlc hq]
    · refine ⟨hD, ?_, ?_⟩
      · rw [hch dir hdir, chainOf_eq hg hl]
        exact hp
      · rw [hname]
        exact unnamed_of_same hg hn hdir hl hp
          (DirectoryEntry.isLive_of_hits (lookup_hits hfound))

omit hdir hl in
theorem CopyEnd.distinctNames {srcDir dstDir : Nat} {lsrc ldst : List Nat} {srcName dstName : CStr}
    (hdst : IsDir g d dstDir) (hl : Chained g d dstDir ldst) (hup : dstName.Upper)
    (hlab : Unlabelled g d dstDir dstName) {ok : Bool}
    (h : CopyEnd ctx g d srcDir lsrc srcName dstDir ldst dstName ok m) : DistinctNames g m.disk := by
  cases h with
  | aborted hs _ => exact hs.distinctNames hg hw hn
  | @copied _ p _ _ _ _ _ hfound hfile hchain hformat hnew hadd =>
    obtain ⟨_, _, _, hent⟩ := hadd.entered_file hg hw hdst hl hchain hformat hfile
    refine hent.distinctNames hg hw hn hdst hchain.scratch
      (unnamed_of_lookup' hg hl hup hlab hformat (hnew.resolve_right hnf)) (fun hd => ?_)
    have hdir : (entryAt d p).isDirectory = true := hd
    rw [hfile] at hdir
    cases hdir

theorem RemoveEnd.distinctNames {kind ok : Bool}
    (h : RemoveEnd ctx g d (dirSlots g dir ldir) name kind ok m) : DistinctNames g m.disk := by
  cases h with
  | refused hd => rw [hd]; exact hn
  | @found _ _ p lo hname hfound _ hlo hr =>
    cases hr with
    | stuck _ hf => exact absurd hf.faulty hnf
    | removed ht _ =>
      have hk := kept_of_removed hg hw hdir hl hname hfound hlo ht
      have hp16 : p.2 < 16 := (mem_slotsOf.mp (lookup_mem hfound)).2
      refine hk.distinctNames hg hw hn dir (fun c _ q hq hne => ?_) (fun hlive => ?_)
        (fun _ hc => hc.elim)
      · obtain ⟨hq1, hq2⟩ := mem_slotsOf.mp hq
        rw [entryAt_congr (ht.sec q.1 (dirSector_not_fat hq1) not_false), entryAt_putSlot_ne hq2 hne]
      · rw [entryAt_congr (ht.sec p.1 (lookup_not_fat hfound) not_false), entryAt_putSlot hp16,
          deletedEntry_isLive] at hlive
        cases hlive

omit hw hn hnf in
include hup in
theorem NewDir.slot_ne {n : Nat}
    (hnew : NewDir g d n dir e) (hformat : formatName name = some name83)
    (hd : (newEntry name83 n 0 attrDirectory).isDirectory = true)
    (hent : Entered ctx g e (IsDir g d) (chainOf g d) dir (newEntry name83 n 0 attrDirectory)
      [n] d' D' ch' p) : ∀ s ∈ dirSlots g n [n], s ≠ p := by
  have hfirst := newEntry_first name83 (hnew.chain.first_lt hg) 0 attrDirectory
  have hhit : (newEntry name83 n 0 attrDirectory).hits name = true :=
    hits_of_formatName hup hformat rfl (show (attrDirectory &&& attrVolumeId != 0) = false by decide)
  have hdot : (newEntry name83 n 0 attrDirectory).isDot = false := by
    unfold DirectoryEntry.hits at hhit
    rw [Bool.and_eq_true] at hhit
    exact not_dot_of_matchName (formatName_not_dot hformat) hhit.2
  have hheld : Held g d' D' ch' p := by
    refine ⟨dir, hent.keep dir hdir, hent.slot, ?_, ?_⟩
    · rw [hent.edit.entry_self]; exact DirectoryEntry.isLive_of_hits hhit
    · rw [hent.edit.entry_self]; exact hdot
  have hsub := hent.kept.inv.closed p hheld (by rw [hent.edit.entry_self]; exact hd)
  rw [hent.edit.entry_self, hfirst] at hsub
  rintro s hs rfl
  have hchn := hent.chain
  rw [hfirst] at hchn
  have hdn := hent.kept.inv.slot_unique (hent.keep dir hdir) hsub hent.slot (by rw [hchn]; exact hs)
  subst hdn
  -- the parent would be a cluster that was free
  obtain ⟨hdata, hfree⟩ := hnew.chain.free dir (List.mem_singleton.mpr rfl)
  have h2 := (isDataCluster_iff.mp hdata).1
  exact hl.ne_zero dir (hl.head_mem (by omega)) hfree

omit hg hw hn hnf hdir hl in
theorem NewDir.name_cases {n parent : Nat} (h : NewDir g d n parent e) :
    ∀ q r, q ∈ dirSlots g n [n] → r ∈ dirSlots g n [n] → (entryAt e q).isLive = true →
      (entryAt e r).isLive = true → (entryAt e q).name = (entryAt e r).name → q = r := by
  have hslots := h.dirSlots_eq
  have hcases : ∀ q ∈ dirSlots g n [n], (entryAt e q).isLive = true →
      (q = headSlot g n ∧ (entryAt e q).name = dotName) ∨
      (q = (g.clusterSector n, 1) ∧ (entryAt e q).name = dotDotName) := by
    intro q hq hlive
    by_cases h0 : q = headSlot g n
    · exact .inl ⟨h0, by rw [h0, h.dot]; rfl⟩
    by_cases h1 : q = (g.clusterSector n, 1)
    · exact .inr ⟨h1, by rw [h1, h.dotDot]; rfl⟩
    · have hend := h.unused q (hslots ▸ hq) h0 h1
      rw [(DirectoryEntry.isLive_iff.mp hlive).1] at hend
      cases hend
  have hdiff : dotName ≠ dotDotName := fun h => absurd (congrFun h 1) (by decide)
  intro q r hq hr hql hrl hqr
  rcases hcases q hq hql with ⟨hq1, hq2⟩ | ⟨hq1, hq2⟩
  · rcases hcases r hr hrl with ⟨hr1, _⟩ | ⟨_, hr2⟩
    · rw [hq1, hr1]
    · rw [hq2, hr2] at hqr
      exact absurd hqr hdiff
  · rcases hcases r hr hrl with ⟨_, hr2⟩ | ⟨hr1, _⟩
    · rw [hq2, hr2] at hqr
      exact absurd hqr.symm hdiff
    · rw [hq1, hr1]

include hup hlab in
theorem MkdirEnd.distinctNames {ok : Bool}
    (hcheck : ∀ p, lookup name d (dirSlots g dir ldir) = some p → (entryAt d p).isDirectory = true)
    (h : MkdirEnd ctx g d dir ldir name ok m) : DistinctNames g m.disk := by
  cases h with
  | refused hs => exact hs.distinctNames hg hw hn
  | @made _ n e name83 hformat hnew hnewDir hadd =>
    obtain ⟨_, _, p, hent⟩ := hnewDir.entered hg hw hdir hl hformat hadd
    have hnone : lookup name d (dirSlots g dir ldir) = none := by
      cases hlook : lookup name d (dirSlots g dir ldir) with
      | none => rfl
      | some p =>
        have := (hnew.resolve_right hnf) p hlook
        rw [hcheck p hlook] at this
        cases this
    have hfirst := newEntry_first name83 (hnewDir.chain.first_lt hg) 0 attrDirectory
    refine hent.distinctNames hg hw hn hdir hnewDir.chain.scratch
      (unnamed_of_lookup' hg hl hup hlab hformat hnone) (fun hd q r hq hr hql hrl hqr => ?_)
    have hne := hnewDir.slot_ne hg hdir hl hup hformat hd hent
    have hdots := hnewDir.name_cases
    rw [hfirst] at hq hr
    have hsame : ∀ s ∈ dirSlots g n [n], entryAt m.disk s = entryAt e s := fun s hs =>
      hent.edit.entry_eq hnewDir.chain.chained hs (hne s hs)
    rw [hsame q hq] at hql hqr
    rw [hsame r hr] at hrl hqr
    exact hdots q r hq hr hql hrl hqr

theorem Updated.distinctNames {oldName newName : CStr}
    (hup : newName.Upper) (hlab : Unlabelled g d dir newName) (hdot : (entryAt d p).isDot = false)
    (h : Updated ctx d (dirSlots g dir ldir) oldName newName (entryAt d p).clusterLow.toNat
      (entryAt d p).fileSize.toNat (entryAt d p).attributes p name83 m) : DistinctNames g m.disk := by
  have hi := hw.inventory hg
  have hp := lookup_mem h.found
  have hp16 : p.2 < 16 := (mem_slotsOf.mp hp).2
  have hlive := DirectoryEntry.isLive_of_hits (lookup_hits h.found)
  have hps : p ∈ dirSlots g dir (chainOf g d dir) := by rw [chainOf_eq hg hl]; exact hp
  have hinv : Inventory g m.disk (IsDir g d) (chainOf g d) := by
    rw [h.disk]
    exact hi.rename hg ⟨dir, hdir, hps, hlive, hdot⟩ (updatedEntry_isLive hup.ascii h.format _ _ _ _)
      (updatedEntry_first _ _ (entryAt d p).clusterLow.toNat_lt _ _) rfl
  have hk : Kept g (IsDir g d) (chainOf g d) m.disk (IsDir g d) (chainOf g d) p (fun _ => False) :=
    ⟨hinv, fun _ hc => .inl hc, fun _ _ _ hy => .inl hy⟩
  refine hk.distinctNames hg hw hn dir (fun c _ q hq hne => ?_) (fun _ => ⟨hdir, hps, ?_⟩)
    (fun _ hc => hc.elim)
  · rw [h.disk, entryAt_putSlot_ne (mem_slotsOf.mp hq).2 hne]
  · rw [h.disk, entryAt_putSlot hp16]
    rcases h.free with hsame | hnone | hf
    · have hname : name83 = (entryAt d p).name := funext (fun i => (hsame i).symm)
      show Unnamed d _ p name83
      rw [hname]
      exact unnamed_of_same hg hn hdir hl hp hlive
    · exact fun q hq _ hql => unnamed_of_lookup' hg hl hup hlab h.format hnone q hq hql
    · exact absurd hf hnf

end Ends

/-! ## `fat16_create_entry` by itself -/

/-- No live entry has a cluster of the chain of `c`. -/
def FreshChain (g : Globals) (d : Disk) (c : Nat) : Prop :=
  ∃ l, Chained g d c l ∧ ∀ p lp, LiveSlot g d p → Chained g d (entryAt d p).first lp →
    ∀ x ∈ l, x ∉ lp

theorem FreshChain.not_head (hg : g.Valid) (hw : WellFormed g d) {c : Nat} {l : List Nat}
    (hl : Chained g d c l) (h : FreshChain g d c) :
    ∀ f, Head g d (IsDir g d) (chainOf g d) f → ∀ y ∈ l, y ∉ chainOf g d f := by
  obtain ⟨l', hl', hfresh⟩ := h
  have := hl.unique hg hl'
  subst this
  rintro f ⟨h0, hf⟩ y hy
  have howner : ∃ p, LiveSlot g d p ∧ (entryAt d p).first = f := by
    rcases hf with hD | ⟨p, hp, rfl⟩
    · cases hD with
      | root => exact absurd rfl h0
      | sub hc hcl hp hlive hdot _ => exact ⟨_, ⟨_, _, hc, hcl, hp, hlive, hdot⟩, rfl⟩
    · exact ⟨p, hw.liveSlot_of_held hg hp, rfl⟩
  obtain ⟨p, hp, rfl⟩ := howner
  obtain ⟨lp, hlp⟩ := hw.chained p hp
  rw [chainOf_eq hg hlp]
  exact hfresh p lp hp hlp y hy

theorem entered_of_create (hg : g.Valid) (hw : WellFormed g d) (hdir : IsDir g d dir)
    (hl : Chained g d dir ldir) {cluster fileSize : Nat} {attributes : UInt8}
    (hformat : formatName name = some name83) (hfile : attributes &&& attrDirectory = 0)
    (hfresh : FreshChain g d cluster) (hlt : cluster < 65536)
    (hadd : Added ctx g d dir ldir (newEntry name83 cluster fileSize attributes) true m) :
    ∃ l D' ch' p, Entered ctx g d (IsDir g d) (chainOf g d) dir
      (newEntry name83 cluster fileSize attributes) l m.disk D' ch' p := by
  have hfirst := newEntry_first name83 hlt fileSize attributes
  obtain ⟨l, hlc, _⟩ := id hfresh
  refine ⟨l, (hw.inventory hg).added hg hdir (by rw [chainOf_eq hg hl]; exact hadd)
    (newEntry_isEnd hformat _ _ _) (by rw [hfirst]; exact hlc)
    (hfresh.not_head hg hw hlc) (fun hd => ?_)⟩
  have hbits : (attributes &&& attrDirectory != 0) = true := hd
  rw [hfile] at hbits
  cases hbits

/-! ## Runs -/

/-- A call of a run: one that changes the volume, or `fat16_create_entry` by itself. -/
inductive Naming where
  | call (op : Op)
  | createEntry (dir : Nat) (name : CStr) (firstCluster fileSize : Nat) (attributes : UInt8)

def Naming.prog (g : Globals) (fuel : Nat) : Naming → DiskProg Bool
  | .call op => op.prog g fuel
  | .createEntry dir name firstCluster fileSize attributes =>
    Fat16.createEntry g fuel dir name firstCluster fileSize attributes

/-- The call is one its callers make, with upper-case names, and no entry that its check of the
name passes over has the name: no label or long name, and for `fat16_mkdir` no file. -/
def Naming.Clear (g : Globals) (d : Disk) : Naming → Prop
  | .call (.writeFileFromDir dir name buffer size) =>
    (Op.writeFileFromDir dir name buffer size).Allowed g d ∧ name.Upper ∧ Unlabelled g d dir name
  | .call (.deleteEntry dir name) => (Op.deleteEntry dir name).Allowed g d
  | .call (.copyFileBetweenDirs srcDir srcName dstDir dstName) =>
    (Op.copyFileBetweenDirs srcDir srcName dstDir dstName).Allowed g d ∧ dstName.Upper ∧
      Unlabelled g d dstDir dstName
  | .call (.mkdir dir name) => (Op.mkdir dir name).Allowed g d ∧ name.Upper ∧
    Unlabelled g d dir name ∧ ∀ l p, Chained g d dir l →
      lookup name d (dirSlots g dir l) = some p → (entryAt d p).isDirectory = true
  | .call (.rmdir dir name) => (Op.rmdir dir name).Allowed g d
  | .call (.updateEntry dir oldName newName firstCluster fileSize attributes) =>
    (Op.updateEntry dir oldName newName firstCluster fileSize attributes).Allowed g d ∧
      newName.Upper ∧ Unlabelled g d dir newName
  | .createEntry dir name firstCluster _ attributes => IsDir g d dir ∧ name.Upper ∧
    Unlabelled g d dir name ∧ attributes &&& attrDirectory = 0 ∧ firstCluster < 65536 ∧
      FreshChain g d firstCluster

/-- The states reached from `m₀` by clear calls, no access failing. -/
inductive NamingRun (g : Globals) (fuel : Nat) (m₀ : DriverMem) : DriverMem → Prop where
  | start : NamingRun g fuel m₀ m₀
  | call {m m' : DriverMem} {op : Naming} {ok : Bool} (h : NamingRun g fuel m₀ m)
      (hop : op.Clear g m.disk) (hrun : (op.prog g fuel).run noFaults m = some (ok, m')) :
      NamingRun g fuel m₀ m'

theorem Naming.Clear.allowed {op : Op} (h : (Naming.call op).Clear g d) : op.Allowed g d := by
  cases op with
  | writeFileFromDir dir name buffer size => exact h.1
  | deleteEntry dir name => exact h
  | copyFileBetweenDirs srcDir srcName dstDir dstName => exact h.1
  | mkdir dir name => exact h.1
  | rmdir dir name => exact h
  | updateEntry dir oldName newName firstCluster fileSize attributes => exact h.1

/-- One clear call keeps names apart. -/
theorem Op.wp_distinctNames (op : Op) (hg : g.Valid) (hfuel : g.getTotalClusters ≤ fuel)
    (hnf : ¬ ctx.Faulty) (hinv : ∀ e, ctx.inv e) (hw : WellFormed g m.disk)
    (hn : DistinctNames g m.disk) (hop : (Naming.call op).Clear g m.disk) :
    (op.prog g fuel).wp ctx (fun _ m' => DistinctNames g m'.disk) m := by
  have hcare := careful_of_not_faulty (g := g) hnf m
  have hroom : ∀ dir, Roomy ctx g m dir := fun _ => .inl (fun m' hm' => absurd ⟨m', hm'⟩ hnf)
  cases op with
  | writeFileFromDir dir name buffer size =>
    obtain ⟨⟨hdir, _⟩, hup, hlab⟩ := hop
    obtain ⟨ldir, hd⟩ := hw.dirOk hdir
    refine Prog.wp_mono (hw.wp_write hg hfuel hnf hinv hdir hd name buffer size) ?_
    exact fun _ m' h => h.distinctNames hg hw hn hnf hdir hd.chained hup hlab
  | deleteEntry dir name =>
    obtain ⟨ldir, hd⟩ := hw.dirOk hop.1
    refine Prog.wp_mono (wp_deleteEntry hg hd hfuel hinv
      (fun p hn hp => hw.found_chained hg hop.1 hd.chained hn hp)) ?_
    exact fun _ m' h => h.distinctNames hg hw hn hnf hop.1 hd.chained
  | copyFileBetweenDirs srcDir srcName dstDir dstName =>
    obtain ⟨⟨hsrcDir, hdstDir, _⟩, hup, hlab⟩ := hop
    obtain ⟨lsrc, hsrc⟩ := hw.dirOk hsrcDir
    obtain ⟨ldst, hdst⟩ := hw.dirOk hdstDir
    refine Prog.wp_mono (wp_copyFileBetweenDirs hg hsrc hdst hfuel hcare (hroom _) hinv) ?_
    exact fun _ m' h => h.distinctNames hg hw hn hnf hdstDir hdst.chained hup hlab
  | mkdir dir name =>
    obtain ⟨⟨hdir, _⟩, hup, hlab, hcheck⟩ := hop
    obtain ⟨ldir, hd⟩ := hw.dirOk hdir
    refine Prog.wp_mono (wp_mkdir hg hd hfuel hinv (hroom _)) ?_
    exact fun _ m' h => h.distinctNames hg hw hn hnf hdir hd.chained hup hlab
      (fun p hp => hcheck ldir p hd.chained hp)
  | rmdir dir name =>
    obtain ⟨ldir, hd⟩ := hw.dirOk hop.1
    refine Prog.wp_mono (wp_rmdir hg hd hfuel hinv
      (fun p hn hp => hw.found_chained hg hop.1 hd.chained hn hp)) ?_
    exact fun _ m' h => h.distinctNames hg hw hn hnf hop.1 hd.chained
  | updateEntry dir oldName newName firstCluster fileSize attributes =>
    obtain ⟨⟨hdir, _, _, hren⟩, hup, hlab⟩ := hop
    obtain ⟨ldir, hd⟩ := hw.dirOk hdir
    refine Prog.wp_mono (wp_updateEntry hg hd hfuel (fun _ _ _ _ _ => hinv _)) ?_
    rintro ok m' (⟨rfl, hdisk⟩ | ⟨rfl, p, name83, hu⟩)
    · rw [hdisk]; exact hn
    · obtain ⟨hdot, rfl, rfl, rfl⟩ := hren ldir p hd.chained hu.found
      exact hu.distinctNames hg hw hn hnf hdir hd.chained hup hlab hdot

theorem Naming.wp_distinctNames (op : Naming) (hg : g.Valid) (hfuel : g.getTotalClusters ≤ fuel)
    (hnf : ¬ ctx.Faulty) (hinv : ∀ e, ctx.inv e) (hw : WellFormed g m.disk)
    (hn : DistinctNames g m.disk) (hop : op.Clear g m.disk) :
    (op.prog g fuel).wp ctx (fun _ m' => WellFormed g m'.disk ∧ DistinctNames g m'.disk) m := by
  cases op with
  | call op =>
    exact Prog.wp_and (op.wp_wellFormed hg hfuel hnf hinv hw hop.allowed)
      (op.wp_distinctNames hg hfuel hnf hinv hw hn hop)
  | createEntry dir name firstCluster fileSize attributes =>
    obtain ⟨hdir, hup, hlab, hfile, hlt, hfresh⟩ := hop
    obtain ⟨ldir, hd⟩ := hw.dirOk hdir
    refine Prog.wp_mono (wp_createEntry hg hinv hd hfuel) ?_
    rintro ok m' (⟨_, hdisk⟩ | ⟨name83, hformat, hnone, hadd⟩)
    · rw [hdisk]; exact ⟨hw, hn⟩
    · cases ok with
      | false =>
        cases hadd with
        | full hdisk => rw [hdisk]; exact ⟨hw, hn⟩
        | failed _ _ _ hf => exact absurd hf.faulty hnf
      | true =>
        obtain ⟨l, _, _, _, hent⟩ := entered_of_create hg hw hdir hd.chained hformat hfile hfresh hlt
          hadd
        refine ⟨hent.kept.inv.wellFormed hg, hent.distinctNames hg hw hn hdir (Scratch.refl g m.disk)
          (unnamed_of_lookup' hg hd.chained hup hlab hformat (hnone.resolve_right hnf))
          (fun hdd => ?_)⟩
        have hbits : (attributes &&& attrDirectory != 0) = true := hdd
        rw [hfile] at hbits
        cases hbits

/-- Clear calls never give a directory two live entries of the same name. -/
theorem naming_distinct (hg : g.Valid) (hfuel : g.getTotalClusters ≤ fuel) {m₀ : DriverMem}
    (hw : WellFormed g m₀.disk) (hn : DistinctNames g m₀.disk) (h : NamingRun g fuel m₀ m) :
    WellFormed g m.disk ∧ DistinctNames g m.disk := by
  induction h with
  | start => exact ⟨hw, hn⟩
  | @call m m' op ok _ hop hrun ih =>
    have hstep : (op.prog g fuel).wp (Ctx.total (fun _ => True))
        (fun _ m' => WellFormed g m'.disk ∧ DistinctNames g m'.disk) m :=
      op.wp_distinctNames hg hfuel (Ctx.total_not_faulty _) (fun _ => trivial) ih.1 ih.2 hop
    exact (Prog.run_of_wp noFaults (fun _ hf => by cases hf) hstep).1 ok m' hrun

theorem blankDisk_distinctNames (g : Globals) : DistinctNames g blankDisk := by
  intro _ _ p _ _ _ _ _ hlive
  have := (DirectoryEntry.isLive_iff.mp hlive).1
  rw [show (entryAt blankDisk p).isEnd = true from zero_entry_isEnd p.2] at this
  cases this

/-- `A` is written to a blank volume. -/
theorem naming_distinct_write : ∃ m', (writeFileFromDir smallVolume 3 0 [0x41]
      (some (fun _ => 1)) 1).run noFaults blankMem = some (true, m') ∧
    WellFormed smallVolume m'.disk ∧ DistinctNames smallVolume m'.disk := by
  have hok : ((writeFileFromDir smallVolume 3 0 [0x41] (some (fun _ => 1)) 1).run noFaults
      blankMem).map Prod.fst = some true := by decide +kernel
  obtain ⟨⟨ok, m'⟩, hrun, rfl⟩ := Option.map_eq_some_iff.mp hok
  have hclear : (Naming.call (.writeFileFromDir 0 [0x41] (some (fun _ => 1)) 1)).Clear smallVolume
      blankMem.disk :=
    ⟨⟨.root, by decide⟩, by decide, fun _ _ _ _ _ _ _ =>
      show ((0 : UInt8) &&& attrVolumeId != 0) = false by decide⟩
  have hstep : NamingRun smallVolume 3 blankMem m' := .call .start hclear hrun
  exact ⟨m', hrun, naming_distinct smallVolume_valid (by decide) (blankDisk_wellFormed smallVolume)
    (blankDisk_distinctNames smallVolume) hstep⟩

/-- `mkdir A` after that makes a second entry `A`. -/
theorem mkdir_duplicates_name : DistinctNames smallVolume blankDisk ∧
    ∃ m₁ m₂, (writeFileFromDir smallVolume 3 0 [0x41] (some (fun _ => 1)) 1).run noFaults blankMem =
      some (true, m₁) ∧ (mkdir smallVolume 3 0 [0x41]).run noFaults m₁ = some (true, m₂) ∧
      ¬ DistinctNames smallVolume m₂.disk := by
  have hres : ((writeFileFromDir smallVolume 3 0 [0x41] (some (fun _ => 1)) 1).run noFaults
      blankMem).bind (fun r₁ => ((mkdir smallVolume 3 0 [0x41]).run noFaults r₁.2).map (fun r₂ =>
        (r₁.1, r₂.1, (entryAt r₂.2.disk (3, 0)).isLive, (entryAt r₂.2.disk (3, 1)).isLive,
          decide (∀ i, (entryAt r₂.2.disk (3, 0)).name i = (entryAt r₂.2.disk (3, 1)).name i)))) =
      some (true, true, true, true, true) := by decide +kernel
  obtain ⟨⟨ok₁, m₁⟩, hrun₁, hres⟩ := Option.bind_eq_some_iff.mp hres
  obtain ⟨⟨ok₂, m₂⟩, hrun₂, hvals⟩ := Option.map_eq_some_iff.mp hres
  simp only [Prod.mk.injEq, decide_eq_true_eq] at hvals
  obtain ⟨rfl, rfl, hlive, hlive', hname⟩ := hvals
  refine ⟨blankDisk_distinctNames smallVolume, m₁, m₂, hrun₁, hrun₂, fun hd => ?_⟩
  have := hd 0 [] (3, 0) (3, 1) .root (.inl ⟨rfl, rfl⟩) (by decide) (by decide) hlive hlive'
    (funext hname)
  cases this

end Fat16
end MiniDos
