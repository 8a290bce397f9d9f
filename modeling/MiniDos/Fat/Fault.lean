import MiniDos.Fat.Crash

/-!
# MiniDos.Fat.Fault

Calls during which sector accesses fail.

A write, a copy and `fat16_mkdir` fill clusters that were free before they enter them in a
directory, so a fault costs at most clusters nobody refers to. `fat16_delete_entry` and
`fat16_rmdir` go the other way: they free the chain while the entry is still there. A directory
that has to grow is linked to its new cluster before that cluster is zeroed, and a FAT12 entry on a
sector boundary is written in two halves.

* `Intact`: what a fault must not destroy.
* `Op.Sheltered`: calls that do none of the three things above.
* `faulty_call_intact`: a sheltered call leaves an intact volume whatever fails, and every call
  does so when nothing fails any more after its first sector write.
-/

namespace MiniDos
namespace Fat16

open BlockIO Chain

variable {ctx : Ctx Buffer Sector} {g : Globals} {m : DriverMem} {d d' e : Disk} {dir fuel : Nat}
  {ldir : List Nat} {name : CStr}

/-! ## What has to survive -/

/-- `x` is met when the table is followed from `c` on. -/
inductive Passes (g : Globals) (d : Disk) (c : Nat) : Nat → Prop where
  | head (h : g.isDataCluster c = true) : Passes g d c c
  | next {x : Nat} (hx : Passes g d c x) (h : g.isDataCluster (fatGet g d x) = true) :
      Passes g d c (fatGet g d x)

/-- On `d'` the cluster `x` holds directory slots: it belonged to a directory of `d`, or every slot
is unused or was filled by the driver. -/
def Initialised (g : Globals) (d d' : Disk) (x : Nat) : Prop :=
  (∃ c l, IsDir g d c ∧ Chained g d c l ∧ x ∈ l) ∨
    ∀ q ∈ slotsOf (clusterSectors g x), (entryAt d' q).isEnd = true ∨
      ∃ name83 first size attributes, entryAt d' q = newEntry name83 first size attributes

/-- What a call that started on `d` must leave behind. -/
structure Intact (g : Globals) (d d' : Disk) : Prop where
  readable : ∀ c, IsDir g d' c → ∃ l, Chained g d' c l
  allocated : ∀ p x, LiveSlot g d' p → Passes g d' (entryAt d' p).first x → fatGet g d' x ≠ 0
  separate : ∀ p q x, LiveSlot g d' p → LiveSlot g d' q → Passes g d' (entryAt d' p).first x →
    Passes g d' (entryAt d' q).first x → p = q
  initialised : ∀ c x, IsDir g d' c → Passes g d' c x → Initialised g d d' x

theorem Passes.mem (hg : g.Valid) {c x : Nat} {l : List Nat} (hl : Chained g d c l)
    (h : Passes g d c x) : x ∈ l := by
  induction h with
  | head hc =>
    have h2 := (isDataCluster_iff.mp hc).1
    exact hl.head_mem (by omega)
  | @next x _ hn ih =>
    obtain ⟨pre, post, rfl⟩ := List.append_of_mem ih
    have hc0 : c ≠ 0 := by
      rintro rfl
      have := hl.nil_of_zero
      simp at this
    have hsuf := (hl.chainOf hc0).suffix
    cases post with
    | nil =>
      have hstop : g.isEndMark (fatGet g d x) := hsuf.2.2
      rw [endMark_not_data hg hstop] at hn
      cases hn
    | cons y post =>
      have hy : fatGet g d x = y := hsuf.2.2.1
      rw [hy]
      simp

theorem Inventory.intact (hg : g.Valid) {D : Nat → Prop} {ch : Nat → List Nat}
    (hi : Inventory g d' D ch) (hinit : ∀ c, D c → ∀ y ∈ ch c, Initialised g d d' y) :
    Intact g d d' := by
  have hw := hi.wellFormed hg
  refine ⟨fun c hc => hw.dir_chained hc, fun p x hp hx => ?_, fun p q x hp hq hxp hxq => ?_,
    fun c x hc hx => ?_⟩
  · obtain ⟨l, hl⟩ := hw.chained p hp
    exact hl.ne_zero x (hx.mem hg hl)
  · obtain ⟨lp, hlp⟩ := hw.chained p hp
    obtain ⟨lq, hlq⟩ := hw.chained q hq
    by_cases he : p = q
    · exact he
    · exact absurd (hxq.mem hg hlq) (hw.disjoint p q lp lq hp hq he hlp hlq x (hxp.mem hg hlp))
  · have hD := hi.isDir hg hc
    exact hinit c hD x (hx.mem hg (hi.dir c hD).chained)

theorem initialised_old (hg : g.Valid) (hw : WellFormed g d) {c y : Nat} (hc : IsDir g d c)
    (hy : y ∈ chainOf g d c) : Initialised g d d' y := by
  obtain ⟨l, hl⟩ := hw.dir_chained hc
  rw [chainOf_eq hg hl] at hy
  exact .inl ⟨c, l, hc, hl, hy⟩

/-! ## The ends of the calls -/

section Ends

variable (hg : g.Valid) (hw : WellFormed g d)
include hg hw

theorem Scratch.intact (hs : Scratch g d e) : Intact g d e :=
  ((hw.inventory hg).scratch hg hs).1.intact hg (fun _ hc _ hy => initialised_old hg hw hc hy)

theorem Kept.intact {D' : Nat → Prop} {ch' : Nat → List Nat} {p : Slot}
    (hk : Kept g (IsDir g d) (chainOf g d) d' D' ch' p (fun _ => False))
    (hold : ∀ c, IsDir g d c → ch' c = chainOf g d c) : Intact g d d' := by
  refine hk.inv.intact hg (fun c hc y hy => ?_)
  have hcd := (hk.dirs c hc).resolve_right not_false
  rw [hold c hcd] at hy
  exact initialised_old hg hw hcd hy

theorem Entered.intact {D' : Nat → Prop} {ch' : Nat → List Nat} {p : Slot} {l : List Nat}
    {name83 : Name} {first size : Nat} {attributes : UInt8}
    (h : Entered ctx g e (IsDir g d) (chainOf g d) dir (newEntry name83 first size attributes) l d'
      D' ch' p)
    (hnew : (newEntry name83 first size attributes).isDirectory = true →
      ∀ y ∈ l, Initialised g d d' y) : Intact g d d' := by
  refine h.kept.inv.intact hg (fun c hc y hy => ?_)
  rcases h.kept.dirs c hc with hcd | ⟨hdir, hc⟩
  · rcases h.kept.clusters c hcd y hy with hold | hslots
    · exact initialised_old hg hw hcd hold
    · refine .inr (fun q hq => (hslots q hq).symm.imp id ?_)
      rintro rfl
      exact ⟨name83, first, size, attributes, h.edit.entry_self⟩
  · rw [hc, h.chain] at hy
    exact hnew hdir y hy

theorem WriteEnd.intact (hdir : IsDir g d dir) (hl : Chained g d dir ldir)
    {data : Nat → Byte} {size : Nat} {ok : Bool}
    (h : WriteEnd ctx g d dir ldir name data size ok m) : Intact g d m.disk := by
  cases h with
  | aborted hs _ => exact hs.intact hg hw
  | created hready hformat _ hadd =>
    obtain ⟨⟨last, hchain⟩, _⟩ := hready
    obtain ⟨_, _, _, hent⟩ := hadd.entered_file hg hw hdir hl hchain hformat archive_not_directory
    refine hent.intact hg hw (fun hd => ?_)
    rw [archive_not_directory] at hd
    cases hd
  | overwritten hready hformat hfound _ _ hold ht _ =>
    obtain ⟨⟨last, hchain⟩, _⟩ := hready
    obtain ⟨_, _, hk, hsame, _⟩ := replaced_of_write hg hw hdir hl hchain hformat hfound hold ht
    exact hk.intact hg hw hsame

theorem CopyEnd.intact {srcDir dstDir : Nat} {lsrc ldst : List Nat} {srcName dstName : CStr}
    (hdst : IsDir g d dstDir) (hl : Chained g d dstDir ldst) {ok : Bool}
    (h : CopyEnd ctx g d srcDir lsrc srcName dstDir ldst dstName ok m) : Intact g d m.disk := by
  cases h with
  | aborted hs _ => exact hs.intact hg hw
  | @copied _ p _ _ _ _ _ hfound hfile hchain hformat _ hadd =>
    obtain ⟨_, _, _, hent⟩ := hadd.entered_file hg hw hdst hl hchain hformat hfile
    refine hent.intact hg hw (fun hd => ?_)
    have hdir : (entryAt d p).isDirectory = true := hd
    rw [hfile] at hdir
    cases hdir

theorem RemoveEnd.intact (hdir : IsDir g d dir) (hl : Chained g d dir ldir) {kind ok : Bool}
    (hstuck : ctx.Failed m → m.disk = d)
    (h : RemoveEnd ctx g d (dirSlots g dir ldir) name kind ok m) : Intact g d m.disk := by
  cases h with
  | refused hd => rw [hd]; exact (Scratch.refl g d).intact hg hw
  | found hname hfound _ hlo hr =>
    cases hr with
    | stuck _ hf => rw [hstuck hf]; exact (Scratch.refl g d).intact hg hw
    | removed ht _ =>
      exact (kept_of_removed hg hw hdir hl hname hfound hlo ht).intact hg hw (fun _ _ => rfl)

theorem MkdirEnd.intact (hdir : IsDir g d dir) (hl : Chained g d dir ldir) {ok : Bool}
    (h : MkdirEnd ctx g d dir ldir name ok m) : Intact g d m.disk := by
  cases h with
  | refused hs => exact hs.intact hg hw
  | @made _ n e name83 hformat _ hnew hadd =>
    obtain ⟨_, _, p, hent⟩ := hnew.entered hg hw hdir hl hformat hadd
    refine hent.intact hg hw (fun _ y hy => .inr (fun q hq => ?_))
    obtain rfl := List.mem_singleton.mp hy
    by_cases hqp : q = p
    · rw [hqp, hent.edit.entry_self]
      exact .inr ⟨_, _, _, _, rfl⟩
    have hslot : q ∈ dirSlots g y [y] := by
      have h2 := (isDataCluster_iff.mp (hnew.chain.free y (List.mem_singleton.mpr rfl)).1).1
      unfold dirSlots dirSectors
      rw [if_neg (show y ≠ 0 by omega)]
      simpa using hq
    rw [hent.edit.entry_eq hnew.chain.chained hslot hqp]
    by_cases h0 : q = headSlot g y
    · rw [h0, hnew.dot]
      exact .inr ⟨_, _, _, _, rfl⟩
    by_cases h1 : q = (g.clusterSector y, 1)
    · rw [h1, hnew.dotDot]
      exact .inr ⟨_, _, _, _, rfl⟩
    exact .inl (hnew.unused q hq h0 h1)

end Ends

/-! ## The calls -/

/-- A directory with a free slot in its first part: the root area or the first cluster. -/
def HeadRoom (g : Globals) (d : Disk) (dir : Nat) : Prop :=
  dir = 0 ∨ firstFree d (slotsOf (clusterSectors g dir)) ≠ none

/-- `fat16_is_directory_empty` meets an entry in the first cluster. -/
def Occupied (g : Globals) (d : Disk) (c : Nat) : Prop :=
  (clusterSectors g c).findSome? (fun lba => emptyResult lba (d lba)) = some false

/-- The call frees no chain of an entry that is there, need not grow a directory, and links no
cluster by an entry on a sector boundary. -/
def Op.Sheltered (g : Globals) (d : Disk) : Op → Prop
  | .writeFileFromDir dir _ _ _ => HeadRoom g d dir ∧ ∀ c, FreeCluster g d c → g.whole c
  | .deleteEntry dir name => name.at 0 ≠ 0 → isDotName name = false → ∀ l p, Chained g d dir l →
    lookup name d (dirSlots g dir l) = some p →
      (entryAt d p).isDirectory = true ∨ (entryAt d p).first = 0
  | .copyFileBetweenDirs _ _ dstDir _ => HeadRoom g d dstDir ∧ ∀ c, FreeCluster g d c → g.whole c
  | .mkdir dir _ => HeadRoom g d dir
  | .rmdir dir name => name.at 0 ≠ 0 → isDotName name = false → ∀ l p, Chained g d dir l →
    lookup name d (dirSlots g dir l) = some p → (entryAt d p).isDirectory = false ∨
      (entryAt d p).first = 0 ∨ Occupied g d (entryAt d p).first
  | .updateEntry _ _ _ _ _ _ => True

/-- The call is a write, a copy, a removal or a `mkdir` in directories of the volume. -/
def Op.Within (g : Globals) (d : Disk) : Op → Prop
  | .writeFileFromDir dir _ _ _ => IsDir g d dir
  | .deleteEntry dir _ => IsDir g d dir
  | .copyFileBetweenDirs srcDir _ dstDir _ => IsDir g d srcDir ∧ IsDir g d dstDir
  | .mkdir dir _ => IsDir g d dir
  | .rmdir dir _ => IsDir g d dir
  | .updateEntry _ _ _ _ _ _ => False

/-- Nothing fails once the disk has been written since `m`. -/
def Early (ctx : Ctx Buffer Sector) (m : DriverMem) : Prop :=
  ∀ m', ctx.mayFail m' → m'.stores = m.stores

theorem Early.disk_eq (h : Early ctx m) {m' : DriverMem} (hmv : m.Moved m') (hf : ctx.Failed m') :
    m'.disk = m.disk := by
  obtain ⟨m₁, hm₁, hst⟩ := hf
  exact hmv.2 (by rw [← hst, h m₁ hm₁])

theorem Removal.intact_of_nil (hg : g.Valid) (hw : WellFormed g d) {p : Slot} {ok : Bool}
    (hdir : IsDir g d dir) (hl : Chained g d dir ldir) (hname : isDotName name = false)
    (hfound : lookup name d (dirSlots g dir ldir) = some p)
    (hlo : Chained g d (entryAt d p).clusterLow.toNat []) (h : Removal ctx g d p [] ok m) :
    Intact g d m.disk := by
  cases h with
  | removed ht _ =>
    exact (kept_of_removed hg hw hdir hl hname hfound hlo ht).intact hg hw (fun _ _ => rfl)
  | stuck ht _ =>
    have hs : Scratch g d m.disk := ht.mono (fun _ hx => by cases hx) (fun _ hx => hx.elim)
    exact hs.intact hg hw

theorem wp_isDirectoryEmpty_occupied {c : Nat} (hc : g.isDataCluster c = true)
    (hocc : Occupied g m.disk c) (hfuel : 0 < fuel) :
    (isDirectoryEmpty g fuel c).wp ctx (fun empty m' => empty = false ∧ m'.disk = m.disk) m := by
  have h2 := (isDataCluster_iff.mp hc).1
  unfold isDirectoryEmpty
  rw [if_neg (by omega), Prog.wp_bind]
  cases fuel with
  | zero => omega
  | succ fuel =>
    unfold whileDataCluster
    simp only [hc, if_true, Prog.wp_bind]
    refine Prog.wp_mono (wp_clusterSectors emptyBody_reads c) ?_
    rintro r m' ⟨hd, _, hr⟩
    have hr' : r = some false := by
      rcases hr with hr | ⟨_, hr⟩
      · rw [hr]; exact hocc
      · exact hr
    subst hr'
    exact ⟨rfl, hd⟩

/-- A sheltered `fat16_rmdir` refuses. -/
theorem wp_rmdir_sheltered (hg : g.Valid) (hd : DirOk g m.disk dir ldir)
    (hfuel : g.getTotalClusters ≤ fuel)
    (hold : ∀ p, isDotName name = false → lookup name m.disk (dirSlots g dir ldir) = some p →
      ∃ lo, Chained g m.disk (entryAt m.disk p).clusterLow.toNat lo)
    (hshelter : (Op.rmdir dir name).Sheltered g m.disk) :
    (rmdir g fuel dir name).wp ctx (fun _ m' => m'.disk = m.disk) m := by
  refine wp_rmdirFound hg hd hfuel (fun _ hd1 => hd1) (fun hname0 hname p m1 hd1 hp hkind h2 => ?_)
  obtain ⟨lo, hlo⟩ := hold p hname hp
  have hdata := hlo.data_of_mem _ (hlo.head_mem (by omega))
  have hocc : Occupied g m1.disk (entryAt m.disk p).clusterLow.toNat := by
    rw [hd1]
    rcases hshelter hname0 hname ldir p hd.chained hp with hk | h0 | hocc
    · rw [hkind] at hk
      cases hk
    · rw [show (entryAt m.disk p).clusterLow.toNat = 0 from h0] at h2
      omega
    · exact hocc
  have hpos := (isDataCluster_iff.mp hdata)
  refine Prog.wp_mono (wp_isDirectoryEmpty_occupied hdata hocc (by omega)) ?_
  rintro empty m2 ⟨rfl, hd2⟩
  exact hd2.trans hd1

/-- One call in a context whose faults are early, or harmless to it. -/
theorem Op.wp_intact (op : Op) (hg : g.Valid) (hfuel : g.getTotalClusters ≤ fuel)
    (hinv : ∀ e, ctx.inv e) (hw : WellFormed g m.disk) (hop : op.Within g m.disk)
    (h : Early ctx m ∨ op.Sheltered g m.disk) :
    (op.prog g fuel).wp ctx (fun _ m' => Intact g m.disk m'.disk) m := by
  cases op with
  | writeFileFromDir dir name buffer size =>
    obtain ⟨ldir, hd⟩ := hw.dirOk hop
    refine Prog.wp_mono (wp_writeFileFromDir hg hd hfuel (h.imp id (·.2)) (h.imp id (·.1))
      (fun _ hn hp => hw.found_chained hg hop hd.chained hn hp) buffer size (fun e _ => hinv e)
      (fun _ => hinv) (fun _ _ _ _ _ _ e _ _ _ _ _ _ => hinv e)) ?_
    exact fun _ m' hend => hend.intact hg hw hop hd.chained
  | deleteEntry dir name =>
    obtain ⟨ldir, hd⟩ := hw.dirOk hop
    by_cases hname0 : name.at 0 = 0
    · simp only [Op.prog, Fat16.deleteEntry, hname0, if_true, Prog.wp_pure]
      exact (Scratch.refl g m.disk).intact hg hw
    refine Prog.wp_mono (Prog.wp_moved (wp_deleteEntry hg hd hfuel hinv
      (fun p hn hp => hw.found_chained hg hop hd.chained hn hp))) ?_
    rintro ok m' ⟨hend, hmv⟩
    rcases h with h | h
    · exact hend.intact hg hw hop hd.chained (fun hf => h.disk_eq hmv hf)
    · cases hend with
      | refused hdisk => rw [hdisk]; exact (Scratch.refl g m.disk).intact hg hw
      | @found _ _ p lo hname hfound hkind hlo hr =>
        rcases h hname0 hname ldir p hd.chained hfound with hk | h0
        · rw [hkind] at hk; cases hk
        · have hnil : lo = [] := by
            rw [show (entryAt m.disk p).clusterLow.toNat = 0 from h0] at hlo
            exact hlo.nil_of_zero
          subst hnil
          exact hr.intact_of_nil hg hw hop hd.chained hname hfound hlo
  | copyFileBetweenDirs srcDir srcName dstDir dstName =>
    obtain ⟨lsrc, hsrc⟩ := hw.dirOk hop.1
    obtain ⟨ldst, hdst⟩ := hw.dirOk hop.2
    refine Prog.wp_mono (wp_copyFileBetweenDirs hg hsrc hdst hfuel (h.imp id (·.2)) (h.imp id (·.1))
      hinv) ?_
    exact fun _ m' hend => hend.intact hg hw hop.2 hdst.chained
  | mkdir dir name =>
    obtain ⟨ldir, hd⟩ := hw.dirOk hop
    refine Prog.wp_mono (wp_mkdir hg hd hfuel hinv h) ?_
    exact fun _ m' hend => hend.intact hg hw hop hd.chained
  | rmdir dir name =>
    obtain ⟨ldir, hd⟩ := hw.dirOk hop
    have hold : ∀ p, isDotName name = false → lookup name m.disk (dirSlots g dir ldir) = some p →
        ∃ lo, Chained g m.disk (entryAt m.disk p).clusterLow.toNat lo :=
      fun p hn hp => hw.found_chained hg hop hd.chained hn hp
    rcases h with h | h
    · refine Prog.wp_mono (Prog.wp_moved (wp_rmdir hg hd hfuel hinv hold)) ?_
      rintro ok m' ⟨hend, hmv⟩
      exact hend.intact hg hw hop hd.chained (fun hf => h.disk_eq hmv hf)
    · refine Prog.wp_mono (wp_rmdir_sheltered hg hd hfuel hold h) ?_
      intro _ m' hdisk
      rw [hdisk]
      exact (Scratch.refl g m.disk).intact hg hw
  | updateEntry dir oldName newName firstCluster fileSize attributes => exact hop.elim

/-! ## An entry that outlives its chain -/

section Stranded

variable {p : Slot} {lo : List Nat}

/-- Freeing the chain `lo` of the entry in slot `p` leaves a way from the root to that entry: a
directory that is lost lay behind the entry, and the way there led past it. -/
theorem isDir_of_freed (hg : g.Valid) (hw : WellFormed g d) (hdir : IsDir g d dir)
    (hl : Chained g d dir ldir) (hp : p ∈ dirSlots g dir ldir) (hlive : (entryAt d p).isLive = true)
    (hdot : (entryAt d p).isDot = false) (hlo : Chained g d (entryAt d p).first lo)
    (h0 : (entryAt d p).first ≠ 0) (ht : Touches g (fun c => c ∈ lo) (fun _ => False) d d')
    (hz : ∀ x ∈ lo, fatGet g d' x = 0) : IsDir g d' dir := by
  have hi := hw.inventory hg
  have hentry : ∀ c l, ∀ q ∈ dirSlots g c l, entryAt d' q = entryAt d q := fun c l q hq =>
    entryAt_congr (ht.sec q.1 (dirSector_not_fat (mem_slotsOf.mp hq).1) not_false)
  have hheld : Held g d (IsDir g d) (chainOf g d) p :=
    ⟨dir, hdir, by rw [chainOf_eq hg hl]; exact hp, hlive, hdot⟩
  -- a chain of the new disk has no freed cluster, so it was there before
  have hback : ∀ c l, Chained g d' c l → Chained g d c l := fun c l h =>
    h.touches hg ht.symm (fun x hx hxlo => h.ne_zero x hx (hz x hxlo))
  have hisBack : ∀ c, IsDir g d' c → IsDir g d c := by
    intro c hc
    induction hc with
    | root => exact .root
    | @sub c l q _ hcl hq hql hqd hqdir ih =>
      rw [hentry c l q hq] at hql hqd hqdir ⊢
      exact .sub ih (hback c l hcl) hq hql hqd hqdir
  suffices hs : ∀ c, IsDir g d c → IsDir g d' c ∨ IsDir g d' dir from
    (hs dir hdir).elim id id
  intro c hc
  induction hc with
  | root => exact .inl .root
  | @sub c l q hc hcl hq hql hqd hqdir ih =>
    rcases ih with ih | ih
    · by_cases hcf : c = (entryAt d p).first
      · -- the directory is the one freed: it was reached through its entry, from `dir`
        right
        cases ih with
        | root => exact absurd hcf.symm h0
        | @sub c₁ l₁ r hc₁ hl₁ hr hrl hrd hrdir =>
          rw [hentry c₁ l₁ r hr] at hcf hrl hrd
          have hd₁ := hisBack c₁ hc₁
          have hr' : r ∈ dirSlots g c₁ (chainOf g d c₁) := by
            rw [chainOf_eq hg (hback c₁ l₁ hl₁)]; exact hr
          have hrp := hi.inj r p ⟨c₁, hd₁, hr', hrl, hrd⟩ hheld hcf (by rw [hcf]; exact h0)
          subst hrp
          have hsame := hi.slot_unique hd₁ hdir hr' (by rw [chainOf_eq hg hl]; exact hp)
          rw [← hsame]
          exact hc₁
      · left
        have hcl' : Chained g d' c l := by
          refine hcl.touches hg ht (fun x hx hxlo => ?_)
          by_cases hc0 : c = 0
          · rw [hc0] at hcl
            rw [hcl.nil_of_zero] at hx
            cases hx
          · refine hi.disj c _ (Inventory.head_of_dir hc hc0) ⟨h0, .inr ⟨p, hheld, rfl⟩⟩ hcf x ?_ ?_
            · rw [chainOf_eq hg hcl]; exact hx
            · rw [chainOf_eq hg hlo]; exact hxlo
        rw [← hentry c l q hq] at hql hqd hqdir ⊢
        exact .sub ih hcl' hq hql hqd hqdir
    · exact .inr ih

theorem not_intact_of_freed (hg : g.Valid) (hw : WellFormed g d) (hdir : IsDir g d dir)
    (hl : Chained g d dir ldir) (hname : isDotName name = false)
    (hfound : lookup name d (dirSlots g dir ldir) = some p)
    (hlo : Chained g d (entryAt d p).first lo) (h0 : (entryAt d p).first ≠ 0)
    (hd' : d' = freeAll g lo d) : ¬ Intact g d d' := by
  obtain ⟨_, _, _, hlive, hdot⟩ := held_of_lookup hg hdir hl hname hfound
  have hp := lookup_mem hfound
  have ht : Touches g (fun c => c ∈ lo) (fun _ => False) d d' := hd' ▸ freeAll_touches g lo d
  have hz : ∀ x ∈ lo, fatGet g d' x = 0 := by
    intro x hx
    have := freeAll_value hg hlo.data_of_mem d x hx 0 hg.fatCount
    rw [copyStart_zero] at this
    rw [hd']
    exact this
  have hsub := isDir_of_freed hg hw hdir hl hp hlive hdot hlo h0 ht hz
  have hentry : entryAt d' p = entryAt d p :=
    entryAt_congr (ht.sec p.1 (dirSector_not_fat (mem_slotsOf.mp hp).1) not_false)
  intro hint
  obtain ⟨l', hl'⟩ := hint.readable dir hsub
  have hll : l' = ldir :=
    (hl'.touches hg ht.symm (fun x hx hxlo => hl'.ne_zero x hx (hz x hxlo))).unique hg hl
  subst hll
  have hmem := hlo.head_mem h0
  refine hint.allocated p (entryAt d p).first ⟨dir, l', hsub, hl', hp, ?_, ?_⟩ ?_ (hz _ hmem)
  · rw [hentry]; exact hlive
  · rw [hentry]; exact hdot
  · rw [hentry]; exact .head (hlo.data_of_mem _ hmem)

theorem may_freeAndMark (hg : g.Valid) {c : Nat} (h2 : 2 ≤ c) (hlo : ChainFrom g m.disk c lo)
    (sector index : Nat) :
    (do
      let ok ← freeClusterChain g c
      if ok then markDeleted sector index else pure false : DiskProg Bool).may
      (fun _ m' => m'.disk = freeAll g lo m.disk) m := by
  have hfree : (freeClusterChain g c).wp (Ctx.total (fun _ => True))
      (Freed (Ctx.total (fun _ => True)) g lo m.disk) m :=
    wp_freeClusterChain hg h2 hlo (fun _ _ => trivial)
  rw [Prog.may_bind]
  refine Prog.may_mono (Prog.may_of_wp not_false hfree) ?_
  intro ok m1 hf
  obtain ⟨rfl, hd1⟩ := hf.exact (Ctx.total_not_faulty _)
  simp only [if_true]
  exact .inl hd1

theorem may_find (hg : g.Valid) (hd : DirOk g m.disk dir ldir) (hfuel : g.getTotalClusters ≤ fuel)
    (hfound : lookup name m.disk (dirSlots g dir ldir) = some p) :
    (findEntryInternal g fuel dir name).may
      (fun r m' => r = some (locate m.disk p) ∧ m'.disk = m.disk) m := by
  have hfind : (findEntryInternal g fuel dir name).wp (Ctx.total (fun _ => True)) _ m :=
    wp_findEntryInternal hg hd hfuel name
  refine Prog.may_mono (Prog.may_of_wp not_false hfind) ?_
  rintro r m' ⟨hd', _, hr⟩
  refine ⟨?_, hd'⟩
  rcases hr with hr | ⟨hf, _⟩
  · rw [hr, hfound]
    rfl
  · exact absurd hf.faulty (Ctx.total_not_faulty _)

/-- A directory passes as empty unless its first cluster shows an entry: the table read that would
lead to the next cluster may fail, and counts as the end of the chain. -/
theorem may_isDirectoryEmpty (hg : g.Valid) {c : Nat} (hc : g.isDataCluster c = true)
    (hocc : ¬ Occupied g m.disk c) (hfuel : 0 < fuel) :
    (isDirectoryEmpty g fuel c).may (fun empty m' => empty = true ∧ m'.disk = m.disk) m := by
  have h2 := (isDataCluster_iff.mp hc).1
  unfold isDirectoryEmpty
  rw [if_neg (by omega), Prog.may_bind]
  cases fuel with
  | zero => omega
  | succ fuel =>
    unfold whileDataCluster
    simp only [hc, if_true, Prog.may_bind]
    have hscan : (forSectors (g.clusterSector c) emptyBody g.bpb.sectorsPerCluster 0).wp
        (Ctx.total (fun _ => True)) _ m := wp_clusterSectors emptyBody_reads c
    refine Prog.may_mono (Prog.may_of_wp not_false hscan) ?_
    rintro r m1 ⟨hd1, _, hr⟩
    have hr' : r = (clusterSectors g c).findSome? (fun lba => emptyResult lba (m.disk lba)) := by
      rcases hr with hr | ⟨hf, _⟩
      · exact hr
      · exact absurd hf.faulty (Ctx.total_not_faulty _)
    cases r with
    | some empty =>
      cases empty with
      | true => exact ⟨rfl, hd1⟩
      | false => exact absurd hr'.symm hocc
    | none =>
      simp only [Prog.may_bind, getNextCluster]
      have hread : (readFatEntry g (c % 65536)).may
          (fun v m' => v = g.endOfChainValue ∧ m'.disk = m1.disk) m1 := by
        unfold readFatEntry
        cases g.fatType with
        | fat12 => exact .inl ⟨rfl, rfl⟩
        | fat16 => exact .inl ⟨rfl, rfl⟩
      refine Prog.may_mono hread ?_
      rintro v m2 ⟨rfl, hd2⟩
      rw [whileDataCluster_stop (endMark_not_data hg (endOfChain_isEndMark g))]
      exact ⟨rfl, hd2.trans hd1⟩

end Stranded

/-! ## All calls -/

/-- The calls that take an entry out of its directory. -/
def Op.removes : Op → Bool
  | .deleteEntry _ _ => true
  | .rmdir _ _ => true
  | _ => false

/-- An unsheltered removal may leave an entry without its chain. -/
theorem Op.may_break (op : Op) (hg : g.Valid) (hfuel : g.getTotalClusters ≤ fuel)
    (hw : WellFormed g m.disk) (hop : op.Within g m.disk) (hrem : op.removes = true)
    (h : ¬ op.Sheltered g m.disk) :
    (op.prog g fuel).may (fun _ m' => ¬ Intact g m.disk m'.disk) m := by
  cases op with
  | deleteEntry dir name =>
    simp only [Op.Sheltered, not_forall, not_or] at h
    obtain ⟨hname0, hname, ldir, p, hl, hfound, hkind, h0⟩ := h
    have hd : DirOk g m.disk dir ldir := ⟨hl, hw.endMarked dir ldir hop hl⟩
    obtain ⟨lo, hlo⟩ := hw.found_chained hg hop hl hname hfound
    have h2 : 2 ≤ (entryAt m.disk p).clusterLow.toNat := hlo.two_le h0
    simp only [Op.prog, Fat16.deleteEntry, hname0, hname, if_false, Bool.false_eq_true]
    rw [Prog.may_bind]
    refine Prog.may_mono (may_find hg hd hfuel hfound) ?_
    rintro r m1 ⟨rfl, hd1⟩
    have hkind' : ¬ (locate m.disk p).entry.isDirectory = true := hkind
    have h2' : 2 ≤ (locate m.disk p).entry.clusterLow.toNat := h2
    have hch : ChainFrom g m1.disk (locate m.disk p).entry.clusterLow.toNat lo := by
      rw [hd1]
      exact (hlo.chainOf h0).from hg
    simp only [hkind', h2', decide_true, Bool.and_true, if_true]
    refine Prog.may_mono (may_freeAndMark hg h2' hch _ _) ?_
    intro _ m2 hd2
    rw [hd1] at hd2
    exact not_intact_of_freed hg hw hop hl hname hfound hlo h0 hd2
  | rmdir dir name =>
    simp only [Op.Sheltered, not_forall, not_or] at h
    obtain ⟨hname0, hname, ldir, p, hl, hfound, hkind, h0, hocc⟩ := h
    have hd : DirOk g m.disk dir ldir := ⟨hl, hw.endMarked dir ldir hop hl⟩
    obtain ⟨lo, hlo⟩ := hw.found_chained hg hop hl hname hfound
    have h2 : 2 ≤ (entryAt m.disk p).clusterLow.toNat := hlo.two_le h0
    have hdata := hlo.data_of_mem _ (hlo.head_mem h0)
    simp only [Op.prog, Fat16.rmdir, hname0, hname, if_false, Bool.false_eq_true]
    rw [Prog.may_bind]
    refine Prog.may_mono (may_find hg hd hfuel hfound) ?_
    rintro r m1 ⟨rfl, hd1⟩
    have hkind' : (locate m.disk p).entry.isDirectory = true := by
      cases hk : (entryAt m.disk p).isDirectory with
      | false => exact absurd hk hkind
      | true => exact hk
    have h2' : ¬ (locate m.disk p).entry.clusterLow.toNat < 2 := Nat.not_lt.mpr h2
    simp only [hkind', h2', Bool.not_true, Bool.false_eq_true, if_false]
    have hpos := isDataCluster_iff.mp hdata
    have hempty : (isDirectoryEmpty g fuel (locate m.disk p).entry.clusterLow.toNat).may
        (fun empty m' => empty = true ∧ m'.disk = m1.disk) m1 :=
      may_isDirectoryEmpty hg hdata (by rw [hd1]; exact hocc) (by omega)
    rw [Prog.may_bind]
    refine Prog.may_mono hempty ?_
    rintro empty m2 ⟨rfl, hd2⟩
    have hch : ChainFrom g m2.disk (locate m.disk p).entry.clusterLow.toNat lo := by
      rw [hd2, hd1]
      exact (hlo.chainOf h0).from hg
    simp only [if_true]
    refine Prog.may_mono (may_freeAndMark hg (Nat.not_lt.mp h2') hch _ _) ?_
    intro _ m3 hd3
    rw [hd2, hd1] at hd3
    exact not_intact_of_freed hg hw hop hl hname hfound hlo h0 hd3
  | writeFileFromDir dir name buffer size => cases hrem
  | copyFileBetweenDirs srcDir srcName dstDir dstName => cases hrem
  | mkdir dir name => cases hrem
  | updateEntry dir oldName newName firstCluster fileSize attributes => cases hrem

/-- A call leaves an intact volume when it is sheltered, whatever fails, and when nothing fails
after its first sector write. No other removal is safe from every choice of faults. -/
theorem faulty_call_intact (op : Op) (hg : g.Valid) (hfuel : g.getTotalClusters ≤ fuel)
    (hw : WellFormed g m.disk) (hop : op.Within g m.disk) :
    (∀ fails, ((∀ s ∈ (op.prog g fuel).faults fails m, s = m.stores) ∨ op.Sheltered g m.disk) →
      ∃ ok m', (op.prog g fuel).run fails m = some (ok, m') ∧ Intact g m.disk m'.disk) ∧
    (op.removes = true → (∀ fails ok m', (op.prog g fuel).run fails m = some (ok, m') →
      Intact g m.disk m'.disk) → op.Sheltered g m.disk) := by
  refine ⟨fun fails h => ?_, fun hrem hall => ?_⟩
  · have hcome : ∀ ctx : Ctx Buffer Sector, ¬ ctx.mayDiverge → (∀ e, ctx.inv e) →
        (∀ s ∈ (op.prog g fuel).faults fails m, ∀ m' : DriverMem, m'.stores = s →
          fails m'.accesses = true → ctx.mayFail m') → (Early ctx m ∨ op.Sheltered g m.disk) →
        ∃ ok m', (op.prog g fuel).run fails m = some (ok, m') ∧ Intact g m.disk m'.disk := by
      intro ctx hterm hinv hf hsafe
      obtain ⟨hpost, hback⟩ := Prog.run_of_wp_faults fails hf
        (op.wp_intact hg hfuel hinv hw hop hsafe)
      obtain ⟨ok, m', hrun⟩ := hback hterm
      exact ⟨ok, m', hrun, hpost ok m' hrun⟩
    rcases h with h | h
    · exact hcome ⟨fun m' => m'.stores = m.stores, False, fun _ => True⟩ not_false
        (fun _ => trivial) (fun s hs m' hm' _ => hm'.trans (h s hs)) (.inl (fun _ hm' => hm'))
    · exact hcome ⟨fun _ => True, False, fun _ => True⟩ not_false (fun _ => trivial)
        (fun _ _ _ _ _ => trivial) (.inr h)
  · by_contra hns
    obtain ⟨fails, ok, m', hrun, hbad⟩ := Prog.run_of_may (op.may_break hg hfuel hw hop hrem hns)
    exact hbad (hall fails ok m' hrun)

/-- The write that would mark `A` deleted fails: the entry is left with a free cluster. -/
theorem delete_strands_entry : WellFormed smallVolume fileMem.disk ∧
    ∃ m', (deleteEntry smallVolume 3 0 [0x41] true).run (fun n => n == fileMem.accesses + 7)
      fileMem = some (false, m') ∧ ¬ Intact smallVolume fileMem.disk m'.disk := by
  have hres : ((deleteEntry smallVolume 3 0 [0x41] true).run (fun n => n == fileMem.accesses + 7)
      fileMem).map (fun r => (r.1, (entryAt r.2.disk (3, 0)).isLive, (entryAt r.2.disk (3, 0)).isDot,
        (entryAt r.2.disk (3, 0)).first, fatGet smallVolume r.2.disk 2)) =
      some (false, true, false, 2, 0) := by decide +kernel
  obtain ⟨⟨ok, m'⟩, hrun, hvals⟩ := Option.map_eq_some_iff.mp hres
  simp only [Prod.mk.injEq] at hvals
  obtain ⟨rfl, hlive, hdot, hfirst, hfree⟩ := hvals
  refine ⟨fileMem_wellFormed, m', hrun, fun hint => ?_⟩
  refine hint.allocated (3, 0) 2 ⟨0, [], .root, .inl ⟨rfl, rfl⟩, by decide, hlive, hdot⟩ ?_ hfree
  rw [hfirst]
  exact .head (by decide)

end Fat16
end MiniDos
