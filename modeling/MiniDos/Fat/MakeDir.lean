import Mathlib.Data.List.TakeWhile
import MiniDos.Fat.ReadFound
import MiniDos.Fat.Rollback
import MiniDos.Fat.WriteCorrect

/-!
# MiniDos.Fat.MakeDir

When `fat16_mkdir` does what it promises, on a well-formed volume without faults. It looks for a
directory of that name only, and it does not give the new cluster back when there is no slot for its
entry.

* `Mkdirs`: what is promised: the directory is found, and all else as before, or nothing has changed.
* `wp_addDirEntry_room`: an entry is refused only when there is no room.
* `Added.lookup_eq`: what the lookup gives once an entry was added.
* `mkdirs_iff`: the calls that keep the promise.
-/

namespace MiniDos
namespace Fat16

open BlockIO Chain

variable {ctx : Ctx Buffer Sector} {g : Globals} {m m' : DriverMem} {d e : Disk} {dir fuel : Nat}
  {ldir : List Nat} {name : CStr}

variable {x : DirectoryEntry} {ps : List Slot}

/-! ## The promise -/

/-- Cluster `n` is a directory with nothing but `.` and `..`, for itself and for `parent`. -/
structure FreshDir (g : Globals) (d : Disk) (n parent : Nat) : Prop where
  chain : Chained g d n [n]
  dot : entryAt d (headSlot g n) = newEntry dotName n 0 attrDirectory
  dotDot : entryAt d (g.clusterSector n, 1) = newEntry dotDotName parent 0 attrDirectory
  unused : ∀ p ∈ dirSlots g n [n], p ≠ headSlot g n → p ≠ (g.clusterSector n, 1) →
    (entryAt d p).isEnd = true

/-- No directory has an entry in slot `p`. -/
def Vacant (g : Globals) (d : Disk) (p : Slot) : Prop :=
  ∀ c l, IsDir g d c → Chained g d c l → p ∈ dirSlots g c l → (entryAt d p).isFree = true

/-- The name gives a cluster that was free and is an empty directory now. Apart from the slot of its
entry nothing has changed. -/
def MadeDir (g : Globals) (fuel : Nat) (d : Disk) (m' : DriverMem) (dir : Nat) (name : CStr) : Prop :=
  ∃ n p m₂, (findDirCluster g fuel dir name).run noFaults m' = some (some n, m₂) ∧
    FreeCluster g d n ∧ FreshDir g m'.disk n dir ∧ Vacant g d p ∧ OthersKept g d m'.disk dir p

/-- What is promised of the call. -/
def Mkdirs (g : Globals) (fuel : Nat) (m : DriverMem) (dir : Nat) (name : CStr) : Prop :=
  ∃ ok m', (mkdir g fuel dir name).run noFaults m = some (ok, m') ∧
    (ok = true → MadeDir g fuel m.disk m' dir name) ∧ (ok = false → Untouched g m.disk m'.disk)

/-! ## The condition -/

/-- The cluster of the entry in slot `p`, if it is a directory. -/
def dirClusterAt (d : Disk) (p : Slot) : Option Nat :=
  if (entryAt d p).isDirectory then some (entryAt d p).first else none

/-- What `fat16_find_dir_cluster` gives. -/
def foundDir (name : CStr) (d : Disk) (ps : List Slot) : Option Nat :=
  (lookup name d ps).bind (dirClusterAt d)

def front (d : Disk) (ps : List Slot) : List Slot := ps.takeWhile (fun p => (entryAt d p).isLive)

/-- Nothing is to be done: the name is not valid, there is such a directory, or no cluster is free. -/
def MkdirIdle (g : Globals) (d : Disk) (ps : List Slot) (name : CStr) : Prop :=
  formatName name = none ∨ (foundDir name d ps).isSome = true ∨ ∀ c, ¬ FreeCluster g d c

/-- There is a slot for one more entry. But for the root directory, a free cluster will do. -/
def EntryRoom (g : Globals) (d : Disk) (dir : Nat) (ps : List Slot) : Prop :=
  firstFree d ps ≠ none ∨ (dir ≠ 0 ∧ ∃ c, FreeCluster g d c)

/-- The same, when another cluster goes to the new directory. -/
def MkdirRoom (g : Globals) (d : Disk) (dir : Nat) (ps : List Slot) : Prop :=
  firstFree d ps ≠ none ∨ (dir ≠ 0 ∧ ∃ c c', c ≠ c' ∧ FreeCluster g d c ∧ FreeCluster g d c')

/-- There is room for the entry, it answers to the name, and no entry in front of it does. -/
structure MkdirFits (g : Globals) (d : Disk) (dir : Nat) (ps : List Slot) (name : CStr) : Prop where
  room : MkdirRoom g d dir ps
  answers : ∀ name83, formatName name = some name83 →
    (newEntry name83 0 0 attrDirectory).hits name = true
  clear : lookup name d (front d ps) = none

/-! ## Room for an entry -/

/-- Without faults an entry is added as long as there is room. -/
theorem wp_addDirEntry_room (hg : g.Valid) (hfuel : g.getTotalClusters ≤ fuel)
    (hc : Chained g m.disk dir ldir) (name83 : Name) (cluster fileSize : Nat) (attributes : UInt8)
    (hroom : EntryRoom g m.disk dir (dirSlots g dir ldir)) :
    (addDirEntry g fuel dir name83 cluster fileSize attributes).wp Ctx.quiet
      (fun ok _ => ok = true) m := by
  have hlen := hc.length_le hg
  unfold addDirEntry
  by_cases h0 : dir = 0
  · subst h0
    simp only [if_true, Prog.wp_bind, findFreeRootEntry]
    refine Prog.wp_mono (wp_forSectors findFreeBody_reads _ _ 0 m) ?_
    rintro r m1 ⟨_, _, hr⟩
    rw [← List.range_eq_range', findSome?_free] at hr
    rcases hr with rfl | ⟨hf, _⟩
    · obtain ⟨p, hp⟩ := Option.ne_none_iff_exists'.mp
        (hroom.resolve_right (fun hno => hno.1 rfl))
      have hp' : firstFree m.disk (slotsOf ((List.range g.getRootDirSectors).map
          (fun i => g.getRootDirStart + i))) = some p := hp
      rw [hp']
      exact wp_writeDirEntryAt_true p.1 p.2 _
    · exact absurd hf.faulty Ctx.quiet_not_faulty
  · have hch := hc.chainOf h0
    have hslots : slotsOf (ldir.flatMap (clusterSectors g)) = dirSlots g dir ldir := by
      unfold dirSlots dirSectors
      rw [if_neg h0]
    simp only [h0, if_false, Prog.wp_bind]
    refine Prog.wp_mono (wp_placeInChain hg (fun _ => trivial) ldir fuel dir m (hc.ne_nil h0)
      (hch.from hg) (by omega)) ?_
    intro r m1 hr
    cases hr with
    | placed _ _ => exact rfl
    | failed _ hf => exact absurd hf.faulty Ctx.quiet_not_faulty
    | @full _ pre post t hd hl hfull hpost =>
      rw [hpost.resolve_right Ctx.quiet_not_faulty] at hl
      rw [← hl, hslots] at hfull
      obtain ⟨_, c, hfree⟩ := hroom.resolve_left (fun hne => hne hfull)
      refine Prog.wp_mono (wp_growDir_quiet hg t _) ?_
      rintro ok m2 (hok | ⟨_, hnone⟩)
      · exact hok
      · rw [hd] at hnone
        exact absurd hfree (hnone c)

theorem Added.room (h : Added ctx g d dir ldir x true m) :
    EntryRoom g d dir (dirSlots g dir ldir) := by
  cases h with
  | placed hp _ => exact .inl (by rw [hp]; exact Option.some_ne_none _)
  | grown h0 _ _ _ h =>
    obtain ⟨mid, hext, _⟩ := h
    exact .inr ⟨h0, _, hext.data, hext.free⟩

theorem NewDir.room_iff (hg : g.Valid) (hl : Chained g d dir ldir) {n parent : Nat}
    (h : NewDir g d n parent e) : EntryRoom g e dir (dirSlots g dir ldir) ↔
      MkdirRoom g d dir (dirSlots g dir ldir) := by
  have hfirst : firstFree e (dirSlots g dir ldir) = firstFree d (dirSlots g dir ldir) :=
    find?_congr_of_mem (fun q hq => by rw [h.chain.scratch.entryAt_eq hl hq])
  unfold EntryRoom MkdirRoom
  rw [hfirst]
  refine or_congr_right (and_congr_right (fun _ => ⟨?_, ?_⟩))
  · rintro ⟨c, hc⟩
    obtain ⟨hne, hfree⟩ := h.chain.fresh hg hc
    exact ⟨n, c, fun he => hne (he ▸ List.mem_singleton.mpr rfl),
      h.chain.free n (List.mem_singleton.mpr rfl), hfree⟩
  · rintro ⟨c, c', hne, hc, hc'⟩
    have hother : ∀ x, FreeCluster g d x → x ≠ n → FreeCluster g e x := by
      intro x hx hxn
      refine ⟨hx.1, ?_⟩
      rw [h.chain.touches.fatGet_eq hg (inTable_of_data hg hx.1)
        (fun hm => hxn (List.mem_singleton.mp hm))]
      exact hx.2
    by_cases hcn : c = n
    · exact ⟨c', hother c' hc' (fun he => hne (hcn.trans he.symm))⟩
    · exact ⟨c, hother c hc hcn⟩

/-! ## The lookup behind it -/

theorem lookup_append (a b : List Slot) :
    lookup name d (a ++ b) = (lookup name d a).or (lookup name d b) := List.find?_append

theorem lookup_cons (p : Slot) (ps : List Slot) : lookup name d (p :: ps) =
    if (entryAt d p).hits name = true then some p else lookup name d ps := by
  unfold lookup
  rw [List.find?_cons]
  cases (entryAt d p).hits name <;> rfl

theorem lookup_of_eq {d' : Disk} (h : ∀ q ∈ ps, entryAt d' q = entryAt d q) :
    lookup name d' ps = lookup name d ps := lookup_congr (fun q hq => by rw [h q hq])

theorem front_of_live (h : ∀ q ∈ ps, (entryAt d q).isLive = true) :
    front d ps = ps := List.takeWhile_eq_self_iff.mpr h

theorem front_split {pre post : List Slot} {p : Slot} (hpre : ∀ q ∈ pre, (entryAt d q).isLive = true)
    (hp : (entryAt d p).isFree = true) : front d (pre ++ p :: post) = pre := by
  have hno : (entryAt d p).isLive = false := by simp [DirectoryEntry.isLive, hp]
  unfold front
  rw [List.takeWhile_append_of_pos hpre, List.takeWhile_cons, hno]
  exact List.append_nil pre

theorem hits_of_isFree (h : x.isFree = true) : ¬ x.hits name = true := by
  intro hhit
  have hlive := DirectoryEntry.isLive_of_hits hhit
  simp [DirectoryEntry.isLive, h] at hlive

/-- The lookup meets the entries in front of the new one, then the new one, then those behind it,
which are as they were. -/
theorem Added.lookup_eq (hg : g.Valid) {D : Nat → Prop} {ch : Nat → List Nat}
    (hi : Inventory g d D ch) (hdir : D dir) (hnf : ¬ ctx.Faulty)
    (hadd : Added ctx g d dir (ch dir) x true m) (name : CStr) :
    ∃ l p back, Chained g m.disk dir l ∧ entryAt m.disk p = x ∧
      lookup name m.disk (dirSlots g dir l) = (lookup name d (front d (dirSlots g dir (ch dir)))).or
        (if x.hits name = true then some p else back) ∧
      lookup name d (dirSlots g dir (ch dir)) =
        (lookup name d (front d (dirSlots g dir (ch dir)))).or back ∧
      ∀ q ∈ dirSlots g dir (ch dir), (entryAt d q).isLive = true → entryAt m.disk q = entryAt d q := by
  have hch := (hi.dir dir hdir).chained
  cases hadd with
  | @placed _ p hp hd =>
    have hfree := firstFree_isFree hp
    have hmem := firstFree_mem hp
    have h16 := Inventory.slot_lt hmem
    have hsame : ∀ q ∈ dirSlots g dir (ch dir), q ≠ p → entryAt m.disk q = entryAt d q := by
      intro q hq hne
      rw [hd, entryAt_putSlot_ne (Inventory.slot_lt hq) hne]
    have hnd := hch.slots_nodup hg
    obtain ⟨pre, post, hsplit, hpre⟩ := firstFree_split hp
    rw [hsplit] at hsame hnd
    obtain ⟨_, hnd, hdisj⟩ := List.nodup_append.mp hnd
    have hpost : p ∉ post := (List.nodup_cons.mp hnd).1
    have hself : entryAt m.disk p = x := by rw [hd, entryAt_putSlot h16]
    refine ⟨ch dir, p, lookup name d post, ?_, hself, ?_, ?_, fun q hq hlive => ?_⟩
    · rw [hd]
      exact hch.touches hg (putSlot_touches (Inventory.slot_not_fat hmem) x) (fun _ _ => not_false)
    · rw [hsplit, front_split hpre hfree, lookup_append, lookup_cons, hself]
      refine congrArg₂ Option.or (lookup_of_eq (fun q hq => ?_)) ?_
      · exact hsame q (List.mem_append_left _ hq)
          (fun he => hdisj q hq p List.mem_cons_self he)
      · rw [lookup_of_eq (fun q hq => ?_)]
        exact hsame q (List.mem_append_right _ (List.mem_cons_of_mem _ hq)) (fun he => hpost (he ▸ hq))
    · rw [hsplit, front_split hpre hfree, lookup_append, lookup_cons, if_neg (hits_of_isFree hfree)]
    · rw [hsplit] at hq
      refine hsame q hq ?_
      rintro rfl
      simp [DirectoryEntry.isLive, hfree] at hlive
  | @grown _ pre post t n h0 hsplit hpost hfull hgrown =>
    rw [hpost.resolve_right hnf] at hsplit
    have hlive := firstFree_none hfull
    rw [← hsplit] at hfull hlive
    have hedit := Edit.of_grown hg (show t ∈ ch dir by rw [hsplit]; simp) hgrown
    obtain ⟨mid, hext, hd⟩ := hgrown
    have hnew : ∀ q ∈ dirSlots g dir (ch dir), q ≠ headSlot g n := by
      rintro q hq rfl
      exact dirSector_not_scratch hch (mem_slotsOf.mp hq).1
        ⟨n, ⟨hext.data, hext.free⟩, (mem_slotsOf.mp (headSlot_mem hg n)).1⟩
    have hsame : ∀ q ∈ dirSlots g dir (ch dir), entryAt m.disk q = entryAt d q :=
      fun q hq => hedit.entry_eq hch hq (hnew q hq)
    -- behind its first slot the new cluster holds nothing
    have hrest : lookup name m.disk (slotsOf (clusterSectors g n)) =
        if x.hits name = true then some (headSlot g n) else none := by
      have hnd := slotsOf_nodup (clusterSectors_nodup (g := g) n)
      have hunused := hext.unused
      have hlt : ∀ q ∈ slotsOf (clusterSectors g n), q.2 < 16 := fun q hq => (mem_slotsOf.mp hq).2
      obtain ⟨rest, hcluster⟩ := Inventory.slotsOf_cluster hg n
      rw [hcluster] at hnd hunused hlt ⊢
      have hnone : lookup name m.disk ((g.clusterSector n, 1) :: rest) = none := by
        refine List.find?_eq_none.mpr (fun q hq => ?_)
        have hne : q ≠ headSlot g n := fun he => (List.nodup_cons.mp hnd).1 (he ▸ hq)
        rw [hd, entryAt_putSlot_ne (hlt q (List.mem_cons_of_mem _ hq)) hne]
        refine hits_of_isFree ?_
        simp [DirectoryEntry.isFree, hunused q (List.mem_cons_of_mem _ hq)]
      rw [lookup_cons, hnone, hedit.entry_self]
    refine ⟨ch dir ++ [n], headSlot g n, none, ?_, hedit.entry_self, ?_, ?_, fun q hq _ => hsame q hq⟩
    · have hchain := ((hi.extend hg hdir h0 hsplit (hsplit ▸ hlive) hext).1.dir dir hdir).chained
      have hset : Inventory.setChain ch dir (pre ++ [t, n]) dir = ch dir ++ [n] := by
        rw [hsplit, List.append_assoc]
        exact if_pos rfl
      rw [hset] at hchain
      rw [hd]
      exact hchain.touches hg (putSlot_touches hedit.notFat x) (fun _ _ => not_false)
    · rw [front_of_live hlive, dirSlots_snoc h0, lookup_append, lookup_of_eq hsame, hrest]
    · rw [front_of_live hlive, Option.or_none]

/-! ## How the call ends -/

/-- How `fat16_mkdir` ends without faults. -/
inductive MkdirQuiet (g : Globals) (d : Disk) (dir : Nat) (ldir : List Nat) (name : CStr) :
    Bool → DriverMem → Prop where
  | idle {m : DriverMem} (hd : m.disk = d) (hidle : MkdirIdle g d (dirSlots g dir ldir) name) :
      MkdirQuiet g d dir ldir name false m
  | leaked {m : DriverMem} {n : Nat} {name83 : Name} (hformat : formatName name = some name83)
      (hnone : foundDir name d (dirSlots g dir ldir) = none)
      (hroom : ¬ MkdirRoom g d dir (dirSlots g dir ldir)) (hfree : FreeCluster g d n)
      (hkept : fatGet g m.disk n ≠ 0) :
      MkdirQuiet g d dir ldir name false m
  | made {m : DriverMem} {n : Nat} {e : Disk} {name83 : Name} (hformat : formatName name = some name83)
      (hnone : foundDir name d (dirSlots g dir ldir) = none) (hnew : NewDir g d n dir e)
      (hadd : Added Ctx.quiet g e dir ldir (newEntry name83 n 0 attrDirectory) true m) :
      MkdirQuiet g d dir ldir name true m

theorem wp_makeDir_quiet (hg : g.Valid) (hfuel : g.getTotalClusters ≤ fuel) (hd : DirOk g d dir ldir)
    {name83 : Name} (hformat : formatName name = some name83)
    (hnone : foundDir name d (dirSlots g dir ldir) = none) (hm : m.disk = d) :
    (makeDir g fuel dir name83).wp Ctx.quiet (MkdirQuiet g d dir ldir name) m := by
  unfold makeDir
  rw [Prog.wp_bind]
  refine Prog.wp_mono (wp_allocCluster hg (fun _ _ _ _ _ => trivial)) ?_
  intro r m1 ha
  rw [hm] at ha
  cases ha with
  | full hd1 hfull =>
    exact .idle hd1 (.inr (.inr (fun c hc => hfull Ctx.quiet_not_faulty c hc.1 hc.2)))
  | broke _ _ _ hf => exact absurd hf.faulty Ctx.quiet_not_faulty
  | @took n _ hn hfree _ hd1 =>
    have hchain := (NewChain.empty g d).start hg ⟨hn, hfree⟩ hd1
    simp only [Prog.wp_bind]
    refine Prog.wp_mono (wp_zeroCluster (fun _ _ => trivial)) ?_
    rintro ok m2 ⟨hfill, hfailed, hzero⟩
    cases ok with
    | false => exact absurd (hfailed rfl).faulty Ctx.quiet_not_faulty
    | true =>
      simp only [if_true, Prog.wp_bind]
      refine Prog.wp_mono (wp_initDirEntries (fun _ => trivial)) ?_
      rintro ok m3 (⟨rfl, hd3⟩ | ⟨_, _, hf⟩)
      · have hnew : NewDir g d n dir m3.disk := by
          rw [hd3]
          exact NewDir.of_init hg hchain hfill (hzero rfl)
        have hl := hnew.chain.scratch.chained hg hd.chained
        simp only [if_true]
        by_cases hroom : MkdirRoom g d dir (dirSlots g dir ldir)
        · refine Prog.wp_mono (Prog.wp_and (wp_addDirEntry hg (fun _ => trivial) hl hfuel)
            (wp_addDirEntry_room hg hfuel hl name83 n 0 attrDirectory
              ((hnew.room_iff hg hd.chained).mpr hroom))) ?_
          rintro ok m4 ⟨hadd, rfl⟩
          exact .made hformat hnone hnew hadd
        · refine Prog.wp_mono (wp_addDirEntry hg (fun _ => trivial) hl hfuel) ?_
          intro ok m4 hadd
          cases ok with
          | true => exact absurd ((hnew.room_iff hg hd.chained).mp hadd.room) hroom
          | false =>
            cases hadd with
            | full hd4 =>
              refine .leaked hformat hnone hroom ⟨hn, hfree⟩ ?_
              rw [hd4]
              exact hnew.chain.chained.ne_zero n (List.mem_singleton.mpr rfl)
            | failed _ _ _ hf => exact absurd hf.faulty Ctx.quiet_not_faulty
      · exact absurd hf.faulty Ctx.quiet_not_faulty

theorem wp_mkdir_quiet (hg : g.Valid) (hfuel : g.getTotalClusters ≤ fuel)
    (hd : DirOk g m.disk dir ldir) (name : CStr) :
    (mkdir g fuel dir name).wp Ctx.quiet (MkdirQuiet g m.disk dir ldir name) m := by
  unfold mkdir
  cases hformat : formatName name with
  | none => exact .idle rfl (.inl hformat)
  | some name83 =>
    simp only [findDirCluster, Prog.wp_bind]
    refine Prog.wp_mono (wp_findEntryInternal hg hd hfuel name) ?_
    rintro r m1 ⟨hd1, _, hr⟩
    replace hr := hr.resolve_right (fun hno => Ctx.quiet_not_faulty hno.1.faulty)
    cases r with
    | none =>
      have hfound : foundDir name m.disk (dirSlots g dir ldir) = none := by
        unfold foundDir
        rw [Option.map_eq_none_iff.mp hr.symm]
        rfl
      simp only [Prog.wp_pure]
      exact wp_makeDir_quiet hg hfuel hd hformat hfound hd1
    | some found =>
      obtain ⟨p, hp, rfl⟩ := Option.map_eq_some_iff.mp hr.symm
      have hfound : foundDir name m.disk (dirSlots g dir ldir) = dirClusterAt m.disk p := by
        unfold foundDir
        rw [hp]
        rfl
      unfold dirClusterAt at hfound
      by_cases hk : (locate m.disk p).entry.isDirectory = true
      · have hdirectory : (entryAt m.disk p).isDirectory = true := hk
        rw [if_pos hdirectory] at hfound
        simp only [hk, if_true, Prog.wp_pure]
        exact .idle hd1 (.inr (.inl (by rw [hfound]; rfl)))
      · have hfile : ¬ (entryAt m.disk p).isDirectory = true := hk
        rw [if_neg hfile] at hfound
        simp only [hk, Bool.false_eq_true, if_false, Prog.wp_pure]
        exact wp_makeDir_quiet hg hfuel hd hformat hfound hd1

/-! ## What was made -/

theorem not_idle {name83 : Name} {n : Nat} (hformat : formatName name = some name83)
    (hnone : foundDir name d ps = none) (hfree : FreeCluster g d n) : ¬ MkdirIdle g d ps name := by
  rintro (hno | hsome | hfull)
  · rw [hformat] at hno
    cases hno
  · rw [hnone] at hsome
    cases hsome
  · exact hfull n hfree

theorem untouched_refl (g : Globals) (d : Disk) : Untouched g d d :=
  ⟨fun _ _ => rfl, fun _ _ _ _ _ _ => rfl, fun _ _ _ _ _ => rfl⟩

theorem Untouched.fatGet_eq (hg : g.Valid) (h : Untouched g d e) {c : Nat}
    (hc : g.isDataCluster c = true) : fatGet g e c = fatGet g d c :=
  (Touches.of_sectors (X := fun _ => False) (S := fun lba => ¬ g.isFatSector lba) (fun _ hno => hno)
    (fun lba hl => h.fat lba (not_not.mp hl))).fatGet_eq hg (inTable_of_data hg hc) not_false

theorem exists_run_findDirCluster (hg : g.Valid) (hfuel : g.getTotalClusters ≤ fuel) {l : List Nat}
    (hd : DirOk g m.disk dir l) (name : CStr) :
    ∃ m₁, (findDirCluster g fuel dir name).run noFaults m =
      some (foundDir name m.disk (dirSlots g dir l), m₁) := by
  have hwp : (findDirCluster g fuel dir name).wp (Ctx.total (fun _ => True))
      (fun r _ => r = foundDir name m.disk (dirSlots g dir l)) m := by
    unfold findDirCluster foundDir
    rw [Prog.wp_bind]
    refine Prog.wp_mono (wp_findEntryInternal hg hd hfuel name) ?_
    rintro r m1 ⟨_, _, hr⟩
    replace hr := hr.resolve_right (fun hno => Ctx.total_not_faulty _ hno.1.faulty)
    cases hlook : lookup name m.disk (dirSlots g dir l) with
    | none =>
      rw [hlook] at hr
      subst hr
      exact rfl
    | some p =>
      rw [hlook] at hr
      subst hr
      rw [Option.bind_some]
      unfold dirClusterAt
      by_cases hk : (entryAt m.disk p).isDirectory = true
      · have hk' : (locate m.disk p).entry.isDirectory = true := hk
        rw [if_pos hk]
        simp only [Option.map_some, hk', if_true, Prog.wp_pure]
        rfl
      · have hk' : ¬ (locate m.disk p).entry.isDirectory = true := hk
        rw [if_neg hk]
        simp only [Option.map_some, hk', Bool.false_eq_true, if_false, Prog.wp_pure]
  obtain ⟨r, m₁, hrun, rfl⟩ := Prog.exists_run hwp
  exact ⟨m₁, hrun⟩

theorem hits_newEntry (name : CStr) (name83 : Name) (n : Nat) :
    (newEntry name83 n 0 attrDirectory).hits name = (newEntry name83 0 0 attrDirectory).hits name := hits_congr rfl rfl rfl

theorem front_of_eq (h : ∀ q ∈ ps, entryAt e q = entryAt d q) :
    front e ps = front d ps := by
  unfold front
  induction ps with
  | nil => rfl
  | cons p ps ih =>
    rw [List.takeWhile_cons, List.takeWhile_cons, h p List.mem_cons_self,
      ih (fun q hq => h q (List.mem_cons_of_mem _ hq))]

theorem Entered.vacant (hg : g.Valid) (hs : Scratch g d e) {D D' : Nat → Prop} {ch ch' : Nat → List Nat}
    {p : Slot} {l : List Nat} {d' : Disk}
    (hent : Entered ctx g e D ch dir x l d' D' ch' p) : Vacant g d p := by
  intro c lc _ hlc hpc
  rcases hent.place with ⟨_, hfree⟩ | ⟨k, hk, hpk⟩
  · rw [hs.entryAt_eq hlc hpc] at hfree
    exact hfree
  · exact absurd ⟨k, hs.free_of_free hg hk, hpk⟩ (dirSector_not_scratch hlc (mem_slotsOf.mp hpc).1)

section Made

variable (hg : g.Valid) (hw : WellFormed g d) (hdir : IsDir g d dir) (hl : Chained g d dir ldir)
  {n : Nat} {name83 : Name} (hnew : NewDir g d n dir e)
  (hadd : Added Ctx.quiet g e dir ldir (newEntry name83 n 0 attrDirectory) true m)
include hg hw hdir hl hnew hadd

/-- The name gives the new cluster exactly when the new entry answers to it and no entry in front
of it does; otherwise it gives no directory, as before. -/
theorem found_made (hnone : foundDir name d (dirSlots g dir ldir) = none) :
    ∃ l, Chained g m.disk dir l ∧
      ((newEntry name83 0 0 attrDirectory).hits name = true →
        lookup name d (front d (dirSlots g dir ldir)) = none →
        foundDir name m.disk (dirSlots g dir l) = some n) ∧
      (foundDir name m.disk (dirSlots g dir l) ≠ none →
        (newEntry name83 0 0 attrDirectory).hits name = true ∧
        lookup name d (front d (dirSlots g dir ldir)) = none) := by
  have hscr := hnew.chain.scratch
  have hi := ((hw.inventory hg).scratch hg hscr).1
  have hch : chainOf g d dir = ldir := chainOf_eq hg hl
  have hold : ∀ q ∈ dirSlots g dir ldir, entryAt e q = entryAt d q := fun q hq => hscr.entryAt_eq hl hq
  rw [← hch] at hadd
  obtain ⟨l, p, back, hl', hself, hlook', hlook, hsame⟩ :=
    hadd.lookup_eq hg hi hdir Ctx.quiet_not_faulty name
  rw [hch] at hlook' hlook hsame
  have hsub : ∀ q ∈ front d (dirSlots g dir ldir), q ∈ dirSlots g dir ldir :=
    fun q hq => (List.takeWhile_subset _) hq
  rw [front_of_eq hold, lookup_of_eq (fun q hq => hold q (hsub q hq))] at hlook' hlook
  rw [lookup_of_eq hold] at hlook
  rw [hits_newEntry] at hlook'
  -- an entry that the lookup gave before it gives no directory now
  have hkept : ∀ q, lookup name d (dirSlots g dir ldir) = some q → dirClusterAt m.disk q = none := by
    intro q hq
    have hmem := lookup_mem hq
    have hentry : entryAt m.disk q = entryAt d q := by
      rw [hsame q hmem (by rw [hold q hmem]; exact DirectoryEntry.isLive_of_hits (lookup_hits hq)),
        hold q hmem]
    unfold foundDir at hnone
    rw [hq, Option.bind_some] at hnone
    unfold dirClusterAt at hnone ⊢
    rw [hentry]
    exact hnone
  refine ⟨l, hl', fun hhit hclear => ?_, fun hfound => ?_⟩
  · unfold foundDir dirClusterAt
    rw [hlook', hclear, if_pos hhit, Option.none_or, Option.bind_some, hself,
      newEntry_first name83 (hnew.chain.first_lt hg)]
    exact if_pos (show (attrDirectory &&& attrDirectory != 0) = true by decide)
  · by_contra hno
    refine hfound ?_
    unfold foundDir
    rw [hlook']
    cases hfront : lookup name d (front d (dirSlots g dir ldir)) with
    | some q =>
      rw [hfront] at hlook
      exact hkept q hlook
    | none =>
      rw [hfront, Option.none_or] at hlook
      have hhit : ¬ (newEntry name83 0 0 attrDirectory).hits name = true := fun hhit => hno ⟨hhit, hfront⟩
      rw [if_neg hhit, Option.none_or]
      cases back with
      | none => rfl
      | some q => exact hkept q hlook

/-- The new directory, and what is left of the rest. -/
theorem made_frame (hformat : formatName name = some name83) :
    FreshDir g m.disk n dir ∧ ∃ p, Vacant g d p ∧ OthersKept g d m.disk dir p ∧
      ∃ l, DirOk g m.disk dir l := by
  have hscr := hnew.chain.scratch
  obtain ⟨D', ch', p, hent⟩ := hnew.entered hg hw hdir hl hformat hadd
  have hi := hw.inventory hg
  obtain ⟨hdata, hfree⟩ := hnew.chain.free n (List.mem_singleton.mpr rfl)
  have hslots := hnew.dirSlots_eq
  have hch : Chained g d dir (chainOf g d dir) := (hi.dir dir hdir).chained
  -- the slot of the entry does not lie in the new directory
  have hne : ∀ q ∈ dirSlots g n [n], q ≠ p := by
    rintro q hq rfl
    rw [hslots] at hq
    have hqn := (mem_slotsOf.mp hq).1
    rcases hent.place with ⟨hp, _⟩ | ⟨c, hc, hpc⟩
    · exact dirSector_not_scratch hch (mem_slotsOf.mp hp).1 ⟨n, ⟨hdata, hfree⟩, hqn⟩
    · have hcn := clusterSectors_disjoint (isDataCluster_iff.mp hc.1).1
        (isDataCluster_iff.mp hdata).1 hpc hqn
      exact hnew.chain.chained.ne_zero n (List.mem_singleton.mpr rfl) (hcn ▸ hc.2)
  have hsame : ∀ q ∈ dirSlots g n [n], entryAt m.disk q = entryAt e q :=
    fun q hq => hent.edit.entry_eq hnew.chain.chained hq (hne q hq)
  refine ⟨⟨?_, ?_, ?_, fun q hq h0 h1 => ?_⟩, p, hent.vacant hg hscr,
    hent.othersKept hg hw hdir Ctx.quiet_not_faulty hscr, _,
    hent.kept.inv.dir dir (hent.keep dir hdir)⟩
  · refine hent.edit.chained hg hnew.chain.chained (fun y hy hyd => ?_)
    rw [List.mem_singleton.mp hy] at hyd
    exact hch.ne_zero n hyd hfree
  · rw [hsame _ (hslots ▸ headSlot_mem hg n), hnew.dot]
  · obtain ⟨rest, hrest⟩ := Inventory.slotsOf_cluster hg n
    rw [hsame _ (by rw [hslots, hrest]; simp), hnew.dotDot]
  · rw [hsame q hq]
    exact hnew.unused q (hslots ▸ hq) h0 h1

end Made

/-! ## The calls that keep the promise -/

section Calls

variable (hg : g.Valid) (hfuel : g.getTotalClusters ≤ fuel) (hw : WellFormed g m.disk)
  (hdir : IsDir g m.disk dir) (hl : Chained g m.disk dir ldir)
include hg hfuel hw hdir hl

theorem mkdir_ends {ok : Bool} (hrun : (mkdir g fuel dir name).run noFaults m = some (ok, m')) :
    MkdirQuiet g m.disk dir ldir name ok m' :=
  (Prog.run_of_wp noFaults (fun _ hf => by cases hf)
    (wp_mkdir_quiet hg hfuel ⟨hl, hw.endMarked dir ldir hdir hl⟩ name)).1 ok m' hrun

theorem Mkdirs.idle_or_fits (h : Mkdirs g fuel m dir name) :
    MkdirIdle g m.disk (dirSlots g dir ldir) name ∨
      MkdirFits g m.disk dir (dirSlots g dir ldir) name := by
  obtain ⟨ok, m', hrun, htrue, hfalse⟩ := h
  cases mkdir_ends hg hfuel hw hdir hl hrun with
  | idle _ hidle => exact .inl hidle
  | @leaked _ n _ _ _ _ hfree hkept =>
    rw [(hfalse rfl).fatGet_eq hg hfree.1] at hkept
    exact absurd hfree.2 hkept
  | made hformat hnone hnew hadd =>
    obtain ⟨n, p, m₂, hfind, _⟩ := htrue rfl
    obtain ⟨_, _, _, _, l, hd⟩ := made_frame hg hw hdir hl hnew hadd hformat
    obtain ⟨l', hl', _, hfound⟩ := found_made hg hw hdir hl hnew hadd hnone
    obtain ⟨m₁, hrun₁⟩ := exists_run_findDirCluster hg hfuel hd name
    rw [hl'.unique hg hd.chained] at hfound
    rw [hrun₁] at hfind
    obtain ⟨hsome, _⟩ := Prod.mk.inj (Option.some.inj hfind)
    obtain ⟨hhit, hclear⟩ := hfound (by rw [hsome]; exact Option.some_ne_none _)
    refine .inr ⟨(hnew.room_iff hg hl).mp hadd.room, fun other hother => ?_, hclear⟩
    rw [hformat] at hother
    rw [← Option.some.inj hother]
    exact hhit

theorem mkdirs_of (h : MkdirIdle g m.disk (dirSlots g dir ldir) name ∨
    MkdirFits g m.disk dir (dirSlots g dir ldir) name) : Mkdirs g fuel m dir name := by
  have hback : (mkdir g fuel dir name).wp (Ctx.total (fun _ => True)) _ m :=
    wp_mkdir hg ⟨hl, hw.endMarked dir ldir hdir hl⟩ hfuel (fun _ => trivial)
      (.inl (fun m hf => hf.elim))
  obtain ⟨ok, m', hrun, _⟩ := Prog.exists_run hback
  refine ⟨ok, m', hrun, ?_⟩
  cases mkdir_ends hg hfuel hw hdir hl hrun with
  | idle hd _ =>
    refine ⟨fun hok => (by cases hok), fun _ => ?_⟩
    rw [hd]
    exact untouched_refl g m.disk
  | leaked hformat hnone hroom hfree _ =>
    rcases h with hidle | hfits
    · exact absurd hidle (not_idle hformat hnone hfree)
    · exact absurd hfits.room hroom
  | made hformat hnone hnew hadd =>
    have hfree := hnew.chain.free _ (List.mem_singleton.mpr rfl)
    have hfits := h.resolve_left (not_idle hformat hnone hfree)
    obtain ⟨hfresh, p, hvacant, hkept, l, hd⟩ := made_frame hg hw hdir hl hnew hadd hformat
    obtain ⟨l', hl', hfound, _⟩ := found_made hg hw hdir hl hnew hadd hnone
    obtain ⟨m₁, hrun₁⟩ := exists_run_findDirCluster hg hfuel hd name
    rw [← hl'.unique hg hd.chained, hfound (hfits.answers _ hformat) hfits.clear] at hrun₁
    exact ⟨fun _ => ⟨_, p, m₁, hrun₁, hfree, hfresh, hvacant, hkept⟩, fun hok => (by cases hok)⟩

/-- `fat16_mkdir` keeps its promise exactly when it has nothing to do, or there is room for the
entry, which answers to the name and has no entry in front of it that does. -/
theorem mkdirs_iff (name : CStr) : Mkdirs g fuel m dir name ↔
    MkdirIdle g m.disk (dirSlots g dir ldir) name ∨
      MkdirFits g m.disk dir (dirSlots g dir ldir) name :=
  ⟨fun h => h.idle_or_fits hg hfuel hw hdir hl, mkdirs_of hg hfuel hw hdir hl⟩

end Calls

/-- `D` on a blank volume. -/
theorem mkdirs_iff_blank : Mkdirs smallVolume 3 blankMem 0 [0x44] := by
  refine (mkdirs_iff smallVolume_valid (by decide) (blankDisk_wellFormed smallVolume) .root
    (.inl ⟨rfl, rfl⟩) [0x44]).mpr (.inr ⟨.inl (by decide +kernel), ?_, by decide +kernel⟩)
  rintro name83 hformat
  cases (show formatName [0x44] = some (padName [0x44] []) from rfl).symm.trans hformat
  decide

/-- The empty files `A` to `P` fill the root directory. -/
def fullNames : List CStr := (List.range 16).map (fun i => [0x41 + UInt8.ofNat i])

def fullMem : DriverMem :=
  fullNames.foldl (fun m name => after (.writeFileFromDir 0 name none 0) m) blankMem

theorem fullMem_wellFormed : WellFormed smallVolume fullMem.disk := by
  have hascii : ∀ name ∈ fullNames, name.Ascii := by
    unfold fullNames
    decide
  exact List.foldlRecOn (motive := fun m : DriverMem => WellFormed smallVolume m.disk) fullNames _
    (blankDisk_wellFormed smallVolume)
    (fun m hm name hname => after_wellFormed hm ⟨.root, hascii name hname⟩)

/-- There the call returns 0 and keeps cluster 2. -/
theorem mkdir_keeps_cluster : WellFormed smallVolume fullMem.disk ∧
    ¬ Mkdirs smallVolume 3 fullMem 0 [0x5A] := by
  refine ⟨fullMem_wellFormed, ?_⟩
  rintro ⟨ok, m', hrun, _, hfalse⟩
  have hres : ((mkdir smallVolume 3 0 [0x5A]).run noFaults fullMem).map
      (fun r => (r.1, fatGet smallVolume r.2.disk 2)) = some (false, 0xFFF) := by decide +kernel
  have hfree : fatGet smallVolume fullMem.disk 2 = 0 := by decide +kernel
  rw [hrun] at hres
  obtain ⟨rfl, hkept⟩ := Prod.mk.inj (Option.some.inj hres)
  rw [(hfalse rfl).fatGet_eq smallVolume_valid (by decide), hfree] at hkept
  cases hkept

end Fat16
end MiniDos
