import MiniDos.Fat.CopySpec
import MiniDos.Fat.ReadSpec
import MiniDos.Fat.Rollback

/-!
# MiniDos.Fat.CopyContent

The bytes that `fat16_copy_file_between_dirs` moves, on a device without faults.

* `CopyState`: the invariant of the loop: the clusters behind the current one are filled with the
  bytes of the source, the current ones are the next of both chains.
* `wp_copyFile_duplicated`: a copy that succeeds has made an entry with a chain that spells what the
  chain of the source spells.
-/

namespace MiniDos
namespace Fat16

open BlockIO Chain

variable {g : Globals} {m : DriverMem} {d e : Disk} {ls : List Nat} {size : Nat}

/-! ## The bytes of a chain, by number -/

/-- Byte `k` of a chain. -/
def chainByte (g : Globals) (d : Disk) (l : List Nat) (k : Nat) : Byte := (chainBytes g d l).getD k 0

def clusterSize (g : Globals) : Nat := g.bpb.sectorsPerCluster * 512

theorem length_chainBytes (g : Globals) (d : Disk) (l : List Nat) :
    (chainBytes g d l).length = l.length * clusterSize g := by
  unfold chainBytes clusterSize
  rw [length_flatMap_sectors, length_chainSectors, Nat.mul_comm, Nat.mul_assoc]

theorem getElem?_flatMap_block {α β : Type} {f : α → List β} {b : Nat} (hf : ∀ a, (f a).length = b)
    {j : Nat} (hj : j < b) : ∀ {l : List α} {i : Nat} {a : α}, l[i]? = some a →
      (l.flatMap f)[i * b + j]? = (f a)[j]? := by
  intro l
  induction l with
  | nil => exact fun h => by simp at h
  | cons x l ih =>
    intro i a h
    rw [List.flatMap_cons]
    cases i with
    | zero =>
      obtain rfl : x = a := by simpa using h
      rw [Nat.zero_mul, Nat.zero_add, List.getElem?_append_left (by rw [hf]; exact hj)]
    | succ i =>
      rw [Nat.add_mul, Nat.one_mul, List.getElem?_append_right (by rw [hf]; omega), hf,
        show i * b + b + j - b = i * b + j by omega]
      exact ih h

theorem chainByte_cluster {i c k : Nat} (hc : ls[i]? = some c) (hk : k < clusterSize g) :
    chainByte g d ls (i * clusterSize g + k) =
      (d (g.clusterSector c + k / 512)).get (k % 512) := by
  unfold clusterSize at hk ⊢
  have hlt : k / 512 < g.bpb.sectorsPerCluster := Nat.div_lt_of_lt_mul (Nat.mul_comm _ 512 ▸ hk)
  have hsector : (ls.flatMap (clusterSectors g))[i * g.bpb.sectorsPerCluster + k / 512]? =
      some (g.clusterSector c + k / 512) := by
    rw [getElem?_flatMap_block (fun a => by simp [clusterSectors]) hlt hc]
    simp [clusterSectors, hlt]
  have hmod : k % 512 < 512 := Nat.mod_lt _ (by decide)
  have hbyte := getElem?_flatMap_block (fun lba : Nat => List.length_ofFn (f := d lba)) hmod hsector
  have hindex : i * (g.bpb.sectorsPerCluster * 512) + k =
      (i * g.bpb.sectorsPerCluster + k / 512) * 512 + k % 512 := by
    rw [Nat.add_mul, Nat.add_assoc, Nat.div_add_mod' k 512, Nat.mul_assoc]
  unfold chainByte chainBytes
  rw [List.getD_eq_getElem?_getD, hindex, hbyte, List.getElem?_ofFn, dif_pos hmod, Option.getD_some]
  have hv : (⟨k % 512, hmod⟩ : Fin 512) = Fin.ofNat 512 (k % 512) :=
    Fin.ext (Nat.mod_eq_of_lt hmod).symm
  rw [hv]
  rfl

/-! ## One cluster -/

theorem wp_copySectors_quiet {src dst : Nat} (hne : ∀ lba ∈ clusterSectors g src,
    lba ∉ clusterSectors g dst) : ∀ (n s remaining : Nat) (m : DriverMem),
    s + n = g.bpb.sectorsPerCluster →
    (copySectors (g.clusterSector src) (g.clusterSector dst) n s remaining).wp Ctx.quiet
      (fun r m' => r = some (remaining - min remaining (n * 512)) ∧ Fills g dst m.disk m'.disk ∧
        (∀ i < s, m'.disk (g.clusterSector dst + i) = m.disk (g.clusterSector dst + i)) ∧
        ∀ i < n, i * 512 < remaining →
          m'.disk (g.clusterSector dst + (s + i)) = m.disk (g.clusterSector src + (s + i))) m := by
  intro n
  induction n with
  | zero =>
    intro s remaining m _
    exact ⟨by simp, .refl, fun _ _ => rfl, fun i hi => by omega⟩
  | succ n ih =>
    intro s remaining m hs
    unfold copySectors
    by_cases hr : remaining > 0
    · rw [if_pos hr]
      simp only [Prog.wp_bind, wp_readSector_quiet, wp_writeSector_quiet, if_true]
      have hfill := fills_putSector (g := g) (c := dst) (s := s) (by omega)
        (m.disk (g.clusterSector src + s)) m.disk
      have hbytes : (if remaining > sectorSize then sectorSize else remaining) = min remaining 512 := by
        unfold sectorSize
        split <;> omega
      rw [hbytes]
      refine Prog.wp_mono (ih (s + 1) _ _ (by omega)) ?_
      rintro r m' ⟨rfl, hf, hlow, hcopied⟩
      simp only [Mem.flush_disk, Mem.fetch_disk, Mem.fetch_buf] at hf hlow hcopied
      refine ⟨congrArg some (by omega), hfill.trans hf, fun i hi => ?_, fun i hi hlt => ?_⟩
      · rw [hlow i (Nat.lt_succ_of_lt hi)]
        exact putSector_of_ne _ _ (by omega)
      · cases i with
        | zero =>
          rw [Nat.add_zero, hlow s (Nat.lt_succ_self s)]
          exact putSector_self _ _ _
        | succ i =>
          rw [Nat.add_mul, Nat.one_mul] at hlt
          have hleft : i * 512 < remaining - min remaining 512 := by
            rw [Nat.min_eq_right (by omega)]
            exact Nat.lt_sub_of_add_lt hlt
          have hnext := hcopied i (Nat.lt_of_succ_lt_succ hi) hleft
          have hsrc : g.clusterSector src + (s + 1 + i) ∈ clusterSectors g src :=
            mem_clusterSectors.mpr (by omega)
          have hdst : g.clusterSector dst + s ∈ clusterSectors g dst :=
            mem_clusterSectors.mpr (by omega)
          have hother : g.clusterSector src + (s + 1 + i) ≠ g.clusterSector dst + s :=
            fun he => hne _ hsrc (by rw [he]; exact hdst)
          rw [show s + (i + 1) = s + 1 + i by omega, hnext]
          exact putSector_of_ne _ _ hother
    · rw [if_neg hr]
      exact ⟨congrArg some (by omega), .refl, fun _ _ => rfl, fun i _ hlt => by omega⟩

/-! ## The loop -/

/-- In the loop, from disk `d` on: the clusters `l` are filled with the first bytes of the source
chain `ls`; `dst` is the next to fill, from `src`. -/
structure CopyState (g : Globals) (d : Disk) (ls : List Nat) (size first : Nat) (l : List Nat)
    (src dst remaining : Nat) (e : Disk) : Prop where
  chain : NewChain g d (l ++ [dst]) first dst e
  source : ls[l.length]? = some src
  spells : Spells g e l (chainByte g d ls) (l.length * clusterSize g)
  sizes : l.length * clusterSize g + remaining = size

/-- The new chain `l` spells the first `size` bytes of the source chain, which has as many. -/
structure CopyReady (g : Globals) (d : Disk) (ls : List Nat) (size first : Nat) (l : List Nat)
    (e : Disk) : Prop where
  chain : ∃ last, NewChain g d l first last e
  spells : Spells g e l (chainByte g d ls) size
  enough : size ≤ ls.length * clusterSize g

/-- The clusters of the source chain are in use. -/
def InUse (g : Globals) (d : Disk) (ls : List Nat) : Prop :=
  ∀ c ∈ ls, g.isDataCluster c = true ∧ fatGet g d c ≠ 0

namespace CopyState

variable {l : List Nat} {src dst remaining first : Nat}
  (h : CopyState g d ls size first l src dst remaining e) (hls : InUse g d ls)
include h hls

theorem src_inUse : g.isDataCluster src = true ∧ fatGet g d src ≠ 0 :=
  hls src (List.mem_of_getElem? h.source)

theorem src_not_mem : src ∉ l ++ [dst] := fun hm => (h.src_inUse hls).2 (h.chain.free src hm).2

theorem sector_apart {lba : Nat} (hlba : lba ∈ clusterSectors g src) :
    ∀ c ∈ l ++ [dst], lba ∉ clusterSectors g c := by
  intro c hc hlc
  have h2 := (isDataCluster_iff.mp (h.src_inUse hls).1).1
  have hc2 := (isDataCluster_iff.mp (h.chain.free c hc).1).1
  exact h.src_not_mem hls (clusterSectors_disjoint h2 hc2 hlba hlc ▸ hc)

theorem source_eq {lba : Nat} (hlba : lba ∈ clusterSectors g src) : e lba = d lba :=
  h.chain.touches.sec lba (clusterSector_not_fat hlba)
    (fun ⟨c, hc, hlc⟩ => h.sector_apart hls hlba c hc hlc)

theorem filled (hg : g.Valid) {e' : Disk} {n : Nat} (hn : n ≤ clusterSize g) (hf : Fills g dst e e')
    (hc : ∀ i < g.bpb.sectorsPerCluster, i * 512 < n →
      e' (g.clusterSector dst + i) = e (g.clusterSector src + i)) :
    Spells g e' (l ++ [dst]) (chainByte g d ls) (l.length * clusterSize g + n) := by
  have hnd : dst ∉ l := fun hm =>
    (List.nodup_append.mp (h.chain.chained.nodup hg)).2.2 dst hm dst (by simp) rfl
  have hkeep : Spells g e' l (chainByte g d ls) (l.length * clusterSize g) := by
    refine h.spells.congr (fun x hx lba hl => hf.sec lba (clusterSector_not_fat hl) ?_)
    intro hlc
    have hx2 := (isDataCluster_iff.mp (h.chain.free x (List.mem_append_left _ hx)).1).1
    have hd2 := (isDataCluster_iff.mp (h.chain.free dst (by simp)).1).1
    exact hnd (clusterSectors_disjoint hx2 hd2 hl hlc ▸ hx)
  refine hkeep.snoc hn (fun k hk => ?_)
  have hkc : k < clusterSize g := Nat.lt_of_lt_of_le hk hn
  have hsector : k / 512 < g.bpb.sectorsPerCluster :=
    Nat.div_lt_of_lt_mul (Nat.mul_comm _ 512 ▸ hkc)
  have hlba : g.clusterSector src + k / 512 ∈ clusterSectors g src :=
    mem_clusterSectors.mpr (by omega)
  rw [hc _ hsector (Nat.lt_of_le_of_lt (Nat.div_mul_le_self k 512) hk), h.source_eq hls hlba]
  exact (chainByte_cluster h.source hkc).symm

end CopyState

theorem copyLoop_done (first src dst : Nat) : ∀ n, copyLoop g first n src dst 0 = pure (some 0) := by
  intro n
  cases n with
  | zero => rfl
  | succ n =>
    unfold copyLoop
    exact if_pos rfl

theorem wp_copyLoop_ready (hg : g.Valid) {m₀ : DriverMem} {first start : Nat}
    (hls : ChainOf g m₀.disk start ls) (huse : InUse g m₀.disk ls) :
    ∀ (n src dst remaining : Nat) (l : List Nat) (m : DriverMem),
      CopyState g m₀.disk ls size first l src dst remaining m.disk → 0 < remaining → m₀.Moved m →
      (copyLoop g first n src dst remaining).wp Ctx.quiet
        (fun r m' => r = some 0 → ∃ l, CopyReady g m₀.disk ls size first l m'.disk) m := by
  intro n
  induction n with
  | zero =>
    intro src dst remaining l m _ hpos _ h0
    cases h0
    exact absurd hpos (Nat.lt_irrefl 0)
  | succ n ih =>
    intro src dst remaining l m h hpos hmoved
    have hsrc := h.src_inUse huse
    have hmem : dst ∈ l ++ [dst] := by simp
    have hlen : l.length < ls.length := (List.getElem?_eq_some_iff.mp h.source).1
    unfold copyLoop
    rw [if_neg (Nat.ne_of_gt hpos), Prog.wp_bind]
    refine Prog.wp_mono (Prog.wp_moved (wp_copySectors_quiet
      (fun lba hlba => h.sector_apart huse hlba dst hmem) g.bpb.sectorsPerCluster 0 remaining m
      (Nat.zero_add _))) ?_
    rintro r m1 ⟨⟨rfl, hfill, _, hcopied⟩, hmv1⟩
    have hchain1 := h.chain.fill hg hmem hfill
    have hspells1 := h.filled huse hg (n := min remaining (clusterSize g)) (Nat.min_le_right _ _)
      hfill (fun i hi hlt => by
        have hsame := hcopied i hi (Nat.lt_of_lt_of_le hlt (Nat.min_le_left _ _))
        rwa [Nat.zero_add] at hsame)
    have hcs : g.bpb.sectorsPerCluster * 512 = clusterSize g := rfl
    have hsizes := h.sizes
    have hmoved1 := hmoved.trans hmv1
    simp only [hcs]
    by_cases hrem : remaining - min remaining (clusterSize g) > 0
    · have hfull : min remaining (clusterSize g) = clusterSize g := by omega
      rw [hfull] at hspells1 hrem ⊢
      simp only [hrem, if_true, Prog.wp_bind, getNextCluster]
      refine Prog.wp_mono (Prog.wp_moved (wp_readFatEntry src)) ?_
      rintro v m2 ⟨⟨hd2, _, hv⟩, hmv2⟩
      replace hv := hv.resolve_right (fun hf => Ctx.quiet_not_faulty hf.1.faulty)
      have hnext : v = fatGet g m₀.disk src := by
        rw [hv, hchain1.touches.fatGet_eq hg (inTable_of_data hg hsrc.1) (h.src_not_mem huse)]
      by_cases hdata : g.isDataCluster v = true
      · have hsource : ls[(l ++ [dst]).length]? = some v := by
          rw [List.length_append, List.length_singleton, hnext]
          exact hls.getElem?_succ (fun x => data_not_endMark hg) h.source (hnext ▸ hdata)
        simp only [hdata, if_true, Prog.wp_bind]
        refine Prog.wp_mono (Prog.wp_moved (wp_allocCluster hg (fun _ _ _ _ _ => trivial))) ?_
        rintro r m3 ⟨hr, hmv3⟩
        have hmoved3 := (hmoved1.trans hmv2).trans hmv3
        cases r with
        | none =>
          rw [Prog.wp_bind]
          exact Prog.wp_quiet_of_forall (fun _ _ h0 => by cases h0) _
        | some c =>
          obtain ⟨hc, hfree, _, hd3⟩ := hr
          rw [hd2] at hfree hd3
          simp only [Prog.wp_bind]
          refine Prog.wp_mono (Prog.wp_moved (hchain1.wp_link hg (quiet_careful m₀)
            (fun _ _ => trivial) (by simp) ⟨hc, hfree⟩ hd3 hmoved3)) ?_
          rintro ok m4 ⟨⟨ht4, hok, hbad⟩, hmv4⟩
          cases ok with
          | false => exact absurd (hbad rfl).1 Ctx.quiet_not_faulty
          | true =>
            simp only [if_true]
            refine ih v c _ (l ++ [dst]) m4 ⟨hok rfl, hsource, ?_, ?_⟩ hrem (hmoved3.trans hmv4)
            · rw [List.length_append, List.length_singleton, Nat.add_mul, Nat.one_mul]
              exact hspells1.congr (fun x _ lba hl => ht4.sec lba (clusterSector_not_fat hl) not_false)
            · rw [List.length_append, List.length_singleton, Nat.add_mul, Nat.one_mul]
              omega
      · simp only [hdata, Bool.false_eq_true, if_false]
        rw [Prog.wp_bind]
        exact Prog.wp_quiet_of_forall (fun _ _ h0 => by cases h0) _
    · have hall : min remaining (clusterSize g) = remaining := by omega
      rw [hall, hsizes] at hspells1
      simp only [hrem, if_false]
      have hle : (l.length + 1) * clusterSize g ≤ ls.length * clusterSize g :=
        Nat.mul_le_mul_right _ hlen
      rw [Nat.add_mul, Nat.one_mul] at hle
      have hready : CopyReady g m₀.disk ls size first (l ++ [dst]) m1.disk :=
        ⟨⟨dst, hchain1⟩, hspells1, by omega⟩
      have hzero : remaining - min remaining (clusterSize g) = 0 := by omega
      rw [hzero, copyLoop_done]
      exact fun _ => ⟨_, hready⟩

/-! ## The whole call -/

/-- The name has got an entry with the size and the attributes of that in slot `p`, for a chain that
spells what the chain `ls` does. -/
structure CopyMade (g : Globals) (d : Disk) (p : Slot) (ls : List Nat) (dstDir : Nat)
    (ldst : List Nat) (dstName : CStr) (l : List Nat) (first : Nat) (e : Disk) (name83 : Name)
    (m : DriverMem) : Prop where
  ready : CopyReady g d ls (entryAt d p).fileSize.toNat first l e
  format : formatName dstName = some name83
  new : lookup dstName d (dirSlots g dstDir ldst) = none
  added : Added Ctx.quiet g e dstDir ldst
    (newEntry name83 first (entryAt d p).fileSize.toNat (entryAt d p).attributes) true m

section Call

variable {srcDir dstDir fuel : Nat} {lsrc ldst : List Nat} {srcName dstName : CStr} {p : Slot}

theorem wp_copyContents_made (hg : g.Valid) {first : Nat} (hd : DirOk g d dstDir ldst)
    (hfuel : g.getTotalClusters ≤ fuel)
    (hloop : (copyLoop g first (g.getTotalClusters + 2) (entryAt d p).clusterLow.toNat first
      (entryAt d p).fileSize.toNat).wp Ctx.quiet (fun r m' => r = some 0 →
        ∃ l, CopyReady g d ls (entryAt d p).fileSize.toNat first l m'.disk) m) :
    (copyContents g fuel (entryAt d p) dstDir dstName first).wp Ctx.quiet (fun ok m' => ok = true →
      ∃ l e name83, CopyMade g d p ls dstDir ldst dstName l first e name83 m') m := by
  unfold copyContents
  rw [Prog.wp_bind]
  refine Prog.wp_mono hloop ?_
  intro r m1 hr
  cases r with
  | none => exact fun h => (nomatch h)
  | some remaining =>
    by_cases hrem : remaining = 0
    · obtain ⟨l, hready⟩ := hr (congrArg some hrem)
      obtain ⟨last, hchain⟩ := hready.chain
      simp only [hrem, ne_eq, not_true_eq_false, if_false, Prog.wp_bind]
      refine Prog.wp_mono (wp_createEntry hg (fun _ => trivial) (hchain.scratch.dirOk hg hd) hfuel) ?_
      rintro ok m2 hend
      cases ok with
      | false =>
        simp only [Bool.false_eq_true, if_false, Prog.wp_bind]
        exact Prog.wp_quiet_of_forall (fun _ _ h => (nomatch h)) _
      | true =>
        rcases hend with ⟨hno, _⟩ | ⟨name83, hformat, hnew, hadd⟩
        · cases hno
        · rw [hchain.scratch.lookup_eq hd.chained] at hnew
          exact fun _ => ⟨l, m1.disk, name83, hready, hformat,
            hnew.resolve_right Ctx.quiet_not_faulty, hadd⟩
    · simp only [hrem, ne_eq, not_false_eq_true, if_true, Prog.wp_bind]
      exact Prog.wp_quiet_of_forall (fun _ _ h => (nomatch h)) _

/-- What a copy that succeeded has found, and made. -/
def Duplicated (g : Globals) (d : Disk) (srcDir : Nat) (lsrc : List Nat) (srcName : CStr)
    (dstDir : Nat) (ldst : List Nat) (dstName : CStr) (m : DriverMem) : Prop :=
  (formatName srcName).isSome = true ∧ ∃ p ls, lookup srcName d (dirSlots g srcDir lsrc) = some p ∧
    (entryAt d p).isDirectory = false ∧ Chained g d (entryAt d p).first ls ∧
    ∃ l first e name83, CopyMade g d p ls dstDir ldst dstName l first e name83 m

theorem wp_copyFile_duplicated (hg : g.Valid) (hsrc : DirOk g m.disk srcDir lsrc)
    (hdst : DirOk g m.disk dstDir ldst) (hfuel : g.getTotalClusters ≤ fuel)
    (hold : ∀ p, isDotName srcName = false → lookup srcName m.disk (dirSlots g srcDir lsrc) = some p →
      ∃ ls, Chained g m.disk (entryAt m.disk p).first ls) :
    (copyFileBetweenDirs g fuel srcDir srcName dstDir dstName).wp Ctx.quiet (fun ok m' => ok = true →
      Duplicated g m.disk srcDir lsrc srcName dstDir ldst dstName m') m := by
  have hrefuse : ∀ m' : DriverMem, (pure false : DiskProg Bool).wp Ctx.quiet (fun ok m' => ok = true →
      Duplicated g m.disk srcDir lsrc srcName dstDir ldst dstName m') m' := fun _ h => (nomatch h)
  unfold copyFileBetweenDirs
  split
  · exact hrefuse m
  cases hs83 : formatName srcName with
  | none => exact hrefuse m
  | some src83 =>
    cases hd83 : formatName dstName with
    | none => exact hrefuse m
    | some dst83 =>
      by_cases hsame : (∀ i, src83 i = dst83 i) ∧ srcDir = dstDir
      · simp only [if_pos hsame]
        exact hrefuse m
      simp only [if_neg hsame, Prog.wp_bind]
      refine Prog.wp_mono (wp_findEntryInternal hg hsrc hfuel srcName) ?_
      rintro r m1 ⟨hd1, hst1, hr⟩
      cases r with
      | none => exact hrefuse m1
      | some found =>
        obtain ⟨p, hp, rfl⟩ := Option.map_eq_some_iff.mp
          (hr.resolve_right (fun hno => Ctx.quiet_not_faulty hno.1.faulty)).symm
        have hdot := formatName_not_dot hs83
        obtain ⟨ls, hls⟩ := hold p hdot hp
        by_cases hk : (locate m.disk p).entry.isDirectory = true
        · simp only [hk, if_true]
          exact hrefuse m1
        have hfile : (entryAt m.disk p).isDirectory = false := by simpa [locate] using hk
        simp only [hk, Bool.false_eq_true, if_false, Prog.wp_bind]
        refine Prog.wp_mono (wp_findEntryInternal hg (by rw [hd1]; exact hdst) hfuel dstName) ?_
        rintro r2 m2 ⟨hd2, hst2, _⟩
        have hdisk2 : m2.disk = m.disk := hd2.trans hd1
        have hmoved2 : m.Moved m2 := ⟨by omega, fun _ => hdisk2⟩
        have hempty : NewChain g m.disk [] 0 0 m2.disk := by
          rw [hdisk2]
          exact NewChain.empty g m.disk
        -- behind the loop all is the same for an empty file and for one with a chain
        have hmade : ∀ (first : Nat) (m₁ : DriverMem), (copyLoop g first (g.getTotalClusters + 2)
            (entryAt m.disk p).clusterLow.toNat first (entryAt m.disk p).fileSize.toNat).wp Ctx.quiet
              (fun r m' => r = some 0 → ∃ l, CopyReady g m.disk ls
                (entryAt m.disk p).fileSize.toNat first l m'.disk) m₁ →
            (copyContents g fuel (locate m.disk p).entry dstDir dstName first).wp Ctx.quiet
              (fun ok m' => ok = true →
                Duplicated g m.disk srcDir lsrc srcName dstDir ldst dstName m') m₁ := by
          intro first m₁ hloop
          refine Prog.wp_mono (wp_copyContents_made hg hdst hfuel hloop) ?_
          intro ok m' hok htrue
          obtain ⟨l, e, name83, hcopied⟩ := hok htrue
          exact ⟨by rw [hs83]; rfl, p, ls, hp, hfile, hls, l, first, e, name83, hcopied⟩
        cases r2 with
        | some _ => exact hrefuse m2
        | none =>
          have hsz : (locate m.disk p).entry.fileSize.toNat = (entryAt m.disk p).fileSize.toNat := rfl
          by_cases hsize : (locate m.disk p).entry.fileSize.toNat > 0
          · simp only [hsize, if_true]
            by_cases h2 : (locate m.disk p).entry.clusterLow.toNat < 2
            · simp only [h2, if_true]
              exact hrefuse m2
            · simp only [h2, if_false, Prog.wp_bind]
              refine Prog.wp_mono (Prog.wp_moved (wp_allocCluster hg (fun _ _ _ _ _ => trivial))) ?_
              rintro r3 m3 ⟨ha, hmv3⟩
              cases ha with
              | full _ _ => exact hrefuse m3
              | broke _ _ _ hf => exact absurd hf.faulty Ctx.quiet_not_faulty
              | @took c _ hc hfree _ hd3 =>
                have h0 : (entryAt m.disk p).first ≠ 0 := fun h0 => h2 (by
                  show (entryAt m.disk p).first < 2
                  omega)
                have hch := hls.chainOf h0
                refine hmade c m3 (wp_copyLoop_ready hg hch
                  (fun x hx => ⟨hls.data_of_mem x hx, hls.ne_zero x hx⟩) _ _ _ _ [] m3 ?_ hsize
                  (hmoved2.trans hmv3))
                refine ⟨hempty.start hg ⟨hc, hfree⟩ hd3, ?_, fun k hk => ?_, by simp⟩
                · obtain ⟨rest, hrest⟩ : ∃ rest, ls = (entryAt m.disk p).first :: rest := by
                    cases ls with
                    | nil => exact absurd rfl (hls.ne_nil h0)
                    | cons x rest => exact ⟨rest, by rw [hch.start_eq]⟩
                  rw [hrest]
                  rfl
                · simp at hk
          · have hzero : (entryAt m.disk p).fileSize.toNat = 0 := by omega
            simp only [hsize, if_false]
            refine hmade 0 m2 ?_
            rw [hzero, copyLoop_done]
            exact fun _ => ⟨[], ⟨0, hempty⟩, fun k hk => absurd hk (Nat.not_lt_zero k), Nat.zero_le _⟩

end Call

end Fat16
end MiniDos
