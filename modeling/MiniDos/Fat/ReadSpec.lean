import MiniDos.Lib.Stale
import MiniDos.Fat.WriteCorrect

/-!
# MiniDos.Fat.ReadSpec

What `fat16_read_file_from_dir` gives, on a device on which reads of the table may fail.

* `held`: the bytes an entry stands for: those of its clusters, up to its size.
* `wanted`: the sectors that have to be read for the first bytes of it.
* `firstHit`: the slot a scan ends at.
* `wpAt_readFileFromDir`: the bytes held by the first slot the scan for reading accepts; a front of
  them when the table could not be read.
-/

namespace MiniDos
namespace Fat16

open BlockIO Chain

variable {g : Globals} {m : DriverMem} {d : Disk} {dir fuel max : Nat} {name : CStr} {P : Nat → Prop}
variable {lba : Nat} {secs : List Nat}

/-! ## What an entry holds -/

def clusterBytes (g : Globals) (d : Disk) (c : Nat) : List Byte :=
  (clusterSectors g c).flatMap (fun lba => List.ofFn (d lba))

/-- The next `size` bytes from cluster `c` on, from at most `n` clusters. -/
def spelled (g : Globals) (d : Disk) : Nat → Nat → Nat → List Byte
  | 0, _, _ => []
  | n + 1, c, size =>
    if g.isDataCluster c = true ∧ 0 < size then
      (clusterBytes g d c).take size ++
        spelled g d n (fatGet g d c) (size - 512 * g.bpb.sectorsPerCluster)
    else []

/-- Every cluster has bytes, so there are no more of them than bytes. -/
def held (g : Globals) (d : Disk) (e : DirectoryEntry) : List Byte :=
  spelled g d e.fileSize.toNat e.first e.fileSize.toNat

/-- The sectors with the next `k` bytes from cluster `c` on, from at most `n` clusters. -/
def wanted (g : Globals) (d : Disk) : Nat → Nat → Nat → List Nat
  | 0, _, _ => []
  | n + 1, c, k =>
    if g.isDataCluster c = true ∧ 0 < k then
      ((List.range g.bpb.sectorsPerCluster).filter (fun i => 512 * i < k)).map
          (fun i => g.clusterSector c + i) ++
        wanted g d n (fatGet g d c) (k - 512 * g.bpb.sectorsPerCluster)
    else []

/-- The sectors with the first `max` bytes of an entry. -/
def wantedOf (g : Globals) (d : Disk) (max : Nat) (e : DirectoryEntry) : List Nat :=
  wanted g d e.fileSize.toNat e.first (min e.fileSize.toNat max)

theorem length_flatMap_sectors (d : Disk) (secs : List Nat) :
    (secs.flatMap (fun lba => List.ofFn (d lba))).length = 512 * secs.length := by
  induction secs with
  | nil => rfl
  | cons lba secs ih =>
    rw [List.flatMap_cons, List.length_append, ih, List.length_ofFn, List.length_cons]
    omega

theorem clusterBytes_length (g : Globals) (d : Disk) (c : Nat) :
    (clusterBytes g d c).length = 512 * g.bpb.sectorsPerCluster := by
  unfold clusterBytes clusterSectors
  rw [length_flatMap_sectors, List.length_map, List.length_range]

theorem chainBytes_cons (g : Globals) (d : Disk) (c : Nat) (l : List Nat) :
    chainBytes g d (c :: l) = clusterBytes g d c ++ chainBytes g d l := by
  unfold chainBytes clusterBytes
  rw [List.flatMap_cons, List.flatMap_append]

theorem spelled_stop {c size : Nat} (h : ¬ (g.isDataCluster c = true ∧ 0 < size)) (n : Nat) :
    spelled g d n c size = [] := by
  cases n with
  | zero => rfl
  | succ n =>
    unfold spelled
    exact if_neg h

theorem spelled_chain (hspc : 0 < g.bpb.sectorsPerCluster) : ∀ (l : List Nat) (n c size : Nat),
    ChainFrom g d c l → size ≤ n → spelled g d n c size = (chainBytes g d l).take size := by
  intro l
  induction l with
  | nil =>
    intro n c size hc _
    have hstop : g.isDataCluster c = false := hc
    rw [spelled_stop (by rw [hstop]; simp)]
    exact List.take_nil.symm
  | cons x l ih =>
    intro n c size hc hn
    obtain ⟨rfl, hx, hl⟩ := hc
    by_cases hsize : size = 0
    · subst hsize
      rw [spelled_stop (by simp), List.take_zero]
    · cases n with
      | zero => omega
      | succ n =>
        unfold spelled
        rw [if_pos ⟨hx, by omega⟩, ih n _ _ hl (by omega), chainBytes_cons, List.take_append,
          clusterBytes_length]

/-! ## Reading clusters -/

theorem take_range_map (s : Sector) {k : Nat} (hk : k ≤ 512) :
    (List.range k).map s.get = (List.ofFn s).take k := by
  refine List.ext_getElem? (fun i => ?_)
  rw [List.getElem?_take, List.getElem?_map, List.getElem?_ofFn]
  by_cases hi : i < k
  · rw [List.getElem?_range hi, if_pos hi, dif_pos (by omega)]
    have : (Fin.ofNat 512 i) = ⟨i, by omega⟩ := Fin.ext (Nat.mod_eq_of_lt (by omega))
    simp only [Option.map_some, Sector.get, this]
  · rw [if_neg hi, List.getElem?_eq_none (by simpa using hi)]
    rfl

theorem take_chunk (pre : List Byte) (s : Sector) (max : Nat) {k : Nat} (hk : k ≤ 512) :
    pre.take max ++ (List.range (min k (max - (pre.take max).length))).map s.get =
      (pre ++ (List.ofFn s).take k).take max := by
  rw [take_range_map s (by omega), List.take_append, List.length_take, List.take_take,
    show max - min max pre.length = max - pre.length by omega, Nat.min_comm k]

theorem take_prefix_append (a b : List Byte) (n : Nat) : a.take n <+: (a ++ b).take n := by
  rw [List.take_append]
  exact List.prefix_append _ _

theorem take_sector (s : Sector) (rest : List Byte) (size : Nat) :
    (List.ofFn s ++ rest).take size =
      (List.ofFn s).take (if size > 512 then 512 else size) ++
        rest.take (size - (if size > 512 then 512 else size)) := by
  have hall : ∀ k, 512 ≤ k → (List.ofFn s).take k = List.ofFn s :=
    fun k hk => List.take_of_length_le (by rw [List.length_ofFn]; exact hk)
  rw [List.take_append, List.length_ofFn]
  by_cases h : size > 512
  · rw [if_pos h, hall size (by omega), hall 512 (Nat.le_refl _)]
  · rw [if_neg h, Nat.sub_self, show size - 512 = 0 by omega]

theorem wpAt_readCopy {α : Type} {lba take : Nat} {out : List Byte} {f : List Byte → DiskProg α}
    {Q : α → DriverMem → Prop} (hP : P lba → take = 0)
    (hf : ∀ m' : DriverMem, m'.disk = m.disk →
      (f (out ++ (List.range take).map (m.disk lba).get)).wpAt P Q m') :
    (do
      let _ ← readSector .main lba
      let out ← copyBytes take out
      f out : DiskProg α).wpAt P Q m := by
  unfold copyBytes
  simp only [Prog.wpAt_bind, Prog.wpAt_readSector]
  by_cases h0 : take = 0
  · subst h0
    rw [if_pos rfl]
    rw [List.range_zero, List.map_nil, List.append_nil] at hf
    exact ⟨fun _ => hf _ rfl, hf _ rfl⟩
  · rw [if_neg h0]
    simp only [Prog.wpAt_bind, Prog.wpAt_load, Mem.fetch_buf]
    exact ⟨fun hin => absurd (hP hin) h0, hf _ rfl⟩

theorem wpAt_readSectors (base max : Nat) : ∀ (n s : Nat) (pre : List Byte) (size : Nat)
    (m : DriverMem), (∀ i < n, 512 * i < min size (max - pre.length) → ¬ P (base + s + i)) →
    (readSectors base max n s (pre.take max) size).wpAt P (fun r m' => m'.disk = m.disk ∧
      r = ((pre ++ ((List.range' s n).flatMap (fun i => List.ofFn (m.disk (base + i)))).take size).take max,
        size - 512 * n)) m := by
  intro n
  induction n with
  | zero =>
    intro s pre size m _
    refine ⟨rfl, ?_⟩
    rw [List.range'_zero, List.flatMap_nil, List.take_nil, List.append_nil]
    rfl
  | succ n ih =>
    intro s pre size m hP
    unfold readSectors
    by_cases hsize : size > 0
    · rw [if_pos hsize]
      refine wpAt_readCopy (fun hf => ?_) (fun m' hd => ?_)
      · have := hP 0 (by omega)
        rw [List.length_take]
        by_cases h0 : max - pre.length = 0
        · omega
        · exact absurd hf (this (by omega))
      rw [take_chunk pre (m.disk (base + s)) max (by split <;> omega)]
      refine Prog.wpAt_mono (ih (s + 1) _ _ _ (fun i h1 h2 => ?_)) ?_
      · rw [List.length_append, List.length_take, List.length_ofFn] at h2
        have := hP (i + 1) (by omega) (by split at h2 <;> omega)
        rwa [show base + (s + 1) + i = base + s + (i + 1) by omega]
      rintro r m2 ⟨hd2, rfl⟩
      refine ⟨hd2.trans hd, ?_⟩
      rw [hd, List.range'_succ, List.flatMap_cons, take_sector, ← List.append_assoc]
      refine Prod.ext rfl ?_
      show size - (if size > 512 then 512 else size) - 512 * n = size - 512 * (n + 1)
      split <;> omega
    · rw [if_neg hsize]
      have hzero : size = 0 := by omega
      subst hzero
      refine ⟨rfl, ?_⟩
      rw [List.take_zero, List.append_nil, Nat.zero_sub]

theorem wpAt_readFatEntry (c : Nat) (m : DriverMem) :
    (readFatEntry g c).wpAt P (fun v m' => m'.disk = m.disk ∧
      (v = fatGet g m.disk c ∨ ((∃ lba, P lba) ∧ v = g.endOfChainValue))) m := by
  refine Prog.wpAt_mono (Prog.wpAt_of_wp (wp_readFatEntry c)) ?_
  rintro v m' ⟨hd, _, hv | ⟨⟨_, hf, _⟩, hv⟩⟩
  · exact ⟨hd, .inl hv⟩
  · exact ⟨hd, .inr ⟨hf, hv⟩⟩

theorem readClusters_stop {c max size : Nat} {out : List Byte}
    (h : (g.isDataCluster c && decide (out.length < max) && decide (size > 0)) = false) (fuel : Nat) :
    readClusters g max fuel c out size = pure out := by
  cases fuel with
  | zero => unfold readClusters; rw [h]; rfl
  | succ fuel => unfold readClusters; rw [h]; rfl

theorem mem_wanted_head {n c k i : Nat} (hc : g.isDataCluster c = true)
    (hi : i < g.bpb.sectorsPerCluster) (hk : 512 * i < k) :
    g.clusterSector c + i ∈ wanted g d (n + 1) c k := by
  unfold wanted
  rw [if_pos ⟨hc, by omega⟩]
  refine List.mem_append_left _ (List.mem_map.mpr ⟨i, List.mem_filter.mpr ⟨?_, ?_⟩, rfl⟩)
  · exact List.mem_range.mpr hi
  · exact decide_eq_true hk

theorem mem_wanted_tail {n c k lba : Nat} (hc : g.isDataCluster c = true) (hk : 0 < k)
    (h : lba ∈ wanted g d n (fatGet g d c) (k - 512 * g.bpb.sectorsPerCluster)) :
    lba ∈ wanted g d (n + 1) c k := by
  unfold wanted
  rw [if_pos ⟨hc, hk⟩]
  exact List.mem_append_right _ h

theorem left_after (pre : List Byte) {chunk : List Byte} {size b : Nat} (max : Nat)
    (hb : chunk.length = min size b) :
    min (size - b) (max - (pre ++ chunk).length) = min size (max - pre.length) - b := by
  rw [List.length_append, hb]
  omega

theorem wpAt_readClusters (hg : g.Valid) (max : Nat) :
    ∀ (fuel n c : Nat) (pre : List Byte) (size : Nat) (m : DriverMem), size ≤ fuel → size ≤ n →
    (∀ lba ∈ wanted g m.disk n c (min size (max - pre.length)), ¬ P lba) →
    (readClusters g max fuel c (pre.take max) size).wpAt P (fun out m' => m'.disk = m.disk ∧
      out <+: (pre ++ spelled g m.disk n c size).take max ∧
      ((∀ lba, ¬ P lba) → out = (pre ++ spelled g m.disk n c size).take max)) m := by
  intro fuel
  induction fuel with
  | zero =>
    intro n c pre size m hf _ _
    have hzero : size = 0 := by omega
    subst hzero
    rw [readClusters_stop (by simp), spelled_stop (by simp), List.append_nil]
    exact ⟨rfl, List.prefix_rfl, fun _ => rfl⟩
  | succ fuel ih =>
    intro n c pre size m hf hn hP
    cases hgo : g.isDataCluster c && decide ((pre.take max).length < max) && decide (size > 0) with
    | false =>
      rw [readClusters_stop hgo]
      have hsame : (pre ++ spelled g m.disk n c size).take max = pre.take max := by
        by_cases hin : g.isDataCluster c = true ∧ 0 < size
        · have hfull : max ≤ pre.length := by
            rw [List.length_take] at hgo
            simp [hin.1, hin.2] at hgo
            omega
          rw [List.take_append, show max - pre.length = 0 by omega, List.take_zero,
            List.append_nil]
        · rw [spelled_stop hin, List.append_nil]
      rw [hsame]
      exact ⟨rfl, List.prefix_rfl, fun _ => rfl⟩
    | true =>
      have hin := hgo
      simp only [Bool.and_eq_true, decide_eq_true_eq, List.length_take] at hin
      obtain ⟨⟨hc, hroom⟩, hsize⟩ := hin
      cases n with
      | zero => omega
      | succ n =>
        have hspc := hg.sectorsPerCluster
        unfold readClusters
        rw [if_pos hgo, Prog.wpAt_bind]
        refine Prog.wpAt_mono (wpAt_readSectors _ _ _ 0 pre size m (fun i hi hk =>
          hP _ (mem_wanted_head hc hi hk))) ?_
        rintro r m' ⟨hd, rfl⟩
        have hbytes : (List.range' 0 g.bpb.sectorsPerCluster).flatMap
            (fun i => List.ofFn (m.disk (g.clusterSector c + i))) = clusterBytes g m.disk c := by
          unfold clusterBytes clusterSectors
          rw [← List.range_eq_range', List.flatMap_map]
        have hchunk : ((clusterBytes g m.disk c).take size).length =
            min size (512 * g.bpb.sectorsPerCluster) := by
          rw [List.length_take, clusterBytes_length]
        unfold spelled
        rw [hbytes, if_pos ⟨hc, hsize⟩, ← List.append_assoc]
        simp only [Prog.wpAt_bind, getNextCluster, Nat.mod_eq_of_lt (data_lt hg hc)]
        refine Prog.wpAt_mono (wpAt_readFatEntry c m') ?_
        rintro v m'' ⟨hd', hv⟩
        rw [hd] at hd' hv
        rcases hv with rfl | ⟨⟨lba, hl⟩, rfl⟩
        · refine Prog.wpAt_mono (ih n _ _ _ m'' (by omega) (by omega) (fun lba hlba => ?_)) ?_
          · rw [left_after pre max hchunk, hd'] at hlba
            exact hP lba (mem_wanted_tail hc (by omega) hlba)
          rintro out m3 ⟨hd3, hpre, heq⟩
          rw [hd'] at hd3 hpre heq
          exact ⟨hd3, hpre, heq⟩
        · have hstop : g.isDataCluster g.endOfChainValue = false :=
            endMark_not_data hg (endOfChain_isEndMark g)
          rw [readClusters_stop (by rw [hstop]; rfl)]
          refine ⟨hd', ?_, fun hno => absurd hl (hno lba)⟩
          exact take_prefix_append _ _ max

/-! ## Loops over directories -/

section Loops

variable {γ δ : Type} {body : Nat → DiskProg (Option γ)} {t : Nat → Option δ} {G : δ → γ → Prop}

/-- A loop over the sectors that ends where `t` has a result gets to `lba`. -/
def GetsTo (t : Nat → Option δ) (secs : List Nat) (lba : Nat) : Prop :=
  ∃ before behind, secs = before ++ lba :: behind ∧ before.findSome? t = none

theorem GetsTo.mem (h : GetsTo t secs lba) : lba ∈ secs := by
  obtain ⟨before, behind, rfl, _⟩ := h
  exact List.mem_append_right _ List.mem_cons_self

theorem GetsTo.found (h : GetsTo t secs lba) {x : δ}
    (hx : t lba = some x) : secs.findSome? t = some x := by
  obtain ⟨before, behind, rfl, hnone⟩ := h
  rw [List.findSome?_append, hnone, List.findSome?_cons, hx]
  rfl

theorem GetsTo.head (lba : Nat) (secs : List Nat) : GetsTo t (lba :: secs) lba :=
  ⟨[], secs, rfl, rfl⟩

theorem GetsTo.left {a : List Nat} (h : GetsTo t a lba) (b : List Nat) :
    GetsTo t (a ++ b) lba := by
  obtain ⟨before, behind, rfl, hnone⟩ := h
  exact ⟨before, behind ++ b, by rw [List.append_assoc, List.cons_append], hnone⟩

theorem GetsTo.right {a b : List Nat} (ha : a.findSome? t = none) (h : GetsTo t b lba) :
    GetsTo t (a ++ b) lba := by
  obtain ⟨before, behind, rfl, hnone⟩ := h
  exact ⟨a ++ before, behind, (List.append_assoc _ _ _).symm, by
    rw [List.findSome?_append, ha, hnone]; rfl⟩

/-- The body decides on a sector as `t` says. -/
abbrev Decides (P : Nat → Prop) (d : Disk) (body : Nat → DiskProg (Option γ)) (t : Nat → Option δ)
    (G : δ → γ → Prop) (lba : Nat) : Prop :=
  ∀ m : DriverMem, m.disk = d →
    (body lba).wpAt P (fun r m' => m'.disk = d ∧ Option.Rel G (t lba) r) m

theorem wpAt_forSectors (base : Nat) : ∀ (n s : Nat) (m : DriverMem),
    (∀ lba, GetsTo t ((List.range' s n).map (fun i => base + i)) lba → Decides P d body t G lba) →
    m.disk = d → (forSectors base body n s).wpAt P (fun r m' => m'.disk = d ∧
      Option.Rel G (((List.range' s n).map (fun i => base + i)).findSome? t) r) m := by
  intro n
  induction n with
  | zero => exact fun s m _ hd => ⟨hd, .none⟩
  | succ n ih =>
    intro s m hb hd
    rw [List.range'_succ, List.map_cons] at hb ⊢
    unfold forSectors
    rw [Prog.wpAt_bind]
    refine Prog.wpAt_mono (hb _ (.head _ _) m hd) ?_
    rintro r m' ⟨hd', hr⟩
    rw [List.findSome?_cons]
    generalize hfound : t (base + s) = found at hr
    cases hr with
    | none =>
      refine ih (s + 1) m' (fun lba hl => hb lba ?_) hd'
      exact hl.right (a := [base + s]) (by rw [List.findSome?_cons, hfound]; rfl)
    | some h => exact ⟨hd', .some h⟩

theorem sectors_of_cluster (g : Globals) (c : Nat) : (List.range' 0 g.bpb.sectorsPerCluster).map
    (fun i => g.clusterSector c + i) = clusterSectors g c := by
  rw [← List.range_eq_range']
  rfl

theorem wpAt_whileDataCluster (hg : g.Valid) :
    ∀ (l : List Nat) (fuel c : Nat) (m : DriverMem), ChainFrom g d c l → l.length ≤ fuel →
    (∀ lba, GetsTo t (l.flatMap (clusterSectors g)) lba → Decides P d body t G lba) →
    m.disk = d → (whileDataCluster g body fuel c).wpAt P (fun r m' => m'.disk = d ∧
      (Option.Rel G ((l.flatMap (clusterSectors g)).findSome? t) r ∨ ((∃ lba, P lba) ∧ r = none))) m := by
  intro l
  induction l with
  | nil =>
    intro fuel c m hc _ _ hd
    rw [whileDataCluster_stop hc]
    exact ⟨hd, .inl .none⟩
  | cons x l ih =>
    intro fuel c m hc hlen hb hd
    obtain ⟨rfl, hx, hl⟩ := hc
    cases fuel with
    | zero => simp at hlen
    | succ fuel =>
      rw [List.flatMap_cons] at hb
      unfold whileDataCluster
      rw [if_pos hx, Prog.wpAt_bind]
      have hfor := wpAt_forSectors (G := G) (P := P) (g.clusterSector c) g.bpb.sectorsPerCluster 0 m
        (by rw [sectors_of_cluster]; exact fun lba hr => hb lba (hr.left _)) hd
      rw [sectors_of_cluster] at hfor
      refine Prog.wpAt_mono hfor ?_
      rintro r m' ⟨hd', hr⟩
      rw [List.flatMap_cons, List.findSome?_append]
      generalize hfound : (clusterSectors g c).findSome? t = found at hr
      cases hr with
      | some h => exact ⟨hd', .inl (.some h)⟩
      | none =>
        simp only [Prog.wpAt_bind, getNextCluster, Nat.mod_eq_of_lt (data_lt hg hx)]
        refine Prog.wpAt_mono (wpAt_readFatEntry c m') ?_
        rintro v m2 ⟨hd2, hv⟩
        rw [hd'] at hd2 hv
        rcases hv with rfl | ⟨hf, rfl⟩
        · exact ih fuel _ m2 hl (by simp at hlen; omega) (fun lba hr => hb lba (hr.right hfound)) hd2
        · rw [whileDataCluster_stop (endMark_not_data hg (endOfChain_isEndMark g))]
          exact ⟨hd2, .inr ⟨hf, rfl⟩⟩

theorem wpAt_forDirSectors (hg : g.Valid) {l : List Nat} (hl : Chained g d dir l)
    (hfuel : g.getTotalClusters ≤ fuel)
    (hb : ∀ lba, GetsTo t (dirSectors g dir l) lba → Decides P d body t G lba) (hd : m.disk = d) :
    (forDirSectors g fuel dir body).wpAt P (fun r m' => m'.disk = d ∧
      (Option.Rel G ((dirSectors g dir l).findSome? t) r ∨ ((∃ lba, P lba) ∧ r = none))) m := by
  unfold dirSectors at hb ⊢
  unfold forDirSectors
  by_cases h0 : dir = 0
  · rw [if_pos h0] at hb ⊢
    rw [if_pos h0]
    unfold rootSectors at hb ⊢
    rw [List.range_eq_range'] at hb ⊢
    exact Prog.wpAt_mono (wpAt_forSectors _ _ 0 m hb hd) (fun r m' h => ⟨h.1, .inl h.2⟩)
  · rw [if_neg h0] at hb ⊢
    rw [if_neg h0]
    have hlen := hl.length_le hg
    exact wpAt_whileDataCluster hg l fuel dir m ((hl.chainOf h0).from hg) (by omega) hb hd

end Loops

/-! ## Reading a file -/

def firstHit (f : DirectoryEntry → Verdict) (d : Disk) (ps : List Slot) : Option Slot :=
  (ps.findSome? (pick f d)).getD none

def heldIn (g : Globals) (d : Disk) (p : Option Slot) : List Byte :=
  (p.map (fun p => held g d (entryAt d p))).getD []

def Reads (g : Globals) (P : Nat → Prop) (d : Disk) (max : Nat) (p : Option Slot) (out : List Byte) :
    Prop :=
  out <+: (heldIn g d p).take max ∧ ((∀ lba, ¬ P lba) → out = (heldIn g d p).take max)

theorem Reads.nil (max : Nat) : Reads g P d max none [] :=
  ⟨List.nil_prefix, fun _ => List.take_nil.symm⟩

def readScan (name : CStr) (d : Disk) (lba : Nat) : Option (Option Slot) :=
  (scanSector (readVerdict name) (d lba)).toSlot lba

/-- The sectors of the directory, and those with the bytes that are read, are not in `P`. -/
structure Readable (g : Globals) (P : Nat → Prop) (d : Disk) (name : CStr) (max : Nat)
    (secs : List Nat) : Prop where
  dir : ∀ lba ∈ secs, ¬ P lba
  file : ∀ p, firstHit (readVerdict name) d (slotsOf secs) = some p →
    ∀ lba ∈ wantedOf g d max (entryAt d p), ¬ P lba

theorem GetsTo.firstHit {lba i : Nat} (h : GetsTo (readScan name d) secs lba)
    (hscan : scanSector (readVerdict name) (d lba) = .found i) :
    firstHit (readVerdict name) d (slotsOf secs) = some (lba, i) := by
  have hx := h.found (show readScan name d lba = some (some (lba, i)) by
    unfold readScan; rw [hscan]; rfl)
  unfold Fat16.firstHit
  rw [← findSome?_scanSector]
  exact congrArg (fun r => r.getD none) hx

theorem wpAt_readEntry (hg : g.Valid) (hfuel : 2 ^ 32 ≤ fuel) {e : DirectoryEntry}
    (hP : ∀ lba ∈ wantedOf g m.disk max e, ¬ P lba) :
    (readClusters g max fuel e.first [] e.fileSize.toNat).wpAt P (fun out m' => m'.disk = m.disk ∧
      out <+: (held g m.disk e).take max ∧
      ((∀ lba, ¬ P lba) → out = (held g m.disk e).take max)) m := by
  have hsize := e.fileSize.toNat_lt
  rw [wantedOf, ← Nat.sub_zero max] at hP
  have hread := wpAt_readClusters hg max fuel e.fileSize.toNat e.first [] e.fileSize.toNat m
    (by omega) (Nat.le_refl _) hP
  rw [List.take_nil] at hread
  exact hread

theorem readBody_decides (hg : g.Valid) (hfuel : 2 ^ 32 ≤ fuel)
    (hP : Readable g P d name max secs) (hl : GetsTo (readScan name d) secs lba) :
    Decides P d (readBody g fuel name max) (readScan name d) (Reads g P d max) lba := by
  rintro m rfl
  unfold readBody
  simp only [Prog.wpAt_bind, Prog.wpAt_readSector, Prog.wpAt_load, Mem.fetch_buf]
  refine ⟨fun hf => absurd hf (hP.dir lba hl.mem), ?_⟩
  have hscan' : readScan name m.disk lba = (scanSector (readVerdict name) (m.disk lba)).toSlot lba := rfl
  rw [hscan']
  cases hscan : scanSector (readVerdict name) (m.disk lba) with
  | more => exact ⟨rfl, .none⟩
  | stopped => exact ⟨rfl, .some (.nil max)⟩
  | found i =>
    rw [Prog.wpAt_bind]
    have hin := hP.file _ (hl.firstHit hscan)
    rw [← Mem.fetch_disk m .main lba] at hin
    refine Prog.wpAt_mono (wpAt_readEntry hg hfuel hin) ?_
    rintro out m' ⟨hd, hpre, heq⟩
    exact ⟨hd, .some ⟨hpre, heq⟩⟩

theorem Globals.Valid.clusters_le (hg : g.Valid) (hfuel : 2 ^ 32 ≤ fuel) :
    g.getTotalClusters ≤ fuel := by
  have := hg.clusters
  cases ht : g.fatType <;> simp only [ht] at this <;> omega

theorem wpAt_readFileFromDir (hg : g.Valid) (hfuel : 2 ^ 32 ≤ fuel) {l : List Nat}
    (hl : Chained g m.disk dir l) (hP : Readable g P m.disk name max (dirSectors g dir l)) :
    (readFileFromDir g fuel dir name max).wpAt P (fun out _ =>
      Reads g P m.disk max (firstHit (readVerdict name) m.disk (dirSlots g dir l)) out) m := by
  unfold readFileFromDir
  rw [Prog.wpAt_bind]
  refine Prog.wpAt_mono (wpAt_forDirSectors hg hl (hg.clusters_le hfuel)
    (fun lba hr => readBody_decides hg hfuel hP hr) rfl) ?_
  rintro r m' ⟨_, hr⟩
  unfold firstHit dirSlots
  rw [← findSome?_scanSector]
  rcases hr with hr | ⟨⟨lba, hf⟩, rfl⟩
  · unfold readScan at hr
    generalize (dirSectors g dir l).findSome? _ = found at hr ⊢
    cases hr with
    | none => exact .nil max
    | some h => exact h
  · exact ⟨List.nil_prefix, fun hno => absurd hf (hno lba)⟩

end Fat16
end MiniDos
