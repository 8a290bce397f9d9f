import MiniDos.Lib.Orbit
import MiniDos.Fat.Boot
import MiniDos.Fat.Confine
import MiniDos.Fat.Entries

/-!
# MiniDos.Fat.Allocator

Allocation and freeing on any table contents: free clusters anywhere, chains that are cyclic, linked
to themselves or to each other.

* `AllocExact`, `FreeExact`: what the two calls are for.
* `Acts`: the driver's writes act like those on a table with room for every entry.
* `allocator_exact_iff`: the mounted volumes on which both calls are exact.
-/

namespace MiniDos
namespace Fat16

open BlockIO Walk

variable {g h : Globals} {m : DriverMem}
variable {c : Nat} {d d' : Disk}

/-! ## What the calls are for -/

/-- No entry is changed but those of `X`: none of the volume's as the driver reads them, and none
that lies inside a copy. -/
def EntriesKept (g : Globals) (X : Nat → Prop) (d d' : Disk) : Prop :=
  (∀ c ≤ g.getTotalClusters + 1, ¬ X c → fatGet g d' c = fatGet g d c) ∧
    ∀ k < g.bpb.fatCount, ∀ c, g.inTable c → ¬ X c →
      fatValue g.fatType d' (g.copyStart k) c = fatValue g.fatType d (g.copyStart k) c

/-- Nothing is free, or the lowest free cluster was marked. -/
inductive AllocEnd (g : Globals) (d d' : Disk) : Option Nat → Prop where
  | full (hfull : ∀ c, g.isDataCluster c = true → fatGet g d c ≠ 0) (hd : d' = d) :
      AllocEnd g d d' none
  | took {c : Nat} (hc : g.isDataCluster c = true) (hfree : fatGet g d c = 0)
      (hlow : ∀ c', g.isDataCluster c' = true → c' < c → fatGet g d c' ≠ 0)
      (hmark : fatGet g d' c = g.endOfChainValue) (hkept : EntriesKept g (· = c) d d') :
      AllocEnd g d d' (some c)

def AllocExact (g : Globals) : Prop :=
  ∀ m : DriverMem, ∃ r m', (allocCluster g).run noFaults m = some (r, m') ∧
    AllocEnd g m.disk m'.disk r

/-- The data clusters reached by following the entries of the table. -/
abbrev Reached (g : Globals) (d : Disk) (start : Nat) : Nat → Prop :=
  Orbit (fatGet g d) (fun c => g.isDataCluster c = true) start

def FreeExact (g : Globals) : Prop :=
  ∀ (start : UInt16) (m : DriverMem), ∃ ok m',
    (freeClusterChain g start.toNat).run noFaults m = some (ok, m') ∧
      (∀ c, Reached g m.disk start.toNat c → fatGet g m'.disk c = 0) ∧
      EntriesKept g (Reached g m.disk start.toNat) m.disk m'.disk

/-! ## Tables with room -/

/-- On the table `h`, which has room for every entry of the volume, the driver's writes are single
updates. -/
structure Acts (g h : Globals) : Prop where
  fatType : h.fatType = g.fatType
  base : h.bpb.reservedSectors = g.bpb.reservedSectors
  copies : 0 < h.bpb.fatCount
  inTable : ∀ c ≤ g.getTotalClusters + 1, h.inTable c
  covers : ∀ k < g.bpb.fatCount, ∀ c, g.inTable c →
    k < h.bpb.fatCount ∧ h.copyStart k = g.copyStart k ∧ h.inTable c
  write : ∀ c v, g.isDataCluster c = true → v < 16 ^ g.fatType.width → ∀ m : DriverMem,
    (writeFatEntry g c v).wp (.total fun _ => True)
      (fun ok m' => ok = true ∧ m'.disk = fatPut h c v m.disk) m

theorem acts_of_room (hcopies : 0 < g.bpb.fatCount)
    (hroom : g.fatType.width * (g.getTotalClusters + 2) ≤ 1024 * g.bpb.sectorsPerFat) :
    Acts g g := by
  have hin : ∀ c ≤ g.getTotalClusters + 1, g.inTable c := by
    intro c hc
    have := Nat.mul_le_mul_left g.fatType.width (show c + 1 ≤ g.getTotalClusters + 2 by omega)
    rw [Nat.mul_add, Nat.mul_one] at this
    unfold Globals.inTable
    omega
  refine ⟨rfl, rfl, hcopies, hin, fun k hk c hc => ⟨hk, rfl, hc⟩, fun c v hc hv m => ?_⟩
  refine Prog.wp_mono (wp_writeFatEntry (hin c (isDataCluster_iff.mp hc).2) hv
    (fun _ _ => trivial)) (fun ok m' ho => ?_)
  cases ok with
  | true => exact ⟨rfl, ho.done rfl⟩
  | false => exact absurd (ho.failed rfl).faulty (Ctx.total_not_faulty _)

theorem acts_of_single (hcopies : g.bpb.fatCount = 1) (hsmall : g.getTotalClusters < 65525) :
    Acts g (g.flat 0) := by
  have hstart : (g.flat 0).bpb.reservedSectors = g.bpb.reservedSectors := copyStart_zero g
  refine ⟨rfl, hstart, Nat.zero_lt_one, fun c hc => inTable_flat 0 (by omega), ?_, ?_⟩
  · intro k hk c hc
    obtain rfl : k = 0 := by omega
    refine ⟨Nat.zero_lt_one, copyStart_flat g 0, ?_⟩
    unfold Globals.inTable at hc ⊢
    show _ ≤ 1024 * (g.bpb.sectorsPerFat + 256)
    exact Nat.le_trans hc (by omega)
  · intro c v hc hv m
    have hlt : c < 65536 := by
      have := (isDataCluster_iff.mp hc).2
      omega
    unfold writeFatEntry
    rw [hcopies]
    unfold writeFatCopies writeFatCopies
    rw [Prog.wp_bind]
    refine Prog.wp_mono (wp_writeFatCopy_flat 0 hlt hv m) ?_
    rintro ok m' ⟨rfl, hd⟩
    exact ⟨rfl, hd⟩

namespace Acts

variable (ha : Acts g h)
include ha

theorem fatGet_eq (d : Disk) (c : Nat) : fatGet h d c = fatGet g d c := by
  unfold fatGet
  rw [ha.fatType, ha.base]

theorem fatGet_kept {X : Nat → Prop} (ht : Touches h X (fun _ => False) d d')
    (hc : c ≤ g.getTotalClusters + 1) (hX : ¬ X c) : fatGet g d' c = fatGet g d c := by
  have hv := ht.fatValue_eq ha.copies (ha.inTable c hc) hX
  rw [copyStart_zero] at hv
  rw [← ha.fatGet_eq, ← ha.fatGet_eq]
  exact hv

theorem entriesKept {X : Nat → Prop} (ht : Touches h X (fun _ => False) d d') :
    EntriesKept g X d d' := by
  refine ⟨fun c hc hX => ha.fatGet_kept ht hc hX, fun k hk c hc hX => ?_⟩
  obtain ⟨hk', hstart, hc'⟩ := ha.covers k hk c hc
  have hv := ht.fatValue_eq hk' hc' hX
  rwa [hstart, ha.fatType] at hv

theorem fatGet_put {c v : Nat} (hc : g.isDataCluster c = true) (hv : v < 16 ^ g.fatType.width)
    (d : Disk) : fatGet g (fatPut h c v d) c = v := by
  have hself := fatValue_fatPut_self ha.copies (ha.inTable c (isDataCluster_iff.mp hc).2)
    (ha.fatType.symm ▸ hv) d
  rw [copyStart_zero] at hself
  rw [← ha.fatGet_eq]
  exact hself

end Acts

/-! ## Allocation -/

theorem wp_readFatEntry_total (c : Nat) (m : DriverMem) :
    (readFatEntry g c).wp (.total fun _ => True)
      (fun v m' => m'.disk = m.disk ∧ v = fatGet g m.disk c) m := by
  refine Prog.wp_mono (wp_readFatEntry c) ?_
  rintro v m' ⟨hd, _, hv | ⟨hf, _⟩⟩
  · exact ⟨hd, hv⟩
  · exact absurd hf.faulty (Ctx.total_not_faulty _)

/-- The scan finds the lowest free cluster, and writes its entry. -/
theorem wp_allocFrom_scan (hsmall : g.getTotalClusters < 65525) {d : Disk}
    {R : Nat → Disk → Prop} (hwrite : ∀ c, g.isDataCluster c = true → fatGet g d c = 0 →
      ∀ m : DriverMem, m.disk = d → (writeFatEntry g c g.endOfChainValue).wp (.total fun _ => True)
        (fun ok m' => ok = true ∧ R c m'.disk) m) :
    ∀ (n c : Nat) (m : DriverMem), 2 ≤ c → c + n = g.getTotalClusters + 2 → m.disk = d →
      (∀ c', g.isDataCluster c' = true → c' < c → fatGet g d c' ≠ 0) →
      (allocFrom g n c).wp (.total fun _ => True) (fun r m' =>
        (r = none ∧ (∀ c', g.isDataCluster c' = true → fatGet g d c' ≠ 0) ∧ m'.disk = d) ∨
        ∃ c₀, r = some c₀ ∧ g.isDataCluster c₀ = true ∧ fatGet g d c₀ = 0 ∧
          (∀ c', g.isDataCluster c' = true → c' < c₀ → fatGet g d c' ≠ 0) ∧ R c₀ m'.disk) m := by
  intro n
  induction n with
  | zero =>
    intro c m _ hn hd hlow
    refine .inl ⟨rfl, fun c' hc' => hlow c' hc' ?_, hd⟩
    have := (isDataCluster_iff.mp hc').2
    omega
  | succ n ih =>
    intro c m h2 hn hd hlow
    have hc : g.isDataCluster c = true := isDataCluster_iff.mpr ⟨h2, by omega⟩
    have hmod : c % 65536 = c := Nat.mod_eq_of_lt (by omega)
    unfold allocFrom
    rw [Prog.wp_bind, hmod]
    refine Prog.wp_mono (wp_readFatEntry_total c m) ?_
    rintro v m' ⟨hd', rfl⟩
    rw [hd] at hd' ⊢
    by_cases hz : fatGet g d c = 0
    · rw [if_pos hz, Prog.wp_bind]
      refine Prog.wp_mono (hwrite c hc hz m' hd') ?_
      rintro ok m'' ⟨rfl, hR⟩
      exact .inr ⟨c, rfl, hc, hz, hlow, hR⟩
    · rw [if_neg hz]
      refine ih (c + 1) m' (by omega) (by omega) hd' (fun c' hc' hlt => ?_)
      rcases Nat.lt_or_eq_of_le (Nat.le_of_lt_succ hlt) with hlt | rfl
      · exact hlow c' hc' hlt
      · exact hz

theorem Acts.allocExact (ha : Acts g h) (hsmall : g.getTotalClusters < 65525) : AllocExact g := by
  intro m
  have hlow : ∀ c', g.isDataCluster c' = true → c' < 2 → fatGet g m.disk c' ≠ 0 := by
    intro c' hc' hlt
    have := (isDataCluster_iff.mp hc').1
    omega
  have hscan := wp_allocFrom_scan (g := g) hsmall (d := m.disk)
    (R := fun c d' => d' = fatPut h c g.endOfChainValue m.disk)
    (fun c hc _ m₁ hm₁ => hm₁ ▸ ha.write c g.endOfChainValue hc (endOfChain_lt g) m₁)
    g.getTotalClusters 2 m (Nat.le_refl 2) (by omega) rfl hlow
  obtain ⟨r, m', hrun, hend⟩ := Prog.exists_run hscan
  refine ⟨r, m', hrun, ?_⟩
  rcases hend with ⟨rfl, hfull, hd⟩ | ⟨c, rfl, hc, hfree, hlow, hd⟩
  · exact .full hfull hd
  · refine .took hc hfree hlow ?_ ?_
    · rw [hd]
      exact ha.fatGet_put hc (endOfChain_lt g) m.disk
    · rw [hd]
      exact ha.entriesKept (fatPut_touches h c _ m.disk)

/-! ## Freeing -/

/-- What the loop has done when it has freed `l`. -/
structure Cleared (g h : Globals) (l : List Nat) (d d' : Disk) : Prop where
  free : ∀ c ∈ l, fatGet g d' c = 0
  touches : Touches h (· ∈ l) (fun _ => False) d d'

theorem Cleared.put (ha : Acts g h) {l : List Nat} (hl : Cleared g h l d d')
    (hc : g.isDataCluster c = true) (hdata : ∀ x ∈ l, g.isDataCluster x = true) :
    Cleared g h (c :: l) d (fatPut h c 0 d') := by
  have hput := fatPut_touches h c 0 d'
  refine ⟨fun x hx => ?_, ?_⟩
  · by_cases he : x = c
    · subst he
      exact ha.fatGet_put hc (Nat.pow_pos (by decide)) d'
    · have hx := (List.mem_cons.mp hx).resolve_left he
      rw [ha.fatGet_kept hput (isDataCluster_iff.mp (hdata x hx)).2 he]
      exact hl.free x hx
  · refine (hl.touches.mono (fun x hx => List.mem_cons_of_mem _ hx) (fun _ hs => hs)).trans ?_
    exact hput.mono (fun x hx => hx ▸ List.mem_cons_self) (fun _ hs => hs)

theorem freeLoop_stop (hc : ¬ g.isDataCluster c = true) (n : Nat) :
    freeLoop g n c = pure true := by
  cases n with
  | zero => rfl
  | succ n =>
    unfold freeLoop
    exact if_neg hc

/-- The walk reads its own zeros only where it meets itself, and stops behind them. -/
theorem wp_freeLoop_any (ha : Acts g h) {d : Disk} {start : Nat} :
    ∀ (n c : Nat) (l : List Nat) (m : DriverMem),
      Walk.Trail (fatGet g d) (fun x => g.isDataCluster x = true) start l c → Cleared g h l d m.disk →
      g.getTotalClusters + 2 ≤ l.length + n →
      (freeLoop g n c).wp (.total fun _ => True) (fun _ m' => ∃ l',
        (∀ x, Reached g d start x ↔ x ∈ l') ∧ Cleared g h l' d m'.disk) m := by
  intro n
  induction n with
  | zero =>
    intro c l m ht _ hn
    have := length_le_of_nodup ht.nodup (fun x hx => (ht.passed x hx).isNode)
    omega
  | succ n ih =>
    intro c l m ht hl hn
    have hdata : ∀ x ∈ l, g.isDataCluster x = true := fun x hx => (ht.passed x hx).isNode
    unfold freeLoop
    by_cases hc : g.isDataCluster c = true
    case neg =>
      rw [if_neg hc]
      exact ⟨l, fun x => ht.orbit_iff (fun hc' => absurd hc' hc), hl⟩
    rw [if_pos hc, Prog.wp_bind]
    refine Prog.wp_mono (wp_readFatEntry_total c m) ?_
    rintro v m' ⟨hd', rfl⟩
    rw [Prog.wp_bind]
    refine Prog.wp_mono (ha.write c 0 hc (Nat.pow_pos (by decide)) m') ?_
    rintro ok m'' ⟨rfl, hd''⟩
    rw [hd'] at hd''
    rw [if_pos rfl]
    have hput := hl.put ha hc hdata
    rw [← hd''] at hput
    by_cases hmem : c ∈ l
    · -- the walk has met itself and reads the zero it wrote
      have hsame : ∀ x, x ∈ c :: l ↔ x ∈ l := fun x =>
        ⟨fun hx => (List.mem_cons.mp hx).elim (fun he => he ▸ hmem) id, List.mem_cons_of_mem _⟩
      have hend : Cleared g h l d m''.disk :=
        ⟨fun x hx => hput.free x ((hsame x).mpr hx),
          hput.touches.mono (fun x hx => (hsame x).mp hx) (fun _ hs => hs)⟩
      have hne : ¬ 0 = c := by
        rintro rfl
        rw [zero_not_data] at hc
        cases hc
      rw [hl.free c hmem, if_neg hne]
      rw [freeLoop_stop (by rw [zero_not_data]; decide)]
      exact ⟨l, fun x => ht.orbit_iff (fun _ => hmem), hend⟩
    · have hread : fatGet g m.disk c = fatGet g d c :=
        ha.fatGet_kept hl.touches (isDataCluster_iff.mp hc).2 hmem
      have hstep := ht.step hc hmem
      rw [hread]
      by_cases hself : fatGet g d c = c
      · rw [if_pos hself]
        refine ⟨c :: l, fun x => hstep.orbit_iff (fun _ => ?_), hput⟩
        rw [hself]
        exact List.mem_cons_self
      · rw [if_neg hself]
        exact ih _ (c :: l) m'' hstep hput (by rw [List.length_cons]; omega)

theorem Acts.freeExact (ha : Acts g h) : FreeExact g := by
  intro start m
  unfold freeClusterChain
  by_cases hlow : start.toNat < 2
  · rw [if_pos hlow]
    have hnone : ∀ c, ¬ Reached g m.disk start.toNat c := by
      intro c hc
      refine hc.of_closed (S := fun _ => False) (fun hs => ?_) (fun _ hs _ => hs)
      have := (isDataCluster_iff.mp hs).1
      omega
    exact ⟨false, m, rfl, fun c hc => absurd hc (hnone c), fun _ _ _ => rfl, fun _ _ _ _ _ => rfl⟩
  · rw [if_neg hlow]
    have hstart : Walk.Trail (fatGet g m.disk) (fun x => g.isDataCluster x = true) start.toNat []
      start.toNat := .refl
    have hloop := wp_freeLoop_any ha (g.getTotalClusters + 2) start.toNat [] m hstart
      ⟨fun _ hc => (nomatch hc), .refl⟩ (by rw [List.length_nil]; omega)
    obtain ⟨ok, m', hrun, l, hl, hend⟩ := Prog.exists_run hloop
    refine ⟨ok, m', hrun, fun c hc => hend.free c ((hl c).mp hc), ?_⟩
    exact ha.entriesKept (hend.touches.mono (fun x hx => (hl x).mpr hx) (fun _ hs => hs))

/-! ## Volumes without clusters -/

theorem no_data_of_no_cluster (hzero : g.getTotalClusters = 0) (c : Nat) :
    ¬ g.isDataCluster c = true := by
  rw [isDataCluster_iff]
  omega

theorem allocExact_of_no_cluster (hzero : g.getTotalClusters = 0) : AllocExact g := by
  intro m
  refine ⟨none, m, ?_, .full (fun c hc => absurd hc (no_data_of_no_cluster hzero c)) rfl⟩
  unfold allocCluster
  rw [hzero]
  rfl

theorem freeExact_of_no_cluster (hzero : g.getTotalClusters = 0) : FreeExact g := by
  intro start m
  have hnone : ∀ c, ¬ Reached g m.disk start.toNat c :=
    fun c hc => no_data_of_no_cluster hzero c hc.isNode
  have hstay : ∃ ok, (freeClusterChain g start.toNat).run noFaults m = some (ok, m) := by
    unfold freeClusterChain
    by_cases hlow : start.toNat < 2
    · rw [if_pos hlow]
      exact ⟨false, rfl⟩
    · rw [if_neg hlow, freeLoop_stop (no_data_of_no_cluster hzero _)]
      exact ⟨true, rfl⟩
  obtain ⟨ok, hrun⟩ := hstay
  exact ⟨ok, m, hrun, fun c hc => absurd hc (hnone c), fun _ _ _ => rfl, fun _ _ _ _ _ => rfl⟩

/-! ## Tables without room -/

theorem width_pos (t : FatType) : 0 < t.width := by cases t <;> decide

theorem width_le (t : FatType) : t.width ≤ 4 := by cases t <;> decide

theorem digit_endOfChain {i : Nat} (hi : i < g.fatType.width) : digit g.endOfChainValue i = 15 := by
  unfold Globals.endOfChainValue
  cases ht : g.fatType with
  | fat12 =>
    rw [ht] at hi
    obtain rfl | rfl | rfl : i = 0 ∨ i = 1 ∨ i = 2 := by simp only [FatType.width] at hi; omega
    all_goals rfl
  | fat16 =>
    rw [ht] at hi
    obtain rfl | rfl | rfl | rfl : i = 0 ∨ i = 1 ∨ i = 2 ∨ i = 3 := by
      simp only [FatType.width] at hi; omega
    all_goals rfl

/-- The place of nibble `i` of entry `c` of copy `k`, counted from the start of the table. -/
def Globals.place (g : Globals) (k c i : Nat) : Nat :=
  1024 * (k * g.bpb.sectorsPerFat) + (g.fatType.width * c + i)

/-- The nibbles of entry `c` are all ones where the first `n` copies have them. -/
def Marked (g : Globals) (n c : Nat) (d : Disk) : Prop :=
  ∀ k < n, ∀ i < g.fatType.width, g.place k c i < 1024 * 256 →
    nib d g.bpb.reservedSectors (g.place k c i) = 15

theorem Marked.put {k c : Nat} {d : Disk} (hm : Marked g k c d) :
    Marked g (k + 1) c (fatPut (g.flat k) c g.endOfChainValue d) := by
  intro k' hk' i hi hq
  rw [nib_fatPut_flat hq]
  by_cases hle : 1024 * (k * g.bpb.sectorsPerFat) ≤ g.place k' c i
  · rw [if_pos hle, patchNib]
    by_cases hin : (g.place k' c i - 1024 * (k * g.bpb.sectorsPerFat)) / g.fatType.width = c
    · rw [if_pos hin, digit_endOfChain (Nat.mod_lt _ (width_pos _))]
    · rw [if_neg hin]
      rcases Nat.lt_or_eq_of_le (Nat.le_of_lt_succ hk') with hlt | rfl
      · exact hm k' hlt i hi hq
      · refine absurd ?_ hin
        rw [Globals.place, Nat.add_sub_cancel_left, Nat.mul_add_div (width_pos _),
          Nat.div_eq_of_lt hi, Nat.add_zero]
  · rw [if_neg hle]
    rcases Nat.lt_or_eq_of_le (Nat.le_of_lt_succ hk') with hlt | rfl
    · exact hm k' hlt i hi hq
    · exact absurd (Nat.le_add_right _ _) hle

theorem wp_writeFatCopies_marked (hc : c < 65536) : ∀ (n k : Nat) (m : DriverMem),
    k + n = g.bpb.fatCount → Marked g k c m.disk →
    (writeFatCopies g c g.endOfChainValue n k).wp (.total fun _ => True)
      (fun ok m' => ok = true ∧ Marked g g.bpb.fatCount c m'.disk) m := by
  intro n
  induction n with
  | zero =>
    intro k m hk hm
    obtain rfl : k = g.bpb.fatCount := by omega
    exact ⟨rfl, hm⟩
  | succ n ih =>
    intro k m hk hm
    unfold writeFatCopies
    rw [Prog.wp_bind]
    refine Prog.wp_mono (wp_writeFatCopy_flat k hc (endOfChain_lt g) m) ?_
    rintro ok m' ⟨rfl, hd⟩
    exact ih (k + 1) m' (by omega) (hd ▸ hm.put)

def oneFree (g : Globals) (c : Nat) : Disk := fatPut (g.flat 0) c 0 (fun _ _ => 0x11)

theorem nib_oneFree (c : Nat) {q : Nat} (hq : q < 1024 * 256) :
    nib (oneFree g c) g.bpb.reservedSectors q = if q / g.fatType.width = c then 0 else 1 := by
  have hfill : nib (fun _ _ => 0x11) g.bpb.reservedSectors q = 1 := by
    have hbyte : fatByte (fun _ _ => 0x11) g.bpb.reservedSectors (q / 2) = 17 := rfl
    unfold nib
    rw [hbyte]
    split <;> rfl
  have hzero : ∀ i, digit 0 i = 0 := by
    intro i
    unfold digit
    split <;> rfl
  rw [oneFree, nib_fatPut_flat hq, hfill, Nat.zero_mul, Nat.mul_zero, if_pos (Nat.zero_le q),
    Nat.sub_zero, patchNib, hzero]

theorem fatGet_oneFree (c : Nat) {c' : Nat} (hc' : c' < 65536) :
    fatGet g (oneFree g c) c' = 0 ↔ c' = c := by
  have hnib : ∀ i < g.fatType.width,
      nib (oneFree g c) g.bpb.reservedSectors (g.fatType.width * c' + i) = if c' = c then 0 else 1 := by
    intro i hi
    have hle := width_le g.fatType
    have hmul : g.fatType.width * c' ≤ 4 * 65535 := Nat.mul_le_mul hle (by omega)
    rw [nib_oneFree c (by omega), Nat.mul_add_div (by omega), Nat.div_eq_of_lt hi, Nat.add_zero]
  unfold fatGet
  cases ht : g.fatType with
  | fat12 =>
    simp only [ht, FatType.width] at hnib
    have h0 := hnib 0 (by omega)
    rw [Nat.add_zero] at h0
    simp only [fatValue, h0, hnib 1 (by omega), hnib 2 (by omega)]
    split <;> simp [*]
  | fat16 =>
    simp only [ht, FatType.width] at hnib
    have h0 := hnib 0 (by omega)
    rw [Nat.add_zero] at h0
    simp only [fatValue, h0, hnib 1 (by omega), hnib 2 (by omega), hnib 3 (by omega)]
    split <;> simp [*]

theorem AllocExact.oneFree (hex : AllocExact g) (hsmall : g.getTotalClusters < 65525)
    (hc : g.isDataCluster c = true) {R : Disk → Prop}
    (hwrite : ∀ m : DriverMem, m.disk = oneFree g c →
      (writeFatEntry g c g.endOfChainValue).wp (.total fun _ => True)
        (fun ok m' => ok = true ∧ R m'.disk) m) :
    ∃ d', R d' ∧ fatGet g d' c = g.endOfChainValue ∧ EntriesKept g (· = c) (oneFree g c) d' := by
  have hzero : ∀ c', g.isDataCluster c' = true → fatGet g (Fat16.oneFree g c) c' = 0 → c' = c := by
    intro c' hc' hfree
    have := (isDataCluster_iff.mp hc').2
    exact (fatGet_oneFree c (by omega)).mp hfree
  have hfree : fatGet g (Fat16.oneFree g c) c = 0 := by
    have := (isDataCluster_iff.mp hc).2
    exact (fatGet_oneFree c (by omega)).mpr rfl
  let m : DriverMem := { buf := fun _ => Sector.zero, disk := Fat16.oneFree g c }
  have hlow : ∀ c', g.isDataCluster c' = true → c' < 2 → fatGet g m.disk c' ≠ 0 := by
    intro c' hc' hlt
    have := (isDataCluster_iff.mp hc').1
    omega
  have hscan := wp_allocFrom_scan (g := g) hsmall (d := m.disk) (R := fun _ => R)
    (fun c' hc' hf m₁ hm₁ => hzero c' hc' hf ▸ hwrite m₁ hm₁)
    g.getTotalClusters 2 m (Nat.le_refl 2) (by omega) rfl hlow
  obtain ⟨r, m', hrun, hend⟩ := hex m
  rcases (Prog.run_of_wp noFaults (fun _ hf => by cases hf) hscan).1 r m' hrun with
    ⟨_, hfull, _⟩ | ⟨c', rfl, hc', hf, _, hR⟩
  · exact absurd hfree (hfull c hc)
  · obtain rfl := hzero c' hc' hf
    cases hend with
    | took _ _ _ hmark hkept => exact ⟨m'.disk, hR, hmark, hkept⟩

theorem not_allocExact_of_no_copy (hsmall : g.getTotalClusters < 65525)
    (hpos : 0 < g.getTotalClusters) (hcount : g.bpb.fatCount = 0) : ¬ AllocExact g := by
  intro hex
  obtain ⟨d', rfl, hmark, _⟩ := hex.oneFree hsmall (c := 2) (isDataCluster_iff.mpr ⟨by omega, by omega⟩)
    (R := (· = oneFree g 2)) (fun m hm => by
      unfold writeFatEntry
      rw [hcount]
      exact ⟨rfl, hm⟩)
  rw [(fatGet_oneFree 2 (by omega)).mpr rfl] at hmark
  exact endMark_ne_zero (endOfChain_isEndMark g) hmark.symm

/-- With two copies and no room, some copy's entry lies on another one. -/
theorem not_allocExact_of_overlap (hsmall : g.getTotalClusters < 65525)
    (hpos : 0 < g.getTotalClusters) (hcount : 2 ≤ g.bpb.fatCount) (hspf : 0 < g.bpb.sectorsPerFat)
    (hroom : 1024 * g.bpb.sectorsPerFat < g.fatType.width * (g.getTotalClusters + 2)) :
    ¬ AllocExact g := by
  intro hex
  have hw := width_pos g.fatType
  have hw4 := width_le g.fatType
  have hbound : g.fatType.width * (g.getTotalClusters + 2) ≤ 4 * 65526 := Nat.mul_le_mul hw4 (by omega)
  have hmarks : ∀ c < 65536, ∀ m : DriverMem, m.disk = oneFree g c →
      (writeFatEntry g c g.endOfChainValue).wp (.total fun _ => True)
        (fun ok m' => ok = true ∧ Marked g g.bpb.fatCount c m'.disk) m :=
    fun c hc m _ => wp_writeFatCopies_marked hc g.bpb.fatCount 0 m (by omega) (fun k hk => by omega)
  by_cases hmost : g.fatType.width * g.getTotalClusters ≤ 1024 * g.bpb.sectorsPerFat
  · -- the last entry of the first copy reaches into the second one
    obtain ⟨d', hmark, _, _, hkept⟩ := hex.oneFree hsmall (c := g.getTotalClusters + 1)
      (isDataCluster_iff.mpr ⟨by omega, Nat.le_refl _⟩) (hmarks _ (by omega))
    rw [Nat.mul_add] at hroom hbound
    have hq : g.place 0 (g.getTotalClusters + 1) (g.fatType.width - 1) =
        g.fatType.width * g.getTotalClusters + (2 * g.fatType.width - 1) := by
      rw [Globals.place, Nat.zero_mul, Nat.mul_zero, Nat.mul_add]
      omega
    have hnew := hmark 0 (by omega) (g.fatType.width - 1) (by omega) (by omega)
    have hold := nib_oneFree (g := g) (g.getTotalClusters + 1)
      (q := g.place 0 (g.getTotalClusters + 1) (g.fatType.width - 1)) (by omega)
    rw [if_pos (by
      rw [Globals.place, Nat.zero_mul, Nat.mul_zero, Nat.zero_add, Nat.mul_add_div hw,
        Nat.div_eq_of_lt (by omega), Nat.add_zero])] at hold
    generalize hgap : g.fatType.width * g.getTotalClusters + (2 * g.fatType.width - 1) -
      1024 * g.bpb.sectorsPerFat = gap at *
    have hgapLt : gap < g.fatType.width * 2 := by omega
    have hentry : gap / g.fatType.width < 2 := Nat.div_lt_of_lt_mul hgapLt
    have hin : g.inTable (gap / g.fatType.width) := by
      have := Nat.mul_le_mul_left g.fatType.width (show gap / g.fatType.width ≤ 1 by omega)
      unfold Globals.inTable
      omega
    have hsame := nib_of_fatValue_eq (hkept 1 (by omega) _ hin (by omega)) (Nat.mod_lt gap hw)
    rw [Nat.div_add_mod, nib_copyStart, nib_copyStart, Nat.one_mul,
      show 1024 * g.bpb.sectorsPerFat + gap =
        g.place 0 (g.getTotalClusters + 1) (g.fatType.width - 1) by omega, hnew, hold] at hsame
    omega
  · -- the first data entry of the second copy is a later one of the first
    obtain ⟨d', hmark, _, hkept, _⟩ := hex.oneFree hsmall (c := 2)
      (isDataCluster_iff.mpr ⟨Nat.le_refl 2, by omega⟩) (hmarks 2 (by omega))
    have hq : g.place 1 2 0 = 1024 * g.bpb.sectorsPerFat + g.fatType.width * 2 := by
      rw [Globals.place, Nat.one_mul, Nat.add_zero]
    rw [Nat.mul_add] at hroom hbound
    have hnew := hmark 1 (by omega) 0 hw (by omega)
    rw [hq] at hnew
    generalize hplace : 1024 * g.bpb.sectorsPerFat + g.fatType.width * 2 = q at *
    have hentry : q / g.fatType.width < g.getTotalClusters + 2 := by
      refine Nat.div_lt_of_lt_mul ?_
      rw [Nat.mul_add]
      omega
    have hother : q / g.fatType.width ≠ 2 := by
      have : 3 ≤ q / g.fatType.width := (Nat.le_div_iff_mul_le hw).mpr (by omega)
      omega
    have hold := nib_oneFree (g := g) 2 (q := q) (by omega)
    rw [if_neg hother] at hold
    have hsame := nib_of_fatValue_eq (hkept _ (by omega) hother) (Nat.mod_lt q hw)
    rw [Nat.div_add_mod, hnew, hold] at hsame
    omega

/-- The mounted volumes on which allocation and freeing are exact for every contents of the table:
those without clusters, those with one copy, and those whose copies have room for every entry. -/
theorem allocator_exact_iff {g₀ : Globals} {s : Sector} (hmount : fat16Init .cpu g₀ s = some (g, true)) :
    (AllocExact g ∧ FreeExact g) ↔
      g.getTotalClusters = 0 ∨ g.bpb.fatCount = 1 ∨
        (2 ≤ g.bpb.fatCount ∧
          g.fatType.width * (g.getTotalClusters + 2) ≤ 1024 * g.bpb.sectorsPerFat) := by
  have hsmall := (mounted_of_init hmount).clusters
  have hs : Signed s := by
    by_contra hs
    simp [fat16Init, hs] at hmount
  obtain ⟨_, ⟨_, hspf, _⟩, _⟩ := fat16Init_accepted hs g₀ hmount
  constructor
  · rintro ⟨halloc, _⟩
    by_contra hno
    simp only [not_or, not_and, Nat.not_le] at hno
    obtain ⟨hpos, hone, hroom⟩ := hno
    rcases Nat.lt_or_ge g.bpb.fatCount 2 with hlt | hge
    · exact not_allocExact_of_no_copy hsmall (by omega) (by omega) halloc
    · exact not_allocExact_of_overlap hsmall (by omega) hge (by omega) (hroom hge) halloc
  · rintro (hzero | hone | ⟨htwo, hroom⟩)
    · exact ⟨allocExact_of_no_cluster hzero, freeExact_of_no_cluster hzero⟩
    · have ha := acts_of_single hone hsmall
      exact ⟨ha.allocExact hsmall, ha.freeExact⟩
    · have ha := acts_of_room (by omega) hroom
      exact ⟨ha.allocExact hsmall, ha.freeExact⟩

theorem allocator_exact_small : ∃ g : Globals,
    fat16Init .cpu smallVolume (bootSector 1) = some (g, true) ∧ AllocExact g ∧ FreeExact g := by
  have hmount : fat16Init .cpu smallVolume (bootSector 1) =
      some (⟨Bpb.ofSector (bootSector 1), .fat12⟩, true) := by decide
  exact ⟨_, hmount, (allocator_exact_iff hmount).mpr (.inr (.inr ⟨by decide, by decide⟩))⟩

def crowdedSector : Sector := ((bootSector 1).set 19 0x94).set 20 0x01

def crowdedVolume : Globals := ⟨Bpb.ofSector crowdedSector, .fat12⟩

/-- Marking the free cluster 2 in the second copy changes the entry of cluster 343. -/
theorem alloc_changes_other_entry :
    detectFatType .cpu crowdedSector = some 0x01 ∧
    fat16Init .cpu smallVolume crowdedSector = some (crowdedVolume, true) ∧
    crowdedVolume.isDataCluster 343 = true ∧ fatGet crowdedVolume (oneFree crowdedVolume 2) 343 = 0x111 ∧
    ((allocCluster crowdedVolume).run noFaults
        { buf := fun _ => Sector.zero, disk := oneFree crowdedVolume 2 }).map
      (fun r => (r.1, fatGet crowdedVolume r.2.disk 343)) = some (some 2, 0xFF1) := by
  decide +kernel

end Fat16
end MiniDos
