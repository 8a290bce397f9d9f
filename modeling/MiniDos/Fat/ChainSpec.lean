import Mathlib.Data.List.Perm.Subperm
import MiniDos.Lib.Chain
import MiniDos.Fat.TableSpec

/-!
# MiniDos.Fat.ChainSpec

Cluster chains in the table, and what the driver does along them.

* `ChainOf`: the chain of a file or directory, which ends in an end mark.
* `wp_freeClusterChain`: a chain is freed, node by node; nothing but its own entries is touched.
* `wp_zeroCluster`: a cluster is filled with zero sectors.
* `wp_whileDataCluster`: a read-only loop over the sectors of a chain is a search in their list.
-/

namespace MiniDos
namespace Fat16

open BlockIO Chain

variable {ctx : Ctx Buffer Sector} {g : Globals} {m : DriverMem}
variable {c : Nat} {l : List Nat} {d : Disk}

/-! ## Chains of the table -/

/-- The clusters from `c` on, to a value that is not a data cluster. -/
def ChainFrom (g : Globals) (d : Disk) (c : Nat) (l : List Nat) : Prop :=
  IsChain (fatGet g d) (fun x => g.isDataCluster x = true) (fun v => g.isDataCluster v = false) c l

/-- The clusters from `c` on, to an end-of-chain mark. -/
def ChainOf (g : Globals) (d : Disk) (c : Nat) (l : List Nat) : Prop :=
  IsChain (fatGet g d) (fun x => g.isDataCluster x = true) g.isEndMark c l

theorem data_not_stop (x : Nat) (h : g.isDataCluster x = true) :
    ¬ g.isDataCluster x = false := by simp [h]

theorem ChainOf.from (hg : g.Valid) (h : ChainOf g d c l) :
    ChainFrom g d c l :=
  h.mono (fun _ hv => endMark_not_data hg hv)

theorem ChainFrom.nodup (h : ChainFrom g d c l) : l.Nodup :=
  IsChain.nodup data_not_stop h

theorem length_le_of_nodup (hn : l.Nodup)
    (hd : ∀ c ∈ l, g.isDataCluster c = true) : l.length ≤ g.getTotalClusters := by
  have hsub : l ⊆ List.range' 2 g.getTotalClusters := by
    intro c hc
    have := isDataCluster_iff.mp (hd c hc)
    rw [List.mem_range'_1]
    omega
  have := (List.subperm_of_subset hn hsub).length_le
  simpa using this

theorem ChainFrom.length_le (h : ChainFrom g d c l) :
    l.length ≤ g.getTotalClusters :=
  length_le_of_nodup h.nodup h.node_of_mem

theorem Touches.chain_congr {X S : Nat → Prop} {d d' : Disk} (h : Touches g X S d d')
    (hg : g.Valid) (hd : ∀ c ∈ l, g.isDataCluster c = true)
    (hX : ∀ c ∈ l, ¬ X c) : ∀ c ∈ l, fatGet g d' c = fatGet g d c :=
  fun c hc => h.fatGet_eq hg (inTable_of_data hg (hd c hc)) (hX c hc)

theorem ChainOf.touches {X S : Nat → Prop} {d d' : Disk}
    (h : ChainOf g d c l) (hg : g.Valid) (ht : Touches g X S d d') (hX : ∀ c ∈ l, ¬ X c) :
    ChainOf g d' c l :=
  h.congr (ht.chain_congr hg h.node_of_mem hX)

theorem ChainOf.ne_zero (h : ChainOf g d c l) :
    ∀ x ∈ l, fatGet g d x ≠ 0 := by
  induction l generalizing c with
  | nil => intro x hx; cases hx
  | cons y l ih =>
    intro x hx
    rcases List.mem_cons.mp hx with rfl | hx
    · cases l with
      | nil => exact endMark_ne_zero h.2.2
      | cons z l =>
        have hz : fatGet g d x = z := h.2.2.1
        have := (isDataCluster_iff.mp h.2.2.2.1).1
        omega
    · exact ih h.2.2 x hx

/-! ## Freeing -/

def freeAll (g : Globals) : List Nat → Disk → Disk
  | [], d => d
  | c :: l, d => freeAll g l (fatPut g c 0 d)

theorem freeAll_touches (g : Globals) (l : List Nat) (d : Disk) :
    Touches g (fun c => c ∈ l) (fun _ => False) d (freeAll g l d) := by
  induction l generalizing d with
  | nil => exact .refl
  | cons c l ih =>
    refine Touches.trans ?_ ((ih (fatPut g c 0 d)).mono ?_ ?_)
    · exact .of_fatPut rfl List.mem_cons_self
    · exact fun x hx => List.mem_cons_of_mem _ hx
    · exact fun _ h => h

/-- What freeing the chain `l` does from disk `d`. -/
structure Freed (ctx : Ctx Buffer Sector) (g : Globals) (l : List Nat) (d : Disk) (ok : Bool)
    (m : DriverMem) : Prop where
  touches : Touches g (fun c => c ∈ l) (fun _ => False) d m.disk
  failed : ok = false → ctx.Failed m
  exact : ¬ ctx.Faulty → ok = true ∧ m.disk = freeAll g l d
  /-- An entry that lies in one sector has been freed or not. -/
  values : ∀ c ∈ l, g.whole c → fatGet g m.disk c = 0 ∨ fatGet g m.disk c = fatGet g d c

theorem Freed.nil (h : m.disk = d) : Freed ctx g [] d true m :=
  ⟨h ▸ .refl, fun h => absurd h (by decide), fun _ => ⟨rfl, h⟩, fun _ hc => (by cases hc)⟩

theorem freed_head (hg : g.Valid) {d e : Disk} (hc : g.isDataCluster c = true)
    (hb : Between d (fatPut g c 0 d) e) (hw : g.whole c) :
    fatGet g e c = 0 ∨ fatGet g e c = fatGet g d c := by
  rcases hb.fatGet_eq hw with h | h
  · exact .inr h
  · rw [fatGet_fatPut_self hg (inTable_of_data hg hc) (Nat.pow_pos (by decide))] at h
    exact .inl h

theorem freed_tail (hg : g.Valid) {d e : Disk}
    (hl : ∀ x ∈ l, g.isDataCluster x = true) (hcl : c ∉ l)
    (hb : Between d (fatPut g c 0 d) e) : ∀ x ∈ l, fatGet g e x = fatGet g d x :=
  hb.touches.chain_congr hg hl (fun _ hx he => hcl (he ▸ hx))

theorem wp_freeLoop (hg : g.Valid) : ∀ (l : List Nat) (n c : Nat) (m : DriverMem),
    ChainFrom g m.disk c l → l.length ≤ n →
    (∀ e, Touches g (fun x => x ∈ l) (fun _ => False) m.disk e → ctx.inv e) →
    (freeLoop g n c).wp ctx (Freed ctx g l m.disk) m := by
  intro l
  induction l with
  | nil =>
    intro n c m hc _ _
    have hstop : g.isDataCluster c = false := hc
    cases n with
    | zero => exact .nil rfl
    | succ n =>
      unfold freeLoop
      rw [hstop]
      exact .nil rfl
  | cons x l ih =>
    intro n c m hc hn hinv
    have hnd := hc.nodup
    obtain ⟨rfl, hx, hl⟩ := hc
    cases n with
    | zero => simp at hn
    | succ n =>
      have hcl : c ∉ l := (List.nodup_cons.mp hnd).1
      have hput := fatPut_touches g c 0 m.disk
      have hrest : ∀ e, Touches g (fun x => x ∈ l) (fun _ => False) (fatPut g c 0 m.disk) e →
          Touches g (fun x => x ∈ c :: l) (fun _ => False) m.disk e := by
        intro e he
        refine Touches.trans (.of_fatPut (v := 0) rfl List.mem_cons_self) ?_
        exact he.mono (fun y hy => List.mem_cons_of_mem _ hy) (fun _ h => h)
      unfold freeLoop getNextCluster
      simp only [hx, if_true, Prog.wp_bind]
      refine Prog.wp_mono (wp_readFatEntry c) ?_
      rintro v m' ⟨hd', hst, hv⟩
      refine Prog.wp_mono (wp_writeFatEntry (inTable_of_data hg hx) (Nat.pow_pos (by decide)) ?_) ?_
      · intro e he
        rw [hd'] at he
        exact hinv e (.of_between he List.mem_cons_self)
      intro ok m'' ho
      rw [hd'] at ho
      have hnow : ∀ y ∈ c :: l, g.whole y →
          fatGet g m''.disk y = 0 ∨ fatGet g m''.disk y = fatGet g m.disk y := by
        intro y hy hw
        rcases List.mem_cons.mp hy with rfl | hy
        · exact freed_head hg hx ho.between hw
        · exact .inr (freed_tail hg hl.node_of_mem hcl ho.between y hy)
      cases ok with
      | false =>
        exact ⟨.of_between ho.between List.mem_cons_self, fun _ => ho.failed rfl,
          fun hnf => absurd (ho.failed rfl).faulty hnf, hnow⟩
      | true =>
        have hdisk := ho.done rfl
        rcases hv with hv | ⟨hf, hv⟩
        · -- the successor as the table has it
          have hne : v ≠ c := by
            intro he
            cases l with
            | nil =>
              have hv0 : g.isDataCluster (fatGet g m.disk c) = false := hl
              rw [← hv, he, hx] at hv0
              cases hv0
            | cons y l =>
              have hy : fatGet g m.disk c = y := hl.1
              exact hcl (by rw [← hy, ← hv, he]; exact List.mem_cons_self)
          have hchain : ChainFrom g m''.disk v l := by
            rw [hdisk, hv]
            refine IsChain.congr (hput.chain_congr hg hl.node_of_mem ?_) hl
            exact fun y hy he => hcl (he ▸ hy)
          simp only [if_true, hne, if_false]
          refine Prog.wp_mono (ih n v m'' hchain (by simp at hn; omega) ?_) ?_
          · intro e he
            rw [hdisk] at he
            exact hinv e (hrest e he)
          · intro ok m3 hfr
            rw [hdisk] at hfr
            refine ⟨hrest _ hfr.touches, hfr.failed, hfr.exact, fun y hy hw => ?_⟩
            rcases List.mem_cons.mp hy with rfl | hy
            · left
              rw [hfr.touches.fatGet_eq hg (inTable_of_data hg hx) hcl]
              exact fatGet_fatPut_self hg (inTable_of_data hg hx) (Nat.pow_pos (by decide)) m.disk
            · rw [← freed_tail hg hl.node_of_mem hcl (.right m.disk _) y hy]
              exact hfr.values y hy hw
        · -- the read failed: the loop ends here
          have hstop : g.isDataCluster v = false := by
            rw [hv]; exact endMark_not_data hg (endOfChain_isEndMark g)
          have hne : v ≠ c := by intro he; rw [he, hx] at hstop; cases hstop
          simp only [if_true, hne, if_false]
          have hend : (freeLoop g n v).wp ctx (fun ok m3 => ok = true ∧ m3 = m'') m'' := by
            cases n with
            | zero => exact ⟨rfl, rfl⟩
            | succ n => unfold freeLoop; rw [hstop]; exact ⟨rfl, rfl⟩
          refine Prog.wp_mono hend ?_
          rintro ok m3 ⟨rfl, rfl⟩
          refine ⟨?_, fun h => absurd h (by decide), fun hnf => absurd hf.faulty hnf, hnow⟩
          exact .of_fatPut hdisk List.mem_cons_self

theorem wp_freeClusterChain (hg : g.Valid) (h2 : 2 ≤ c)
    (hc : ChainFrom g m.disk c l)
    (hinv : ∀ e, Touches g (fun x => x ∈ l) (fun _ => False) m.disk e → ctx.inv e) :
    (freeClusterChain g c).wp ctx (Freed ctx g l m.disk) m := by
  unfold freeClusterChain
  rw [if_neg (by omega)]
  have := hc.length_le
  exact wp_freeLoop hg l _ c m hc (by omega) hinv

/-! ## Zeroing -/

def clusterSectors (g : Globals) (c : Nat) : List Nat :=
  (List.range g.bpb.sectorsPerCluster).map (fun s => g.clusterSector c + s)

theorem mem_clusterSectors {c lba : Nat} : lba ∈ clusterSectors g c ↔
    g.clusterSector c ≤ lba ∧ lba < g.clusterSector c + g.bpb.sectorsPerCluster := by
  unfold clusterSectors
  simp only [List.mem_map, List.mem_range]
  constructor
  · rintro ⟨s, hs, rfl⟩; omega
  · intro h; exact ⟨lba - g.clusterSector c, by omega, by omega⟩

theorem clusterSector_not_fat {c lba : Nat} (h : lba ∈ clusterSectors g c) :
    ¬ g.isFatSector lba := by
  rw [mem_clusterSectors] at h
  unfold Globals.isFatSector
  unfold Globals.clusterSector Globals.getDataStart at h
  omega

theorem clusterSectors_disjoint {c c' lba : Nat} (hc : 2 ≤ c) (hc' : 2 ≤ c')
    (h : lba ∈ clusterSectors g c) (h' : lba ∈ clusterSectors g c') : c = c' := by
  rw [mem_clusterSectors] at h h'
  unfold Globals.clusterSector at h h'
  rcases Nat.lt_trichotomy c c' with hlt | heq | hlt
  · have : (c - 2 + 1) * g.bpb.sectorsPerCluster ≤ (c' - 2) * g.bpb.sectorsPerCluster :=
      Nat.mul_le_mul_right _ (by omega)
    rw [Nat.add_mul] at this
    omega
  · exact heq
  · have : (c' - 2 + 1) * g.bpb.sectorsPerCluster ≤ (c - 2) * g.bpb.sectorsPerCluster :=
      Nat.mul_le_mul_right _ (by omega)
    rw [Nat.add_mul] at this
    omega

/-- Nothing but the sectors of one cluster is written. -/
abbrev Fills (g : Globals) (c : Nat) : Disk → Disk → Prop :=
  Touches g (fun _ => False) (fun lba => lba ∈ clusterSectors g c)

theorem fills_putSector {c s : Nat} (hs : s < g.bpb.sectorsPerCluster) (x : Sector) (d : Disk) :
    Fills g c d (putSector d (g.clusterSector c + s) x) := by
  have hmem : g.clusterSector c + s ∈ clusterSectors g c := mem_clusterSectors.mpr (by omega)
  refine .of_sectors (fun lba hl => clusterSector_not_fat hl) (fun lba hl => ?_)
  exact putSector_of_ne _ _ (fun he => hl (he ▸ hmem))

theorem wp_zeroSectors : ∀ (n s : Nat) (m : DriverMem),
    s + n = g.bpb.sectorsPerCluster → (∀ e, Fills g c m.disk e → ctx.inv e) →
    (zeroSectors (g.clusterSector c) n s).wp ctx (fun ok m' => Fills g c m.disk m'.disk ∧
      (ok = false → ctx.Failed m') ∧
      (ok = true → ∀ i, s ≤ i → i < g.bpb.sectorsPerCluster →
        m'.disk (g.clusterSector c + i) = Sector.zero)
      ∧ ∀ i, i < s → m'.disk (g.clusterSector c + i) = m.disk (g.clusterSector c + i)) m := by
  intro n
  induction n with
  | zero =>
    intro s m hs _
    refine ⟨.refl, fun h => absurd h (by decide), fun _ i h1 h2 => by omega, fun _ _ => rfl⟩
  | succ n ih =>
    intro s m hs hinv
    have hfill := fills_putSector (g := g) (c := c) (s := s) (by omega) Sector.zero m.disk
    unfold zeroSectors
    simp only [Prog.wp_bind, wp_store, wp_writeSector, Mem.setBuf_disk, Mem.setBuf_buf]
    refine ⟨fun hf => ?_, hinv _ hfill, ?_⟩
    · exact ⟨.refl, fun _ => ⟨_, hf, rfl⟩, fun h => absurd h (by decide), fun _ _ => rfl⟩
    · simp only [if_true]
      refine Prog.wp_mono (ih (s + 1) _ (by omega) ?_) ?_
      · exact fun e he => hinv e (hfill.trans (by simpa using he))
      · rintro ok m' ⟨ht, hf, hz, hlow⟩
        simp only [Mem.flush_disk, Mem.setBuf_disk, Mem.setBuf_buf] at ht hlow
        refine ⟨hfill.trans ht, hf, fun hok i h1 h2 => ?_, fun i hi => ?_⟩
        · by_cases he : i = s
          · subst he
            rw [hlow i (by omega), putSector_self]
          · exact hz hok i (by omega) h2
        · rw [hlow i (by omega), putSector_of_ne _ _ (by omega)]

theorem wp_zeroCluster (hinv : ∀ e, Fills g c m.disk e → ctx.inv e) :
    (zeroCluster g c).wp ctx (fun ok m' => Fills g c m.disk m'.disk ∧
      (ok = false → ctx.Failed m') ∧
      (ok = true → ∀ lba ∈ clusterSectors g c, m'.disk lba = Sector.zero)) m := by
  refine Prog.wp_mono (wp_zeroSectors g.bpb.sectorsPerCluster 0 m (by omega) hinv) ?_
  rintro ok m' ⟨ht, hf, hz, _⟩
  refine ⟨ht, hf, fun hok lba hl => ?_⟩
  rw [mem_clusterSectors] at hl
  have := hz hok (lba - g.clusterSector c) (by omega) (by omega)
  rwa [show g.clusterSector c + (lba - g.clusterSector c) = lba by omega] at this

/-! ## Read-only loops -/

/-- The body reads one sector and decides on its content; a failed read gives `bad`. -/
def ReadsSector {γ : Type} (ctx : Ctx Buffer Sector) (body : Nat → DiskProg (Option γ))
    (f : Nat → Sector → Option γ) (bad : γ) : Prop :=
  ∀ (m : DriverMem) (lba : Nat), (body lba).wp ctx (fun r m' => m'.disk = m.disk ∧
    m'.stores = m.stores ∧ (r = f lba (m.disk lba) ∨ (ctx.Failed m ∧ r = some bad))) m

theorem Failed_congr {m m' : DriverMem} (h : m'.stores = m.stores) (hf : ctx.Failed m') :
    ctx.Failed m := by
  obtain ⟨m₁, h1, h2⟩ := hf
  exact ⟨m₁, h1, by rw [h2, h]⟩

section Loops

variable {γ : Type} {body : Nat → DiskProg (Option γ)} {f : Nat → Sector → Option γ} {bad : γ}

theorem wp_forSectors (hb : ReadsSector ctx body f bad) (base : Nat) :
    ∀ (n s : Nat) (m : DriverMem), (forSectors base body n s).wp ctx (fun r m' =>
      m'.disk = m.disk ∧ m'.stores = m.stores ∧
      (r = ((List.range' s n).map (fun i => base + i)).findSome? (fun lba => f lba (m.disk lba)) ∨
        (ctx.Failed m ∧ r = some bad))) m := by
  intro n
  induction n with
  | zero => intro s m; exact ⟨rfl, rfl, .inl rfl⟩
  | succ n ih =>
    intro s m
    unfold forSectors
    rw [Prog.wp_bind]
    refine Prog.wp_mono (hb m (base + s)) ?_
    rintro r m' ⟨hd, hst, hr⟩
    rw [List.range'_succ, List.map_cons, List.findSome?_cons]
    cases r with
    | some r =>
      refine ⟨hd, hst, ?_⟩
      rcases hr with hr | ⟨hf, hr⟩
      · exact .inl (by rw [← hr])
      · exact .inr ⟨hf, hr⟩
    | none =>
      rcases hr with hr | ⟨_, hr⟩
      · refine Prog.wp_mono (ih (s + 1) m') ?_
        rintro r m'' ⟨hd', hst', hr'⟩
        refine ⟨hd'.trans hd, hst'.trans hst, ?_⟩
        rw [← hr]
        rcases hr' with hr' | ⟨hf, hr'⟩
        · exact .inl (by rw [hr', hd])
        · exact .inr ⟨Failed_congr hst hf, hr'⟩
      · cases hr

theorem wp_clusterSectors (hb : ReadsSector ctx body f bad) (c : Nat) :
    (forSectors (g.clusterSector c) body g.bpb.sectorsPerCluster 0).wp ctx (fun r m' =>
      m'.disk = m.disk ∧ m'.stores = m.stores ∧
      (r = (clusterSectors g c).findSome? (fun lba => f lba (m.disk lba)) ∨
        (ctx.Failed m ∧ r = some bad))) m := by
  have h := wp_forSectors hb (g.clusterSector c) g.bpb.sectorsPerCluster 0 m
  rwa [← List.range_eq_range'] at h

theorem whileDataCluster_stop {v : Nat} (hstop : g.isDataCluster v = false) (fuel : Nat) :
    whileDataCluster g body fuel v = pure none := by
  cases fuel with
  | zero => unfold whileDataCluster; simp [hstop]
  | succ fuel => unfold whileDataCluster; simp [hstop]

/-- A read-only loop along a chain searches the list of its sectors. -/
theorem wp_whileDataCluster (hg : g.Valid) (hb : ReadsSector ctx body f bad) :
    ∀ (l : List Nat) (fuel c : Nat) (m : DriverMem), ChainFrom g m.disk c l → l.length ≤ fuel →
      (whileDataCluster g body fuel c).wp ctx (fun r m' =>
        m'.disk = m.disk ∧ m'.stores = m.stores ∧
        (r = (l.flatMap (clusterSectors g)).findSome? (fun lba => f lba (m.disk lba)) ∨
          (ctx.Failed m ∧ (r = some bad ∨ r = none)))) m := by
  intro l
  induction l with
  | nil =>
    intro fuel c m hc _
    rw [whileDataCluster_stop hc]
    exact ⟨rfl, rfl, .inl rfl⟩
  | cons x l ih =>
    intro fuel c m hc hlen
    obtain ⟨rfl, hx, hl⟩ := hc
    cases fuel with
    | zero => simp at hlen
    | succ fuel =>
      unfold whileDataCluster
      simp only [hx, if_true, Prog.wp_bind]
      refine Prog.wp_mono (wp_clusterSectors hb c) ?_
      rintro r m' ⟨hd, hst, hr⟩
      rw [List.flatMap_cons, List.findSome?_append]
      cases r with
      | some r =>
        refine ⟨hd, hst, ?_⟩
        rcases hr with hr | ⟨hf, hr⟩
        · exact .inl (by rw [← hr]; rfl)
        · exact .inr ⟨hf, .inl hr⟩
      | none =>
        rcases hr with hr | ⟨_, hr⟩
        · rw [← hr, Option.none_or]
          simp only [Prog.wp_bind, getNextCluster, Nat.mod_eq_of_lt (data_lt hg hx)]
          refine Prog.wp_mono (wp_readFatEntry c) ?_
          rintro v m2 ⟨hd2, hst2, hv⟩
          have hdisk : m2.disk = m.disk := hd2.trans hd
          rcases hv with hv | ⟨hf, hv⟩
          · have hch : ChainFrom g m2.disk v l := by rw [hv, hdisk, hd]; exact hl
            refine Prog.wp_mono (ih fuel v m2 hch (by simp at hlen; omega)) ?_
            rintro r m3 ⟨hd3, hst3, hr3⟩
            rw [hdisk] at hr3
            refine ⟨hd3.trans hdisk, hst3.trans (hst2.trans hst), hr3.imp id ?_⟩
            exact fun ⟨hf, hr⟩ => ⟨Failed_congr (hst2.trans hst) hf, hr⟩
          · have hstop : g.isDataCluster v = false := by
              rw [hv]; exact endMark_not_data hg (endOfChain_isEndMark g)
            rw [whileDataCluster_stop hstop]
            exact ⟨hdisk, hst2.trans hst, .inr ⟨Failed_congr hst hf, .inr rfl⟩⟩
        · cases hr

theorem wp_whileDataCluster_frame (hdiv : ctx.mayDiverge) (hb : ReadsSector ctx body f bad) :
    ∀ (fuel c : Nat) (m : DriverMem), (whileDataCluster g body fuel c).wp ctx (fun _ m' =>
      m'.disk = m.disk ∧ m'.stores = m.stores) m := by
  intro fuel
  induction fuel with
  | zero =>
    intro c m
    unfold whileDataCluster
    split
    · exact hdiv
    · exact ⟨rfl, rfl⟩
  | succ fuel ih =>
    intro c m
    unfold whileDataCluster
    split
    · rw [Prog.wp_bind]
      refine Prog.wp_mono (wp_clusterSectors hb c) ?_
      rintro r m' ⟨hd, hst, _⟩
      cases r with
      | some r => exact ⟨hd, hst⟩
      | none =>
        simp only [Prog.wp_bind, getNextCluster]
        refine Prog.wp_mono (wp_readFatEntry _) ?_
        rintro v m2 ⟨hd2, hst2, _⟩
        refine Prog.wp_mono (ih v m2) ?_
        rintro r m3 ⟨hd3, hst3⟩
        exact ⟨hd3.trans (hd2.trans hd), hst3.trans (hst2.trans hst)⟩
    · exact ⟨rfl, rfl⟩

end Loops

end Fat16
end MiniDos
