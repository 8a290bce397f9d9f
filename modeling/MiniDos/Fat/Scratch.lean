import MiniDos.Fat.DirSpec
import MiniDos.Fat.File

/-!
# MiniDos.Fat.Scratch

New chains. A write or a copy takes free clusters, links them and fills them before any entry
refers to them; when it gives up it frees them again.

* `Scratch`: only clusters that were free have changed. Directories do not notice
  (`Scratch.dirOk`).
* `NewChain`: the chain built so far.
* `wp_linkCluster`, `wp_writeSectors`: how it grows and is filled.
* `wp_rollback`: how it is given back; without faults all its entries are 0 again.
-/

namespace MiniDos
namespace Fat16

open BlockIO Chain

variable {ctx : Ctx Buffer Sector} {g : Globals} {m : DriverMem}

/-- A data cluster that is free on disk `d`. -/
def FreeCluster (g : Globals) (d : Disk) (c : Nat) : Prop :=
  g.isDataCluster c = true ∧ fatGet g d c = 0

/-- A sector of one of the clusters `P`. -/
def SectorOf (g : Globals) (P : Nat → Prop) (lba : Nat) : Prop := ∃ c, P c ∧ lba ∈ clusterSectors g c

/-- Only what belongs to free clusters of `d` has changed. -/
def Scratch (g : Globals) (d e : Disk) : Prop :=
  Touches g (FreeCluster g d) (SectorOf g (FreeCluster g d)) d e

theorem Scratch.refl (g : Globals) (d : Disk) : Scratch g d d := Touches.refl

theorem Scratch.of_list {d e : Disk} {l : List Nat} (hl : ∀ c ∈ l, FreeCluster g d c)
    (ht : Touches g (fun c => c ∈ l) (SectorOf g (fun c => c ∈ l)) d e) : Scratch g d e :=
  ht.mono hl (fun _ ⟨c, hc, hs⟩ => ⟨c, hl c hc, hs⟩)

theorem dirSector_not_scratch {d : Disk} {c lba : Nat} {l : List Nat} (h : Chained g d c l)
    (hl : lba ∈ dirSectors g c l) : ¬ SectorOf g (FreeCluster g d) lba := by
  rintro ⟨x, ⟨hx, hfree⟩, hlx⟩
  rcases mem_dirSectors.mp hl with ⟨_, hr⟩ | ⟨_, y, hy, hly⟩
  · rw [mem_rootSectors] at hr
    rw [mem_clusterSectors] at hlx
    unfold Globals.clusterSector at hlx
    omega
  · have hyd := h.data_of_mem y hy
    have := clusterSectors_disjoint (isDataCluster_iff.mp hx).1 (isDataCluster_iff.mp hyd).1 hlx hly
    exact h.ne_zero y hy (this ▸ hfree)

namespace Scratch

variable {d e : Disk}

theorem chained (hg : g.Valid) (hs : Scratch g d e) {c : Nat} {l : List Nat}
    (h : Chained g d c l) : Chained g e c l :=
  h.touches hg hs (fun x hx hf => h.ne_zero x hx hf.2)

theorem free_of_free (hg : g.Valid) (hs : Scratch g d e) {c : Nat} (hc : FreeCluster g e c) :
    FreeCluster g d c := by
  by_cases hcf : FreeCluster g d c
  · exact hcf
  · refine ⟨hc.1, ?_⟩
    rw [← hs.fatGet_eq hg (inTable_of_data hg hc.1) hcf]
    exact hc.2

theorem dirSector_eq (hs : Scratch g d e) {c lba : Nat} {l : List Nat} (h : Chained g d c l)
    (hl : lba ∈ dirSectors g c l) : e lba = d lba :=
  hs.sec lba (dirSector_not_fat hl) (dirSector_not_scratch h hl)

theorem entryAt_eq (hs : Scratch g d e) {c : Nat} {l : List Nat} (h : Chained g d c l) {p : Slot}
    (hp : p ∈ dirSlots g c l) : entryAt e p = entryAt d p :=
  entryAt_congr (hs.dirSector_eq h (mem_slotsOf.mp hp).1)

theorem dirOk (hg : g.Valid) (hs : Scratch g d e) {c : Nat} {l : List Nat} (h : DirOk g d c l) :
    DirOk g e c l :=
  ⟨hs.chained hg h.chained, h.endMarked.congr (fun _ hp => hs.entryAt_eq h.chained hp)⟩

theorem lookup_eq (hs : Scratch g d e) {c : Nat} {l : List Nat} (h : Chained g d c l)
    (name : CStr) : lookup name e (dirSlots g c l) = lookup name d (dirSlots g c l) := by
  have : ∀ ps : List Slot, (∀ p ∈ ps, entryAt e p = entryAt d p) →
      lookup name e ps = lookup name d ps := by
    intro ps hps
    unfold lookup
    induction ps with
    | nil => rfl
    | cons p ps ih =>
      rw [List.find?_cons, List.find?_cons, hps p List.mem_cons_self,
        ih (fun q hq => hps q (List.mem_cons_of_mem _ hq))]
  exact this _ (fun p hp => hs.entryAt_eq h hp)

end Scratch

/-! ## A chain under construction -/

/-- Byte `k` of the chain is byte `k` of the data, for the first `n` bytes. -/
def Spells (g : Globals) (d : Disk) (l : List Nat) (data : Nat → Byte) (n : Nat) : Prop :=
  ∀ k < n, ∃ lba, (l.flatMap (clusterSectors g))[k / 512]? = some lba ∧
    (d lba).get (k % 512) = data k

/-- On disk `e` the clusters `l`, all free on `d`, are a chain from `first` to `last`; nothing
else has changed. Both ends are 0 while there is none. -/
structure NewChain (g : Globals) (d : Disk) (l : List Nat) (first last : Nat) (e : Disk) :
    Prop where
  free : ∀ c ∈ l, FreeCluster g d c
  touches : Touches g (fun c => c ∈ l) (SectorOf g (fun c => c ∈ l)) d e
  ends : (l = [] ∧ first = 0 ∧ last = 0) ∨
    (ChainOf g e first l ∧ ∃ pre, l = pre ++ [last])

namespace NewChain

variable {d e : Disk} {l : List Nat} {first last : Nat}

theorem empty (g : Globals) (d : Disk) : NewChain g d [] 0 0 d :=
  ⟨fun c hc => (by cases hc), .refl, .inl ⟨rfl, rfl, rfl⟩⟩

theorem scratch (h : NewChain g d l first last e) : Scratch g d e :=
  .of_list h.free h.touches

theorem chained (h : NewChain g d l first last e) : Chained g e first l := by
  rcases h.ends with ⟨hl, hf, _⟩ | ⟨hc, pre, hl⟩
  · exact .inl ⟨hf, hl⟩
  · exact .inr ⟨by rw [hl]; simp, hc⟩

theorem fresh (hg : g.Valid) (h : NewChain g d l first last e) {c : Nat} (hc : FreeCluster g e c) :
    c ∉ l ∧ FreeCluster g d c := by
  have hn : c ∉ l := fun hm => h.chained.ne_zero c hm hc.2
  refine ⟨hn, hc.1, ?_⟩
  rw [← h.touches.fatGet_eq hg (inTable_of_data hg hc.1) hn]
  exact hc.2

end NewChain

/-- Linking cluster `c`, which holds the end mark, behind `t`. A failure leaves the two entries
whole when they do not straddle. -/
theorem wp_linkCluster (hg : g.Valid) {t c : Nat} (ht : g.isDataCluster t = true)
    (hc : g.isDataCluster c = true) (htc : t ≠ c) (hce : fatGet g m.disk c = g.endOfChainValue)
    (hinv : ∀ e, Touches g (fun x => x = t ∨ x = c) (fun _ => False) m.disk e → ctx.inv e) :
    (linkCluster g t c).wp ctx (fun ok m' =>
      Touches g (fun x => x = t ∨ x = c) (fun _ => False) m.disk m'.disk ∧
      (ok = true → fatGet g m'.disk t = c ∧ fatGet g m'.disk c = g.endOfChainValue) ∧
      (ok = false → ctx.Failed m' ∧ (g.whole t → g.whole c →
        (fatGet g m'.disk t = fatGet g m.disk t ∨ fatGet g m'.disk t = c) ∧
        fatGet g m'.disk c = g.endOfChainValue))) m := by
  have hit := inTable_of_data hg ht
  have hic := inTable_of_data hg hc
  unfold linkCluster
  rw [Prog.wp_bind]
  refine Prog.wp_mono (wp_writeFatEntry hit (data_lt_limit hg hc)
    (fun e he => hinv e (.of_between he (.inl rfl)))) ?_
  intro ok m1 ho
  have hput := fatPut_touches g t c m.disk
  cases ok with
  | false =>
    refine ⟨.of_between ho.between (.inl rfl), fun h => absurd h (by decide),
      fun _ => ⟨ho.failed rfl, fun hw _ => ⟨?_, ?_⟩⟩⟩
    · rcases ho.between.fatGet_eq hw with h | h
      · exact .inl h
      · exact .inr (h.trans (fatGet_fatPut_self hg hit (data_lt_limit hg hc) m.disk))
    · rw [ho.between.touches.fatGet_eq hg hic (Ne.symm htc)]
      exact hce
  | true =>
    have hd1 := ho.done rfl
    have ht1 : fatGet g m1.disk t = c := by
      rw [hd1, fatGet_fatPut_self hg hit (data_lt_limit hg hc)]
    have hc1 : fatGet g m1.disk c = g.endOfChainValue := by
      rw [hd1, fatGet_fatPut_of_ne hg hic (Ne.symm htc), hce]
    have h1 : Touches g (fun x => x = t ∨ x = c) (fun _ => False) m.disk m1.disk :=
      .of_fatPut hd1 (.inl rfl)
    simp only [if_true]
    refine Prog.wp_mono (wp_writeFatEntry hic (endOfChain_lt g)
      (fun e he => hinv e (h1.trans (.of_between he (.inr rfl))))) ?_
    intro ok m2 ho2
    have ht2 : fatGet g m2.disk t = c := by
      rw [ho2.between.touches.fatGet_eq hg hit htc]
      exact ht1
    refine ⟨h1.trans (.of_between ho2.between (.inr rfl)), fun hok => ⟨ht2, ?_⟩,
      fun hok => ⟨ho2.failed hok, fun _ hwc => ⟨.inr ht2, ?_⟩⟩⟩
    · rw [ho2.done hok, fatGet_fatPut_self hg hic (endOfChain_lt g)]
    · rcases ho2.between.fatGet_eq hwc with h | h
      · exact h.trans hc1
      · exact h.trans (fatGet_fatPut_self hg hic (endOfChain_lt g) m1.disk)

/-! ## Filling a cluster -/

theorem chunkSector_get (data : Nat → Byte) (offset : Nat) {chunk k : Nat} (hk : k < chunk)
    (hk' : k < 512) : (chunkSector data offset chunk).get k = data (offset + k) := by
  have hv : (Fin.ofNat 512 k).val = k := Nat.mod_eq_of_lt hk'
  unfold Sector.get chunkSector
  rw [hv, if_pos hk]

theorem chunk_rest (offset remaining n : Nat) :
    offset + min remaining 512 + min (remaining - min remaining 512) (n * 512) =
      offset + min remaining ((n + 1) * 512) ∧
    remaining - min remaining 512 - min (remaining - min remaining 512) (n * 512) =
      remaining - min remaining ((n + 1) * 512) := by
  omega

/-- A byte is in the first sector, or it is in the others and counted from there. -/
theorem chunk_cases {n remaining k : Nat} (s offset : Nat) (hk : k < min remaining ((n + 1) * 512)) :
    (k < 512 ∧ k < min remaining 512 ∧ s + k / 512 = s) ∨
    (k - 512 < min (remaining - min remaining 512) (n * 512) ∧
      s + 1 + (k - 512) / 512 = s + k / 512 ∧ (k - 512) % 512 = k % 512 ∧
      offset + min remaining 512 + (k - 512) = offset + k) := by
  omega

theorem wp_writeSectors {c : Nat} (data : Nat → Byte) : ∀ (n s offset remaining : Nat)
    (m : DriverMem), s + n = g.bpb.sectorsPerCluster →
    (∀ e, Fills g c m.disk e → ctx.inv e) →
    (writeSectors data (g.clusterSector c) n s offset remaining).wp ctx (fun r m' =>
      Fills g c m.disk m'.disk ∧ (r = none → ctx.Failed m') ∧
      (∀ i < s, m'.disk (g.clusterSector c + i) = m.disk (g.clusterSector c + i)) ∧
      (∀ o' r', r = some (o', r') → o' = offset + min remaining (n * 512) ∧
        r' = remaining - min remaining (n * 512) ∧
        ∀ k < min remaining (n * 512),
          (m'.disk (g.clusterSector c + (s + k / 512))).get (k % 512) = data (offset + k))) m := by
  intro n
  induction n with
  | zero =>
    intro s offset remaining m hs _
    refine ⟨.refl, fun h => (by cases h), fun _ _ => rfl, ?_⟩
    intro o' r' h
    obtain ⟨rfl, rfl⟩ := Prod.mk.inj (Option.some.inj h)
    refine ⟨by omega, by omega, fun k hk => by omega⟩
  | succ n ih =>
    intro s offset remaining m hs hinv
    unfold writeSectors
    have hchunk : (if remaining > sectorSize then sectorSize else remaining) = min remaining 512 := by
      unfold sectorSize
      split <;> omega
    rw [hchunk]
    have hfill := fills_putSector (g := g) (c := c) (s := s) (by omega)
      (chunkSector data offset (min remaining 512)) m.disk
    simp only [Prog.wp_bind, wp_store, wp_writeSector, Mem.setBuf_disk, Mem.setBuf_buf]
    refine ⟨fun hf => ?_, hinv _ hfill, ?_⟩
    · exact ⟨.refl, fun _ => ⟨_, hf, rfl⟩, fun _ _ => rfl, fun o' r' h => by cases h⟩
    · simp only [if_true]
      refine Prog.wp_mono (ih (s + 1) _ _ _ (by omega) ?_) ?_
      · exact fun e he => hinv e (hfill.trans (by simpa using he))
      · rintro r m' ⟨ht, hf, hlow, hr⟩
        simp only [Mem.flush_disk, Mem.setBuf_disk, Mem.setBuf_buf] at ht hlow
        refine ⟨hfill.trans ht, hf, fun i hi => ?_, fun o' r' h => ?_⟩
        · rw [hlow i (by omega), putSector_of_ne _ _ (by omega)]
        · obtain ⟨ho, hr', hbytes⟩ := hr o' r' h
          obtain ⟨hoff, hrem⟩ := chunk_rest offset remaining n
          refine ⟨ho.trans hoff, hr'.trans hrem, fun k hk => ?_⟩
          obtain ⟨hk512, hkr, hks⟩ | ⟨hkn, hks, hkm, hko⟩ := chunk_cases s offset hk
          · rw [hks, Nat.mod_eq_of_lt hk512, hlow s (Nat.lt_succ_self s), putSector_self,
              chunkSector_get _ _ hkr hk512]
          · rw [← hks, ← hkm, ← hko]
            exact hbytes (k - 512) hkn

/-! ## Giving the chain back -/

/-- After a rollback without faults: of the clusters free on `d`, those in `l` were used and are
0 in every copy of the table. -/
structure Restored (g : Globals) (d e : Disk) : Prop where
  ex : ∃ l : List Nat, (∀ c ∈ l, FreeCluster g d c) ∧
    Touches g (fun c => c ∈ l) (SectorOf g (fun c => c ∈ l)) d e ∧
    ∀ c ∈ l, ∀ k < g.bpb.fatCount, fatValue g.fatType e (g.copyStart k) c = 0

theorem Restored.refl (g : Globals) (d : Disk) : Restored g d d :=
  ⟨[], fun c hc => (by cases hc), .refl, fun c hc => (by cases hc)⟩

theorem freeAll_value (hg : g.Valid) {l : List Nat} (hd : ∀ c ∈ l, g.isDataCluster c = true) :
    ∀ (d : Disk), ∀ c ∈ l, ∀ k < g.bpb.fatCount,
      fatValue g.fatType (freeAll g l d) (g.copyStart k) c = 0 := by
  induction l with
  | nil => intro d c hc; cases hc
  | cons x l ih =>
    intro d c hc k hk
    have hxi := inTable_of_data hg (hd x List.mem_cons_self)
    by_cases hcl : c ∈ l
    · exact ih (fun y hy => hd y (List.mem_cons_of_mem _ hy)) _ c hcl k hk
    · have hcx : c = x := by
        rcases List.mem_cons.mp hc with h | h
        · exact h
        · exact absurd h hcl
      subst hcx
      show fatValue g.fatType (freeAll g l (fatPut g c 0 d)) (g.copyStart k) c = 0
      rw [(freeAll_touches g l (fatPut g c 0 d)).fatValue_eq hk hxi hcl]
      exact fatValue_fatPut_self hk hxi (Nat.pow_pos (by decide)) d

theorem wp_freeScratch (hg : g.Valid) {d : Disk} {first : Nat} {l l' : List Nat}
    (hl : ∀ c ∈ l, FreeCluster g d c) (hl' : ∀ c ∈ l', c ∈ l) (hall : l' = l ∨ ctx.Faulty)
    (ht : Touches g (fun c => c ∈ l) (SectorOf g (fun c => c ∈ l)) d m.disk)
    (h2 : 2 ≤ first) (hc : ChainFrom g m.disk first l')
    (hinv : ∀ e, Scratch g d e → ctx.inv e) :
    (freeClusterChain g first).wp ctx (fun _ m' =>
      Touches g (fun c => c ∈ l) (SectorOf g (fun c => c ∈ l)) d m'.disk ∧
      Touches g (fun c => c ∈ l') (fun _ => False) m.disk m'.disk ∧
      (¬ ctx.Faulty → Restored g d m'.disk)) m := by
  have hmono : ∀ e, Touches g (fun c => c ∈ l') (fun _ => False) m.disk e →
      Touches g (fun c => c ∈ l) (SectorOf g (fun c => c ∈ l)) d e :=
    fun e he => ht.trans (he.mono hl' (fun _ h => h.elim))
  refine Prog.wp_mono (wp_freeClusterChain hg h2 hc (fun e he => hinv e (.of_list hl (hmono e he)))) ?_
  intro ok m' hf
  refine ⟨hmono _ hf.touches, hf.touches, fun hnf => ⟨l, hl, hmono _ hf.touches, ?_⟩⟩
  rcases hall with rfl | hfaulty
  · rw [(hf.exact hnf).2]
    exact freeAll_value hg hc.node_of_mem m.disk
  · exact absurd hfaulty hnf

theorem wp_rollback (hg : g.Valid) {d : Disk} {first : Nat} {l l' : List Nat}
    (hl : ∀ c ∈ l, FreeCluster g d c) (hl' : ∀ c ∈ l', c ∈ l) (hall : l' = l ∨ ctx.Faulty)
    (ht : Touches g (fun c => c ∈ l) (SectorOf g (fun c => c ∈ l)) d m.disk)
    (hc : (first = 0 ∧ l' = []) ∨ (2 ≤ first ∧ ChainFrom g m.disk first l'))
    (hinv : ∀ e, Scratch g d e → ctx.inv e) :
    (rollback g first).wp ctx (fun _ m' => Scratch g d m'.disk ∧
      (¬ ctx.Faulty → Restored g d m'.disk)) m := by
  unfold rollback
  rcases hc with ⟨rfl, rfl⟩ | ⟨h2, hc⟩
  · rw [if_neg (by decide)]
    refine ⟨.of_list hl ht, fun hnf => ?_⟩
    rcases hall with rfl | hfaulty
    · exact ⟨[], hl, ht, fun c hc => (by cases hc)⟩
    · exact absurd hfaulty hnf
  · rw [if_pos h2, Prog.wp_bind]
    refine Prog.wp_mono (wp_freeScratch hg hl hl' hall ht h2 hc hinv) ?_
    exact fun ok m' h => ⟨.of_list hl h.1, h.2.2⟩

theorem NewChain.wp_rollback (hg : g.Valid) {d : Disk} {first last : Nat} {l : List Nat}
    (h : NewChain g d l first last m.disk) (hinv : ∀ e, Scratch g d e → ctx.inv e) :
    (rollback g first).wp ctx (fun _ m' => Scratch g d m'.disk ∧
      (¬ ctx.Faulty → Restored g d m'.disk)) m := by
  refine Fat16.wp_rollback hg h.free (fun _ h => h) (.inl rfl) h.touches ?_ hinv
  rcases h.ends with ⟨hl, hf, _⟩ | ⟨hc, pre, hl⟩
  · exact .inl ⟨hf, hl⟩
  · have h0 : first ≠ 0 := by
      rintro rfl
      have := h.chained.nil_of_zero
      rw [hl] at this
      simp at this
    exact .inr ⟨h.chained.two_le h0, hc.from hg⟩

/-! ## One more cluster -/

/-- Faults are harmless to a link: there are none once the disk has been written, or no entry of
a free cluster straddles two sectors. -/
def Careful (ctx : Ctx Buffer Sector) (g : Globals) (m₀ : DriverMem) : Prop :=
  (∀ m, ctx.mayFail m → m.stores = m₀.stores) ∨ ∀ c, FreeCluster g m₀.disk c → g.whole c

theorem careful_of_not_faulty (h : ¬ ctx.Faulty) (m₀ : DriverMem) : Careful ctx g m₀ :=
  .inl (fun m hm => absurd ⟨m, hm⟩ h)

theorem Careful.whole {m₀ m₁ m₂ : DriverMem} (hc : Careful ctx g m₀) (h1 : m₀.Moved m₁)
    (h2 : m₁.Moved m₂) (hne : m₁.disk ≠ m₀.disk) (hf : ctx.Failed m₂) :
    ∀ c, FreeCluster g m₀.disk c → g.whole c := by
  rcases hc with hc | hc
  · obtain ⟨m₃, hm₃, hst⟩ := hf
    have heq := hc m₃ hm₃
    have hle1 := h1.1
    have hle2 := h2.1
    exact absurd (h1.2 (by omega)) hne
  · exact hc

namespace NewChain

variable {d e e' : Disk} {l : List Nat} {first last c : Nat}

theorem first_eq_zero (h : NewChain g d l first last e) : first = 0 ↔ l = [] := by
  constructor
  · intro h0
    have := h.chained
    rw [h0] at this
    exact this.nil_of_zero
  · rintro rfl
    rcases h.ends with ⟨_, hf, _⟩ | ⟨_, pre, hl⟩
    · exact hf
    · simp at hl

theorem last_lt_two (h : NewChain g d l first last e) : last < 2 ↔ l = [] := by
  constructor
  · intro h0
    rcases h.ends with ⟨hl, _⟩ | ⟨_, pre, hl⟩
    · exact hl
    · have := (isDataCluster_iff.mp (h.free last (by rw [hl]; simp)).1).1
      omega
  · rintro rfl
    rcases h.ends with ⟨_, _, hl⟩ | ⟨_, pre, hl⟩
    · omega
    · simp at hl

theorem touches_snoc (h : NewChain g d l first last e) {X S : Nat → Prop}
    (ht : Touches g X S e e') (hX : ∀ x, X x → x ∈ l ++ [c])
    (hS : ∀ lba, S lba → SectorOf g (fun x => x ∈ l ++ [c]) lba) :
    Touches g (fun x => x ∈ l ++ [c]) (SectorOf g (fun x => x ∈ l ++ [c])) d e' := by
  refine Touches.trans (h.touches.mono ?_ ?_) (ht.mono hX hS)
  · exact fun x hx => List.mem_append_left _ hx
  · exact fun lba ⟨x, hx, hl⟩ => ⟨x, List.mem_append_left _ hx, hl⟩

theorem free_snoc (hg : g.Valid) (h : NewChain g d l first last e) (hc : FreeCluster g e c) :
    ∀ x ∈ l ++ [c], FreeCluster g d x := by
  intro x hx
  rcases List.mem_append.mp hx with hx | hx
  · exact h.free x hx
  · rw [List.mem_singleton] at hx
    subst hx
    exact (h.fresh hg hc).2

theorem start (hg : g.Valid) (h : NewChain g d [] first last e) (hc : FreeCluster g e c)
    (he : e' = fatPut g c g.endOfChainValue e) : NewChain g d [c] c c e' := by
  refine ⟨h.free_snoc hg hc, h.touches_snoc (.of_fatPut (S := fun _ => False) he rfl) ?_ ?_,
    .inr ⟨⟨rfl, hc.1, ?_⟩, [], rfl⟩⟩
  · rintro x rfl; exact List.mem_singleton.mpr rfl
  · exact fun _ h => h.elim
  · show g.isEndMark (fatGet g e' c)
    rw [he, fatGet_fatPut_self hg (inTable_of_data hg hc.1) (endOfChain_lt g)]
    exact endOfChain_isEndMark g

theorem snoc (hg : g.Valid) (h : NewChain g d l first last e) (hl : l ≠ [])
    (hc : FreeCluster g e c) (ht : Touches g (fun x => x = last ∨ x = c) (fun _ => False) e e')
    (hlink : fatGet g e' last = c) (hend : fatGet g e' c = g.endOfChainValue) :
    NewChain g d (l ++ [c]) first c e' := by
  obtain ⟨hch, pre, hpre⟩ := h.ends.resolve_left (fun hn => hl hn.1)
  have hcl := (h.fresh hg hc).1
  refine ⟨h.free_snoc hg hc, h.touches_snoc ht ?_ (fun _ h => h.elim), .inr ⟨?_, l, rfl⟩⟩
  · rintro x (rfl | rfl)
    · rw [hpre]; simp
    · simp
  · have hnd := h.chained.nodup hg
    rw [hpre] at hch hnd hcl ⊢
    rw [List.append_assoc]
    refine IsChain.extend hch (fun x hx => ?_) hlink hc.1
      (hend ▸ endOfChain_isEndMark g)
    have hxl : x ∈ l := by rw [hpre]; exact List.mem_append_left _ hx
    refine ht.fatGet_eq hg (inTable_of_data hg (h.free x hxl).1) ?_
    rintro (rfl | rfl)
    · exact (List.nodup_append.mp hnd).2.2 x hx x (List.mem_singleton.mpr rfl) rfl
    · exact hcl (List.mem_append_left _ hx)

theorem half_linked (hg : g.Valid) (h : NewChain g d l first last e) (hl : l ≠ [])
    (hc : FreeCluster g e c) (ht : Touches g (fun x => x = last ∨ x = c) (fun _ => False) e e')
    (hlink : fatGet g e' last = fatGet g e last ∨ fatGet g e' last = c)
    (hend : g.isDataCluster (fatGet g e' c) = false) :
    ∃ l', (∀ x ∈ l', x ∈ l ++ [c]) ∧ ChainFrom g e' first l' := by
  obtain ⟨hch, pre, hpre⟩ := h.ends.resolve_left (fun hn => hl hn.1)
  have hcl := (h.fresh hg hc).1
  have hnd := h.chained.nodup hg
  have hsame : ∀ x ∈ pre, fatGet g e' x = fatGet g e x := by
    intro x hx
    have hxl : x ∈ l := by rw [hpre]; exact List.mem_append_left _ hx
    refine ht.fatGet_eq hg (inTable_of_data hg (h.free x hxl).1) ?_
    rintro (rfl | rfl)
    · rw [hpre] at hnd
      exact (List.nodup_append.mp hnd).2.2 x hx x (List.mem_singleton.mpr rfl) rfl
    · exact hcl hxl
  have hfrom := hch.from hg
  rcases hlink with hold | hnew
  · refine ⟨l, fun x hx => List.mem_append_left _ hx, hfrom.congr (fun x hx => ?_)⟩
    rw [hpre] at hx
    rcases List.mem_append.mp hx with hx | hx
    · exact hsame x hx
    · rw [List.mem_singleton.mp hx]; exact hold
  · rw [hpre] at hfrom ⊢
    refine ⟨pre ++ [last, c], fun x hx => by simpa using hx, ?_⟩
    exact IsChain.extend hfrom hsame hnew hc.1 hend

theorem touches_pair (h : NewChain g d l first last e) (hl : l ≠ [])
    (ht : Touches g (fun x => x = last ∨ x = c) (fun _ => False) e e') :
    Touches g (fun x => x ∈ l ++ [c]) (SectorOf g (fun x => x ∈ l ++ [c])) d e' := by
  obtain ⟨_, pre, hpre⟩ := h.ends.resolve_left (fun hn => hl hn.1)
  refine h.touches_snoc ht ?_ (fun _ h => h.elim)
  rintro x (rfl | rfl)
  · rw [hpre]; simp
  · simp

/-- Linking a cluster that was just allocated: the chain is longer, or a fault has left the old
or the new link. -/
theorem wp_link (hg : g.Valid) {m₀ : DriverMem} (hcare : Careful ctx g m₀)
    (hinv : ∀ x, Scratch g m₀.disk x → ctx.inv x) (h : NewChain g m₀.disk l first last e)
    (hl : l ≠ []) (hc : FreeCluster g e c) (hd : m.disk = fatPut g c g.endOfChainValue e)
    (hmoved : m₀.Moved m) :
    (linkCluster g last c).wp ctx (fun ok m' =>
      Touches g (fun x => x = last ∨ x = c) (fun _ => False) e m'.disk ∧
      (ok = true → NewChain g m₀.disk (l ++ [c]) first c m'.disk) ∧
      (ok = false → ctx.Faulty ∧ g.whole c ∧
        (fatGet g m'.disk last = fatGet g e last ∨ fatGet g m'.disk last = c) ∧
        fatGet g m'.disk c = g.endOfChainValue)) m := by
  obtain ⟨hcl, hfc₀⟩ := h.fresh hg hc
  have hlast : last ∈ l := by
    obtain ⟨_, pre, hpre⟩ := h.ends.resolve_left (fun hn => hl hn.1)
    rw [hpre]; simp
  have hlc : last ≠ c := fun he => hcl (he ▸ hlast)
  have hfree0 := h.free last hlast
  have hend : fatGet g m.disk c = g.endOfChainValue := by
    rw [hd, fatGet_fatPut_self hg (inTable_of_data hg hc.1) (endOfChain_lt g)]
  have halloc : Touches g (fun x => x = c) (fun _ => False) e m.disk := .of_fatPut hd rfl
  -- the states of the link, seen from the disk before the allocation
  have hboth : ∀ x, Touches g (fun y => y = last ∨ y = c) (fun _ => False) m.disk x →
      Touches g (fun y => y = last ∨ y = c) (fun _ => False) e x :=
    fun x hx => (halloc.mono (fun _ h => .inr h) (fun _ h => h)).trans hx
  refine Prog.wp_mono (Prog.wp_moved (wp_linkCluster hg hfree0.1 hc.1 hlc hend
    (fun x hx => hinv x (.of_list (h.free_snoc hg hc) (h.touches_pair hl (hboth x hx)))))) ?_
  rintro ok m' ⟨⟨ht, hok, hbad⟩, hmv⟩
  refine ⟨hboth _ ht, fun htrue => ?_, fun hfalse => ?_⟩
  · obtain ⟨hlink, hend'⟩ := hok htrue
    exact h.snoc hg hl hc (hboth _ ht) hlink hend'
  · obtain ⟨hf, hhalf⟩ := hbad hfalse
    have hne : m.disk ≠ m₀.disk := by
      intro he
      have h1 := hfc₀.2
      rw [← he, hend] at h1
      exact endMark_ne_zero (endOfChain_isEndMark g) h1
    have hwhole := hcare.whole hmoved hmv hne hf
    obtain ⟨hlink, hend'⟩ := hhalf (hwhole _ hfree0) (hwhole _ hfc₀)
    rw [halloc.fatGet_eq hg (inTable_of_data hg hfree0.1) hlc] at hlink
    exact ⟨hf.faulty, hwhole _ hfc₀, hlink, hend'⟩

end NewChain

end Fat16
end MiniDos
