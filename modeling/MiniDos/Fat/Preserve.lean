import MiniDos.Fat.Volume
import MiniDos.Fat.NameSpec
import MiniDos.Fat.WriteSpec

/-!
# MiniDos.Fat.Preserve

What the operations do to a volume. Each takes one slot of a directory from one entry to another.

* `Edit`: the two disks differ in that slot, in clusters that were free and in given table entries
  only. Other entries, chains and file contents are as before (`Edit.entry_eq`, `Edit.chained`,
  `Edit.sector_eq`).
* `Kept`: the new disk has an inventory that accounts for its directories and their clusters.
* `Inventory.added`, `Inventory.replaced`, `Inventory.removed`: what the operations do.
-/

namespace MiniDos
namespace Fat16

open BlockIO Chain

variable {ctx : Ctx Buffer Sector} {g : Globals} {m : DriverMem} {d e : Disk} {D : Nat → Prop}
  {ch : Nat → List Nat}

variable {l : List Nat} {c : Nat}

/-! ## One slot changes -/

/-- From `d` to `d'` slot `p` has got the entry `x`. Apart from that only clusters that were free
and the table entries of the clusters in `X` have changed. -/
structure Edit (g : Globals) (d d' : Disk) (X : Nat → Prop) (p : Slot) (x : DirectoryEntry) :
    Prop where
  notFat : ¬ g.isFatSector p.1
  index : p.2 < 16
  via : ∃ e, Touches g (fun c => FreeCluster g d c ∨ X c) (SectorOf g (FreeCluster g d)) d e ∧
    Touches g X (fun _ => False) (putSlot e p x) d'

namespace Edit

variable {d' : Disk} {X : Nat → Prop} {p : Slot} {x : DirectoryEntry}

theorem entry_self (h : Edit g d d' X p x) : entryAt d' p = x := by
  obtain ⟨e, _, h2⟩ := h.via
  rw [entryAt_congr (h2.sec p.1 h.notFat not_false), entryAt_putSlot h.index]

theorem entry_eq (h : Edit g d d' X p x) (hl : Chained g d c l)
    {q : Slot} (hq : q ∈ dirSlots g c l) (hne : q ≠ p) : entryAt d' q = entryAt d q := by
  obtain ⟨e, h1, h2⟩ := h.via
  obtain ⟨hq1, hq2⟩ := mem_slotsOf.mp hq
  have hnf := dirSector_not_fat hq1
  rw [entryAt_congr (h2.sec q.1 hnf not_false), entryAt_putSlot_ne hq2 hne]
  exact entryAt_congr (h1.sec q.1 hnf (dirSector_not_scratch hl hq1))

theorem chained (hg : g.Valid) (h : Edit g d d' X p x)
    (hl : Chained g d c l) (hX : ∀ y ∈ l, ¬ X y) : Chained g d' c l := by
  obtain ⟨e, h1, h2⟩ := h.via
  have hl1 : Chained g e c l :=
    hl.touches hg h1 (fun y hy hf => hf.elim (fun hf => hl.ne_zero y hy hf.2) (hX y hy))
  have hl2 : Chained g (putSlot e p x) c l :=
    hl1.touches hg (putSlot_touches h.notFat x) (fun _ _ => not_false)
  exact hl2.touches hg h2 hX

theorem sector_eq (h : Edit g d d' X p x) (hl : Chained g d c l)
    {y lba : Nat} (hy : y ∈ l) (hlba : lba ∈ clusterSectors g y) (hne : lba ≠ p.1) :
    d' lba = d lba := by
  obtain ⟨e, h1, h2⟩ := h.via
  have hnf := clusterSector_not_fat hlba
  rw [h2.sec lba hnf not_false, putSlot_sector_ne hne]
  refine h1.sec lba hnf ?_
  rintro ⟨z, ⟨hz, hfree⟩, hlz⟩
  have hyd := hl.data_of_mem y hy
  have := clusterSectors_disjoint (isDataCluster_iff.mp hz).1 (isDataCluster_iff.mp hyd).1 hlz hlba
  exact hl.ne_zero y hy (this ▸ hfree)

theorem file_eq (hg : g.Valid) (hi : Inventory g d D ch) (h : Edit g d d' X p x) {dir f : Nat}
    (hdir : D dir) (hplace : p ∈ dirSlots g dir (ch dir) ∨
      ∃ n, FreeCluster g d n ∧ p.1 ∈ clusterSectors g n)
    (hf : Head g d D ch f) (hne : f ≠ dir) (hX : ∀ y ∈ ch f, ¬ X y) :
    Chained g d' f (ch f) ∧ ∀ y ∈ ch f, ∀ lba ∈ clusterSectors g y, d' lba = d lba := by
  have hl := hi.head_chained hf
  refine ⟨h.chained hg hl hX, fun y hy lba hlba => h.sector_eq hl hy hlba ?_⟩
  rcases hplace with hp | ⟨n, ⟨hn, hfree⟩, hpn⟩
  · exact hi.slot_not_in_chain hdir hp hf hne y hy lba hlba
  · rintro rfl
    have hyd := hl.data_of_mem y hy
    have := clusterSectors_disjoint (isDataCluster_iff.mp hyd).1 (isDataCluster_iff.mp hn).1
      hlba hpn
    exact hl.ne_zero y hy (this ▸ hfree)

theorem after_scratch (hg : g.Valid) {e : Disk} (hs : Scratch g d e) (h : Edit g e d' X p x) :
    Edit g d d' X p x := by
  have hfree := fun c => hs.free_of_free hg (c := c)
  obtain ⟨e', h1, h2⟩ := h.via
  refine ⟨h.notFat, h.index, e', ?_, h2⟩
  refine (hs.mono (fun _ h => .inl h) (fun _ h => h)).trans (h1.mono ?_ ?_)
  · exact fun c hc => hc.imp (fun h => hfree c h) id
  · exact fun lba ⟨c, hc, hl⟩ => ⟨c, hfree c hc, hl⟩

theorem of_scratch {e : Disk} (hs : Scratch g d e) (hp : ¬ g.isFatSector p.1) (hi : p.2 < 16)
    (ht : Touches g X (fun _ => False) (putSlot e p x) d') : Edit g d d' X p x :=
  ⟨hp, hi, e, hs.mono (fun _ h => .inl h) (fun _ h => h), ht⟩

theorem of_grown (hg : g.Valid) {t n : Nat} (ht : t ∈ l) (h : Grown g d t n x d') :
    Edit g d d' (fun c => c ∈ l) (headSlot g n) x := by
  obtain ⟨mid, hext, rfl⟩ := h
  obtain ⟨hhead, hindex⟩ := mem_slotsOf.mp (headSlot_mem hg n)
  refine ⟨clusterSector_not_fat hhead, hindex, mid, hext.touches.mono ?_
    (fun lba hlba => ⟨n, ⟨hext.data, hext.free⟩, hlba⟩), .refl⟩
  rintro c (rfl | rfl)
  · exact .inr ht
  · exact .inl ⟨hext.data, hext.free⟩

end Edit

/-- The inventory `D'`, `ch'` of the new disk beside that of the old one. Directories are old ones
or in `new`; a cluster that an old one has got holds unused slots, apart from `p`. -/
structure Kept (g : Globals) (D : Nat → Prop) (ch : Nat → List Nat) (d' : Disk) (D' : Nat → Prop)
    (ch' : Nat → List Nat) (p : Slot) (new : Nat → Prop) : Prop where
  inv : Inventory g d' D' ch'
  dirs : ∀ c, D' c → D c ∨ new c
  clusters : ∀ c, D c → ∀ y ∈ ch' c, y ∈ ch c ∨
    ∀ q ∈ slotsOf (clusterSectors g y), q = p ∨ (entryAt d' q).isEnd = true

theorem Kept.slot_cases {d' : Disk} {D' : Nat → Prop} {ch' : Nat → List Nat} {p : Slot}
    {new : Nat → Prop} (h : Kept g D ch d' D' ch' p new) (hc : D c) {q : Slot}
    (hq : q ∈ dirSlots g c (ch' c)) :
    q = p ∨ q ∈ dirSlots g c (ch c) ∨ (entryAt d' q).isEnd = true := by
  obtain ⟨hq1, hq2⟩ := mem_slotsOf.mp hq
  rcases mem_dirSectors.mp hq1 with ⟨h0, hr⟩ | ⟨h0, y, hy, hly⟩
  · exact .inr (.inl (mem_slotsOf.mpr ⟨mem_dirSectors.mpr (.inl ⟨h0, hr⟩), hq2⟩))
  · rcases h.clusters c hc y hy with hold | hnew
    · exact .inr (.inl (mem_slotsOf.mpr ⟨mem_dirSectors.mpr (.inr ⟨h0, y, hold, hly⟩), hq2⟩))
    · rcases hnew q (mem_slotsOf.mpr ⟨hly, hq2⟩) with hqp | hend
      · exact .inl hqp
      · exact .inr (.inr hend)

namespace Inventory

theorem scratch (hg : g.Valid) (hi : Inventory g d D ch) (hs : Scratch g d e) :
    Inventory g e D ch ∧ ∀ h, Head g e D ch h → Head g d D ch h :=
  hi.frame hg hs (fun _ hh x hx hf => (hi.head_chained hh).ne_zero x hx hf.2)
    (fun c hc _ hl => dirSector_not_scratch (hi.dir c hc).chained hl)

theorem newChain_fresh (hi : Inventory g d D ch) {first last : Nat}
    (hn : NewChain g d l first last e) {h : Nat} (hh : Head g d D ch h) : ∀ x ∈ l, x ∉ ch h :=
  fun x hx => hi.free_not_mem hh (hn.free x hx).2

theorem endMarked_firstFree (hg : g.Valid) (hi : Inventory g d D ch) (hc : D c)
    {p : Slot} (hp : firstFree d (dirSlots g c (ch c)) = some p) {x : DirectoryEntry}
    (hx : x.isEnd = false) : EndMarked (putSlot d p x) (dirSlots g c (ch c)) := by
  have hm := (hi.dir c hc).endMarked
  have hn := (hi.dir c hc).chained.slots_nodup hg
  have hlt : ∀ q ∈ dirSlots g c (ch c), q.2 < 16 := fun q hq => slot_lt hq
  obtain ⟨pre, post, hsplit, hlive⟩ := firstFree_split hp
  rw [hsplit] at hm hn hlt ⊢
  exact hm.put hlt hn (fun q hq => (DirectoryEntry.isLive_iff.mp (hlive q hq)).1) hx

theorem slotsOf_cluster (hg : g.Valid) (n : Nat) :
    ∃ rest, slotsOf (clusterSectors g n) = headSlot g n :: (g.clusterSector n, 1) :: rest := by
  have hspc := hg.sectorsPerCluster
  unfold slotsOf clusterSectors
  cases hk : g.bpb.sectorsPerCluster with
  | zero => omega
  | succ k =>
    rw [List.range_succ_eq_map, List.map_cons, List.flatMap_cons]
    unfold entriesPerSector
    rw [List.range_succ_eq_map, List.range_succ_eq_map, List.map_cons, List.map_cons,
      List.map_cons, List.cons_append, List.cons_append]
    exact ⟨_, rfl⟩

end Inventory

/-- The entry `x` with the chain `l` is now in slot `p` of directory `dir`, which may have got a
cluster for it. -/
structure Entered (ctx : Ctx Buffer Sector) (g : Globals) (d : Disk) (D : Nat → Prop)
    (ch : Nat → List Nat) (dir : Nat) (x : DirectoryEntry) (l : List Nat) (d' : Disk)
    (D' : Nat → Prop) (ch' : Nat → List Nat) (p : Slot) : Prop where
  kept : Kept g D ch d' D' ch' p (fun c => x.isDirectory = true ∧ c = x.first)
  edit : Edit g d d' (fun c => c ∈ ch dir) p x
  keep : ∀ c, D c → D' c
  slot : p ∈ dirSlots g dir (ch' dir)
  place : (p ∈ dirSlots g dir (ch dir) ∧ (entryAt d p).isFree = true) ∨
    ∃ n, FreeCluster g d n ∧ p.1 ∈ clusterSectors g n
  chain : ch' x.first = l
  longer : ¬ ctx.Faulty → ∀ c, D c → ch c <+: ch' c

namespace Inventory

/-- An entry with a fresh chain is added to a directory. -/
theorem added (hg : g.Valid) (hi : Inventory g d D ch) {dir : Nat} (hdirD : D dir)
    {x : DirectoryEntry} (hadd : Added ctx g d dir (ch dir) x true m) (hx : x.isEnd = false)
    (hl : Chained g d x.first l)
    (hfresh : ∀ h, Head g d D ch h → ∀ y ∈ l, y ∉ ch h)
    (hdir : x.isDirectory = true → EndMarked d (dirSlots g x.first l) ∧
      x.first ≠ 0 ∧ ∀ q ∈ dirSlots g x.first l, (entryAt d q).isLive = true →
        (entryAt d q).isDot = true) :
    ∃ D' ch' p, Entered ctx g d D ch dir x l m.disk D' ch' p := by
  cases hadd with
  | @placed _ p hp hd =>
    have hold : ∀ c, D c → setChain ch x.first l c = ch c :=
      fun c hc => hi.setChain_dir hl hfresh c (zero_or_head hc)
    have hmem := firstFree_mem hp
    rw [hd]
    refine ⟨_, _, p, ⟨(hi.insert hg hdirD hmem (hi.endMarked_firstFree hg hdirD hp hx) hl hfresh
      hdir).1, fun c hc => hc, fun c hc y hy => .inl (hold c hc ▸ hy)⟩,
      .of_scratch (Scratch.refl g d) (slot_not_fat hmem) (slot_lt hmem) .refl, fun c hc => .inl hc,
      by rw [hold dir hdirD]; exact hmem,
      .inl ⟨hmem, firstFree_isFree hp⟩, if_pos rfl,
      fun _ c hc => by simp only [hold c hc, List.prefix_refl]⟩
  | @grown _ pre post t n h0 hsplit hpost hfull hgrown =>
    obtain ⟨mid, hext, hd⟩ := hgrown
    have hlive := firstFree_none hfull
    obtain ⟨hi', hheads⟩ := hi.extend hg hdirD h0 hsplit hlive hext
    have ht : t ∈ ch dir := by rw [hsplit]; simp
    have hnl : n ∉ l := fun hm => hl.ne_zero n hm hext.free
    have htl : t ∉ l := fun hm => hfresh dir (head_of_dir hdirD h0) t hm ht
    have hsetc : setChain ch dir (pre ++ [t, n]) dir = pre ++ [t, n] := if_pos rfl
    have hcut : ∀ y ∈ pre ++ [t], y ∈ ch dir := by
      intro y hy
      rw [hsplit]
      rcases List.mem_append.mp hy with hy | hy
      · exact List.mem_append_left _ hy
      · rw [List.mem_singleton.mp hy]; simp
    have hslots : dirSlots g dir (pre ++ [t, n]) =
        dirSlots g dir (pre ++ [t]) ++ slotsOf (clusterSectors g n) := by
      rw [show pre ++ [t, n] = (pre ++ [t]) ++ [n] by simp, dirSlots_snoc h0]
    -- the head slot of the new cluster is the first free one
    have hpslot : headSlot g n ∈ dirSlots g dir (setChain ch dir (pre ++ [t, n]) dir) := by
      rw [hsetc, hslots]
      exact List.mem_append_right _ (headSlot_mem hg n)
    have hmidOld : ∀ q ∈ dirSlots g dir (pre ++ [t]), (entryAt mid q).isLive = true := by
      intro q hq
      rw [← hlive q hq]
      congr 1
      have hq1 := (mem_slotsOf.mp hq).1
      refine entryAt_congr (hext.touches.sec q.1 (dirSector_not_fat hq1) ?_)
      refine hi.dir_sector_not_cluster hdirD ?_ hext.data
        (fun h hh => hi.free_not_mem hh hext.free)
      rcases mem_dirSectors.mp hq1 with ⟨hz, _⟩ | ⟨_, y, hy, hly⟩
      · exact absurd hz h0
      · exact mem_dirSectors.mpr (.inr ⟨h0, y, hcut y hy, hly⟩)
    have hend : EndMarked (putSlot mid (headSlot g n) x)
        (dirSlots g dir (setChain ch dir (pre ++ [t, n]) dir)) := by
      have hm := (hi'.dir dir hdirD).endMarked
      have hn := (hi'.dir dir hdirD).chained.slots_nodup hg
      have hlt : ∀ q ∈ dirSlots g dir (setChain ch dir (pre ++ [t, n]) dir), q.2 < 16 :=
        fun q hq => slot_lt hq
      obtain ⟨rest, hrest⟩ := slotsOf_cluster hg n
      rw [hsetc, hslots, hrest] at hm hn hlt ⊢
      exact hm.put hlt hn (fun q hq => (DirectoryEntry.isLive_iff.mp (hmidOld q hq)).1) hx
    have hl' : Chained g mid x.first l := by
      refine hl.touches hg hext.touches ?_
      rintro y hy (rfl | rfl)
      · exact htl hy
      · exact hnl hy
    have hfresh' : ∀ h, Head g mid D (setChain ch dir (pre ++ [t, n])) h → ∀ y ∈ l,
        y ∉ setChain ch dir (pre ++ [t, n]) h := by
      intro h hh y hy hmem
      have hold := hfresh h (hheads h hh) y hy
      unfold setChain at hmem
      split at hmem
      · rename_i he
        subst he
        rw [show pre ++ [t, n] = (pre ++ [t]) ++ [n] by simp] at hmem
        rcases List.mem_append.mp hmem with hmem | hmem
        · exact hold (hcut y hmem)
        · exact hnl (List.mem_singleton.mp hmem ▸ hy)
      · exact hold hmem
    -- the slots of a new directory lie in none of the clusters that changed
    have hsame : ∀ q ∈ dirSlots g x.first l, x.first ≠ 0 → entryAt mid q = entryAt d q := by
      intro q hq hz
      have hq1 := (mem_slotsOf.mp hq).1
      refine entryAt_congr (hext.touches.sec q.1 (dirSector_not_fat hq1) ?_)
      intro hqn
      rcases mem_dirSectors.mp hq1 with ⟨h, _⟩ | ⟨_, y, hy, hly⟩
      · exact hz h
      · have := clusterSectors_disjoint (isDataCluster_iff.mp hext.data).1
          (isDataCluster_iff.mp (hl.data_of_mem y hy)).1 hqn hly
        exact hnl (this ▸ hy)
    have hinsert := (hi'.insert hg hdirD hpslot hend hl' hfresh' (fun hxd => by
      obtain ⟨hm, hz, hdots⟩ := hdir hxd
      refine ⟨hm.congr (fun q hq => hsame q hq hz), hz, fun q hq hql => ?_⟩
      rw [hsame q hq hz] at hql ⊢
      exact hdots q hq hql)).1
    have hold : ∀ c, D c → setChain (setChain ch dir (pre ++ [t, n])) x.first l c =
        setChain ch dir (pre ++ [t, n]) c :=
      fun c hc => hi'.setChain_dir hl' hfresh' c (zero_or_head hc)
    have hhead1 : (headSlot g n).1 ∈ clusterSectors g n := (mem_slotsOf.mp (headSlot_mem hg n)).1
    have hedit : Edit g d (putSlot mid (headSlot g n) x) (fun c => c ∈ ch dir) (headSlot g n) x :=
      .of_grown hg ht ⟨mid, hext, rfl⟩
    rw [hd]
    refine ⟨_, _, headSlot g n, ⟨hinsert, fun c hc => hc, fun c hc y hy => ?_⟩, hedit,
      fun c hc => .inl hc, by rw [hold dir hdirD]; exact hpslot,
      .inr ⟨n, ⟨hext.data, hext.free⟩, hhead1⟩, if_pos rfl, fun hnf c hc => ?_⟩
    · rw [hold c hc] at hy
      unfold setChain at hy
      split at hy
      · rename_i he
        subst he
        rw [show pre ++ [t, n] = (pre ++ [t]) ++ [n] by simp] at hy
        rcases List.mem_append.mp hy with hy | hy
        · exact .inl (hcut y hy)
        · right
          intro q hq
          rw [List.mem_singleton.mp hy] at hq
          by_cases hqh : q = headSlot g n
          · exact .inl hqh
          · right
            rw [entryAt_putSlot_ne (mem_slotsOf.mp hq).2 hqh]
            exact hext.unused q hq
      · exact .inl hy
    · rw [hold c hc]
      unfold setChain
      split
      · rename_i he
        subst he
        rw [hsplit, hpost.resolve_right hnf, show pre ++ [t, n] = (pre ++ [t]) ++ [n] by simp]
        exact List.prefix_append _ _
      · exact List.prefix_refl _

end Inventory

theorem putSlot_putSlot (d : Disk) (p : Slot) (x y : DirectoryEntry) :
    putSlot (putSlot d p x) p y = putSlot d p y := by
  funext lba
  by_cases h : lba = p.1
  · subst h
    unfold putSlot
    rw [putSector_self, putSector_self, putSector_self]
    funext k
    unfold Sector.setEntry
    split <;> rfl
  · rw [putSlot_sector_ne h, putSlot_sector_ne h, putSlot_sector_ne h]

theorem deletedEntry_isDeleted (e : DirectoryEntry) : (deletedEntry e).isDeleted = true := rfl

theorem deletedEntry_isLive (e : DirectoryEntry) : (deletedEntry e).isLive = false := by
  simp [DirectoryEntry.isLive, DirectoryEntry.isFree, deletedEntry_isDeleted]

theorem deletedEntry_isEnd (e : DirectoryEntry) : (deletedEntry e).isEnd = false := rfl

namespace Inventory

/-- The entry of a slot is replaced by one with a fresh chain, and the old chain is given up. -/
theorem replaced (hg : g.Valid) (hi : Inventory g d D ch) {c₀ : Nat} {p : Slot} (hc₀ : D c₀)
    (hps : p ∈ dirSlots g c₀ (ch c₀)) (hlive : (entryAt d p).isLive = true)
    (hdot : (entryAt d p).isDot = false) (hown : c₀ = 0 ∨ c₀ ≠ (entryAt d p).first)
    {x : DirectoryEntry} (hx : x.isEnd = false) (hfile : x.isDirectory = false)
    (hl : Chained g d x.first l) (hfresh : ∀ h, Head g d D ch h → ∀ y ∈ l, y ∉ ch h)
    (hlold : ∀ y ∈ l, y ∉ ch (entryAt d p).first) {d' : Disk}
    (ht : Touches g (fun c => c ∈ ch (entryAt d p).first) (fun _ => False) (putSlot d p x) d') :
    ∃ D' ch', Kept g D ch d' D' ch' p (fun _ => False) ∧ (∀ c, D c → ch' c = ch c) ∧ D' c₀ ∧
      ch' x.first = l := by
  have hheld : Held g d D ch p := ⟨c₀, hc₀, hps, hlive, hdot⟩
  obtain ⟨hi1, hheads1⟩ := hi.erase hg hheld (deletedEntry_isLive (entryAt d p))
    (deletedEntry_isEnd (entryAt d p))
  have hend : EndMarked (putSlot (putSlot d p (deletedEntry (entryAt d p))) p x)
      (dirSlots g c₀ (ch c₀)) := by
    rw [putSlot_putSlot]
    exact endMarked_put hg hi hc₀ hps (DirectoryEntry.isLive_iff.mp hlive).1 hx
  obtain ⟨hi2, hheads2⟩ := hi1.insert hg ⟨hc₀, hown⟩ hps hend (chained_put hg hps hl)
    (fun h hh => hfresh h (hheads1 h hh).1) (fun hd => by rw [hfile] at hd; cases hd)
  rw [putSlot_putSlot] at hi2 hheads2
  -- the old chain belongs to no entry any more
  have hfirst : ∀ y ∈ ch (entryAt d p).first, (entryAt d p).first ≠ 0 := by
    intro y hy h0
    rw [h0, (hi.dir 0 hi.root).chained.nil_of_zero] at hy
    cases hy
  have hinv := (hi2.frame hg ht (fun h hh y hy hyold => by
    unfold setChain at hy
    split at hy
    · exact hlold y hy hyold
    · rename_i hne
      obtain ⟨hho, hhne⟩ := hheads1 h ((hheads2 h hh).resolve_left hne)
      have hold : Head g d D ch (entryAt d p).first := ⟨hfirst y hyold, .inr ⟨p, hheld, rfl⟩⟩
      exact hi.disj h _ hho hold hhne y hy hyold) (fun _ _ _ _ => not_false)).1
  have hold : ∀ c, D c → setChain ch x.first l c = ch c :=
    fun c hc => hi.setChain_dir hl hfresh c (zero_or_head hc)
  refine ⟨_, _, ⟨hinv, ?_, fun c hc y hy => .inl (hold c hc ▸ hy)⟩, hold, .inl ⟨hc₀, hown⟩,
    if_pos rfl⟩
  rintro c (hc | ⟨hd, _⟩)
  · exact .inl hc.1
  · rw [hfile] at hd; cases hd

theorem removed (hg : g.Valid) (hi : Inventory g d D ch) {p : Slot} (hp : Held g d D ch p)
    {d' : Disk} (ht : Touches g (fun c => c ∈ ch (entryAt d p).first) (fun _ => False)
      (putSlot d p (deletedEntry (entryAt d p))) d') :
    Kept g D ch d' (Without D (entryAt d p).first) ch p (fun _ => False) := by
  obtain ⟨hi1, hheads1⟩ := hi.erase hg hp (deletedEntry_isLive (entryAt d p))
    (deletedEntry_isEnd (entryAt d p))
  have hfirst : ∀ y ∈ ch (entryAt d p).first, (entryAt d p).first ≠ 0 := by
    intro y hy h0
    rw [h0, (hi.dir 0 hi.root).chained.nil_of_zero] at hy
    cases hy
  refine ⟨(hi1.frame hg ht (fun h hh y hy hyold => ?_) (fun _ _ _ _ => not_false)).1,
    fun c hc => .inl hc.1, fun c _ y hy => .inl hy⟩
  obtain ⟨hho, hhne⟩ := hheads1 h hh
  exact hi.disj h _ hho ⟨hfirst y hyold, .inr ⟨p, hp, rfl⟩⟩ hhne y hy hyold

end Inventory

namespace WellFormed

theorem not_own_entry (hg : g.Valid) (h : WellFormed g d) (hc : IsDir g d c) :
    ∀ p, p ∈ dirSlots g c (chainOf g d c) → (entryAt d p).isLive = true →
      (entryAt d p).isDot = false → c = 0 ∨ c ≠ (entryAt d p).first := by
  have hi := h.inventory hg
  induction hc with
  | root => exact fun _ _ _ _ => .inl rfl
  | @sub c l q hc hl hq hqlive hqdot hqdir ih =>
    intro p hp hlive hdot
    by_cases h0 : (entryAt d q).first = 0
    · exact .inl h0
    · right
      intro he
      have hqs : q ∈ dirSlots g c (chainOf g d c) := by rw [chainOf_eq hg hl]; exact hq
      have hsub : IsDir g d (entryAt d q).first := .sub hc hl hq hqlive hqdot hqdir
      have hqp := hi.inj q p ⟨c, hc, hqs, hqlive, hqdot⟩ ⟨_, hsub, hp, hlive, hdot⟩ he h0
      subst hqp
      -- the slot lies in the directory and in its parent, so they are the same
      have hcc := hi.slot_unique hc hsub hqs hp
      rcases ih q hqs hqlive hqdot with hz | hne
      · exact h0 (hcc ▸ hz)
      · exact hne hcc

end WellFormed

end Fat16
end MiniDos
