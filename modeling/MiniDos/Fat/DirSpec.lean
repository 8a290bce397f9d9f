import MiniDos.Fat.Slots

/-!
# MiniDos.Fat.DirSpec

What the directory functions of the driver do, in every context, on a directory whose slots are
known.

* `wp_findEntryInternal`: the lookup is `lookup` on the list of slots.
* `wp_addDirEntry`: a new entry goes to the first free slot; a full directory gets a new cluster.
* `wp_updateEntry`, `wp_markDeleted`: one slot is replaced.
* The `_frame` lemmas need no assumption on the directory at all.
-/

namespace MiniDos
namespace Fat16

open BlockIO Chain

variable {ctx : Ctx Buffer Sector} {g : Globals} {m : DriverMem}
variable {l : List Nat} {d : Disk} {c : Nat} {ps : List Slot} {p : Slot} {e : DirectoryEntry}
  {dir fuel : Nat} {name : CStr} {attributes : UInt8}

/-! ## Directories -/

/-- The chain of an entry or directory with first cluster `c`: none for cluster 0. -/
def Chained (g : Globals) (d : Disk) (c : Nat) (l : List Nat) : Prop :=
  (c = 0 ∧ l = []) ∨ (l ≠ [] ∧ ChainOf g d c l)

def rootSectors (g : Globals) : List Nat :=
  (List.range g.getRootDirSectors).map (fun s => g.getRootDirStart + s)

/-- The sectors of the directory `c` with chain `l`; 0 is the root directory. -/
def dirSectors (g : Globals) (c : Nat) (l : List Nat) : List Nat :=
  if c = 0 then rootSectors g else l.flatMap (clusterSectors g)

def dirSlots (g : Globals) (c : Nat) (l : List Nat) : List Slot := slotsOf (dirSectors g c l)

/-- The slot at which the lookup of `name` ends. -/
def lookup (name : CStr) (d : Disk) (ps : List Slot) : Option Slot :=
  ps.find? (fun p => (entryAt d p).hits name)

def firstFree (d : Disk) (ps : List Slot) : Option Slot :=
  ps.find? (fun p => (entryAt d p).isFree)

def locate (d : Disk) (p : Slot) : Located := ⟨entryAt d p, p.1, p.2⟩

/-- A directory the driver can work on: it has its chain and is end-marked. -/
structure DirOk (g : Globals) (d : Disk) (dir : Nat) (l : List Nat) : Prop where
  chained : Chained g d dir l
  endMarked : EndMarked d (dirSlots g dir l)

theorem Chained.data_of_mem (h : Chained g d c l) :
    ∀ x ∈ l, g.isDataCluster x = true := by
  rcases h with ⟨_, rfl⟩ | ⟨_, h⟩
  · intro x hx; cases hx
  · exact h.node_of_mem

theorem Chained.chainOf (h : Chained g d c l) (hc : c ≠ 0) :
    ChainOf g d c l := by
  rcases h with ⟨h0, _⟩ | ⟨_, h⟩
  · exact absurd h0 hc
  · exact h

theorem Chained.ne_nil (h : Chained g d c l) (hc : c ≠ 0) :
    l ≠ [] := by
  rcases h with ⟨h0, _⟩ | ⟨h, _⟩
  · exact absurd h0 hc
  · exact h

theorem Chained.nil_of_zero (h : Chained g d 0 l) : l = [] := by
  rcases h with ⟨_, h⟩ | ⟨hl, h⟩
  · exact h
  · cases l with
    | nil => rfl
    | cons x l =>
      have h0 : 0 = x := h.start_eq
      have := (isDataCluster_iff.mp h.2.1).1
      omega

theorem Chained.head_mem (h : Chained g d c l) (hc : c ≠ 0) :
    c ∈ l := by
  have hch := h.chainOf hc
  cases l with
  | nil => exact absurd rfl (h.ne_nil hc)
  | cons x l =>
    have : c = x := hch.start_eq
    rw [this]
    exact List.mem_cons_self

theorem Chained.two_le (h : Chained g d c l) (hc : c ≠ 0) :
    2 ≤ c := (isDataCluster_iff.mp (h.data_of_mem c (h.head_mem hc))).1

theorem Chained.unique (hg : g.Valid) {l l' : List Nat}
    (h : Chained g d c l) (h' : Chained g d c l') : l = l' := by
  by_cases hc : c = 0
  · subst hc
    rw [h.nil_of_zero, h'.nil_of_zero]
  · exact IsChain.unique (fun x => data_not_endMark hg) (h.chainOf hc) (h'.chainOf hc)

theorem Chained.touches (hg : g.Valid) {X S : Nat → Prop} {d d' : Disk}
    (h : Chained g d c l) (ht : Touches g X S d d') (hX : ∀ c ∈ l, ¬ X c) : Chained g d' c l := by
  rcases h with h | ⟨hl, h⟩
  · exact .inl h
  · exact .inr ⟨hl, h.touches hg ht hX⟩

theorem Chained.length_le (hg : g.Valid)
    (h : Chained g d c l) : l.length ≤ g.getTotalClusters := by
  rcases h with ⟨_, rfl⟩ | ⟨_, h⟩
  · exact Nat.zero_le _
  · exact (h.from hg).length_le

theorem Chained.nodup (hg : g.Valid)
    (h : Chained g d c l) : l.Nodup := by
  rcases h with ⟨_, rfl⟩ | ⟨_, h⟩
  · exact List.nodup_nil
  · exact (h.from hg).nodup

theorem Chained.ne_zero (h : Chained g d c l) :
    ∀ x ∈ l, fatGet g d x ≠ 0 := by
  rcases h with ⟨_, rfl⟩ | ⟨_, h⟩
  · intro x hx; cases hx
  · exact ChainOf.ne_zero h

theorem mem_rootSectors {lba : Nat} :
    lba ∈ rootSectors g ↔ g.getRootDirStart ≤ lba ∧ lba < g.getDataStart := by
  unfold rootSectors Globals.getDataStart
  simp only [List.mem_map, List.mem_range]
  constructor
  · rintro ⟨s, hs, rfl⟩; omega
  · intro h; exact ⟨lba - g.getRootDirStart, by omega, by omega⟩

theorem mem_dirSectors {c lba : Nat} : lba ∈ dirSectors g c l ↔
    (c = 0 ∧ lba ∈ rootSectors g) ∨ (c ≠ 0 ∧ ∃ x ∈ l, lba ∈ clusterSectors g x) := by
  unfold dirSectors
  split
  · rename_i h; simp [h]
  · rename_i h; simp [h, List.mem_flatMap]

theorem dirSlots_snoc (h0 : c ≠ 0) (l : List Nat) (n : Nat) :
    dirSlots g c (l ++ [n]) = dirSlots g c l ++ slotsOf (clusterSectors g n) := by
  unfold dirSlots dirSectors
  rw [if_neg h0, if_neg h0, List.flatMap_append, slotsOf_append, List.flatMap_singleton]

theorem dirSector_not_fat {c lba : Nat} (h : lba ∈ dirSectors g c l) :
    ¬ g.isFatSector lba := by
  rcases mem_dirSectors.mp h with ⟨_, h⟩ | ⟨_, x, _, h⟩
  · rw [mem_rootSectors] at h
    unfold Globals.isFatSector
    omega
  · exact clusterSector_not_fat h

theorem clusterSectors_nodup (c : Nat) : (clusterSectors g c).Nodup := by
  refine List.Nodup.map ?_ List.nodup_range
  intro a b hab
  simp only at hab
  omega

theorem dirSectors_nodup (hn : l.Nodup)
    (hd : ∀ x ∈ l, g.isDataCluster x = true) : (dirSectors g c l).Nodup := by
  unfold dirSectors
  split
  · refine List.Nodup.map ?_ List.nodup_range
    intro a b hab
    simp only at hab
    omega
  · refine List.nodup_flatMap.mpr ⟨fun x _ => clusterSectors_nodup x, ?_⟩
    refine List.Pairwise.imp_of_mem ?_ hn
    intro x y hx hy hxy lba h1 h2
    exact hxy (clusterSectors_disjoint (isDataCluster_iff.mp (hd x hx)).1
      (isDataCluster_iff.mp (hd y hy)).1 h1 h2)

theorem Chained.slots_nodup (hg : g.Valid)
    (h : Chained g d c l) : (dirSlots g c l).Nodup :=
  slotsOf_nodup (dirSectors_nodup (h.nodup hg) h.data_of_mem)

/-! ## Lookup -/

/-- What the body of the lookup decides on a sector. -/
def findResult (name : CStr) (lba : Nat) (s : Sector) : Option (Option Located) :=
  match scanSector (findVerdict name) s with
  | .more => none
  | .stopped => some none
  | .found i => some (some ⟨s.entry i, lba, i⟩)

theorem findBody_reads (name : CStr) : ReadsSector ctx (findBody name) (findResult name) none := by
  intro m lba
  unfold findBody findResult
  simp only [Prog.wp_bind, wp_readSector]
  refine ⟨fun hf => ⟨rfl, rfl, .inr ⟨⟨m, hf, rfl⟩, rfl⟩⟩, ?_⟩
  simp only [if_true, Prog.wp_bind, wp_load, Mem.fetch_buf]
  cases scanSector (findVerdict name) (m.disk lba) <;> exact ⟨rfl, rfl, .inl rfl⟩

theorem findResult_eq (name : CStr) (d : Disk) (lba : Nat) : findResult name lba (d lba) =
    ((scanSector (findVerdict name) (d lba)).toSlot lba).map (Option.map (locate d)) := by
  unfold findResult
  cases scanSector (findVerdict name) (d lba) <;> rfl

theorem findSome?_map_comp {α γ δ : Type} (f : α → Option γ) (h : γ → δ) (l : List α) :
    l.findSome? (fun a => (f a).map h) = (l.findSome? f).map h := by
  induction l with
  | nil => rfl
  | cons a l ih =>
    rw [List.findSome?_cons, List.findSome?_cons]
    cases f a with
    | none => exact ih
    | some x => rfl

theorem findSome?_findResult {secs : List Nat} (h : EndMarked d (slotsOf secs))
    (name : CStr) : (secs.findSome? (fun lba => findResult name lba (d lba))).getD none =
      (lookup name d (slotsOf secs)).map (locate d) := by
  have hrw : (fun lba => findResult name lba (d lba)) = fun lba =>
      ((scanSector (findVerdict name) (d lba)).toSlot lba).map (Option.map (locate d)) :=
    funext (findResult_eq name d)
  have hfind := h.find (f := findVerdict name) (G := DirectoryEntry.hits name)
    (fun _ => findVerdict_hit) (fun _ => findVerdict_stop)
    (fun _ he => (DirectoryEntry.isLive_iff.mp (DirectoryEntry.isLive_of_hits he)).1)
  rw [hrw, findSome?_map_comp, findSome?_scanSector]
  unfold lookup
  rw [← hfind]
  cases (slotsOf secs).findSome? (pick (findVerdict name) d) <;> rfl

/-- `fat16_find_entry_internal`; when an access fails nothing is found. -/
theorem wp_findEntryInternal (hg : g.Valid)
    (hd : DirOk g m.disk dir l) (hfuel : g.getTotalClusters ≤ fuel) (name : CStr) :
    (findEntryInternal g fuel dir name).wp ctx (fun r m' => m'.disk = m.disk ∧
      m'.stores = m.stores ∧
      (r = (lookup name m.disk (dirSlots g dir l)).map (locate m.disk) ∨
        (ctx.Failed m ∧ r = none))) m := by
  have hlen := hd.chained.length_le hg
  have hfind := findSome?_findResult hd.endMarked name
  unfold findEntryInternal forDirSectors
  rw [Prog.wp_bind]
  by_cases h0 : dir = 0
  · subst h0
    rw [if_pos rfl]
    refine Prog.wp_mono (wp_forSectors (findBody_reads name) _ _ 0 m) ?_
    rintro r m' ⟨hd', hst, hr⟩
    rw [← List.range_eq_range'] at hr
    refine ⟨hd', hst, hr.imp (fun hr => ?_) (fun ⟨hf, hr⟩ => ⟨hf, by rw [hr]; rfl⟩)⟩
    rw [hr]
    exact hfind
  · rw [if_neg h0]
    refine Prog.wp_mono (wp_whileDataCluster hg (findBody_reads name) l fuel dir m
      ((hd.chained.chainOf h0).from hg) (by omega)) ?_
    rintro r m' ⟨hd', hst, hr⟩
    refine ⟨hd', hst, hr.imp (fun hr => ?_) (fun ⟨hf, hr⟩ => ⟨hf, ?_⟩)⟩
    · rw [hr]
      unfold dirSlots dirSectors at hfind ⊢
      rw [if_neg h0] at hfind ⊢
      exact hfind
    · rcases hr with hr | hr <;> rw [hr] <;> rfl

theorem wp_findEntryInternal_frame (hdiv : ctx.mayDiverge) (dir fuel : Nat) (name : CStr) :
    (findEntryInternal g fuel dir name).wp ctx
      (fun _ m' => m'.disk = m.disk ∧ m'.stores = m.stores) m := by
  unfold findEntryInternal forDirSectors
  rw [Prog.wp_bind]
  split
  · exact Prog.wp_mono (wp_forSectors (findBody_reads name) _ _ 0 m)
      (fun r m' h => ⟨h.1, h.2.1⟩)
  · exact wp_whileDataCluster_frame hdiv (findBody_reads name) fuel dir m

theorem lookup_mem
    (h : lookup name d ps = some p) : p ∈ ps := List.mem_of_find?_eq_some h

theorem lookup_hits
    (h : lookup name d ps = some p) : (entryAt d p).hits name = true := by
  have := List.find?_some h
  simpa using this

/-! ## Emptiness -/

def emptyResult (_ : Nat) (s : Sector) : Option Bool :=
  match scanSector emptyVerdict s with
  | .more => none
  | .stopped => some true
  | .found _ => some false

theorem emptyBody_reads : ReadsSector ctx emptyBody emptyResult false := by
  intro m lba
  unfold emptyBody emptyResult
  simp only [Prog.wp_bind, wp_readSector]
  refine ⟨fun hf => ⟨rfl, rfl, .inr ⟨⟨m, hf, rfl⟩, rfl⟩⟩, ?_⟩
  simp only [if_true, Prog.wp_bind, wp_load, Mem.fetch_buf]
  cases scanSector emptyVerdict (m.disk lba) <;> exact ⟨rfl, rfl, .inl rfl⟩

theorem wp_isDirectoryEmpty (hg : g.Valid) {c fuel : Nat}
    (hc : Chained g m.disk c l) (hfuel : g.getTotalClusters ≤ fuel) :
    (isDirectoryEmpty g fuel c).wp ctx (fun _ m' => m'.disk = m.disk ∧ m'.stores = m.stores) m := by
  have hlen := hc.length_le hg
  unfold isDirectoryEmpty
  split
  · exact ⟨rfl, rfl⟩
  · rename_i h2
    rw [Prog.wp_bind]
    refine Prog.wp_mono (wp_whileDataCluster hg emptyBody_reads l fuel c m
      ((hc.chainOf (by omega)).from hg) (by omega)) ?_
    exact fun r m' h => ⟨h.1, h.2.1⟩

theorem wp_isDirectoryEmpty_frame (hdiv : ctx.mayDiverge) (fuel c : Nat) :
    (isDirectoryEmpty g fuel c).wp ctx (fun _ m' => m'.disk = m.disk ∧ m'.stores = m.stores) m := by
  unfold isDirectoryEmpty
  split
  · exact ⟨rfl, rfl⟩
  · rw [Prog.wp_bind]
    exact wp_whileDataCluster_frame hdiv emptyBody_reads fuel c m

/-! ## Replacing one slot -/

/-- The disk is `d'`, or an access failed and it is still `d`. -/
def Stored (ctx : Ctx Buffer Sector) (d d' : Disk) (ok : Bool) (m : DriverMem) : Prop :=
  (ok = true ∧ m.disk = d') ∨ (ok = false ∧ m.disk = d ∧ ctx.Failed m)

theorem wp_editSector (sector : Nat) (f : Sector → Sector)
    (hinv : ctx.inv (putSector m.disk sector (f (m.disk sector)))) :
    (do
      let ok ← readSector Buffer.main sector
      if ok then do
        let s ← load Buffer.main
        store .main (f s)
        writeSector .main sector
      else pure false : DiskProg Bool).wp ctx
      (Stored ctx m.disk (putSector m.disk sector (f (m.disk sector)))) m := by
  simp only [Prog.wp_bind, wp_readSector]
  refine ⟨fun hf => .inr ⟨rfl, rfl, ⟨m, hf, rfl⟩⟩, ?_⟩
  simp only [if_true, Prog.wp_bind, wp_load, wp_store, wp_writeSector, Mem.fetch_buf,
    Mem.setBuf_disk, Mem.setBuf_buf, Mem.fetch_disk]
  refine ⟨fun hf => .inr ⟨rfl, rfl, ⟨_, hf, rfl⟩⟩, hinv, .inl ⟨rfl, ?_⟩⟩
  simp only [Mem.flush_disk, Mem.setBuf_disk, Mem.setBuf_buf, Mem.fetch_disk]

theorem wp_writeDirEntryAt {sector index : Nat}
    (hinv : ctx.inv (putSlot m.disk (sector, index) e)) :
    (writeDirEntryAt sector index e).wp ctx
      (Stored ctx m.disk (putSlot m.disk (sector, index) e)) m :=
  wp_editSector sector (fun s => s.setEntry index e) hinv

theorem wp_markDeleted {sector index : Nat}
    (hinv : ctx.inv (putSlot m.disk (sector, index)
      (deletedEntry (entryAt m.disk (sector, index))))) :
    (markDeleted sector index).wp ctx (Stored ctx m.disk (putSlot m.disk (sector, index)
      (deletedEntry (entryAt m.disk (sector, index))))) m :=
  wp_editSector sector (fun s => s.setEntry index (deletedEntry (s.entry index))) hinv

/-! ## Updating an entry -/

/-- What `fat16_update_entry` has done when it returns 1: the slot of the old name has the new
name, which no entry had, and the new cluster, size and attributes. -/
structure Updated (ctx : Ctx Buffer Sector) (d : Disk) (ps : List Slot) (oldName newName : CStr)
    (firstCluster fileSize : Nat) (attributes : UInt8) (p : Slot) (name83 : Name)
    (m : DriverMem) : Prop where
  format : formatName newName = some name83
  found : lookup oldName d ps = some p
  free : (∀ i, (entryAt d p).name i = name83 i) ∨ lookup newName d ps = none ∨ ctx.Faulty
  disk : m.disk = putSlot d p (updatedEntry (entryAt d p) name83 firstCluster fileSize attributes)

theorem wp_updateEntry (hg : g.Valid)
    (hd : DirOk g m.disk dir l) (hfuel : g.getTotalClusters ≤ fuel) {oldName newName : CStr}
    {firstCluster fileSize : Nat}
    (hinv : ∀ p name83, lookup oldName m.disk (dirSlots g dir l) = some p →
      formatName newName = some name83 → ((∀ i, (entryAt m.disk p).name i = name83 i) ∨
        lookup newName m.disk (dirSlots g dir l) = none ∨ ctx.Faulty) →
      ctx.inv (putSlot m.disk p
        (updatedEntry (entryAt m.disk p) name83 firstCluster fileSize attributes))) :
    (updateEntry g fuel dir oldName newName firstCluster fileSize attributes).wp ctx
      (fun ok m' => (ok = false ∧ m'.disk = m.disk) ∨ (ok = true ∧ ∃ p name83,
        Updated ctx m.disk (dirSlots g dir l) oldName newName firstCluster fileSize attributes p
          name83 m')) m := by
  unfold updateEntry
  split
  · exact .inl ⟨rfl, rfl⟩
  cases hn : formatName newName with
  | none => exact .inl ⟨rfl, rfl⟩
  | some name83 =>
    simp only [Prog.wp_bind]
    refine Prog.wp_mono (wp_findEntryInternal hg hd hfuel oldName) ?_
    rintro r m1 ⟨hd1, hst1, hr⟩
    cases r with
    | none => exact .inl ⟨rfl, hd1⟩
    | some current =>
      rcases hr with hr | ⟨_, hr⟩
      · cases hp : lookup oldName m.disk (dirSlots g dir l) with
        | none => rw [hp] at hr; cases hr
        | some p =>
          rw [hp] at hr
          obtain rfl := Option.some.inj hr
          have hstore : ∀ m2 : DriverMem, m2.disk = m.disk →
              ((∀ i, (entryAt m.disk p).name i = name83 i) ∨
                lookup newName m.disk (dirSlots g dir l) = none ∨ ctx.Faulty) → _ :=
            fun m2 hd2 hfree => by
              have hw := wp_editSector p.1 (fun s => s.setEntry p.2
                (updatedEntry (s.entry p.2) name83 firstCluster fileSize attributes))
                (by rw [hd2]; exact hinv p name83 hp hn hfree)
              rw [hd2] at hw
              have hpost : ∀ ok m3, Stored ctx m.disk (putSlot m.disk (p.1, p.2) (updatedEntry
                  (entryAt m.disk (p.1, p.2)) name83 firstCluster fileSize attributes)) ok m3 →
                  (ok = false ∧ m3.disk = m.disk) ∨ (ok = true ∧ ∃ p name83,
                    Updated ctx m.disk (dirSlots g dir l) oldName newName firstCluster fileSize
                      attributes p name83 m3) := by
                rintro ok m3 (⟨rfl, hd3⟩ | ⟨rfl, hd3, _⟩)
                · exact .inr ⟨rfl, p, name83, hn, hp, hfree, hd3⟩
                · exact .inl ⟨rfl, hd3⟩
              exact Prog.wp_mono hw hpost
          by_cases hsame : ∀ i, (locate m.disk p).entry.name i = name83 i
          · simp only [hsame, implies_true, if_true]
            exact hstore m1 hd1 (.inl hsame)
          · -- the new name is looked up only when it differs
            simp only [hsame, if_false, Prog.wp_bind]
            have hd' : DirOk g m1.disk dir l := by rw [hd1]; exact hd
            refine Prog.wp_mono (wp_findEntryInternal hg hd' hfuel newName) ?_
            rintro r m2 ⟨hd2, _, hr2⟩
            cases r with
            | some _ => exact .inl ⟨rfl, hd2.trans hd1⟩
            | none =>
              refine (Prog.wp_bind _ _ _ _).mp (hstore m2 (hd2.trans hd1) (.inr ?_))
              rcases hr2 with hr2 | ⟨hf, _⟩
              · left
                rw [hd1] at hr2
                exact Option.map_eq_none_iff.mp hr2.symm
              · exact .inr hf.faulty
      · cases hr

/-! ## Adding an entry -/

theorem firstFree_append (d : Disk) (a b : List Slot) :
    firstFree d (a ++ b) = (firstFree d a).or (firstFree d b) := List.find?_append

theorem firstFree_mem (h : firstFree d ps = some p) :
    p ∈ ps := List.mem_of_find?_eq_some h

theorem firstFree_isFree (h : firstFree d ps = some p) :
    (entryAt d p).isFree = true := by
  have := List.find?_some h
  simpa using this

theorem firstFree_split (h : firstFree d ps = some p) :
    ∃ pre post, ps = pre ++ p :: post ∧ ∀ q ∈ pre, (entryAt d q).isLive = true := by
  obtain ⟨_, pre, post, rfl, hpre⟩ := List.find?_eq_some_iff_append.mp h
  refine ⟨pre, post, rfl, fun q hq => ?_⟩
  have := hpre q hq
  simpa [DirectoryEntry.isLive] using this

theorem firstFree_none (h : firstFree d ps = none) :
    ∀ q ∈ ps, (entryAt d q).isLive = true := by
  intro q hq
  have := List.find?_eq_none.mp h q hq
  simpa [DirectoryEntry.isLive] using this

/-- The scan of one sector for a free slot. -/
theorem scanSector_free (d : Disk) (lba : Nat) :
    scanSector freeVerdict (d lba) = match firstFree d (slotsOf [lba]) with
      | none => .more
      | some p => .found p.2 := by
  have hs := scanSector_toSlot freeVerdict d lba
  have hlist : (List.range entriesPerSector).map (fun k => (lba, k)) = slotsOf [lba] := by
    simp [slotsOf]
  rw [hlist] at hs
  have hfind : (slotsOf [lba]).findSome? (pick freeVerdict d) =
      (firstFree d (slotsOf [lba])).map some := by
    unfold firstFree
    generalize slotsOf [lba] = ps
    induction ps with
    | nil => rfl
    | cons p ps ih =>
      rw [List.findSome?_cons, List.find?_cons]
      cases hv : freeVerdict (entryAt d p) with
      | hit =>
        rw [pick_hit hv, freeVerdict_hit.mp hv]
        rfl
      | stop => exact absurd hv freeVerdict_ne_stop
      | skip =>
        have hnf : (entryAt d p).isFree = false := by
          cases hf : (entryAt d p).isFree with
          | false => rfl
          | true => rw [freeVerdict_hit.mpr hf] at hv; cases hv
        rw [pick_skip hv, hnf]
        exact ih
  rw [hfind] at hs
  cases hp : firstFree d (slotsOf [lba]) with
  | none =>
    rw [hp] at hs
    cases hsc : scanSector freeVerdict (d lba) with
    | more => rfl
    | stopped => rw [hsc] at hs; cases hs
    | found i => rw [hsc] at hs; cases hs
  | some p =>
    rw [hp] at hs
    cases hsc : scanSector freeVerdict (d lba) with
    | more => rw [hsc] at hs; cases hs
    | stopped => rw [hsc] at hs; cases hs
    | found i =>
      rw [hsc] at hs
      have hip : (lba, i) = p := Option.some.inj (Option.some.inj hs)
      rw [← hip]

/-- How the search for a free slot among `ps` ends, from disk `d`. -/
inductive Place (ctx : Ctx Buffer Sector) (d : Disk) (ps : List Slot) (e : DirectoryEntry) :
    Option Bool → DriverMem → Prop where
  | full {m : DriverMem} (hd : m.disk = d) (hfull : firstFree d ps = none) : Place ctx d ps e none m
  | placed {m : DriverMem} {p : Slot} (hp : firstFree d ps = some p)
      (hd : m.disk = putSlot d p e) : Place ctx d ps e (some true) m
  | failed {m : DriverMem} (hd : m.disk = d) (hf : ctx.Failed m) : Place ctx d ps e (some false) m

theorem wp_placeBody (hinv : ∀ d, ctx.inv d) (lba : Nat) :
    (placeBody e lba).wp ctx (Place ctx m.disk (slotsOf [lba]) e) m := by
  unfold placeBody
  simp only [Prog.wp_bind, wp_readSector]
  refine ⟨fun hf => .failed rfl ⟨m, hf, rfl⟩, ?_⟩
  simp only [if_true, Prog.wp_bind, wp_load, Mem.fetch_buf, scanSector_free]
  cases hp : firstFree m.disk (slotsOf [lba]) with
  | none => exact .full rfl hp
  | some p =>
    have hlba : p.1 = lba := by simpa using (mem_slotsOf.mp (firstFree_mem hp)).1
    simp only [Prog.wp_bind, wp_store, wp_writeSector, Mem.setBuf_disk, Mem.setBuf_buf,
      Mem.fetch_disk]
    refine ⟨fun hf => .failed rfl ⟨_, hf, rfl⟩, hinv _, .placed hp ?_⟩
    simp only [Mem.flush_disk, Mem.setBuf_disk, Mem.setBuf_buf, Mem.fetch_disk]
    rw [← hlba]
    rfl

theorem wp_placeSectors (hinv : ∀ d, ctx.inv d) (base : Nat) :
    ∀ (n s : Nat) (m : DriverMem), (forSectors base (placeBody e) n s).wp ctx
      (Place ctx m.disk (slotsOf ((List.range' s n).map (fun i => base + i))) e) m := by
  intro n
  induction n with
  | zero => intro s m; exact .full rfl rfl
  | succ n ih =>
    intro s m
    unfold forSectors
    rw [Prog.wp_bind, List.range'_succ, List.map_cons, ← List.singleton_append, slotsOf_append]
    refine Prog.wp_mono (wp_placeBody hinv (base + s)) ?_
    intro r m' hr
    cases hr with
    | full hd hfull =>
      refine Prog.wp_mono (ih (s + 1) m') ?_
      intro r m'' hr
      rw [hd] at hr
      cases hr with
      | full hd' hfull' => exact .full hd' (by rw [firstFree_append, hfull, hfull']; rfl)
      | placed hp hd' => exact .placed (by rw [firstFree_append, hfull, hp]; rfl) hd'
      | failed hd' hf => exact .failed hd' hf
    | placed hp hd => exact .placed (by rw [firstFree_append, hp]; rfl) hd
    | failed hd hf => exact .failed hd hf

/-- How the search along the chain `l` ends: in a slot, in a failure, or at the last cluster
`t` of the part that was searched. That part is all of the chain unless an access failed. -/
inductive PlaceChain (ctx : Ctx Buffer Sector) (g : Globals) (d : Disk) (l : List Nat)
    (e : DirectoryEntry) : Except Nat Bool → DriverMem → Prop where
  | placed {m : DriverMem} {p : Slot} (hp : firstFree d (slotsOf (l.flatMap (clusterSectors g))) =
      some p) (hd : m.disk = putSlot d p e) : PlaceChain ctx g d l e (.ok true) m
  | failed {m : DriverMem} (hd : m.disk = d) (hf : ctx.Failed m) :
      PlaceChain ctx g d l e (.ok false) m
  | full {m : DriverMem} {pre post : List Nat} {t : Nat} (hd : m.disk = d)
      (hl : l = pre ++ t :: post)
      (hfull : firstFree d (slotsOf ((pre ++ [t]).flatMap (clusterSectors g))) = none)
      (hpost : post = [] ∨ ctx.Faulty) : PlaceChain ctx g d l e (.error t) m

theorem wp_placeInChain (hg : g.Valid) (hinv : ∀ d, ctx.inv d) :
    ∀ (l : List Nat) (fuel c : Nat) (m : DriverMem), l ≠ [] → ChainFrom g m.disk c l →
      l.length ≤ fuel → (placeInChain g e fuel c).wp ctx (PlaceChain ctx g m.disk l e) m := by
  intro l
  induction l with
  | nil => intro fuel c m hl; exact absurd rfl hl
  | cons x l ih =>
    intro fuel c m _ hc hlen
    obtain ⟨rfl, hx, hl⟩ := hc
    cases fuel with
    | zero => simp at hlen
    | succ fuel =>
      unfold placeInChain
      simp only [hx, if_true, Prog.wp_bind]
      have hsecs := wp_placeSectors (e := e) hinv (g.clusterSector c) g.bpb.sectorsPerCluster 0 m
      rw [← List.range_eq_range'] at hsecs
      refine Prog.wp_mono hsecs ?_
      intro r m1 hr
      have hsplit : slotsOf ((c :: l).flatMap (clusterSectors g)) =
          slotsOf (clusterSectors g c) ++ slotsOf (l.flatMap (clusterSectors g)) := by
        rw [List.flatMap_cons, slotsOf_append]
      cases hr with
      | placed hp hd =>
        have hp' : firstFree m.disk (slotsOf (clusterSectors g c)) = some _ := hp
        exact .placed (by rw [hsplit, firstFree_append, hp']; rfl) hd
      | failed hd hf => exact .failed hd hf
      | full hd hfull =>
        have hfull' : firstFree m.disk (slotsOf (clusterSectors g c)) = none := hfull
        simp only [Prog.wp_bind, getNextCluster, Nat.mod_eq_of_lt (data_lt hg hx)]
        refine Prog.wp_mono (wp_readFatEntry c) ?_
        rintro v m2 ⟨hd2, _, hv⟩
        have hdisk : m2.disk = m.disk := hd2.trans hd
        by_cases hdata : g.isDataCluster v = true
        · rcases hv with hv | ⟨_, hv⟩
          · rw [if_pos hdata]
            have hch : ChainFrom g m2.disk v l := by rw [hv, hdisk, hd]; exact hl
            have hne : l ≠ [] := by
              rintro rfl
              exact data_not_stop v hdata hch
            refine Prog.wp_mono (ih fuel v m2 hne hch (by simp at hlen; omega)) ?_
            intro r m3 hr
            rw [hdisk] at hr
            cases hr with
            | placed hp hd3 =>
              exact .placed (by rw [hsplit, firstFree_append, hfull']; exact hp) hd3
            | failed hd3 hf => exact .failed hd3 hf
            | @full _ pre post t hd3 hl3 hfull3 hpost =>
              refine .full hd3 (show c :: l = (c :: pre) ++ t :: post by rw [hl3]; rfl) ?_ hpost
              rw [List.cons_append, List.flatMap_cons, slotsOf_append, firstFree_append, hfull']
              exact hfull3
          · rw [hv, endMark_not_data hg (endOfChain_isEndMark g)] at hdata
            cases hdata
        · rw [if_neg hdata]
          refine .full hdisk (show c :: l = [] ++ c :: l from rfl) (by simpa using hfull') ?_
          rcases hv with hv | ⟨hf, _⟩
          · left
            cases l with
            | nil => rfl
            | cons y l =>
              have hy : v = y := by rw [hv, hd]; exact hl.1
              exact absurd (hy ▸ hl.2.1) hdata
          · exact .inr hf.faulty

theorem zero_entry_isEnd (i : Nat) : (Sector.zero.entry i).isEnd = true := by
  unfold DirectoryEntry.isEnd DirectoryEntry.nameAt Sector.entry DirectoryEntry.ofBytes
  simp [Sector.get, Sector.zero]

def headSlot (g : Globals) (n : Nat) : Slot := (g.clusterSector n, 0)

theorem headSlot_mem (hg : g.Valid) (n : Nat) : headSlot g n ∈ slotsOf (clusterSectors g n) := by
  have := hg.sectorsPerCluster
  refine mem_slotsOf.mpr ⟨mem_clusterSectors.mpr ?_, Nat.zero_lt_succ 15⟩
  simp only [headSlot]
  omega

/-- The free cluster `n` is chained behind cluster `t` and holds nothing but unused slots. -/
structure Extended (g : Globals) (d : Disk) (t n : Nat) (d' : Disk) : Prop where
  data : g.isDataCluster n = true
  free : fatGet g d n = 0
  touches : Touches g (fun c => c = t ∨ c = n) (fun lba => lba ∈ clusterSectors g n) d d'
  link : fatGet g d' t = n
  last : g.isEndMark (fatGet g d' n)
  unused : ∀ p ∈ slotsOf (clusterSectors g n), (entryAt d' p).isEnd = true

/-- The directory with last cluster `t` has got the new cluster `n` with the entry in front. -/
def Grown (g : Globals) (d : Disk) (t n : Nat) (e : DirectoryEntry) (d' : Disk) : Prop :=
  ∃ mid, Extended g d t n mid ∧ d' = putSlot mid (headSlot g n) e

/-- How `growDir` ends: grown, no free cluster, or an access failed. -/
inductive Growth (ctx : Ctx Buffer Sector) (g : Globals) (d : Disk) (t : Nat)
    (e : DirectoryEntry) : Bool → DriverMem → Prop where
  | grown {m : DriverMem} {n : Nat} (h : Grown g d t n e m.disk) : Growth ctx g d t e true m
  | full {m : DriverMem} (hd : m.disk = d) : Growth ctx g d t e false m
  | failed {m : DriverMem} (hf : ctx.Failed m) : Growth ctx g d t e false m

theorem wp_growDir (hg : g.Valid) {t : Nat} (hinv : ∀ d, ctx.inv d)
    (ht : g.isDataCluster t = true) (hnz : fatGet g m.disk t ≠ 0) :
    (growDir g t e).wp ctx (Growth ctx g m.disk t e) m := by
  unfold growDir
  rw [Prog.wp_bind]
  refine Prog.wp_mono (wp_allocCluster hg (fun _ _ _ d _ => hinv d)) ?_
  intro r m1 hr
  cases hr with
  | full hd _ => exact .full hd
  | broke _ _ _ hf => exact .failed hf
  | @took n _ hn hfree _ hd1 =>
    have htn : t ≠ n := fun h => hnz (h ▸ hfree)
    have hit := inTable_of_data hg ht
    have hin := inTable_of_data hg hn
    simp only [Prog.wp_bind, Nat.mod_eq_of_lt (data_lt hg ht)]
    refine Prog.wp_mono (wp_writeFatEntry hit (data_lt_limit hg hn) (fun d _ => hinv d)) ?_
    intro ok m2 ho2
    cases ok with
    | false => exact .failed (ho2.failed rfl)
    | true =>
      have hd2 := ho2.done rfl
      simp only [if_true, Prog.wp_bind]
      refine Prog.wp_mono (wp_writeFatEntry hin (endOfChain_lt g) (fun d _ => hinv d)) ?_
      intro ok m3 ho3
      cases ok with
      | false => exact .failed (ho3.failed rfl)
      | true =>
        have hd3 := ho3.done rfl
        simp only [if_true, Prog.wp_bind]
        refine Prog.wp_mono (wp_zeroCluster (fun d _ => hinv d)) ?_
        rintro ok m4 ⟨hfill, hf4, hz⟩
        cases ok with
        | false => exact .failed (hf4 rfl)
        | true =>
          simp only [if_true]
          refine Prog.wp_mono (wp_writeDirEntryAt (hinv _)) ?_
          rintro ok m5 (⟨rfl, hd5⟩ | ⟨rfl, _, hf⟩)
          · refine .grown (n := n) ⟨m4.disk, ⟨hn, hfree, ?_, ?_, ?_, ?_⟩, hd5⟩
            · refine Touches.trans ?_ (hfill.mono (fun _ h => h.elim) (fun _ h => h))
              exact (Touches.of_fatPut hd1 (.inr rfl)).trans
                ((Touches.of_fatPut hd2 (.inl rfl)).trans (.of_fatPut hd3 (.inr rfl)))
            · rw [hfill.fatGet_eq hg hit not_false, hd3, fatGet_fatPut_of_ne hg hit htn, hd2,
                fatGet_fatPut_self hg hit (data_lt_limit hg hn)]
            · rw [hfill.fatGet_eq hg hin not_false, hd3,
                fatGet_fatPut_self hg hin (endOfChain_lt g)]
              exact endOfChain_isEndMark g
            · intro p hp
              unfold entryAt
              rw [hz rfl p.1 (mem_slotsOf.mp hp).1]
              exact zero_entry_isEnd p.2
          · exact .failed hf

/-- How `fat16_add_dir_entry_internal` ends on a directory with chain `l`. -/
inductive Added (ctx : Ctx Buffer Sector) (g : Globals) (d : Disk) (dir : Nat) (l : List Nat)
    (e : DirectoryEntry) : Bool → DriverMem → Prop where
  | placed {m : DriverMem} {p : Slot} (hp : firstFree d (dirSlots g dir l) = some p)
      (hd : m.disk = putSlot d p e) : Added ctx g d dir l e true m
  | grown {m : DriverMem} {pre post : List Nat} {t n : Nat} (h0 : dir ≠ 0)
      (hl : l = pre ++ t :: post) (hpost : post = [] ∨ ctx.Faulty)
      (hfull : firstFree d (dirSlots g dir (pre ++ [t])) = none)
      (h : Grown g d t n e m.disk) : Added ctx g d dir l e true m
  | full {m : DriverMem} (hd : m.disk = d) : Added ctx g d dir l e false m
  | failed {m : DriverMem} {pre post : List Nat} {t : Nat} (h0 : dir ≠ 0)
      (hl : l = pre ++ t :: post)
      (hfull : firstFree d (dirSlots g dir (pre ++ [t])) = none)
      (hf : ctx.Failed m) : Added ctx g d dir l e false m

theorem findFreeBody_reads : ReadsSector ctx findFreeBody (fun lba s =>
    match scanSector freeVerdict s with | .found i => some (some (lba, i)) | _ => none) none := by
  intro m lba
  unfold findFreeBody
  simp only [Prog.wp_bind, wp_readSector]
  refine ⟨fun hf => ⟨rfl, rfl, .inr ⟨⟨m, hf, rfl⟩, rfl⟩⟩, ?_⟩
  simp only [if_true, Prog.wp_bind, wp_load, Mem.fetch_buf]
  cases scanSector freeVerdict (m.disk lba) <;> exact ⟨rfl, rfl, .inl rfl⟩

theorem findSome?_free (d : Disk) (secs : List Nat) : secs.findSome? (fun lba =>
      match scanSector freeVerdict (d lba) with | .found i => some (some (lba, i)) | _ => none) =
    (firstFree d (slotsOf secs)).map some := by
  induction secs with
  | nil => rfl
  | cons s secs ih =>
    rw [List.findSome?_cons, ← List.singleton_append, slotsOf_append, firstFree_append,
      scanSector_free]
    cases hp : firstFree d (slotsOf [s]) with
    | none => exact ih
    | some p =>
      have hs : p.1 = s := by simpa using (mem_slotsOf.mp (firstFree_mem hp)).1
      subst hs
      rfl

theorem wp_addDirEntry (hg : g.Valid) {name : Name}
    {cluster fileSize : Nat} (hinv : ∀ d, ctx.inv d)
    (hc : Chained g m.disk dir l) (hfuel : g.getTotalClusters ≤ fuel) :
    (addDirEntry g fuel dir name cluster fileSize attributes).wp ctx
      (Added ctx g m.disk dir l (newEntry name cluster fileSize attributes)) m := by
  have hlen := hc.length_le hg
  unfold addDirEntry
  by_cases h0 : dir = 0
  · subst h0
    simp only [if_true, Prog.wp_bind, findFreeRootEntry]
    refine Prog.wp_mono (wp_forSectors findFreeBody_reads _ _ 0 m) ?_
    rintro r m1 ⟨hd1, _, hr⟩
    rw [← List.range_eq_range'] at hr
    rw [findSome?_free] at hr
    rcases hr with hr | ⟨_, hr⟩
    · cases hp : firstFree m.disk (slotsOf ((List.range g.getRootDirSectors).map
          (fun i => g.getRootDirStart + i))) with
      | none =>
        rw [hr, hp]
        exact .full hd1
      | some p =>
        rw [hr, hp]
        have hw : (writeDirEntryAt p.1 p.2 (newEntry name cluster fileSize attributes)).wp ctx _ m1 :=
          wp_writeDirEntryAt (hinv _)
        rw [hd1] at hw
        refine (Prog.wp_pure _ _ _).mpr (Prog.wp_mono hw ?_)
        rintro ok m2 (⟨rfl, hd2⟩ | ⟨rfl, hd2, _⟩)
        · exact .placed hp hd2
        · exact .full hd2
    · rw [hr]
      exact .full hd1
  · have hch := hc.chainOf h0
    have hslots : ∀ l' : List Nat, slotsOf (l'.flatMap (clusterSectors g)) = dirSlots g dir l' := by
      intro l'
      unfold dirSlots dirSectors
      rw [if_neg h0]
    simp only [h0, if_false, Prog.wp_bind]
    refine Prog.wp_mono (wp_placeInChain hg hinv l fuel dir m (hc.ne_nil h0) (hch.from hg)
      (by omega)) ?_
    intro r m1 hr
    cases hr with
    | placed hp hd => exact .placed (hslots l ▸ hp) hd
    | failed hd _ => exact .full hd
    | @full _ pre post t hd hl hfull hpost =>
      have htl : t ∈ l := by rw [hl]; simp
      have hgrow : (growDir g t (newEntry name cluster fileSize attributes)).wp ctx _ m1 :=
        wp_growDir hg hinv (hc.data_of_mem t htl) (by rw [hd]; exact hc.ne_zero t htl)
      rw [hd] at hgrow
      refine Prog.wp_mono hgrow ?_
      intro ok m2 hg2
      cases hg2 with
      | grown h => exact .grown h0 hl hpost (hslots _ ▸ hfull) h
      | full hd2 => exact .full hd2
      | failed hf => exact .failed h0 hl (hslots _ ▸ hfull) hf

theorem wp_createEntry (hg : g.Valid)
    {cluster fileSize : Nat} (hinv : ∀ d, ctx.inv d)
    (hd : DirOk g m.disk dir l) (hfuel : g.getTotalClusters ≤ fuel) :
    (createEntry g fuel dir name cluster fileSize attributes).wp ctx (fun ok m' =>
      (ok = false ∧ m'.disk = m.disk) ∨ ∃ name83, formatName name = some name83 ∧
        (lookup name m.disk (dirSlots g dir l) = none ∨ ctx.Faulty) ∧
        Added ctx g m.disk dir l (newEntry name83 cluster fileSize attributes) ok m') m := by
  unfold createEntry
  split
  · exact .inl ⟨rfl, rfl⟩
  cases hn : formatName name with
  | none => exact .inl ⟨rfl, rfl⟩
  | some name83 =>
    simp only [Prog.wp_bind]
    refine Prog.wp_mono (wp_findEntryInternal hg hd hfuel name) ?_
    rintro r m1 ⟨hd1, _, hr⟩
    cases r with
    | some _ => exact .inl ⟨rfl, hd1⟩
    | none =>
      have hadd : (addDirEntry g fuel dir name83 cluster fileSize attributes).wp ctx _ m1 :=
        wp_addDirEntry hg hinv (by rw [hd1]; exact hd.chained) hfuel
      rw [hd1] at hadd
      refine Prog.wp_mono hadd ?_
      intro ok m2 ha
      refine .inr ⟨name83, rfl, ?_, ha⟩
      rcases hr with hr | ⟨hf, _⟩
      · exact .inl (Option.map_eq_none_iff.mp hr.symm)
      · exact .inr hf.faulty

end Fat16
end MiniDos
