import MiniDos.Fat.CopySpec
import MiniDos.Fat.OpSpec
import MiniDos.Fat.Preserve

/-!
# MiniDos.Fat.OpPreserve

The operations keep a volume well-formed, however they end. Only a removal that was cut short by a
fault (`Removal.stuck`) is left out: it has freed clusters of an entry that is still there.

* `WriteEnd.wellFormed`, `CopyEnd.wellFormed`, `MkdirEnd.wellFormed`, `RemoveEnd.wellFormed`
* `Updated.wellFormed`: a live entry gets another name.
-/

namespace MiniDos
namespace Fat16

open BlockIO Chain

variable {ctx : Ctx Buffer Sector} {g : Globals} {m : DriverMem} {d e : Disk} {dir : Nat}
  {ldir : List Nat} {name : CStr}

variable {name83 : Name} {newName : CStr} {l : List Nat}

/-! ## Entries -/

theorem newEntry_first (n : Name) {cluster : Nat} (h : cluster < 65536) (fileSize : Nat)
    (attributes : UInt8) : (newEntry n cluster fileSize attributes).first = cluster :=
  UInt16.toNat_ofNat_of_lt' h

theorem updatedEntry_first (x : DirectoryEntry) (n : Name) {cluster : Nat} (h : cluster < 65536)
    (fileSize : Nat) (attributes : UInt8) :
    (updatedEntry x n cluster fileSize attributes).first = cluster :=
  UInt16.toNat_ofNat_of_lt' h

theorem updatedEntry_isEnd {n : Name} (h : formatName newName = some n)
    (x : DirectoryEntry) (cluster fileSize : Nat) (attributes : UInt8) :
    (updatedEntry x n cluster fileSize attributes).isEnd = false := newEntry_isEnd h 0 0 0

theorem updatedEntry_isLive {n : Name} (ha : newName.Ascii)
    (h : formatName newName = some n) (x : DirectoryEntry) (cluster fileSize : Nat)
    (attributes : UInt8) : (updatedEntry x n cluster fileSize attributes).isLive = true := by
  refine DirectoryEntry.isLive_iff.mpr ⟨updatedEntry_isEnd h x _ _ _, ?_⟩
  have : (updatedEntry x n cluster fileSize attributes).nameAt 0 = n 0 := rfl
  unfold DirectoryEntry.isDeleted
  rw [this]
  simpa using formatName_not_deleted ha h

theorem kept_not_directory (x : DirectoryEntry) : keptAttributes x &&& attrDirectory = 0 := by
  have h : ∀ b : BitVec 8, (b &&& attrReadOnly.toBitVec ||| attrArchive.toBitVec) &&&
      attrDirectory.toBitVec = 0 := by decide
  refine UInt8.toBitVec_inj.mp ?_
  unfold keptAttributes
  simpa using h x.attributes.toBitVec

theorem overwrittenEntry_isDirectory (x : DirectoryEntry) (n : Name) (cluster fileSize : Nat) :
    (overwrittenEntry x n cluster fileSize).isDirectory = false := by
  have : (overwrittenEntry x n cluster fileSize).attributes = keptAttributes x := rfl
  unfold DirectoryEntry.isDirectory
  rw [this, kept_not_directory]
  rfl

theorem archive_not_directory {n : Name} {cluster fileSize : Nat} :
    (newEntry n cluster fileSize attrArchive).isDirectory = false := by
  have : (newEntry n cluster fileSize attrArchive).attributes = attrArchive := rfl
  unfold DirectoryEntry.isDirectory
  rw [this]
  decide

theorem NewChain.first_lt (hg : g.Valid) {first last : Nat}
    (h : NewChain g d l first last e) : first < 65536 := by
  by_cases h0 : first = 0
  · omega
  · exact data_lt hg (h.free first (h.chained.head_mem h0)).1

theorem held_of_lookup (hg : g.Valid) (hdir : IsDir g d dir) (hl : Chained g d dir ldir)
    (hname : isDotName name = false) {p : Slot}
    (h : lookup name d (dirSlots g dir ldir) = some p) :
    Held g d (IsDir g d) (chainOf g d) p := by
  refine ⟨dir, hdir, ?_, DirectoryEntry.isLive_of_hits (lookup_hits h), ?_⟩
  · rw [chainOf_eq hg hl]
    exact lookup_mem h
  · have := lookup_hits h
    simp only [DirectoryEntry.hits, Bool.and_eq_true] at this
    exact not_dot_of_matchName hname this.2

theorem NewDir.dirSlots_eq {n parent : Nat} (h : NewDir g d n parent e) :
    dirSlots g n [n] = slotsOf (clusterSectors g n) := by
  have h2 := (isDataCluster_iff.mp (h.chain.free n (List.mem_singleton.mpr rfl)).1).1
  unfold dirSlots dirSectors
  rw [if_neg (show n ≠ 0 by omega), List.flatMap_singleton]

/-- The two dot entries of a new directory are its only ones, and nothing follows them. -/
theorem NewDir.slots (hg : g.Valid) {n parent : Nat} (h : NewDir g d n parent e) :
    EndMarked e (dirSlots g n [n]) ∧ ∀ q ∈ dirSlots g n [n], (entryAt e q).isLive = true →
      (entryAt e q).isDot = true := by
  have hslots := h.dirSlots_eq
  have hunused := h.unused
  have hnd := slotsOf_nodup (clusterSectors_nodup (g := g) n)
  rw [hslots]
  obtain ⟨rest, hrest⟩ := Inventory.slotsOf_cluster hg n
  rw [hrest] at hunused hnd ⊢
  obtain ⟨hn0, hnd⟩ := List.nodup_cons.mp hnd
  obtain ⟨hn1, _⟩ := List.nodup_cons.mp hnd
  have hend : ∀ q ∈ rest, (entryAt e q).isEnd = true := by
    intro q hq
    refine hunused q (List.mem_cons_of_mem _ (List.mem_cons_of_mem _ hq)) ?_ ?_
    · rintro rfl; exact hn0 (List.mem_cons_of_mem _ hq)
    · rintro rfl; exact hn1 hq
  have hdot : (entryAt e (headSlot g n)).isEnd = false := by rw [h.dot]; rfl
  have hdotDot : (entryAt e (g.clusterSector n, 1)).isEnd = false := by rw [h.dotDot]; rfl
  refine ⟨List.pairwise_cons.mpr ⟨fun _ _ he => ?_, List.pairwise_cons.mpr ⟨fun _ _ he => ?_, ?_⟩⟩, ?_⟩
  · rw [hdot] at he; cases he
  · rw [hdotDot] at he; cases he
  · exact List.pairwise_of_forall_mem_list fun _ _ r hr _ => hend r hr
  · intro q hq hlive
    rcases List.mem_cons.mp hq with rfl | hq
    · rw [h.dot]; simp [DirectoryEntry.isDot, newEntry]
    rcases List.mem_cons.mp hq with rfl | hq
    · rw [h.dotDot]; simp [DirectoryEntry.isDot, newEntry]
    · have := (DirectoryEntry.isLive_iff.mp hlive).1
      rw [hend q hq] at this
      cases this

/-! ## The operations -/

section Ops

variable (hg : g.Valid) (hw : WellFormed g d)
include hg hw

theorem Scratch.wellFormed (hs : Scratch g d e) : WellFormed g e :=
  ((hw.inventory hg).scratch hg hs).1.wellFormed hg

theorem Added.entered (hdir : IsDir g d dir) (hl : Chained g d dir ldir)
    {first last : Nat} {x : DirectoryEntry} (hchain : NewChain g d l first last e)
    (hfirst : x.first = first) (hx : x.isEnd = false)
    (hnew : x.isDirectory = true → EndMarked e (dirSlots g first l) ∧ first ≠ 0 ∧
      ∀ q ∈ dirSlots g first l, (entryAt e q).isLive = true → (entryAt e q).isDot = true)
    (hadd : Added ctx g e dir ldir x true m) :
    ∃ D' ch' p, Entered ctx g e (IsDir g d) (chainOf g d) dir x l m.disk D' ch' p := by
  have hi := hw.inventory hg
  obtain ⟨hi', hheads⟩ := hi.scratch hg hchain.scratch
  rw [← chainOf_eq hg hl] at hadd
  subst hfirst
  exact hi'.added hg hdir hadd hx hchain.chained
    (fun h hh => hi.newChain_fresh hchain (hheads h hh)) hnew

theorem Added.entered_file (hdir : IsDir g d dir) (hl : Chained g d dir ldir)
    {first last size : Nat} {attributes : UInt8}
    (hchain : NewChain g d l first last e) (hformat : formatName name = some name83)
    (hfile : (newEntry name83 first size attributes).isDirectory = false)
    (hadd : Added ctx g e dir ldir (newEntry name83 first size attributes) true m) :
    ∃ D' ch' p, Entered ctx g e (IsDir g d) (chainOf g d) dir (newEntry name83 first size attributes)
      l m.disk D' ch' p := by
  refine hadd.entered hg hw hdir hl hchain (newEntry_first name83 (hchain.first_lt hg) _ _)
    (newEntry_isEnd hformat _ _ _) (fun hd => ?_)
  rw [hfile] at hd
  cases hd

/-- An existing file has got a new chain. -/
theorem replaced_of_write (hdir : IsDir g d dir) (hl : Chained g d dir ldir) {l lo : List Nat}
    {first last size : Nat} {p : Slot} {d' : Disk}
    (hchain : NewChain g d l first last e) (hformat : formatName name = some name83)
    (hfound : lookup name d (dirSlots g dir ldir) = some p)
    (hold : Chained g d (entryAt d p).clusterLow.toNat lo)
    (ht : Touches g (fun c => c ∈ lo) (fun _ => False)
      (putSlot e p (overwrittenEntry (entryAt d p) name83 first size)) d') :
    ∃ D' ch', Kept g (IsDir g d) (chainOf g d) d' D' ch' p (fun _ => False) ∧
      (∀ c, IsDir g d c → ch' c = chainOf g d c) ∧ D' dir ∧ ch' first = l := by
  have hi := hw.inventory hg
  obtain ⟨hi', hheads⟩ := hi.scratch hg hchain.scratch
  have hps : p ∈ dirSlots g dir (chainOf g d dir) := by
    rw [chainOf_eq hg hl]
    exact lookup_mem hfound
  obtain ⟨_, _, _, hlive, hdot⟩ := held_of_lookup hg hdir hl (formatName_not_dot hformat) hfound
  have hentry : entryAt e p = entryAt d p := hchain.scratch.entryAt_eq hl (lookup_mem hfound)
  have hfirst : (overwrittenEntry (entryAt d p) name83 first size).first = first :=
    updatedEntry_first _ _ (hchain.first_lt hg) _ _
  have hlo : chainOf g d (entryAt d p).first = lo := chainOf_eq hg hold
  have hrep := hi'.replaced hg hdir hps (hentry ▸ hlive) (hentry ▸ hdot)
    (by rw [hentry]; exact hw.not_own_entry hg hdir p hps hlive hdot)
    (x := overwrittenEntry (entryAt d p) name83 first size) (updatedEntry_isEnd hformat _ _ _ _)
    (overwrittenEntry_isDirectory _ _ _ _) (l := l) (by rw [hfirst]; exact hchain.chained)
    (fun h hh => hi.newChain_fresh hchain (hheads h hh))
    (fun y hy hyo => by
      rw [hentry, hlo] at hyo
      exact hold.ne_zero y hyo (hchain.free y hy).2)
    (by rw [hentry, hlo]; exact ht)
  rw [hfirst] at hrep
  exact hrep

theorem WriteEnd.wellFormed (hdir : IsDir g d dir) (hl : Chained g d dir ldir)
    {data : Nat → Byte} {size : Nat} {ok : Bool}
    (h : WriteEnd ctx g d dir ldir name data size ok m) : WellFormed g m.disk := by
  cases h with
  | aborted hs _ => exact hs.wellFormed hg hw
  | created hready hformat _ hadd =>
    obtain ⟨⟨last, hchain⟩, _⟩ := hready
    obtain ⟨_, _, _, hent⟩ := hadd.entered_file hg hw hdir hl hchain hformat archive_not_directory
    exact hent.kept.inv.wellFormed hg
  | overwritten hready hformat hfound _ _ hold ht _ =>
    obtain ⟨⟨last, hchain⟩, _⟩ := hready
    obtain ⟨_, _, hk, _⟩ := replaced_of_write hg hw hdir hl hchain hformat hfound hold ht
    exact hk.inv.wellFormed hg

theorem CopyEnd.wellFormed {srcDir dstDir : Nat} {lsrc ldst : List Nat} {srcName dstName : CStr}
    (hdst : IsDir g d dstDir) (hl : Chained g d dstDir ldst) {ok : Bool}
    (h : CopyEnd ctx g d srcDir lsrc srcName dstDir ldst dstName ok m) : WellFormed g m.disk := by
  cases h with
  | aborted hs _ => exact hs.wellFormed hg hw
  | copied hfound hfile hchain hformat _ hadd =>
    obtain ⟨_, _, _, hent⟩ := hadd.entered_file hg hw hdst hl hchain hformat hfile
    exact hent.kept.inv.wellFormed hg

theorem kept_of_removed (hdir : IsDir g d dir) (hl : Chained g d dir ldir) {p : Slot}
    {lo : List Nat} {d' : Disk} (hname : isDotName name = false)
    (hfound : lookup name d (dirSlots g dir ldir) = some p)
    (hlo : Chained g d (entryAt d p).clusterLow.toNat lo)
    (ht : Touches g (fun c => c ∈ lo) (fun _ => False)
      (putSlot d p (deletedEntry (entryAt d p))) d') :
    Kept g (IsDir g d) (chainOf g d) d' (Inventory.Without (IsDir g d) (entryAt d p).first)
      (chainOf g d) p (fun _ => False) := by
  have hheld := held_of_lookup hg hdir hl hname hfound
  have hch : chainOf g d (entryAt d p).first = lo := chainOf_eq hg hlo
  refine (hw.inventory hg).removed hg hheld ?_
  rw [hch]
  exact ht

theorem RemoveEnd.wellFormed (hdir : IsDir g d dir) (hl : Chained g d dir ldir) {kind ok : Bool}
    (hstuck : ctx.Failed m → m.disk = d)
    (h : RemoveEnd ctx g d (dirSlots g dir ldir) name kind ok m) : WellFormed g m.disk := by
  cases h with
  | refused hd => rw [hd]; exact hw
  | @found _ _ p lo hname hfound _ hlo hr =>
    cases hr with
    | stuck _ hf => rw [hstuck hf]; exact hw
    | removed ht _ =>
      exact (kept_of_removed hg hw hdir hl hname hfound hlo ht).inv.wellFormed hg

theorem NewDir.entered (hdir : IsDir g d dir) (hl : Chained g d dir ldir) {n : Nat}
    (hnew : NewDir g d n dir e) (hformat : formatName name = some name83)
    (hadd : Added ctx g e dir ldir (newEntry name83 n 0 attrDirectory) true m) :
    ∃ D' ch' p, Entered ctx g e (IsDir g d) (chainOf g d) dir (newEntry name83 n 0 attrDirectory)
      [n] m.disk D' ch' p := by
  refine hadd.entered hg hw hdir hl hnew.chain (newEntry_first name83 (hnew.chain.first_lt hg) _ _)
    (newEntry_isEnd hformat _ _ _) (fun _ => ?_)
  obtain ⟨hend, hdots⟩ := hnew.slots hg
  have h2 := (isDataCluster_iff.mp (hnew.chain.free n (List.mem_singleton.mpr rfl)).1).1
  exact ⟨hend, by omega, hdots⟩

theorem MkdirEnd.wellFormed (hdir : IsDir g d dir) (hl : Chained g d dir ldir) {ok : Bool}
    (h : MkdirEnd ctx g d dir ldir name ok m) : WellFormed g m.disk := by
  cases h with
  | refused hs => exact hs.wellFormed hg hw
  | made hformat _ hnew hadd =>
    obtain ⟨_, _, _, hent⟩ := hnew.entered hg hw hdir hl hformat hadd
    exact hent.kept.inv.wellFormed hg

theorem Updated.wellFormed (hdir : IsDir g d dir) (hl : Chained g d dir ldir)
    {p : Slot} (ha : newName.Ascii)
    (hdot : (entryAt d p).isDot = false)
    (h : Updated ctx d (dirSlots g dir ldir) name newName (entryAt d p).clusterLow.toNat
      (entryAt d p).fileSize.toNat (entryAt d p).attributes p name83 m) : WellFormed g m.disk := by
  rw [h.disk]
  have hheld : Held g d (IsDir g d) (chainOf g d) p := by
    refine ⟨dir, hdir, ?_, DirectoryEntry.isLive_of_hits (lookup_hits h.found), hdot⟩
    rw [chainOf_eq hg hl]
    exact lookup_mem h.found
  refine ((hw.inventory hg).rename hg hheld (updatedEntry_isLive ha h.format _ _ _ _) ?_ rfl).wellFormed hg
  exact updatedEntry_first _ _ (entryAt d p).clusterLow.toNat_lt _ _

end Ops

end Fat16
end MiniDos
