import MiniDos.Fat.Allocator
import MiniDos.Fat.Crash
import Mathlib.Data.List.TakeWhile

/-!
# MiniDos.Fat.Sweep

`fat16_delete_matching`. The loop marks the matching slots of a sector in `sector_buffer` and writes
the sector back when all 16 slots have been looked at. Two things go wrong on the way:

* freeing a chain reads the table into that same buffer, and the loop goes on in what is left there;
* at the end mark the call returns without writing the sector back.

Where no matching file has a chain the first does not happen, and the effect of the call is known
exactly (`wp_deleteMatching`): the sectors before the first end mark are swept.
-/

namespace MiniDos
namespace Fat16

open BlockIO Chain

variable {ctx : Ctx Buffer Sector} {g : Globals} {m : DriverMem} {d : Disk} {dir fuel : Nat}
  {pattern : CStr}

variable {secs : List Nat} {lba : Nat} {d' : Disk} {e : DirectoryEntry} {ps qs : List Slot}

/-- A visible file whose display name matches the pattern. -/
def doomed (pattern : CStr) (e : DirectoryEntry) : Bool :=
  e.isVisible && !e.isDirectory && matchPattern pattern e

theorem doomed_isVisible (h : doomed pattern e = true) : e.isVisible = true := by
  simp only [doomed, Bool.and_eq_true] at h
  exact h.1.1

theorem doomed_of_isEnd (h : e.isEnd = true) : doomed pattern e = false := by
  simp [doomed, DirectoryEntry.isVisible, h]

/-! ## One sector -/

/-- The entry of slot `i` marked if it is doomed. -/
def markSlot (pattern : CStr) (s : Sector) (i : Nat) : Sector :=
  if doomed pattern (s.entry i) then s.setEntry i (deletedEntry (s.entry i)) else s

theorem markSlot_entry_ne (s : Sector) {i k : Nat} (hk : k < 16) (hne : k ≠ i) :
    (markSlot pattern s i).entry k = s.entry k := by
  unfold markSlot
  split
  · exact Sector.entry_setEntry_ne _ hk hne _
  · rfl

/-- The `n` slots from `i` on, the doomed ones marked. -/
def markSlots (pattern : CStr) : Nat → Nat → Sector → Sector
  | 0, _, s => s
  | n + 1, i, s => markSlots pattern n (i + 1) (markSlot pattern s i)

theorem markSlots_entry {k : Nat} (hk : k < 16) : ∀ (n i : Nat) (s : Sector), i + n ≤ 16 →
    (markSlots pattern n i s).entry k =
      if i ≤ k ∧ k < i + n ∧ doomed pattern (s.entry k) = true then deletedEntry (s.entry k)
      else s.entry k := by
  intro n
  induction n with
  | zero =>
    intro i s _
    rw [if_neg (by omega)]
    rfl
  | succ n ih =>
    intro i s hn
    unfold markSlots
    rw [ih (i + 1) _ (by omega)]
    by_cases hik : k = i
    · subst hik
      rw [if_neg (by omega)]
      unfold markSlot
      by_cases hd : doomed pattern (s.entry k) = true
      · rw [if_pos hd, if_pos ⟨Nat.le_refl _, by omega, hd⟩, Sector.entry_setEntry _ hk]
      · rw [if_neg hd, if_neg (fun h => hd h.2.2)]
    · rw [markSlot_entry_ne s hk hik]
      have hrange : (i + 1 ≤ k ∧ k < i + 1 + n) ↔ (i ≤ k ∧ k < i + (n + 1)) := by omega
      by_cases hin : i ≤ k ∧ k < i + (n + 1) ∧ doomed pattern (s.entry k) = true
      · have := hrange.mpr ⟨hin.1, hin.2.1⟩
        rw [if_pos hin, if_pos ⟨this.1, this.2, hin.2.2⟩]
      · rw [if_neg hin, if_neg (fun h => hin ?_)]
        have := hrange.mp ⟨h.1, h.2.1⟩
        exact ⟨this.1, this.2, h.2.2⟩

/-- How many of the `n` slots from `i` on are doomed. -/
def doomedIn (pattern : CStr) (s : Sector) (i n : Nat) : Nat :=
  (List.range' i n).countP (fun k => doomed pattern (s.entry k))

theorem doomedIn_succ (s : Sector) (i n : Nat) : doomedIn pattern s i (n + 1) =
    (if doomed pattern (s.entry i) then 1 else 0) + doomedIn pattern s (i + 1) n := by
  unfold doomedIn
  rw [List.range'_succ, List.countP_cons, Nat.add_comm]

theorem doomedIn_congr {s t : Sector} {i n : Nat} (h : ∀ k, i ≤ k → k < i + n → s.entry k = t.entry k) :
    doomedIn pattern s i n = doomedIn pattern t i n := by
  unfold doomedIn
  refine List.countP_congr (fun k hk => ?_)
  rw [List.mem_range'_1] at hk
  rw [h k hk.1 hk.2]

theorem freeClusterChain_none {c : Nat} (h2 : 2 ≤ c) (hc : g.isDataCluster c = false) :
    freeClusterChain g c = pure true := by
  unfold freeClusterChain
  rw [if_neg (by omega)]
  exact freeLoop_stop (by simp [hc]) _

/-- How the scan of the `n` slots from `i` on ends when the buffer holds `s`. -/
def Scanned (pattern : CStr) (d : Disk) (s : Sector) (n i deleted : Nat) (r : Sweep)
    (m : DriverMem) : Prop :=
  m.disk = d ∧
    (((∃ k, i ≤ k ∧ k < i + n ∧ (s.entry k).isEnd = true) ∧
        r = .endMark (deleted + doomedIn pattern s i n)) ∨
      ((∀ k, i ≤ k → k < i + n → (s.entry k).isEnd = false) ∧
        r = .done (deleted + doomedIn pattern s i n) ∧ m.buf .main = markSlots pattern n i s))

theorem Scanned.cons {s : Sector} {n i deleted : Nat} {r : Sweep} (hn : i + (n + 1) ≤ 16)
    (hend : (s.entry i).isEnd = false)
    (h : Scanned pattern d (markSlot pattern s i) n (i + 1)
      (deleted + if doomed pattern (s.entry i) then 1 else 0) r m) :
    Scanned pattern d s (n + 1) i deleted r m := by
  obtain ⟨hd, h⟩ := h
  have hsame : ∀ k, i + 1 ≤ k → k < i + 1 + n → (markSlot pattern s i).entry k = s.entry k :=
    fun k h1 h2 => markSlot_entry_ne s (by omega) (by omega)
  have hcount : deleted + doomedIn pattern s i (n + 1) =
      deleted + (if doomed pattern (s.entry i) then 1 else 0) +
        doomedIn pattern (markSlot pattern s i) (i + 1) n := by
    rw [doomedIn_succ, doomedIn_congr hsame, Nat.add_assoc]
  refine ⟨hd, ?_⟩
  rw [hcount]
  rcases h with ⟨⟨k, h1, h2, hk⟩, hr⟩ | ⟨hall, hr, hbuf⟩
  · rw [hsame k h1 h2] at hk
    exact .inl ⟨⟨k, by omega, by omega, hk⟩, hr⟩
  · refine .inr ⟨fun k h1 h2 => ?_, hr, hbuf⟩
    by_cases hki : k = i
    · rw [hki]; exact hend
    · rw [← hsame k (by omega) (by omega)]
      exact hall k (by omega) (by omega)

/-- The scan of a sector in the buffer in which no doomed entry has a chain. -/
theorem wp_sweepSlots (freeChain : Bool) : ∀ (n i deleted : Nat) (m : DriverMem), i + n ≤ 16 →
    (∀ k, i ≤ k → k < i + n → doomed pattern ((m.buf .main).entry k) = true →
      g.isDataCluster ((m.buf .main).entry k).first = false) →
    (∀ a b, i ≤ a → a < b → b < i + n → ((m.buf .main).entry a).isEnd = true →
      ((m.buf .main).entry b).isEnd = true) →
    (sweepSlots g pattern freeChain n i deleted).wp ctx
      (Scanned pattern m.disk (m.buf .main) n i deleted) m := by
  intro n
  induction n with
  | zero =>
    intro i deleted m _ _ _
    exact ⟨rfl, .inr ⟨fun k h1 h2 => by omega, rfl, rfl⟩⟩
  | succ n ih =>
    intro i deleted m hn hchain hends
    unfold sweepSlots
    simp only [Prog.wp_bind, wp_load]
    by_cases hend : ((m.buf .main).entry i).isEnd = true
    · -- behind the end mark nothing is doomed
      have hnone : doomedIn pattern (m.buf .main) i (n + 1) = 0 := by
        unfold doomedIn
        rw [List.countP_eq_zero]
        intro k hk
        rw [List.mem_range'_1] at hk
        have hke : ((m.buf .main).entry k).isEnd = true := by
          by_cases hki : k = i
          · rw [hki]; exact hend
          · exact hends i k (Nat.le_refl _) (by omega) hk.2 hend
        simp [doomed_of_isEnd hke]
      rw [if_pos hend]
      exact ⟨rfl, .inl ⟨⟨i, Nat.le_refl _, by omega, hend⟩, by rw [hnone]; rfl⟩⟩
    have hend' : ((m.buf .main).entry i).isEnd = false := by simpa using hend
    rw [if_neg hend]
    -- the rest of the sector, whichever way this slot goes
    have hrest : ∀ (m₁ : DriverMem) (deleted₁ : Nat), m₁.disk = m.disk →
        m₁.buf .main = markSlot pattern (m.buf .main) i →
        deleted₁ = deleted + (if doomed pattern ((m.buf .main).entry i) then 1 else 0) →
        (sweepSlots g pattern freeChain n (i + 1) deleted₁).wp ctx
          (Scanned pattern m.disk (m.buf .main) (n + 1) i deleted) m₁ := by
      intro m₁ deleted₁ hd₁ hb₁ hdel₁
      have hsame : ∀ k, i + 1 ≤ k → k < i + 1 + n →
          (m₁.buf .main).entry k = (m.buf .main).entry k := fun k h1 h2 => by
        rw [hb₁]; exact markSlot_entry_ne _ (by omega) (by omega)
      refine Prog.wp_mono (ih (i + 1) deleted₁ m₁ (by omega) (fun k h1 h2 => ?_)
        (fun a b h1 h2 h3 => ?_)) ?_
      · rw [hsame k h1 h2]
        exact hchain k (by omega) (by omega)
      · rw [hsame a h1 (by omega), hsame b (by omega) h3]
        exact hends a b (by omega) h2 (by omega)
      · intro r m₂ h₂
        rw [hd₁, hb₁, hdel₁] at h₂
        exact h₂.cons hn hend'
    have hskip : doomed pattern ((m.buf .main).entry i) = false →
        (sweepSlots g pattern freeChain n (i + 1) deleted).wp ctx
          (Scanned pattern m.disk (m.buf .main) (n + 1) i deleted) m := by
      intro hnot
      exact hrest m deleted rfl (by unfold markSlot; simp [hnot]) (by simp [hnot])
    by_cases hvis : ((m.buf .main).entry i).isVisible = true
    case neg =>
      rw [if_pos (by simpa using hvis)]
      exact hskip (by simp [doomed, hvis])
    rw [if_neg (by simp [hvis])]
    by_cases hdir : ((m.buf .main).entry i).isDirectory = true
    · rw [if_pos hdir]
      exact hskip (by simp [doomed, hdir])
    rw [if_neg hdir]
    by_cases hmatch : matchPattern pattern ((m.buf .main).entry i) = true
    case neg =>
      rw [if_pos (by simpa using hmatch)]
      exact hskip (by simp [doomed, hmatch])
    rw [if_neg (by simp [hmatch])]
    have hdoomed : doomed pattern ((m.buf .main).entry i) = true := by
      simp [doomed, hvis, hdir, hmatch]
    have hnone := hchain i (Nat.le_refl _) (by omega) hdoomed
    have hmarked : ((m.buf .main).setEntry i (deletedEntry ((m.buf .main).entry i))) =
        markSlot pattern (m.buf .main) i := by
      unfold markSlot
      rw [if_pos hdoomed]
    have hmark : (do
        let s ← load .main
        store .main (s.setEntry i (deletedEntry (s.entry i)))
        sweepSlots g pattern freeChain n (i + 1) (deleted + 1) : DiskProg Sweep).wp ctx
          (Scanned pattern m.disk (m.buf .main) (n + 1) i deleted) m := by
      simp only [Prog.wp_bind, wp_load, wp_store]
      refine hrest _ (deleted + 1) rfl ?_ (by simp [hdoomed])
      rw [Mem.setBuf_buf, hmarked]
    split
    case isTrue hc =>
      simp only [Bool.and_eq_true, decide_eq_true_eq] at hc
      rw [Prog.wp_bind, freeClusterChain_none hc.2 hnone]
      exact hmark
    case isFalse => exact hmark

/-! ## All sectors -/

/-- No slot of the sector is the end mark. -/
def noEnd (d : Disk) (lba : Nat) : Bool :=
  (List.range 16).all (fun k => !(entryAt d (lba, k)).isEnd)

theorem noEnd_iff :
    noEnd d lba = true ↔ ∀ k < 16, (entryAt d (lba, k)).isEnd = false := by
  simp [noEnd]

theorem noEnd_congr (h : d' lba = d lba) : noEnd d' lba = noEnd d lba := by
  simp only [noEnd, entryAt, h]

def sweptDisk (pattern : CStr) (secs : List Nat) (d : Disk) : Disk :=
  fun lba => if lba ∈ secs then markSlots pattern 16 0 (d lba) else d lba

def doomedCount (pattern : CStr) (d : Disk) (ps : List Slot) : Nat :=
  ps.countP (fun q => doomed pattern (entryAt d q))

theorem doomedCount_append (ps qs : List Slot) : doomedCount pattern d (ps ++ qs) =
    doomedCount pattern d ps + doomedCount pattern d qs := List.countP_append

theorem doomedCount_congr (h : ∀ lba ∈ secs, d' lba = d lba) :
    doomedCount pattern d' (slotsOf secs) = doomedCount pattern d (slotsOf secs) := by
  refine List.countP_congr (fun q hq => ?_)
  rw [entryAt_congr (h q.1 (mem_slotsOf.mp hq).1)]

theorem slotsOf_cons (lba : Nat) (secs : List Nat) :
    slotsOf (lba :: secs) = (List.range 16).map (fun k => (lba, k)) ++ slotsOf secs := rfl

theorem doomedCount_sector (lba : Nat) :
    doomedCount pattern d ((List.range 16).map (fun k => (lba, k))) =
      doomedIn pattern (d lba) 0 16 := by
  unfold doomedCount doomedIn
  rw [List.countP_map, List.range_eq_range']
  rfl

theorem takeWhile_noEnd_congr (h : ∀ lba ∈ secs, d' lba = d lba) :
    secs.takeWhile (noEnd d') = secs.takeWhile (noEnd d) := by
  induction secs with
  | nil => rfl
  | cons lba secs ih =>
    rw [List.takeWhile_cons, List.takeWhile_cons, noEnd_congr (h lba List.mem_cons_self),
      ih (fun x hx => h x (List.mem_cons_of_mem _ hx))]

theorem doomedCount_behind (h : EndMarked d (ps ++ qs))
    (hend : ∃ q ∈ ps, (entryAt d q).isEnd = true) : doomedCount pattern d qs = 0 := by
  obtain ⟨p, hp, hpe⟩ := hend
  refine List.countP_eq_zero.mpr (fun q hq => ?_)
  have := (List.pairwise_append.mp h).2.2 p hp q hq hpe
  simp [doomed_of_isEnd this]

/-- What holds of the slots of a directory that is swept. -/
structure Chainless (g : Globals) (pattern : CStr) (d : Disk) (ps : List Slot) : Prop where
  endMarked : EndMarked d ps
  none : ∀ q ∈ ps, doomed pattern (entryAt d q) = true →
    g.isDataCluster (entryAt d q).first = false

theorem Chainless.append_right (h : Chainless g pattern d (ps ++ qs)) :
    Chainless g pattern d qs :=
  ⟨(List.pairwise_append.mp h.endMarked).2.1, fun q hq => h.none q (List.mem_append_right _ hq)⟩

theorem Chainless.append_left (h : Chainless g pattern d (ps ++ qs)) :
    Chainless g pattern d ps :=
  ⟨(List.pairwise_append.mp h.endMarked).1, fun q hq => h.none q (List.mem_append_left _ hq)⟩

theorem Chainless.congr (h : Chainless g pattern d (slotsOf secs))
    (hd : ∀ lba ∈ secs, d' lba = d lba) : Chainless g pattern d' (slotsOf secs) := by
  have hent : ∀ q ∈ slotsOf secs, entryAt d' q = entryAt d q :=
    fun q hq => entryAt_congr (hd q.1 (mem_slotsOf.mp hq).1)
  refine ⟨h.endMarked.congr hent, fun q hq => ?_⟩
  rw [hent q hq]
  exact h.none q hq

theorem endMarked_sector {lba a b : Nat}
    (h : EndMarked d ((List.range 16).map (fun k => (lba, k)))) (hab : a < b) (hb : b < 16)
    (ha : ((d lba).entry a).isEnd = true) : ((d lba).entry b).isEnd = true := by
  have hp := List.pairwise_map.mp h
  have := List.pairwise_iff_getElem.mp hp a b (by simp; omega) (by simpa using hb) hab
  simp only [List.getElem_range] at this
  exact this ha

theorem sweptDisk_cons (hn : lba ∉ secs) :
    sweptDisk pattern secs (putSector d lba (markSlots pattern 16 0 (d lba))) =
      sweptDisk pattern (lba :: secs) d := by
  funext x
  unfold sweptDisk
  by_cases hx : x = lba
  · subst hx
    rw [if_neg hn, if_pos List.mem_cons_self, putSector_self]
  · rw [putSector_of_ne _ _ hx]
    by_cases hs : x ∈ secs
    · rw [if_pos hs, if_pos (List.mem_cons_of_mem _ hs)]
    · rw [if_neg hs, if_neg (fun h => (List.mem_cons.mp h).elim hx hs)]

/-- The sectors `secs` have been gone through: to the end mark, or all of them. -/
def SectorsSwept (pattern : CStr) (d : Disk) (secs : List Nat) (deleted : Nat)
    (r : Except Nat (Bool × Nat)) (m : DriverMem) : Prop :=
  m.disk = sweptDisk pattern (secs.takeWhile (noEnd d)) d ∧
    (((∃ q ∈ slotsOf secs, (entryAt d q).isEnd = true) ∧
        r = .ok (true, deleted + doomedCount pattern d (slotsOf secs))) ∨
      ((∀ lba ∈ secs, noEnd d lba = true) ∧
        r = .error (deleted + doomedCount pattern d (slotsOf secs))))

theorem wp_sweepSectors (hnf : ¬ ctx.Faulty) (hinv : ∀ e, ctx.inv e) (freeChain : Bool)
    (base : Nat) : ∀ (n k deleted : Nat) (m : DriverMem),
    Chainless g pattern m.disk (slotsOf ((List.range' k n).map (fun i => base + i))) →
    (sweepSectors g pattern freeChain base n k deleted).wp ctx
      (SectorsSwept pattern m.disk ((List.range' k n).map (fun i => base + i)) deleted) m := by
  intro n
  induction n with
  | zero =>
    intro k deleted m _
    refine ⟨?_, .inr ⟨fun _ h => (by cases h), rfl⟩⟩
    funext lba
    simp [sweptDisk]
  | succ n ih =>
    intro k deleted m hc
    rw [List.range'_succ, List.map_cons] at hc ⊢
    have hnot : base + k ∉ (List.range' (k + 1) n).map (fun i => base + i) := by
      simp only [List.mem_map, List.mem_range'_1, not_exists, not_and]
      omega
    rw [slotsOf_cons] at hc
    have hc0 := hc.append_left
    unfold sweepSectors
    simp only [Prog.wp_bind, wp_readSector]
    refine ⟨fun hf => absurd ⟨m, hf⟩ hnf, ?_⟩
    simp only [if_true, Prog.wp_bind]
    have hbuf : (m.fetch .main (base + k)).buf .main = m.disk (base + k) := m.fetch_buf _ _
    have hslot : ∀ i < 16, (base + k, i) ∈ (List.range 16).map (fun j => (base + k, j)) :=
      fun i hi => List.mem_map.mpr ⟨i, List.mem_range.mpr hi, rfl⟩
    have hscan : (sweepSlots g pattern freeChain entriesPerSector 0 deleted).wp ctx
        (Scanned pattern (m.fetch .main (base + k)).disk ((m.fetch .main (base + k)).buf .main) 16 0
          deleted) (m.fetch .main (base + k)) := by
      refine wp_sweepSlots freeChain 16 0 deleted _ (by omega) (fun i _ hi => ?_)
        (fun a b _ hab hb => ?_)
      · rw [hbuf]
        exact hc0.none (base + k, i) (hslot i (by omega))
      · rw [hbuf]
        exact endMarked_sector hc0.endMarked hab (by omega)
    rw [hbuf] at hscan
    refine Prog.wp_mono hscan ?_
    rintro r m1 ⟨hd1, hr⟩
    rw [Mem.fetch_disk] at hd1
    rcases hr with ⟨⟨i, _, hi, hend⟩, rfl⟩ | ⟨hall, rfl, hbuf1⟩
    · -- the end mark: the sector is not written back
      have hstop : noEnd m.disk (base + k) = false := by
        cases hne : noEnd m.disk (base + k) with
        | false => rfl
        | true =>
          have := noEnd_iff.mp hne i (by omega)
          rw [show (entryAt m.disk (base + k, i)).isEnd = true from hend] at this
          cases this
      have hexists : ∃ q ∈ (List.range 16).map (fun j => (base + k, j)),
          (entryAt m.disk q).isEnd = true := ⟨_, hslot i (by omega), hend⟩
      refine ⟨?_, .inl ⟨?_, ?_⟩⟩
      · rw [List.takeWhile_cons, hstop, hd1]
        funext lba
        simp [sweptDisk]
      · obtain ⟨q, hq, hqe⟩ := hexists
        exact ⟨q, by rw [slotsOf_cons]; exact List.mem_append_left _ hq, hqe⟩
      · rw [slotsOf_cons, doomedCount_append, doomedCount_behind hc.endMarked hexists,
          doomedCount_sector, Nat.add_zero]
    · have hgo : noEnd m.disk (base + k) = true :=
        noEnd_iff.mpr (fun i hi => hall i (by omega) (by omega))
      simp only [Prog.wp_bind, wp_writeSector]
      refine ⟨fun hf => absurd ⟨_, hf⟩ hnf, hinv _, ?_⟩
      simp only [if_true]
      have hd2 : (m1.flush .main (base + k)).disk =
          putSector m.disk (base + k) (markSlots pattern 16 0 (m.disk (base + k))) := by
        rw [Mem.flush_disk, hd1, hbuf1]
      have hsame : ∀ lba ∈ (List.range' (k + 1) n).map (fun i => base + i),
          (m1.flush .main (base + k)).disk lba = m.disk lba := by
        intro lba hlba
        rw [hd2, putSector_of_ne]
        rintro rfl
        exact hnot hlba
      refine Prog.wp_mono (ih (k + 1) _ _ (hc.append_right.congr hsame)) ?_
      rintro r m3 ⟨hd3, hr3⟩
      rw [takeWhile_noEnd_congr hsame, hd2,
        sweptDisk_cons (fun h => hnot (List.takeWhile_subset _ h))] at hd3
      have hcount : deleted + doomedCount pattern m.disk (slotsOf ((base + k) ::
          (List.range' (k + 1) n).map (fun i => base + i))) =
          deleted + doomedIn pattern (m.disk (base + k)) 0 16 +
            doomedCount pattern (m1.flush .main (base + k)).disk
              (slotsOf ((List.range' (k + 1) n).map (fun i => base + i))) := by
        rw [slotsOf_cons, doomedCount_append, doomedCount_sector, doomedCount_congr hsame,
          Nat.add_assoc]
      refine ⟨?_, ?_⟩
      · rw [List.takeWhile_cons, hgo]
        exact hd3
      · rw [hcount]
        refine hr3.imp ?_ ?_
        · rintro ⟨⟨q, hq, hqe⟩, hr⟩
          rw [entryAt_congr (hsame q.1 (mem_slotsOf.mp hq).1)] at hqe
          exact ⟨⟨q, by rw [slotsOf_cons]; exact List.mem_append_right _ hq, hqe⟩, hr⟩
        · rintro ⟨hrest, hr⟩
          refine ⟨fun lba hlba => ?_, hr⟩
          rcases List.mem_cons.mp hlba with rfl | hlba
          · exact hgo
          · rw [← noEnd_congr (hsame lba hlba)]
            exact hrest lba hlba

theorem takeWhile_append_of_stop {a b : List Nat} {P : Nat → Bool} (h : ∃ x ∈ a, ¬ P x = true) :
    (a ++ b).takeWhile P = a.takeWhile P := by
  induction a with
  | nil =>
    obtain ⟨x, hx, _⟩ := h
    cases hx
  | cons y a ih =>
    rw [List.cons_append, List.takeWhile_cons, List.takeWhile_cons]
    by_cases hy : P y = true
    · rw [if_pos hy, if_pos hy, ih]
      obtain ⟨x, hx, hxP⟩ := h
      rcases List.mem_cons.mp hx with rfl | hx
      · exact absurd hy hxP
      · exact ⟨x, hx, hxP⟩
    · rw [if_neg hy, if_neg hy]

theorem sweptDisk_touches (h : ∀ lba ∈ secs, ¬ g.isFatSector lba) :
    Touches g (fun _ => False) (fun lba => lba ∈ secs) d (sweptDisk pattern secs d) := by
  refine .of_sectors h (fun lba hl => ?_)
  unfold sweptDisk
  rw [if_neg hl]

theorem sweptDisk_append {a b : List Nat} (hdisj : ∀ lba ∈ b, lba ∉ a) :
    sweptDisk pattern b (sweptDisk pattern a d) = sweptDisk pattern (a ++ b) d := by
  funext lba
  unfold sweptDisk
  by_cases hb : lba ∈ b
  · rw [if_pos hb, if_neg (hdisj lba hb), if_pos (List.mem_append_right _ hb)]
  · rw [if_neg hb]
    by_cases ha : lba ∈ a
    · rw [if_pos ha, if_pos (List.mem_append_left _ ha)]
    · rw [if_neg ha, if_neg (fun h => (List.mem_append.mp h).elim ha hb)]

theorem wp_sweepClusters (hg : g.Valid) (hnf : ¬ ctx.Faulty) (hinv : ∀ e, ctx.inv e)
    (freeChain : Bool) : ∀ (l : List Nat) (fuel c deleted : Nat) (m : DriverMem),
    ChainFrom g m.disk c l → l.length ≤ fuel →
    Chainless g pattern m.disk (slotsOf (l.flatMap (clusterSectors g))) →
    (sweepClusters g pattern freeChain fuel c deleted).wp ctx (fun r m' =>
      r = (true, deleted + doomedCount pattern m.disk (slotsOf (l.flatMap (clusterSectors g)))) ∧
      m'.disk = sweptDisk pattern ((l.flatMap (clusterSectors g)).takeWhile (noEnd m.disk)) m.disk)
      m := by
  intro l
  induction l with
  | nil =>
    intro fuel c deleted m hc _ _
    have hstop : g.isDataCluster c = false := hc
    cases fuel with
    | zero =>
      unfold sweepClusters
      simp only [hstop, Bool.false_eq_true, if_false, Prog.wp_pure]
      exact ⟨rfl, by funext lba; simp [sweptDisk]⟩
    | succ fuel =>
      unfold sweepClusters
      simp only [hstop, Bool.false_eq_true, if_false, Prog.wp_pure]
      exact ⟨rfl, by funext lba; simp [sweptDisk]⟩
  | cons x l ih =>
    intro fuel c deleted m hc hlen hfree
    have hnodup := ChainFrom.nodup hc
    have hdata := hc.node_of_mem
    obtain ⟨rfl, hx, hl⟩ := hc
    cases fuel with
    | zero => simp at hlen
    | succ fuel =>
      rw [List.flatMap_cons, slotsOf_append] at hfree
      have hfree0 := hfree.append_left
      unfold sweepClusters
      simp only [hx, if_true, Prog.wp_bind]
      have hsweep : (sweepSectors g pattern freeChain (g.clusterSector c) g.bpb.sectorsPerCluster 0
          deleted).wp ctx (SectorsSwept pattern m.disk (clusterSectors g c) deleted) m := by
        have hsecs : clusterSectors g c = (List.range' 0 g.bpb.sectorsPerCluster).map
            (fun i => g.clusterSector c + i) := by rw [← List.range_eq_range']; rfl
        rw [hsecs] at hfree0 ⊢
        exact wp_sweepSectors hnf hinv freeChain _ _ 0 deleted m hfree0
      refine Prog.wp_mono hsweep ?_
      rintro r m1 ⟨hd1, hr⟩
      rw [List.flatMap_cons, slotsOf_append, doomedCount_append]
      rcases hr with ⟨⟨q, hq, hqe⟩, rfl⟩ | ⟨hall, rfl⟩
      · -- the end mark was met: nothing behind it is doomed
        simp only [Prog.wp_pure]
        rw [doomedCount_behind hfree.endMarked ⟨q, hq, hqe⟩]
        refine ⟨rfl, ?_⟩
        rw [hd1, takeWhile_append_of_stop ?_]
        obtain ⟨hq1, hq2⟩ := mem_slotsOf.mp hq
        refine ⟨q.1, hq1, ?_⟩
        intro hne
        have := noEnd_iff.mp hne q.2 hq2
        rw [show (entryAt m.disk (q.1, q.2)).isEnd = true from hqe] at this
        cases this
      · have hdisj : ∀ lba ∈ l.flatMap (clusterSectors g), lba ∉ clusterSectors g c := by
          intro lba hlba hlc
          obtain ⟨y, hy, hly⟩ := List.mem_flatMap.mp hlba
          have hyd := hdata y (List.mem_cons_of_mem _ hy)
          have := clusterSectors_disjoint (isDataCluster_iff.mp hx).1 (isDataCluster_iff.mp hyd).1
            hlc hly
          exact (List.nodup_cons.mp hnodup).1 (this ▸ hy)
        have hwhole : (clusterSectors g c).takeWhile (noEnd m.disk) = clusterSectors g c :=
          List.takeWhile_eq_self_iff.mpr hall
        rw [hwhole] at hd1
        have ht : Touches g (fun _ => False) (fun lba => lba ∈ clusterSectors g c) m.disk m1.disk := by
          rw [hd1]
          exact sweptDisk_touches (fun lba hl => clusterSector_not_fat hl)
        have hsame : ∀ lba ∈ l.flatMap (clusterSectors g), m1.disk lba = m.disk lba := by
          intro lba hlba
          obtain ⟨y, hy, hly⟩ := List.mem_flatMap.mp hlba
          exact ht.sec lba (clusterSector_not_fat hly) (hdisj lba hlba)
        simp only [Prog.wp_bind, getNextCluster, Nat.mod_eq_of_lt (data_lt hg hx)]
        refine Prog.wp_mono (wp_readFatEntry c) ?_
        rintro v m2 ⟨hd2, _, hv⟩
        have hv' : v = fatGet g m.disk c := by
          rcases hv with hv | ⟨hf, _⟩
          · rw [hv]
            exact ht.fatGet_eq hg (inTable_of_data hg hx) not_false
          · exact absurd hf.faulty hnf
        have hch : ChainFrom g m2.disk v l := by
          rw [hv', hd2]
          exact IsChain.congr (ht.chain_congr hg
            (fun y hy => hdata y (List.mem_cons_of_mem _ hy)) (fun _ _ => not_false)) hl
        have hfree2 : Chainless g pattern m2.disk (slotsOf (l.flatMap (clusterSectors g))) := by
          rw [hd2]
          exact hfree.append_right.congr hsame
        refine Prog.wp_mono (ih fuel v _ m2 hch (by simp at hlen; omega) hfree2) ?_
        rintro r m3 ⟨hr3, hd3⟩
        rw [hd2, doomedCount_congr hsame] at hr3
        rw [hd2, takeWhile_noEnd_congr hsame, hd1,
          sweptDisk_append (fun lba hlba => hdisj lba (List.takeWhile_subset _ hlba))] at hd3
        refine ⟨by rw [hr3, Nat.add_assoc], ?_⟩
        rw [hd3, List.takeWhile_append_of_pos hall]

/-- The call on a directory in which no doomed entry has a chain. -/
theorem wp_deleteMatching (hg : g.Valid) (hnf : ¬ ctx.Faulty) (hinv : ∀ e, ctx.inv e)
    (freeChain : Bool) {l : List Nat} (hd : Chained g m.disk dir l)
    (hfuel : g.getTotalClusters ≤ fuel) (hpat : pattern.at 0 ≠ 0)
    (hfree : Chainless g pattern m.disk (dirSlots g dir l)) :
    (deleteMatching g fuel dir pattern freeChain).wp ctx (fun r m' =>
      r = (true, doomedCount pattern m.disk (dirSlots g dir l)) ∧
      m'.disk = sweptDisk pattern ((dirSectors g dir l).takeWhile (noEnd m.disk)) m.disk) m := by
  have hlen := hd.length_le hg
  unfold deleteMatching
  rw [if_neg hpat]
  by_cases h0 : dir = 0
  · subst h0
    have hsecs : dirSectors g 0 l = (List.range' 0 g.getRootDirSectors).map
        (fun i => g.getRootDirStart + i) := by rw [← List.range_eq_range']; rfl
    unfold dirSlots at hfree ⊢
    rw [hsecs] at hfree ⊢
    rw [if_pos rfl, Prog.wp_bind]
    refine Prog.wp_mono (wp_sweepSectors hnf hinv freeChain _ _ 0 0 m hfree) ?_
    rintro r m' ⟨hd', hr⟩
    rcases hr with ⟨_, rfl⟩ | ⟨_, rfl⟩
    · exact ⟨by rw [Nat.zero_add], hd'⟩
    · exact ⟨by rw [Nat.zero_add], hd'⟩
  · have hsecs : dirSectors g dir l = l.flatMap (clusterSectors g) := if_neg h0
    unfold dirSlots at hfree ⊢
    rw [hsecs] at hfree ⊢
    rw [if_neg h0]
    refine Prog.wp_mono (wp_sweepClusters hg hnf hinv freeChain l fuel dir 0 m
      ((hd.chainOf h0).from hg) (by omega) hfree) ?_
    rintro r m' ⟨hr, hd'⟩
    exact ⟨by rw [hr, Nat.zero_add], hd'⟩

/-! ## The whole call -/

/-- Exactly the doomed entries are marked deleted and exactly their chains are free; `n` is their
number. -/
structure Swept (g : Globals) (pattern : CStr) (dir : Nat) (l : List Nat) (d d' : Disk) (n : Nat) :
    Prop where
  marked : ∀ q ∈ dirSlots g dir l, doomed pattern (entryAt d q) = true →
    entryAt d' q = deletedEntry (entryAt d q)
  slots : ∀ q ∈ dirSlots g dir l, doomed pattern (entryAt d q) = false → entryAt d' q = entryAt d q
  freed : ∀ q ∈ dirSlots g dir l, doomed pattern (entryAt d q) = true → ∀ lq,
    Chained g d (entryAt d q).first lq → ∀ x ∈ lq, fatGet g d' x = 0
  table : ∀ x, g.isDataCluster x = true → (∀ q ∈ dirSlots g dir l,
    doomed pattern (entryAt d q) = true → ∀ lq, Chained g d (entryAt d q).first lq → x ∉ lq) →
    fatGet g d' x = fatGet g d x
  sectors : ∀ lba, ¬ g.isFatSector lba → lba ∉ dirSectors g dir l → d' lba = d lba
  count : n = doomedCount pattern d (dirSlots g dir l)

theorem mem_takeWhile_noEnd (hend : EndMarked d (slotsOf secs))
    (hmem : lba ∈ secs) (hlba : noEnd d lba = true) : lba ∈ secs.takeWhile (noEnd d) := by
  induction secs with
  | nil => cases hmem
  | cons x secs ih =>
    rw [slotsOf_cons] at hend
    have hp := List.pairwise_append.mp hend
    rw [List.takeWhile_cons]
    by_cases hx : noEnd d x = true
    · rw [if_pos hx]
      rcases List.mem_cons.mp hmem with rfl | hmem
      · exact List.mem_cons_self
      · exact List.mem_cons_of_mem _ (ih hp.2.1 hmem)
    · -- an end mark in an earlier sector puts one into this
      exfalso
      rcases List.mem_cons.mp hmem with rfl | hmem
      · exact hx hlba
      · rw [noEnd_iff] at hx
        simp only [not_forall] at hx
        obtain ⟨k, hk, hke⟩ := hx
        have hle := hp.2.2 (x, k) (List.mem_map.mpr ⟨k, List.mem_range.mpr hk, rfl⟩) (lba, 0)
          (mem_slotsOf.mpr ⟨hmem, show 0 < 16 by decide⟩) (by simpa using hke)
        rw [noEnd_iff.mp hlba 0 (by decide)] at hle
        cases hle

theorem entryAt_swept (hend : EndMarked d (slotsOf secs)) {q : Slot}
    (hq : q ∈ slotsOf secs) :
    entryAt (sweptDisk pattern (secs.takeWhile (noEnd d)) d) q =
      if noEnd d q.1 = true ∧ doomed pattern (entryAt d q) = true then deletedEntry (entryAt d q)
      else entryAt d q := by
  obtain ⟨hq1, hq2⟩ := mem_slotsOf.mp hq
  unfold entryAt sweptDisk
  by_cases hne : noEnd d q.1 = true
  · rw [if_pos (mem_takeWhile_noEnd hend hq1 hne), markSlots_entry hq2 16 0 _ (by omega)]
    by_cases hd : doomed pattern ((d q.1).entry q.2) = true
    · rw [if_pos ⟨Nat.zero_le _, by omega, hd⟩, if_pos ⟨hne, hd⟩]
    · rw [if_neg (fun h => hd h.2.2), if_neg (fun h => hd h.2)]
  · have hnot : q.1 ∉ secs.takeWhile (noEnd d) := fun h => hne (List.mem_takeWhile_imp h)
    rw [if_neg hnot, if_neg (fun h => hne h.1)]

theorem doomed_ne_deleted (h : doomed pattern e = true) : e ≠ deletedEntry e := by
  intro he
  have hvis := (DirectoryEntry.isLive_iff.mp
    (DirectoryEntry.isLive_of_isVisible (doomed_isVisible h))).2
  rw [he, deletedEntry_isDeleted] at hvis
  cases hvis

/-- Where no matching file has a chain, the call does what it should, or refuses the empty pattern,
if and only if no matching file shares a sector with the end mark. -/
theorem deleteMatching_chainless (hg : g.Valid) (hfuel : g.getTotalClusters ≤ fuel)
    (hw : WellFormed g m.disk) (hdir : IsDir g m.disk dir) {l : List Nat}
    (hl : Chained g m.disk dir l)
    (hnone : ∀ q ∈ dirSlots g dir l, doomed pattern (entryAt m.disk q) = true →
      g.isDataCluster (entryAt m.disk q).first = false) :
    ∃ r m', (deleteMatching g fuel dir pattern true).run noFaults m = some (r, m') ∧
      ((r.1 = true → Swept g pattern dir l m.disk m'.disk r.2) ↔ (pattern.at 0 = 0 ∨
        ∀ q ∈ dirSlots g dir l, doomed pattern (entryAt m.disk q) = true →
          noEnd m.disk q.1 = true)) := by
  by_cases hpat : pattern.at 0 = 0
  · refine ⟨(false, 0), m, ?_, fun _ => .inl hpat, fun _ h => by cases h⟩
    unfold deleteMatching
    rw [if_pos hpat]
    rfl
  have hend := hw.endMarked dir l hdir hl
  have hcall : (deleteMatching g fuel dir pattern true).wp (Ctx.total (fun _ => True)) _ m :=
    wp_deleteMatching hg (Ctx.total_not_faulty _) (fun _ => trivial) true hl hfuel hpat ⟨hend, hnone⟩
  obtain ⟨hpost, hterm⟩ := Prog.run_of_wp noFaults (fun _ hf => by cases hf) hcall
  obtain ⟨r, m', hrun⟩ := hterm not_false
  obtain ⟨rfl, hdisk⟩ := hpost r m' hrun
  refine ⟨_, m', hrun, fun hs => .inr (fun q hq hqd => ?_), fun h _ => ?_⟩
  · -- an unmarked match would have been left as it was
    have hmark := (hs rfl).marked q hq hqd
    rw [hdisk, entryAt_swept hend hq] at hmark
    by_cases hne : noEnd m.disk q.1 = true
    · exact hne
    · rw [if_neg (fun h => hne h.1)] at hmark
      exact absurd hmark (doomed_ne_deleted hqd)
  · have hclear := h.resolve_left hpat
    have hsecs : ∀ lba ∈ (dirSectors g dir l).takeWhile (noEnd m.disk), lba ∈ dirSectors g dir l :=
      fun lba hlba => List.takeWhile_subset _ hlba
    have ht : Touches g (fun _ => False)
        (fun lba => lba ∈ (dirSectors g dir l).takeWhile (noEnd m.disk)) m.disk m'.disk := by
      rw [hdisk]
      exact sweptDisk_touches (fun lba hlba => dirSector_not_fat (hsecs lba hlba))
    have hzero : ∀ q ∈ dirSlots g dir l, doomed pattern (entryAt m.disk q) = true → ∀ lq,
        Chained g m.disk (entryAt m.disk q).first lq → lq = [] := by
      intro q hq hqd lq hlq
      by_cases h0 : (entryAt m.disk q).first = 0
      · rw [h0] at hlq
        exact hlq.nil_of_zero
      · have hdata := hlq.data_of_mem _ (hlq.head_mem h0)
        rw [hnone q hq hqd] at hdata
        cases hdata
    refine ⟨fun q hq hqd => ?_, fun q hq hqd => ?_, fun q hq hqd lq hlq x hx => ?_,
      fun x hx _ => ht.fatGet_eq hg (inTable_of_data hg hx) not_false,
      fun lba hnf hnd => ht.sec lba hnf (fun h => hnd (hsecs lba h)), rfl⟩
    · rw [hdisk, entryAt_swept hend hq, if_pos ⟨hclear q hq hqd, hqd⟩]
    · rw [hdisk, entryAt_swept hend hq, if_neg (fun h => by rw [hqd] at h; cases h.2)]
    · rw [hzero q hq hqd lq hlq] at hx
      cases hx

end Fat16
end MiniDos
