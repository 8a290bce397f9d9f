import Mathlib.Data.List.Nodup
import MiniDos.Fat.Directory
import MiniDos.Fat.ChainSpec

/-!
# MiniDos.Fat.Slots

A directory as the list of its slots, in the order in which the driver passes them.

* `entryAt`, `putSlot`: a slot is a window of 32 bytes; replacing one leaves all others alone.
* `EndMarked`: after the first unused slot all slots are unused. The driver stops its searches at
  that slot, so under this condition a search is a search of the whole list.
* `lookup`, `firstFree`: the two searches, and how the driver's sector loops compute them.
-/

namespace MiniDos
namespace Fat16

open BlockIO Chain

variable {e : DirectoryEntry} {name : CStr}

/-! ## Entries as bytes -/

theorem le16_lo_hi (w : UInt16) : le16 (lo w) (hi w) = w := by
  have h := w.toNat_lt
  apply UInt16.toNat_inj.mp
  unfold le16 lo hi
  simp only [UInt16.toNat_ofNat', UInt8.toNat_ofNat']
  omega

theorem le32_bytes (w : UInt32) :
    le32 (UInt8.ofNat (w.toNat % 256)) (UInt8.ofNat (w.toNat / 256 % 256))
      (UInt8.ofNat (w.toNat / 65536 % 256)) (UInt8.ofNat (w.toNat / 16777216)) = w := by
  have h := w.toNat_lt
  apply UInt32.toNat_inj.mp
  unfold le32
  simp only [UInt32.toNat_ofNat', UInt8.toNat_ofNat']
  omega

namespace DirectoryEntry

theorem ofBytes_congr {f f' : Nat → Byte} (h : ∀ j < 32, f j = f' j) : ofBytes f = ofBytes f' := by
  unfold ofBytes
  have hname : (fun i : Fin 11 => f i.val) = fun i : Fin 11 => f' i.val := by
    funext i
    exact h i.val (by have := i.isLt; omega)
  rw [hname]
  simp only [h 11 (by decide), h 12 (by decide), h 13 (by decide), h 14 (by decide),
    h 15 (by decide), h 16 (by decide), h 17 (by decide), h 18 (by decide), h 19 (by decide),
    h 20 (by decide), h 21 (by decide), h 22 (by decide), h 23 (by decide), h 24 (by decide),
    h 25 (by decide), h 26 (by decide), h 27 (by decide), h 28 (by decide), h 29 (by decide),
    h 30 (by decide), h 31 (by decide)]

theorem ofBytes_toByte (e : DirectoryEntry) : ofBytes e.toByte = e := by
  have hname : (fun i : Fin 11 => e.toByte i.val) = e.name := by
    funext i
    unfold toByte
    rw [dif_pos i.isLt]
  unfold ofBytes
  rw [hname]
  -- the other fields are read back from their own bytes
  show DirectoryEntry.mk e.name e.attributes e.reserved e.creationTimeMs
    (le16 (lo e.creationTime) (hi e.creationTime)) (le16 (lo e.creationDate) (hi e.creationDate))
    (le16 (lo e.accessDate) (hi e.accessDate)) (le16 (lo e.clusterHigh) (hi e.clusterHigh))
    (le16 (lo e.modifiedTime) (hi e.modifiedTime)) (le16 (lo e.modifiedDate) (hi e.modifiedDate))
    (le16 (lo e.clusterLow) (hi e.clusterLow))
    (le32 (UInt8.ofNat (e.fileSize.toNat % 256)) (UInt8.ofNat (e.fileSize.toNat / 256 % 256))
      (UInt8.ofNat (e.fileSize.toNat / 65536 % 256)) (UInt8.ofNat (e.fileSize.toNat / 16777216))) = e
  simp only [le16_lo_hi, le32_bytes]

end DirectoryEntry

theorem Sector.entry_setEntry (s : Sector) {i : Nat} (hi : i < 16) (e : DirectoryEntry) :
    (s.setEntry i e).entry i = e := by
  refine Eq.trans (DirectoryEntry.ofBytes_congr (fun j hj => ?_)) e.ofBytes_toByte
  have hv : (Fin.ofNat 512 (32 * i + j)).val = 32 * i + j := by
    simp only [Fin.ofNat]; omega
  unfold Sector.get Sector.setEntry
  rw [hv, if_pos (by omega), show (32 * i + j) % 32 = j by omega]

theorem Sector.entry_setEntry_ne (s : Sector) {i k : Nat} (hk : k < 16) (h : k ≠ i)
    (e : DirectoryEntry) : (s.setEntry i e).entry k = s.entry k := by
  refine DirectoryEntry.ofBytes_congr (fun j hj => ?_)
  have hv : (Fin.ofNat 512 (32 * k + j)).val = 32 * k + j := by
    simp only [Fin.ofNat]; omega
  unfold Sector.get Sector.setEntry
  rw [hv, if_neg (by omega)]

/-! ## Slots -/

abbrev Slot := Nat × Nat

def entryAt (d : Disk) (p : Slot) : DirectoryEntry := (d p.1).entry p.2

def putSlot (d : Disk) (p : Slot) (e : DirectoryEntry) : Disk :=
  putSector d p.1 ((d p.1).setEntry p.2 e)

def slotsOf (secs : List Nat) : List Slot :=
  secs.flatMap (fun s => (List.range entriesPerSector).map (fun i => (s, i)))

theorem mem_slotsOf {secs : List Nat} {p : Slot} :
    p ∈ slotsOf secs ↔ p.1 ∈ secs ∧ p.2 < 16 := by
  obtain ⟨s, i⟩ := p
  simp [slotsOf, entriesPerSector]

theorem slotsOf_append (a b : List Nat) : slotsOf (a ++ b) = slotsOf a ++ slotsOf b := by
  simp [slotsOf]

section PutSlot

variable {d : Disk} {p q : Slot}

theorem entryAt_putSlot (hp : p.2 < 16) (e : DirectoryEntry) : entryAt (putSlot d p e) p = e := by
  unfold entryAt putSlot
  rw [putSector_self, Sector.entry_setEntry _ hp]

theorem entryAt_putSlot_ne (hq : q.2 < 16) (h : q ≠ p) (e : DirectoryEntry) :
    entryAt (putSlot d p e) q = entryAt d q := by
  unfold entryAt putSlot
  by_cases hs : q.1 = p.1
  · rw [hs, putSector_self, Sector.entry_setEntry_ne _ hq]
    exact fun hi => h (Prod.ext hs hi)
  · rw [putSector_of_ne _ _ hs]

theorem putSlot_sector_ne {lba : Nat} (h : lba ≠ p.1) (e : DirectoryEntry) :
    putSlot d p e lba = d lba := putSector_of_ne _ _ h

theorem putSlot_touches {g : Globals} (h : ¬ g.isFatSector p.1) (e : DirectoryEntry) :
    Touches g (fun _ => False) (fun lba => lba = p.1) d (putSlot d p e) :=
  .of_sectors (fun _ hl => hl ▸ h) (fun _ hl => putSlot_sector_ne hl e)

theorem entryAt_congr {d' : Disk} (h : d' p.1 = d p.1) : entryAt d' p = entryAt d p := by
  unfold entryAt
  rw [h]

end PutSlot

/-! ## What a slot holds -/

namespace DirectoryEntry

/-- The slot can take a new entry. -/
def isFree (e : DirectoryEntry) : Bool := e.isEnd || e.isDeleted

/-- The slot is in use, by a file, a directory, a label or a long name. -/
def isLive (e : DirectoryEntry) : Bool := !e.isFree

/-- One of the entries `.` and `..`. -/
def isDot (e : DirectoryEntry) : Bool :=
  decide (∀ i, e.name i = dotName i) || decide (∀ i, e.name i = dotDotName i)

/-- The lookup of `name` ends at this entry. -/
def hits (name : CStr) (e : DirectoryEntry) : Bool := e.isVisible && matchName name e

theorem isLive_iff : e.isLive = true ↔ e.isEnd = false ∧ e.isDeleted = false := by
  simp [isLive, isFree]

theorem isLive_of_isVisible (h : e.isVisible = true) : e.isLive = true := by
  simp only [isVisible, Bool.and_eq_true, Bool.not_eq_true'] at h
  exact isLive_iff.mpr ⟨h.1.1.1, h.1.1.2⟩

theorem isLive_of_hits (h : e.hits name = true) :
    e.isLive = true := by
  simp only [hits, Bool.and_eq_true] at h
  exact isLive_of_isVisible h.1

end DirectoryEntry

theorem findVerdict_hit :
    findVerdict name e = .hit ↔ e.hits name = true := by
  unfold findVerdict DirectoryEntry.hits DirectoryEntry.isVisible
  cases e.isEnd <;> cases e.isDeleted <;> cases e.isVolumeId <;> cases e.isLongName <;>
    cases matchName name e <;> simp

theorem findVerdict_stop :
    findVerdict name e = .stop ↔ e.isEnd = true := by
  unfold findVerdict
  cases e.isEnd <;> cases e.isDeleted <;> cases e.isVolumeId <;> cases e.isLongName <;>
    cases matchName name e <;> simp

theorem freeVerdict_hit : freeVerdict e = .hit ↔ e.isFree = true := by
  unfold freeVerdict DirectoryEntry.isFree
  cases e.isEnd <;> cases e.isDeleted <;> simp

theorem freeVerdict_ne_stop : freeVerdict e ≠ .stop := by
  unfold freeVerdict
  split <;> simp

/-! ## Scans as list searches -/

/-- The result of a scan at one slot: go on, give up, or this slot. -/
def pick (f : DirectoryEntry → Verdict) (d : Disk) (p : Slot) : Option (Option Slot) :=
  match f (entryAt d p) with
  | .skip => none
  | .stop => some none
  | .hit => some (some p)

section Pick

variable {f : DirectoryEntry → Verdict} {d : Disk} {p : Slot}

theorem pick_skip (h : f (entryAt d p) = .skip) : pick f d p = none := by
  simp only [pick, h]

theorem pick_hit (h : f (entryAt d p) = .hit) : pick f d p = some (some p) := by
  simp only [pick, h]

end Pick

/-- The result of the scan of sector `lba` in the same form. -/
def Scan.toSlot (lba : Nat) : Scan → Option (Option Slot)
  | .more => none
  | .stopped => some none
  | .found i => some (some (lba, i))

theorem scanFrom_toSlot (f : DirectoryEntry → Verdict) (d : Disk) (lba : Nat) : ∀ n i : Nat,
    (scanFrom f (d lba) n i).toSlot lba =
      ((List.range' i n).map (fun k => (lba, k))).findSome? (pick f d) := by
  intro n
  induction n with
  | zero => intro i; rfl
  | succ n ih =>
    intro i
    rw [List.range'_succ, List.map_cons, List.findSome?_cons]
    have he : pick f d (lba, i) = match f ((d lba).entry i) with
      | .skip => none | .stop => some none | .hit => some (some (lba, i)) := rfl
    rw [he]
    unfold scanFrom
    cases f ((d lba).entry i) with
    | skip => exact ih (i + 1)
    | stop => rfl
    | hit => rfl

theorem scanSector_toSlot (f : DirectoryEntry → Verdict) (d : Disk) (lba : Nat) :
    (scanSector f (d lba)).toSlot lba =
      ((List.range entriesPerSector).map (fun k => (lba, k))).findSome? (pick f d) := by
  rw [List.range_eq_range']
  exact scanFrom_toSlot f d lba entriesPerSector 0

theorem findSome?_slotsOf {γ : Type} (secs : List Nat) (f : Slot → Option γ) :
    (slotsOf secs).findSome? f = secs.findSome? (fun lba =>
      ((List.range entriesPerSector).map (fun k => (lba, k))).findSome? f) := by
  induction secs with
  | nil => rfl
  | cons s secs ih =>
    rw [List.findSome?_cons, ← ih]
    show ((List.range entriesPerSector).map (fun k => (s, k)) ++ slotsOf secs).findSome? f = _
    rw [List.findSome?_append]
    cases ((List.range entriesPerSector).map (fun k => (s, k))).findSome? f <;> rfl

theorem findSome?_scanSector (f : DirectoryEntry → Verdict) (d : Disk) (secs : List Nat) :
    secs.findSome? (fun lba => (scanSector f (d lba)).toSlot lba) =
      (slotsOf secs).findSome? (pick f d) := by
  rw [findSome?_slotsOf]
  exact congrArg (fun h => secs.findSome? h) (funext (fun lba => scanSector_toSlot f d lba))

/-! ## End marks -/

/-- All slots after an unused one are unused. -/
def EndMarked (d : Disk) (ps : List Slot) : Prop :=
  ps.Pairwise (fun p q => (entryAt d p).isEnd = true → (entryAt d q).isEnd = true)

theorem EndMarked.congr {d d' : Disk} {ps : List Slot} (h : EndMarked d ps)
    (he : ∀ p ∈ ps, entryAt d' p = entryAt d p) : EndMarked d' ps := by
  refine List.Pairwise.imp_of_mem ?_ h
  intro p q hp hq hpq
  rw [he p hp, he q hq]
  exact hpq

/-- Behind the end mark nothing is found: the search may as well go on to the end. -/
theorem EndMarked.find {d : Disk} {ps : List Slot} (h : EndMarked d ps)
    {f : DirectoryEntry → Verdict} {G : DirectoryEntry → Bool}
    (hhit : ∀ e, f e = .hit ↔ G e = true) (hstop : ∀ e, f e = .stop ↔ e.isEnd = true)
    (hgood : ∀ e, G e = true → e.isEnd = false) :
    (ps.findSome? (pick f d)).getD none = ps.find? (fun p => G (entryAt d p)) := by
  induction ps with
  | nil => rfl
  | cons p ps ih =>
    obtain ⟨hp, hps⟩ := List.pairwise_cons.mp h
    rw [List.findSome?_cons, List.find?_cons]
    have hpick : pick f d p = match f (entryAt d p) with
      | .skip => none | .stop => some none | .hit => some (some p) := rfl
    rw [hpick]
    cases hf : f (entryAt d p) with
    | hit => rw [(hhit _).mp hf]; rfl
    | skip =>
      have hng : G (entryAt d p) = false := by
        cases hg : G (entryAt d p) with
        | false => rfl
        | true => rw [(hhit _).mpr hg] at hf; cases hf
      rw [hng]
      exact ih hps
    | stop =>
      have hend := (hstop _).mp hf
      have hng : ∀ q ∈ p :: ps, G (entryAt d q) = false := by
        intro q hq
        have hqe : (entryAt d q).isEnd = true := by
          rcases List.mem_cons.mp hq with rfl | hq
          · exact hend
          · exact hp q hq hend
        cases hg : G (entryAt d q) with
        | false => rfl
        | true => rw [hgood _ hg] at hqe; cases hqe
      rw [hng p List.mem_cons_self]
      refine (List.find?_eq_none.mpr ?_).symm
      intro q hq
      rw [hng q (List.mem_cons_of_mem _ hq)]
      decide

theorem EndMarked.put {d : Disk} {pre post : List Slot} {p : Slot}
    (h : EndMarked d (pre ++ p :: post)) (hlt : ∀ q ∈ pre ++ p :: post, q.2 < 16)
    (hnd : (pre ++ p :: post).Nodup) (hpre : ∀ q ∈ pre, (entryAt d q).isEnd = false)
    (he : e.isEnd = false) : EndMarked (putSlot d p e) (pre ++ p :: post) := by
  have hsplit := List.pairwise_append.mp h
  have hcons := List.pairwise_cons.mp hsplit.2.1
  have hnp : ∀ q ∈ pre, q ≠ p := by
    intro q hq hqp
    subst hqp
    exact (List.nodup_append.mp hnd).2.2 q hq q List.mem_cons_self rfl
  have hnq : ∀ q ∈ post, q ≠ p := by
    intro q hq hqp
    subst hqp
    exact (List.nodup_cons.mp (List.nodup_append.mp hnd).2.1).1 hq
  have hself : entryAt (putSlot d p e) p = e := entryAt_putSlot (hlt p (by simp)) e
  have hother : ∀ q ∈ pre ++ p :: post, q ≠ p → entryAt (putSlot d p e) q = entryAt d q :=
    fun q hq hne => entryAt_putSlot_ne (hlt q hq) hne e
  refine List.pairwise_append.mpr ⟨?_, List.pairwise_cons.mpr ⟨?_, ?_⟩, ?_⟩
  · exact EndMarked.congr hsplit.1 (fun q hq => hother q (by simp [hq]) (hnp q hq))
  · intro q _ hpe
    rw [hself, he] at hpe
    cases hpe
  · exact EndMarked.congr hcons.2 (fun q hq => hother q (by simp [hq]) (hnq q hq))
  · intro q hq r _ hqe
    rw [hother q (by simp [hq]) (hnp q hq), hpre q hq] at hqe
    cases hqe

theorem EndMarked.before_live {d : Disk} {pre post : List Slot} {p : Slot}
    (h : EndMarked d (pre ++ p :: post)) (hp : (entryAt d p).isEnd = false) :
    ∀ q ∈ pre, (entryAt d q).isEnd = false := by
  intro q hq
  have := (List.pairwise_append.mp h).2.2 q hq p List.mem_cons_self
  cases he : (entryAt d q).isEnd with
  | false => rfl
  | true => rw [this he] at hp; cases hp

theorem slotsOf_nodup {secs : List Nat} (h : secs.Nodup) : (slotsOf secs).Nodup := by
  induction secs with
  | nil => exact List.nodup_nil
  | cons s secs ih =>
    obtain ⟨hs, hn⟩ := List.nodup_cons.mp h
    show ((List.range entriesPerSector).map (fun i => (s, i)) ++ slotsOf secs).Nodup
    refine List.nodup_append.mpr ⟨?_, ih hn, ?_⟩
    · refine List.Nodup.map ?_ List.nodup_range
      intro a b hab
      exact (Prod.mk.inj hab).2
    · intro p hp q hq hpq
      subst hpq
      simp only [List.mem_map] at hp
      obtain ⟨i, _, rfl⟩ := hp
      exact hs (mem_slotsOf.mp hq).1

end Fat16
end MiniDos
