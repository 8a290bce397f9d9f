import MiniDos.Fat.Crash
import MiniDos.Fat.ReadSpec

/-!
# MiniDos.Fat.ReadFound

`fat16_find_entry` and `fat16_read_file_from_dir` scan a directory with two rules: the first passes
over volume labels, the second over directories, and only the first refuses the empty name.

* `ReadsFound`: the read gives the bytes of the entry the lookup gives.
* `readsFound_iff`: the slots at which the two scans end hold the same bytes, and the chain of the
  file is as long as its size says.
* `readsFound_of_plain`: so it is where the first match is neither a directory nor a label.
-/

namespace MiniDos
namespace Fat16

open BlockIO Chain

variable {g : Globals} {m : DriverMem} {d : Disk} {dir fuel max : Nat} {name : CStr}
variable {l : List Nat} {e : DirectoryEntry}

/-- The bytes that are to be read, given what the lookup gave. -/
inductive Promised (g : Globals) (d : Disk) (max : Nat) : Option Located → List Byte → Prop where
  | nothing : Promised g d max none []
  | directory {found : Located} (hdir : found.entry.isDirectory = true) :
      Promised g d max (some found) []
  | file {found : Located} {l : List Nat} {out : List Byte} (hdir : found.entry.isDirectory = false)
      (hl : Chained g d found.entry.first l)
      (hlen : out.length = min found.entry.fileSize.toNat max)
      (hout : out = (chainBytes g d l).take (min found.entry.fileSize.toNat max)) :
      Promised g d max (some found) out

def ReadsFound (g : Globals) (fuel : Nat) (m : DriverMem) (dir : Nat) (name : CStr) (max : Nat) : Prop :=
  ∃ found m₁ out m₂, (findEntry g fuel dir name).run noFaults m = some (found, m₁) ∧
    (readFileFromDir g fuel dir name max).run noFaults m₁ = some (out, m₂) ∧
    Promised g m.disk max found out

/-- The slot of the entry that `fat16_find_entry` gives. -/
def foundSlot (name : CStr) (d : Disk) (ps : List Slot) : Option Slot :=
  if name.at 0 = 0 then none else lookup name d ps

def foundFile (name : CStr) (d : Disk) (ps : List Slot) : Option Slot :=
  (foundSlot name d ps).filter (fun p => !(entryAt d p).isDirectory)

def DirectoryEntry.isRead (name : CStr) (e : DirectoryEntry) : Bool :=
  e.isLive && !e.isDirectory && !e.isLongName && matchName name e

def readSlot (name : CStr) (d : Disk) (ps : List Slot) : Option Slot :=
  ps.find? (fun p => (entryAt d p).isRead name)

/-! ## The two scans -/

theorem exists_run_findEntry (hg : g.Valid) (hfuel : g.getTotalClusters ≤ fuel)
    (hd : DirOk g m.disk dir l) (name : CStr) :
    ∃ m₁, (findEntry g fuel dir name).run noFaults m =
      some ((foundSlot name m.disk (dirSlots g dir l)).map (locate m.disk), m₁) ∧
      m₁.disk = m.disk := by
  unfold findEntry foundSlot
  by_cases hname : name.at 0 = 0
  · rw [if_pos hname, if_pos hname]
    exact ⟨m, rfl, rfl⟩
  · rw [if_neg hname, if_neg hname]
    have hwp : (findEntryInternal g fuel dir name).wp (Ctx.total (fun _ => True)) _ m :=
      wp_findEntryInternal hg hd hfuel name
    obtain ⟨r, m₁, hrun, hd₁, _, hr⟩ := Prog.exists_run hwp
    rcases hr with rfl | ⟨hf, _⟩
    · exact ⟨m₁, hrun, hd₁⟩
    · exact absurd hf.faulty (Ctx.total_not_faulty _)

theorem readVerdict_hit : readVerdict name e = .hit ↔ e.isRead name = true := by
  unfold readVerdict DirectoryEntry.isRead DirectoryEntry.isLive DirectoryEntry.isFree
  cases e.isEnd <;> cases e.isDeleted <;> cases e.isDirectory <;> cases e.isLongName <;>
    cases matchName name e <;> simp

theorem readVerdict_stop : readVerdict name e = .stop ↔ e.isEnd = true := by
  unfold readVerdict
  cases e.isEnd <;> cases e.isDeleted <;> cases e.isDirectory <;> cases e.isLongName <;>
    cases matchName name e <;> simp

theorem isLive_of_isRead (h : e.isRead name = true) : e.isLive = true := by
  simp only [DirectoryEntry.isRead, Bool.and_eq_true] at h
  exact h.1.1.1

theorem firstHit_readVerdict {ps : List Slot} (h : EndMarked d ps) (name : CStr) :
    firstHit (readVerdict name) d ps = readSlot name d ps :=
  h.find (fun _ => readVerdict_hit) (fun _ => readVerdict_stop)
    (fun _ hr => (DirectoryEntry.isLive_iff.mp (isLive_of_isRead hr)).1)

theorem exists_run_readFileFromDir (hg : g.Valid) (hfuel : 2 ^ 32 ≤ fuel)
    (hd : DirOk g m.disk dir l) (name : CStr) (max : Nat) :
    ∃ m₂, (readFileFromDir g fuel dir name max).run noFaults m =
      some ((heldIn g m.disk (readSlot name m.disk (dirSlots g dir l))).take max, m₂) := by
  have hnone : Readable g (fun _ => False) m.disk name max (dirSectors g dir l) :=
    ⟨fun _ _ => not_false, fun _ _ _ _ => not_false⟩
  have hwp := wpAt_readFileFromDir hg hfuel hd.chained hnone
  obtain ⟨out, m₂, hrun, _, hout⟩ := Prog.run_of_wpAt_noFaults hwp
  rw [hout (fun _ => not_false), firstHit_readVerdict hd.endMarked] at hrun
  exact ⟨m₂, hrun⟩

theorem Chained.chainFrom (hg : g.Valid) {c : Nat} (h : Chained g d c l) :
    ChainFrom g d c l := by
  by_cases hc : c = 0
  · subst hc
    rw [h.nil_of_zero]
    exact Bool.eq_false_iff.mpr (fun h0 => absurd (isDataCluster_iff.mp h0).1 (by omega))
  · exact (h.chainOf hc).from hg

theorem held_of_chained (hg : g.Valid) (h : Chained g d e.first l) :
    held g d e = (chainBytes g d l).take e.fileSize.toNat :=
  spelled_chain hg.sectorsPerCluster l _ _ _ (h.chainFrom hg) (Nat.le_refl _)

/-- What the lookup promises are the bytes in the slot it ends at, if there are enough. -/
theorem promised_iff (hg : g.Valid) (ps : List Slot) {out : List Byte} :
    Promised g d max ((foundSlot name d ps).map (locate d)) out ↔
      out = (heldIn g d (foundFile name d ps)).take max ∧ ∀ p, foundFile name d ps = some p →
        ∃ lf, Chained g d (entryAt d p).first lf ∧
          min (entryAt d p).fileSize.toNat max ≤ (chainBytes g d lf).length := by
  unfold foundFile
  cases hfound : foundSlot name d ps with
  | none =>
    simp only [Option.map_none, Option.filter_none]
    refine ⟨?_, ?_⟩
    · rintro ⟨⟩
      exact ⟨List.take_nil.symm, fun p h => nomatch h⟩
    · rintro ⟨rfl, _⟩
      rw [show heldIn g d none = [] from rfl, List.take_nil]
      exact .nothing
  | some p =>
    rw [Option.map_some]
    cases hdir : (entryAt d p).isDirectory with
    | true =>
      rw [Option.filter_some_neg (by rw [hdir]; simp)]
      refine ⟨?_, ?_⟩
      · intro h
        cases h with
        | directory _ => exact ⟨List.take_nil.symm, fun p h => nomatch h⟩
        | file hfile _ _ _ => exact absurd (hdir.symm.trans hfile) (by simp)
      · rintro ⟨rfl, _⟩
        rw [show heldIn g d none = [] from rfl, List.take_nil]
        exact .directory hdir
    | false =>
      rw [Option.filter_some_pos (by rw [hdir]; rfl)]
      have hheld : ∀ lf, Chained g d (entryAt d p).first lf → (heldIn g d (some p)).take max =
          (chainBytes g d lf).take (min (entryAt d p).fileSize.toNat max) := by
        intro lf hlf
        show (held g d (entryAt d p)).take max = _
        rw [held_of_chained hg hlf, List.take_take, Nat.min_comm]
      refine ⟨?_, ?_⟩
      · intro h
        cases h with
        | directory hd => exact absurd (hdir.symm.trans hd) (by simp)
        | @file _ l _ _ hl hlen hout =>
          refine ⟨hout.trans (hheld l hl).symm, fun q hq => ?_⟩
          obtain rfl := Option.some.inj hq
          rw [hout, List.length_take, show (locate d p).entry = entryAt d p from rfl] at hlen
          exact ⟨l, hl, by omega⟩
      · rintro ⟨hout, hlong⟩
        obtain ⟨l, hl, hlen⟩ := hlong p rfl
        rw [hheld l hl] at hout
        refine .file hdir hl ?_ hout
        rw [hout, List.length_take]
        show _ = min (entryAt d p).fileSize.toNat max
        omega

theorem readsFound_promised (hg : g.Valid) (hfuel : 2 ^ 32 ≤ fuel)
    (hd : DirOk g m.disk dir l) (name : CStr) (max : Nat) : ReadsFound g fuel m dir name max ↔
      Promised g m.disk max ((foundSlot name m.disk (dirSlots g dir l)).map (locate m.disk))
        ((heldIn g m.disk (readSlot name m.disk (dirSlots g dir l))).take max) := by
  obtain ⟨m₁, hfind, hd₁⟩ := exists_run_findEntry hg (hg.clusters_le hfuel) hd name
  obtain ⟨m₂, hread⟩ := exists_run_readFileFromDir hg hfuel (by rw [hd₁]; exact hd) name max
  rw [hd₁] at hread
  refine ⟨?_, fun hp => ⟨_, m₁, _, m₂, hfind, hread, hp⟩⟩
  rintro ⟨found, m₁', out, m₂', hfind', hread', hp⟩
  obtain ⟨rfl, rfl⟩ := Prod.mk.inj (Option.some.inj (hfind.symm.trans hfind'))
  obtain ⟨rfl, rfl⟩ := Prod.mk.inj (Option.some.inj (hread.symm.trans hread'))
  exact hp

/-- The read gives what the lookup promises exactly when the slots of the two scans hold the same
bytes and the chain of the file is long enough for them. -/
theorem readsFound_iff (hg : g.Valid) (hfuel : 2 ^ 32 ≤ fuel) (hw : WellFormed g m.disk)
    (hdir : IsDir g m.disk dir) {l : List Nat} (hl : Chained g m.disk dir l) (name : CStr) (max : Nat) :
    ReadsFound g fuel m dir name max ↔
      (heldIn g m.disk (readSlot name m.disk (dirSlots g dir l))).take max =
        (heldIn g m.disk (foundFile name m.disk (dirSlots g dir l))).take max ∧
      ∀ p, foundFile name m.disk (dirSlots g dir l) = some p →
        ∃ lf, Chained g m.disk (entryAt m.disk p).first lf ∧
          min (entryAt m.disk p).fileSize.toNat max ≤ (chainBytes g m.disk lf).length := by
  rw [readsFound_promised hg hfuel ⟨hl, hw.endMarked dir l hdir hl⟩, promised_iff hg]

/-- The bytes of `A` are read. -/
theorem readsFound_iff_file : ReadsFound smallVolume (2 ^ 32) fileMem 0 [0x41] 8 := by
  refine (readsFound_iff smallVolume_valid (Nat.le_refl _) fileMem_wellFormed .root (.inl ⟨rfl, rfl⟩)
    [0x41] 8).mpr ⟨by decide +kernel, fun p hp => ⟨[2], ?_, ?_⟩⟩
  · cases (show foundFile [0x41] fileMem.disk (dirSlots smallVolume 0 []) = some (3, 0) by
      decide +kernel).symm.trans hp
    exact fileMem_chain
  · cases (show foundFile [0x41] fileMem.disk (dirSlots smallVolume 0 []) = some (3, 0) by
      decide +kernel).symm.trans hp
    decide +kernel

/-- Where every entry of that name is a plain file, the read and the lookup end at the same slot. -/
theorem readsFound_of_plain (hg : g.Valid) (hfuel : 2 ^ 32 ≤ fuel) (hw : WellFormed g m.disk)
    (hdir : IsDir g m.disk dir) (hl : Chained g m.disk dir l) (hname : name.at 0 ≠ 0)
    (hplain : ∀ q ∈ dirSlots g dir l, matchName name (entryAt m.disk q) = true →
      (entryAt m.disk q).isDirectory = false ∧ (entryAt m.disk q).isVolumeId = false)
    (hlong : ∀ p, lookup name m.disk (dirSlots g dir l) = some p →
      ∃ lf, Chained g m.disk (entryAt m.disk p).first lf ∧
        min (entryAt m.disk p).fileSize.toNat max ≤ (chainBytes g m.disk lf).length) :
    ReadsFound g fuel m dir name max := by
  have hsame : readSlot name m.disk (dirSlots g dir l) = lookup name m.disk (dirSlots g dir l) := by
    refine find?_congr_of_mem (fun q hq => ?_)
    unfold DirectoryEntry.isRead DirectoryEntry.hits DirectoryEntry.isVisible
      DirectoryEntry.isLive DirectoryEntry.isFree
    cases hmatch : matchName name (entryAt m.disk q) with
    | false => simp
    | true =>
      obtain ⟨hd, hv⟩ := hplain q hq hmatch
      rw [hd, hv]
      simp
  have hfile : foundFile name m.disk (dirSlots g dir l) = lookup name m.disk (dirSlots g dir l) := by
    unfold foundFile foundSlot
    rw [if_neg hname]
    cases hp : lookup name m.disk (dirSlots g dir l) with
    | none => rfl
    | some p =>
      have hhit := lookup_hits hp
      simp only [DirectoryEntry.hits, Bool.and_eq_true] at hhit
      exact Option.filter_some_pos (by rw [(hplain p (lookup_mem hp) hhit.2).1]; rfl)
  rw [readsFound_promised hg hfuel ⟨hl, hw.endMarked dir l hdir hl⟩, promised_iff hg, hsame, hfile]
  exact ⟨rfl, hlong⟩

/-! ## A directory and a file of one name -/

def after (op : Op) (m : DriverMem) : DriverMem :=
  (((op.prog smallVolume 3).run noFaults m).map Prod.snd).getD m

theorem after_wellFormed {op : Op} (hw : WellFormed smallVolume m.disk)
    (hop : op.Allowed smallVolume m.disk) : WellFormed smallVolume (after op m).disk := by
  have hwp := op.wp_wellFormed smallVolume_valid (show smallVolume.getTotalClusters ≤ 3 by decide)
    (Ctx.total_not_faulty (fun _ => True)) (fun _ => trivial) hw hop
  obtain ⟨ok, m', hrun, hpost⟩ := Prog.exists_run hwp
  unfold after
  rw [hrun]
  exact hpost

/-- `X` and `A` are written, `X` is deleted and `mkdir A` takes its slot. -/
def shadowMem : DriverMem :=
  after (.mkdir 0 [0x41]) (after (.deleteEntry 0 [0x58])
    (after (.writeFileFromDir 0 [0x41] (some (fun k => [0x68, 0x69].getD k 0)) 2)
      (after (.writeFileFromDir 0 [0x58] none 0) blankMem)))

theorem shadowMem_wellFormed : WellFormed smallVolume shadowMem.disk :=
  after_wellFormed (after_wellFormed (after_wellFormed (after_wellFormed
    (blankDisk_wellFormed smallVolume) ⟨.root, by decide⟩) ⟨.root, by decide⟩) ⟨.root, by decide⟩)
    ⟨.root, by decide⟩

/-- The lookup of `A` gives the directory, the read the two bytes of the file. -/
theorem read_passes_directory : WellFormed smallVolume shadowMem.disk ∧
    ¬ ReadsFound smallVolume (2 ^ 32) shadowMem 0 [0x41] 8 := by
  refine ⟨shadowMem_wellFormed, fun h => ?_⟩
  have hroot : Chained smallVolume shadowMem.disk 0 [] := .inl ⟨rfl, rfl⟩
  rw [readsFound_promised smallVolume_valid (Nat.le_refl _)
    ⟨hroot, shadowMem_wellFormed.endMarked 0 [] .root hroot⟩, promised_iff smallVolume_valid] at h
  have hsame := h.1
  have hfile : foundFile [0x41] shadowMem.disk (dirSlots smallVolume 0 []) = none := by decide +kernel
  have hread : readSlot [0x41] shadowMem.disk (dirSlots smallVolume 0 []) = some (3, 1) := by
    decide +kernel
  rw [hfile, hread] at hsame
  revert hsame
  decide +kernel

end Fat16
end MiniDos
