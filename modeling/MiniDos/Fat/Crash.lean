import MiniDos.Fat.WriteCorrect

/-!
# MiniDos.Fat.Crash

Overwriting a file and losing power. After any prefix of the sector writes of the call the disk is
in one of two phases:

* only clusters that were free have changed (`Scratch`): the entry and its chain are the old ones;
* the entry has been replaced: it leads to the complete new chain, and the table entries of the old
  chain are being freed.
-/

namespace MiniDos
namespace Fat16

open BlockIO Chain

variable {g : Globals} {m : DriverMem} {d e : Disk} {dir fuel : Nat} {name : CStr}

/-- `fat16_find_entry` gives the entry in slot `p`, which is that of disk `d`; its chain `l` has the
content it had there. -/
structure StillHolds (g : Globals) (fuel : Nat) (d : Disk) (m : DriverMem) (dir : Nat) (name : CStr)
    (p : Slot) (l : List Nat) : Prop where
  found : ∃ m₁, (findEntry g fuel dir name).run noFaults m = some (some (locate d p), m₁)
  chain : Chained g m.disk (entryAt d p).first l
  content : chainBytes g m.disk l = chainBytes g d l

/-- The states of the disk while the file in slot `p` is overwritten. -/
inductive Overwriting (g : Globals) (d : Disk) (name : CStr) (p : Slot) (bytes : List Byte)
    (e : Disk) : Prop where
  | building (h : Scratch g d e)
  | switched {l lo : List Nat} {first last : Nat} {e₀ : Disk} {name83 : Name}
      (hchain : NewChain g d l first last e₀)
      (hspells : Spells g e₀ l (fun k => bytes.getD k 0) bytes.length)
      (hformat : formatName name = some name83) (hsame : ∀ i, (entryAt d p).name i = name83 i)
      (hold : Chained g d (entryAt d p).clusterLow.toNat lo)
      (ht : Touches g (fun c => c ∈ lo) (fun _ => False)
        (putSlot e₀ p (overwrittenEntry (entryAt d p) name83 first bytes.length)) e)

theorem Scratch.chainBytes_eq (hs : Scratch g d e) {c : Nat} {l : List Nat}
    (hl : Chained g d c l) : chainBytes g e l = chainBytes g d l := by
  refine chainBytes_congr (fun y hy lba hlba => hs.sec lba (clusterSector_not_fat hlba) ?_)
  rintro ⟨z, ⟨hz, hfree⟩, hlz⟩
  have hyd := hl.data_of_mem y hy
  have := clusterSectors_disjoint (isDataCluster_iff.mp hz).1 (isDataCluster_iff.mp hyd).1 hlz hlba
  exact hl.ne_zero y hy (this ▸ hfree)

theorem Scratch.othersKept (hg : g.Valid) (hs : Scratch g d e) (p : Slot) :
    OthersKept g d e dir p :=
  ⟨fun _ _ _ _ hl hq _ => hs.entryAt_eq hl hq,
    fun _ _ _ _ _ hl => ⟨hs.chained hg hl, hs.chainBytes_eq hl⟩,
    fun l hl => ⟨l, hs.chained hg hl, List.prefix_refl l⟩⟩

theorem wp_overwriting (hg : g.Valid) (hfuel : g.getTotalClusters ≤ fuel)
    (hw : WellFormed g m.disk) (hdir : IsDir g m.disk dir) {ldir : List Nat}
    (hd : DirOk g m.disk dir ldir) {p : Slot}
    (hfound : lookup name m.disk (dirSlots g dir ldir) = some p) (bytes : List Byte) :
    (writeFileFromDir g fuel dir name (some (fun k => bytes.getD k 0)) bytes.length).wp
      (Ctx.total (Overwriting g m.disk name p bytes)) (fun _ _ => True) m := by
  have hnf : ¬ (Ctx.total (Overwriting g m.disk name p bytes) : Ctx Buffer Sector).Faulty :=
    Ctx.total_not_faulty _
  refine Prog.wp_mono (wp_writeFileFromDir hg hd hfuel (careful_of_not_faulty hnf m)
    (.inl (fun m' hm' => absurd ⟨m', hm'⟩ hnf))
    (fun _ hn hp => hw.found_chained hg hdir hd.chained hn hp) _ _ (fun e he => .building he) ?_ ?_)
    (fun _ _ _ => trivial)
  · rintro (hnone | hf)
    · rw [hfound] at hnone; cases hnone
    · exact absurd hf hnf
  · intro p' lo l first e₀ name83 e hready hp' hlo hformat hsame ht
    rw [hfound] at hp'
    obtain rfl := Option.some.inj hp'
    obtain ⟨⟨last, hchain⟩, hspells⟩ := hready
    rw [Option.getD_some, Int.toNat_natCast] at hspells
    rw [Int.toNat_natCast] at ht
    exact .switched hchain hspells hformat (hsame.resolve_right hnf) hlo ht

/-- Overwriting a file is atomic: after any prefix of the sector writes, the rest being lost, the
name stands for the complete old or the complete new file, and all others are as before. -/
theorem overwrite_crash_atomic (hg : g.Valid) (hfuel : g.getTotalClusters ≤ fuel)
    (hw : WellFormed g m.disk) (hdir : IsDir g m.disk dir) {ldir lo : List Nat} {p : Slot}
    (hl : Chained g m.disk dir ldir) (hname : name.at 0 ≠ 0)
    (hfound : lookup name m.disk (dirSlots g dir ldir) = some p)
    (hold : Chained g m.disk (entryAt m.disk p).first lo)
    {bytes : List Byte} (hlen : bytes.length < 2 ^ 31) (n : Nat) {m₁ : DriverMem}
    (hcrash : m₁.disk = replay m.disk (((writeFileFromDir g fuel dir name
      (some (fun k => bytes.getD k 0)) bytes.length).writes m).take n)) :
    (StillHolds g fuel m.disk m₁ dir name p lo ∨ ∃ l, HoldsFile g fuel m₁ dir name p l bytes) ∧
      OthersKept g m.disk m₁.disk dir p := by
  have hd : DirOk g m.disk dir ldir := ⟨hl, hw.endMarked dir ldir hdir hl⟩
  have hphase : Overwriting g m.disk name p bytes m₁.disk := by
    rw [hcrash]
    exact Prog.inv_replay_of_wp (c := Ctx.total (Overwriting g m.disk name p bytes))
      (Overwriting.building (Scratch.refl g m.disk))
      (wp_overwriting hg hfuel hw hdir hd hfound bytes) n
  cases hphase with
  | building hs =>
    have hlook : lookup name m₁.disk (dirSlots g dir ldir) = some p := by
      rw [hs.lookup_eq hl, hfound]
    have hloc : locate m₁.disk p = locate m.disk p := by
      unfold locate
      rw [hs.entryAt_eq hl (lookup_mem hfound)]
    refine ⟨.inl ⟨?_, hs.chained hg hold, hs.chainBytes_eq hold⟩, hs.othersKept hg p⟩
    rw [← hloc]
    exact run_findEntry hg hfuel (hs.dirOk hg hd) hname hlook
  | switched hchain hspells hformat hsame hold ht =>
    obtain ⟨hnew, hkept⟩ := overwritten_correct hg hw hdir hfuel hl hname
      (show bytes.length < 2 ^ 32 by omega) hchain hspells hformat hfound hsame hold ht
    exact ⟨.inr ⟨_, hnew⟩, hkept⟩

/-- The blank volume with the file `A` of two bytes. -/
def fileMem : DriverMem :=
  (((writeFileFromDir smallVolume 3 0 [0x41] (some (fun k => [0x68, 0x69].getD k 0)) 2).run noFaults
    blankMem).map Prod.snd).getD blankMem

theorem fileMem_wellFormed : WellFormed smallVolume fileMem.disk := by
  have hwp := Op.wp_wellFormed (m := blankMem) (.writeFileFromDir 0 [0x41]
    (some (fun k => [0x68, 0x69].getD k 0)) 2) smallVolume_valid
    (show smallVolume.getTotalClusters ≤ 3 by decide) (Ctx.total_not_faulty (fun _ => True))
    (fun _ => trivial) (blankDisk_wellFormed smallVolume) ⟨.root, by decide⟩
  obtain ⟨hpost, hterm⟩ := Prog.run_of_wp noFaults (fun _ hf => by cases hf) hwp
  obtain ⟨ok, m', hrun⟩ := hterm not_false
  have : fileMem = m' := by
    unfold fileMem
    have hrun' : (writeFileFromDir smallVolume 3 0 [0x41] (some (fun k => [0x68, 0x69].getD k 0))
      2).run noFaults blankMem = some (ok, m') := hrun
    rw [hrun']
    rfl
  rw [this]
  exact hpost ok m' hrun

theorem fileMem_chain : Chained smallVolume fileMem.disk (entryAt fileMem.disk (3, 0)).first [2] :=
  .inr ⟨by simp, by decide +kernel, by decide +kernel,
    show smallVolume.isEndMark (fatGet smallVolume fileMem.disk 2) from
      show 0x0FF8 ≤ fatGet smallVolume fileMem.disk 2 by decide +kernel⟩

/-- What is left when power is lost after the third sector write of an overwrite of `A`. -/
def crashMem : DriverMem := { fileMem with disk := replay fileMem.disk (((writeFileFromDir smallVolume
  3 0 [0x41] (some (fun k => [0x21].getD k 0)) 1).writes fileMem).take 3) }

theorem overwrite_crash_atomic_third :
    (StillHolds smallVolume 3 fileMem.disk crashMem 0 [0x41] (3, 0) [2] ∨
      ∃ l, HoldsFile smallVolume 3 crashMem 0 [0x41] (3, 0) l [0x21]) ∧
      OthersKept smallVolume fileMem.disk crashMem.disk 0 (3, 0) :=
  overwrite_crash_atomic smallVolume_valid (by decide) fileMem_wellFormed .root (.inl ⟨rfl, rfl⟩)
    (by decide) (by decide +kernel) fileMem_chain (by decide) 3 rfl

end Fat16
end MiniDos
