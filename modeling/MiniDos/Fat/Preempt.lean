import MiniDos.Lib.Interleave
import MiniDos.Fat.Crash

/-!
# MiniDos.Fat.Preempt

A file system command of the shell is stopped between two of its steps and a task's file system
call runs to its end in between. Both work in the same two buffers and nothing locks the volume.

* `FsCall.fillsFirst`: every call fills a buffer before it uses it, so calls that follow each other do
  not meet in the buffers.
* `preempted_call_serial`: a call that leaves the buffers the other one is working in alone, and has
  no conflict on a sector with its first or with its second part, might as well have come before or
  after it.
-/

namespace MiniDos
namespace Fat16

open BlockIO Chain

/-- A buffer is filled before it is used, whatever the buffers hold at the start. -/
def FillsFirst {α : Type} (p : DiskProg α) : Prop := p.Clean (fun _ => False)

theorem FillsFirst.bind {α γ : Type} {p : DiskProg α} {f : α → DiskProg γ} (h : FillsFirst p)
    (hf : ∀ a, FillsFirst (f a)) : FillsFirst (p >>= f) := Prog.Clean.bind h hf

theorem FillsFirst.pure {α : Type} (a : α) : FillsFirst (pure a : DiskProg α) := trivial

theorem FillsFirst.ite {α : Type} {c : Prop} [Decidable c] {p q : DiskProg α} (hp : FillsFirst p)
    (hq : FillsFirst q) : FillsFirst (if c then p else q) := by
  split
  · exact hp
  · exact hq

variable (g : Globals)

/-! ## The table -/

theorem readFatEntry_fillsFirst (c : Nat) : FillsFirst (readFatEntry g c) := by
  unfold FillsFirst readFatEntry
  cases g.fatType with
  | fat12 =>
    simp only [Prog.clean_readSector_bind, if_true]
    split
    · simp
    · simp
  | fat16 => simp

theorem writeFatCopy_fillsFirst (c v fat : Nat) : FillsFirst (writeFatCopy g c v fat) := by
  unfold FillsFirst writeFatCopy
  cases g.fatType with
  | fat12 =>
    simp only [Prog.clean_readSector_bind, if_true]
    split
    · simp
    · simp
  | fat16 => simp

theorem writeFatCopies_fillsFirst (c v : Nat) : ∀ n fat, FillsFirst (writeFatCopies g c v n fat) := by
  intro n
  induction n with
  | zero => exact fun _ => .pure _
  | succ n ih =>
    exact fun fat => (writeFatCopy_fillsFirst g c v fat).bind (fun _ => .ite (ih _) (.pure _))

theorem writeFatEntry_fillsFirst (c v : Nat) : FillsFirst (writeFatEntry g c v) :=
  writeFatCopies_fillsFirst g c v _ _

theorem allocFrom_fillsFirst : ∀ n c, FillsFirst (allocFrom g n c) := by
  intro n
  induction n with
  | zero => exact fun _ => .pure _
  | succ n ih =>
    exact fun c => (readFatEntry_fillsFirst g _).bind (fun _ => .ite
      ((writeFatEntry_fillsFirst g _ _).bind (fun _ => .ite (.pure _) (.pure _))) (ih _))

theorem zeroSectors_fillsFirst (base : Nat) : ∀ n s, FillsFirst (zeroSectors base n s) := by
  intro n
  induction n with
  | zero => exact fun _ => .pure _
  | succ n ih =>
    intro s
    unfold FillsFirst zeroSectors
    simp only [Prog.clean_store_bind, Prog.clean_writeSector_bind, true_or, true_and, if_true]
    exact (ih (s + 1)).mono (fun _ h => h.elim)

theorem freeLoop_fillsFirst : ∀ n c, FillsFirst (freeLoop g n c) := by
  intro n
  induction n with
  | zero => exact fun _ => .pure _
  | succ n ih =>
    exact fun c => .ite ((readFatEntry_fillsFirst g c).bind (fun _ =>
      (writeFatEntry_fillsFirst g c 0).bind (fun _ => .ite (.ite (.pure _) (ih _)) (.pure _))))
      (.pure _)

theorem freeClusterChain_fillsFirst (c : Nat) : FillsFirst (freeClusterChain g c) :=
  .ite (.pure _) (freeLoop_fillsFirst g _ _)

/-! ## Loops over sectors -/

section Loops

variable {γ : Type} {body : Nat → DiskProg (Option γ)} (hb : ∀ lba, FillsFirst (body lba))
include hb

theorem forSectors_fillsFirst (base : Nat) : ∀ n s, FillsFirst (forSectors base body n s) := by
  intro n
  induction n with
  | zero => exact fun _ => .pure _
  | succ n ih =>
    refine fun s => (hb _).bind (fun r => ?_)
    cases r with
    | none => exact ih _
    | some r => exact .pure _

theorem whileDataCluster_fillsFirst : ∀ fuel c, FillsFirst (whileDataCluster g body fuel c) := by
  intro fuel
  induction fuel with
  | zero => exact fun c => .ite trivial (.pure _)
  | succ fuel ih =>
    refine fun c => .ite ((forSectors_fillsFirst hb _ _ _).bind (fun r => ?_)) (.pure _)
    cases r with
    | none => exact (readFatEntry_fillsFirst g _).bind (fun _ => ih _)
    | some r => exact .pure _

theorem forDirSectors_fillsFirst (fuel dir : Nat) : FillsFirst (forDirSectors g fuel dir body) :=
  .ite (forSectors_fillsFirst hb _ _ _) (whileDataCluster_fillsFirst g hb _ _)

end Loops

/-! ## Directories -/

theorem findEntryInternal_fillsFirst (fuel dir : Nat) (name : CStr) :
    FillsFirst (findEntryInternal g fuel dir name) := by
  refine (forDirSectors_fillsFirst g (fun lba => ?_) fuel dir).bind (fun _ => .pure _)
  unfold FillsFirst findBody
  simp only [Prog.clean_readSector_bind, if_true, Prog.clean_load_bind, true_or, true_and]
  intro s
  cases scanSector (findVerdict name) s with
  | more => exact trivial
  | stopped => exact trivial
  | found i => exact trivial

theorem indexSectors_fillsFirst (index base : Nat) :
    ∀ n k current, FillsFirst (indexSectors index base n k current) := by
  intro n
  induction n with
  | zero => exact fun _ _ => .pure _
  | succ n ih =>
    intro k current
    unfold FillsFirst indexSectors
    simp only [Prog.clean_readSector_bind, if_true, Prog.clean_load_bind, true_or, true_and]
    intro s
    split
    · exact trivial
    · exact trivial
    · exact (ih _ _).mono (fun _ h => h.elim)

theorem indexClusters_fillsFirst (index : Nat) :
    ∀ fuel c current, FillsFirst (indexClusters g index fuel c current) := by
  intro fuel
  induction fuel with
  | zero => exact fun c _ => .ite trivial (.pure _)
  | succ fuel ih =>
    refine fun c current => .ite ((indexSectors_fillsFirst index _ _ _ _).bind (fun r => ?_))
      (.pure _)
    cases r with
    | ok r => exact .pure _
    | error current => exact (readFatEntry_fillsFirst g _).bind (fun _ => ih _ _)

theorem getEntryByIndex_fillsFirst (fuel dir index : Nat) :
    FillsFirst (getEntryByIndex g fuel dir index) := by
  unfold getEntryByIndex
  refine .ite ((indexSectors_fillsFirst index _ _ _ _).bind (fun r => ?_))
    ((indexClusters_fillsFirst g index _ _ _).bind (fun _ => .pure _))
  cases r with
  | ok r => exact .pure _
  | error current => exact .pure _

theorem writeDirEntryAt_fillsFirst (sector index : Nat) (e : DirectoryEntry) :
    FillsFirst (writeDirEntryAt sector index e) := by
  unfold FillsFirst writeDirEntryAt
  simp

theorem markDeleted_fillsFirst (sector index : Nat) : FillsFirst (markDeleted sector index) := by
  unfold FillsFirst markDeleted
  simp

theorem findFreeRootEntry_fillsFirst : FillsFirst (findFreeRootEntry g) := by
  refine (forSectors_fillsFirst (fun lba => ?_) _ _ _).bind (fun _ => .pure _)
  unfold FillsFirst findFreeBody
  simp only [Prog.clean_readSector_bind, if_true, Prog.clean_load_bind, true_or, true_and]
  intro s
  cases scanSector freeVerdict s with
  | more => exact trivial
  | stopped => exact trivial
  | found i => exact trivial

theorem initDirEntries_fillsFirst (dir parent : Nat) : FillsFirst (initDirEntries g dir parent) := by
  unfold FillsFirst initDirEntries
  simp

theorem placeBody_fillsFirst (e : DirectoryEntry) (lba : Nat) : FillsFirst (placeBody e lba) := by
  unfold FillsFirst placeBody
  simp only [Prog.clean_readSector_bind, if_true, Prog.clean_load_bind, true_or, true_and]
  intro s
  cases scanSector freeVerdict s with
  | more => exact trivial
  | stopped => exact trivial
  | found i => simp

theorem placeInChain_fillsFirst (e : DirectoryEntry) :
    ∀ fuel c, FillsFirst (placeInChain g e fuel c) := by
  intro fuel
  induction fuel with
  | zero => exact fun c => .ite trivial (.pure _)
  | succ fuel ih =>
    refine fun c => .ite ((forSectors_fillsFirst (placeBody_fillsFirst e) _ _ _).bind (fun r => ?_))
      (.pure _)
    cases r with
    | none => exact (readFatEntry_fillsFirst g _).bind (fun _ => .ite (ih _) (.pure _))
    | some r => exact .pure _

theorem growDir_fillsFirst (last : Nat) (e : DirectoryEntry) : FillsFirst (growDir g last e) := by
  refine (allocFrom_fillsFirst g _ _).bind (fun r => ?_)
  cases r with
  | none => exact .pure _
  | some n =>
    exact (writeFatEntry_fillsFirst g _ _).bind (fun _ => .ite
      ((writeFatEntry_fillsFirst g _ _).bind (fun _ => .ite
        ((zeroSectors_fillsFirst _ _ _).bind (fun _ => .ite (writeDirEntryAt_fillsFirst _ _ _)
          (.pure _))) (.pure _))) (.pure _))

theorem addDirEntry_fillsFirst (fuel dir : Nat) (name : Name) (cluster fileSize : Nat)
    (attributes : UInt8) :
    FillsFirst (addDirEntry g fuel dir name cluster fileSize attributes) := by
  refine .ite ((findFreeRootEntry_fillsFirst g).bind (fun r => ?_))
    ((placeInChain_fillsFirst g _ _ _).bind (fun r => ?_))
  · cases r with
    | none => exact .pure _
    | some p => exact writeDirEntryAt_fillsFirst _ _ _
  · cases r with
    | ok r => exact .pure _
    | error last => exact growDir_fillsFirst g _ _

theorem isDirectoryEmpty_fillsFirst (fuel dir : Nat) : FillsFirst (isDirectoryEmpty g fuel dir) := by
  refine .ite (.pure _) ((whileDataCluster_fillsFirst g (fun lba => ?_) _ _).bind (fun _ => .pure _))
  unfold FillsFirst emptyBody
  simp only [Prog.clean_readSector_bind, if_true, Prog.clean_load_bind, true_or, true_and]
  intro s
  cases scanSector emptyVerdict s with
  | more => exact trivial
  | stopped => exact trivial
  | found i => exact trivial

theorem createEntry_fillsFirst (fuel dir : Nat) (name : CStr) (cluster fileSize : Nat)
    (attributes : UInt8) :
    FillsFirst (createEntry g fuel dir name cluster fileSize attributes) := by
  refine .ite (.pure _) ?_
  cases formatName name with
  | none => exact .pure _
  | some name83 =>
    refine (findEntryInternal_fillsFirst g _ _ _).bind (fun r => ?_)
    cases r with
    | none => exact addDirEntry_fillsFirst g _ _ _ _ _ _
    | some _ => exact .pure _

theorem updateEntry_fillsFirst (fuel dir : Nat) (oldName newName : CStr) (cluster fileSize : Nat)
    (attributes : UInt8) :
    FillsFirst (updateEntry g fuel dir oldName newName cluster fileSize attributes) := by
  refine .ite (.pure _) ?_
  cases formatName newName with
  | none => exact .pure _
  | some name83 =>
    refine (findEntryInternal_fillsFirst g _ _ _).bind (fun r => ?_)
    cases r with
    | none => exact .pure _
    | some current =>
      refine .ite ?_ ((findEntryInternal_fillsFirst g _ _ _).bind (fun r => ?_))
      · simp [FillsFirst]
      · cases r with
        | some _ => exact .pure _
        | none => simp [FillsFirst]

theorem deleteEntry_fillsFirst (fuel dir : Nat) (name : CStr) (freeChain : Bool) :
    FillsFirst (deleteEntry g fuel dir name freeChain) := by
  refine .ite (.pure _) (.ite (.pure _) ((findEntryInternal_fillsFirst g _ _ _).bind (fun r => ?_)))
  cases r with
  | none => exact .pure _
  | some target =>
    exact .ite (.pure _) (.ite ((freeClusterChain_fillsFirst g _).bind (fun _ => .ite
      (markDeleted_fillsFirst _ _) (.pure _))) (markDeleted_fillsFirst _ _))

theorem mkdir_fillsFirst (fuel dir : Nat) (name : CStr) : FillsFirst (mkdir g fuel dir name) := by
  unfold mkdir
  cases formatName name with
  | none => exact .pure _
  | some name83 =>
    have hfind : FillsFirst (findDirCluster g fuel dir name) := by
      refine (findEntryInternal_fillsFirst g _ _ _).bind (fun r => ?_)
      cases r with
      | none => exact .pure _
      | some _ => exact .ite (.pure _) (.pure _)
    refine hfind.bind (fun r => ?_)
    cases r with
    | some _ => exact .pure _
    | none =>
      refine (allocFrom_fillsFirst g _ _).bind (fun r => ?_)
      cases r with
      | none => exact .pure _
      | some n =>
        exact (zeroSectors_fillsFirst _ _ _).bind (fun _ => .ite
          ((initDirEntries_fillsFirst g _ _).bind (fun _ => .ite
            (addDirEntry_fillsFirst g _ _ _ _ _ _) (.pure _))) (.pure _))

theorem rmdir_fillsFirst (fuel dir : Nat) (name : CStr) : FillsFirst (rmdir g fuel dir name) := by
  refine .ite (.pure _) (.ite (.pure _) ((findEntryInternal_fillsFirst g _ _ _).bind (fun r => ?_)))
  cases r with
  | none => exact .pure _
  | some target =>
    exact .ite (.pure _) (.ite (.pure _) ((isDirectoryEmpty_fillsFirst g _ _).bind (fun _ => .ite
      ((freeClusterChain_fillsFirst g _).bind (fun _ => .ite (markDeleted_fillsFirst _ _) (.pure _)))
      (.pure _))))

/-! ### `fat16_delete_matching` -/

/-- The slots are marked in a buffer that has been filled. -/
theorem sweepSlots_clean (pattern : CStr) (freeChain : Bool) :
    ∀ n i deleted, (sweepSlots g pattern freeChain n i deleted).Clean (fun b => b = .main ∨ False) := by
  intro n
  induction n with
  | zero => exact fun _ _ => trivial
  | succ n ih =>
    intro i deleted
    unfold sweepSlots
    simp only [Prog.clean_load_bind, true_or, true_and]
    intro s
    split
    · trivial
    split
    · exact ih _ _
    split
    · exact ih _ _
    split
    · exact ih _ _
    have hmark : ∀ ok : Bool, (if ok = true then do
          let s ← load .main
          store .main (s.setEntry i (deletedEntry (s.entry i)))
          sweepSlots g pattern freeChain n (i + 1) (deleted + 1)
        else pure .failed : DiskProg Sweep).Clean (fun b => b = .main ∨ False) := by
      intro ok
      split
      · simp only [Prog.clean_load_bind, true_or, true_and, Prog.clean_store_bind]
        exact fun _ => (ih _ _).mono (fun _ h => .inr h)
      · trivial
    split
    · have hfree := (freeClusterChain_fillsFirst g (s.entry i).clusterLow.toNat).mono
        (fun b (h : False) => (h.elim : b = Buffer.main ∨ False))
      exact hfree.bind hmark
    · exact hmark true

theorem sweepSectors_fillsFirst (pattern : CStr) (freeChain : Bool) (base : Nat) :
    ∀ n k deleted, FillsFirst (sweepSectors g pattern freeChain base n k deleted) := by
  intro n
  induction n with
  | zero => exact fun _ _ => .pure _
  | succ n ih =>
    intro k deleted
    unfold FillsFirst sweepSectors
    simp only [Prog.clean_readSector_bind, if_true]
    refine Prog.Clean.bind (sweepSlots_clean g pattern freeChain _ _ _) (fun r => ?_)
    cases r with
    | endMark deleted => trivial
    | failed => trivial
    | done deleted =>
      simp only [Prog.clean_writeSector_bind, true_or, true_and, if_true]
      exact (ih _ _).mono (fun _ h => h.elim)

theorem sweepClusters_fillsFirst (pattern : CStr) (freeChain : Bool) :
    ∀ fuel c deleted, FillsFirst (sweepClusters g pattern freeChain fuel c deleted) := by
  intro fuel
  induction fuel with
  | zero => exact fun c _ => .ite trivial (.pure _)
  | succ fuel ih =>
    refine fun c deleted => .ite ((sweepSectors_fillsFirst g pattern freeChain _ _ _ _).bind
      (fun r => ?_)) (.pure _)
    cases r with
    | ok r => exact .pure _
    | error deleted => exact (readFatEntry_fillsFirst g _).bind (fun _ => ih _ _)

theorem deleteMatching_fillsFirst (fuel dir : Nat) (pattern : CStr) (freeChain : Bool) :
    FillsFirst (deleteMatching g fuel dir pattern freeChain) := by
  refine .ite (.pure _) (.ite ((sweepSectors_fillsFirst g pattern freeChain _ _ _ _).bind
    (fun r => ?_)) (sweepClusters_fillsFirst g pattern freeChain _ _ _))
  cases r with
  | ok r => exact .pure _
  | error deleted => exact .pure _

/-! ## Files -/

theorem writeSectors_fillsFirst (data : Nat → Byte) (base : Nat) :
    ∀ n s offset remaining, FillsFirst (writeSectors data base n s offset remaining) := by
  intro n
  induction n with
  | zero => exact fun _ _ _ => .pure _
  | succ n ih =>
    intro s offset remaining
    unfold FillsFirst writeSectors
    simp only [Prog.clean_store_bind, Prog.clean_writeSector_bind, true_or, true_and, if_true]
    exact (ih _ _ _).mono (fun _ h => h.elim)

theorem linkCluster_fillsFirst (prev next : Nat) : FillsFirst (linkCluster g prev next) :=
  (writeFatEntry_fillsFirst g _ _).bind (fun _ => .ite (writeFatEntry_fillsFirst g _ _) (.pure _))

theorem rollback_fillsFirst (first : Nat) : FillsFirst (rollback g first) :=
  .ite ((freeClusterChain_fillsFirst g _).bind (fun _ => .pure _)) (.pure _)

theorem writeLoop_fillsFirst (data : Nat → Byte) : ∀ n st, FillsFirst (writeLoop g data n st) := by
  intro n
  induction n with
  | zero => exact fun _ => .pure _
  | succ n ih =>
    intro st
    unfold writeLoop
    refine .ite (.pure _) ((allocFrom_fillsFirst g _ _).bind (fun r => ?_))
    cases r with
    | none => exact (rollback_fillsFirst g _).bind (fun _ => .pure _)
    | some cluster =>
      refine .ite ?_ ?_
      · refine (linkCluster_fillsFirst g _ _).bind (fun ok => .ite ?_
          ((freeClusterChain_fillsFirst g _).bind (fun _ => .pure _)))
        refine (writeSectors_fillsFirst data _ _ _ _ _).bind (fun r => ?_)
        cases r with
        | none => exact (freeClusterChain_fillsFirst g _).bind (fun _ => .pure _)
        | some r => exact ih _
      · refine (writeSectors_fillsFirst data _ _ _ _ _).bind (fun r => ?_)
        cases r with
        | none => exact (freeClusterChain_fillsFirst g _).bind (fun _ => .pure _)
        | some r => exact ih _

theorem writeFileFromDir_fillsFirst (fuel dir : Nat) (name : CStr)
    (buffer : Option (Nat → Byte)) (size : Int) :
    FillsFirst (writeFileFromDir g fuel dir name buffer size) := by
  refine .ite (.pure _) (.ite (.pure _) (.ite (.pure _)
    ((findEntryInternal_fillsFirst g _ _ _).bind (fun existing => .ite (.pure _)
      ((writeLoop_fillsFirst g _ _ _).bind (fun r => ?_))))))
  cases r with
  | none => exact .pure _
  | some st =>
    have hcommit : ∀ size, FillsFirst (commitEntry g fuel dir name existing st.newFirst size) := by
      intro size
      cases existing with
      | some found => exact updateEntry_fillsFirst g _ _ _ _ _ _ _
      | none => exact createEntry_fillsFirst g _ _ _ _ _ _
    exact .ite ((rollback_fillsFirst g _).bind (fun _ => .pure _))
      ((hcommit _).bind (fun _ => .ite (.ite (freeClusterChain_fillsFirst g _) (.pure _))
        ((rollback_fillsFirst g _).bind (fun _ => .pure _))))

omit g in
theorem copyBytes_clean {L : Buffer → Prop} (hL : L .main) (take : Nat) (out : List Byte) :
    (copyBytes take out).Clean L := by
  unfold copyBytes
  split
  · trivial
  · exact ⟨hL, fun _ => trivial⟩

theorem readSectors_fillsFirst (base maxSize : Nat) :
    ∀ n s out fileSize, FillsFirst (readSectors base maxSize n s out fileSize) := by
  intro n
  induction n with
  | zero => exact fun _ _ _ => .pure _
  | succ n ih =>
    intro s out fileSize
    unfold readSectors
    refine .ite ?_ (.pure _)
    unfold FillsFirst
    simp only [Prog.clean_readSector_bind]
    exact (copyBytes_clean (.inl rfl) _ _).bind (fun _ => (ih _ _ _).mono (fun _ h => h.elim))

theorem readClusters_fillsFirst (maxSize : Nat) :
    ∀ fuel c out fileSize, FillsFirst (readClusters g maxSize fuel c out fileSize) := by
  intro fuel
  induction fuel with
  | zero => exact fun _ _ _ => .ite trivial (.pure _)
  | succ fuel ih =>
    exact fun _ _ _ => .ite ((readSectors_fillsFirst _ _ _ _ _ _).bind (fun _ =>
      (readFatEntry_fillsFirst g _).bind (fun _ => ih _ _ _))) (.pure _)

theorem readFileFromDir_fillsFirst (fuel dir : Nat) (name : CStr) (maxSize : Nat) :
    FillsFirst (readFileFromDir g fuel dir name maxSize) := by
  refine (forDirSectors_fillsFirst g (fun lba => ?_) fuel dir).bind (fun _ => .pure _)
  unfold FillsFirst readBody
  simp only [Prog.clean_readSector_bind, Prog.clean_load_bind, true_or, true_and]
  intro s
  cases scanSector (readVerdict name) s with
  | more => exact trivial
  | stopped => exact trivial
  | found i =>
    exact ((readClusters_fillsFirst g maxSize _ _ _ _).bind (fun _ => .pure _)).mono
      (fun _ h => h.elim)

theorem copySectors_fillsFirst (src dst : Nat) :
    ∀ n s remaining, FillsFirst (copySectors src dst n s remaining) := by
  intro n
  induction n with
  | zero => exact fun _ _ => .pure _
  | succ n ih =>
    intro s remaining
    unfold copySectors
    refine .ite ?_ (.pure _)
    unfold FillsFirst
    simp only [Prog.clean_readSector_bind, if_true, Prog.clean_writeSector_bind, true_or, true_and]
    exact (ih _ _).mono (fun _ h => h.elim)

theorem copyLoop_fillsFirst (dstFirst : Nat) :
    ∀ n src dst remaining, FillsFirst (copyLoop g dstFirst n src dst remaining) := by
  intro n
  induction n with
  | zero => exact fun _ _ _ => .pure _
  | succ n ih =>
    intro src dst remaining
    unfold copyLoop
    refine .ite (.pure _) ((copySectors_fillsFirst _ _ _ _ _).bind (fun r => ?_))
    cases r with
    | none => exact (rollback_fillsFirst g _).bind (fun _ => .pure _)
    | some remaining =>
      refine .ite ((readFatEntry_fillsFirst g _).bind (fun _ => .ite
        ((allocFrom_fillsFirst g _ _).bind (fun r => ?_))
        ((rollback_fillsFirst g _).bind (fun _ => .pure _)))) (ih _ _ _)
      cases r with
      | none => exact (rollback_fillsFirst g _).bind (fun _ => .pure _)
      | some nextDst =>
        exact (linkCluster_fillsFirst g _ _).bind (fun _ => .ite (ih _ _ _)
          ((freeClusterChain_fillsFirst g _).bind (fun _ =>
            (rollback_fillsFirst g _).bind (fun _ => .pure _))))

theorem copyContents_fillsFirst (fuel : Nat) (e : DirectoryEntry) (dstDir : Nat) (dstName : CStr)
    (dstFirst : Nat) : FillsFirst (copyContents g fuel e dstDir dstName dstFirst) := by
  refine (copyLoop_fillsFirst g _ _ _ _ _).bind (fun r => ?_)
  cases r with
  | none => exact .pure _
  | some remaining =>
    exact .ite ((rollback_fillsFirst g _).bind (fun _ => .pure _))
      ((createEntry_fillsFirst g _ _ _ _ _ _).bind (fun _ => .ite (.pure _)
        ((rollback_fillsFirst g _).bind (fun _ => .pure _))))

theorem copyFileBetweenDirs_fillsFirst (fuel srcDir : Nat) (srcName : CStr) (dstDir : Nat)
    (dstName : CStr) :
    FillsFirst (copyFileBetweenDirs g fuel srcDir srcName dstDir dstName) := by
  refine .ite (.pure _) ?_
  cases formatName srcName with
  | none => exact .pure _
  | some src83 =>
    cases formatName dstName with
    | none => exact .pure _
    | some dst83 =>
      refine .ite (.pure _) ((findEntryInternal_fillsFirst g _ _ _).bind (fun r => ?_))
      cases r with
      | none => exact .pure _
      | some src =>
        refine .ite (.pure _) ((findEntryInternal_fillsFirst g _ _ _).bind (fun r => ?_))
        cases r with
        | some _ => exact .pure _
        | none =>
          refine .ite (.ite (.pure _) ((allocFrom_fillsFirst g _ _).bind (fun r => ?_)))
            (copyContents_fillsFirst g _ _ _ _ _)
          cases r with
          | none => exact .pure _
          | some dstFirst => exact copyContents_fillsFirst g _ _ _ _ _

/-! ## The calls -/

/-- A call of the driver by the shell or for a task. -/
inductive FsCall where
  | change (op : Op)
  | deleteMatching (dir : Nat) (pattern : CStr)
  | readFile (dir : Nat) (name : CStr) (maxSize : Nat)
  | findEntry (dir : Nat) (name : CStr)
  | getEntry (dir index : Nat)

/-- What a call returns. -/
inductive Reply where
  | done (ok : Bool)
  | deleted (ok : Bool) (count : Nat)
  | bytes (content : List Byte)
  | entry (found : Option Located)
  | listed (found : Option (CStr × Bool × Nat))

def FsCall.prog (fuel : Nat) : FsCall → DiskProg Reply
  | .change op => do
    let ok ← op.prog g fuel
    pure (.done ok)
  | .deleteMatching dir pattern => do
    let r ← Fat16.deleteMatching g fuel dir pattern true
    pure (.deleted r.1 r.2)
  | .readFile dir name maxSize => do
    let content ← readFileFromDir g fuel dir name maxSize
    pure (.bytes content)
  | .findEntry dir name => do
    let found ← Fat16.findEntry g fuel dir name
    pure (.entry found)
  | .getEntry dir index => do
    let found ← getEntryByIndex g fuel dir index
    pure (.listed found)

theorem Op.fillsFirst (fuel : Nat) (op : Op) : FillsFirst (op.prog g fuel) := by
  cases op with
  | writeFileFromDir dir name buffer size => exact writeFileFromDir_fillsFirst g _ _ _ _ _
  | deleteEntry dir name => exact deleteEntry_fillsFirst g _ _ _ _
  | copyFileBetweenDirs srcDir srcName dstDir dstName =>
    exact copyFileBetweenDirs_fillsFirst g _ _ _ _ _
  | mkdir dir name => exact mkdir_fillsFirst g _ _ _
  | rmdir dir name => exact rmdir_fillsFirst g _ _ _
  | updateEntry dir oldName newName firstCluster fileSize attributes =>
    exact updateEntry_fillsFirst g _ _ _ _ _ _ _

theorem FsCall.fillsFirst (fuel : Nat) (call : FsCall) : FillsFirst (call.prog g fuel) := by
  cases call with
  | change op => exact (op.fillsFirst g fuel).bind (fun _ => .pure _)
  | deleteMatching dir pattern =>
    exact (deleteMatching_fillsFirst g _ _ _ _).bind (fun _ => .pure _)
  | readFile dir name maxSize => exact (readFileFromDir_fillsFirst g _ _ _ _).bind (fun _ => .pure _)
  | findEntry dir name =>
    exact FillsFirst.bind (.ite (.pure _) (findEntryInternal_fillsFirst g _ _ _)) (fun _ => .pure _)
  | getEntry dir index => exact (getEntryByIndex_fillsFirst g _ _ _).bind (fun _ => .pure _)

variable {g} {m m₂ : DriverMem} {fuel n : Nat} {r : Reply}

/-- A task's call that disturbs the shell's neither in the buffers nor on a sector comes out as if
it had been made before or after it. -/
theorem preempted_call_serial (shell app : FsCall)
    (h : Undisturbed n (shell.prog g fuel) (app.prog g fuel) m r m₂) :
    interleave n (shell.prog g fuel) (app.prog g fuel) m =
        serial (shell.prog g fuel) (app.prog g fuel) m ∨
      interleave n (shell.prog g fuel) (app.prog g fuel) m =
        (serial (app.prog g fuel) (shell.prog g fuel) m).map (fun x => (x.2.1, x.1, x.2.2)) :=
  interleave_eq_serial (shell.fillsFirst g fuel) (app.fillsFirst g fuel) h

/-- Writing one byte `c` to the file of that name in the root directory. -/
def writeByte (c : Byte) : FsCall := .change (.writeFileFromDir 0 [c] (some (fun _ => c)) 1)

/-- The first clusters of the first two entries of the root directory of `smallVolume`. -/
def firstClusters (r : Reply × Reply × Disk) : UInt16 × UInt16 :=
  ((entryAt r.2.2 (3, 0)).clusterLow, (entryAt r.2.2 (3, 1)).clusterLow)

/-- Stopped after it found cluster 2 free and before it marked it, the shell's write shares that
cluster with the task's. -/
theorem preempted_writes_share_cluster : WellFormed smallVolume blankMem.disk ∧
    interleave 5 ((writeByte 0x42).prog smallVolume 3) ((writeByte 0x41).prog smallVolume 3)
        blankMem ≠
      serial ((writeByte 0x42).prog smallVolume 3) ((writeByte 0x41).prog smallVolume 3) blankMem ∧
    interleave 5 ((writeByte 0x42).prog smallVolume 3) ((writeByte 0x41).prog smallVolume 3)
        blankMem ≠
      (serial ((writeByte 0x41).prog smallVolume 3) ((writeByte 0x42).prog smallVolume 3)
        blankMem).map (fun x => (x.2.1, x.1, x.2.2)) := by
  have hmixed : (interleave 5 ((writeByte 0x42).prog smallVolume 3)
      ((writeByte 0x41).prog smallVolume 3) blankMem).map firstClusters = some (2, 2) := by
    decide +kernel
  refine ⟨blankDisk_wellFormed smallVolume, fun he => ?_, fun he => ?_⟩
  · rw [he] at hmixed
    exact absurd hmixed (by decide +kernel)
  · rw [he] at hmixed
    exact absurd hmixed (by decide +kernel)

end Fat16
end MiniDos
