import MiniDos.Fat.OpPreserve

/-!
# MiniDos.Fat.Session

Runs of the driver: finite sequences of calls on one fault-free volume.

* `Op.wp_wellFormed`: one call without faults leaves a well-formed volume.
* `session_wellFormed`: every state of a run is well-formed and every further call comes back.
-/

namespace MiniDos
namespace Fat16

open BlockIO Chain

/-- A call of the driver that changes the volume. -/
inductive Op where
  | writeFileFromDir (dir : Nat) (name : CStr) (buffer : Option (Nat → Byte)) (size : Int)
  | deleteEntry (dir : Nat) (name : CStr)
  | copyFileBetweenDirs (srcDir : Nat) (srcName : CStr) (dstDir : Nat) (dstName : CStr)
  | mkdir (dir : Nat) (name : CStr)
  | rmdir (dir : Nat) (name : CStr)
  | updateEntry (dir : Nat) (oldName newName : CStr) (firstCluster fileSize : Nat)
      (attributes : UInt8)

def Op.prog (g : Globals) (fuel : Nat) : Op → DiskProg Bool
  | .writeFileFromDir dir name buffer size => Fat16.writeFileFromDir g fuel dir name buffer size
  | .deleteEntry dir name => Fat16.deleteEntry g fuel dir name true
  | .copyFileBetweenDirs srcDir srcName dstDir dstName =>
    Fat16.copyFileBetweenDirs g fuel srcDir srcName dstDir dstName
  | .mkdir dir name => Fat16.mkdir g fuel dir name
  | .rmdir dir name => Fat16.rmdir g fuel dir name
  | .updateEntry dir oldName newName firstCluster fileSize attributes =>
    Fat16.updateEntry g fuel dir oldName newName firstCluster fileSize attributes

/-- The update gives the entry found under the old name, not `.` or `..`, its own cluster, size
and attributes: it is a renaming. -/
def IsRename (g : Globals) (d : Disk) (dir : Nat) (oldName : CStr) (firstCluster fileSize : Nat)
    (attributes : UInt8) : Prop :=
  ∀ l p, Chained g d dir l → lookup oldName d (dirSlots g dir l) = some p →
    (entryAt d p).isDot = false ∧ firstCluster = (entryAt d p).clusterLow.toNat ∧
    fileSize = (entryAt d p).fileSize.toNat ∧ attributes = (entryAt d p).attributes

/-- The calls of a session: on directories of the volume, with ASCII names. -/
def Op.Allowed (g : Globals) (d : Disk) : Op → Prop
  | .writeFileFromDir dir name _ _ => IsDir g d dir ∧ name.Ascii
  | .deleteEntry dir name => IsDir g d dir ∧ name.Ascii
  | .copyFileBetweenDirs srcDir srcName dstDir dstName =>
    IsDir g d srcDir ∧ IsDir g d dstDir ∧ srcName.Ascii ∧ dstName.Ascii
  | .mkdir dir name => IsDir g d dir ∧ name.Ascii
  | .rmdir dir name => IsDir g d dir ∧ name.Ascii
  | .updateEntry dir oldName newName firstCluster fileSize attributes =>
    IsDir g d dir ∧ oldName.Ascii ∧ newName.Ascii ∧
      IsRename g d dir oldName firstCluster fileSize attributes

/-- The states a driver can reach from `m₀` by calls that meet `P`, with no access failing. -/
inductive Session (g : Globals) (fuel : Nat) (P : Disk → Op → Prop) (m₀ : DriverMem) :
    DriverMem → Prop where
  | start : Session g fuel P m₀ m₀
  | call {m m' : DriverMem} {op : Op} {ok : Bool} (h : Session g fuel P m₀ m)
      (hop : P m.disk op) (hrun : (op.prog g fuel).run noFaults m = some (ok, m')) :
      Session g fuel P m₀ m'

/-! ## One call -/

variable {ctx : Ctx Buffer Sector} {g : Globals} {m : DriverMem} {dir fuel : Nat}

namespace WellFormed

theorem dirOk (h : WellFormed g m.disk) (hdir : IsDir g m.disk dir) :
    ∃ ldir, DirOk g m.disk dir ldir := by
  obtain ⟨l, hl⟩ := h.dir_chained hdir
  exact ⟨l, hl, h.endMarked dir l hdir hl⟩

theorem found_chained (hg : g.Valid) (h : WellFormed g m.disk) (hdir : IsDir g m.disk dir)
    {ldir : List Nat} (hl : Chained g m.disk dir ldir) {name : CStr}
    (hname : isDotName name = false) {p : Slot}
    (hp : lookup name m.disk (dirSlots g dir ldir) = some p) :
    ∃ lo, Chained g m.disk (entryAt m.disk p).clusterLow.toNat lo :=
  ⟨_, (h.inventory hg).chain p (held_of_lookup hg hdir hl hname hp)⟩

theorem wp_write (hg : g.Valid) (h : WellFormed g m.disk) (hfuel : g.getTotalClusters ≤ fuel)
    (hnf : ¬ ctx.Faulty) (hinv : ∀ e, ctx.inv e) (hdir : IsDir g m.disk dir) {ldir : List Nat}
    (hd : DirOk g m.disk dir ldir) (name : CStr) (buffer : Option (Nat → Byte)) (size : Int) :
    (writeFileFromDir g fuel dir name buffer size).wp ctx
      (WriteEnd ctx g m.disk dir ldir name (buffer.getD (fun _ => 0)) size.toNat) m :=
  wp_writeFileFromDir hg hd hfuel (careful_of_not_faulty hnf m)
    (.inl (fun m' hm' => absurd ⟨m', hm'⟩ hnf))
    (fun _ hn hp => h.found_chained hg hdir hd.chained hn hp) buffer size
    (fun e _ => hinv e) (fun _ => hinv) (fun _ _ _ _ _ _ e _ _ _ _ _ _ => hinv e)

end WellFormed

/-- Without faults, every call leaves a well-formed volume. -/
theorem Op.wp_wellFormed (op : Op) (hg : g.Valid) (hfuel : g.getTotalClusters ≤ fuel)
    (hnf : ¬ ctx.Faulty) (hinv : ∀ e, ctx.inv e) (hw : WellFormed g m.disk)
    (hop : op.Allowed g m.disk) :
    (op.prog g fuel).wp ctx (fun _ m' => WellFormed g m'.disk) m := by
  have hcare := careful_of_not_faulty (g := g) hnf m
  have hroom : ∀ dir, Roomy ctx g m dir := fun _ => .inl (fun m' hm' => absurd ⟨m', hm'⟩ hnf)
  have hstuck : ∀ m' : DriverMem, ctx.Failed m' → m'.disk = m.disk :=
    fun m' hf => absurd hf.faulty hnf
  cases op with
  | writeFileFromDir dir name buffer size =>
    obtain ⟨ldir, hd⟩ := hw.dirOk hop.1
    refine Prog.wp_mono (hw.wp_write hg hfuel hnf hinv hop.1 hd name buffer size) ?_
    exact fun _ m' h => h.wellFormed hg hw hop.1 hd.chained
  | deleteEntry dir name =>
    obtain ⟨ldir, hd⟩ := hw.dirOk hop.1
    refine Prog.wp_mono (wp_deleteEntry hg hd hfuel hinv ?_) ?_
    · exact fun p hn hp => hw.found_chained hg hop.1 hd.chained hn hp
    · exact fun _ m' h => h.wellFormed hg hw hop.1 hd.chained (hstuck m')
  | copyFileBetweenDirs srcDir srcName dstDir dstName =>
    obtain ⟨lsrc, hsrc⟩ := hw.dirOk hop.1
    obtain ⟨ldst, hdst⟩ := hw.dirOk hop.2.1
    refine Prog.wp_mono (wp_copyFileBetweenDirs hg hsrc hdst hfuel hcare (hroom _) hinv) ?_
    exact fun _ m' h => h.wellFormed hg hw hop.2.1 hdst.chained
  | mkdir dir name =>
    obtain ⟨ldir, hd⟩ := hw.dirOk hop.1
    refine Prog.wp_mono (wp_mkdir hg hd hfuel hinv (hroom _)) ?_
    exact fun _ m' h => h.wellFormed hg hw hop.1 hd.chained
  | rmdir dir name =>
    obtain ⟨ldir, hd⟩ := hw.dirOk hop.1
    refine Prog.wp_mono (wp_rmdir hg hd hfuel hinv ?_) ?_
    · exact fun p hn hp => hw.found_chained hg hop.1 hd.chained hn hp
    · exact fun _ m' h => h.wellFormed hg hw hop.1 hd.chained (hstuck m')
  | updateEntry dir oldName newName firstCluster fileSize attributes =>
    obtain ⟨hdir, _, hnew, hren⟩ := hop
    obtain ⟨ldir, hd⟩ := hw.dirOk hdir
    refine Prog.wp_mono (wp_updateEntry hg hd hfuel (fun _ _ _ _ _ => hinv _)) ?_
    rintro ok m' (⟨rfl, hdisk⟩ | ⟨rfl, p, name83, hu⟩)
    · rw [hdisk]; exact hw
    · obtain ⟨hdot, rfl, rfl, rfl⟩ := hren ldir p hd.chained hu.found
      exact hu.wellFormed hg hw hdir hd.chained hnew hdot

/-! ## Whole runs -/

/-- From a well-formed volume every call of a session comes back, whether it succeeds or fails,
and leaves a well-formed volume. -/
theorem session_wellFormed (hg : g.Valid) (hfuel : g.getTotalClusters ≤ fuel) {m₀ : DriverMem}
    (hw : WellFormed g m₀.disk) (h : Session g fuel (Op.Allowed g) m₀ m) :
    WellFormed g m.disk ∧ ∀ op : Op, op.Allowed g m.disk → ∃ ok m',
      (op.prog g fuel).run noFaults m = some (ok, m') ∧ WellFormed g m'.disk := by
  have hstep : ∀ m : DriverMem, WellFormed g m.disk → ∀ op : Op, op.Allowed g m.disk →
      (op.prog g fuel).wp (Ctx.total (fun _ => True)) (fun _ m' => WellFormed g m'.disk) m :=
    fun m hw op hop => op.wp_wellFormed hg hfuel (Ctx.total_not_faulty _) (fun _ => trivial) hw hop
  have hkeep : WellFormed g m.disk := by
    induction h with
    | start => exact hw
    | @call m m' op ok _ hop hrun ih =>
      exact (Prog.run_of_wp noFaults (fun _ hf => by cases hf) (hstep m ih op hop)).1 ok m' hrun
  refine ⟨hkeep, fun op hop => ?_⟩
  obtain ⟨hpost, hterm⟩ := Prog.run_of_wp noFaults (fun _ hf => by cases hf)
    (hstep m hkeep op hop)
  obtain ⟨ok, m', hrun⟩ := hterm not_false
  exact ⟨ok, m', hrun, hpost ok m' hrun⟩

/-- `mkdir A` on a blank volume. -/
theorem session_wellFormed_mkdir : smallVolume.Valid ∧ WellFormed smallVolume blankDisk ∧
    ∃ ok m', (mkdir smallVolume 3 0 [0x41]).run noFaults blankMem = some (ok, m') ∧
      WellFormed smallVolume m'.disk :=
  ⟨smallVolume_valid, blankDisk_wellFormed smallVolume,
    (session_wellFormed smallVolume_valid (by decide) (blankDisk_wellFormed smallVolume) .start).2
      (.mkdir 0 [0x41]) ⟨.root, by decide⟩⟩

end Fat16
end MiniDos
