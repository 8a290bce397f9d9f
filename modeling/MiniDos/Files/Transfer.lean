import MiniDos.Fat.Deliver
import MiniDos.Fat.Grammar
import MiniDos.Files.DirRuns
import MiniDos.Files.Serving

/-!
# MiniDos.Files.Transfer

The calls that copy a file to another directory and may remove the source: COPY_TO_DIR, MOVE_TO_DIR
and CLIP_PASTE. No access fails.

* `Serving.copyTo`, `Serving.cutFrom`: the two calls of the driver they are made of.
* `moveToDir_spec`: what MOVE_TO_DIR leaves.
* `copy_and_move_iff`: when a copy and a move keep their promise.
-/

namespace MiniDos
namespace Files

open BlockIO Fat16 Drive Transition

variable {v fuel : Nat} {g : Globals} {k k' : Kernel} {t : Task} {args : Args} {α σ : Type}

/-! ## The names of calls -/

theorem readString_ne_zero {mem : Nat → Byte} {limit : Nat} : ∀ {n addr : Nat} {s : CStr},
    readString mem limit n addr = some s → ∀ c ∈ s, c ≠ 0 := by
  intro n
  induction n with
  | zero =>
    intro addr s h
    cases h
  | succ n ih =>
    intro addr s h c hc
    unfold readString at h
    split at h
    · cases h
    split at h
    · cases h
      cases hc
    rename_i hbyte
    obtain ⟨rest, hrest, rfl⟩ := Option.map_eq_some_iff.mp h
    rcases List.mem_cons.mp hc with rfl | hc
    · exact hbyte
    · exact ih hrest c hc

theorem capital_strToUpper {s : CStr} (h : ∀ c ∈ s, c ≠ 0) : (strToUpper s).Capital := by
  intro c hc
  obtain ⟨b, hb, rfl⟩ := List.mem_map.mp hc
  exact ⟨upperChar_ne_zero (h b hb), upperChar_upperChar b⟩

theorem copyUserUpper_capital {mem : Nat → Byte} {input : UInt32} {name : CStr}
    (h : copyUserUpper t mem input = some name) : name.Capital := by
  obtain ⟨s, hs, rfl⟩ := Option.map_eq_some_iff.mp h
  refine capital_strToUpper (fun c hc => ?_)
  unfold copyUserString at hs
  split at hs
  · cases hs
  split at hs
  · cases hs
  split at hs
  · cases hs
  · exact readString_ne_zero hs c hc

/-! ## The two calls of the driver -/

section Rules

variable (hg : g.Valid) (hres : 0 < g.bpb.reservedSectors) (hfuel : g.getTotalClusters ≤ fuel)
  (h : Serving v g k) {srcDir dstDir : Nat} {name : CStr} {s : σ}
  (hsrc : IsDir g (k.disks v) srcDir) (hdst : IsDir g (k.disks v) dstDir)
include hg hres hfuel h hsrc hdst

theorem Serving.copyTo (hup : name.Capital) {Q : Bool → Kernel × σ → Prop}
    (hno : ∀ k', Elsewhere v k k' → Serving v g k' → Scratch g (k.disks v) (k'.disks v) → Q false (k', s))
    (hyes : ∀ k' q p ls l bytes, Elsewhere v k k' → Serving v g k' →
      Twice g fuel (k.volume v) (k'.volume v) srcDir name dstDir q p ls l bytes → Q true (k', s)) :
    (Files.fat noFaults (fun g => copyFileBetweenDirs g fuel srcDir name dstDir name)).wp Q (k, s) := by
  refine h.fat_evolved (fun m hm => wp_copy_evolved hg hres hfuel
    Ctx.quiet_not_faulty (fun _ => trivial) (hm ▸ h.wellFormed) (hm ▸ h.dotted) (hm ▸ hsrc)
    (hm ▸ hdst)) (fun ok k' hrun hk helse _ => ?_)
  cases ok with
  | false =>
    have hback := (Prog.run_of_wp noFaults (fun _ hf => by cases hf)
      (wp_copyFileBetweenDirs_false hg srcDir name dstDir name)).1 false _ hrun
    obtain ⟨l, hl, ht, _⟩ := (hback rfl).ex
    exact hno k' helse hk (.of_list hl ht)
  | true =>
    obtain ⟨q, p, ls, l, bytes, htwice⟩ := copyFile_twice (m := k.volume v) hg hfuel h.wellFormed hsrc
      hdst hres h.dotted hup hrun
    exact hyes k' q p ls l bytes helse hk htwice

theorem Serving.cutFrom {k₁ : Kernel} (h₁ : Serving v g k₁) {q p : Slot} {lsrc ls l : List Nat}
    {bytes : List Byte} (hlsrc : Chained g (k.disks v) srcDir lsrc)
    (htwice : Twice g fuel (k.volume v) (k₁.volume v) srcDir name dstDir q p ls l bytes)
    {Q : Bool → Kernel × σ → Prop} (hQ : ∀ k', Elsewhere v k₁ k' → Serving v g k' →
      Delivered g fuel (k.volume v) (k'.volume v) srcDir name dstDir true q p ls l bytes →
      ((∃ m, (Fat16.findEntry g fuel srcDir name).run noFaults (k'.volume v) = some (none, m)) ↔
        Single name (k.disks v) (dirSlots g srcDir lsrc)) → Q true (k', s)) :
    (Files.fat noFaults (fun g => Fat16.deleteEntry g fuel srcDir name true)).wp Q (k₁, s) := by
  have hsrc₁ : IsDir g (k₁.disks v) srcDir := (htwice.evolved.dirs srcDir hsrc).resolve_left not_false
  refine h₁.fat_evolved (fun m hm => wp_delete_evolved hg hres hfuel
    Ctx.quiet_not_faulty (fun _ => trivial) (hm ▸ h₁.wellFormed) (hm ▸ h₁.dotted) (hm ▸ hsrc₁))
    (fun ok k' hrun hk helse hev => ?_)
  obtain ⟨rfl, hdone, hfound⟩ := htwice.cut (m := k.volume v) hg hfuel h.wellFormed hsrc hdst hlsrc rfl
    hrun hev
  exact hQ k' helse hk hdone hfound

end Rules

/-! ## MOVE_TO_DIR -/

/-- The file of directory `dir` is in the directory that `dirName` names, with the bytes it had, and
its entry in `dir` is gone. -/
def CarriedOff (v : Nat) (g : Globals) (fuel : Nat) (k k' : Kernel) (dir : Nat) (name dirName : CStr) :
    Prop :=
  ∃ dst m, (Fat16.findDirCluster g fuel dir dirName).run noFaults (k.volume v) = some (some dst, m) ∧
    ∃ q p ls l bytes, Delivered g fuel (k.volume v) (k'.volume v) dir name dst true q p ls l bytes

/-- It is not found in `dir` any more. -/
def NotFound (v : Nat) (g : Globals) (fuel : Nat) (k : Kernel) (dir : Nat) (name : CStr) : Prop :=
  ∃ m, (Fat16.findEntry g fuel dir name).run noFaults (k.volume v) = some (none, m)

/-- No two entries of the directory answer to the name. -/
def NoDouble (g : Globals) (d : Disk) (dir : Nat) (name : CStr) : Prop :=
  ∀ l, Chained g d dir l → Single name d (dirSlots g dir l)

/-- Every file of directory `dir` is found as before. -/
def StillThere (v : Nat) (g : Globals) (fuel : Nat) (k k' : Kernel) (dir : Nat) : Prop :=
  ∀ name q l bytes, HoldsFile g fuel (k.volume v) dir name q l bytes →
    HoldsFile g fuel (k'.volume v) dir name q l bytes

inductive MoveEnd (v : Nat) (g : Globals) (fuel : Nat) (k : Kernel) (dir : Nat) (k' : Kernel) :
    Option CStr → Option CStr → Int → Prop where
  | refused {nameA nameB : Option CStr} (hthere : StillThere v g fuel k k' dir) :
      MoveEnd v g fuel k dir k' nameA nameB 0
  | moved {nameA nameB : CStr} (hoff : CarriedOff v g fuel k k' dir nameA nameB)
      (hfound : NotFound v g fuel k' dir nameA ↔ NoDouble g (k.disks v) dir nameA) :
      MoveEnd v g fuel k dir k' (some nameA) (some nameB) 1

theorem Hosts.stillThere (h : Hosts v g k) (hg : g.Valid) (hfuel : g.getTotalClusters ≤ fuel) {dir : Nat}
    (hdir : IsDir g (k.disks v) dir) (hs : Scratch g (k.disks v) (k'.disks v)) :
    StillThere v g fuel k k' dir := by
  intro name q l bytes hfile
  obtain ⟨ldir, hd⟩ := WellFormed.dirOk (m := k.volume v) h.wellFormed hdir
  have hfree : Scratch g (k.volume v).disk (k'.volume v).disk := hs
  exact HoldsFile.scratch hg hfuel hd hfree hfile

section Move

variable (hg : g.Valid) (hres : 0 < g.bpb.reservedSectors) (hfuel : g.getTotalClusters ≤ fuel)
  (h : Hosts v g k) (hdrive : t.drive = v) (hmounted : t.fat16Initialized = true → k.globals = g)
  (hcur : IsDir g (k.disks v) t.currentDirCluster)
include hg hres hfuel h hdrive hmounted hcur

theorem moveToDir_spec : (syscall noFaults fuel .moveToDir args).wp (fun x s =>
    MoveEnd v g fuel k t.currentDirCluster s.1 (copyUserUpper t args.mem args.a0)
      (copyUserUpper t args.mem args.a1) x) (k, t) := by
  have hback : ∀ k' : Kernel, Scratch g (k.disks v) (k'.disks v) →
      StillThere v g fuel k k' t.currentDirCluster := fun k' hs => h.stillThere hg hfuel hcur hs
  refine wp_task ?_
  cases hA : copyUserUpper t args.mem args.a0 with
  | none => exact (Action.wp_pure _).mpr (.refused (hback k (.refl g _)))
  | some nameA =>
    cases hB : copyUserUpper t args.mem args.a1 with
    | none => exact (Action.wp_pure _).mpr (.refused (hback k (.refl g _)))
    | some nameB =>
      refine h.enter hdrive hmounted (fun _ hf => by cases hf) (fun k₁ hk₁ hd₁ => ?_)
      simp only [↓reduceIte]
      rw [Action.wp_bind]
      have hcur₁ : IsDir g (k₁.disks v) t.currentDirCluster := by
        rw [hd₁]
        exact hcur
      refine hk₁.findDirCluster hg hfuel hcur₁ (fun r k₂ hrun₂ hk₂ hd₂ hr => ?_)
      have hdisks : k₂.disks = k.disks := hd₂.trans hd₁
      -- what leaving makes of a kernel whose disk differs in free space only
      have hgive : ∀ k₃ : Kernel, Scratch g (k.disks v) (k₃.disks v) → (do
          leaveDriveContext k.current
          pure (flag false) : Call).wp (fun x s => MoveEnd v g fuel k t.currentDirCluster s.1
            (some nameA) (some nameB) x) (k₃, t.ready) := by
        intro k₃ hs
        refine wp_leave_aside (fun k₄ h₄ => (Action.wp_pure _).mpr (.refused (hback k₄ ?_)))
        rw [h₄.disks]
        exact hs
      rw [Action.wp_bind]
      cases r with
      | none =>
        refine (Action.wp_pure _).mpr (hgive k₂ ?_)
        rw [hdisks]
        exact .refl g _
      | some dst =>
        have hcur₂ : IsDir g (k₂.disks v) t.currentDirCluster := by
          rw [hdisks]
          exact hcur
        have hdst₂ : IsDir g (k₂.disks v) dst := by
          rw [hd₂]
          exact hr dst rfl
        obtain ⟨lcur, hlcur⟩ := hk₂.wellFormed.dir_chained hcur₂
        rw [copyInto, Action.wp_bind]
        refine hk₂.copyTo hg hres hfuel hcur₂ hdst₂ (copyUserUpper_capital hA) (fun k₃ _ _ hs => ?_)
          (fun k₃ q p ls l bytes _ hk₃ htwice => ?_)
        · rw [hdisks] at hs
          exact (Action.wp_pure _).mpr (hgive k₃ hs)
        · refine hk₂.cutFrom hg hres hfuel hcur₂ hdst₂ hk₃ hlcur htwice (fun k₄ _ _ hdone hfound => ?_)
          have hvol : (k.volume v).disk = (k₂.volume v).disk := congrFun hdisks.symm v
          obtain ⟨m₁, hrun₁⟩ := findDirCluster_of_disk_eq (m := k₁.volume v) hg hfuel hk₁.wellFormed
            hcur₁ (show (k.volume v).disk = (k₁.volume v).disk from congrFun hd₁.symm v) hrun₂
          have hgone := hdone.of_disk_eq (m := k₂.volume v) hg hfuel hk₂.wellFormed hcur₂ hvol
          rw [hdisks] at hlcur hfound
          refine wp_leave_aside (fun k₅ h₅ => (Action.wp_pure _).mpr ?_)
          rw [← h₅.volume v] at hgone hfound
          refine .moved ⟨dst, m₁, hrun₁, q, p, ls, l, bytes, hgone⟩ (hfound.trans ⟨?_, ?_⟩)
          · intro hsingle l hl
            rw [hl.unique hg hlcur]
            exact hsingle
          · exact fun hsingle => hsingle lcur hlcur

end Move

/-! ## Moves on the machine -/

theorem Healthy.hosts {m : Machine} (h : Healthy v g m) {pid : Nat} (ht : m.tasks pid = some t) :
    Hosts v g m.kernel ∧ t.drive = v ∧ (t.fat16Initialized = true → m.kernel.globals = g) ∧
      IsDir g (m.kernel.disks v) t.currentDirCluster :=
  ⟨⟨(h.sound.valid v).mpr rfl, h.sound.boot, h.sound.wellFormed, h.sound.dotted⟩, h.drives pid t ht,
    fun hflag => h.sound.mounted (.inr ⟨pid, t, ht, hflag⟩), h.sound.dirs _ (.taskDir ht)⟩

/-- The names `name` and `D`, one behind the other in the app's memory. -/
def moveArgs (name : CStr) : Args where
  a0 := 0x01000000
  a1 := 0x01000010
  a2 := 0
  mem := fun i => if i < loadVirtBase + 16 then name.at (i - loadVirtBase)
    else if i = loadVirtBase + 16 then 0x44 else 0

/-- The shell makes the directory `D` and starts the app. -/
def directoryRun : List Event :=
  [.command (.mkdir [0x44]), .launch [0x41] 512 (some (1, 0x10000))]

/-- The shell makes `D`, copies `A` to `A.T` and to `A.TXT`, and starts the app. -/
def doubleRun : List Event :=
  [.command (.mkdir [0x44]), .command (.copy [0x41, 0x20, 0x41, 0x2E, 0x54]),
    .command (.copy [0x41, 0x20, 0x41, 0x2E, 0x54, 0x58, 0x54]), .launch [0x41] 512 (some (1, 0x10000))]

def callState (es : List Event) : Option (Kernel × Task) :=
  (run (step noFaults 16) appMachine es).bind (fun m => (m.tasks 1).map (fun t => (m.kernel, t)))

theorem callState_hosts {es : List Event}
    (hsteady : Meets (step noFaults 16) (Steady 0 bootVolume) appMachine es) {s : Kernel × Task}
    (h : callState es = some s) : Hosts 0 bootVolume s.1 ∧ s.2.drive = 0 ∧
      (s.2.fat16Initialized = true → s.1.globals = bootVolume) ∧
      IsDir bootVolume (s.1.disks 0) s.2.currentDirCluster := by
  obtain ⟨m, hrun, htask⟩ := Option.bind_eq_some_iff.mp h
  obtain ⟨t, ht, rfl⟩ := Option.map_eq_some_iff.mp htask
  exact (run_healthy bootVolume_valid (by decide) (by decide) appMachine_booted hsteady hrun).hosts ht

theorem directoryRun_steady : Meets (step noFaults 16) (Steady 0 bootVolume) appMachine directoryRun :=
  ⟨trivial, fun _ _ => ⟨trivial, fun _ _ => trivial⟩⟩

theorem doubleRun_steady : Meets (step noFaults 16) (Steady 0 bootVolume) appMachine doubleRun :=
  ⟨trivial, fun _ _ => ⟨trivial, fun _ _ => ⟨trivial, fun _ _ => ⟨trivial, fun _ _ => trivial⟩⟩⟩⟩

/-- `fat16_copy_file_between_dirs` of the app `A`, within the root. -/
def copyApp (name : CStr) : Option (Bool × DriverMem) :=
  (copyFileBetweenDirs bootVolume 16 0 [0x41] 0 name).run noFaults (appMachine.kernel.volume 0)

/-- When `fat16_copy_file_between_dirs` returns 1, the file has its copy exactly when an entry with
the formatted new name answers to that name. When MOVE_TO_DIR returns 1 the file is in the other
directory, and is not found in the first exactly when no other entry there answers to its name; when
it returns 0, every file is found where it was. -/
theorem copy_and_move_iff (hg : g.Valid) (hres : 0 < g.bpb.reservedSectors)
    (hfuel : g.getTotalClusters ≤ fuel) :
    (∀ (m m' : DriverMem) (srcDir dstDir : Nat) (a b : CStr), WellFormed g m.disk →
      IsDir g m.disk srcDir → IsDir g m.disk dstDir →
      (copyFileBetweenDirs g fuel srcDir a dstDir b).run noFaults m = some (true, m') →
      (HasCopy g fuel m m' srcDir a dstDir b ↔ Recalled b)) ∧
    ∀ (v : Nat) (k k' : Kernel) (t t' : Task) (args : Args) (x : Int), Hosts v g k → t.drive = v →
      (t.fat16Initialized = true → k.globals = g) → IsDir g (k.disks v) t.currentDirCluster →
      syscall noFaults fuel .moveToDir args (k, t) = some (x, k', t') →
      (x = 1 → ∃ nameA nameB, copyUserUpper t args.mem args.a0 = some nameA ∧
        copyUserUpper t args.mem args.a1 = some nameB ∧
        CarriedOff v g fuel k k' t.currentDirCluster nameA nameB ∧
        (NotFound v g fuel k' t.currentDirCluster nameA ↔
          NoDouble g (k.disks v) t.currentDirCluster nameA)) ∧
      (x = 0 → StillThere v g fuel k k' t.currentDirCluster) ∧ (x = 0 ∨ x = 1) := by
  refine ⟨fun m m' srcDir dstDir a b hw hsrc hdst hrun =>
    copyFile_hasCopy_iff hg hfuel hw hsrc hdst hrun, ?_⟩
  intro v k k' t t' args x h hdrive hmounted hcur hrun
  have hend := moveToDir_spec hg hres hfuel h hdrive hmounted hcur x (k', t') hrun
  generalize copyUserUpper t args.mem args.a0 = a at hend ⊢
  generalize copyUserUpper t args.mem args.a1 = b at hend ⊢
  cases hend with
  | refused hthere => exact ⟨fun h1 => (by cases h1), fun _ => hthere, .inl rfl⟩
  | moved hoff hfound =>
    exact ⟨fun _ => ⟨_, _, rfl, rfl, hoff, hfound⟩, fun h0 => (by cases h0), .inr rfl⟩

theorem copy_and_move_iff_app :
    (∃ m', copyApp [0x42] = some (true, m') ∧
      HasCopy bootVolume 16 (appMachine.kernel.volume 0) m' 0 [0x41] 0 [0x42]) ∧
    ∃ s s', callState directoryRun = some s ∧
      syscall noFaults 16 .moveToDir (moveArgs [0x41]) s = some (1, s') ∧
      CarriedOff 0 bootVolume 16 s.1 s'.1 s.2.currentDirCluster [0x41] [0x44] := by
  obtain ⟨hcopy, hmove⟩ := @copy_and_move_iff 16 bootVolume bootVolume_valid (by decide)
    (by decide)
  have hcopied : (copyApp [0x42]).any (fun r => r.1) = true := by decide +kernel
  obtain ⟨⟨ok, m'⟩, hrun, rfl⟩ := (Option.any_eq_true _ _).mp hcopied
  have hback := (hcopy (appMachine.kernel.volume 0) m' 0 0 [0x41] [0x42] appDisk_evolved.wellFormed
    .root .root hrun).mpr (recalled_of_capital (CStr.Upper.capital (by decide)) (by decide))
  refine ⟨⟨m', hrun, hback⟩, ?_⟩
  have hmoved : (callState directoryRun).any (fun s =>
      (syscall noFaults 16 .moveToDir (moveArgs [0x41]) s).any (fun r => r.1 = 1) &&
        copyUserUpper s.2 (moveArgs [0x41]).mem (moveArgs [0x41]).a0 = some [0x41] &&
        copyUserUpper s.2 (moveArgs [0x41]).mem (moveArgs [0x41]).a1 = some [0x44]) = true := by
    decide +kernel
  obtain ⟨s, hs, hend⟩ := (Option.any_eq_true _ _).mp hmoved
  simp only [Bool.and_eq_true, decide_eq_true_eq] at hend
  obtain ⟨⟨hcall, hA⟩, hB⟩ := hend
  obtain ⟨⟨x, s'⟩, hcall, hx⟩ := (Option.any_eq_true _ _).mp hcall
  obtain rfl : x = 1 := of_decide_eq_true hx
  obtain ⟨hhosts, hdrive, hflag, hcur⟩ := callState_hosts directoryRun_steady hs
  obtain ⟨nameA, nameB, hA', hB', hoff, _⟩ :=
    (hmove 0 s.1 s'.1 s.2 s'.2 _ 1 hhosts hdrive hflag hcur hcall).1 rfl
  cases hA.symm.trans hA'
  cases hB.symm.trans hB'
  exact ⟨s, s', hs, hcall, hoff⟩

/-- A copy under the deletion mark is not found, and a move of `A.T` leaves `A.TXT` to be found. -/
theorem copy_lost_and_move_doubled :
    (∃ m', WellFormed bootVolume (appMachine.kernel.volume 0).disk ∧
      copyApp [0xE5] = some (true, m') ∧
      ¬ HasCopy bootVolume 16 (appMachine.kernel.volume 0) m' 0 [0x41] 0 [0xE5]) ∧
    ∃ s s', callState doubleRun = some s ∧ Hosts 0 bootVolume s.1 ∧ s.2.drive = 0 ∧
      syscall noFaults 16 .moveToDir (moveArgs [0x41, 0x2E, 0x54]) s = some (1, s') ∧
      ¬ NotFound 0 bootVolume 16 s'.1 s.2.currentDirCluster [0x41, 0x2E, 0x54] := by
  constructor
  · have hcopied : (copyApp [0xE5]).any (fun r => r.1) = true := by decide +kernel
    obtain ⟨⟨ok, m'⟩, hrun, rfl⟩ := (Option.any_eq_true _ _).mp hcopied
    refine ⟨m', appDisk_evolved.wellFormed, hrun, fun hcopy => ?_⟩
    have hrec := (copyFile_hasCopy_iff (m := appMachine.kernel.volume 0) bootVolume_valid (by decide)
      appDisk_evolved.wellFormed .root .root hrun).mp hcopy
    exact absurd (hrec (padName [0xE5] []) rfl) (by decide)
  · have hmoved : (callState doubleRun).any (fun s =>
        (syscall noFaults 16 .moveToDir (moveArgs [0x41, 0x2E, 0x54]) s).any (fun r => r.1 = 1 &&
          ((findEntry bootVolume 16 s.2.currentDirCluster [0x41, 0x2E, 0x54]).run noFaults
            (r.2.1.volume 0)).any (fun r => r.1.isSome))) = true := by decide +kernel
    obtain ⟨s, hs, hend⟩ := (Option.any_eq_true _ _).mp hmoved
    obtain ⟨⟨x, s'⟩, hcall, hend⟩ := (Option.any_eq_true _ _).mp hend
    rw [Bool.and_eq_true] at hend
    obtain rfl : x = 1 := of_decide_eq_true hend.1
    obtain ⟨⟨r, m₁⟩, hfind, hsome⟩ := (Option.any_eq_true _ _).mp hend.2
    obtain ⟨hhosts, hdrive, _, _⟩ := callState_hosts doubleRun_steady hs
    refine ⟨s, s', hs, hhosts, hdrive, hcall, fun hnone => ?_⟩
    obtain ⟨m₂, hnone⟩ := hnone
    cases hfind.symm.trans hnone
    cases hsome

end Files
end MiniDos
