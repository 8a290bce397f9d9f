import MiniDos.Files.DirCalls
import MiniDos.Fat.Boot

/-!
# MiniDos.Files.DirRuns

Runs of the machine on one well-formed drive.

* `Healthy`: the drive is well-formed with its dots, and every directory that the shell or a task
  remembers is there.
* `Steady`: the events that take no remembered directory away and rename no dot entry.
* `remembered_dirs`, `dots_kept`: in every state of a run of such events, from a booted machine on.
-/

namespace MiniDos
namespace Files

open BlockIO Fat16 Drive Transition

variable {v fuel : Nat} {g : Globals}
variable {pid : Nat} {t : Task}

/-- A cluster number that the shell or a task keeps. -/
inductive Remembered (m : Machine) : Nat → Prop where
  | shellDir : Remembered m m.shell.currentDirCluster
  | shellClip : Remembered m m.shell.appClipSrcCluster
  | taskDir {pid : Nat} {t : Task} (h : m.tasks pid = some t) : Remembered m t.currentDirCluster
  | taskClip {pid : Nat} {t : Task} (h : m.tasks pid = some t) : Remembered m t.appClipSrcCluster

/-- The shell or a task takes the volume for mounted. -/
def Mounted (m : Machine) : Prop :=
  m.shell.fat16Initialized = true ∨ ∃ pid t, m.tasks pid = some t ∧ t.fat16Initialized = true

structure Healthy (v : Nat) (g : Globals) (m : Machine) : Prop where
  sound : Sound v g (Remembered m) (Mounted m) m.kernel
  drives : ∀ pid t, m.tasks pid = some t → t.drive = v

/-- The event takes no remembered directory away, renames no dot entry, and sweeps no file that has
clusters. -/
def Steady (v : Nat) (g : Globals) (m : Machine) : Event → Prop
  | .command cmd => cmd.Careful g (Remembered m) (m.kernel.disks v) m.shell
  | .syscall pid num args => ∀ t, m.tasks pid = some t →
      Careful g (Remembered m) (m.kernel.disks v) t num args
  | _ => True

/-- A record of a task with its directories there; `P`: the volume is mounted. -/
structure Fits (v : Nat) (g : Globals) (d : Disk) (P : Prop) (t : Task) : Prop where
  drive : t.drive = v
  cur : IsDir g d t.currentDirCluster
  clip : IsDir g d t.appClipSrcCluster
  flag : t.fat16Initialized = true → P

theorem healthy_of {m : Machine} {S : Nat → Prop} {P : Prop} (hs : Sound v g S P m.kernel)
    (hcur : IsDir g (m.kernel.disks v) m.shell.currentDirCluster)
    (hclip : IsDir g (m.kernel.disks v) m.shell.appClipSrcCluster)
    (hflag : m.shell.fat16Initialized = true → P)
    (htasks : ∀ pid t, m.tasks pid = some t → Fits v g (m.kernel.disks v) P t) : Healthy v g m := by
  refine ⟨{ hs with dirs := fun c hc => ?_, mounted := fun hm => hs.mounted ?_ },
    fun pid t ht => (htasks pid t ht).drive⟩
  · cases hc with
    | shellDir => exact hcur
    | shellClip => exact hclip
    | taskDir ht => exact (htasks _ _ ht).cur
    | taskClip ht => exact (htasks _ _ ht).clip
  · rcases hm with hm | ⟨pid, t, ht, hm⟩
    · exact hflag hm
    · exact (htasks pid t ht).flag hm

theorem task_cases {m : Machine} {pid i : Nat} {x : Option Task}
    (h : (m.setTask pid x).tasks i = some t) : x = some t ∨ m.tasks i = some t := by
  by_cases hi : i = pid
  · simp only [Machine.setTask, hi, if_pos] at h
    exact .inl h
  · simp only [Machine.setTask, if_neg hi] at h
    exact .inr h

namespace Healthy

variable {m : Machine} (h : Healthy v g m)
include h

theorem prompt : Prompt v g (Remembered m) (Mounted m) m.kernel m.shell :=
  ⟨h.sound, .inl, .shellDir, .shellClip⟩

theorem before (ht : m.tasks pid = some t) :
    Before v g (Remembered m) (Mounted m) m.kernel t :=
  ⟨h.sound, h.drives pid t ht, fun hflag => .inr ⟨pid, t, ht, hflag⟩, .taskDir ht, .taskClip ht⟩

theorem fits {k : Kernel} {P : Prop} (hk : Sound v g (Remembered m) P k) (hP : Mounted m → P)
    (ht : m.tasks pid = some t) : Fits v g (k.disks v) P t :=
  ⟨h.drives pid t ht, hk.dirs _ (.taskDir ht), hk.dirs _ (.taskClip ht),
    fun hflag => hP (.inr ⟨pid, t, ht, hflag⟩)⟩

theorem setShell {s : Kernel × Host} (hs : Done v g (Remembered m) (Mounted m) s) :
    Healthy v g (m.setShell s) :=
  healthy_of hs.sound hs.cur hs.clip .inr (fun _ _ ht => h.fits hs.sound .inl ht)

theorem setTask {s : Kernel × Task} (hs : After v g (Remembered m) (Mounted m) s) :
    Healthy v g { m.setTask pid (some s.2) with kernel := s.1 } := by
  refine healthy_of hs.sound (hs.sound.dirs _ .shellDir) (hs.sound.dirs _ .shellClip)
    (fun hflag => .inl (.inl hflag)) (fun i t ht => ?_)
  rcases task_cases ht with hnew | hold
  · cases hnew
    exact ⟨hs.drive, hs.cur, hs.clip, .inr⟩
  · exact h.fits hs.sound .inl hold

theorem replace {x : Option Task}
    (hx : ∀ t, x = some t → Fits v g (m.kernel.disks v) (Mounted m) t) :
    Healthy v g (m.setTask pid x) := by
  refine healthy_of h.sound (h.sound.dirs _ .shellDir) (h.sound.dirs _ .shellClip) .inl
    (fun i t ht => ?_)
  rcases task_cases ht with hnew | hold
  · exact hx t hnew
  · exact h.fits h.sound id hold

theorem start (pid slotBytes : Nat) : Healthy v g (m.start pid slotBytes) := by
  have hsound : Sound v g (Remembered m) (Mounted m) { m.kernel with currentDrive := m.kernel.current } :=
    h.sound.congr rfl h.sound.letter rfl h.sound.mounted
  refine healthy_of hsound (hsound.dirs _ .shellDir) (hsound.dirs _ .shellClip) .inl
    (fun i t ht => ?_)
  rcases task_cases ht with hnew | hold
  · cases hnew
    exact ⟨h.sound.current, hsound.dirs _ .shellDir, hsound.dirs _ .shellClip, .inl⟩
  · exact h.fits hsound id hold

theorem sync (ht : m.tasks pid = some t) :
    Healthy v g { m.setTask pid none with shell := syncHostState t m.shell } := by
  have hfits := h.fits h.sound id ht
  refine healthy_of h.sound (h.sound.dirs _ .shellDir) hfits.clip hfits.flag (fun i t' ht' => ?_)
  rcases task_cases ht' with hnew | hold
  · cases hnew
  · exact h.fits h.sound id hold

theorem step (hg : g.Valid) (hres : 0 < g.bpb.reservedSectors) (hfuel : g.getTotalClusters ≤ fuel)
    {e : Event} {m' : Machine} (he : Steady v g m e) (hstep : Files.step noFaults fuel m e = some m') :
    Healthy v g m' := by
  cases e with
  | command cmd =>
    obtain ⟨⟨_, s⟩, hrun, rfl⟩ := Option.map_eq_some_iff.mp hstep
    exact h.setShell (h.prompt.command hg hfuel hres he _ s hrun)
  | launch name maxSize start =>
    obtain ⟨⟨found, s⟩, hrun, rfl⟩ := Option.map_eq_some_iff.mp hstep
    have hshell := h.setShell (h.prompt.stageImage name maxSize found s hrun)
    cases start with
    | none => exact hshell
    | some start =>
      cases found with
      | true => exact hshell.start start.1 start.2
      | false => exact hshell
  | thread pid newPid =>
    obtain ⟨t, ht, rfl⟩ := Option.map_eq_some_iff.mp hstep
    refine h.replace (fun t' ht' => ?_)
    cases ht'
    exact h.fits h.sound id ht
  | exit pid join =>
    obtain ⟨t, ht, rfl⟩ := Option.map_eq_some_iff.mp hstep
    cases join with
    | true => exact h.sync ht
    | false => exact h.replace (fun t' ht' => by cases ht')
  | syscall pid num args =>
    obtain ⟨t, ht, hcall⟩ := Option.bind_eq_some_iff.mp hstep
    obtain ⟨⟨x, s⟩, hrun, rfl⟩ := Option.map_eq_some_iff.mp hcall
    exact h.setTask ((h.before ht).syscall hg hfuel args hres (he t ht) x s hrun)

end Healthy

/-! ## Booting -/

/-- The machine as it comes up: one drive with a well-formed volume, nothing mounted, no task. -/
structure Booted (v : Nat) (g : Globals) (m : Machine) : Prop where
  valid : ∀ l, m.kernel.Valid l ↔ l = v
  letter : m.kernel.letter = v
  boot : Boots g (m.kernel.disks v 0)
  wellFormed : WellFormed g (m.kernel.disks v)
  dotted : Dotted g (m.kernel.disks v)
  shellDir : m.shell.currentDirCluster = 0
  shellClip : m.shell.appClipSrcCluster = 0
  unmounted : m.shell.fat16Initialized = false
  tasks : ∀ pid, m.tasks pid = none

theorem Booted.healthy {m : Machine} (h : Booted v g m) : Healthy v g m := by
  have hsound : Sound v g (fun _ => False) False m.kernel :=
    ⟨h.valid, h.letter, h.boot, h.wellFormed, h.dotted, fun _ hc => hc.elim, fun hp => hp.elim⟩
  refine healthy_of hsound ?_ ?_ (fun hflag => ?_) (fun pid t ht => ?_)
  · rw [h.shellDir]
    exact .root
  · rw [h.shellClip]
    exact .root
  · rw [h.unmounted] at hflag
    cases hflag
  · rw [h.tasks] at ht
    cases ht

/-! ## A machine -/

/-- The volume that `bootSector` describes. -/
def bootVolume : Globals := ⟨Bpb.ofSector (bootSector 1), .fat12⟩

theorem bootVolume_valid : bootVolume.Valid := by
  refine ⟨rfl, ?_, ?_, ?_, ?_⟩ <;> decide

theorem bootVolume_boots : Boots bootVolume (bootSector 1) := by
  intro g₀
  have hsigned : Signed (bootSector 1) := by decide
  have hn : (Bpb.ofSector (bootSector 1)).totalClusters .cpu = some 16 := by decide
  have hfields : ¬ ((Bpb.ofSector (bootSector 1)).bytesPerSector = 0 ∨
      (Bpb.ofSector (bootSector 1)).sectorsPerFat = 0 ∨
      (Bpb.ofSector (bootSector 1)).rootEntries = 0) := by decide
  unfold fat16Init
  rw [if_neg (not_not.mpr hsigned)]
  simp only [if_neg hfields, hn]
  rfl

def bootMem : DriverMem :=
  { blankMem with disk := fun lba => if lba = 0 then bootSector 1 else Sector.zero }

def bootWrite : DiskProg Bool := writeFileFromDir bootVolume 16 0 [0x41] (some (fun _ => 0x21)) 1

/-- The volume with the app `A` on it. -/
def appDisk : Disk := (bootWrite.run noFaults bootMem).elim blankDisk (fun r => r.2.disk)

theorem bootMem_root : ∀ p ∈ dirSlots bootVolume 0 [], (entryAt bootMem.disk p).isEnd = true := by
  decide +kernel

theorem appDisk_evolved : Evolved bootVolume bootMem.disk appDisk (fun _ => False) := by
  have hw : WellFormed bootVolume bootMem.disk := wellFormed_of_empty_root bootMem_root
  have hlive : ∀ p ∈ dirSlots bootVolume 0 [], (entryAt bootMem.disk p).isLive ≠ true := by
    intro p hp hlive
    have := (DirectoryEntry.isLive_iff.mp hlive).1
    rw [bootMem_root p hp] at this
    cases this
  have hd : Dotted bootVolume bootMem.disk := by
    refine ⟨fun parent p hparent hp => ?_, fun p hp hl => absurd hl (hlive p hp)⟩
    have := hparent.eq_zero (fun p hp hl => absurd hl (hlive p hp))
    subst this
    obtain ⟨l, hl, hslot⟩ := hp.slot
    exact absurd hp.live (hlive p hslot)
  have hwp : bootWrite.wp Ctx.quiet (fun _ m' => Evolved bootVolume bootMem.disk m'.disk
      (fun _ => False)) bootMem :=
    wp_write_evolved bootVolume_valid (by decide) (by decide) Ctx.quiet_not_faulty
      (fun _ => trivial) hw hd .root _ 1
  have hrun : (bootWrite.run noFaults bootMem).isSome := by decide +kernel
  obtain ⟨⟨ok, m'⟩, hrun⟩ := Option.isSome_iff_exists.mp hrun
  unfold appDisk
  rw [hrun]
  exact (Prog.run_of_wp noFaults (fun _ hf => by cases hf) hwp).1 ok m' hrun

/-- Drive A: with `appDisk`. -/
def appMachine : Machine where
  kernel :=
    { drives := fun l => if l = 0 then some ⟨0, 0, 0, 20, 0x01⟩ else none
      currentDrive := 0
      letter := 0
      globals := smallVolume
      disks := fun _ => appDisk
      buf := fun _ => Sector.zero
      accesses := 0
      stores := 0
      begun := [] }
  shell :=
    { fat16Initialized := false
      currentDirCluster := 0
      currentPath := pathReset
      appClipMode := 0
      appClipName := []
      appClipSrcCluster := 0 }
  tasks := fun _ => none

theorem appMachine_booted : Booted 0 bootVolume appMachine where
  valid := by
    intro l
    unfold Kernel.Valid driveGetInfo appMachine
    by_cases hl : l = 0
    · simp [hl, maxDrives]
    · simp [hl]
  letter := rfl
  boot := by
    show Boots bootVolume (appDisk 0)
    rw [appDisk_evolved.boot]
    exact bootVolume_boots
  wellFormed := appDisk_evolved.wellFormed
  dotted := appDisk_evolved.dotted
  shellDir := rfl
  shellClip := rfl
  unmounted := rfl
  tasks := fun _ => rfl

/-! ## Runs -/

section Runs

variable (hg : g.Valid) (hres : 0 < g.bpb.reservedSectors) (hfuel : g.getTotalClusters ≤ fuel)
  {m m' : Machine} (hm : Booted v g m) {es : List Event}
  (hsteady : Meets (step noFaults fuel) (Steady v g) m es)
  (hrun : run (step noFaults fuel) m es = some m')
include hg hres hfuel hm hsteady hrun

theorem run_healthy : Healthy v g m' :=
  run_invariant (fun _ _ _ h he hstep => h.step hg hres hfuel he hstep) es m m' hm.healthy hsteady hrun

/-- Every directory that the shell or a task remembers is there. -/
theorem remembered_dirs {c : Nat} (hc : Remembered m' c) : IsDir g (m'.kernel.disks v) c :=
  (run_healthy hg hres hfuel hm hsteady hrun).sound.dirs c hc

/-- Every subdirectory has its entries `.` and `..`. -/
theorem dots_kept {parent : Nat} {p : Slot} (hparent : IsDir g (m'.kernel.disks v) parent)
    (hp : Child g (m'.kernel.disks v) parent p) :
    Dots g (m'.kernel.disks v) (entryAt (m'.kernel.disks v) p).first parent :=
  (run_healthy hg hres hfuel hm hsteady hrun).sound.dotted.sub parent p hparent hp

end Runs

/-- The shell makes the directory `D`, and the app goes there. -/
def browse : List Event :=
  [.command (.mkdir [0x44]), .launch [0x41] 512 (some (1, 0x10000)), .syscall 1 .chdir (nameArgs 0x44)]

theorem browse_steady : Meets (step noFaults 16) (Steady 0 bootVolume) appMachine browse :=
  ⟨trivial, fun _ _ => ⟨trivial, fun _ _ => ⟨fun _ _ => trivial, fun _ _ => trivial⟩⟩⟩

theorem browse_run : (run (step noFaults 16) appMachine browse).isSome := by decide +kernel

theorem remembered_dirs_browse : ∃ m', run (step noFaults 16) appMachine browse = some m' ∧
    ∀ c, Remembered m' c → IsDir bootVolume (m'.kernel.disks 0) c := by
  obtain ⟨m', hrun⟩ := Option.isSome_iff_exists.mp browse_run
  exact ⟨m', hrun, fun c hc => remembered_dirs bootVolume_valid (by decide) (by decide)
    appMachine_booted browse_steady hrun hc⟩

theorem dots_kept_browse : ∃ m', run (step noFaults 16) appMachine browse = some m' ∧
    ∀ p, Child bootVolume (m'.kernel.disks 0) 0 p →
      Dots bootVolume (m'.kernel.disks 0) (entryAt (m'.kernel.disks 0) p).first 0 := by
  obtain ⟨m', hrun⟩ := Option.isSome_iff_exists.mp browse_run
  exact ⟨m', hrun, fun p hp => dots_kept bootVolume_valid (by decide) (by decide)
    appMachine_booted browse_steady hrun .root hp⟩

/-- Then the shell removes `D`. -/
def removed : Option Machine :=
  run (step noFaults 16) appMachine (browse ++ [.command (.rmdir [0x44])])

/-- The shell removes the current directory of the app. -/
theorem rmdir_strands_task : Booted 0 bootVolume appMachine ∧ ∃ m' c, removed = some m' ∧
    Remembered m' c ∧ ¬ IsDir bootVolume (m'.kernel.disks 0) c := by
  have hcur : removed.bind (fun m => (m.tasks 1).map Task.currentDirCluster) = some 3 := by
    decide +kernel
  have hroot : ∀ m ∈ removed, ∀ p ∈ dirSlots bootVolume 0 [],
      (entryAt (m.kernel.disks 0) p).isLive = true →
        (entryAt (m.kernel.disks 0) p).isDirectory = false := by decide +kernel
  obtain ⟨m', hrun, htask⟩ := Option.bind_eq_some_iff.mp hcur
  obtain ⟨t, ht, hcluster⟩ := Option.map_eq_some_iff.mp htask
  refine ⟨appMachine_booted, m', t.currentDirCluster, hrun, .taskDir ht, fun hdir => ?_⟩
  have := hdir.eq_zero (hroot m' hrun)
  omega

/-- `MINIDOS_SYSCALL_RENAME_ENTRY` of `..` to `X`. -/
def renameArgs : Args where
  a0 := 0x01000000
  a1 := 0x01000008
  a2 := 0
  mem := fun i => if i = loadVirtBase ∨ i = loadVirtBase + 1 then 0x2E
    else if i = loadVirtBase + 8 then 0x58 else 0

/-- Then the app renames `..`. -/
def renamed : Option Machine :=
  run (step noFaults 16) appMachine (browse ++ [.syscall 1 .renameEntry renameArgs])

/-- The app renames `..` of its current directory. -/
theorem rename_takes_dotDot : Booted 0 bootVolume appMachine ∧ ∃ m' p, renamed = some m' ∧
    Child bootVolume (m'.kernel.disks 0) 0 p ∧
      ¬ Dots bootVolume (m'.kernel.disks 0) (entryAt (m'.kernel.disks 0) p).first 0 := by
  have hsome : renamed.isSome := by decide +kernel
  have hchild : ∀ m ∈ renamed, (3, 1) ∈ dirSlots bootVolume 0 [] ∧
      (entryAt (m.kernel.disks 0) (3, 1)).isLive = true ∧
      (entryAt (m.kernel.disks 0) (3, 1)).isDot = false ∧
      (entryAt (m.kernel.disks 0) (3, 1)).isDirectory = true ∧
      (entryAt (m.kernel.disks 0) (bootVolume.clusterSector
        (entryAt (m.kernel.disks 0) (3, 1)).first, 1)).name 0 ≠ dotDotName 0 := by decide +kernel
  obtain ⟨m', hrun⟩ := Option.isSome_iff_exists.mp hsome
  obtain ⟨hslot, hlive, hdot, hdir, hname⟩ := hchild m' hrun
  refine ⟨appMachine_booted, m', (3, 1), hrun, ⟨⟨[], .inl ⟨rfl, rfl⟩, hslot⟩, hlive, hdot, hdir⟩,
    fun hdots => ?_⟩
  exact hname (congrFun hdots.dotDot.name 0)

end Files
end MiniDos
