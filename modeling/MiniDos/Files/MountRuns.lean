import MiniDos.Files.DirRuns
import MiniDos.Files.Mounts

/-!
# MiniDos.Files.MountRuns

Runs of the machine on any number of drives, with the drive that the globals of the driver are for
kept beside it: `fat16_init` accepted it last.

* `OnMounted`: the shell or a task whose flag is set calls the driver for that drive only.
* `globals_agree`: in a run of such events, every call of the driver begins with the globals that
  `fat16_init` derives from the boot sector of its drive.
-/

namespace MiniDos
namespace Files

open BlockIO Fat16 Drive Transition

/-! ## The drive of the globals -/

inductive Party where
  | shell
  | task (pid : Nat)

/-- Who calls the driver. -/
def Event.party : Event → Option Party
  | .command _ => some .shell
  | .launch _ _ _ => some .shell
  | .syscall pid _ _ => some (.task pid)
  | .thread _ _ => none
  | .exit _ _ => none

def Event.Calls (m : Machine) : Event → Prop
  | .command cmd => cmd.Calls
  | .launch _ _ _ => True
  | .syscall pid num args => ∃ t, t ∈ m.tasks pid ∧ Files.Calls num t args
  | .thread _ _ => False
  | .exit _ _ => False

instance (m : Machine) : ∀ e : Event, Decidable (e.Calls m)
  | .command cmd => inferInstanceAs (Decidable cmd.Calls)
  | .launch _ _ _ => inferInstanceAs (Decidable True)
  | .syscall pid num args =>
    inferInstanceAs (Decidable (∃ t, t ∈ m.tasks pid ∧ Files.Calls num t args))
  | .thread _ _ => inferInstanceAs (Decidable False)
  | .exit _ _ => inferInstanceAs (Decidable False)

def Machine.ready (m : Machine) : Party → Bool
  | .shell => m.shell.fat16Initialized
  | .task pid => (m.tasks pid).any Task.fat16Initialized

/-- The drive that the party calls the driver for. A shell with its flag set stays where the driver
is. -/
def Machine.target (m : Machine) : Party → Nat
  | .shell => if m.shell.fat16Initialized then m.kernel.letter else m.kernel.current
  | .task pid => (m.tasks pid).elim 0 Task.drive

/-- `mounted`: the drive that `fat16_init` accepted last, unless it turned one down since and left
other globals. -/
structure Tracked where
  machine : Machine
  mounted : Option Nat

def Tracked.next (s : Tracked) (e : Event) (m' : Machine) : Option Nat :=
  match e.party with
  | none => s.mounted
  | some p =>
    if s.machine.ready p = false ∧ m'.ready p = true then some (s.machine.target p)
    else if m'.kernel.globals = s.machine.kernel.globals then s.mounted
    else none

variable (fails : Nat → Bool) (fuel : Nat)

def track (s : Tracked) (e : Event) : Option Tracked :=
  (step fails fuel s.machine e).map (fun m' => ⟨m', s.next e m'⟩)

def OnMounted (s : Tracked) (e : Event) : Prop :=
  e.Calls s.machine → ∀ p, p ∈ e.party → s.machine.ready p = true →
    s.mounted = some (s.machine.target p)

instance (s : Tracked) (e : Event) : Decidable (OnMounted s e) :=
  inferInstanceAs (Decidable (_ → ∀ p, p ∈ e.party → _))

variable {fails fuel}

theorem run_track {es : List Event} : ∀ {m m' : Machine} {mounted : Option Nat},
    run (step fails fuel) m es = some m' →
      ∃ mounted', run (track fails fuel) ⟨m, mounted⟩ es = some ⟨m', mounted'⟩ := by
  induction es with
  | nil =>
    intro m m' mounted hrun
    cases hrun
    exact ⟨mounted, rfl⟩
  | cons e es ih =>
    intro m m' mounted hrun
    obtain ⟨m₁, hstep, hrun⟩ := run_cons.mp hrun
    obtain ⟨mounted', hrun⟩ := @ih m₁ m' (Tracked.next ⟨m, mounted⟩ e m₁) hrun
    refine ⟨mounted', run_cons.mpr ⟨_, ?_, hrun⟩⟩
    rw [track, hstep]
    rfl

/-! ## What a step keeps -/

/-- The globals are those of the mounted drive. -/
structure Synced (boots : Nat → Sector) (s : Tracked) : Prop where
  tended : Tended boots s.machine.kernel
  globals : ∀ d, s.mounted = some d → Boots s.machine.kernel.globals (boots d)

variable {boots : Nat → Sector} {s : Tracked}

theorem Synced.after (h : Synced boots s) {e : Event} {p : Party} (hp : e.party = some p)
    {m' : Machine} (hend : Ended boots (s.machine.target p) s.machine.kernel.globals
      (s.machine.ready p) m'.kernel (m'.ready p)) : Synced boots ⟨m', s.next e m'⟩ := by
  refine ⟨hend.tended, fun d hd => ?_⟩
  simp only [Tracked.next, hp] at hd
  split at hd
  case isTrue hnew =>
    cases hd
    exact hend.filled hnew.1 hnew.2
  case isFalse =>
    split at hd
    · rename_i hsame
      show Boots m'.kernel.globals (boots d)
      rw [hsame]
      exact h.globals d hd
    · cases hd

theorem Synced.shell (h : Synced boots s) {e : Event} (hp : e.party = some .shell)
    {r : Kernel × Host} (hend : Ended boots s.machine.kernel.current s.machine.kernel.globals
      s.machine.shell.fat16Initialized r.1 r.2.fat16Initialized) {m' : Machine}
    (hk : m'.kernel.globals = r.1.globals) (htended : Tended boots r.1 → Tended boots m'.kernel)
    (hshell : m'.shell = r.2) : Synced boots ⟨m', s.next e m'⟩ := by
  refine h.after hp ⟨htended hend.tended, fun hready => hk.trans (hend.kept hready), ?_⟩
  intro hno hyes
  have hno' : s.machine.shell.fat16Initialized = false := hno
  have hyes' : r.2.fat16Initialized = true := by rw [← hshell]; exact hyes
  rw [hk, Machine.target, hno']
  exact hend.filled hno' hyes'

theorem Synced.step (hres : ∀ l g, Boots g (boots l) → 0 < g.bpb.reservedSectors)
    (h : Synced boots s) {e : Event} (he : OnMounted s e) {s' : Tracked}
    (hstep : track fails fuel s e = some s') : Synced boots s' := by
  obtain ⟨m', hm', rfl⟩ := Option.map_eq_some_iff.mp hstep
  have hready : e.Calls s.machine → ∀ p, e.party = some p → s.machine.ready p = true →
      Boots s.machine.kernel.globals (boots (s.machine.target p)) :=
    fun hc p hp hflag => h.globals _ (he hc p hp hflag)
  have htarget : s.machine.shell.fat16Initialized = true →
      s.machine.target .shell = s.machine.kernel.letter := fun hflag => if_pos hflag
  cases e with
  | command cmd =>
    obtain ⟨⟨_, r⟩, hrun, rfl⟩ := Option.map_eq_some_iff.mp hm'
    refine h.shell rfl (cmd.ended hres h.tended (fun hc hflag => ?_) _ r hrun) rfl id rfl
    rw [← htarget hflag]
    exact hready hc _ rfl hflag
  | launch name maxSize start =>
    obtain ⟨⟨found, r⟩, hrun, rfl⟩ := Option.map_eq_some_iff.mp hm'
    have hend := stageImage_ended hres name maxSize h.tended
      (fun hflag => htarget hflag ▸ hready trivial _ rfl hflag) _ r hrun
    cases start with
    | none => exact h.shell rfl hend rfl id rfl
    | some start =>
      cases found with
      | true => exact h.shell rfl hend rfl (fun ht => ht.congr rfl rfl) rfl
      | false => exact h.shell rfl hend rfl id rfl
  | thread pid newPid =>
    obtain ⟨t, _, rfl⟩ := Option.map_eq_some_iff.mp hm'
    exact ⟨h.tended, h.globals⟩
  | exit pid join =>
    obtain ⟨t, _, rfl⟩ := Option.map_eq_some_iff.mp hm'
    cases join with
    | true => exact ⟨h.tended, h.globals⟩
    | false => exact ⟨h.tended, h.globals⟩
  | syscall pid num args =>
    obtain ⟨t, ht, hcall⟩ := Option.bind_eq_some_iff.mp hm'
    obtain ⟨⟨x, r⟩, hrun, rfl⟩ := Option.map_eq_some_iff.mp hcall
    have htask : s.machine.target (.task pid) = t.drive := by rw [Machine.target, ht]; rfl
    have hflag : s.machine.ready (.task pid) = t.fat16Initialized := by rw [Machine.ready, ht]; rfl
    have hend := (@shaped_syscall fails fuel t args num).ended hres h.tended
      (fun hc hyes => htask ▸ hready ⟨t, ht, hc⟩ _ rfl (hflag.trans hyes)) x r hrun
    refine h.after (p := .task pid) rfl ?_
    rw [htask, hflag]
    have hself : ({ s.machine.setTask pid (some r.2) with kernel := r.1 } : Machine).ready
        (.task pid) = r.2.fat16Initialized := by
      simp [Machine.ready, Machine.setTask]
    rw [hself]
    exact hend

/-! ## Runs -/

/-- Every call of the driver began with the globals of its drive. -/
theorem globals_agree {m m' : Machine} {es : List Event} (hstart : m.kernel.begun = [])
    (hres : ∀ l g, Boots g (m.kernel.disks l 0) → 0 < g.bpb.reservedSectors)
    (hmeets : Meets (track fails fuel) OnMounted ⟨m, none⟩ es)
    (hrun : run (step fails fuel) m es = some m') :
    ∀ b ∈ m'.kernel.begun, Boots b.globals b.boot := by
  obtain ⟨mounted, hrun⟩ := run_track hrun
  have hsynced : Synced (fun l => m.kernel.disks l 0) ⟨m, none⟩ := by
    refine ⟨⟨fun _ => rfl, fun b hb => ?_⟩, fun d hd => by cases hd⟩
    rw [hstart] at hb
    cases hb
  exact (run_invariant (fun _ _ _ h he hstep => h.step hres he hstep) es _ _ hsynced hmeets
    hrun).tended.begun

/-! ## Two drives -/

/-- Drives A: and B:, whose boot sectors have one and two sectors per cluster. -/
def twoDrives : Machine :=
  { appMachine with
    kernel :=
      { appMachine.kernel with
        drives := fun l => if l < 2 then some ⟨0, l, 64 * l, 64, 0x01⟩ else none
        disks := fun l lba => if l = 0 then appDisk lba else if lba = 0 then bootSector 2 else Sector.zero } }

/-- An app is started from A:, and the shell goes on to B:. -/
def switchedRun : List Event :=
  [.launch [0x41] 512 (some (1, 0x10000)), .syscall 1 .fileSize (nameArgs 0x41),
    .command (.drive 1), .command .dir]

theorem switchedRun_meets : Meets (track noFaults 16) OnMounted ⟨twoDrives, none⟩ switchedRun := by
  decide +kernel

theorem twoDrives_reserved : ∀ l g, Boots g (twoDrives.kernel.disks l 0) →
    0 < g.bpb.reservedSectors := by
  intro l g hg
  rw [hg.bpb]
  by_cases hl : l = 0
  · subst hl
    show 0 < (Bpb.ofSector (appDisk 0)).reservedSectors
    rw [appDisk_evolved.boot]
    decide
  · show 0 < (Bpb.ofSector (if l = 0 then appDisk 0 else bootSector 2)).reservedSectors
    rw [if_neg hl]
    decide

theorem globals_agree_switched : ∃ m', run (step noFaults 16) twoDrives switchedRun = some m' ∧
    ∀ b ∈ m'.kernel.begun, Boots b.globals b.boot := by
  have hrun : (run (step noFaults 16) twoDrives switchedRun).isSome := by decide +kernel
  obtain ⟨m', hrun⟩ := Option.isSome_iff_exists.mp hrun
  exact ⟨m', hrun, globals_agree rfl twoDrives_reserved switchedRun_meets hrun⟩

/-- `CHDIR` with the name `B:`. -/
def driveArgs : Args where
  a0 := 0x01000000
  a1 := 0
  a2 := 0
  mem := fun i => if i = loadVirtBase then 0x42 else if i = loadVirtBase + 1 then chColon else 0

/-- The app goes to B: with its flag set, and looks for a file there. -/
def wanderingRun : List Event :=
  [.launch [0x41] 512 (some (1, 0x10000)), .syscall 1 .chdir driveArgs,
    .syscall 1 .fileSize (nameArgs 0x41)]

/-- The call for drive B: begins with the globals of drive A:. -/
theorem chdir_keeps_globals : ∃ m' b, run (step noFaults 16) twoDrives wanderingRun = some m' ∧
    b ∈ m'.kernel.begun ∧ b.letter = 1 ∧ ¬ Boots b.globals b.boot := by
  have hlast : ((run (step noFaults 16) twoDrives wanderingRun).bind
      (fun m' => m'.kernel.begun.head?)).any (fun b => decide (b.letter = 1 ∧
        b.globals.bpb ≠ Bpb.ofSector b.boot)) = true := by decide +kernel
  obtain ⟨b, hb, hwrong⟩ := (Option.any_eq_true _ _).mp hlast
  obtain ⟨m', hrun, hhead⟩ := Option.bind_eq_some_iff.mp hb
  obtain ⟨hletter, hne⟩ := of_decide_eq_true hwrong
  exact ⟨m', b, hrun, List.mem_of_mem_head? hhead, hletter, fun hboots => hne hboots.bpb⟩

end Files
end MiniDos
