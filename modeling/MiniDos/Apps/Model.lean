import MiniDos.Sched.Model

/-!
# MiniDos.Apps.Model

App tasks of `shell_apps.c` and `shell_apps_launch.inc`: a table of records beside the slots of the
scheduler, an arena of physical pages, and the shell, which launches, joins and kills apps.

* The shell runs with interrupts enabled, so its calls are separate steps and any task may run in
  between; `Shell` is the place it has reached. System calls run with interrupts disabled and are one
  step each.
* The code of an app runs while its slot is the current one. Whether an image loads, and whether
  `paging_build_app_directory` accepts a record, is part of the event.
* Of a record, the fields that take part in the bookkeeping of slots and pages are kept. The page
  directory is what it was built for, or `none` when it is zeroed.
-/

namespace MiniDos
namespace Apps

open Sched

def slotFirstPid : Nat := 3
def pageSize : Nat := 0x1000
def slotMaxSize : Nat := 0x400000
def arenaPhysBase : Nat := 0x700000
def arenaSize : Nat := slotMaxSize
def arenaPageCount : Nat := arenaSize / pageSize
def threadStackBytes : Nat := 0x4000
def runtimeReservedBytes : Nat := pageSize + threadStackBytes * (maxProcesses - slotFirstPid)

/-- `shell_app_task_t`. -/
structure AppTask where
  inUse : Bool
  pid : Nat
  leaderPid : Nat
  background : Bool
  joinOnExit : Bool
  ownsMemory : Bool
  physBase : Nat
  slotBytes : Nat
  directory : Option (Nat × Nat)
  deriving DecidableEq

/-- A record after `shell_apps_mem_zero`. -/
def AppTask.zero : AppTask := ⟨false, 0, 0, false, false, false, 0, 0, none⟩

/-- Where the shell stands: at its prompt; in a launch, whose pid is chosen before its record is
claimed; in `kill`, before the record `next`; in `videostress`, with workers left to start. -/
inductive Shell where
  | idle
  | chosen (background : Bool) (slotBytes pid : Nat)
  | allocated (background : Bool) (slotBytes pid physBase : Nat)
  | prepared (background : Bool) (pid : Nat)
  | loaded (background : Bool) (pid : Nat)
  | failed (pid : Nat)
  | mismatched (pid actualPid : Nat)
  | released (actualPid : Nat)
  | waiting (pid : Nat)
  | killing (leaderPid next : Nat)
  | stressing (left : Nat)
  deriving DecidableEq

structure Machine where
  sched : Sched.State
  tasks : Nat → AppTask
  pageUsed : Nat → Bool
  shell : Shell

def Machine.setTask (m : Machine) (pid : Nat) (task : AppTask) : Machine :=
  { m with tasks := fun i => if i = pid then task else m.tasks i }

/-! ## Pages -/

/-- `shell_apps_align_up`; for a power of two the low bits are cleared. -/
def alignUp (value align : Nat) : Nat :=
  if align = 0 ∨ align &&& (align - 1) ≠ 0 then 0
  else if 0xFFFFFFFF - (align - 1) < value then 0
  else (value + (align - 1)) / align * align

def requiredSlotBytes (imageBytes : Nat) : Nat :=
  if imageBytes = 0 ∨ slotMaxSize - runtimeReservedBytes < imageBytes then 0
  else
    let rounded := alignUp imageBytes pageSize
    if rounded = 0 ∨ slotMaxSize - runtimeReservedBytes < rounded then 0
    else alignUp (rounded + runtimeReservedBytes) pageSize

/-- The pages of the arena from `first` on, `count` of them, become `b`. -/
def markPages (used : Nat → Bool) (first count : Nat) (b : Bool) : Nat → Bool :=
  fun p => if first ≤ p ∧ p < first + count then b else used p

def releasePhysRange (used : Nat → Bool) (physBase slotBytes : Nat) : Nat → Bool :=
  if physBase < arenaPhysBase ∨ arenaPhysBase + arenaSize ≤ physBase ∨ slotBytes = 0 then used
  else if alignUp slotBytes pageSize = 0 ∨ physBase % pageSize ≠ 0 then used
  else if arenaPageCount ≤ (physBase - arenaPhysBase) / pageSize ∨
      arenaPageCount - (physBase - arenaPhysBase) / pageSize <
        alignUp slotBytes pageSize / pageSize then used
  else
    markPages used ((physBase - arenaPhysBase) / pageSize) (alignUp slotBytes pageSize / pageSize)
      false

/-- The first page in use among `n` pages from `start + i` on, as a distance from `start`. -/
def usedIn (used : Nat → Bool) (start : Nat) : Nat → Nat → Option Nat
  | 0, _ => none
  | n + 1, i => if used (start + i) then some i else usedIn used start n (i + 1)

/-- The search of `shell_apps_allocate_phys_base` from `start` on: behind a page in use the run
starts anew. -/
def freeRunFrom (used : Nat → Bool) (pageCount : Nat) : Nat → Nat → Option Nat
  | 0, _ => none
  | fuel + 1, start =>
    if arenaPageCount < start + pageCount then none
    else
      match usedIn used start pageCount 0 with
      | some i => freeRunFrom used pageCount fuel (start + i + 1)
      | none => some start

/-! ## Records -/

def findTask (m : Machine) (pid : Nat) : Option AppTask :=
  if maxProcesses ≤ pid then none
  else if ¬ (m.tasks pid).inUse then none
  else some (m.tasks pid)

def groupLeaderPid (task : AppTask) : Nat :=
  if slotFirstPid ≤ task.leaderPid then task.leaderPid else task.pid

def releaseTask (m : Machine) (pid : Nat) : Machine :=
  { m.setTask pid .zero with
      pageUsed :=
        if (m.tasks pid).ownsMemory then
          releasePhysRange m.pageUsed (m.tasks pid).physBase (m.tasks pid).slotBytes
        else m.pageUsed }

/-- The test of `shell_apps_reap_terminated_tasks`. -/
def Reapable (m : Machine) (pid : Nat) : Prop :=
  (m.tasks pid).inUse ∧ (m.sched.state pid = .unused ∨ m.sched.state pid = .terminated) ∧
    ¬ (m.tasks pid).joinOnExit

instance (m : Machine) (pid : Nat) : Decidable (Reapable m pid) :=
  inferInstanceAs (Decidable (_ ∧ _ ∧ _))

def reapFrom : Nat → Nat → Machine → Machine
  | 0, _, m => m
  | n + 1, pid, m => reapFrom n (pid + 1) (if Reapable m pid then releaseTask m pid else m)

def reapTerminatedTasks (m : Machine) : Machine :=
  reapFrom (maxProcesses - slotFirstPid) slotFirstPid m

def freePidFrom (tasks : Nat → AppTask) : Nat → Nat → Option Nat
  | 0, _ => none
  | n + 1, pid => if ¬ (tasks pid).inUse then some pid else freePidFrom tasks n (pid + 1)

def findFreePid (m : Machine) : Machine × Option Nat :=
  (reapTerminatedTasks m,
    freePidFrom (reapTerminatedTasks m).tasks (maxProcesses - slotFirstPid) slotFirstPid)

/-- `shell_apps_allocate_phys_base` behind its reap, with 0 as `none`. -/
def allocatePages (m : Machine) (slotBytes : Nat) : Machine × Option Nat :=
  let bytes := alignUp slotBytes pageSize
  if bytes = 0 ∨ arenaSize < bytes then (m, none)
  else if bytes / pageSize = 0 ∨ arenaPageCount < bytes / pageSize then (m, none)
  else
    match freeRunFrom m.pageUsed (bytes / pageSize) (arenaPageCount + 1) 0 with
    | none => (m, none)
    | some start =>
      ({ m with pageUsed := markPages m.pageUsed start (bytes / pageSize) true },
        some (arenaPhysBase + start * pageSize))

def allocatePhysBase (m : Machine) (slotBytes : Nat) : Machine × Option Nat :=
  allocatePages (reapTerminatedTasks m) slotBytes

/-- The record `shell_apps_prepare_app_task` writes. -/
def preparedTask (background : Bool) (pid physBase slotBytes : Nat) (built : Bool) : AppTask where
  inUse := true
  pid := pid
  leaderPid := pid
  background := background
  joinOnExit := !background
  ownsMemory := true
  physBase := physBase
  slotBytes := alignUp slotBytes pageSize
  directory := if built then some (physBase, alignUp slotBytes pageSize) else none

/-- The record `shell_apps_clone_background_task` writes for a thread of `src`. -/
def clonedTask (src : AppTask) (pid : Nat) (built : Bool) : AppTask :=
  { src with
      inUse := true
      pid := pid
      leaderPid := groupLeaderPid src
      ownsMemory := false
      joinOnExit := false
      directory := if built then some (src.physBase, src.slotBytes) else src.directory }

/-! ## System calls -/

def spawnAt (m : Machine) (stack pid : Nat) : Machine × Option Nat :=
  ({ m with sched := (spawnKernelTask m.sched stack (some pid)).1 },
    (spawnKernelTask m.sched stack (some pid)).2)

def terminateAt (m : Machine) (pid : Nat) : Machine :=
  { m with sched := (terminateProcess m.sched pid).1 }

/-- What becomes of a thread whose record is written, given the slot the scheduler found. -/
def startThread (m : Machine) (pid : Nat) : Option Nat → Machine × Option Nat
  | none => (releaseTask m pid, none)
  | some actualPid =>
    if actualPid = pid then (m, some pid) else (terminateAt (releaseTask m pid) actualPid, none)

/-- `shell_apps_spawn_app_thread`, the request read: the pid of the thread. -/
def spawnAppThread (m : Machine) (built : Bool) (stack : Nat) : Machine × Option Nat :=
  if ¬ (m.tasks m.sched.current).inUse ∨ ¬ (m.tasks m.sched.current).background then (m, none)
  else
    match (findFreePid m).2 with
    | none => ((findFreePid m).1, none)
    | some pid =>
      let m := (findFreePid m).1
      let m := m.setTask pid (clonedTask (m.tasks m.sched.current) pid built)
      if ¬ built then (releaseTask m pid, none)
      else startThread (spawnAt m stack pid).1 pid (spawnAt m stack pid).2

/-- One round of `shell_apps_release_group_members` with `terminate_first`. -/
def terminateMember (m : Machine) (leaderPid skipPid pid : Nat) : Machine :=
  if ¬ (m.tasks pid).inUse ∨ groupLeaderPid (m.tasks pid) ≠ leaderPid ∨
      (m.tasks pid).pid = skipPid then m
  else terminateAt m (m.tasks pid).pid

def terminateMembersFrom (leaderPid skipPid : Nat) : Nat → Nat → Machine → Machine
  | 0, _, m => m
  | n + 1, pid, m =>
    terminateMembersFrom leaderPid skipPid n (pid + 1) (terminateMember m leaderPid skipPid pid)

def terminateMembers (m : Machine) (leaderPid skipPid : Nat) : Machine :=
  terminateMembersFrom leaderPid skipPid (maxProcesses - slotFirstPid) slotFirstPid m

/-- `shell_apps_on_current_task_exit`. -/
def onCurrentTaskExit (m : Machine) : Machine :=
  match findTask m m.sched.current with
  | none => m
  | some task =>
    if task.pid = groupLeaderPid task then terminateMembers m (groupLeaderPid task) task.pid else m

/-- `shell_apps_on_current_task_fault`. -/
def onCurrentTaskFault (m : Machine) : Machine :=
  match findTask m m.sched.current with
  | none => m
  | some task => terminateMembers m (groupLeaderPid task) task.pid

def exitFromInterrupt (m : Machine) (frame : Nat) : Machine :=
  { m with sched := (exitCurrentFromInterrupt m.sched frame).1 }

inductive AppEvent where
  | threadSpawn (built : Bool) (stack : Nat)
  | exit (frame : Nat)
  | fault (frame : Nat)
  deriving DecidableEq

def appStep (m : Machine) : AppEvent → Machine
  | .threadSpawn built stack => (spawnAppThread m built stack).1
  | .exit frame => exitFromInterrupt (onCurrentTaskExit m) frame
  | .fault frame => exitFromInterrupt (onCurrentTaskFault m) frame

/-! ## The shell -/

def videoStressMaxWorkers : Nat := 6

/-- The steps of the shell. An image needs `imageBytes` above the load address. -/
inductive ShellEvent where
  | reap
  | launch (background : Bool) (imageBytes : Nat)
  | allocate
  | prepare (built : Bool)
  | load (ok : Bool)
  | spawn (stack : Nat)
  | release
  | terminate
  | join
  | kill (pid : Nat)
  | killNext
  | videostress (workers : Nat)
  | stress (stack : Nat)
  deriving DecidableEq

def withShell (m : Machine) (shell : Shell) : Machine := { m with shell := shell }

/-- `shell_apps_find_free_pid` in a launch. -/
def chooseStep (m : Machine) (background : Bool) (imageBytes : Nat) : Machine :=
  if requiredSlotBytes imageBytes = 0 then m
  else
    match (findFreePid m).2 with
    | none => (findFreePid m).1
    | some pid => withShell (findFreePid m).1 (.chosen background (requiredSlotBytes imageBytes) pid)

/-- The launch with the pages it was given. -/
def takePages (background : Bool) (slotBytes pid : Nat) (pages : Machine × Option Nat) : Machine :=
  match pages.2 with
  | none => withShell pages.1 .idle
  | some physBase => withShell pages.1 (.allocated background slotBytes pid physBase)

def allocateStep (m : Machine) (background : Bool) (slotBytes pid : Nat) : Machine :=
  takePages background slotBytes pid (allocatePhysBase m slotBytes)

def prepareStep (m : Machine) (background : Bool) (slotBytes pid physBase : Nat) (built : Bool) :
    Machine :=
  withShell (m.setTask pid (preparedTask background pid physBase slotBytes built))
    (if built then .prepared background pid else .failed pid)

/-- The launch after `scheduler_spawn_kernel_task` gave it the slot `actualPid`. -/
def spawnedShell (background : Bool) (pid : Nat) : Option Nat → Shell
  | none => .failed pid
  | some actualPid =>
    if actualPid = pid then (if background then .idle else .waiting pid)
    else .mismatched pid actualPid

def spawnStep (m : Machine) (background : Bool) (pid stack : Nat) : Machine :=
  withShell (spawnAt m stack pid).1 (spawnedShell background pid (spawnAt m stack pid).2)

/-- `shell_apps_stop_background` from its reap up to its loop. -/
def killGroup (m : Machine) (pid : Nat) : Machine :=
  match findTask m pid with
  | none => m
  | some task =>
    if groupLeaderPid task < slotFirstPid then m
    else withShell m (.killing (groupLeaderPid task) slotFirstPid)

def killStep (m : Machine) (pid : Nat) : Machine := killGroup (reapTerminatedTasks m) pid

def killNextStep (m : Machine) (leaderPid next : Nat) : Machine :=
  if next < maxProcesses then
    withShell (terminateMember m leaderPid leaderPid next) (.killing leaderPid (next + 1))
  else withShell (terminateAt m leaderPid) .idle

def stressedShell (left : Nat) : Option Nat → Shell
  | none => .idle
  | some _ => .stressing left

def stressStep (m : Machine) (left stack : Nat) : Machine :=
  { m with
      sched := (spawnKernelTask m.sched stack none).1
      shell := stressedShell left (spawnKernelTask m.sched stack none).2 }

def processDead (m : Machine) (pid : Nat) : Prop :=
  m.sched.state pid = .unused ∨ m.sched.state pid = .terminated

instance (m : Machine) (pid : Nat) : Decidable (processDead m pid) :=
  inferInstanceAs (Decidable (_ ∨ _))

def shellStep (m : Machine) : ShellEvent → Option Machine
  | .reap => if m.shell = .idle then some (reapTerminatedTasks m) else none
  | .launch background imageBytes =>
    if m.shell = .idle then some (chooseStep m background imageBytes) else none
  | .allocate =>
    match m.shell with
    | .chosen background slotBytes pid => some (allocateStep m background slotBytes pid)
    | _ => none
  | .prepare built =>
    match m.shell with
    | .allocated background slotBytes pid physBase =>
      some (prepareStep m background slotBytes pid physBase built)
    | _ => none
  | .load ok =>
    match m.shell with
    | .prepared background pid =>
      some (withShell m (if ok then .loaded background pid else .failed pid))
    | _ => none
  | .spawn stack =>
    match m.shell with
    | .loaded background pid => some (spawnStep m background pid stack)
    | _ => none
  | .release =>
    match m.shell with
    | .failed pid => some (withShell (releaseTask m pid) .idle)
    | .mismatched pid actualPid => some (withShell (releaseTask m pid) (.released actualPid))
    | _ => none
  | .terminate =>
    match m.shell with
    | .released actualPid => some (withShell (terminateAt m actualPid) .idle)
    | _ => none
  | .join =>
    match m.shell with
    | .waiting pid =>
      if processDead m pid then some (withShell (releaseTask m pid) .idle) else none
    | _ => none
  | .kill pid => if m.shell = .idle then some (killStep m pid) else none
  | .killNext =>
    match m.shell with
    | .killing leaderPid next => some (killNextStep m leaderPid next)
    | _ => none
  | .videostress workers =>
    if m.shell = .idle then some (withShell m (.stressing (min workers videoStressMaxWorkers)))
    else none
  | .stress stack =>
    match m.shell with
    | .stressing 0 => some (withShell m .idle)
    | .stressing (left + 1) => some (stressStep m left stack)
    | _ => none

/-! ## Runs -/

inductive Event where
  | tick (frame : Nat)
  | yield (frame : Nat)
  | sleep (ticks : UInt32)
  | ended
  | app (e : AppEvent)
  | shell (e : ShellEvent)
  deriving DecidableEq

/-- The current slot runs a task of the given kind. -/
def Executing (m : Machine) : Prop := m.sched.state m.sched.current = .running

instance (m : Machine) : Decidable (Executing m) := inferInstanceAs (Decidable (_ = _))

def currentDirectory (m : Machine) : Option Nat := (m.sched.slots m.sched.current).pageDirectory

/-- The entry function of the current task returns: that of a kernel task, or that of an app task
that finds its record zeroed. -/
def Returns (m : Machine) : Prop :=
  Executing m ∧ slotFirstPid ≤ m.sched.current ∧
    ∀ r ∈ currentDirectory m, ¬ (m.tasks r).inUse

instance (m : Machine) : Decidable (Returns m) := inferInstanceAs (Decidable (_ ∧ _ ∧ _))

/-- One step: interrupts, the task that runs, or the shell, which is the boot task. -/
def step (m : Machine) : Event → Option Machine
  | .tick frame => some { m with sched := (onTimerTick m.sched frame).1 }
  | .yield frame => some { m with sched := (onYield m.sched frame).1 }
  | .sleep ticks =>
    if Executing m ∧ m.sched.current ≠ idlePid ∧ ticks ≠ 0 then
      some { m with sched := sleepTicks m.sched ticks }
    else none
  | .ended => if Returns m then some { m with sched := exitCurrent m.sched } else none
  | .app e => if Executing m ∧ (currentDirectory m).isSome then some (appStep m e) else none
  | .shell e => if Executing m ∧ m.sched.current = bootPid then shellStep m e else none

def boot (stack quantumTicks : Nat) (ticks : UInt32) : Machine where
  sched := Sched.enablePreemption (runtimeInit stack ticks) quantumTicks
  tasks _ := .zero
  pageUsed _ := false
  shell := .idle

end Apps
end MiniDos
