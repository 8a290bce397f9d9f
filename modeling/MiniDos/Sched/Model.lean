import MiniDos.Lib.Transition

/-!
# MiniDos.Sched.Model

The scheduler of `scheduler.c`: a table of eight slots, slot 0 for the boot task and slot 1 for the
idle task, and a current slot. Ticks and yields switch by a circular scan from the current slot.
Names, stacks and user registers take no part in any decision and are left out; a frame is the
address the interrupt stub handed in.
-/

namespace MiniDos
namespace Sched

def maxProcesses : Nat := 8
def bootPid : Nat := 0
def idlePid : Nat := 1
def externalPidMin : Nat := 3
def defaultQuantum : Nat := 5

inductive ProcState where
  | unused
  | ready
  | running
  | blocked
  | terminated
  deriving DecidableEq

/-- A slot of the table. The page directory is that of the kernel (`none`) or the one in the record
of an app task; a frame that is `none` is a null pointer. -/
structure Slot where
  state : ProcState
  irqFrame : Option Nat
  pageDirectory : Option Nat
  wakeTick : UInt32
  runtimeTicks : Nat
  switchCount : Nat
  deriving DecidableEq

/-- The globals of the scheduler once it is initialised, the timer, and a log of the slots activated
so far with the state each was found in, newest first, which nothing reads. -/
structure State where
  slots : Nat → Slot
  current : Nat
  preemption : Bool
  quantum : Nat
  sliceLeft : Nat
  ticks : UInt32
  activations : List (Nat × ProcState)

namespace State

def setSlot (s : State) (i : Nat) (slot : Slot) : State :=
  { s with slots := fun k => if k = i then slot else s.slots k }

def state (s : State) (i : Nat) : ProcState := (s.slots i).state

def setState (s : State) (i : Nat) (st : ProcState) : State :=
  s.setSlot i { s.slots i with state := st }

end State

/-! ## Slots -/

/-- `sched_mark_terminated`. -/
def markTerminated (s : State) (i : Nat) : State :=
  s.setSlot i { s.slots i with state := .terminated, wakeTick := 0, pageDirectory := none }

/-- `sched_reset_slot`. -/
def resetSlot (st : ProcState) : Slot := ⟨st, none, none, 0, 0, 0⟩

/-- `sched_find_free_slot_from`: the slots from `i` on, with `n` left. -/
def freeFrom (s : State) : Nat → Nat → Option Nat
  | 0, _ => none
  | n + 1, i =>
    if s.state i = .unused ∨ s.state i = .terminated then some i else freeFrom s n (i + 1)

def findFreeSlotFrom (s : State) (firstPid : Nat) : Option Nat :=
  let first := if firstPid < idlePid + 1 then idlePid + 1 else firstPid
  freeFrom s (maxProcesses - first) first

/-- `sched_spawn_kernel_thread_internal`, with a name and an entry; `stack` is the address of the
frame that `sched_prepare_kernel_thread` builds. -/
def spawnInternal (s : State) (stack : Nat) (pageDirectory : Option Nat) (firstPid : Nat) :
    State × Option Nat :=
  match findFreeSlotFrom s firstPid with
  | none => (s, none)
  | some idx =>
    (s.setSlot idx { resetSlot .ready with irqFrame := some stack, pageDirectory := pageDirectory },
      some idx)

def spawnKernelTask (s : State) (stack : Nat) (pageDirectory : Option Nat) : State × Option Nat :=
  spawnInternal s stack pageDirectory externalPidMin

def terminateProcess (s : State) (pid : Nat) : State × Bool :=
  if pid ≤ idlePid ∨ maxProcesses ≤ pid then (s, false)
  else if s.state pid = .unused ∨ s.state pid = .terminated then (s, false)
  else (markTerminated s pid, true)

/-! ## Switching -/

/-- The loop of `sched_find_ready_non_idle` from `step` on, with `n` steps left. -/
def readyFrom (s : State) : Nat → Nat → Option Nat
  | 0, _ => none
  | n + 1, step =>
    let idx := (s.current + step) % maxProcesses
    if idx = idlePid then readyFrom s n (step + 1)
    else if s.state idx = .ready then some idx
    else readyFrom s n (step + 1)

def findReadyNonIdle (s : State) : Option Nat := readyFrom s (maxProcesses - 1) 1

def pickNext (s : State) : Option Nat :=
  match findReadyNonIdle s with
  | some next => some next
  | none =>
    if s.state s.current = .running then some s.current
    else if s.state idlePid = .ready ∨ s.state idlePid = .running then some idlePid
    else none

/-- `sched_activate_slot`: the frame to return to. -/
def activateSlot (s : State) (next : Nat) : State × Option Nat :=
  let slot := s.slots next
  ({ s.setSlot next { slot with state := .running, switchCount := slot.switchCount + 1 } with
      current := next
      sliceLeft := s.quantum
      activations := (next, slot.state) :: s.activations },
    slot.irqFrame)

/-- `cur->context.irq_frame = frame`. -/
def saveFrame (s : State) (frame : Nat) : State :=
  s.setSlot s.current { s.slots s.current with irqFrame := some frame }

/-- The current task goes on; one that was woken runs again. -/
def resumeCurrent (s : State) : State :=
  if s.state s.current = .ready then s.setState s.current .running else s

/-- The current task gives way; one that still runs can be picked again. -/
def demoteCurrent (s : State) : State :=
  if s.state s.current = .running then s.setState s.current .ready else s

def switchFromFrame (s : State) (frame : Nat) : State × Option Nat :=
  let s := saveFrame s frame
  match pickNext s with
  | none => (resumeCurrent s, none)
  | some next =>
    if next = s.current then (resumeCurrent s, none) else activateSlot (demoteCurrent s) next

/-- `sched_wake_sleepers`. -/
def wakeSleepers (s : State) (now : UInt32) : State :=
  { s with slots := fun i =>
      let slot := s.slots i
      if i < maxProcesses ∧ slot.state = .blocked ∧ ¬ (now - slot.wakeTick ≥ 0x80000000) then
        { slot with wakeTick := 0, state := .ready }
      else slot }

/-! ## Entry points -/

/-- `scheduler_runtime_init`; `stack` is the frame of the idle task. -/
def runtimeInit (stack : Nat) (ticks : UInt32) : State where
  slots i :=
    if i = bootPid then resetSlot .running
    else if i = idlePid then { resetSlot .ready with irqFrame := some stack }
    else resetSlot .unused
  current := bootPid
  preemption := false
  quantum := defaultQuantum
  sliceLeft := defaultQuantum
  ticks := ticks
  activations := []

def enablePreemption (s : State) (quantumTicks : Nat) : State :=
  let q := if quantumTicks = 0 then defaultQuantum else quantumTicks
  { s with quantum := q, sliceLeft := q, preemption := true }

def disablePreemption (s : State) : State :=
  { s with preemption := false, sliceLeft := s.quantum }

/-- `scheduler_on_timer_tick` up to the choice: the timer goes on, the tick is counted for the
current task, and sleepers are woken. -/
def tickSlots (s : State) : State :=
  wakeSleepers
    ({ s with ticks := s.ticks + 1 }.setSlot s.current
      { s.slots s.current with runtimeTicks := (s.slots s.current).runtimeTicks + 1 })
    (s.ticks + 1)

def onTimerTick (s : State) (frame : Nat) : State × Option Nat :=
  let s := tickSlots s
  let forcedNext := if s.current = idlePid then findReadyNonIdle s else none
  if ¬ s.preemption ∨ s.quantum = 0 then
    if forcedNext.isSome then switchFromFrame s frame else (s, none)
  else if forcedNext.isNone then
    let s := { s with sliceLeft := s.sliceLeft - 1 }
    if 0 < s.sliceLeft then (s, none)
    else switchFromFrame { s with sliceLeft := s.quantum } frame
  else switchFromFrame { s with sliceLeft := s.quantum } frame

def onYield (s : State) (frame : Nat) : State × Option Nat := switchFromFrame s frame

/-- `scheduler_sleep_ticks` up to its yield, for a positive number of ticks. -/
def sleepTicks (s : State) (ticks : UInt32) : State :=
  s.setSlot s.current { s.slots s.current with wakeTick := s.ticks + ticks, state := .blocked }

/-- `sched_exit_current` up to its yield. -/
def exitCurrent (s : State) : State := markTerminated s s.current

def exitCurrentFromInterrupt (s : State) (frame : Nat) : State × Option Nat :=
  let s := markTerminated (saveFrame s frame) s.current
  match pickNext s with
  | none => (s, none)
  | some next => activateSlot s next

/-! ## Runs -/

inductive Event where
  | tick (frame : Nat)
  | yield (frame : Nat)
  | sleep (ticks : UInt32)
  | spawn (stack : Nat) (pageDirectory : Option Nat) (firstPid : Nat)
  | exit
  | exitFromInterrupt (frame : Nat)
  | terminate (pid : Nat)
  | enablePreemption (quantumTicks : Nat)
  | disablePreemption
  deriving DecidableEq

/-- One step. The idle task only waits for interrupts, so it neither sleeps nor exits; a task is
terminated by another one. -/
def step (s : State) : Event → Option State
  | .tick frame => some (onTimerTick s frame).1
  | .yield frame => some (onYield s frame).1
  | .sleep ticks => if s.current = idlePid ∨ ticks = 0 then none else some (sleepTicks s ticks)
  | .spawn stack pageDirectory firstPid => some (spawnInternal s stack pageDirectory firstPid).1
  | .exit => if s.current = idlePid then none else some (exitCurrent s)
  | .exitFromInterrupt frame =>
    if s.current = idlePid then none else some (exitCurrentFromInterrupt s frame).1
  | .terminate pid => if pid = s.current then none else some (terminateProcess s pid).1
  | .enablePreemption quantumTicks => some (Sched.enablePreemption s quantumTicks)
  | .disablePreemption => some (Sched.disablePreemption s)

end Sched
end MiniDos
