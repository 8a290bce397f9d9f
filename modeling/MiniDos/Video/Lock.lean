import MiniDos.Sched.Model

/-!
# MiniDos.Video.Lock

The lock of `video.c` among the tasks of the scheduler: the shell, the workers of `videostress`, and
an app in the foreground. Kernel tasks draw with interrupts enabled. An app draws in its system
calls, and the kernel draws when the app faults; the gates are interrupt gates, so both run with
interrupts disabled, a system call until it enables them.

* `Code`: what a kernel path does with the lock and with the interrupt flag, between steps of
  drawing. Every video function is a row of sections, and none takes the lock twice.
* `act`: the current task goes one step on in its code, inside `video_lock` and `video_unlock` too.
* `step`: the steps of all tasks, and the ticks that come while interrupts are enabled.
* `Stuck`: the current task waits for another one that cannot run.
-/

namespace MiniDos
namespace Video
namespace Lock

inductive Act where
  | lock
  | work
  | unlock
  /-- `shell_apps_ensure_interrupts_enabled`. -/
  | sti
  deriving DecidableEq

abbrev Code := List Act

/-! ## Video functions -/

/-- A section with `n` steps of drawing. -/
def critical (n : Nat) : Code := .lock :: (List.replicate n .work ++ [.unlock])

def videoPresentPending (n : Nat) : Code := critical n

/-- How a call goes: whether it draws at all, its steps of drawing, whether presenting is deferred,
and the steps of presenting. -/
structure Course where
  draws : Bool
  steps : Nat
  deferred : Bool
  presented : Nat

def videoMaybePresentPending (c : Course) : Code :=
  critical 1 ++ if c.deferred then [] else videoPresentPending c.presented

/-- One section, and what it drew is presented. -/
def drawing (c : Course) : Code :=
  if c.draws then critical c.steps ++ videoMaybePresentPending c else []

def videoFillRectBatch (c : Course) : Code := drawing c
def videoBlitSurface (c : Course) : Code := drawing c
def videoDrawTextImpl (c : Course) : Code := drawing c

def videoClearColor (backbufferReady : Bool) (c : Course) : Code :=
  if backbufferReady then critical c.steps ++ critical 1 ++ videoMaybePresentPending c
  else critical c.steps ++ critical c.steps ++ critical 1

def videoSetDeferredPresent (enabled : Bool) (c : Course) : Code :=
  if c.draws then critical 1 ++ if enabled then [] else videoPresentPending c.presented else []

/-- The console: `render_cell`, `fill_rect_rgb`, `video_note_dirty` and the presents, a section
each. -/
def console (sections : List Nat) : Code := sections.flatMap critical

/-! ## System calls -/

/-- The calls of a foreground app that reach the screen, and the ways it ends. -/
inductive Syscall where
  | puts (sections : List Nat)
  | getChar (polls : List Nat)
  | getCharNonblock (presented : Nat)
  | getMouseState (presented : Nat)
  | waitEvent (presented : Nat)
  | getTicks (presented : Nat)
  | gfxClear (backbufferReady : Bool) (c : Course)
  | gfxRect (c : Course)
  | gfxRectBatch (c : Course)
  | gfxText (c : Course)
  | gfxTextClipped (c : Course)
  | gfxPresent (presented : Nat)
  | gfxSurfaceBlit (c : Course)
  | exit (c : Course)
  | other

def Syscall.code : Syscall → Code
  | .puts sections => console sections
  | .getChar polls => polls.flatMap (fun n => .sti :: videoPresentPending n)
  | .getCharNonblock n => .sti :: videoPresentPending n
  | .getMouseState n => .sti :: videoPresentPending n
  | .waitEvent n => .sti :: videoPresentPending n
  | .getTicks n => videoPresentPending n
  | .gfxClear backbufferReady c => videoClearColor backbufferReady c
  | .gfxRect c => videoFillRectBatch c
  | .gfxRectBatch c => videoFillRectBatch c
  | .gfxText c => videoDrawTextImpl c
  | .gfxTextClipped c => videoDrawTextImpl c
  | .gfxPresent n => videoPresentPending n
  | .gfxSurfaceBlit c => videoBlitSurface c
  | .exit c => videoSetDeferredPresent false c
  | .other => []

/-- `shell_apps_on_current_task_fault`: `shell_apps_end_foreground_graphics`, and a message. -/
def faultCode (c : Course) (sections : List Nat) : Code :=
  videoSetDeferredPresent false c ++ console sections

/-! ## Tasks -/

inductive Kind where
  | shell
  | worker
  | app
  /-- The idle task, and slots without a task. -/
  | none
  deriving DecidableEq

/-- Where a task is in `video_lock` and `video_unlock`. -/
inductive Stage where
  | between
  /-- In the loop of `video_lock`. -/
  | spinning
  /-- The flag is taken, and the owner is not written yet. -/
  | claimed
  /-- The owner is cleared, and the flag is not released yet. -/
  | cleared
  deriving DecidableEq

/-- A task: whether it is in user mode, its interrupt flag, and what is left of its code. -/
structure Task where
  kind : Kind
  user : Bool
  interrupts : Bool
  stage : Stage
  code : Code

def Task.fresh (kind : Kind) (code : Code) : Task := ⟨kind, false, true, .between, code⟩

/-- Outside of the video functions. -/
def Task.Rests (t : Task) : Prop := t.stage = .between ∧ t.code = []

instance (t : Task) : Decidable t.Rests := inferInstanceAs (Decidable (_ ∧ _))

/-- `g_video_lock_owner` is `none` for `VIDEO_LOCK_OWNER_NONE`. -/
structure Machine where
  sched : Sched.State
  flag : Bool
  owner : Option Nat
  depth : Int
  tasks : Nat → Task

namespace Machine

def current (m : Machine) : Nat := m.sched.current

def self (m : Machine) : Task := m.tasks m.current

def setTask (m : Machine) (p : Nat) (t : Task) : Machine :=
  { m with tasks := fun q => if q = p then t else m.tasks q }

def setSelf (m : Machine) (t : Task) : Machine := m.setTask m.current t

/-- From user mode through an interrupt gate. -/
def enterGate (m : Machine) (code : Code) : Machine :=
  m.setSelf { m.self with user := false, interrupts := false, code := code }

@[simp] theorem self_setSelf (m : Machine) (t : Task) : (m.setSelf t).self = t := if_pos rfl

/-- The current task is in the kernel, outside of the video functions, and can be interrupted. -/
def Idles (m : Machine) : Prop := m.self.Rests ∧ m.self.user = false ∧ m.self.interrupts = true

instance (m : Machine) : Decidable m.Idles := inferInstanceAs (Decidable (_ ∧ _))

/-- The current task goes one step on in its code. -/
def act (m : Machine) : Option Machine :=
  let t := m.self
  match t.stage, t.code with
  | .between, .lock :: code =>
    if m.owner = some m.current then
      some ({ m with depth := m.depth + 1 }.setSelf { t with code := code })
    else some (m.setSelf { t with stage := .spinning })
  | .spinning, .lock :: _ =>
    -- The exchange leaves a flag that is set as it is.
    if m.flag then some m else some ({ m with flag := true }.setSelf { t with stage := .claimed })
  | .claimed, .lock :: code =>
    some ({ m with owner := some m.current, depth := 1 }.setSelf
      { t with stage := .between, code := code })
  | .between, .unlock :: code =>
    if m.owner ≠ some m.current then some (m.setSelf { t with code := code })
    else if m.depth - 1 = 0 then
      some ({ m with owner := none, depth := m.depth - 1 }.setSelf { t with stage := .cleared })
    else some ({ m with depth := m.depth - 1 }.setSelf { t with code := code })
  | .cleared, .unlock :: code =>
    some ({ m with flag := false }.setSelf { t with stage := .between, code := code })
  | .between, .work :: code => some (m.setSelf { t with code := code })
  | .between, .sti :: code => some (m.setSelf { t with interrupts := true, code := code })
  | _, _ => none

def spawned (m : Machine) (t : Task) : Sched.State × Option Nat → Machine
  | (sched, some pid) => { m with sched := sched }.setTask pid t
  | (sched, none) => { m with sched := sched }

end Machine

/-! ## Runs -/

inductive Event where
  | tick (frame : Nat)
  /-- `scheduler_yield` in the kernel. -/
  | yield (frame : Nat)
  | threadYield (frame : Nat)
  | spawnWorker (stack : Nat)
  /-- An app starts with `shell_apps_begin_foreground_graphics`. -/
  | spawnApp (stack pageDirectory : Nat) (sections : List Nat) (c : Course)
  /-- `scheduler_enter_current_user_mode`, and the return from a system call. -/
  | enterUser
  | syscall (call : Syscall)
  /-- An exception in user mode. -/
  | fault (c : Course) (sections : List Nat)
  /-- A worker draws a rectangle. -/
  | videoFillRect (c : Course)
  /-- The shell draws. -/
  | shellDraws (sections : List Nat)
  | act
  | exit
  | exitFromInterrupt (frame : Nat)

open Machine

/-- One step. The shell starts an app when there is none. A task that marked itself as terminated
goes on to yield, and draws no more. -/
def step (m : Machine) : Event → Option Machine
  | .tick frame =>
    if m.self.interrupts then some { m with sched := (Sched.onTimerTick m.sched frame).1 } else none
  | .yield frame =>
    if m.Idles then some { m with sched := (Sched.onYield m.sched frame).1 } else none
  | .threadYield frame =>
    if m.self.user then some { m with sched := (Sched.onYield m.sched frame).1 } else none
  | .spawnWorker stack =>
    if m.Idles ∧ m.self.kind = .shell then
      some (m.spawned (.fresh .worker []) (Sched.spawnKernelTask m.sched stack none))
    else none
  | .spawnApp stack pageDirectory sections c =>
    if m.Idles ∧ m.self.kind = .shell ∧ ∀ p < Sched.maxProcesses, (m.tasks p).kind ≠ .app then
      some (m.spawned (.fresh .app (console sections ++ videoSetDeferredPresent true c))
        (Sched.spawnKernelTask m.sched stack (some pageDirectory)))
    else none
  | .enterUser =>
    if m.self.Rests ∧ m.self.user = false ∧ m.self.kind = .app ∧
        m.sched.state m.current = .running then
      some (m.setSelf { m.self with user := true, interrupts := true })
    else none
  | .syscall call => if m.self.user then some (m.enterGate call.code) else none
  | .fault c sections => if m.self.user then some (m.enterGate (faultCode c sections)) else none
  | .videoFillRect c =>
    if m.Idles ∧ m.self.kind = .worker ∧ m.sched.state m.current = .running then
      some (m.setSelf { m.self with code := videoFillRectBatch c })
    else none
  | .shellDraws sections =>
    if m.Idles ∧ m.self.kind = .shell ∧ m.sched.state m.current = .running then
      some (m.setSelf { m.self with code := console sections })
    else none
  | .act => m.act
  | .exit =>
    if m.Idles ∧ m.self.kind = .worker then
      some { m with sched := Sched.exitCurrent m.sched }
    else none
  | .exitFromInterrupt frame =>
    if m.self.Rests ∧ m.self.user = false ∧ m.self.kind = .app then
      some { m.setSelf (.fresh .none []) with
        sched := (Sched.exitCurrentFromInterrupt m.sched frame).1 }
    else none

/-- The main loop of the shell is about to start. -/
def start (stack : Nat) (ticks : UInt32) : Machine where
  sched := Sched.enablePreemption (Sched.runtimeInit stack ticks) 5
  flag := false
  owner := none
  depth := 0
  tasks p := .fresh (if p = Sched.bootPid then .shell else .none) []

/-! ## What may go wrong -/

/-- The task took the flag and has not released it. -/
def Machine.Holds (m : Machine) (p : Nat) : Prop :=
  (m.tasks p).stage = .claimed ∨ (m.tasks p).stage = .cleared ∨ m.owner = some p

/-- The current task spins with interrupts disabled, and the lock is held by another task, which
was preempted. -/
def Stuck (m : Machine) : Prop :=
  m.self.stage = .spinning ∧ m.self.interrupts = false ∧ m.flag = true ∧
    ∃ p, p ≠ m.current ∧ m.Holds p

/-- The lock is taken before interrupts are enabled. -/
def blindLock : Code → Bool
  | [] => false
  | .lock :: _ => true
  | .sti :: _ => false
  | _ :: code => blindLock code

/-- What an event starts with interrupts disabled. -/
def Event.gate : Event → Option Code
  | .syscall call => some call.code
  | .fault c sections => some (faultCode c sections)
  | _ => none

/-- The lock is free when the app comes through a gate to code that takes it with interrupts
disabled. -/
def FreeAtGate (m : Machine) (e : Event) : Prop :=
  ∀ code, e.gate = some code → blindLock code = true → m.flag = false

instance (m : Machine) (e : Event) : Decidable (FreeAtGate m e) :=
  match hgate : e.gate with
  | some code =>
    decidable_of_iff (blindLock code = true → m.flag = false)
      ⟨fun h c hc => by rw [hgate] at hc; cases hc; exact h, fun h => h code hgate⟩
  | none => isTrue (fun c hc => by rw [hgate] at hc; cases hc)

end Lock
end Video
end MiniDos
