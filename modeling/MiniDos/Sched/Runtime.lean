import MiniDos.Sched.Invariant

/-!
# MiniDos.Sched.Runtime

The runtime counters of `scheduler.c` and the snapshots that list them. A tick counts for the
current slot, and a slot starts at 0 with every task spawned in it; nothing else touches a counter.
The counters are kept as numbers here; the snapshot reads the 32 bits that the machine has of them.
-/

namespace MiniDos
namespace Sched

open Transition

def State.runtime (s : State) (i : Nat) : Nat := (s.slots i).runtimeTicks

def started (s : State) : Event → Option Nat
  | .spawn stack pageDirectory firstPid => (spawnInternal s stack pageDirectory firstPid).2
  | _ => none

/-! ## Counters -/

section Counters

variable (s : State) (i : Nat)

theorem runtime_setSlot (k : Nat) (slot : Slot) :
    (s.setSlot k slot).runtime i = if i = k then slot.runtimeTicks else s.runtime i := by
  by_cases h : i = k
  · simp [State.runtime, State.setSlot, h]
  · simp [State.runtime, State.setSlot, h]

theorem runtime_setSlot_same {k : Nat} {slot : Slot} (h : slot.runtimeTicks = s.runtime k) :
    (s.setSlot k slot).runtime i = s.runtime i := by
  rw [runtime_setSlot]
  split
  case isTrue hi => rw [h, hi]
  case isFalse => rfl

@[simp] theorem runtime_setState (k : Nat) (st : ProcState) :
    (s.setState k st).runtime i = s.runtime i := runtime_setSlot_same s i rfl

@[simp] theorem runtime_saveFrame (frame : Nat) : (saveFrame s frame).runtime i = s.runtime i :=
  runtime_setSlot_same s i rfl

@[simp] theorem runtime_markTerminated (k : Nat) : (markTerminated s k).runtime i = s.runtime i :=
  runtime_setSlot_same s i rfl

@[simp] theorem runtime_sleepTicks (ticks : UInt32) : (sleepTicks s ticks).runtime i = s.runtime i :=
  runtime_setSlot_same s i rfl

@[simp] theorem runtime_resumeCurrent : (resumeCurrent s).runtime i = s.runtime i := by
  unfold resumeCurrent
  split
  · exact runtime_setState s i _ _
  · rfl

@[simp] theorem runtime_demoteCurrent : (demoteCurrent s).runtime i = s.runtime i := by
  unfold demoteCurrent
  split
  · exact runtime_setState s i _ _
  · rfl

@[simp] theorem runtime_activateSlot (next : Nat) : (activateSlot s next).1.runtime i = s.runtime i :=
  runtime_setSlot_same s i rfl

@[simp] theorem runtime_wakeSleepers (now : UInt32) :
    (wakeSleepers s now).runtime i = s.runtime i := by
  simp only [State.runtime, wakeSleepers]
  split <;> rfl

@[simp] theorem runtime_switchFromFrame (frame : Nat) :
    (switchFromFrame s frame).1.runtime i = s.runtime i := by
  obtain he | ⟨next, -, -, he⟩ := switchFromFrame_cases s frame
  · simp [he]
  · simp [he]

@[simp] theorem runtime_exitFromInterrupt (frame : Nat) :
    (exitCurrentFromInterrupt s frame).1.runtime i = s.runtime i := by
  unfold exitCurrentFromInterrupt
  simp only
  split
  · simp
  · simp

theorem runtime_tickSlots :
    (tickSlots s).runtime i = s.runtime i + if i = s.current then 1 else 0 := by
  rw [tickSlots, runtime_wakeSleepers, runtime_setSlot]
  split
  case isTrue h => rw [h]; rfl
  case isFalse => rfl

theorem runtime_onTimerTick (frame : Nat) :
    (onTimerTick s frame).1.runtime i = s.runtime i + if i = s.current then 1 else 0 := by
  rw [← runtime_tickSlots]
  obtain ⟨q, he | he⟩ := onTimerTick_cases s frame
  · rw [he]
    rfl
  · rw [he, runtime_switchFromFrame]
    rfl

theorem runtime_terminateProcess (pid : Nat) :
    (terminateProcess s pid).1.runtime i = s.runtime i := by
  unfold terminateProcess
  split
  · rfl
  · split
    · rfl
    · exact runtime_markTerminated s i pid

theorem runtime_spawn (stack : Nat) (pageDirectory : Option Nat) (firstPid : Nat) :
    (spawnInternal s stack pageDirectory firstPid).1.runtime i =
      if (spawnInternal s stack pageDirectory firstPid).2 = some i then 0 else s.runtime i := by
  unfold spawnInternal
  cases findFreeSlotFrom s firstPid with
  | none => simp
  | some idx =>
    simp only [runtime_setSlot, Option.some.injEq, eq_comm (a := i)]
    rfl

end Counters

/-- The counter of a slot behind a step. -/
theorem runtime_step {s s' : State} {e : Event} (hstep : step s e = some s') (i : Nat) :
    (started s e = some i → s'.runtime i = 0) ∧
      (started s e ≠ some i → s.runtime i ≤ s'.runtime i) := by
  cases e with
  | tick frame =>
    cases hstep
    simp [started, runtime_onTimerTick]
  | yield frame =>
    cases hstep
    simp [started, onYield]
  | sleep ticks =>
    simp only [step] at hstep
    split at hstep
    · cases hstep
    · cases hstep
      simp [started]
  | spawn stack pageDirectory firstPid =>
    cases hstep
    constructor
    · intro h
      exact (runtime_spawn s i stack pageDirectory firstPid).trans (if_pos h)
    · intro h
      exact Nat.le_of_eq ((runtime_spawn s i stack pageDirectory firstPid).trans (if_neg h)).symm
  | exit =>
    simp only [step] at hstep
    split at hstep
    · cases hstep
    · cases hstep
      simp [started, exitCurrent]
  | exitFromInterrupt frame =>
    simp only [step] at hstep
    split at hstep
    · cases hstep
    · cases hstep
      simp [started]
  | terminate pid =>
    simp only [step] at hstep
    split at hstep
    · cases hstep
    · cases hstep
      simp [started, runtime_terminateProcess]
  | enablePreemption quantumTicks =>
    cases hstep
    refine ⟨fun h => ?_, fun _ => Nat.le_refl _⟩
    cases h
  | disablePreemption =>
    cases hstep
    refine ⟨fun h => ?_, fun _ => Nat.le_refl _⟩
    cases h

/-! ## What a task has run since -/

/-- A step, beside the counter that each slot's own task had at the start: 0 for a task that was
spawned since. -/
def stepSince (p : State × (Nat → Nat)) (e : Event) : Option (State × (Nat → Nat)) :=
  (step p.1 e).map fun s' =>
    (s', fun i => if started p.1 e = some i then 0 else p.2 i)

/-- The scheduler from `s₁` to `s₂`, and what each slot's own task stood at in `s₁`. -/
def RunsSince (s₁ : State) (es : List Event) (s₂ : State) (base : Nat → Nat) : Prop :=
  run stepSince (s₁, s₁.runtime) es = some (s₂, base)

theorem RunsSince.base_le {s₁ s₂ : State} {es : List Event} {base : Nat → Nat}
    (h : RunsSince s₁ es s₂ base) (i : Nat) : base i ≤ s₂.runtime i := by
  have hone : ∀ (p : State × (Nat → Nat)) (e : Event) (p' : State × (Nat → Nat)),
      p.2 i ≤ p.1.runtime i → stepSince p e = some p' → p'.2 i ≤ p'.1.runtime i := by
    intro p e p' hp hstep
    obtain ⟨s', hs', rfl⟩ := Option.map_eq_some_iff.mp hstep
    obtain ⟨hnew, hkept⟩ := runtime_step hs' i
    by_cases hi : started p.1 e = some i
    · simp [hi]
    · simp only [hi, if_false]
      exact Nat.le_trans hp (hkept hi)
  exact run_invariant_all hone es _ _ (Nat.le_refl _) h

/-! ## Snapshots -/

/-- `scheduler_process_snapshot_t`, short of the names and the addresses of the stack. -/
structure Snapshot where
  pid : Nat
  state : ProcState
  isCurrent : Bool
  wakeTick : UInt32
  runtimeTicks : UInt32
  switchCount : UInt32
  deriving DecidableEq

def snapOf (s : State) (idx : Nat) : Snapshot where
  pid := idx
  state := s.state idx
  isCurrent := idx == s.current
  wakeTick := (s.slots idx).wakeTick
  runtimeTicks := UInt32.ofNat (s.runtime idx)
  switchCount := UInt32.ofNat (s.slots idx).switchCount

/-- The loop of `scheduler_snapshot_processes` from `idx` on: `n` slots are left, and `room` rows. -/
def snapshotFrom (s : State) (includeTerminated : Bool) : Nat → Nat → Nat → List Snapshot
  | 0, _, _ => []
  | n + 1, idx, room =>
    if room = 0 then []
    else if s.state idx = .unused then snapshotFrom s includeTerminated n (idx + 1) room
    else if includeTerminated = false ∧ s.state idx = .terminated then
      snapshotFrom s includeTerminated n (idx + 1) room
    else snapOf s idx :: snapshotFrom s includeTerminated n (idx + 1) (room - 1)

def snapshotProcesses (s : State) (maxOut : Nat) (includeTerminated : Bool) : List Snapshot :=
  snapshotFrom s includeTerminated maxProcesses 0 maxOut

/-- The slots that a snapshot without terminated tasks lists. -/
def rows (s : State) : List Nat :=
  (List.range maxProcesses).filter fun i =>
    decide (s.state i ≠ .unused ∧ s.state i ≠ .terminated)

theorem snapshotFrom_eq (s : State) : ∀ n idx room, n ≤ room → snapshotFrom s false n idx room =
    ((List.range' idx n).filter fun i =>
      decide (s.state i ≠ .unused ∧ s.state i ≠ .terminated)).map (snapOf s)
  | 0, _, _, _ => rfl
  | n + 1, idx, room, hroom => by
    rw [List.range'_succ, snapshotFrom, if_neg (by omega),
      snapshotFrom_eq s n (idx + 1) room (by omega),
      snapshotFrom_eq s n (idx + 1) (room - 1) (by omega)]
    by_cases hunused : s.state idx = .unused
    · simp [hunused]
    · by_cases hended : s.state idx = .terminated
      · simp [hended]
      · simp [hunused, hended]

theorem snapshotProcesses_eq (s : State) {maxOut : Nat} (h : maxProcesses ≤ maxOut) :
    snapshotProcesses s maxOut false = (rows s).map (snapOf s) := by
  rw [snapshotProcesses, snapshotFrom_eq s _ _ _ h, rows, List.range_eq_range']

theorem rows_length (s : State) : (rows s).length ≤ maxProcesses := by
  have h := List.length_filter_le
    (fun i => decide (s.state i ≠ .unused ∧ s.state i ≠ .terminated)) (List.range maxProcesses)
  rwa [List.length_range] at h

end Sched
end MiniDos
