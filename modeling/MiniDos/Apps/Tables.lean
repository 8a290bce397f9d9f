import MiniDos.Lib.Scan
import MiniDos.Sched.Occupant
import MiniDos.Apps.Model

/-!
# MiniDos.Apps.Tables

The record table against the slots of the scheduler. Both hand out the lowest free index from 3 on,
but a record is free when it is not in use, a slot when it holds no task.

* `reap_induction`, `reap_tasks`: what the reaper does.
* `free_pid_agrees_iff`: when both tables give the same index.
-/

namespace MiniDos
namespace Apps

open Sched Scan Transition

variable {i : Nat}

section Fields

variable (m : Machine) (pid : Nat)

@[simp] theorem setTask_self (task : AppTask) : (m.setTask pid task).tasks pid = task := by
  simp [Machine.setTask]

theorem setTask_of_ne (task : AppTask) (h : i ≠ pid) :
    (m.setTask pid task).tasks i = m.tasks i := by
  simp [Machine.setTask, h]

@[simp] theorem setTask_sched (task : AppTask) : (m.setTask pid task).sched = m.sched := rfl
@[simp] theorem setTask_shell (task : AppTask) : (m.setTask pid task).shell = m.shell := rfl
@[simp] theorem setTask_pageUsed (task : AppTask) :
    (m.setTask pid task).pageUsed = m.pageUsed := rfl
@[simp] theorem releaseTask_sched : (releaseTask m pid).sched = m.sched := rfl
@[simp] theorem releaseTask_shell : (releaseTask m pid).shell = m.shell := rfl
@[simp] theorem releaseTask_self : (releaseTask m pid).tasks pid = .zero := by
  simp [releaseTask, Machine.setTask]

theorem releaseTask_of_ne (h : i ≠ pid) : (releaseTask m pid).tasks i = m.tasks i := by
  simp [releaseTask, Machine.setTask, h]

end Fields

/-! ## The reaper -/

section Reaper

variable {m : Machine}

theorem reap_induction {P : Machine → Prop}
    (hstep : ∀ m i, P m → slotFirstPid ≤ i → i < maxProcesses → Reapable m i → P (releaseTask m i))
    (h : P m) : P (reapTerminatedTasks m) := by
  have loop : ∀ n pid m, slotFirstPid ≤ pid → pid + n ≤ maxProcesses → P m →
      P (reapFrom n pid m) := by
    intro n
    induction n with
    | zero => exact fun _ _ _ _ h => h
    | succ n ih =>
      intro pid m hlow hhigh h
      refine ih (pid + 1) _ (by omega) (by omega) ?_
      by_cases hr : Reapable m pid
      · rw [if_pos hr]
        exact hstep m pid h hlow (by omega) hr
      · rw [if_neg hr]
        exact h
  exact loop _ _ m (Nat.le_refl _) (Nat.le_refl _) h

@[simp] theorem reap_sched (m : Machine) : (reapTerminatedTasks m).sched = m.sched :=
  reap_induction (P := fun m' => m'.sched = m.sched) (fun _ _ h _ _ _ => h) rfl

@[simp] theorem reap_shell (m : Machine) : (reapTerminatedTasks m).shell = m.shell :=
  reap_induction (P := fun m' => m'.shell = m.shell) (fun _ _ h _ _ _ => h) rfl

theorem reapFrom_tasks (n : Nat) : ∀ (pid i : Nat) (m : Machine), (reapFrom n pid m).tasks i =
    if pid ≤ i ∧ i < pid + n ∧ Reapable m i then .zero else m.tasks i := by
  induction n with
  | zero =>
    intro pid i m
    rw [if_neg (by omega)]
    rfl
  | succ n ih =>
    intro pid i m
    simp only [reapFrom, ih]
    by_cases hr : Reapable m pid
    · rw [if_pos hr]
      by_cases hi : i = pid
      · rw [if_neg (by omega), if_pos ⟨by omega, by omega, hi ▸ hr⟩, hi, releaseTask_self]
      · have hsame : Reapable (releaseTask m pid) i ↔ Reapable m i := by
          simp only [Reapable, releaseTask_of_ne _ _ hi, releaseTask_sched]
        simp only [hsame, releaseTask_of_ne _ _ hi]
        by_cases hin : pid ≤ i ∧ i < pid + (n + 1) ∧ Reapable m i
        · rw [if_pos hin, if_pos ⟨by omega, by omega, hin.2.2⟩]
        · rw [if_neg hin, if_neg (fun h => hin ⟨by omega, by omega, h.2.2⟩)]
    · rw [if_neg hr]
      by_cases hin : pid ≤ i ∧ i < pid + (n + 1) ∧ Reapable m i
      · have hi : i ≠ pid := fun e => hr (e ▸ hin.2.2)
        rw [if_pos hin, if_pos ⟨by omega, by omega, hin.2.2⟩]
      · rw [if_neg hin, if_neg (fun h => hin ⟨by omega, by omega, h.2.2⟩)]

theorem reap_tasks (m : Machine) (i : Nat) : (reapTerminatedTasks m).tasks i =
    if slotFirstPid ≤ i ∧ i < maxProcesses ∧ Reapable m i then .zero else m.tasks i :=
  reapFrom_tasks (maxProcesses - slotFirstPid) slotFirstPid i m

theorem reap_tasks_of_live {d : Option Nat} (h : occupant m.sched i = .live d) :
    (reapTerminatedTasks m).tasks i = m.tasks i := by
  rw [reap_tasks, if_neg]
  exact fun hr => not_live_iff.mpr hr.2.2.2.1 d h

end Reaper

/-! ## The search for a pid -/

theorem freePidFrom_eq (tasks : Nat → AppTask) (n pid : Nat) :
    freePidFrom tasks n pid = firstFrom (fun i => !(tasks i).inUse) n pid := by
  induction n generalizing pid with
  | zero => rfl
  | succ n ih =>
    simp only [freePidFrom, firstFrom, ih]
    by_cases h : (tasks pid).inUse
    · simp [h]
    · simp [h]

theorem freeFrom_eq (s : Sched.State) (n i : Nat) :
    freeFrom s n i =
      firstFrom (fun k => decide (s.state k = .unused ∨ s.state k = .terminated)) n i := by
  induction n generalizing i with
  | zero => rfl
  | succ n ih => simp only [freeFrom, firstFrom, ih, decide_eq_true_eq]

theorem findFreePid_some {m : Machine} {pid : Nat} (h : (findFreePid m).2 = some pid) :
    slotFirstPid ≤ pid ∧ pid < maxProcesses ∧ ¬ ((findFreePid m).1.tasks pid).inUse ∧
      ∀ i, slotFirstPid ≤ i → i < pid → ((findFreePid m).1.tasks i).inUse := by
  simp only [findFreePid, freePidFrom_eq] at h ⊢
  obtain ⟨h1, h2, h3, h4⟩ := firstFrom_some h
  refine ⟨h1, h2, by simpa using h3, fun i hi hlt => ?_⟩
  simpa using h4 i hi hlt

/-- A live task that no record stands for, or an app that has ended and is yet to be joined. -/
def Unmatched (m : Machine) (i : Nat) : Prop :=
  (¬ processDead m i ∧ ¬ (m.tasks i).inUse) ∨
    (processDead m i ∧ (m.tasks i).inUse ∧ (m.tasks i).joinOnExit)

/-- No task, and no record that the reaper would keep. -/
def FreeInBoth (m : Machine) (i : Nat) : Prop :=
  processDead m i ∧ ¬ ((m.tasks i).inUse ∧ (m.tasks i).joinOnExit)

/-- The pid of the record table is the slot the scheduler would take, and an app is refused a pid
only when no slot is free in both. -/
structure PidsAgree (m : Machine) : Prop where
  same : (findFreePid m).2 = findFreeSlotFrom m.sched externalPidMin
  launch : (findFreePid m).2 = none → ∀ i, slotFirstPid ≤ i → i < maxProcesses → ¬ FreeInBoth m i
  thread : ∀ stack, (m.tasks m.sched.current).inUse → (m.tasks m.sched.current).background →
    (spawnAppThread m true stack).2 = none →
    ∀ i, slotFirstPid ≤ i → i < maxProcesses → ¬ FreeInBoth m i

section Search

variable {m : Machine}

theorem record_free_iff (hlow : slotFirstPid ≤ i) (hhigh : i < maxProcesses) :
    ((reapTerminatedTasks m).tasks i).inUse = false ↔
      (m.tasks i).inUse = false ∨ (processDead m i ∧ (m.tasks i).joinOnExit = false) := by
  rw [reap_tasks]
  by_cases hr : Reapable m i
  · rw [if_pos ⟨hlow, hhigh, hr⟩]
    have hjoin : (m.tasks i).joinOnExit = false := by simpa using hr.2.2
    exact ⟨fun _ => .inr ⟨hr.2.1, hjoin⟩, fun _ => rfl⟩
  · rw [if_neg (fun h => hr h.2.2)]
    refine ⟨.inl, fun h => h.elim id fun ⟨hdead, hjoin⟩ => ?_⟩
    cases huse : (m.tasks i).inUse with
    | false => rfl
    | true => exact absurd ⟨huse, hdead, by simp [hjoin]⟩ hr

theorem tests_differ_iff (hlow : slotFirstPid ≤ i) (hhigh : i < maxProcesses) :
    (!((reapTerminatedTasks m).tasks i).inUse) ≠
        decide (m.sched.state i = .unused ∨ m.sched.state i = .terminated) ↔ Unmatched m i := by
  have hfree := record_free_iff (m := m) hlow hhigh
  unfold Unmatched
  unfold processDead at hfree ⊢
  generalize ((reapTerminatedTasks m).tasks i).inUse = reaped at hfree ⊢
  generalize (m.tasks i).inUse = used at hfree ⊢
  generalize (m.tasks i).joinOnExit = join at hfree ⊢
  by_cases hdead : m.sched.state i = .unused ∨ m.sched.state i = .terminated
  · simp only [hdead, true_and, not_true, false_and, false_or, decide_true] at hfree ⊢
    cases reaped <;> cases used <;> cases join <;> simp at hfree ⊢
  · simp only [hdead, false_and, not_false_eq_true, true_and, or_false, decide_false] at hfree ⊢
    cases reaped <;> cases used <;> simp at hfree ⊢

theorem tests_agree_iff (hlow : slotFirstPid ≤ i) (hhigh : i < maxProcesses) :
    ((!((reapTerminatedTasks m).tasks i).inUse) = true ∧
        decide (m.sched.state i = .unused ∨ m.sched.state i = .terminated) = true) ↔
      FreeInBoth m i := by
  have hfree := record_free_iff (m := m) hlow hhigh
  unfold FreeInBoth
  unfold processDead at hfree ⊢
  generalize ((reapTerminatedTasks m).tasks i).inUse = reaped at hfree ⊢
  generalize (m.tasks i).inUse = used at hfree ⊢
  generalize (m.tasks i).joinOnExit = join at hfree ⊢
  by_cases hdead : m.sched.state i = .unused ∨ m.sched.state i = .terminated
  · simp only [hdead, true_and, decide_true, and_true] at hfree ⊢
    cases reaped <;> cases used <;> cases join <;> simp at hfree ⊢
  · simp [hdead]

theorem findFreePid_none (h : (findFreePid m).2 = none) (i : Nat) (hlow : slotFirstPid ≤ i)
    (hhigh : i < maxProcesses) : ¬ FreeInBoth m i := by
  intro hfree
  simp only [findFreePid, freePidFrom_eq] at h
  have hused := firstFrom_none h i hlow hhigh
  rw [((tests_agree_iff hlow hhigh).mpr hfree).1] at hused
  cases hused

theorem spawnAppThread_none {stack : Nat}
    (hsame : (findFreePid m).2 = findFreeSlotFrom m.sched externalPidMin)
    (huse : (m.tasks m.sched.current).inUse) (hbg : (m.tasks m.sched.current).background)
    (h : (spawnAppThread m true stack).2 = none) : (findFreePid m).2 = none := by
  cases hpid : (findFreePid m).2 with
  | none => rfl
  | some pid =>
    have hslot : findFreeSlotFrom m.sched externalPidMin = some pid := hsame ▸ hpid
    have hslot' : findFreeSlotFrom (findFreePid m).1.sched externalPidMin = some pid := by
      simp only [findFreePid, reap_sched]
      exact hslot
    simp [spawnAppThread, huse, hbg, hpid, spawnAt, spawnKernelTask, spawnInternal, hslot',
      startThread] at h

end Search

theorem free_pid_agrees_iff (m : Machine) :
    PidsAgree m ↔ ∀ i, slotFirstPid ≤ i → i < maxProcesses → Unmatched m i →
      ∃ j, slotFirstPid ≤ j ∧ j < i ∧ FreeInBoth m j := by
  have hsame : (findFreePid m).2 = findFreeSlotFrom m.sched externalPidMin ↔
      ∀ i, slotFirstPid ≤ i → i < maxProcesses → Unmatched m i →
        ∃ j, slotFirstPid ≤ j ∧ j < i ∧ FreeInBoth m j := by
    have heq : findFreeSlotFrom m.sched externalPidMin =
        freeFrom m.sched (maxProcesses - slotFirstPid) slotFirstPid := rfl
    simp only [findFreePid]
    rw [heq, freePidFrom_eq, freeFrom_eq, firstFrom_eq_iff]
    constructor
    · intro h i hlow hhigh hun
      obtain ⟨j, h1, h2, h3⟩ := h i hlow hhigh ((tests_differ_iff hlow hhigh).mpr hun)
      exact ⟨j, h1, h2, (tests_agree_iff h1 (by omega)).mp h3⟩
    · intro h i hlow hhigh hne
      have hhigh' : i < maxProcesses := hhigh
      obtain ⟨j, h1, h2, h3⟩ := h i hlow hhigh' ((tests_differ_iff hlow hhigh').mp hne)
      exact ⟨j, h1, h2, (tests_agree_iff h1 (by omega)).mpr h3⟩
  constructor
  · exact fun h => hsame.mp h.same
  · intro h
    have hs := hsame.mpr h
    exact ⟨hs, findFreePid_none, fun stack huse hbg hnone =>
      findFreePid_none (spawnAppThread_none hs huse hbg hnone)⟩

/-- `videostress 1` from the prompt. -/
def stressRun : List Event :=
  [.shell (.videostress 1), .shell (.stress 40), .shell (.stress 0)]

/-- A worker holds slot 3, whose record is free: the launch of an app is given pid 3 and the
scheduler starts it in slot 4. -/
theorem free_pid_not_the_slot : ∃ m, run step (boot 50 5 0) stressRun = some m ∧
    (findFreePid m).2 = some 3 ∧ findFreeSlotFrom m.sched externalPidMin = some 4 ∧
    FreeInBoth m 4 ∧ ¬ PidsAgree m := by
  have hrun : (run step (boot 50 5 0) stressRun).isSome := by decide
  have hpid : ∀ m ∈ run step (boot 50 5 0) stressRun, (findFreePid m).2 = some 3 := by decide
  have hslot : ∀ m ∈ run step (boot 50 5 0) stressRun,
      findFreeSlotFrom m.sched externalPidMin = some 4 := by decide
  have hboth : ∀ m ∈ run step (boot 50 5 0) stressRun, processDead m 4 ∧
      ¬ ((m.tasks 4).inUse ∧ (m.tasks 4).joinOnExit) := by decide
  obtain ⟨m, hm⟩ := Option.isSome_iff_exists.mp hrun
  have hp := hpid m hm
  have hs := hslot m hm
  refine ⟨m, hm, hp, hs, hboth m hm, fun h => ?_⟩
  have := h.same
  rw [hp, hs] at this
  cases this

end Apps
end MiniDos
