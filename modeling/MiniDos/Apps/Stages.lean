import MiniDos.Apps.Launch

/-!
# MiniDos.Apps.Stages

The shell's calls taken apart. A reap, a release, a free pid and a prepared record are loops and
stores that run with interrupts enabled, so a timer tick may fall between any two of their steps; a
thread that another app starts there finds the record table half done.

* `Stage`, `goOn`: the places inside a call, and the step from each to the next.
* `goesOn_reap`, `step_goesOn`: with nothing in between, the stages of a call come to its one step
  in `Apps.step`.
* `TakesNone`: no thread takes a record that the shell has found terminated and not yet zeroed.
* `directories_built`: the page directories that a switch may load.
-/

namespace MiniDos
namespace Apps

open Sched Transition

/-- Where the shell stands in a call. `e` is the step whose reap it is, `freed` what
`shell_apps_release_task` has read of the record, `rest` the place in the reap it returns to. -/
inductive Stage where
  | between
  | testing (pid : Nat) (e : ShellEvent)
  | used (pid : Nat) (e : ShellEvent)
  | found (pid : Nat) (e : ShellEvent)
  | clearing (pid : Nat) (freed : AppTask) (rest : Option (Nat × ShellEvent))
  | zeroing (pid : Nat) (freed : AppTask) (rest : Option (Nat × ShellEvent))
  | freeing (freed : AppTask) (rest : Option (Nat × ShellEvent))
  | choosing (pid : Nat) (background : Bool) (slotBytes : Nat)
  | filling (built : Bool)
  | building (built : Bool)
  deriving DecidableEq

structure Staged where
  machine : Machine
  stage : Stage

def resume : Option (Nat × ShellEvent) → Stage
  | none => .between
  | some (pid, e) => .testing pid e

/-- `shell_apps_copy_host_state`. -/
def copiedTask (background : Bool) (current : Nat) : AppTask :=
  { AppTask.zero with inUse := true, pid := current, leaderPid := current, background := background }

/-- The fields `shell_apps_prepare_app_task` stores before it builds the directory. -/
def filledTask (task : AppTask) (background : Bool) (pid physBase slotBytes : Nat) : AppTask :=
  { task with
      pid := pid
      leaderPid := pid
      physBase := physBase
      slotBytes := alignUp slotBytes pageSize
      ownsMemory := true
      joinOnExit := !background }

def builtTask (task : AppTask) (built : Bool) : AppTask :=
  { task with directory := if built then some (task.physBase, task.slotBytes) else task.directory }

def freePages (m : Machine) (freed : AppTask) : Machine :=
  { m with
      pageUsed :=
        if freed.ownsMemory then releasePhysRange m.pageUsed freed.physBase freed.slotBytes
        else m.pageUsed }

/-- What a call does behind its reap. -/
def afterReap (m : Machine) : ShellEvent → Staged
  | .launch background imageBytes =>
    ⟨m, .choosing slotFirstPid background (requiredSlotBytes imageBytes)⟩
  | .allocate =>
    match m.shell with
    | .chosen background slotBytes pid =>
      ⟨takePages background slotBytes pid (allocatePages m slotBytes), .between⟩
    | _ => ⟨m, .between⟩
  | .kill pid => ⟨killGroup m pid, .between⟩
  | _ => ⟨m, .between⟩

/-- The next step of the call the shell is in. -/
def goOn (m : Machine) : Stage → Option Staged
  | .between => none
  | .testing pid e =>
    if maxProcesses ≤ pid then some (afterReap m e)
    else if (m.tasks pid).inUse then some ⟨m, .used pid e⟩
    else some ⟨m, .testing (pid + 1) e⟩
  | .used pid e =>
    if processDead m pid then some ⟨m, .found pid e⟩ else some ⟨m, .testing (pid + 1) e⟩
  | .found pid e =>
    if (m.tasks pid).joinOnExit then some ⟨m, .testing (pid + 1) e⟩
    else some ⟨m, .clearing pid (m.tasks pid) (some (pid + 1, e))⟩
  -- `in_use` is the first word that `shell_apps_mem_zero` clears
  | .clearing pid freed rest =>
    some ⟨m.setTask pid { m.tasks pid with inUse := false }, .zeroing pid freed rest⟩
  | .zeroing pid freed rest =>
    some ⟨m.setTask pid { AppTask.zero with inUse := (m.tasks pid).inUse }, .freeing freed rest⟩
  | .freeing freed rest => some ⟨freePages m freed, resume rest⟩
  | .choosing pid background slotBytes =>
    if maxProcesses ≤ pid then some ⟨m, .between⟩
    else if (m.tasks pid).inUse then some ⟨m, .choosing (pid + 1) background slotBytes⟩
    else some ⟨withShell m (.chosen background slotBytes pid), .between⟩
  | .filling built =>
    match m.shell with
    | .allocated background slotBytes pid physBase =>
      some ⟨m.setTask pid (filledTask (m.tasks pid) background pid physBase slotBytes),
        .building built⟩
    | _ => none
  | .building built =>
    match m.shell with
    | .allocated background _ pid _ =>
      some ⟨withShell (m.setTask pid (builtTask (m.tasks pid) built))
        (if built then .prepared background pid else .failed pid), .between⟩
    | _ => none

/-- The first step of a call; what is one step to every task stays one. -/
def begins (m : Machine) : ShellEvent → Option Staged
  | .reap => if m.shell = .idle then some ⟨m, .testing slotFirstPid .reap⟩ else none
  | .launch background imageBytes =>
    if m.shell = .idle then
      if requiredSlotBytes imageBytes = 0 then some ⟨m, .between⟩
      else some ⟨m, .testing slotFirstPid (.launch background imageBytes)⟩
    else none
  | .allocate =>
    match m.shell with
    | .chosen _ _ _ => some ⟨m, .testing slotFirstPid .allocate⟩
    | _ => none
  | .prepare built =>
    match m.shell with
    | .allocated background _ pid _ =>
      some ⟨m.setTask pid (copiedTask background m.sched.current), .filling built⟩
    | _ => none
  | .release =>
    match m.shell with
    | .failed pid => some ⟨withShell m .idle, .clearing pid (m.tasks pid) none⟩
    | .mismatched pid actualPid =>
      some ⟨withShell m (.released actualPid), .clearing pid (m.tasks pid) none⟩
    | _ => none
  | .join =>
    match m.shell with
    | .waiting pid =>
      if processDead m pid then some ⟨withShell m .idle, .clearing pid (m.tasks pid) none⟩ else none
    | _ => none
  | .kill pid => if m.shell = .idle then some ⟨m, .testing slotFirstPid (.kill pid)⟩ else none
  | e => (shellStep m e).map fun m => ⟨m, .between⟩

/-- The steps of the shell that are one step here too. -/
def ShellEvent.whole : ShellEvent → Bool
  | .load _ => true
  | .spawn _ => true
  | .terminate => true
  | .killNext => true
  | .videostress _ => true
  | .stress _ => true
  | _ => false

def ShellRuns (m : Machine) : Prop := Executing m ∧ m.sched.current = bootPid

instance (m : Machine) : Decidable (ShellRuns m) := inferInstanceAs (Decidable (_ ∧ _))

inductive StagedEvent where
  | event (e : Event)
  | next
  deriving DecidableEq

def stagedStep (s : Staged) : StagedEvent → Option Staged
  | .next => if ShellRuns s.machine then goOn s.machine s.stage else none
  | .event (.shell e) =>
    if ShellRuns s.machine ∧ s.stage = .between then begins s.machine e else none
  | .event e => (step s.machine e).map fun m => ⟨m, s.stage⟩

theorem stagedStep_event {s : Staged} {e : Event} (h : ∀ c, e ≠ .shell c) :
    stagedStep s (.event e) = (step s.machine e).map fun m => ⟨m, s.stage⟩ := by
  cases e <;> first | rfl | exact absurd rfl (h _)

/-! ## A call that nothing interrupts -/

/-- The stages that the shell passes by itself lead from `s` to `s'`. -/
def GoesOn (s s' : Staged) : Prop :=
  ∃ n, run stagedStep s (List.replicate n .next) = some s'

section GoesOn

variable {m : Machine} {stage : Stage} {s s' : Staged}

theorem GoesOn.refl (s : Staged) : GoesOn s s := ⟨0, rfl⟩

theorem GoesOn.cons (hruns : ShellRuns m) (hgo : goOn m stage = some s) (h : GoesOn s s') :
    GoesOn ⟨m, stage⟩ s' := by
  obtain ⟨n, hn⟩ := h
  exact ⟨n + 1, run_cons.mpr ⟨s, (if_pos hruns).trans hgo, hn⟩⟩

theorem setTask_setTask (m : Machine) (pid : Nat) (task task' : AppTask) :
    (m.setTask pid task).setTask pid task' = m.setTask pid task' := by
  simp only [Machine.setTask, Machine.mk.injEq, true_and, and_true]
  funext i
  by_cases hi : i = pid
  · rw [if_pos hi, if_pos hi]
  · rw [if_neg hi, if_neg hi, if_neg hi]

theorem goesOn_release (hruns : ShellRuns m) (pid : Nat) (rest : Option (Nat × ShellEvent)) :
    GoesOn ⟨m, .clearing pid (m.tasks pid) rest⟩ ⟨releaseTask m pid, resume rest⟩ := by
  refine .cons hruns rfl (.cons hruns rfl (.cons hruns rfl ?_))
  rw [setTask_self, setTask_setTask]
  exact .refl _

/-- The reap, from the record `pid` on. -/
theorem goesOn_reap (e : ShellEvent) (n : Nat) : ∀ (pid : Nat) (m : Machine), ShellRuns m →
    pid + n = maxProcesses → GoesOn (afterReap (reapFrom n pid m) e) s' →
    GoesOn ⟨m, .testing pid e⟩ s' := by
  induction n with
  | zero =>
    intro pid m hruns hpid h
    exact .cons hruns (if_pos (by omega)) h
  | succ n ih =>
    intro pid m hruns hpid h
    have hin : ¬ maxProcesses ≤ pid := by omega
    simp only [reapFrom] at h
    have hpass : ¬ Reapable m pid → GoesOn ⟨m, .testing (pid + 1) e⟩ s' := by
      intro hr
      rw [if_neg hr] at h
      exact ih (pid + 1) m hruns (by omega) h
    by_cases huse : (m.tasks pid).inUse
    · refine .cons hruns ((if_neg hin).trans (if_pos huse)) ?_
      by_cases hdead : processDead m pid
      · refine .cons hruns (if_pos hdead) ?_
        by_cases hjoin : (m.tasks pid).joinOnExit
        · exact .cons hruns (if_pos hjoin) (hpass fun hr => hr.2.2 hjoin)
        · rw [if_pos ⟨huse, hdead, hjoin⟩] at h
          refine .cons hruns (if_neg hjoin) ?_
          obtain ⟨k, hk⟩ := goesOn_release hruns pid (some (pid + 1, e))
          obtain ⟨l, hl⟩ := ih (pid + 1) (releaseTask m pid) hruns (by omega) h
          refine ⟨k + l, ?_⟩
          rw [← List.replicate_append_replicate]
          exact run_append.mpr ⟨_, hk, hl⟩
      · exact .cons hruns (if_neg hdead) (hpass fun hr => hdead hr.2.1)
    · exact .cons hruns ((if_neg hin).trans (if_neg huse)) (hpass fun hr => huse hr.1)

theorem goesOn_choose (background : Bool) (slotBytes n : Nat) : ∀ pid, ShellRuns m →
    pid + n = maxProcesses → GoesOn ⟨m, .choosing pid background slotBytes⟩
      ⟨match freePidFrom m.tasks n pid with
        | none => m
        | some pid => withShell m (.chosen background slotBytes pid), .between⟩ := by
  induction n with
  | zero =>
    intro pid hruns hpid
    exact .cons hruns (if_pos (by omega)) (.refl _)
  | succ n ih =>
    intro pid hruns hpid
    have hin : ¬ maxProcesses ≤ pid := by omega
    simp only [freePidFrom]
    by_cases huse : (m.tasks pid).inUse
    · rw [if_neg (fun h => h huse)]
      exact .cons hruns ((if_neg hin).trans (if_pos huse)) (ih (pid + 1) hruns (by omega))
    · rw [if_pos huse]
      exact .cons hruns ((if_neg hin).trans (if_neg huse)) (.refl _)

/-- A call of the shell that nothing interrupts is its one step in the coarser machine. -/
theorem shellStep_goesOn (hruns : ShellRuns m) {e : ShellEvent} {m' : Machine}
    (h : shellStep m e = some m') : ∃ s, begins m e = some s ∧ GoesOn s ⟨m', .between⟩ := by
  have hreap : ∀ e, GoesOn (afterReap (reapTerminatedTasks m) e) ⟨m', .between⟩ →
      GoesOn ⟨m, .testing slotFirstPid e⟩ ⟨m', .between⟩ :=
    fun e => goesOn_reap e (maxProcesses - slotFirstPid) slotFirstPid m hruns rfl
  have hruns' : ShellRuns (reapTerminatedTasks m) := by
    unfold ShellRuns Executing
    rw [reap_sched]
    exact hruns
  cases e with
  | reap =>
    simp only [shellStep] at h
    split at h
    case isTrue hidle =>
      cases h
      exact ⟨_, if_pos hidle, hreap _ (.refl _)⟩
    case isFalse => cases h
  | launch background imageBytes =>
    simp only [shellStep] at h
    split at h
    case isTrue hidle =>
      cases h
      by_cases hb : requiredSlotBytes imageBytes = 0
      · rw [chooseStep, if_pos hb]
        exact ⟨_, (if_pos hidle).trans (if_pos hb), .refl _⟩
      · rw [chooseStep, if_neg hb] at hreap ⊢
        exact ⟨_, (if_pos hidle).trans (if_neg hb), hreap _ (goesOn_choose background _
          (maxProcesses - slotFirstPid) slotFirstPid hruns' rfl)⟩
    case isFalse => cases h
  | allocate =>
    simp only [shellStep] at h
    split at h
    case h_1 background slotBytes pid hshell =>
      cases h
      refine ⟨_, by simp only [begins, hshell], hreap .allocate ?_⟩
      simp only [afterReap, reap_shell, hshell]
      exact .refl _
    case h_2 => cases h
  | prepare built =>
    simp only [shellStep] at h
    split at h
    case h_1 background slotBytes pid physBase hshell =>
      cases h
      refine ⟨_, by simp only [begins, hshell]; rfl, ?_⟩
      refine .cons hruns (by simp only [goOn, setTask_shell, hshell]; rfl) ?_
      refine .cons hruns (by simp only [goOn, setTask_shell, hshell]; rfl) ?_
      simp only [setTask_self, setTask_setTask]
      cases built <;> exact .refl _
    case h_2 => cases h
  | release =>
    simp only [shellStep] at h
    split at h
    case h_1 pid hshell =>
      cases h
      exact ⟨_, by simp only [begins, hshell]; rfl, goesOn_release (m := withShell m .idle) hruns pid none⟩
    case h_2 pid actualPid hshell =>
      cases h
      exact ⟨_, by simp only [begins, hshell]; rfl,
        goesOn_release (m := withShell m (.released actualPid)) hruns pid none⟩
    case h_3 => cases h
  | join =>
    simp only [shellStep] at h
    split at h
    case h_1 pid hshell =>
      split at h
      case isTrue hdead =>
        cases h
        exact ⟨_, by simp only [begins, hshell, if_pos hdead]; rfl,
          goesOn_release (m := withShell m .idle) hruns pid none⟩
      case isFalse => cases h
    case h_2 => cases h
  | kill pid =>
    simp only [shellStep] at h
    split at h
    case isTrue hidle =>
      cases h
      exact ⟨_, if_pos hidle, hreap _ (.refl _)⟩
    case isFalse => cases h
  | _ => exact ⟨_, Option.map_eq_some_iff.mpr ⟨m', h, rfl⟩, .refl _⟩

/-- Every step of the coarser machine is a run of the stages. -/
theorem step_goesOn {e : Event} {m' : Machine} (h : step m e = some m') :
    ∃ n, run stagedStep ⟨m, .between⟩ (.event e :: List.replicate n .next) =
      some ⟨m', .between⟩ := by
  have hother : (∀ c, e ≠ .shell c) → ∃ n, run stagedStep ⟨m, .between⟩
      (.event e :: List.replicate n .next) = some ⟨m', .between⟩ := fun hne =>
    ⟨0, run_cons.mpr ⟨⟨m', .between⟩, by rw [stagedStep_event hne, h]; rfl, rfl⟩⟩
  cases e with
  | shell c =>
    simp only [step] at h
    split at h
    case isTrue hruns =>
      obtain ⟨s, hb, n, hn⟩ := shellStep_goesOn hruns h
      exact ⟨n, run_cons.mpr ⟨s, (if_pos ⟨hruns, rfl⟩).trans hb, hn⟩⟩
    case isFalse => cases h
  | _ => exact hother fun _ => Event.noConfusion

end GoesOn

/-! ## What the stages keep -/

/-- The record that the shell has found terminated, or releases, and has not zeroed yet. -/
def Stage.releases : Stage → Option Nat
  | .found pid _ => some pid
  | .clearing pid _ _ => some pid
  | .zeroing pid _ _ => some pid
  | _ => none

/-- The record of the launch is in use and not finished. -/
def Stage.claims : Stage → Bool
  | .filling _ => true
  | .building _ => true
  | _ => false

/-- No thread is started on a record that the shell is about to zero. -/
def TakesNone (s : Staged) (e : Event) : Prop :=
  e.isThreadSpawn → (s.machine.tasks s.machine.sched.current).inUse →
    (s.machine.tasks s.machine.sched.current).background →
    ∀ pid ∈ s.stage.releases, (findFreePid s.machine).2 ≠ some pid

instance (s : Staged) (e : Event) : Decidable (TakesNone s e) :=
  inferInstanceAs (Decidable (_ → _ → _ → _))

def Undisturbed (s : Staged) : StagedEvent → Prop
  | .next => True
  | .event e => KeepsClear s.machine e ∧ TakesNone s e ∧ SpawnsInPlace s.machine e

instance (s : Staged) : ∀ e, Decidable (Undisturbed s e)
  | .next => inferInstanceAs (Decidable True)
  | .event _ => inferInstanceAs (Decidable (_ ∧ _ ∧ _))

/-- The record of a launch whose directory is built and whose task is not started. -/
def Shell.built : Shell → Option Nat
  | .prepared _ pid => some pid
  | .loaded _ pid => some pid
  | _ => none

def AppsMapped (m : Machine) : Prop :=
  ∀ k r, occupant m.sched k = .live (some r) → r = k ∧ Mapped (m.tasks k)

/-- No app runs in the slot. -/
def Idle (m : Machine) (pid : Nat) : Prop := ∀ r, occupant m.sched pid ≠ .live (some r)

/-- The invariant: an app runs in the slot of its own record, which is mapped, and none runs on a
record that the shell is going to write or zero. -/
structure StagedOk (s : Staged) : Prop where
  apps : AppsMapped s.machine
  pending : ∀ pid, s.machine.shell.pending = some pid → Idle s.machine pid
  releases : ∀ pid, s.stage.releases = some pid → Idle s.machine pid
  claimed : s.stage.claims → ∀ pid, s.machine.shell.pending = some pid →
    (s.machine.tasks pid).inUse
  built : ∀ pid, s.machine.shell.built = some pid → s.stage = .between ∧ Mapped (s.machine.tasks pid)

theorem resume_idle (rest : Option (Nat × ShellEvent)) :
    (resume rest).releases = none ∧ (resume rest).claims = false := by
  cases rest with
  | none => exact ⟨rfl, rfl⟩
  | some rest => exact ⟨rfl, rfl⟩

theorem Shell.pending_of_built {shell : Shell} {pid : Nat} (h : shell.built = some pid) :
    shell.pending = some pid := by
  cases shell <;> first | exact h | cases h

section Kept

variable {m m' : Machine} {pid : Nat}

theorem Idle.fewer (h : Idle m pid) (hf : Fewer m m') : Idle m' pid :=
  fun r hl => h r (hf.live hl)

theorem Idle.of_dead (h : processDead m pid) : Idle m pid :=
  fun r => not_live_iff.mpr h (some r)

namespace AppsMapped

theorem idle_of_free (h : AppsMapped m) (hfree : ¬ (m.tasks pid).inUse) : Idle m pid :=
  fun r hl => hfree (h pid r hl).2.1

theorem setTask (h : AppsMapped m) (hidle : Idle m pid) (task : AppTask) :
    AppsMapped (m.setTask pid task) := by
  intro k r hl
  have hk : k ≠ pid := fun e => hidle r (e ▸ hl)
  rw [setTask_of_ne m pid task hk]
  exact h k r hl

theorem fewer (h : AppsMapped m) (hf : Fewer m m') : AppsMapped m' := by
  intro k r hl
  rw [hf.tasks]
  exact h k r (hf.live hl)

theorem reap (h : AppsMapped m) : AppsMapped (reapTerminatedTasks m) := by
  intro k r hl
  rw [reap_sched] at hl
  rw [reap_tasks_of_live hl]
  exact h k r hl

theorem idle_of_chosen (h : AppsMapped m) (hpid : (findFreePid m).2 = some pid) : Idle m pid := by
  intro r hl
  have hfree : ¬ ((reapTerminatedTasks m).tasks pid).inUse := (findFreePid_some hpid).2.2.1
  exact h.reap.idle_of_free hfree r (by rw [reap_sched]; exact hl)

theorem started (h : AppsMapped m) {s : Sched.State} {d : Option Nat} {idx : Nat} {shell : Shell}
    (hst : Started m.sched s d idx) (hnew : ∀ r, d = some r → r = idx ∧ Mapped (m.tasks idx)) :
    AppsMapped { m with sched := s, shell := shell } := by
  intro k r hl
  have hl : occupant s k = .live (some r) := hl
  rw [hst.slots] at hl
  by_cases hk : k = idx
  · rw [if_pos hk] at hl
    cases hl
    rw [hk]
    exact hnew r rfl
  · rw [if_neg hk] at hl
    exact h k r hl

end AppsMapped

end Kept

namespace StagedOk

variable {s s' : Staged} {m : Machine}

/-- Between two calls nothing is half done. -/
theorem between (happs : AppsMapped m) (hpending : ∀ pid, m.shell.pending = some pid → Idle m pid)
    (hbuilt : ∀ pid, m.shell.built = some pid → Mapped (m.tasks pid)) : StagedOk ⟨m, .between⟩ where
  apps := happs
  pending := hpending
  releases _ h := by cases h
  claimed h := by cases h
  built pid h := ⟨rfl, hbuilt pid h⟩

/-- No launch is under way. -/
theorem settled (happs : AppsMapped m) (hpending : m.shell.pending = none) : StagedOk ⟨m, .between⟩ := by
  have hnone : ∀ pid, m.shell.pending ≠ some pid := fun pid hp => by
    rw [hpending] at hp
    cases hp
  exact between happs (fun pid hp => absurd hp (hnone pid))
    fun pid hb => absurd (Shell.pending_of_built hb) (hnone pid)

/-- A call that has no launch under way with a built record. -/
theorem inside {stage : Stage} (happs : AppsMapped m)
    (hpending : ∀ pid, m.shell.pending = some pid → Idle m pid)
    (hreleases : ∀ pid, stage.releases = some pid → Idle m pid) (hbuilt : m.shell.built = none)
    (hclaimed : stage.claims → ∀ pid, m.shell.pending = some pid → (m.tasks pid).inUse) :
    StagedOk ⟨m, stage⟩ where
  apps := happs
  pending := hpending
  releases := hreleases
  claimed := hclaimed
  built pid h := by
    rw [hbuilt] at h
    cases h

theorem fewer (h : StagedOk s) (hf : Fewer s.machine m) : StagedOk ⟨m, s.stage⟩ where
  apps := h.apps.fewer hf
  pending pid hp := (h.pending pid (hf.shell ▸ hp)).fewer hf
  releases pid hp := (h.releases pid hp).fewer hf
  claimed hc pid hp := by
    rw [hf.tasks]
    exact h.claimed hc pid (hf.shell ▸ hp)
  built pid hp := by
    rw [hf.tasks]
    exact h.built pid (hf.shell ▸ hp)

theorem not_built (h : StagedOk s) (hstage : s.stage ≠ .between) : s.machine.shell.built = none := by
  cases hb : s.machine.shell.built with
  | none => rfl
  | some pid => exact absurd (h.built pid hb).1 hstage

theorem reap (h : StagedOk s)
    (hclear : ∀ pid, s.machine.shell.pending = some pid → ¬ Reapable s.machine pid) :
    StagedOk ⟨reapTerminatedTasks s.machine, s.stage⟩ where
  apps := h.apps.reap
  pending pid hp r hl := by
    rw [reap_shell] at hp
    rw [reap_sched] at hl
    exact h.pending pid hp r hl
  releases pid hp r hl := by
    rw [reap_sched] at hl
    exact h.releases pid hp r hl
  claimed hc pid hp := by
    rw [reap_shell] at hp
    rw [reap_tasks, if_neg fun hr => hclear pid hp hr.2.2]
    exact h.claimed hc pid hp
  built pid hp := by
    rw [reap_shell] at hp
    rw [reap_tasks, if_neg fun hr => hclear pid (Shell.pending_of_built hp) hr.2.2]
    exact h.built pid hp

theorem thread (h : StagedOk s) {built : Bool} {stack : Nat}
    (hclear : KeepsClear s.machine (.app (.threadSpawn built stack)))
    (htakes : TakesNone s (.app (.threadSpawn built stack))) :
    StagedOk ⟨(spawnAppThread s.machine built stack).1, s.stage⟩ := by
  rcases spawnAppThread_cases s.machine built stack with heq | ⟨huse, hbg, hrest⟩
  · rw [heq]
    exact h
  · have hclear' := hclear rfl huse hbg
    have htakes' := htakes rfl huse hbg
    have hreap := h.reap fun pid hp => (hclear' pid hp).1
    rcases hrest with heq | ⟨pid, hpid, hend⟩
    · rw [heq]
      exact hreap
    · have hidle := h.apps.idle_of_chosen hpid
      have hne : ∀ q, s.machine.shell.pending = some q → q ≠ pid :=
        fun q hq e => (hclear' q hq).2 (e ▸ hpid)
      have hne' : ∀ q, s.stage.releases = some q → q ≠ pid :=
        fun q hq e => htakes' q hq (e ▸ hpid)
      rcases hend with ⟨hf, _⟩ | ⟨_, htasks, _, hshell, hocc⟩
      · have hzeroed : StagedOk ⟨(reapTerminatedTasks s.machine).setTask pid .zero, s.stage⟩ := by
          refine ⟨hreap.apps.setTask (fun r hl => hidle r (by rwa [reap_sched] at hl)) .zero,
            hreap.pending, hreap.releases, fun hc q hq => ?_, fun q hq => ?_⟩
          · have hq' := hq
            rw [setTask_shell, reap_shell] at hq'
            rw [setTask_of_ne _ _ _ (hne q hq')]
            exact hreap.claimed hc q hq
          · have hq' := Shell.pending_of_built hq
            rw [setTask_shell, reap_shell] at hq'
            rw [setTask_of_ne _ _ _ (hne q hq')]
            exact hreap.built q hq
        exact hzeroed.fewer hf
      · -- the only app that is new runs on the record the thread has written
        have hother : ∀ k, k ≠ pid → (spawnAppThread s.machine built stack).1.tasks k =
            (reapTerminatedTasks s.machine).tasks k := fun k hk => by
          rw [htasks, setTask_of_ne _ _ _ hk]
        have hidle' : ∀ q, q ≠ pid → Idle s.machine q →
            Idle (spawnAppThread s.machine built stack).1 q := by
          intro q hq hi r hl
          rw [hocc, if_neg hq] at hl
          exact hi r hl
        refine ⟨fun k r hl => ?_, fun q hq => ?_, fun q hq => ?_, fun hc q hq => ?_,
          fun q hq => ?_⟩
        · rw [hocc] at hl
          by_cases hk : k = pid
          · rw [if_pos hk] at hl
            cases hl
            rw [hk, htasks, setTask_self]
            exact ⟨rfl, rfl, rfl⟩
          · rw [if_neg hk] at hl
            rw [hother k hk]
            exact hreap.apps k r (by rw [reap_sched]; exact hl)
        · rw [hshell] at hq
          exact hidle' q (hne q hq) (h.pending q hq)
        · exact hidle' q (hne' q hq) (h.releases q hq)
        · rw [hshell] at hq
          rw [hother q (hne q hq)]
          exact hreap.claimed hc q (by rw [reap_shell]; exact hq)
        · rw [hshell] at hq
          rw [hother q (hne q (Shell.pending_of_built hq))]
          exact hreap.built q (by rw [reap_shell]; exact hq)

/-- A store into a record that no app runs on. -/
theorem write (h : StagedOk s) {pid : Nat} {stage : Stage} (hstage : s.stage ≠ .between)
    (hidle : Idle s.machine pid) (hreleases : ∀ q, stage.releases = some q → q = pid)
    (task : AppTask) (hclaimed : stage.claims → s.machine.shell.pending = some pid ∧ task.inUse) :
    StagedOk ⟨s.machine.setTask pid task, stage⟩ := by
  refine inside (h.apps.setTask hidle task) h.pending (fun q hq => hreleases q hq ▸ hidle)
    (h.not_built hstage) fun hc q hq => ?_
  obtain ⟨hpid, huse⟩ := hclaimed hc
  cases Option.some.inj (hpid.symm.trans hq)
  rw [setTask_self]
  exact huse

/-- The shell looks on. -/
theorem look (h : StagedOk s) {stage : Stage} (hstage : s.stage ≠ .between)
    (hclaims : stage.claims = false)
    (hreleases : ∀ q, stage.releases = some q → Idle s.machine q) :
    StagedOk ⟨s.machine, stage⟩ := by
  refine inside h.apps h.pending hreleases (h.not_built hstage) fun hc => ?_
  rw [hclaims] at hc
  cases hc

theorem look_on (h : StagedOk s) {stage : Stage} (hstage : s.stage ≠ .between)
    (hclaims : stage.claims = false) (hreleases : stage.releases = none) :
    StagedOk ⟨s.machine, stage⟩ :=
  h.look hstage hclaims fun q hq => by
    rw [hreleases] at hq
    cases hq

theorem allocatePages_fields (m : Machine) (slotBytes : Nat) :
    (allocatePages m slotBytes).1.tasks = m.tasks ∧
      (allocatePages m slotBytes).1.sched = m.sched := by
  unfold allocatePages
  simp only
  split
  · exact ⟨rfl, rfl⟩
  · split
    · exact ⟨rfl, rfl⟩
    · split
      · exact ⟨rfl, rfl⟩
      · exact ⟨rfl, rfl⟩

theorem afterReap (h : StagedOk s) (hstage : s.stage ≠ .between) (e : ShellEvent) :
    StagedOk (afterReap s.machine e) := by
  have hnone := h.not_built hstage
  cases e with
  | launch background imageBytes => exact h.look_on hstage rfl rfl
  | allocate =>
    simp only [Apps.afterReap]
    split
    case h_1 background slotBytes pid hshell =>
      obtain ⟨htasks, hsched⟩ := allocatePages_fields s.machine slotBytes
      have hidle := h.pending pid (by rw [hshell]; rfl)
      have happs : AppsMapped (allocatePages s.machine slotBytes).1 := by
        intro k r hl
        rw [hsched] at hl
        rw [htasks]
        exact h.apps k r hl
      unfold takePages
      cases (allocatePages s.machine slotBytes).2 with
      | none => exact settled happs rfl
      | some physBase =>
        refine between happs (fun q hq r hl => ?_) fun q hq => by cases hq
        cases hq
        have hl : occupant (allocatePages s.machine slotBytes).1.sched pid = .live (some r) := hl
        rw [hsched] at hl
        exact hidle r hl
    case h_2 => exact h.look_on hstage rfl rfl
  | kill pid =>
    simp only [Apps.afterReap, killGroup]
    split
    · exact h.look_on hstage rfl rfl
    · split
      · exact h.look_on hstage rfl rfl
      · exact settled h.apps rfl
  | _ => exact h.look_on hstage rfl rfl

theorem goOn (h : StagedOk s) (hgo : goOn s.machine s.stage = some s') : StagedOk s' := by
  by_cases hne : s.stage = .between
  · rw [hne] at hgo
    cases hgo
  cases hstage : s.stage with
  | between => exact absurd hstage hne
  | testing pid e =>
    simp only [hstage, Apps.goOn] at hgo
    split at hgo
    · cases hgo
      exact h.afterReap hne e
    · split at hgo
      · cases hgo
        exact h.look_on hne rfl rfl
      · cases hgo
        exact h.look_on hne rfl rfl
  | used pid e =>
    simp only [hstage, Apps.goOn] at hgo
    split at hgo
    case isTrue hdead =>
      cases hgo
      refine h.look hne rfl fun q hq => ?_
      cases hq
      exact .of_dead hdead
    case isFalse =>
      cases hgo
      exact h.look_on hne rfl rfl
  | found pid e =>
    simp only [hstage, Apps.goOn] at hgo
    split at hgo
    · cases hgo
      exact h.look_on hne rfl rfl
    · cases hgo
      refine h.look hne rfl fun q hq => ?_
      cases hq
      exact h.releases pid (by rw [hstage]; rfl)
  | clearing pid freed rest =>
    simp only [hstage, Apps.goOn] at hgo
    cases hgo
    refine h.write hne (h.releases pid (by rw [hstage]; rfl)) (fun q hq => ?_) _ fun hc => by cases hc
    cases hq
    rfl
  | zeroing pid freed rest =>
    simp only [hstage, Apps.goOn] at hgo
    cases hgo
    exact h.write hne (h.releases pid (by rw [hstage]; rfl)) (fun q hq => by cases hq) _
      fun hc => by cases hc
  | freeing freed rest =>
    simp only [hstage, Apps.goOn] at hgo
    cases hgo
    obtain ⟨hreleases, hclaims⟩ := resume_idle rest
    refine inside h.apps h.pending (fun q hq => ?_) (h.not_built hne) fun hc => ?_
    · rw [hreleases] at hq
      cases hq
    · rw [hclaims] at hc
      cases hc
  | choosing pid background slotBytes =>
    simp only [hstage, Apps.goOn] at hgo
    split at hgo
    · cases hgo
      exact h.look_on hne rfl rfl
    · split at hgo
      · cases hgo
        exact h.look_on hne rfl rfl
      case isFalse hfree =>
        cases hgo
        refine between h.apps (fun q hq => ?_) fun q hq => by cases hq
        cases hq
        exact h.apps.idle_of_free hfree
  | filling built =>
    simp only [hstage, Apps.goOn] at hgo
    split at hgo
    case h_1 background slotBytes pid physBase hshell =>
      cases hgo
      have hpid : s.machine.shell.pending = some pid := by rw [hshell]; rfl
      refine h.write hne (h.pending pid hpid) (fun q hq => by cases hq) _ fun _ => ⟨hpid, ?_⟩
      exact h.claimed (by rw [hstage]; rfl) pid hpid
    case h_2 => cases hgo
  | building built =>
    simp only [hstage, Apps.goOn] at hgo
    split at hgo
    case h_1 background slotBytes pid physBase hshell =>
      have hpid : s.machine.shell.pending = some pid := by rw [hshell]; rfl
      have huse := h.claimed (by rw [hstage]; rfl) pid hpid
      have hidle := h.pending pid hpid
      have happs := h.apps.setTask hidle (builtTask (s.machine.tasks pid) built)
      cases hgo
      cases built with
      | false =>
        refine between happs (fun q hq => ?_) fun q hq => by cases hq
        cases hq
        exact hidle
      | true =>
        refine between happs (fun q hq => ?_) fun q hq => ?_
        · cases hq
          exact hidle
        · cases hq
          simp only [withShell, setTask_self]
          exact ⟨huse, rfl⟩
    case h_2 => cases hgo

/-- The shell leaves a launch and goes on to release its record. -/
theorem leave (h : StagedOk s) {shell : Shell} {pid : Nat} (hidle : Idle s.machine pid)
    (hpending : shell.pending = none) (hbuilt : shell.built = none) :
    StagedOk ⟨withShell s.machine shell, .clearing pid (s.machine.tasks pid) none⟩ := by
  refine inside h.apps (fun q hq => ?_) (fun q hq => ?_) hbuilt fun hc => by cases hc
  · exact absurd (hpending.symm.trans hq) (by simp)
  · cases hq
    exact hidle

theorem same (h : StagedOk s) : StagedOk ⟨s.machine, .between⟩ :=
  between h.apps h.pending fun q hq => (h.built q hq).2

/-- The steps of the shell that are not taken apart. -/
theorem moved (h : StagedOk s) {e : ShellEvent} {m : Machine} (hwhole : e.whole)
    (hin : SpawnsInPlace s.machine (.shell e)) (hm : ShellMove s.machine e m) :
    StagedOk ⟨m, .between⟩ := by
  cases hm with
  | refused _ => exact h.same
  | reaped hidle => exact (h.reap fun q hq => by rw [hidle] at hq; cases hq).same
  | @loaded background ok pid hshell =>
    have hpid : s.machine.shell.pending = some pid := by rw [hshell]; rfl
    have hmap := (h.built pid (by rw [hshell]; rfl)).2
    cases ok with
    | false =>
      refine between h.apps (fun q hq => ?_) fun q hq => by cases hq
      cases hq
      exact h.pending pid hpid
    | true =>
      refine between h.apps (fun q hq => ?_) fun q hq => ?_
      · cases hq
        exact h.pending pid hpid
      · cases hq
        exact hmap
  | @notSpawned background pid stack hshell =>
    refine between h.apps (fun q hq => ?_) fun q hq => by cases hq
    cases hq
    exact h.pending pid (by rw [hshell]; rfl)
  | @spawned background pid stack sched hshell hst =>
    have hmap := (h.built pid (by rw [hshell]; rfl)).2
    refine between (h.apps.started hst fun r hr => ?_) (fun q hq => ?_) fun q hq => ?_
    · cases hr
      exact ⟨rfl, hmap⟩
    · cases background <;> cases hq
    · cases background <;> cases hq
  | mismatched hshell hst hne => exact absurd (hin rfl _ hst.lowest _ (by rw [hshell]; rfl)) hne
  | @terminated actualPid _ =>
    have happs := h.apps.fewer (fewer_terminateAt s.machine actualPid)
    exact settled happs rfl
  | @killedNext leaderPid next _ _ =>
    have happs := h.apps.fewer (fewer_terminateMember s.machine leaderPid leaderPid next)
    exact settled happs rfl
  | @killedLeader leaderPid next _ _ =>
    have happs := h.apps.fewer (fewer_terminateAt s.machine leaderPid)
    exact settled happs rfl
  | stressing _ => exact settled h.apps rfl
  | stressed _ => exact settled h.apps rfl
  | worker _ hst =>
    exact settled (h.apps.started hst fun r hr => by cases hr) rfl
  | _ => cases hwhole

theorem begins (h : StagedOk s) {e : ShellEvent}
    (hin : SpawnsInPlace s.machine (.shell e)) (hb : begins s.machine e = some s') :
    StagedOk s' := by
  have hopen : ∀ e, s.machine.shell.built = none →
      StagedOk ⟨s.machine, .testing slotFirstPid e⟩ := fun e hb =>
    inside h.apps h.pending (fun q hq => by cases hq) hb fun hc => by cases hc
  have hwhole : e.whole → StagedOk s' := by
    intro hw
    have hmap : (shellStep s.machine e).map (fun m => (⟨m, .between⟩ : Staged)) = some s' := by
      cases e <;> first | exact hb | cases hw
    obtain ⟨m, hm, rfl⟩ := Option.map_eq_some_iff.mp hmap
    exact h.moved hw hin (shellStep_move hm)
  cases e with
  | reap =>
    simp only [Apps.begins] at hb
    split at hb
    case isTrue hidle =>
      cases hb
      exact hopen _ (by rw [hidle]; rfl)
    case isFalse => cases hb
  | launch background imageBytes =>
    simp only [Apps.begins] at hb
    split at hb
    case isTrue hidle =>
      split at hb
      · cases hb
        exact h.same
      · cases hb
        exact hopen _ (by rw [hidle]; rfl)
    case isFalse => cases hb
  | allocate =>
    simp only [Apps.begins] at hb
    split at hb
    case h_1 hshell =>
      cases hb
      exact hopen _ (by rw [hshell]; rfl)
    case h_2 => cases hb
  | prepare built =>
    simp only [Apps.begins] at hb
    split at hb
    case h_1 background slotBytes pid physBase hshell =>
      cases hb
      have hpid : s.machine.shell.pending = some pid := by rw [hshell]; rfl
      refine inside (h.apps.setTask (h.pending pid hpid) _) h.pending (fun q hq => by cases hq)
        (by rw [setTask_shell, hshell]; rfl) fun _ q hq => ?_
      rw [setTask_shell, hpid] at hq
      cases hq
      rw [setTask_self]
      rfl
    case h_2 => cases hb
  | release =>
    simp only [Apps.begins] at hb
    split at hb
    case h_1 pid hshell =>
      cases hb
      exact h.leave (h.pending pid (by rw [hshell]; rfl)) rfl rfl
    case h_2 pid actualPid hshell =>
      cases hb
      exact h.leave (h.pending pid (by rw [hshell]; rfl)) rfl rfl
    case h_3 => cases hb
  | join =>
    simp only [Apps.begins] at hb
    split at hb
    case h_1 pid hshell =>
      split at hb
      case isTrue hdead =>
        cases hb
        exact h.leave (.of_dead hdead) rfl rfl
      case isFalse => cases hb
    case h_2 => cases hb
  | kill pid =>
    simp only [Apps.begins] at hb
    split at hb
    case isTrue hidle =>
      cases hb
      exact hopen _ (by rw [hidle]; rfl)
    case isFalse => cases hb
  | _ => exact hwhole rfl

theorem step (h : StagedOk s) {e : StagedEvent} (hclear : Undisturbed s e)
    (hstep : stagedStep s e = some s') : StagedOk s' := by
  cases e with
  | next =>
    simp only [stagedStep] at hstep
    split at hstep
    case isTrue => exact h.goOn hstep
    case isFalse => cases hstep
  | event e =>
    obtain ⟨hkeeps, htakes, hin⟩ := hclear
    have hother : (∀ c, e ≠ .shell c) → StagedOk s' := by
      intro hne
      rw [stagedStep_event hne] at hstep
      obtain ⟨m, hm, rfl⟩ := Option.map_eq_some_iff.mp hstep
      rcases step_cases hm with ⟨built, stack, rfl, _, _, rfl⟩ | ⟨c, rfl, _⟩ | ⟨hf, _⟩
      · exact h.thread hkeeps htakes
      · exact absurd rfl (hne c)
      · exact h.fewer hf
    cases e with
    | shell c =>
      simp only [stagedStep] at hstep
      split at hstep
      case isTrue => exact h.begins hin hstep
      case isFalse => cases hstep
    | _ => exact hother fun _ => Event.noConfusion

end StagedOk

/-! ## Page directories -/

/-- The page directory a switch to the slot would load is that of the kernel, or one that was built
and stands in a record in use. -/
def Loadable (m : Machine) (k : Nat) : Prop :=
  (m.sched.slots k).pageDirectory = none ∨
    ∃ r, (m.sched.slots k).pageDirectory = some r ∧ (m.tasks r).inUse ∧
      (m.tasks r).directory = some ((m.tasks r).physBase, (m.tasks r).slotBytes)

theorem not_loadable {m : Machine} {k r : Nat} (hd : (m.sched.slots k).pageDirectory = some r)
    (hfree : ¬ (m.tasks r).inUse) : ¬ Loadable m k := by
  rintro (h | ⟨r', hr, huse, _⟩)
  · rw [hd] at h
    cases h
  · rw [hd] at hr
    cases hr
    exact hfree huse

/-- In every run in which threads keep clear of the records that the shell writes or zeroes and
launched apps start in the slot of their record, every slot that may be switched to is loadable. -/
theorem directories_built (stack quantumTicks : Nat) (ticks : UInt32) (es : List StagedEvent)
    (s : Staged)
    (hmeets : Meets stagedStep Undisturbed ⟨boot stack quantumTicks ticks, .between⟩ es)
    (hrun : run stagedStep ⟨boot stack quantumTicks ticks, .between⟩ es = some s) (k : Nat)
    (hk : s.machine.sched.state k = .ready ∨ s.machine.sched.state k = .running) :
    Loadable s.machine k := by
  have hboot : StagedOk ⟨boot stack quantumTicks ticks, .between⟩ :=
    .between (fun k r hl => absurd ((boot_tablesOk stack quantumTicks ticks).apps k r hl) (by
      rw [boot_occupant] at hl
      split at hl
      · cases hl
      · cases hl)) (fun q hq => by cases hq) fun q hq => by cases hq
  have hinv := run_invariant (fun _ _ _ h hp hs => StagedOk.step h hp hs) es _ s hboot hmeets hrun
  cases hd : (s.machine.sched.slots k).pageDirectory with
  | none => exact .inl hd
  | some r =>
    have hlive : occupant s.machine.sched k = .live (some r) :=
      occupant_live_iff.mpr ⟨hk.imp_right .inl, hd⟩
    obtain ⟨rfl, hmap⟩ := hinv.apps k r hlive
    exact .inr ⟨r, hd, hmap.1, hmap.2⟩

/-- A step of the shell and the stages it passes by itself. -/
def stages (e : ShellEvent) (n : Nat) : List StagedEvent :=
  .event (.shell e) :: List.replicate n .next

/-- A launch that nothing interrupts, with `used` records in use. -/
def stagedLaunch (background : Bool) (used stack : Nat) : List StagedEvent :=
  stages (.launch background 1) (7 + 2 * used) ++ stages .allocate (6 + used) ++
    stages (.prepare true) 2 ++ stages (.load true) 0 ++ stages (.spawn stack) 0

/-- In the middle of the reap of a second launch the first app starts a thread. -/
def calmStages : List StagedEvent :=
  stagedLaunch true 0 60 ++ stages (.launch false 1) 3 ++
    [.event (.tick 70), .event (.app (.threadSpawn true 61)), .event (.tick 71),
      .event (.tick 72)] ++
    List.replicate 7 .next ++ stages .allocate 8 ++ stages (.prepare true) 2 ++
    stages (.load true) 0 ++ stages (.spawn 62) 0

theorem directories_built_calm : ∃ s, run stagedStep ⟨boot 50 1 0, .between⟩ calmStages = some s ∧
    s.machine.sched.state 4 = .ready ∧ (s.machine.sched.slots 4).pageDirectory = some 4 ∧
    Loadable s.machine 4 := by
  have hrun : (run stagedStep ⟨boot 50 1 0, .between⟩ calmStages).isSome := by decide
  have hready : ∀ s ∈ run stagedStep ⟨boot 50 1 0, .between⟩ calmStages,
      s.machine.sched.state 4 = .ready := by decide
  have hdir : ∀ s ∈ run stagedStep ⟨boot 50 1 0, .between⟩ calmStages,
      (s.machine.sched.slots 4).pageDirectory = some 4 := by decide
  obtain ⟨s, hs⟩ := Option.isSome_iff_exists.mp hrun
  exact ⟨s, hs, hready s hs, hdir s hs,
    directories_built 50 1 0 calmStages s (by decide) hs 4 (.inl (hready s hs))⟩

/-- While the second app is loaded the first one exits, and the second is started in its slot. The
launch releases the record before it terminates the task. -/
def strayStages : List StagedEvent :=
  stagedLaunch true 0 60 ++ stages (.launch true 1) 9 ++ stages .allocate 7 ++
    stages (.prepare true) 2 ++ stages (.load true) 0 ++
    [.event (.tick 70), .event (.app (.exit 71))] ++ stages (.spawn 61) 0 ++ stages .release 3

/-- The shell's reap finds record 4 terminated; before it zeroes the record, a thread of the first
app reaps it too and is started on it. -/
def reapedStages : List StagedEvent :=
  stagedLaunch true 0 60 ++ stagedLaunch true 1 61 ++
    [.event (.tick 70), .event (.tick 71), .event (.app (.exit 72))] ++ stages .reap 4 ++
    [.event (.tick 73), .event (.app (.threadSpawn true 62)), .event (.tick 74),
      .event (.tick 75)] ++ List.replicate 3 .next

theorem stray_directory_zeroed :
    (∃ s, run stagedStep ⟨boot 50 1 0, .between⟩ strayStages = some s ∧
      s.machine.sched.state 3 = .ready ∧ ¬ Loadable s.machine 3) ∧
    ∃ s, run stagedStep ⟨boot 50 1 0, .between⟩ reapedStages = some s ∧
      s.machine.sched.state 4 = .ready ∧ ¬ Loadable s.machine 4 := by
  have hstray : (run stagedStep ⟨boot 50 1 0, .between⟩ strayStages).isSome := by decide
  have hreaped : (run stagedStep ⟨boot 50 1 0, .between⟩ reapedStages).isSome := by decide
  have hzeroed : ∀ s ∈ run stagedStep ⟨boot 50 1 0, .between⟩ strayStages,
      s.machine.sched.state 3 = .ready ∧ (s.machine.sched.slots 3).pageDirectory = some 4 ∧
        ¬ (s.machine.tasks 4).inUse := by decide
  have hzeroed' : ∀ s ∈ run stagedStep ⟨boot 50 1 0, .between⟩ reapedStages,
      s.machine.sched.state 4 = .ready ∧ (s.machine.sched.slots 4).pageDirectory = some 4 ∧
        ¬ (s.machine.tasks 4).inUse := by decide
  obtain ⟨s, hs⟩ := Option.isSome_iff_exists.mp hstray
  obtain ⟨s', hs'⟩ := Option.isSome_iff_exists.mp hreaped
  obtain ⟨hready, hd, hfree⟩ := hzeroed s hs
  obtain ⟨hready', hd', hfree'⟩ := hzeroed' s' hs'
  exact ⟨⟨s, hs, hready, not_loadable hd hfree⟩, s', hs', hready', not_loadable hd' hfree'⟩

end Apps
end MiniDos
