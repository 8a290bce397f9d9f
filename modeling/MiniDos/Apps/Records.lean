import MiniDos.Apps.Launch

/-!
# MiniDos.Apps.Records

Which task a record in use belongs to, when the only tasks from slot 3 on are apps and threads keep
clear of the launch under way.

* `Owned`: a live slot of a record in use runs that record.
* `launch_keeps_records`: the result over whole runs.
-/

namespace MiniDos
namespace Apps

open Sched Transition

def Event.isWorker : Event → Bool
  | .shell (.videostress _) => true
  | .shell (.stress _) => true
  | _ => false

/-- No kernel task is started. -/
def NoWorker (e : Event) : Prop := e.isWorker = false

instance (e : Event) : Decidable (NoWorker e) := inferInstanceAs (Decidable (_ = _))

/-- The record a step of a launch writes, apart from those the reaper zeroes. -/
def ShellEvent.writes (m : Machine) : ShellEvent → Option Nat
  | .prepare _ =>
    match m.shell with
    | .allocated _ _ pid _ => some pid
    | _ => none
  | .load _ =>
    match m.shell with
    | .prepared _ pid => some pid
    | _ => none
  | .release =>
    match m.shell with
    | .failed pid => some pid
    | .mismatched pid _ => some pid
    | _ => none
  | .join =>
    match m.shell with
    | .waiting pid => some pid
    | _ => none
  | _ => none

/-- Record `i` is in use and not by the launch under way, whose record owns its memory. -/
def InUseByOther (m : Machine) (i : Nat) : Prop :=
  (m.tasks i).inUse ∧ ¬ (m.shell.holds = some i ∧ (m.tasks i).ownsMemory)

/-- Slot `k` holds the task of record `i`, alive, or ended in its own slot. -/
def TaskOf (m : Machine) (i k : Nat) : Prop :=
  occupant m.sched k = .live (some i) ∨ (occupant m.sched k = .dead ∧ k = i)

/-- No launch is on its way to a started task, or back from one. -/
def Shell.Settled : Shell → Prop
  | .idle => True
  | .waiting _ => True
  | .killing _ _ => True
  | .stressing _ => True
  | _ => False

/-- Without kernel tasks, a live slot of a record in use runs that record. -/
structure Owned (m : Machine) : Prop where
  slots : ∀ i d, (m.tasks i).inUse → occupant m.sched i = .live d →
    d = some i ∨ ∃ r, d = some r ∧ m.shell.Stray i r
  kernel : ∀ k, occupant m.sched k = .live none → k < slotFirstPid
  spawned : ∀ i, (m.tasks i).inUse → occupant m.sched i = .unused → m.shell.pending = some i

namespace Owned

variable {m m' : Machine}

theorem fewer (h : Owned m) (hf : Fewer m m') : Owned m' where
  slots i d hu hl := by
    rw [hf.tasks] at hu
    rw [hf.shell]
    exact h.slots i d hu (hf.live hl)
  kernel k hl := h.kernel k (hf.live hl)
  spawned i hu hl := by
    rw [hf.tasks] at hu
    rw [hf.shell]
    exact h.spawned i hu (hf.unused hl)

theorem sub (h : Owned m) (hsched : m'.sched = m.sched) (hshell : m'.shell = m.shell)
    (huse : ∀ i, (m'.tasks i).inUse → (m.tasks i).inUse) : Owned m' where
  slots i d hu hl := by
    rw [hsched] at hl
    rw [hshell]
    exact h.slots i d (huse i hu) hl
  kernel k hl := h.kernel k (hsched ▸ hl)
  spawned i hu hl := by
    rw [hsched] at hl
    rw [hshell]
    exact h.spawned i (huse i hu) hl

theorem inUse_of_reap {i : Nat} (h : ((reapTerminatedTasks m).tasks i).inUse) :
    (m.tasks i).inUse := by
  rw [reap_tasks] at h
  split at h
  · cases h
  · exact h

theorem reap (h : Owned m) : Owned (reapTerminatedTasks m) :=
  h.sub (reap_sched m) (reap_shell m) fun _ => inUse_of_reap

theorem zeroed (h : Owned m) {i : Nat} (hsched : m'.sched = m.sched) (hshell : m'.shell = m.shell)
    (hself : m'.tasks i = .zero) (hother : ∀ k, k ≠ i → m'.tasks k = m.tasks k) : Owned m' := by
  refine h.sub hsched hshell fun k hu => ?_
  by_cases hk : k = i
  · rw [hk, hself] at hu
    cases hu
  · exact hother k hk ▸ hu

theorem release (h : Owned m) (i : Nat) : Owned (releaseTask m i) :=
  h.zeroed rfl rfl (releaseTask_self m i) (fun _ hk => releaseTask_of_ne m i hk)

theorem thread (h : Owned m) (built : Bool) (stack : Nat) :
    Owned (spawnAppThread m built stack).1 := by
  rcases spawnAppThread_cases m built stack with
    heq | ⟨_, _, heq | ⟨pid, hpid, ⟨hf, _⟩ | ⟨_, htasks, _, hshell, hocc⟩⟩⟩
  · rw [heq]
    exact h
  · rw [heq]
    exact h.reap
  · refine Owned.fewer ?_ hf
    exact h.reap.zeroed rfl rfl (setTask_self _ _ _) (fun k hk => setTask_of_ne _ _ _ hk)
  · have huse : ∀ i, i ≠ pid → ((spawnAppThread m built stack).1.tasks i).inUse →
        (m.tasks i).inUse := by
      intro i hi hu
      rw [htasks, setTask_of_ne _ _ _ hi] at hu
      exact inUse_of_reap hu
    refine ⟨fun i d hu hl => ?_, fun k hl => ?_, fun i hu hl => ?_⟩
    · rw [hocc] at hl
      by_cases hi : i = pid
      · rw [if_pos hi] at hl
        cases hl
        exact .inl (by rw [hi])
      · rw [if_neg hi] at hl
        rw [hshell]
        exact h.slots i d (huse i hi hu) hl
    · rw [hocc] at hl
      by_cases hk : k = pid
      · rw [if_pos hk] at hl
        cases hl
      · rw [if_neg hk] at hl
        exact h.kernel k hl
    · rw [hocc] at hl
      by_cases hi : i = pid
      · rw [if_pos hi] at hl
        cases hl
      · rw [if_neg hi] at hl
        rw [hshell]
        exact h.spawned i (huse i hi hu) hl

theorem moveShell (h : Owned m) {shell : Shell}
    (hstray : ∀ k r, m.shell.Stray k r → shell.Stray k r)
    (hpend : ∀ i, (m.tasks i).inUse → m.shell.pending = some i → shell.pending = some i) :
    Owned (withShell m shell) where
  slots i d hu hl := (h.slots i d hu hl).imp_right fun ⟨r, hd, hst⟩ => ⟨r, hd, hstray i r hst⟩
  kernel := h.kernel
  spawned i hu hl := hpend i hu (h.spawned i hu hl)

theorem leaveSettled (h : Owned m) {shell : Shell} (hpend : m.shell.pending = none)
    (hstray : ∀ k r, ¬ m.shell.Stray k r) : Owned (withShell m shell) :=
  h.moveShell (fun k r hst => absurd hst (hstray k r)) (fun i _ hp => by rw [hpend] at hp; cases hp)

theorem prepare (h : Owned m) (ht : TablesOk m) {background built : Bool}
    {slotBytes pid physBase : Nat} (he : m.shell = .allocated background slotBytes pid physBase) :
    Owned (prepareStep m background slotBytes pid physBase built) := by
  have hs := ht.shell
  unfold ShellOk at hs
  rw [he] at hs
  have hpend : (prepareStep m background slotBytes pid physBase built).shell.pending = some pid := by
    cases built <;> rfl
  have huse : ∀ i, i ≠ pid → ((prepareStep m background slotBytes pid physBase built).tasks i).inUse →
      (m.tasks i).inUse := by
    intro i hi hu
    simp only [prepareStep, withShell] at hu
    rw [setTask_of_ne _ _ _ hi] at hu
    exact hu
  refine ⟨fun i d hu hl => ?_, h.kernel, fun i hu hl => ?_⟩
  · have hl : occupant m.sched i = .live d := hl
    by_cases hi : i = pid
    · -- no kernel task, and no app without a record, can be in the slot
      cases d with
      | none =>
        have := h.kernel i hl
        omega
      | some r =>
        have hst := ht.free_no_app hs.2.2 (hi ▸ hl)
        rw [he] at hst
        cases hst
    · rcases h.slots i d (huse i hi hu) hl with hd | ⟨r, _, hst⟩
      · exact .inl hd
      · rw [he] at hst
        cases hst
  · by_cases hi : i = pid
    · rw [hpend, hi]
    · have := h.spawned i (huse i hi hu) hl
      rw [he] at this
      cases this
      exact absurd rfl hi

theorem start (h : Owned m) {s : Sched.State} {pid idx : Nat} {shell : Shell}
    (hst : Started m.sched s (some pid) idx) (hstray : ∀ k r, m.shell.Stray k r → shell.Stray k r)
    (hnew : pid = idx ∨ shell.Stray idx pid)
    (hpend : ∀ i, i ≠ idx → m.shell.pending = some i → shell.pending = some i) :
    Owned { m with sched := s, shell := shell } where
  slots i d hu hl := by
    rw [hst.slots] at hl
    by_cases hi : i = idx
    · rw [if_pos hi] at hl
      cases hl
      rw [hi]
      exact hnew.imp (fun e => by rw [e]) fun hs => ⟨pid, rfl, hs⟩
    · rw [if_neg hi] at hl
      exact (h.slots i d hu hl).imp_right fun ⟨r, hd, hs⟩ => ⟨r, hd, hstray i r hs⟩
  kernel k hl := by
    rw [hst.slots] at hl
    by_cases hk : k = idx
    · rw [if_pos hk] at hl
      cases hl
    · rw [if_neg hk] at hl
      exact h.kernel k hl
  spawned i hu hl := by
    rw [hst.slots] at hl
    by_cases hi : i = idx
    · rw [if_pos hi] at hl
      cases hl
    · rw [if_neg hi] at hl
      exact hpend i hi (h.spawned i hu hl)

theorem shellMove {e : ShellEvent} (h : Owned m) (ht : TablesOk m) (hno : NoWorker (.shell e))
    (hm : ShellMove m e m') : Owned m' := by
  have hs := ht.shell
  unfold ShellOk at hs
  cases hm with
  | refused _ => exact h
  | reaped _ => exact h.reap
  | chosen he _ _ =>
    exact h.reap.leaveSettled (by rw [reap_shell, he]; rfl) (fun k r hst => by
      rw [reap_shell, he] at hst
      cases hst)
  | noMemory he _ =>
    rw [he] at hs
    obtain ⟨htasks, hsched, hshell⟩ := TablesOk.allocate_fields m _
    have hreap : Owned (allocatePhysBase m _).1 := h.sub hsched hshell fun i hu => by
      rw [htasks] at hu
      exact inUse_of_reap hu
    refine hreap.moveShell (fun k r hst => by rw [hshell, he] at hst; cases hst) fun i hu hp => ?_
    -- the record chosen is still free
    rw [hshell, he] at hp
    cases hp
    rw [htasks] at hu
    exact absurd (inUse_of_reap hu) hs.2.2
  | allocated he _ =>
    obtain ⟨htasks, hsched, hshell⟩ := TablesOk.allocate_fields m _
    have hreap : Owned (allocatePhysBase m _).1 := h.sub hsched hshell fun i hu => by
      rw [htasks] at hu
      exact inUse_of_reap hu
    refine hreap.moveShell (fun k r hst => by rw [hshell, he] at hst; cases hst) fun i hu hp => ?_
    rw [hshell, he] at hp
    exact hp
  | prepared he => exact h.prepare ht he
  | @loaded background ok pid he =>
    refine h.moveShell (fun k r hst => by rw [he] at hst; cases hst) fun i _ hp => ?_
    rw [he] at hp
    cases ok <;> exact hp
  | notSpawned he =>
    refine h.moveShell (fun k r hst => by rw [he] at hst; cases hst) fun i _ hp => ?_
    rw [he] at hp
    exact hp
  | spawned he hst =>
    refine h.start hst (fun k r hst => by rw [he] at hst; cases hst) (.inl rfl) fun i hi hp => ?_
    rw [he] at hp
    cases hp
    exact absurd rfl hi
  | mismatched he hst _ =>
    refine h.start hst (fun k r hst => by rw [he] at hst; cases hst) (.inr ⟨rfl, rfl⟩) fun i hi hp => ?_
    rw [he] at hp
    exact hp
  | @released pid he =>
    refine (h.release pid).moveShell (fun k r hst => by rw [releaseTask_shell, he] at hst; cases hst) fun i hu hp => ?_
    rw [releaseTask_shell, he] at hp
    cases hp
    rw [releaseTask_self] at hu
    cases hu
  | @releasedFirst pid actualPid he =>
    refine (h.release pid).moveShell (fun k r hst => ?_) fun i hu hp => ?_
    · rw [releaseTask_shell, he] at hst
      exact hst.1
    · rw [releaseTask_shell, he] at hp
      cases hp
      rw [releaseTask_self] at hu
      cases hu
  | @terminated actualPid he =>
    rw [he] at hs
    have hf := fewer_terminateAt m actualPid
    refine ⟨fun i d hu hl => ?_, (h.fewer hf).kernel, fun i hu hl => ?_⟩
    · rcases (h.fewer hf).slots i d hu hl with hd | ⟨r, hd, hst⟩
      · exact .inl hd
      · rw [hf.shell, he] at hst
        have hl : occupant (terminateAt m actualPid).sched i = .live d := hl
        simp only [terminateAt, occupant_terminateProcess] at hl
        obtain ⟨hnot, _⟩ := Occupant.killed_eq_live hl
        have hst : i = actualPid := hst
        have hlow : slotFirstPid ≤ actualPid := hs.1
        simp only [slotFirstPid] at hlow
        exact absurd ⟨hst, by simp only [idlePid]; omega, hs.2⟩ hnot
    · have := (h.fewer hf).spawned i hu hl
      rw [hf.shell, he] at this
      cases this
  | @joined pid he _ =>
    exact (h.release pid).leaveSettled (by rw [releaseTask_shell, he]; rfl)
      (fun k r hst => by rw [releaseTask_shell, he] at hst; cases hst)
  | killing he _ _ =>
    exact h.reap.leaveSettled (by rw [reap_shell, he]; rfl) (fun k r hst => by
      rw [reap_shell, he] at hst
      cases hst)
  | killedNext he _ =>
    have hf := fewer_terminateMember m
    exact (h.fewer (hf _ _ _)).leaveSettled (by rw [(hf _ _ _).shell, he]; rfl)
      (fun k r hst => by rw [(hf _ _ _).shell, he] at hst; cases hst)
  | killedLeader he _ =>
    have hf := fewer_terminateAt m
    exact (h.fewer (hf _)).leaveSettled (by rw [(hf _).shell, he]; rfl)
      (fun k r hst => by rw [(hf _).shell, he] at hst; cases hst)
  | stressing _ => cases hno
  | stressed _ => cases hno
  | worker _ _ => cases hno

theorem step {e : Event} (h : Owned m) (ht : TablesOk m) (hno : NoWorker e)
    (hstep : step m e = some m') : Owned m' := by
  rcases step_cases hstep with ⟨built, stack, rfl, _, _, rfl⟩ | ⟨c, rfl, hm⟩ | ⟨hf, _⟩
  · exact h.thread built stack
  · exact h.shellMove ht hno hm
  · exact h.fewer hf

end Owned

theorem boot_owned (stack quantumTicks : Nat) (ticks : UInt32) :
    Owned (boot stack quantumTicks ticks) where
  slots i d hu := by cases hu
  kernel k hl := by
    rw [boot_occupant] at hl
    split at hl
    case isTrue hk => simp only [slotFirstPid]; omega
    case isFalse hk => cases hl
  spawned i hu := by cases hu

section Settled

variable {m : Machine}

theorem writes_own (h : TablesOk m) {c : ShellEvent} {i : Nat} (hw : c.writes m = some i) :
    ¬ InUseByOther m i := by
  have hs := h.shell
  unfold ShellOk at hs
  intro ⟨hu, hother⟩
  have hown : m.shell.holds = some i → False := fun hh => hother ⟨hh, (h.holds_inUse hh).2⟩
  cases c <;> simp only [ShellEvent.writes] at hw <;> try cases hw
  case prepare =>
    split at hw
    case h_1 he =>
      cases hw
      rw [he] at hs
      exact hs.2.2 hu
    case h_2 => cases hw
  case load =>
    split at hw
    case h_1 he => exact hown (by rw [he]; exact hw)
    case h_2 => cases hw
  case release =>
    split at hw
    case h_1 he => exact hown (by rw [he]; exact hw)
    case h_2 he => exact hown (by rw [he]; exact hw)
    case h_3 => cases hw
  case join =>
    split at hw
    case h_1 he => exact hown (by rw [he]; exact hw)
    case h_2 => cases hw

theorem taskOf_unique (h : TablesOk m) (ho : Owned m) (hset : m.shell.Settled) {i : Nat}
    (hu : (m.tasks i).inUse) :
    TaskOf m i (m.tasks i).pid ∧ ∀ k, TaskOf m i k → k = (m.tasks i).pid := by
  have hstray : ∀ k r, ¬ m.shell.Stray k r := by
    intro k r hst
    cases hshell : m.shell <;> rw [hshell] at hst hset
    all_goals first | exact hst | exact hset
  have hpend : m.shell.pending = none := by
    cases hshell : m.shell <;> rw [hshell] at hset
    all_goals first | rfl | cases hset
  rw [(h.pids i hu).2.2]
  constructor
  · cases hocc : occupant m.sched i with
    | unused =>
      have := ho.spawned i hu hocc
      rw [hpend] at this
      cases this
    | dead => exact .inr ⟨hocc, rfl⟩
    | live d =>
      rcases ho.slots i d hu hocc with rfl | ⟨r, _, hst⟩
      · exact .inl hocc
      · exact absurd hst (hstray i r)
  · rintro k (hl | ⟨_, hk⟩)
    · rcases h.apps k i hl with hst | ⟨e, _⟩
      · exact absurd hst (hstray k i)
      · exact e.symm
    · exact hk

end Settled

/-- In every run of launches, threads, exits, faults and kills in which threads keep clear of the
launch: no step of a launch writes a record in use by another task, the reaper only zeroes records
without a live task, and between launches every record in use has exactly one task, in the slot of
its pid. -/
theorem launch_keeps_records (stack quantumTicks : Nat) (ticks : UInt32) (es : List Event)
    (m : Machine)
    (hmeets : Meets step (fun m e => KeepsClear m e ∧ NoWorker e) (boot stack quantumTicks ticks) es)
    (hrun : run step (boot stack quantumTicks ticks) es = some m) :
    (∀ c i, ShellEvent.writes m c = some i → ¬ InUseByOther m i) ∧
      (∀ i, (reapTerminatedTasks m).tasks i ≠ m.tasks i → ∀ d, occupant m.sched i ≠ .live d) ∧
      (m.shell.Settled → ∀ i, (m.tasks i).inUse →
        TaskOf m i (m.tasks i).pid ∧ ∀ k, TaskOf m i k → k = (m.tasks i).pid) := by
  have hstep : ∀ m e m', TablesOk m ∧ Owned m → KeepsClear m e ∧ NoWorker e →
      step m e = some m' → TablesOk m' ∧ Owned m' :=
    fun m e m' h hp hs => ⟨h.1.step hp.1 hs, h.2.step h.1 hp.2 hs⟩
  obtain ⟨ht, ho⟩ := run_invariant hstep es _ m
    ⟨boot_tablesOk stack quantumTicks ticks, boot_owned stack quantumTicks ticks⟩ hmeets hrun
  refine ⟨fun c i hw => writes_own ht hw, fun i hne d hl => ?_, fun hset i hu =>
    taskOf_unique ht ho hset hu⟩
  exact hne (reap_tasks_of_live hl)

theorem launch_keeps_records_calm : ∃ m, run step (boot 50 1 0) calmRun = some m ∧
    m.shell = .waiting 5 ∧ ¬ InUseByOther m 5 ∧ (m.tasks 4).inUse ∧ TaskOf m 4 (m.tasks 4).pid := by
  have hrun : (run step (boot 50 1 0) calmRun).isSome := by decide
  have hshell : ∀ m ∈ run step (boot 50 1 0) calmRun, m.shell = .waiting 5 ∧ (m.tasks 4).inUse := by
    decide
  obtain ⟨m, hm⟩ := Option.isSome_iff_exists.mp hrun
  obtain ⟨hwait, hu⟩ := hshell m hm
  obtain ⟨hwrites, _, htask⟩ := launch_keeps_records 50 1 0 calmRun m (by decide) hm
  refine ⟨m, hm, hwait, hwrites .join 5 ?_, hu, (htask ?_ 4 hu).1⟩
  · simp only [ShellEvent.writes, hwait]
  · rw [hwait]
    trivial

/-- The second launch has chosen pid 4 when the first app starts a thread there. -/
def stolenRun : List Event :=
  backgroundLaunch 60 ++ [.shell (.launch true 1), .tick 70, .app (.threadSpawn true 61), .tick 71,
    .tick 72, .shell .allocate]

theorem launch_overwrites_thread : ∃ m, run step (boot 50 1 0) stolenRun = some m ∧
    (step m (.shell (.prepare true))).isSome ∧ ShellEvent.writes m (.prepare true) = some 4 ∧
    InUseByOther m 4 ∧ occupant m.sched 4 = .live (some 4) := by
  have hrun : (run step (boot 50 1 0) stolenRun).isSome := by decide
  have hstate : ∀ m ∈ run step (boot 50 1 0) stolenRun, (step m (.shell (.prepare true))).isSome ∧
      ShellEvent.writes m (.prepare true) = some 4 ∧
      ((m.tasks 4).inUse ∧ ¬ (m.shell.holds = some 4 ∧ (m.tasks 4).ownsMemory)) ∧
      occupant m.sched 4 = .live (some 4) := by decide
  obtain ⟨m, hm⟩ := Option.isSome_iff_exists.mp hrun
  exact ⟨m, hm, hstate m hm⟩

end Apps
end MiniDos
