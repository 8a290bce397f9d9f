import MiniDos.Apps.Steps

/-!
# MiniDos.Apps.Launch

Records and slots over whole runs. The launch chooses its pid well before it claims the record and
the slot, and other tasks may ask for threads in between.

* `KeepsClear`: no thread takes or reaps the record of a launch under way.
* `SpawnsInPlace`: the slot of a launched app is the one of its record.
* `TablesOk`: the invariant of the runs that keep clear; a task started in a foreign slot is a stray
  until the shell has terminated it.
* `NoStray`: no task has been started in the wrong slot.
-/

namespace MiniDos
namespace Apps

open Sched Transition

/-- The pid of the launch under way, up to the start of its task. -/
def Shell.pending : Shell → Option Nat
  | .chosen _ _ pid => some pid
  | .allocated _ _ pid _ => some pid
  | .prepared _ pid => some pid
  | .loaded _ pid => some pid
  | .failed pid => some pid
  | .mismatched pid _ => some pid
  | _ => none

/-- The record that the launch under way has written. -/
def Shell.holds : Shell → Option Nat
  | .prepared _ pid => some pid
  | .loaded _ pid => some pid
  | .failed pid => some pid
  | .mismatched pid _ => some pid
  | .waiting pid => some pid
  | _ => none

/-- Slot `k` holds a task that was started on record `r` in the wrong place. -/
def Shell.Stray : Shell → Nat → Nat → Prop
  | .mismatched pid actualPid, k, r => k = actualPid ∧ r = pid
  | .released actualPid, k, _ => k = actualPid
  | _, _, _ => False

def Event.isThreadSpawn : Event → Bool
  | .app (.threadSpawn _ _) => true
  | _ => false

/-- A thread is neither started on the record of a launch under way nor reaps it. -/
def KeepsClear (m : Machine) (e : Event) : Prop :=
  e.isThreadSpawn → (m.tasks m.sched.current).inUse → (m.tasks m.sched.current).background →
    ∀ pid ∈ m.shell.pending, ¬ Reapable m pid ∧ (findFreePid m).2 ≠ some pid

instance (m : Machine) (e : Event) : Decidable (KeepsClear m e) :=
  inferInstanceAs (Decidable (_ → _ → _ → _))

def Event.isSpawn : Event → Bool
  | .shell (.spawn _) => true
  | _ => false

/-- The task of a launch is started in the slot of its record, or in none. -/
def SpawnsInPlace (m : Machine) (e : Event) : Prop :=
  e.isSpawn → ∀ idx ∈ findFreeSlotFrom m.sched externalPidMin, ∀ pid ∈ m.shell.pending, idx = pid

instance (m : Machine) (e : Event) : Decidable (SpawnsInPlace m e) :=
  inferInstanceAs (Decidable (_ → _))

/-- A record in use whose page directory is built for its own pages. -/
def Mapped (task : AppTask) : Prop :=
  task.inUse ∧ task.directory = some (task.physBase, task.slotBytes)

/-- A record as a launch writes it, which no task runs on yet. -/
structure Claimed (task : AppTask) (s : Sched.State) (pid : Nat) : Prop where
  inUse : task.inUse
  owns : task.ownsMemory
  idle : occupant s pid ≠ .live (some pid)

def ShellOk (m : Machine) : Prop :=
  match m.shell with
  | .chosen _ _ pid => slotFirstPid ≤ pid ∧ pid < maxProcesses ∧ ¬ (m.tasks pid).inUse
  | .allocated _ _ pid _ => slotFirstPid ≤ pid ∧ pid < maxProcesses ∧ ¬ (m.tasks pid).inUse
  | .prepared background pid => Claimed (m.tasks pid) m.sched pid ∧ Mapped (m.tasks pid) ∧
      (m.tasks pid).joinOnExit = !background
  | .loaded background pid => Claimed (m.tasks pid) m.sched pid ∧ Mapped (m.tasks pid) ∧
      (m.tasks pid).joinOnExit = !background
  | .failed pid => Claimed (m.tasks pid) m.sched pid
  | .mismatched pid actualPid => Claimed (m.tasks pid) m.sched pid ∧ Mapped (m.tasks pid) ∧
      slotFirstPid ≤ actualPid ∧ actualPid < maxProcesses
  | .released actualPid => slotFirstPid ≤ actualPid ∧ actualPid < maxProcesses
  | .waiting pid => (m.tasks pid).inUse ∧ (m.tasks pid).ownsMemory ∧ (m.tasks pid).joinOnExit
  | _ => True

/-- The invariant: a live app runs in the slot of its own record, which is mapped. -/
structure TablesOk (m : Machine) : Prop where
  pids : PidsInPlace m
  apps : ∀ k r, occupant m.sched k = .live (some r) →
    m.shell.Stray k r ∨ (r = k ∧ Mapped (m.tasks k))
  shell : ShellOk m

theorem boot_occupant (stack quantumTicks : Nat) (ticks : UInt32) (k : Nat) :
    occupant (boot stack quantumTicks ticks).sched k =
      if k < 2 then .live none else .unused := by
  match k with
  | 0 => rfl
  | 1 => rfl
  | k + 2 => rfl

theorem boot_tablesOk (stack quantumTicks : Nat) (ticks : UInt32) :
    TablesOk (boot stack quantumTicks ticks) where
  pids i h := by cases h
  apps k r h := by
    rw [boot_occupant] at h
    split at h
    · cases h
    · cases h
  shell := trivial

/-! ## What the parts of a step keep -/

/-- What the shell relies on: the record it holds, that no app runs on it yet, and that the record
it chose is still free. -/
theorem ShellOk.change {m m' : Machine} (h : ShellOk m) (hshell : m'.shell = m.shell)
    (hkeep : ∀ pid, m.shell.holds = some pid → m'.tasks pid = m.tasks pid)
    (hidle : ∀ pid, m.shell.holds = some pid → occupant m'.sched pid = .live (some pid) →
      occupant m.sched pid = .live (some pid))
    (hfree : ∀ pid, m.shell.pending = some pid → (m'.tasks pid).inUse → (m.tasks pid).inUse) :
    ShellOk m' := by
  have hclaim : ∀ {pid}, m.shell.holds = some pid → Claimed (m.tasks pid) m.sched pid →
      Claimed (m'.tasks pid) m'.sched pid := by
    intro pid hh hc
    exact ⟨hkeep pid hh ▸ hc.inUse, hkeep pid hh ▸ hc.owns, fun hl => hc.idle (hidle pid hh hl)⟩
  unfold ShellOk at h ⊢
  rw [hshell]
  cases hs : m.shell <;> simp only [hs] at h ⊢
  case chosen => exact ⟨h.1, h.2.1, fun hu => h.2.2 (hfree _ (by rw [hs]; rfl) hu)⟩
  case allocated => exact ⟨h.1, h.2.1, fun hu => h.2.2 (hfree _ (by rw [hs]; rfl) hu)⟩
  case prepared pid =>
    have hh : m.shell.holds = some pid := by rw [hs]; rfl
    have hc := hclaim hh h.1
    rw [hkeep pid hh] at hc ⊢
    exact ⟨hc, h.2⟩
  case loaded pid =>
    have hh : m.shell.holds = some pid := by rw [hs]; rfl
    have hc := hclaim hh h.1
    rw [hkeep pid hh] at hc ⊢
    exact ⟨hc, h.2⟩
  case failed pid => exact hclaim (by rw [hs]; rfl) h
  case mismatched pid actualPid =>
    have hh : m.shell.holds = some pid := by rw [hs]; rfl
    have hc := hclaim hh h.1
    rw [hkeep pid hh] at hc ⊢
    exact ⟨hc, h.2⟩
  case waiting pid =>
    rw [hkeep pid (by rw [hs]; rfl)]
    exact h
  all_goals exact h

namespace TablesOk

variable {m m' : Machine}

theorem fewer (h : TablesOk m) (hf : Fewer m m') : TablesOk m' where
  pids := by
    unfold PidsInPlace
    rw [hf.tasks]
    exact h.pids
  apps k r hl := by
    rw [hf.shell, hf.tasks]
    exact h.apps k r (hf.live hl)
  shell := h.shell.change hf.shell (fun _ _ => by rw [hf.tasks]) (fun _ _ hl => hf.live hl)
    (fun _ _ hu => hf.tasks ▸ hu)

theorem holds_inUse (h : TablesOk m) {pid : Nat} (hp : m.shell.holds = some pid) :
    (m.tasks pid).inUse ∧ (m.tasks pid).ownsMemory := by
  have hs := h.shell
  unfold ShellOk at hs
  cases hshell : m.shell <;> simp only [hshell, Shell.holds, Option.some.injEq] at hp hs
  case prepared => exact hp ▸ ⟨hs.1.inUse, hs.1.owns⟩
  case loaded => exact hp ▸ ⟨hs.1.inUse, hs.1.owns⟩
  case failed => exact hp ▸ ⟨hs.inUse, hs.owns⟩
  case mismatched => exact hp ▸ ⟨hs.1.inUse, hs.1.owns⟩
  case waiting => exact hp ▸ ⟨hs.1, hs.2.1⟩
  all_goals cases hp

theorem zeroed (h : TablesOk m) {i : Nat}
    (hidle : occupant m.sched i = .live (some i) → ¬ (m.tasks i).inUse)
    (hheld : m.shell.holds ≠ some i) (hsched : m'.sched = m.sched) (hshell : m'.shell = m.shell)
    (hself : m'.tasks i = .zero) (hother : ∀ k, k ≠ i → m'.tasks k = m.tasks k) : TablesOk m' where
  pids k hk := by
    by_cases hki : k = i
    · rw [hki, hself] at hk
      cases hk
    · rw [hother k hki] at hk ⊢
      exact h.pids k hk
  apps k r hl := by
    rw [hsched] at hl
    rw [hshell]
    rcases h.apps k r hl with hs | ⟨rfl, hmap⟩
    · exact .inl hs
    · have hki : r ≠ i := fun e => hidle (e ▸ hl) (e ▸ hmap.1)
      rw [hother r hki]
      exact .inr ⟨rfl, hmap⟩
  shell := by
    refine h.shell.change hshell (fun pid hp => hother pid fun e => hheld (e ▸ hp))
      (fun _ _ hl => hsched ▸ hl) ?_
    intro pid _ hu
    by_cases hpi : pid = i
    · rw [hpi, hself] at hu
      cases hu
    · exact hother pid hpi ▸ hu

theorem release (h : TablesOk m) {i : Nat} (hidle : occupant m.sched i ≠ .live (some i))
    (hheld : m.shell.holds ≠ some i) : TablesOk (releaseTask m i) :=
  h.zeroed (fun hl => absurd hl hidle) hheld rfl rfl (releaseTask_self m i)
    (fun _ hk => releaseTask_of_ne m i hk)

theorem holds_not_reapable (h : TablesOk m)
    (hclear : ∀ pid, m.shell.pending = some pid → ¬ Reapable m pid) {pid : Nat}
    (hp : m.shell.holds = some pid) : ¬ Reapable m pid := by
  have hs := h.shell
  unfold ShellOk at hs
  cases hshell : m.shell <;> simp only [hshell, Shell.holds, Option.some.injEq] at hp hs
  case waiting => exact fun hr => hr.2.2 (hp ▸ hs.2.2)
  all_goals
    first
    | exact hclear pid (by rw [hshell, hp]; rfl)
    | cases hp

theorem reap (h : TablesOk m) (hclear : ∀ pid, m.shell.pending = some pid → ¬ Reapable m pid) :
    TablesOk (reapTerminatedTasks m) := by
  have hheld : ∀ pid, m.shell.holds = some pid → ¬ Reapable m pid :=
    fun pid => h.holds_not_reapable hclear
  refine (reap_induction (P := fun m' => TablesOk m' ∧ m'.sched = m.sched ∧ m'.shell = m.shell ∧
    ∀ pid, m.shell.holds = some pid → m'.tasks pid = m.tasks pid) ?_ ⟨h, rfl, rfl, fun _ _ => rfl⟩).1
  intro m' i ⟨hok, hsched, hshell, htasks⟩ _ _ hr
  have hne : ∀ pid, m.shell.holds = some pid → pid ≠ i := by
    intro pid hp e
    refine hheld pid hp ?_
    unfold Reapable
    rw [← htasks pid hp, ← hsched, e]
    exact hr
  refine ⟨hok.release (not_live_iff.mpr hr.2.1 _) (fun e => hne i (hshell ▸ e) rfl), hsched, hshell,
    fun pid hp => ?_⟩
  rw [releaseTask_of_ne _ _ (hne pid hp)]
  exact htasks pid hp

theorem free_no_app (h : TablesOk m) {pid : Nat} (hfree : ¬ (m.tasks pid).inUse) {r : Nat}
    (hl : occupant m.sched pid = .live (some r)) : m.shell.Stray pid r := by
  rcases h.apps pid r hl with hs | ⟨rfl, hmap⟩
  · exact hs
  · exact absurd hmap.1 hfree

/-! ## System calls -/

theorem thread (h : TablesOk m) {built : Bool} {stack : Nat}
    (hclear : KeepsClear m (.app (.threadSpawn built stack))) :
    TablesOk (spawnAppThread m built stack).1 := by
  rcases spawnAppThread_cases m built stack with heq | ⟨huse, hbg, hrest⟩
  · rw [heq]
    exact h
  · have hclear' := hclear rfl huse hbg
    have hreap := h.reap fun pid hp => (hclear' pid hp).1
    rcases hrest with heq | ⟨pid, hpid, hend⟩
    · rw [heq]
      exact hreap
    · obtain ⟨hlow, hhigh, hfree, _⟩ := findFreePid_some hpid
      have hfree : ¬ ((reapTerminatedTasks m).tasks pid).inUse := hfree
      have hpend : m.shell.pending ≠ some pid := fun e => (hclear' pid e).2 hpid
      have hheld : (reapTerminatedTasks m).shell.holds ≠ some pid :=
        fun e => hfree (hreap.holds_inUse e).1
      rcases hend with ⟨hf, _⟩ | ⟨hslot, htasks, _, hshell, hocc⟩
      · refine TablesOk.fewer ?_ hf
        exact hreap.zeroed (fun _ => hfree) hheld rfl rfl (setTask_self _ _ _)
          (fun k hk => setTask_of_ne _ _ _ hk)
      · have hother : ∀ k, k ≠ pid → (spawnAppThread m built stack).1.tasks k =
            (reapTerminatedTasks m).tasks k := fun k hk => by rw [htasks, setTask_of_ne _ _ _ hk]
        have hself : (spawnAppThread m built stack).1.tasks pid =
            clonedTask ((reapTerminatedTasks m).tasks m.sched.current) pid true := by
          rw [htasks, setTask_self]
        refine ⟨fun k hk => ?_, fun k r hl => ?_, ?_⟩
        · by_cases hkp : k = pid
          · rw [hkp, hself]
            exact ⟨hlow, hhigh, rfl⟩
          · rw [hother k hkp] at hk ⊢
            exact hreap.pids k hk
        · rw [hocc] at hl
          by_cases hkp : k = pid
          · rw [if_pos hkp] at hl
            cases hl
            rw [hkp, hself]
            exact .inr ⟨rfl, rfl, rfl⟩
          · rw [if_neg hkp] at hl
            rw [hshell, hother k hkp]
            have := hreap.apps k r (by rw [reap_sched]; exact hl)
            rw [reap_shell] at this
            exact this
        · rw [reap_shell] at hheld
          refine hreap.shell.change (by rw [hshell, reap_shell])
            (fun q hq => hother q fun e => hheld (e ▸ reap_shell m ▸ hq)) ?_ ?_
          · intro q hq hl
            have hne : q ≠ pid := fun e => hheld (e ▸ reap_shell m ▸ hq)
            rw [hocc, if_neg hne] at hl
            rw [reap_sched]
            exact hl
          · intro q hq hu
            have hne : q ≠ pid := fun e => hpend (e ▸ reap_shell m ▸ hq)
            exact hother q hne ▸ hu

/-! ## The shell -/

theorem moveShell (h : TablesOk m) {shell : Shell}
    (hstray : ∀ k r, m.shell.Stray k r → shell.Stray k r) (hok : ShellOk (withShell m shell)) :
    TablesOk (withShell m shell) where
  pids := h.pids
  apps k r hl := (h.apps k r hl).imp_left (hstray k r)
  shell := hok

theorem allocate (h : TablesOk m) {background : Bool} {slotBytes pid : Nat}
    (hshell : m.shell = .chosen background slotBytes pid) :
    TablesOk (allocatePhysBase m slotBytes).1 := by
  have hs := h.shell
  unfold ShellOk at hs
  rw [hshell] at hs
  have hreap := h.reap fun q hq hr => by
    rw [hshell] at hq
    cases hq
    exact hs.2.2 hr.1
  -- only pages differ from what the reaper leaves
  have hshell' := hreap.shell
  unfold allocatePhysBase allocatePages
  simp only
  split
  · exact hreap
  · split
    · exact hreap
    · split
      · exact hreap
      · exact ⟨hreap.pids, hreap.apps, hshell'⟩

theorem allocate_fields (m : Machine) (slotBytes : Nat) :
    (allocatePhysBase m slotBytes).1.tasks = (reapTerminatedTasks m).tasks ∧
      (allocatePhysBase m slotBytes).1.sched = m.sched ∧
      (allocatePhysBase m slotBytes).1.shell = m.shell := by
  unfold allocatePhysBase allocatePages
  simp only
  split
  · exact ⟨rfl, reap_sched m, reap_shell m⟩
  · split
    · exact ⟨rfl, reap_sched m, reap_shell m⟩
    · split
      · exact ⟨rfl, reap_sched m, reap_shell m⟩
      · exact ⟨rfl, reap_sched m, reap_shell m⟩

theorem prepare (h : TablesOk m) {background built : Bool} {slotBytes pid physBase : Nat}
    (hshell : m.shell = .allocated background slotBytes pid physBase) :
    TablesOk (prepareStep m background slotBytes pid physBase built) := by
  have hs := h.shell
  unfold ShellOk at hs
  rw [hshell] at hs
  obtain ⟨hlow, hhigh, hfree⟩ := hs
  have hnone : ∀ r, occupant m.sched pid ≠ .live (some r) := by
    intro r hl
    have hstray := h.free_no_app hfree hl
    rw [hshell] at hstray
    exact hstray
  have hclaim : Claimed (preparedTask background pid physBase slotBytes built) m.sched pid :=
    ⟨rfl, rfl, hnone pid⟩
  refine ⟨fun k hk => ?_, fun k r hl => ?_, ?_⟩
  · simp only [prepareStep, withShell] at hk ⊢
    by_cases hkp : k = pid
    · rw [hkp]
      simp [preparedTask, hlow, hhigh]
    · rw [setTask_of_ne _ _ _ hkp] at hk ⊢
      exact h.pids k hk
  · have hl : occupant m.sched k = .live (some r) := hl
    have hkp : k ≠ pid := fun e => hnone r (e ▸ hl)
    simp only [prepareStep, withShell]
    rw [setTask_of_ne _ _ _ hkp]
    rcases h.apps k r hl with hstray | hmap
    · rw [hshell] at hstray
      cases hstray
    · exact .inr hmap
  · cases built with
    | false => simpa [ShellOk, prepareStep, withShell] using hclaim
    | true =>
      simp only [ShellOk, prepareStep, withShell, if_pos, setTask_self, setTask_sched]
      exact ⟨hclaim, ⟨rfl, rfl⟩, rfl⟩

theorem start (h : TablesOk m) {s : Sched.State} {d : Option Nat} {idx : Nat} {shell : Shell}
    (hst : Started m.sched s d idx) (hstray : ∀ k r, m.shell.Stray k r → shell.Stray k r)
    (hnew : ∀ r, d = some r → shell.Stray idx r ∨ (r = idx ∧ Mapped (m.tasks idx)))
    (hok : ShellOk { m with sched := s, shell := shell }) :
    TablesOk { m with sched := s, shell := shell } where
  pids := h.pids
  apps k r hl := by
    rw [hst.slots] at hl
    by_cases hk : k = idx
    · rw [if_pos hk] at hl
      cases hl
      rw [hk]
      exact hnew r rfl
    · rw [if_neg hk] at hl
      exact (h.apps k r hl).imp_left (hstray k r)
  shell := hok

theorem shellMove {e : ShellEvent} (h : TablesOk m) (hm : ShellMove m e m') : TablesOk m' := by
  have hs := h.shell
  unfold ShellOk at hs
  have hidle : m.shell = .idle → TablesOk (reapTerminatedTasks m) := fun he =>
    h.reap fun q hq => by rw [he] at hq; cases hq
  cases hm with
  | refused he => exact h
  | reaped he => exact hidle he
  | @chosen background imageBytes pid he _ hpid =>
    obtain ⟨hlow, hhigh, hfree, _⟩ := findFreePid_some hpid
    refine (hidle he).moveShell (fun k r hst => ?_) ⟨hlow, hhigh, hfree⟩
    rw [reap_shell, he] at hst
    cases hst
  | noMemory he _ =>
    refine (h.allocate he).moveShell (fun k r hst => ?_) trivial
    rw [(allocate_fields m _).2.2, he] at hst
    cases hst
  | allocated he _ =>
    have ha := h.allocate he
    have hf := allocate_fields m
    have hs' := ha.shell
    unfold ShellOk at hs'
    rw [(hf _).2.2, he] at hs'
    refine ha.moveShell (fun k r hst => ?_) hs'
    rw [(hf _).2.2, he] at hst
    cases hst
  | prepared he => exact h.prepare he
  | @loaded background ok pid he =>
    rw [he] at hs
    refine h.moveShell (fun k r hst => by rw [he] at hst; cases hst) ?_
    cases ok with
    | true => exact hs
    | false => exact hs.1
  | notSpawned he =>
    rw [he] at hs
    exact h.moveShell (fun k r hst => by rw [he] at hst; cases hst) hs.1
  | @spawned background pid stack s he hst =>
    rw [he] at hs
    refine h.start hst (fun k r hstr => by rw [he] at hstr; cases hstr) (fun r hr => ?_) ?_
    · cases hr
      exact .inr ⟨rfl, hs.2.1⟩
    · cases background with
      | true => trivial
      | false => exact ⟨hs.1.inUse, hs.1.owns, hs.2.2⟩
  | mismatched he hst hne =>
    rw [he] at hs
    refine h.start hst (fun k r hstr => by rw [he] at hstr; cases hstr) (fun r hr => ?_) ?_
    · cases hr
      exact .inl ⟨rfl, rfl⟩
    · refine ⟨⟨hs.1.inUse, hs.1.owns, fun hl => hs.1.idle ?_⟩, hs.2.1, hst.low, hst.high⟩
      have hl : occupant _ _ = _ := hl
      rw [hst.slots, if_neg (fun e => hne e.symm)] at hl
      exact hl
  | @released pid he =>
    rw [he] at hs
    have hidle : TablesOk (withShell m .idle) :=
      h.moveShell (fun k r hst => by rw [he] at hst; cases hst) trivial
    exact hidle.release hs.idle (fun e => by cases e)
  | @releasedFirst pid actualPid he =>
    rw [he] at hs
    have hnext : TablesOk (withShell m (.released actualPid)) :=
      h.moveShell (fun k r hst => by rw [he] at hst; exact hst.1) hs.2.2
    exact hnext.release hs.1.idle (fun e => by cases e)
  | @terminated actualPid he =>
    rw [he] at hs
    have hf := fewer_terminateAt m actualPid
    refine ⟨(h.fewer hf).pids, fun k r hl => ?_, trivial⟩
    have hl : occupant (terminateAt m actualPid).sched k = .live (some r) := hl
    rcases (h.fewer hf).apps k r hl with hst | hmap
    · -- the stray is the task that was terminated
      rw [hf.shell, he] at hst
      simp only [terminateAt, occupant_terminateProcess] at hl
      obtain ⟨hnot, _⟩ := Occupant.killed_eq_live hl
      have hst : k = actualPid := hst
      have hlow : slotFirstPid ≤ actualPid := hs.1
      simp only [slotFirstPid] at hlow
      exact absurd ⟨hst, by simp only [idlePid]; omega, hs.2⟩ hnot
    · exact .inr hmap
  | @joined pid he hdead =>
    have hidle : TablesOk (withShell m .idle) :=
      h.moveShell (fun k r hst => by rw [he] at hst; cases hst) trivial
    exact hidle.release (not_live_iff.mpr hdead _) (fun e => by cases e)
  | killing he _ _ =>
    refine (hidle he).moveShell (fun k r hst => ?_) trivial
    rw [reap_shell, he] at hst
    cases hst
  | killedNext he _ =>
    refine (h.fewer (fewer_terminateMember m _ _ _)).moveShell (fun k r hst => ?_) trivial
    rw [(fewer_terminateMember m _ _ _).shell, he] at hst
    cases hst
  | killedLeader he _ =>
    refine (h.fewer (fewer_terminateAt m _)).moveShell (fun k r hst => ?_) trivial
    rw [(fewer_terminateAt m _).shell, he] at hst
    cases hst
  | stressing he => exact h.moveShell (fun k r hst => by rw [he] at hst; cases hst) trivial
  | stressed he => exact h.moveShell (fun k r hst => by rw [he] at hst; cases hst) trivial
  | worker he hst =>
    exact h.start hst (fun k r hstr => by rw [he] at hstr; cases hstr) (fun r hr => by cases hr) trivial

theorem step {e : Event} (h : TablesOk m) (hclear : KeepsClear m e)
    (hstep : step m e = some m') : TablesOk m' := by
  rcases step_cases hstep with ⟨built, stack, rfl, _, _, rfl⟩ | ⟨c, rfl, hm⟩ | ⟨hf, _⟩
  · exact h.thread hclear
  · exact h.shellMove hm
  · exact h.fewer hf

end TablesOk
/-! ## Page directories -/

theorem spawnAppThread_shell (m : Machine) (built : Bool) (stack : Nat) :
    (spawnAppThread m built stack).1.shell = m.shell := by
  rcases spawnAppThread_cases m built stack with heq | ⟨_, _, heq | ⟨pid, _, ⟨hf, _⟩ | hgrant⟩⟩
  · rw [heq]
  · rw [heq, reap_shell]
  · rw [hf.shell, setTask_shell, reap_shell]
  · exact hgrant.2.2.2.1

/-- No task has been started in the wrong slot. -/
def NoStray (m : Machine) : Prop := ∀ k r, ¬ m.shell.Stray k r

theorem NoStray.step {m m' : Machine} {e : Event} (h : NoStray m) (hin : SpawnsInPlace m e)
    (hstep : step m e = some m') : NoStray m' := by
  rcases step_cases hstep with ⟨built, stack, rfl, _, _, rfl⟩ | ⟨c, rfl, hm⟩ | ⟨hf, _⟩
  · unfold NoStray
    rw [spawnAppThread_shell]
    exact h
  · intro k r hst
    cases hm with
    | refused _ => exact h k r hst
    | reaped _ =>
      rw [reap_shell] at hst
      exact h k r hst
    | mismatched he hs hne => exact hne (hin rfl _ hs.lowest _ (by rw [he]; rfl))
    | @releasedFirst pid actualPid he => exact h actualPid pid (by rw [he]; exact ⟨rfl, rfl⟩)
    | @prepared background built slotBytes pid physBase _ => cases built <;> cases hst
    | @loaded background ok pid _ => cases ok <;> cases hst
    | @spawned background pid stack s _ _ => cases background <;> cases hst
    | _ => cases hst
  · unfold NoStray
    rw [hf.shell]
    exact h

/-- The steps of `runbg` on a small program. -/
def backgroundLaunch (stack : Nat) : List Event :=
  [.shell (.launch true 1), .shell .allocate, .shell (.prepare true), .shell (.load true),
    .shell (.spawn stack)]

/-- An app starts a thread while the shell is at its prompt; then another app is run. -/
def calmRun : List Event :=
  backgroundLaunch 60 ++ [.tick 70, .app (.threadSpawn true 61), .tick 71, .tick 72,
    .shell (.launch false 1), .shell .allocate, .shell (.prepare true), .shell (.load true),
    .shell (.spawn 62)]

end Apps
end MiniDos
