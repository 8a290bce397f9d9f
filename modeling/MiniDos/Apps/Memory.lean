import MiniDos.Lib.Ranges
import MiniDos.Apps.Launch

/-!
# MiniDos.Apps.Memory

The pages of the arena over whole runs. Pages belong to the record of a group leader and are mapped
by all tasks of the group; the reaper gives them back when the slot of the leader holds no task.

* `Machine.held`: the run of pages of each record that owns memory, and of a launch that has not
  claimed its record yet.
* `MemOk`: the invariant; a live task has a live leader, whose pages it maps.
* `KillsWhole`: no thread slips behind a kill.
* `pages_accounted`: the result over whole runs.
-/

namespace MiniDos
namespace Apps

open Sched Transition Ranges

variable {i : Nat}

/-- First page and number of pages. -/
def pagesOf (physBase slotBytes : Nat) : Nat × Nat :=
  ((physBase - arenaPhysBase) / pageSize, slotBytes / pageSize)

/-- A run of whole pages of the arena. -/
def InArena (physBase slotBytes : Nat) : Prop :=
  ∃ start count, physBase = arenaPhysBase + start * pageSize ∧ slotBytes = count * pageSize ∧
    0 < count ∧ start + count ≤ arenaPageCount

def Owner (m : Machine) (i : Nat) : Prop := (m.tasks i).inUse ∧ (m.tasks i).ownsMemory

def AppTask.pages (task : AppTask) : Option (Nat × Nat) :=
  if task.inUse ∧ task.ownsMemory then some (pagesOf task.physBase task.slotBytes) else none

/-- The pages of a launch between allocation and the preparation of its record. -/
def Shell.unclaimed : Shell → Option (Nat × Nat)
  | .allocated _ slotBytes _ physBase => some (pagesOf physBase (alignUp slotBytes pageSize))
  | _ => none

/-- Who has which pages: the records that own memory, and the launch under way (`none`). -/
def Machine.held (m : Machine) : Option Nat → Option (Nat × Nat)
  | some i => (m.tasks i).pages
  | none => m.shell.unclaimed

/-- The group and the next record of a kill under way. -/
def Shell.kills : Shell → Option (Nat × Nat)
  | .killing leaderPid next => some (leaderPid, next)
  | _ => none

/-- A thread of a group that is being killed gets a record that the kill has not passed yet. -/
def KillsWhole (m : Machine) (e : Event) : Prop :=
  e.isThreadSpawn → (m.tasks m.sched.current).inUse → (m.tasks m.sched.current).background →
    ∀ q ∈ m.shell.kills, groupLeaderPid (m.tasks m.sched.current) = q.1 →
      ∀ pid ∈ (findFreePid m).2, q.2 ≤ pid

instance (m : Machine) (e : Event) : Decidable (KillsWhole m e) :=
  inferInstanceAs (Decidable (_ → _ → _ → _))

/-! ## Pages -/

theorem arenaPageCount_eq : arenaPageCount = 1024 := by decide

theorem alignUp_page (value : Nat) : ∃ count, alignUp value pageSize = count * pageSize := by
  unfold alignUp
  rw [if_neg (by decide)]
  split
  · exact ⟨0, by simp⟩
  · exact ⟨_, rfl⟩

theorem alignUp_self {count : Nat} (h : count ≤ arenaPageCount) :
    alignUp (count * pageSize) pageSize = count * pageSize := by
  rw [arenaPageCount_eq] at h
  unfold alignUp
  rw [if_neg (by decide), if_neg (by simp only [pageSize]; omega)]
  simp only [pageSize]
  omega

section Arena

variable {physBase slotBytes start count : Nat}

theorem pagesOf_eq (hbase : physBase = arenaPhysBase + start * pageSize)
    (hbytes : slotBytes = count * pageSize) : pagesOf physBase slotBytes = (start, count) := by
  subst hbase hbytes
  simp only [pagesOf, pageSize, arenaPhysBase, Prod.mk.injEq]
  omega

theorem releasePhysRange_eq (h : InArena physBase slotBytes) (used : Nat → Bool) (p : Nat) :
    releasePhysRange used physBase slotBytes p =
      if InRun (pagesOf physBase slotBytes) p then false else used p := by
  obtain ⟨start, count, hbase, hbytes, hpos, hfit⟩ := h
  rw [pagesOf_eq hbase hbytes]
  have hfit' := hfit
  rw [arenaPageCount_eq] at hfit'
  have hself : alignUp slotBytes pageSize = count * pageSize := by
    rw [hbytes]
    exact alignUp_self (by omega)
  have hfirst : (physBase - arenaPhysBase) / pageSize = start :=
    congrArg Prod.fst (pagesOf_eq hbase hbytes)
  have hcount : count * pageSize / pageSize = count := Nat.mul_div_cancel count (by decide)
  have hrange : ¬ (physBase < arenaPhysBase ∨ arenaPhysBase + arenaSize ≤ physBase ∨
      slotBytes = 0) := by
    simp only [hbase, hbytes, arenaPhysBase, arenaSize, slotMaxSize, pageSize]
    omega
  have haligned : ¬ (count * pageSize = 0 ∨ physBase % pageSize ≠ 0) := by
    simp only [hbase, arenaPhysBase, pageSize]
    omega
  unfold releasePhysRange
  rw [if_neg hrange, hself, if_neg haligned, hfirst, hcount, if_neg (by omega)]
  rfl

end Arena

theorem usedIn_none {used : Nat → Bool} {start n : Nat} : ∀ {i : Nat},
    usedIn used start n i = none → ∀ j, i ≤ j → j < i + n → used (start + j) = false := by
  induction n with
  | zero => exact fun _ j h1 h2 => absurd h2 (by omega)
  | succ n ih =>
    intro i h j hij hjn
    simp only [usedIn] at h
    split at h
    case isTrue hu => cases h
    case isFalse hu =>
      by_cases hji : j = i
      · rw [hji]
        exact Bool.eq_false_iff.mpr hu
      · exact ih h j (by omega) (by omega)

theorem freeRunFrom_some {used : Nat → Bool} {pageCount fuel : Nat} : ∀ {start s : Nat},
    freeRunFrom used pageCount fuel start = some s →
    s + pageCount ≤ arenaPageCount ∧ ∀ p, InRun (s, pageCount) p → used p = false := by
  induction fuel with
  | zero =>
    intro start s h
    cases h
  | succ fuel ih =>
    intro start s h
    simp only [freeRunFrom] at h
    split at h
    case isTrue => cases h
    case isFalse hfit =>
      split at h
      case h_1 => exact ih h
      case h_2 hnone =>
        cases h
        refine ⟨by omega, fun p hp => ?_⟩
        have hp1 : start ≤ p := hp.1
        have hp2 : p < start + pageCount := hp.2
        have := usedIn_none hnone (p - start) (Nat.zero_le _) (by omega)
        rwa [show start + (p - start) = p by omega] at this

theorem allocatePhysBase_none {m : Machine} {slotBytes : Nat}
    (h : (allocatePhysBase m slotBytes).2 = none) :
    (allocatePhysBase m slotBytes).1 = reapTerminatedTasks m := by
  unfold allocatePhysBase allocatePages at h ⊢
  simp only at h ⊢
  generalize alignUp slotBytes pageSize = bytes at h ⊢
  by_cases hbytes : bytes = 0 ∨ arenaSize < bytes
  · rw [if_pos hbytes]
  · by_cases hpages : bytes / pageSize = 0 ∨ arenaPageCount < bytes / pageSize
    · rw [if_neg hbytes, if_pos hpages]
    · rw [if_neg hbytes, if_neg hpages] at h ⊢
      cases hrun : freeRunFrom (reapTerminatedTasks m).pageUsed (bytes / pageSize)
          (arenaPageCount + 1) 0 with
      | none => rfl
      | some start =>
        rw [hrun] at h
        cases h

theorem allocatePhysBase_some {m : Machine} {slotBytes physBase : Nat}
    (h : (allocatePhysBase m slotBytes).2 = some physBase) :
    InArena physBase (alignUp slotBytes pageSize) ∧
      (∀ p, InRun (pagesOf physBase (alignUp slotBytes pageSize)) p →
        (reapTerminatedTasks m).pageUsed p = false) ∧
      ∀ p, (allocatePhysBase m slotBytes).1.pageUsed p =
        if InRun (pagesOf physBase (alignUp slotBytes pageSize)) p then true
        else (reapTerminatedTasks m).pageUsed p := by
  obtain ⟨count, hcount⟩ := alignUp_page slotBytes
  unfold allocatePhysBase allocatePages at h ⊢
  simp only [hcount, Nat.mul_div_cancel count (show 0 < pageSize by decide)] at h ⊢
  by_cases hbytes : count * pageSize = 0 ∨ arenaSize < count * pageSize
  · rw [if_pos hbytes] at h
    cases h
  · by_cases hpages : count = 0 ∨ arenaPageCount < count
    · rw [if_neg hbytes, if_pos hpages] at h
      cases h
    · rw [if_neg hbytes, if_neg hpages] at h ⊢
      cases hrun : freeRunFrom (reapTerminatedTasks m).pageUsed count (arenaPageCount + 1) 0 with
      | none =>
        rw [hrun] at h
        cases h
      | some start =>
        rw [hrun] at h
        cases h
        obtain ⟨hfit, hfree⟩ := freeRunFrom_some hrun
        rw [pagesOf_eq rfl rfl]
        exact ⟨⟨start, count, rfl, rfl, by omega, hfit⟩, hfree, fun p => rfl⟩

/-! ## The invariant -/

/-- The leader of a live task is alive, owns its memory, and has the same pages. -/
structure Led (tasks : Nat → AppTask) (s : Sched.State) (k : Nat) : Prop where
  inUse : (tasks (groupLeaderPid (tasks k))).inUse
  owns : (tasks (groupLeaderPid (tasks k))).ownsMemory
  base : (tasks (groupLeaderPid (tasks k))).physBase = (tasks k).physBase
  bytes : (tasks (groupLeaderPid (tasks k))).slotBytes = (tasks k).slotBytes
  alive : occupant s (groupLeaderPid (tasks k)) = .live (some (groupLeaderPid (tasks k)))

theorem Led.change {tasks tasks' : Nat → AppTask} {s s' : Sched.State} {k : Nat}
    (h : Led tasks s k) (htask : tasks' k = tasks k)
    (hlead : tasks' (groupLeaderPid (tasks k)) = tasks (groupLeaderPid (tasks k)))
    (halive : occupant s' (groupLeaderPid (tasks k)) = .live (some (groupLeaderPid (tasks k)))) :
    Led tasks' s' k where
  inUse := by rw [htask, hlead]; exact h.inUse
  owns := by rw [htask, hlead]; exact h.owns
  base := by rw [htask, hlead]; exact h.base
  bytes := by rw [htask, hlead]; exact h.bytes
  alive := by rw [htask]; exact halive

structure MemOk (m : Machine) : Prop where
  accounts : Accounts m.pageUsed m.held
  owners : ∀ i, Owner m i →
    (m.tasks i).leaderPid = i ∧ InArena (m.tasks i).physBase (m.tasks i).slotBytes
  unclaimed : ∀ background slotBytes pid physBase,
    m.shell = .allocated background slotBytes pid physBase →
      InArena physBase (alignUp slotBytes pageSize)
  groups : ∀ k, occupant m.sched k = .live (some k) → Led m.tasks m.sched k
  killing : ∀ leaderPid next, m.shell = .killing leaderPid next → ∀ k, k < next →
    occupant m.sched k = .live (some k) → groupLeaderPid (m.tasks k) = leaderPid → k = leaderPid

theorem held_congr {m m' : Machine} (htasks : m'.tasks = m.tasks)
    (hshell : m'.shell.unclaimed = m.shell.unclaimed) (h : Option Nat) : m'.held h = m.held h := by
  cases h with
  | none => exact hshell
  | some i => simp only [Machine.held, htasks]

theorem held_some_congr {m m' : Machine} (h : m'.tasks i = m.tasks i) :
    m'.held (some i) = m.held (some i) := by
  simp only [Machine.held, h]

theorem held_zero {m : Machine} (h : m.tasks i = .zero) : m.held (some i) = none := by
  simp only [Machine.held, h]
  rfl

theorem held_not_owner {m : Machine} (h : ¬ Owner m i) : m.held (some i) = none := if_neg h

theorem held_owner {m : Machine} (h : Owner m i) :
    m.held (some i) = some (pagesOf (m.tasks i).physBase (m.tasks i).slotBytes) := if_pos h

theorem boot_memOk (stack quantumTicks : Nat) (ticks : UInt32) :
    MemOk (boot stack quantumTicks ticks) := by
  have hnone : ∀ h r, (boot stack quantumTicks ticks).held h ≠ some r := by
    intro h r
    cases h with
    | none => exact fun e => by cases e
    | some i =>
      rw [held_zero rfl]
      exact fun e => by cases e
  constructor
  case accounts =>
    refine ⟨fun p => ⟨fun h => ?_, fun ⟨i, r, hi, _⟩ => absurd hi (hnone i r)⟩,
      fun i j r r' p hi => absurd hi (hnone i r)⟩
    cases h
  case owners => exact fun i hi => by cases hi.1
  case unclaimed => exact fun _ _ _ _ he => by cases he
  case groups =>
    intro k hl
    rw [boot_occupant] at hl
    split at hl
    · cases hl
    · cases hl
  case killing => exact fun _ _ he => by cases he

namespace MemOk

variable {m m' : Machine}

theorem leader_self (h : MemOk m) (hp : PidsInPlace m) (hi : Owner m i) :
    groupLeaderPid (m.tasks i) = i := by
  have hl := (h.owners i hi).1
  unfold groupLeaderPid
  rw [hl, if_pos (hp i hi.1).1]

theorem leader_leads (h : MemOk m) (hp : PidsInPlace m) {k : Nat}
    (hl : occupant m.sched k = .live (some k)) :
    groupLeaderPid (m.tasks (groupLeaderPid (m.tasks k))) = groupLeaderPid (m.tasks k) :=
  h.leader_self hp ⟨(h.groups k hl).inUse, (h.groups k hl).owns⟩

theorem fewer (h : MemOk m) (hf : Fewer m m')
    (hlead : ∀ k, occupant m'.sched k = .live (some k) →
      occupant m'.sched (groupLeaderPid (m.tasks k)) = .live (some (groupLeaderPid (m.tasks k)))) :
    MemOk m' where
  accounts := h.accounts.congr hf.pages (held_congr hf.tasks (by rw [hf.shell]))
  owners i hi := by
    unfold Owner at hi
    rw [hf.tasks] at hi ⊢
    exact h.owners i hi
  unclaimed background slotBytes pid physBase he := h.unclaimed background slotBytes pid physBase
    (hf.shell ▸ he)
  groups k hl := by
    exact (h.groups k (hf.live hl)).change (by rw [hf.tasks]) (by rw [hf.tasks]) (hlead k hl)
  killing leaderPid next he k hk hl hg := by
    rw [hf.tasks] at hg
    exact h.killing leaderPid next (hf.shell ▸ he) k hk (hf.live hl) hg

theorem same (h : MemOk m) (hf : Fewer m m')
    (hsame : ∀ k, occupant m'.sched k = occupant m.sched k) : MemOk m' :=
  h.fewer hf fun k hl => by
    rw [hsame] at hl ⊢
    exact (h.groups k hl).alive

/-- A record that no app runs on may be released, with its pages. -/
theorem release (h : MemOk m) (huse : (m.tasks i).inUse)
    (hidle : occupant m.sched i ≠ .live (some i)) : MemOk (releaseTask m i) where
  accounts := by
    have hother : ∀ x, x ≠ some i → (releaseTask m i).held x = m.held x := by
      intro x hx
      cases x with
      | none => rfl
      | some j => exact held_some_congr (releaseTask_of_ne m i fun e => hx (by rw [e]))
    by_cases howns : (m.tasks i).ownsMemory
    · have hown : Owner m i := ⟨huse, howns⟩
      refine h.accounts.give (held_owner hown) (fun p => ?_) (held_zero (releaseTask_self m i)) hother
      simp only [releaseTask, howns, if_true]
      exact releasePhysRange_eq (h.owners i hown).2 m.pageUsed p
    · refine h.accounts.congr (by simp [releaseTask, howns]) fun x => ?_
      by_cases hx : x = some i
      · rw [hx, held_zero (releaseTask_self m i), held_not_owner (fun ho => howns ho.2)]
      · exact hother x hx
  owners k hk := by
    have hki : k ≠ i := by
      rintro rfl
      have := hk.1
      rw [releaseTask_self] at this
      cases this
    unfold Owner at hk
    rw [releaseTask_of_ne m i hki] at hk ⊢
    exact h.owners k hk
  unclaimed := h.unclaimed
  groups k hl := by
    have hold := h.groups k hl
    have hki : k ≠ i := fun e => hidle (e ▸ hl)
    have hli : groupLeaderPid (m.tasks k) ≠ i := fun e => hidle (e ▸ hold.alive)
    exact hold.change (releaseTask_of_ne m i hki) (releaseTask_of_ne m i hli) hold.alive
  killing leaderPid next he k hk hl hg := by
    have hki : k ≠ i := fun e => hidle (e ▸ hl)
    rw [releaseTask_of_ne m i hki] at hg
    exact h.killing leaderPid next he k hk hl hg

theorem reap (h : MemOk m) : MemOk (reapTerminatedTasks m) :=
  reap_induction (fun _ _ hm _ _ hr => hm.release hr.1 (not_live_iff.mpr hr.2.1 _)) h

/-! ## Exits and faults -/

theorem app_slot (ht : TablesOk m) (hn : NoStray m) {k r : Nat}
    (hl : occupant m.sched k = .live (some r)) : r = k ∧ Mapped (m.tasks k) :=
  (ht.apps k r hl).resolve_left (hn k r)

theorem current_app (ht : TablesOk m) (hn : NoStray m) (hex : Executing m)
    (hdir : (currentDirectory m).isSome) :
    occupant m.sched m.sched.current = .live (some m.sched.current) ∧
      Mapped (m.tasks m.sched.current) := by
  obtain ⟨r, hr⟩ := Option.isSome_iff_exists.mp hdir
  have hl : occupant m.sched m.sched.current = .live (some r) :=
    occupant_live_iff.mpr ⟨.inr (.inl hex), hr⟩
  obtain ⟨rfl, hmap⟩ := app_slot ht hn hl
  exact ⟨hl, hmap⟩

theorem exitFromInterrupt_occupant (m : Machine) (frame k : Nat) :
    occupant (exitFromInterrupt m frame).sched k =
      if k = m.sched.current then .dead else occupant m.sched k :=
  occupant_exitCurrentFromInterrupt m.sched frame k

theorem exit_alone (h : MemOk m) (hown : ¬ Owner m m.sched.current) (frame : Nat) :
    MemOk (exitFromInterrupt m frame) := by
  refine h.fewer (fewer_exitFromInterrupt m frame) fun k hl => ?_
  rw [exitFromInterrupt_occupant] at hl ⊢
  have hk : k ≠ m.sched.current := by
    rintro rfl
    rw [if_pos rfl] at hl
    cases hl
  rw [if_neg hk] at hl
  have hled := h.groups k hl
  have hlc : groupLeaderPid (m.tasks k) ≠ m.sched.current :=
    fun e => hown (e ▸ ⟨hled.inUse, hled.owns⟩)
  rw [if_neg hlc]
  exact hled.alive

theorem exit_with_group (h : MemOk m) (ht : TablesOk m) (hn : NoStray m) (frame : Nat) :
    MemOk (exitFromInterrupt (terminateMembers m (groupLeaderPid (m.tasks m.sched.current))
      m.sched.current) frame) := by
  have hf := fewer_terminateMembers m (groupLeaderPid (m.tasks m.sched.current)) m.sched.current
  have hocc := terminateMembers_occupant ht.pids (groupLeaderPid (m.tasks m.sched.current))
    m.sched.current
  have hcur := terminateMembers_current m (groupLeaderPid (m.tasks m.sched.current)) m.sched.current
  refine h.fewer (hf.trans (fewer_exitFromInterrupt _ frame)) fun k hl => ?_
  rw [exitFromInterrupt_occupant, hcur] at hl ⊢
  have hk : k ≠ m.sched.current := by
    rintro rfl
    rw [if_pos rfl] at hl
    cases hl
  rw [if_neg hk] at hl
  have hold := hf.live hl
  have hled := h.groups k hold
  have hlead := h.leader_leads ht.pids hold
  -- a task that is left belongs to another group
  have hgroup : groupLeaderPid (m.tasks k) ≠ groupLeaderPid (m.tasks m.sched.current) := fun e =>
    (hocc k).1 ⟨(app_slot ht hn hold).2.1, e⟩ hk _ hl
  have hlc : groupLeaderPid (m.tasks k) ≠ m.sched.current := fun e =>
    hgroup (hlead.symm.trans (by rw [e]))
  rw [if_neg hlc, (hocc _).2 (.inl fun hmem => hgroup (hlead.symm.trans hmem.2))]
  exact hled.alive

theorem findTask_current (ht : TablesOk m) (huse : (m.tasks m.sched.current).inUse) :
    findTask m m.sched.current = some (m.tasks m.sched.current) := by
  have hhigh := (ht.pids _ huse).2.1
  unfold findTask
  rw [if_neg (Nat.not_le.mpr hhigh), if_neg (by simp [huse])]

theorem exit (h : MemOk m) (ht : TablesOk m) (hn : NoStray m)
    (huse : (m.tasks m.sched.current).inUse) (frame : Nat) :
    MemOk (exitFromInterrupt (onCurrentTaskExit m) frame) := by
  have hpid := (ht.pids _ huse).2.2
  unfold onCurrentTaskExit
  rw [findTask_current ht huse]
  simp only [hpid]
  by_cases hlead : m.sched.current = groupLeaderPid (m.tasks m.sched.current)
  · rw [if_pos hlead]
    exact h.exit_with_group ht hn frame
  · rw [if_neg hlead]
    exact h.exit_alone (fun ho => hlead (h.leader_self ht.pids ho).symm) frame

theorem fault (h : MemOk m) (ht : TablesOk m) (hn : NoStray m)
    (huse : (m.tasks m.sched.current).inUse) (frame : Nat) :
    MemOk (exitFromInterrupt (onCurrentTaskFault m) frame) := by
  have hpid := (ht.pids _ huse).2.2
  unfold onCurrentTaskFault
  rw [findTask_current ht huse]
  simp only [hpid]
  exact h.exit_with_group ht hn frame

theorem ended (h : MemOk m) (ht : TablesOk m) (hn : NoStray m) (hret : Returns m)
    (hf : Fewer m { m with sched := exitCurrent m.sched }) :
    MemOk { m with sched := exitCurrent m.sched } := by
  have hcur : ∀ r, occupant m.sched m.sched.current ≠ .live (some r) := by
    intro r hl
    obtain ⟨rfl, hmap⟩ := app_slot ht hn hl
    exact hret.2.2 _ (occupant_live_iff.mp hl).2 hmap.1
  refine h.fewer hf fun k hl => ?_
  have hold := hf.live hl
  simp only [exitCurrent, occupant_markTerminated]
  rw [if_neg (fun e => hcur _ (e ▸ (h.groups k hold).alive))]
  exact (h.groups k hold).alive

/-! ## Threads -/

/-- A record not in use may be zeroed. -/
theorem zeroFree (h : MemOk m) (hfree : ¬ (m.tasks i).inUse)
    (hidle : occupant m.sched i ≠ .live (some i)) : MemOk (m.setTask i .zero) where
  accounts := by
    refine h.accounts.congr rfl fun x => ?_
    cases x with
    | none => rfl
    | some j =>
      by_cases hj : j = i
      · rw [hj, held_zero (setTask_self m i _), held_not_owner (fun ho => hfree ho.1)]
      · exact held_some_congr (setTask_of_ne m i _ hj)
  owners k hk := by
    have hki : k ≠ i := by
      rintro rfl
      have := hk.1
      rw [setTask_self] at this
      cases this
    unfold Owner at hk
    rw [setTask_of_ne m i _ hki] at hk ⊢
    exact h.owners k hk
  unclaimed := h.unclaimed
  groups k hl := by
    have hold := h.groups k hl
    have hki : k ≠ i := fun e => hidle (e ▸ hl)
    have hli : groupLeaderPid (m.tasks k) ≠ i := fun e => hfree (e ▸ hold.inUse)
    exact hold.change (setTask_of_ne m i _ hki) (setTask_of_ne m i _ hli) hold.alive
  killing leaderPid next he k hk hl hg := by
    have hki : k ≠ i := fun e => hidle (e ▸ hl)
    rw [setTask_of_ne m i _ hki] at hg
    exact h.killing leaderPid next he k hk hl hg

/-- A thread starts on a copy of the record of a live task. -/
theorem grant (h : MemOk m) (hp : PidsInPlace m) {c pid : Nat}
    (hfree : ¬ (m.tasks pid).inUse) (hslot : ∀ d, occupant m.sched pid ≠ .live d)
    (hc : occupant m.sched c = .live (some c))
    (hkill : ∀ leaderPid next, m.shell = .killing leaderPid next →
      groupLeaderPid (m.tasks c) = leaderPid → next ≤ pid)
    (htasks : m'.tasks = (m.setTask pid (clonedTask (m.tasks c) pid true)).tasks)
    (hpages : m'.pageUsed = m.pageUsed) (hshell : m'.shell = m.shell)
    (hocc : ∀ k, occupant m'.sched k = if k = pid then .live (some pid) else occupant m.sched k) :
    MemOk m' := by
  have hself : m'.tasks pid = clonedTask (m.tasks c) pid true := by rw [htasks, setTask_self]
  have hother : ∀ k, k ≠ pid → m'.tasks k = m.tasks k := fun k hk => by
    rw [htasks, setTask_of_ne _ _ _ hk]
  -- the leader of the parent leads the thread
  have hledc := h.groups c hc
  have hlow' : slotFirstPid ≤ groupLeaderPid (m.tasks c) := (hp _ hledc.inUse).1
  have hgroup : groupLeaderPid (clonedTask (m.tasks c) pid true) = groupLeaderPid (m.tasks c) :=
    if_pos hlow'
  have hlive : ∀ k, occupant m.sched k = .live (some k) → k ≠ pid :=
    fun k hl e => hslot _ (e ▸ hl)
  have hkeep : ∀ k, occupant m.sched k = .live (some k) → occupant m'.sched k = .live (some k) :=
    fun k hl => by rw [hocc, if_neg (hlive k hl), hl]
  constructor
  case accounts =>
    refine h.accounts.congr hpages fun x => ?_
    cases x with
    | none => exact congrArg Shell.unclaimed hshell
    | some j =>
      by_cases hj : j = pid
      · rw [hj, held_not_owner (fun ho => hfree ho.1)]
        refine held_not_owner fun ho => ?_
        have := ho.2
        rw [hself] at this
        cases this
      · exact held_some_congr (hother j hj)
  case owners =>
    intro i hi
    have hip : i ≠ pid := by
      rintro rfl
      have := hi.2
      rw [hself] at this
      cases this
    unfold Owner at hi
    rw [hother i hip] at hi ⊢
    exact h.owners i hi
  case unclaimed =>
    intro background slotBytes q physBase he
    exact h.unclaimed background slotBytes q physBase (hshell ▸ he)
  case groups =>
    intro k hl
    by_cases hk : k = pid
    · have hlc : groupLeaderPid (m.tasks c) ≠ pid := hlive _ hledc.alive
      have hlead : m'.tasks (groupLeaderPid (m'.tasks pid)) =
          m.tasks (groupLeaderPid (m.tasks c)) := by
        rw [hself, hgroup, hother _ hlc]
      rw [hk]
      refine ⟨?_, ?_, ?_, ?_, ?_⟩
      · rw [hlead]; exact hledc.inUse
      · rw [hlead]; exact hledc.owns
      · rw [hlead, hself]; exact hledc.base
      · rw [hlead, hself]; exact hledc.bytes
      · rw [hself, hgroup]; exact hkeep _ hledc.alive
    · rw [hocc, if_neg hk] at hl
      have hold := h.groups k hl
      exact hold.change (hother k hk) (hother _ (hlive _ hold.alive)) (hkeep _ hold.alive)
  case killing =>
    intro leaderPid next he k hk hl hg
    rw [hshell] at he
    by_cases hkp : k = pid
    · rw [hkp, hself, hgroup] at hg
      have := hkill leaderPid next he hg
      omega
    · rw [hother k hkp] at hg
      rw [hocc, if_neg hkp] at hl
      exact h.killing leaderPid next he k hk hl hg

theorem thread (h : MemOk m) (ht : TablesOk m) (hn : NoStray m) (hex : Executing m)
    (hdir : (currentDirectory m).isSome) {built : Bool} {stack : Nat}
    (hwhole : KillsWhole m (.app (.threadSpawn built stack))) :
    MemOk (spawnAppThread m built stack).1 := by
  obtain ⟨hcur, hmap⟩ := current_app ht hn hex hdir
  rcases spawnAppThread_cases m built stack with
    heq | ⟨huse, hbg, heq | ⟨pid, hpid, ⟨hf, hlives⟩ | ⟨hslot, htasks, hpages, hshell, hocc⟩⟩⟩
  · rw [heq]
    exact h
  · rw [heq]
    exact h.reap
  · obtain ⟨_, _, hfree, _⟩ := findFreePid_some hpid
    have hfree : ¬ ((reapTerminatedTasks m).tasks pid).inUse := hfree
    have hidle : occupant (reapTerminatedTasks m).sched pid ≠ .live (some pid) := by
      rw [reap_sched]
      intro hl
      rw [reap_tasks_of_live hl] at hfree
      exact hfree (app_slot ht hn hl).2.1
    refine (h.reap.zeroFree hfree hidle).fewer hf fun k hl => ?_
    have hold := (h.reap.zeroFree hfree hidle).groups k (hf.live hl)
    have halive := hold.alive
    simp only [setTask_sched, reap_sched] at halive
    exact hlives _ _ halive
  · obtain ⟨hlow, hhigh, hfree, _⟩ := findFreePid_some hpid
    have hpids : PidsInPlace (reapTerminatedTasks m) := by
      intro i hi
      rw [reap_tasks] at hi ⊢
      split at hi
      · cases hi
      · rename_i hr
        rw [if_neg hr]
        exact ht.pids i hi
    have hcurtask := reap_tasks_of_live hcur
    refine h.reap.grant (c := m.sched.current) hpids hfree (by rw [reap_sched]; exact hslot)
      (by rw [reap_sched]; exact hcur) ?_ htasks hpages (by rw [hshell, reap_shell]) (by rw [reap_sched]; exact hocc)
    intro leaderPid next he hg
    rw [reap_shell] at he
    rw [hcurtask] at hg
    exact hwhole rfl huse hbg (leaderPid, next) (by rw [he]; rfl) hg pid hpid

/-! ## The shell -/

theorem moveShell (h : MemOk m) {shell : Shell} (hold : m.shell.unclaimed = none)
    (hnew : shell.unclaimed = none) (hkill : shell.kills = none) : MemOk (withShell m shell) where
  accounts := h.accounts.congr rfl (held_congr rfl (hnew.trans hold.symm))
  owners := h.owners
  unclaimed background slotBytes pid physBase he := by
    have he : shell = .allocated background slotBytes pid physBase := he
    rw [he] at hnew
    cases hnew
  groups := h.groups
  killing leaderPid next he := by
    have he : shell = .killing leaderPid next := he
    rw [he] at hkill
    cases hkill

theorem allocate (h : MemOk m) {background : Bool} {slotBytes pid physBase : Nat}
    (he : m.shell = .chosen background slotBytes pid)
    (hsome : (allocatePhysBase m slotBytes).2 = some physBase) :
    MemOk (withShell (allocatePhysBase m slotBytes).1
      (.allocated background slotBytes pid physBase)) := by
  obtain ⟨harena, hfree, hmark⟩ := allocatePhysBase_some hsome
  obtain ⟨htasks, hsched, hshell⟩ := TablesOk.allocate_fields m slotBytes
  have hreap := h.reap
  constructor
  case accounts =>
    refine hreap.accounts.take (i := none) ?_ hfree hmark rfl fun x hx => ?_
    · simp only [Machine.held, reap_shell, he]
      rfl
    · cases x with
      | none => exact absurd rfl hx
      | some j =>
        refine held_some_congr ?_
        simp only [withShell, htasks]
  case owners =>
    intro i hi
    simp only [Owner, withShell, htasks] at hi ⊢
    exact hreap.owners i hi
  case unclaimed =>
    intro background' slotBytes' pid' physBase' he'
    cases he'
    exact harena
  case groups =>
    intro k hl
    simp only [withShell, htasks, hsched] at hl ⊢
    have := hreap.groups k (by rw [reap_sched]; exact hl)
    rw [reap_sched] at this
    exact this
  case killing => exact fun _ _ he' => by cases he'

theorem prepare (h : MemOk m) (ht : TablesOk m) (hn : NoStray m) {background built : Bool}
    {slotBytes pid physBase : Nat} (he : m.shell = .allocated background slotBytes pid physBase) :
    MemOk (prepareStep m background slotBytes pid physBase built) := by
  have hs := ht.shell
  unfold ShellOk at hs
  rw [he] at hs
  obtain ⟨hlow, hhigh, hfree⟩ := hs
  have hself : (prepareStep m background slotBytes pid physBase built).tasks pid =
      preparedTask background pid physBase slotBytes built := setTask_self m pid _
  have hother : ∀ k, k ≠ pid →
      (prepareStep m background slotBytes pid physBase built).tasks k = m.tasks k :=
    fun k hk => setTask_of_ne m pid _ hk
  have hshell : (prepareStep m background slotBytes pid physBase built).shell.unclaimed = none := by
    cases built <;> rfl
  constructor
  case accounts =>
    -- the pages go from the launch to its record
    refine h.accounts.hand (i := none) (j := some pid)
      (r := pagesOf physBase (alignUp slotBytes pageSize)) (fun e => by cases e) ?_
      (held_not_owner fun ho => hfree ho.1) hshell ?_ fun x hx hxp => ?_
    · simp only [Machine.held, he]
      rfl
    · simp only [Machine.held, hself]
      rfl
    · cases x with
      | none => exact absurd rfl hx
      | some j => exact held_some_congr (hother j fun e => hxp (by rw [e]))
  case owners =>
    intro i hi
    by_cases hip : i = pid
    · rw [hip, hself]
      exact ⟨rfl, h.unclaimed _ _ _ _ he⟩
    · unfold Owner at hi
      rw [hother i hip] at hi ⊢
      exact h.owners i hi
  case unclaimed =>
    intro background' slotBytes' pid' physBase' he'
    rw [he'] at hshell
    cases hshell
  case groups =>
    intro k hl
    have hl : occupant m.sched k = .live (some k) := hl
    have hold := h.groups k hl
    have hkp : k ≠ pid := fun e => hfree (e ▸ (app_slot ht hn hl).2.1)
    have hlp : groupLeaderPid (m.tasks k) ≠ pid := fun e => hfree (e ▸ hold.inUse)
    exact hold.change (hother k hkp) (hother _ hlp) hold.alive
  case killing =>
    intro leaderPid next he'
    cases built <;> cases he'

theorem start (h : MemOk m) {s : Sched.State} {d : Option Nat} {idx : Nat} {shell : Shell}
    (hst : Started m.sched s d idx) (hold : m.shell.unclaimed = none)
    (hnew : shell.unclaimed = none) (hkill : shell.kills = none)
    (hled : d = some idx → Led m.tasks s idx) :
    MemOk { m with sched := s, shell := shell } where
  accounts := h.accounts.congr rfl (held_congr rfl (hnew.trans hold.symm))
  owners := h.owners
  unclaimed background slotBytes pid physBase he := by
    have he : shell = .allocated background slotBytes pid physBase := he
    rw [he] at hnew
    cases hnew
  groups k hl := by
    have hl : occupant s k = .live (some k) := hl
    rw [hst.slots] at hl
    by_cases hk : k = idx
    · rw [if_pos hk] at hl
      cases hl
      rw [hk]
      exact hled (by rw [hk])
    · rw [if_neg hk] at hl
      have hold := h.groups k hl
      refine hold.change rfl rfl ?_
      show occupant s _ = _
      rw [hst.slots, if_neg (fun e => hst.free _ (e ▸ hold.alive)), hold.alive]
  killing leaderPid next he := by
    have he : shell = .killing leaderPid next := he
    rw [he] at hkill
    cases hkill

/-- The next record of a kill: a thread of the group leads nobody. -/
theorem killNext (h : MemOk m) (ht : TablesOk m) (hn : NoStray m) {leaderPid next : Nat}
    (he : m.shell = .killing leaderPid next) :
    MemOk (withShell (terminateMember m leaderPid leaderPid next)
      (.killing leaderPid (next + 1))) := by
  have hf := fewer_terminateMember m leaderPid leaderPid next
  have hocc := terminateMember_occupant ht.pids leaderPid leaderPid next
  have hm : MemOk (terminateMember m leaderPid leaderPid next) := by
    refine h.fewer hf fun k hl => ?_
    have hold := hf.live hl
    have hled := h.groups k hold
    rw [(hocc _).2]
    · exact hled.alive
    · by_cases hk : groupLeaderPid (m.tasks k) = next
      · refine .inr ?_
        by_cases hmem : Member m leaderPid next
        · have hlead := h.leader_leads ht.pids hold
          rw [hk, hmem.2] at hlead
          exact .inr hlead.symm
        · exact .inl hmem
      · exact .inl hk
  refine ⟨hm.accounts.congr rfl (held_congr rfl ?_), hm.owners, fun _ _ _ _ he' => ?_, hm.groups,
    fun leaderPid' next' he' k hk hl hg => ?_⟩
  · rw [hf.shell, he]
    rfl
  · cases he'
  · cases he'
    have hl : occupant (terminateMember m leaderPid leaderPid next).sched k = .live (some k) := hl
    have hg : groupLeaderPid ((terminateMember m leaderPid leaderPid next).tasks k) = leaderPid := hg
    rw [hf.tasks] at hg
    by_cases hkn : k = next
    · -- a member that is left in this place is the leader
      by_cases hkl : k = leaderPid
      · exact hkl
      · have huse := (app_slot ht hn (hf.live hl)).2.1
        exact absurd hl ((hocc k).1 hkn (hkn ▸ ⟨huse, hg⟩) (hkn ▸ hkl) _)
    · exact h.killing leaderPid next he k (by omega) (hf.live hl) hg

theorem killLeader (h : MemOk m) (ht : TablesOk m) (hn : NoStray m) {leaderPid next : Nat}
    (he : m.shell = .killing leaderPid next) (hlast : maxProcesses ≤ next) :
    MemOk (withShell (terminateAt m leaderPid) .idle) := by
  have hf := fewer_terminateAt m leaderPid
  have hm : MemOk (terminateAt m leaderPid) := by
    refine h.fewer hf fun k hl => ?_
    have hold := hf.live hl
    have hin := ht.pids k (app_slot ht hn hold).2.1
    have hled := h.groups k hold
    simp only [terminateAt, occupant_terminateProcess] at hl ⊢
    by_cases hg : groupLeaderPid (m.tasks k) = leaderPid
    · -- the only task of the group is the leader, which is gone
      have hk : k = leaderPid := h.killing leaderPid next he k (by omega) hold hg
      obtain ⟨hnot, _⟩ := Occupant.killed_eq_live hl
      have hlow : 3 ≤ k := hin.1
      exact absurd ⟨hk, by rw [← hk]; simp only [idlePid]; omega, by rw [← hk]; exact hin.2.1⟩ hnot
    · rw [if_neg (fun e => hg e.1)]
      exact hled.alive
  exact hm.moveShell (by rw [hf.shell, he]; rfl) rfl rfl

theorem shellMove {e : ShellEvent} (h : MemOk m) (ht : TablesOk m) (hn : NoStray m)
    (hin : SpawnsInPlace m (.shell e)) (hm : ShellMove m e m') : MemOk m' := by
  have hs := ht.shell
  unfold ShellOk at hs
  cases hm with
  | refused _ => exact h
  | reaped _ => exact h.reap
  | chosen he _ _ => exact h.reap.moveShell (by rw [reap_shell, he]; rfl) rfl rfl
  | noMemory he hnone =>
    rw [allocatePhysBase_none hnone]
    exact h.reap.moveShell (by rw [reap_shell, he]; rfl) rfl rfl
  | allocated he hsome => exact h.allocate he hsome
  | prepared he => exact h.prepare ht hn he
  | @loaded background ok pid he =>
    refine h.moveShell (by rw [he]; rfl) ?_ ?_
    · cases ok <;> rfl
    · cases ok <;> rfl
  | notSpawned he => exact h.moveShell (by rw [he]; rfl) rfl rfl
  | @spawned background pid stack s he hst =>
    rw [he] at hs
    refine h.start hst (by rw [he]; rfl) ?_ ?_ fun _ => ?_
    · cases background <;> rfl
    · cases background <;> rfl
    · have hself := h.leader_self ht.pids ⟨hs.1.inUse, hs.1.owns⟩
      refine ⟨?_, ?_, ?_, ?_, ?_⟩
      · rw [hself]; exact hs.1.inUse
      · rw [hself]; exact hs.1.owns
      · rw [hself]
      · rw [hself]
      · rw [hself, hst.slots, if_pos rfl]
  | mismatched he hst hne => exact absurd (hin rfl _ hst.lowest _ (by rw [he]; rfl)) hne
  | released he =>
    rw [he] at hs
    exact (h.release hs.inUse hs.idle).moveShell (by rw [releaseTask_shell, he]; rfl) rfl rfl
  | @releasedFirst pid actualPid he => exact absurd ⟨rfl, rfl⟩ (he ▸ hn actualPid pid)
  | @terminated actualPid he => exact absurd rfl (he ▸ hn actualPid 0)
  | joined he hdead =>
    rw [he] at hs
    exact (h.release hs.1 (not_live_iff.mpr hdead _)).moveShell
      (by rw [releaseTask_shell, he]; rfl) rfl rfl
  | @killing pid leaderPid he _ _ =>
    have hr := h.reap
    refine ⟨hr.accounts.congr rfl (held_congr rfl ?_), hr.owners, fun _ _ _ _ he' => ?_, hr.groups,
      fun _ _ he' k hk hl _ => ?_⟩
    · rw [reap_shell, he]
      rfl
    · cases he'
    · cases he'
      have hl : occupant (reapTerminatedTasks m).sched k = .live (some k) := hl
      rw [reap_sched] at hl
      have := (ht.pids k (app_slot ht hn hl).2.1).1
      omega
  | killedNext he _ => exact h.killNext ht hn he
  | killedLeader he hlast => exact h.killLeader ht hn he hlast
  | stressing he => exact h.moveShell (by rw [he]; rfl) rfl rfl
  | stressed he => exact h.moveShell (by rw [he]; rfl) rfl rfl
  | worker he hst => exact h.start hst (by rw [he]; rfl) rfl rfl (fun e => by cases e)

theorem step {e : Event} (h : MemOk m) (ht : TablesOk m) (hn : NoStray m)
    (hin : SpawnsInPlace m e) (hwhole : KillsWhole m e) (hstep : step m e = some m') : MemOk m' := by
  rcases step_cases hstep with ⟨built, stack, rfl, hex, hdir, rfl⟩ | ⟨c, rfl, hm⟩ |
    ⟨hf, hsame | ⟨hret, rfl⟩ | ⟨hex, hdir, ⟨frame, rfl⟩ | ⟨frame, rfl⟩⟩⟩
  · exact h.thread ht hn hex hdir hwhole
  · exact h.shellMove ht hn hin hm
  · exact h.same hf hsame
  · exact h.ended ht hn hret hf
  · exact h.exit ht hn (current_app ht hn hex hdir).2.1 frame
  · exact h.fault ht hn (current_app ht hn hex hdir).2.1 frame

theorem marked_of_live (h : MemOk m) {k p : Nat} (hl : occupant m.sched k = .live (some k))
    (hp : InRun (pagesOf (m.tasks k).physBase (m.tasks k).slotBytes) p) : m.pageUsed p = true := by
  have hled := h.groups k hl
  refine (h.accounts.marked p).mpr ⟨some (groupLeaderPid (m.tasks k)), _,
    held_owner ⟨hled.inUse, hled.owns⟩, ?_⟩
  rw [hled.base, hled.bytes]
  exact hp

/-- No step releases a page of a live task. -/
theorem keeps_mapped (h : MemOk m) (ht : TablesOk m) (hn : NoStray m) {e : Event}
    (hstep : Apps.step m e = some m') {k p : Nat} (hl : occupant m.sched k = .live (some k))
    (hp : InRun (pagesOf (m.tasks k).physBase (m.tasks k).slotBytes) p) : m'.pageUsed p = true := by
  have hs := ht.shell
  unfold ShellOk at hs
  have hhere := h.marked_of_live hl hp
  have hreap : (reapTerminatedTasks m).pageUsed p = true := by
    refine h.reap.marked_of_live (k := k) (by rw [reap_sched]; exact hl) ?_
    rw [reap_tasks_of_live hl]
    exact hp
  have hrelease : ∀ i, (m.tasks i).inUse → occupant m.sched i ≠ .live (some i) →
      (releaseTask m i).pageUsed p = true := by
    intro i huse hidle
    refine (h.release huse hidle).marked_of_live (k := k) hl ?_
    rw [releaseTask_of_ne m i fun e => hidle (e ▸ hl)]
    exact hp
  rcases step_cases hstep with ⟨built, stack, rfl, _, _, rfl⟩ | ⟨c, rfl, hm⟩ | ⟨hf, _⟩
  · rcases spawnAppThread_cases m built stack with
      heq | ⟨_, _, heq | ⟨pid, _, ⟨hf, _⟩ | ⟨_, _, hpages, _, _⟩⟩⟩
    · rw [heq]
      exact hhere
    · rw [heq]
      exact hreap
    · rw [hf.pages]
      exact hreap
    · rw [hpages]
      exact hreap
  · cases hm with
    | reaped _ => exact hreap
    | chosen _ _ _ => exact hreap
    | noMemory _ hnone =>
      rw [allocatePhysBase_none hnone]
      exact hreap
    | allocated _ hsome =>
      have hmark := (allocatePhysBase_some hsome).2.2 p
      simp only [withShell]
      rw [hmark]
      split
      · rfl
      · exact hreap
    | released he =>
      rw [he] at hs
      exact hrelease _ hs.inUse hs.idle
    | @releasedFirst pid actualPid he => exact absurd ⟨rfl, rfl⟩ (he ▸ hn actualPid pid)
    | joined he hdead =>
      rw [he] at hs
      exact hrelease _ hs.1 (not_live_iff.mpr hdead _)
    | killing _ _ _ => exact hreap
    | killedNext _ _ =>
      simp only [withShell, (fewer_terminateMember m _ _ _).pages]
      exact hhere
    | _ => exact hhere
  · rw [hf.pages]
    exact hhere

end MemOk

/-- A slot holds a task that maps the pages `r`. -/
def Maps (m : Machine) (k : Nat) (r : Nat × Nat) : Prop :=
  ∃ i physBase slotBytes, (m.sched.state k = .ready ∨ m.sched.state k = .running ∨
      m.sched.state k = .blocked) ∧ (m.sched.slots k).pageDirectory = some i ∧
    (m.tasks i).directory = some (physBase, slotBytes) ∧ r = pagesOf physBase slotBytes

/-- In every run in which threads keep clear of the launch and of a kill, and launched apps start in
the slot of their record: the marked pages are those of the records that own memory and of the launch
under way, no two of them share a page, the pages that a live task maps are those of a record, and no
step releases one of them. -/
theorem pages_accounted (stack quantumTicks : Nat) (ticks : UInt32) (es : List Event) (m : Machine)
    (hmeets : Meets step (fun m e => KeepsClear m e ∧ SpawnsInPlace m e ∧ KillsWhole m e)
      (boot stack quantumTicks ticks) es)
    (hrun : run step (boot stack quantumTicks ticks) es = some m) :
    (∀ p, m.pageUsed p = true ↔ ∃ h r, m.held h = some r ∧ InRun r p) ∧
      (∀ h h' r r' p, m.held h = some r → m.held h' = some r' → InRun r p → InRun r' p → h = h') ∧
      (∀ k r, Maps m k r → ∃ i, Owner m i ∧ m.held (some i) = some r) ∧
      ∀ e m', step m e = some m' → ∀ k r p, Maps m k r → InRun r p → m'.pageUsed p = true := by
  have hstep : ∀ m e m', TablesOk m ∧ NoStray m ∧ MemOk m →
      KeepsClear m e ∧ SpawnsInPlace m e ∧ KillsWhole m e →
      step m e = some m' → TablesOk m' ∧ NoStray m' ∧ MemOk m' :=
    fun m e m' h hp hs => ⟨h.1.step hp.1 hs, h.2.1.step hp.2.1 hs,
      h.2.2.step h.1 h.2.1 hp.2.1 hp.2.2 hs⟩
  obtain ⟨ht, hn, h⟩ := run_invariant hstep es _ m
    ⟨boot_tablesOk stack quantumTicks ticks, fun _ _ h => h, boot_memOk stack quantumTicks ticks⟩
    hmeets hrun
  -- what a live task maps is what its own record names
  have hmaps : ∀ {k r}, Maps m k r → occupant m.sched k = .live (some k) ∧
      r = pagesOf (m.tasks k).physBase (m.tasks k).slotBytes := by
    rintro k r ⟨i, physBase, slotBytes, hstate, hdir, hbuilt, rfl⟩
    have hl := occupant_live_iff.mpr ⟨hstate, hdir⟩
    obtain ⟨rfl, hmap⟩ := MemOk.app_slot ht hn hl
    rw [hmap.2] at hbuilt
    cases hbuilt
    exact ⟨hl, rfl⟩
  refine ⟨h.accounts.marked, h.accounts.disjoint, fun k r hm => ?_, fun e m' hs k r p hm hp => ?_⟩
  · obtain ⟨hl, rfl⟩ := hmaps hm
    have hled := h.groups k hl
    refine ⟨groupLeaderPid (m.tasks k), ⟨hled.inUse, hled.owns⟩, ?_⟩
    rw [held_owner ⟨hled.inUse, hled.owns⟩, hled.base, hled.bytes]
  · obtain ⟨hl, rfl⟩ := hmaps hm
    exact h.keeps_mapped ht hn hs hl hp

theorem pages_accounted_calm : ∃ m, run step (boot 50 1 0) calmRun = some m ∧ Maps m 4 (0, 22) ∧
    ∃ i, Owner m i ∧ m.held (some i) = some (0, 22) := by
  have hrun : (run step (boot 50 1 0) calmRun).isSome := by decide
  have hthread : ∀ m ∈ run step (boot 50 1 0) calmRun, m.sched.state 4 = .ready ∧
      (m.sched.slots 4).pageDirectory = some 4 ∧
      (m.tasks 4).directory = some (0x700000, 0x16000) := by decide
  obtain ⟨m, hm⟩ := Option.isSome_iff_exists.mp hrun
  obtain ⟨hready, hdir, hbuilt⟩ := hthread m hm
  have hmaps : Maps m 4 (0, 22) := ⟨4, _, _, .inl hready, hdir, hbuilt, by decide⟩
  exact ⟨m, hm, hmaps, (pages_accounted 50 1 0 calmRun m (by decide) hm).2.2.1 4 _ hmaps⟩

/-- The kill has passed record 4 when the leader starts a thread there; the leader is terminated and
reaped, the thread goes on. -/
def lateThreadRun : List Event :=
  backgroundLaunch 60 ++ [.shell (.kill 3), .shell .killNext, .shell .killNext, .tick 70,
    .app (.threadSpawn true 61), .tick 71, .tick 72, .shell .killNext, .shell .killNext,
    .shell .killNext, .shell .killNext, .shell .reap]

theorem pages_freed_under_thread : ∃ m, run step (boot 50 1 0) lateThreadRun = some m ∧
    Maps m 4 (0, 22) ∧ InRun (0, 22) 0 ∧ m.pageUsed 0 = false := by
  have hrun : (run step (boot 50 1 0) lateThreadRun).isSome := by decide
  have hthread : ∀ m ∈ run step (boot 50 1 0) lateThreadRun, m.sched.state 4 = .ready ∧
      (m.sched.slots 4).pageDirectory = some 4 ∧
      (m.tasks 4).directory = some (0x700000, 0x16000) ∧ m.pageUsed 0 = false := by decide
  obtain ⟨m, hm⟩ := Option.isSome_iff_exists.mp hrun
  obtain ⟨hready, hdir, hbuilt, hpage⟩ := hthread m hm
  exact ⟨m, hm, ⟨4, _, _, .inl hready, hdir, hbuilt, by decide⟩, by decide, hpage⟩

end Apps
end MiniDos
