import MiniDos.Apps.Tables

/-!
# MiniDos.Apps.Steps

What the calls of the app tables do, call by call, seen through the occupants of the slots.

* `Fewer`: only the scheduler moves, and it may lose tasks.
* `spawnAppThread_cases`: the four ways a request for a thread ends.
* `terminateMembers_occupant`: the slots a group loses.
* `ShellMove`: the steps of the shell, with what each was found to rely on.
-/

namespace MiniDos
namespace Apps

open Sched Scan

/-- Records, pages and shell stay; every slot stays or has lost its task. -/
structure Fewer (m m' : Machine) : Prop where
  tasks : m'.tasks = m.tasks
  pages : m'.pageUsed = m.pageUsed
  shell : m'.shell = m.shell
  slots : ∀ k, occupant m'.sched k = occupant m.sched k ∨ occupant m'.sched k = .dead

namespace Fewer

variable {m m₁ m₂ : Machine}

theorem refl (m : Machine) : Fewer m m := ⟨rfl, rfl, rfl, fun _ => .inl rfl⟩

theorem trans (h₁ : Fewer m m₁) (h₂ : Fewer m₁ m₂) : Fewer m m₂ where
  tasks := h₂.tasks.trans h₁.tasks
  pages := h₂.pages.trans h₁.pages
  shell := h₂.shell.trans h₁.shell
  slots k := by
    rcases h₂.slots k with h | h
    · rw [h]
      exact h₁.slots k
    · exact .inr h

theorem live (h : Fewer m m₁) {k : Nat} {d : Option Nat} (hl : occupant m₁.sched k = .live d) :
    occupant m.sched k = .live d := by
  rcases h.slots k with hs | hs
  · exact hs ▸ hl
  · rw [hs] at hl
    cases hl

theorem unused (h : Fewer m m₁) {k : Nat} (hl : occupant m₁.sched k = .unused) :
    occupant m.sched k = .unused := by
  rcases h.slots k with hs | hs
  · exact hs ▸ hl
  · rw [hs] at hl
    cases hl

theorem same {s : Sched.State} (h : ∀ k, occupant s k = occupant m.sched k) :
    Fewer m { m with sched := s } :=
  ⟨rfl, rfl, rfl, fun k => .inl (h k)⟩

end Fewer

theorem fewer_terminateAt (m : Machine) (pid : Nat) : Fewer m (terminateAt m pid) := by
  refine ⟨rfl, rfl, rfl, fun k => ?_⟩
  simp only [terminateAt, occupant_terminateProcess]
  split
  · cases occupant m.sched k <;> simp [Occupant.killed]
  · exact .inl rfl

theorem fewer_terminateMember (m : Machine) (leaderPid skipPid pid : Nat) :
    Fewer m (terminateMember m leaderPid skipPid pid) := by
  unfold terminateMember
  split
  · exact .refl m
  · exact fewer_terminateAt m _

theorem fewer_terminateMembersFrom (leaderPid skipPid n : Nat) : ∀ (pid : Nat) (m : Machine),
    Fewer m (terminateMembersFrom leaderPid skipPid n pid m) := by
  induction n with
  | zero => exact fun _ m => .refl m
  | succ n ih =>
    intro pid m
    exact (fewer_terminateMember m leaderPid skipPid pid).trans (ih (pid + 1) _)

theorem fewer_terminateMembers (m : Machine) (leaderPid skipPid : Nat) :
    Fewer m (terminateMembers m leaderPid skipPid) :=
  fewer_terminateMembersFrom leaderPid skipPid _ _ m

theorem fewer_onCurrentTaskExit (m : Machine) : Fewer m (onCurrentTaskExit m) := by
  unfold onCurrentTaskExit
  split
  · exact .refl m
  · split
    · exact fewer_terminateMembers m _ _
    · exact .refl m

theorem fewer_onCurrentTaskFault (m : Machine) : Fewer m (onCurrentTaskFault m) := by
  unfold onCurrentTaskFault
  split
  · exact .refl m
  · exact fewer_terminateMembers m _ _

theorem fewer_exitFromInterrupt (m : Machine) (frame : Nat) :
    Fewer m (exitFromInterrupt m frame) := by
  refine ⟨rfl, rfl, rfl, fun k => ?_⟩
  simp only [exitFromInterrupt, occupant_exitCurrentFromInterrupt]
  split
  · exact .inr rfl
  · exact .inl rfl

/-! ## Groups -/

/-- Record `k` is in use by a task of the group of `leaderPid`. -/
def Member (m : Machine) (leaderPid k : Nat) : Prop :=
  (m.tasks k).inUse ∧ groupLeaderPid (m.tasks k) = leaderPid

/-- The pid in every record in use is its index. -/
def PidsInPlace (m : Machine) : Prop :=
  ∀ i, (m.tasks i).inUse → slotFirstPid ≤ i ∧ i < maxProcesses ∧ (m.tasks i).pid = i

section Groups

variable {m : Machine}

theorem terminateMember_occupant (hp : PidsInPlace m) (leaderPid skipPid pid k : Nat) :
    (k = pid → Member m leaderPid pid → pid ≠ skipPid → ∀ d,
      occupant (terminateMember m leaderPid skipPid pid).sched k ≠ .live d) ∧
    (k ≠ pid ∨ ¬ Member m leaderPid pid ∨ pid = skipPid →
      occupant (terminateMember m leaderPid skipPid pid).sched k = occupant m.sched k) := by
  unfold terminateMember
  by_cases hskip : ¬ (m.tasks pid).inUse ∨ groupLeaderPid (m.tasks pid) ≠ leaderPid ∨
      (m.tasks pid).pid = skipPid
  · rw [if_pos hskip]
    refine ⟨fun _ hmem hne => ?_, fun _ => rfl⟩
    rcases hskip with h | h | h
    · exact absurd hmem.1 h
    · exact absurd hmem.2 h
    · exact absurd ((hp pid hmem.1).2.2.symm.trans h) hne
  · rw [if_neg hskip]
    simp only [not_or, Decidable.not_not] at hskip
    obtain ⟨huse, hgroup, hpid⟩ := hskip
    obtain ⟨hlow, hhigh, hself⟩ := hp pid huse
    rw [hself] at hpid ⊢
    simp only [terminateAt, occupant_terminateProcess]
    constructor
    · intro hk _ _ d
      rw [if_pos ⟨hk, by simp only [idlePid, slotFirstPid] at *; omega, hhigh⟩]
      exact Occupant.killed_ne_live _ d
    · intro h
      have hk : k ≠ pid := by
        rcases h with h | h | h
        · exact h
        · exact absurd ⟨huse, hgroup⟩ h
        · exact absurd h hpid
      rw [if_neg (fun h => hk h.1)]

theorem Member.of_tasks {m' : Machine} (h : m'.tasks = m.tasks) {leaderPid k : Nat} :
    Member m' leaderPid k ↔ Member m leaderPid k := by
  simp only [Member, h]

theorem terminateMembersFrom_occupant (leaderPid skipPid n : Nat) : ∀ (pid : Nat) (m : Machine),
    PidsInPlace m → ∀ k,
    ((pid ≤ k ∧ k < pid + n) → Member m leaderPid k → k ≠ skipPid → ∀ d,
      occupant (terminateMembersFrom leaderPid skipPid n pid m).sched k ≠ .live d) ∧
    (¬ Member m leaderPid k ∨ k = skipPid →
      occupant (terminateMembersFrom leaderPid skipPid n pid m).sched k = occupant m.sched k) := by
  induction n with
  | zero => exact fun pid m _ k => ⟨fun h => absurd h (by omega), fun _ => rfl⟩
  | succ n ih =>
    intro pid m hp k
    have hf := fewer_terminateMember m leaderPid skipPid pid
    have hp' : PidsInPlace (terminateMember m leaderPid skipPid pid) := by
      unfold PidsInPlace
      rw [hf.tasks]
      exact hp
    obtain ⟨hkill, hkeep⟩ := terminateMember_occupant hp leaderPid skipPid pid k
    obtain ⟨hkill', hkeep'⟩ := ih (pid + 1) _ hp' k
    rw [Member.of_tasks hf.tasks] at hkill' hkeep'
    simp only [terminateMembersFrom]
    constructor
    · intro hrange hmem hne d
      by_cases hk : k = pid
      · -- terminated in this round, and no later round brings it back
        intro hl
        exact hkill hk (hk ▸ hmem) (hk ▸ hne) d
          ((fewer_terminateMembersFrom leaderPid skipPid n (pid + 1) _).live hl)
      · exact hkill' ⟨by omega, by omega⟩ hmem hne d
    · intro h
      rw [hkeep' h, hkeep]
      by_cases hk : k = pid
      · exact .inr (hk ▸ h)
      · exact .inl hk

theorem terminateMembers_occupant (hp : PidsInPlace m) (leaderPid skipPid k : Nat) :
    (Member m leaderPid k → k ≠ skipPid →
      ∀ d, occupant (terminateMembers m leaderPid skipPid).sched k ≠ .live d) ∧
    (¬ Member m leaderPid k ∨ k = skipPid →
      occupant (terminateMembers m leaderPid skipPid).sched k = occupant m.sched k) := by
  obtain ⟨hkill, hkeep⟩ := terminateMembersFrom_occupant leaderPid skipPid
    (maxProcesses - slotFirstPid) slotFirstPid m hp k
  refine ⟨fun hmem => hkill ?_ hmem, hkeep⟩
  have hin := hp k hmem.1
  exact ⟨hin.1, hin.2.1⟩

theorem terminateAt_current (m : Machine) (pid : Nat) :
    (terminateAt m pid).sched.current = m.sched.current := by
  unfold terminateAt terminateProcess
  split
  · rfl
  · split
    · rfl
    · rfl

theorem terminateMembersFrom_current (leaderPid skipPid n : Nat) : ∀ (pid : Nat) (m : Machine),
    (terminateMembersFrom leaderPid skipPid n pid m).sched.current = m.sched.current := by
  induction n with
  | zero => exact fun _ _ => rfl
  | succ n ih =>
    intro pid m
    simp only [terminateMembersFrom, ih, terminateMember]
    split
    · rfl
    · exact terminateAt_current m _

theorem terminateMembers_current (m : Machine) (leaderPid skipPid : Nat) :
    (terminateMembers m leaderPid skipPid).sched.current = m.sched.current :=
  terminateMembersFrom_current leaderPid skipPid _ _ m

end Groups

/-! ## Threads -/

/-- How a request for a thread ends: refused at once; refused for want of a record; given up after
the record was written, with the slot it was given terminated again; or granted. -/
theorem spawnAppThread_cases (m : Machine) (built : Bool) (stack : Nat) :
    (spawnAppThread m built stack).1 = m ∨
    ((m.tasks m.sched.current).inUse ∧ (m.tasks m.sched.current).background ∧
      ((spawnAppThread m built stack).1 = reapTerminatedTasks m ∨
      ∃ pid, (findFreePid m).2 = some pid ∧
        ((Fewer ((reapTerminatedTasks m).setTask pid .zero) (spawnAppThread m built stack).1 ∧
            ∀ k d, occupant m.sched k = .live d →
              occupant (spawnAppThread m built stack).1.sched k = .live d) ∨
          ((∀ d, occupant m.sched pid ≠ .live d) ∧
            (spawnAppThread m built stack).1.tasks = ((reapTerminatedTasks m).setTask pid
              (clonedTask ((reapTerminatedTasks m).tasks m.sched.current) pid true)).tasks ∧
            (spawnAppThread m built stack).1.pageUsed = (reapTerminatedTasks m).pageUsed ∧
            (spawnAppThread m built stack).1.shell = m.shell ∧
            ∀ k, occupant (spawnAppThread m built stack).1.sched k =
              if k = pid then .live (some pid) else occupant m.sched k)))) := by
  unfold spawnAppThread
  by_cases hpar : ¬ (m.tasks m.sched.current).inUse ∨ ¬ (m.tasks m.sched.current).background
  · rw [if_pos hpar]
    exact .inl rfl
  · rw [if_neg hpar]
    simp only [not_or, Decidable.not_not] at hpar
    refine .inr ⟨hpar.1, hpar.2, ?_⟩
    cases hpid : (findFreePid m).2 with
    | none => exact .inl rfl
    | some pid =>
      refine .inr ⟨pid, rfl, ?_⟩
      simp only [show (findFreePid m).1 = reapTerminatedTasks m from rfl, reap_sched]
      -- the record is zeroed again, and no page was its own
      have hrelease : ∀ (b : Bool) (s : Sched.State), (∀ k, occupant s k = occupant m.sched k ∨
            (occupant s k = .dead ∧ ∀ d, occupant m.sched k ≠ .live d)) →
          Fewer ((reapTerminatedTasks m).setTask pid .zero)
            { releaseTask ((reapTerminatedTasks m).setTask pid
                (clonedTask ((reapTerminatedTasks m).tasks m.sched.current) pid b)) pid with
              sched := s } ∧ ∀ k d, occupant m.sched k = .live d → occupant s k = .live d := by
        intro b s hs
        refine ⟨⟨?_, ?_, rfl, ?_⟩, fun k d hl => ?_⟩
        · funext i
          by_cases hi : i = pid
          · simp [hi, releaseTask, Machine.setTask]
          · simp [hi, releaseTask, Machine.setTask]
        · simp [releaseTask, clonedTask]
        · intro k
          simp only [setTask_sched, reap_sched]
          exact (hs k).imp_right And.left
        · rcases hs k with h | h
          · rw [h, hl]
          · exact absurd hl (h.2 d)
      cases built with
      | false => exact .inl (hrelease false _ fun k => .inl (by simp))
      | true =>
        simp only [not_true, if_false]
        generalize hm₁ : (reapTerminatedTasks m).setTask pid
          (clonedTask ((reapTerminatedTasks m).tasks m.sched.current) pid true) = m₁ at hrelease ⊢
        have hs : m₁.sched = m.sched := by
          rw [← hm₁]
          simp
        have hshell : m₁.shell = m.shell := by
          rw [← hm₁]
          simp
        simp only [spawnAt]
        rw [hs]
        rcases spawnKernelTask_cases m.sched stack (some pid) with
          ⟨hnone, hsame⟩ | ⟨idx, hsome, _, hlow, hhigh, hfree, hocc⟩
        · rw [hnone, hsame]
          refine .inl ?_
          have := hrelease true m.sched fun k => .inl rfl
          rw [hm₁] at this
          exact this
        · rw [hsome]
          simp only [startThread]
          by_cases hidx : idx = pid
          · rw [if_pos hidx]
            subst hidx
            refine .inr ⟨hfree, rfl, ?_, hshell, hocc⟩
            rw [← hm₁]
            rfl
          · rw [if_neg hidx]
            refine .inl ?_
            have := hrelease true (terminateProcess
              (spawnKernelTask m.sched stack (some pid)).1 idx).1 fun k => by
                rw [occupant_terminateProcess, hocc]
                by_cases hk : k = idx
                · rw [if_pos ⟨hk, by simp only [idlePid, externalPidMin] at *; omega, hhigh⟩,
                    if_pos hk]
                  exact .inr ⟨rfl, hk ▸ hfree⟩
                · rw [if_neg (fun h => hk h.1), if_neg hk]
                  exact .inl rfl
            rw [hm₁] at this
            exact this

/-! ## The shell -/

/-- The scheduler after a task on `pageDirectory` took slot `idx`. -/
structure Started (s s' : Sched.State) (pageDirectory : Option Nat) (idx : Nat) : Prop where
  lowest : findFreeSlotFrom s externalPidMin = some idx
  low : slotFirstPid ≤ idx
  high : idx < maxProcesses
  free : ∀ d, occupant s idx ≠ .live d
  slots : ∀ k, occupant s' k = if k = idx then .live pageDirectory else occupant s k

theorem spawnKernelTask_started (s : Sched.State) (stack : Nat) (pageDirectory : Option Nat) :
    ((spawnKernelTask s stack pageDirectory).2 = none ∧
      (spawnKernelTask s stack pageDirectory).1 = s) ∨
    ∃ idx, (spawnKernelTask s stack pageDirectory).2 = some idx ∧
      Started s (spawnKernelTask s stack pageDirectory).1 pageDirectory idx := by
  rcases spawnKernelTask_cases s stack pageDirectory with
    h | ⟨idx, h1, h2, h3, h4, h5, h6⟩
  · exact .inl h
  · exact .inr ⟨idx, h1, h2, h3, h4, h5, h6⟩

inductive ShellMove (m : Machine) : ShellEvent → Machine → Prop where
  | refused {e : ShellEvent} : m.shell = .idle → ShellMove m e m
  | reaped {e : ShellEvent} : m.shell = .idle → ShellMove m e (reapTerminatedTasks m)
  | chosen {background : Bool} {imageBytes pid : Nat} : m.shell = .idle →
      requiredSlotBytes imageBytes ≠ 0 → (findFreePid m).2 = some pid →
      ShellMove m (.launch background imageBytes) (withShell (reapTerminatedTasks m)
        (.chosen background (requiredSlotBytes imageBytes) pid))
  | noMemory {background : Bool} {slotBytes pid : Nat} :
      m.shell = .chosen background slotBytes pid → (allocatePhysBase m slotBytes).2 = none →
      ShellMove m .allocate (withShell (allocatePhysBase m slotBytes).1 .idle)
  | allocated {background : Bool} {slotBytes pid physBase : Nat} :
      m.shell = .chosen background slotBytes pid →
      (allocatePhysBase m slotBytes).2 = some physBase →
      ShellMove m .allocate (withShell (allocatePhysBase m slotBytes).1
        (.allocated background slotBytes pid physBase))
  | prepared {background built : Bool} {slotBytes pid physBase : Nat} :
      m.shell = .allocated background slotBytes pid physBase →
      ShellMove m (.prepare built) (prepareStep m background slotBytes pid physBase built)
  | loaded {background ok : Bool} {pid : Nat} : m.shell = .prepared background pid →
      ShellMove m (.load ok) (withShell m (if ok then .loaded background pid else .failed pid))
  | notSpawned {background : Bool} {pid stack : Nat} : m.shell = .loaded background pid →
      ShellMove m (.spawn stack) (withShell m (.failed pid))
  | spawned {background : Bool} {pid stack : Nat} {s : Sched.State} :
      m.shell = .loaded background pid → Started m.sched s (some pid) pid →
      ShellMove m (.spawn stack)
        { m with sched := s, shell := if background then .idle else .waiting pid }
  | mismatched {background : Bool} {pid idx stack : Nat} {s : Sched.State} :
      m.shell = .loaded background pid → Started m.sched s (some pid) idx → idx ≠ pid →
      ShellMove m (.spawn stack) { m with sched := s, shell := .mismatched pid idx }
  | released {pid : Nat} : m.shell = .failed pid →
      ShellMove m .release (withShell (releaseTask m pid) .idle)
  | releasedFirst {pid actualPid : Nat} : m.shell = .mismatched pid actualPid →
      ShellMove m .release (withShell (releaseTask m pid) (.released actualPid))
  | terminated {actualPid : Nat} : m.shell = .released actualPid →
      ShellMove m .terminate (withShell (terminateAt m actualPid) .idle)
  | joined {pid : Nat} : m.shell = .waiting pid → processDead m pid →
      ShellMove m .join (withShell (releaseTask m pid) .idle)
  | killing {pid leaderPid : Nat} : m.shell = .idle → Member (reapTerminatedTasks m) leaderPid pid →
      slotFirstPid ≤ leaderPid →
      ShellMove m (.kill pid) (withShell (reapTerminatedTasks m) (.killing leaderPid slotFirstPid))
  | killedNext {leaderPid next : Nat} : m.shell = .killing leaderPid next → next < maxProcesses →
      ShellMove m .killNext (withShell (terminateMember m leaderPid leaderPid next)
        (.killing leaderPid (next + 1)))
  | killedLeader {leaderPid next : Nat} : m.shell = .killing leaderPid next →
      maxProcesses ≤ next → ShellMove m .killNext (withShell (terminateAt m leaderPid) .idle)
  | stressing {workers left : Nat} : m.shell = .idle →
      ShellMove m (.videostress workers) (withShell m (.stressing left))
  | stressed {left stack : Nat} : m.shell = .stressing left →
      ShellMove m (.stress stack) (withShell m .idle)
  | worker {left stack idx : Nat} {s : Sched.State} : m.shell = .stressing (left + 1) →
      Started m.sched s none idx →
      ShellMove m (.stress stack) { m with sched := s, shell := .stressing left }

section Moves

variable {m m' : Machine}

theorem chooseStep_move (h : m.shell = .idle) (background : Bool) (imageBytes : Nat) :
    ShellMove m (.launch background imageBytes) (chooseStep m background imageBytes) := by
  unfold chooseStep
  by_cases hb : requiredSlotBytes imageBytes = 0
  · rw [if_pos hb]
    exact .refused h
  · rw [if_neg hb]
    cases hpid : (findFreePid m).2 with
    | none => exact .reaped h
    | some pid => exact .chosen h hb hpid

theorem allocateStep_move {background : Bool} {slotBytes pid : Nat}
    (h : m.shell = .chosen background slotBytes pid) :
    ShellMove m .allocate (allocateStep m background slotBytes pid) := by
  unfold allocateStep takePages
  cases hbase : (allocatePhysBase m slotBytes).2 with
  | none => exact .noMemory h hbase
  | some physBase => exact .allocated h hbase

theorem spawnStep_move {background : Bool} {pid : Nat} (h : m.shell = .loaded background pid)
    (stack : Nat) : ShellMove m (.spawn stack) (spawnStep m background pid stack) := by
  simp only [spawnStep, spawnAt]
  rcases spawnKernelTask_started m.sched stack (some pid) with ⟨hnone, hsame⟩ | ⟨idx, hsome, hst⟩
  · rw [hnone, hsame]
    exact .notSpawned h
  · rw [hsome]
    by_cases hidx : idx = pid
    · subst hidx
      simp only [spawnedShell, if_pos]
      exact .spawned h hst
    · simp only [spawnedShell, if_neg hidx]
      exact .mismatched h hst hidx

theorem killStep_move (h : m.shell = .idle) (pid : Nat) : ShellMove m (.kill pid) (killStep m pid) := by
  unfold killStep killGroup
  simp only [findTask]
  by_cases hrange : maxProcesses ≤ pid
  · simp only [hrange, if_true]
    exact .reaped h
  · by_cases huse : ((reapTerminatedTasks m).tasks pid).inUse
    · simp only [hrange, huse, not_true, if_false]
      by_cases hlow : groupLeaderPid ((reapTerminatedTasks m).tasks pid) < slotFirstPid
      · rw [if_pos hlow]
        exact .reaped h
      · rw [if_neg hlow]
        exact .killing h ⟨huse, rfl⟩ (Nat.le_of_not_lt hlow)
    · simp only [hrange, huse, if_false]
      exact .reaped h

theorem killNextStep_move {leaderPid next : Nat} (h : m.shell = .killing leaderPid next) :
    ShellMove m .killNext (killNextStep m leaderPid next) := by
  unfold killNextStep
  by_cases hn : next < maxProcesses
  · rw [if_pos hn]
    exact .killedNext h hn
  · rw [if_neg hn]
    exact .killedLeader h (Nat.le_of_not_lt hn)

theorem stressStep_move {left : Nat} (h : m.shell = .stressing (left + 1)) (stack : Nat) :
    ShellMove m (.stress stack) (stressStep m left stack) := by
  unfold stressStep
  rcases spawnKernelTask_started m.sched stack none with ⟨hnone, hsame⟩ | ⟨idx, hsome, hst⟩
  · rw [hnone, hsame]
    exact .stressed h
  · rw [hsome]
    exact .worker h hst

theorem shellStep_move {e : ShellEvent} (h : shellStep m e = some m') : ShellMove m e m' := by
  cases e with
  | reap =>
    simp only [shellStep] at h
    split at h
    case isTrue hs => cases h; exact .reaped hs
    case isFalse hs => cases h
  | launch background imageBytes =>
    simp only [shellStep] at h
    split at h
    case isTrue hs => cases h; exact chooseStep_move hs background imageBytes
    case isFalse hs => cases h
  | allocate =>
    simp only [shellStep] at h
    split at h
    case h_1 hs => cases h; exact allocateStep_move hs
    case h_2 => cases h
  | prepare built =>
    simp only [shellStep] at h
    split at h
    case h_1 hs => cases h; exact .prepared hs
    case h_2 => cases h
  | load ok =>
    simp only [shellStep] at h
    split at h
    case h_1 hs => cases h; exact .loaded hs
    case h_2 => cases h
  | spawn stack =>
    simp only [shellStep] at h
    split at h
    case h_1 hs => cases h; exact spawnStep_move hs stack
    case h_2 => cases h
  | release =>
    simp only [shellStep] at h
    split at h
    case h_1 hs => cases h; exact .released hs
    case h_2 hs => cases h; exact .releasedFirst hs
    case h_3 => cases h
  | terminate =>
    simp only [shellStep] at h
    split at h
    case h_1 hs => cases h; exact .terminated hs
    case h_2 => cases h
  | join =>
    simp only [shellStep] at h
    split at h
    case h_1 hs =>
      split at h
      case isTrue hdead => cases h; exact .joined hs hdead
      case isFalse => cases h
    case h_2 => cases h
  | kill pid =>
    simp only [shellStep] at h
    split at h
    case isTrue hs => cases h; exact killStep_move hs pid
    case isFalse hs => cases h
  | killNext =>
    simp only [shellStep] at h
    split at h
    case h_1 hs => cases h; exact killNextStep_move hs
    case h_2 => cases h
  | videostress workers =>
    simp only [shellStep] at h
    split at h
    case isTrue hs => cases h; exact .stressing hs
    case isFalse hs => cases h
  | stress stack =>
    simp only [shellStep] at h
    split at h
    case h_1 hs => cases h; exact .stressed hs
    case h_2 hs => cases h; exact stressStep_move hs stack
    case h_3 => cases h

end Moves

/-- What any step does. -/
theorem step_cases {m m' : Machine} {e : Event} (h : step m e = some m') :
    (∃ built stack, e = .app (.threadSpawn built stack) ∧ Executing m ∧
      (currentDirectory m).isSome ∧ m' = (spawnAppThread m built stack).1) ∨
    (∃ c, e = .shell c ∧ ShellMove m c m') ∨
    (Fewer m m' ∧ ((∀ k, occupant m'.sched k = occupant m.sched k) ∨
      (Returns m ∧ m' = { m with sched := exitCurrent m.sched }) ∨
      (Executing m ∧ (currentDirectory m).isSome ∧
        ((∃ frame, m' = exitFromInterrupt (onCurrentTaskExit m) frame) ∨
          ∃ frame, m' = exitFromInterrupt (onCurrentTaskFault m) frame)))) := by
  cases e with
  | tick frame =>
    cases h
    have hsame := occupant_onTimerTick m.sched frame
    exact .inr (.inr ⟨.same hsame, .inl hsame⟩)
  | yield frame =>
    cases h
    have hsame := occupant_switchFromFrame m.sched frame
    exact .inr (.inr ⟨.same hsame, .inl hsame⟩)
  | sleep ticks =>
    simp only [step] at h
    split at h
    case isTrue hc =>
      cases h
      have hsame := occupant_sleepTicks hc.1 ticks
      exact .inr (.inr ⟨.same hsame, .inl hsame⟩)
    case isFalse => cases h
  | ended =>
    simp only [step] at h
    split at h
    case isTrue hc =>
      cases h
      refine .inr (.inr ⟨⟨rfl, rfl, rfl, fun k => ?_⟩, .inr (.inl ⟨hc, rfl⟩)⟩)
      rw [exitCurrent, occupant_markTerminated]
      split
      · exact .inr rfl
      · exact .inl rfl
    case isFalse => cases h
  | app c =>
    simp only [step] at h
    split at h
    case isTrue hc =>
      cases h
      cases c with
      | threadSpawn built stack => exact .inl ⟨built, stack, rfl, hc.1, hc.2, rfl⟩
      | exit frame =>
        exact .inr (.inr ⟨(fewer_onCurrentTaskExit m).trans (fewer_exitFromInterrupt _ frame),
          .inr (.inr ⟨hc.1, hc.2, .inl ⟨frame, rfl⟩⟩)⟩)
      | fault frame =>
        exact .inr (.inr ⟨(fewer_onCurrentTaskFault m).trans (fewer_exitFromInterrupt _ frame),
          .inr (.inr ⟨hc.1, hc.2, .inr ⟨frame, rfl⟩⟩)⟩)
    case isFalse => cases h
  | shell c =>
    simp only [step] at h
    split at h
    case isTrue hc => exact .inr (.inl ⟨c, rfl, shellStep_move h⟩)
    case isFalse => cases h

end Apps
end MiniDos
