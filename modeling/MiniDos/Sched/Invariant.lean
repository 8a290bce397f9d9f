import MiniDos.Sched.Model

/-!
# MiniDos.Sched.Invariant

What holds of the slots in every state of the scheduler, between any two of its steps. A task that
goes to sleep or exits marks its slot first and yields later, and a tick may come in between: the
current slot can then be blocked, terminated, or ready again, while it is still executing.

* `pickNext_cases`: what the scan for the next slot can find.
* `Sane`: only the current slot runs, the idle slot can always be picked, and every other slot that
  may be picked has a frame to return to.
* `scheduler_sane`: the states of all runs.
-/

namespace MiniDos
namespace Sched

open Transition

/-- The invariant of the scheduler. -/
structure Sane (s : State) : Prop where
  current : s.current < maxProcesses
  running : ∀ i, s.state i = .running → i = s.current
  idle : s.state idlePid = .ready ∨ s.state idlePid = .running
  frames : ∀ i, i ≠ s.current → s.state i = .ready ∨ s.state i = .blocked →
    (s.slots i).irqFrame.isSome
  log : ∀ a ∈ s.activations, a.2 = .ready

/-! ## The scan -/

theorem readyFrom_some {s : State} : ∀ {n k next}, readyFrom s n k = some next →
    ∃ j, k ≤ j ∧ j < k + n ∧ next = (s.current + j) % maxProcesses ∧ next ≠ idlePid ∧
      s.state next = .ready ∧ ∀ i, k ≤ i → i < j → (s.current + i) % maxProcesses = idlePid ∨
        s.state ((s.current + i) % maxProcesses) ≠ .ready := by
  intro n
  induction n with
  | zero =>
    intro k next h
    cases h
  | succ n ih =>
    intro k next h
    -- the scan goes on behind a slot it passes over
    have hpass : ((s.current + k) % maxProcesses = idlePid ∨
        s.state ((s.current + k) % maxProcesses) ≠ .ready) → readyFrom s n (k + 1) = some next →
        ∃ j, k ≤ j ∧ j < k + (n + 1) ∧ next = (s.current + j) % maxProcesses ∧ next ≠ idlePid ∧
          s.state next = .ready ∧ ∀ i, k ≤ i → i < j → (s.current + i) % maxProcesses = idlePid ∨
            s.state ((s.current + i) % maxProcesses) ≠ .ready := by
      intro hskip hrest
      obtain ⟨j, hkj, hjn, heq, hne, hst, hbefore⟩ := ih hrest
      refine ⟨j, by omega, by omega, heq, hne, hst, fun i hki hij => ?_⟩
      by_cases hik : i = k
      · rw [hik]
        exact hskip
      · exact hbefore i (by omega) hij
    simp only [readyFrom] at h
    split at h
    case isTrue hidle => exact hpass (.inl hidle) h
    case isFalse hidle =>
      split at h
      case isTrue hready =>
        cases h
        exact ⟨k, Nat.le_refl _, by omega, rfl, hidle, hready, fun i h1 h2 => absurd h2 (by omega)⟩
      case isFalse hready => exact hpass (.inr hready) h

theorem readyFrom_none {s : State} : ∀ {n k}, readyFrom s n k = none → ∀ j, k ≤ j → j < k + n →
    (s.current + j) % maxProcesses = idlePid ∨
      s.state ((s.current + j) % maxProcesses) ≠ .ready := by
  intro n
  induction n with
  | zero => exact fun _ j h1 h2 => absurd h2 (by omega)
  | succ n ih =>
    intro k h j hkj hjn
    simp only [readyFrom] at h
    split at h
    case isTrue hidle =>
      by_cases hjk : j = k
      · exact .inl (hjk ▸ hidle)
      · exact ih h j (by omega) (by omega)
    case isFalse hidle =>
      split at h
      case isTrue hready => cases h
      case isFalse hready =>
        by_cases hjk : j = k
        · exact .inr (hjk ▸ hready)
        · exact ih h j (by omega) (by omega)

theorem pickNext_cases {s : State} (hs : s.current < maxProcesses) {next : Nat}
    (h : pickNext s = some next) :
    (next ≠ s.current ∧ next < maxProcesses ∧ s.state next = .ready) ∨
      (next = s.current ∧ s.state next = .running) ∨
      (next = idlePid ∧ (s.state next = .ready ∨ s.state next = .running)) := by
  unfold pickNext at h
  split at h
  case h_1 next' hfind =>
    cases h
    obtain ⟨j, h1, h2, rfl, _, hst, _⟩ := readyFrom_some hfind
    refine .inl ⟨?_, Nat.mod_lt _ (by decide), hst⟩
    have hcur : s.current < 8 := hs
    have hj : j < 1 + 7 := h2
    show (s.current + j) % 8 ≠ s.current
    omega
  case h_2 hnone =>
    split at h
    case isTrue hrun =>
      cases h
      exact .inr (.inl ⟨rfl, hrun⟩)
    case isFalse hrun =>
      split at h
      case isTrue hidle =>
        cases h
        exact .inr (.inr ⟨rfl, hidle⟩)
      case isFalse hidle => cases h

theorem pickNext_isSome {s : State} (hidle : s.state idlePid = .ready ∨ s.state idlePid = .running) :
    (pickNext s).isSome := by
  unfold pickNext
  split
  · rfl
  · split
    · rfl
    · rfl

/-! ## What the steps do to the slots -/

section Update

variable (s : State) (i : Nat)

@[simp] theorem setSlot_current (slot : Slot) : (s.setSlot i slot).current = s.current := rfl
@[simp] theorem setSlot_activations (slot : Slot) :
    (s.setSlot i slot).activations = s.activations := rfl
@[simp] theorem setSlot_self (slot : Slot) : (s.setSlot i slot).slots i = slot := by
  simp [State.setSlot]
@[simp] theorem setState_current (st : ProcState) : (s.setState i st).current = s.current := rfl
@[simp] theorem setState_activations (st : ProcState) :
    (s.setState i st).activations = s.activations := rfl

theorem setSlot_of_ne {k : Nat} (slot : Slot) (h : k ≠ i) : (s.setSlot i slot).slots k = s.slots k := by
  simp [State.setSlot, h]

theorem state_setSlot (slot : Slot) (k : Nat) :
    (s.setSlot i slot).state k = if k = i then slot.state else s.state k := by
  by_cases h : k = i
  · simp [State.state, State.setSlot, h]
  · simp [State.state, State.setSlot, h]

theorem state_setState (st : ProcState) (k : Nat) :
    (s.setState i st).state k = if k = i then st else s.state k := state_setSlot s i _ k

theorem frame_setState (st : ProcState) (k : Nat) :
    ((s.setState i st).slots k).irqFrame = (s.slots k).irqFrame := by
  by_cases h : k = i
  · simp [State.setState, h]
  · simp [State.setState, setSlot_of_ne _ _ _ h]

@[simp] theorem demoteCurrent_current : (demoteCurrent s).current = s.current := by
  unfold demoteCurrent
  split <;> rfl

theorem demoteCurrent_not_running : (demoteCurrent s).state (demoteCurrent s).current ≠ .running := by
  rw [demoteCurrent_current]
  unfold demoteCurrent
  split
  case isTrue h =>
    rw [state_setState, if_pos rfl]
    decide
  case isFalse h => exact h

theorem demoteCurrent_of_ne {k : Nat} (h : k ≠ s.current) :
    (demoteCurrent s).state k = s.state k := by
  unfold demoteCurrent
  split
  · rw [state_setState, if_neg h]
  · rfl

theorem frame_demoteCurrent (k : Nat) :
    ((demoteCurrent s).slots k).irqFrame = (s.slots k).irqFrame := by
  unfold demoteCurrent
  split
  · exact frame_setState s s.current .ready k
  · rfl

end Update

theorem switchFromFrame_cases (s : State) (frame : Nat) :
    switchFromFrame s frame = (resumeCurrent (saveFrame s frame), none) ∨
    ∃ next, pickNext (saveFrame s frame) = some next ∧ next ≠ s.current ∧
      switchFromFrame s frame = activateSlot (demoteCurrent (saveFrame s frame)) next := by
  unfold switchFromFrame
  cases hpick : pickNext (saveFrame s frame) with
  | none => simp [hpick]
  | some next =>
    simp only [hpick]
    by_cases hne : next = (saveFrame s frame).current
    · exact .inl (if_pos hne)
    · exact .inr ⟨next, rfl, hne, if_neg hne⟩

theorem onTimerTick_cases (s : State) (frame : Nat) : ∃ q,
    onTimerTick s frame = ({ tickSlots s with sliceLeft := q }, none) ∨
    onTimerTick s frame = switchFromFrame { tickSlots s with sliceLeft := q } frame := by
  unfold onTimerTick
  simp only
  generalize (if (tickSlots s).current = idlePid then findReadyNonIdle (tickSlots s)
    else none) = forcedNext
  by_cases hoff : ¬ (tickSlots s).preemption = true ∨ (tickSlots s).quantum = 0
  · rw [if_pos hoff]
    refine ⟨(tickSlots s).sliceLeft, ?_⟩
    split
    · exact .inr rfl
    · exact .inl rfl
  · rw [if_neg hoff]
    split
    · by_cases hleft : 0 < (tickSlots s).sliceLeft - 1
      · exact ⟨_, .inl (if_pos hleft)⟩
      · exact ⟨_, .inr (if_neg hleft)⟩
    · exact ⟨_, .inr rfl⟩

theorem exitCurrentFromInterrupt_eq {s : State} {frame next : Nat}
    (h : pickNext (markTerminated (saveFrame s frame) s.current) = some next) :
    exitCurrentFromInterrupt s frame =
      activateSlot (markTerminated (saveFrame s frame) s.current) next := by
  unfold exitCurrentFromInterrupt
  simp only [h]

namespace Sane

variable {s : State}

theorem setCurrent (h : Sane s) {slot : Slot}
    (hidle : s.current = idlePid → slot.state = .ready ∨ slot.state = .running) :
    Sane (s.setSlot s.current slot) where
  current := h.current
  running i hi := by
    rw [state_setSlot] at hi
    split at hi
    case isTrue he => exact he
    case isFalse he => exact h.running i hi
  idle := by
    rw [state_setSlot]
    split
    case isTrue he => exact hidle he.symm
    case isFalse he => exact h.idle
  frames i hi hst := by
    have hne : i ≠ s.current := hi
    rw [state_setSlot, if_neg hne] at hst
    rw [setSlot_of_ne _ _ _ hne]
    exact h.frames i hne hst
  log := h.log

theorem wakeSleepers (h : Sane s) (now : UInt32) : Sane (wakeSleepers s now) := by
  -- a slot is as before, or was blocked and is ready now
  have hcases : ∀ i, (Sched.wakeSleepers s now).slots i = s.slots i ∨ s.state i = .blocked ∧
      (Sched.wakeSleepers s now).slots i = { s.slots i with wakeTick := 0, state := .ready } := by
    intro i
    simp only [Sched.wakeSleepers]
    split
    case isTrue hw => exact .inr ⟨hw.2.1, rfl⟩
    case isFalse hw => exact .inl rfl
  have hstate : ∀ i st, st ≠ .ready → (Sched.wakeSleepers s now).state i = st → s.state i = st := by
    intro i st hne hi
    obtain he | ⟨_, he⟩ := hcases i
    · rw [State.state, he] at hi
      exact hi
    · rw [State.state, he] at hi
      exact absurd hi.symm hne
  constructor
  · exact h.current
  · exact fun i hi => h.running i (hstate i .running (by decide) hi)
  · obtain he | ⟨hb, _⟩ := hcases idlePid
    · rw [State.state, he]
      exact h.idle
    · have hidle := h.idle
      rw [hb] at hidle
      exact absurd hidle (by decide)
  · intro i hi hst
    obtain he | ⟨hb, he⟩ := hcases i
    · rw [State.state, he] at hst
      rw [he]
      exact h.frames i hi hst
    · rw [he]
      exact h.frames i hi (.inr hb)
  · exact h.log

/-- A slot that is ready and not current is activated. -/
theorem activate (h : Sane s) {next : Nat} (hlt : next < maxProcesses) (hready : s.state next = .ready)
    (hcur : s.state s.current ≠ .running)
    (hframe : s.state s.current = .ready ∨ s.state s.current = .blocked →
      (s.slots s.current).irqFrame.isSome) : Sane (activateSlot s next).1 := by
  have hstate : ∀ k, (activateSlot s next).1.state k = if k = next then .running else s.state k := by
    intro k
    exact state_setSlot s next _ k
  constructor
  · exact hlt
  · intro i hi
    rw [hstate] at hi
    split at hi
    case isTrue he => exact he
    case isFalse he => exact absurd (h.running i hi ▸ hi) hcur
  · rw [hstate]
    split
    · exact .inr rfl
    · exact h.idle
  · intro i hi hst
    have hne : i ≠ next := hi
    rw [hstate, if_neg hne] at hst
    show ((s.setSlot next _).slots i).irqFrame.isSome
    rw [setSlot_of_ne _ _ _ hne]
    by_cases he : i = s.current
    · rw [he] at hst ⊢
      exact hframe hst
    · exact h.frames i he hst
  · intro a ha
    simp only [activateSlot, List.mem_cons] at ha
    obtain rfl | ha := ha
    · exact hready
    · exact h.log a ha

theorem ready_of_picked (h : Sane s) {next : Nat} (hpick : pickNext s = some next)
    (hne : next ≠ s.current) : next < maxProcesses ∧ s.state next = .ready := by
  obtain ⟨_, hlt, hst⟩ | ⟨he, _⟩ | ⟨rfl, hst | hst⟩ := pickNext_cases h.current hpick
  · exact ⟨hlt, hst⟩
  · exact absurd he hne
  · exact ⟨by decide, hst⟩
  · exact absurd (h.running _ hst) hne

theorem resumeCurrent (h : Sane s) : Sane (resumeCurrent s) := by
  unfold Sched.resumeCurrent
  split
  · exact h.setCurrent (fun _ => .inr rfl)
  · exact h

theorem demoteCurrent (h : Sane s) : Sane (demoteCurrent s) := by
  unfold Sched.demoteCurrent
  split
  · exact h.setCurrent (fun _ => .inl rfl)
  · exact h

theorem saveFrame (h : Sane s) (frame : Nat) : Sane (saveFrame s frame) :=
  h.setCurrent (fun he => he ▸ h.idle)

theorem switchFromFrame (h : Sane s) (frame : Nat) : Sane (switchFromFrame s frame).1 := by
  have h₁ : Sane (Sched.saveFrame s frame) := h.saveFrame frame
  obtain he | ⟨next, hpick, hne, he⟩ := switchFromFrame_cases s frame
  · rw [he]
    exact h₁.resumeCurrent
  · rw [he]
    obtain ⟨hlt, hready⟩ := h₁.ready_of_picked hpick hne
    refine h₁.demoteCurrent.activate hlt ?_ (demoteCurrent_not_running _) (fun _ => ?_)
    · rw [demoteCurrent_of_ne _ (show next ≠ (Sched.saveFrame s frame).current from hne)]
      exact hready
    · rw [frame_demoteCurrent, demoteCurrent_current]
      simp [Sched.saveFrame]

theorem exited (h : Sane s) (hidle : s.current ≠ idlePid) : Sane (markTerminated s s.current) :=
  h.setCurrent (fun he => absurd he hidle)

theorem exitedPick (h : Sane s) (hidle : s.current ≠ idlePid) :
    ∃ next, pickNext (markTerminated s s.current) = some next ∧ next < maxProcesses ∧
      next ≠ s.current ∧ s.state next = .ready := by
  have h₁ := h.exited hidle
  obtain ⟨next, hpick⟩ := Option.isSome_iff_exists.mp (pickNext_isSome h₁.idle)
  have hdead : (markTerminated s s.current).state s.current = .terminated := by
    rw [markTerminated, state_setSlot, if_pos rfl]
  have hne : next ≠ s.current := by
    rintro rfl
    obtain ⟨hne, _⟩ | ⟨_, hst⟩ | ⟨he, _⟩ := pickNext_cases h₁.current hpick
    · exact hne rfl
    · rw [hdead] at hst
      cases hst
    · exact hidle he
  obtain ⟨hlt, hready⟩ := h₁.ready_of_picked hpick hne
  rw [markTerminated, state_setSlot, if_neg hne] at hready
  exact ⟨next, hpick, hlt, hne, hready⟩

theorem exitFromInterrupt (h : Sane s) (hidle : s.current ≠ idlePid) (frame : Nat) :
    Sane (exitCurrentFromInterrupt s frame).1 ∧ (exitCurrentFromInterrupt s frame).2.isSome := by
  have h₁ : Sane (Sched.saveFrame s frame) := h.saveFrame frame
  obtain ⟨next, hpick, hlt, hne, hready⟩ := h₁.exitedPick hidle
  have hdead : (markTerminated (Sched.saveFrame s frame) s.current).state s.current =
      .terminated := by
    rw [markTerminated, state_setSlot, if_pos rfl]
  rw [exitCurrentFromInterrupt_eq hpick]
  constructor
  · refine (h₁.exited hidle).activate hlt ?_ (fun hr => ?_) (fun hr => ?_)
    · rw [markTerminated, state_setSlot, if_neg hne]
      exact hready
    · cases hdead.symm.trans hr
    · obtain hr | hr := hr <;> cases hdead.symm.trans hr
  · show ((markTerminated (Sched.saveFrame s frame) s.current).slots next).irqFrame.isSome
    rw [markTerminated, setSlot_of_ne _ _ _ (show next ≠ s.current from hne)]
    exact h₁.frames next hne (.inl hready)

theorem slice (h : Sane s) (q : Nat) : Sane { s with sliceLeft := q } :=
  ⟨h.current, h.running, h.idle, h.frames, h.log⟩

theorem tickSlots (h : Sane s) : Sane (tickSlots s) := by
  have h₁ : Sane { s with ticks := s.ticks + 1 } := ⟨h.current, h.running, h.idle, h.frames, h.log⟩
  exact (h₁.setCurrent (fun he => he ▸ h₁.idle)).wakeSleepers _

theorem tick (h : Sane s) (frame : Nat) : Sane (onTimerTick s frame).1 := by
  obtain ⟨q, he | he⟩ := onTimerTick_cases s frame
  · rw [he]
    exact h.tickSlots.slice q
  · rw [he]
    exact (h.tickSlots.slice q).switchFromFrame frame

/-! ## Other slots -/

theorem setOther (h : Sane s) {i : Nat} {slot : Slot} (hi : i ≠ idlePid)
    (hrun : slot.state ≠ .running)
    (hframe : slot.state = .ready ∨ slot.state = .blocked → slot.irqFrame.isSome) :
    Sane (s.setSlot i slot) where
  current := h.current
  running k hk := by
    rw [state_setSlot] at hk
    split at hk
    · exact absurd hk hrun
    · exact h.running k hk
  idle := by
    rw [state_setSlot, if_neg (Ne.symm hi)]
    exact h.idle
  frames k hk hst := by
    rw [state_setSlot] at hst
    split at hst
    case isTrue he =>
      rw [he, setSlot_self]
      exact hframe hst
    case isFalse he =>
      rw [setSlot_of_ne _ _ _ he]
      exact h.frames k hk hst
  log := h.log

end Sane

theorem freeFrom_some {s : State} : ∀ {n i idx}, freeFrom s n i = some idx →
    i ≤ idx ∧ idx < i + n ∧ (s.state idx = .unused ∨ s.state idx = .terminated) ∧
      ∀ k, i ≤ k → k < idx → s.state k ≠ .unused ∧ s.state k ≠ .terminated := by
  intro n
  induction n with
  | zero =>
    intro i idx h
    cases h
  | succ n ih =>
    intro i idx h
    simp only [freeFrom] at h
    split at h
    case isTrue hfree =>
      cases h
      exact ⟨Nat.le_refl _, by omega, hfree, fun k h1 h2 => absurd h2 (by omega)⟩
    case isFalse hfree =>
      obtain ⟨h1, h2, h3, h4⟩ := ih h
      refine ⟨by omega, by omega, h3, fun k hk1 hk2 => ?_⟩
      by_cases hki : k = i
      · rw [hki]
        exact not_or.mp hfree
      · exact h4 k (by omega) hk2

theorem findFreeSlotFrom_some {s : State} {first idx : Nat}
    (h : findFreeSlotFrom s first = some idx) : idlePid < idx ∧ idx < maxProcesses := by
  unfold findFreeSlotFrom at h
  obtain ⟨h1, h2, _⟩ := freeFrom_some h
  by_cases hlow : first < idlePid + 1
  · rw [if_pos hlow] at h1 h2
    simp only [maxProcesses, idlePid] at h1 h2 ⊢
    omega
  · rw [if_neg hlow] at h1 h2
    simp only [maxProcesses, idlePid] at h1 h2 hlow ⊢
    omega

theorem Sane.spawn {s : State} (h : Sane s) (stack : Nat) (pageDirectory : Option Nat)
    (first : Nat) : Sane (spawnInternal s stack pageDirectory first).1 := by
  unfold spawnInternal
  cases hfree : findFreeSlotFrom s first with
  | none => exact h
  | some idx =>
    have hidx := findFreeSlotFrom_some hfree
    exact h.setOther (Nat.ne_of_gt hidx.1) (fun hr => by cases hr) (fun _ => rfl)

theorem Sane.terminate {s : State} (h : Sane s) (pid : Nat) : Sane (terminateProcess s pid).1 := by
  unfold terminateProcess
  split
  · exact h
  · split
    · exact h
    · refine h.setOther ?_ (fun hr => by cases hr) (fun hr => by cases hr <;> contradiction)
      simp only [idlePid] at *
      omega

theorem Sane.step {s s' : State} {e : Event} (h : Sane s) (hstep : step s e = some s') : Sane s' := by
  cases e with
  | tick frame =>
    cases hstep
    exact h.tick frame
  | yield frame =>
    cases hstep
    exact h.switchFromFrame frame
  | sleep ticks =>
    simp only [Sched.step] at hstep
    split at hstep
    case isTrue => cases hstep
    case isFalse hguard =>
      cases hstep
      exact h.setCurrent (fun he => absurd (.inl he) hguard)
  | spawn stack pageDirectory first =>
    cases hstep
    exact h.spawn stack pageDirectory first
  | exit =>
    simp only [Sched.step] at hstep
    split at hstep
    case isTrue => cases hstep
    case isFalse hidle =>
      cases hstep
      exact h.exited hidle
  | exitFromInterrupt frame =>
    simp only [Sched.step] at hstep
    split at hstep
    case isTrue => cases hstep
    case isFalse hidle =>
      cases hstep
      exact (h.exitFromInterrupt hidle frame).1
  | terminate pid =>
    simp only [Sched.step] at hstep
    split at hstep
    case isTrue => cases hstep
    case isFalse =>
      cases hstep
      exact h.terminate pid
  | enablePreemption quantumTicks =>
    cases hstep
    exact ⟨h.current, h.running, h.idle, h.frames, h.log⟩
  | disablePreemption =>
    cases hstep
    exact ⟨h.current, h.running, h.idle, h.frames, h.log⟩

theorem runtimeInit_sane (stack : Nat) (ticks : UInt32) : Sane (runtimeInit stack ticks) where
  current := show bootPid < maxProcesses by decide
  running i hi := by
    simp only [runtimeInit, State.state] at hi
    split at hi
    case isTrue he => exact he
    case isFalse =>
      split at hi
      · cases hi
      · cases hi
  idle := .inl rfl
  frames i hi hst := by
    have hne : i ≠ bootPid := hi
    simp only [runtimeInit, State.state, hne, if_false] at hst ⊢
    split at hst
    case isTrue he =>
      rw [if_pos he]
      rfl
    case isFalse he => exact absurd hst (by decide)
  log a ha := by cases ha

/-- In every state of every run: at most one slot runs and it is the current one; the idle slot is
ready or runs; `sched_pick_next` finds a slot wherever it is called, from a yield, from a tick, and
from the exit of a task; every slot was ready when it was activated; and the exit of a task returns a
frame. -/
theorem scheduler_sane (stack : Nat) (ticks : UInt32) (es : List Event) (s : State)
    (hrun : run step (runtimeInit stack ticks) es = some s) :
    (∀ i, s.state i = .running → i = s.current) ∧
    (s.state idlePid = .ready ∨ s.state idlePid = .running) ∧
    (∀ frame, (pickNext (saveFrame s frame)).isSome ∧
      (pickNext (saveFrame (tickSlots s) frame)).isSome ∧
      (s.current ≠ idlePid →
        (pickNext (markTerminated (saveFrame s frame) s.current)).isSome)) ∧
    (∀ a ∈ s.activations, a.2 = .ready) ∧
    (∀ frame, s.current ≠ idlePid → (exitCurrentFromInterrupt s frame).2.isSome) := by
  have h : Sane s := run_invariant_all (fun _ _ _ hs hstep => hs.step hstep) es _ _
    (runtimeInit_sane stack ticks) hrun
  refine ⟨h.running, h.idle, fun frame => ⟨?_, ?_, fun hidle => ?_⟩, h.log, fun frame hidle => ?_⟩
  · exact pickNext_isSome (h.saveFrame frame).idle
  · exact pickNext_isSome (h.tickSlots.saveFrame frame).idle
  · obtain ⟨next, hpick, _⟩ := (h.saveFrame frame).exitedPick hidle
    exact Option.isSome_of_mem hpick
  · exact (h.exitFromInterrupt hidle frame).2

/-- The boot task goes to sleep, a tick comes before its yield, and the task it spawned exits. -/
def sleepyRun : List Event :=
  [.spawn 100 none 3, .sleep 2, .tick 200, .yield 201, .tick 202, .exitFromInterrupt 203]

theorem scheduler_sane_sleepy : ∃ s, run step (runtimeInit 50 0) sleepyRun = some s ∧
    (∀ i, s.state i = .running → i = s.current) ∧
    (s.state idlePid = .ready ∨ s.state idlePid = .running) ∧
    (∀ frame, (pickNext (saveFrame s frame)).isSome ∧
      (pickNext (saveFrame (tickSlots s) frame)).isSome ∧
      (s.current ≠ idlePid →
        (pickNext (markTerminated (saveFrame s frame) s.current)).isSome)) ∧
    (∀ a ∈ s.activations, a.2 = .ready) ∧
    (∀ frame, s.current ≠ idlePid → (exitCurrentFromInterrupt s frame).2.isSome) := by
  have hsome : (run step (runtimeInit 50 0) sleepyRun).isSome := by decide
  obtain ⟨s, hrun⟩ := Option.isSome_iff_exists.mp hsome
  exact ⟨s, hrun, scheduler_sane 50 0 sleepyRun s hrun⟩

end Sched
end MiniDos
