import Mathlib.Algebra.Group.Nat.Defs
import MiniDos.Sched.Invariant
import MiniDos.Time.Timer

/-!
# MiniDos.Sched.Sleep

`scheduler_sleep_ticks` in its single steps: the call, the reading of the tick counter, the store of
the wake tick, the store of `PROCESS_BLOCKED`, the yield. Interrupts are enabled all along, so a
timer tick may come between any two of them and hand the processor to another task, which may be
within a call of its own.

* `sleep_refines`: without a tick in between the steps are the one step of the scheduler's model.
* `asleep_step`: between ticks a task that is marked is left alone, unless it is ended.
* `sleep_ticks_iff`: the task sleeps for the ticks it asked for exactly when no tick comes before it is
  marked, or it asked for one.
-/

namespace MiniDos
namespace Sched

variable {es : List Event} {now : UInt32}
namespace Sleep

open Transition

/-- How far a task is in a call that gives up the processor. -/
inductive Pc where
  | outside
  | called (ticks : UInt32)
  | computed (wakeTick : UInt32)
  | stored
  /-- Marked as asleep or ended; only the yield is left. -/
  | marked
  deriving DecidableEq

structure Sys where
  sched : State
  pc : Nat → Pc

def Sys.setPc (s : Sys) (i : Nat) (pc : Pc) : Sys :=
  { s with pc := fun k => if k = i then pc else s.pc k }

/-- Where the task is that has the processor. -/
def Sys.here (s : Sys) : Pc := s.pc s.sched.current

def boot (stack : Nat) (ticks : UInt32) : Sys := ⟨runtimeInit stack ticks, fun _ => .outside⟩

inductive Event where
  /-- A timer interrupt, or an entry point of the scheduler other than `scheduler_sleep_ticks`. -/
  | sched (e : Sched.Event)
  | call (ticks : UInt32)
  | read
  | store
  | block
  deriving DecidableEq

def isTick : Event → Bool
  | .sched (.tick _) => true
  | _ => false

/-- What a task can do where it is. Interrupts come anywhere, and a marked task yields next. -/
def allowed (s : Sys) : Sched.Event → Bool
  | .tick _ => true
  | .sleep _ => false
  | .yield _ => s.here == .outside || s.here == .marked
  | _ => s.here == .outside

/-- Where the tasks are behind it. -/
def pcAfter (s : Sys) : Sched.Event → Sys
  | .yield _ => s.setPc s.sched.current .outside
  | .exit => s.setPc s.sched.current .marked
  | .spawn _ _ firstPid =>
    match findFreeSlotFrom s.sched firstPid with
    | some idx => s.setPc idx .outside
    | none => s
  | _ => s

def step (s : Sys) : Event → Option Sys
  | .sched e =>
    if allowed s e then (Sched.step s.sched e).map fun sched => { pcAfter s e with sched := sched }
    else none
  | .call ticks =>
    if s.here = .outside ∧ s.sched.current ≠ idlePid ∧ ticks ≠ 0 then
      some (s.setPc s.sched.current (.called ticks))
    else none
  | .read =>
    match s.here with
    | .called ticks => some (s.setPc s.sched.current (.computed (s.sched.ticks + ticks)))
    | _ => none
  | .store =>
    match s.here with
    | .computed wakeTick =>
      some { s.setPc s.sched.current .stored with
        sched := s.sched.setSlot s.sched.current
          { s.sched.slots s.sched.current with wakeTick := wakeTick } }
    | _ => none
  | .block =>
    match s.here with
    | .stored =>
      some { s.setPc s.sched.current .marked with
        sched := s.sched.setState s.sched.current .blocked }
    | _ => none

section Pcs

variable (s : Sys) (i : Nat) (pc : Pc)

@[simp] theorem setPc_sched : (s.setPc i pc).sched = s.sched := rfl
@[simp] theorem setPc_self : (s.setPc i pc).pc i = pc := by simp [Sys.setPc]
theorem setPc_of_ne {k : Nat} (h : k ≠ i) : (s.setPc i pc).pc k = s.pc k := by simp [Sys.setPc, h]

end Pcs

theorem sleep_refines {s : Sys} {ticks : UInt32} (hout : s.here = .outside)
    (hidle : s.sched.current ≠ idlePid) (h0 : ticks ≠ 0) :
    ∃ s', run step s [.call ticks, .read, .store, .block] = some s' ∧
      s'.sched = sleepTicks s.sched ticks ∧ s'.here = .marked := by
  refine ⟨⟨sleepTicks s.sched ticks, fun k => if k = s.sched.current then .marked else s.pc k⟩, ?_,
    rfl, by simp [Sys.here, sleepTicks]⟩
  have hcall : step s (.call ticks) = some (s.setPc s.sched.current (.called ticks)) := by
    simp [step, hout, hidle, h0]
  simp only [run, hcall, Option.bind_some]
  simp only [step, Sys.here, Sys.setPc, if_true, Option.bind_some, setSlot_current,
    State.setState, setSlot_self, Option.some.injEq, Sys.mk.injEq]
  constructor
  · simp only [sleepTicks, State.setSlot, State.mk.injEq, and_true]
    funext k
    by_cases hk : k = s.sched.current <;> simp [hk]
  · funext k
    by_cases hk : k = s.sched.current <;> simp [hk]

/-! ## The current slot -/

section Current

variable {s : State}

theorem switchFromFrame_running (h : Sane s) (frame : Nat) :
    (switchFromFrame s frame).1.state (switchFromFrame s frame).1.current = .running := by
  have h₁ := h.saveFrame frame
  obtain ⟨next, hpick⟩ := Option.isSome_iff_exists.mp (pickNext_isSome h₁.idle)
  simp only [switchFromFrame, hpick]
  split
  case isTrue hcur =>
    -- the current task is picked when it runs, or when it is the idle one
    have hst : (saveFrame s frame).state (saveFrame s frame).current = .ready ∨
        (saveFrame s frame).state (saveFrame s frame).current = .running := by
      obtain ⟨hne, _⟩ | ⟨he, hst⟩ | ⟨he, hst⟩ := pickNext_cases h₁.current hpick
      · exact absurd hcur hne
      · exact .inr (he ▸ hst)
      · exact hcur ▸ hst
    simp only [resumeCurrent]
    split
    case isTrue => simp [state_setState]
    case isFalse hready => exact hst.resolve_left hready
  case isFalse => exact (state_setSlot _ next _ next).trans (if_pos rfl)

theorem tickSlots_running (h : s.state s.current = .running) :
    (tickSlots s).state (tickSlots s).current = .running := by
  have hset : ∀ now, (wakeSleepers ({ s with ticks := s.ticks + 1 }.setSlot s.current
      { s.slots s.current with runtimeTicks := (s.slots s.current).runtimeTicks + 1 }) now).state
      s.current = .running := by
    intro now
    rw [State.state] at h
    simp [wakeSleepers, State.state, h]
  exact hset _

theorem onTimerTick_running (h : Sane s) (frame : Nat) :
    (onTimerTick s frame).1.state (onTimerTick s frame).1.current = .running ∨
      ((onTimerTick s frame).1.current = s.current ∧ s.state s.current ≠ .running) := by
  obtain ⟨q, he | he⟩ := onTimerTick_cases s frame
  · by_cases hrun : s.state s.current = .running
    · refine .inl ?_
      rw [he]
      exact tickSlots_running hrun
    · exact .inr ⟨by rw [he]; rfl, hrun⟩
  · refine .inl ?_
    rw [he]
    exact switchFromFrame_running (h.tickSlots.slice q) frame

theorem exitFromInterrupt_running (h : Sane s) (hidle : s.current ≠ idlePid) (frame : Nat) :
    (exitCurrentFromInterrupt s frame).1.state (exitCurrentFromInterrupt s frame).1.current =
      .running := by
  obtain ⟨next, hpick, -⟩ := (h.saveFrame frame).exitedPick hidle
  rw [exitCurrentFromInterrupt_eq hpick]
  exact (state_setSlot _ next _ next).trans (if_pos rfl)

end Current

/-- A task that has the processor runs, unless it is about to yield, and the idle task never is. -/
structure Inv (s : Sys) : Prop where
  sane : Sane s.sched
  running : s.here ≠ .marked → s.sched.state s.sched.current = .running
  idle : s.pc idlePid = .outside

theorem step_sched {s s' : Sys} {e : Sched.Event} (h : step s (.sched e) = some s') :
    allowed s e = true ∧ ∃ sched, Sched.step s.sched e = some sched ∧
      s' = { pcAfter s e with sched := sched } := by
  simp only [step] at h
  split at h
  case isTrue hall =>
    obtain ⟨sched, hs, rfl⟩ := Option.map_eq_some_iff.mp h
    exact ⟨hall, sched, hs, rfl⟩
  case isFalse => cases h

namespace Inv

variable {s s' : Sys}

theorem boot (stack : Nat) (ticks : UInt32) : Inv (boot stack ticks) where
  sane := runtimeInit_sane stack ticks
  running _ := rfl
  idle := rfl

theorem not_idle (h : Inv s) (hhere : s.here ≠ .outside) : s.sched.current ≠ idlePid := by
  intro he
  rw [Sys.here, he] at hhere
  exact hhere h.idle

theorem idle_after (h : Inv s) {e : Sched.Event} (hexit : e = .exit → s.sched.current ≠ idlePid) :
    (pcAfter s e).pc idlePid = .outside := by
  have hset : ∀ i, (s.setPc i .outside).pc idlePid = .outside := by
    intro i
    by_cases hi : idlePid = i
    · simp [hi]
    · rw [setPc_of_ne s i _ hi, h.idle]
  cases e with
  | yield frame => exact hset _
  | exit =>
    have hne := hexit rfl
    rw [pcAfter, setPc_of_ne s _ _ (Ne.symm hne), h.idle]
  | spawn stack pageDirectory firstPid =>
    simp only [pcAfter]
    split
    · exact hset _
    · exact h.idle
  | tick frame => exact h.idle
  | sleep ticks => exact h.idle
  | exitFromInterrupt frame => exact h.idle
  | terminate pid => exact h.idle
  | enablePreemption quantumTicks => exact h.idle
  | disablePreemption => exact h.idle

theorem schedStep (h : Inv s) {e : Sched.Event} (hstep : step s (.sched e) = some s') : Inv s' := by
  obtain ⟨hall, sched, hs, rfl⟩ := step_sched hstep
  have hsane := h.sane.step hs
  have hidle : e = .exit → s.sched.current ≠ idlePid := by
    rintro rfl he
    simp [Sched.step, he] at hs
  refine ⟨hsane, fun hhere => ?_, h.idle_after hidle⟩
  -- the task that goes on outside of a call was running before
  have hrun : s.here = .outside → s.sched.state s.sched.current = .running := by
    intro he
    exact h.running (by simp [he])
  show sched.state sched.current = .running
  cases e with
  | tick frame =>
    cases hs
    obtain hr | ⟨hcur, hnot⟩ := onTimerTick_running h.sane frame
    · exact hr
    · refine absurd (h.running fun hm => hhere ?_) hnot
      show s.pc (onTimerTick s.sched frame).1.current = .marked
      rw [hcur]
      exact hm
  | yield frame =>
    cases hs
    exact switchFromFrame_running h.sane frame
  | sleep ticks => simp [allowed] at hall
  | spawn stack pageDirectory firstPid =>
    have hr := hrun (by simpa [allowed] using hall)
    cases hs
    simp only [spawnInternal]
    cases hfree : findFreeSlotFrom s.sched firstPid with
    | none => exact hr
    | some idx =>
      simp only [findFreeSlotFrom] at hfree
      obtain ⟨-, -, hst, -⟩ := freeFrom_some hfree
      have hne : s.sched.current ≠ idx := by
        rintro rfl
        obtain hst | hst := hst <;> cases hr.symm.trans hst
      exact (state_setSlot _ idx _ _).trans ((if_neg hne).trans hr)
  | exit =>
    exact absurd (by
      simp only [Sched.step] at hs
      split at hs
      · cases hs
      · cases hs
        simp [Sys.here, pcAfter, exitCurrent, markTerminated]) hhere
  | exitFromInterrupt frame =>
    simp only [Sched.step] at hs
    split at hs
    case isTrue => cases hs
    case isFalse hne =>
      cases hs
      exact exitFromInterrupt_running h.sane hne frame
  | terminate pid =>
    have hr := hrun (by simpa [allowed] using hall)
    simp only [Sched.step] at hs
    split at hs
    case isTrue => cases hs
    case isFalse hne =>
      cases hs
      simp only [terminateProcess]
      split
      · exact hr
      · split
        · exact hr
        · exact (state_setSlot _ pid _ _).trans ((if_neg (Ne.symm hne)).trans hr)
  | enablePreemption quantumTicks =>
    cases hs
    exact hrun (by simpa [allowed] using hall)
  | disablePreemption =>
    cases hs
    exact hrun (by simpa [allowed] using hall)

theorem step (h : Inv s) {e : Event} (hstep : step s e = some s') : Inv s' := by
  have hset : s.sched.current ≠ idlePid → ∀ pc, (s.setPc s.sched.current pc).pc idlePid = .outside :=
    fun hne pc => (setPc_of_ne s _ pc (Ne.symm hne)).trans h.idle
  cases e with
  | sched e => exact h.schedStep hstep
  | call ticks =>
    simp only [Sleep.step] at hstep
    split at hstep
    case isTrue hok =>
      cases hstep
      exact ⟨h.sane, fun _ => h.running (by rw [hok.1]; exact nofun), hset hok.2.1 _⟩
    case isFalse => cases hstep
  | read =>
    simp only [Sleep.step] at hstep
    split at hstep
    case h_1 ticks hhere =>
      cases hstep
      have hne := h.not_idle (by rw [hhere]; exact nofun)
      exact ⟨h.sane, fun _ => h.running (by rw [hhere]; exact nofun), hset hne _⟩
    case h_2 => cases hstep
  | store =>
    simp only [Sleep.step] at hstep
    split at hstep
    case h_1 wakeTick hhere =>
      cases hstep
      have hne := h.not_idle (by rw [hhere]; exact nofun)
      have hrun := h.running (by rw [hhere]; exact nofun)
      refine ⟨h.sane.setCurrent fun he => absurd he hne, fun _ => ?_, hset hne _⟩
      exact (state_setSlot _ _ _ _).trans ((if_pos rfl).trans hrun)
    case h_2 => cases hstep
  | block =>
    simp only [Sleep.step] at hstep
    split at hstep
    case h_1 hhere =>
      cases hstep
      have hne := h.not_idle (by rw [hhere]; exact nofun)
      refine ⟨h.sane.setCurrent fun he => absurd he hne, fun hm => absurd ?_ hm, hset hne _⟩
      exact setPc_self s _ _
    case h_2 => cases hstep

theorem run : ∀ {s s' : Sys}, Inv s → run Sleep.step s es = some s' → Inv s' :=
  fun {_ _} h hrun => run_invariant_all (fun _ _ _ hi hs => hi.step hs) es _ _ h hrun

end Inv

/-! ## A blocked slot -/

/-- Slot `p` is blocked until tick `w`. -/
def Blocked (p : Nat) (w : UInt32) (s : State) : Prop :=
  s.state p = .blocked ∧ (s.slots p).wakeTick = w

/-- Slot `p` can run, or does. -/
def Awake (p : Nat) (s : State) : Prop := s.state p = .ready ∨ s.state p = .running

section Slots

variable {s : State} {p : Nat} {w : UInt32}

theorem Blocked.setSlot (h : Blocked p w s) {i : Nat} {slot : Slot}
    (hi : p = i → slot.state = .blocked ∧ slot.wakeTick = w) : Blocked p w (s.setSlot i slot) := by
  by_cases he : p = i
  · obtain ⟨hst, hw⟩ := hi he
    exact ⟨(state_setSlot s i slot p).trans ((if_pos he).trans hst), by simp [he, hw]⟩
  · refine ⟨(state_setSlot s i slot p).trans ((if_neg he).trans h.1), ?_⟩
    rw [setSlot_of_ne s i slot he]
    exact h.2

theorem Awake.setSlot (h : Awake p s) {i : Nat} {slot : Slot}
    (hi : p = i → slot.state = .ready ∨ slot.state = .running) : Awake p (s.setSlot i slot) := by
  rw [Awake, state_setSlot]
  split
  case isTrue he => exact hi he
  case isFalse => exact h

theorem Blocked.switch (hs : Sane s) (h : Blocked p w s) (frame : Nat) :
    Blocked p w (switchFromFrame s frame).1 := by
  have hsave : Blocked p w (saveFrame s frame) := h.setSlot fun he => he ▸ h
  obtain he | ⟨next, hpick, hne, he⟩ := switchFromFrame_cases s frame
  · rw [he]
    simp only [resumeCurrent]
    split
    case isTrue hready => exact hsave.setSlot fun hc => by cases hsave.1.symm.trans (hc ▸ hready)
    case isFalse => exact hsave
  · rw [he]
    have hready := ((hs.saveFrame frame).ready_of_picked hpick hne).2
    have hdemote : Blocked p w (demoteCurrent (saveFrame s frame)) := by
      simp only [demoteCurrent]
      split
      case isTrue hrun => exact hsave.setSlot fun hc => by cases hsave.1.symm.trans (hc ▸ hrun)
      case isFalse => exact hsave
    exact hdemote.setSlot fun hc => by cases hsave.1.symm.trans (hc ▸ hready)

theorem Awake.switch (h : Awake p s) (frame : Nat) : Awake p (switchFromFrame s frame).1 := by
  have hsave : Awake p (saveFrame s frame) := h.setSlot fun he => he ▸ h
  obtain he | ⟨next, -, -, he⟩ := switchFromFrame_cases s frame
  · rw [he]
    simp only [resumeCurrent]
    split
    · exact hsave.setSlot fun _ => .inr rfl
    · exact hsave
  · rw [he]
    have hdemote : Awake p (demoteCurrent (saveFrame s frame)) := by
      simp only [demoteCurrent]
      split
      · exact hsave.setSlot fun _ => .inl rfl
      · exact hsave
    exact hdemote.setSlot fun _ => .inr rfl

theorem Blocked.sleepOn (h : Blocked p w s) (hearly : now - w ≥ 0x80000000) :
    Blocked p w (wakeSleepers s now) := by
  have hslot : (wakeSleepers s now).slots p = s.slots p := by
    simp only [wakeSleepers, h.2]
    exact if_neg fun hw => hw.2.2 hearly
  rw [Blocked, State.state, hslot]
  exact h

theorem Blocked.woken (h : Blocked p w s) (hp : p < maxProcesses)
    (hdue : ¬ now - w ≥ 0x80000000) : Awake p (wakeSleepers s now) := by
  have hslot : (wakeSleepers s now).slots p = { s.slots p with wakeTick := 0, state := .ready } := by
    simp only [wakeSleepers, h.2]
    exact if_pos ⟨hp, h.1, hdue⟩
  refine .inl ?_
  rw [State.state, hslot]

theorem Awake.wakeSleepers (h : Awake p s) (now : UInt32) : Awake p (wakeSleepers s now) := by
  have hslot : (Sched.wakeSleepers s now).slots p = s.slots p := by
    refine if_neg fun hw => ?_
    obtain hst | hst := h <;> cases hst.symm.trans hw.2.1
  rw [Awake, State.state, hslot]
  exact h

theorem Blocked.counted (h : Blocked p w s) :
    Blocked p w ({ s with ticks := s.ticks + 1 }.setSlot s.current
      { s.slots s.current with runtimeTicks := (s.slots s.current).runtimeTicks + 1 }) :=
  Blocked.setSlot (s := { s with ticks := s.ticks + 1 }) h fun he => he ▸ h

theorem Blocked.tick (hs : Sane s) (h : Blocked p w s) (hearly : s.ticks + 1 - w ≥ 0x80000000)
    (frame : Nat) : Blocked p w (onTimerTick s frame).1 := by
  have htick : Blocked p w (tickSlots s) := h.counted.sleepOn hearly
  obtain ⟨q, he | he⟩ := onTimerTick_cases s frame
  · rw [he]
    exact htick
  · rw [he]
    exact Blocked.switch (hs.tickSlots.slice q) htick frame

theorem Awake.afterTickSlots (h : Awake p (tickSlots s)) (frame : Nat) :
    Awake p (onTimerTick s frame).1 := by
  obtain ⟨q, he | he⟩ := onTimerTick_cases s frame
  · rw [he]
    exact h
  · rw [he]
    exact Awake.switch (s := { tickSlots s with sliceLeft := q }) h frame

theorem Blocked.lastTick (h : Blocked p w s) (hp : p < maxProcesses)
    (hdue : ¬ s.ticks + 1 - w ≥ 0x80000000) (frame : Nat) : Awake p (onTimerTick s frame).1 :=
  Awake.afterTickSlots (h.counted.woken hp hdue) frame

theorem Awake.tick (h : Awake p s) (frame : Nat) : Awake p (onTimerTick s frame).1 := by
  have hset : Awake p ({ s with ticks := s.ticks + 1 }.setSlot s.current
      { s.slots s.current with runtimeTicks := (s.slots s.current).runtimeTicks + 1 }) :=
    Awake.setSlot (s := { s with ticks := s.ticks + 1 }) h fun he => he ▸ h
  exact Awake.afterTickSlots (hset.wakeSleepers _) frame

/-- Between ticks a slot stays blocked: other tasks can only end it. -/
theorem Blocked.step {s' : State} {e : Sched.Event} (hs : Sane s) (h : Blocked p w s)
    (hstep : Sched.step s e = some s') (htick : ∀ frame, e ≠ .tick frame)
    (hsleep : ∀ ticks, e ≠ .sleep ticks) (hcur : s.current = p → ∃ frame, e = .yield frame)
    (hlive : s'.state p ≠ .terminated) : Blocked p w s' := by
  cases e with
  | tick frame => exact absurd rfl (htick frame)
  | yield frame =>
    cases hstep
    exact h.switch hs frame
  | sleep ticks => exact absurd rfl (hsleep ticks)
  | spawn stack pageDirectory firstPid =>
    cases hstep
    simp only [spawnInternal]
    cases hfree : findFreeSlotFrom s firstPid with
    | none => exact h
    | some idx =>
      simp only [findFreeSlotFrom] at hfree
      obtain ⟨-, -, hst, -⟩ := freeFrom_some hfree
      exact h.setSlot fun he => by
        subst he
        obtain hst | hst := hst <;> cases h.1.symm.trans hst
  | exit =>
    simp only [Sched.step] at hstep
    split at hstep
    case isTrue => cases hstep
    case isFalse =>
      cases hstep
      refine h.setSlot fun he => ?_
      obtain ⟨frame, hy⟩ := hcur he.symm
      cases hy
  | exitFromInterrupt frame =>
    simp only [Sched.step] at hstep
    split at hstep
    case isTrue => cases hstep
    case isFalse hidle =>
      cases hstep
      have hne : p ≠ s.current := by
        intro he
        obtain ⟨frame, hy⟩ := hcur he.symm
        cases hy
      have hsave : Blocked p w (saveFrame s frame) := h.setSlot fun he => he ▸ h
      have hdead : Blocked p w (markTerminated (saveFrame s frame) s.current) :=
        hsave.setSlot fun he => absurd he hne
      obtain ⟨next, hpick, -, -, hready⟩ := (hs.saveFrame frame).exitedPick hidle
      rw [exitCurrentFromInterrupt_eq hpick]
      exact hdead.setSlot fun he => by cases hsave.1.symm.trans (he ▸ hready)
  | terminate pid =>
    simp only [Sched.step] at hstep
    split at hstep
    case isTrue => cases hstep
    case isFalse =>
      cases hstep
      simp only [terminateProcess] at hlive ⊢
      split
      · exact h
      · split
        · exact h
        case isFalse hlow hst =>
          rw [if_neg hlow, if_neg hst] at hlive
          refine h.setSlot fun he => absurd ?_ hlive
          subst he
          exact (state_setSlot _ _ _ _).trans (if_pos rfl)
  | enablePreemption quantumTicks =>
    cases hstep
    exact h
  | disablePreemption =>
    cases hstep
    exact h

end Slots

/-! ## The tick counter -/

section Ticks

variable (s : State)

@[simp] theorem setSlot_ticks (i : Nat) (slot : Slot) : (s.setSlot i slot).ticks = s.ticks := rfl

@[simp] theorem setState_ticks (i : Nat) (st : ProcState) : (s.setState i st).ticks = s.ticks := rfl

@[simp] theorem switchFromFrame_ticks (frame : Nat) : (switchFromFrame s frame).1.ticks = s.ticks := by
  obtain he | ⟨next, -, -, he⟩ := switchFromFrame_cases s frame
  · rw [he]
    simp only [resumeCurrent]
    split <;> simp [saveFrame]
  · rw [he]
    simp only [activateSlot, demoteCurrent]
    split <;> simp [saveFrame]

theorem onTimerTick_ticks (frame : Nat) : (onTimerTick s frame).1.ticks = s.ticks + 1 := by
  obtain ⟨q, he | he⟩ := onTimerTick_cases s frame
  · rw [he]
    rfl
  · rw [he]
    exact switchFromFrame_ticks _ frame

theorem step_ticks {s s' : State} {e : Sched.Event} (hstep : Sched.step s e = some s')
    (htick : ∀ frame, e ≠ .tick frame) : s'.ticks = s.ticks := by
  cases e with
  | tick frame => exact absurd rfl (htick frame)
  | yield frame =>
    cases hstep
    exact switchFromFrame_ticks s frame
  | spawn stack pageDirectory firstPid =>
    cases hstep
    simp only [spawnInternal]
    split <;> rfl
  | terminate pid =>
    simp only [Sched.step, terminateProcess] at hstep
    split at hstep
    · cases hstep
    · cases hstep
      split
      · rfl
      · split <;> rfl
  | exitFromInterrupt frame =>
    simp only [Sched.step, exitCurrentFromInterrupt] at hstep
    split at hstep
    · cases hstep
    · cases hstep
      split <;> rfl
  | sleep ticks =>
    simp only [Sched.step] at hstep
    split at hstep <;> cases hstep
    rfl
  | exit =>
    simp only [Sched.step] at hstep
    split at hstep <;> cases hstep
    rfl
  | enablePreemption quantumTicks =>
    cases hstep
    rfl
  | disablePreemption =>
    cases hstep
    rfl

end Ticks

/-! ## The sleep -/

/-- Task `p` is within its call, with the processor, and has not been marked. -/
structure Calling (p : Nat) (n : UInt32) (s : Sys) : Prop where
  current : s.sched.current = p
  progress : s.here = .called n ∨ s.here = .computed (s.sched.ticks + n) ∨
    s.here = .stored ∧ (s.sched.slots p).wakeTick = s.sched.ticks + n

section Steps

variable {p : Nat} {w n : UInt32} {s s' : Sys} {e : Event}

theorem Inv.marked (hi : Inv s) (h : Blocked p w s.sched) (hcur : s.sched.current = p) :
    s.here = .marked := by
  by_cases hm : s.here = .marked
  · exact hm
  · have hrun := hi.running hm
    rw [hcur] at hrun
    cases h.1.symm.trans hrun

/-- Between ticks a task stays asleep unless it is ended. -/
theorem asleep_step (hi : Inv s) (h : Blocked p w s.sched) (hstep : step s e = some s')
    (htick : isTick e = false) (hlive : s'.sched.state p ≠ .terminated) :
    Blocked p w s'.sched ∧ s'.sched.ticks = s.sched.ticks := by
  -- a task at another place of its call is another task
  have hother : s.here ≠ .marked → p ≠ s.sched.current := fun hne he => hne (hi.marked h he.symm)
  cases e with
  | sched e =>
    obtain ⟨hall, sched, hs, rfl⟩ := step_sched hstep
    have hnotick : ∀ frame, e ≠ .tick frame := by
      rintro frame rfl
      cases htick
    have hnosleep : ∀ ticks, e ≠ .sleep ticks := by
      rintro ticks rfl
      cases hall
    have hyield : s.sched.current = p → ∃ frame, e = .yield frame := by
      intro hcur
      have hm := hi.marked h hcur
      cases e <;> simp_all [allowed]
    exact ⟨h.step hi.sane hs hnotick hnosleep hyield hlive, step_ticks hs hnotick⟩
  | call ticks =>
    simp only [step] at hstep
    split at hstep <;> cases hstep
    exact ⟨h, rfl⟩
  | read =>
    simp only [step] at hstep
    split at hstep <;> cases hstep
    exact ⟨h, rfl⟩
  | store =>
    simp only [step] at hstep
    split at hstep
    case h_1 hhere =>
      cases hstep
      exact ⟨h.setSlot fun he => absurd he (hother (by rw [hhere]; exact nofun)), rfl⟩
    case h_2 => cases hstep
  | block =>
    simp only [step] at hstep
    split at hstep
    case h_1 hhere =>
      cases hstep
      exact ⟨h.setSlot fun he => absurd he (hother (by rw [hhere]; exact nofun)), rfl⟩
    case h_2 => cases hstep

/-- A task goes through its call as long as no tick comes; at its end it sleeps until the tick that
is `n` away from the one the call found. -/
theorem calling_step (h : Calling p n s) (hstep : step s e = some s') (htick : isTick e = false) :
    s'.sched.ticks = s.sched.ticks ∧
      (e ≠ .block ∧ Calling p n s' ∨ e = .block ∧ Blocked p (s.sched.ticks + n) s'.sched) := by
  obtain ⟨hcur, hprog⟩ := h
  have hne : s.here ≠ .outside ∧ s.here ≠ .marked := by
    obtain hp | hp | ⟨hp, -⟩ := hprog <;> simp [hp]
  cases e with
  | sched e =>
    obtain ⟨hall, -⟩ := step_sched hstep
    cases e <;> simp_all [allowed, isTick]
  | call ticks => simp [step, hne.1] at hstep
  | read =>
    simp only [step] at hstep
    split at hstep
    case h_1 ticks hhere =>
      cases hstep
      obtain hp | hp | ⟨hp, -⟩ := hprog
      · cases hhere.symm.trans hp
        refine ⟨rfl, .inl ⟨nofun, hcur, .inr (.inl ?_)⟩⟩
        exact setPc_self s _ _
      · cases hhere.symm.trans hp
      · cases hhere.symm.trans hp
    case h_2 => cases hstep
  | store =>
    simp only [step] at hstep
    split at hstep
    case h_1 wakeTick hhere =>
      cases hstep
      obtain hp | hp | ⟨hp, -⟩ := hprog
      · cases hhere.symm.trans hp
      · cases hhere.symm.trans hp
        refine ⟨rfl, .inl ⟨nofun, hcur, .inr (.inr ⟨setPc_self s _ _, ?_⟩)⟩⟩
        simp [← hcur]
      · cases hhere.symm.trans hp
    case h_2 => cases hstep
  | block =>
    simp only [step] at hstep
    split at hstep
    case h_1 hhere =>
      cases hstep
      obtain hp | hp | ⟨hp, hw⟩ := hprog
      · cases hhere.symm.trans hp
      · cases hhere.symm.trans hp
      · refine ⟨rfl, .inr ⟨rfl, ?_, ?_⟩⟩
        · exact (state_setState _ _ _ _).trans (if_pos hcur.symm)
        · simpa [State.setState, hcur] using hw
    case h_2 => cases hstep

end Steps

/-! ## The lengths asked for -/

/-- The timer runs at the frequency `paging.c` asks for. -/
def timer : Timer.State := (Timer.timerInit 100).1

/-- What `shell_builtin_cmd_top` sleeps between two samples. -/
def topSleepTicks (intervalMs : UInt32) : UInt32 :=
  let sleepTicks := Timer.msToTicksCeil timer intervalMs
  if sleepTicks = 0 then 1 else sleepTicks

/-- The lengths that the callers of `scheduler_sleep_ticks` pass: the self test one tick, `top` what
its interval comes to. -/
def CallerTicks (n : UInt32) : Prop := n = 1 ∨ ∃ intervalMs, n = topSleepTicks intervalMs

theorem topSleepTicks_bound (ms : UInt32) :
    1 ≤ (topSleepTicks ms).toNat ∧ (topSleepTicks ms).toNat ≤ 2 ^ 31 := by
  have hhz : timer.hz.toNat = 100 := by decide
  have hticks := Timer.msToTicksCeil_toNat (s := timer) (by omega) (by omega) ms rfl
  have hms := ms.toNat_lt
  rw [hhz, Nat.ceilDiv_eq_add_pred_div] at hticks
  simp only [topSleepTicks]
  split
  case isTrue => decide
  case isFalse hne =>
    have hpos : (Timer.msToTicksCeil timer ms).toNat ≠ 0 := fun h => hne (UInt32.toNat_inj.mp h)
    omega

theorem CallerTicks.bound {n : UInt32} (h : CallerTicks n) : 1 ≤ n.toNat ∧ n.toNat ≤ 2 ^ 31 := by
  obtain rfl | ⟨ms, rfl⟩ := h
  · decide
  · exact topSleepTicks_bound ms

/-! ## Sleeping -/

/-- Behind the `k`-th tick since the call the task is as a sleep of `n` ticks has it. -/
def SleepsFor (p n : Nat) (s : Sys) (es : List Event) : Prop :=
  AfterEach step isTick
    (fun k s => (k < n → s.sched.state p = .blocked) ∧ (k = n → Awake p s.sched)) 0 s es

/-- No tick comes before the task is marked. -/
def Undisturbed (es : List Event) : Prop :=
  ∀ e ∈ es.takeWhile (· ≠ .block), isTick e = false

theorem undisturbed_cons {e : Event} (hne : e ≠ .block) :
    Undisturbed (e :: es) ↔ isTick e = false ∧ Undisturbed es := by
  simp [Undisturbed, hne]

section Runs

variable {p : Nat} {n : Nat} {w : UInt32}

theorem due_iff {left : Nat} (h : (w - now).toNat = left) (h1 : 1 ≤ left)
    (h2 : left ≤ 2 ^ 31) :
    (now + 1 - w ≥ 0x80000000 ↔ left ≠ 1) ∧ (w - (now + 1)).toNat = left - 1 := by
  have hw := w.toNat_lt
  have hnow := now.toNat_lt
  rw [UInt32.toNat_sub] at h
  constructor
  · rw [ge_iff_le, UInt32.le_iff_toNat_le, UInt32.toNat_sub, UInt32.toNat_add]
    simp only [UInt32.toNat_ofNat]
    omega
  · rw [UInt32.toNat_sub, UInt32.toNat_add]
    simp only [UInt32.toNat_ofNat]
    omega

/-- A task that was marked in time, with `n - k` ticks left to sleep. -/
theorem asleep_run (hp : p < maxProcesses) (hn : n ≤ 2 ^ 31) : ∀ {k : Nat} {s : Sys},
    Inv s → (k < n → Blocked p w s.sched ∧ (w - s.sched.ticks).toNat = n - k) →
    Throughout step (fun s => s.sched.state p ≠ .terminated) s es →
    AfterEach step isTick
      (fun k s => (k < n → s.sched.state p = .blocked) ∧ (k = n → Awake p s.sched)) k s es := by
  induction es with
  | nil => exact fun _ _ _ => trivial
  | cons e es ih =>
    intro k s hi hleft hlive s' hs
    have hi' := hi.step hs
    have hlive' := hlive.2 s' hs
    split
    case isFalse htick =>
      refine ih hi' (fun hk => ?_) hlive'
      obtain ⟨hb, hw⟩ := hleft hk
      obtain ⟨hb', hticks⟩ := asleep_step hi hb hs (by simpa using htick) hlive'.first
      exact ⟨hb', by rw [hticks, hw]⟩
    case isTrue htick =>
      obtain ⟨frame, rfl⟩ : ∃ frame, e = .sched (.tick frame) := by
        cases e with
        | sched e =>
          cases e with
          | tick frame => exact ⟨frame, rfl⟩
          | _ => cases htick
        | _ => cases htick
      obtain ⟨-, sched, hsched, rfl⟩ := step_sched hs
      cases hsched
      by_cases hk : k < n
      · obtain ⟨hb, hw⟩ := hleft hk
        obtain ⟨hdue, hnext⟩ := due_iff hw (by omega) (by omega)
        have hticks := onTimerTick_ticks s.sched frame
        by_cases hlast : n - k = 1
        · have hawake := hb.lastTick hp (fun h => hdue.mp h hlast) frame
          exact ⟨⟨fun h => absurd h (by omega), fun _ => hawake⟩,
            ih hi' (fun h => absurd h (by omega)) hlive'⟩
        · have hb' := hb.tick hi.sane (hdue.mpr hlast) frame
          refine ⟨⟨fun _ => hb'.1, fun h => absurd h (by omega)⟩, ih hi' (fun _ => ⟨hb', ?_⟩) hlive'⟩
          show (w - (onTimerTick s.sched frame).1.ticks).toNat = n - (k + 1)
          rw [hticks, hnext]
          omega
      · exact ⟨⟨fun h => absurd h (by omega), fun h => absurd h (by omega)⟩,
          ih hi' (fun h => absurd h (by omega)) hlive'⟩

end Runs

section Calls

variable {p : Nat} {n : UInt32}

theorem calling_tick {s s' : Sys} {e : Event} (hi : Inv s) (h : Calling p n s)
    (hs : step s e = some s') (htick : isTick e = true) : Awake p s'.sched := by
  have hrun : Awake p s.sched := by
    refine .inr (h.current ▸ hi.running ?_)
    obtain hp | hp | ⟨hp, -⟩ := h.progress <;> simp [hp]
  cases e with
  | sched e =>
    cases e with
    | tick frame =>
      obtain ⟨-, sched, hsched, rfl⟩ := step_sched hs
      cases hsched
      exact hrun.tick frame
    | _ => cases htick
  | _ => cases htick

theorem calling_run (hp : p < maxProcesses) (hn : n.toNat ≤ 2 ^ 31) : ∀ {s : Sys},
    Inv s → Calling p n s → n = 1 ∨ Undisturbed es →
    Throughout step (fun s => s.sched.state p ≠ .terminated) s es → SleepsFor p n.toNat s es := by
  induction es with
  | nil => exact fun _ _ _ _ => trivial
  | cons e es ih =>
    intro s hi hcall hok hlive s' hs
    have hi' := hi.step hs
    have hlive' := hlive.2 s' hs
    split
    case isTrue htick =>
      have hone : n = 1 := by
        refine hok.resolve_right fun hq => ?_
        have hne : e ≠ .block := by
          rintro rfl
          cases htick
        exact Bool.noConfusion (htick.symm.trans ((undisturbed_cons hne).mp hq).1)
      subst hone
      refine ⟨⟨fun h => absurd h (by decide), fun _ => calling_tick hi hcall hs htick⟩, ?_⟩
      exact asleep_run (w := 0) hp hn hi' (fun h => absurd h (by decide)) hlive'
    case isFalse htick =>
      obtain ⟨hticks, ⟨hne, hcall'⟩ | ⟨rfl, hb⟩⟩ := calling_step hcall hs (by simpa using htick)
      · exact ih hi' hcall' (hok.imp_right fun hq => ((undisturbed_cons hne).mp hq).2) hlive'
      · refine asleep_run hp hn hi' (fun _ => ⟨hb, ?_⟩) hlive'
        rw [hticks, UInt32.add_comm, UInt32.add_sub_cancel, Nat.sub_zero]

theorem calling_disturbed (hn : 1 < n.toNat) : ∀ {s s' : Sys}, Inv s →
    Calling p n s → run step s es = some s' → SleepsFor p n.toNat s es → Undisturbed es := by
  induction es with
  | nil => exact fun _ _ _ _ e he => by cases he
  | cons e es ih =>
    intro s s' hi hcall hrun hsleeps
    obtain ⟨s₁, hs, hrun⟩ := run_cons.mp hrun
    have hafter := hsleeps s₁ hs
    by_cases htick : isTick e = true
    · rw [if_pos htick] at hafter
      obtain hst | hst := calling_tick hi hcall hs htick <;> cases hst.symm.trans (hafter.1.1 hn)
    · rw [if_neg htick] at hafter
      obtain ⟨-, ⟨hne, hcall'⟩ | ⟨rfl, -⟩⟩ := calling_step hcall hs (by simpa using htick)
      · exact (undisturbed_cons hne).mpr
          ⟨by simpa using htick, ih (hi.step hs) hcall' hrun hafter⟩
      · intro e' he'
        simp at he'

end Calls

/-- Whatever the tick counter and the other tasks do: a task that calls `scheduler_sleep_ticks` and is
not ended sleeps for the ticks it asked for exactly when no tick comes before it is marked, or it asked
for one tick. -/
theorem sleep_ticks_iff {stack : Nat} {ticks n : UInt32} {before es : List Event} {s s' : Sys}
    (hn : CallerTicks n) (hcall : run step (boot stack ticks) (before ++ [.call n]) = some s)
    (hrun : run step s es = some s')
    (hlive : Throughout step (fun s' => s'.sched.state s.sched.current ≠ .terminated) s es) :
    SleepsFor s.sched.current n.toNat s es ↔ n = 1 ∨ Undisturbed es := by
  have hi : Inv s := (Inv.boot stack ticks).run hcall
  have hcalling : Calling s.sched.current n s := by
    obtain ⟨s₁, -, hlast⟩ := run_append.mp hcall
    obtain ⟨s₂, hs, hend⟩ := run_cons.mp hlast
    cases hend
    simp only [step] at hs
    split at hs
    case isTrue =>
      cases hs
      exact ⟨rfl, .inl (setPc_self s₁ _ _)⟩
    case isFalse => cases hs
  obtain ⟨hpos, hbound⟩ := hn.bound
  constructor
  · intro hsleeps
    by_cases hone : n = 1
    · exact .inl hone
    · refine .inr (calling_disturbed ?_ hi hcalling hrun hsleeps)
      have : n.toNat ≠ 1 := fun h => hone (UInt32.toNat_inj.mp h)
      omega
  · exact fun hok => calling_run hi.sane.current hbound hi hcalling hok hlive

/-- The boot task sleeps for 20 ms, over the end of the counter's range. -/
def shortNap : List Event :=
  [.read, .store, .block, .sched (.yield 60), .sched (.tick 61), .sched (.tick 62)]

theorem sleep_ticks_nap : ∃ s, run step (boot 50 0xFFFFFFFF) ([] ++ [.call 2]) = some s ∧
    SleepsFor s.sched.current 2 s shortNap := by
  have hcall : (run step (boot 50 0xFFFFFFFF) ([] ++ [.call 2])).isSome := by decide
  have hnap : ∀ s ∈ run step (boot 50 0xFFFFFFFF) ([] ++ [.call 2]), (run step s shortNap).isSome ∧
      Throughout step (fun s' => s'.sched.state s.sched.current ≠ .terminated) s shortNap := by
    decide
  obtain ⟨s, hs⟩ := Option.isSome_iff_exists.mp hcall
  obtain ⟨hrun, hlive⟩ := hnap s hs
  obtain ⟨s', hs'⟩ := Option.isSome_iff_exists.mp hrun
  have hn : CallerTicks 2 := .inr ⟨20, by decide⟩
  exact ⟨s, hs, (sleep_ticks_iff hn hs hs' hlive).mpr (.inr (by unfold Undisturbed; decide))⟩

/-- A tick between the reading of the counter and the marking: behind the first of two ticks to sleep
the task runs. -/
theorem sleep_disturbed :
    ∃ s, run step (boot 50 0) [.call 2, .read, .sched (.tick 61)] = some s ∧
      s.sched.state bootPid ≠ .blocked := by
  have hrun : (run step (boot 50 0) [.call 2, .read, .sched (.tick 61)]).isSome := by decide
  have hst : ∀ s ∈ run step (boot 50 0) [.call 2, .read, .sched (.tick 61)],
      s.sched.state bootPid ≠ .blocked := by decide
  obtain ⟨s, hs⟩ := Option.isSome_iff_exists.mp hrun
  exact ⟨s, hs, hst s hs⟩

end Sleep
end Sched
end MiniDos
