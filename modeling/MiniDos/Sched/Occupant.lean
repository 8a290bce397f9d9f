import MiniDos.Sched.Invariant

/-!
# MiniDos.Sched.Occupant

What the rest of the kernel sees of a slot: whether it was ever used, whether its task is gone, and
the page directory of the task it holds. Switching between tasks, ticks and sleep leave that alone;
spawning, exits and terminations are the only steps that change it.
-/

namespace MiniDos
namespace Sched

variable {s : State} {i : Nat}

inductive Occupant where
  | unused
  | dead
  | live (pageDirectory : Option Nat)
  deriving DecidableEq

def Slot.occupant (slot : Slot) : Occupant :=
  match slot.state with
  | .unused => .unused
  | .terminated => .dead
  | _ => .live slot.pageDirectory

def occupant (s : State) (i : Nat) : Occupant := (s.slots i).occupant

/-- What is left of a slot when its task is terminated. -/
def Occupant.killed : Occupant → Occupant
  | .live _ => .dead
  | o => o

@[simp] theorem Occupant.killed_ne_live (o : Occupant) (d : Option Nat) : o.killed ≠ .live d := by
  cases o <;> simp [Occupant.killed]

theorem Occupant.killed_eq_live {o : Occupant} {c : Prop} [Decidable c] {d : Option Nat}
    (h : (if c then o.killed else o) = .live d) : ¬ c ∧ o = .live d := by
  by_cases hc : c
  · rw [if_pos hc] at h
    exact absurd h (Occupant.killed_ne_live o d)
  · rw [if_neg hc] at h
    exact ⟨hc, h⟩

def Active (st : ProcState) : Prop := st = .ready ∨ st = .running ∨ st = .blocked

theorem occupant_of_active {slot : Slot} (h : Active slot.state) :
    slot.occupant = .live slot.pageDirectory := by
  rcases h with h | h | h <;> simp [Slot.occupant, h]

theorem occupant_live_iff {d : Option Nat} :
    occupant s i = .live d ↔ Active (s.state i) ∧ (s.slots i).pageDirectory = d := by
  unfold occupant Slot.occupant Active State.state
  cases (s.slots i).state <;> simp

theorem not_live_iff :
    (∀ d, occupant s i ≠ .live d) ↔ s.state i = .unused ∨ s.state i = .terminated := by
  unfold occupant Slot.occupant State.state
  cases (s.slots i).state <;> simp

/-! ## Switching -/

theorem occupant_setSlot (s : State) (i k : Nat) (slot : Slot) :
    occupant (s.setSlot i slot) k = if k = i then slot.occupant else occupant s k := by
  by_cases h : k = i
  · simp [occupant, h]
  · simp [occupant, setSlot_of_ne _ _ _ h, h]

theorem occupant_setSlot_same {slot : Slot}
    (h : slot.occupant = occupant s i) (k : Nat) : occupant (s.setSlot i slot) k = occupant s k := by
  rw [occupant_setSlot]
  by_cases hk : k = i
  · rw [if_pos hk, h, hk]
  · rw [if_neg hk]

theorem occupant_saveFrame (s : State) (frame k : Nat) :
    occupant (saveFrame s frame) k = occupant s k := by
  refine occupant_setSlot_same ?_ k
  rfl

theorem occupant_setState {st : ProcState} (hi : Active (s.state i))
    (hst : Active st) (k : Nat) : occupant (s.setState i st) k = occupant s k := by
  refine occupant_setSlot_same ?_ k
  have hnew : Slot.occupant { s.slots i with state := st } = .live (s.slots i).pageDirectory :=
    occupant_of_active hst
  rw [hnew]
  exact (occupant_of_active hi).symm

theorem occupant_resumeCurrent (s : State) (k : Nat) :
    occupant (resumeCurrent s) k = occupant s k := by
  unfold resumeCurrent
  split
  case isTrue h => exact occupant_setState (.inl h) (.inr (.inl rfl)) k
  case isFalse h => rfl

theorem occupant_demoteCurrent (s : State) (k : Nat) :
    occupant (demoteCurrent s) k = occupant s k := by
  unfold demoteCurrent
  split
  case isTrue h => exact occupant_setState (.inr (.inl h)) (.inl rfl) k
  case isFalse h => rfl

theorem occupant_activateSlot {next : Nat} (h : Active (s.state next)) (k : Nat) :
    occupant (activateSlot s next).1 k = occupant s k := by
  refine occupant_setSlot_same (s := s) (i := next) ?_ k
  have hnew : ∀ n, Slot.occupant { s.slots next with state := .running, switchCount := n } =
      .live (s.slots next).pageDirectory := fun n => occupant_of_active (.inr (.inl rfl))
  rw [hnew]
  exact (occupant_of_active h).symm

theorem pickNext_active {next : Nat} (h : pickNext s = some next) :
    Active (s.state next) := by
  unfold pickNext at h
  split at h
  case h_1 found hfind =>
    cases h
    obtain ⟨_, _, _, _, _, hst, _⟩ := readyFrom_some hfind
    exact .inl hst
  case h_2 hnone =>
    split at h
    case isTrue hrun =>
      cases h
      exact .inr (.inl hrun)
    case isFalse hrun =>
      split at h
      case isTrue hidle =>
        cases h
        exact hidle.imp_right .inl
      case isFalse hidle => cases h

theorem occupant_switchFromFrame (s : State) (frame k : Nat) :
    occupant (switchFromFrame s frame).1 k = occupant s k := by
  rcases switchFromFrame_cases s frame with h | ⟨next, hpick, hne, h⟩
  · rw [h]
    exact (occupant_resumeCurrent _ k).trans (occupant_saveFrame s frame k)
  · rw [h]
    have hactive : Active ((demoteCurrent (saveFrame s frame)).state next) := by
      rw [demoteCurrent_of_ne (saveFrame s frame) hne]
      exact pickNext_active hpick
    exact (occupant_activateSlot hactive k).trans
      ((occupant_demoteCurrent _ k).trans (occupant_saveFrame s frame k))

theorem occupant_wakeSleepers (s : State) (now : UInt32) (k : Nat) :
    occupant (wakeSleepers s now) k = occupant s k := by
  simp only [occupant, wakeSleepers]
  split
  case isTrue h =>
    have hold : Active (s.slots k).state := .inr (.inr h.2.1)
    rw [occupant_of_active hold]
    exact occupant_of_active (.inl rfl)
  case isFalse h => rfl

theorem occupant_tickSlots (s : State) (k : Nat) : occupant (tickSlots s) k = occupant s k := by
  unfold tickSlots
  rw [occupant_wakeSleepers]
  refine occupant_setSlot_same (s := { s with ticks := s.ticks + 1 }) ?_ k
  rfl

theorem occupant_onTimerTick (s : State) (frame k : Nat) :
    occupant (onTimerTick s frame).1 k = occupant s k := by
  obtain ⟨q, h | h⟩ := onTimerTick_cases s frame
  · rw [h]
    exact occupant_tickSlots s k
  · rw [h, occupant_switchFromFrame]
    exact occupant_tickSlots s k

theorem occupant_sleepTicks (h : s.state s.current = .running) (ticks : UInt32)
    (k : Nat) : occupant (sleepTicks s ticks) k = occupant s k := by
  refine occupant_setSlot_same ?_ k
  exact (occupant_of_active (.inr (.inr rfl))).trans (occupant_of_active (.inr (.inl h))).symm

/-! ## Tasks that come and go -/

theorem occupant_markTerminated (s : State) (i k : Nat) :
    occupant (markTerminated s i) k = if k = i then .dead else occupant s k :=
  occupant_setSlot s i k _

theorem occupant_exitCurrentFromInterrupt (s : State) (frame k : Nat) :
    occupant (exitCurrentFromInterrupt s frame).1 k =
      if k = s.current then .dead else occupant s k := by
  have hmark : occupant (markTerminated (saveFrame s frame) s.current) k =
      if k = s.current then .dead else occupant s k := by
    rw [occupant_markTerminated, occupant_saveFrame]
  rw [← hmark]
  cases hpick : pickNext (markTerminated (saveFrame s frame) s.current) with
  | none =>
    unfold exitCurrentFromInterrupt
    simp only [hpick]
  | some next =>
    rw [exitCurrentFromInterrupt_eq hpick]
    exact occupant_activateSlot (pickNext_active hpick) k

theorem occupant_terminateProcess (s : State) (pid k : Nat) :
    occupant (terminateProcess s pid).1 k =
      if k = pid ∧ idlePid < pid ∧ pid < maxProcesses then (occupant s k).killed
      else occupant s k := by
  unfold terminateProcess
  by_cases hrange : pid ≤ idlePid ∨ maxProcesses ≤ pid
  · rw [if_pos hrange, if_neg (by omega)]
  · rw [if_neg hrange]
    by_cases hgone : s.state pid = .unused ∨ s.state pid = .terminated
    · rw [if_pos hgone]
      split
      case isTrue h =>
        obtain ⟨rfl, _⟩ := h
        cases ho : occupant s k with
        | live d => exact absurd ho (not_live_iff.mpr hgone d)
        | unused => rfl
        | dead => rfl
      case isFalse h => rfl
    · rw [if_neg hgone, occupant_markTerminated]
      by_cases hk : k = pid
      · rw [if_pos hk, if_pos ⟨hk, by omega, by omega⟩, hk]
        have hactive : Active (s.state pid) := by
          unfold Active
          cases hst : s.state pid <;> simp [hst] at hgone ⊢
        rw [show occupant s pid = .live _ from occupant_of_active hactive]
        rfl
      · rw [if_neg hk, if_neg (fun h => hk h.1)]

theorem spawnKernelTask_cases (s : State) (stack : Nat) (pageDirectory : Option Nat) :
    ((spawnKernelTask s stack pageDirectory).2 = none ∧
      (spawnKernelTask s stack pageDirectory).1 = s) ∨
    ∃ idx, (spawnKernelTask s stack pageDirectory).2 = some idx ∧
      findFreeSlotFrom s externalPidMin = some idx ∧ externalPidMin ≤ idx ∧ idx < maxProcesses ∧
      (∀ d, occupant s idx ≠ .live d) ∧
      ∀ k, occupant (spawnKernelTask s stack pageDirectory).1 k =
        if k = idx then .live pageDirectory else occupant s k := by
  unfold spawnKernelTask spawnInternal
  cases hfree : findFreeSlotFrom s externalPidMin with
  | none => exact .inl ⟨rfl, rfl⟩
  | some idx =>
    obtain ⟨hlow, hhigh, hgone, _⟩ := freeFrom_some hfree
    refine .inr ⟨idx, rfl, rfl, hlow, ?_, not_live_iff.mpr hgone, fun k => ?_⟩
    · simp only [maxProcesses, externalPidMin, idlePid] at hlow hhigh ⊢
      exact hhigh
    · exact occupant_setSlot s idx k _

end Sched
end MiniDos
