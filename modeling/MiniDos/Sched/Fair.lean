import MiniDos.Sched.Invariant

/-!
# MiniDos.Sched.Fair

No overtaking. The scan for the next slot starts behind the current one and goes round, so while a
slot waits every switch brings the current slot closer to it.

* `pickNext_closer`: the slot picked is the waiting one, or lies between the current one and it.
* `Advances`: what a step does to the current slot, seen from a waiting slot.
* `no_overtaking`: while a slot waits, no slot is activated twice.
-/

namespace MiniDos
namespace Sched

open Transition

/-- Steps of the scan from `i` round to `q`. -/
def distance (q i : Nat) : Nat := (q + maxProcesses - i) % maxProcesses

/-- `q` is ready and another task executes. -/
def Waiting (q : Nat) (s : State) : Prop := s.state q = .ready ∧ s.current ≠ q

section Closer

variable {s : State} {q : Nat} (hq : q < maxProcesses) (hidle : q ≠ idlePid)
  (hcur : s.current < maxProcesses) (hwait : Waiting q s)

include hq hidle hcur hwait

theorem pickNext_closer : ∃ next, pickNext s = some next ∧
    (next = q ∨ distance q next < distance q s.current) := by
  have hq8 : q < 8 := hq
  have hc8 : s.current < 8 := hcur
  have hd : distance q s.current = (q + 8 - s.current) % 8 := rfl
  have hdpos : 1 ≤ distance q s.current ∧ distance q s.current < 1 + (maxProcesses - 1) := by
    have hne := hwait.2
    rw [hd]
    show _ ∧ _ < 1 + 7
    omega
  have hround : (s.current + distance q s.current) % maxProcesses = q := by
    rw [hd]
    show (s.current + (q + 8 - s.current) % 8) % 8 = q
    omega
  cases hfind : findReadyNonIdle s with
  | none =>
    have hnone := readyFrom_none hfind _ hdpos.1 hdpos.2
    rw [hround] at hnone
    obtain he | hne := hnone
    · exact absurd he hidle
    · exact absurd hwait.1 hne
  | some next =>
    obtain ⟨j, h1, h2, rfl, _, _, hbefore⟩ := readyFrom_some hfind
    refine ⟨_, by unfold pickNext; rw [hfind], ?_⟩
    -- the scan stops at `q` at the latest
    have hle : j ≤ distance q s.current := by
      refine Nat.le_of_not_lt (fun hgt => ?_)
      have hq' := hbefore _ hdpos.1 hgt
      rw [hround] at hq'
      obtain he | hne := hq'
      · exact hidle he
      · exact hne hwait.1
    have hj : j < 1 + 7 := h2
    rw [hd] at hle ⊢
    show (s.current + j) % 8 = q ∨ (q + 8 - (s.current + j) % 8) % 8 < _
    omega

end Closer

/-- Seen from `q`: the step activates nothing, or it activates a slot that is `q` or closer to it. -/
def Advances (q : Nat) (s s' : State) : Prop :=
  (s'.activations = s.activations ∧ s'.current = s.current) ∨
    ∃ found, s'.activations = (s'.current, found) :: s.activations ∧
      (s'.current = q ∨ distance q s'.current < distance q s.current)

theorem advances_activate {q : Nat} {s s₁ : State} (hcur : s₁.current = s.current)
    (hlog : s₁.activations = s.activations) {next : Nat}
    (hcloser : next = q ∨ distance q next < distance q s₁.current) :
    Advances q s (activateSlot s₁ next).1 := by
  refine .inr ⟨(s₁.slots next).state, ?_, ?_⟩
  · show (next, _) :: s₁.activations = _
    rw [hlog]
    rfl
  · rw [← hcur]
    exact hcloser

theorem waiting_tickSlots {s : State} {q : Nat} (hwait : Waiting q s) : Waiting q (tickSlots s) := by
  refine ⟨?_, hwait.2⟩
  have hslot : ({ s with ticks := s.ticks + 1 }.setSlot s.current
      { s.slots s.current with runtimeTicks := (s.slots s.current).runtimeTicks + 1 }).slots q =
      s.slots q := setSlot_of_ne _ _ _ (Ne.symm hwait.2)
  have hready : (s.slots q).state = .ready := hwait.1
  simp only [State.state, tickSlots, wakeSleepers, hslot, hready]
  simp [hready]

section Steps

variable {s : State} {q : Nat} (hq : q < maxProcesses) (hidle : q ≠ idlePid)

include hq hidle

theorem switchFromFrame_advances (hcur : s.current < maxProcesses) (hwait : Waiting q s)
    (frame : Nat) : Advances q s (switchFromFrame s frame).1 := by
  have hsaved : Waiting q (saveFrame s frame) := by
    refine ⟨?_, hwait.2⟩
    rw [saveFrame, state_setSlot, if_neg (Ne.symm hwait.2)]
    exact hwait.1
  obtain he | ⟨next, hpick, _, he⟩ := switchFromFrame_cases s frame
  · rw [he]
    refine .inl ⟨?_, ?_⟩
    · unfold resumeCurrent
      split <;> rfl
    · unfold resumeCurrent
      split <;> rfl
  · rw [he]
    obtain ⟨next', hpick', hcloser⟩ :=
      pickNext_closer hq hidle (show (saveFrame s frame).current < _ from hcur) hsaved
    rw [hpick] at hpick'
    cases hpick'
    refine advances_activate ?_ ?_ ?_
    · rw [demoteCurrent_current]
      rfl
    · unfold demoteCurrent
      split <;> rfl
    · rw [demoteCurrent_current]
      exact hcloser

theorem step_advances {s' : State} {e : Event} (h : Sane s) (hwait : Waiting q s)
    (hstep : step s e = some s') : Advances q s s' := by
  cases e with
  | tick frame =>
    cases hstep
    have hticked : Waiting q (tickSlots s) := waiting_tickSlots hwait
    obtain ⟨left, he | he⟩ := onTimerTick_cases s frame
    · rw [he]
      exact .inl ⟨rfl, rfl⟩
    · rw [he]
      exact switchFromFrame_advances (s := { tickSlots s with sliceLeft := left }) hq hidle h.current
        hticked frame
  | yield frame =>
    cases hstep
    exact switchFromFrame_advances hq hidle h.current hwait frame
  | sleep ticks =>
    simp only [step] at hstep
    split at hstep
    · cases hstep
    · cases hstep
      exact .inl ⟨rfl, rfl⟩
  | spawn stack pageDirectory first =>
    cases hstep
    unfold spawnInternal
    split
    · exact .inl ⟨rfl, rfl⟩
    · exact .inl ⟨rfl, rfl⟩
  | exit =>
    simp only [step] at hstep
    split at hstep
    · cases hstep
    · cases hstep
      exact .inl ⟨rfl, rfl⟩
  | exitFromInterrupt frame =>
    simp only [step] at hstep
    split at hstep
    · cases hstep
    · cases hstep
      have hmarked : Waiting q (markTerminated (saveFrame s frame) s.current) := by
        refine ⟨?_, hwait.2⟩
        rw [markTerminated, state_setSlot, if_neg (Ne.symm hwait.2), saveFrame, state_setSlot,
          if_neg (Ne.symm hwait.2)]
        exact hwait.1
      obtain ⟨next, hpick, hcloser⟩ := pickNext_closer hq hidle
        (show (markTerminated (saveFrame s frame) s.current).current < _ from h.current) hmarked
      rw [exitCurrentFromInterrupt_eq hpick]
      exact advances_activate rfl rfl hcloser
  | terminate pid =>
    simp only [step] at hstep
    split at hstep
    · cases hstep
    · cases hstep
      unfold terminateProcess
      split
      · exact .inl ⟨rfl, rfl⟩
      · split
        · exact .inl ⟨rfl, rfl⟩
        · exact .inl ⟨rfl, rfl⟩
  | enablePreemption quantumTicks =>
    cases hstep
    exact .inl ⟨rfl, rfl⟩
  | disablePreemption =>
    cases hstep
    exact .inl ⟨rfl, rfl⟩

/-- Along an interval in which `q` waits, the slots activated come ever closer to it. -/
theorem activations_closer : ∀ (es : List Event) (s s' : State), Sane s →
    Throughout step (Waiting q) s es → run step s es = some s' →
      ∃ acts, s'.activations = acts ++ s.activations ∧ (acts.map Prod.fst).Nodup ∧
        ∀ a ∈ acts, a.1 ≠ q ∧ distance q a.1 < distance q s.current := by
  intro es
  induction es with
  | nil =>
    intro s s' _ _ hrun
    cases hrun
    exact ⟨[], rfl, List.nodup_nil, fun a ha => by cases ha⟩
  | cons e es ih =>
    intro s s' h hwait hrun
    obtain ⟨s₁, hstep, hrun⟩ := run_cons.mp hrun
    have hnext := hwait.2 s₁ hstep
    have hnot : s₁.current ≠ q := by
      cases es with
      | nil => exact hnext.2
      | cons _ _ => exact hnext.1.2
    obtain ⟨acts, hlog, hnodup, hcloser⟩ := ih s₁ s' (h.step hstep) hnext hrun
    obtain ⟨hsame, hcur⟩ | ⟨found, hadd, hless⟩ := step_advances hq hidle h hwait.1 hstep
    · refine ⟨acts, hlog.trans (by rw [hsame]), hnodup, fun a ha => ?_⟩
      rw [← hcur]
      exact hcloser a ha
    · have hless := hless.resolve_left hnot
      refine ⟨acts ++ [(s₁.current, found)], by rw [hlog, hadd]; simp, ?_, fun a ha => ?_⟩
      · -- the later ones are closer than the first
        rw [List.map_append, List.nodup_append]
        refine ⟨hnodup, List.pairwise_singleton _ _, fun i hi j hj => ?_⟩
        obtain ⟨a, ha, rfl⟩ := List.mem_map.mp hi
        have hj' : j = s₁.current := by simpa using hj
        have := (hcloser a ha).2
        rintro he
        rw [he, hj'] at this
        omega
      · rw [List.mem_append, List.mem_singleton] at ha
        obtain ha | rfl := ha
        · exact ⟨(hcloser a ha).1, by have := (hcloser a ha).2; omega⟩
        · exact ⟨hnot, hless⟩

end Steps

/-- While a slot other than the idle one stays ready and not current, no slot is activated twice. -/
theorem no_overtaking (stack : Nat) (ticks : UInt32) (es es' : List Event) (s s' : State) (q : Nat)
    (hrun : run step (runtimeInit stack ticks) es = some s) (hq : q < maxProcesses)
    (hidle : q ≠ idlePid) (hwait : Throughout step (Waiting q) s es')
    (hrun' : run step s es' = some s') :
    ∃ acts, s'.activations = acts ++ s.activations ∧ (acts.map Prod.fst).Nodup := by
  have h : Sane s := run_invariant_all (fun _ _ _ hs hstep => hs.step hstep) es _ _
    (runtimeInit_sane stack ticks) hrun
  obtain ⟨acts, hlog, hnodup, _⟩ := activations_closer hq hidle es' s s' h hwait hrun'
  exact ⟨acts, hlog, hnodup⟩

/-- Three tasks are spawned; the boot task yields to the first and that one to the second, while the
third waits. -/
theorem no_overtaking_third : ∃ s s',
    run step (runtimeInit 50 0) [.spawn 100 none 3, .spawn 101 none 3, .spawn 102 none 3] = some s ∧
    5 < maxProcesses ∧ 5 ≠ idlePid ∧ Throughout step (Waiting 5) s [.yield 200, .yield 201] ∧
    run step s [.yield 200, .yield 201] = some s' ∧
    ∃ acts, s'.activations = acts ++ s.activations ∧ (acts.map Prod.fst).Nodup := by
  have hsome : (run step (runtimeInit 50 0)
      [.spawn 100 none 3, .spawn 101 none 3, .spawn 102 none 3]).isSome := by decide
  obtain ⟨s, hrun⟩ := Option.isSome_iff_exists.mp hsome
  have hs := hrun
  simp only [run, step, Option.bind_some, Option.some.injEq] at hs
  have hwait : Throughout step (Waiting 5) s [.yield 200, .yield 201] := by
    subst hs
    refine ⟨⟨rfl, by decide⟩, fun s₁ h₁ => ?_⟩
    cases h₁
    refine ⟨⟨by decide, by decide⟩, fun s₂ h₂ => ?_⟩
    cases h₂
    exact ⟨by decide, by decide⟩
  have hrun' : run step s [.yield 200, .yield 201] =
      some (onYield (onYield s 200).1 201).1 := rfl
  exact ⟨s, _, hrun, by decide, by decide, hwait, hrun',
    no_overtaking 50 0 _ _ s _ 5 hrun (by decide) (by decide) hwait hrun'⟩

end Sched
end MiniDos
