import MiniDos.Lib.Transition
import MiniDos.Sched.Occupant
import MiniDos.Video.Lock

/-!
# MiniDos.Video.LockRuns

The lock of `video.c` over whole runs.

* `Closes`: the code of every call releases what it takes.
* `Locked`: the flag is set while one task holds the lock, and that task is inside of its code.
* `Inv`: only the current task can have its interrupts disabled, and the lock that it is about to
  take so is not held by another one.
* `never_stuck`: no task is stuck in a run whose app finds the lock free at the gate.
* `stuck_behind_gate`: an app that does not find it free, in a system call or a fault, gets stuck, and
  nothing happens any more.
-/

namespace MiniDos
namespace Video
namespace Lock

open Transition Machine

/-! ## Code -/

/-- With `d` sections open, the code closes what it opens and those. -/
def Closes : Int → Code → Prop
  | d, [] => d = 0
  | d, .lock :: code => Closes (d + 1) code
  | d, .unlock :: code => 0 < d ∧ Closes (d - 1) code
  | d, .work :: code => Closes d code
  | d, .sti :: code => Closes d code

theorem closes_work (d : Int) (n : Nat) (code : Code) :
    Closes d (List.replicate n .work ++ code) ↔ Closes d code := by
  induction n with
  | zero => rfl
  | succ n ih => exact ih

theorem closes_critical (n : Nat) {code : Code} (h : Closes 0 code) :
    Closes 0 (critical n ++ code) := by
  unfold critical
  rw [List.cons_append, List.append_assoc]
  exact (closes_work _ n _).mpr ⟨by decide, h⟩

theorem closes_section (n : Nat) : Closes 0 (critical n) := by
  have h := @closes_critical n [] rfl
  rwa [List.append_nil] at h

theorem closes_console (sections : List Nat) {code : Code} (h : Closes 0 code) :
    Closes 0 (console sections ++ code) := by
  unfold console
  induction sections with
  | nil => exact h
  | cons n sections ih =>
    rw [List.flatMap_cons, List.append_assoc]
    exact closes_critical n ih

theorem closes_maybePresent (c : Course) : Closes 0 (videoMaybePresentPending c) := by
  unfold videoMaybePresentPending
  split
  · exact closes_critical 1 rfl
  · exact closes_critical 1 (closes_section _)

theorem closes_drawing (c : Course) : Closes 0 (drawing c) := by
  unfold drawing
  split
  · exact closes_critical _ (closes_maybePresent c)
  · rfl

theorem closes_clearColor (backbufferReady : Bool) (c : Course) :
    Closes 0 (videoClearColor backbufferReady c) := by
  unfold videoClearColor
  split
  · rw [List.append_assoc]
    exact closes_critical _ (closes_critical _ (closes_maybePresent c))
  · rw [List.append_assoc]
    exact closes_critical _ (closes_critical _ (closes_section 1))

theorem closes_setDeferredPresent (enabled : Bool) (c : Course) :
    Closes 0 (videoSetDeferredPresent enabled c) := by
  unfold videoSetDeferredPresent
  split
  · cases enabled
    · exact closes_critical 1 (closes_section _)
    · exact closes_critical 1 rfl
  · rfl

theorem closes_syscall (call : Syscall) : Closes 0 call.code := by
  cases call with
  | puts sections =>
    have h := @closes_console sections [] rfl
    rwa [List.append_nil] at h
  | getChar polls =>
    induction polls with
    | nil => rfl
    | cons n polls ih => exact closes_critical n ih
  | getCharNonblock n => exact closes_section n
  | getMouseState n => exact closes_section n
  | waitEvent n => exact closes_section n
  | getTicks n => exact closes_section n
  | gfxClear backbufferReady c => exact closes_clearColor backbufferReady c
  | gfxRect c => exact closes_drawing c
  | gfxRectBatch c => exact closes_drawing c
  | gfxText c => exact closes_drawing c
  | gfxTextClipped c => exact closes_drawing c
  | gfxPresent n => exact closes_section n
  | gfxSurfaceBlit c => exact closes_drawing c
  | exit c => exact closes_setDeferredPresent false c
  | other => rfl

theorem closes_fault (c : Course) (sections : List Nat) : Closes 0 (faultCode c sections) := by
  have hconsole := @closes_console sections [] rfl
  rw [List.append_nil] at hconsole
  unfold faultCode videoSetDeferredPresent
  split
  · rw [List.append_assoc]
    exact closes_critical 1 (closes_critical _ hconsole)
  · exact hconsole

/-! ## The holder -/

inductive Holding (owner : Option Nat) (depth : Int) (p : Nat) (t : Task) : Prop where
  | claimed (stage : t.stage = .claimed) (none : owner = none) (closes : Closes 0 t.code)
  | inside (stage : t.stage = .between) (own : owner = some p) (opened : 1 ≤ depth)
      (closes : Closes depth t.code)
  | cleared (stage : t.stage = .cleared) (none : owner = none) (closes : Closes 1 t.code)

structure Out (owner : Option Nat) (p : Nat) (t : Task) : Prop where
  own : owner ≠ some p
  stage : t.stage = .between ∨ t.stage = .spinning
  closes : Closes 0 t.code
  spins : t.stage = .spinning → blindLock t.code = true

section Stages

variable {owner : Option Nat} {depth : Int} {p : Nat} {t : Task}

theorem Holding.of_between (h : Holding owner depth p t) (hs : t.stage = .between) :
    owner = some p ∧ 1 ≤ depth ∧ Closes depth t.code := by
  cases h with
  | claimed stage _ _ => exact absurd (hs.symm.trans stage) (by decide)
  | inside _ own opened closes => exact ⟨own, opened, closes⟩
  | cleared stage _ _ => exact absurd (hs.symm.trans stage) (by decide)

theorem Holding.of_claimed (h : Holding owner depth p t) (hs : t.stage = .claimed) :
    owner = none ∧ Closes 0 t.code := by
  cases h with
  | claimed _ none closes => exact ⟨none, closes⟩
  | inside stage _ _ _ => exact absurd (hs.symm.trans stage) (by decide)
  | cleared stage _ _ => exact absurd (hs.symm.trans stage) (by decide)

theorem Holding.of_cleared (h : Holding owner depth p t) (hs : t.stage = .cleared) :
    owner = none ∧ Closes 1 t.code := by
  cases h with
  | claimed stage _ _ => exact absurd (hs.symm.trans stage) (by decide)
  | inside stage _ _ _ => exact absurd (hs.symm.trans stage) (by decide)
  | cleared _ none closes => exact ⟨none, closes⟩

theorem Holding.not_spinning (h : Holding owner depth p t) : t.stage ≠ .spinning := by
  intro hs
  cases h with
  | claimed stage _ _ => exact absurd (hs.symm.trans stage) (by decide)
  | inside stage _ _ _ => exact absurd (hs.symm.trans stage) (by decide)
  | cleared stage _ _ => exact absurd (hs.symm.trans stage) (by decide)

theorem Out.not_taken (h : Out owner p t) : t.stage ≠ .claimed ∧ t.stage ≠ .cleared := by
  rcases h.stage with hs | hs <;> rw [hs] <;> exact ⟨by decide, by decide⟩

end Stages

/-- The lock is held by `holder`, or it is free. -/
structure Locked (m : Machine) (holder : Option Nat) : Prop where
  flag : m.flag = holder.isSome
  holding : ∀ p, holder = some p → Holding m.owner m.depth p (m.tasks p)
  out : ∀ p, holder ≠ some p → Out m.owner p (m.tasks p)

namespace Locked

variable {m m' : Machine} {holder : Option Nat}

theorem holds_iff (h : Locked m holder) (p : Nat) : m.Holds p ↔ holder = some p := by
  unfold Machine.Holds
  by_cases hp : holder = some p
  · cases h.holding p hp with
    | claimed stage _ _ => simp [hp, stage]
    | inside _ own _ _ => simp [hp, own]
    | cleared stage _ _ => simp [hp, stage]
  · have hout := h.out p hp
    rcases hout.stage with hs | hs <;> simp [hp, hs, hout.own]

theorem not_of_rests (h : Locked m holder) {p : Nat} (hrests : (m.tasks p).Rests) :
    holder ≠ some p := by
  intro hp
  cases h.holding p hp with
  | claimed stage _ _ => exact absurd (hrests.1.symm.trans stage) (by decide)
  | inside _ _ opened closes =>
    rw [hrests.2] at closes
    rw [show m.depth = 0 from closes] at opened
    exact absurd opened (by decide)
  | cleared stage _ _ => exact absurd (hrests.1.symm.trans stage) (by decide)

theorem load (h : Locked m holder) {p : Nat} (hrests : (m.tasks p).Rests) {t : Task}
    (hstage : t.stage = .between) (hcloses : Closes 0 t.code) : Locked (m.setTask p t) holder := by
  have hnot := h.not_of_rests hrests
  refine ⟨h.flag, fun q hq => ?_, fun q hq => ?_⟩
  · have hne : q ≠ p := fun he => hnot (he ▸ hq)
    have hold := h.holding q hq
    simpa [setTask, hne] using hold
  · by_cases hqp : q = p
    · subst hqp
      have hold := h.out q hq
      have htask : (m.setTask q t).tasks q = t := if_pos rfl
      rw [htask]
      exact ⟨hold.own, .inl hstage, hcloses, fun hs => by rw [hstage] at hs; cases hs⟩
    · have hold := h.out q hq
      simpa [setTask, hqp] using hold

theorem owner_none (h : Locked m none) : m.owner = none := by
  cases ho : m.owner with
  | none => rfl
  | some p => exact absurd ho (h.out p (by simp)).own

variable {flag : Bool} {owner : Option Nat} {depth : Int} {t : Task} {holder' : Option Nat}

/-- A step of the current task. Only the holder changes the owner and the depth. -/
theorem update (h : Locked m holder) (hflag : flag = holder'.isSome)
    (hin : holder' = some m.current → Holding owner depth m.current t)
    (hout : holder' ≠ some m.current → Out owner m.current t)
    (hothers : ∀ p, p ≠ m.current → (holder' = some p ↔ holder = some p))
    (howner : owner = m.owner ∧ depth = m.depth ∨
      holder = some m.current ∧ (owner = none ∨ owner = some m.current)) :
    Locked ({ m with flag := flag, owner := owner, depth := depth }.setSelf t) holder' := by
  have hself : ∀ p, p = m.current →
      ({ m with flag := flag, owner := owner, depth := depth }.setSelf t).tasks p = t :=
    fun p hc => if_pos hc
  have hother : ∀ p, p ≠ m.current →
      ({ m with flag := flag, owner := owner, depth := depth }.setSelf t).tasks p = m.tasks p :=
    fun p hc => if_neg hc
  refine ⟨hflag, fun p hp => ?_, fun p hp => ?_⟩
  · by_cases hc : p = m.current
    · rw [hself p hc, hc]
      exact hin (hc ▸ hp)
    · rw [hother p hc]
      have hold := (hothers p hc).mp hp
      rcases howner with ⟨rfl, rfl⟩ | ⟨hmine, _⟩
      · exact h.holding p hold
      · exact absurd (Option.some.inj (hold.symm.trans hmine)) hc
  · by_cases hc : p = m.current
    · rw [hself p hc, hc]
      exact hout (hc ▸ hp)
    · rw [hother p hc]
      have hold := h.out p (fun he => hp ((hothers p hc).mpr he))
      refine ⟨?_, hold.stage, hold.closes, hold.spins⟩
      rcases howner with ⟨rfl, _⟩ | ⟨_, rfl | rfl⟩
      · exact hold.own
      · exact fun he => nomatch he
      · exact fun he => hc (Option.some.inj he).symm

theorem update_same (h : Locked m holder)
    (hin : holder = some m.current → Holding owner depth m.current t)
    (hout : holder ≠ some m.current → Out owner m.current t)
    (howner : owner = m.owner ∧ depth = m.depth ∨
      holder = some m.current ∧ (owner = none ∨ owner = some m.current)) :
    Locked ({ m with owner := owner, depth := depth }.setSelf t) holder :=
  h.update h.flag hin hout (fun _ _ => Iff.rfl) howner

theorem advance (h : Locked m holder) (hstage : m.self.stage = .between) (ht : t.stage = .between)
    (hcode : ∀ d, Closes d m.self.code → Closes d t.code) : Locked (m.setSelf t) holder := by
  refine h.update_same (fun hp => ?_) (fun hp => ?_) (.inl ⟨rfl, rfl⟩)
  · obtain ⟨hown, hdepth, hcloses⟩ := (h.holding _ hp).of_between hstage
    exact .inside ht hown hdepth (hcode _ hcloses)
  · have hold := h.out _ hp
    exact ⟨hold.own, .inl ht, hcode 0 hold.closes, fun hs => by rw [ht] at hs; cases hs⟩

/-- One step of the current task in its code. -/
theorem act (h : Locked m holder) (hact : m.act = some m') :
    ∃ holder', Locked m' holder' ∧ ∀ p, p ≠ m.current → (holder' = some p ↔ holder = some p) := by
  have hin : holder = some m.current → Holding m.owner m.depth m.current m.self := h.holding _
  have hout : holder ≠ some m.current → Out m.owner m.current m.self := h.out _
  have hheld : ¬ Out m.owner m.current m.self → holder = some m.current :=
    fun hnot => Classical.byContradiction (fun hp => hnot (hout hp))
  unfold Machine.act at hact
  dsimp only at hact
  split at hact
  case h_1 code hstage hcode =>
    -- The owner is tested: a section in a section, or the loop.
    split at hact
    case isTrue hown =>
      cases hact
      have hmine := hheld (fun hp => hp.own hown)
      obtain ⟨_, hdepth, hcloses⟩ := (hin hmine).of_between hstage
      rw [hcode] at hcloses
      exact ⟨holder, h.update_same (fun _ => .inside hstage hown (by omega) hcloses)
        (absurd hmine) (.inr ⟨hmine, .inr hown⟩), fun _ _ => Iff.rfl⟩
    case isFalse hown =>
      cases hact
      have hnot : holder ≠ some m.current := fun hp => hown ((hin hp).of_between hstage).1
      exact ⟨holder, h.update_same (fun hp => absurd hp hnot)
        (fun _ => ⟨hown, .inr rfl, (hout hnot).closes, fun _ => by
          dsimp only
          rw [hcode]
          rfl⟩) (.inl ⟨rfl, rfl⟩), fun _ _ => Iff.rfl⟩
  case h_2 hstage hcode =>
    have hnot : holder ≠ some m.current := fun hp => (hin hp).not_spinning hstage
    split at hact
    case isTrue _ =>
      cases hact
      exact ⟨holder, h, fun _ _ => Iff.rfl⟩
    case isFalse hfree =>
      cases hact
      -- Nobody holds a flag that is clear, so the task holds it now.
      have hnone : holder = none := by
        have hflag := h.flag
        cases holder with
        | none => rfl
        | some p => exact absurd hflag hfree
      subst hnone
      have hcloses := (hout hnot).closes
      refine ⟨some m.current, h.update rfl (fun _ => .claimed rfl h.owner_none hcloses)
        (absurd rfl) (fun p hp => ?_) (.inl ⟨rfl, rfl⟩), fun p hp => ?_⟩
      all_goals simp [Ne.symm hp]
  case h_3 code hstage hcode =>
    cases hact
    have hmine := hheld (fun hp => hp.not_taken.1 hstage)
    obtain ⟨_, hcloses⟩ := (hin hmine).of_claimed hstage
    rw [hcode] at hcloses
    exact ⟨holder, h.update_same (fun _ => .inside rfl rfl (by decide) hcloses)
      (absurd hmine) (.inr ⟨hmine, .inr rfl⟩), fun _ _ => Iff.rfl⟩
  case h_4 code hstage hcode =>
    -- Code that closes what it opens does not unlock a lock that it does not hold.
    have hmine := hheld (fun hp => by
      have hcloses := hp.closes
      rw [hcode] at hcloses
      exact absurd hcloses.1 (by decide))
    obtain ⟨hown, hdepth, hcloses⟩ := (hin hmine).of_between hstage
    rw [hcode] at hcloses
    rw [if_neg (fun hne => hne hown)] at hact
    split at hact
    case isTrue hlast =>
      cases hact
      have hone : m.depth = 1 := by omega
      refine ⟨holder, h.update_same (fun _ => .cleared rfl rfl ?_) (absurd hmine)
        (.inr ⟨hmine, .inl rfl⟩), fun _ _ => Iff.rfl⟩
      rw [hone] at hcloses
      dsimp only
      rw [hcode]
      exact hcloses
    case isFalse hmore =>
      cases hact
      exact ⟨holder, h.update_same (fun _ => .inside hstage hown (by omega) hcloses.2)
        (absurd hmine) (.inr ⟨hmine, .inr hown⟩), fun _ _ => Iff.rfl⟩
  case h_5 code hstage hcode =>
    cases hact
    have hmine := hheld (fun hp => hp.not_taken.2 hstage)
    obtain ⟨hnone, hcloses⟩ := (hin hmine).of_cleared hstage
    rw [hcode] at hcloses
    refine ⟨none, h.update rfl (fun hp => nomatch hp) (fun _ => ⟨?_, .inl rfl, hcloses.2,
      fun hs => nomatch hs⟩)
      (fun p hp => ?_) (.inl ⟨rfl, rfl⟩), fun p hp => ?_⟩
    · rw [hnone]
      exact fun he => nomatch he
    all_goals simp [hmine, Ne.symm hp]
  case h_6 code hstage hcode =>
    cases hact
    refine ⟨holder, h.advance hstage hstage (fun d hcloses => ?_), fun _ _ => Iff.rfl⟩
    rw [hcode] at hcloses
    exact hcloses
  case h_7 code hstage hcode =>
    cases hact
    refine ⟨holder, h.advance hstage hstage (fun d hcloses => ?_), fun _ _ => Iff.rfl⟩
    rw [hcode] at hcloses
    exact hcloses
  case h_8 => cases hact

end Locked

theorem act_frame {m m' : Machine} (hact : m.act = some m') :
    m'.sched = m.sched ∧ (∀ p, p ≠ m.current → m'.tasks p = m.tasks p) ∧
      m'.self.user = m.self.user ∧ (m'.self.interrupts = false → m.self.interrupts = false ∧
        (blindLock m'.self.code = true → blindLock m.self.code = true)) ∧ ¬ m.self.Rests := by
  unfold Machine.act at hact
  dsimp only at hact
  split at hact
  all_goals rename_i hstage hcode
  case h_8 => cases hact
  all_goals
    have hnot : ¬ m.self.Rests := fun hr => by simp [hr.2] at hcode
    repeat' split at hact
    all_goals
      cases hact
      refine ⟨rfl, fun p hp => ?_, ?_, ?_, hnot⟩
      · first
        | rfl
        | exact if_neg hp
      · first
        | rfl
        | rw [self_setSelf]
      · simp [hcode, blindLock]

/-! ## The system -/

/-- What holds between any two steps, while `holder` holds the lock. -/
structure Inv (m : Machine) (holder : Option Nat) : Prop where
  locked : Locked m holder
  away : ∀ p, p ≠ m.current → (m.tasks p).interrupts = true
  user : ∀ p, (m.tasks p).user = true → (m.tasks p).Rests ∧ (m.tasks p).interrupts = true
  vacant : ∀ p, (∀ d, Sched.occupant m.sched p ≠ .live d) →
    (m.tasks p).Rests ∧ (m.tasks p).user = false
  blind : m.self.interrupts = false → blindLock m.self.code = true → ∀ p, holder = some p →
    p = m.current

namespace Inv

variable {m m' : Machine} {holder : Option Nat}

theorem switch (h : Inv m holder) (hon : m.self.interrupts = true) {sched : Sched.State}
    (hgone : ∀ p, (∀ d, Sched.occupant sched p ≠ .live d) →
      (∀ d, Sched.occupant m.sched p ≠ .live d) ∨ (m.tasks p).Rests ∧ (m.tasks p).user = false) :
    Inv { m with sched := sched } holder := by
  have hall : ∀ p, (m.tasks p).interrupts = true := by
    intro p
    by_cases hp : p = m.current
    · rw [hp]
      exact hon
    · exact h.away p hp
  refine ⟨⟨h.locked.flag, h.locked.holding, h.locked.out⟩, fun p _ => hall p, h.user,
    fun p hp => (hgone p hp).elim (h.vacant p) id, fun hoff => ?_⟩
  exact absurd (hall _) (by rw [show (m.tasks sched.current).interrupts = false from hoff]; decide)

/-- The current task, which rests, starts on something else. -/
theorem load (h : Inv m holder) (hrests : m.self.Rests) (hlive : m.self.user = true ∨
    m.sched.state m.current = .running) {t : Task} (hstage : t.stage = .between)
    (hcloses : Closes 0 t.code) (huser : t.user = true → t.code = [] ∧ t.interrupts = true)
    (hblind : t.interrupts = false → blindLock t.code = true → holder = none) :
    Inv (m.setSelf t) holder := by
  have hself : ∀ p, p = m.current → (m.setSelf t).tasks p = t := fun p hp => if_pos hp
  have hother : ∀ p, p ≠ m.current → (m.setSelf t).tasks p = m.tasks p := fun p hp => if_neg hp
  refine ⟨h.locked.load hrests hstage hcloses, fun p hp => ?_, fun p hp => ?_, fun p hp => ?_,
    fun hoff hlock p hp => ?_⟩
  · rw [hother p hp]
    exact h.away p hp
  · by_cases hc : p = m.current
    · rw [hself p hc] at hp ⊢
      obtain ⟨hcode, hon⟩ := huser hp
      exact ⟨⟨hstage, hcode⟩, hon⟩
    · rw [hother p hc] at hp ⊢
      exact h.user p hp
  · have hold := h.vacant p hp
    by_cases hc : p = m.current
    · -- A task in user mode, or one that runs, is live.
      subst hc
      rcases hlive with hu | hr
      · exact absurd hu (by rw [show m.self.user = false from hold.2]; decide)
      · exact absurd (Sched.occupant_live_iff.mpr ⟨.inr (.inl hr), rfl⟩) (hp _)
    · rw [hother p hc]
      exact hold
  · have hfresh : (m.setSelf t).self = t := if_pos rfl
    rw [hfresh] at hoff hlock
    rw [hblind hoff hlock] at hp
    cases hp

/-- One step in the code of the current task. -/
theorem act (h : Inv m holder) (hact : m.act = some m') : ∃ holder', Inv m' holder' := by
  obtain ⟨hsched, hothers, huser, hblind, hbusy⟩ := act_frame hact
  obtain ⟨holder', hlocked, hholder⟩ := h.locked.act hact
  have hcur : m'.current = m.current := congrArg Sched.State.current hsched
  have hin : m.self.user = false := by
    cases hu : m.self.user with
    | false => rfl
    | true => exact absurd (h.user _ hu).1 hbusy
  refine ⟨holder', hlocked, fun p hp => ?_, fun p hp => ?_, fun p hp => ?_,
    fun hoff hlock p hp => ?_⟩
  · rw [hcur] at hp
    rw [hothers p hp]
    exact h.away p hp
  · by_cases hc : p = m.current
    · have hu : m'.self.user = true := by rw [self, hcur, ← hc]; exact hp
      rw [huser, hin] at hu
      cases hu
    · rw [hothers p hc] at hp ⊢
      exact h.user p hp
  · rw [hsched] at hp
    have hold := h.vacant p hp
    by_cases hc : p = m.current
    · subst hc
      exact absurd hold.1 hbusy
    · rw [hothers p hc]
      exact hold
  · rw [hcur]
    by_cases hc : p = m.current
    · exact hc
    · obtain ⟨hwas, hkept⟩ := hblind hoff
      exact h.blind hwas (hkept hlock) p ((hholder p hc).mp hp)

/-- A task comes or goes: the resting task of a slot becomes one that starts with interrupts
enabled. -/
theorem renew (h : Inv m holder) {p : Nat} (hrests : (m.tasks p).Rests) {kind : Kind} {code : Code}
    (hcloses : Closes 0 code) (hon : ∀ q, q ≠ p → (m.tasks q).interrupts = true)
    {sched : Sched.State} (hgone : ∀ q, (∀ d, Sched.occupant sched q ≠ .live d) →
      q = p ∧ code = [] ∨ q ≠ p ∧ ∀ d, Sched.occupant m.sched q ≠ .live d) :
    Inv { m.setTask p (.fresh kind code) with sched := sched } holder := by
  have hself : ∀ q, q = p → (m.setTask p (.fresh kind code)).tasks q = .fresh kind code :=
    fun q hq => if_pos hq
  have hother : ∀ q, q ≠ p → (m.setTask p (.fresh kind code)).tasks q = m.tasks q :=
    fun q hq => if_neg hq
  have hall : ∀ q, ((m.setTask p (.fresh kind code)).tasks q).interrupts = true := by
    intro q
    by_cases hq : q = p
    · rw [hself q hq]
      rfl
    · rw [hother q hq]
      exact hon q hq
  have hlocked := h.locked.load hrests (t := .fresh kind code) rfl hcloses
  refine ⟨⟨hlocked.flag, hlocked.holding, hlocked.out⟩, fun q _ => hall q, fun q hq => ?_,
    fun q hq => ?_, fun hoff => ?_⟩
  · refine ⟨?_, hall q⟩
    by_cases hc : q = p
    · have huser : (Task.fresh kind code).user = true := by
        rw [← hself q hc]
        exact hq
      cases huser
    · have hold := h.user q (by rw [← hother q hc]; exact hq)
      exact (hother q hc).symm ▸ hold.1
  · rcases hgone q hq with ⟨hc, hnil⟩ | ⟨hc, hold⟩
    · exact (hself q hc).symm ▸ ⟨⟨rfl, hnil⟩, rfl⟩
    · exact (hother q hc).symm ▸ h.vacant q hold
  · have hnow := hall sched.current
    rw [show ((m.setTask p (.fresh kind code)).tasks sched.current).interrupts = false from hoff]
      at hnow
    cases hnow

theorem spawned (h : Inv m holder) (hon : m.self.interrupts = true) (kind : Kind) {code : Code}
    (hcloses : Closes 0 code) (stack : Nat) (dir : Option Nat) :
    Inv (m.spawned (.fresh kind code) (Sched.spawnKernelTask m.sched stack dir)) holder := by
  have hcases := Sched.spawnKernelTask_cases m.sched stack dir
  generalize Sched.spawnKernelTask m.sched stack dir = spawn at hcases ⊢
  obtain ⟨sched, pid⟩ := spawn
  rcases hcases with ⟨rfl, rfl⟩ | ⟨idx, rfl, _, _, _, hgone, hocc⟩
  · exact h
  refine h.renew (h.vacant idx hgone).1 hcloses (fun q _ => ?_) (fun q hq => ?_)
  · by_cases hc : q = m.current
    · rw [hc]
      exact hon
    · exact h.away q hc
  · by_cases hc : q = idx
    · exact absurd (by rw [hocc q, if_pos hc]) (hq dir)
    · exact .inr ⟨hc, fun d hd => hq d (by rw [hocc q, if_neg hc, hd])⟩

theorem exited (h : Inv m holder) (hrests : m.self.Rests) (frame : Nat) :
    Inv { m.setSelf (.fresh .none []) with
      sched := (Sched.exitCurrentFromInterrupt m.sched frame).1 } holder := by
  refine h.renew hrests (show Closes 0 [] from rfl) h.away (fun q hq => ?_)
  by_cases hc : q = m.current
  · exact .inl ⟨hc, rfl⟩
  · have hocc : Sched.occupant (Sched.exitCurrentFromInterrupt m.sched frame).1 q =
        Sched.occupant m.sched q :=
      (Sched.occupant_exitCurrentFromInterrupt m.sched frame q).trans (if_neg hc)
    exact .inr ⟨hc, fun d hd => hq d (hocc.trans hd)⟩

/-- Code that takes the lock with interrupts disabled finds it free. -/
theorem gate (h : Inv m holder) (hu : m.self.user = true) {code : Code} (hcloses : Closes 0 code)
    (hfree : blindLock code = true → m.flag = false) : Inv (m.enterGate code) holder := by
  obtain ⟨hrests, _⟩ := h.user m.current hu
  refine h.load hrests (.inl hu) hrests.1 hcloses (fun hu => nomatch hu) (fun _ hlock => ?_)
  have hflag := h.locked.flag
  rw [hfree hlock] at hflag
  simpa using hflag.symm

/-- One step. -/
theorem step (h : Inv m holder) {e : Event} (hfree : FreeAtGate m e)
    (hstep : step m e = some m') : ∃ holder', Inv m' holder' := by
  have huser : m.self.user = true → m.self.Rests ∧ m.self.interrupts = true := h.user _
  cases e <;> dsimp only [Lock.step] at hstep
  case act => exact h.act hstep
  all_goals
    split at hstep
    case isFalse hno => cases hstep
  case tick frame hon =>
    cases hstep
    exact ⟨holder, h.switch hon (fun p hp =>
      .inl (fun d => by rw [← Sched.occupant_onTimerTick m.sched frame p]; exact hp d))⟩
  case yield frame hidle =>
    cases hstep
    exact ⟨holder, h.switch hidle.2.2 (fun p hp =>
      .inl (fun d => by rw [← Sched.occupant_switchFromFrame m.sched frame p]; exact hp d))⟩
  case threadYield frame hu =>
    cases hstep
    exact ⟨holder, h.switch (huser hu).2 (fun p hp =>
      .inl (fun d => by rw [← Sched.occupant_switchFromFrame m.sched frame p]; exact hp d))⟩
  case spawnWorker stack hshell =>
    cases hstep
    exact ⟨holder, h.spawned hshell.1.2.2 .worker (show Closes 0 [] from rfl) stack none⟩
  case spawnApp stack dir sections c hshell =>
    cases hstep
    exact ⟨holder, h.spawned hshell.1.2.2 .app
      (closes_console sections (closes_setDeferredPresent true c)) stack (some dir)⟩
  case enterUser happ =>
    cases hstep
    exact ⟨holder, h.load happ.1 (.inr happ.2.2.2) happ.1.1 (by rw [happ.1.2]; rfl)
      (fun _ => ⟨happ.1.2, rfl⟩) (fun hoff => nomatch hoff)⟩
  case syscall call hu =>
    cases hstep
    exact ⟨holder, h.gate hu (closes_syscall call) (hfree _ rfl)⟩
  case fault c sections hu =>
    cases hstep
    exact ⟨holder, h.gate hu (closes_fault c sections) (hfree _ rfl)⟩
  case videoFillRect c hworker =>
    cases hstep
    obtain ⟨hrests, hkernel, hon⟩ := hworker.1
    exact ⟨holder, h.load hrests (.inr hworker.2.2) hrests.1 (closes_drawing c)
      (fun hu => by rw [hkernel] at hu; cases hu) (fun hoff => by rw [hon] at hoff; cases hoff)⟩
  case shellDraws sections hshell =>
    cases hstep
    obtain ⟨hrests, hkernel, hon⟩ := hshell.1
    have hcloses := @closes_console sections [] rfl
    rw [List.append_nil] at hcloses
    exact ⟨holder, h.load hrests (.inr hshell.2.2) hrests.1 hcloses
      (fun hu => by rw [hkernel] at hu; cases hu) (fun hoff => by rw [hon] at hoff; cases hoff)⟩
  case exit hworker =>
    cases hstep
    refine ⟨holder, h.switch hworker.1.2.2 (fun p hp => ?_)⟩
    by_cases hc : p = m.current
    · subst hc
      exact .inr ⟨hworker.1.1, hworker.1.2.1⟩
    · have hocc : Sched.occupant (Sched.exitCurrent m.sched) p = Sched.occupant m.sched p :=
        (Sched.occupant_markTerminated m.sched m.sched.current p).trans (if_neg hc)
      exact .inl (fun d => by rw [← hocc]; exact hp d)
  case exitFromInterrupt frame happ =>
    cases hstep
    exact ⟨holder, h.exited happ.1 frame⟩

end Inv

theorem start_inv (stack : Nat) (ticks : UInt32) : Inv (start stack ticks) none where
  locked := ⟨rfl, (fun _ hp => nomatch hp), fun _ _ =>
    ⟨(fun ho => nomatch ho), .inl rfl, rfl, (fun hs => nomatch hs)⟩⟩
  away _ _ := rfl
  user _ hu := nomatch hu
  vacant _ _ := ⟨⟨rfl, rfl⟩, rfl⟩
  blind hoff := nomatch hoff

theorem run_inv {stack : Nat} {ticks : UInt32} {es : List Event} {m : Machine}
    (hrun : run step (start stack ticks) es = some m)
    (hfree : Meets step FreeAtGate (start stack ticks) es) : ∃ holder, Inv m holder := by
  have hstep : ∀ m e m', (∃ holder, Inv m holder) → FreeAtGate m e → step m e = some m' →
      ∃ holder, Inv m' holder := by
    intro m e m' hinv hfree hstep
    obtain ⟨holder, h⟩ := hinv
    exact h.step hfree hstep
  exact run_invariant hstep es _ _ ⟨none, start_inv stack ticks⟩ hfree hrun

namespace Inv

variable {m m' : Machine} {holder : Option Nat}

theorem not_stuck (h : Inv m holder) : ¬ Stuck m := by
  rintro ⟨hspins, hoff, _, p, hp, hholds⟩
  have hheld := (h.locked.holds_iff p).mp hholds
  have hnot : holder ≠ some m.current := fun hc => hp (Option.some.inj (hheld.symm.trans hc))
  have hlock := (h.locked.out m.current hnot).spins hspins
  exact hp (h.blind hoff hlock p hheld)

end Inv

/-- No run gets stuck whose app finds the lock free at the gate. -/
theorem never_stuck (stack : Nat) (ticks : UInt32) (es : List Event) (m : Machine)
    (hrun : run step (start stack ticks) es = some m)
    (hfree : Meets step FreeAtGate (start stack ticks) es) : ¬ Stuck m := by
  obtain ⟨holder, h⟩ := run_inv hrun hfree
  exact h.not_stuck

/-- An app that draws while no worker is there, and faults. -/
def calmRun : List Event :=
  Event.spawnApp 60 7 [] ⟨true, 0, true, 0⟩ :: (List.replicate 5 (Event.tick 40) ++
    List.replicate 6 Event.act ++
    [Event.enterUser, Event.syscall (.gfxRect ⟨true, 2, true, 0⟩)] ++
    List.replicate 13 Event.act ++ [Event.enterUser, Event.fault ⟨true, 0, true, 1⟩ [2]] ++
    List.replicate 19 Event.act ++ [Event.exitFromInterrupt 60])

theorem never_stuck_calm :
    ∃ m, run step (start 50 0) calmRun = some m ∧ ¬ Stuck m := by
  obtain ⟨m, hrun⟩ : ∃ m, run step (start 50 0) calmRun = some m :=
    Option.isSome_iff_exists.mp (by decide +kernel)
  exact ⟨m, hrun, never_stuck 50 0 calmRun m hrun (by decide +kernel)⟩

/-! ## The other way -/

/-- A task that spins in a system call while another one holds the lock. -/
structure Spins (m : Machine) : Prop where
  stuck : Stuck m
  user : m.self.user = false
  code : m.self.code ≠ []

theorem Spins.step {m m' : Machine} {e : Event} (h : Spins m) (hstep : step m e = some m') :
    m' = m := by
  obtain ⟨⟨hspins, hoff, hflag, _⟩, huser, hcode⟩ := h
  have hbusy : ¬ m.self.Rests := fun hr => hcode hr.2
  have hidle : ¬ m.Idles := fun hi => hbusy hi.1
  cases e with
  | act =>
    simp only [Lock.step, Machine.act, hspins] at hstep
    split at hstep
    all_goals simp_all
  | _ => simp_all [Lock.step]

theorem Spins.run {m m' : Machine} (h : Spins m) (es : List Event)
    (hrun : run Lock.step m es = some m') : m' = m := by
  have hstep : ∀ n e n', n = m → Lock.step n e = some n' → n' = m := by
    intro n e n' hn hstep
    subst hn
    exact h.step hstep
  exact run_invariant_all hstep es m m' rfl hrun

/-- With the lock held by another task, the code of a system call gets to the loop. -/
theorem Locked.sticks {q : Nat} {code : Code} : ∀ {m : Machine}, Locked m (some q) →
    q ≠ m.current → m.self.stage = .between → m.self.user = false → m.self.interrupts = false →
    m.self.code = code → blindLock code = true →
    ∃ n m', run step m (List.replicate n .act) = some m' ∧ Spins m' := by
  induction code with
  | nil =>
    intro m h hq hstage huser hoff hcode hlock
    cases hlock
  | cons a code ih =>
    intro m h hq hstage huser hoff hcode hlock
    have hout := h.out m.current (fun hc => hq (Option.some.inj hc))
    cases a with
    | sti => cases hlock
    | unlock =>
      have hcloses : Closes 0 m.self.code := hout.closes
      rw [hcode] at hcloses
      exact absurd hcloses.1 (by decide)
    | work =>
      have hact : m.act = some (m.setSelf { m.self with code := code }) := by
        simp only [Machine.act, hstage, hcode]
      have hnext : Locked (m.setSelf { m.self with code := code }) (some q) :=
        h.advance hstage hstage (fun d hcloses => by
          rw [hcode] at hcloses
          exact hcloses)
      obtain ⟨n, m', hrun, hspins⟩ := ih hnext hq (by simpa using hstage)
        (by simpa using huser) (by simpa using hoff) (by simp) hlock
      exact ⟨n + 1, m', run_cons.mpr ⟨_, hact, hrun⟩, hspins⟩
    | lock =>
      have hact : m.act = some (m.setSelf { m.self with stage := .spinning }) := by
        simp only [Machine.act, hstage, hcode, if_neg hout.own]
      have hholder : (m.setSelf { m.self with stage := .spinning }).Holds q := by
        have hold := (h.holds_iff q).mpr rfl
        have htask : (m.setSelf { m.self with stage := .spinning }).tasks q = m.tasks q := if_neg hq
        unfold Machine.Holds at hold ⊢
        rw [htask]
        exact hold
      refine ⟨1, _, run_cons.mpr ⟨_, hact, rfl⟩, ⟨?_, ?_, h.flag, q, hq, hholder⟩, ?_, ?_⟩
      · simp
      · simpa using hoff
      · simpa using huser
      · simp [hcode]

theorem step_gate {m : Machine} {e : Event} {code : Code} (hgate : e.gate = some code)
    (huser : m.self.user = true) : step m e = some (m.enterGate code) ∧ Closes 0 code := by
  cases e <;> cases hgate
  case syscall call => exact ⟨if_pos huser, closes_syscall call⟩
  case fault c sections => exact ⟨if_pos huser, closes_fault c sections⟩

theorem stuck_behind_gate (stack : Nat) (ticks : UInt32) (es : List Event) (m : Machine)
    (hrun : run step (start stack ticks) es = some m)
    (hfree : Meets step FreeAtGate (start stack ticks) es) (e : Event) (code : Code)
    (hgate : e.gate = some code) (huser : m.self.user = true) (hlock : blindLock code = true)
    (hheld : m.flag = true) :
    ∃ n m', run step m (e :: List.replicate n .act) = some m' ∧ Stuck m' ∧
      ∀ es' m'', run step m' es' = some m'' → m'' = m' := by
  obtain ⟨holder, h⟩ := run_inv hrun hfree
  obtain ⟨hrests, _⟩ := h.user m.current huser
  have hnot := h.locked.not_of_rests hrests
  cases holder with
  | none =>
    have hflag := h.locked.flag
    rw [hheld] at hflag
    cases hflag
  | some q =>
    obtain ⟨hstep, hcloses⟩ := step_gate hgate huser
    have hloaded : Locked (m.enterGate code) (some q) := h.locked.load hrests hrests.1 hcloses
    have hself : (m.enterGate code).self = { m.self with user := false, interrupts := false, code := code } :=
      self_setSelf m _
    obtain ⟨n, m', hacts, hspins⟩ := hloaded.sticks (fun hc => hnot (congrArg some hc))
      (by rw [hself]; exact hrests.1) (by rw [hself]) (by rw [hself]) (by rw [hself]) hlock
    exact ⟨n, m', run_cons.mpr ⟨_, hstep, hacts⟩, hspins.stuck, fun es' m'' => hspins.run es'⟩

/-! ## A worker and an app -/

/-- A section of drawing by a worker is interrupted at the end of its slice, and the app draws. -/
def stressRun : List Event :=
  [Event.spawnWorker 50, Event.spawnApp 60 7 [] ⟨true, 0, true, 0⟩] ++
    List.replicate 5 (Event.tick 40) ++
    -- The worker draws once and yields, and the app starts.
    [Event.videoFillRect ⟨true, 2, true, 0⟩] ++ List.replicate 13 Event.act ++ [Event.yield 51] ++
    List.replicate 6 Event.act ++ [Event.enterUser] ++
    -- The app and the shell use up their slices.
    List.replicate 5 (Event.tick 61) ++ List.replicate 5 (Event.tick 41) ++
    [Event.videoFillRect ⟨true, 2, true, 0⟩, Event.act, Event.act, Event.act, Event.act] ++
    List.replicate 5 (Event.tick 52)

/-- An app that draws a rectangle there waits for the worker, which waits for the processor. -/
theorem worker_blocks_app : ¬ ∀ (es : List Event) (m : Machine),
    run step (start 50 0) es = some m → ¬ Stuck m := by
  intro hnever
  have hends : ((run step (start 50 0) (stressRun ++ [.syscall (.gfxRect ⟨true, 2, true, 0⟩), .act])).map
      (fun m => (m.self.stage, m.self.interrupts, m.flag, m.owner, m.current))) =
      some (.spinning, false, true, some 3, 4) := by decide +kernel
  obtain ⟨m, hrun, hm⟩ := Option.map_eq_some_iff.mp hends
  simp only [Prod.mk.injEq] at hm
  obtain ⟨hstage, hoff, hflag, howner, hcur⟩ := hm
  exact hnever _ m hrun ⟨hstage, hoff, hflag, 3, by rw [hcur]; decide, .inr (.inr howner)⟩

end Lock
end Video
end MiniDos
