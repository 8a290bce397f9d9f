import MiniDos.Apps.Memory

/-!
# MiniDos.Apps.Arena

The search of `shell_apps_allocate_phys_base` is first fit. Behind a page in use it starts anew, and
no start is lost that way: every run that begins before that page and has not been tried contains it.

* `freeRunFrom_least`, `freeRunFrom_none`: what the search finds, and that it misses nothing.
* `allocatePhysBase_first_fit`: the result for the whole call. The call first gives back the pages of
  tasks that have ended; what it promises is about the map it finds then.
-/

namespace MiniDos
namespace Apps

open Sched Transition Ranges

variable {used : Nat → Bool} {bytes : Nat}

def pagesFor (bytes : Nat) : Nat := (bytes + (pageSize - 1)) / pageSize

/-! ## The search -/

theorem usedIn_some {start n : Nat} : ∀ {i j : Nat},
    usedIn used start n i = some j → i ≤ j ∧ j < i + n ∧ used (start + j) = true := by
  induction n with
  | zero =>
    intro i j h
    simp [usedIn] at h
  | succ n ih =>
    intro i j h
    simp only [usedIn] at h
    split at h
    · rename_i hused
      cases h
      exact ⟨Nat.le_refl _, by omega, hused⟩
    · obtain ⟨h1, h2, h3⟩ := ih h
      exact ⟨by omega, by omega, h3⟩

theorem freeRunFrom_least {pageCount fuel : Nat} : ∀ {start s : Nat},
    freeRunFrom used pageCount fuel start = some s →
    ∀ s', start ≤ s' → FreeRun used arenaPageCount pageCount s' → s ≤ s' := by
  induction fuel with
  | zero =>
    intro start s h
    simp [freeRunFrom] at h
  | succ fuel ih =>
    intro start s h s' hs' hrun
    simp only [freeRunFrom] at h
    split at h
    · cases h
    · split at h
      · rename_i i hused
        obtain ⟨_, hi, hu⟩ := usedIn_some hused
        exact ih h s' (hrun.behind hs' (by omega) hu) hrun
      · cases h
        exact hs'

theorem freeRunFrom_none {pageCount fuel : Nat} : ∀ {start : Nat},
    arenaPageCount < start + fuel → freeRunFrom used pageCount fuel start = none →
    ∀ s', start ≤ s' → ¬ FreeRun used arenaPageCount pageCount s' := by
  induction fuel with
  | zero =>
    intro start hfuel _ s' hs' hrun
    have := hrun.1
    omega
  | succ fuel ih =>
    intro start hfuel h s' hs' hrun
    simp only [freeRunFrom] at h
    split at h
    · have := hrun.1
      omega
    · split at h
      · rename_i i hused
        obtain ⟨_, hi, hu⟩ := usedIn_some hused
        exact ih (by omega) h s' (hrun.behind hs' (by omega) hu) hrun
      · cases h

/-! ## The call -/

theorem alignUp_eq (h : bytes ≤ arenaSize) :
    alignUp bytes pageSize = pagesFor bytes * pageSize := by
  simp only [arenaSize, slotMaxSize] at h
  have hpow : ¬ (pageSize = 0 ∨ pageSize &&& (pageSize - 1) ≠ 0) := by decide
  have hroom : ¬ 0xFFFFFFFF - (pageSize - 1) < bytes := by simp [pageSize]; omega
  simp [alignUp, hpow, hroom, pagesFor]

theorem alignUp_accepted :
    ¬ (alignUp bytes pageSize = 0 ∨ arenaSize < alignUp bytes pageSize) ↔
      bytes ≠ 0 ∧ bytes ≤ arenaSize := by
  have hpow : ¬ (pageSize = 0 ∨ pageSize &&& (pageSize - 1) ≠ 0) := by decide
  by_cases hover : 0xFFFFFFFF - (pageSize - 1) < bytes
  · have hlarge : ¬ bytes ≤ arenaSize := by
      simp only [arenaSize, slotMaxSize, pageSize] at *
      omega
    simp [alignUp, hpow, hover, hlarge]
  · simp only [alignUp, if_neg hpow, if_neg hover]
    simp only [arenaSize, slotMaxSize, pageSize] at *
    omega

theorem pagesFor_accepted (h0 : bytes ≠ 0) (h : bytes ≤ arenaSize) :
    ¬ (pagesFor bytes = 0 ∨ arenaPageCount < pagesFor bytes) := by
  simp only [arenaPageCount, pagesFor, arenaSize, slotMaxSize, pageSize] at *
  omega

theorem allocatePhysBase_cases (m : Machine) (slotBytes : Nat) :
    ((slotBytes = 0 ∨ arenaSize < slotBytes) ∧
      allocatePhysBase m slotBytes = (reapTerminatedTasks m, none)) ∨
    (slotBytes ≠ 0 ∧ slotBytes ≤ arenaSize ∧ allocatePhysBase m slotBytes =
      match freeRunFrom (reapTerminatedTasks m).pageUsed (pagesFor slotBytes)
        (arenaPageCount + 1) 0 with
      | none => (reapTerminatedTasks m, none)
      | some start =>
        ({ reapTerminatedTasks m with
            pageUsed := markPages (reapTerminatedTasks m).pageUsed start (pagesFor slotBytes) true },
          some (arenaPhysBase + start * pageSize))) := by
  by_cases hreq : slotBytes ≠ 0 ∧ slotBytes ≤ arenaSize
  · right
    have hbytes := alignUp_accepted.mpr hreq
    have hdiv : alignUp slotBytes pageSize / pageSize = pagesFor slotBytes := by
      rw [alignUp_eq hreq.2]
      exact Nat.mul_div_cancel _ (by decide)
    have hpages := pagesFor_accepted hreq.1 hreq.2
    rw [← hdiv] at hpages ⊢
    exact ⟨hreq.1, hreq.2, (if_neg hbytes).trans (if_neg hpages)⟩
  · left
    have hbytes : alignUp slotBytes pageSize = 0 ∨ arenaSize < alignUp slotBytes pageSize :=
      Decidable.byContradiction fun h => hreq (alignUp_accepted.mp h)
    refine ⟨by omega, ?_⟩
    simp only [allocatePhysBase, allocatePages, if_pos hbytes]

theorem markPages_undo {start count : Nat}
    (hfree : ∀ p, InRun (start, count) p → used p = false) :
    markPages (markPages used start count true) start count false = used := by
  funext p
  by_cases hp : start ≤ p ∧ p < start + count
  · simp [markPages, hp, hfree p hp]
  · simp [markPages, hp]

theorem releasePhysRange_first_fit {bytes start : Nat} (h0 : bytes ≠ 0) (h : bytes ≤ arenaSize)
    (hfit : start + pagesFor bytes ≤ arenaPageCount) (used : Nat → Bool) :
    releasePhysRange used (arenaPhysBase + start * pageSize) bytes =
      markPages used start (pagesFor bytes) false := by
  have hpages := pagesFor_accepted h0 h
  have hpos : pagesFor bytes * pageSize ≠ 0 := by
    have : 0 < pageSize := by decide
    exact Nat.mul_ne_zero (by omega) (by omega)
  have hfirst : (arenaPhysBase + start * pageSize - arenaPhysBase) / pageSize = start := by
    rw [Nat.add_sub_cancel_left, Nat.mul_div_cancel _ (by decide)]
  have hdiv : pagesFor bytes * pageSize / pageSize = pagesFor bytes :=
    Nat.mul_div_cancel _ (by decide)
  have hrange : ¬ (arenaPhysBase + start * pageSize < arenaPhysBase ∨
      arenaPhysBase + arenaSize ≤ arenaPhysBase + start * pageSize ∨ bytes = 0) := by
    simp only [arenaPageCount, arenaSize, slotMaxSize, pageSize, arenaPhysBase] at *
    omega
  have haligned : ¬ (pagesFor bytes * pageSize = 0 ∨
      (arenaPhysBase + start * pageSize) % pageSize ≠ 0) := by
    simp only [arenaPhysBase, pageSize] at *
    omega
  have hinside : ¬ (arenaPageCount ≤ start ∨ arenaPageCount - start < pagesFor bytes) := by omega
  simp only [releasePhysRange, if_neg hrange, alignUp_eq h, if_neg haligned, hfirst, hdiv,
    if_neg hinside]

/-- `shell_apps_allocate_phys_base` takes the lowest run of free pages that is long enough and marks
it, and refuses exactly the requests that are empty, larger than the arena, or find no run. Both are
about the map without the pages of the tasks that have ended, which the call gives back first.
`shell_apps_release_phys_range` undoes it. -/
theorem allocatePhysBase_first_fit (m : Machine) (slotBytes : Nat) :
    ((allocatePhysBase m slotBytes).2 = none ↔ slotBytes = 0 ∨ arenaSize < slotBytes ∨
      ∀ s, ¬ FreeRun (reapTerminatedTasks m).pageUsed arenaPageCount (pagesFor slotBytes) s) ∧
    ((allocatePhysBase m slotBytes).2 = none →
      (allocatePhysBase m slotBytes).1.pageUsed = (reapTerminatedTasks m).pageUsed) ∧
    ∀ physBase, (allocatePhysBase m slotBytes).2 = some physBase →
      ∃ s, physBase = arenaPhysBase + s * pageSize ∧
        FreeRun (reapTerminatedTasks m).pageUsed arenaPageCount (pagesFor slotBytes) s ∧
        (∀ s', FreeRun (reapTerminatedTasks m).pageUsed arenaPageCount (pagesFor slotBytes) s' →
          s ≤ s') ∧
        (∀ p, (allocatePhysBase m slotBytes).1.pageUsed p =
          if InRun (s, pagesFor slotBytes) p then true else (reapTerminatedTasks m).pageUsed p) ∧
        releasePhysRange (allocatePhysBase m slotBytes).1.pageUsed physBase slotBytes =
          (reapTerminatedTasks m).pageUsed := by
  obtain ⟨hbad, he⟩ | ⟨h0, hsize, he⟩ := allocatePhysBase_cases m slotBytes
  · rw [he]
    refine ⟨⟨fun _ => ?_, fun _ => rfl⟩, fun _ => rfl, fun physBase h => by cases h⟩
    obtain h | h := hbad
    · exact .inl h
    · exact .inr (.inl h)
  · cases hrun : freeRunFrom (reapTerminatedTasks m).pageUsed (pagesFor slotBytes)
        (arenaPageCount + 1) 0 with
    | none =>
      rw [he, hrun]
      refine ⟨⟨fun _ => .inr (.inr fun s => ?_), fun _ => rfl⟩, fun _ => rfl,
        fun physBase h => by cases h⟩
      exact freeRunFrom_none (by omega) hrun s (Nat.zero_le s)
    | some s =>
      have hfree : FreeRun (reapTerminatedTasks m).pageUsed arenaPageCount (pagesFor slotBytes) s :=
        freeRunFrom_some hrun
      rw [he, hrun]
      refine ⟨⟨fun h => (by cases h), fun h => ?_⟩, fun h => (by cases h), fun physBase h => ?_⟩
      · obtain h | h | h := h
        · exact absurd h h0
        · omega
        · exact absurd hfree (h s)
      · cases h
        refine ⟨s, rfl, hfree, fun s' hs' => freeRunFrom_least hrun s' (Nat.zero_le s') hs',
          fun p => rfl, ?_⟩
        rw [releasePhysRange_first_fit h0 hsize hfree.1]
        exact markPages_undo hfree.2

def endedRun : List Event := backgroundLaunch 60 ++ [.tick 70, .app (.exit 71)]

/-- A refused request changes the map all the same: the pages of the app that has ended are free. -/
theorem refused_request_reaps : ∃ m, run step (boot 50 1 0) endedRun = some m ∧
    (allocatePhysBase m 0).2 = none ∧ (allocatePhysBase m 0).1.pageUsed ≠ m.pageUsed := by
  have hrun : (run step (boot 50 1 0) endedRun).isSome := by decide
  have hpage : ∀ m ∈ run step (boot 50 1 0) endedRun, (allocatePhysBase m 0).2 = none ∧
      (allocatePhysBase m 0).1.pageUsed 0 = false ∧ m.pageUsed 0 = true := by decide
  obtain ⟨m, hm⟩ := Option.isSome_iff_exists.mp hrun
  obtain ⟨hnone, hfree, hmarked⟩ := hpage m hm
  refine ⟨m, hm, hnone, fun he => ?_⟩
  rw [he, hmarked] at hfree
  cases hfree

end Apps
end MiniDos
