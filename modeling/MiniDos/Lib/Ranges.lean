/-!
# MiniDos.Lib.Ranges

A table of marks over the natural numbers that is meant to record which of them are held. A holder
has at most one run of consecutive numbers.

* `Accounts`: the marked numbers are those that some holder has, and no two holders share one.
* `Accounts.give`, `Accounts.take`, `Accounts.hand`: a holder gives its run back, takes a run of free
  numbers, hands its run to another.
* `FreeRun`: a run that may be taken; `FreeRun.behind`: a search may go on behind a marked number.
-/

namespace MiniDos
namespace Ranges

/-- `p` lies in the run of `r.2` numbers from `r.1` on. -/
def InRun (r : Nat × Nat) (p : Nat) : Prop := r.1 ≤ p ∧ p < r.1 + r.2

instance (r : Nat × Nat) (p : Nat) : Decidable (InRun r p) := inferInstanceAs (Decidable (_ ∧ _))

/-- A run of `n` unmarked numbers from `s` on, all of them below `limit`. -/
def FreeRun (used : Nat → Bool) (limit n s : Nat) : Prop :=
  s + n ≤ limit ∧ ∀ p, InRun (s, n) p → used p = false

theorem FreeRun.behind {used : Nat → Bool} {limit n s start i : Nat} (h : FreeRun used limit n s)
    (hs : start ≤ s) (hi : i < n) (hused : used (start + i) = true) : start + i + 1 ≤ s := by
  by_cases hle : s ≤ start + i
  · have hfree := h.2 (start + i) ⟨hle, show start + i < s + n by omega⟩
    rw [hused] at hfree
    cases hfree
  · omega

variable {ι : Type}

structure Accounts (used : Nat → Bool) (held : ι → Option (Nat × Nat)) : Prop where
  marked : ∀ p, used p = true ↔ ∃ i r, held i = some r ∧ InRun r p
  disjoint : ∀ i j r r' p, held i = some r → held j = some r' → InRun r p → InRun r' p → i = j

namespace Accounts

variable {used used' : Nat → Bool} {held held' : ι → Option (Nat × Nat)}

theorem congr (h : Accounts used held) (hused : used' = used) (hheld : ∀ i, held' i = held i) :
    Accounts used' held' := by
  have : held' = held := funext hheld
  rw [hused, this]
  exact h

theorem give (h : Accounts used held) {i : ι} {r : Nat × Nat} (hi : held i = some r)
    (hused : ∀ p, used' p = if InRun r p then false else used p) (hnone : held' i = none)
    (hheld : ∀ j, j ≠ i → held' j = held j) : Accounts used' held' where
  marked p := by
    rw [hused]
    by_cases hp : InRun r p
    · rw [if_pos hp]
      refine ⟨fun e => (by cases e), fun ⟨j, r', hj, hp'⟩ => ?_⟩
      by_cases hji : j = i
      · rw [hji, hnone] at hj
        cases hj
      · rw [hheld j hji] at hj
        exact absurd (h.disjoint j i r' r p hj hi hp' hp) hji
    · rw [if_neg hp, h.marked]
      constructor
      · rintro ⟨j, r', hj, hp'⟩
        have hji : j ≠ i := by
          rintro rfl
          rw [hi] at hj
          cases hj
          exact hp hp'
        exact ⟨j, r', by rw [hheld j hji, hj], hp'⟩
      · rintro ⟨j, r', hj, hp'⟩
        have hji : j ≠ i := by
          rintro rfl
          rw [hnone] at hj
          cases hj
        exact ⟨j, r', by rw [← hheld j hji, hj], hp'⟩
  disjoint j k r' r'' p hj hk := by
    have hne : ∀ {l r}, held' l = some r → l ≠ i := by
      rintro l r hl rfl
      rw [hnone] at hl
      cases hl
    rw [hheld j (hne hj)] at hj
    rw [hheld k (hne hk)] at hk
    exact h.disjoint j k r' r'' p hj hk

theorem take (h : Accounts used held) {i : ι} {r : Nat × Nat} (hi : held i = none)
    (hfree : ∀ p, InRun r p → used p = false)
    (hused : ∀ p, used' p = if InRun r p then true else used p) (hsome : held' i = some r)
    (hheld : ∀ j, j ≠ i → held' j = held j) : Accounts used' held' := by
  -- nobody else has a number of the run
  have hother : ∀ {j r' p}, held j = some r' → InRun r' p → ¬ InRun r p := by
    intro j r' p hj hp' hp
    have := (h.marked p).mpr ⟨j, r', hj, hp'⟩
    rw [hfree p hp] at this
    cases this
  refine ⟨fun p => ?_, fun j k r' r'' p hj hk hp hp' => ?_⟩
  · rw [hused]
    by_cases hp : InRun r p
    · rw [if_pos hp]
      exact ⟨fun _ => ⟨i, r, hsome, hp⟩, fun _ => rfl⟩
    · rw [if_neg hp, h.marked]
      constructor
      · rintro ⟨j, r', hj, hp'⟩
        have hji : j ≠ i := by
          rintro rfl
          rw [hi] at hj
          cases hj
        exact ⟨j, r', by rw [hheld j hji, hj], hp'⟩
      · rintro ⟨j, r', hj, hp'⟩
        by_cases hji : j = i
        · rw [hji, hsome] at hj
          cases hj
          exact absurd hp' hp
        · exact ⟨j, r', by rw [← hheld j hji, hj], hp'⟩
  · by_cases hji : j = i
    · by_cases hki : k = i
      · rw [hji, hki]
      · rw [hji, hsome] at hj
        cases hj
        rw [hheld k hki] at hk
        exact absurd hp (hother hk hp')
    · rw [hheld j hji] at hj
      by_cases hki : k = i
      · rw [hki, hsome] at hk
        cases hk
        exact absurd hp' (hother hj hp)
      · rw [hheld k hki] at hk
        exact h.disjoint j k r' r'' p hj hk hp hp'

theorem hand [DecidableEq ι] (h : Accounts used held) {i j : ι} {r : Nat × Nat} (hij : i ≠ j) (hi : held i = some r)
    (hj : held j = none) (hnone : held' i = none) (hsome : held' j = some r)
    (hheld : ∀ k, k ≠ i → k ≠ j → held' k = held k) : Accounts used held' := by
  have hmid : Accounts (fun p => if InRun r p then false else used p)
      (fun k => if k = i then none else held k) :=
    h.give hi (fun _ => rfl) (if_pos rfl) (fun k hk => if_neg hk)
  refine hmid.take (i := j) (r := r) (by rw [if_neg (fun e => hij e.symm)]; exact hj)
    (fun p hp => if_pos hp) (fun p => ?_) hsome (fun k hk => ?_)
  · by_cases hp : InRun r p
    · rw [if_pos hp]
      exact (h.marked p).mpr ⟨i, r, hi, hp⟩
    · rw [if_neg hp, if_neg hp]
  · by_cases hki : k = i
    · rw [if_pos hki, hki, hnone]
    · rw [if_neg hki, hheld k hki hk]

end Accounts
end Ranges
end MiniDos
