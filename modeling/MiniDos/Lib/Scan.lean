/-!
# MiniDos.Lib.Scan

The search for the first index of a table that passes a test, upwards from a given one.

* `firstFrom_some`, `firstFrom_none`: the two outcomes.
* `firstFrom_eq_iff`: when the searches of two tests agree.
* `runs_sound`, `runs_complete`: the stretches of indices that pass.
* `foldl_range_some`, `foldl_range_none`: what a loop over all indices has noted last.
-/

namespace MiniDos
namespace Scan

/-- The first of the `n` indices from `i` on that passes `p`. -/
def firstFrom (p : Nat → Bool) : Nat → Nat → Option Nat
  | 0, _ => none
  | n + 1, i => if p i then some i else firstFrom p n (i + 1)

variable {p q : Nat → Bool}

theorem firstFrom_some {n : Nat} : ∀ {i k : Nat}, firstFrom p n i = some k →
    i ≤ k ∧ k < i + n ∧ p k = true ∧ ∀ j, i ≤ j → j < k → p j = false := by
  induction n with
  | zero =>
    intro i k h
    cases h
  | succ n ih =>
    intro i k h
    simp only [firstFrom] at h
    split at h
    case isTrue hp =>
      cases h
      exact ⟨Nat.le_refl _, by omega, hp, fun j h1 h2 => absurd h2 (by omega)⟩
    case isFalse hp =>
      obtain ⟨h1, h2, h3, h4⟩ := ih h
      refine ⟨by omega, by omega, h3, fun j hij hjk => ?_⟩
      by_cases hji : j = i
      · rw [hji]
        exact Bool.eq_false_iff.mpr hp
      · exact h4 j (by omega) hjk

theorem firstFrom_none {n : Nat} : ∀ {i : Nat}, firstFrom p n i = none →
    ∀ j, i ≤ j → j < i + n → p j = false := by
  induction n with
  | zero => exact fun _ j h1 h2 => absurd h2 (by omega)
  | succ n ih =>
    intro i h j hij hjn
    simp only [firstFrom] at h
    split at h
    case isTrue hp => cases h
    case isFalse hp =>
      by_cases hji : j = i
      · rw [hji]
        exact Bool.eq_false_iff.mpr hp
      · exact ih h j (by omega) (by omega)

/-- Where the two tests differ, a lower index passes both. -/
theorem firstFrom_eq_iff {n i : Nat} : firstFrom p n i = firstFrom q n i ↔
    ∀ k, i ≤ k → k < i + n → p k ≠ q k → ∃ j, i ≤ j ∧ j < k ∧ p j = true ∧ q j = true := by
  constructor
  · intro h k hik hkn hne
    cases hp : firstFrom p n i with
    | none =>
      have hpk := firstFrom_none hp k hik hkn
      have hqk := firstFrom_none (h ▸ hp) k hik hkn
      exact absurd (hpk.trans hqk.symm) hne
    | some a =>
      obtain ⟨hia, _, hpa, hplow⟩ := firstFrom_some hp
      obtain ⟨_, _, hqa, hqlow⟩ := firstFrom_some (h ▸ hp)
      refine ⟨a, hia, ?_, hpa, hqa⟩
      rcases Nat.lt_trichotomy k a with hlt | heq | hgt
      · exact absurd ((hplow k hik hlt).trans (hqlow k hik hlt).symm) hne
      · exact absurd (heq ▸ hpa.trans hqa.symm) hne
      · exact hgt
  · induction n generalizing i with
    | zero => intro _; rfl
    | succ n ih =>
      intro h
      simp only [firstFrom]
      by_cases heq : p i = q i
      · rw [← heq]
        cases hp : p i with
        | true => rfl
        | false =>
          refine ih fun k hik hkn hne => ?_
          obtain ⟨j, hij, hjk, hpj, hqj⟩ := h k (by omega) (by omega) hne
          -- the index left behind passes neither test
          have hji : j ≠ i := fun e => by simp [e, hp] at hpj
          exact ⟨j, by omega, hjk, hpj, hqj⟩
      · obtain ⟨j, h1, h2, _⟩ := h i (Nat.le_refl _) (by omega) heq
        omega

section Runs

/-- The stretches of indices below `n` that pass `p`, from `i` on: first index, and end. -/
def runs (p : Nat → Bool) (n : Nat) : Nat → Nat → List (Nat × Nat)
  | 0, _ => []
  | fuel + 1, i =>
    match firstFrom p (n - i) i with
    | none => []
    | some start =>
      let stop := (firstFrom (fun k => !p k) (n - start) start).getD n
      (start, stop) :: runs p n fuel stop

theorem run_stop {n start : Nat} (hstart : start < n) (hp : p start = true) :
    start < (firstFrom (fun k => !p k) (n - start) start).getD n ∧
      (firstFrom (fun k => !p k) (n - start) start).getD n ≤ n ∧
      ∀ k, start ≤ k → k < (firstFrom (fun k => !p k) (n - start) start).getD n → p k = true := by
  cases hstop : firstFrom (fun k => !p k) (n - start) start with
  | none =>
    have hall := firstFrom_none hstop
    refine ⟨hstart, Nat.le_refl n, fun k hk hkn => ?_⟩
    simpa using hall k hk (by rw [Option.getD_none] at hkn; omega)
  | some stop =>
    obtain ⟨hle, hlt, hfails, hbelow⟩ := firstFrom_some hstop
    rw [Option.getD_some]
    refine ⟨?_, by omega, fun k hk hks => by simpa using hbelow k hk hks⟩
    rcases Nat.lt_or_eq_of_le hle with hlt' | rfl
    · exact hlt'
    · simp [hp] at hfails

theorem runs_sound {n : Nat} : ∀ (fuel i : Nat), ∀ r ∈ runs p n fuel i,
    i ≤ r.1 ∧ r.1 < r.2 ∧ r.2 ≤ n ∧ ∀ k, r.1 ≤ k → k < r.2 → p k = true := by
  intro fuel
  induction fuel with
  | zero =>
    intro i r hr
    cases hr
  | succ fuel ih =>
    intro i r hr
    rw [runs] at hr
    cases hfirst : firstFrom p (n - i) i with
    | none =>
      rw [hfirst] at hr
      cases hr
    | some start =>
      obtain ⟨hle, hlt, hp, _⟩ := firstFrom_some hfirst
      obtain ⟨hstop, hn, hall⟩ := run_stop (n := n) (by omega) hp
      rw [hfirst] at hr
      rcases List.mem_cons.mp hr with rfl | hr
      · exact ⟨hle, hstop, hn, hall⟩
      · obtain ⟨hlow, hrest⟩ := ih _ r hr
        exact ⟨by omega, hrest⟩

theorem runs_complete {n : Nat} : ∀ (fuel i : Nat), n ≤ i + fuel → ∀ k, i ≤ k → k < n → p k = true →
    ∃ r ∈ runs p n fuel i, r.1 ≤ k ∧ k < r.2 := by
  intro fuel
  induction fuel with
  | zero => exact fun i hfuel k hik hkn => absurd hkn (by omega)
  | succ fuel ih =>
    intro i hfuel k hik hkn hk
    rw [runs]
    cases hfirst : firstFrom p (n - i) i with
    | none =>
      have hfails := firstFrom_none hfirst k hik (by omega)
      rw [hk] at hfails
      cases hfails
    | some start =>
      obtain ⟨hle, hlt, hp, hbelow⟩ := firstFrom_some hfirst
      obtain ⟨hstop, hn, _⟩ := run_stop (n := n) (by omega) hp
      have hstart : start ≤ k := by
        refine Nat.le_of_not_lt (fun hno => ?_)
        have hfails := hbelow k hik hno
        rw [hk] at hfails
        cases hfails
      dsimp only
      by_cases hin : k < (firstFrom (fun k => !p k) (n - start) start).getD n
      · exact ⟨_, List.mem_cons_self, hstart, hin⟩
      · obtain ⟨r, hr, hkr⟩ := ih _ (by omega) k (Nat.not_lt.mp hin) hkn hk
        exact ⟨r, List.mem_cons_of_mem _ hr, hkr⟩

end Runs

section Last

variable {p : Nat → Prop} [DecidablePred p] {n k : Nat}

theorem foldl_range_some :
    (List.range n).foldl (fun last i => if p i then some i else last) none = some k ↔
      k < n ∧ p k ∧ ∀ j, k < j → j < n → ¬ p j := by
  induction n with
  | zero => simp
  | succ n ih =>
    rw [List.range_succ, List.foldl_append, List.foldl_cons, List.foldl_nil]
    split
    · rename_i hn
      constructor
      · intro h
        cases h
        exact ⟨Nat.lt_succ_self _, hn, fun j h1 h2 => by omega⟩
      · rintro ⟨hk, _, hlater⟩
        rcases Nat.lt_or_ge k n with hlt | hge
        · exact absurd hn (hlater n hlt (Nat.lt_succ_self n))
        · rw [Nat.le_antisymm hge (Nat.le_of_lt_succ hk)]
    · rename_i hn
      rw [ih]
      constructor
      · rintro ⟨hk, hpk, hlater⟩
        refine ⟨Nat.lt_succ_of_lt hk, hpk, ?_⟩
        intro j h1 h2
        by_cases hj : j = n
        · exact hj ▸ hn
        · exact hlater j h1 (by omega)
      · rintro ⟨hk, hpk, hlater⟩
        have hne : k ≠ n := fun e => hn (e ▸ hpk)
        exact ⟨by omega, hpk, fun j h1 h2 => hlater j h1 (Nat.lt_succ_of_lt h2)⟩

theorem foldl_range_none :
    (List.range n).foldl (fun last i => if p i then some i else last) none = none ↔
      ∀ j < n, ¬ p j := by
  induction n with
  | zero => simp
  | succ n ih =>
    rw [List.range_succ, List.foldl_append, List.foldl_cons, List.foldl_nil]
    split
    · rename_i hn
      simp only [reduceCtorEq, false_iff]
      exact fun h => h n (Nat.lt_succ_self n) hn
    · rename_i hn
      rw [ih]
      constructor
      · intro h j hj
        by_cases hjn : j = n
        · exact hjn ▸ hn
        · exact h j (by omega)
      · exact fun h j hj => h j (Nat.lt_succ_of_lt hj)

end Last

end Scan
end MiniDos
