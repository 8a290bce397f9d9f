import Mathlib.Tactic.Ring
import Mathlib.Algebra.Order.Ring.Int
import Mathlib.Algebra.Order.Round
import Mathlib.Data.Rat.Floor
import Mathlib.Tactic.FieldSimp

/-!
# MiniDos.Lib.Ratio

A quotient that is carried along while its numerator grows by the same amount each step: the whole
part of the step is added, and one more when the fractions reach the divisor. A quotient that is
rounded to the nearest number by adding half of the divisor first. And a scale of `r` steps on one of
`u` steps, there and back.

* `Carried`: quotient and remainder are those of the numerator.
* `Carried.next`: one step.
* `rounded_div`: the rounding.
* `tdiv_eq_iff`, `scaled_back_iff`: the scales.
-/

namespace MiniDos
namespace Ratio

/-- `q` and `f` are quotient and remainder of `n` by `d`. -/
structure Carried (d n q f : Int) : Prop where
  value : q * d + f = n
  low : 0 ≤ f
  high : f < d

variable {d n q f : Int}

namespace Carried

theorem start (hd : 0 < d) (n : Int) : Carried d n (n / d) (n % d) :=
  ⟨by rw [Int.mul_comm]; exact Int.mul_ediv_add_emod n d, Int.emod_nonneg n (by omega),
    Int.emod_lt_of_pos n hd⟩

theorem divisor_pos (h : Carried d n q f) : 0 < d := lt_of_le_of_lt h.low h.high

theorem quotient (h : Carried d n q f) : n / d = q := by
  have hd := h.divisor_pos
  rw [← h.value, Int.add_comm, Int.add_mul_ediv_right _ _ (by omega),
    Int.ediv_eq_zero_of_lt h.low h.high, Int.zero_add]

theorem next (h : Carried d n q f) (w : Int) :
    (d ≤ f + w % d → Carried d (n + w) (q + w / d + 1) (f + w % d - d)) ∧
      (¬ d ≤ f + w % d → Carried d (n + w) (q + w / d) (f + w % d)) := by
  have hd := h.divisor_pos
  have hlow := Int.emod_nonneg w (show d ≠ 0 by omega)
  have hhigh := Int.emod_lt_of_pos w hd
  have hsplit : w / d * d + w % d = w := by rw [Int.mul_comm]; exact Int.mul_ediv_add_emod w d
  have hvalue := h.value
  have hf := h.high
  have hf0 := h.low
  refine ⟨fun hover => ⟨?_, by omega, by omega⟩, fun hunder => ⟨?_, by omega, by omega⟩⟩
  · rw [Int.add_mul, Int.add_mul]
    omega
  · rw [Int.add_mul]
    omega

theorem lt_of_lt_mul (h : Carried d n q f) {k : Int} (hn : n < k * d) : q < k := by
  rw [← h.quotient]
  exact Int.ediv_lt_of_lt_mul h.divisor_pos hn

end Carried

theorem rounded_div (a b : Nat) : (((a + b / 2) / b : Nat) : Int) = round ((a : Rat) / b) := by
  obtain rfl | hb := Nat.eq_zero_or_pos b
  · simp
  have hq : (b : Rat) ≠ 0 := by exact_mod_cast hb.ne'
  have hhalf : (a : Rat) / b + 1 / 2 = ((2 * a + b : Nat) : Rat) / ((2 * b : Nat) : Rat) := by
    push_cast
    field_simp
  have hnat : (2 * a + b) / (2 * b) = (a + b / 2) / b := by
    rw [← Nat.div_div_eq_div_mul, Nat.mul_add_div (by decide)]
  rw [round_eq, hhalf, Rat.floor_natCast_div_natCast, ← hnat, Int.natCast_ediv]

/-! ## Scales -/

section Scales

variable {a k r u : Int}

theorem tdiv_eq_iff (ha : 0 ≤ a) (hu : 0 < u) : a.tdiv u = k ↔ k * u ≤ a ∧ a < (k + 1) * u := by
  rw [Int.tdiv_eq_ediv_of_nonneg ha, Int.ediv_eq_iff_of_pos hu, Int.add_mul, Int.one_mul]

theorem tdiv_range (ha : 0 ≤ a) (hu : 0 < u) (hle : a ≤ k * u) : 0 ≤ a.tdiv u ∧ a.tdiv u ≤ k := by
  rw [Int.tdiv_eq_ediv_of_nonneg ha]
  exact ⟨Int.ediv_nonneg ha (Int.le_of_lt hu), Int.ediv_le_of_le_mul hu hle⟩

theorem scaled_back_iff (hk : 0 ≤ k) (hr : 0 < r) (hu : 0 < u) :
    ((k * u).tdiv r * r).tdiv u = k ↔ r ∣ k * u := by
  have hku : 0 ≤ k * u := Int.mul_nonneg hk (Int.le_of_lt hu)
  have hthere : 0 ≤ (k * u).tdiv r := Int.tdiv_nonneg hku (Int.le_of_lt hr)
  rw [tdiv_eq_iff (Int.mul_nonneg hthere (Int.le_of_lt hr)) hu, Int.tdiv_eq_ediv_of_nonneg hku]
  have hcut : k * u / r * r ≤ k * u := Int.ediv_mul_le _ (by omega)
  constructor
  · rintro ⟨hback, _⟩
    exact ⟨k * u / r, by rw [Int.mul_comm r]; omega⟩
  · intro hdvd
    rw [Int.ediv_mul_cancel hdvd]
    exact ⟨Int.le_refl _, by rw [Int.add_mul, Int.one_mul]; omega⟩

end Scales

end Ratio
end MiniDos
