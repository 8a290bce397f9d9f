import Mathlib.Algebra.Order.Floor.Div

/-!
# MiniDos.Time.Timer

The tick rate of the timer and `timer_ms_to_ticks_ceil` (`timer.c`).

* `timerInit_hz`: the rates that there are.
* `ceil_split`: whole seconds and the rest may be rounded apart.
* `msToTicksCeil_exact`: the number of ticks, in 32 bits.
-/

namespace MiniDos
namespace Timer

def pitBaseHz : UInt32 := 1193182

/-- `g_timer_ticks`, `g_timer_hz` and `g_timer_ready`. -/
structure State where
  ticks : UInt32
  hz : UInt32
  ready : Bool

abbrev PortWrites := List (UInt16 × UInt8)

def pitCommandPort : UInt16 := 0x43
def pitChannel0Port : UInt16 := 0x40

def timerInit (hz : UInt32) : State × PortWrites :=
  let hz := if hz = 0 then 100 else hz
  let divisor := pitBaseHz / hz
  let divisor := if divisor = 0 then 1 else divisor
  let divisor := if 0xFFFF < divisor then 0xFFFF else divisor
  let actualHz := pitBaseHz / divisor
  let actualHz := if actualHz = 0 then 1 else actualHz
  (⟨0, actualHz, true⟩,
    [(pitCommandPort, 0x36), (pitChannel0Port, divisor.toUInt8),
      (pitChannel0Port, (divisor >>> 8).toUInt8)])

def secondTicks (s : State) (ms : UInt32) : UInt32 := ms / 1000 * s.hz
def remainderTicks (s : State) (ms : UInt32) : UInt32 := (ms % 1000 * s.hz + 999) / 1000

/-- The guards in front of the product and of the sum. -/
def ProductSaturates (s : State) (ms : UInt32) : Prop :=
  0 < ms / 1000 ∧ 0xFFFFFFFF / (ms / 1000) < s.hz

def SumSaturates (s : State) (ms : UInt32) : Prop :=
  0xFFFFFFFF - remainderTicks s ms < secondTicks s ms

instance (s : State) (ms : UInt32) : Decidable (ProductSaturates s ms) :=
  inferInstanceAs (Decidable (_ ∧ _))

instance (s : State) (ms : UInt32) : Decidable (SumSaturates s ms) :=
  inferInstanceAs (Decidable (_ < _))

def msToTicksCeil (s : State) (ms : UInt32) : UInt32 :=
  if ms = 0 then 0
  else if s.ready = false ∨ s.hz = 0 then 0
  else if ProductSaturates s ms then 0xFFFFFFFF
  else if SumSaturates s ms then 0xFFFFFFFF
  else
    let ticks := secondTicks s ms + remainderTicks s ms
    if ticks = 0 then 1 else ticks

/-- No product and no sum that is computed leaves 32 bits. -/
structure NoOverflow (s : State) (ms : UInt32) : Prop where
  remainder : (ms % 1000).toNat * s.hz.toNat + 999 < 2 ^ 32
  product : ¬ ProductSaturates s ms → (ms / 1000).toNat * s.hz.toNat < 2 ^ 32
  sum : ¬ ProductSaturates s ms → ¬ SumSaturates s ms →
    (secondTicks s ms).toNat + (remainderTicks s ms).toNat < 2 ^ 32

/-! ## The rates -/

theorem timerInit_hz (hz : UInt32) :
    (timerInit hz).1.ready = true ∧ 0 < (timerInit hz).1.hz.toNat ∧
      (timerInit hz).1.hz.toNat ≤ 1193182 := by
  have hrate : ∀ divisor : UInt32, 0 < (if pitBaseHz / divisor = 0 then 1
      else pitBaseHz / divisor).toNat ∧
      (if pitBaseHz / divisor = 0 then 1 else pitBaseHz / divisor).toNat ≤ 1193182 := by
    intro divisor
    split
    · decide
    · rename_i hne
      have hpos : (pitBaseHz / divisor).toNat ≠ 0 := fun h => hne (UInt32.toNat_inj.mp h)
      refine ⟨by omega, ?_⟩
      rw [UInt32.toNat_div]
      exact Nat.div_le_self _ _
  exact ⟨rfl, hrate _⟩

/-! ## Rounding -/

theorem ceil_split (ms hz : Nat) :
    ms * hz ⌈/⌉ 1000 = ms / 1000 * hz + (ms % 1000 * hz + 999) / 1000 := by
  have hsplit : ms * hz = 1000 * (ms / 1000 * hz) + ms % 1000 * hz := by
    calc ms * hz = (1000 * (ms / 1000) + ms % 1000) * hz := by rw [Nat.div_add_mod]
      _ = 1000 * (ms / 1000 * hz) + ms % 1000 * hz := by rw [Nat.add_mul, Nat.mul_assoc]
  rw [Nat.ceilDiv_eq_add_pred_div, hsplit]
  omega

theorem ceil_mono {ms ms' : Nat} (h : ms ≤ ms') (hz : Nat) :
    ms * hz ⌈/⌉ 1000 ≤ ms' * hz ⌈/⌉ 1000 := by
  rw [Nat.ceilDiv_eq_add_pred_div, Nat.ceilDiv_eq_add_pred_div]
  have := Nat.mul_le_mul_right hz h
  omega

section Bounded

variable {s : State} (hpos : 0 < s.hz.toNat) (hmax : s.hz.toNat ≤ 1193182) (ms : UInt32)
include hmax

theorem remainder_fits : (ms % 1000).toNat * s.hz.toNat + 999 < 2 ^ 32 := by
  have hrest : (ms % 1000).toNat ≤ 999 := by
    have h : (ms % 1000).toNat = ms.toNat % 1000 := UInt32.toNat_mod ms 1000
    omega
  have := Nat.mul_le_mul hrest hmax
  omega

theorem remainderTicks_toNat :
    (remainderTicks s ms).toNat = (ms.toNat % 1000 * s.hz.toNat + 999) / 1000 := by
  have hfits := remainder_fits hmax ms
  have hrest : (ms % 1000).toNat = ms.toNat % 1000 := UInt32.toNat_mod ms 1000
  rw [hrest] at hfits
  unfold remainderTicks
  rw [UInt32.toNat_div, UInt32.toNat_add, UInt32.toNat_mul, hrest]
  show ((ms.toNat % 1000 * s.hz.toNat) % 2 ^ 32 + 999) % 2 ^ 32 / 1000 = _
  rw [Nat.mod_eq_of_lt (by omega : ms.toNat % 1000 * s.hz.toNat < 2 ^ 32), Nat.mod_eq_of_lt hfits]

omit hmax in
theorem productSaturates_iff : ProductSaturates s ms ↔ 2 ^ 32 ≤ ms.toNat / 1000 * s.hz.toNat := by
  have hsec : (ms / 1000).toNat = ms.toNat / 1000 := UInt32.toNat_div ms 1000
  have hzero : (0 < ms / 1000) ↔ 0 < ms.toNat / 1000 := by
    rw [UInt32.lt_iff_toNat_lt, hsec]
    rfl
  unfold ProductSaturates
  rw [hzero, UInt32.lt_iff_toNat_lt, UInt32.toNat_div, hsec]
  show _ ∧ 4294967295 / (ms.toNat / 1000) < _ ↔ _
  constructor
  · rintro ⟨hsome, hlt⟩
    have := (Nat.div_lt_iff_lt_mul hsome).mp hlt
    rw [Nat.mul_comm] at this
    omega
  · intro hge
    have hsome : 0 < ms.toNat / 1000 := by
      by_contra hno
      rw [Nat.eq_zero_of_not_pos hno, Nat.zero_mul] at hge
      omega
    refine ⟨hsome, (Nat.div_lt_iff_lt_mul hsome).mpr ?_⟩
    rw [Nat.mul_comm]
    omega

omit hmax in
theorem secondTicks_toNat (h : ¬ ProductSaturates s ms) :
    (secondTicks s ms).toNat = ms.toNat / 1000 * s.hz.toNat := by
  rw [productSaturates_iff] at h
  unfold secondTicks
  rw [UInt32.toNat_mul, UInt32.toNat_div]
  exact Nat.mod_eq_of_lt (by show ms.toNat / 1000 * s.hz.toNat < _; omega)

theorem sumSaturates_iff (h : ¬ ProductSaturates s ms) :
    SumSaturates s ms ↔ 2 ^ 32 ≤ ms.toNat * s.hz.toNat ⌈/⌉ 1000 := by
  have hrest := (remainderTicks s ms).toNat_lt
  have hle : remainderTicks s ms ≤ 0xFFFFFFFF := by
    rw [UInt32.le_iff_toNat_le]
    show _ ≤ 4294967295
    omega
  unfold SumSaturates
  rw [UInt32.lt_iff_toNat_lt, UInt32.toNat_sub_of_le _ _ hle, secondTicks_toNat ms h, ceil_split,
    ← remainderTicks_toNat hmax]
  show 4294967295 - (remainderTicks s ms).toNat < _ ↔ _
  omega

theorem noOverflow : NoOverflow s ms := by
  refine ⟨remainder_fits hmax ms, fun h => ?_, fun h h' => ?_⟩
  · have hsec : (ms / 1000).toNat = ms.toNat / 1000 := UInt32.toNat_div ms 1000
    rw [productSaturates_iff] at h
    rw [hsec]
    omega
  · rw [sumSaturates_iff hmax ms h, ceil_split] at h'
    rw [secondTicks_toNat ms h, remainderTicks_toNat hmax]
    omega

include hpos in
theorem msToTicksCeil_toNat (hready : s.ready = true) :
    (msToTicksCeil s ms).toNat = min (ms.toNat * s.hz.toNat ⌈/⌉ 1000) (2 ^ 32 - 1) := by
  have hsplit := ceil_split ms.toNat s.hz.toNat
  unfold msToTicksCeil
  by_cases h0 : ms = 0
  · subst h0
    simp
  have hne : ms.toNat ≠ 0 := fun h => h0 (UInt32.toNat_inj.mp h)
  have hsome : 1 ≤ ms.toNat * s.hz.toNat := Nat.mul_pos (by omega) hpos
  have hhz : ¬ (s.ready = false ∨ s.hz = 0) := by
    rw [hready]
    rintro (h | h)
    · cases h
    · rw [h] at hpos
      exact absurd hpos (by decide)
  rw [if_neg h0, if_neg hhz]
  by_cases hp : ProductSaturates s ms
  · rw [if_pos hp]
    rw [productSaturates_iff] at hp
    show 4294967295 = _
    omega
  rw [if_neg hp]
  by_cases hs : SumSaturates s ms
  · rw [if_pos hs]
    rw [sumSaturates_iff hmax ms hp] at hs
    show 4294967295 = _
    omega
  rw [if_neg hs]
  rw [sumSaturates_iff hmax ms hp] at hs
  have hsum : (secondTicks s ms + remainderTicks s ms).toNat = ms.toNat * s.hz.toNat ⌈/⌉ 1000 := by
    rw [UInt32.toNat_add, secondTicks_toNat ms hp, remainderTicks_toNat hmax, ← hsplit]
    exact Nat.mod_eq_of_lt (by omega)
  have hceil : 1 ≤ ms.toNat * s.hz.toNat ⌈/⌉ 1000 := by
    rw [Nat.ceilDiv_eq_add_pred_div]
    omega
  dsimp only
  rw [if_neg (fun h => by rw [h] at hsum; exact absurd hsum (by simp; omega)), hsum]
  omega

end Bounded

/-- At every rate that the timer can be set to, the milliseconds are rounded up exactly, up to the
largest number of 32 bits. -/
theorem msToTicksCeil_exact (hz ms : UInt32) :
    (msToTicksCeil (timerInit hz).1 ms).toNat =
        min (ms.toNat * (timerInit hz).1.hz.toNat ⌈/⌉ 1000) (2 ^ 32 - 1) ∧
      NoOverflow (timerInit hz).1 ms ∧
      ∀ ms', ms ≤ ms' →
        msToTicksCeil (timerInit hz).1 ms ≤ msToTicksCeil (timerInit hz).1 ms' := by
  obtain ⟨hready, hpos, hmax⟩ := timerInit_hz hz
  refine ⟨msToTicksCeil_toNat hpos hmax ms hready, noOverflow hmax ms, fun ms' hle => ?_⟩
  rw [UInt32.le_iff_toNat_le] at hle ⊢
  rw [msToTicksCeil_toNat hpos hmax ms hready, msToTicksCeil_toNat hpos hmax ms' hready]
  exact min_le_min_right _ (ceil_mono hle _)

end Timer
end MiniDos
