/-!
# MiniDos.Lib.Real16

Registers of a 16-bit processor: their halves, the division of a double word, and addresses made of a
segment and an offset.

* `pair`: a register by its halves. `setLo`, `setHi`: a write to one of them keeps the other.
* `divWord`: the division traps where its quotient does not fit; `divWord_zero`: a word never does.
-/

namespace MiniDos
namespace Real16

/-! ## Halves -/

def lo (x : UInt16) : UInt8 := UInt8.ofNat x.toNat

def hi (x : UInt16) : UInt8 := UInt8.ofNat (x.toNat / 256)

def pair (h l : UInt8) : UInt16 := UInt16.ofNat (h.toNat * 256 + l.toNat)

def setLo (x : UInt16) (l : UInt8) : UInt16 := pair (hi x) l

def setHi (x : UInt16) (h : UInt8) : UInt16 := pair h (lo x)

theorem pair_toNat (h l : UInt8) : (pair h l).toNat = h.toNat * 256 + l.toNat := by
  have hh := h.toNat_lt
  have hl := l.toNat_lt
  rw [pair, UInt16.toNat_ofNat', Nat.mod_eq_of_lt (by omega)]

theorem lo_toNat (x : UInt16) : (lo x).toNat = x.toNat % 256 := UInt8.toNat_ofNat'

theorem hi_toNat (x : UInt16) : (hi x).toNat = x.toNat / 256 := by
  have hx := x.toNat_lt
  rw [hi, UInt8.toNat_ofNat', Nat.mod_eq_of_lt (by omega)]

@[simp] theorem lo_pair (h l : UInt8) : lo (pair h l) = l := by
  have hl := l.toNat_lt
  rw [← UInt8.toNat_inj, lo_toNat, pair_toNat]
  omega

@[simp] theorem hi_pair (h l : UInt8) : hi (pair h l) = h := by
  have hl := l.toNat_lt
  rw [← UInt8.toNat_inj, hi_toNat, pair_toNat]
  omega

@[simp] theorem lo_setLo (x : UInt16) (l : UInt8) : lo (setLo x l) = l := lo_pair _ l

@[simp] theorem hi_setLo (x : UInt16) (l : UInt8) : hi (setLo x l) = hi x := hi_pair _ l

@[simp] theorem lo_setHi (x : UInt16) (h : UInt8) : lo (setHi x h) = lo x := lo_pair h _

@[simp] theorem hi_setHi (x : UInt16) (h : UInt8) : hi (setHi x h) = h := hi_pair h _

@[simp] theorem setLo_pair (h l l' : UInt8) : setLo (pair h l) l' = pair h l' := by rw [setLo, hi_pair]

@[simp] theorem setHi_pair (h l h' : UInt8) : setHi (pair h l) h' = pair h' l := by rw [setHi, lo_pair]

/-! ## Division -/

/-- `div word m` of `dx:ax`: quotient and remainder, or a trap. -/
def divWord (dx ax m : UInt16) : Option (UInt16 × UInt16) :=
  let n := dx.toNat * 65536 + ax.toNat
  if m = 0 ∨ 65536 ≤ n / m.toNat then none
  else some (UInt16.ofNat (n / m.toNat), UInt16.ofNat (n % m.toNat))

theorem divWord_zero {m : UInt16} (hm : 0 < m.toNat) (ax : UInt16) :
    divWord 0 ax m = some (ax / m, ax % m) := by
  have hax := ax.toNat_lt
  have hdiv := Nat.div_le_self ax.toNat m.toNat
  have hmod := Nat.mod_le ax.toNat m.toNat
  have hne : m ≠ 0 := by
    intro h
    rw [h] at hm
    exact Nat.lt_irrefl 0 hm
  have hword : (0 : UInt16).toNat * 65536 + ax.toNat = ax.toNat := Nat.zero_add _
  unfold divWord
  rw [hword]
  dsimp only
  rw [if_neg (not_or.mpr ⟨hne, by omega⟩)]
  congr 2
  · rw [← UInt16.toNat_inj, UInt16.toNat_ofNat', UInt16.toNat_div, Nat.mod_eq_of_lt (by omega)]
  · rw [← UInt16.toNat_inj, UInt16.toNat_ofNat', UInt16.toNat_mod, Nat.mod_eq_of_lt (by omega)]

/-! ## Registers -/

structure Regs where
  ax : UInt16
  bx : UInt16
  cx : UInt16
  dx : UInt16
  si : UInt16
  di : UInt16
  deriving DecidableEq

/-- `div word m`. -/
def Regs.div (r : Regs) (m : UInt16) : Option Regs :=
  (divWord r.dx r.ax m).map (fun q => { r with ax := q.1, dx := q.2 })

theorem Regs.div_zero {m : UInt16} (hm : 0 < m.toNat) {r : Regs} (hdx : r.dx = 0) :
    r.div m = some { r with ax := r.ax / m, dx := r.ax % m } := by
  rw [Regs.div, hdx, divWord_zero hm]
  rfl

/-! ## Addresses -/

def linear (segment offset : UInt16) : Nat := segment.toNat * 16 + offset.toNat

end Real16
end MiniDos
