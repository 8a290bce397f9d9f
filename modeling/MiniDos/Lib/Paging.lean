import Mathlib.Tactic.Ring
import Mathlib.Data.Nat.Bitwise

/-!
# MiniDos.Lib.Paging

Two levels of page tables as the machine reads them: 1024 words a table, 4096 bytes a page, 32-bit
addresses.

* `Mem`: a word of physical memory by its frame and its index there. A table fills a frame.
* `walk`: what an address is translated to. `Mapping.user`: a program may use it; both entries must
  allow that.
* `Backs`: an entry of a directory and the table behind it, as a map of pages with the same flags.
-/

namespace MiniDos
namespace Paging

variable {va : UInt32} {m : Mem}

abbrev Mem := Nat → Nat → UInt32

def presentBit : Nat := 0
def writableBit : Nat := 1
def userBit : Nat := 2

/-- What an address is translated to, and who may use it. -/
structure Mapping where
  phys : UInt32
  writable : Bool
  user : Bool
  deriving DecidableEq

/-- The translation through the directory in frame `pd`. -/
def walk (m : Mem) (pd : Nat) (va : UInt32) : Option Mapping :=
  let pde := (m pd (va.toNat / 2 ^ 22)).toNat
  let pte := (m (pde / 4096) (va.toNat / 4096 % 1024)).toNat
  if pde.testBit presentBit && pte.testBit presentBit then
    some
      { phys := UInt32.ofNat (pte / 4096 * 4096 + va.toNat % 4096)
        writable := pde.testBit writableBit && pte.testBit writableBit
        user := pde.testBit userBit && pte.testBit userBit }
  else none

/-! ## Entries -/

def entry (frame : Nat) (flags : UInt32) : UInt32 := UInt32.ofNat (frame * 4096) ||| flags

section Entry

variable {frame i : Nat} {flags : UInt32} (hflags : flags.toNat < 2 ^ 12)
include hflags

theorem toNat_entry : (entry frame flags).toNat = frame % 2 ^ 20 * 4096 + flags.toNat := by
  have hframe : (UInt32.ofNat (frame * 4096)).toNat = 2 ^ 12 * (frame % 2 ^ 20) := by
    rw [UInt32.toNat_ofNat']
    omega
  rw [entry, UInt32.toNat_or, hframe, ← Nat.two_pow_add_eq_or_of_lt hflags]
  omega

theorem entry_div : (entry frame flags).toNat / 4096 = frame % 2 ^ 20 := by
  rw [toNat_entry hflags]
  omega

theorem testBit_entry (hi : i < 12) :
    (entry frame flags).toNat.testBit i = flags.toNat.testBit i := by
  have h := Nat.testBit_two_pow_mul_add (frame % 2 ^ 20) hflags i
  rw [if_pos hi] at h
  rw [toNat_entry hflags, Nat.mul_comm]
  exact h

end Entry

/-! ## Walks -/

theorem walk_none {pd : Nat} (h : m pd (va.toNat / 2 ^ 22) = 0) :
    walk m pd va = none := by
  unfold walk
  rw [h]
  simp

theorem walk_none_of_table {pd pt : Nat} {flags : UInt32}
    (hflags : flags.toNat < 2 ^ 12) (hpt : pt < 2 ^ 20)
    (hpde : m pd (va.toNat / 2 ^ 22) = entry pt flags) (hpte : m pt (va.toNat / 4096 % 1024) = 0) :
    walk m pd va = none := by
  have hframe : (entry pt flags).toNat / 4096 = pt := by
    rw [entry_div hflags, Nat.mod_eq_of_lt hpt]
  simp only [walk, hpde, hframe, hpte]
  simp

theorem walk_congr {m m' : Mem} {pd pd' : Nat}
    (hpde : m' pd' (va.toNat / 2 ^ 22) = m pd (va.toNat / 2 ^ 22))
    (hpte : ∀ j, m' ((m pd (va.toNat / 2 ^ 22)).toNat / 4096) j =
      m ((m pd (va.toNat / 2 ^ 22)).toNat / 4096) j) : walk m' pd' va = walk m pd va := by
  simp only [walk, hpde, hpte]

theorem walk_user {pd : Nat} {x : Mapping}
    (h : (m pd (va.toNat / 2 ^ 22)).toNat.testBit userBit = false) (hx : walk m pd va = some x) :
    x.user = false := by
  simp only [walk, h, Bool.false_and] at hx
  split at hx
  case isTrue =>
    obtain rfl := Option.some.inj hx
    rfl
  case isFalse => cases hx

theorem walk_entry {pd pt frame : Nat} {flags : UInt32}
    (hflags : flags.toNat < 2 ^ 12) (hpresent : flags.toNat.testBit presentBit = true)
    (hpt : pt < 2 ^ 20) (hpde : m pd (va.toNat / 2 ^ 22) = entry pt flags)
    (hpte : m pt (va.toNat / 4096 % 1024) = entry frame flags) :
    walk m pd va = some ⟨UInt32.ofNat (frame * 4096 + va.toNat % 4096),
      flags.toNat.testBit writableBit, flags.toNat.testBit userBit⟩ := by
  have hframe : (entry pt flags).toNat / 4096 = pt := by
    rw [entry_div hflags, Nat.mod_eq_of_lt hpt]
  have hphys : UInt32.ofNat (frame % 2 ^ 20 * 4096 + va.toNat % 4096) =
      UInt32.ofNat (frame * 4096 + va.toNat % 4096) := by
    rw [← UInt32.toNat_inj, UInt32.toNat_ofNat', UInt32.toNat_ofNat']
    omega
  have hbit : ∀ f i, i < 12 → (entry f flags).toNat.testBit i = flags.toNat.testBit i :=
    fun f i hi => testBit_entry hflags hi
  simp only [walk, hpde, hframe, hpte, entry_div hflags, hphys, hbit _ _ (by decide : presentBit < 12),
    hbit _ _ (by decide : writableBit < 12), hbit _ _ (by decide : userBit < 12), hpresent,
    Bool.and_self, if_true]

/-- Entry `i` of the directory and the table behind it map the whole region of the entry to the
frames from `first` on. -/
def Backs (m : Mem) (pd i first : Nat) (flags : UInt32) : Prop :=
  ∃ pt, pt < 2 ^ 20 ∧ m pd i = entry pt flags ∧ ∀ j < 1024, m pt j = entry (first + j) flags

theorem Backs.walk_eq {pd first : Nat} {flags : UInt32}
    (h : Backs m pd (va.toNat / 2 ^ 22) first flags) (hflags : flags.toNat < 2 ^ 12)
    (hpresent : flags.toNat.testBit presentBit = true) :
    walk m pd va = some ⟨UInt32.ofNat ((first + va.toNat / 4096 % 1024) * 4096 + va.toNat % 4096),
      flags.toNat.testBit writableBit, flags.toNat.testBit userBit⟩ := by
  obtain ⟨pt, hpt, hpde, hpte⟩ := h
  exact walk_entry hflags hpresent hpt hpde (hpte _ (Nat.mod_lt _ (by decide)))

theorem Backs.walk_self {pd : Nat} {flags : UInt32}
    (h : Backs m pd (va.toNat / 2 ^ 22) (va.toNat / 2 ^ 22 * 1024) flags)
    (hflags : flags.toNat < 2 ^ 12) (hpresent : flags.toNat.testBit presentBit = true) :
    walk m pd va =
      some ⟨va, flags.toNat.testBit writableBit, flags.toNat.testBit userBit⟩ := by
  have hva : (va.toNat / 2 ^ 22 * 1024 + va.toNat / 4096 % 1024) * 4096 + va.toNat % 4096 =
      va.toNat := by omega
  rw [h.walk_eq hflags hpresent, hva, UInt32.ofNat_toNat]

/-! ## Stores -/

/-- A word is written. -/
def Mem.set (m : Mem) (frame i : Nat) (v : UInt32) : Mem :=
  fun f j => if f = frame ∧ j = i then v else m f j

/-- A loop that writes `n` words of a table. -/
def Mem.fill (frame : Nat) (g : Nat → UInt32) : Nat → Mem → Mem
  | 0, m => m
  | n + 1, m => (Mem.fill frame g n m).set frame n (g n)

theorem Mem.fill_apply (frame : Nat) (g : Nat → UInt32) (m : Mem) (n f j : Nat) :
    Mem.fill frame g n m f j = if f = frame ∧ j < n then g j else m f j := by
  induction n with
  | zero => simp [Mem.fill]
  | succ n ih =>
    simp only [Mem.fill, Mem.set, ih]
    by_cases hf : f = frame
    · by_cases hj : j = n
      · simp [hf, hj]
      · have hlt : j < n + 1 ↔ j < n := by omega
        simp [hf, hj, hlt]
    · simp [hf]

end Paging
end MiniDos
