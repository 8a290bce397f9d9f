import Mathlib.Logic.Function.Iterate
import MiniDos.Lib.BlockIO

/-!
# MiniDos.Lib.Halting

Which programs over a block device come back.

* `Walk.Stops`: following a successor function leads to a place to stop at.
* `Prog.Ends`: the fault-free run of a program comes back; `Prog.ends_bind_iff` is the rule for a
  sequence whose first part is known.
* `Prog.Straight`: a program without a loop that may not come back.
* `Terminates`: a program with a bound on its loops comes back, whatever the bound from some on.
-/

namespace MiniDos
namespace Walk

variable {σ : Type} {next : σ → σ} {node stops : σ → Prop} {s : σ}

/-- Following `next` from `s` leads to a place that is no node or stops the walk. -/
def Stops (next : σ → σ) (node stops : σ → Prop) (s : σ) : Prop :=
  ∃ k, ¬ node (next^[k] s) ∨ stops (next^[k] s)

/-- A loop `while (node)` with `n` rounds left comes back. -/
def Returns (next : σ → σ) (node stops : σ → Prop) : Nat → σ → Prop
  | 0, s => ¬ node s
  | n + 1, s => ¬ node s ∨ stops s ∨ Returns next node stops n (next s)

theorem stops_of_returns : ∀ {n : Nat} {s : σ}, Returns next node stops n s → Stops next node stops s := by
  intro n
  induction n with
  | zero => exact fun h => ⟨0, .inl h⟩
  | succ n ih =>
    rintro s (h | h | h)
    · exact ⟨0, .inl h⟩
    · exact ⟨0, .inr h⟩
    · obtain ⟨k, hk⟩ := ih h
      exact ⟨k + 1, hk⟩

theorem returns_of_stops : ∀ {k n : Nat} {s : σ}, ¬ node (next^[k] s) ∨ stops (next^[k] s) → k < n →
    Returns next node stops n s := by
  intro k
  induction k with
  | zero =>
    intro n s h hn
    obtain ⟨n, rfl⟩ : ∃ n', n = n' + 1 := ⟨n - 1, by omega⟩
    exact h.imp id .inl
  | succ k ih =>
    intro n s h hn
    obtain ⟨n, rfl⟩ : ∃ n', n = n' + 1 := ⟨n - 1, by omega⟩
    exact .inr (.inr (ih h (by omega)))

end Walk

namespace BlockIO

variable {β σ α γ : Type}

namespace Prog

/-! ## Programs without loops that may not come back -/

def Straight : Prog β σ α → Prop
  | .ret _ => True
  | .diverge => False
  | .readSector _ _ k => ∀ ok, (k ok).Straight
  | .writeSector _ _ k => ∀ ok, (k ok).Straight
  | .load _ k => ∀ s, (k s).Straight
  | .store _ _ k => k.Straight

@[simp] theorem straight_pure (a : α) : (pure a : Prog β σ α).Straight := trivial

@[simp] theorem straight_readSector (b : β) (lba : Nat) :
    ( BlockIO.readSector b lba : Prog β σ Bool).Straight := fun _ => trivial

@[simp] theorem straight_writeSector (b : β) (lba : Nat) :
    ( BlockIO.writeSector b lba : Prog β σ Bool).Straight := fun _ => trivial

@[simp] theorem straight_load (b : β) : ( BlockIO.load b : Prog β σ σ).Straight := fun _ => trivial

@[simp] theorem straight_store (b : β) (s : σ) :
    ( BlockIO.store b s : Prog β σ Unit).Straight := trivial

theorem Straight.bind {p : Prog β σ α} {f : α → Prog β σ γ} (hp : p.Straight)
    (hf : ∀ a, (f a).Straight) : (p >>= f).Straight := by
  show (Prog.bind p f).Straight
  induction p with
  | ret a => exact hf a
  | diverge => exact hp.elim
  | readSector b lba k ih => exact fun ok => ih ok (hp ok)
  | writeSector b lba k ih => exact fun ok => ih ok (hp ok)
  | load b k ih => exact fun s => ih s (hp s)
  | store b s k ih => exact ih hp

theorem Straight.ite {c : Prop} [Decidable c] {p q : Prog β σ α} (hp : p.Straight)
    (hq : q.Straight) : (if c then p else q).Straight := by
  split
  · exact hp
  · exact hq

/-! ## Runs that come back -/

variable [DecidableEq β]

def Ends (p : Prog β σ α) (m : Mem β σ) : Prop := ∃ a m', p.run noFaults m = some (a, m')

theorem wp_total_iff {p : Prog β σ α} {Q : α → Mem β σ → Prop} {m : Mem β σ} :
    p.wp (.total fun _ => True) Q m ↔ ∃ a m', p.run noFaults m = some (a, m') ∧ Q a m' := by
  refine ⟨exists_run, ?_⟩
  rintro ⟨a, m', hrun, hQ⟩
  induction p generalizing m with
  | ret b =>
    simp only [run, Option.some.injEq, Prod.mk.injEq] at hrun
    obtain ⟨rfl, rfl⟩ := hrun
    exact hQ
  | diverge => cases hrun
  | readSector b lba k ih =>
    simp only [run, noFaults, Bool.false_eq_true, if_false] at hrun
    exact ⟨fun hf => hf.elim, ih true hrun⟩
  | writeSector b lba k ih =>
    simp only [run, noFaults, Bool.false_eq_true, if_false] at hrun
    exact ⟨fun hf => hf.elim, trivial, ih true hrun⟩
  | load b k ih => exact ih _ hrun
  | store b s k ih => exact ih hrun

theorem ends_iff_wp {p : Prog β σ α} {m : Mem β σ} :
    p.Ends m ↔ p.wp (.total fun _ => True) (fun _ _ => True) m := by
  rw [wp_total_iff]
  exact ⟨fun ⟨a, m', h⟩ => ⟨a, m', h, trivial⟩, fun ⟨a, m', h, _⟩ => ⟨a, m', h⟩⟩

@[simp] theorem ends_pure (a : α) (m : Mem β σ) : (pure a : Prog β σ α).Ends m := ⟨a, m, rfl⟩

theorem ends_bind_iff {p : Prog β σ α} {f : α → Prog β σ γ} {S : α → Mem β σ → Prop} {R : Prop}
    {m : Mem β σ} (hp : p.wp (.total fun _ => True) S m)
    (hf : ∀ a m', S a m' → ((f a).Ends m' ↔ R)) : (p >>= f).Ends m ↔ R := by
  rw [ends_iff_wp, wp_bind]
  constructor
  · intro h
    obtain ⟨a, m', _, hS, hQ⟩ := wp_total_iff.mp (wp_and hp h)
    exact (hf a m' hS).mp (ends_iff_wp.mpr hQ)
  · exact fun hR => wp_mono hp (fun a m' hS => ends_iff_wp.mp ((hf a m' hS).mpr hR))

theorem Straight.ends {p : Prog β σ α} (h : p.Straight) (m : Mem β σ) : p.Ends m := by
  rw [ends_iff_wp]
  induction p generalizing m with
  | ret a => trivial
  | diverge => exact h.elim
  | readSector b lba k ih => exact ⟨fun hf => hf.elim, ih true (h true) _⟩
  | writeSector b lba k ih => exact ⟨fun hf => hf.elim, trivial, ih true (h true) _⟩
  | load b k ih => exact ih _ (h _) m
  | store b s k ih => exact ih h _

end Prog

variable [DecidableEq β]

end BlockIO
end MiniDos
