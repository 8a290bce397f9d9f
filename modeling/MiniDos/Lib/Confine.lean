import MiniDos.Lib.BlockIO

/-!
# MiniDos.Lib.Confine

Where a program writes, whatever it reads and whichever accesses fail.

* `Prog.targets`: the sectors that the write accesses of a run address, those that fail included.
* `Prog.Confined`: the write accesses of all runs stay within a set of sectors, and a property of
  the result, so that a sector computed from an earlier result can be bounded.
* `Confined.targets`, `Confined.run`: no run addresses, or changes, any other sector.
-/

namespace MiniDos
namespace BlockIO

variable {β σ α γ : Type}
variable {fails : Nat → Bool}

namespace Prog

/-- The sectors addressed by the write accesses of the run, in order. -/
def targets [DecidableEq β] (fails : Nat → Bool) : Prog β σ α → Mem β σ → List Nat
  | .ret _, _ => []
  | .diverge, _ => []
  | .readSector b lba k, m =>
    if fails m.accesses then (k false).targets fails m.tick
    else (k true).targets fails (m.fetch b lba)
  | .writeSector b lba k, m =>
    lba :: if fails m.accesses then (k false).targets fails m.tick
      else (k true).targets fails (m.flush b lba)
  | .load b k, m => (k (m.buf b)).targets fails m
  | .store b s k, m => k.targets fails (m.setBuf b s)

/-- Every write goes to a sector of `S`, and `Q` holds of the result. -/
def Confined (S : Nat → Prop) : Prog β σ α → (α → Prop) → Prop
  | .ret a, Q => Q a
  | .diverge, _ => True
  | .readSector _ _ k, Q => ∀ ok, (k ok).Confined S Q
  | .writeSector _ lba k, Q => S lba ∧ ∀ ok, (k ok).Confined S Q
  | .load _ k, Q => ∀ s, (k s).Confined S Q
  | .store _ _ k, Q => k.Confined S Q

variable {S : Nat → Prop}

theorem confined_bind (p : Prog β σ α) (f : α → Prog β σ γ) (Q : γ → Prop) :
    (p >>= f).Confined S Q ↔ p.Confined S (fun a => (f a).Confined S Q) := by
  show (p.bind f).Confined S Q ↔ _
  induction p with
  | ret a => rfl
  | diverge => rfl
  | readSector b lba k ih => simp only [bind, Confined, ih]
  | writeSector b lba k ih => simp only [bind, Confined, ih]
  | load b k ih => simp only [bind, Confined, ih]
  | store b s k ih => simp only [bind, Confined, ih]

theorem Confined.mono {p : Prog β σ α} {S' : Nat → Prop} {Q Q' : α → Prop}
    (h : p.Confined S Q) (hS : ∀ lba, S lba → S' lba) (hQ : ∀ a, Q a → Q' a) :
    p.Confined S' Q' := by
  induction p with
  | ret a => exact hQ a h
  | diverge => trivial
  | readSector b lba k ih => exact fun ok => ih ok (h ok)
  | writeSector b lba k ih => exact ⟨hS _ h.1, fun ok => ih ok (h.2 ok)⟩
  | load b k ih => exact fun s => ih s (h s)
  | store b s k ih => exact ih h

theorem Confined.bind {p : Prog β σ α} {f : α → Prog β σ γ} {R : α → Prop} {Q : γ → Prop}
    (h : p.Confined S R) (hf : ∀ a, R a → (f a).Confined S Q) : (p >>= f).Confined S Q :=
  (confined_bind p f Q).mpr (h.mono (fun _ h => h) hf)

theorem Confined.ite {c : Prop} [Decidable c] {p q : Prog β σ α} {Q : α → Prop}
    (hp : c → p.Confined S Q) (hq : ¬ c → q.Confined S Q) :
    (if c then p else q).Confined S Q := by
  by_cases h : c
  · simpa [h] using hp h
  · simpa [h] using hq h

variable [DecidableEq β]

theorem Confined.targets {p : Prog β σ α} {Q : α → Prop} (h : p.Confined S Q)
    (fails : Nat → Bool) (m : Mem β σ) : ∀ lba ∈ p.targets fails m, S lba := by
  induction p generalizing m with
  | ret a => simp [Prog.targets]
  | diverge => simp [Prog.targets]
  | readSector b lba k ih =>
    simp only [Prog.targets]
    split
    · exact ih false (h false) _
    · exact ih true (h true) _
  | writeSector b lba k ih =>
    simp only [Prog.targets, List.forall_mem_cons]
    refine ⟨h.1, ?_⟩
    split
    · exact ih false (h.2 false) _
    · exact ih true (h.2 true) _
  | load b k ih => exact ih _ (h _) m
  | store b s k ih => exact ih h _

theorem Confined.run {p : Prog β σ α} {Q : α → Prop} (h : p.Confined S Q)
    {m m' : Mem β σ} {a : α} (hrun : p.run fails m = some (a, m')) :
    Q a ∧ ∀ lba, ¬ S lba → m'.disk lba = m.disk lba := by
  induction p generalizing m with
  | ret a =>
    cases hrun
    exact ⟨h, fun _ _ => rfl⟩
  | diverge => cases hrun
  | readSector b lba k ih =>
    simp only [Prog.run] at hrun
    split at hrun
    · simpa using ih false (h false) hrun
    · simpa using ih true (h true) hrun
  | writeSector b lba k ih =>
    simp only [Prog.run] at hrun
    split at hrun
    · simpa using ih false (h.2 false) hrun
    · obtain ⟨hq, hsame⟩ := ih true (h.2 true) hrun
      refine ⟨hq, fun n hn => (hsame n hn).trans ?_⟩
      rw [Mem.flush_disk, putSector_of_ne]
      rintro rfl
      exact hn h.1
  | load b k ih => exact ih _ (h _) hrun
  | store b s k ih => simpa using ih h hrun

theorem targets_bind_left (fails : Nat → Bool) (p : Prog β σ α) (f : α → Prog β σ γ)
    (m : Mem β σ) {lba : Nat} (h : lba ∈ p.targets fails m) : lba ∈ (p >>= f).targets fails m := by
  show lba ∈ (p.bind f).targets fails m
  induction p generalizing m with
  | ret a => simp [Prog.targets] at h
  | diverge => simp [Prog.targets] at h
  | readSector b l k ih =>
    simp only [Prog.targets, Prog.bind] at h ⊢
    split at h
    case isTrue hf => simpa [hf] using ih false _ h
    case isFalse hf => simpa [hf] using ih true _ h
  | writeSector b l k ih =>
    simp only [Prog.targets, Prog.bind, List.mem_cons] at h ⊢
    refine h.imp_right (fun h => ?_)
    split at h
    case isTrue hf => simpa [hf] using ih false _ h
    case isFalse hf => simpa [hf] using ih true _ h
  | load b k ih => exact ih _ m h
  | store b s k ih => exact ih _ h

theorem run_bind {p : Prog β σ α} {f : α → Prog β σ γ} {m m' : Mem β σ}
    {a : α} {r : Option (γ × Mem β σ)} (hrun : p.run fails m = some (a, m'))
    (h : (f a).run fails m' = r) : (p >>= f).run fails m = r := by
  show (p.bind f).run fails m = r
  induction p generalizing m with
  | ret a =>
    cases hrun
    exact h
  | diverge => cases hrun
  | readSector b l k ih =>
    simp only [Prog.run] at hrun
    simp only [Prog.run, Prog.bind]
    split at hrun
    case isTrue hf => simpa [hf] using ih false hrun
    case isFalse hf => simpa [hf] using ih true hrun
  | writeSector b l k ih =>
    simp only [Prog.run] at hrun
    simp only [Prog.run, Prog.bind]
    split at hrun
    case isTrue hf => simpa [hf] using ih false hrun
    case isFalse hf => simpa [hf] using ih true hrun
  | load b k ih => exact ih _ hrun
  | store b s k ih => exact ih hrun

theorem targets_bind_right {p : Prog β σ α} (f : α → Prog β σ γ)
    {m m' : Mem β σ} {a : α} (hrun : p.run fails m = some (a, m')) {lba : Nat}
    (h : lba ∈ (f a).targets fails m') : lba ∈ (p >>= f).targets fails m := by
  show lba ∈ (p.bind f).targets fails m
  induction p generalizing m with
  | ret a =>
    cases hrun
    exact h
  | diverge => cases hrun
  | readSector b l k ih =>
    simp only [Prog.run] at hrun
    simp only [Prog.targets, Prog.bind]
    split at hrun
    case isTrue hf => simpa [hf] using ih false hrun
    case isFalse hf => simpa [hf] using ih true hrun
  | writeSector b l k ih =>
    simp only [Prog.run] at hrun
    simp only [Prog.targets, Prog.bind, List.mem_cons]
    right
    split at hrun
    case isTrue hf => simpa [hf] using ih false hrun
    case isFalse hf => simpa [hf] using ih true hrun
  | load b k ih => exact ih _ hrun
  | store b s k ih => exact ih hrun

end Prog

/-! ## The steps -/

variable {S : Nat → Prop} {b : β} {lba : Nat} {s : σ}

@[simp] theorem confined_readSector {Q : Bool → Prop} :
    (readSector b lba : Prog β σ Bool).Confined S Q ↔ ∀ ok, Q ok := Iff.rfl

@[simp] theorem confined_writeSector {Q : Bool → Prop} :
    (writeSector b lba : Prog β σ Bool).Confined S Q ↔ S lba ∧ ∀ ok, Q ok := Iff.rfl

@[simp] theorem confined_load {Q : σ → Prop} :
    (load b : Prog β σ σ).Confined S Q ↔ ∀ s, Q s := Iff.rfl

@[simp] theorem confined_store {Q : Unit → Prop} :
    (store b s : Prog β σ Unit).Confined S Q ↔ Q () := Iff.rfl

@[simp] theorem confined_pure {a : α} {Q : α → Prop} :
    (pure a : Prog β σ α).Confined S Q ↔ Q a := Iff.rfl

@[simp] theorem confined_diverge {Q : α → Prop} :
    (diverge : Prog β σ α).Confined S Q ↔ True := Iff.rfl

end BlockIO
end MiniDos
