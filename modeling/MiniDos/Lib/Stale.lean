import MiniDos.Lib.BlockIO

/-!
# MiniDos.Lib.Stale

The failing accesses of a run, by sector. A failed read leaves its buffer as it was; a program that
looks at the buffer afterwards takes stale content.

* `Prog.failedAt`, `Prog.takesStale`: what a run does in this respect.
* `Prog.wpAt`: weakest preconditions on a device that fails at certain sectors only.
* `Prog.Tells`: the program takes stale content exactly when the read of a sector outside a given
  set fails.
-/

namespace MiniDos
namespace BlockIO

variable {β σ α γ : Type} [DecidableEq β]

namespace Prog

/-- The sectors of the failing accesses of a run, in order. -/
def failedAt (fails : Nat → Bool) : Prog β σ α → Mem β σ → List Nat
  | .ret _, _ => []
  | .diverge, _ => []
  | .readSector b lba k, m =>
    if fails m.accesses then lba :: (k false).failedAt fails m.tick
    else (k true).failedAt fails (m.fetch b lba)
  | .writeSector b lba k, m =>
    if fails m.accesses then lba :: (k false).failedAt fails m.tick
    else (k true).failedAt fails (m.flush b lba)
  | .load b k, m => (k (m.buf b)).failedAt fails m
  | .store b s k, m => k.failedAt fails (m.setBuf b s)

/-- Some load of the run takes a buffer whose last read failed; `stale` tells of which buffers this
is so at the start. -/
def takesStale (fails : Nat → Bool) : Prog β σ α → Mem β σ → (β → Bool) → Bool
  | .ret _, _, _ => false
  | .diverge, _, _ => false
  | .readSector b lba k, m, stale =>
    if fails m.accesses then
      (k false).takesStale fails m.tick (fun b' => if b' = b then true else stale b')
    else (k true).takesStale fails (m.fetch b lba) (fun b' => if b' = b then false else stale b')
  | .writeSector b lba k, m, stale =>
    if fails m.accesses then (k false).takesStale fails m.tick stale
    else (k true).takesStale fails (m.flush b lba) stale
  | .load b k, m, stale => stale b || (k (m.buf b)).takesStale fails m stale
  | .store b s k, m, stale =>
    k.takesStale fails (m.setBuf b s) (fun b' => if b' = b then false else stale b')

section Steps

variable {fails : Nat → Bool} {m : Mem β σ} {stale : β → Bool} {b : β} {lba : Nat}

theorem takesStale_pure (a : α) : (pure a : Prog β σ α).takesStale fails m stale = false := rfl

theorem failedAt_pure (a : α) : (pure a : Prog β σ α).failedAt fails m = [] := rfl

theorem takesStale_readSector_bind {f : Bool → Prog β σ α} :
    ( BlockIO.readSector b lba >>= f).takesStale fails m stale = if fails m.accesses then
      (f false).takesStale fails m.tick (fun b' => if b' = b then true else stale b')
    else (f true).takesStale fails (m.fetch b lba) (fun b' => if b' = b then false else stale b') :=
  rfl

theorem failedAt_readSector_bind {f : Bool → Prog β σ α} :
    ( BlockIO.readSector b lba >>= f).failedAt fails m = if fails m.accesses then
      lba :: (f false).failedAt fails m.tick
    else (f true).failedAt fails (m.fetch b lba) := rfl

theorem takesStale_load_bind {f : σ → Prog β σ α} :
    ( BlockIO.load b >>= f).takesStale fails m stale =
      (stale b || (f (m.buf b)).takesStale fails m stale) := rfl

theorem failedAt_load_bind {f : σ → Prog β σ α} :
    ( BlockIO.load b >>= f).failedAt fails m = (f (m.buf b)).failedAt fails m := rfl

end Steps

theorem failedAt_noFaults (p : Prog β σ α) (m : Mem β σ) : p.failedAt noFaults m = [] := by
  induction p generalizing m with
  | ret a => rfl
  | diverge => rfl
  | readSector b lba k ih => exact ih true (m.fetch b lba)
  | writeSector b lba k ih => exact ih true (m.flush b lba)
  | load b k ih => exact ih _ m
  | store b s k ih => exact ih (m.setBuf b s)

/-! ### Preconditions by sector -/

/-- Accesses may fail at the sectors of `P` only; the program must come back. -/
def wpAt (P : Nat → Prop) : Prog β σ α → (α → Mem β σ → Prop) → Mem β σ → Prop
  | .ret a, Q, m => Q a m
  | .diverge, _, _ => False
  | .readSector b lba k, Q, m =>
    (P lba → (k false).wpAt P Q m.tick) ∧ (k true).wpAt P Q (m.fetch b lba)
  | .writeSector b lba k, Q, m =>
    (P lba → (k false).wpAt P Q m.tick) ∧ (k true).wpAt P Q (m.flush b lba)
  | .load b k, Q, m => (k (m.buf b)).wpAt P Q m
  | .store b s k, Q, m => k.wpAt P Q (m.setBuf b s)

variable {P : Nat → Prop} {Q Q' : α → Mem β σ → Prop} {m : Mem β σ} {fails : Nat → Bool}

theorem wpAt_bind (p : Prog β σ α) (f : α → Prog β σ γ) (Q : γ → Mem β σ → Prop) (m : Mem β σ) :
    (p >>= f).wpAt P Q m ↔ p.wpAt P (fun a m' => (f a).wpAt P Q m') m := by
  show (p.bind f).wpAt P Q m ↔ _
  induction p generalizing m with
  | ret a => rfl
  | diverge => rfl
  | readSector b lba k ih => simp only [bind, wpAt, ih]
  | writeSector b lba k ih => simp only [bind, wpAt, ih]
  | load b k ih => simp only [bind, wpAt, ih]
  | store b s k ih => simp only [bind, wpAt, ih]

theorem wpAt_mono {p : Prog β σ α} (h : p.wpAt P Q m) (hQ : ∀ a m', Q a m' → Q' a m') :
    p.wpAt P Q' m := by
  induction p generalizing m with
  | ret a => exact hQ _ _ h
  | diverge => exact h
  | readSector b lba k ih => exact ⟨fun hf => ih false (h.1 hf), ih true h.2⟩
  | writeSector b lba k ih => exact ⟨fun hf => ih false (h.1 hf), ih true h.2⟩
  | load b k ih => exact ih _ h
  | store b s k ih => exact ih h

theorem wpAt_of_wp {p : Prog β σ α} (h : p.wp ⟨fun _ => ∃ l, P l, False, fun _ => True⟩ Q m) :
    p.wpAt P Q m := by
  induction p generalizing m with
  | ret a => exact h
  | diverge => exact h
  | readSector b lba k ih => exact ⟨fun hf => ih false (h.1 ⟨lba, hf⟩), ih true h.2⟩
  | writeSector b lba k ih => exact ⟨fun hf => ih false (h.1 ⟨lba, hf⟩), ih true h.2.2⟩
  | load b k ih => exact ih _ h
  | store b s k ih => exact ih h

theorem wpAt_readSector {b : β} {lba : Nat} {Q : Bool → Mem β σ → Prop} :
    ( BlockIO.readSector b lba).wpAt P Q m ↔ (P lba → Q false m.tick) ∧ Q true (m.fetch b lba) :=
  Iff.rfl

theorem wpAt_load {b : β} {Q : σ → Mem β σ → Prop} :
    ( BlockIO.load b).wpAt P Q m ↔ Q (m.buf b) m := Iff.rfl

theorem run_of_wpAt {p : Prog β σ α} (h : p.wpAt P Q m) (hf : ∀ lba ∈ p.failedAt fails m, P lba) :
    ∃ a m', p.run fails m = some (a, m') ∧ Q a m' := by
  induction p generalizing m with
  | ret a => exact ⟨a, m, rfl, h⟩
  | diverge => exact h.elim
  | readSector b lba k ih =>
    by_cases hb : fails m.accesses = true
    · simp only [failedAt, hb, if_true, List.forall_mem_cons] at hf
      simp only [run, hb, if_true]
      exact ih false (h.1 hf.1) hf.2
    · simp only [failedAt, hb] at hf
      simp only [run, hb]
      exact ih true h.2 hf
  | writeSector b lba k ih =>
    by_cases hb : fails m.accesses = true
    · simp only [failedAt, hb, if_true, List.forall_mem_cons] at hf
      simp only [run, hb, if_true]
      exact ih false (h.1 hf.1) hf.2
    · simp only [failedAt, hb] at hf
      simp only [run, hb]
      exact ih true h.2 hf
  | load b k ih => exact ih _ h hf
  | store b s k ih => exact ih h hf

theorem run_of_wpAt_noFaults {p : Prog β σ α} (h : p.wpAt P Q m) :
    ∃ a m', p.run noFaults m = some (a, m') ∧ Q a m' :=
  run_of_wpAt h (fun lba hl => by rw [failedAt_noFaults] at hl; cases hl)

/-! ### Stale content -/

/-- From memory `m`, a failed access to a sector outside `F`, and no other, is followed by a look at
the buffer. -/
def Tells (F : Nat → Prop) (p : Prog β σ α) (m : Mem β σ) : Prop :=
  ∀ (fails : Nat → Bool) (stale : β → Bool),
    p.takesStale fails m stale = true ↔ ∃ lba ∈ p.failedAt fails m, ¬ F lba

variable {F : Nat → Prop}

theorem Tells.pure (a : α) : Tells F (pure a : Prog β σ α) m := by
  intro fails stale
  exact ⟨fun h => (nomatch h), fun ⟨_, h, _⟩ => (nomatch h)⟩

/-- What a sequence does is what its first part does, and then, if that comes back, its second. -/
theorem bind_split (fails : Nat → Bool) (p : Prog β σ α) (f : α → Prog β σ γ) (m : Mem β σ)
    (stale : β → Bool) :
    (∃ a m' stale', p.run fails m = some (a, m') ∧ (p.bind f).takesStale fails m stale =
        (p.takesStale fails m stale || (f a).takesStale fails m' stale') ∧
      (p.bind f).failedAt fails m = p.failedAt fails m ++ (f a).failedAt fails m') ∨
    ((p.bind f).takesStale fails m stale = p.takesStale fails m stale ∧
      (p.bind f).failedAt fails m = p.failedAt fails m) := by
  induction p generalizing m stale with
  | ret a => exact .inl ⟨a, m, stale, rfl, rfl, rfl⟩
  | diverge => exact .inr ⟨rfl, rfl⟩
  | readSector b lba k ih =>
    by_cases hb : fails m.accesses = true
    · simp only [bind, takesStale, failedAt, run, hb, if_true]
      rcases ih false m.tick (fun b' => if b' = b then true else stale b') with
        ⟨a, m', s', hr, hs, hf⟩ | ⟨hs, hf⟩
      · exact .inl ⟨a, m', s', hr, hs, by rw [hf, List.cons_append]⟩
      · exact .inr ⟨hs, by rw [hf]⟩
    · simp only [bind, takesStale, failedAt, run, hb]
      exact ih true (m.fetch b lba) (fun b' => if b' = b then false else stale b')
  | writeSector b lba k ih =>
    by_cases hb : fails m.accesses = true
    · simp only [bind, takesStale, failedAt, run, hb, if_true]
      rcases ih false m.tick stale with ⟨a, m', s', hr, hs, hf⟩ | ⟨hs, hf⟩
      · exact .inl ⟨a, m', s', hr, hs, by rw [hf, List.cons_append]⟩
      · exact .inr ⟨hs, by rw [hf]⟩
    · simp only [bind, takesStale, failedAt, run, hb]
      exact ih true (m.flush b lba) stale
  | load b k ih =>
    simp only [bind, takesStale, failedAt, run]
    rcases ih (m.buf b) m stale with ⟨a, m', s', hr, hs, hf⟩ | ⟨hs, hf⟩
    · exact .inl ⟨a, m', s', hr, by rw [hs, Bool.or_assoc], hf⟩
    · exact .inr ⟨by rw [hs], hf⟩
  | store b s k ih => exact ih (m.setBuf b s) (fun b' => if b' = b then false else stale b')

theorem Tells.bind {p : Prog β σ α} {f : α → Prog β σ γ} (hp : Tells F p m)
    (hf : p.wpAt F (fun a m' => Tells F (f a) m') m) : Tells F (p >>= f) m := by
  intro fails stale
  show (p.bind f).takesStale fails m stale = true ↔ ∃ lba ∈ (p.bind f).failedAt fails m, ¬ F lba
  rcases bind_split fails p f m stale with ⟨a, m', s', hrun, hs, hr⟩ | ⟨hs, hr⟩
  · rw [hs, hr, Bool.or_eq_true, hp fails stale]
    simp only [List.mem_append, or_and_right, exists_or]
    by_cases hout : ∃ lba ∈ p.failedAt fails m, ¬ F lba
    · exact iff_of_true (.inl hout) (.inl hout)
    · have hin : ∀ lba ∈ p.failedAt fails m, F lba :=
        fun lba h => Classical.not_not.mp (fun hn => hout ⟨lba, h, hn⟩)
      obtain ⟨b, m₂, hrun', hb⟩ := run_of_wpAt hf hin
      obtain ⟨rfl, rfl⟩ := Prod.mk.inj (Option.some.inj (hrun.symm.trans hrun'))
      rw [hb fails s']
  · rw [hs, hr]
    exact hp fails stale

theorem Tells.readLoad {b : β} {lba : Nat} (hl : ¬ F lba) {f : σ → Prog β σ γ}
    (hf : Tells F (f (m.disk lba)) (m.fetch b lba)) :
    Tells F (do let _ ← BlockIO.readSector b lba; let s ← BlockIO.load b; f s) m := by
  intro fails stale
  show (Prog.readSector b lba fun _ => .load b f).takesStale fails m stale = true ↔
    ∃ l ∈ (Prog.readSector b lba fun _ => .load b f).failedAt fails m, ¬ F l
  by_cases hb : fails m.accesses = true
  · simp only [takesStale, failedAt, hb, if_true, Bool.true_or]
    exact iff_of_true trivial ⟨lba, List.mem_cons_self, hl⟩
  · simp only [takesStale, failedAt, hb, if_true, Mem.fetch_buf]
    exact hf fails _

theorem Tells.read {b : β} {lba : Nat} (hl : F lba) {f : Bool → Prog β σ γ}
    (htrue : Tells F (f true) (m.fetch b lba)) (hfalse : Tells F (f false) m.tick) :
    Tells F (do let ok ← BlockIO.readSector b lba; f ok) m := by
  intro fails stale
  show (Prog.readSector b lba f).takesStale fails m stale = true ↔
    ∃ l ∈ (Prog.readSector b lba f).failedAt fails m, ¬ F l
  by_cases hb : fails m.accesses = true
  · simp only [takesStale, failedAt, hb, if_true, List.mem_cons]
    rw [hfalse fails _]
    refine ⟨fun ⟨l, h, hn⟩ => ⟨l, .inr h, hn⟩, fun ⟨l, h, hn⟩ => ⟨l, h.resolve_left ?_, hn⟩⟩
    rintro rfl
    exact hn hl
  · simp only [takesStale, failedAt, hb]
    exact htrue fails _

end Prog

end BlockIO
end MiniDos
