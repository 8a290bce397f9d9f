/-!
# MiniDos.Lib.BlockIO

Programs over a block device, as trees of primitive steps, and a program logic for them.

A program works on named buffers of one sector each. It reads a sector into a buffer, writes a
buffer to a sector, and looks at or replaces a buffer. Sector accesses may fail; a failed access
changes neither the buffer nor the disk. `diverge` is a loop that does not come back.

* `Prog.run`: the whole run, with the failing accesses given by an oracle on the access number.
* `Prog.writes`: the sector writes of a fault-free run, in order.
* `Prog.advance`: the first `n` primitive steps of a fault-free run, with the program that is left.
* `Prog.wp`: weakest precondition. A context says which accesses may fail, whether the program
  may diverge, and what must hold of the disk after every single sector write.
* `Prog.may`: some choice of failing accesses leads to the postcondition.
-/

namespace MiniDos
namespace BlockIO

/-- Buffers, disk, and counters of the accesses and of the successful writes made so far. -/
structure Mem (β σ : Type) where
  buf : β → σ
  disk : Nat → σ
  accesses : Nat := 0
  stores : Nat := 0

inductive Prog (β σ α : Type) where
  | ret (a : α)
  | diverge
  | readSector (b : β) (lba : Nat) (k : Bool → Prog β σ α)
  | writeSector (b : β) (lba : Nat) (k : Bool → Prog β σ α)
  | load (b : β) (k : σ → Prog β σ α)
  | store (b : β) (s : σ) (k : Prog β σ α)

def putSector {σ : Type} (d : Nat → σ) (lba : Nat) (s : σ) : Nat → σ :=
  fun n => if n = lba then s else d n

theorem putSector_self {σ : Type} (d : Nat → σ) (lba : Nat) (s : σ) :
    putSector d lba s lba = s := by simp [putSector]

theorem putSector_of_ne {σ : Type} (d : Nat → σ) {lba n : Nat} (s : σ) (h : n ≠ lba) :
    putSector d lba s n = d n := by simp [putSector, h]

theorem putSector_same {σ : Type} (d : Nat → σ) (lba : Nat) : putSector d lba (d lba) = d := by
  funext n
  by_cases h : n = lba
  · subst h; simp [putSector]
  · simp [putSector, h]

section Semantics

variable {β σ α γ : Type}

namespace Mem

/-- An access was made and nothing came of it. -/
def tick (m : Mem β σ) : Mem β σ := { m with accesses := m.accesses + 1 }

def flush (m : Mem β σ) (b : β) (lba : Nat) : Mem β σ :=
  { m with
    disk := putSector m.disk lba (m.buf b)
    accesses := m.accesses + 1
    stores := m.stores + 1 }

@[simp] theorem tick_disk (m : Mem β σ) : m.tick.disk = m.disk := rfl
@[simp] theorem tick_buf (m : Mem β σ) : m.tick.buf = m.buf := rfl
@[simp] theorem tick_stores (m : Mem β σ) : m.tick.stores = m.stores := rfl
@[simp] theorem flush_disk (m : Mem β σ) (b : β) (lba : Nat) :
    (m.flush b lba).disk = putSector m.disk lba (m.buf b) := rfl
@[simp] theorem flush_buf (m : Mem β σ) (b : β) (lba : Nat) : (m.flush b lba).buf = m.buf := rfl
@[simp] theorem flush_stores (m : Mem β σ) (b : β) (lba : Nat) :
    (m.flush b lba).stores = m.stores + 1 := rfl

variable [DecidableEq β]

def setBuf (m : Mem β σ) (b : β) (s : σ) : Mem β σ :=
  { m with buf := fun b' => if b' = b then s else m.buf b' }

def fetch (m : Mem β σ) (b : β) (lba : Nat) : Mem β σ := (m.setBuf b (m.disk lba)).tick

@[simp] theorem setBuf_disk (m : Mem β σ) (b : β) (s : σ) : (m.setBuf b s).disk = m.disk := rfl
@[simp] theorem setBuf_stores (m : Mem β σ) (b : β) (s : σ) :
    (m.setBuf b s).stores = m.stores := rfl
@[simp] theorem setBuf_buf (m : Mem β σ) (b : β) (s : σ) : (m.setBuf b s).buf b = s := by
  simp [setBuf]
theorem setBuf_buf_ne (m : Mem β σ) {b b' : β} (s : σ) (h : b' ≠ b) :
    (m.setBuf b s).buf b' = m.buf b' := by simp [setBuf, h]
@[simp] theorem fetch_disk (m : Mem β σ) (b : β) (lba : Nat) : (m.fetch b lba).disk = m.disk := rfl
@[simp] theorem fetch_stores (m : Mem β σ) (b : β) (lba : Nat) :
    (m.fetch b lba).stores = m.stores := rfl
@[simp] theorem fetch_buf (m : Mem β σ) (b : β) (lba : Nat) :
    (m.fetch b lba).buf b = m.disk lba := by simp [fetch]
theorem fetch_buf_ne (m : Mem β σ) {b b' : β} (lba : Nat) (h : b' ≠ b) :
    (m.fetch b lba).buf b' = m.buf b' := by simp [fetch, setBuf_buf_ne _ _ h]

end Mem

/-- From `m` on, the disk of `m'` was only changed by counted writes. -/
def Mem.Moved (m m' : Mem β σ) : Prop :=
  m.stores ≤ m'.stores ∧ (m'.stores = m.stores → m'.disk = m.disk)

theorem Mem.Moved.refl (m : Mem β σ) : m.Moved m := ⟨Nat.le_refl _, fun _ => rfl⟩

theorem Mem.Moved.trans {m m' m'' : Mem β σ} (h : m.Moved m') (h' : m'.Moved m'') :
    m.Moved m'' := by
  refine ⟨Nat.le_trans h.1 h'.1, fun he => ?_⟩
  have h1 := h.1
  have h2 := h'.1
  rw [h'.2 (by omega), h.2 (by omega)]

namespace Prog

def bind : Prog β σ α → (α → Prog β σ γ) → Prog β σ γ
  | .ret a, f => f a
  | .diverge, _ => .diverge
  | .readSector b lba k, f => .readSector b lba (fun ok => (k ok).bind f)
  | .writeSector b lba k, f => .writeSector b lba (fun ok => (k ok).bind f)
  | .load b k, f => .load b (fun s => (k s).bind f)
  | .store b s k, f => .store b s (k.bind f)

instance : Monad (Prog β σ) where
  pure := .ret
  bind := bind

variable [DecidableEq β]

/-- The run in which access number `n` fails exactly when `fails n`. `none`: it diverges. -/
def run (fails : Nat → Bool) : Prog β σ α → Mem β σ → Option (α × Mem β σ)
  | .ret a, m => some (a, m)
  | .diverge, _ => none
  | .readSector b lba k, m =>
    if fails m.accesses then (k false).run fails m.tick else (k true).run fails (m.fetch b lba)
  | .writeSector b lba k, m =>
    if fails m.accesses then (k false).run fails m.tick else (k true).run fails (m.flush b lba)
  | .load b k, m => (k (m.buf b)).run fails m
  | .store b s k, m => k.run fails (m.setBuf b s)

/-- For each failing access of the run, the number of successful writes before it. -/
def faults (fails : Nat → Bool) : Prog β σ α → Mem β σ → List Nat
  | .ret _, _ => []
  | .diverge, _ => []
  | .readSector b lba k, m =>
    if fails m.accesses then m.stores :: (k false).faults fails m.tick
    else (k true).faults fails (m.fetch b lba)
  | .writeSector b lba k, m =>
    if fails m.accesses then m.stores :: (k false).faults fails m.tick
    else (k true).faults fails (m.flush b lba)
  | .load b k, m => (k (m.buf b)).faults fails m
  | .store b s k, m => k.faults fails (m.setBuf b s)

/-- The sector writes of the fault-free run, in order. -/
def writes : Prog β σ α → Mem β σ → List (Nat × σ)
  | .ret _, _ => []
  | .diverge, _ => []
  | .readSector b lba k, m => (k true).writes (m.fetch b lba)
  | .writeSector b lba k, m => (lba, m.buf b) :: (k true).writes (m.flush b lba)
  | .load b k, m => (k (m.buf b)).writes m
  | .store b s k, m => k.writes (m.setBuf b s)

/-- The first primitive step of the fault-free run; a finished program stays as it is. -/
def step : Prog β σ α → Mem β σ → Prog β σ α × Mem β σ
  | .ret a, m => (.ret a, m)
  | .diverge, m => (.diverge, m)
  | .readSector b lba k, m => (k true, m.fetch b lba)
  | .writeSector b lba k, m => (k true, m.flush b lba)
  | .load b k, m => (k (m.buf b), m)
  | .store b s k, m => (k, m.setBuf b s)

def advance : Nat → Prog β σ α → Mem β σ → Prog β σ α × Mem β σ
  | 0, p, m => (p, m)
  | n + 1, p, m => advance n (p.step m).1 (p.step m).2

end Prog

/-- No access fails. -/
def noFaults : Nat → Bool := fun _ => false

/-- The disk after a list of sector writes. -/
def replay (d : Nat → σ) : List (Nat × σ) → Nat → σ
  | [] => d
  | (lba, s) :: ws => replay (putSector d lba s) ws

end Semantics

/-! ## Weakest preconditions -/

/-- What a proof may assume of the device and must show of the disk: the memories in which an
access may fail, whether divergence is accepted, and the invariant of every sector write. -/
structure Ctx (β σ : Type) where
  mayFail : Mem β σ → Prop
  mayDiverge : Prop
  inv : (Nat → σ) → Prop

namespace Ctx

variable {β σ : Type}

def Faulty (c : Ctx β σ) : Prop := ∃ m, c.mayFail m

/-- An access may have failed since the last successful write before `m`. -/
def Failed (c : Ctx β σ) (m : Mem β σ) : Prop := ∃ m₁, c.mayFail m₁ ∧ m₁.stores = m.stores

theorem Failed.faulty {c : Ctx β σ} {m : Mem β σ} (h : c.Failed m) : c.Faulty := by
  obtain ⟨m₁, h, _⟩ := h
  exact ⟨m₁, h⟩

/-- A device without faults, a program that must come back, and an invariant of the writes. -/
def total (inv : (Nat → σ) → Prop) : Ctx β σ := ⟨fun _ => False, False, inv⟩

theorem total_not_faulty (inv : (Nat → σ) → Prop) : ¬ (total inv : Ctx β σ).Faulty := by
  rintro ⟨_, h⟩; exact h

/-- A device without faults, and nothing to show of a program that does not come back. -/
def quiet : Ctx β σ := ⟨fun _ => False, True, fun _ => True⟩

theorem quiet_not_faulty : ¬ (quiet : Ctx β σ).Faulty := by
  rintro ⟨_, h⟩; exact h

/-- Any access may fail, and nothing to show of a program that does not come back. -/
def noisy : Ctx β σ := ⟨fun _ => True, True, fun _ => True⟩

end Ctx

section Logic

variable {β σ α γ : Type} [DecidableEq β]

namespace Prog

def wp (c : Ctx β σ) : Prog β σ α → (α → Mem β σ → Prop) → Mem β σ → Prop
  | .ret a, Q, m => Q a m
  | .diverge, _, _ => c.mayDiverge
  | .readSector b lba k, Q, m =>
    (c.mayFail m → (k false).wp c Q m.tick) ∧ (k true).wp c Q (m.fetch b lba)
  | .writeSector b lba k, Q, m =>
    (c.mayFail m → (k false).wp c Q m.tick) ∧
      c.inv (putSector m.disk lba (m.buf b)) ∧ (k true).wp c Q (m.flush b lba)
  | .load b k, Q, m => (k (m.buf b)).wp c Q m
  | .store b s k, Q, m => k.wp c Q (m.setBuf b s)

variable {c : Ctx β σ}

@[simp] theorem wp_pure (a : α) (Q : α → Mem β σ → Prop) (m : Mem β σ) :
    (pure a : Prog β σ α).wp c Q m ↔ Q a m := Iff.rfl

@[simp] theorem wp_bind (p : Prog β σ α) (f : α → Prog β σ γ) (Q : γ → Mem β σ → Prop)
    (m : Mem β σ) : (p >>= f).wp c Q m ↔ p.wp c (fun a m' => (f a).wp c Q m') m := by
  show (p.bind f).wp c Q m ↔ _
  induction p generalizing m with
  | ret a => rfl
  | diverge => rfl
  | readSector b lba k ih => simp only [bind, wp, ih]
  | writeSector b lba k ih => simp only [bind, wp, ih]
  | load b k ih => simp only [bind, wp, ih]
  | store b s k ih => simp only [bind, wp, ih]

theorem wp_mono {p : Prog β σ α} {Q Q' : α → Mem β σ → Prop} {m : Mem β σ}
    (h : p.wp c Q m) (hQ : ∀ a m', Q a m' → Q' a m') : p.wp c Q' m := by
  induction p generalizing m with
  | ret a => exact hQ _ _ h
  | diverge => exact h
  | readSector b lba k ih => exact ⟨fun hf => ih false (h.1 hf), ih true h.2⟩
  | writeSector b lba k ih => exact ⟨fun hf => ih false (h.1 hf), h.2.1, ih true h.2.2⟩
  | load b k ih => exact ih _ h
  | store b s k ih => exact ih h

theorem wp_and {p : Prog β σ α} {Q Q' : α → Mem β σ → Prop} {m : Mem β σ} (h : p.wp c Q m)
    (h' : p.wp c Q' m) : p.wp c (fun a m' => Q a m' ∧ Q' a m') m := by
  induction p generalizing m with
  | ret a => exact ⟨h, h'⟩
  | diverge => exact h
  | readSector b lba k ih => exact ⟨fun hf => ih false (h.1 hf) (h'.1 hf), ih true h.2 h'.2⟩
  | writeSector b lba k ih =>
    exact ⟨fun hf => ih false (h.1 hf) (h'.1 hf), h.2.1, ih true h.2.2 h'.2.2⟩
  | load b k ih => exact ih _ h h'
  | store b s k ih => exact ih h h'

theorem wp_noisy (p : Prog β σ α) (m : Mem β σ) : p.wp .noisy (fun _ _ => True) m := by
  induction p generalizing m with
  | ret a => trivial
  | diverge => trivial
  | readSector b lba k ih => exact ⟨fun _ => ih false _, ih true _⟩
  | writeSector b lba k ih => exact ⟨fun _ => ih false _, trivial, ih true _⟩
  | load b k ih => exact ih _ _
  | store b s k ih => exact ih _

theorem wp_and_noisy {p : Prog β σ α} {Q Q' : α → Mem β σ → Prop} {m : Mem β σ} (h : p.wp c Q m)
    (h' : p.wp .noisy Q' m) : p.wp c (fun a m' => Q a m' ∧ Q' a m') m := by
  induction p generalizing m with
  | ret a => exact ⟨h, h'⟩
  | diverge => exact h
  | readSector b lba k ih => exact ⟨fun hf => ih false (h.1 hf) (h'.1 trivial), ih true h.2 h'.2⟩
  | writeSector b lba k ih =>
    exact ⟨fun hf => ih false (h.1 hf) (h'.1 trivial), h.2.1, ih true h.2.2 h'.2.2⟩
  | load b k ih => exact ih _ h h'
  | store b s k ih => exact ih h h'

theorem wp_moved {p : Prog β σ α} {Q : α → Mem β σ → Prop} {m : Mem β σ} (h : p.wp c Q m) :
    p.wp c (fun a m' => Q a m' ∧ m.Moved m') m := by
  suffices hs : ∀ m₀ : Mem β σ, m₀.Moved m → p.wp c (fun a m' => Q a m' ∧ m₀.Moved m') m from
    hs m (.refl m)
  induction p generalizing m with
  | ret a => exact fun m₀ hm => ⟨h, hm⟩
  | diverge => exact fun _ _ => h
  | readSector b lba k ih =>
    exact fun m₀ hm => ⟨fun hf => ih false (h.1 hf) m₀ hm, ih true h.2 m₀ hm⟩
  | writeSector b lba k ih =>
    intro m₀ hm
    refine ⟨fun hf => ih false (h.1 hf) m₀ hm, h.2.1, ih true h.2.2 m₀ (hm.trans ?_)⟩
    exact ⟨Nat.le_succ _, fun he => absurd he (Nat.succ_ne_self _)⟩
  | load b k ih => exact ih _ h
  | store b s k ih => exact ih h

/-- A proof holds for every run whose accesses fail only where the context allows it. -/
theorem run_of_wp_faults (fails : Nat → Bool) {p : Prog β σ α} {Q : α → Mem β σ → Prop}
    {m : Mem β σ} (hf : ∀ s ∈ p.faults fails m, ∀ m' : Mem β σ, m'.stores = s →
      fails m'.accesses = true → c.mayFail m') (h : p.wp c Q m) :
    (∀ a m', p.run fails m = some (a, m') → Q a m') ∧
      (¬ c.mayDiverge → ∃ a m', p.run fails m = some (a, m')) := by
  induction p generalizing m with
  | ret a =>
    refine ⟨?_, fun _ => ⟨a, m, rfl⟩⟩
    intro a' m' hr
    simp only [run, Option.some.injEq, Prod.mk.injEq] at hr
    obtain ⟨rfl, rfl⟩ := hr
    exact h
  | diverge => exact ⟨fun a m' hr => by simp [run] at hr, fun hd => absurd h hd⟩
  | readSector b lba k ih =>
    by_cases hb : fails m.accesses = true
    · simp only [faults, hb, if_true, List.forall_mem_cons] at hf
      simp only [run, hb, if_true]
      exact ih false hf.2 (h.1 (hf.1 m rfl hb))
    · simp only [faults, hb] at hf
      simp only [run, hb]
      exact ih true hf h.2
  | writeSector b lba k ih =>
    by_cases hb : fails m.accesses = true
    · simp only [faults, hb, if_true, List.forall_mem_cons] at hf
      simp only [run, hb, if_true]
      exact ih false hf.2 (h.1 (hf.1 m rfl hb))
    · simp only [faults, hb] at hf
      simp only [run, hb]
      exact ih true hf h.2.2
  | load b k ih => exact ih _ hf h
  | store b s k ih => exact ih hf h

theorem run_of_wp (fails : Nat → Bool) (hf : ∀ m : Mem β σ, fails m.accesses = true → c.mayFail m)
    {p : Prog β σ α} {Q : α → Mem β σ → Prop} {m : Mem β σ} (h : p.wp c Q m) :
    (∀ a m', p.run fails m = some (a, m') → Q a m') ∧
      (¬ c.mayDiverge → ∃ a m', p.run fails m = some (a, m')) :=
  run_of_wp_faults fails (fun _ _ m' _ hm' => hf m' hm') h

theorem exists_run {inv : (Nat → σ) → Prop} {p : Prog β σ α} {Q : α → Mem β σ → Prop}
    {m : Mem β σ} (h : p.wp (.total inv) Q m) : ∃ a m', p.run noFaults m = some (a, m') ∧ Q a m' := by
  obtain ⟨hpost, hback⟩ := run_of_wp noFaults (fun _ hf => by cases hf) h
  obtain ⟨a, m', hrun⟩ := hback id
  exact ⟨a, m', hrun, hpost a m' hrun⟩

theorem inv_replay_of_wp {p : Prog β σ α} {Q : α → Mem β σ → Prop} {m : Mem β σ}
    (h0 : c.inv m.disk) (h : p.wp c Q m) (n : Nat) :
    c.inv (replay m.disk ((p.writes m).take n)) := by
  induction p generalizing m n with
  | ret a => simpa [writes, replay] using h0
  | diverge => simpa [writes, replay] using h0
  | readSector b lba k ih => exact ih true (by simpa using h0) h.2 n
  | writeSector b lba k ih =>
    cases n with
    | zero => simpa [replay] using h0
    | succ n => exact ih true (m := m.flush b lba) h.2.1 h.2.2 n
  | load b k ih => exact ih _ h0 h n
  | store b s k ih => exact ih (m := m.setBuf b s) h0 h n

/-! ### Some choice of failing accesses -/

/-- With some choice of failing accesses the program comes back and `Q` holds. -/
def may : Prog β σ α → (α → Mem β σ → Prop) → Mem β σ → Prop
  | .ret a, Q, m => Q a m
  | .diverge, _, _ => False
  | .readSector b lba k, Q, m => (k false).may Q m.tick ∨ (k true).may Q (m.fetch b lba)
  | .writeSector b lba k, Q, m => (k false).may Q m.tick ∨ (k true).may Q (m.flush b lba)
  | .load b k, Q, m => (k (m.buf b)).may Q m
  | .store b s k, Q, m => k.may Q (m.setBuf b s)

theorem may_bind (p : Prog β σ α) (f : α → Prog β σ γ) (Q : γ → Mem β σ → Prop)
    (m : Mem β σ) : (p >>= f).may Q m ↔ p.may (fun a m' => (f a).may Q m') m := by
  show (p.bind f).may Q m ↔ _
  induction p generalizing m with
  | ret a => rfl
  | diverge => rfl
  | readSector b lba k ih => simp only [bind, may, ih]
  | writeSector b lba k ih => simp only [bind, may, ih]
  | load b k ih => simp only [bind, may, ih]
  | store b s k ih => simp only [bind, may, ih]

theorem may_mono {p : Prog β σ α} {Q Q' : α → Mem β σ → Prop} {m : Mem β σ}
    (h : p.may Q m) (hQ : ∀ a m', Q a m' → Q' a m') : p.may Q' m := by
  induction p generalizing m with
  | ret a => exact hQ _ _ h
  | diverge => exact h
  | readSector b lba k ih => exact h.imp (ih false) (ih true)
  | writeSector b lba k ih => exact h.imp (ih false) (ih true)
  | load b k ih => exact ih _ h
  | store b s k ih => exact ih h

theorem may_of_wp (hc : ¬ c.mayDiverge) {p : Prog β σ α} {Q : α → Mem β σ → Prop} {m : Mem β σ}
    (h : p.wp c Q m) : p.may Q m := by
  induction p generalizing m with
  | ret a => exact h
  | diverge => exact absurd h hc
  | readSector b lba k ih => exact .inr (ih true h.2)
  | writeSector b lba k ih => exact .inr (ih true h.2.2)
  | load b k ih => exact ih _ h
  | store b s k ih => exact ih h

theorem run_congr {fails fails' : Nat → Bool} (p : Prog β σ α) (m : Mem β σ)
    (h : ∀ n, m.accesses ≤ n → fails n = fails' n) : p.run fails m = p.run fails' m := by
  induction p generalizing m with
  | ret a => rfl
  | diverge => rfl
  | readSector b lba k ih =>
    have hnext : ∀ n, m.accesses + 1 ≤ n → fails n = fails' n := fun n hn => h n (by omega)
    simp only [run, h m.accesses (Nat.le_refl _), ih false m.tick hnext,
      ih true (m.fetch b lba) hnext]
  | writeSector b lba k ih =>
    have hnext : ∀ n, m.accesses + 1 ≤ n → fails n = fails' n := fun n hn => h n (by omega)
    simp only [run, h m.accesses (Nat.le_refl _), ih false m.tick hnext,
      ih true (m.flush b lba) hnext]
  | load b k ih => exact ih _ m h
  | store b s k ih => exact ih (m.setBuf b s) h

theorem run_decide (fails : Nat → Bool) (v : Bool) (p : Prog β σ α) {m : Mem β σ} {n : Nat}
    (hn : n < m.accesses) : p.run (fun k => if k = n then v else fails k) m = p.run fails m :=
  run_congr p m (fun k hk => if_neg (by omega))

/-- A possible outcome is that of some oracle. -/
theorem run_of_may {p : Prog β σ α} {Q : α → Mem β σ → Prop} {m : Mem β σ} (h : p.may Q m) :
    ∃ fails a m', p.run fails m = some (a, m') ∧ Q a m' := by
  induction p generalizing m with
  | ret a => exact ⟨noFaults, a, m, rfl, h⟩
  | diverge => exact h.elim
  | readSector b lba k ih =>
    rcases h with h | h
    · obtain ⟨fails, a, m', hr, hQ⟩ := ih false h
      refine ⟨fun n => if n = m.accesses then true else fails n, a, m', ?_, hQ⟩
      simp only [run, if_true]
      rw [run_decide fails true (k false) (show m.accesses < m.tick.accesses from Nat.lt_succ_self _)]
      exact hr
    · obtain ⟨fails, a, m', hr, hQ⟩ := ih true h
      refine ⟨fun n => if n = m.accesses then false else fails n, a, m', ?_, hQ⟩
      simp only [run, if_true, Bool.false_eq_true, if_false]
      rw [run_decide fails false (k true)
        (show m.accesses < (m.fetch b lba).accesses from Nat.lt_succ_self _)]
      exact hr
  | writeSector b lba k ih =>
    rcases h with h | h
    · obtain ⟨fails, a, m', hr, hQ⟩ := ih false h
      refine ⟨fun n => if n = m.accesses then true else fails n, a, m', ?_, hQ⟩
      simp only [run, if_true]
      rw [run_decide fails true (k false) (show m.accesses < m.tick.accesses from Nat.lt_succ_self _)]
      exact hr
    · obtain ⟨fails, a, m', hr, hQ⟩ := ih true h
      refine ⟨fun n => if n = m.accesses then false else fails n, a, m', ?_, hQ⟩
      simp only [run, if_true, Bool.false_eq_true, if_false]
      rw [run_decide fails false (k true)
        (show m.accesses < (m.flush b lba).accesses from Nat.lt_succ_self _)]
      exact hr
  | load b k ih => exact ih _ h
  | store b s k ih => exact ih h

theorem wp_quiet_of_forall {p : Prog β σ α} {Q : α → Mem β σ → Prop} (hQ : ∀ a m', Q a m') :
    ∀ m, p.wp Ctx.quiet Q m := by
  induction p with
  | ret a => exact hQ a
  | diverge => exact fun _ => trivial
  | readSector b lba k ih => exact fun m => ⟨fun hf => hf.elim, ih true _⟩
  | writeSector b lba k ih => exact fun m => ⟨fun hf => hf.elim, trivial, ih true _⟩
  | load b k ih => exact fun m => ih _ _
  | store b s k ih => exact fun m => ih _

end Prog

/-! ## The steps that programs are written with -/

def readSector (b : β) (lba : Nat) : Prog β σ Bool := .readSector b lba .ret
def writeSector (b : β) (lba : Nat) : Prog β σ Bool := .writeSector b lba .ret
def load (b : β) : Prog β σ σ := .load b .ret
def store (b : β) (s : σ) : Prog β σ Unit := .store b s (.ret ())
def diverge : Prog β σ α := .diverge

variable {c : Ctx β σ} {m : Mem β σ}

theorem wp_readSector {b : β} {lba : Nat} {Q : Bool → Mem β σ → Prop} :
    (readSector b lba).wp c Q m ↔ (c.mayFail m → Q false m.tick) ∧ Q true (m.fetch b lba) := Iff.rfl

theorem wp_writeSector {b : β} {lba : Nat} {Q : Bool → Mem β σ → Prop} :
    (writeSector b lba).wp c Q m ↔ (c.mayFail m → Q false m.tick) ∧
      c.inv (putSector m.disk lba (m.buf b)) ∧ Q true (m.flush b lba) := Iff.rfl

@[simp] theorem wp_readSector_quiet {b : β} {lba : Nat} {Q : Bool → Mem β σ → Prop} :
    (readSector b lba).wp Ctx.quiet Q m ↔ Q true (m.fetch b lba) :=
  ⟨fun h => h.2, fun h => ⟨fun hf => hf.elim, h⟩⟩

@[simp] theorem wp_writeSector_quiet {b : β} {lba : Nat} {Q : Bool → Mem β σ → Prop} :
    (writeSector b lba).wp Ctx.quiet Q m ↔ Q true (m.flush b lba) :=
  ⟨fun h => h.2.2, fun h => ⟨fun hf => hf.elim, trivial, h⟩⟩

@[simp] theorem wp_load {b : β} {Q : σ → Mem β σ → Prop} :
    (load b).wp c Q m ↔ Q (m.buf b) m := Iff.rfl

@[simp] theorem wp_store {b : β} {s : σ} {Q : Unit → Mem β σ → Prop} :
    (store b s).wp c Q m ↔ Q () (m.setBuf b s) := Iff.rfl

@[simp] theorem wp_diverge {Q : α → Mem β σ → Prop} :
    (diverge : Prog β σ α).wp c Q m ↔ c.mayDiverge := Iff.rfl

end Logic

end BlockIO
end MiniDos
