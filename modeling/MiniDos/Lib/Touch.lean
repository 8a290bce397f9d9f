import MiniDos.Lib.Action

/-!
# MiniDos.Lib.Touch

Programs with a state of their own that read and write single cells of a memory that others write
too, as trees of primitive steps.

* `Touch.run`, `Touch.touched`: the run, and the addresses that it reads or writes, in order. What
  the memory holds is given for every access, so others may write it between any two of them.
* `Touch.Within`: every access of every run is at an address of a set, and a property of the result.
* `Within.touched`: what such a program touches.
* `Touch.wp`: what holds after every run that comes back, whatever the memory holds.
* `Touch.alone`: the run over a memory that nobody changes.
-/

namespace MiniDos

inductive Touch (β σ α : Type) where
  | ret (a : α)
  | diverge
  | get (k : σ → Touch β σ α)
  | set (s : σ) (k : Touch β σ α)
  | peek (addr : Nat) (k : β → Touch β σ α)
  | poke (addr : Nat) (b : β) (k : Touch β σ α)

namespace Touch

variable {β σ α γ : Type}

def bind : Touch β σ α → (α → Touch β σ γ) → Touch β σ γ
  | .ret a, f => f a
  | .diverge, _ => .diverge
  | .get k, f => .get (fun s => (k s).bind f)
  | .set s k, f => .set s (k.bind f)
  | .peek addr k, f => .peek addr (fun b => (k b).bind f)
  | .poke addr b k, f => .poke addr b (k.bind f)

instance : Monad (Touch β σ) where
  pure := .ret
  bind := bind

def state : Touch β σ σ := .get .ret

def read (addr : Nat) : Touch β σ β := .peek addr .ret

def write (addr : Nat) (b : β) : Touch β σ Unit := .poke addr b (.ret ())

/-- A step on the state alone. -/
def lift (p : Action σ α) : Touch β σ α :=
  .get (fun s =>
    match p s with
    | none => .diverge
    | some r => .set r.2 (.ret r.1))

/-- `n` cells from `addr` on. -/
def readCells : Nat → Nat → Touch β σ (List β)
  | _, 0 => pure []
  | addr, n + 1 => do
    let b ← read addr
    let bs ← readCells (addr + 1) n
    pure (b :: bs)

def writeCells : Nat → List β → Touch β σ Unit
  | _, [] => pure ()
  | addr, b :: bs => do
    write addr b
    writeCells (addr + 1) bs

/-- The run: access number `n` sees the memory `mem n`. `none`: it does not come back. -/
def run : Touch β σ α → (Nat → Nat → β) → σ → Option (α × σ)
  | .ret a, _, s => some (a, s)
  | .diverge, _, _ => none
  | .get k, mem, s => (k s).run mem s
  | .set s k, mem, _ => k.run mem s
  | .peek addr k, mem, s => (k (mem 0 addr)).run (fun n => mem (n + 1)) s
  | .poke _ _ k, mem, s => k.run (fun n => mem (n + 1)) s

def touched : Touch β σ α → (Nat → Nat → β) → σ → List Nat
  | .ret _, _, _ => []
  | .diverge, _, _ => []
  | .get k, mem, s => (k s).touched mem s
  | .set s k, mem, _ => k.touched mem s
  | .peek addr k, mem, s => addr :: (k (mem 0 addr)).touched (fun n => mem (n + 1)) s
  | .poke addr _ k, mem, s => addr :: k.touched (fun n => mem (n + 1)) s

/-- Every access is at an address of `S`, and `Q` holds of the result. -/
def Within (S : Nat → Prop) : Touch β σ α → (α → Prop) → Prop
  | .ret a, Q => Q a
  | .diverge, _ => True
  | .get k, Q => ∀ s, (k s).Within S Q
  | .set _ k, Q => k.Within S Q
  | .peek addr k, Q => S addr ∧ ∀ b, (k b).Within S Q
  | .poke addr _ k, Q => S addr ∧ k.Within S Q

/-! ## Where a program stays -/

variable {S : Nat → Prop}

theorem within_bind (p : Touch β σ α) (f : α → Touch β σ γ) (Q : γ → Prop) :
    (p >>= f).Within S Q ↔ p.Within S (fun a => (f a).Within S Q) := by
  show (p.bind f).Within S Q ↔ _
  induction p with
  | ret a => rfl
  | diverge => rfl
  | get k ih => simp only [bind, Within, ih]
  | set s k ih => simp only [bind, Within, ih]
  | peek addr k ih => simp only [bind, Within, ih]
  | poke addr b k ih => simp only [bind, Within, ih]

namespace Within

theorem mono {p : Touch β σ α} {S' : Nat → Prop} {Q Q' : α → Prop} (h : p.Within S Q)
    (hS : ∀ addr, S addr → S' addr) (hQ : ∀ a, Q a → Q' a) : p.Within S' Q' := by
  induction p with
  | ret a => exact hQ a h
  | diverge => trivial
  | get k ih => exact fun s => ih s (h s)
  | set s k ih => exact ih h
  | peek addr k ih => exact ⟨hS _ h.1, fun b => ih b (h.2 b)⟩
  | poke addr b k ih => exact ⟨hS _ h.1, ih h.2⟩

theorem bind {p : Touch β σ α} {f : α → Touch β σ γ} {R : α → Prop} {Q : γ → Prop}
    (h : p.Within S R) (hf : ∀ a, R a → (f a).Within S Q) : (p >>= f).Within S Q :=
  (within_bind p f Q).mpr (h.mono (fun _ h => h) hf)

theorem pure {a : α} {Q : α → Prop} (h : Q a) : (Pure.pure a : Touch β σ α).Within S Q := h

theorem ite {c : Prop} [Decidable c] {p q : Touch β σ α} {Q : α → Prop}
    (hp : c → p.Within S Q) (hq : ¬ c → q.Within S Q) : (if c then p else q).Within S Q := by
  by_cases h : c
  · simpa [h] using hp h
  · simpa [h] using hq h

theorem read {addr : Nat} (h : S addr) : (Touch.read addr : Touch β σ β).Within S (fun _ => True) :=
  ⟨h, fun _ => trivial⟩

theorem write {addr : Nat} {b : β} (h : S addr) :
    (Touch.write addr b : Touch β σ Unit).Within S (fun _ => True) := ⟨h, trivial⟩

theorem lift {p : Action σ α} {Q : α → Prop} (h : ∀ s a s', p s = some (a, s') → Q a) :
    (Touch.lift p : Touch β σ α).Within S Q := by
  intro s
  dsimp only
  cases hp : p s with
  | none => trivial
  | some r => exact h s r.1 r.2 hp

theorem lift_any (p : Action σ α) : (Touch.lift p : Touch β σ α).Within S (fun _ => True) :=
  lift (fun _ _ _ _ => trivial)

theorem readCells {addr n : Nat} (h : ∀ i < n, S (addr + i)) :
    (Touch.readCells addr n : Touch β σ (List β)).Within S (fun bs => bs.length = n) := by
  induction n generalizing addr with
  | zero => rfl
  | succ n ih =>
    have hrest : ∀ i < n, S (addr + 1 + i) := by
      intro i hi
      rw [Nat.add_assoc, Nat.add_comm 1]
      exact h (i + 1) (by omega)
    refine (read (h 0 (by omega))).bind (fun b _ => (ih hrest).bind (fun bs hbs => ?_))
    exact pure (congrArg (· + 1) hbs)

theorem writeCells {addr : Nat} {bs : List β} (h : ∀ i < bs.length, S (addr + i)) :
    (Touch.writeCells addr bs : Touch β σ Unit).Within S (fun _ => True) := by
  induction bs generalizing addr with
  | nil => trivial
  | cons b bs ih =>
    have hrest : ∀ i < bs.length, S (addr + 1 + i) := by
      intro i hi
      rw [Nat.add_assoc, Nat.add_comm 1]
      exact h (i + 1) (by simpa using hi)
    exact (write (h 0 (by simp))).bind (fun _ _ => ih hrest)

theorem touched {p : Touch β σ α} {Q : α → Prop} (h : p.Within S Q) (mem : Nat → Nat → β) (s : σ) :
    ∀ addr ∈ p.touched mem s, S addr := by
  induction p generalizing mem s with
  | ret a => simp [Touch.touched]
  | diverge => simp [Touch.touched]
  | get k ih => exact ih s (h s) mem s
  | set s' k ih => exact ih h mem s'
  | peek addr k ih =>
    simp only [Touch.touched, List.forall_mem_cons]
    exact ⟨h.1, ih _ (h.2 _) _ s⟩
  | poke addr b k ih =>
    simp only [Touch.touched, List.forall_mem_cons]
    exact ⟨h.1, ih h.2 _ s⟩

end Within

/-! ## Whatever the memory holds -/

/-- After every run that comes back. -/
def wp : Touch β σ α → (α → σ → Prop) → σ → Prop
  | .ret a, Q, s => Q a s
  | .diverge, _, _ => True
  | .get k, Q, s => (k s).wp Q s
  | .set s' k, Q, _ => k.wp Q s'
  | .peek _ k, Q, s => ∀ b, (k b).wp Q s
  | .poke _ _ k, Q, s => k.wp Q s

theorem wp_run {p : Touch β σ α} {Q : α → σ → Prop} {s s' : σ} {a : α} (h : p.wp Q s)
    (mem : Nat → Nat → β) (hrun : p.run mem s = some (a, s')) : Q a s' := by
  induction p generalizing mem s with
  | ret a =>
    cases hrun
    exact h
  | diverge => cases hrun
  | get k ih => exact ih s h mem hrun
  | set s₁ k ih => exact ih h mem hrun
  | peek addr k ih => exact ih _ (h _) _ hrun
  | poke addr b k ih => exact ih h _ hrun

theorem wp_bind (p : Touch β σ α) (f : α → Touch β σ γ) (Q : γ → σ → Prop) (s : σ) :
    (p >>= f).wp Q s ↔ p.wp (fun a s' => (f a).wp Q s') s := by
  show (p.bind f).wp Q s ↔ _
  induction p generalizing s with
  | ret a => rfl
  | diverge => rfl
  | get k ih => exact ih s s
  | set s' k ih => exact ih s'
  | peek addr k ih => exact forall_congr' (fun b => ih b s)
  | poke addr b k ih => exact ih s

theorem wp_any {Q : α → σ → Prop} (h : ∀ a s, Q a s) (p : Touch β σ α) (s : σ) : p.wp Q s := by
  induction p generalizing s with
  | ret a => exact h a s
  | diverge => trivial
  | get k ih => exact ih s s
  | set s' k ih => exact ih s'
  | peek addr k ih => exact fun b => ih b s
  | poke addr b k ih => exact ih s

theorem wp_ite {c : Prop} [Decidable c] {p q : Touch β σ α} {Q : α → σ → Prop} {s : σ}
    (hp : c → p.wp Q s) (hq : ¬ c → q.wp Q s) : (if c then p else q).wp Q s := by
  split
  · exact hp ‹_›
  · exact hq ‹_›

theorem wp_lift (p : Action σ α) {Q : α → σ → Prop} {s : σ} (h : p.wp Q s) :
    (Touch.lift p : Touch β σ α).wp Q s := by
  show (match p s with
    | none => Touch.diverge
    | some r => Touch.set r.2 (.ret r.1)).wp Q s
  cases hp : p s with
  | none => trivial
  | some r => exact h r.1 r.2 hp

theorem wp_readCells {addr n : Nat} {Q : List β → σ → Prop} {s : σ} (h : ∀ bs, Q bs s) :
    (Touch.readCells addr n : Touch β σ (List β)).wp Q s := by
  induction n generalizing addr Q with
  | zero => exact h []
  | succ n ih =>
    refine (wp_bind _ _ Q s).mpr (fun b => (wp_bind _ _ Q s).mpr (ih (fun bs => h (b :: bs))))

/-! ## Memory that nobody changes -/

/-- The run over the memory `mem`, as an action on the state. -/
def alone (mem : Nat → β) (p : Touch β σ α) : Action σ α := p.run (fun _ => mem)

variable (mem : Nat → β)

@[simp] theorem alone_pure (a : α) : (pure a : Touch β σ α).alone mem = pure a := rfl

@[simp] theorem alone_bind (p : Touch β σ α) (f : α → Touch β σ γ) :
    (p >>= f).alone mem = p.alone mem >>= fun a => (f a).alone mem := by
  funext s
  show (p.bind f).run (fun _ => mem) s =
    (p.run (fun _ => mem) s).bind (fun r => (f r.1).run (fun _ => mem) r.2)
  induction p generalizing s with
  | ret a => rfl
  | diverge => rfl
  | get k ih => exact ih s s
  | set s' k ih => exact ih s'
  | peek addr k ih => exact ih _ s
  | poke addr b k ih => exact ih s

@[simp] theorem alone_read (addr : Nat) :
    (read addr : Touch β σ β).alone mem = pure (mem addr) := rfl

@[simp] theorem alone_write (addr : Nat) (b : β) :
    (write addr b : Touch β σ Unit).alone mem = pure () := rfl

@[simp] theorem alone_state : (state : Touch β σ σ).alone mem = Action.get := rfl

@[simp] theorem alone_lift (p : Action σ α) : (lift p : Touch β σ α).alone mem = p := by
  funext s
  show (match p s with
    | none => Touch.diverge
    | some r => Touch.set r.2 (.ret r.1)).run (fun _ => mem) s = p s
  cases p s <;> rfl

@[simp] theorem alone_ite {c : Prop} [Decidable c] (p q : Touch β σ α) :
    (if c then p else q).alone mem = if c then p.alone mem else q.alone mem := by
  split <;> rfl

theorem alone_readCells (addr n : Nat) :
    (readCells addr n : Touch β σ (List β)).alone mem =
      pure ((List.range n).map (fun i => mem (addr + i))) := by
  induction n generalizing addr with
  | zero => rfl
  | succ n ih =>
    have hrest : (List.range n).map (fun i => mem (addr + 1 + i)) =
        (List.range n).map (fun i => mem (addr + (i + 1))) :=
      List.map_congr_left (fun i _ => by rw [Nat.add_assoc, Nat.add_comm 1])
    simp only [readCells, alone_bind, alone_read, alone_pure, ih]
    rw [List.range_succ_eq_map, List.map_cons, List.map_map, hrest]
    rfl

theorem alone_writeCells (addr : Nat) (bs : List β) :
    (writeCells addr bs : Touch β σ Unit).alone mem = pure () := by
  induction bs generalizing addr with
  | nil => rfl
  | cons b bs ih =>
    simp only [writeCells, alone_bind, alone_write, ih]
    rfl

end Touch
end MiniDos
