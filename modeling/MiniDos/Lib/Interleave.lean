import MiniDos.Lib.BlockIO

/-!
# MiniDos.Lib.Interleave

Two programs on one device with shared buffers: one is stopped between two of its steps, the other
runs to its end, then the first goes on.

* `Prog.Clean`: the program fills a buffer before it uses it.
* `Prog.run_frame`, `Prog.advance_frame`: a program does not notice sectors it does not access, nor
  buffers it fills itself.
* `interleave_eq_serial`: without a conflict on a sector or a buffer the outcome is that of running
  one program after the other.
-/

namespace MiniDos
namespace BlockIO

variable {β σ α γ : Type}
variable {D : Nat → Prop}

structure Access where
  write : Bool
  lba : Nat
  deriving DecidableEq

namespace Prog

def access : Prog β σ α → List Access
  | .readSector _ lba _ => [⟨false, lba⟩]
  | .writeSector _ lba _ => [⟨true, lba⟩]
  | _ => []

variable [DecidableEq β]

/-- The accesses of the fault-free run. -/
def trace : Prog β σ α → Mem β σ → List Access
  | .ret _, _ => []
  | .diverge, _ => []
  | .readSector b lba k, m => ⟨false, lba⟩ :: (k true).trace (m.fetch b lba)
  | .writeSector b lba k, m => ⟨true, lba⟩ :: (k true).trace (m.flush b lba)
  | .load b k, m => (k (m.buf b)).trace m
  | .store b s k, m => k.trace (m.setBuf b s)

/-- The accesses of the first `n` steps. -/
def traceN : Nat → Prog β σ α → Mem β σ → List Access
  | 0, _, _ => []
  | n + 1, p, m => p.access ++ traceN n (p.step m).1 (p.step m).2

/-! ## Buffers -/

/-- The program uses no buffer outside `L` before it has filled it, no access failing. -/
def Clean : Prog β σ α → (β → Prop) → Prop
  | .ret _, _ => True
  | .diverge, _ => True
  | .readSector b _ k, L => (k true).Clean (fun b' => b' = b ∨ L b')
  | .writeSector b _ k, L => L b ∧ (k true).Clean L
  | .load b k, L => L b ∧ ∀ s, (k s).Clean L
  | .store b _ k, L => k.Clean (fun b' => b' = b ∨ L b')

omit [DecidableEq β] in
theorem Clean.mono {p : Prog β σ α} {L L' : β → Prop} (h : p.Clean L) (hL : ∀ b, L b → L' b) :
    p.Clean L' := by
  induction p generalizing L L' with
  | ret a => trivial
  | diverge => trivial
  | readSector b lba k ih => exact ih true h (fun b' hb => hb.imp id (hL b'))
  | writeSector b lba k ih => exact ⟨hL b h.1, ih true h.2 hL⟩
  | load b k ih => exact ⟨hL b h.1, fun s => ih s (h.2 s) hL⟩
  | store b s k ih => exact ih h (fun b' hb => hb.imp id (hL b'))

omit [DecidableEq β] in
theorem clean_all (p : Prog β σ α) {L : β → Prop} (hL : ∀ b, L b) : p.Clean L := by
  induction p generalizing L with
  | ret a => trivial
  | diverge => trivial
  | readSector b lba k ih => exact ih true (fun b' => .inr (hL b'))
  | writeSector b lba k ih => exact ⟨hL b, ih true hL⟩
  | load b k ih => exact ⟨hL b, fun s => ih s hL⟩
  | store b s k ih => exact ih (fun b' => .inr (hL b'))

omit [DecidableEq β] in
theorem Clean.bind {p : Prog β σ α} {f : α → Prog β σ γ} {L : β → Prop} (h : p.Clean L)
    (hf : ∀ a, (f a).Clean L) : (p >>= f).Clean L := by
  show (p.bind f).Clean L
  have hgrow : ∀ (p : Prog β σ α) (L' : β → Prop), p.Clean L' → (∀ b, L b → L' b) →
      (p.bind f).Clean L' := by
    intro p
    induction p with
    | ret a => exact fun L' _ hL => (hf a).mono hL
    | diverge => exact fun _ _ _ => trivial
    | readSector b lba k ih => exact fun L' h hL => ih true _ h (fun b' hb => .inr (hL b' hb))
    | writeSector b lba k ih => exact fun L' h hL => ⟨h.1, ih true L' h.2 hL⟩
    | load b k ih => exact fun L' h hL => ⟨h.1, fun s => ih s L' (h.2 s) hL⟩
    | store b s k ih => exact fun L' h hL => ih _ h (fun b' hb => .inr (hL b' hb))
  exact hgrow p L h (fun _ hb => hb)

section Steps

variable {b : β} {lba : Nat} {s : σ} {L : β → Prop}

omit [DecidableEq β]

@[simp] theorem clean_pure (a : α) : (pure a : Prog β σ α).Clean L := trivial

@[simp] theorem clean_pure_bind {a : α} {f : α → Prog β σ γ} :
    (pure a >>= f).Clean L ↔ (f a).Clean L := Iff.rfl

@[simp] theorem clean_writeSector : ( BlockIO.writeSector b lba : Prog β σ Bool).Clean L ↔ L b :=
  ⟨fun h => h.1, fun h => ⟨h, trivial⟩⟩

@[simp] theorem clean_readSector_bind {f : Bool → Prog β σ α} :
    ( BlockIO.readSector b lba >>= f).Clean L ↔ (f true).Clean (fun b' => b' = b ∨ L b') := Iff.rfl

@[simp] theorem clean_writeSector_bind {f : Bool → Prog β σ α} :
    ( BlockIO.writeSector b lba >>= f).Clean L ↔ L b ∧ (f true).Clean L := Iff.rfl

@[simp] theorem clean_load_bind {f : σ → Prog β σ α} :
    ( BlockIO.load b >>= f).Clean L ↔ L b ∧ ∀ s, (f s).Clean L := Iff.rfl

@[simp] theorem clean_store_bind {f : Unit → Prog β σ α} :
    ( BlockIO.store b s >>= f).Clean L ↔ (f ()).Clean (fun b' => b' = b ∨ L b') := Iff.rfl

end Steps

/-! ## What a program does not notice -/

/-- The disks are equal outside `D`. -/
def EqOff (D : Nat → Prop) (d d' : Nat → σ) : Prop := ∀ lba, ¬ D lba → d' lba = d lba

/-- The disks are equal on `D`. -/
def EqOn (D : Nat → Prop) (d d' : Nat → σ) : Prop := ∀ lba, D lba → d' lba = d lba

omit [DecidableEq β] in
theorem Clean.inter {p : Prog β σ α} {L L' : β → Prop} (h : p.Clean L) (h' : p.Clean L') :
    p.Clean (fun b => L b ∧ L' b) := by
  induction p generalizing L L' with
  | ret a => trivial
  | diverge => trivial
  | readSector b lba k ih =>
    refine (ih true h h').mono ?_
    rintro b' ⟨h1 | h1, h2 | h2⟩
    · exact .inl h1
    · exact .inl h1
    · exact .inl h2
    · exact .inr ⟨h1, h2⟩
  | writeSector b lba k ih => exact ⟨⟨h.1, h'.1⟩, ih true h.2 h'.2⟩
  | load b k ih => exact ⟨⟨h.1, h'.1⟩, fun s => ih s (h.2 s) (h'.2 s)⟩
  | store b s k ih =>
    refine (ih h h').mono ?_
    rintro b' ⟨h1 | h1, h2 | h2⟩
    · exact .inl h1
    · exact .inl h1
    · exact .inl h2
    · exact .inr ⟨h1, h2⟩

theorem EqOff.putSector {d d' : Nat → σ} (h : EqOff D d d') (lba : Nat) (s : σ) :
    EqOff D (putSector d lba s) (putSector d' lba s) := by
  intro x hx
  by_cases he : x = lba
  · rw [he, putSector_self, putSector_self]
  · rw [putSector_of_ne _ _ he, putSector_of_ne _ _ he, h x hx]

theorem eqOn_putSector (d : Nat → σ) {lba : Nat} (s : σ) (h : ¬ D lba) :
    EqOn D d ( BlockIO.putSector d lba s) :=
  fun _ hx => putSector_of_ne _ _ (fun he => h (he ▸ hx))

theorem EqOn.trans {d d' d'' : Nat → σ} (h : EqOn D d d') (h' : EqOn D d' d'') :
    EqOn D d d'' := fun x hx => (h' x hx).trans (h x hx)

/-- Two runs that ended with the same result on disks that differ in `D` only, where neither has
written. -/
def SameOutcome (D : Nat → Prop) (d d' : Nat → σ) : Option (α × Mem β σ) → Option (α × Mem β σ) → Prop
  | some (a, m), some (a', m') => a' = a ∧ EqOff D m.disk m'.disk ∧ EqOn D d m.disk ∧
    EqOn D d' m'.disk
  | none, none => True
  | _, _ => False

omit [DecidableEq β] in
theorem SameOutcome.of_eqOn {d d₁ d' d₁' : Nat → σ}
    {r r' : Option (α × Mem β σ)} (h : SameOutcome D d₁ d₁' r r') (hd : EqOn D d d₁)
    (hd' : EqOn D d' d₁') : SameOutcome D d d' r r' := by
  cases r with
  | none => cases r' with
    | none => trivial
    | some _ => exact h
  | some r => cases r' with
    | none => exact h
    | some r' => exact ⟨h.1, h.2.1, hd.trans h.2.2.1, hd'.trans h.2.2.2⟩

/-- A run from another memory: the buffers it relies on are the same, and so are the sectors it
accesses. -/
theorem run_frame {L : β → Prop} (p : Prog β σ α) (m m' : Mem β σ)
    (hc : p.Clean L) (hb : ∀ b, L b → m'.buf b = m.buf b) (hd : EqOff D m.disk m'.disk)
    (ht : ∀ a ∈ p.trace m, ¬ D a.lba) :
    SameOutcome D m.disk m'.disk (p.run noFaults m) (p.run noFaults m') := by
  induction p generalizing L m m' with
  | ret a => exact ⟨rfl, hd, fun _ _ => rfl, fun _ _ => rfl⟩
  | diverge => trivial
  | readSector b lba k ih =>
    have hlba : ¬ D lba := ht ⟨false, lba⟩ List.mem_cons_self
    refine ih true (m.fetch b lba) (m'.fetch b lba) hc ?_ hd
      (fun a ha => ht a (List.mem_cons_of_mem _ ha))
    intro b' hb'
    by_cases he : b' = b
    · rw [he, Mem.fetch_buf, Mem.fetch_buf, hd lba hlba]
    · rw [Mem.fetch_buf_ne _ _ he, Mem.fetch_buf_ne _ _ he, hb b' (hb'.resolve_left he)]
  | writeSector b lba k ih =>
    have hlba : ¬ D lba := ht ⟨true, lba⟩ List.mem_cons_self
    have hsame : m'.buf b = m.buf b := hb b hc.1
    have hnext := ih true (m.flush b lba) (m'.flush b lba) hc.2 hb
      (by rw [Mem.flush_disk, Mem.flush_disk, hsame]; exact hd.putSector lba _)
      (fun a ha => ht a (List.mem_cons_of_mem _ ha))
    exact hnext.of_eqOn (eqOn_putSector _ _ hlba) (eqOn_putSector _ _ hlba)
  | load b k ih =>
    have hsame : m'.buf b = m.buf b := hb b hc.1
    show SameOutcome D _ _ ((k (m.buf b)).run noFaults m) ((k (m'.buf b)).run noFaults m')
    rw [hsame]
    exact ih (m.buf b) m m' (hc.2 (m.buf b)) hb hd ht
  | store b s k ih =>
    refine ih (m.setBuf b s) (m'.setBuf b s) hc ?_ hd ht
    intro b' hb'
    by_cases he : b' = b
    · rw [he, Mem.setBuf_buf, Mem.setBuf_buf]
    · rw [Mem.setBuf_buf_ne _ _ he, Mem.setBuf_buf_ne _ _ he, hb b' (hb'.resolve_left he)]

/-- One step from another memory. -/
theorem step_frame {L : β → Prop} (p : Prog β σ α) {m m' : Mem β σ}
    (hc : p.Clean L) (hb : ∀ b, L b → m'.buf b = m.buf b) (hd : EqOff D m.disk m'.disk)
    (ht : ∀ a ∈ p.access, ¬ D a.lba) :
    (p.step m').1 = (p.step m).1 ∧ EqOff D (p.step m).2.disk (p.step m').2.disk ∧
      EqOn D m.disk (p.step m).2.disk ∧ EqOn D m'.disk (p.step m').2.disk ∧
      ∃ L' : β → Prop, (p.step m).1.Clean L' ∧
        ∀ b, L' b → (p.step m').2.buf b = (p.step m).2.buf b := by
  cases p with
  | ret a => exact ⟨rfl, hd, fun _ _ => rfl, fun _ _ => rfl, L, hc, hb⟩
  | diverge => exact ⟨rfl, hd, fun _ _ => rfl, fun _ _ => rfl, L, hc, hb⟩
  | readSector b lba k =>
    have hlba : ¬ D lba := ht ⟨false, lba⟩ (List.mem_singleton.mpr rfl)
    refine ⟨rfl, hd, fun _ _ => rfl, fun _ _ => rfl, _, hc, fun b' hb' => ?_⟩
    show (m'.fetch b lba).buf b' = (m.fetch b lba).buf b'
    by_cases he : b' = b
    · rw [he, Mem.fetch_buf, Mem.fetch_buf, hd lba hlba]
    · rw [Mem.fetch_buf_ne _ _ he, Mem.fetch_buf_ne _ _ he, hb b' (hb'.resolve_left he)]
  | writeSector b lba k =>
    have hlba : ¬ D lba := ht ⟨true, lba⟩ (List.mem_singleton.mpr rfl)
    have hsame : m'.buf b = m.buf b := hb b hc.1
    refine ⟨rfl, ?_, eqOn_putSector _ _ hlba, eqOn_putSector _ _ hlba, L, hc.2, hb⟩
    show EqOff D ( BlockIO.putSector m.disk lba (m.buf b)) ( BlockIO.putSector m'.disk lba (m'.buf b))
    rw [hsame]
    exact hd.putSector lba _
  | load b k =>
    have hsame : m'.buf b = m.buf b := hb b hc.1
    refine ⟨?_, hd, fun _ _ => rfl, fun _ _ => rfl, L, hc.2 (m.buf b), hb⟩
    show k (m'.buf b) = k (m.buf b)
    rw [hsame]
  | store b s k =>
    refine ⟨rfl, hd, fun _ _ => rfl, fun _ _ => rfl, _, hc, fun b' hb' => ?_⟩
    show (m'.setBuf b s).buf b' = (m.setBuf b s).buf b'
    by_cases he : b' = b
    · rw [he, Mem.setBuf_buf, Mem.setBuf_buf]
    · rw [Mem.setBuf_buf_ne _ _ he, Mem.setBuf_buf_ne _ _ he, hb b' (hb'.resolve_left he)]

theorem advance_frame (n : Nat) {L : β → Prop} {p : Prog β σ α} {m m' : Mem β σ}
    (hc : p.Clean L) (hb : ∀ b, L b → m'.buf b = m.buf b) (hd : EqOff D m.disk m'.disk)
    (ht : ∀ a ∈ traceN n p m, ¬ D a.lba) :
    (advance n p m').1 = (advance n p m).1 ∧
      EqOff D (advance n p m).2.disk (advance n p m').2.disk ∧
      EqOn D m.disk (advance n p m).2.disk ∧ EqOn D m'.disk (advance n p m').2.disk ∧
      ∃ L' : β → Prop, (advance n p m).1.Clean L' ∧
        ∀ b, L' b → (advance n p m').2.buf b = (advance n p m).2.buf b := by
  induction n generalizing L p m m' with
  | zero => exact ⟨rfl, hd, fun _ _ => rfl, fun _ _ => rfl, L, hc, hb⟩
  | succ n ih =>
    obtain ⟨h1, h2, h3, h4, L', h5, h6⟩ :=
      step_frame p hc hb hd (fun a ha => ht a (List.mem_append_left _ ha))
    have hrest := ih h5 h6 h2 (fun a ha => ht a (List.mem_append_right _ ha))
    simp only [advance]
    rw [h1]
    exact ⟨hrest.1, hrest.2.1, h3.trans hrest.2.2.1, h4.trans hrest.2.2.2.1, hrest.2.2.2.2⟩

theorem run_advance (n : Nat) (p : Prog β σ α) (m : Mem β σ) :
    (advance n p m).1.run noFaults (advance n p m).2 = p.run noFaults m := by
  induction n generalizing p m with
  | zero => rfl
  | succ n ih =>
    simp only [advance]
    rw [ih]
    cases p with
    | ret a => rfl
    | diverge => rfl
    | readSector b lba k => rfl
    | writeSector b lba k => rfl
    | load b k => rfl
    | store b s k => rfl

theorem run_unwritten {p : Prog β σ α} {m m' : Mem β σ} {a : α}
    (h : p.run noFaults m = some (a, m')) {lba : Nat} (hl : ⟨true, lba⟩ ∉ p.trace m) :
    m'.disk lba = m.disk lba := by
  induction p generalizing m with
  | ret a =>
    simp only [run, Option.some.injEq, Prod.mk.injEq] at h
    rw [h.2]
  | diverge => cases h
  | readSector b x k ih =>
    exact ih true (m := m.fetch b x) h (fun hm => hl (List.mem_cons_of_mem _ hm))
  | writeSector b x k ih =>
    rw [ih true (m := m.flush b x) h (fun hm => hl (List.mem_cons_of_mem _ hm))]
    refine putSector_of_ne _ _ (fun he => hl ?_)
    rw [he]
    exact List.mem_cons_self
  | load b k ih => exact ih (m.buf b) h hl
  | store b s k ih => exact ih (m := m.setBuf b s) h hl

theorem advance_unwritten (n : Nat) (p : Prog β σ α) (m : Mem β σ) {lba : Nat}
    (hl : ⟨true, lba⟩ ∉ traceN n p m) : (advance n p m).2.disk lba = m.disk lba := by
  induction n generalizing p m with
  | zero => rfl
  | succ n ih =>
    simp only [advance]
    rw [ih _ _ (fun hm => hl (List.mem_append_right _ hm))]
    have hstep : ⟨true, lba⟩ ∉ p.access := fun hm => hl (List.mem_append_left _ hm)
    cases p with
    | ret a => rfl
    | diverge => rfl
    | readSector b x k => rfl
    | writeSector b x k =>
      refine putSector_of_ne _ _ (fun he => hstep ?_)
      rw [he]
      exact List.mem_singleton.mpr rfl
    | load b k => rfl
    | store b s k => rfl

end Prog

/-! ## Two programs -/

section Two

variable [DecidableEq β]

/-- `p` is stopped after `n` steps, `q` runs, `p` goes on: both results and the disk. -/
def interleave (n : Nat) (p : Prog β σ α) (q : Prog β σ γ) (m : Mem β σ) :
    Option (α × γ × (Nat → σ)) :=
  match q.run noFaults (Prog.advance n p m).2 with
  | none => none
  | some (b, m₂) =>
    match (Prog.advance n p m).1.run noFaults m₂ with
    | none => none
    | some (a, m₃) => some (a, b, m₃.disk)

/-- `p`, then `q`. -/
def serial (p : Prog β σ α) (q : Prog β σ γ) (m : Mem β σ) : Option (α × γ × (Nat → σ)) :=
  match p.run noFaults m with
  | none => none
  | some (a, m₁) =>
    match q.run noFaults m₁ with
    | none => none
    | some (b, m₂) => some (a, b, m₂.disk)

/-- No sector is accessed in both traces and written in one. -/
def NoConflict (t t' : List Access) : Prop :=
  ∀ a ∈ t, ∀ b ∈ t', a.lba = b.lba → a.write = false ∧ b.write = false

theorem NoConflict.not_written {t t' : List Access} (h : NoConflict t t') {b : Access}
    (hb : b ∈ t') : ⟨true, b.lba⟩ ∉ t :=
  fun hm => Bool.noConfusion (h _ hm b hb rfl).1

theorem NoConflict.symm {t t' : List Access} (h : NoConflict t t') : NoConflict t' t :=
  fun a ha b hb he => (h b hb a ha he.symm).symm

/-- At step `n` of `p`, the run of `q` disturbs `p` in no way: it leaves the buffers that the rest
of `p` relies on as they are, and it has no conflict with what `p` has done or with what is left. -/
structure Undisturbed (n : Nat) (p : Prog β σ α) (q : Prog β σ γ) (m : Mem β σ) (b : γ)
    (m₂ : Mem β σ) : Prop where
  back : q.run noFaults (Prog.advance n p m).2 = some (b, m₂)
  buffers : (Prog.advance n p m).1.Clean (fun x => m₂.buf x = (Prog.advance n p m).2.buf x)
  sectors : NoConflict (Prog.traceN n p m) (q.trace (Prog.advance n p m).2) ∨
    NoConflict (q.trace (Prog.advance n p m).2) ((Prog.advance n p m).1.trace m₂)

variable {n : Nat} {p : Prog β σ α} {q : Prog β σ γ} {m m₂ : Mem β σ} {b : γ}

omit [DecidableEq β] in
theorem Prog.SameOutcome.eq {d d' : Nat → σ} {r r' : Option (α × Mem β σ)}
    (h : Prog.SameOutcome (fun _ => False) d d' r r') :
    r.map (fun x => (x.1, x.2.disk)) = r'.map (fun x => (x.1, x.2.disk)) := by
  cases r with
  | none =>
    cases r' with
    | none => rfl
    | some _ => exact h.elim
  | some r =>
    cases r' with
    | none => exact h.elim
    | some r' =>
      have hd : r'.2.disk = r.2.disk := funext (fun lba => h.2.1 lba not_false)
      simp only [Option.map_some, h.1, hd]

/-- What `p` did before does not meet `q`: the outcome is that of `q` before `p`. -/
theorem interleave_eq_after (hp : p.Clean (fun _ => False)) (hq : q.Clean (fun _ => False))
    (hback : q.run noFaults (Prog.advance n p m).2 = some (b, m₂))
    (hbuf : (Prog.advance n p m).1.Clean (fun x => m₂.buf x = (Prog.advance n p m).2.buf x))
    (hno : NoConflict (Prog.traceN n p m) (q.trace (Prog.advance n p m).2)) :
    interleave n p q m = (serial q p m).map (fun r => (r.2.1, r.1, r.2.2)) := by
  -- `q` from the start
  have hqstart := Prog.run_frame (D := fun lba => ⟨true, lba⟩ ∈ Prog.traceN n p m) q
    (Prog.advance n p m).2 m hq (fun _ h => h.elim)
    (fun lba hl => (Prog.advance_unwritten n p m hl).symm) (fun a ha => hno.not_written ha)
  rw [hback] at hqstart
  cases hrun : q.run noFaults m with
  | none => rw [hrun] at hqstart; exact hqstart.elim
  | some r =>
    obtain ⟨b', m₂'⟩ := r
    rw [hrun] at hqstart
    obtain ⟨rfl, hoff, hon, hon'⟩ := hqstart
    have hunq : ∀ lba, ⟨true, lba⟩ ∉ q.trace (Prog.advance n p m).2 →
        m₂.disk lba = (Prog.advance n p m).2.disk lba := fun lba hl => Prog.run_unwritten hback hl
    -- then the first steps of `p`
    have hfirst : Prog.EqOff (fun lba => ⟨true, lba⟩ ∈ q.trace (Prog.advance n p m).2) m.disk
        m₂'.disk := by
      intro lba hl
      by_cases hw : ⟨true, lba⟩ ∈ Prog.traceN n p m
      · exact hon' lba hw
      · rw [hoff lba hw, hunq lba hl, Prog.advance_unwritten n p m hw]
    obtain ⟨hres, hoff₁, _, hon₁, L, hL, hbL⟩ := Prog.advance_frame n hp (fun _ h => h.elim) hfirst
      (fun a ha => hno.symm.not_written ha)
    have hdisk : (Prog.advance n p m₂').2.disk = m₂.disk := by
      funext lba
      by_cases hw : ⟨true, lba⟩ ∈ q.trace (Prog.advance n p m).2
      · rw [hon₁ lba hw]
        exact hoff lba (hno.not_written hw)
      · rw [hoff₁ lba hw, hunq lba hw]
    -- and the rest of `p`
    have hlast := Prog.run_frame (D := fun _ => False) (Prog.advance n p m).1
      m₂ (Prog.advance n p m₂').2 (hbuf.inter hL)
      (fun x hx => (hbL x hx.2).trans hx.1.symm)
      (fun lba _ => by rw [hdisk]) (fun _ _ => not_false)
    have hsame := hlast.eq
    rw [← hres, Prog.run_advance, hres] at hsame
    unfold interleave serial
    rw [hback, hrun]
    cases h1 : (Prog.advance n p m).1.run noFaults m₂ with
    | none =>
      rw [h1] at hsame
      simp only [h1, Option.map_eq_none_iff.mp hsame.symm, Option.map_none]
    | some r₁ =>
      rw [h1, Option.map_some] at hsame
      obtain ⟨r₂, h2, he⟩ := Option.map_eq_some_iff.mp hsame.symm
      simp only [Prod.mk.injEq] at he
      simp only [h1, h2, Option.map_some, he.1, he.2]

/-- What is left of `p` does not meet `q`: the outcome is that of `p` before `q`. -/
theorem interleave_eq_before (hq : q.Clean (fun _ => False))
    (hback : q.run noFaults (Prog.advance n p m).2 = some (b, m₂))
    (hbuf : (Prog.advance n p m).1.Clean (fun x => m₂.buf x = (Prog.advance n p m).2.buf x))
    (hno : NoConflict (q.trace (Prog.advance n p m).2) ((Prog.advance n p m).1.trace m₂)) :
    interleave n p q m = serial p q m := by
  have hunq : ∀ lba, ⟨true, lba⟩ ∉ q.trace (Prog.advance n p m).2 →
      m₂.disk lba = (Prog.advance n p m).2.disk lba := fun lba hl => Prog.run_unwritten hback hl
  -- the rest of `p` without `q` before it
  have hrest := Prog.run_frame (D := fun lba => ⟨true, lba⟩ ∈ q.trace (Prog.advance n p m).2)
    (Prog.advance n p m).1 m₂ (Prog.advance n p m).2 hbuf (fun _ h => h.symm)
    (fun lba hl => (hunq lba hl).symm) (fun a ha => hno.not_written ha)
  rw [Prog.run_advance] at hrest
  unfold interleave serial
  rw [hback]
  cases h1 : (Prog.advance n p m).1.run noFaults m₂ with
  | none =>
    rw [h1] at hrest
    cases h2 : p.run noFaults m with
    | none => simp only [h1]
    | some _ => rw [h2] at hrest; exact hrest.elim
  | some r₁ =>
    obtain ⟨a, m₃⟩ := r₁
    rw [h1] at hrest
    cases h2 : p.run noFaults m with
    | none => rw [h2] at hrest; exact hrest.elim
    | some r₂ =>
      obtain ⟨a', m₃'⟩ := r₂
      rw [h2] at hrest
      obtain ⟨rfl, hoff, _, hon'⟩ := hrest
      have hunp : ∀ lba, ⟨true, lba⟩ ∉ (Prog.advance n p m).1.trace m₂ →
          m₃.disk lba = m₂.disk lba := fun lba hl => Prog.run_unwritten h1 hl
      -- `q` at the end
      have hend := Prog.run_frame
        (D := fun lba => ⟨true, lba⟩ ∈ (Prog.advance n p m).1.trace m₂) q
        (Prog.advance n p m).2 m₃' hq (fun _ h => h.elim)
        (fun lba hl => by
          by_cases hw : ⟨true, lba⟩ ∈ q.trace (Prog.advance n p m).2
          · exact hon' lba hw
          · rw [hoff lba hw, hunp lba hl, hunq lba hw])
        (fun a ha => hno.symm.not_written ha)
      rw [hback] at hend
      cases h3 : q.run noFaults m₃' with
      | none => rw [h3] at hend; exact hend.elim
      | some r₃ =>
        obtain ⟨b', m₄⟩ := r₃
        rw [h3] at hend
        obtain ⟨rfl, hoff₂, _, hon₂⟩ := hend
        have hdisk : m₄.disk = m₃.disk := by
          funext lba
          by_cases hw : ⟨true, lba⟩ ∈ (Prog.advance n p m).1.trace m₂
          · rw [hon₂ lba hw]
            exact hoff lba (hno.not_written hw)
          · rw [hoff₂ lba hw, hunp lba hw]
        simp only [h1, h3, hdisk]

theorem interleave_eq_serial (hp : p.Clean (fun _ => False)) (hq : q.Clean (fun _ => False))
    (h : Undisturbed n p q m b m₂) :
    interleave n p q m = serial p q m ∨
      interleave n p q m = (serial q p m).map (fun r => (r.2.1, r.1, r.2.2)) := by
  rcases h.sectors with hno | hno
  · exact .inr (interleave_eq_after hp hq h.back h.buffers hno)
  · exact .inl (interleave_eq_before hq h.back h.buffers hno)

end Two

end BlockIO
end MiniDos
