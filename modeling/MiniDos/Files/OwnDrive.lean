import MiniDos.Files.Serving

/-!
# MiniDos.Files.OwnDrive

A system call of a task changes the disk of the task's drive only, whatever fails.

* `Leaves`, `Body.leaves`: inside a context the driver keeps its drive and its globals.
* `syscall_spares`: what any call of a task leaves as it was.
-/

namespace MiniDos
namespace Files

open BlockIO Fat16 Drive

variable {fails : Nat → Bool} {fuel : Nat} {k k' : Kernel} {t : Task} {args : Args} {α σ : Type}

/-- From `k` to `k'` the driver was on one drive. -/
structure Leaves (k k' : Kernel) : Prop where
  drives : k'.drives = k.drives
  letter : k'.letter = k.letter
  globals : k'.globals = k.globals
  elsewhere : Elsewhere k.letter k k'

theorem Leaves.refl (k : Kernel) : Leaves k k := ⟨rfl, rfl, rfl, fun _ _ => rfl⟩

theorem Leaves.trans {k'' : Kernel} (h : Leaves k k') (h' : Leaves k' k'') : Leaves k k'' := by
  refine ⟨h'.drives.trans h.drives, h'.letter.trans h.letter, h'.globals.trans h.globals, ?_⟩
  have helse := h'.elsewhere
  rw [h.letter] at helse
  exact h.elsewhere.trans helse

theorem leaves_setMem (k : Kernel) (m : DriverMem) : Leaves k (k.setMem m) :=
  ⟨rfl, rfl, rfl, fun _ hl => if_neg hl⟩

theorem wp_fat_leaves (p : Globals → DiskProg α) {s : Kernel × σ} :
    (fat fails p).wp (fun _ s' => Leaves s.1 s'.1 ∧ s'.2 = s.2) s := by
  unfold Files.fat
  simp only [Action.wp_onFst, Action.wp_bind, Action.wp_modify, Action.wp_get]
  intro a k' hcall
  obtain ⟨⟨b, m⟩, _, heq⟩ := Option.map_eq_some_iff.mp hcall
  cases heq
  have hbegin : Leaves s.1 s.1.begin := ⟨rfl, rfl, rfl, fun _ _ => rfl⟩
  exact ⟨hbegin.trans (leaves_setMem _ m), trivial⟩

theorem wp_fat_still {p : Globals → DiskProg α} {R : α → Prop}
    (hp : ∀ g, (p g).Confined (fun _ => False) R) {s : Kernel × σ} :
    (fat fails p).wp (fun _ s' => Leaves s.1 s'.1 ∧ s'.1.disks = s.1.disks ∧ s'.2 = s.2) s := by
  intro a s' hrun
  obtain ⟨hleaves, hsame⟩ := wp_fat_leaves p a s' hrun
  unfold Files.fat at hrun
  obtain ⟨⟨b, k'⟩, hcall, heq⟩ := Option.map_eq_some_iff.mp hrun
  obtain ⟨⟨c, m⟩, hprog, heq'⟩ := Option.map_eq_some_iff.mp hcall
  cases heq
  cases heq'
  exact ⟨hleaves, Kernel.setMem_disks (funext (fun lba => ((hp _).run hprog).2 lba not_false)), hsame⟩

theorem wp_fat_finds {p : Globals → DiskProg α} {R : α → Prop} {s : Kernel × σ}
    (hp : ∀ m : DriverMem, m.disk = s.1.disks s.1.letter →
      (p s.1.globals).wp Ctx.noisy (fun a _ => R a) m) :
    (fat fails p).wp (fun a _ => R a) s := by
  intro a s' hrun
  unfold Files.fat at hrun
  obtain ⟨⟨b, k'⟩, hcall, heq⟩ := Option.map_eq_some_iff.mp hrun
  obtain ⟨⟨c, m⟩, hprog, heq'⟩ := Option.map_eq_some_iff.mp hcall
  cases heq
  cases heq'
  exact (Prog.run_of_wp _ (fun _ _ => trivial) (hp s.1.begin.mem rfl)).1 c m hprog

theorem Body.leaves {p : Action (Kernel × σ) α} (h : Body fails p) {s : Kernel × σ} :
    p.wp (fun _ s' => Leaves s.1 s'.1) s := by
  induction h generalizing s with
  | pure a => exact (Action.wp_pure a).mpr (.refl _)
  | bind hp hf ihp ihf =>
    rw [Action.wp_bind]
    refine Action.wp_mono ihp (fun a s₁ h₁ => ?_)
    exact Action.wp_mono (ihf a) (fun _ s₂ h₂ => h₁.trans h₂)
  | look => simpa only [Action.wp_bind, Action.wp_get, Action.wp_pure] using Leaves.refl _
  | change f => exact (Action.wp_modify _).mpr (.refl _)
  | driver _ => exact Action.wp_mono (wp_fat_leaves _) (fun _ _ h => h.1)

/-! ## Contexts -/

/-- What a call of a task on drive `d` spares; `ready`: the task takes the drive for mounted. -/
structure Spares (d : Nat) (ready : Bool) (k k' : Kernel) : Prop where
  drives : k'.drives = k.drives
  elsewhere : Elsewhere d k k'
  globals : ready = true → k'.globals = k.globals

theorem Spares.refl (d : Nat) (ready : Bool) (k : Kernel) : Spares d ready k k :=
  ⟨rfl, fun _ _ => rfl, fun _ => rfl⟩

theorem Spares.trans {d : Nat} {ready : Bool} {k'' : Kernel} (h : Spares d ready k k')
    (h' : Spares d ready k' k'') : Spares d ready k k'' :=
  ⟨h'.drives.trans h.drives, h.elsewhere.trans h'.elsewhere,
    fun hready => (h'.globals hready).trans (h.globals hready)⟩

theorem Leaves.spares (h : Leaves k k') (ready : Bool) : Spares k.letter ready k k' :=
  ⟨h.drives, h.elsewhere, fun _ => h.globals⟩

theorem Aside.spares (h : Aside k k') (d : Nat) (ready : Bool) : Spares d ready k k' :=
  ⟨h.drives, fun _ _ => by rw [h.disks], fun _ => h.globals⟩

theorem wp_init_spares (d : Nat) : (init fails).wp (fun _ k' => Spares d false k k' ∧
    k'.letter = k.letter) k := by
  have hkeep : ∀ m : DriverMem, m.disk = k.disks k.letter → Elsewhere d k (k.setMem m) := by
    intro m hm l _
    rw [Kernel.setMem_disks hm]
  unfold init
  rw [Action.wp_bind]
  refine wp_readBoot (fun _ m hm => ?_) (fun _ _ m hm => ?_)
  · exact (Action.wp_pure _).mpr ⟨⟨rfl, hkeep m hm, fun h => by cases h⟩, rfl⟩
  · simp only [Action.wp_bind, Action.wp_get]
    split
    · exact Action.wp_diverge.mpr trivial
    · simp only [Action.wp_bind, Action.wp_modify, Action.wp_pure]
      exact ⟨⟨rfl, hkeep m hm, fun h => by cases h⟩, rfl⟩

theorem wp_enter_spares : (enterDriveContext fails).wp
    (fun _ s => Spares t.drive t.fat16Initialized k s.1 ∧ s.1.letter = t.drive) (k, t) := by
  have hspares : ∀ ready, Spares t.drive ready k (k.switch t.drive) :=
    fun _ => ⟨rfl, fun _ _ => rfl, fun _ => rfl⟩
  refine wp_entering (fun _ => ⟨hspares _, rfl⟩) (fun hflag => ?_)
  rw [Bool.not_eq_true] at hflag
  rw [hflag]
  exact Action.wp_mono (wp_init_spares t.drive) (fun _ k₄ h₄ => ⟨(hspares _).trans h₄.1, h₄.2⟩)

theorem Framed.spares {previous : Nat} {p : Call} (h : Framed fails previous p) (ready : Bool)
    {s : Kernel × Task} : p.wp (fun _ s' => Spares s.1.letter ready s.1 s'.1) s := by
  induction h generalizing s with
  | leave x =>
    obtain ⟨k, t⟩ := s
    exact wp_leave_aside (fun k' hk' => (Action.wp_pure x).mpr (hk'.spares _ _))
  | step hp hf ih =>
    rw [Action.wp_bind]
    refine Action.wp_mono hp.leaves (fun a s₁ h₁ => Action.wp_mono (ih a) (fun _ s₂ h₂ => ?_))
    rw [h₁.letter] at h₂
    exact (h₁.spares ready).trans h₂

theorem Shaped.spares {enters calls : Prop} {p : Call} (h : Shaped fails t enters calls p) :
    p.wp (fun _ s => Spares t.drive t.fat16Initialized k s.1) (k, t) := by
  cases h with
  | refused hno hp =>
    intro x s hrun
    obtain ⟨x', t', hp, _⟩ := hp k
    cases hp.symm.trans hrun
    exact .refl _ _ _
  | @entered f x he hp hout hin _ =>
    intro y s hrun
    rw [hp] at hrun
    revert y s
    show Action.wp _ _ _
    rw [Action.wp_bind]
    refine Action.wp_mono wp_enter_spares ?_
    rintro ⟨entered, previous⟩ s ⟨hs, hletter⟩
    cases entered with
    | false =>
      rw [hout, Action.wp_pure]
      exact hs
    | true =>
      refine Action.wp_mono ((hin previous).spares t.fat16Initialized) (fun _ s' h' => hs.trans ?_)
      rw [← hletter]
      exact h'

theorem syscall_spares (num : Syscall) :
    (syscall fails fuel num args).wp (fun _ s => Spares t.drive t.fat16Initialized k s.1) (k, t) :=
  (shaped_syscall num).spares

end Files
end MiniDos
