import MiniDos.Files.Shape

/-!
# MiniDos.Files.Context

What a file system call leaves of the current drive. The bodies pair `enterDriveContext` and
`leaveDriveContext` by hand, and entering may fail after it has switched drives.

* `wp_context`: a call that enters, and leaves when it has entered.
* `syscall_restores_iff`: a call leaves both current drives as it found them exactly when it does not
  enter, or enters and comes back to the drive, or fails to enter the drive that is current.
-/

namespace MiniDos
namespace Files

open BlockIO Fat16 Drive

variable {fails : Nat → Bool} {fuel : Nat}

/-! ## The kernel's drives -/

theorem none_valid {drives : Drives} {c : Nat}
    (h : (driveGetInfo drives (settledDrive drives c)).isSome = false) (l : Nat) :
    (driveGetInfo drives l).isSome = false := by
  unfold settledDrive at h
  split at h
  · rename_i hc
    rw [hc] at h
    cases h
  · cases hf : (List.range maxDrives).find? (fun i => (driveGetInfo drives i).isSome) with
    | some i =>
      rw [hf] at h
      have hi := List.find?_some (p := fun i => (driveGetInfo drives i).isSome) hf
      exact absurd (hi.symm.trans h) (by decide)
    | none =>
      by_cases hlt : l < maxDrives
      · simpa using List.find?_eq_none.mp hf l (List.mem_range.mpr hlt)
      · simp [driveGetInfo, hlt]

theorem settledDrive_idem (drives : Drives) (c : Nat) :
    settledDrive drives (settledDrive drives c) = settledDrive drives c := by
  cases h : (driveGetInfo drives (settledDrive drives c)).isSome with
  | true => rw [settledDrive, if_pos h]
  | false =>
    have hc := none_valid h c
    rw [settledDrive, if_neg (by rw [h]; decide)]
    conv => rhs; rw [settledDrive, if_neg (by rw [hc]; decide)]

theorem current_of_settled {k k' : Kernel} (hd : k'.drives = k.drives)
    (hc : k'.currentDrive = k.current) : k'.current = k.current := by
  unfold Kernel.current at hc ⊢
  rw [hd, hc, settledDrive_idem]

def SameDrives (s s' : Kernel × Task) : Prop :=
  s'.1.drives = s.1.drives ∧ s'.1.currentDrive = s.1.currentDrive ∧ s'.1.letter = s.1.letter

/-- The steps inside a context. -/
def Keeps {α : Type} (p : Action (Kernel × Task) α) : Prop :=
  ∀ s, p.wp (fun _ s' => SameDrives s s') s

namespace Keeps

variable {α β : Type}

theorem pure (a : α) : Keeps (pure a) := fun s => by simp [SameDrives]

theorem bind {p : Action (Kernel × Task) α} {f : α → Action (Kernel × Task) β} (hp : Keeps p)
    (hf : ∀ a, Keeps (f a)) : Keeps (p >>= f) := by
  intro s
  rw [Action.wp_bind]
  refine Action.wp_mono (hp s) (fun a s₁ h₁ => Action.wp_mono (hf a s₁) (fun b s₂ h₂ => ?_))
  exact ⟨h₂.1.trans h₁.1, h₂.2.1.trans h₁.2.1, h₂.2.2.trans h₁.2.2⟩

theorem setTask (f : Task → Task) : Keeps (setTask f) := fun s => by
  simp [Files.setTask, SameDrives]

theorem fat (p : Globals → DiskProg α) : Keeps (fat fails p) := by
  intro s
  simp only [Files.fat, Action.wp_onFst, Action.wp_bind, Action.wp_modify, Action.wp_get]
  intro a k' hrun
  obtain ⟨⟨b, m⟩, _, heq⟩ := Option.map_eq_some_iff.mp hrun
  cases heq
  exact ⟨rfl, rfl, rfl⟩

end Keeps

/-! ## Entering and leaving -/

/-- `fat16_init` reads the boot sector of the drive and accepts it. -/
def Kernel.Mounts (fails : Nat → Bool) (k : Kernel) (letter : Nat) : Prop :=
  k.Valid letter ∧ fails k.accesses = false ∧
    ∃ g, Fat16.fat16Init .cpu k.globals (k.disks letter 0) = some (g, true)

/-- The context of the task's drive can be entered. -/
def Opens (fails : Nat → Bool) (k : Kernel) (t : Task) : Prop :=
  t.fat16Initialized = true ∨ k.Mounts fails t.drive

theorem readBoot_run (f : Nat → Bool) (m : DriverMem) : readBoot.run f m =
    if f m.accesses then some (none, m.tick) else some (some (m.disk 0), m.fetch .main 0) := by
  cases h : f m.accesses with
  | true => simp [readBoot, bind, Prog.bind, readSector, Prog.run, h, pure]
  | false => simp [readBoot, bind, Prog.bind, readSector, load, Prog.run, h, pure]

theorem failing_eq_true {k : Kernel} {n : Nat} :
    k.failing fails n = true ↔ ¬ k.Valid k.letter ∨ fails n = true := by
  simp [Kernel.failing]

theorem wp_readBoot {Q : Option Sector → Kernel → Prop} {k : Kernel}
    (hfail : ¬ k.Valid k.letter ∨ fails k.accesses = true → ∀ m, m.disk = k.disks k.letter →
      Q none (k.setMem m))
    (hread : k.Valid k.letter → fails k.accesses = false → ∀ m, m.disk = k.disks k.letter →
      Q (some (k.disks k.letter 0)) (k.setMem m)) : (onDrive fails readBoot).wp Q k := by
  intro boot k₁ hrun
  obtain ⟨⟨boot', m⟩, hboot, heq⟩ := Option.map_eq_some_iff.mp hrun
  cases heq
  rw [readBoot_run] at hboot
  split at hboot
  · rename_i hf
    cases hboot
    exact hfail (failing_eq_true.mp hf) _ rfl
  · rename_i hf
    cases hboot
    rw [failing_eq_true, not_or, not_not, Bool.not_eq_true] at hf
    exact hread hf.1 hf.2 _ rfl

theorem wp_init (k : Kernel) : (init fails).wp (fun ok k' => (ok = true ↔ k.Mounts fails k.letter) ∧
    k'.drives = k.drives ∧ k'.currentDrive = k.currentDrive ∧ k'.letter = k.letter) k := by
  unfold init
  rw [Action.wp_bind]
  refine wp_readBoot (fun hf m _ => ?_) (fun hv hf m _ => ?_)
  · rw [Action.wp_pure]
    refine ⟨⟨(by rintro ⟨⟩), fun hm => ?_⟩, rfl, rfl, rfl⟩
    obtain h | h := hf
    · exact absurd hm.1 h
    · exact absurd (h.symm.trans hm.2.1) (by decide)
  · simp only [Action.wp_bind, Action.wp_get]
    cases hinit : Fat16.fat16Init .cpu k.globals (k.disks k.letter 0) with
    | none => simp [Kernel.setMem, hinit]
    | some r =>
      simp only [Kernel.setMem, hinit, Action.wp_bind, Action.wp_modify, Action.wp_pure]
      refine ⟨⟨?_, ?_⟩, trivial, trivial, trivial⟩
      · intro hok
        exact ⟨hv, hf, r.1, by rw [hinit, ← hok]⟩
      · rintro ⟨_, _, g, hg⟩
        rw [hinit] at hg
        cases hg
        rfl

def Switched (k : Kernel) (t : Task) (s : Kernel × Task) : Prop :=
  s.1.drives = k.drives ∧ s.1.letter = t.drive ∧
    s.1.currentDrive = if k.Valid t.drive then t.drive else k.current

/-- The kernel between the switch and `fat16_init`. -/
def Kernel.switch (k : Kernel) (letter : Nat) : Kernel :=
  { k with
    currentDrive := if k.Valid letter then letter else k.current
    letter := letter }

theorem switch_mounts {k : Kernel} {letter : Nat} :
    (k.switch letter).Mounts fails letter ↔ k.Mounts fails letter := Iff.rfl

theorem wp_switch {Q : Nat → Kernel → Prop} {k : Kernel} {letter : Nat}
    (h : Q k.current (k.switch letter)) :
    (do
      let previous ← driveGetCurrent
      driveSetCurrent letter
      setDrive letter
      pure previous : Action Kernel Nat).wp Q k := by
  unfold driveGetCurrent driveSetCurrent setDrive
  simp only [Action.wp_bind, Action.wp_get, Action.wp_modify, Action.wp_pure]
  by_cases hv : k.Valid letter
  · have hv' : Kernel.Valid { k with currentDrive := k.current } letter := hv
    rw [if_pos hv']
    simpa [Kernel.switch, hv] using h
  · have hv' : ¬ Kernel.Valid { k with currentDrive := k.current } letter := hv
    rw [if_neg hv']
    simpa [Kernel.switch, hv] using h

/-- Entering is the switch of the drive, and `fat16_init` for a task that has not mounted it. -/
theorem wp_entering {k : Kernel} {t : Task} {Q : Bool × Nat → Kernel × Task → Prop}
    (hready : t.fat16Initialized = true → Q (true, k.current) (k.switch t.drive, t))
    (hinit : ¬ t.fat16Initialized = true → (init fails).wp
      (fun ok k' => Q (ok, k.current) (k', { t with fat16Initialized := ok })) (k.switch t.drive)) :
    (enterDriveContext fails).wp Q (k, t) := by
  have hswitch := @wp_switch (fun previous k' => previous = k.current ∧ k' = k.switch t.drive) k
    t.drive ⟨rfl, rfl⟩
  unfold enterDriveContext getTask
  simp only [Action.wp_bind, Action.wp_onFst, Action.wp_get, Action.wp_pure] at hswitch ⊢
  refine Action.wp_mono hswitch (fun previous k₁ h => Action.wp_mono h (fun _ k₂ h => ?_))
  refine Action.wp_mono h (fun _ k₃ h => ?_)
  obtain ⟨rfl, rfl⟩ := h
  refine Action.wp_ite (fun hflag => (Action.wp_pure _).mpr (hready hflag)) (fun hflag => ?_)
  simp only [Action.wp_bind, Action.wp_onFst, setTask, Action.wp_modify, Action.wp_pure]
  exact hinit hflag

theorem wp_enterDriveContext (k : Kernel) (t : Task) :
    (enterDriveContext fails).wp (fun r s => r.2 = k.current ∧
      (r.1 = true ↔ Opens fails k t) ∧ Switched k t s) (k, t) := by
  refine wp_entering (fun hflag => ?_) (fun hflag => ?_)
  · exact ⟨rfl, ⟨fun _ => .inl hflag, fun _ => rfl⟩, rfl, rfl, rfl⟩
  · refine Action.wp_mono (wp_init _) (fun ok k₄ h => ?_)
    obtain ⟨hok, hd, hc, hl⟩ := h
    refine ⟨rfl, hok.trans ?_, hd, hl, hc⟩
    exact ⟨fun hm => .inr (switch_mounts.mp hm), fun ho => switch_mounts.mpr (ho.resolve_left hflag)⟩

/-- Behind the context: the drive of before is current, for the driver as well. -/
def Restored (k : Kernel) (s : Kernel × Task) : Prop :=
  s.1.drives = k.drives ∧ s.1.currentDrive = k.current ∧ s.1.letter = k.current

namespace Switched

variable {k : Kernel} {t : Task} {s : Kernel × Task} {α β : Type}

theorem bind {p : Action (Kernel × Task) α} {f : α → Action (Kernel × Task) β}
    {Q : β → Kernel × Task → Prop} (h : Switched k t s) (hp : Keeps p)
    (hf : ∀ a s', Switched k t s' → (f a).wp Q s') : (p >>= f).wp Q s := by
  rw [Action.wp_bind]
  refine Action.wp_mono (hp s) (fun a s' hs => hf a s' ?_)
  exact ⟨hs.1.trans h.1, hs.2.2.trans h.2.1, hs.2.1.trans h.2.2⟩

theorem leave (h : Switched k t s) (a : α) :
    (do
      leaveDriveContext k.current
      pure a : Action (Kernel × Task) α).wp (fun _ s' => Restored k s') s := by
  unfold leaveDriveContext driveSetCurrent setDrive
  simp only [Action.wp_bind, Action.wp_onFst, Action.wp_modify, Action.wp_pure]
  obtain ⟨hd, _, hc⟩ := h
  have hvalid : s.1.Valid k.current ↔ k.Valid k.current := by simp only [Kernel.Valid, hd]
  by_cases hv : k.Valid k.current
  · rw [if_pos (hvalid.mpr hv)]
    exact ⟨hd, rfl, rfl⟩
  · rw [if_neg (fun h => hv (hvalid.mp h))]
    refine ⟨hd, ?_, rfl⟩
    have hnone : ¬ k.Valid t.drive := by
      have := none_valid (by simpa [Kernel.Valid, Kernel.current] using hv) t.drive
      simp [Kernel.Valid, this]
    rw [hc, if_neg hnone]

end Switched

/-- What a call leaves of the drives, when `enters` says whether it enters a context. -/
structure Outcome (fails : Nat → Bool) (k : Kernel) (t : Task) (enters : Prop)
    (s : Kernel × Task) : Prop where
  refused : ¬ enters → SameDrives (k, t) s
  restored : enters → Opens fails k t → Restored k s
  stranded : enters → ¬ Opens fails k t → Switched k t s

variable {k : Kernel} {t : Task} {args : Args}

theorem wp_context {enters : Prop} {f : Bool × Nat → Call} {x : Int} (he : enters)
    (hout : f (false, k.current) = pure x)
    (hin : ∀ s, Switched k t s → (f (true, k.current)).wp (fun _ s' => Restored k s') s) :
    (enterDriveContext fails >>= f).wp (fun _ s => Outcome fails k t enters s) (k, t) := by
  rw [Action.wp_bind]
  refine Action.wp_mono (wp_enterDriveContext k t) ?_
  rintro ⟨entered, previous⟩ s ⟨hprev, hopens, hs⟩
  obtain rfl : previous = k.current := hprev
  cases entered with
  | true =>
    have ho := hopens.mp rfl
    exact Action.wp_mono (hin s hs)
      (fun _ s' h => ⟨fun h' => absurd he h', fun _ _ => h, fun _ h' => absurd ho h'⟩)
  | false =>
    have ho : ¬ Opens fails k t := fun h => Bool.false_ne_true (hopens.mpr h)
    rw [hout, Action.wp_pure]
    exact ⟨fun h' => absurd he h', fun _ h' => absurd h' ho, fun _ _ => hs⟩

/-! ## The calls -/

theorem Body.keeps {α : Type} {p : Action (Kernel × Task) α} (h : Body fails p) : Keeps p := by
  induction h with
  | pure a => exact .pure a
  | bind hp hf ihp ihf => exact .bind ihp ihf
  | look => exact fun s => by simp [SameDrives]
  | change f => exact .setTask f
  | driver hp => exact .fat _

theorem Framed.restored {p : Call} (h : Framed fails k.current p) {s : Kernel × Task}
    (hs : Switched k t s) : p.wp (fun _ s' => Restored k s') s := by
  induction h generalizing s with
  | leave x => exact hs.leave x
  | step hp hf ih => exact hs.bind hp.keeps (fun a s hs => ih a hs)

theorem Shaped.outcome {enters calls : Prop} {p : Call} (h : Shaped fails t enters calls p) :
    p.wp (fun _ s => Outcome fails k t enters s) (k, t) := by
  cases h with
  | refused hno hp =>
    intro x s hrun
    obtain ⟨x', t', hp, _⟩ := hp k
    cases hp.symm.trans hrun
    exact ⟨fun _ => ⟨rfl, rfl, rfl⟩, fun he => absurd he hno, fun he => absurd he hno⟩
  | entered he hp hout hin hidle =>
    intro x s hrun
    rw [hp] at hrun
    exact wp_context he (hout _) (fun s hs => (hin _).restored hs) x s hrun

/-- The call is turned down, or enters its context with both current drives the same, or fails to
enter a drive that both name already. -/
def ComesBack (fails : Nat → Bool) (num : Syscall) (args : Args) (k : Kernel) (t : Task) : Prop :=
  Enters num t args →
    (Opens fails k t → k.letter = k.current) ∧
      (¬ Opens fails k t → t.drive = k.letter ∧ (k.Valid t.drive → t.drive = k.current))

/-- When a call returns, `drive_get_current` and the driver are on the drives they were on before
exactly if it comes back. -/
theorem syscall_restores_iff {num : Syscall} {x : Int} {s : Kernel × Task}
    (hrun : syscall fails fuel num args (k, t) = some (x, s)) :
    (s.1.current = k.current ∧ s.1.letter = k.letter) ↔ ComesBack fails num args k t := by
  have hout : Outcome fails k t (Enters num t args) s := (shaped_syscall num).outcome x s hrun
  by_cases he : Enters num t args
  case neg =>
    obtain ⟨hd, hc, hl⟩ := hout.refused he
    have hcurrent : s.1.current = k.current := by rw [Kernel.current, hd, hc, Kernel.current]
    exact ⟨fun _ h => absurd h he, fun _ => ⟨hcurrent, hl⟩⟩
  case pos =>
    by_cases ho : Opens fails k t
    · obtain ⟨hd, hc, hl⟩ := hout.restored he ho
      rw [current_of_settled hd hc, hl]
      constructor
      · exact fun h _ => ⟨fun _ => h.2.symm, fun hno => absurd ho hno⟩
      · exact fun h => ⟨rfl, ((h he).1 ho).symm⟩
    · obtain ⟨hd, hl, hc⟩ := hout.stranded he ho
      rw [hl]
      have hcurrent : s.1.current = k.current ↔ (k.Valid t.drive → t.drive = k.current) := by
        by_cases hv : k.Valid t.drive
        · rw [if_pos hv] at hc
          have hv' : (driveGetInfo s.1.drives s.1.currentDrive).isSome = true := by
            rw [hd, hc]
            exact hv
          rw [Kernel.current, settledDrive, if_pos hv', hc]
          exact ⟨fun h _ => h, fun h => h hv⟩
        · rw [if_neg hv] at hc
          rw [current_of_settled hd hc]
          exact ⟨fun _ h => absurd h hv, fun _ => rfl⟩
      rw [hcurrent]
      constructor
      · exact fun h _ => ⟨fun h' => absurd h' ho, fun _ => ⟨h.2, h.1⟩⟩
      · exact fun h => ⟨((h he).2 ho).2, ((h he).2 ho).1⟩

/-- Two drives without a boot sector; the first one is current. -/
def blankKernel : Kernel where
  drives := fun l => if l < 2 then some ⟨0, l, 64 * l, 64, 0x01⟩ else none
  currentDrive := 0
  letter := 0
  globals := smallVolume
  disks := fun _ => blankDisk
  buf := fun _ => Sector.zero
  accesses := 0
  stores := 0
  begun := []

/-- A task on `drive` in its root directory. -/
def rootTask (drive : Nat) (initialized : Bool) : Task where
  drive := drive
  fat16Initialized := initialized
  currentDirCluster := 0
  currentPath := pathReset
  appClipMode := 0
  appClipName := []
  appClipSrcCluster := 0
  appSlotBytes := 0x10000

/-- A call with the one-letter name `c` at the start of the app's memory. -/
def nameArgs (c : Byte) : Args where
  a0 := 0x01000000
  a1 := 0
  a2 := 0
  mem := fun i => if i = loadVirtBase then c else 0

theorem syscall_restores_set : ∃ x s,
    syscall noFaults 3 .fileSize (nameArgs 0x58) (blankKernel, rootTask 1 true) = some (x, s) ∧
      ((s.1.current = 0 ∧ s.1.letter = 0) ↔
        ComesBack noFaults .fileSize (nameArgs 0x58) blankKernel (rootTask 1 true)) := by
  have hrun : (syscall noFaults 3 .fileSize (nameArgs 0x58)
      (blankKernel, rootTask 1 true)).isSome := by decide +kernel
  obtain ⟨⟨x, s⟩, hrun⟩ := Option.isSome_iff_exists.mp hrun
  exact ⟨x, s, hrun, syscall_restores_iff hrun⟩

/-- `fat16_init` refuses the drive of the task, and its drive stays the current one. -/
theorem syscall_strands_drive : ∃ x s,
    syscall noFaults 3 .fileSize (nameArgs 0x58) (blankKernel, rootTask 1 false) = some (x, s) ∧
      blankKernel.current = 0 ∧ s.1.current = 1 ∧ s.1.letter = 1 := by
  have hrun : (syscall noFaults 3 .fileSize (nameArgs 0x58)
      (blankKernel, rootTask 1 false)).isSome := by decide +kernel
  have hend : ∀ r ∈ syscall noFaults 3 .fileSize (nameArgs 0x58) (blankKernel, rootTask 1 false),
      r.2.1.current = 1 ∧ r.2.1.letter = 1 := by decide +kernel
  obtain ⟨⟨x, s⟩, hrun⟩ := Option.isSome_iff_exists.mp hrun
  exact ⟨x, s, hrun, by decide, hend _ hrun⟩

end Files
end MiniDos
