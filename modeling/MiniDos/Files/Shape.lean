import MiniDos.Fat.Confine
import MiniDos.Files.Model

/-!
# MiniDos.Files.Shape

What the file system calls have in common. Each checks its arguments, and then enters the drive
context of its task, calls the driver there, and leaves.

* `Body`: what stands inside a context; the calls of the driver there write within its reach only.
* `Framed`: a body that leaves in the end, on every branch.
* `shaped_syscall`: every call is turned down, or frames a body when it has entered.
-/

namespace MiniDos
namespace Files

open BlockIO Fat16 Drive

variable {fails : Nat → Bool} {fuel : Nat}

/-! ## Bodies -/

/-- Calls of the driver, and steps on a record of the caller's own. -/
inductive Body (fails : Nat → Bool) {σ : Type} : {α : Type} → Action (Kernel × σ) α → Prop where
  | pure {α : Type} (a : α) : Body fails (pure a)
  | bind {α β : Type} {p : Action (Kernel × σ) α} {f : α → Action (Kernel × σ) β}
      (hp : Body fails p) (hf : ∀ a, Body fails (f a)) : Body fails (p >>= f)
  | look : Body fails (Action.get >>= fun s => Pure.pure s.2)
  | change (f : σ → σ) : Body fails (Action.modify (fun s => (s.1, f s.2)))
  | driver {α : Type} {p : Globals → DiskProg α} {R : Globals → α → Prop}
      (hp : ∀ g, Fat16.Mounted g → Within g (p g) (R g)) : Body fails (fat fails p)

namespace Body

variable {σ α : Type} {dir : Nat} {name : CStr}

theorem ite {c : Prop} [Decidable c] {p q : Action (Kernel × σ) α} (hp : Body fails p)
    (hq : Body fails q) : Body fails (if c then p else q) := by
  split
  · exact hp
  · exact hq

theorem getTask : Body fails getTask := look

theorem setTask (f : Task → Task) : Body fails (setTask f) := change f

theorem findEntry :
    Body fails (fat fails (fun g => Fat16.findEntry g fuel dir name) : Action (Kernel × σ) _) :=
  .driver (fun _ _ => findEntry_confined fuel dir name)

theorem findDirCluster :
    Body fails (fat fails (fun g => Fat16.findDirCluster g fuel dir name) : Action (Kernel × σ) _) :=
  .driver (fun _ _ => findDirCluster_confined fuel dir name)

theorem getParentCluster :
    Body fails (fat fails (fun g => Fat16.getParentCluster g fuel dir) : Action (Kernel × σ) _) :=
  .driver (fun _ _ => getParentCluster_confined fuel dir)

theorem readFileFromDir {maxSize : Nat} :
    Body fails (fat fails (fun g => Fat16.readFileFromDir g fuel dir name maxSize) : Action (Kernel × σ) _) :=
  .driver (fun _ _ => readFileFromDir_confined fuel dir name maxSize)

theorem getEntryByIndex {index : Nat} :
    Body fails (fat fails (fun g => Fat16.getEntryByIndex g fuel dir index) : Action (Kernel × σ) _) :=
  .driver (fun _ _ => getEntryByIndex_confined fuel dir index)

theorem mkdir : Body fails (fat fails (fun g => Fat16.mkdir g fuel dir name) : Action (Kernel × σ) _) :=
  .driver (fun _ h => mkdir_within h.clusters h.sectorsPerCluster fuel dir name)

theorem rmdir : Body fails (fat fails (fun g => Fat16.rmdir g fuel dir name) : Action (Kernel × σ) _) :=
  .driver (fun _ h => rmdir_within h.clusters fuel dir name)

theorem deleteEntry :
    Body fails (fat fails (fun g => Fat16.deleteEntry g fuel dir name true) : Action (Kernel × σ) _) :=
  .driver (fun _ h => deleteEntry_within h.clusters fuel dir name true)

theorem copyFileBetweenDirs {dstDir : Nat} {dstName : CStr} : Body fails (fat fails
    (fun g => Fat16.copyFileBetweenDirs g fuel dir name dstDir dstName) : Action (Kernel × σ) _) :=
  .driver (fun _ h =>
    copyFileBetweenDirs_within h.clusters h.sectorsPerCluster fuel dir name dstDir dstName)

theorem updateEntry {newName : CStr} {firstCluster fileSize : Nat} {attributes : UInt8} :
    Body fails (fat fails (fun g => Fat16.updateEntry g fuel dir name newName firstCluster fileSize
      attributes) : Action (Kernel × σ) _) :=
  .driver (fun _ _ => updateEntry_within fuel dir name newName _ _ _)

end Body

/-! ## Frames -/

/-- `shell_apps_leave_drive_context` ends every branch. -/
inductive Framed (fails : Nat → Bool) (previous : Nat) : Call → Prop where
  | leave (x : Int) : Framed fails previous (do
      leaveDriveContext previous
      pure x)
  | step {α : Type} {p : Action (Kernel × Task) α} {f : α → Call} (hp : Body fails p)
      (hf : ∀ a, Framed fails previous (f a)) : Framed fails previous (p >>= f)

/-- The checks in front of `shell_apps_enter_drive_context` let the call through. -/
def Enters (num : Syscall) (t : Task) (args : Args) : Prop :=
  match num with
  | .fileSize | .mkdir | .rmdir | .deleteEntry | .clipSet =>
    (copyUserUpper t args.mem args.a0).isSome
  | .fileRead =>
    ¬ (args.a1 = 0 ∨ asInt args.a2 ≤ 0 ∨ ¬ userRangeValid t args.a1 args.a2) ∧
      (copyUserUpper t args.mem args.a0).isSome
  | .fileWrite =>
    ¬ ((args.a1 = 0 ∧ 0 < asInt args.a2) ∨ asInt args.a2 < 0 ∨
        (0 < asInt args.a2 ∧ ¬ userRangeValid t args.a1 args.a2)) ∧
      (copyUserUpper t args.mem args.a0).isSome
  | .listEntry =>
    ¬ (args.a1 = 0 ∨ ¬ userRangeValid t args.a1 13 ∨
      (args.a2 ≠ 0 ∧ ¬ userRangeValid t args.a2 4))
  | .copyFile | .moveFile | .renameEntry | .copyToDir | .moveToDir =>
    (copyUserUpper t args.mem args.a0).isSome ∧ (copyUserUpper t args.mem args.a1).isSome
  | .chdir =>
    ∃ nameA, copyUserString t args.mem args.a0 nameSize = some nameA ∧ driveName nameA = none ∧
      ¬ (nameA.at 0 = chBackslash ∨ nameA.at 0 = chSlash) ∧ ¬ (nameA.at 0 = chDot ∧ nameA.at 1 = 0)
  | .clipPaste => ¬ (t.appClipMode = 0 ∨ t.appClipName = [])

instance (t : Task) (args : Args) : ∀ num, Decidable (Enters num t args)
  | .fileSize | .mkdir | .rmdir | .deleteEntry | .clipSet => inferInstanceAs (Decidable (_ = true))
  | .fileRead => inferInstanceAs (Decidable (¬ (_ ∨ _ ∨ ¬ _ = true) ∧ _ = true))
  | .fileWrite => inferInstanceAs (Decidable (¬ (_ ∨ _ ∨ _ ∧ ¬ _ = true) ∧ _ = true))
  | .listEntry => inferInstanceAs (Decidable (¬ (_ ∨ ¬ _ = true ∨ _ ∧ ¬ _ = true)))
  | .copyFile | .moveFile | .renameEntry | .copyToDir | .moveToDir =>
    inferInstanceAs (Decidable (_ = true ∧ _ = true))
  | .chdir => inferInstanceAs (Decidable (∃ nameA,
      nameA ∈ copyUserString t args.mem args.a0 nameSize ∧ driveName nameA = none ∧
        ¬ (nameA.at 0 = chBackslash ∨ nameA.at 0 = chSlash) ∧
          ¬ (nameA.at 0 = chDot ∧ nameA.at 1 = 0)))
  | .clipPaste => inferInstanceAs (Decidable (¬ (_ ∨ _)))

/-- The call goes on to the driver once it has entered. -/
def Calls (num : Syscall) (t : Task) (args : Args) : Prop :=
  Enters num t args ∧
    (num = .clipPaste → args.a0 = 0 ∨ (copyUserString t args.mem args.a0 nameSize).isSome)

instance (num : Syscall) (t : Task) (args : Args) : Decidable (Calls num t args) :=
  inferInstanceAs (Decidable (_ ∧ (_ → _)))

theorem Enters.calls {num : Syscall} {t : Task} {args : Args} (h : Enters num t args)
    (hne : num ≠ .clipPaste) : Calls num t args :=
  ⟨h, fun he => absurd he hne⟩

/-- A call of the task `t`, when `enters` and `calls` say how far it gets. -/
inductive Shaped (fails : Nat → Bool) (t : Task) (enters calls : Prop) (p : Call) : Prop where
  | refused (hno : ¬ enters) (hp : ∀ k, ∃ x t', p (k, t) = some (x, k, t') ∧
      t'.fat16Initialized = t.fat16Initialized)
  | entered {f : Bool × Nat → Call} {x : Int} (he : enters)
      (hp : ∀ k, p (k, t) = (enterDriveContext fails >>= f) (k, t))
      (hout : ∀ previous, f (false, previous) = pure x)
      (hin : ∀ previous, Framed fails previous (f (true, previous)))
      (hidle : ¬ calls → ∃ x', ∀ previous, f (true, previous) = (do
        leaveDriveContext previous
        pure x'))

namespace Shaped

variable {t : Task} {enters calls : Prop}

theorem task {f : Task → Call} (h : Shaped fails t enters calls (f t)) :
    Shaped fails t enters calls (getTask >>= f) := by
  cases h with
  | refused hno hp => exact .refused hno hp
  | entered he hp hout hin hidle => exact .entered he hp hout hin hidle

theorem ite {c : Prop} [Decidable c] {p q : Call} (hp : c → Shaped fails t enters calls p)
    (hq : ¬ c → Shaped fails t enters calls q) :
    Shaped fails t enters calls (if c then p else q) := by
  split
  · exact hp ‹_›
  · exact hq ‹_›

theorem refuse (hno : ¬ enters) (x : Int) : Shaped fails t enters calls (pure x) :=
  .refused hno (fun _ => ⟨x, t, rfl, rfl⟩)

theorem named {o : Option CStr} {f : CStr → Call} {x : Int} : (enters → o.isSome) →
    (∀ name, o = some name → Shaped fails t enters calls (f name)) →
    Shaped fails t enters calls (match o with
      | none => pure x
      | some name => f name) := by
  intro hname h
  cases o with
  | none => exact .refuse (fun he => by cases hname he) x
  | some name => exact h name rfl

theorem twoNamed {o o' : Option CStr} {f : CStr → CStr → Call} {x : Int} :
    (enters → o.isSome ∧ o'.isSome) →
    (∀ nameA nameB, o = some nameA → o' = some nameB → Shaped fails t enters calls (f nameA nameB)) →
    Shaped fails t enters calls (match o, o' with
      | some nameA, some nameB => f nameA nameB
      | _, _ => pure x) := by
  intro hname h
  cases o with
  | none => exact .refuse (fun he => by cases (hname he).1) x
  | some nameA =>
    cases o' with
    | none => exact .refuse (fun he => by cases (hname he).2) x
    | some nameB => exact h nameA nameB rfl rfl

theorem move (hno : ¬ enters) {f : Task → Task} (hf : (f t).fat16Initialized = t.fat16Initialized)
    (x : Int) : Shaped fails t enters calls (do
      setTask f
      pure x) :=
  .refused hno (fun _ => ⟨x, f t, rfl, hf⟩)

theorem enter {f : Bool × Nat → Call} {x : Int} (he : enters) (hc : calls)
    (hout : ∀ previous, f (false, previous) = pure x)
    (hin : ∀ previous, Framed fails previous (f (true, previous))) :
    Shaped fails t enters calls (enterDriveContext fails >>= f) :=
  .entered he (fun _ => rfl) hout hin (fun h => absurd hc h)

end Shaped

/-! ## The calls -/

variable {t : Task} {args : Args}

theorem shaped_fileSize : Shaped fails t (Enters .fileSize t args) (Calls .fileSize t args)
    (fileSize fails fuel args) := by
  refine .task (.named (fun he => he) (fun nameA h => ?_))
  have he : Enters .fileSize t args := by simp [Enters, h]
  refine .enter he (he.calls (by decide)) (fun _ => rfl) (fun previous => ?_)
  refine .step .findEntry (fun found => ?_)
  cases found with
  | none => exact .leave _
  | some x => exact .leave _

theorem shaped_fileRead : Shaped fails t (Enters .fileRead t args) (Calls .fileRead t args)
    (fileRead fails fuel args) := by
  refine .task (.ite (fun hbad => .refuse (fun he => he.1 hbad) _) (fun hok => ?_))
  refine .named (fun he => he.2) (fun nameA h => ?_)
  have he : Enters .fileRead t args := ⟨hok, by simp [h]⟩
  exact .enter he (he.calls (by decide)) (fun _ => rfl)
    (fun previous => .step .readFileFromDir (fun bytes => .leave _))

theorem shaped_fileWrite : Shaped fails t (Enters .fileWrite t args) (Calls .fileWrite t args)
    (fileWrite fails fuel args) := by
  refine .task (.ite (fun hbad => .refuse (fun he => he.1 hbad) _) (fun hok => ?_))
  refine .named (fun he => he.2) (fun nameA h => ?_)
  have he : Enters .fileWrite t args := ⟨hok, by simp [h]⟩
  refine .enter he (he.calls (by decide)) (fun _ => rfl) (fun previous => ?_)
  exact .step (.driver (fun _ hg =>
    writeFileFromDir_within hg.clusters hg.sectorsPerCluster _ _ _ _ _)) (fun ok => .leave _)

theorem shaped_listEntry : Shaped fails t (Enters .listEntry t args) (Calls .listEntry t args)
    (listEntry fails fuel args) := by
  refine .task (.ite (fun hbad => .refuse (fun he => he hbad) _) (fun hok => ?_))
  have he : Enters .listEntry t args := hok
  exact .enter he (he.calls (by decide)) (fun _ => rfl)
    (fun previous => .step .getEntryByIndex (fun found => .leave _))

theorem shaped_mkdir : Shaped fails t (Enters .mkdir t args) (Calls .mkdir t args)
    (mkdir fails fuel args) := by
  refine .task (.named (fun he => he) (fun nameA h => ?_))
  have he : Enters .mkdir t args := by simp [Enters, h]
  exact .enter he (he.calls (by decide)) (fun _ => rfl)
    (fun previous => .step .mkdir (fun ok => .leave _))

theorem shaped_rmdir : Shaped fails t (Enters .rmdir t args) (Calls .rmdir t args)
    (rmdir fails fuel args) := by
  refine .task (.named (fun he => he) (fun nameA h => ?_))
  have he : Enters .rmdir t args := by simp [Enters, h]
  exact .enter he (he.calls (by decide)) (fun _ => rfl)
    (fun previous => .step .rmdir (fun ok => .leave _))

theorem shaped_deleteEntry : Shaped fails t (Enters .deleteEntry t args)
    (Calls .deleteEntry t args) (deleteEntry fails fuel args) := by
  refine .task (.named (fun he => he) (fun nameA h => ?_))
  have he : Enters .deleteEntry t args := by simp [Enters, h]
  refine .enter he (he.calls (by decide)) (fun _ => rfl) (fun previous => ?_)
  refine .step .findEntry (fun found => .step ?_ (fun ok => .leave _))
  cases found with
  | none => exact .pure _
  | some x => exact .ite .rmdir .deleteEntry

theorem shaped_clipSet : Shaped fails t (Enters .clipSet t args) (Calls .clipSet t args)
    (clipSet fails fuel args) := by
  refine .task (.named (fun he => he) (fun nameA h => ?_))
  have he : Enters .clipSet t args := by simp [Enters, h]
  refine .enter he (he.calls (by decide)) (fun _ => rfl) (fun previous => ?_)
  refine .step .findEntry (fun found => .step ?_ (fun ok => .leave _))
  cases found with
  | none => exact .pure _
  | some x => exact .ite (.pure _) (.bind (.setTask _) (fun _ => .pure _))

/-! ## The calls with two names -/

theorem shaped_copyFile : Shaped fails t (Enters .copyFile t args) (Calls .copyFile t args)
    (copyFile fails fuel args) := by
  refine .task (.twoNamed (fun he => he) (fun nameA nameB h h' => ?_))
  have he : Enters .copyFile t args := by simp [Enters, h, h']
  exact .enter he (he.calls (by decide)) (fun _ => rfl)
    (fun previous => .step .copyFileBetweenDirs (fun ok => .leave _))

theorem shaped_moveFile : Shaped fails t (Enters .moveFile t args) (Calls .moveFile t args)
    (moveFile fails fuel args) := by
  refine .task (.twoNamed (fun he => he) (fun nameA nameB h h' => ?_))
  have he : Enters .moveFile t args := by simp [Enters, h, h']
  refine .enter he (he.calls (by decide)) (fun _ => rfl) (fun previous => ?_)
  refine .step .findEntry (fun found => .step ?_ (fun ok => .leave _))
  cases found with
  | none => exact .pure _
  | some x => exact .ite (.pure _) .updateEntry

theorem shaped_renameEntry : Shaped fails t (Enters .renameEntry t args)
    (Calls .renameEntry t args) (renameEntry fails fuel args) := by
  refine .task (.twoNamed (fun he => he) (fun nameA nameB h h' => ?_))
  have he : Enters .renameEntry t args := by simp [Enters, h, h']
  refine .enter he (he.calls (by decide)) (fun _ => rfl) (fun previous => ?_)
  refine .step .findEntry (fun found => .step ?_ (fun ok => .leave _))
  cases found with
  | none => exact .pure _
  | some x => exact .updateEntry

theorem shaped_copyToDir {num : Syscall} (hnum : num = .copyToDir ∨ num = .moveToDir) (move : Bool) :
    Shaped fails t (Enters num t args) (Calls num t args) (copyToDir fails fuel move args) := by
  have henters : Enters num t args ↔ (copyUserUpper t args.mem args.a0).isSome ∧
      (copyUserUpper t args.mem args.a1).isSome := by rcases hnum with rfl | rfl <;> rfl
  refine .task (.twoNamed henters.mp (fun nameA nameB h h' => ?_))
  have he : Enters num t args := by simp [henters, h, h']
  have hne : num ≠ .clipPaste := by rcases hnum with rfl | rfl <;> decide
  refine .enter he (he.calls hne) (fun _ => rfl) (fun previous => ?_)
  refine .step .findDirCluster (fun dst => .step ?_ (fun ok => .leave _))
  cases dst with
  | none => exact .pure _
  | some dstDirCluster =>
    exact .bind .copyFileBetweenDirs (fun copied => .ite .deleteEntry (.pure _))

/-! ## The change of the directory -/

theorem Body.chdirTo (path : CStr → Option CStr) (next : Option Nat) :
    Body fails (chdirTo path next) := by
  cases next with
  | none => exact .pure _
  | some cluster =>
    refine .bind .getTask (fun task => ?_)
    cases path task.currentPath with
    | none => exact .pure _
    | some path => exact .bind (.setTask _) (fun _ => .pure _)

section Chdir

variable {enters calls : Prop} (he : enters) (hc : calls)
include he hc

theorem shaped_chdirName (nameA : CStr) :
    Shaped fails t enters calls (chdirName fails fuel nameA) := by
  refine .task (.enter he hc (fun _ => rfl) (fun previous => ?_))
  exact .step .findDirCluster (fun next => .step (.chdirTo _ _) (fun ok => .leave _))

theorem shaped_chdirParent : Shaped fails t enters calls (chdirParent fails fuel) := by
  refine .task (.enter he hc (fun _ => rfl) (fun previous => ?_))
  exact .step .getParentCluster (fun parent => .step (.chdirTo _ _) (fun ok => .leave _))

end Chdir

theorem shaped_chdirDrive {enters calls : Prop} (hno : ¬ enters) (letter : Nat) :
    Shaped fails t enters calls (chdirDrive letter) := by
  refine .refused hno (fun k => ?_)
  show ∃ x t', (if k.Valid letter then _ else _ : Call) (k, t) = some (x, k, t') ∧ _
  split
  · exact ⟨1, _, rfl, rfl⟩
  · exact ⟨0, _, rfl, rfl⟩

theorem shaped_chdir : Shaped fails t (Enters .chdir t args) (Calls .chdir t args)
    (chdir fails fuel args) := by
  refine .task ?_
  cases h : copyUserString t args.mem args.a0 nameSize with
  | none => exact .refuse (by simp [Enters, h]) _
  | some nameA =>
    dsimp only
    cases hdrive : driveName nameA with
    | some letter => exact shaped_chdirDrive (by simp [Enters, h, hdrive]) letter
    | none =>
      refine .ite (fun hroot => .move (fun he => ?_) rfl _) (fun hroot => ?_)
      · obtain ⟨n, hn, _, hnot, _⟩ := he
        cases h.symm.trans hn
        exact hnot hroot
      refine .ite (fun hup => ?_) (fun hup => .ite (fun hdot => .refuse (fun he => ?_) _)
        (fun hdot => ?_))
      · have he : Enters .chdir t args := by
          refine ⟨nameA, h, hdrive, hroot, fun hdot => ?_⟩
          exact absurd (hup.2.1.symm.trans hdot.2) (by decide)
        exact shaped_chdirParent he (he.calls (by decide))
      · obtain ⟨n, hn, _, _, hnot⟩ := he
        cases h.symm.trans hn
        exact hnot hdot
      · have he : Enters .chdir t args := ⟨nameA, h, hdrive, hroot, hdot⟩
        exact shaped_chdirName he (he.calls (by decide)) _

/-! ## The clipboard -/

theorem Body.pasteInto (task : Task) (dstDirCluster : Nat) :
    Body fails (pasteInto fails fuel task dstDirCluster) := by
  refine .bind .copyFileBetweenDirs (fun copied => .ite (.pure _) (.ite ?_ (.pure _)))
  exact .bind .deleteEntry (fun ok => .ite (.bind (.setTask _) (fun _ => .pure _)) (.pure _))

theorem shaped_clipPaste : Shaped fails t (Enters .clipPaste t args) (Calls .clipPaste t args)
    (clipPaste fails fuel args) := by
  refine .task (.ite (fun hbad => .refuse (fun he => he hbad) _) (fun hok => ?_))
  have he : Enters .clipPaste t args := hok
  refine .entered he (fun _ => rfl) (fun _ => rfl) (fun previous => ?_) (fun hc => ⟨0, fun previous => ?_⟩)
  · simp only [↓reduceIte]
    split
    · exact .step (.pasteInto _ _) (fun x => .leave _)
    cases copyUserString t args.mem args.a0 nameSize with
    | none => exact .leave _
    | some nameA =>
      cases nameA with
      | nil => exact .step (.pasteInto _ _) (fun x => .leave _)
      | cons c cs =>
        refine .step .findDirCluster (fun dst => ?_)
        cases dst with
        | none => exact .leave _
        | some dstDirCluster => exact .step (.pasteInto _ _) (fun x => .leave _)
  · -- the name of the directory is not readable
    have hno : ¬ (args.a0 = 0 ∨ (copyUserString t args.mem args.a0 nameSize).isSome = true) :=
      fun h => hc ⟨he, fun _ => h⟩
    rw [not_or] at hno
    cases h : copyUserString t args.mem args.a0 nameSize with
    | some nameA => exact absurd (by rw [h]; rfl) hno.2
    | none => simp only [↓reduceIte, if_neg hno.1]

theorem shaped_syscall (num : Syscall) : Shaped fails t (Enters num t args) (Calls num t args)
    (syscall fails fuel num args) := by
  cases num with
  | fileSize => exact shaped_fileSize
  | fileRead => exact shaped_fileRead
  | fileWrite => exact shaped_fileWrite
  | listEntry => exact shaped_listEntry
  | copyFile => exact shaped_copyFile
  | moveFile => exact shaped_moveFile
  | chdir => exact shaped_chdir
  | mkdir => exact shaped_mkdir
  | rmdir => exact shaped_rmdir
  | deleteEntry => exact shaped_deleteEntry
  | renameEntry => exact shaped_renameEntry
  | copyToDir => exact shaped_copyToDir (.inl rfl) false
  | moveToDir => exact shaped_copyToDir (.inr rfl) true
  | clipSet => exact shaped_clipSet
  | clipPaste => exact shaped_clipPaste

end Files
end MiniDos
