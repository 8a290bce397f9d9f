import MiniDos.Files.Clipboard
import MiniDos.Files.Paths

/-!
# MiniDos.Files.Places

The current directories of the shell and of the tasks, as a path and as a cluster, through any
directory changes (`cd` of `shell_fs.c`, CHDIR of `shell_apps.c`), whatever accesses fail.

* `Still`: a directory change writes nothing, and mounts no other volume.
* `Walks.chdir`, `Stands.cmdCd`: one change of a task, and one of the shell.
* `Oriented.run`: every current directory on the drive stays the one its path leads to.
* `cd_refused`, `chdir_refused`: a change that fails leaves path and cluster.
-/

namespace MiniDos
namespace Files

open BlockIO Fat16 Drive Transition Paths

variable {fails : Nat → Bool} {d fuel : Nat} {g : Globals} {k k' k'' : Kernel} {t t' : Task}
  {args : Args} {σ : Type}

variable {path : CStr → Option CStr}

/-! ## Names that are typed -/

theorem upperChar_eq_zero {c : Byte} : upperChar c = 0 ↔ c = 0 :=
  ⟨fun hc => by_contra fun hne => upperChar_ne_zero hne hc, fun hc => by rw [hc]; decide⟩

theorem zero_notMem_strToUpper {s : CStr} (h : (0 : Byte) ∉ s) : (0 : Byte) ∉ strToUpper s := by
  intro hmem
  obtain ⟨c, hc, heq⟩ := List.mem_map.mp hmem
  exact h (upperChar_eq_zero.mp heq ▸ hc)

theorem isDotName_strToUpper {s : CStr} (hdd : ¬ (s.at 0 = chDot ∧ s.at 1 = chDot ∧ s.at 2 = 0))
    (hd : ¬ (s.at 0 = chDot ∧ s.at 1 = 0)) : isDotName (strToUpper s) = false := by
  have hat : ∀ i, (strToUpper s).at i = upperChar (s.at i) := CStr.at_map s
  rw [← Bool.not_eq_true]
  simp only [isDotName, hat, Bool.or_eq_true, Bool.and_eq_true, beq_iff_eq, upperChar_eq_dot_iff,
    upperChar_eq_zero, and_assoc]
  exact fun h => h.elim hd hdd

theorem copyUserString_zero {input : UInt32} {size : Nat} {s : CStr} {mem : Nat → Byte}
    (h : copyUserString t mem input size = some s) : (0 : Byte) ∉ s := by
  unfold copyUserString at h
  repeat' split at h
  case isFalse => exact fun hz => readString_ne_zero h 0 hz rfl
  all_goals cases h

theorem CStr.at_take {s : CStr} {n i : Nat} (h : i < n) : CStr.at (s.take n) i = s.at i := by
  unfold CStr.at
  rw [List.getD_eq_getElem?_getD, List.getD_eq_getElem?_getD, List.getElem?_take_of_lt h]

/-! ## The kernel -/

theorem wp_fat_currentDrive {α : Type} (p : Globals → DiskProg α) {s : Kernel × σ} :
    (fat fails p).wp (fun _ s' => s'.1.currentDrive = s.1.currentDrive) s := by
  unfold Files.fat
  simp only [Action.wp_onFst, Action.wp_bind, Action.wp_modify, Action.wp_get]
  intro a k' hcall
  obtain ⟨⟨b, m⟩, _, heq⟩ := Option.map_eq_some_iff.mp hcall
  cases heq
  rfl

/-- From `k` to `k'` no drive and no disk has changed, and the globals are those of before or `g`. -/
structure Still (g : Globals) (k k' : Kernel) : Prop where
  drives : k'.drives = k.drives
  disks : k'.disks = k.disks
  globals : k'.globals = k.globals ∨ k'.globals = g

theorem Still.refl (g : Globals) (k : Kernel) : Still g k k := ⟨rfl, rfl, .inl rfl⟩

theorem Still.trans (h : Still g k k') (h' : Still g k' k'') : Still g k k'' := by
  refine ⟨h'.drives.trans h.drives, h'.disks.trans h.disks, ?_⟩
  rcases h'.globals with hsame | hnew
  · rw [hsame]
    exact h.globals
  · exact .inr hnew

theorem Still.hosts (h : Still g k k') (hk : Hosts d g k) : Hosts d g k' := hk.congr h.drives h.disks

theorem Still.mounted (h : Still g k k') (hk : k.globals = g) : k'.globals = g :=
  h.globals.elim (fun hsame => hsame.trans hk) id

theorem Leaves.still (h : Leaves k k') (hdisks : k'.disks = k.disks) : Still g k k' :=
  ⟨h.drives, hdisks, .inl h.globals⟩

theorem Aside.still (h : Aside k k') : Still g k k' := ⟨h.drives, h.disks, .inl h.globals⟩

theorem Hosts.wp_init (h : Hosts d g k) (hletter : k.letter = d) :
    (Files.init fails).wp (fun ok k' => Still g k k' ∧ k'.currentDrive = k.currentDrive ∧
      k'.letter = k.letter ∧ (ok = true → k'.globals = g)) k := by
  unfold Files.init
  rw [Action.wp_bind]
  refine wp_readBoot (fun _ m hm => ?_) (fun _ _ m hm => ?_)
  · refine (Action.wp_pure _).mpr ⟨⟨rfl, Kernel.setMem_disks hm, .inl rfl⟩, rfl, rfl, ?_⟩
    intro hok
    cases hok
  · have hboot := h.boot (k.setMem m).globals
    rw [← hletter] at hboot
    rw [Action.wp_bind, Action.wp_get]
    simp only [hboot, Action.wp_bind, Action.wp_modify, Action.wp_pure]
    exact ⟨⟨rfl, Kernel.setMem_disks hm, .inr rfl⟩, rfl, rfl, fun _ => trivial⟩

theorem wp_fat_look {p : Globals → DiskProg (Option Nat)} {found : Option Nat} {s : Kernel × σ}
    (hletter : s.1.letter = d) (hglobals : s.1.globals = g)
    (hp : ∀ m : DriverMem, m.disk = s.1.disks d → (p g).wp Ctx.noisy
      (fun r m' => m'.disk = m.disk ∧ (r = found ∨ (Ctx.Failed .noisy m ∧ r = none))) m) :
    (fat fails p).wp (fun r _ => r = found ∨ r = none) s := by
  refine wp_fat_finds (fun m hm => ?_)
  rw [hletter] at hm
  rw [hglobals]
  exact Prog.wp_mono (hp m hm) (fun _ _ hr => hr.2.imp_right (fun hf => hf.2))

/-! ## A task -/

/-- A task that is on drive `d` or has its flag set, with `k` for the kernel: on the drive, its path
leads to its directory. -/
structure Walks (d : Nat) (g : Globals) (k : Kernel) (t : Task) : Prop where
  home : t.drive = d ∨ t.fat16Initialized = true
  mounted : t.fat16Initialized = true → k.globals = g
  leads : t.drive = d → Leads g (k.disks d) t.currentDirCluster t.currentPath

theorem Walks.still (h : Walks d g k t) (hk : Still g k k') : Walks d g k' t :=
  ⟨h.home, fun hflag => hk.mounted (h.mounted hflag), fun hdrive => by
    rw [hk.disks]
    exact h.leads hdrive⟩

theorem Walks.ready (h : Walks d g k t) (hk : Still g k k') (hglobals : k'.globals = g) :
    Walks d g k' t.ready :=
  ⟨.inr rfl, fun _ => hglobals, (h.still hk).leads⟩

/-- Entering mounts the volume of the drive, or fails and leaves the task. -/
theorem Walks.enter {α : Type} (hk : Hosts d g k) (h : Walks d g k t)
    {f : Bool × Nat → Action (Kernel × Task) α} {Q : α → Kernel × Task → Prop}
    (hno : ∀ k', Still g k k' → (f (false, k.current)).wp Q (k', t))
    (hQ : ∀ k', Still g k k' → k'.globals = g → k'.letter = t.drive →
      (f (true, k.current)).wp Q (k', t.ready)) :
    (enterDriveContext fails >>= f).wp Q (k, t) := by
  have hswitched : Still g k (k.switch t.drive) := ⟨rfl, rfl, .inl rfl⟩
  rw [Action.wp_bind]
  refine wp_entering (fun hflag => ?_) (fun hflag => ?_)
  · have hready := hQ _ hswitched (h.mounted hflag) rfl
    rw [Task.ready_of hflag] at hready
    exact hready
  · have hdrive := h.home.resolve_right hflag
    refine Action.wp_mono ((hswitched.hosts hk).wp_init hdrive) ?_
    rintro ok k₄ ⟨hstill, _, hletter, hok⟩
    cases ok with
    | true => exact hQ k₄ (hswitched.trans hstill) (hok rfl) hletter
    | false =>
      have ht : { t with fat16Initialized := false } = t := by
        rw [Bool.not_eq_true] at hflag
        rw [← hflag]
      rw [ht]
      exact hno k₄ (hswitched.trans hstill)

theorem Walks.leave {previous : Nat} (x : Int) (hk : Still g k k') (h : Walks d g k' t) : (do
    leaveDriveContext previous
    pure x : Call).wp (fun _ s => Still g k s.1 ∧ Walks d g s.1 s.2) (k', t) :=
  wp_leave_aside (fun _ hk' => (Action.wp_pure x).mpr ⟨hk.trans hk'.still, h.still hk'.still⟩)

/-- A lookup and the step into the directory it found. -/
theorem Walks.look (hk : Hosts d g k) (h : Walks d g k t) {p : Globals → DiskProg (Option Nat)}
    (found : Option Nat)
    (hstill : ∀ g, (p g).Confined (fun _ => False) (fun _ => True))
    (hp : t.drive = d → ∀ m : DriverMem, m.disk = k.disks d → (p g).wp Ctx.noisy
      (fun r m' => m'.disk = m.disk ∧ (r = found ∨ (Ctx.Failed .noisy m ∧ r = none))) m)
    (hstep : t.drive = d → ∀ c newPath, found = some c → path t.currentPath = some newPath →
      Leads g (k.disks d) c newPath) : (do
    let (entered, previous) ← enterDriveContext fails
    if entered then do
      let next ← fat fails p
      let result ← chdirTo path next
      leaveDriveContext previous
      pure result
    else pure 0 : Call).wp (fun _ s => Still g k s.1 ∧ Walks d g s.1 s.2) (k, t) := by
  refine h.enter hk (fun k₁ hk₁ => ?_) (fun k₁ hk₁ hglobals hletter => ?_)
  · simp only [Bool.false_eq_true, ↓reduceIte]
    exact (Action.wp_pure _).mpr ⟨hk₁, h.still hk₁⟩
  have hfound : (fat fails p).wp (fun r _ => t.drive = d → r = found ∨ r = none)
      (k₁, t.ready) := by
    by_cases hdrive : t.drive = d
    · refine Action.wp_mono (wp_fat_look (hletter.trans hdrive) hglobals (fun m hm => ?_))
        (fun _ _ hr _ => hr)
      rw [hk₁.disks] at hm
      exact hp hdrive m hm
    · exact fun _ _ _ hd => absurd hd hdrive
  simp only [↓reduceIte]
  rw [Action.wp_bind]
  refine Action.wp_mono (Action.wp_and (wp_fat_still hstill) hfound) ?_
  rintro next ⟨k₂, t₂⟩ ⟨⟨hleaves, hdisks, rfl⟩, hnext⟩
  have hk₂ : Still g k k₂ := hk₁.trans (hleaves.still hdisks)
  have h₂ : Walks d g k₂ t.ready := h.ready hk₂ (hleaves.globals.trans hglobals)
  rw [Action.wp_bind]
  cases next with
  | none => exact (Action.wp_pure _).mpr (h₂.leave _ hk₂)
  | some c =>
    refine wp_task ?_
    cases hpath : path t.ready.currentPath with
    | none => exact (Action.wp_pure _).mpr (h₂.leave _ hk₂)
    | some newPath =>
      simp only [setTask, Action.wp_bind (Action.modify _), Action.wp_modify, Action.wp_pure]
      refine Walks.leave _ hk₂ ⟨h₂.home, h₂.mounted, fun hdrive => ?_⟩
      have hc : found = some c := ((hnext hdrive).resolve_right (Option.some_ne_none c)).symm
      rw [hk₂.disks]
      exact hstep hdrive c newPath hc hpath

/-- The call does not take the task to another drive. -/
def Remains (d : Nat) (k : Kernel) (t : Task) (args : Args) : Prop :=
  ∀ name letter, copyUserString t args.mem args.a0 nameSize = some name →
    driveName name = some letter → k.Valid letter → letter = d

section Changes

variable (hg : g.Valid) (hfuel : g.getTotalClusters ≤ fuel) (hk : Hosts d g k)
  (hlegal : LegalDirs g (k.disks d))
include hg hfuel hk hlegal

/-- One CHDIR. -/
theorem Walks.chdir (h : Walks d g k t)
    (hremains : t.fat16Initialized = true ∨ Remains d k t args) :
    (Files.chdir fails fuel args).wp (fun _ s => Still g k s.1 ∧ Walks d g s.1 s.2) (k, t) := by
  have hstay : ∀ x : Int, (pure x : Call).wp (fun _ s => Still g k s.1 ∧ Walks d g s.1 s.2) (k, t) :=
    fun x => (Action.wp_pure x).mpr ⟨.refl g k, h⟩
  refine wp_task ?_
  cases hcopy : copyUserString t args.mem args.a0 nameSize with
  | none => exact hstay _
  | some nameA =>
    have hzero : (0 : Byte) ∉ nameA := copyUserString_zero hcopy
    dsimp only
    cases hdrive : driveName nameA with
    | some letter =>
      simp only [chdirDrive, Action.wp_bind, Action.wp_get]
      refine Action.wp_ite (fun hvalid => ?_) (fun _ => hstay _)
      simp only [setTask, Action.wp_bind, Action.wp_modify, Action.wp_pure]
      refine ⟨.refl g k, hremains.symm.imp (fun hr => ?_) id, h.mounted, fun _ => .root⟩
      exact hr nameA letter hcopy hdrive hvalid
    | none =>
      refine Action.wp_ite (fun _ => ?_) (fun _ => ?_)
      · simp only [setTask, Action.wp_bind, Action.wp_modify, Action.wp_pure]
        exact ⟨.refl g k, h.home, h.mounted, fun _ => .root⟩
      refine Action.wp_ite (fun _ => ?_) (fun hdd => ?_)
      · refine wp_task (h.look hk (parentOf g (k.disks d) t.currentDirCluster)
          (fun _ => getParentCluster_confined fuel _) (fun hd m hm => ?_)
          (fun hd c newPath hc hpath => ?_))
        · rw [← hm]
          exact wp_getParentCluster_parentOf hg (hm ▸ hk.wellFormed)
            (hm ▸ (h.leads hd).isDir hg hk.wellFormed hk.dotted) hfuel
        · cases hpath
          exact (h.leads hd).up hg hk.wellFormed hk.dotted hc
      refine Action.wp_ite (fun _ => hstay _) (fun hdot => ?_)
      refine wp_task (h.look hk (subdir g (k.disks d) t.currentDirCluster (strToUpper nameA))
        (fun _ => findDirCluster_confined fuel _ _) (fun hd m hm => ?_)
        (fun hd c newPath hc hpath => ?_))
      · rw [← hm]
        exact wp_findDirCluster_subdir hg (hm ▸ hk.wellFormed)
          (hm ▸ (h.leads hd).isDir hg hk.wellFormed hk.dotted) hfuel _
      · exact (h.leads hd).enter hg hk.wellFormed hk.dotted hlegal (zero_notMem_strToUpper hzero)
          (isDotName_strToUpper hdd hdot) hc hpath

end Changes

/-! ## The shell -/

def CdReply.message : CdReply → Option String
  | .shown => none
  | .done => none
  | .noDisk => some "No disk or FAT16 partition found on current drive\n"
  | .notFound => some "Path not found\n"
  | .tooLong => some "Path too long\n"

def CdReply.failed (r : CdReply) : Bool := r.message.isSome

/-! ## Changes that fail -/

/-- The directory and the path of the shell are those of before. -/
def Host.SamePlace (host host' : Host) : Prop :=
  host'.currentDirCluster = host.currentDirCluster ∧ host'.currentPath = host.currentPath

def Task.SamePlace (t t' : Task) : Prop :=
  t'.currentDirCluster = t.currentDirCluster ∧ t'.currentPath = t.currentPath

variable {host : Host}

theorem wp_readyWithin_place (n : Nat) :
    (readyWithin fails n).wp (fun _ s => host.SamePlace s.2) (k, host) := by
  induction n generalizing k host with
  | zero =>
    simp only [readyWithin, getHost, Action.wp_bind, Action.wp_get, Action.wp_pure]
    exact ⟨rfl, rfl⟩
  | succ n ih =>
    unfold readyWithin getHost
    simp only [Action.wp_bind, Action.wp_get, Action.wp_pure]
    refine Action.wp_ite (fun _ => (Action.wp_pure _).mpr ⟨rfl, rfl⟩) (fun _ => ?_)
    simp only [setHost, Action.wp_bind, Action.wp_onFst, Action.wp_modify]
    intro _ k₁ _ _ k₂ _ ok k₃ _
    exact ih

theorem wp_cdTo_refused (path : CStr → Option CStr) (next : Option Nat) :
    (cdTo path next).wp (fun r s => r.failed = true → host.SamePlace s.2) (k, host) := by
  cases next with
  | none => exact (Action.wp_pure _).mpr (fun _ => ⟨rfl, rfl⟩)
  | some cluster =>
    simp only [cdTo, getHost, Action.wp_bind, Action.wp_get, Action.wp_pure]
    cases path host.currentPath with
    | none => exact (Action.wp_pure _).mpr (fun _ => ⟨rfl, rfl⟩)
    | some newPath =>
      simp only [setHost, Action.wp_bind, Action.wp_modify, Action.wp_pure]
      intro hf
      cases hf

theorem wp_cdLook_refused {p : Globals → DiskProg (Option Nat)} : (do
    let next ← fat fails p
    cdTo path next).wp (fun r s => r.failed = true → host.SamePlace s.2) (k, host) := by
  rw [Action.wp_bind]
  refine Action.wp_mono (wp_fat_leaves p) ?_
  rintro next ⟨k₁, host₁⟩ ⟨_, hsame⟩
  cases hsame
  exact wp_cdTo_refused path next

theorem cd_refused (cmdArgs : CStr) : (cdReply fails fuel cmdArgs).wp
    (fun r s => r.failed = true → host.SamePlace s.2) (k, host) := by
  rw [cdReply, Action.wp_bind]
  refine Action.wp_mono (wp_readyWithin_place 3) ?_
  rintro ready ⟨k₁, host₁⟩ hsame
  have hgive : ∀ r : CdReply, (pure r : Action (Kernel × Host) CdReply).wp
      (fun r s => r.failed = true → host.SamePlace s.2) (k₁, host₁) :=
    fun r => (Action.wp_pure r).mpr (fun _ => hsame)
  have hlook : ∀ {p : Globals → DiskProg (Option Nat)} {path : CStr → Option CStr}, (do
      let next ← fat fails p
      cdTo path next).wp (fun r s => r.failed = true → host.SamePlace s.2) (k₁, host₁) :=
    Action.wp_mono wp_cdLook_refused
      (fun _ _ h hf => ⟨(h hf).1.trans hsame.1, (h hf).2.trans hsame.2⟩)
  cases ready with
  | false => exact hgive _
  | true =>
    rw [if_pos rfl]
    unfold cdReady getHost
    simp only [Action.wp_bind (Action.get >>= _), Action.wp_bind Action.get, Action.wp_get,
      Action.wp_pure]
    refine Action.wp_ite (fun _ => hgive _) (fun _ => Action.wp_ite (fun _ => ?_) (fun _ => ?_))
    · simp only [setHost, Action.wp_bind, Action.wp_modify, Action.wp_pure]
      intro hf
      cases hf
    refine Action.wp_ite (fun _ => hlook) (fun _ => ?_)
    exact Action.wp_ite (fun _ => hgive _) (fun _ => hlook)

theorem wp_enter_place : (enterDriveContext fails).wp (fun _ s => t.SamePlace s.2) (k, t) :=
  wp_entering (fun _ => ⟨rfl, rfl⟩) (fun _ _ _ _ => ⟨rfl, rfl⟩)

theorem wp_chdirLook_refused {p : Globals → DiskProg (Option Nat)} : (do
    let (entered, previous) ← enterDriveContext fails
    if entered then do
      let next ← fat fails p
      let result ← chdirTo path next
      leaveDriveContext previous
      pure result
    else pure 0 : Call).wp (fun x s => x = 0 → t.SamePlace s.2) (k, t) := by
  have hleave : ∀ (previous : Nat) (x : Int) (s : Kernel × Task), (x = 0 → t.SamePlace s.2) → (do
      leaveDriveContext previous
      pure x : Call).wp (fun x s => x = 0 → t.SamePlace s.2) s :=
    fun _ x _ hs => wp_leave_aside (fun _ _ => (Action.wp_pure x).mpr hs)
  rw [Action.wp_bind]
  refine Action.wp_mono wp_enter_place ?_
  rintro ⟨entered, previous⟩ ⟨k₁, t₁⟩ hsame
  cases entered with
  | false =>
    simp only [Bool.false_eq_true, ↓reduceIte]
    exact (Action.wp_pure _).mpr (fun _ => hsame)
  | true =>
    simp only [↓reduceIte]
    rw [Action.wp_bind]
    refine Action.wp_mono (wp_fat_leaves p) ?_
    rintro next ⟨k₂, t₂⟩ ⟨_, ht⟩
    cases ht
    rw [Action.wp_bind]
    cases next with
    | none => exact (Action.wp_pure _).mpr (hleave _ _ _ (fun _ => hsame))
    | some cluster =>
      refine wp_task ?_
      cases path t₁.currentPath with
      | none => exact (Action.wp_pure _).mpr (hleave _ _ _ (fun _ => hsame))
      | some newPath =>
        simp only [setTask, Action.wp_bind (Action.modify _), Action.wp_modify, Action.wp_pure]
        exact hleave _ _ _ (fun hx => absurd hx Int.one_ne_zero)

theorem chdir_refused : (Files.chdir fails fuel args).wp
    (fun x s => x = 0 → t.SamePlace s.2) (k, t) := by
  have hgive : ∀ x : Int, (pure x : Call).wp (fun x s => x = 0 → t.SamePlace s.2) (k, t) :=
    fun x => (Action.wp_pure x).mpr (fun _ => ⟨rfl, rfl⟩)
  have hgone : ∀ f : Task → Task, (do
      setTask f
      pure 1 : Call).wp (fun x s => x = 0 → t.SamePlace s.2) (k, t) := by
    intro f
    simp only [setTask, Action.wp_bind, Action.wp_modify, Action.wp_pure]
    intro hx
    cases hx
  refine wp_task ?_
  cases copyUserString t args.mem args.a0 nameSize with
  | none => exact hgive _
  | some nameA =>
    dsimp only
    cases driveName nameA with
    | some letter =>
      simp only [chdirDrive, Action.wp_bind Action.get, Action.wp_get]
      exact Action.wp_ite (fun _ => hgone _) (fun _ => hgive _)
    | none =>
      refine Action.wp_ite (fun _ => hgone _) (fun _ => ?_)
      refine Action.wp_ite (fun _ => wp_task wp_chdirLook_refused) (fun _ => ?_)
      exact Action.wp_ite (fun _ => hgive _) (fun _ => wp_task wp_chdirLook_refused)

/-! ## The shell on the drive -/

/-- The shell at drive `d`, and whether it takes the volume for mounted: its path leads to its
directory. -/
structure Stands (d : Nat) (g : Globals) (k : Kernel) (host : Host) : Prop where
  current : k.current = d
  letter : host.fat16Initialized = true → k.letter = d
  mounted : host.fat16Initialized = true → k.globals = g
  leads : Leads g (k.disks d) host.currentDirCluster host.currentPath

theorem Stands.readyWithin (hk : Hosts d g k) (h : Stands d g k host) (n : Nat) :
    (Files.readyWithin fails n).wp (fun ok s => Still g k s.1 ∧ Stands d g s.1 s.2 ∧
      (ok = true → s.2.fat16Initialized = true)) (k, host) := by
  induction n generalizing k host with
  | zero =>
    simp only [Files.readyWithin, getHost, Action.wp_bind, Action.wp_get, Action.wp_pure]
    exact ⟨.refl g k, h, id⟩
  | succ n ih =>
    unfold Files.readyWithin getHost
    simp only [Action.wp_bind, Action.wp_get, Action.wp_pure]
    refine Action.wp_ite (fun hflag => (Action.wp_pure _).mpr ⟨.refl g k, h, fun _ => hflag⟩)
      (fun _ => ?_)
    simp only [driveGetCurrent, setDrive, setHost, Action.wp_bind, Action.wp_onFst, Action.wp_get,
      Action.wp_modify, Action.wp_pure]
    have hselected : Still g k { k with currentDrive := k.current, letter := k.current } :=
      ⟨rfl, rfl, .inl rfl⟩
    refine Action.wp_mono ((hselected.hosts hk).wp_init h.current) ?_
    rintro ok k₁ ⟨hstill, hcurrent, hletter, hok⟩
    have hk₁ : Still g k k₁ := hselected.trans hstill
    have h₁ : Stands d g k₁ { host with fat16Initialized := ok } := by
      refine ⟨?_, fun _ => hletter.trans h.current, hok, ?_⟩
      · rw [current_of_settled hk₁.drives hcurrent]
        exact h.current
      · rw [hk₁.disks]
        exact h.leads
    refine Action.wp_mono (ih (hk₁.hosts hk) h₁) ?_
    exact fun _ _ hs => ⟨hk₁.trans hs.1, hs.2⟩

/-- A lookup of the shell and the step into the directory it found. -/
theorem Stands.look (h : Stands d g k host) (hflag : host.fat16Initialized = true)
    {p : Globals → DiskProg (Option Nat)} (found : Option Nat)
    (hstill : ∀ g, (p g).Confined (fun _ => False) (fun _ => True))
    (hp : ∀ m : DriverMem, m.disk = k.disks d → (p g).wp Ctx.noisy
      (fun r m' => m'.disk = m.disk ∧ (r = found ∨ (Ctx.Failed .noisy m ∧ r = none))) m)
    (hstep : ∀ c newPath, found = some c → path host.currentPath = some newPath →
      Leads g (k.disks d) c newPath) : (do
    let next ← fat fails p
    cdTo path next).wp (fun _ s => Still g k s.1 ∧ Stands d g s.1 s.2) (k, host) := by
  rw [Action.wp_bind]
  have hlook : (fat fails p).wp (fun r _ => r = found ∨ r = none) (k, host) :=
    wp_fat_look (h.letter hflag) (h.mounted hflag) hp
  refine Action.wp_mono
    (Action.wp_and (Action.wp_and (wp_fat_still hstill) (wp_fat_currentDrive p)) hlook) ?_
  rintro next ⟨k₁, host₁⟩ ⟨⟨⟨hleaves, hdisks, rfl⟩, hdrive⟩, hnext⟩
  have hk₁ : Still g k k₁ := hleaves.still hdisks
  have h₁ : Stands d g k₁ host₁ := by
    refine ⟨?_, fun _ => hleaves.letter.trans (h.letter hflag),
      fun _ => hleaves.globals.trans (h.mounted hflag), by rw [hdisks]; exact h.leads⟩
    unfold Kernel.current
    rw [hleaves.drives, hdrive]
    exact h.current
  cases next with
  | none => exact (Action.wp_pure _).mpr ⟨hk₁, h₁⟩
  | some c =>
    simp only [cdTo, getHost, Action.wp_bind, Action.wp_get, Action.wp_pure]
    cases hpath : path host₁.currentPath with
    | none => exact (Action.wp_pure _).mpr ⟨hk₁, h₁⟩
    | some newPath =>
      simp only [setHost, Action.wp_bind, Action.wp_modify, Action.wp_pure]
      have hc : found = some c := (hnext.resolve_right (Option.some_ne_none c)).symm
      refine ⟨hk₁, h₁.current, h₁.letter, h₁.mounted, ?_⟩
      rw [hk₁.disks]
      exact hstep c newPath hc hpath

section Changes

variable (hg : g.Valid) (hfuel : g.getTotalClusters ≤ fuel) (hk : Hosts d g k)
  (hlegal : LegalDirs g (k.disks d))
include hg hfuel hk hlegal

/-- One `cd`. -/
theorem Stands.cdReply (h : Stands d g k host) {cmdArgs : CStr} (hzero : (0 : Byte) ∉ cmdArgs) :
    (Files.cdReply fails fuel cmdArgs).wp (fun _ s => Still g k s.1 ∧ Stands d g s.1 s.2)
      (k, host) := by
  rw [Files.cdReply, Action.wp_bind]
  refine Action.wp_mono (h.readyWithin hk 3) ?_
  rintro ready ⟨k₁, host₁⟩ ⟨hk₁, h₁, hready⟩
  have hstay : ∀ r : CdReply, (pure r : Action (Kernel × Host) CdReply).wp
      (fun _ s => Still g k s.1 ∧ Stands d g s.1 s.2) (k₁, host₁) :=
    fun r => (Action.wp_pure r).mpr ⟨hk₁, h₁⟩
  cases ready with
  | false => exact hstay _
  | true =>
    have hflag := hready rfl
    have hhosts := hk₁.hosts hk
    have hat := h₁.leads.isDir hg hhosts.wellFormed hhosts.dotted
    rw [if_pos rfl]
    unfold cdReady getHost
    simp only [Action.wp_bind (Action.get >>= _), Action.wp_bind Action.get, Action.wp_get,
      Action.wp_pure]
    refine Action.wp_ite (fun _ => hstay _) (fun _ => Action.wp_ite (fun _ => ?_) (fun _ => ?_))
    · simp only [setHost, Action.wp_bind, Action.wp_modify, Action.wp_pure]
      exact ⟨hk₁, h₁.current, h₁.letter, h₁.mounted, .root⟩
    refine Action.wp_ite (fun _ => ?_) (fun hdd => ?_)
    · refine Action.wp_mono (h₁.look hflag (parentOf g (k₁.disks d) host₁.currentDirCluster)
        (fun _ => getParentCluster_confined fuel _) (fun m hm => ?_) (fun c newPath hc hpath => ?_))
        (fun _ _ hs => ⟨hk₁.trans hs.1, hs.2⟩)
      · rw [← hm]
        exact wp_getParentCluster_parentOf hg (hm ▸ hhosts.wellFormed) (hm ▸ hat) hfuel
      · cases hpath
        exact h₁.leads.up hg hhosts.wellFormed hhosts.dotted hc
    refine Action.wp_ite (fun _ => hstay _) (fun hdot => ?_)
    refine Action.wp_mono (h₁.look hflag
      (subdir g (k₁.disks d) host₁.currentDirCluster (strCopyUpper cmdArgs))
      (fun _ => findDirCluster_confined fuel _ _) (fun m hm => ?_) (fun c newPath hc hpath => ?_))
      (fun _ _ hs => ⟨hk₁.trans hs.1, hs.2⟩)
    · rw [← hm]
      exact wp_findDirCluster_subdir hg (hm ▸ hhosts.wellFormed) (hm ▸ hat) hfuel _
    · have hcut : ∀ i < nameSize - 1, CStr.at (cmdArgs.take (nameSize - 1)) i = cmdArgs.at i :=
        fun i hi => CStr.at_take hi
      rw [← hcut 0 (by decide), ← hcut 1 (by decide)] at hdot
      rw [← hcut 0 (by decide), ← hcut 1 (by decide), ← hcut 2 (by decide)] at hdd
      have hlegal₁ : LegalDirs g (k₁.disks d) := by
        rw [hk₁.disks]
        exact hlegal
      exact h₁.leads.enter hg hhosts.wellFormed hhosts.dotted hlegal₁
        (zero_notMem_strToUpper (fun hmem => hzero (List.mem_of_mem_take hmem)))
        (isDotName_strToUpper hdd hdot) hc hpath

end Changes

/-! ## Runs -/

/-- A directory change. A task goes to another drive only with its flag set: the first call of a task
there would mount that volume in the place of this one. -/
def Changes (d : Nat) (m : Machine) : Event → Prop
  | .command (.cd cmdArgs) => (0 : Byte) ∉ cmdArgs
  | .syscall pid .chdir args => ∀ t, m.tasks pid = some t →
      t.fat16Initialized = true ∨ Remains d m.kernel t args
  | _ => False

/-- The shell is at drive `d`, and a task is there or has its flag set; whoever takes the volume for
mounted finds its geometry in the globals. -/
structure OnVolume (d : Nat) (g : Globals) (m : Machine) : Prop where
  hosts : Hosts d g m.kernel
  current : m.kernel.current = d
  letter : m.shell.fat16Initialized = true → m.kernel.letter = d
  mounted : Mounted m → m.kernel.globals = g
  home : ∀ pid t, m.tasks pid = some t → t.drive = d ∨ t.fat16Initialized = true

/-- The shell, and every task on the drive, is in the directory that its path says. -/
structure Oriented (d : Nat) (g : Globals) (fuel : Nat) (m : Machine) : Prop where
  shell : Placed g fuel (m.kernel.volume d) m.shell.currentDirCluster m.shell.currentPath
  tasks : ∀ pid t, m.tasks pid = some t → t.drive = d →
    Placed g fuel (m.kernel.volume d) t.currentDirCluster t.currentPath

/-- The same, party by party. -/
structure Situated (d : Nat) (g : Globals) (m : Machine) : Prop where
  hosts : Hosts d g m.kernel
  shell : Stands d g m.kernel m.shell
  tasks : ∀ pid t, m.tasks pid = some t → Walks d g m.kernel t

variable {m m' : Machine}

theorem situated_iff (hg : g.Valid) (hfuel : g.getTotalClusters ≤ fuel) :
    Situated d g m ↔ OnVolume d g m ∧ Oriented d g fuel m := by
  have hplaced : Hosts d g m.kernel → ∀ {c : Nat} {path : CStr},
      Placed g fuel (m.kernel.volume d) c path ↔ Leads g (m.kernel.disks d) c path :=
    fun hk _ _ => placed_iff hg hfuel hk.wellFormed hk.dotted
  constructor
  · intro h
    refine ⟨⟨h.hosts, h.shell.current, h.shell.letter, ?_, fun pid t ht => (h.tasks pid t ht).home⟩,
      (hplaced h.hosts).mpr h.shell.leads,
      fun pid t ht hdrive => (hplaced h.hosts).mpr ((h.tasks pid t ht).leads hdrive)⟩
    rintro (hflag | ⟨pid, t, ht, hflag⟩)
    · exact h.shell.mounted hflag
    · exact (h.tasks pid t ht).mounted hflag
  · rintro ⟨hv, ho⟩
    exact ⟨hv.hosts,
      ⟨hv.current, hv.letter, fun hflag => hv.mounted (.inl hflag), (hplaced hv.hosts).mp ho.shell⟩,
      fun pid t ht => ⟨hv.home pid t ht, fun hflag => hv.mounted (.inr ⟨pid, t, ht, hflag⟩),
        fun hdrive => (hplaced hv.hosts).mp (ho.tasks pid t ht hdrive)⟩⟩

theorem Stands.after (h : Stands d g k host) (hwalks : Walks d g k t) (hk : Hosts d g k) {enters : Prop}
    {s : Kernel × Task} (hout : Outcome fails k t enters s) (hstill : Still g k s.1) :
    Stands d g s.1 host := by
  have hdrives : s.1.current = d ∧ (k.letter = d → s.1.letter = d) := by
    by_cases he : enters
    case neg =>
      obtain ⟨hd, hc, hl⟩ := hout.refused he
      refine ⟨?_, fun hletter => hl.trans hletter⟩
      rw [Kernel.current, hd, hc]
      exact h.current
    case pos =>
      by_cases ho : Opens fails k t
      · obtain ⟨hd, hc, hl⟩ := hout.restored he ho
        exact ⟨(current_of_settled hd hc).trans h.current, fun _ => hl.trans h.current⟩
      · -- the drive that could not be mounted is that of the volume
        obtain ⟨hd, hl, hc⟩ := hout.stranded he ho
        have hdrive : t.drive = d := hwalks.home.resolve_right (fun hflag => ho (.inl hflag))
        rw [hdrive, if_pos hk.valid] at hc
        refine ⟨?_, fun _ => hl.trans hdrive⟩
        have hvalid : (driveGetInfo k.drives d).isSome = true := hk.valid
        rw [Kernel.current, hd, hc, settledDrive, if_pos hvalid]
  refine ⟨hdrives.1, fun hflag => hdrives.2 (h.letter hflag),
    fun hflag => hstill.mounted (h.mounted hflag), ?_⟩
  rw [hstill.disks]
  exact h.leads

section Runs

variable (hg : g.Valid) (hfuel : g.getTotalClusters ≤ fuel)
include hg hfuel

theorem Situated.step (h : Situated d g m) (hlegal : LegalDirs g (m.kernel.disks d)) {e : Event}
    (he : Changes d m e) (hstep : Files.step fails fuel m e = some m') :
    Situated d g m' ∧ m'.kernel.disks = m.kernel.disks := by
  cases e with
  | command cmd =>
    cases cmd with
    | cd cmdArgs =>
      obtain ⟨⟨_, r⟩, hrun, rfl⟩ := Option.map_eq_some_iff.mp hstep
      have hcmd : (cmdCd fails fuel cmdArgs).wp
          (fun _ s => Still g m.kernel s.1 ∧ Stands d g s.1 s.2) (m.kernel, m.shell) := by
        rw [cmdCd, Action.wp_bind]
        exact Action.wp_mono (h.shell.cdReply hg hfuel h.hosts hlegal he)
          (fun _ _ hs => (Action.wp_pure _).mpr hs)
      obtain ⟨hstill, hstands⟩ := hcmd _ r hrun
      exact ⟨⟨hstill.hosts h.hosts, hstands, fun pid t ht => (h.tasks pid t ht).still hstill⟩,
        hstill.disks⟩
    | _ => exact he.elim
  | syscall pid num args =>
    cases num with
    | chdir =>
      obtain ⟨t, ht, hcall⟩ := Option.bind_eq_some_iff.mp hstep
      obtain ⟨⟨x, r⟩, hrun, rfl⟩ := Option.map_eq_some_iff.mp hcall
      have hwalks := h.tasks pid t ht
      obtain ⟨hstill, hnew⟩ := hwalks.chdir hg hfuel h.hosts hlegal (he t ht) x r hrun
      have hout := (shaped_syscall .chdir).outcome x r hrun
      refine ⟨⟨hstill.hosts h.hosts, h.shell.after hwalks h.hosts hout hstill, fun i t' ht' => ?_⟩,
        hstill.disks⟩
      rcases task_cases ht' with hself | hother
      · cases hself
        exact hnew
      · exact (h.tasks i t' hother).still hstill
    | _ => exact he.elim
  | launch _ _ _ => exact he.elim
  | thread _ _ => exact he.elim
  | exit _ _ => exact he.elim

theorem Situated.run (h : Situated d g m) (hlegal : LegalDirs g (m.kernel.disks d)) {es : List Event}
    (hchanges : Meets (Files.step fails fuel) (Changes d) m es)
    (hrun : Transition.run (Files.step fails fuel) m es = some m') :
    Situated d g m' ∧ m'.kernel.disks = m.kernel.disks := by
  have hstep : ∀ m₁ e m₂, Situated d g m₁ ∧ m₁.kernel.disks = m.kernel.disks → Changes d m₁ e →
      Files.step fails fuel m₁ e = some m₂ →
      Situated d g m₂ ∧ m₂.kernel.disks = m.kernel.disks := by
    rintro m₁ e m₂ ⟨h₁, hdisks⟩ he hstep
    obtain ⟨h₂, hsame⟩ := h₁.step hg hfuel (by rw [hdisks]; exact hlegal) he hstep
    exact ⟨h₂, hsame.trans hdisks⟩
  exact run_invariant hstep es m m' ⟨h, rfl⟩ hchanges hrun

end Runs

/-- Any directory changes of the shell and of the tasks leave the volume, and with it everybody in the
directory that the path says; a change that fails leaves directory and path; and a pop undoes a
push. -/
theorem places_hold {es : List Event} (hg : g.Valid) (hfuel : g.getTotalClusters ≤ fuel)
    (hlegal : LegalDirs g (m.kernel.disks d)) (hvolume : OnVolume d g m) (h : Oriented d g fuel m)
    (hchanges : Meets (step fails fuel) (Changes d) m es)
    (hrun : run (step fails fuel) m es = some m') :
    (OnVolume d g m' ∧ Oriented d g fuel m' ∧ m'.kernel.disks = m.kernel.disks) ∧
      (∀ cmdArgs s r s', cdReply fails fuel cmdArgs s = some (r, s') → r.failed = true →
        s.2.SamePlace s'.2) ∧
      (∀ args s s', syscall fails fuel .chdir args s = some (0, s') → s.2.SamePlace s'.2) ∧
      (∀ path name maxLen path', WellFormedPath path → chBackslash ∉ name →
        pathPush path maxLen name = some path' → pathPop path' = path) := by
  obtain ⟨hsituated, hdisks⟩ :=
    ((situated_iff hg hfuel).mpr ⟨hvolume, h⟩).run hg hfuel hlegal hchanges hrun
  obtain ⟨hvolume', horiented⟩ := (situated_iff hg hfuel).mp hsituated
  refine ⟨⟨hvolume', horiented, hdisks⟩, fun cmdArgs s r s' hcd hf => ?_, fun args s s' hcd => ?_,
    fun path name maxLen path' => pathPop_pathPush⟩
  · exact cd_refused cmdArgs r s' hcd hf
  · exact chdir_refused 0 s' hcd rfl

/-! ## A walk -/

theorem legalDirs_of_single {disk : Disk} (hg : g.Valid) {n : Nat} {l : List Nat}
    (hn : Chained g disk n l) (hroot : ∀ p ∈ dirSlots g 0 [], (entryAt disk p).isLive = true →
      (entryAt disk p).isDirectory = true → (entryAt disk p).first = n ∧ Legal (entryAt disk p).name)
    (hsub : ∀ p ∈ dirSlots g n l, (entryAt disk p).isLive = true → (entryAt disk p).isDot = true) :
    LegalDirs g disk := by
  have hnone : ∀ {l' : List Nat} {p : Slot}, Chained g disk n l' → p ∈ dirSlots g n l' →
      (entryAt disk p).isLive = true → (entryAt disk p).isDot = false → False := by
    intro l' p hl' hp hlive hdot
    rw [hl'.unique hg hn] at hp
    exact absurd ((hsub p hp hlive).symm.trans hdot) (by decide)
  have hdirs : ∀ c, IsDir g disk c → c = 0 ∨ c = n := by
    intro c hc
    induction hc with
    | root => exact .inl rfl
    | @sub parent l' p _ hl' hp hlive hdot hdir ih =>
      rcases ih with rfl | rfl
      · rw [hl'.nil_of_zero] at hp
        exact .inr (hroot p hp hlive hdir).1
      · exact (hnone hl' hp hlive hdot).elim
  rintro parent p hparent ⟨⟨l', hl', hp⟩, hlive, hdot, hdir⟩
  rcases hdirs parent hparent with rfl | rfl
  · rw [hl'.nil_of_zero] at hp
    exact (hroot p hp hlive hdir).2
  · exact (hnone hl' hp hlive hdot).elim

/-- The shell has made the directory `D`, and a task is in the root. -/
def strollStart : Option Machine :=
  (run (step noFaults 16) appMachine [.command (.mkdir [0x44])]).map (fun m =>
    { m with tasks := fun i => if i = 1 then some (rootTask 0 true) else none })

/-- The task goes into `D`, the shell into `D` and back, and then to an `X` that is not there. -/
def stroll : List Event :=
  [.syscall 1 .chdir (nameArgs 0x44), .command (.cd [0x64]), .command (.cd [0x2E, 0x2E]),
    .command (.cd [0x58])]

theorem strollStart_legal {m : Machine} (h : strollStart = some m) :
    LegalDirs bootVolume (m.kernel.disks 0) := by
  have hchain : ∀ m ∈ strollStart, 0x0FF8 ≤ fatGet bootVolume (m.kernel.disks 0) 3 := by
    decide +kernel
  have hroot : ∀ m ∈ strollStart, ∀ p ∈ dirSlots bootVolume 0 [],
      (entryAt (m.kernel.disks 0) p).isLive = true →
      (entryAt (m.kernel.disks 0) p).isDirectory = true →
      (entryAt (m.kernel.disks 0) p).first = 3 ∧ Legal (entryAt (m.kernel.disks 0) p).name := by
    decide +kernel
  have hsub : ∀ m ∈ strollStart, ∀ p ∈ dirSlots bootVolume 3 [3],
      (entryAt (m.kernel.disks 0) p).isLive = true →
      (entryAt (m.kernel.disks 0) p).isDot = true := by decide +kernel
  have hthree : Chained bootVolume (m.kernel.disks 0) 3 [3] := by
    refine .inr ⟨List.cons_ne_nil 3 [], rfl, by decide, ?_⟩
    show 0x0FF8 ≤ fatGet bootVolume (m.kernel.disks 0) 3
    exact hchain m h
  exact legalDirs_of_single bootVolume_valid hthree (hroot m h) (hsub m h)

theorem strollStart_oriented {m : Machine} (h : strollStart = some m) :
    OnVolume 0 bootVolume m ∧ Oriented 0 bootVolume 16 m := by
  have hshell : ∀ m ∈ strollStart, m.shell.fat16Initialized = true ∧
      m.shell.currentDirCluster = 0 ∧ m.shell.currentPath = pathReset := by decide +kernel
  obtain ⟨hflag, hcluster, hpath⟩ := hshell m h
  obtain ⟨m₁, hrun, rfl⟩ := Option.map_eq_some_iff.mp h
  have hsteady : Meets (step noFaults 16) (Steady 0 bootVolume) appMachine [.command (.mkdir [0x44])] :=
    ⟨trivial, fun _ _ => trivial⟩
  have hsound := (run_healthy bootVolume_valid (by decide) (by decide) appMachine_booted hsteady
    hrun).sound
  have hhosts : Hosts 0 bootVolume m₁.kernel :=
    ⟨(hsound.valid 0).mpr rfl, hsound.boot, hsound.wellFormed, hsound.dotted⟩
  have hglobals : m₁.kernel.globals = bootVolume := hsound.mounted (.inl hflag)
  have htask : ∀ {pid : Nat} {t : Task}, (if pid = 1 then some (rootTask 0 true) else none) = some t →
      t = rootTask 0 true := by
    intro pid t ht
    split at ht
    · exact (Option.some.inj ht).symm
    · cases ht
  have hroot : Leads bootVolume (m₁.kernel.disks 0) 0 pathReset := .root
  refine (situated_iff bootVolume_valid (by decide)).mp ⟨hhosts, ⟨hsound.current, fun _ => hsound.letter,
    fun _ => hglobals, ?_⟩, fun pid t ht => ?_⟩
  · rw [hcluster, hpath]
    exact hroot
  · rw [htask ht]
    exact ⟨.inl rfl, fun _ => hglobals, fun _ => hroot⟩

theorem places_hold_stroll : ∃ m m', strollStart = some m ∧
    run (step noFaults 16) m stroll = some m' ∧ Oriented 0 bootVolume 16 m' ∧
    m'.kernel.disks = m.kernel.disks := by
  have hrun : (strollStart.bind (fun m => run (step noFaults 16) m stroll)).isSome := by
    decide +kernel
  obtain ⟨m', hrun⟩ := Option.isSome_iff_exists.mp hrun
  obtain ⟨m, hm, hrun⟩ := Option.bind_eq_some_iff.mp hrun
  obtain ⟨hvolume, horiented⟩ := strollStart_oriented hm
  have hflag : ∀ m ∈ strollStart, (m.tasks 1).all Task.fat16Initialized = true := by decide +kernel
  have hchanges : Meets (step noFaults 16) (Changes 0) m stroll := by
    refine ⟨fun t ht => .inl ?_, fun _ _ => ⟨show (0 : Byte) ∉ [0x64] by decide,
      fun _ _ => ⟨show (0 : Byte) ∉ [0x2E, 0x2E] by decide,
      fun _ _ => ⟨show (0 : Byte) ∉ [0x58] by decide, fun _ _ => trivial⟩⟩⟩⟩
    have := hflag m hm
    rw [ht] at this
    exact this
  obtain ⟨⟨_, hplaces, hdisks⟩, _⟩ := places_hold bootVolume_valid (by decide) (strollStart_legal hm)
    hvolume horiented hchanges hrun
  exact ⟨m, m', hm, hrun, hplaces, hdisks⟩

end Files
end MiniDos
