import MiniDos.Files.MountRuns
import MiniDos.Files.OwnDrive
import MiniDos.Files.Transfer

/-!
# MiniDos.Files.Clipboard

CLIP_SET, a walk of CHDIR calls, and CLIP_PASTE. The clipboard has the name, the directory and the
mode, but no drive.

* `Roams`: what holds all along the walk.
* `clipSet_roams`, `Roams.chdir`, `clipPaste_spec`: its first call, each further one, and the paste.
* `clip_paste_delivers`: what a paste does to the file that was set.
-/

namespace MiniDos
namespace Files

open BlockIO Fat16 Drive Transition

variable {fails : Nat → Bool} {d fuel : Nat} {g : Globals} {k k' k₀ : Kernel} {t t' : Task} {args : Args}

/-! ## The walk -/

structure Clip where
  srcCluster : Nat
  name : CStr
  mode : Nat

def Task.clip (t : Task) : Clip := ⟨t.appClipSrcCluster, t.appClipName, t.appClipMode⟩

/-- Since `k₀` the task has been walking with the clip, whatever drives it was on. -/
structure Roams (d : Nat) (g : Globals) (k₀ : Kernel) (clip : Clip) (s : Kernel × Task) : Prop where
  hosts : Hosts d g s.1
  disks : s.1.disks = k₀.disks
  globals : s.1.globals = g
  ready : s.2.fat16Initialized = true
  here : s.2.drive = d → IsDir g (k₀.disks d) s.2.currentDirCluster
  clip : s.2.clip = clip

variable {clip : Clip}

theorem Roams.kernel (h : Roams d g k₀ clip (k, t)) (hdrives : k'.drives = k.drives)
    (hdisks : k'.disks = k.disks) (hglobals : k'.globals = k.globals) : Roams d g k₀ clip (k', t) :=
  ⟨h.hosts.congr hdrives hdisks, hdisks.trans h.disks, hglobals.trans h.globals, h.ready, h.here, h.clip⟩

theorem Roams.moved (h : Roams d g k₀ clip (k, t)) (hready : t'.fat16Initialized = t.fat16Initialized)
    (hclip : t'.clip = t.clip) (hhere : t'.drive = d → IsDir g (k₀.disks d) t'.currentDirCluster) :
    Roams d g k₀ clip (k, t') :=
  ⟨h.hosts, h.disks, h.globals, hready.trans h.ready, hhere, hclip.trans h.clip⟩

theorem wp_enter_ready {α : Type} (hflag : t.fat16Initialized = true)
    {f : Bool × Nat → Action (Kernel × Task) α} {Q : α → Kernel × Task → Prop}
    (hQ : (f (true, k.current)).wp Q (k.switch t.drive, t)) :
    (enterDriveContext fails >>= f).wp Q (k, t) := by
  rw [Action.wp_bind]
  exact wp_entering (fun _ => hQ) (fun hno => absurd hflag hno)

theorem Roams.leave (h : Roams d g k₀ clip (k, t)) (previous : Nat) (x : Int) : (do
    leaveDriveContext previous
    pure x : Call).wp (fun _ s => Roams d g k₀ clip s) (k, t) :=
  wp_leave_aside (fun _ hk => (Action.wp_pure x).mpr (h.kernel hk.drives hk.disks hk.globals))

/-- A lookup and the step into the directory it found. On the drive of the clip it finds a directory;
elsewhere it may read anything. -/
theorem Roams.look (h : Roams d g k₀ clip (k, t)) {p : Globals → DiskProg (Option Nat)}
    {path : CStr → Option CStr} (hstill : ∀ g, (p g).Confined (fun _ => False) (fun _ => True))
    (hdir : t.drive = d → ∀ m : DriverMem, m.disk = k₀.disks d →
      (p g).wp Ctx.noisy (fun r m' => m'.disk = m.disk ∧ ∀ c, r = some c → IsDir g m.disk c) m) : (do
    let (entered, previous) ← enterDriveContext fails
    if entered then do
      let next ← fat fails p
      let result ← chdirTo path next
      leaveDriveContext previous
      pure result
    else pure 0 : Call).wp (fun _ s => Roams d g k₀ clip s) (k, t) := by
  have hnext : (fat fails p).wp (fun r _ => t.drive = d → ∀ c, r = some c →
      IsDir g (k₀.disks d) c) (k.switch t.drive, t) := by
    by_cases hdrive : t.drive = d
    · refine wp_fat_finds (fun m hm => ?_)
      have hglobals : (k.switch t.drive).globals = g := h.globals
      have hm₀ : m.disk = k₀.disks d := by
        rw [hm, ← hdrive]
        exact congrFun h.disks t.drive
      have hp := hdir hdrive m hm₀
      rw [hm₀] at hp
      rw [hglobals]
      exact Prog.wp_mono hp (fun _ _ hr _ => hr.2)
    · exact fun _ _ _ hd => absurd hd hdrive
  refine wp_enter_ready h.ready ?_
  simp only [↓reduceIte]
  rw [Action.wp_bind]
  refine Action.wp_mono (Action.wp_and (wp_fat_still hstill) hnext) ?_
  rintro next ⟨k₁, t₁⟩ ⟨⟨hleaves, hdisks, rfl⟩, hnext⟩
  have h₁ : Roams d g k₀ clip (k₁, t₁) := h.kernel hleaves.drives hdisks hleaves.globals
  rw [Action.wp_bind]
  cases next with
  | none => exact (Action.wp_pure _).mpr (h₁.leave _ _)
  | some c =>
    refine wp_task ?_
    cases path t₁.currentPath with
    | none => exact (Action.wp_pure _).mpr (h₁.leave _ _)
    | some newPath =>
      simp only [setTask, Action.wp_bind (Action.modify _), Action.wp_modify, Action.wp_pure]
      have hmoved : Roams d g k₀ clip
          (k₁, { t₁ with currentDirCluster := c, currentPath := newPath }) :=
        h₁.moved rfl rfl (fun hd => hnext hd c rfl)
      exact hmoved.leave _ _

section Walk

variable (hg : g.Valid) (hfuel : g.getTotalClusters ≤ fuel)
include hg hfuel

/-- One CHDIR. -/
theorem Roams.chdir (h : Roams d g k₀ clip (k, t)) :
    (Files.chdir fails fuel args).wp (fun _ s => Roams d g k₀ clip s) (k, t) := by
  have hstay : ∀ x : Int, (pure x : Call).wp (fun _ s => Roams d g k₀ clip s) (k, t) :=
    fun x => (Action.wp_pure x).mpr h
  have hw : WellFormed g (k₀.disks d) := congrFun h.disks d ▸ h.hosts.wellFormed
  have hdot : Dotted g (k₀.disks d) := congrFun h.disks d ▸ h.hosts.dotted
  refine wp_task ?_
  cases copyUserString t args.mem args.a0 nameSize with
  | none => exact hstay _
  | some nameA =>
    dsimp only
    cases driveName nameA with
    | some letter =>
      simp only [chdirDrive, Action.wp_bind, Action.wp_get]
      refine Action.wp_ite (fun _ => ?_) (fun _ => hstay _)
      simp only [setTask, Action.wp_bind, Action.wp_modify, Action.wp_pure]
      exact h.moved rfl rfl (fun _ => .root)
    | none =>
      refine Action.wp_ite (fun _ => ?_) (fun _ => ?_)
      · simp only [setTask, Action.wp_bind, Action.wp_modify, Action.wp_pure]
        exact h.moved rfl rfl (fun _ => .root)
      refine Action.wp_ite (fun _ => ?_) (fun _ => ?_)
      · refine wp_task (h.look (fun _ => getParentCluster_confined fuel _) (fun hdrive m hm => ?_))
        rw [← hm] at hw hdot
        exact wp_getParentCluster hg hw hdot (hm ▸ h.here hdrive) hfuel
      refine Action.wp_ite (fun _ => hstay _) (fun _ => ?_)
      refine wp_task (h.look (fun _ => findDirCluster_confined fuel _ _) (fun hdrive m hm => ?_))
      rw [← hm] at hw hdot
      exact wp_findDirCluster hg hw hdot (hm ▸ h.here hdrive) hfuel

/-- The walk: one CHDIR after the other. -/
def chdirStep (fails : Nat → Bool) (fuel : Nat) (s : Kernel × Task) (args : Args) :
    Option (Kernel × Task) :=
  (syscall fails fuel .chdir args s).map (fun r => r.2)

theorem Roams.run {walk : List Args} {s s' : Kernel × Task} (h : Roams d g k₀ clip s)
    (hrun : run (chdirStep fails fuel) s walk = some s') : Roams d g k₀ clip s' := by
  refine run_invariant_all (fun s args s' hs hstep => ?_) walk s s' h hrun
  obtain ⟨⟨x, s₁⟩, hcall, rfl⟩ := Option.map_eq_some_iff.mp hstep
  exact hs.chdir hg hfuel x s₁ hcall

end Walk

/-! ## CLIP_SET -/

/-- The clip that a call with these arguments stores. -/
def Args.toClip (args : Args) (src : Nat) (name : CStr) : Clip :=
  ⟨src, name, if asInt args.a1 = 2 then 2 else 1⟩

theorem clipSet_roams (h : Hosts d g k) (hdrive : t.drive = d)
    (hmounted : t.fat16Initialized = true → k.globals = g)
    (hcur : IsDir g (k.disks d) t.currentDirCluster) :
    (syscall fails fuel .clipSet args).wp (fun x s => x = 1 → ∃ name,
      copyUserUpper t args.mem args.a0 = some name ∧
        Roams d g k (args.toClip t.currentDirCluster name) s) (k, t) := by
  refine wp_task ?_
  cases copyUserUpper t args.mem args.a0 with
  | none => exact (Action.wp_pure _).mpr (fun hx => by cases hx)
  | some nameA =>
    refine h.enter hdrive hmounted (fun _ _ _ s => ?_) (fun k₁ hk₁ hd₁ => ?_)
    · simp only [Bool.false_eq_true, ↓reduceIte]
      exact (Action.wp_pure _).mpr (fun hx => by cases hx)
    simp only [↓reduceIte]
    rw [Action.wp_bind]
    have hstill : ∀ g', (findEntry g' fuel t.currentDirCluster nameA).Confined (fun _ => False)
        (fun _ => True) :=
      fun _ => (findEntry_confined fuel _ _).mono (fun _ h => h) (fun _ _ => trivial)
    refine Action.wp_mono (wp_fat_still hstill) ?_
    rintro r ⟨k₂, t₂⟩ ⟨hleaves, hd₂, rfl⟩
    have hgive : (do
        leaveDriveContext k.current
        pure 0 : Call).wp (fun x s => x = 1 → ∃ name, some nameA = some name ∧
          Roams d g k (args.toClip t.currentDirCluster name) s) (k₂, t.ready) :=
      wp_leave_aside (fun _ _ => (Action.wp_pure _).mpr (fun hx => by cases hx))
    rw [Action.wp_bind]
    cases r with
    | none => exact (Action.wp_pure _).mpr hgive
    | some x =>
      unfold clipFound
      refine Action.wp_ite (fun _ => (Action.wp_pure _).mpr hgive) (fun _ => ?_)
      simp only [setTask, Action.wp_bind (Action.modify _), Action.wp_modify, Action.wp_pure]
      refine wp_leave_aside (fun k₃ hk₃ => (Action.wp_pure _).mpr (fun _ => ⟨nameA, rfl, ?_⟩))
      have hdisks : k₃.disks = k₁.disks := hk₃.disks.trans hd₂
      exact ⟨hk₁.toHosts.congr (hk₃.drives.trans hleaves.drives) hdisks, hdisks.trans hd₁,
        hk₃.globals.trans (hleaves.globals.trans hk₁.globals), rfl, fun _ => hcur, rfl⟩

/-! ## CLIP_PASTE -/

/-- The directory that the arguments of the paste name: that of the task, or one in it. -/
inductive Destination (d : Nat) (g : Globals) (fuel : Nat) (k : Kernel) (t : Task) (args : Args) :
    Nat → Prop where
  | here (h : args.a0 = 0 ∨ copyUserString t args.mem args.a0 nameSize = some []) :
      Destination d g fuel k t args t.currentDirCluster
  | named {name : CStr} {dst : Nat} {m : DriverMem}
      (hname : copyUserString t args.mem args.a0 nameSize = some name) (hne : name ≠ [])
      (hfound : (Fat16.findDirCluster g fuel t.currentDirCluster (strToUpper name)).run noFaults
        (k.volume d) = some (some dst, m)) : Destination d g fuel k t args dst

/-- The file of directory `src` is in the destination, with the bytes it had; with `cut` its entry in
`src` is gone. -/
def Pasted (d : Nat) (g : Globals) (fuel : Nat) (k k' : Kernel) (t : Task) (args : Args) (src : Nat)
    (name : CStr) (cut : Bool) : Prop :=
  ∃ dst q p ls l bytes, Destination d g fuel k t args dst ∧
    Delivered g fuel (k.volume d) (k'.volume d) src name dst cut q p ls l bytes

section Paste

variable (hg : g.Valid) (hres : 0 < g.bpb.reservedSectors) (hfuel : g.getTotalClusters ≤ fuel)
  (h : Roams d g k₀ clip (k, t)) (hdrive : t.drive = d)
  (hsrc : IsDir g (k₀.disks d) clip.srcCluster) (hup : clip.name.Capital)
include hg hres hfuel h hsrc hup

/-- Where the paste ends, in a state `k'` whose disks are those in front of it. -/
theorem Roams.pasteInto (hk : Serving d g k') (hdisks : k'.disks = k₀.disks) {dst previous : Nat}
    (hdst : IsDir g (k₀.disks d) dst) (hnamed : Destination d g fuel k t args dst) : (do
      let result ← Files.pasteInto noFaults fuel t dst
      leaveDriveContext previous
      pure result : Call).wp (fun x s => x = 1 →
        Pasted d g fuel k s.1 t args clip.srcCluster clip.name (decide (clip.mode = 2))) (k', t) := by
  obtain ⟨src, name, mode⟩ := clip
  have hclip := h.clip
  simp only [Task.clip, Clip.mk.injEq] at hclip
  obtain ⟨rfl, rfl, rfl⟩ := hclip
  have hsrc' : IsDir g (k'.disks d) t.appClipSrcCluster := by
    rw [hdisks]
    exact hsrc
  have hdst' : IsDir g (k'.disks d) dst := by
    rw [hdisks]
    exact hdst
  have hvol : (k.volume d).disk = (k'.volume d).disk :=
    congrFun (h.disks.trans hdisks.symm) d
  obtain ⟨lsrc, hlsrc⟩ := hk.wellFormed.dir_chained hsrc'
  -- the copy fails, or the mode decides what is done next
  rw [Action.wp_bind, Files.pasteInto, Action.wp_bind]
  refine hk.copyTo hg hres hfuel hsrc' hdst' hup (fun k₁ _ _ _ => ?_)
    (fun k₁ q p ls l bytes _ hk₁ htwice => ?_)
  · simp only [Bool.false_eq_true, not_false_eq_true, ↓reduceIte]
    refine (Action.wp_pure _).mpr (wp_leave_aside (fun _ _ => (Action.wp_pure _).mpr (fun hx => ?_)))
    cases hx
  simp only [not_true_eq_false, ↓reduceIte]
  refine Action.wp_ite (fun hmode => ?_) (fun hmode => ?_)
  · rw [Files.pasteMoved, Action.wp_bind]
    refine hk.cutFrom hg hres hfuel hsrc' hdst' hk₁ hlsrc htwice (fun k₂ _ _ hdone _ => ?_)
    simp only [↓reduceIte, setTask, Action.wp_bind (Action.modify _), Action.wp_modify, Action.wp_pure]
    have hgone := hdone.of_disk_eq (m := k'.volume d) hg hfuel hk.wellFormed hsrc' hvol
    refine wp_leave_aside (fun k₃ h₃ => (Action.wp_pure _).mpr (fun _ => ?_))
    rw [← h₃.volume d] at hgone
    exact ⟨dst, q, p, ls, l, bytes, hnamed, by rw [decide_eq_true hmode]; exact hgone⟩
  · have hkept : Delivered g fuel (k'.volume d) (k₁.volume d) t.appClipSrcCluster t.appClipName dst
        false q p ls l bytes :=
      ⟨htwice.copy.source, htwice.copy.copy, htwice.copy.vacant, _, htwice.copy.others, rfl⟩
    have hdone := hkept.of_disk_eq (m := k'.volume d) hg hfuel hk.wellFormed hsrc' hvol
    refine (Action.wp_pure _).mpr (wp_leave_aside (fun k₃ h₃ => (Action.wp_pure _).mpr (fun _ => ?_)))
    rw [← h₃.volume d] at hdone
    exact ⟨dst, q, p, ls, l, bytes, hnamed, by rw [decide_eq_false hmode]; exact hdone⟩

include hdrive

theorem clipPaste_spec : (syscall noFaults fuel .clipPaste args).wp (fun x s => x = 1 →
    Pasted d g fuel k s.1 t args clip.srcCluster clip.name (decide (clip.mode = 2))) (k, t) := by
  have hserving : Serving d g (k.switch t.drive) := ⟨h.hosts.congr rfl rfl, hdrive, h.globals⟩
  have hhere := h.here hdrive
  refine wp_task (Action.wp_ite (fun _ => (Action.wp_pure _).mpr (fun hx => by cases hx)) (fun _ => ?_))
  refine wp_enter_ready h.ready ?_
  simp only [↓reduceIte]
  refine Action.wp_ite (fun hzero => ?_) (fun _ => ?_)
  · exact h.pasteInto hg hres hfuel hsrc hup hserving h.disks hhere (.here (.inl hzero))
  cases hname : copyUserString t args.mem args.a0 nameSize with
  | none => exact wp_leave_aside (fun _ _ => (Action.wp_pure _).mpr (fun hx => by cases hx))
  | some nameA =>
    cases nameA with
    | nil => exact h.pasteInto hg hres hfuel hsrc hup hserving h.disks hhere (.here (.inr hname))
    | cons c cs =>
      dsimp only
      rw [Action.wp_bind]
      have hhere' : IsDir g ((k.switch t.drive).disks d) t.currentDirCluster :=
        congrFun h.disks d ▸ hhere
      refine hserving.findDirCluster hg hfuel hhere' (fun r k₂ hrun hk₂ hd₂ hr => ?_)
      cases r with
      | none => exact wp_leave_aside (fun _ _ => (Action.wp_pure _).mpr (fun hx => by cases hx))
      | some dst =>
        have hdst : IsDir g (k₀.disks d) dst := congrFun h.disks d ▸ hr dst rfl
        exact h.pasteInto hg hres hfuel hsrc hup hk₂ (hd₂.trans h.disks) hdst
          (.named hname (List.cons_ne_nil c cs) hrun)

end Paste

/-! ## From the set to the paste -/

/-- The file's entry in directory `src` is gone. -/
def TakenAway (d : Nat) (g : Globals) (fuel : Nat) (k k' : Kernel) (src : Nat) (name : CStr) : Prop :=
  ∃ q ls bytes, HoldsFile g fuel (k.volume d) src name q ls bytes ∧
    (entryAt (k'.disks d) q).isLive = false

theorem TakenAway.disk_ne (hg : g.Valid) (hfuel : g.getTotalClusters ≤ fuel) (h : Hosts d g k)
    {src : Nat} {name : CStr} (hsrc : IsDir g (k.disks d) src)
    (htaken : TakenAway d g fuel k k' src name) : k'.disks d ≠ k.disks d := by
  obtain ⟨q, ls, bytes, hfile, hgone⟩ := htaken
  intro hsame
  obtain ⟨lsrc, hok⟩ := WellFormed.dirOk (m := k.volume d) h.wellFormed hsrc
  have hlive := DirectoryEntry.isLive_of_hits (lookup_hits (hfile.lookup_eq hg hfuel hok).2)
  rw [hsame] at hgone
  cases hlive.symm.trans hgone

theorem Pasted.takenAway {src : Nat} {name : CStr} (h : Pasted d g fuel k k' t args src name true) :
    TakenAway d g fuel k k' src name := by
  obtain ⟨dst, q, p, ls, l, bytes, _, hdone⟩ := h
  obtain ⟨e, _, hremoved⟩ := hdone.steps
  have hmarked : entryAt (k'.disks d) q = deletedEntry (entryAt e q) := hremoved.marked
  refine ⟨q, ls, bytes, hdone.source, ?_⟩
  rw [hmarked]
  exact deletedEntry_isLive _

/-- A second drive with the same files. -/
def Kernel.mirror (k : Kernel) : Kernel :=
  { k with
    drives := fun l => if l < 2 then some ⟨0, l, 0, 20, 0x01⟩ else none
    disks := fun _ => k.disks 0 }

theorem Hosts.mirror (h : Hosts 0 bootVolume k) : Hosts 0 bootVolume k.mirror :=
  ⟨rfl, h.boot, h.wellFormed, h.dotted⟩

/-- CLIP_SET of `A` with mode 2. -/
def cutArgs : Args := { nameArgs 0x41 with a1 := 2 }

/-- CHDIR to A:. -/
def homeArgs : Args :=
  { driveArgs with mem := fun i => if i = loadVirtBase then 0x41 else driveArgs.mem i }

/-- CLIP_SET of `A`, the walk, and CLIP_PASTE into `D`, from `s` on: the states around the paste. -/
def cutAndPaste (s : Kernel × Task) (walk : List Args) : Option ((Kernel × Task) × (Kernel × Task)) :=
  (syscall noFaults 16 .clipSet cutArgs s).bind (fun r₁ =>
    if r₁.1 = 1 then (run (chdirStep noFaults 16) r₁.2 walk).bind (fun s₂ =>
      (syscall noFaults 16 .clipPaste (nameArgs 0x44) s₂).bind (fun r₃ =>
        if r₃.1 = 1 then some (s₂, r₃.2) else none))
    else none)

theorem cutAndPaste_calls {s s₂ s₃ : Kernel × Task} {walk : List Args}
    (h : cutAndPaste s walk = some (s₂, s₃)) : ∃ s₁,
      syscall noFaults 16 .clipSet cutArgs s = some (1, s₁) ∧
      run (chdirStep noFaults 16) s₁ walk = some s₂ ∧
      syscall noFaults 16 .clipPaste (nameArgs 0x44) s₂ = some (1, s₃) := by
  obtain ⟨⟨x, s₁⟩, hset, h⟩ := Option.bind_eq_some_iff.mp h
  split at h
  case isFalse => cases h
  rename_i hx
  obtain ⟨s₂', hwalk, h⟩ := Option.bind_eq_some_iff.mp h
  obtain ⟨⟨y, s₃'⟩, hpaste, h⟩ := Option.bind_eq_some_iff.mp h
  split at h
  case isFalse => cases h
  rename_i hy
  cases hx
  cases hy
  cases h
  exact ⟨s₁, hset, hwalk, hpaste⟩

/-- A CLIP_SET of a file on drive `d`, any CHDIR calls, and a CLIP_PASTE that returns 1 and has no
access fail. Back on drive `d`, the paste has put that file into the destination and leaves the other
drives alone; and a cut has taken the file away exactly when the task was back on drive `d`. -/
theorem clip_paste_delivers {t₀ t₁ t₂ t₃ : Task} {k₁ k₂ k₃ : Kernel} {set paste : Args}
    {walk : List Args} (hg : g.Valid) (hres : 0 < g.bpb.reservedSectors)
    (hfuel : g.getTotalClusters ≤ fuel) (h : Hosts d g k₀) (hdrive : t₀.drive = d)
    (hmounted : t₀.fat16Initialized = true → k₀.globals = g)
    (hcur : IsDir g (k₀.disks d) t₀.currentDirCluster)
    (hset : syscall fails fuel .clipSet set (k₀, t₀) = some (1, k₁, t₁))
    (hwalk : run (chdirStep fails fuel) (k₁, t₁) walk = some (k₂, t₂))
    (hpaste : syscall noFaults fuel .clipPaste paste (k₂, t₂) = some (1, k₃, t₃)) :
    ∃ name, copyUserUpper t₀ set.mem set.a0 = some name ∧
      (t₂.drive = d → Pasted d g fuel k₂ k₃ t₂ paste t₀.currentDirCluster name
        (decide (asInt set.a1 = 2)) ∧ Elsewhere d k₂ k₃) ∧
      (asInt set.a1 = 2 → (TakenAway d g fuel k₂ k₃ t₀.currentDirCluster name ↔ t₂.drive = d)) := by
  obtain ⟨name, hname, hstart⟩ := clipSet_roams h hdrive hmounted hcur 1 (k₁, t₁) hset rfl
  have hroams := hstart.run hg hfuel hwalk
  have hspares := syscall_spares .clipPaste 1 (k₃, t₃) hpaste
  have hcut : decide ((set.toClip t₀.currentDirCluster name).mode = 2) = decide (asInt set.a1 = 2) := by
    unfold Args.toClip
    split
    · rename_i h2
      simp [h2]
    · rename_i h2
      simp [h2]
  have hpasted : t₂.drive = d → Pasted d g fuel k₂ k₃ t₂ paste t₀.currentDirCluster name
      (decide (asInt set.a1 = 2)) := by
    intro hback
    rw [← hcut]
    exact clipPaste_spec hg hres hfuel hroams hback hcur (copyUserUpper_capital hname) 1 (k₃, t₃) hpaste
      rfl
  refine ⟨name, hname, fun hback => ⟨hpasted hback, hback ▸ hspares.elsewhere⟩, fun h2 => ⟨?_, ?_⟩⟩
  · intro htaken
    by_contra hother
    have hsrc : IsDir g (k₂.disks d) t₀.currentDirCluster := congrFun hroams.disks d ▸ hcur
    exact htaken.disk_ne hg hfuel hroams.hosts hsrc (hspares.elsewhere d (Ne.symm hother))
  · intro hback
    have := hpasted hback
    rw [decide_eq_true h2] at this
    exact this.takenAway

/-- To B: and back. -/
theorem clip_paste_delivers_back : ∃ s s₂ s₃ name, callState directoryRun = some s ∧
    cutAndPaste (s.1.mirror, s.2) [driveArgs, homeArgs] = some (s₂, s₃) ∧
    Pasted 0 bootVolume 16 s₂.1 s₃.1 s₂.2 (nameArgs 0x44) s.2.currentDirCluster name true ∧
    Elsewhere 0 s₂.1 s₃.1 := by
  have hback : (callState directoryRun).any (fun s =>
      (cutAndPaste (s.1.mirror, s.2) [driveArgs, homeArgs]).any (fun r => r.1.2.drive = 0)) = true := by
    decide +kernel
  obtain ⟨s, hs, hback⟩ := (Option.any_eq_true _ _).mp hback
  obtain ⟨⟨s₂, s₃⟩, hrun, hdrive₂⟩ := (Option.any_eq_true _ _).mp hback
  obtain ⟨hhosts, hdrive, hflag, hcur⟩ := callState_hosts directoryRun_steady hs
  obtain ⟨s₁, hset, hwalk, hpaste⟩ := cutAndPaste_calls hrun
  obtain ⟨name, _, hdone, _⟩ := clip_paste_delivers bootVolume_valid (by decide) (by decide)
    hhosts.mirror hdrive hflag hcur hset hwalk hpaste
  exact ⟨s, s₂, s₃, name, hs, hrun, hdone (of_decide_eq_true hdrive₂)⟩

/-- With the task on B: at the paste, a cut of the file `A` of A: takes away that of B:. -/
theorem cut_takes_other_file : ∃ s s₂ s₃, callState directoryRun = some s ∧
    Hosts 0 bootVolume s.1.mirror ∧ s.2.drive = 0 ∧
    cutAndPaste (s.1.mirror, s.2) [driveArgs] = some (s₂, s₃) ∧
    ¬ NotFound 0 bootVolume 16 s₃.1 s.2.currentDirCluster [0x41] ∧
    NotFound 1 bootVolume 16 s₃.1 s.2.currentDirCluster [0x41] := by
  have hrun : (callState directoryRun).any (fun s =>
      (cutAndPaste (s.1.mirror, s.2) [driveArgs]).any (fun r =>
        ((Fat16.findEntry bootVolume 16 s.2.currentDirCluster [0x41]).run noFaults
          (r.2.1.volume 0)).any (fun r => r.1.isSome) &&
        ((Fat16.findEntry bootVolume 16 s.2.currentDirCluster [0x41]).run noFaults
          (r.2.1.volume 1)).any (fun r => r.1.isNone))) = true := by decide +kernel
  obtain ⟨s, hs, hrun⟩ := (Option.any_eq_true _ _).mp hrun
  obtain ⟨⟨s₂, s₃⟩, hrun, hends⟩ := (Option.any_eq_true _ _).mp hrun
  obtain ⟨hthere, hgone⟩ := (Bool.and_eq_true _ _).mp hends
  obtain ⟨⟨r, m⟩, hfind, hsome⟩ := (Option.any_eq_true _ _).mp hthere
  obtain ⟨⟨r', m'⟩, hfind', hnone⟩ := (Option.any_eq_true _ _).mp hgone
  obtain rfl : r' = none := Option.isNone_iff_eq_none.mp hnone
  obtain ⟨hhosts, hdrive, _, _⟩ := callState_hosts directoryRun_steady hs
  refine ⟨s, s₂, s₃, hs, hhosts.mirror, hdrive, hrun, fun hmissed => ?_, m', hfind'⟩
  obtain ⟨m₁, hmissed⟩ := hmissed
  cases hfind.symm.trans hmissed
  cases hsome

end Files
end MiniDos
