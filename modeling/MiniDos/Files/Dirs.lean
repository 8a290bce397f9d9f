import MiniDos.Fat.TreeOps
import MiniDos.Fat.Confine
import MiniDos.Files.Context
import MiniDos.Files.Shell
import MiniDos.Lib.Transition

/-!
# MiniDos.Files.Dirs

Directories that are remembered. The shell and every task keep the first cluster of their current
directory and of the directory their clipboard came from, as plain numbers, while anybody may remove
directories.

* `Sound`: a machine with one drive, its volume well-formed with its dots, and a set of directories
  that are still there.
-/

namespace MiniDos
namespace Files

open BlockIO Fat16 Drive

/-- `fat16_init` takes the globals `g` from the boot sector. -/
def Boots (g : Globals) (s : Sector) : Prop := ∀ g₀, Fat16.fat16Init .cpu g₀ s = some (g, true)

/-- The only drive is `v`, with a well-formed volume on it in which the clusters `S` are directories.
When `P` holds, the volume is mounted. -/
structure Sound (v : Nat) (g : Globals) (S : Nat → Prop) (P : Prop) (k : Kernel) : Prop where
  valid : ∀ l, k.Valid l ↔ l = v
  letter : k.letter = v
  boot : Boots g (k.disks v 0)
  wellFormed : WellFormed g (k.disks v)
  dotted : Dotted g (k.disks v)
  dirs : ∀ c, S c → IsDir g (k.disks v) c
  mounted : P → k.globals = g

variable {v fuel : Nat} {g : Globals} {S : Nat → Prop} {P : Prop} {k : Kernel} {α σ : Type}

namespace Sound

theorem current (h : Sound v g S P k) : k.current = v := by
  refine (h.valid _).mp ?_
  cases hs : (driveGetInfo k.drives (settledDrive k.drives k.currentDrive)).isSome with
  | true => exact hs
  | false =>
    have hv : (driveGetInfo k.drives v).isSome = true := (h.valid v).mpr rfl
    rw [none_valid hs v] at hv
    cases hv

theorem congr {k' : Kernel} {P' : Prop} (h : Sound v g S P k) (hdrives : k'.drives = k.drives)
    (hletter : k'.letter = v) (hdisks : k'.disks = k.disks) (hmounted : P' → k'.globals = g) :
    Sound v g S P' k' := by
  refine ⟨fun l => ?_, hletter, ?_, ?_, ?_, ?_, hmounted⟩
  · unfold Kernel.Valid
    rw [hdrives]
    exact h.valid l
  all_goals rw [hdisks]
  · exact h.boot
  · exact h.wellFormed
  · exact h.dotted
  · exact h.dirs

theorem weaken {P' : Prop} (h : Sound v g S True k) : Sound v g S P' k :=
  h.congr rfl h.letter rfl (fun _ => h.mounted trivial)

/-- One call of the driver, with what its runs leave of the volume. -/
theorem fat_of_run (h : Sound v g S True k) {p : Globals → DiskProg α} {t : σ} {Lost : Nat → Prop}
    {R : α → Disk → Prop} {Q : α → Kernel × σ → Prop} (hlost : ∀ c, S c → ¬ Lost c)
    (hp : ∀ (m m' : DriverMem) a, m.disk = k.disks v → (p g).run noFaults m = some (a, m') →
      Evolved g (k.disks v) m'.disk Lost ∧ R a m'.disk)
    (hQ : ∀ a k', Sound v g S True k' → R a (k'.disks v) → Q a (k', t)) :
    (Files.fat noFaults p).wp Q (k, t) := by
  unfold Files.fat
  simp only [Action.wp_onFst, Action.wp_bind, Action.wp_modify, Action.wp_get]
  intro a k' hcall
  obtain ⟨⟨b, m'⟩, hrun, heq⟩ := Option.map_eq_some_iff.mp hcall
  cases heq
  have hvalid : k.begin.Valid k.begin.letter := (h.valid _).mpr h.letter
  have hfailing : k.begin.failing noFaults = noFaults := by
    funext n
    simp [Kernel.failing, hvalid, noFaults]
  have hdisk : k.begin.mem.disk = k.disks v := by
    show k.disks k.letter = k.disks v
    rw [h.letter]
  have hglobals : k.begin.globals = g := h.mounted trivial
  rw [hfailing, hglobals] at hrun
  obtain ⟨hev, hr⟩ := hp _ m' b hdisk hrun
  have hself : (k.begin.setMem m').disks v = m'.disk := by
    show (if v = k.letter then m'.disk else k.disks v) = m'.disk
    rw [h.letter, if_pos rfl]
  refine hQ b _ ⟨h.valid, h.letter, ?_, ?_, ?_, fun c hc => ?_, fun _ => hglobals⟩ ?_
  all_goals rw [hself]
  · rw [hev.boot]
    exact h.boot
  · exact hev.wellFormed
  · exact hev.dotted
  · exact (hev.dirs c (h.dirs c hc)).resolve_left (hlost c hc)
  · exact hr

theorem fat (h : Sound v g S True k) {p : Globals → DiskProg α} {t : σ} {Lost : Nat → Prop}
    {Q : α → Kernel × σ → Prop} (hlost : ∀ c, S c → ¬ Lost c)
    (hp : ∀ m : DriverMem, m.disk = k.disks v →
      (p g).wp Ctx.quiet (fun _ m' => Evolved g m.disk m'.disk Lost) m)
    (hQ : ∀ a k', Sound v g S True k' → Q a (k', t)) : (Files.fat noFaults p).wp Q (k, t) := by
  refine h.fat_of_run (R := fun _ _ => True) hlost (fun m m' a hm hrun => ⟨?_, trivial⟩)
    (fun a k' hk _ => hQ a k' hk)
  rw [← hm]
  exact (Prog.run_of_wp noFaults (fun _ hf => by cases hf) (hp m hm)).1 a m' hrun

theorem find (h : Sound v g S True k) {p : Globals → DiskProg α} {t : σ} {R : α → Prop}
    {Q : α → Kernel × σ → Prop} (hp : ∀ m : DriverMem, m.disk = k.disks v →
      (p g).wp Ctx.quiet (fun a m' => m'.disk = m.disk ∧ R a) m)
    (hQ : ∀ a k', Sound v g S True k' → k'.disks v = k.disks v → R a → Q a (k', t)) :
    (Files.fat noFaults p).wp Q (k, t) := by
  refine h.fat_of_run (R := fun a d => d = k.disks v ∧ R a) (fun _ _ hf => hf) (fun m m' a hm hrun => ?_) (fun a k' hk hr => hQ a k' hk hr.1 hr.2)
  obtain ⟨hdisk, hr⟩ := (Prog.run_of_wp noFaults (fun _ hf => by cases hf) (hp m hm)).1 a m' hrun
  rw [hdisk, hm]
  exact ⟨.refl h.wellFormed h.dotted, rfl, hr⟩

theorem read (h : Sound v g S True k) {p : Globals → DiskProg α} {t : σ}
    {Q : α → Kernel × σ → Prop} {R : α → Prop} (hp : (p g).Confined (fun _ => False) R)
    (hQ : ∀ a k', Sound v g S True k' → Q a (k', t)) : (Files.fat noFaults p).wp Q (k, t) := by
  refine h.fat_of_run (R := fun _ _ => True) (fun _ _ hf => hf) (fun m m' a hm hrun => ⟨?_, trivial⟩)
    (fun a k' hk _ => hQ a k' hk)
  have hsame : m'.disk = k.disks v := by
    rw [← hm]
    funext lba
    exact (hp.run hrun).2 lba not_false
  rw [hsame]
  exact .refl h.wellFormed h.dotted

theorem init (h : Sound v g S P k) {Q : Bool → Kernel → Prop}
    (hQ : ∀ k', Sound v g S True k' → k'.disks = k.disks → Q true k') :
    (Files.init noFaults).wp Q k := by
  unfold Files.init
  rw [Action.wp_bind]
  refine wp_readBoot (fun hf m _ => ?_) (fun _ _ m hm => ?_)
  · obtain hf | hf := hf
    · exact absurd ((h.valid _).mpr h.letter) hf
    · cases hf
  · have hdisks := Kernel.setMem_disks hm
    have hboot := h.boot (k.setMem m).globals
    rw [← h.letter] at hboot
    simp only [Action.wp_bind, Action.wp_get, hboot, Action.wp_modify, Action.wp_pure]
    exact hQ _ (h.congr rfl h.letter hdisks (fun _ => rfl)) hdisks

end Sound

/-! ## Drive contexts -/

/-- The task once its context was entered. -/
def Task.ready (t : Task) : Task := { t with fat16Initialized := true }

theorem Task.ready_of {t : Task} (h : t.fat16Initialized = true) : t.ready = t := by
  rw [Task.ready, ← h]

/-- What a call of a task starts from; `P`: somebody has the flag set. -/
structure Before (v : Nat) (g : Globals) (S : Nat → Prop) (P : Prop) (k : Kernel) (t : Task) :
    Prop where
  sound : Sound v g S P k
  drive : t.drive = v
  flag : t.fat16Initialized = true → P
  cur : S t.currentDirCluster
  clip : S t.appClipSrcCluster

/-- What it ends with. -/
structure After (v : Nat) (g : Globals) (S : Nat → Prop) (P : Prop) (s : Kernel × Task) :
    Prop where
  sound : Sound v g S (P ∨ s.2.fat16Initialized = true) s.1
  drive : s.2.drive = v
  cur : IsDir g (s.1.disks v) s.2.currentDirCluster
  clip : IsDir g (s.1.disks v) s.2.appClipSrcCluster

variable {t : Task}

theorem Sound.select (h : Sound v g S P k) {Q : Unit → Kernel → Prop}
    (hQ : ∀ k', Sound v g S P k' → k'.disks = k.disks → k'.globals = k.globals → Q () k') :
    (do
      driveSetCurrent v
      setDrive v : Action Kernel Unit).wp Q k := by
  unfold driveSetCurrent setDrive
  simp only [Action.wp_bind, Action.wp_modify]
  rw [if_pos ((h.valid v).mpr rfl)]
  exact hQ _ (h.congr rfl rfl rfl h.mounted) rfl rfl

namespace Before

theorem after (h : Before v g S P k t) : After v g S P (k, t) :=
  ⟨h.sound.congr rfl h.sound.letter rfl (fun hp => h.sound.mounted (hp.elim id h.flag)), h.drive,
    h.sound.dirs _ h.cur, h.sound.dirs _ h.clip⟩

theorem refuse (h : Before v g S P k t) (x : Int) :
    (pure x : Call).wp (fun _ s => After v g S P s) (k, t) :=
  (Action.wp_pure x).mpr h.after

theorem enter (h : Before v g S P k t) {f : Bool × Nat → Action (Kernel × Task) α}
    {Q : α → Kernel × Task → Prop} (hQ : ∀ k', Sound v g S True k' → k'.disks = k.disks →
      (f (true, v)).wp Q (k', t.ready)) : (enterDriveContext noFaults >>= f).wp Q (k, t) := by
  have hk : Sound v g S P (k.switch t.drive) := h.sound.congr rfl h.drive rfl h.sound.mounted
  have hcurrent := h.sound.current
  rw [Action.wp_bind]
  refine wp_entering (fun hflag => ?_) (fun _ => hk.init (fun k₁ hk₁ hdisks => ?_))
  · have hready := hQ _ (hk.congr rfl hk.letter rfl (fun _ => hk.mounted (h.flag hflag))) rfl
    rw [Task.ready_of hflag, ← hcurrent] at hready
    exact hready
  · rw [hcurrent]
    exact hQ k₁ hk₁ hdisks

end Before

theorem Sound.leave (h : Sound v g S True k) {Q : α → Kernel × Task → Prop}
    {f : Unit → Action (Kernel × Task) α}
    (hQ : ∀ k', Sound v g S True k' → k'.disks = k.disks → (f ()).wp Q (k', t)) :
    (leaveDriveContext v >>= f).wp Q (k, t) := by
  unfold leaveDriveContext
  have hselect := h.select (Q := fun _ k' => Sound v g S True k' ∧ k'.disks = k.disks)
    (fun k' hk hd _ => ⟨hk, hd⟩)
  simp only [Action.wp_bind, Action.wp_onFst] at hselect ⊢
  refine Action.wp_mono hselect (fun _ k₁ h₁ => Action.wp_mono h₁ (fun _ k₂ h₂ => ?_))
  exact hQ k₂ h₂.1 h₂.2

/-! ## The calls of the driver -/

/-- No file of the directory that the pattern matches has a cluster. -/
def Chainless (g : Globals) (d : Disk) (dir : Nat) (pattern : CStr) : Prop :=
  ∃ l, Chained g d dir l ∧ ∀ q ∈ dirSlots g dir l, doomed pattern (entryAt d q) = true →
    (entryAt d q).first < 2

theorem listDir_confined {W : Nat → Prop} (fuel dir : Nat) :
    (listDir fuel g dir).Confined W (fun _ => True) := by
  refine (forDirSectors_confined (R := fun _ => True) (fun lba _ => ?_) fuel dir).bind
    (fun _ _ => trivial)
  unfold listBody
  simp only [Prog.confined_bind, confined_readSector]
  refine fun ok => .ite (fun _ => ?_) (fun _ => fun x _ => trivial)
  simp only [Prog.confined_bind, confined_load]
  intro s
  cases scanSector listVerdict s with
  | more =>
    intro x hx
    cases hx
  | stopped => exact fun x _ => trivial
  | found i => exact fun x _ => trivial

section Calls

variable (hg : g.Valid) (hres : 0 < g.bpb.reservedSectors) (hfuel : g.getTotalClusters ≤ fuel)

namespace Sound

theorem list {dir : Nat} {s : σ} (h : Sound v g S True k) {Q : Unit → Kernel × σ → Prop}
    (hQ : ∀ r k', Sound v g S True k' → Q r (k', s)) :
    (Files.fat noFaults (fun g => listDir fuel g dir)).wp Q (k, s) :=
  h.read (listDir_confined fuel dir) hQ

include hg hfuel

section Lookups

variable {dir : Nat} {name : CStr} {s : σ} (h : Sound v g S True k) (hdir : IsDir g (k.disks v) dir)
include h hdir

theorem findEntry {Q : Option Located → Kernel × σ → Prop}
    (hQ : ∀ r k', Sound v g S True k' → k'.disks v = k.disks v → (∀ x, r = some x →
      name.at 0 ≠ 0 ∧ ∃ l p, Chained g (k.disks v) dir l ∧
        lookup name (k.disks v) (dirSlots g dir l) = some p ∧ x = locate (k.disks v) p) →
      Q r (k', s)) : (Files.fat noFaults (fun g => Fat16.findEntry g fuel dir name)).wp Q (k, s) := by
  refine h.find (fun m hm => ?_) hQ
  rw [← hm]
  exact wp_findEntry hg (hm ▸ h.wellFormed) (hm ▸ hdir) hfuel

theorem findDirCluster {Q : Option Nat → Kernel × σ → Prop}
    (hQ : ∀ r k', Sound v g S True k' → k'.disks v = k.disks v →
      (∀ c, r = some c → IsDir g (k.disks v) c) → Q r (k', s)) :
    (Files.fat noFaults (fun g => Fat16.findDirCluster g fuel dir name)).wp Q (k, s) := by
  refine h.find (fun m hm => ?_) hQ
  rw [← hm]
  exact wp_findDirCluster hg (hm ▸ h.wellFormed) (hm ▸ h.dotted) (hm ▸ hdir) hfuel

theorem getParentCluster {Q : Option Nat → Kernel × σ → Prop}
    (hQ : ∀ r k', Sound v g S True k' → k'.disks v = k.disks v →
      (∀ c, r = some c → IsDir g (k.disks v) c) → Q r (k', s)) :
    (Files.fat noFaults (fun g => Fat16.getParentCluster g fuel dir)).wp Q (k, s) := by
  refine h.find (fun m hm => ?_) hQ
  rw [← hm]
  exact wp_getParentCluster hg (hm ▸ h.wellFormed) (hm ▸ h.dotted) (hm ▸ hdir) hfuel

end Lookups

section Changes

variable {dir : Nat} {name : CStr} {s : σ} (h : Sound v g S True k)
  (hdir : IsDir g (k.disks v) dir) {Q : Bool → Kernel × σ → Prop}
  (hQ : ∀ ok k', Sound v g S True k' → Q ok (k', s))
include hres h hdir hQ

theorem write (buffer : Option (Nat → Byte)) (size : Int) :
    (Files.fat noFaults (fun g => writeFileFromDir g fuel dir name buffer size)).wp Q (k, s) :=
  h.fat (fun _ _ hf => hf) (fun _ hm => wp_write_evolved hg hres hfuel
    Ctx.quiet_not_faulty (fun _ => trivial) (hm ▸ h.wellFormed) (hm ▸ h.dotted) (hm ▸ hdir) buffer
    size) hQ

theorem copy {dstDir : Nat} (hdst : IsDir g (k.disks v) dstDir) (dstName : CStr) :
    (Files.fat noFaults (fun g => copyFileBetweenDirs g fuel dir name dstDir dstName)).wp Q
      (k, s) :=
  h.fat (fun _ _ hf => hf) (fun _ hm => wp_copy_evolved hg hres hfuel
    Ctx.quiet_not_faulty (fun _ => trivial) (hm ▸ h.wellFormed) (hm ▸ h.dotted) (hm ▸ hdir)
    (hm ▸ hdst)) hQ

theorem mkdir : (Files.fat noFaults (fun g => Fat16.mkdir g fuel dir name)).wp Q (k, s) :=
  h.fat (fun _ _ hf => hf) (fun _ hm => wp_mkdir_evolved hg hres hfuel
    Ctx.quiet_not_faulty (fun _ => trivial) (hm ▸ h.wellFormed) (hm ▸ h.dotted) (hm ▸ hdir)) hQ

theorem delete :
    (Files.fat noFaults (fun g => Fat16.deleteEntry g fuel dir name true)).wp Q (k, s) :=
  h.fat (fun _ _ hf => hf) (fun _ hm => wp_delete_evolved hg hres hfuel
    Ctx.quiet_not_faulty (fun _ => trivial) (hm ▸ h.wellFormed) (hm ▸ h.dotted) (hm ▸ hdir)) hQ

theorem rmdir (hsafe : ∀ c, S c → ¬ Gone g (k.disks v) dir name c) :
    (Files.fat noFaults (fun g => Fat16.rmdir g fuel dir name)).wp Q (k, s) := by
  refine h.fat hsafe (fun m hm => ?_) hQ
  rw [← hm]
  exact wp_rmdir_evolved hg hres hfuel Ctx.quiet_not_faulty (fun _ => trivial) (hm ▸ h.wellFormed)
    (hm ▸ h.dotted) (hm ▸ hdir)

theorem update {newName : CStr} {l : List Nat} {p : Slot} (hname : name.at 0 ≠ 0)
    (hl : Chained g (k.disks v) dir l) (hp : lookup name (k.disks v) (dirSlots g dir l) = some p)
    (hkeep : (entryAt (k.disks v) p).isDot = true → formatName newName = none ∨
      lookup newName (k.disks v) (dirSlots g dir l) ≠ none)
    (hsafe : ∀ c, S c → ¬ Erased g (k.disks v) dir name newName c) :
    (Files.fat noFaults (fun g => updateEntry g fuel dir name newName
      (entryAt (k.disks v) p).clusterLow.toNat (entryAt (k.disks v) p).fileSize.toNat
      (entryAt (k.disks v) p).attributes)).wp Q (k, s) := by
  refine h.fat hsafe (fun m hm => ?_) hQ
  rw [← hm] at hl hp hkeep ⊢
  exact wp_update_evolved hg hres hfuel Ctx.quiet_not_faulty (fun _ => trivial) (hm ▸ h.wellFormed)
    (hm ▸ h.dotted) (hm ▸ hdir) hname hl hp hkeep

theorem updateFile {newName : CStr} {x : Located} (hx : name.at 0 ≠ 0 ∧ ∃ l p,
      Chained g (k.disks v) dir l ∧ lookup name (k.disks v) (dirSlots g dir l) = some p ∧
        x = locate (k.disks v) p) (hfile : x.entry.isDirectory = false) :
    (Files.fat noFaults (fun g => updateEntry g fuel dir name newName x.entry.clusterLow.toNat
      x.entry.fileSize.toNat x.entry.attributes)).wp Q (k, s) := by
  obtain ⟨hname, l, p, hl, hp, rfl⟩ := hx
  refine h.update hg hres hfuel hdir hQ hname hl hp (fun hdot => ?_) (fun c _ he => ?_)
  · obtain ⟨n, c, hentry, _⟩ := lookup_dot hg h.dotted hdir hl hp hdot
    exact absurd (hentry.isDirectory.symm.trans hfile) (by decide)
  · obtain ⟨_, l', q, _, hl', hq, _, _, hqdir, _⟩ := he
    cases hl.unique hg hl'
    cases hp.symm.trans hq
    exact absurd (hqdir.symm.trans hfile) (by decide)

end Changes

include hres in
theorem sweep {dir : Nat} {pattern : CStr} {s : σ} (h : Sound v g S True k)
    (hdir : IsDir g (k.disks v) dir) {Q : Bool × Nat → Kernel × σ → Prop}
    (hlow : Chainless g (k.disks v) dir pattern)
    (hQ : ∀ r k', Sound v g S True k' → Q r (k', s)) :
    (Files.fat noFaults (fun g => deleteMatching g fuel dir pattern true)).wp Q (k, s) := by
  obtain ⟨l, hl, hlow⟩ := hlow
  refine h.fat (fun _ _ hf => hf) (fun m hm => ?_) hQ
  rw [← hm] at hl hlow
  exact wp_deleteMatching_evolved hg hres hfuel Ctx.quiet_not_faulty (fun _ => trivial)
    (hm ▸ h.wellFormed) (hm ▸ h.dotted) (hm ▸ hdir) hl hlow

end Sound

end Calls

end Files
end MiniDos
