import MiniDos.Files.DirCalls

/-!
# MiniDos.Files.Serving

One drive among several: what a call of the driver inside a context does to the volume of the drive,
and that the others stay as they are.

* `Hosts`: a drive with a well-formed volume; `Serving`: the driver works on it.
* `Hosts.enter`, `Serving.fat`, `wp_leave_aside`: into the context, a call of the driver, and out
  again.
-/

namespace MiniDos
namespace Files

open BlockIO Fat16 Drive

variable {v fuel : Nat} {g : Globals} {k k' : Kernel} {t : Task} {α σ : Type}

/-- Drive `v` as the driver sees it. -/
def Kernel.volume (k : Kernel) (v : Nat) : DriverMem := { k with letter := v }.mem

@[simp] theorem volume_disk (k : Kernel) (v : Nat) : (k.volume v).disk = k.disks v := rfl

/-- There is a drive `v`, with a well-formed volume with the geometry `g`. -/
structure Hosts (v : Nat) (g : Globals) (k : Kernel) : Prop where
  valid : k.Valid v
  boot : Boots g (k.disks v 0)
  wellFormed : WellFormed g (k.disks v)
  dotted : Dotted g (k.disks v)

/-- The driver works on that drive. -/
structure Serving (v : Nat) (g : Globals) (k : Kernel) : Prop extends Hosts v g k where
  letter : k.letter = v
  globals : k.globals = g

/-- The drives other than `v` have the disks they had. -/
def Elsewhere (v : Nat) (k k' : Kernel) : Prop := ∀ l, l ≠ v → k'.disks l = k.disks l

theorem Elsewhere.trans {k'' : Kernel} (h : Elsewhere v k k') (h' : Elsewhere v k' k'') :
    Elsewhere v k k'' := fun l hl => (h' l hl).trans (h l hl)

/-- Only the current drives differ. -/
structure Aside (k k' : Kernel) : Prop where
  drives : k'.drives = k.drives
  disks : k'.disks = k.disks
  globals : k'.globals = k.globals
  volume : ∀ v, k'.volume v = k.volume v

theorem Hosts.congr (h : Hosts v g k) (hdrives : k'.drives = k.drives) (hdisks : k'.disks = k.disks) :
    Hosts v g k' := by
  refine ⟨?_, ?_, ?_, ?_⟩
  · unfold Kernel.Valid
    rw [hdrives]
    exact h.valid
  all_goals rw [hdisks]
  · exact h.boot
  · exact h.wellFormed
  · exact h.dotted

/-- One call of the driver that leaves a well-formed volume. -/
theorem Serving.fat (h : Serving v g k) {p : Globals → DiskProg α} {t : σ}
    {Q : α → Kernel × σ → Prop} (Lost : Nat → Prop)
    (hp : ∀ a m', (p g).run noFaults (k.volume v) = some (a, m') →
      Evolved g (k.disks v) m'.disk Lost ∧
        ∀ k', Serving v g k' → Elsewhere v k k' → k'.volume v = m' → Q a (k', t)) :
    (Files.fat noFaults p).wp Q (k, t) := by
  unfold Files.fat
  simp only [Action.wp_onFst, Action.wp_bind, Action.wp_modify, Action.wp_get]
  intro a k' hcall
  obtain ⟨⟨b, m'⟩, hrun, heq⟩ := Option.map_eq_some_iff.mp hcall
  cases heq
  have hvalid : k.begin.Valid k.begin.letter := by
    show k.Valid k.letter
    rw [h.letter]
    exact h.valid
  have hfailing : k.begin.failing noFaults = noFaults := by
    funext n
    simp [Kernel.failing, hvalid, noFaults]
  have hmem : k.begin.mem = k.volume v := by
    unfold Kernel.volume
    rw [← h.letter]
    rfl
  have hglobals : k.begin.globals = g := h.globals
  rw [hfailing, hglobals, hmem] at hrun
  obtain ⟨hev, hQ⟩ := hp b m' hrun
  have hself : (k.begin.setMem m').disks v = m'.disk := by
    show (if v = k.letter then m'.disk else k.disks v) = m'.disk
    rw [h.letter, if_pos rfl]
  refine hQ _ ⟨⟨h.valid, ?_, ?_, ?_⟩, h.letter, hglobals⟩ (fun l hl => ?_) ?_
  · rw [hself, hev.boot]
    exact h.boot
  · rw [hself]
    exact hev.wellFormed
  · rw [hself]
    exact hev.dotted
  · show (if l = k.letter then m'.disk else k.disks l) = k.disks l
    rw [h.letter, if_neg hl]
  · calc (k.begin.setMem m').volume v = { m' with disk := (k.begin.setMem m').disks v } := rfl
      _ = m' := by rw [hself]

theorem Serving.fat_evolved (h : Serving v g k) {p : Globals → DiskProg α} {t : σ}
    {Q : α → Kernel × σ → Prop} {Lost : Nat → Prop}
    (hp : ∀ m : DriverMem, m.disk = k.disks v →
      (p g).wp Ctx.quiet (fun _ m' => Evolved g m.disk m'.disk Lost) m)
    (hQ : ∀ a k', (p g).run noFaults (k.volume v) = some (a, k'.volume v) → Serving v g k' →
      Elsewhere v k k' → Evolved g (k.disks v) (k'.disks v) Lost → Q a (k', t)) :
    (Files.fat noFaults p).wp Q (k, t) := by
  refine h.fat Lost (fun a m' hrun => ?_)
  have hev := (Prog.run_of_wp noFaults (fun _ hf => by cases hf) (hp (k.volume v) rfl)).1 a m' hrun
  refine ⟨hev, fun k' hk helse hvol => ?_⟩
  rw [← hvol] at hrun hev
  exact hQ a k' hrun hk helse hev

theorem Serving.find (h : Serving v g k) {p : Globals → DiskProg α} {t : σ} {R : α → Prop}
    {Q : α → Kernel × σ → Prop} (hp : ∀ m : DriverMem, m.disk = k.disks v →
      (p g).wp Ctx.quiet (fun a m' => m'.disk = m.disk ∧ R a) m)
    (hQ : ∀ a k', (p g).run noFaults (k.volume v) = some (a, k'.volume v) → Serving v g k' →
      k'.disks = k.disks → R a → Q a (k', t)) : (Files.fat noFaults p).wp Q (k, t) := by
  refine h.fat (fun _ => False) (fun a m' hrun => ?_)
  obtain ⟨hdisk, hr⟩ :=
    (Prog.run_of_wp noFaults (fun _ hf => by cases hf) (hp (k.volume v) rfl)).1 a m' hrun
  refine ⟨?_, fun k' hk helse hvol => ?_⟩
  · rw [hdisk]
    exact .refl h.wellFormed h.dotted
  · have hdisks : k'.disks = k.disks := by
      funext l
      by_cases hl : l = v
      · rw [hl]
        exact (congrArg Mem.disk hvol).trans hdisk
      · exact helse l hl
    exact hQ a k' (hvol ▸ hrun) hk hdisks hr

section Lookups

variable (hg : g.Valid) (hfuel : g.getTotalClusters ≤ fuel) {dir : Nat} {name : CStr} {s : σ}
  (h : Serving v g k) (hdir : IsDir g (k.disks v) dir)
include hg hfuel h hdir

theorem Serving.findDirCluster {Q : Option Nat → Kernel × σ → Prop}
    (hQ : ∀ r k', (Fat16.findDirCluster g fuel dir name).run noFaults (k.volume v) =
      some (r, k'.volume v) → Serving v g k' → k'.disks = k.disks →
      (∀ c, r = some c → IsDir g (k.disks v) c) → Q r (k', s)) :
    (Files.fat noFaults (fun g => Fat16.findDirCluster g fuel dir name)).wp Q (k, s) := by
  refine h.find (fun m hm => ?_) hQ
  rw [← hm]
  exact wp_findDirCluster hg (hm ▸ h.wellFormed) (hm ▸ h.dotted) (hm ▸ hdir) hfuel

end Lookups

/-! ## Contexts -/

theorem Hosts.init (h : Hosts v g k) (hletter : k.letter = v) {fails : Nat → Bool}
    {Q : Bool → Kernel → Prop} (hno : ∀ n, fails n = true → ∀ k', Q false k')
    (hQ : ∀ k', Serving v g k' → k'.disks = k.disks → Q true k') : (Files.init fails).wp Q k := by
  unfold Files.init
  rw [Action.wp_bind]
  refine wp_readBoot (fun hf m _ => ?_) (fun _ _ m hm => ?_)
  · obtain hf | hf := hf
    · exact absurd (hletter ▸ h.valid) hf
    · exact (Action.wp_pure _).mpr (hno _ hf _)
  · have hdisks := Kernel.setMem_disks hm
    have hboot := h.boot (k.setMem m).globals
    rw [← hletter] at hboot
    simp only [Action.wp_bind, Action.wp_get, hboot, Action.wp_modify, Action.wp_pure]
    exact hQ _ ⟨h.congr rfl hdisks, hletter, rfl⟩ hdisks

theorem Hosts.enter (h : Hosts v g k) (hdrive : t.drive = v)
    (hmounted : t.fat16Initialized = true → k.globals = g) {fails : Nat → Bool}
    {f : Bool × Nat → Action (Kernel × Task) α} {Q : α → Kernel × Task → Prop}
    (hno : ∀ n, fails n = true → ∀ previous s, (f (false, previous)).wp Q s)
    (hQ : ∀ k', Serving v g k' → k'.disks = k.disks → (f (true, k.current)).wp Q (k', t.ready)) :
    (enterDriveContext fails >>= f).wp Q (k, t) := by
  subst hdrive
  have hhosts : Hosts t.drive g (k.switch t.drive) := h.congr rfl rfl
  rw [Action.wp_bind]
  refine wp_entering (fun hflag => ?_) (fun hflag => ?_)
  · have hready := hQ _ ⟨hhosts, rfl, hmounted hflag⟩ rfl
    rw [Task.ready_of hflag] at hready
    exact hready
  · exact hhosts.init rfl (fun n hf k₄ => hno n hf _ _) hQ

theorem wp_leave_aside {previous : Nat} {f : Unit → Action (Kernel × Task) α}
    {Q : α → Kernel × Task → Prop} (hQ : ∀ k', Aside k k' → (f ()).wp Q (k', t)) :
    (leaveDriveContext previous >>= f).wp Q (k, t) := by
  unfold leaveDriveContext driveSetCurrent setDrive
  simp only [Action.wp_bind, Action.wp_onFst, Action.wp_modify]
  split
  · exact hQ _ ⟨rfl, rfl, rfl, fun _ => rfl⟩
  · exact hQ _ ⟨rfl, rfl, rfl, fun _ => rfl⟩

end Files
end MiniDos
