import MiniDos.Files.Dirs

/-!
# MiniDos.Files.Mounts

The globals of the driver on a machine with several drives. There is one `bpb`, which `fat16_init`
fills from the boot sector of some drive; the shell and every task have a flag of their own that
says it is filled.

* `Tended`: no boot sector was written, and every call of the driver so far began with the globals
  of its drive.
* `Prepared`: what a call of the driver needs to begin so.
* `Ended`: what a system call or a command of the shell leaves.
-/

namespace MiniDos
namespace Files

open BlockIO Fat16 Drive

variable {fails : Nat → Bool} {fuel : Nat} {boots : Nat → Sector} {d : Nat} {k : Kernel}

/-! ## Boot sectors -/

theorem boots_of_init {g₀ g : Globals} {s : Sector}
    (h : Fat16.fat16Init .cpu g₀ s = some (g, true)) : Boots g s := by
  intro g₁
  have hs : Signed s := by
    by_contra hs
    simp [fat16Init, hs] at h
  by_cases hb : (Bpb.ofSector s).Filled
  · rw [fat16Init_filled hs g₀ .cpu hb] at h
    rw [fat16Init_filled hs g₁ .cpu hb]
    cases hn : (Bpb.ofSector s).totalClusters .cpu with
    | none => simp [hn] at h
    | some n =>
      cases ht : typeOfCount n with
      | none => simp [hn, ht] at h
      | some t =>
        simp only [hn, ht, Option.map_some] at h ⊢
        exact h
  · simp [fat16Init_unfilled hs g₀ .cpu hb] at h

theorem Boots.unique {g g' : Globals} {s : Sector} (h : Boots g s) (h' : Boots g' s) : g = g' :=
  congrArg Prod.fst (Option.some.inj ((h g).symm.trans (h' g)))

theorem Boots.bpb {g : Globals} {s : Sector} (h : Boots g s) : g.bpb = Bpb.ofSector s := by
  have hs : Signed s := by
    by_contra hs
    have := h g
    simp [fat16Init, hs] at this
  exact (fat16Init_accepted hs g (h g)).1

/-- `boots` holds the boot sectors of the drives. -/
structure Tended (boots : Nat → Sector) (k : Kernel) : Prop where
  boots : ∀ l, k.disks l 0 = boots l
  begun : ∀ b ∈ k.begun, Boots b.globals b.boot

/-- The driver is on drive `d` and has the globals of that drive. -/
structure Prepared (boots : Nat → Sector) (d : Nat) (k : Kernel) : Prop where
  tended : Tended boots k
  letter : k.letter = d
  globals : Boots k.globals (boots d)

theorem Tended.congr {k' : Kernel} (h : Tended boots k) (hdisks : k'.disks = k.disks)
    (hbegun : k'.begun = k.begun) : Tended boots k' :=
  ⟨fun l => by rw [hdisks, h.boots], by rw [hbegun]; exact h.begun⟩

theorem Tended.setMem (h : Tended boots k) {m : DriverMem} (hm : m.disk 0 = k.disks k.letter 0) :
    Tended boots (k.setMem m) := by
  refine ⟨fun l => ?_, h.begun⟩
  show (if l = k.letter then m.disk else k.disks l) 0 = boots l
  split
  · rename_i hl
    rw [hm, hl, h.boots]
  · exact h.boots l

/-! ## Bodies -/

section Bodies

variable {σ α : Type} (hres : ∀ l g, Boots g (boots l) → 0 < g.bpb.reservedSectors)
include hres

theorem Prepared.fat {p : Globals → DiskProg α} {R : Globals → α → Prop}
    (hp : ∀ g, Fat16.Mounted g → Within g (p g) (R g)) {s : Kernel × σ}
    (hs : Prepared boots d s.1) : (fat fails p).wp (fun _ s' => Prepared boots d s'.1) s := by
  obtain ⟨k, t⟩ := s
  obtain ⟨htended, rfl, hglobals⟩ := hs
  unfold Files.fat
  simp only [Action.wp_onFst, Action.wp_bind, Action.wp_modify, Action.wp_get]
  intro a k' hcall
  obtain ⟨⟨b, m⟩, hrun, heq⟩ := Option.map_eq_some_iff.mp hcall
  cases heq
  have hbegin : Tended boots k.begin := by
    refine ⟨htended.boots, fun b hb => ?_⟩
    rcases List.mem_cons.mp hb with rfl | hb
    · rw [← htended.boots] at hglobals
      exact hglobals
    · exact htended.begun b hb
  have hzero : ¬ k.globals.InReach 0 := fun h =>
    absurd (hres _ _ hglobals) (Nat.not_lt.mpr h.1)
  have hsame := ((hp _ (mounted_of_init (hglobals k.globals))).run hrun).2 0 hzero
  exact ⟨hbegin.setMem hsame, rfl, hglobals⟩

theorem Body.prepared {p : Action (Kernel × σ) α} (h : Body fails p) {s : Kernel × σ}
    (hs : Prepared boots d s.1) : p.wp (fun _ s' => Prepared boots d s'.1) s := by
  induction h generalizing s with
  | pure a => exact (Action.wp_pure a).mpr hs
  | bind hp hf ihp ihf =>
    rw [Action.wp_bind]
    exact Action.wp_mono (ihp hs) (fun a s₁ h₁ => ihf a h₁)
  | look => simpa only [Action.wp_bind, Action.wp_get, Action.wp_pure] using hs
  | change f => exact (Action.wp_modify _).mpr hs
  | driver hp => exact hs.fat hres hp

end Bodies

/-! ## Mounting -/

/-- What the caller with the flag `ready` on drive `d` leaves, from the globals `g` on: `k'` and its
flag then. -/
structure Ended (boots : Nat → Sector) (d : Nat) (g : Globals) (ready : Bool) (k' : Kernel)
    (ready' : Bool) : Prop where
  tended : Tended boots k'
  kept : ready = true → k'.globals = g
  filled : ready = false → ready' = true → Boots k'.globals (boots d)

theorem Tended.init (h : Tended boots k) : (init fails).wp (fun ok k' => Tended boots k' ∧
    (ok = true → Boots k'.globals (boots k.letter))) k := by
  unfold Files.init
  rw [Action.wp_bind]
  refine wp_readBoot (fun _ m hm => ?_) (fun _ _ m hm => ?_)
  · exact (Action.wp_pure _).mpr ⟨h.setMem (by rw [hm]), fun hok => by cases hok⟩
  · simp only [Action.wp_bind, Action.wp_get]
    cases hinit : Fat16.fat16Init .cpu (k.setMem m).globals (k.disks k.letter 0) with
    | none => simp
    | some r =>
      obtain ⟨g, ok⟩ := r
      simp only [Action.wp_bind, Action.wp_modify, Action.wp_pure]
      refine ⟨(h.setMem (by rw [hm])).congr rfl rfl, fun hok => ?_⟩
      rw [hok] at hinit
      rw [← h.boots]
      exact boots_of_init hinit

/-! ## The calls of a task -/

section Tasks

variable {t : Task}

structure Entered (boots : Nat → Sector) (k : Kernel) (t : Task) (entered : Bool)
    (s : Kernel × Task) : Prop where
  tended : Tended boots s.1
  letter : s.1.letter = t.drive
  kept : t.fat16Initialized = true → s.1.globals = k.globals ∧ entered = true
  filled : t.fat16Initialized = false → entered = true → Boots s.1.globals (boots t.drive)
  flag : t.fat16Initialized = false → s.2.fat16Initialized = entered

theorem Tended.enter (h : Tended boots k) : (enterDriveContext fails).wp
    (fun r s => Entered boots k t r.1 s) (k, t) := by
  have htended : Tended boots (k.switch t.drive) := h.congr rfl rfl
  refine wp_entering (fun hflag => ?_) (fun hflag => ?_)
  · exact ⟨htended, rfl, fun _ => ⟨rfl, rfl⟩,
      fun hno => absurd (hno.symm.trans hflag) Bool.false_ne_true,
      fun hno => absurd (hno.symm.trans hflag) Bool.false_ne_true⟩
  · refine Action.wp_mono (Action.wp_and htended.init (wp_init _)) (fun ok k₄ h₄ => ?_)
    obtain ⟨⟨htended, hfill⟩, _, _, _, hletter⟩ := h₄
    exact ⟨htended, hletter, fun hyes => absurd hyes hflag, fun _ hok => hfill hok, fun _ => rfl⟩

theorem wp_leave {s : Kernel × Task} (h : Tended boots s.1) {previous : Nat} {x : Int} :
    (do
      leaveDriveContext previous
      pure x : Call).wp (fun _ s' => Tended boots s'.1 ∧ s'.1.globals = s.1.globals ∧ s'.2 = s.2)
      s := by
  unfold leaveDriveContext driveSetCurrent setDrive
  simp only [Action.wp_bind, Action.wp_onFst, Action.wp_modify, Action.wp_pure]
  split
  · exact ⟨h.congr rfl rfl, rfl, trivial⟩
  · exact ⟨h.congr rfl rfl, rfl, trivial⟩

variable (hres : ∀ l g, Boots g (boots l) → 0 < g.bpb.reservedSectors)
include hres

theorem Framed.prepared {previous : Nat} {p : Call} (h : Framed fails previous p)
    {s : Kernel × Task} (hs : Prepared boots d s.1) :
    p.wp (fun _ s' => Tended boots s'.1 ∧ Boots s'.1.globals (boots d)) s := by
  induction h generalizing s with
  | leave x =>
    refine Action.wp_mono (wp_leave hs.tended) (fun _ s' h' => ⟨h'.1, ?_⟩)
    rw [h'.2.1]
    exact hs.globals
  | step hp hf ih =>
    rw [Action.wp_bind]
    exact Action.wp_mono (hp.prepared hres hs) (fun a s₁ h₁ => ih a h₁)

/-- A task whose flag is set has the globals of its drive in front of every call that goes on to the
driver. -/
theorem Shaped.ended {enters calls : Prop} {p : Call} (hp : Shaped fails t enters calls p)
    (h : Tended boots k)
    (hready : calls → t.fat16Initialized = true → Boots k.globals (boots t.drive)) :
    p.wp (fun _ s => Ended boots t.drive k.globals t.fat16Initialized s.1 s.2.fat16Initialized)
      (k, t) := by
  cases hp with
  | refused hno hp =>
    intro x s hrun
    obtain ⟨x', t', hp, hflag⟩ := hp k
    cases hp.symm.trans hrun
    exact ⟨h, fun _ => rfl, fun hf hf' => absurd (hf'.symm.trans (hflag.trans hf)) (by decide)⟩
  | @entered f x he hp hout hin hidle =>
    intro y s hrun
    rw [hp] at hrun
    revert y s
    show Action.wp _ _ _
    rw [Action.wp_bind]
    refine Action.wp_mono h.enter ?_
    rintro ⟨entered, previous⟩ s hs
    cases entered with
    | false =>
      rw [hout, Action.wp_pure]
      refine ⟨hs.tended, fun hflag => absurd (hs.kept hflag).2 Bool.false_ne_true, fun hno hyes => ?_⟩
      exact absurd ((hs.flag hno).symm.trans hyes) Bool.false_ne_true
    | true =>
      by_cases hc : calls ∨ t.fat16Initialized = false
      case pos =>
        have hboots : Boots s.1.globals (boots t.drive) := by
          cases hflag : t.fat16Initialized with
          | false => exact hs.filled hflag rfl
          | true =>
            rw [(hs.kept hflag).1]
            exact hready (hc.resolve_right (by rw [hflag]; decide)) hflag
        refine Action.wp_mono ((hin previous).prepared hres ⟨hs.tended, hs.letter, hboots⟩)
          (fun _ s' h' => ⟨h'.1, fun hflag => ?_, fun _ _ => h'.2⟩)
        rw [← (hs.kept hflag).1]
        exact h'.2.unique hboots
      case neg =>
        -- the context is left at once
        rw [not_or, Bool.not_eq_false] at hc
        obtain ⟨x', hidle⟩ := hidle hc.1
        rw [hidle]
        refine Action.wp_mono (wp_leave hs.tended) (fun _ s' h' => ⟨h'.1, fun _ => ?_, fun hno => ?_⟩)
        · exact h'.2.1.trans (hs.kept hc.2).1
        · exact absurd (hc.2.symm.trans hno) (by decide)

end Tasks

/-! ## The commands of the shell -/

def Command.Calls : Command → Prop
  | .dir => True
  | .cd args => ¬ (args.at 0 = 0 ∨ (args.at 0 = chBackslash ∨ args.at 0 = chSlash) ∨
      (args.at 0 = chDot ∧ args.at 1 = 0))
  | .type args | .mkdir args | .rmdir args | .del args => args.at 0 ≠ 0
  | .copy args | .move args => (parseTwoArgs args).isSome
  | .drive _ => False
  | .complete _ => True

instance : ∀ cmd : Command, Decidable cmd.Calls
  | .dir | .complete _ => inferInstanceAs (Decidable True)
  | .cd _ => inferInstanceAs (Decidable (¬ _))
  | .type _ | .mkdir _ | .rmdir _ | .del _ => inferInstanceAs (Decidable (_ ≠ _))
  | .copy _ | .move _ => inferInstanceAs (Decidable (_ = true))
  | .drive _ => inferInstanceAs (Decidable False)

section Commands

variable {host : Host} {α : Type}

/-- `fat16_init` until it succeeds, by a shell that has the flag cleared. -/
theorem Tended.readyWithin (h : Tended boots k) (hflag : host.fat16Initialized = false) (n : Nat) :
    (readyWithin fails n).wp (fun ok s => Tended boots s.1 ∧ s.2.fat16Initialized = ok ∧
      (ok = true → Prepared boots k.current s.1)) (k, host) := by
  induction n generalizing k host with
  | zero =>
    simp only [Files.readyWithin, getHost, Action.wp_bind, Action.wp_get, Action.wp_pure]
    exact ⟨h, trivial, fun hok => absurd (hflag.symm.trans hok) Bool.false_ne_true⟩
  | succ n ih =>
    simp only [Files.readyWithin, getHost, Action.wp_bind, Action.wp_get, Action.wp_pure]
    refine Action.wp_ite (fun hyes => absurd (hflag.symm.trans hyes) Bool.false_ne_true) (fun _ => ?_)
    simp only [driveGetCurrent, setDrive, Action.wp_bind, Action.wp_onFst, Action.wp_get,
      Action.wp_modify, Action.wp_pure]
    have htended : Tended boots { k with currentDrive := k.current, letter := k.current } :=
      h.congr rfl rfl
    refine Action.wp_mono (Action.wp_and htended.init (wp_init _)) (fun ok k₁ h₁ => ?_)
    obtain ⟨⟨htended, hfill⟩, _, hdrives, hcurrent, hletter⟩ := h₁
    have hsame : k₁.current = k.current := current_of_settled hdrives hcurrent
    simp only [setHost, Action.wp_modify]
    cases ok with
    | false =>
      rw [← hsame]
      exact ih htended rfl
    | true =>
      have hprepared : Prepared boots k.current k₁ := ⟨htended, hletter, hfill rfl⟩
      cases n with
      | zero =>
        simp only [Files.readyWithin, getHost, Action.wp_bind, Action.wp_get, Action.wp_pure]
        exact ⟨htended, trivial, fun _ => hprepared⟩
      | succ n =>
        simp only [Files.readyWithin, getHost, Action.wp_bind, Action.wp_get, Action.wp_pure,
          ↓reduceIte]
        exact ⟨htended, trivial, fun _ => hprepared⟩

theorem readyWithin_ready (hflag : host.fat16Initialized = true) (n : Nat) :
    readyWithin fails n (k, host) = some (true, k, host) := by
  cases n with
  | zero =>
    show some (host.fat16Initialized, k, host) = _
    rw [hflag]
  | succ n =>
    show (if host.fat16Initialized = true then pure true else _ : Action (Kernel × Host) Bool)
      (k, host) = _
    rw [if_pos hflag]
    rfl

theorem Body.getHost : Body fails getHost := look

theorem Body.setHost (f : Host → Host) : Body fails (setHost f) := change f

theorem Body.cdTo (path : CStr → Option CStr) (next : Option Nat) : Body fails (cdTo path next) := by
  cases next with
  | none => exact .pure _
  | some cluster =>
    refine .bind .getHost (fun host => ?_)
    cases path host.currentPath with
    | none => exact .pure _
    | some path => exact .bind (.setHost _) (fun _ => .pure _)

theorem Body.cdReady (args : CStr) : Body fails (cdReady fails fuel args) := by
  refine .bind .getHost (fun host => .ite (.pure _)
    (.ite (.bind (.setHost _) (fun _ => .pure _)) (.ite ?_ (.ite (.pure _) ?_))))
  · exact .bind .getParentCluster (fun parent => .cdTo _ _)
  · exact .bind .findDirCluster (fun next => .cdTo _ _)

theorem cdReady_idle {args : CStr} (h : ¬ (Command.cd args).Calls) :
    ∃ r host', cdReady fails fuel args (k, host) = some (r, k, host') ∧
      host'.fat16Initialized = host.fat16Initialized := by
  rw [Command.Calls, not_not] at h
  show ∃ r host', (if args.at 0 = 0 then _ else _ : Action (Kernel × Host) CdReply) (k, host) =
    some (r, k, host') ∧ _
  split
  · exact ⟨_, host, rfl, rfl⟩
  split
  · exact ⟨_, _, rfl, rfl⟩
  have hdot : args.at 0 = chDot ∧ args.at 1 = 0 := (h.resolve_left ‹_›).resolve_left ‹_›
  split
  · rename_i hup
    exact absurd (hup.2.1.symm.trans hdot.2) (by decide)
  · exact ⟨_, host, rfl, rfl⟩

variable (hres : ∀ l g, Boots g (boots l) → 0 < g.bpb.reservedSectors)
include hres

theorem wp_ensured {p : Action (Kernel × Host) α} (hp : Body fails p) (a : α) (n : Nat)
    (h : Tended boots k)
    (hready : host.fat16Initialized = true → Boots k.globals (boots k.letter)) :
    (do
      let ready ← readyWithin fails n
      if ready then p else pure a : Action (Kernel × Host) α).wp (fun _ s =>
        Ended boots k.current k.globals host.fat16Initialized s.1 s.2.fat16Initialized)
      (k, host) := by
  rw [Action.wp_bind]
  cases hflag : host.fat16Initialized with
  | true =>
    intro ready s hrun
    cases (readyWithin_ready hflag n).symm.trans hrun
    have hprepared : Prepared boots k.letter k := ⟨h, rfl, hready hflag⟩
    simp only [↓reduceIte]
    refine Action.wp_mono (hp.prepared hres hprepared) (fun _ s' h' => ?_)
    exact ⟨h'.tended, fun _ => h'.globals.unique hprepared.globals, fun hno => by cases hno⟩
  | false =>
    refine Action.wp_mono (h.readyWithin hflag n) (fun ok s h₁ => ?_)
    obtain ⟨htended, hsame, hprepared⟩ := h₁
    refine Action.wp_ite (fun hok => ?_) (fun hok => ?_)
    · exact Action.wp_mono (hp.prepared hres (hprepared hok))
        (fun _ s' h' => ⟨h'.tended, (fun hno => by cases hno), fun _ _ => h'.globals⟩)
    · refine (Action.wp_pure a).mpr ⟨htended, (fun hno => by cases hno), fun _ hyes => ?_⟩
      exact absurd (hsame.symm.trans hyes) hok

/-- A shell whose flag is set has the globals of the driver's drive in front of every command that
calls the driver. -/
theorem Command.ended (cmd : Command) (h : Tended boots k)
    (hready : cmd.Calls → host.fat16Initialized = true → Boots k.globals (boots k.letter)) :
    (cmd.run fails fuel).wp (fun _ s =>
      Ended boots k.current k.globals host.fat16Initialized s.1 s.2.fat16Initialized) (k, host) := by
  have hidle : (pure () : Cmd).wp (fun _ s =>
      Ended boots k.current k.globals host.fat16Initialized s.1 s.2.fat16Initialized) (k, host) :=
    (Action.wp_pure _).mpr ⟨h, fun _ => rfl, fun hno hyes => absurd (hno.symm.trans hyes) (by decide)⟩
  cases cmd with
  | dir =>
    refine wp_ensured hres (.bind .getHost (fun host => ?_)) () 3 h (hready trivial)
    exact .driver (fun _ _ => listDir_confined _ _)
  | cd args =>
    refine (Action.wp_bind _ _).mpr (Action.wp_mono ?_ (fun _ _ hend => (Action.wp_pure _).mpr hend))
    by_cases hc : (Command.cd args).Calls ∨ host.fat16Initialized = false
    · refine wp_ensured hres (.cdReady args) .noDisk 3 h (fun hflag => ?_)
      exact hready (hc.resolve_right (by rw [hflag]; decide)) hflag
    · rw [not_or, Bool.not_eq_false] at hc
      obtain ⟨r, host', hrun', hflag'⟩ := @cdReady_idle fails fuel k host args hc.1
      refine (Action.wp_bind _ _).mpr (fun ready s hrun => ?_)
      cases (readyWithin_ready hc.2 3).symm.trans hrun
      intro _ s hrun
      cases hrun'.symm.trans hrun
      exact ⟨h, fun _ => rfl, fun hno => absurd (hno.symm.trans hc.2) (by decide)⟩
  | type args =>
    refine Action.wp_ite (fun _ => hidle) (fun hc => ?_)
    exact wp_ensured hres (.bind .getHost (fun host => .bind .readFileFromDir (fun _ => .pure _)))
      () 3 h (hready hc)
  | mkdir args =>
    refine Action.wp_ite (fun _ => hidle) (fun hc => ?_)
    exact wp_ensured hres (.bind .getHost (fun host => .bind .mkdir (fun _ => .pure _))) () 3 h
      (hready hc)
  | rmdir args =>
    refine Action.wp_ite (fun _ => hidle) (fun hc => ?_)
    exact wp_ensured hres (.bind .getHost (fun host => .bind .rmdir (fun _ => .pure _))) () 3 h
      (hready hc)
  | del args =>
    refine Action.wp_ite (fun _ => hidle) (fun hc => ?_)
    refine wp_ensured hres (.bind .getHost (fun host => .ite ?_ ?_)) () 3 h (hready hc)
    · exact .bind (.driver (fun _ hg => deleteMatching_within hg.clusters _ _ _ _)) (fun _ => .pure _)
    · exact .bind .deleteEntry (fun _ => .pure _)
  | copy args =>
    rw [Command.run, cmdCopy]
    cases hargs : parseTwoArgs args with
    | none => exact hidle
    | some names =>
      refine wp_ensured hres (.bind .getHost (fun host => .bind .copyFileBetweenDirs
        (fun _ => .pure _))) () 3 h (hready ?_)
      rw [Command.Calls, hargs]
      rfl
  | move args =>
    rw [Command.run, cmdMove]
    cases hargs : parseTwoArgs args with
    | none => exact hidle
    | some names =>
      refine wp_ensured hres (.bind .getHost (fun host => .bind .findEntry (fun found => ?_))) () 3 h
        (hready ?_)
      · cases found with
        | none => exact .pure _
        | some x => exact .ite (.pure _) (.bind .updateEntry (fun _ => .pure _))
      · rw [Command.Calls, hargs]
        rfl
  | drive letter =>
    simp only [Command.run, switchDrive, Action.wp_bind, Action.wp_get]
    refine Action.wp_ite (fun hv => ?_) (fun _ => hidle)
    simp only [driveSetCurrent, setDrive, setHost, Action.wp_bind, Action.wp_onFst,
      Action.wp_modify]
    rw [if_pos hv]
    exact ⟨h.congr rfl rfl, fun _ => rfl, fun _ hyes => by cases hyes⟩
  | complete index =>
    exact wp_ensured hres (.bind .getHost (fun host => .bind .getEntryByIndex (fun _ => .pure _)))
      () 3 h (hready trivial)

theorem stageImage_ended (name : CStr) (maxSize : Nat) (h : Tended boots k)
    (hready : host.fat16Initialized = true → Boots k.globals (boots k.letter)) :
    (stageImage fails fuel name maxSize).wp (fun _ s =>
      Ended boots k.current k.globals host.fat16Initialized s.1 s.2.fat16Initialized) (k, host) :=
  wp_ensured hres (.bind .getHost (fun _ => .bind .readFileFromDir (fun _ => .pure _))) false 1 h
    hready

end Commands

end Files
end MiniDos
