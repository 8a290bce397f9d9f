import MiniDos.Files.Dirs

/-!
# MiniDos.Files.DirCalls

What each file system call of a task, and each command of the shell, does to the directories that
are remembered.

* `Careful`: the calls that take away no directory of a set, and rename no dot entry.
* `Before.syscall`, `Prompt.command`: a careful call leaves the drive well-formed with its dots, and
  every directory of the set there.
-/

namespace MiniDos
namespace Files

open BlockIO Fat16 Drive

variable {v fuel : Nat} {g : Globals} {S : Nat → Prop} {P : Prop} {k k' : Kernel} {t t' : Task}

def SparesDots (g : Globals) (d : Disk) (dir : Nat) (name newName : CStr) : Prop :=
  name.at 0 ≠ 0 → ∀ l p, Chained g d dir l → lookup name d (dirSlots g dir l) = some p →
    (entryAt d p).isDot = true → formatName newName = none ∨
      lookup newName d (dirSlots g dir l) ≠ none

/-- The names of the call take no directory of `S` away, and no dot entry. -/
def Careful (g : Globals) (S : Nat → Prop) (d : Disk) (t : Task) (num : Syscall) (args : Args) :
    Prop :=
  match num with
  | .rmdir | .deleteEntry => ∀ name, copyUserUpper t args.mem args.a0 = some name →
      ∀ c, S c → ¬ Gone g d t.currentDirCluster name c
  | .renameEntry => ∀ name newName, copyUserUpper t args.mem args.a0 = some name →
      copyUserUpper t args.mem args.a1 = some newName →
      SparesDots g d t.currentDirCluster name newName ∧
        ∀ c, S c → ¬ Erased g d t.currentDirCluster name newName c
  | _ => True

theorem Sound.finish (h : Sound v g S True k) (hdrive : t.drive = v)
    (hcur : IsDir g (k.disks v) t.currentDirCluster)
    (hclip : IsDir g (k.disks v) t.appClipSrcCluster) (x : Int) :
    (do
      leaveDriveContext v
      pure x : Call).wp (fun _ s => After v g S P s) (k, t) := by
  refine h.leave (fun k' hk hdisks => ?_)
  rw [Action.wp_pure]
  rw [← hdisks] at hcur hclip
  exact ⟨hk.weaken, hdrive, hcur, hclip⟩

theorem wp_task {α : Type} {f : Task → Action (Kernel × Task) α} {Q : α → Kernel × Task → Prop}
    (h : (f t).wp Q (k, t)) : (getTask >>= f).wp Q (k, t) := by
  unfold getTask
  simpa only [Action.wp_bind, Action.wp_get, Action.wp_pure] using h

namespace Before

variable (h : Before v g S P k t)
include h

theorem finish (hk : Sound v g S True k') (x : Int) :
    (do
      leaveDriveContext v
      pure x : Call).wp (fun _ s => After v g S P s) (k', t.ready) := by
  have hdrive : t.ready.drive = v := h.drive
  exact hk.finish hdrive (hk.dirs _ h.cur) (hk.dirs _ h.clip) x

theorem named {o : Option CStr} {f : CStr → Call} {x : Int} :
    (∀ name, o = some name → (f name).wp (fun _ s => After v g S P s) (k, t)) →
    (match o with
      | none => pure x
      | some name => f name : Call).wp (fun _ s => After v g S P s) (k, t) := by
  intro hname
  cases o with
  | none => exact h.refuse x
  | some name => exact hname name rfl

theorem twoNamed {o o' : Option CStr} {f : CStr → CStr → Call} {x : Int} :
    (∀ nameA nameB, o = some nameA → o' = some nameB →
      (f nameA nameB).wp (fun _ s => After v g S P s) (k, t)) →
    (match o, o' with
      | some nameA, some nameB => f nameA nameB
      | _, _ => pure x : Call).wp (fun _ s => After v g S P s) (k, t) := by
  intro hname
  cases o with
  | none => exact h.refuse x
  | some nameA =>
    cases o' with
    | none => exact h.refuse x
    | some nameB => exact hname nameA nameB rfl rfl

theorem entered {α : Type} {p : Action (Kernel × Task) α} {f : Bool × Nat → α → Call} {x : Int}
    {Q : Int → Kernel × Task → Prop} (hp : ∀ k', Sound v g S True k' → k'.disks = k.disks →
      p.wp (fun a s => (f (true, v) a).wp Q s) (k', t.ready)) :
    (enterDriveContext noFaults >>= fun e => if e.1 then p >>= f e else pure x).wp Q (k, t) := by
  refine h.enter (fun k₁ hk₁ hdisks => ?_)
  simp only [↓reduceIte]
  rw [Action.wp_bind]
  exact hp k₁ hk₁ hdisks

variable (hg : g.Valid) (hfuel : g.getTotalClusters ≤ fuel) (args : Args)

section Reading

theorem fileRead :
    (Files.fileRead noFaults fuel args).wp (fun _ s => After v g S P s) (k, t) := by
  refine wp_task (Action.wp_ite (fun _ => h.refuse _) (fun _ => h.named (fun nameA _ => ?_)))
  refine h.entered (fun k₁ hk₁ _ => ?_)
  exact hk₁.read (readFileFromDir_confined _ _ _ _) (fun _ k₂ hk₂ => h.finish hk₂ _)

theorem listEntry :
    (Files.listEntry noFaults fuel args).wp (fun _ s => After v g S P s) (k, t) := by
  refine wp_task (Action.wp_ite (fun _ => h.refuse _) (fun _ => ?_))
  refine h.entered (fun k₁ hk₁ _ => ?_)
  exact hk₁.read (getEntryByIndex_confined _ _ _) (fun _ k₂ hk₂ => h.finish hk₂ _)

theorem chdirTo (hk : Sound v g S True k') {next : Option Nat}
    (hnext : ∀ c, next = some c → IsDir g (k'.disks v) c) (path : CStr → Option CStr) :
    (do
      let result ← Files.chdirTo path next
      leaveDriveContext v
      pure result : Call).wp (fun _ s => After v g S P s) (k', t.ready) := by
  rw [Action.wp_bind]
  cases next with
  | none => exact (Action.wp_pure _).mpr (h.finish hk _)
  | some c =>
    refine wp_task ?_
    cases path t.ready.currentPath with
    | none => exact (Action.wp_pure _).mpr (h.finish hk _)
    | some path =>
      simp only [setTask, Action.wp_bind (Action.modify _), Action.wp_modify, Action.wp_pure]
      exact hk.finish (t := { t.ready with currentDirCluster := c, currentPath := path }) h.drive
        (hnext c rfl) (hk.dirs _ h.clip) _

include hg hfuel

theorem fileSize :
    (Files.fileSize noFaults fuel args).wp (fun _ s => After v g S P s) (k, t) := by
  refine wp_task (h.named (fun nameA _ => ?_))
  refine h.entered (fun k₁ hk₁ _ => ?_)
  refine hk₁.findEntry hg hfuel (hk₁.dirs _ h.cur) (fun r k₂ hk₂ _ _ => ?_)
  cases r with
  | none => exact h.finish hk₂ _
  | some x => exact h.finish hk₂ _

theorem chdir :
    (Files.chdir noFaults fuel args).wp (fun _ s => After v g S P s) (k, t) := by
  refine wp_task ?_
  cases copyUserString t args.mem args.a0 nameSize with
  | none => exact h.refuse _
  | some nameA =>
    dsimp only
    cases driveName nameA with
    | some letter =>
      simp only [chdirDrive, Action.wp_bind, Action.wp_get]
      refine Action.wp_ite (fun hv => ?_) (fun _ => h.refuse _)
      simp only [setTask, Action.wp_bind, Action.wp_modify, Action.wp_pure]
      exact { h.after with drive := (h.sound.valid _).mp hv, cur := .root }
    | none =>
      refine Action.wp_ite (fun _ => ?_) (fun _ => ?_)
      · simp only [setTask, Action.wp_bind, Action.wp_modify, Action.wp_pure]
        exact { h.after with cur := .root }
      refine Action.wp_ite (fun _ => wp_task ?_) (fun _ => Action.wp_ite (fun _ => h.refuse _)
        (fun _ => wp_task ?_))
      · refine h.entered (fun k₁ hk₁ _ => ?_)
        refine hk₁.getParentCluster hg hfuel (hk₁.dirs _ h.cur) (fun r k₂ hk₂ hsame hr => ?_)
        exact h.chdirTo hk₂ (fun c hc => hsame ▸ hr c hc) _
      · refine h.entered (fun k₁ hk₁ _ => ?_)
        refine hk₁.findDirCluster hg hfuel (hk₁.dirs _ h.cur) (fun r k₂ hk₂ hsame hr => ?_)
        exact h.chdirTo hk₂ (fun c hc => hsame ▸ hr c hc) _

theorem clipSet :
    (Files.clipSet noFaults fuel args).wp (fun _ s => After v g S P s) (k, t) := by
  refine wp_task (h.named (fun nameA _ => ?_))
  refine h.entered (fun k₁ hk₁ _ => ?_)
  refine hk₁.findEntry hg hfuel (hk₁.dirs _ h.cur) (fun r k₂ hk₂ _ _ => ?_)
  rw [Action.wp_bind]
  cases r with
  | none => exact (Action.wp_pure _).mpr (h.finish hk₂ _)
  | some x =>
    refine Action.wp_ite (fun _ => (Action.wp_pure _).mpr (h.finish hk₂ _)) (fun _ => ?_)
    simp only [setTask, Action.wp_bind (Action.modify _), Action.wp_modify, Action.wp_pure]
    exact hk₂.finish (t := { t.ready with
      appClipName := nameA
      appClipSrcCluster := t.currentDirCluster
      appClipMode := if asInt args.a1 = 2 then 2 else 1 }) h.drive (hk₂.dirs _ h.cur)
      (hk₂.dirs _ h.cur) _

end Reading

section Changing

variable (hres : 0 < g.bpb.reservedSectors)
include hg hfuel hres

theorem fileWrite :
    (Files.fileWrite noFaults fuel args).wp (fun _ s => After v g S P s) (k, t) := by
  refine wp_task (Action.wp_ite (fun _ => h.refuse _) (fun _ => h.named (fun nameA _ => ?_)))
  refine h.entered (fun k₁ hk₁ _ => ?_)
  exact hk₁.write hg hres hfuel (hk₁.dirs _ h.cur) (fun _ k₂ hk₂ => h.finish hk₂ _) _ _

theorem copyFile :
    (Files.copyFile noFaults fuel args).wp (fun _ s => After v g S P s) (k, t) := by
  refine wp_task (h.twoNamed (fun nameA nameB _ _ => ?_))
  refine h.entered (fun k₁ hk₁ _ => ?_)
  exact hk₁.copy hg hres hfuel (hk₁.dirs _ h.cur) (fun _ k₂ hk₂ => h.finish hk₂ _)
    (hk₁.dirs _ h.cur) _

theorem mkdir :
    (Files.mkdir noFaults fuel args).wp (fun _ s => After v g S P s) (k, t) := by
  refine wp_task (h.named (fun nameA _ => ?_))
  refine h.entered (fun k₁ hk₁ _ => ?_)
  exact hk₁.mkdir hg hres hfuel (hk₁.dirs _ h.cur) (fun _ k₂ hk₂ => h.finish hk₂ _)

theorem rmdir (hsafe : Careful g S (k.disks v) t .rmdir args) :
    (Files.rmdir noFaults fuel args).wp (fun _ s => After v g S P s) (k, t) := by
  refine wp_task (h.named (fun nameA hname => ?_))
  refine h.entered (fun k₁ hk₁ hdisks => ?_)
  rw [← hdisks] at hsafe
  exact hk₁.rmdir hg hres hfuel (hk₁.dirs _ h.cur) (fun _ k₂ hk₂ => h.finish hk₂ _)
    (hsafe nameA hname)

theorem deleteEntry (hsafe : Careful g S (k.disks v) t .deleteEntry args) :
    (Files.deleteEntry noFaults fuel args).wp (fun _ s => After v g S P s) (k, t) := by
  refine wp_task (h.named (fun nameA hname => ?_))
  refine h.enter (fun k₁ hk₁ hdisks => ?_)
  simp only [↓reduceIte]
  rw [← hdisks] at hsafe
  rw [Action.wp_bind]
  refine hk₁.findEntry hg hfuel (hk₁.dirs _ h.cur) (fun r k₂ hk₂ hsame _ => ?_)
  rw [← hsame] at hsafe
  rw [Action.wp_bind]
  cases r with
  | none => exact (Action.wp_pure _).mpr (h.finish hk₂ _)
  | some x =>
    refine Action.wp_ite (fun _ => ?_) (fun _ => ?_)
    · exact hk₂.rmdir hg hres hfuel (hk₂.dirs _ h.cur) (fun _ k₃ hk₃ => h.finish hk₃ _)
        (hsafe nameA hname)
    · exact hk₂.delete hg hres hfuel (hk₂.dirs _ h.cur) (fun _ k₃ hk₃ => h.finish hk₃ _)

theorem moveFile :
    (Files.moveFile noFaults fuel args).wp (fun _ s => After v g S P s) (k, t) := by
  refine wp_task (h.twoNamed (fun nameA nameB _ _ => ?_))
  refine h.entered (fun k₁ hk₁ _ => ?_)
  refine hk₁.findEntry hg hfuel (hk₁.dirs _ h.cur) (fun r k₂ hk₂ hsame hr => ?_)
  rw [Action.wp_bind]
  cases r with
  | none => exact (Action.wp_pure _).mpr (h.finish hk₂ _)
  | some x =>
    refine Action.wp_ite (fun _ => (Action.wp_pure _).mpr (h.finish hk₂ _)) (fun hfile => ?_)
    have hx := hr x rfl
    rw [← hsame] at hx
    exact hk₂.updateFile hg hres hfuel (hk₂.dirs _ h.cur) (fun _ k₃ hk₃ => h.finish hk₃ _) hx
      (by simpa using hfile)

theorem renameEntry (hsafe : Careful g S (k.disks v) t .renameEntry args) :
    (Files.renameEntry noFaults fuel args).wp (fun _ s => After v g S P s) (k, t) := by
  refine wp_task (h.twoNamed (fun nameA nameB hname hname' => ?_))
  obtain ⟨hspare, hsafe⟩ := hsafe nameA nameB hname hname'
  refine h.enter (fun k₁ hk₁ hdisks => ?_)
  simp only [↓reduceIte]
  rw [← hdisks] at hspare hsafe
  rw [Action.wp_bind]
  refine hk₁.findEntry hg hfuel (hk₁.dirs _ h.cur) (fun r k₂ hk₂ hsame hr => ?_)
  rw [← hsame] at hspare hsafe
  rw [Action.wp_bind]
  cases r with
  | none => exact (Action.wp_pure _).mpr (h.finish hk₂ _)
  | some x =>
    obtain ⟨hne, l, p, hl, hp, rfl⟩ := hr x rfl
    rw [← hsame] at hl hp
    rw [← hsame]
    exact hk₂.update hg hres hfuel (hk₂.dirs _ h.cur) (fun _ k₃ hk₃ => h.finish hk₃ _) hne hl hp
      (hspare hne l p hl hp) hsafe

theorem copyToDir (move : Bool) :
    (Files.copyToDir noFaults fuel move args).wp (fun _ s => After v g S P s) (k, t) := by
  refine wp_task (h.twoNamed (fun nameA nameB _ _ => ?_))
  refine h.entered (fun k₁ hk₁ _ => ?_)
  refine hk₁.findDirCluster hg hfuel (hk₁.dirs _ h.cur) (fun r k₂ hk₂ hsame hr => ?_)
  rw [Action.wp_bind]
  cases r with
  | none => exact (Action.wp_pure _).mpr (h.finish hk₂ _)
  | some dst =>
    rw [copyInto, Action.wp_bind]
    refine hk₂.copy hg hres hfuel (hk₂.dirs _ h.cur) (fun copied k₃ hk₃ => ?_)
      (hsame ▸ hr dst rfl) _
    refine Action.wp_ite (fun _ => ?_) (fun _ => (Action.wp_pure _).mpr (h.finish hk₃ _))
    exact hk₃.delete hg hres hfuel (hk₃.dirs _ h.cur) (fun _ k₄ hk₄ => h.finish hk₄ _)

theorem pasteInto (hk : Sound v g S True k') {dst : Nat} (hdst : IsDir g (k'.disks v) dst) :
    (do
      let result ← Files.pasteInto noFaults fuel t dst
      leaveDriveContext v
      pure result : Call).wp (fun _ s => After v g S P s) (k', t.ready) := by
  rw [Action.wp_bind, Files.pasteInto, Action.wp_bind]
  refine hk.copy hg hres hfuel (hk.dirs _ h.clip) (fun copied k₁ hk₁ => ?_) hdst _
  refine Action.wp_ite (fun _ => (Action.wp_pure _).mpr (h.finish hk₁ _)) (fun _ => ?_)
  refine Action.wp_ite (fun _ => ?_) (fun _ => (Action.wp_pure _).mpr (h.finish hk₁ _))
  rw [pasteMoved, Action.wp_bind]
  refine hk₁.delete hg hres hfuel (hk₁.dirs _ h.clip) (fun ok k₂ hk₂ => ?_)
  refine Action.wp_ite (fun _ => ?_) (fun _ => (Action.wp_pure _).mpr (h.finish hk₂ _))
  simp only [setTask, Action.wp_bind (Action.modify _), Action.wp_modify, Action.wp_pure]
  exact hk₂.finish (t := { t.ready with appClipMode := 0, appClipName := [] }) h.drive
    (hk₂.dirs _ h.cur) (hk₂.dirs _ h.clip) _

theorem clipPaste :
    (Files.clipPaste noFaults fuel args).wp (fun _ s => After v g S P s) (k, t) := by
  refine wp_task (Action.wp_ite (fun _ => h.refuse _) (fun _ => ?_))
  refine h.enter (fun k₁ hk₁ _ => ?_)
  simp only [↓reduceIte]
  have hhere := hk₁.dirs _ h.cur
  refine Action.wp_ite (fun _ => h.pasteInto hg hfuel hres hk₁ hhere) (fun _ => ?_)
  cases copyUserString t args.mem args.a0 nameSize with
  | none => exact h.finish hk₁ _
  | some nameA =>
    cases nameA with
    | nil => exact h.pasteInto hg hfuel hres hk₁ hhere
    | cons c cs =>
      dsimp only
      rw [Action.wp_bind]
      refine hk₁.findDirCluster hg hfuel hhere (fun r k₂ hk₂ hsame hr => ?_)
      cases r with
      | none => exact h.finish hk₂ _
      | some dst => exact h.pasteInto hg hfuel hres hk₂ (hsame ▸ hr dst rfl)

theorem syscall {num : Syscall} (hsafe : Careful g S (k.disks v) t num args) :
    (Files.syscall noFaults fuel num args).wp (fun _ s => After v g S P s) (k, t) := by
  cases num with
  | fileSize => exact h.fileSize hg hfuel args
  | fileRead => exact h.fileRead args
  | fileWrite => exact h.fileWrite hg hfuel args hres
  | listEntry => exact h.listEntry args
  | copyFile => exact h.copyFile hg hfuel args hres
  | moveFile => exact h.moveFile hg hfuel args hres
  | chdir => exact h.chdir hg hfuel args
  | mkdir => exact h.mkdir hg hfuel args hres
  | rmdir => exact h.rmdir hg hfuel args hres hsafe
  | deleteEntry => exact h.deleteEntry hg hfuel args hres hsafe
  | renameEntry => exact h.renameEntry hg hfuel args hres hsafe
  | copyToDir => exact h.copyToDir hg hfuel args hres false
  | moveToDir => exact h.copyToDir hg hfuel args hres true
  | clipSet => exact h.clipSet hg hfuel args
  | clipPaste => exact h.clipPaste hg hfuel args hres

end Changing

end Before

/-! ## The shell -/

/-- What a command of the shell starts from; `P`: somebody has the flag set. -/
structure Prompt (v : Nat) (g : Globals) (S : Nat → Prop) (P : Prop) (k : Kernel) (t : Host) :
    Prop where
  sound : Sound v g S P k
  flag : t.fat16Initialized = true → P
  cur : S t.currentDirCluster
  clip : S t.appClipSrcCluster

/-- What it ends with. -/
structure Done (v : Nat) (g : Globals) (S : Nat → Prop) (P : Prop) (s : Kernel × Host) :
    Prop where
  sound : Sound v g S (P ∨ s.2.fat16Initialized = true) s.1
  cur : IsDir g (s.1.disks v) s.2.currentDirCluster
  clip : IsDir g (s.1.disks v) s.2.appClipSrcCluster

def Host.ready (t : Host) : Host := { t with fat16Initialized := true }

namespace Prompt

variable {t : Host} (h : Prompt v g S P k t)
include h

theorem refuse : (pure () : Cmd).wp (fun _ s => Done v g S P s) (k, t) :=
  (Action.wp_pure ()).mpr ⟨h.sound.congr rfl h.sound.letter rfl
    (fun hp => h.sound.mounted (hp.elim id h.flag)), h.sound.dirs _ h.cur, h.sound.dirs _ h.clip⟩

theorem finish (hk : Sound v g S True k') : Done v g S P (k', t.ready) :=
  ⟨hk.weaken, hk.dirs _ h.cur, hk.dirs _ h.clip⟩

theorem done (hk : Sound v g S True k') :
    (pure () : Cmd).wp (fun _ s => Done v g S P s) (k', t.ready) :=
  (Action.wp_pure ()).mpr (h.finish hk)

theorem readyWithin {n : Nat} {Q : Bool → Kernel × Host → Prop} (hQ : ∀ k', Sound v g S True k' →
      k'.disks = k.disks → Q true (k', t.ready)) :
    (Files.readyWithin noFaults (n + 1)).wp Q (k, t) := by
  have hagain : ∀ k', Sound v g S True k' → k'.disks = k.disks →
      ∀ n, (Files.readyWithin noFaults n).wp Q (k', t.ready) := by
    intro k' hk hdisks n
    cases n <;> simp [Files.readyWithin, getHost, Host.ready] <;> exact hQ k' hk hdisks
  unfold Files.readyWithin getHost
  simp only [Action.wp_bind, Action.wp_get, Action.wp_pure]
  refine Action.wp_ite (fun hflag => ?_) (fun _ => ?_)
  · have ht : t.ready = t := by
      cases t
      simp only at hflag
      simp [Host.ready, hflag]
    have := hQ k (h.sound.congr rfl h.sound.letter rfl (fun _ => h.sound.mounted (h.flag hflag))) rfl
    rw [ht] at this
    exact (Action.wp_pure _).mpr this
  · simp only [driveGetCurrent, setDrive, Action.wp_bind, Action.wp_onFst, Action.wp_get,
      Action.wp_modify, Action.wp_pure, h.sound.current]
    have hsound : Sound v g S P { k with currentDrive := v, letter := v } :=
      h.sound.congr rfl rfl rfl h.sound.mounted
    refine hsound.init (fun k₁ hk₁ hdisks => ?_)
    simp only [setHost, Action.wp_modify]
    exact hagain k₁ hk₁ hdisks n

theorem within {α : Type} {f : Host → Action (Kernel × Host) α} {Q : α → Kernel × Host → Prop}
    (a : α) (hf : ∀ k', Sound v g S True k' → k'.disks = k.disks →
      (f t.ready).wp Q (k', t.ready)) :
    (do
      let ready ← ensureFat16Ready noFaults
      if ready then do
        let host ← getHost
        f host
      else pure a : Action (Kernel × Host) α).wp Q (k, t) := by
  rw [Action.wp_bind]
  refine h.readyWithin (fun k₁ hk₁ hdisks => ?_)
  simp only [↓reduceIte, getHost, Action.wp_bind, Action.wp_get, Action.wp_pure]
  exact hf k₁ hk₁ hdisks

theorem cmdDir : (Files.cmdDir noFaults fuel).wp (fun _ s => Done v g S P s) (k, t) :=
  h.within () (fun _ hk₁ _ => hk₁.list (fun _ _ hk₂ => h.finish hk₂))

theorem cmdType (args : CStr) :
    (Files.cmdType noFaults fuel args).wp (fun _ s => Done v g S P s) (k, t) := by
  refine Action.wp_ite (fun _ => h.refuse) (fun _ => h.within () (fun k₁ hk₁ _ => ?_))
  rw [Action.wp_bind]
  exact hk₁.read (readFileFromDir_confined _ _ _ _)
    (fun _ k₂ hk₂ => h.done hk₂)

theorem completeEntry (index : Nat) :
    (Files.completeEntry noFaults fuel index).wp (fun _ s => Done v g S P s) (k, t) := by
  refine h.within () (fun k₁ hk₁ _ => ?_)
  rw [Action.wp_bind]
  exact hk₁.read (getEntryByIndex_confined _ _ _)
    (fun _ k₂ hk₂ => h.done hk₂)

theorem stageImage (name : CStr) (maxSize : Nat) :
    (Files.stageImage noFaults fuel name maxSize).wp (fun _ s => Done v g S P s) (k, t) := by
  rw [Files.stageImage, Action.wp_bind]
  refine h.readyWithin (fun k₁ hk₁ _ => ?_)
  simp only [↓reduceIte, getHost, Action.wp_bind, Action.wp_get, Action.wp_pure]
  exact hk₁.read (readFileFromDir_confined _ _ _ _) (fun _ k₂ hk₂ => h.finish hk₂)

theorem switchDrive (letter : Nat) :
    (Files.switchDrive letter).wp (fun _ s => Done v g S P s) (k, t) := by
  unfold Files.switchDrive
  simp only [Action.wp_bind, Action.wp_get]
  refine Action.wp_ite (fun hv => ?_) (fun _ => h.refuse)
  have hletter := (h.sound.valid _).mp hv
  subst hletter
  simp only [Action.wp_bind, Action.wp_onFst, setHost, Action.wp_modify]
  have hselect := h.sound.select (Q := fun _ k' => Sound letter g S P k' ∧ k'.disks = k.disks)
    (fun k' hk hdisks _ => ⟨hk, hdisks⟩)
  rw [Action.wp_bind] at hselect
  refine Action.wp_mono hselect (fun _ k₁ h₁ => Action.wp_mono h₁ (fun _ k₂ h₂ => ?_))
  obtain ⟨hk, hdisks⟩ := h₂
  refine ⟨hk.congr rfl hk.letter rfl (fun hp => hk.mounted (hp.resolve_right Bool.false_ne_true)),
    .root, hk.dirs _ h.clip⟩

theorem cdTo (hk : Sound v g S True k') {next : Option Nat}
    (hnext : ∀ c, next = some c → IsDir g (k'.disks v) c) (path : CStr → Option CStr) :
    (Files.cdTo path next).wp (fun _ s => Done v g S P s) (k', t.ready) := by
  cases next with
  | none => exact (Action.wp_pure _).mpr (h.finish hk)
  | some c =>
    simp only [Files.cdTo, getHost, Action.wp_bind, Action.wp_get, Action.wp_pure]
    cases path t.ready.currentPath with
    | none => exact (Action.wp_pure _).mpr (h.finish hk)
    | some path =>
      simp only [setHost, Action.wp_bind, Action.wp_modify, Action.wp_pure]
      exact { h.finish hk with cur := hnext c rfl }

section Lookups

variable (hg : g.Valid) (hfuel : g.getTotalClusters ≤ fuel)
include hg hfuel

theorem cmdCd (args : CStr) :
    (Files.cmdCd noFaults fuel args).wp (fun _ s => Done v g S P s) (k, t) := by
  refine (Action.wp_bind _ _).mpr (Action.wp_mono ?_ (fun _ _ hend => (Action.wp_pure _).mpr hend))
  refine h.within CdReply.noDisk (fun k₁ hk₁ _ => ?_)
  have hdone : ∀ r : CdReply, (pure r : Action (Kernel × Host) CdReply).wp
      (fun _ s => Done v g S P s) (k₁, t.ready) := fun r => (Action.wp_pure r).mpr (h.finish hk₁)
  refine Action.wp_ite (fun _ => hdone _) (fun _ => ?_)
  refine Action.wp_ite (fun _ => ?_) (fun _ => Action.wp_ite (fun _ => ?_) (fun _ => ?_))
  · simp only [setHost, Action.wp_bind, Action.wp_modify, Action.wp_pure]
    exact { h.finish hk₁ with cur := .root }
  · rw [Action.wp_bind]
    refine hk₁.getParentCluster hg hfuel (hk₁.dirs _ h.cur) (fun r k₂ hk₂ hsame hr => ?_)
    exact h.cdTo hk₂ (fun c hc => hsame ▸ hr c hc) _
  · refine Action.wp_ite (fun _ => hdone _) (fun _ => ?_)
    rw [Action.wp_bind]
    refine hk₁.findDirCluster hg hfuel (hk₁.dirs _ h.cur) (fun r k₂ hk₂ hsame hr => ?_)
    exact h.cdTo hk₂ (fun c hc => hsame ▸ hr c hc) _

end Lookups

section Changing

variable (hg : g.Valid) (hfuel : g.getTotalClusters ≤ fuel) (hres : 0 < g.bpb.reservedSectors)
include hg hfuel hres

theorem cmdMkdir (args : CStr) :
    (Files.cmdMkdir noFaults fuel args).wp (fun _ s => Done v g S P s) (k, t) := by
  refine Action.wp_ite (fun _ => h.refuse) (fun _ => h.within () (fun k₁ hk₁ _ => ?_))
  rw [Action.wp_bind]
  exact hk₁.mkdir hg hres hfuel (hk₁.dirs _ h.cur)
    (fun _ k₂ hk₂ => h.done hk₂)

theorem cmdCopy (args : CStr) :
    (Files.cmdCopy noFaults fuel args).wp (fun _ s => Done v g S P s) (k, t) := by
  unfold Files.cmdCopy
  cases parseTwoArgs args with
  | none => exact h.refuse
  | some names =>
    refine h.within () (fun k₁ hk₁ _ => ?_)
    rw [Action.wp_bind]
    exact hk₁.copy hg hres hfuel (hk₁.dirs _ h.cur)
      (fun _ k₂ hk₂ => h.done hk₂) (hk₁.dirs _ h.cur) _

theorem cmdMove (args : CStr) :
    (Files.cmdMove noFaults fuel args).wp (fun _ s => Done v g S P s) (k, t) := by
  unfold Files.cmdMove
  cases parseTwoArgs args with
  | none => exact h.refuse
  | some names =>
    refine h.within () (fun k₁ hk₁ _ => ?_)
    rw [Action.wp_bind]
    refine hk₁.findEntry hg hfuel (hk₁.dirs _ h.cur) (fun r k₂ hk₂ hsame hr => ?_)
    cases r with
    | none => exact h.done hk₂
    | some x =>
      refine Action.wp_ite (fun _ => h.done hk₂) (fun hfile => ?_)
      have hx := hr x rfl
      rw [← hsame] at hx
      rw [Action.wp_bind]
      exact hk₂.updateFile hg hres hfuel (hk₂.dirs _ h.cur)
        (fun _ k₃ hk₃ => h.done hk₃) hx (by simpa using hfile)

theorem cmdRmdir {args : CStr} (hsafe : ∀ c, S c →
      ¬ Gone g (k.disks v) t.currentDirCluster (strCopyUpper args) c) :
    (Files.cmdRmdir noFaults fuel args).wp (fun _ s => Done v g S P s) (k, t) := by
  refine Action.wp_ite (fun _ => h.refuse) (fun _ => h.within () (fun k₁ hk₁ hdisks => ?_))
  rw [← hdisks] at hsafe
  rw [Action.wp_bind]
  exact hk₁.rmdir hg hres hfuel (hk₁.dirs _ h.cur)
    (fun _ k₂ hk₂ => h.done hk₂) hsafe

theorem cmdDel {args : CStr} (hsafe : hasWildcards (strCopyUpper args) = true →
      Chainless g (k.disks v) t.currentDirCluster (strCopyUpper args)) :
    (Files.cmdDel noFaults fuel args).wp (fun _ s => Done v g S P s) (k, t) := by
  refine Action.wp_ite (fun _ => h.refuse) (fun _ => h.within () (fun k₁ hk₁ hdisks => ?_))
  rw [← hdisks] at hsafe
  refine Action.wp_ite (fun hwild => ?_) (fun _ => ?_)
  · rw [Action.wp_bind]
    exact hk₁.sweep hg hres hfuel (hk₁.dirs _ h.cur) (hsafe hwild)
      (fun _ k₂ hk₂ => h.done hk₂)
  · rw [Action.wp_bind]
    exact hk₁.delete hg hres hfuel (hk₁.dirs _ h.cur)
      (fun _ k₂ hk₂ => h.done hk₂)

end Changing

end Prompt

/-- The command takes no directory of `S` away, and sweeps no file that has clusters. -/
def Command.Careful (g : Globals) (S : Nat → Prop) (d : Disk) (t : Host) : Command → Prop
  | .rmdir args => ∀ c, S c → ¬ Gone g d t.currentDirCluster (strCopyUpper args) c
  | .del args => hasWildcards (strCopyUpper args) = true →
      Chainless g d t.currentDirCluster (strCopyUpper args)
  | _ => True

theorem Prompt.command {t : Host} (h : Prompt v g S P k t) (hg : g.Valid)
    (hfuel : g.getTotalClusters ≤ fuel) (hres : 0 < g.bpb.reservedSectors) {cmd : Command}
    (hsafe : cmd.Careful g S (k.disks v) t) :
    (cmd.run noFaults fuel).wp (fun _ s => Done v g S P s) (k, t) := by
  cases cmd with
  | dir => exact h.cmdDir
  | cd args => exact h.cmdCd hg hfuel args
  | type args => exact h.cmdType args
  | mkdir args => exact h.cmdMkdir hg hfuel hres args
  | rmdir args => exact h.cmdRmdir hg hfuel hres hsafe
  | del args => exact h.cmdDel hg hfuel hres hsafe
  | copy args => exact h.cmdCopy hg hfuel hres args
  | move args => exact h.cmdMove hg hfuel hres args
  | drive letter => exact h.switchDrive letter
  | complete index => exact h.completeEntry index

end Files
end MiniDos
